/-
The program.  Everything it decides is decided by `CommandLine.run`; what stands
here looks at the surroundings and prints.  Files, queues and the programs of jobs are
those of the host.
-/
import JobGate.CommandLine.Answer
import JobGate.Host.Storage
import JobGate.Service.Jobs
import Std.Time.DateTime.Timestamp

namespace JobGate

partial def readAll (input : IO.FS.Stream) (before : ByteArray) : IO ByteArray := do
  let bytes ← input.read 65536
  if bytes.isEmpty then return before else readAll input (before ++ bytes)

def findFile (path : String) : IO Settings.Found := do
  try
    return .text (← IO.FS.readFile path)
  catch
    | .noFileOrDirectory .. => return .nothing
    | _ => return .unreadable

def readClock : IO Clock := do
  let now := (← Std.Time.Timestamp.now).toNanosecondsSinceUnixEpoch.val
  let wall := (Instant.ofUnix? (now / 1000000000) (now % 1000000000).toNat).getD Instant.epoch
  return { wall, elapsed := 0 }

def readDraws (runs : Nat) : IO Draws := do
  let bytes := (← IO.getRandomBytes (4 * runs).toUSize).toList
  let number (i : Nat) : Nat :=
    ((bytes.drop (4 * i)).take 4).foldl (fun n b => 256 * n + b.toNat) 0
  return .ofList ((List.range runs).map fun i => some (number i))

/-- Carries a command line out; the answer is the exit status. -/
def perform (args : List String) : IO UInt32 := do
  let environment : Settings.Environment :=
    { path := ← IO.getEnv "RUNBRIDGE_CONFIG", home := ← IO.getEnv "HOME" }
  let request := CommandLine.Request.ofArgs args
  let (path, channel) :=
    match request with
    | .ok r => (r.settingsPath? environment, r.readsChannel)
    | .error _ => (none, false)
  let found ← path.elim (pure .nothing) findFile
  let input ← if channel then readAll (← IO.getStdin) .empty else pure .empty
  let clock ← readClock
  let draws ← readDraws (if channel then 64 else 0)
  let answer := CommandLine.run environment (fun _ => found)
    (fun s =>
      serve Host.storage { clock, execute := (Jobs.execute s.jobs · false) } draws s input.toList)
    args
  IO.print (Outbound.lines answer.messages)
  match answer.text with
  | .ok text =>
    IO.println text
    return 0
  | .error fault =>
    IO.eprintln fault.message
    return 1

end JobGate

def main (args : List String) : IO UInt32 := JobGate.perform args
