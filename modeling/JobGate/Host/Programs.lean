/-
The programs of the host, as a platform for jobs.

A script is followed to a certain depth.  Of a script that goes deeper it is not
known whether it ever ends, and nobody is told that it has.
-/
import JobGate.Host.Tree
import JobGate.Service.Execution
import JobGate.Shell.Interpreter

namespace JobGate
namespace Host

def StartFault.ofPlatform : StartFault → Jobs.StartFault
  | .notFound => .missing
  | fault => .refused fault.message

/-- The directory in which a program starts, or why it cannot be started. -/
def place? (c : Jobs.Command) (e : Jobs.Environment) : Except Jobs.StartFault Names :=
  let texts := c.program :: c.args ++ c.directory.toList ++ e.map (·.2)
  if texts.any fun t => t.toList.contains '\x00' then
    .error (.refused "nul byte found in provided data")
  else
    let place : Except StartFault Names := do
      let directory ← c.directory.elim (.ok home) directory?
      let _ ← program? directory c.program
      return directory
    place.mapError StartFault.ofPlatform

/-- What a program leaves behind, if it can be followed to its end. -/
def ended? (c : Jobs.Command) (e : Jobs.Environment) (directory : Names) : Option Jobs.Ended :=
  let start : Shell.State :=
    { name := c.program, directory
      bindings := ("PWD", pathOf directory) :: e
      exported := "PWD" :: e.map (·.1) }
  let (result, s) :=
    (Shell.Interpreter.callProgram Shell.Interpreter.depth c.program c.args).run.run start
  let ended (exit : Jobs.Exit) : Jobs.Ended :=
    { exit, output := s.contents Shell.outputStream, errors := s.contents Shell.errorStream }
  match result with
  | .error .lost => none
  | .error (.killed _) => some (ended .signal)
  | _ => some (ended (.status (s.status % 256)))

/-- A program is still running at the first look. -/
def platform : Jobs.Platform := fun c e => do
  let directory ← place? c e
  return fun
    | 0 => .running
    | _ =>
      match ended? c e directory with
      | some ended => .ended ended
      | none => .unknown "the script is too deep to be followed"

end Host
end JobGate
