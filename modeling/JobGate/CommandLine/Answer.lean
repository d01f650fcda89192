/-
Command lines carried out.
-/
import JobGate.CommandLine.Request
import JobGate.Service.Serve
import JobGate.Settings.Location
import JobGate.Wire.Records

namespace JobGate
namespace CommandLine

/-- Why a command line was not carried out. -/
inductive Fault
  | misuse (fault : Misuse)
  | settings (fault : Settings.LoadFault)
  | serve (fault : ServeFault)
deriving DecidableEq, Repr

def Fault.message : Fault → String
  | misuse fault => fault.message
  | settings fault => fault.message
  | serve fault => fault.message

/-- What a command line leads to: messages, and then a text. -/
structure Answer where
  messages : List Outbound := []
  text : Except Fault String

def interpretation (text : String) : String := (Intent.parse text).toJson.indented

def settingsSummary (s : Settings) : String :=
  "settings ok: backend=" ++ s.queue.backend.name ++ " capacity=" ++ toString s.queue.capacity ++
    " workers=" ++ toString s.workers.count ++ " jobs=" ++ toString s.jobs.length

def tallySummary (t : Tally) : String :=
  "received " ++ toString t.received ++ " message(s), rejected " ++ toString t.rejected

def Answer.ofServed (s : Served) : Answer where
  messages := s.delivered
  text :=
    match s.result with
    | .ok tally => .ok (tallySummary tally)
    | .error fault => .error (.serve fault)

namespace Request

/-- Carries a request out.  `find` looks for settings, and `serve` serves the
channel with those that were found. -/
def answer (e : Settings.Environment) (find : String → Settings.Found)
    (serve : Settings → Served) (r : Request) : Answer :=
  match r with
  | .help => { text := .ok helpText }
  | .interpret text => { text := .ok (interpretation text) }
  | .check path =>
    { text := ((Settings.load e path find).map settingsSummary).mapError .settings }
  | .serve path =>
    match Settings.load e path find with
    | .ok s => .ofServed (serve s)
    | .error fault => { text := .error (.settings fault) }

end Request

def run (e : Settings.Environment) (find : String → Settings.Found) (serve : Settings → Served)
    (args : List String) : Answer :=
  match Request.ofArgs args with
  | .ok r => r.answer e find serve
  | .error fault => { text := .error (.misuse fault) }

end CommandLine
end JobGate
