/-
What a chat message asks for.

A command is two words: a command word in any mixture of ASCII cases, and its
argument.  Everything else is not understood, and that is an intent too, so
reading a message never fails.
-/
import JobGate.Text.Blank

namespace JobGate

inductive IntentKind
  | unknown
  | runJob
  | approveRun
  | denyRun
  | status
deriving DecidableEq, Repr

namespace IntentKind

def name : IntentKind → String
  | unknown => "Unknown"
  | runJob => "RunJob"
  | approveRun => "ApproveRun"
  | denyRun => "DenyRun"
  | status => "Status"

/-- Every kind, in the order in which they are listed to a reader. -/
def all : List IntentKind := [unknown, runJob, approveRun, denyRun, status]

def ofName? (s : String) : Option IntentKind := all.find? (·.name = s)

def ofCommand? (word : List Char) : Option IntentKind :=
  let lower := word.map Char.toLower
  if lower = "run".toList then some runJob
  else if lower = "yes".toList || lower = "approve".toList then some approveRun
  else if lower = "no".toList || lower = "deny".toList then some denyRun
  else if lower = "status".toList then some status
  else none

end IntentKind

/-- An intent with the text it was read from.  Reading sets the job key for
`runJob` only and the run for the three kinds that name one. -/
structure Intent where
  kind : IntentKind
  rawText : String
  jobKey : Option String := none
  run : Option String := none
deriving DecidableEq, Repr

namespace Intent

def ofCommand (kind : IntentKind) (rawText argument : String) : Intent :=
  if kind = .runJob then { kind, rawText, jobKey := some argument }
  else { kind, rawText, run := some argument }

def parse (text : String) : Intent :=
  let rawText := Text.trim text
  match Text.words text.toList with
  | [command, argument] =>
    match IntentKind.ofCommand? command with
    | some kind => ofCommand kind rawText (String.ofList argument)
    | none => { kind := .unknown, rawText }
  | _ => { kind := .unknown, rawText }

end Intent
end JobGate
