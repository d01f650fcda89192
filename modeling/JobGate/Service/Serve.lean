/-
Serving a channel of lines from its beginning to its end.

A desk is opened as its settings say, takes every line, and is closed when the
queue is empty.  Opening fails when the queue cannot be opened, and reading when a
line is no text; what was delivered before stays delivered.
-/
import JobGate.Queue.Storage
import JobGate.Service.Desk
import JobGate.Service.Setup

namespace JobGate

/-- How many lines had something in them, and how many of these were rejected. -/
structure Tally where
  received : Nat
  rejected : Nat
deriving DecidableEq, Repr

def Tally.ofOutcomes (outcomes : List LineOutcome) : Tally where
  received := outcomes.countP (·.received)
  rejected := outcomes.countP (·.rejected)

/-- Why a channel was not served to its end. -/
inductive ServeFault
  | queue (error : QueueError)
  | noText
deriving DecidableEq, Repr

def ServeFault.message : ServeFault → String
  | queue e => e.message
  | noText => "failed to read input: stream did not contain valid UTF-8"

/-- What serving a channel comes to. -/
structure Served where
  delivered : List Outbound := []
  result : Except ServeFault Tally

/-- The lines of an input, each with its text if it has one. -/
def inputLines (input : List UInt8) : List (Option String) :=
  (input.splitOn 10).map fun line => String.fromUTF8? ⟨line.toArray⟩

namespace Desk

/-- The desk that settings ask for, with nothing in it. -/
def open? (storage : String → Storage) (draws : Draws) (s : Settings) :
    Except QueueError (Desk Backend) :=
  (Backend.open? s.queue storage).map fun queue =>
    { site := { orchestrator := .new (Policy.ofSettings s.approval), queue, outbox := {} }, draws }

/-- Serves lines up to the first that is no text, and finishes the work when all
are. -/
def serveLines (c : Conditions) (worker : Option String) (lines : List (Option String))
    (d : Desk Backend) : Served :=
  let texts := (lines.takeWhile (·.isSome)).filterMap id
  let (outcomes, d) := d.run c worker (texts.map .line)
  if texts.length = lines.length then
    ⟨(d.finish c worker).site.outbox.delivered, .ok (.ofOutcomes outcomes)⟩
  else ⟨d.site.outbox.delivered, .error .noText⟩

end Desk

def serve (storage : String → Storage) (c : Conditions) (draws : Draws) (s : Settings)
    (input : List UInt8) : Served :=
  match Desk.open? storage draws s with
  | .error e => { result := .error (.queue e) }
  | .ok d => d.serveLines c (Crew.ofSettings s).names.head? (inputLines input)

end JobGate
