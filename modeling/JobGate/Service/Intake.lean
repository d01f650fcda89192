/-
How a message gets from its channel to the orchestrator and the queue.

A message is checked, read and taken by the orchestrator.  When that has a run
dispatched, the dispatch is put into the queue, which may take several attempts
while the queue is full.  A dispatch that does not get into the queue has its run
canceled, so that no run is left dispatched and forgotten.  `Intake` says how far
a message has come.
-/
import JobGate.Service.Site

namespace JobGate

/-- Why a message was not taken. -/
inductive IntakeError
  | blank (field : Inbound.Field)
  | orchestrator (error : OrchestratorError)
  | queue (run : String) (error : QueueError)
  | canceled (run : String)
deriving DecidableEq, Repr

def IntakeError.message : IntakeError → String
  | blank field => field.message
  | orchestrator e => e.message
  | queue run e => "failed to enqueue run " ++ run ++ ": " ++ e.message
  | canceled run => "enqueue of run " ++ run ++ " was canceled"

/-- How far a message has come. -/
inductive Intake
  /-- The dispatch of the outcome is to be put into the queue. -/
  | enqueuing (outcome : InboundOutcome) (dispatch : Dispatch)
  /-- The run is to be canceled, and then the error is the answer. -/
  | abandoning (run reason : String) (error : IntakeError)
  /-- The notices of the outcome are to be delivered. -/
  | answering (outcome : InboundOutcome)
  | done (result : Except IntakeError InboundOutcome)

namespace Intake

def actor : String := "intake"

variable {Q : Type} [ExecutionQueue Q]

/-- Checks and reads a message and has the orchestrator take it. -/
def take (s : Site Q) (clock : Readings) (draws : Draws) (m : Inbound) :
    Intake × Site Q × Draws :=
  match m.blankField? with
  | some field => (.done (.error (.blank field)), s, draws)
  | none =>
    match s.orchestrator.handle clock draws m (Intent.parse m.body) with
    | (.error e, orchestrator, draws) =>
      (.done (.error (.orchestrator e)), { s with orchestrator }, draws)
    | (.ok outcome, orchestrator, draws) =>
      let s := { s with orchestrator }
      match outcome.dispatch with
      | some d => (.enqueuing outcome d, s, draws)
      | none => (.answering outcome, s, draws)

/-- One step.  It leaves the phase as it is only when the queue is full or the
message has been dealt with. -/
def step (clock : Clock) (stopped : Bool) (i : Intake) (s : Site Q) : Intake × Site Q :=
  match i with
  | .enqueuing outcome d =>
    match s.callQueue (ExecutionQueue.offer · clock d stopped) with
    | (.ok (.entry _), s) => (.answering outcome, s)
    | (.ok .full, s) => (.enqueuing outcome d, s)
    | (.ok .canceled, s) =>
      let reason := "enqueue canceled before the queue had room"
      (.abandoning d.run.text reason (.canceled d.run.text), s)
    | (.error e, s) =>
      (.abandoning d.run.text ("enqueue failed: " ++ e.message) (.queue d.run.text e), s)
  | .abandoning run reason error =>
    match s.callOrchestrator (·.cancelRun clock.still run actor reason) with
    | (.ok outcome, s) => (.done (.error error), s.deliver outcome.notices)
    | (.error e, s) => (.done (.error (.orchestrator e)), s)
  | .answering outcome => (.done (.ok outcome), s.deliver outcome.notices)
  | .done result => (.done result, s)

/-- Takes steps until the message has been dealt with, or waits for room. -/
def settle (clock : Clock) (stopped : Bool) (i : Intake) (s : Site Q) : Intake × Site Q :=
  let (i, s) := step clock stopped i s
  step clock stopped i s

/-- Takes a message with nothing else happening in between.  The answer is
missing when the queue is full and nobody asks to stop. -/
def receive (s : Site Q) (clock : Clock) (draws : Draws) (m : Inbound) (stopped : Bool) :
    Option (Except IntakeError InboundOutcome) × Site Q × Draws :=
  let (i, s, draws) := take s clock.still draws m
  let (i, s) := settle clock stopped i s
  match i with
  | .done result => (some result, s, draws)
  | _ => (none, s, draws)

end Intake
end JobGate
