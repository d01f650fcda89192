/-
The state that decides what happens to runs, and what its operations answer.

An orchestrator owns the records of all runs.  It does nothing else: the notices
and dispatches that follow from an operation are part of its answer.  Something
that cannot be done to a run is an answer with a condition; an error means that
the orchestrator could not work at all.
-/
import JobGate.Approval
import JobGate.Intent
import JobGate.Message.Outbound
import JobGate.Queue.Basic
import JobGate.Run.Store

namespace JobGate

/-- Runs, who may decide on them, and how many messages have been taken.  That number
is not bounded, where a counter of 64 bits would begin again after `2 ^ 64` messages. -/
structure Orchestrator where
  store : RunStore
  policy : Policy
  receipts : Nat

/-- Why an orchestrator could not work. -/
inductive OrchestratorError
  | poisoned
  | corrupt (run : String) (fault : RecordFault)
  | noIdentifier (fault : RunId.DrawFault)
  /-- Every identifier drawn was taken. -/
  | allTaken (draws : Nat)
deriving DecidableEq, Repr

def OrchestratorError.message : OrchestratorError → String
  | .poisoned => "run store lock poisoned"
  | .corrupt run fault => "run `" ++ run ++ "` event log is corrupt: " ++ fault.message
  | .noIdentifier fault => "failed to allocate run id: " ++ fault.message
  | .allTaken draws =>
    "failed to allocate run id: no unique run id after " ++ toString draws ++ " attempts"

/-- Why a message changed nothing. -/
inductive InboundCondition
  | notFound (run : String)
  | invalidTransition (run : String) (status : Status)
  | unauthorized (run sender : String)
deriving DecidableEq, Repr

/-- What followed from a message. -/
structure InboundOutcome where
  intent : IntentKind
  jobKey : Option String
  run : Option String
  /-- Whether the message had a run executed. -/
  dispatched : Bool := false
  notices : List Notice := []
  dispatch : Option Dispatch := none
  condition : Option InboundCondition := none
deriving DecidableEq

/-- The outcome of an intent before anything followed from it. -/
def InboundOutcome.ofIntent (i : Intent) : InboundOutcome :=
  { intent := i.kind, jobKey := i.jobKey, run := i.run }

/-- Why a report about a run changed nothing. -/
inductive ExecutionCondition
  | notFound
  /-- The report has had its effect already, or the run is over. -/
  | duplicate
  | invalidTransition
deriving DecidableEq, Repr

/-- What followed from a report about a run. -/
structure ExecutionOutcome where
  run : String
  status : Option Status
  applied : Bool
  notices : List Notice
  condition : Option ExecutionCondition
deriving DecidableEq

namespace ExecutionOutcome

def notFound (run : String) : ExecutionOutcome := ⟨run, none, false, [], some .notFound⟩

def unchanged (run : String) (status : Status) (c : ExecutionCondition) : ExecutionOutcome :=
  ⟨run, some status, false, [], some c⟩

def changed (run : String) (status : Status) (notices : List Notice) : ExecutionOutcome :=
  ⟨run, some status, true, notices, none⟩

end ExecutionOutcome

/-- A run and its whole log. -/
structure Timeline where
  run : Run
  events : List Event

namespace Orchestrator

/-- The actor of events that nobody asked for by name. -/
def actor : String := "runbridge"

def new (policy : Policy) : Orchestrator := ⟨.empty, policy, 0⟩

/-- Appends an event that has been checked to be legal. -/
def appendChecked (r : RunRecord) (kind : EventKind) (actor : String) (payload : Payload)
    (time : Instant) : Except OrchestratorError (Event × RunRecord) :=
  (r.append kind actor payload time).mapError fun rejection =>
    .corrupt r.run.id.text (.rejected rejection)

def put (o : Orchestrator) (r : RunRecord) : Orchestrator := { o with store := o.store.put r }

def statusOf (o : Orchestrator) (run : String) : Option Status :=
  (o.store.find? run).map (·.status)

/-- A run and its log, once the log has been checked. -/
def timeline (o : Orchestrator) (run : String) : Except OrchestratorError (Option Timeline) :=
  match o.store.find? run with
  | none => .ok none
  | some r =>
    match r.verify with
    | .error fault => .error (.corrupt r.run.id.text fault)
    | .ok () => .ok (some ⟨r.run, r.events⟩)

def statuses (o : Orchestrator) : List (RunId × Status) :=
  o.store.ids.filterMap fun id => (o.statusOf id.text).map fun s => (id, s)

end Orchestrator
end JobGate
