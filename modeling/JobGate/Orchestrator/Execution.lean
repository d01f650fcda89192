/-
What workers and operators do to the runs.

A worker reports that it starts a run and that it has finished one.  A report may
come twice, or come when the run is already over; it then changes nothing.  A run
that is not over can be canceled and can time out.
-/
import JobGate.Orchestrator.Basic

namespace JobGate
namespace Orchestrator

def start (record : RunRecord) (clock : Readings) (run worker : String) :
    Except OrchestratorError ExecutionOutcome × RunRecord :=
  match appendChecked record .started worker (Payload.ofTexts [("workerId", worker)])
      (clock 0) with
  | .error e => (.error e, record)
  | .ok (_, record) => (.ok (.changed run record.status []), record)

def onStarted (o : Orchestrator) (clock : Readings) (run worker : String) :
    Except OrchestratorError ExecutionOutcome × Orchestrator :=
  match o.store.find? run with
  | none => (.ok (.notFound run), o)
  | some record =>
    if record.status = .dispatching then
      let (result, record) := start record clock run worker
      (result, o.put record)
    else if record.status = .running || record.status.isTerminal then
      (.ok (.unchanged run record.status .duplicate), o)
    else (.ok (.unchanged run record.status .invalidTransition), o)

def finish (record : RunRecord) (clock : Readings) (run worker : String) (success : Bool)
    (summary : String) : Except OrchestratorError ExecutionOutcome × RunRecord :=
  let kind := if success then EventKind.succeeded else EventKind.failed
  match appendChecked record kind worker
      (Payload.ofTexts [("summary", summary), ("workerId", worker)]) (clock 0) with
  | .error e => (.error e, record)
  | .ok (event, record) =>
    let verb := if success then "succeeded" else "failed"
    let body := "Run " ++ record.run.id.text ++ " (`" ++ record.run.jobKey ++ "`) " ++ verb ++
      ": " ++ summary
    (.ok (.changed run record.status [Notice.ofEvent record.run event verb body]), record)

def onCompleted (o : Orchestrator) (clock : Readings) (run worker : String) (success : Bool)
    (summary : String) : Except OrchestratorError ExecutionOutcome × Orchestrator :=
  match o.store.find? run with
  | none => (.ok (.notFound run), o)
  | some record =>
    if record.status.isTerminal then (.ok (.unchanged run record.status .duplicate), o)
    else if record.status ≠ .running then
      (.ok (.unchanged run record.status .invalidTransition), o)
    else
      let (result, record) := finish record clock run worker success summary
      (result, o.put record)

/-- The two ways in which a run ends from outside. -/
inductive Termination
  | timeout
  | cancel (actor : String)
deriving DecidableEq, Repr

namespace Termination

def kind : Termination → EventKind
  | timeout => .timedOut
  | cancel _ => .canceled

def by_ : Termination → String
  | timeout => Orchestrator.actor
  | cancel actor => actor

def purpose : Termination → String
  | timeout => "timed_out"
  | cancel _ => "canceled"

def verb : Termination → String
  | timeout => "timed out"
  | cancel actor => "was canceled by " ++ actor

end Termination

/-- Ends a run, unless it is over. -/
def terminateRecord (record : RunRecord) (t : Termination) (reason : String) (time : Instant) :
    Except OrchestratorError ExecutionOutcome × RunRecord :=
  let run := record.run.id.text
  if record.status.isTerminal then
    (.ok (.unchanged run record.status .invalidTransition), record)
  else
    match appendChecked record t.kind t.by_
        (Payload.ofTexts [("previousStatus", record.status.name), ("reason", reason)]) time with
    | .error e => (.error e, record)
    | .ok (event, record) =>
      let body := "Run " ++ run ++ " (`" ++ record.run.jobKey ++ "`) " ++ t.verb ++ ": " ++ reason
      (.ok (.changed run record.status [Notice.ofEvent record.run event t.purpose body]), record)

def terminate (o : Orchestrator) (clock : Readings) (run : String) (t : Termination)
    (reason : String) : Except OrchestratorError ExecutionOutcome × Orchestrator :=
  match o.store.find? run with
  | none => (.ok (.notFound run), o)
  | some record =>
    let (result, record) := terminateRecord record t reason (clock 0)
    (result, o.put record)

def onTimeout (o : Orchestrator) (clock : Readings) (run reason : String) :
    Except OrchestratorError ExecutionOutcome × Orchestrator :=
  o.terminate clock run .timeout reason

def cancelRun (o : Orchestrator) (clock : Readings) (run actor reason : String) :
    Except OrchestratorError ExecutionOutcome × Orchestrator :=
  o.terminate clock run (.cancel actor) reason

/-! ## Runs that are too old -/

/-- The reason given for a run that is too old. -/
def staleReason : String := "run exceeded its maximum age"

/-- Whether a run is not over and was created no later than some time. -/
def isStale (cutoff : Instant) (record : RunRecord) : Bool :=
  !record.status.isTerminal && !record.run.createdAt.isAfter cutoff

/-- Times out those of the named runs that are stale.  Each of them has a
reading of the clock of its own. -/
def timeOutEach (cutoff : Instant) (clock : Readings) :
    List RunId → Orchestrator → List ExecutionOutcome →
    Except OrchestratorError (List ExecutionOutcome) × Orchestrator
  | [], o, done => (.ok done.reverse, o)
  | id :: rest, o, done =>
    match o.store.find? id.text with
    | none => timeOutEach cutoff clock rest o done
    | some record =>
      if isStale cutoff record then
        match terminateRecord record .timeout staleReason (clock done.length) with
        | (.error e, record) => (.error e, o.put record)
        | (.ok outcome, record) =>
          timeOutEach cutoff clock rest (o.put record) (outcome :: done)
      else timeOutEach cutoff clock rest o done

/-- Times out every run that is not over and is at least `maxAge` old at `now`.
Where no instant lies that far before `now`, no run is old enough. -/
def timeOutStale (o : Orchestrator) (clock : Readings) (maxAge : Nat) (now : Instant) :
    Except OrchestratorError (List ExecutionOutcome) × Orchestrator :=
  match now.sub? maxAge with
  | none => (.ok [], o)
  | some cutoff => timeOutEach cutoff clock o.store.ids o []

end Orchestrator
end JobGate
