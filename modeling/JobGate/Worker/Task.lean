/-
One entry of the queue in the hands of a worker.

A worker claims an entry, reports that the run begins, executes it, reports how
it ended, and ends its claim.  `Task` says how far this has come.  Each step makes
one call to the orchestrator or to the queue, and the executor runs between two
steps, so the steps of several workers and of those who take claims back can come
in any order.

A run that is not to be executed any more is skipped, and its entry completed.  A
worker that was asked to stop and whose execution failed gives the entry back.  A
worker that has noticed that its claim was taken away leaves the entry alone.
-/
import JobGate.Service.Site

namespace JobGate

structure Report where
  success : Bool
  summary : String
deriving DecidableEq, Repr

/-- What became of an entry. -/
inductive Disposition
  | executed (success : Bool)
  /-- The run, whose status is given when it is known, was not to be executed. -/
  | skipped (status : Option Status)
  /-- The worker was asked to stop, and the entry waits again. -/
  | interrupted
deriving DecidableEq, Repr

/-- An entry that a worker is through with. -/
structure Processed where
  id : Int
  run : RunId
  disposition : Disposition
deriving DecidableEq

/-- Why a worker could not get through with an entry. -/
inductive WorkerError
  | queue (error : QueueError)
  | orchestrator (id : Int) (error : OrchestratorError)
deriving DecidableEq, Repr

def WorkerError.message : WorkerError → String
  | queue e => e.message
  | orchestrator id e =>
    "orchestrator rejected queue entry " ++ toString id ++ ": " ++ e.message

/-- How far a worker has come with an entry it claimed. -/
inductive Task
  /-- The beginning of the run is to be reported. -/
  | claimed (entry : QueuedDispatch)
  /-- The executor runs.  The flag tells whether the worker has noticed that its
  claim was taken away. -/
  | executing (entry : QueuedDispatch) (claimLost : Bool)
  /-- The end of the run is to be reported. -/
  | reporting (entry : QueuedDispatch) (report : Report) (claimLost : Bool)
  /-- The entry is to be completed. -/
  | completing (entry : QueuedDispatch) (success : Bool) (error : Option String)
      (disposition : Disposition)
  /-- The entry is to be given back, since the worker stops. -/
  | yielding (entry : QueuedDispatch)
  /-- The entry is to be given back, since the orchestrator failed. -/
  | rejecting (entry : QueuedDispatch) (error : OrchestratorError)
  | done (result : Except WorkerError Processed)

namespace Task

/-- The last error of an entry that a stopping worker gives back. -/
def shutdownMessage : String := "worker shutdown"

def skipReason : Option Status → String
  | some status => "run is " ++ status.name ++ "; execution skipped"
  | none => "run not found; execution skipped"

def finished (entry : QueuedDispatch) (d : Disposition) : Task :=
  .done (.ok ⟨entry.id, entry.run, d⟩)

/-- The end of a claim, which somebody else may have ended before. -/
def afterClaimEnd (entry : QueuedDispatch) (d : Disposition) : Except QueueError Unit → Task
  | .ok () => finished entry d
  | .error e => if e.isNotClaimed then finished entry d else .done (.error (.queue e))

variable {Q : Type} [ExecutionQueue Q]

def claim (s : Site Q) (clock : Clock) (worker : String) :
    Except WorkerError (Option Task) × Site Q :=
  match s.callQueue (ExecutionQueue.claim · clock worker) with
  | (.error e, s) => (.error (.queue e), s)
  | (.ok none, s) => (.ok none, s)
  | (.ok (some entry), s) => (.ok (some (.claimed entry)), s)

/-- One step.  It leaves the task as it is while the executor runs and when the
entry has been dealt with. -/
def step (clock : Clock) (worker : String) (t : Task) (s : Site Q) : Task × Site Q :=
  match t with
  | .claimed entry =>
    match s.callOrchestrator (·.onStarted clock.still entry.run.text worker) with
    | (.error e, s) => (.rejecting entry e, s)
    | (.ok outcome, s) =>
      let s := s.deliver outcome.notices
      if outcome.status = some .running then (.executing entry false, s)
      else
        (.completing entry false (some (skipReason outcome.status)) (.skipped outcome.status), s)
  | .executing entry claimLost => (.executing entry claimLost, s)
  | .reporting entry report claimLost =>
    match s.callOrchestrator
        (·.onCompleted clock.still entry.run.text worker report.success report.summary) with
    | (.error e, s) => (.rejecting entry e, s)
    | (.ok outcome, s) =>
      let s := s.deliver outcome.notices
      let disposition := Disposition.executed report.success
      if claimLost then (finished entry disposition, s)
      else
        (.completing entry report.success
          (if report.success then none else some report.summary) disposition, s)
  | .completing entry success error disposition =>
    let (result, s) := s.callQueue (ExecutionQueue.complete · clock entry.id success error)
    (afterClaimEnd entry disposition result, s)
  | .yielding entry =>
    let (result, s) := s.callQueue (ExecutionQueue.release · clock entry.id (some shutdownMessage))
    (afterClaimEnd entry .interrupted result, s)
  | .rejecting entry e =>
    let (_, s) := s.callQueue (ExecutionQueue.release · clock entry.id (some e.message))
    (.done (.error (.orchestrator entry.id e)), s)
  | .done result => (.done result, s)

/-- Renews the claim while the executor runs.  When the claim turns out to be
over, the worker knows from then on. -/
def renew (clock : Clock) (worker : String) (t : Task) (s : Site Q) :
    Except QueueError Unit × Task × Site Q :=
  match t with
  | .executing entry claimLost =>
    let (result, s) := s.callQueue (ExecutionQueue.renew · clock entry.id worker)
    let lost :=
      match result with
      | .ok () => claimLost
      | .error e => claimLost || e.isNotClaimed
    (result, .executing entry lost, s)
  | t => (.ok (), t, s)

/-- The executor has ended.  The flag tells whether the worker was asked to
stop. -/
def reported (report : Report) (stopped : Bool) : Task → Task
  | .executing entry claimLost =>
    if !report.success && stopped then
      if claimLost then finished entry .interrupted else .yielding entry
    else .reporting entry report claimLost
  | t => t

/-- Takes steps until the executor runs or the entry has been dealt with.  Two
are enough. -/
def settle (clock : Clock) (worker : String) (t : Task) (s : Site Q) : Task × Site Q :=
  let (t, s) := step clock worker t s
  step clock worker t s

/-- The answer of a task that has come to its end. -/
def result? : Task → Option (Except WorkerError Processed)
  | .done result => some result
  | _ => none

/-- Claims an entry and deals with it, with nothing else happening in between.
The dispatch of an entry that was executed is part of the answer. -/
def process (execute : Dispatch → Report) (stopped : Bool) (clock : Clock) (worker : String)
    (s : Site Q) : Except WorkerError (Option Processed) × Option Dispatch × Site Q :=
  match claim s clock worker with
  | (.error e, s) => (.error e, none, s)
  | (.ok none, s) => (.ok none, none, s)
  | (.ok (some t), s) =>
    match settle clock worker t s with
    | (.executing entry lost, s) =>
      let report := execute entry.dispatch
      match settle clock worker (reported report stopped (.executing entry lost)) s with
      | (.done result, s) => (result.map some, some entry.dispatch, s)
      | (_, s) => (.ok none, some entry.dispatch, s)
    | (.done result, s) => (result.map some, none, s)
    | (_, s) => (.ok none, none, s)

end Task
end JobGate
