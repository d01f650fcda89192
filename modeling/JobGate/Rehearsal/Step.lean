/-
Scripts that drive a desk, and what a desk answers to them.

A `Step` is one call to some part of the desk, or a change of its surroundings:
the clock, the queue's storage, or what fails next.  A `Script` tells how one
execution goes: the steps that happen while it runs, and how it ends.  So the
steps of a script nest inside the step that makes the execution happen.
-/
import JobGate.Queue.Backend
import JobGate.Service.Intake
import JobGate.Service.Sweep
import JobGate.Time.Cancellation
import JobGate.Worker.Polling

namespace JobGate
namespace Rehearsal

/-- A row that is put into the table from outside. -/
structure RawRow where
  run : String
  jobKey : String
  status : RowStatus
  attempts : Int
deriving DecidableEq, Repr

mutual

inductive Step
  | say (message : Inbound) (stopped : Bool)
  | handle (message : Inbound) (intent : Intent)
  | timeline (run : String)
  | status (run : String)
  | store (run : String)
  | runs
  | started (run worker : String)
  | completed (run worker : String) (report : Report)
  | timeout (run reason : String)
  | cancelRun (run actor reason : String)
  | timeOutStale (maxAge : Nat) (now : Option Instant)
  | enqueue (run jobKey : String) (stopped : Bool)
  /-- An entry is added while the queue is full.  Either another entry is
  completed meanwhile, or the stop is asked for. -/
  | enqueueWaiting (run jobKey : String) (completes : Option Int)
  | claim (worker : String)
  | claimWaiting (worker : String) (poll : Nat) (token : Token)
  | complete (id : Int) (success : Bool) (error : Option String)
  | release (id : Int) (error : Option String)
  | renew (id : Int) (worker : String)
  | reclaim (lockTimeout : Nat)
  | depth
  | entry (id : Int)
  | insertRow (row : RawRow)
  | dropTable
  | reopen
  | work (worker : String) (script : Script) (stopped : Bool)
  /-- The claim of the innermost execution is renewed. -/
  | awaitRenewal
  /-- A worker looks for work, again and again, and is asked to stop when it has
  looked so many times. -/
  | loop (worker : String) (claims : Nat) (polling : Polling) (scripts : List Script)
      (quiet stopped : Bool)
  | tick (sweep : Sweep)
  /-- Sweeps at an interval, until so many have begun. -/
  | sweeps (ticks interval : Nat) (sweep : Sweep) (stopped : Bool)
  | health
  | setClock (wall : Instant)
  | advance (by_ : Nat)
  | breakQueue (outage : Outage)
  | breakOutbox (times : Nat)

/-- How an execution goes: what happens meanwhile, whether the worker is asked to
stop then, and the report. -/
inductive Script
  | mk (during : List Step) (raises : Bool) (report : Report)

end

def Script.plain : Script := .mk [] false ⟨true, "ok"⟩

mutual

inductive Answer
  | said (result : Option (Except IntakeError InboundOutcome))
  | handled (result : Except OrchestratorError InboundOutcome)
  | timeline (result : Except OrchestratorError (Option Timeline))
  | status (status : Option Status)
  | store (size : Nat) (contains : Bool)
  | runs (statuses : List (RunId × Status))
  | execution (result : Except OrchestratorError ExecutionOutcome)
  | executions (result : Except OrchestratorError (List ExecutionOutcome))
  | badRun (fault : Identifier.Fault)
  | offered (result : Except QueueError Offer)
  | claimed (result : Except QueueError (Option QueuedDispatch))
  | waited (result : Except QueueError (Option QueuedDispatch)) (time : Nat)
  | ended (result : Except QueueError Unit)
  | reclaimed (result : Except QueueError Nat)
  | depth (result : Except QueueError Depth)
  | memoryEntry (capacity : Nat) (lastError : Option String)
  | tableEntry (result : Except QueueError (Option (RowStatus × Option String)))
  | row (id : Int)
  | reopened (result : Except QueueError Depth)
  | worked (result : Except WorkerError (Option Processed)) (executed : List Execution)
  | looped (claimTimes : List Nat) (endedAt : Nat) (executed : List Execution)
      (events : List WorkerEvent)
  | ticked (report : SweepReport)
  | swept (tickTimes : List Nat) (endedAt : Nat) (events : List WorkerEvent)
  | health (registry : Registry)
  | nothing

/-- An execution: the dispatch, and the answers to the steps that happened while
it ran. -/
inductive Execution
  | mk (dispatch : Dispatch) (during : List StepAnswer)

/-- The answer of a step, what was delivered since the answer before, and the
depth of the queue. -/
inductive StepAnswer
  | mk (answer : Answer) (delivered : List Outbound) (depth : Except QueueError Depth)

end

end Rehearsal
end JobGate
