/-
A desk under rehearsal, and the steps that involve no execution.

Time passes on a bench only when a step says so or when somebody sleeps, and
chance is a source of draws, so what a bench answers is a function of its steps.
-/
import JobGate.Rehearsal.Step
import JobGate.Time.Cancellation

namespace JobGate
namespace Rehearsal

/-- A worker whose executor runs. -/
structure Running where
  worker : String
  task : Task

/-- A desk with its surroundings.  Of the executions that run, the innermost comes
first. -/
structure Bench where
  clock : Clock
  draws : Draws
  site : Site (Faulty Backend)
  registry : Registry
  running : List Running

namespace Bench

def new (clock : Clock) (draws : Draws) (policy : Policy) (backend : Backend) : Bench where
  clock := clock
  draws := draws
  site := { orchestrator := .new policy, queue := { queue := backend }, outbox := {} }
  registry := {}
  running := []

/-- The queue without the outage in front of it. -/
def backend (b : Bench) : Backend := b.site.queue.queue

/-- The bench with another queue behind the outage. -/
def setBackend (b : Bench) (q : Backend) : Bench :=
  { b with site := { b.site with queue := { b.site.queue with queue := q } } }

def callQueue {α : Type} (b : Bench) (f : Faulty Backend → α × Faulty Backend) : α × Bench :=
  let (a, site) := b.site.callQueue f
  (a, { b with site })

def callOrchestrator {α : Type} (b : Bench) (f : Orchestrator → α × Orchestrator) : α × Bench :=
  let (a, site) := b.site.callOrchestrator f
  (a, { b with site })

def advance (b : Bench) (d : Nat) : Bench := { b with clock := b.clock.advance d }

/-- Sleeps until the time is over or the token is raised. -/
def sleep (b : Bench) (token : Token) (d : Nat) : Token.Sleep × Bench :=
  let s := token.sleep b.clock.elapsed d
  (s, b.advance s.slept)

def close (answer : Answer) (b : Bench) : StepAnswer × Bench :=
  let (delivered, outbox) := b.site.outbox.take
  let b := { b with site := { b.site with outbox } }
  (.mk answer delivered (ExecutionQueue.depth b.backend).1, b)

def offer (b : Bench) (d : Dispatch) (stopped : Bool) : Except QueueError Offer × Bench :=
  b.callQueue (ExecutionQueue.offer · b.clock d stopped)

/-- Adds an entry to a queue that may be full. -/
def offerWaiting (b : Bench) (d : Dispatch) (completes : Option Int) :
    Except QueueError Offer × Bench :=
  match b.offer d false with
  | (.ok .full, b) =>
    match completes with
    | none => b.offer d true
    | some id =>
      let (_, b) := b.callQueue (ExecutionQueue.complete · b.clock id true none)
      b.offer d false
  | answer => answer

/-- Claims an entry, and looks again after a wait while none is there.  The first
argument bounds how often. -/
def claimWaiting (worker : String) (poll : Nat) :
    Nat → Token → Bench → Except QueueError (Option QueuedDispatch) × Bench
  | 0, _, b => (.ok none, b)
  | rounds + 1, token, b =>
    if token.raised then (.ok none, b)
    else
      match b.callQueue (ExecutionQueue.claim · b.clock worker) with
      | (.ok none, b) =>
        let (s, b) := b.sleep token poll
        if s.completed then claimWaiting worker poll rounds s.token b else (.ok none, b)
      | answer => answer

/-- How often somebody looks before the token falls due. -/
def lookRounds (poll : Nat) (token : Token) (elapsed : Nat) : Nat :=
  match token.due with
  | some due => if poll = 0 then 1 else (due - elapsed) / poll + 2
  | none => 1

def entry (b : Bench) (id : Int) : Answer :=
  match b.backend with
  | .memory q => .memoryEntry q.capacity (q.lastError id)
  | .table q =>
    .tableEntry (if q.missing then .error .statement else .ok (q.entryStatus id))

/-- A change to a table; a queue in memory has none. -/
def onTable (b : Bench) (f : TableQueue → Answer × TableQueue) : Answer × Bench :=
  match b.backend with
  | .memory _ => (.nothing, b)
  | .table q =>
    let (answer, q) := f q
    (answer, b.setBackend (.table q))

def insertRow (row : RawRow) (q : TableQueue) : Answer × TableQueue :=
  let (id, q) := q.insert fun id =>
    { id, run := row.run, jobKey := row.jobKey, status := row.status, attempts := row.attempts }
  (.row id, q)

/-- Renews the claim of the innermost execution. -/
def renewInnermost (b : Bench) : Answer × Bench :=
  match b.running with
  | [] => (.nothing, b)
  | r :: rest =>
    let (result, task, site) := r.task.renew b.clock r.worker b.site
    (.ended result, { b with site, running := { r with task } :: rest })

/-- Sweeps at an interval.  The token is raised when the last of the sweeps
begins. -/
def sweepsFrom (interval : Nat) (sweep : Sweep) (start : Nat) :
    Nat → List Nat → List WorkerEvent → Bench → List Nat × List WorkerEvent × Bench
  | 0, times, events, b => (times.reverse, events, b)
  | ticks + 1, times, events, b =>
    let (_, b) := b.sleep {} interval
    let times := Duration.toMillis (b.clock.elapsed - start) :: times
    let (report, site) := sweep.tick b.clock b.site
    let b := { b with site }
    let events :=
      if report.errors = 0 then events
      else events ++ [.error Sweep.worker b.clock.millis (Sweep.errorMessage report.errors)]
    sweepsFrom interval sweep start ticks times events b

def sweeps (b : Bench) (ticks interval : Nat) (sweep : Sweep) (stopped : Bool) : Answer × Bench :=
  let start := b.clock.elapsed
  let first := [WorkerEvent.started Sweep.worker b.clock.millis]
  let (times, events, b) :=
    sweepsFrom interval sweep start (if stopped then 0 else ticks) [] first b
  let events := events ++ [.stopped Sweep.worker b.clock.millis]
  (.swept times (Duration.toMillis (b.clock.elapsed - start)) events,
    { b with registry := b.registry.applyAll events })

end Bench
end Rehearsal
end JobGate
