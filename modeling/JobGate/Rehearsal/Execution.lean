/-
Executions on a bench: a worker that deals with one entry, and a worker that looks
for work again and again.

How an execution goes is an `Action`: what it does to the bench, and how it ends.
The functions here do not know what the actions are made of.
-/
import JobGate.Rehearsal.Bench
import JobGate.Worker.Watch

namespace JobGate
namespace Rehearsal

structure Action where
  during : Bench → List StepAnswer × Bench
  raises : Bool
  report : Report

def Action.plain : Action := ⟨fun b => ([], b), false, ⟨true, "ok"⟩⟩

namespace Bench

/-- Takes the steps of a task up to the execution or the end. -/
def settle (b : Bench) (worker : String) (t : Task) : Task × Bench :=
  let (t, site) := t.settle b.clock worker b.site
  (t, { b with site })

/-- Executes: the actions's steps happen while the task is on the bench as the
innermost execution. -/
def execute (b : Bench) (worker : String) (t : Task) (a : Action) :
    List StepAnswer × Task × Bench :=
  let (answers, b) := a.during { b with running := ⟨worker, t⟩ :: b.running }
  match b.running with
  | r :: rest => (answers, r.task, { b with running := rest })
  | [] => (answers, t, b)

/-- How a worker got through with an entry. -/
structure Round where
  result : Except WorkerError (Option Processed)
  executed : List Execution
  /-- Whether an execution has used up an action. -/
  usedAction : Bool
  /-- Whether the action asked the worker to stop. -/
  raised : Bool

/-- The answer of a task that has come to its end. -/
def answerOf (t : Task) : Except WorkerError (Option Processed) :=
  match t.result? with
  | some result => result.map some
  | none => .ok none

def processOne (b : Bench) (worker : String) (a : Action) (stopped : Bool) : Round × Bench :=
  match Task.claim b.site b.clock worker with
  | (.error e, site) => (⟨.error e, [], false, false⟩, { b with site })
  | (.ok none, site) => (⟨.ok none, [], false, false⟩, { b with site })
  | (.ok (some t), site) =>
    match ({ b with site } : Bench).settle worker t with
    | (.executing entry lost, b) =>
      let (answers, t, b) := b.execute worker (.executing entry lost) a
      let (t, b) := b.settle worker (t.reported a.report (stopped || a.raises))
      (⟨answerOf t, [.mk entry.dispatch answers], true, a.raises⟩, b)
    | (t, b) => (⟨answerOf t, [], false, false⟩, b)

/-- A worker on watch on a bench, which is asked to stop when it has looked for work
so many more times. -/
structure Post where
  bench : Bench
  claims : Nat
  actions : List Action
  token : Token
  claimTimes : List Nat := []
  executed : List Execution := []

/-- Looks for work.  With the last time the worker is asked to stop. -/
def Post.look (worker : String) (start : Nat) (s : Post) : Finding × Post :=
  let last := decide (s.claims ≤ 1)
  let time := Duration.toMillis (s.bench.clock.elapsed - start)
  let (round, bench) := s.bench.processOne worker (s.actions.headD .plain) last
  (round.result,
    { bench
      claims := s.claims - 1
      actions := if round.usedAction then s.actions.tail else s.actions
      token := .ofBool (last || round.raised)
      claimTimes := s.claimTimes ++ [time]
      executed := s.executed ++ round.executed })

def Post.surroundings (worker : String) (start : Nat) : Surroundings Post where
  time s := s.bench.clock.millis
  stopped s := s.token.raised
  look := Post.look worker start
  sleep length s :=
    let (sleep, bench) := s.bench.sleep s.token length
    (sleep.completed, { s with bench, token := sleep.token })

/-- Runs a worker until it is asked to stop, and reports.  Every step but the last one
is a look. -/
def loop (b : Bench) (worker : String) (claims : Nat) (polling : Polling) (actions : List Action)
    (quiet stopped : Bool) : Answer × Bench :=
  let start := b.clock.elapsed
  let around := Post.surroundings worker start
  let post : Post := { bench := b, claims, actions, token := .ofBool (stopped || claims == 0) }
  let w := (Watch.start polling around worker post).run polling around worker (claims + 1)
  let s := w.place
  let events := if quiet then [] else w.acts.filterMap Act.event?
  (.looped s.claimTimes (Duration.toMillis (s.bench.clock.elapsed - start)) s.executed events,
    { s.bench with registry := s.bench.registry.applyAll events })

end Bench
end Rehearsal
end JobGate
