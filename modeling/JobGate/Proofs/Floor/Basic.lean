/-
All that goes on around one orchestrator and one queue, a call at a time.

Callers hand in messages, workers deal with entries, and others sweep, cancel, and
time runs out.  A `Floor` is the site that they share together with how far each of
them has come, and an `Action` has one of them make its next call.  Nothing else
orders the actions: a list of them is an interleaving, and `Floor.run` performs it.
An action that its actor is not ready for does nothing.
-/
import JobGate.Queue.Backend
import JobGate.Service.Intake
import JobGate.Worker.Task
import Mathlib.Data.List.Induction
import Mathlib.Logic.Function.Basic

namespace JobGate

/-- A site and everybody at it. -/
structure Floor where
  site : Site (Faulty Backend)
  /-- The messages that are being dealt with, by a number for each call. -/
  calls : Nat → Option Intake
  /-- What each worker has in hand. -/
  tasks : String → Option Task

inductive Action
  /-- A message is handed in, and the orchestrator takes it. -/
  | receive (call : Nat) (clock : Readings) (draws : Draws) (m : Inbound)
  /-- A call goes on with its message. -/
  | pursue (call : Nat) (clock : Clock) (stopped : Bool)
  /-- A worker with nothing in hand claims an entry. -/
  | claim (worker : String) (clock : Clock)
  /-- A worker goes on with its entry. -/
  | work (worker : String) (clock : Clock)
  /-- The executor of a worker ends. -/
  | report (worker : String) (report : Report) (stopped : Bool)
  /-- A worker renews its claim while its executor runs. -/
  | renew (worker : String) (clock : Clock)
  | reclaim (clock : Clock) (timeout : Nat)
  | timeOutStale (clock : Readings) (maxAge : Nat) (now : Instant)
  /-- A run is canceled, or told to have timed out. -/
  | terminate (clock : Readings) (run : String) (t : Orchestrator.Termination) (reason : String)
  /-- Some of the next calls of the queue will fail. -/
  | breakQueue (outage : Outage)

/-- Somebody says something in a chat, and nothing else happens until that has been dealt
with.  The random source is one that always draws zero. -/
def Action.say (call : Nat) (body : String) : List Action :=
  [.receive call default ⟨fun _ => some 0, 0⟩
      { channel := "chat", sender := "alice", conversation := "ops", body },
    .pursue call default false, .pursue call default false]

namespace Intake

def pending? : Intake → Option Intake
  | done _ => none
  | i => some i

end Intake

namespace Task

def pending? : Task → Option Task
  | done _ => none
  | t => some t

end Task

namespace Floor

def idle (o : Orchestrator) (q : Backend) : Floor where
  site := ⟨o, { queue := q }, {}⟩
  calls _ := none
  tasks _ := none

def follow (f : Floor) (call : Nat) (i : Intake) : Floor :=
  { f with calls := Function.update f.calls call i.pending? }

def hand (f : Floor) (worker : String) (t : Task) : Floor :=
  { f with tasks := Function.update f.tasks worker t.pending? }

def step (f : Floor) : Action → Floor
  | .receive call clock draws m =>
    match f.calls call with
    | some _ => f
    | none =>
      let (i, site, _) := Intake.take f.site clock draws m
      { f with site }.follow call i
  | .pursue call clock stopped =>
    match f.calls call with
    | none => f
    | some i =>
      let (i, site) := i.step clock stopped f.site
      { f with site }.follow call i
  | .claim worker clock =>
    match f.tasks worker with
    | some _ => f
    | none =>
      match Task.claim f.site clock worker with
      | (.ok (some t), site) => { f with site }.hand worker t
      | (_, site) => { f with site }
  | .work worker clock =>
    match f.tasks worker with
    | none => f
    | some t =>
      let (t, site) := t.step clock worker f.site
      { f with site }.hand worker t
  | .report worker report stopped =>
    match f.tasks worker with
    | some (.executing entry lost) =>
      f.hand worker (Task.reported report stopped (.executing entry lost))
    | _ => f
  | .renew worker clock =>
    match f.tasks worker with
    | some (.executing entry false) =>
      let (_, t, site) := Task.renew clock worker (.executing entry false) f.site
      { f with site }.hand worker t
    | _ => f
  | .reclaim clock timeout =>
    { f with site := (f.site.callQueue (ExecutionQueue.reclaim · clock timeout)).2 }
  | .timeOutStale clock maxAge now =>
    { f with site := (f.site.callOrchestrator (·.timeOutStale clock maxAge now)).2 }
  | .terminate clock run t reason =>
    { f with site := (f.site.callOrchestrator (·.terminate clock run t reason)).2 }
  | .breakQueue outage => { f with site.queue.outage := outage }

def run (f : Floor) (acts : List Action) : Floor := acts.foldl step f

theorem run_append (f : Floor) (a b : List Action) : f.run (a ++ b) = (f.run a).run b :=
  List.foldl_append ..

theorem run_concat (f : Floor) (acts : List Action) (a : Action) :
    f.run (acts ++ [a]) = (f.run acts).step a := by
  rw [run_append]
  rfl

/-! ## What has happened -/

/-- At some moment of a run, an action took one floor to another in such a way. -/
def Happened (f : Floor) (acts : List Action) (event : Floor → Action → Floor → Prop) : Prop :=
  ∃ before a after, acts = before ++ a :: after ∧
    event (f.run before) a ((f.run before).step a)

namespace Happened

variable {f : Floor} {acts : List Action} {a : Action} {event : Floor → Action → Floor → Prop}

theorem concat (h : f.Happened acts event) (a : Action) : f.Happened (acts ++ [a]) event := by
  obtain ⟨before, x, after, rfl, h⟩ := h
  exact ⟨before, x, after ++ [a], by simp, h⟩

theorem last (h : event (f.run acts) a ((f.run acts).step a)) : f.Happened (acts ++ [a]) event :=
  ⟨acts, a, [], rfl, h⟩

/-- What is so at the end of a run, was not at its start, and comes about in one way only
has come about in that way. -/
theorem of_run {P : Floor → Prop} (hstart : ¬ P f)
    (hstep : ∀ acts a, P ((f.run acts).step a) →
      P (f.run acts) ∨ event (f.run acts) a ((f.run acts).step a)) (h : P (f.run acts)) :
    f.Happened acts event := by
  induction acts using List.reverseRecOn with
  | nil => exact absurd h hstart
  | append_singleton acts a ih =>
    rw [run_concat] at h
    rcases hstep acts a h with hbefore | hnow
    · exact (ih hbefore).concat a
    · exact .last hnow

end Happened
end Floor
end JobGate
