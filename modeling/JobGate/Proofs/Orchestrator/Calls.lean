/-
Calls of an orchestrator, one after the other.

A `Call` is an operation with all that it reads from outside: the message, the clock, the
random source.  Every call has readings of the clock of its own, so nothing is assumed
about which way the clock moves.  `perform_effect` lists all that a call can do to the
records, and what holds after any list of calls is proved from that.
-/
import JobGate.Proofs.Orchestrator.Handled

namespace JobGate
namespace Orchestrator

inductive Call
  | handle (clock : Readings) (draws : Draws) (m : Inbound) (i : Intent)
  | onStarted (clock : Readings) (run worker : String)
  | onCompleted (clock : Readings) (run worker : String) (success : Bool) (summary : String)
  | onTimeout (clock : Readings) (run reason : String)
  | cancelRun (clock : Readings) (run actor reason : String)
  | timeOutStale (clock : Readings) (maxAge : Nat) (now : Instant)

inductive Answer
  | inbound (result : Except OrchestratorError InboundOutcome)
  | execution (result : Except OrchestratorError ExecutionOutcome)
  | executions (result : Except OrchestratorError (List ExecutionOutcome))

/-- The run that a call names.  A message that asks for a new run names none. -/
def Call.run? : Call → Option String
  | .handle _ _ _ i => if i.kind = .runJob then none else i.run
  | .onStarted _ run _ | .onCompleted _ run _ _ _ | .onTimeout _ run _ | .cancelRun _ run _ _ =>
    some run
  | .timeOutStale _ _ _ => none

namespace Answer

def error? : Answer → Option OrchestratorError
  | .inbound (.error e) | .execution (.error e) | .executions (.error e) => some e
  | .inbound (.ok _) | .execution (.ok _) | .executions (.ok _) => none

def dispatch? : Answer → Option Dispatch
  | .inbound result => dispatchOf result
  | .execution _ | .executions _ => none

def swept : Answer → List String
  | .executions (.ok outcomes) => outcomes.map (·.run)
  | _ => []

end Answer

def perform (o : Orchestrator) : Call → Answer × Orchestrator
  | .handle clock draws m i =>
    let (result, o, _) := o.handle clock draws m i
    (.inbound result, o)
  | .onStarted clock run worker =>
    let (result, o) := o.onStarted clock run worker
    (.execution result, o)
  | .onCompleted clock run worker success summary =>
    let (result, o) := o.onCompleted clock run worker success summary
    (.execution result, o)
  | .onTimeout clock run reason =>
    let (result, o) := o.onTimeout clock run reason
    (.execution result, o)
  | .cancelRun clock run actor reason =>
    let (result, o) := o.cancelRun clock run actor reason
    (.execution result, o)
  | .timeOutStale clock maxAge now =>
    let (result, o) := o.timeOutStale clock maxAge now
    (.executions result, o)

def after (o : Orchestrator) (calls : List Call) : Orchestrator :=
  calls.foldl (fun o c => (o.perform c).2) o

def answers : Orchestrator → List Call → List Answer
  | _, [] => []
  | o, c :: rest => (o.perform c).1 :: answers (o.perform c).2 rest

theorem after_append (o : Orchestrator) (calls calls' : List Call) :
    o.after (calls ++ calls') = (o.after calls).after calls' := List.foldl_append ..

theorem after_concat (o : Orchestrator) (calls : List Call) (c : Call) :
    o.after (calls ++ [c]) = ((o.after calls).perform c).2 :=
  List.foldl_append ..

theorem answers_concat (o : Orchestrator) (calls : List Call) (c : Call) :
    o.answers (calls ++ [c]) = o.answers calls ++ [((o.after calls).perform c).1] := by
  induction calls generalizing o with
  | nil => rfl
  | cons x rest ih => exact congrArg (_ :: ·) (ih (o.perform x).2)

/-! ## All that a call can do -/

inductive Effect (policy : Policy) (s : RunStore) : Call → Answer → RunStore → Prop
  | handled {clock : Readings} {draws : Draws} {m : Inbound} {i : Intent}
      {result : Except OrchestratorError InboundOutcome} {s' : RunStore}
      (h : Handled policy s m i (dispatchOf result) s') :
      Effect policy s (.handle clock draws m i) (.inbound result) s'
  | attempted {c : Call} {kind : EventKind} {actor run : String} {outcome : ExecutionOutcome}
      {s' : RunStore} (hrun : c.run? = some run) (hkind : kind.isExecution = true)
      (h : s.Attempt kind actor run outcome.status s') :
      Effect policy s c (.execution (.ok outcome)) s'
  | swept {clock : Readings} {maxAge : Nat} {now : Instant} {outcomes : List ExecutionOutcome}
      {s' : RunStore} (hmoved : s.Moved s')
      (hothers : ∀ run, (∀ x ∈ outcomes, x.run ≠ run) → s'.find? run = s.find? run) :
      Effect policy s (.timeOutStale clock maxAge now) (.executions (.ok outcomes)) s'

theorem perform_effect (o : Orchestrator) (c : Call) :
    (o.perform c).2.policy = o.policy ∧
      Effect o.policy o.store c (o.perform c).1 (o.perform c).2.store := by
  cases c with
  | handle clock draws m i =>
    obtain ⟨hpolicy, hhandled⟩ := o.handle_handled clock draws m i
    exact ⟨hpolicy, .handled hhandled⟩
  | onStarted clock run worker =>
    obtain ⟨outcome, o', heq, hpolicy, hattempt⟩ := o.onStarted_attempt clock run worker
    simp only [perform, heq]
    exact ⟨hpolicy, .attempted rfl rfl hattempt⟩
  | onCompleted clock run worker success summary =>
    obtain ⟨outcome, o', heq, hpolicy, hattempt⟩ :=
      o.onCompleted_attempt clock run worker success summary
    simp only [perform, heq]
    exact ⟨hpolicy, .attempted rfl (endKind_isExecution success) hattempt⟩
  | onTimeout clock run reason =>
    obtain ⟨outcome, o', heq, hpolicy, hattempt⟩ := o.terminate_attempt clock run .timeout reason
    simp only [perform, onTimeout, heq]
    exact ⟨hpolicy, .attempted rfl rfl hattempt⟩
  | cancelRun clock run actor reason =>
    obtain ⟨outcome, o', heq, hpolicy, hattempt⟩ :=
      o.terminate_attempt clock run (.cancel actor) reason
    simp only [perform, cancelRun, heq]
    exact ⟨hpolicy, .attempted rfl rfl hattempt⟩
  | timeOutStale clock maxAge now =>
    obtain ⟨outcomes, o', heq, hpolicy, hmoved, hothers⟩ := o.timeOutStale_moved clock maxAge now
    simp only [perform, heq]
    exact ⟨hpolicy, .swept hmoved hothers⟩

namespace Effect

variable {policy : Policy} {s s' : RunStore} {c : Call} {answer : Answer}

/-- Records change by what happens to a run after the decision on it, or by a message. -/
theorem store (h : Effect policy s c answer s') :
    (s.Moved s' ∧ answer.dispatch? = none) ∨
      ∃ clock draws m i, c = .handle clock draws m i ∧
        Handled policy s m i answer.dispatch? s' := by
  cases h with
  | handled h => exact .inr ⟨_, _, _, _, rfl, h⟩
  | attempted _ hkind h => exact .inl ⟨h.moved hkind, rfl⟩
  | swept hmoved _ => exact .inl ⟨hmoved, rfl⟩

theorem grows (h : Effect policy s c answer s') : s.Grows s' := by
  rcases h.store with ⟨hmoved, -⟩ | ⟨_, _, _, _, _, hhandled⟩
  · exact hmoved.grows
  · exact hhandled.grows

end Effect

theorem after_policy (o : Orchestrator) (calls : List Call) :
    (o.after calls).policy = o.policy := by
  induction calls using List.reverseRecOn with
  | nil => rfl
  | append_singleton calls c ih =>
    rw [after_concat, (perform_effect _ c).1, ih]

/-- What holds of the records at the start and is preserved by every call holds after
any calls. -/
theorem after_induction {o : Orchestrator} {P : RunStore → Prop} (hstart : P o.store)
    (hstep : ∀ {s s' c answer}, Effect o.policy s c answer s' → P s → P s') (calls : List Call) :
    P (o.after calls).store := by
  induction calls using List.reverseRecOn with
  | nil => exact hstart
  | append_singleton calls c ih =>
    have heffect := (perform_effect (o.after calls) c).2
    rw [after_policy] at heffect
    rw [after_concat]
    exact hstep heffect ih

theorem after_grows (o : Orchestrator) (calls : List Call) :
    o.store.Grows (o.after calls).store :=
  after_induction (P := o.store.Grows) (.refl _) (fun heffect h => h.trans heffect.grows) calls

end Orchestrator
end JobGate
