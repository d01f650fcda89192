/-
Any number of workers around one queue.

On a floor every worker has a name of its own, and the runs change only as the
orchestrator changes them.  A `Crowd` assumes neither: its workers go by numbers, two of
them may claim under one name, a worker may be gone at any moment, and between two turns
the runs may become what they like.  What can be said of it rests on the queue alone:
`Shift` is what a turn does to the live entries, `Passes` what it does to the hands of the
workers, and `step_turned` says that both happen together.
-/
import JobGate.Proofs.Floor.Move

namespace JobGate

/-- A site and the workers at it, by number. -/
structure Crowd where
  site : Site (Faulty Backend)
  hands : Nat → Option Task

namespace Task

/-- The entry that the next step gives back, with the error that it leaves there. -/
def return? : Task → Option (QueuedDispatch × String)
  | yielding entry => some (entry, shutdownMessage)
  | rejecting entry e => some (entry, e.message)
  | claimed _ | executing _ _ | reporting _ _ _ | completing _ _ _ _ | done _ => none

/-- The entry that is claimed and has yet to be begun. -/
def unbegun? : Task → Option QueuedDispatch
  | claimed entry => some entry
  | executing _ _ | reporting _ _ _ | completing _ _ _ _ | yielding _ | rejecting _ _
  | done _ => none

end Task

namespace Crowd

inductive Turn
  /-- A worker with nothing in hand claims an entry. -/
  | claim (n : Nat) (worker : String) (clock : Clock)
  /-- A worker goes on with its entry. -/
  | work (n : Nat) (worker : String) (clock : Clock)
  /-- The executor of a worker ends. -/
  | report (n : Nat) (report : Report) (stopped : Bool)
  | renew (n : Nat) (worker : String) (clock : Clock)
  /-- A worker is gone, with what it had in hand. -/
  | vanish (n : Nat)
  | offer (clock : Clock) (d : Dispatch) (stopped : Bool)
  /-- Somebody who is no worker gives an entry back. -/
  | release (clock : Clock) (id : Int) (error : Option String)
  | reclaim (clock : Clock) (timeout : Nat)
  /-- Anything happens to the runs, and some of the next calls of the queue will fail. -/
  | elsewhere (o : Orchestrator) (outage : Outage)

def gather (o : Orchestrator) (q : Backend) : Crowd := ⟨⟨o, { queue := q }, {}⟩, fun _ => none⟩

def hand (c : Crowd) (n : Nat) (t : Task) : Crowd :=
  { c with hands := Function.update c.hands n t.pending? }

def step (c : Crowd) : Turn → Crowd
  | .claim n worker clock =>
    match c.hands n with
    | some _ => c
    | none =>
      match Task.claim c.site clock worker with
      | (.ok (some t), site) => { c with site }.hand n t
      | (_, site) => { c with site }
  | .work n worker clock =>
    match c.hands n with
    | none => c
    | some t =>
      let (t, site) := t.step clock worker c.site
      { c with site }.hand n t
  | .report n report stopped =>
    match c.hands n with
    | none => c
    | some t => c.hand n (Task.reported report stopped t)
  | .renew n worker clock =>
    match c.hands n with
    | none => c
    | some t =>
      let (_, t, site) := Task.renew clock worker t c.site
      { c with site }.hand n t
  | .vanish n => { c with hands := Function.update c.hands n none }
  | .offer clock d stopped =>
    { c with site := (c.site.callQueue (ExecutionQueue.offer · clock d stopped)).2 }
  | .release clock id error =>
    { c with site := (c.site.callQueue (ExecutionQueue.release · clock id error)).2 }
  | .reclaim clock timeout =>
    { c with site := (c.site.callQueue (ExecutionQueue.reclaim · clock timeout)).2 }
  | .elsewhere o outage => { c with site.orchestrator := o, site.queue.outage := outage }

def run (c : Crowd) (ts : List Turn) : Crowd := ts.foldl step c

theorem run_concat (c : Crowd) (ts : List Turn) (t : Turn) :
    c.run (ts ++ [t]) = (c.run ts).step t :=
  List.foldl_append ..

def history : Crowd → List Turn → List (Crowd × Turn)
  | _, [] => []
  | c, t :: rest => (c, t) :: history (c.step t) rest

theorem history_concat (c : Crowd) (ts : List Turn) (t : Turn) :
    c.history (ts ++ [t]) = c.history ts ++ [(c.run ts, t)] := by
  induction ts generalizing c with
  | nil => rfl
  | cons x rest ih => exact congrArg (_ :: ·) (ih (c.step x))

/-! ## What a turn means for an entry -/

def claimed? (c : Crowd) : Turn → Option QueuedDispatch
  | .claim n worker clock =>
    match c.hands n with
    | some _ => none
    | none => (ExecutionQueue.claim c.site.queue clock worker).1.toOption.join
  | _ => none

def executed? (c : Crowd) : Turn → Option QueuedDispatch
  | .work n worker clock =>
    match c.hands n with
    | some (.claimed entry) =>
      match (Task.step clock worker (.claimed entry) c.site).1 with
      | .executing _ _ => some entry
      | _ => none
    | _ => none
  | _ => none

/-- Whether a turn gives an entry back: it is released, or found stale by a reclaim, and
the queue does not fail. -/
def returns (c : Crowd) (t : Turn) (id : Int) : Bool :=
  match t with
  | .work n _ clock =>
    match (c.hands n).bind Task.return? with
    | some (entry, error) =>
      entry.id = id && (ExecutionQueue.release c.site.queue clock entry.id (some error)).1.isOk
    | none => false
  | .release clock given error =>
    given = id && (ExecutionQueue.release c.site.queue clock given error).1.isOk
  | .reclaim clock timeout =>
    c.site.queue.queue.stale clock timeout id &&
      (ExecutionQueue.reclaim c.site.queue clock timeout).1.isOk
  | _ => false

def Sound (c : Crowd) : Prop := c.site.queue.queue.Sound

def live (c : Crowd) : LiveQueue := c.site.queue.queue.live

end Crowd

/-- What a turn does to the live entries, when it gives one of them to a worker and gives
some of them back. -/
inductive LiveQueue.Shift (q : LiveQueue) :
    Option QueuedDispatch → (Int → Bool) → LiveQueue → Prop
  | kept : Shift q none (fun _ => false) q
  | added (d : Dispatch) : Shift q none (fun _ => false) (q.add d)
  | removed (id : Int) : Shift q none (fun _ => false) (q.remove id)
  | claimed {e : LiveEntry} {d : QueuedDispatch} (worker : String) (hfirst : q.first? = some e)
      (hid : d.id = e.id) (hattempts : (d.attempts : Int) = e.attempts) :
      Shift q (some d) (fun _ => false) (q.hold e.id worker)
  | freed {returned : Int → Bool} {p : LiveEntry → Bool}
      (hp : ∀ e ∈ q.entries, p e = returned e.id)
      (hclaimed : ∀ id, returned id = true → q.Claimed id) : Shift q none returned (q.free p)

/-- What a turn does to the hands of the workers, when it gives an entry to one of them and
has one of them invoke its executor. -/
inductive Task.Passes (hands : Nat → Option Task) :
    Option QueuedDispatch → Option QueuedDispatch → (Nat → Option Task) → Prop
  /-- No worker has come to stand before the execution of an entry. -/
  | other {hands' : Nat → Option Task}
      (h : ∀ n entry, hands' n = some (.claimed entry) → hands n = some (.claimed entry)) :
      Passes hands none none hands'
  | claimed (n : Nat) (entry : QueuedDispatch) :
      Passes hands (some entry) none (Function.update hands n (some (.claimed entry)))
  | executed {n : Nat} {entry : QueuedDispatch} (lost : Bool)
      (htask : hands n = some (.claimed entry)) :
      Passes hands none (some entry) (Function.update hands n (some (.executing entry lost)))

theorem Task.Passes.refl (hands : Nat → Option Task) : Passes hands none none hands :=
  .other fun _ _ h => h

/-- What a worker has in hand after one of them has got something else. -/
theorem Task.of_update {hands : Nat → Option Task} {n k : Nat} {t : Option Task} {x : Task}
    (h : Function.update hands n t k = some x) :
    (k = n ∧ t = some x) ∨ (k ≠ n ∧ hands k = some x) := by
  by_cases hk : k = n
  · subst hk
    exact .inl ⟨rfl, (Function.update_self k t hands).symm.trans h⟩
  · exact .inr ⟨hk, (Function.update_of_ne hk t hands).symm.trans h⟩

theorem Task.Passes.of_update {hands : Nat → Option Task} {n : Nat} {t : Option Task}
    (h : ∀ entry, t = some (.claimed entry) → hands n = some (.claimed entry)) :
    Passes hands none none (Function.update hands n t) := by
  refine .other fun k entry hk => ?_
  rcases Task.of_update hk with ⟨rfl, ht⟩ | ⟨-, hk⟩
  · exact h entry ht
  · exact hk

/-- A worker that has begun with its entry goes on with it. -/
theorem Task.Passes.of_begun {hands : Nat → Option Task} {n : Nat} {t : Task}
    (h : t.unbegun? = none) : Passes hands none none (Function.update hands n t.pending?) := by
  refine .of_update fun entry hentry => ?_
  cases t with
  | claimed x => cases h
  | done result => cases hentry
  | _ => cases Option.some.inj hentry

namespace Crowd

structure Turned (c : Crowd) (t : Turn) (c' : Crowd) : Prop where
  sound : c'.Sound
  queue : c.live.Shift (c.claimed? t) (c.returns t) c'.live
  hands : Task.Passes c.hands (c.claimed? t) (c.executed? t) c'.hands

variable {c : Crowd}

/-! ## The calls -/

/-- A release frees the entry when it is answered without an error. -/
theorem release_shift (h : c.Sound) (clock : Clock) (id : Int) (error : Option String) :
    (ExecutionQueue.release c.site.queue clock id error).2.queue.Sound ∧
      c.live.Shift none
        (fun i => id = i && (ExecutionQueue.release c.site.queue clock id error).1.isOk)
        (ExecutionQueue.release c.site.queue clock id error).2.queue.live := by
  have hanswers := Faulty.release_answers h clock id error
  generalize ExecutionQueue.release c.site.queue clock id error = answer at hanswers ⊢
  cases hanswers with
  | failed _ =>
    refine ⟨h, ?_⟩
    simpa only [Except.isOk, Except.toBool, Bool.and_false] using .kept
  | answered hsound hguarded =>
    refine ⟨hsound, ?_⟩
    rename_i queue
    show c.live.Shift none _ queue.live
    generalize queue.live = live at hguarded ⊢
    cases hguarded with
    | done hclaimed =>
      simp only [Except.isOk, Except.toBool, Bool.and_true]
      refine .freed (fun e _ => decide_eq_decide.2 eq_comm) fun i hi => ?_
      exact of_decide_eq_true hi ▸ hclaimed
    | notClaimed _ => simpa only [Except.isOk, Except.toBool, Bool.and_false] using .kept

theorem complete_shift (h : c.Sound) (clock : Clock) (id : Int) (success : Bool)
    (error : Option String) :
    (ExecutionQueue.complete c.site.queue clock id success error).2.queue.Sound ∧
      c.live.Shift none (fun _ => false)
        (ExecutionQueue.complete c.site.queue clock id success error).2.queue.live := by
  have hanswers := Faulty.complete_answers h clock id success error
  generalize ExecutionQueue.complete c.site.queue clock id success error = answer at hanswers ⊢
  cases hanswers with
  | failed _ => exact ⟨h, .kept⟩
  | answered hsound hguarded =>
    refine ⟨hsound, ?_⟩
    rename_i queue
    show c.live.Shift none _ queue.live
    generalize queue.live = live at hguarded ⊢
    cases hguarded with
    | done _ => exact .removed id
    | notClaimed _ => exact .kept

/-! ## The turns -/

theorem Turned.of_eq {c' : Crowd} {t : Turn} {claimed executed : Option QueuedDispatch}
    {returned : Int → Bool} {live : LiveQueue} (hclaimed : c.claimed? t = claimed)
    (hexecuted : c.executed? t = executed) (hreturned : c.returns t = returned)
    (hsound : c'.Sound) (hlive : c'.live = live) (hqueue : c.live.Shift claimed returned live)
    (hhands : Task.Passes c.hands claimed executed c'.hands) : c.Turned t c' := by
  subst hclaimed hexecuted hreturned hlive
  exact ⟨hsound, hqueue, hhands⟩

theorem claim_turned (h : c.Sound) (n : Nat) (worker : String) (clock : Clock) :
    c.Turned (.claim n worker clock) (c.step (.claim n worker clock)) := by
  cases hfree : c.hands n with
  | some t =>
    have hclaimed : c.claimed? (.claim n worker clock) = none := by simp only [claimed?, hfree]
    simp only [step, hfree]
    exact .of_eq hclaimed rfl rfl h rfl .kept (.refl _)
  | none =>
    have hanswers := Faulty.claim_answers h clock worker
    have hclaimed : c.claimed? (.claim n worker clock) =
        (ExecutionQueue.claim c.site.queue clock worker).1.toOption.join := by
      simp only [claimed?, hfree]
    simp only [step, hfree, Task.claim, Site.callQueue]
    generalize ExecutionQueue.claim c.site.queue clock worker = answer at hanswers hclaimed ⊢
    cases hanswers with
    | failed _ => exact .of_eq hclaimed rfl rfl h rfl .kept (.refl _)
    | answered hsound hclaims =>
      rename_i queue
      generalize hlive : queue.live = live at hclaims
      cases hclaims with
      | nothing _ => exact .of_eq hclaimed rfl rfl hsound hlive .kept (.refl _)
      | refused _ _ => exact .of_eq hclaimed rfl rfl hsound hlive .kept (.refl _)
      | @discarded e _ _ _ =>
        exact .of_eq hclaimed rfl rfl hsound hlive (.removed e.id) (.refl _)
      | claimed hfirst hid _ _ hattempts =>
        exact .of_eq hclaimed rfl rfl hsound hlive (.claimed worker hfirst hid hattempts)
          (.claimed n _)

section
variable (worker : String) (clock : Clock) {n : Nat} {t : Task}

theorem step_work (htask : c.hands n = some t) : c.step (.work n worker clock) =
    Crowd.hand { c with site := (t.step clock worker c.site).2 } n
      (t.step clock worker c.site).1 := by
  simp only [step, htask]

theorem executed?_of_begun (htask : c.hands n = some t) (ht : t.unbegun? = none) :
    c.executed? (.work n worker clock) = none := by
  simp only [executed?, htask]
  cases t with
  | claimed entry => cases ht
  | _ => rfl

theorem returns_of_none (htask : c.hands n = some t) (ht : t.return? = none) :
    c.returns (.work n worker clock) = fun _ => false := by
  funext id
  simp only [returns, htask, Option.bind_some, ht]

theorem returns_of_some {entry : QueuedDispatch} {error : String} (htask : c.hands n = some t)
    (ht : t.return? = some (entry, error)) :
    c.returns (.work n worker clock) = fun id => entry.id = id &&
      (ExecutionQueue.release c.site.queue clock entry.id (some error)).1.isOk := by
  funext id
  simp only [returns, htask, Option.bind_some, ht]

end

theorem work_turned (h : c.Sound) (n : Nat) (worker : String) (clock : Clock) :
    c.Turned (.work n worker clock) (c.step (.work n worker clock)) := by
  cases htask : c.hands n with
  | none =>
    have hexecuted : c.executed? (.work n worker clock) = none := by simp only [executed?, htask]
    have hreturned : c.returns (.work n worker clock) = fun _ => false := by
      funext id
      simp only [returns, htask, Option.bind_none]
    simp only [step, htask]
    exact .of_eq rfl hexecuted hreturned h rfl .kept (.refl _)
  | some t =>
    have hexecuted := executed?_of_begun worker clock htask
    have hreturned := returns_of_none worker clock htask
    rw [step_work worker clock htask]
    cases t with
    | claimed entry =>
      obtain ⟨outcome, o, heq, -, -⟩ :=
        c.site.orchestrator.onStarted_attempt clock.still entry.run.text worker
      -- the executor is invoked for a run that is running, whoever has begun it
      by_cases hrunning : outcome.status = some .running
      · have hexecuted : c.executed? (.work n worker clock) = some entry := by
          simp only [executed?, htask, Task.step, Site.callOrchestrator, heq, hrunning, if_true]
        simp only [Task.step, Site.callOrchestrator, heq, hrunning, if_true]
        exact .of_eq rfl hexecuted (hreturned rfl) h rfl .kept (.executed false htask)
      · have hexecuted : c.executed? (.work n worker clock) = none := by
          simp only [executed?, htask, Task.step, Site.callOrchestrator, heq, hrunning, if_false]
        simp only [Task.step, Site.callOrchestrator, heq, hrunning, if_false]
        exact .of_eq rfl hexecuted (hreturned rfl) h rfl .kept (.of_begun rfl)
    | executing entry lost =>
      exact .of_eq rfl (hexecuted rfl) (hreturned rfl) h rfl .kept (.of_begun rfl)
    | reporting entry report lost =>
      obtain ⟨outcome, o, heq, -, -⟩ := c.site.orchestrator.onCompleted_attempt clock.still
        entry.run.text worker report.success report.summary
      simp only [Task.step, Site.callOrchestrator, heq]
      cases lost with
      | true =>
        exact .of_eq rfl (hexecuted rfl) (hreturned rfl) h rfl .kept (.of_begun rfl)
      | false =>
        exact .of_eq rfl (hexecuted rfl) (hreturned rfl) h rfl .kept (.of_begun rfl)
    | completing entry success error disposition =>
      obtain ⟨hsound, hshift⟩ := complete_shift h clock entry.id success error
      obtain ⟨result, hdone⟩ := Floor.afterClaimEnd_done entry disposition
        (ExecutionQueue.complete c.site.queue clock entry.id success error).1
      simp only [Task.step, Site.callQueue, hdone]
      exact .of_eq rfl (hexecuted rfl) (hreturned rfl) hsound rfl hshift
        (.of_begun rfl)
    | yielding entry =>
      obtain ⟨hsound, hshift⟩ := release_shift h clock entry.id (some Task.shutdownMessage)
      obtain ⟨result, hdone⟩ := Floor.afterClaimEnd_done entry .interrupted
        (ExecutionQueue.release c.site.queue clock entry.id (some Task.shutdownMessage)).1
      simp only [Task.step, Site.callQueue, hdone]
      exact .of_eq rfl (hexecuted rfl) (returns_of_some worker clock htask rfl) hsound rfl hshift
        (.of_begun rfl)
    | rejecting entry e =>
      obtain ⟨hsound, hshift⟩ := release_shift h clock entry.id (some e.message)
      exact .of_eq rfl (hexecuted rfl) (returns_of_some worker clock htask rfl) hsound rfl hshift
        (.of_begun rfl)
    | done result =>
      exact .of_eq rfl (hexecuted rfl) (hreturned rfl) h rfl .kept (.of_begun rfl)

theorem reported_claimed {report : Report} {stopped : Bool} {t : Task} {entry : QueuedDispatch}
    (h : (Task.reported report stopped t).pending? = some (.claimed entry)) :
    t = .claimed entry := by
  cases t with
  | executing x lost =>
    unfold Task.reported at h
    by_cases hstop : (!report.success && stopped) = true
    · simp only [hstop, if_true] at h
      cases lost <;> cases h
    · simp only [hstop, Bool.false_eq_true, if_false] at h
      cases h
  | done result => cases h
  | _ => exact Option.some.inj h

theorem report_turned (h : c.Sound) (n : Nat) (report : Report) (stopped : Bool) :
    c.Turned (.report n report stopped) (c.step (.report n report stopped)) := by
  cases htask : c.hands n with
  | none =>
    simp only [step, htask]
    exact ⟨h, .kept, .refl _⟩
  | some t =>
    simp only [step, htask]
    refine ⟨h, .kept, .of_update fun entry hentry => ?_⟩
    rw [htask, reported_claimed hentry]

theorem renew_turned (h : c.Sound) (n : Nat) (worker : String) (clock : Clock) :
    c.Turned (.renew n worker clock) (c.step (.renew n worker clock)) := by
  cases htask : c.hands n with
  | none =>
    simp only [step, htask]
    exact ⟨h, .kept, .refl _⟩
  | some t =>
    simp only [step, htask]
    cases t with
    | executing entry lost =>
      have hanswers := Faulty.renew_answers h clock entry.id worker
      simp only [Task.renew, Site.callQueue]
      generalize ExecutionQueue.renew c.site.queue clock entry.id worker = answer at hanswers ⊢
      cases hanswers with
      | failed _ => exact ⟨h, .kept, .of_begun rfl⟩
      | answered hsound hguarded =>
        rename_i queue
        generalize hlive : queue.live = live at hguarded
        cases hguarded with
        | done _ => exact .of_eq rfl rfl rfl hsound hlive .kept (.of_begun rfl)
        | notClaimed _ => exact .of_eq rfl rfl rfl hsound hlive .kept (.of_begun rfl)
    | claimed entry =>
      refine ⟨h, .kept, .of_update fun x hx => ?_⟩
      exact htask.trans hx
    | _ => exact ⟨h, .kept, .of_begun rfl⟩

theorem offer_turned (h : c.Sound) (clock : Clock) (d : Dispatch) (stopped : Bool) :
    c.Turned (.offer clock d stopped) (c.step (.offer clock d stopped)) := by
  have hanswers := Faulty.offer_answers h clock d stopped
  simp only [step, Site.callQueue]
  generalize ExecutionQueue.offer c.site.queue clock d stopped = answer at hanswers ⊢
  cases hanswers with
  | failed _ => exact ⟨h, .kept, .refl _⟩
  | answered hsound hoffered =>
    rename_i queue
    generalize hlive : queue.live = live at hoffered
    cases hoffered with
    | added _ _ => exact .of_eq rfl rfl rfl hsound hlive (.added d) (.refl _)
    | full _ _ => exact .of_eq rfl rfl rfl hsound hlive .kept (.refl _)
    | canceled _ => exact .of_eq rfl rfl rfl hsound hlive .kept (.refl _)

theorem reclaim_turned (h : c.Sound) (clock : Clock) (timeout : Nat) :
    c.Turned (.reclaim clock timeout) (c.step (.reclaim clock timeout)) := by
  have hanswers := Faulty.reclaim_answers h clock timeout
  have hreturned : c.returns (.reclaim clock timeout) = fun id =>
      c.site.queue.queue.stale clock timeout id &&
        (ExecutionQueue.reclaim c.site.queue clock timeout).1.isOk := rfl
  simp only [step, Site.callQueue]
  generalize ExecutionQueue.reclaim c.site.queue clock timeout = answer at hanswers hreturned ⊢
  cases hanswers with
  | failed _ =>
    refine .of_eq rfl rfl ?_ h rfl .kept (.refl _)
    simpa only [Except.isOk, Except.toBool, Bool.and_false] using hreturned
  | answered hsound hreclaim =>
    obtain ⟨rfl, hlive⟩ := hreclaim
    simp only [Except.isOk, Except.toBool, Bool.and_true] at hreturned
    exact .of_eq rfl rfl hreturned hsound hlive
      (.freed (fun _ _ => rfl) fun _ hid => Backend.claimed_of_stale h hid)
      (.refl _)

/-- Every turn shifts the queue and passes the hands of the workers, in one way each. -/
theorem step_turned (h : c.Sound) (t : Turn) : c.Turned t (c.step t) := by
  cases t with
  | claim n worker clock => exact claim_turned h n worker clock
  | work n worker clock => exact work_turned h n worker clock
  | report n report stopped => exact report_turned h n report stopped
  | renew n worker clock => exact renew_turned h n worker clock
  | vanish n => exact ⟨h, .kept, .of_update fun _ hentry => by cases hentry⟩
  | offer clock d stopped => exact offer_turned h clock d stopped
  | release clock id error =>
    obtain ⟨hsound, hshift⟩ := release_shift h clock id error
    exact ⟨hsound, hshift, .refl _⟩
  | reclaim clock timeout => exact reclaim_turned h clock timeout
  | elsewhere o outage => exact ⟨h, .kept, .refl _⟩

theorem run_sound (h : c.Sound) (ts : List Turn) : (c.run ts).Sound := by
  induction ts using List.reverseRecOn with
  | nil => exact h
  | append_singleton ts t ih =>
    rw [run_concat]
    exact (step_turned ih t).sound

end Crowd
end JobGate
