/-
No run is left behind.

A run that the workers have yet to end is in one place: the call that dispatched it
still carries it, or it is the run of one live entry.  It gets from the one to the other
when the entry is added, and it leaves the queue only when it is over.  So when the queue
is empty and no call is in flight there is nothing left to wait for.
-/
import JobGate.Proofs.Floor.Approval

namespace JobGate

/-! ## Where runs are -/

/-- Every busy run is in one place: `carried` gives the run that a call carries, and
`live` are the runs of the live entries. -/
structure Placed (carried : Nat → Option String) (live : List String) (busy : String → Prop) :
    Prop where
  distinct : live.Nodup
  alone : ∀ ⦃c c' run⦄, carried c = some run → carried c' = some run → c = c'
  apart : ∀ ⦃c run⦄, carried c = some run → run ∉ live
  placed : ∀ ⦃run⦄, busy run → (∃ c, carried c = some run) ∨ run ∈ live

namespace Placed

variable {carried : Nat → Option String} {live live' : List String} {busy busy' : String → Prop}
  {call c : Nat} {run x : String}

theorem fewer (h : Placed carried live busy) (hbusy : ∀ x, busy' x → busy x) :
    Placed carried live busy' :=
  { h with placed := fun x hx => h.placed (hbusy x hx) }

/-- A call comes to carry a run that was in no place before. -/
theorem carry (h : Placed carried live busy) (hnone : carried call = none)
    (hnew : ∀ c, carried c ≠ some run) (hlive : run ∉ live)
    (hbusy : ∀ x, busy' x → busy x ∨ x = run) :
    Placed (Function.update carried call (some run)) live busy' where
  distinct := h.distinct
  alone c c' x hc hc' := by
    rw [Function.update_apply] at hc hc'
    by_cases heq : c = call <;> by_cases heq' : c' = call
    · rw [heq, heq']
    · rw [if_pos heq] at hc
      rw [if_neg heq', ← hc] at hc'
      exact absurd hc' (hnew c')
    · rw [if_pos heq'] at hc'
      rw [if_neg heq, ← hc'] at hc
      exact absurd hc (hnew c)
    · rw [if_neg heq] at hc
      rw [if_neg heq'] at hc'
      exact h.alone hc hc'
  apart c x hc := by
    rw [Function.update_apply] at hc
    by_cases heq : c = call
    · rw [if_pos heq] at hc
      cases hc
      exact hlive
    · rw [if_neg heq] at hc
      exact h.apart hc
  placed x hx := by
    rcases hbusy x hx with hx | rfl
    · rcases h.placed hx with ⟨c, hc⟩ | hmem
      · have hne : c ≠ call := by
          rintro rfl
          cases hnone.symm.trans hc
        exact .inl ⟨c, (Function.update_of_ne hne ..).trans hc⟩
      · exact .inr hmem
    · exact .inl ⟨call, Function.update_self ..⟩

/-- What a call carries when another has put down its run. -/
theorem of_update (hc : Function.update carried call none c = some x) :
    c ≠ call ∧ carried c = some x := by
  by_cases heq : c = call
  · subst heq
    rw [Function.update_self] at hc
    cases hc
  · rw [Function.update_of_ne heq] at hc
    exact ⟨heq, hc⟩

theorem enqueue (h : Placed carried live busy) (hcall : carried call = some run) :
    Placed (Function.update carried call none) (live ++ [run]) busy where
  distinct := by
    refine List.nodup_append.2 ⟨h.distinct, List.nodup_singleton run, fun x hx y hy => ?_⟩
    rintro rfl
    cases List.mem_singleton.1 hy
    exact h.apart hcall hx
  alone _ _ _ hc hc' := h.alone (of_update hc).2 (of_update hc').2
  apart c x hc hmem := by
    obtain ⟨hne, hc⟩ := of_update hc
    rcases List.mem_append.1 hmem with hmem | hmem
    · exact h.apart hc hmem
    · rw [List.mem_singleton.1 hmem] at hc
      exact hne (h.alone hc hcall)
  placed x hx := by
    rcases h.placed hx with ⟨c, hc⟩ | hmem
    · by_cases heq : c = call
      · subst heq
        cases hcall.symm.trans hc
        exact .inr (List.mem_append_right _ List.mem_cons_self)
      · exact .inl ⟨c, (Function.update_of_ne heq ..).trans hc⟩
    · exact .inr (List.mem_append_left _ hmem)

/-- A call lets go of its run, which is not busy any more. -/
theorem letGo (h : Placed carried live busy) (hcall : carried call = some run)
    (hbusy : ∀ x, busy' x → busy x ∧ x ≠ run) :
    Placed (Function.update carried call none) live busy' where
  distinct := h.distinct
  alone _ _ _ hc hc' := h.alone (of_update hc).2 (of_update hc').2
  apart _ _ hc := h.apart (of_update hc).2
  placed x hx := by
    obtain ⟨hx, hne⟩ := hbusy x hx
    rcases h.placed hx with ⟨c, hc⟩ | hmem
    · have hother : c ≠ call := by
        rintro rfl
        exact hne (Option.some.inj (hc.symm.trans hcall))
      exact .inl ⟨c, (Function.update_of_ne hother ..).trans hc⟩
    · exact .inr hmem

theorem leave (h : Placed carried live busy) (hsub : live'.Sublist live)
    (hover : ∀ x ∈ live, busy x → x ∈ live') : Placed carried live' busy where
  distinct := h.distinct.sublist hsub
  alone := h.alone
  apart _ _ hc hmem := h.apart hc (hsub.subset hmem)
  placed x hx := (h.placed hx).imp id fun hmem => hover x hmem hx

end Placed

namespace Scene

def carried (s : Scene) (call : Nat) : Option String := (s.calls call).bind Intake.run?

def Placed (s : Scene) : Prop :=
  JobGate.Placed s.carried s.queue.runs s.store.Busy

variable {s : Scene} {call : Nat} {i : Intake}

theorem follow_carried : (s.follow call i).carried = Function.update s.carried call i.run? := by
  funext c
  by_cases heq : c = call
  · subst heq
    rw [Function.update_self, carried, follow_calls_self]
    cases i <;> rfl
  · rw [Function.update_of_ne heq, carried, follow_calls_of_ne heq]
    rfl

theorem follow_carried_eq (h : s.carried call = i.run?) :
    (s.follow call i).carried = s.carried := by
  rw [follow_carried, ← h, Function.update_eq_self]

theorem Traced.of_carried (h : s.Traced) {run : String} (hc : s.carried call = some run) :
    ∃ jobKey, s.store.Dispatched run jobKey := by
  obtain ⟨i, hi, hrun⟩ := Option.bind_eq_some_iff.1 hc
  exact h.carried hi hrun

/-- The run of an entry is a legal one, so no entry is discarded. -/
theorem Traced.not_discarded (h : s.Traced) {e : LiveEntry}
    (hrun : ∀ id : RunId, id.text ≠ e.run) : s.queue.first? ≠ some e := by
  intro hfirst
  obtain ⟨r, hr, -⟩ := h.entries e (LiveQueue.of_first? hfirst).1
  exact hrun r.run.id (RunStore.text_of_find? hr)

/-- The run of a live entry that is to be completed is over. -/
theorem Matching.over (hm : s.Matching) (h : s.Traced) {worker : String}
    {entry : QueuedDispatch} {success : Bool} {error : Option String} {disposition : Disposition}
    (htask : s.tasks worker = some (.completing entry success error disposition))
    {e : LiveEntry} (he : e ∈ s.queue.entries) (hid : e.id = entry.id) : s.store.Over e.run := by
  rw [((hm htask rfl).2 e he hid).1]
  exact h.completing htask

namespace Placed

/-- A call goes on with the run that it carried. -/
theorem goOn {store : RunStore} (hs : s.Placed) (hrun : s.carried call = i.run?)
    (hbusy : ∀ x, store.Busy x → s.store.Busy x) : ({ s with store }.follow call i).Placed := by
  have hsame : ({ s with store }.follow call i).carried = s.carried := follow_carried_eq hrun
  show JobGate.Placed _ _ store.Busy
  rw [hsame]
  exact hs.fewer hbusy

/-- Claims come and go. -/
theorem requeue {queue : LiveQueue} (hs : s.Placed) (hruns : queue.runs = s.queue.runs) :
    { s with queue }.Placed := by
  show JobGate.Placed _ queue.runs _
  rw [hruns]
  exact hs

/-- A run that waited for a decision is in no place, so the call that has it dispatched can
carry it. -/
theorem dispatched {store : RunStore} {m : Inbound} {outcome : InboundOutcome} {d : Dispatch}
    (hs : s.Placed) (ht : s.Traced) (hfree : s.calls call = none)
    (hhandled : Handled s.policy s.store m (Intent.parse m.body) (some d) store) :
    ({ s with store }.follow call (.enqueuing outcome d)).Placed := by
  obtain ⟨r, hr, hwaits⟩ := hhandled.dispatched.1
  show JobGate.Placed (Scene.follow _ _ _).carried _ store.Busy
  rw [Scene.follow_carried]
  refine hs.carry (by rw [Scene.carried, hfree]; rfl) (fun c hc => ?_) (fun hlive => ?_)
    fun x hx => ?_
  · obtain ⟨jobKey, hdispatched⟩ := ht.of_carried hc
    exact hdispatched.not_waiting hr hwaits
  · obtain ⟨e, he, hrun⟩ := LiveQueue.mem_runs.1 hlive
    exact (ht.entries e he).not_waiting (hrun ▸ hr) hwaits
  · refine (hhandled.busy hx).imp id ?_
    rintro ⟨d', hd, rfl⟩
    cases hd
    rfl

end Placed
end Scene

/-! ## Every move -/

section
variable {stale : Clock → Nat → Int → Bool} {s s' : Scene} {a : Action}

/-- An entry leaves the queue only when a worker completes it. -/
theorem Move.completes (h : Move True stale s a s') (ht : s.Traced) {e : LiveEntry}
    (he : e ∈ s.queue.entries) (hgone : ∀ x ∈ s'.queue.entries, x.id ≠ e.id) :
    ∃ worker clock entry success error disposition, a = .work worker clock ∧
      s.tasks worker = some (.completing entry success error disposition) ∧ entry.id = e.id := by
  have hstays : ¬ ∃ x ∈ s'.queue.entries, x.id = e.id := fun ⟨x, hx, hid⟩ => hgone x hx hid
  cases h with
  | enqueued _ _ => exact absurd ⟨e, LiveQueue.mem_add.2 (.inl he), rfl⟩ hstays
  | took _ _ _ _ _ _ => exact (hstays (LiveQueue.exists_mem_update he fun _ => rfl)).elim
  | returned _ _ _ => exact (hstays (LiveQueue.exists_mem_update he fun _ => rfl)).elim
  | reclaimed => exact (hstays (LiveQueue.exists_mem_update he fun _ => rfl)).elim
  | discarded _ hfirst hrun => exact absurd hfirst (ht.not_discarded hrun)
  | @completed worker clock entry success error disposition _ htask _ =>
    refine ⟨worker, clock, entry, success, error, disposition, rfl, htask, ?_⟩
    by_contra hne
    exact hstays ⟨e, LiveQueue.mem_remove.2 ⟨he, fun hid => hne hid.symm⟩, rfl⟩
  | _ => exact absurd ⟨e, he, rfl⟩ hstays

/-- Every move keeps each busy run in one place. -/
theorem Move.placed (h : Move True stale s a s') (ht : s.Traced) (hm : s.Matching)
    (hs : s.Placed) : s'.Placed := by
  have hmoved : s.store.Moved s'.store →
      JobGate.Placed s.carried s.queue.runs s'.store.Busy :=
    fun hmoved => hs.fewer fun _ hx => hmoved.busy hx
  cases h with
  | still _ | endedLate _ _ _ | finished _ | reported _ | noticed _ _ => exact hs
  | began _ hattempt => exact hmoved (hattempt.moved rfl)
  | skipped _ hattempt _ => exact hmoved (hattempt.moved rfl)
  | ended _ hattempt => exact hmoved (hattempt.moved (Orchestrator.endKind_isExecution _))
  | endedLost _ hattempt => exact hmoved (hattempt.moved (Orchestrator.endKind_isExecution _))
  | endedRuns _ hends => exact hmoved hends
  | took _ _ _ _ _ _ => exact hs.requeue LiveQueue.runs_hold
  | returned _ _ _ => exact hs.requeue LiveQueue.runs_free
  | reclaimed => exact hs.requeue LiveQueue.runs_free
  | dispatched hfree hhandled => exact hs.dispatched ht hfree hhandled
  | heard hfree hhandled hi =>
    refine hs.goOn (by rw [Scene.carried, hfree, hi]; rfl) fun x hx => ?_
    rcases hhandled.busy hx with hbusy | ⟨d, hd, -⟩
    · exact hbusy
    · cases hd
  | gaveUp hcall _ => exact hs.goOn (by rw [Scene.carried, hcall]; rfl) fun _ hx => hx
  | answered hcall hi =>
    exact hs.goOn (by rw [Scene.carried, hcall, Option.bind_some, hi]; rfl) fun _ hx => hx
  | @enqueued call _ _ outcome d hcall _ =>
    have hcarried : s.carried call = some d.run.text := by rw [Scene.carried, hcall]; rfl
    show JobGate.Placed (Scene.follow _ _ _).carried (s.queue.add d).runs _
    rw [Scene.follow_carried, LiveQueue.runs_add]
    exact hs.enqueue hcarried
  | @abandoned call _ _ run reason error result status store hcall hattempt =>
    have hcarried : s.carried call = some run := by rw [Scene.carried, hcall]; rfl
    show JobGate.Placed (Scene.follow _ _ _).carried _ store.Busy
    rw [Scene.follow_carried]
    refine hs.letGo hcarried fun x hx => ⟨(hattempt.moved rfl).busy hx, ?_⟩
    rintro rfl
    exact hattempt.not_busy_of_canceled hx
  | discarded _ hfirst hrun => exact absurd hfirst (ht.not_discarded hrun)
  | @completed _ _ entry _ _ _ _ htask _ =>
    refine hs.leave LiveQueue.runs_remove fun x hx hbusy => ?_
    obtain ⟨e, he, rfl⟩ := LiveQueue.mem_runs.1 hx
    refine LiveQueue.mem_runs.2 ⟨e, LiveQueue.mem_remove.2 ⟨he, fun hid => ?_⟩, rfl⟩
    exact (hm.over ht htask he hid).not_busy hbusy

/-- A call carries a run from the message on that had it dispatched. -/
theorem Move.carried {calm : Prop} (h : Move calm stale s a s') {call : Nat} {run : String}
    (hc : s'.carried call = some run) :
    s.carried call = some run ∨ ∃ clock draws m d, a = .receive call clock draws m ∧
      d.run.text = run ∧
      Handled s.policy s.store m (Intent.parse m.body) (some d) s'.store := by
  obtain ⟨i, hi, hrun⟩ := Option.bind_eq_some_iff.1 hc
  rcases h.call hi with hold | hnone | ⟨clock, draws, m, outcome, d, rfl, rfl, hhandled⟩ |
    ⟨outcome, d, reason, error, hold, rfl⟩
  · exact .inl (Option.bind_eq_some_iff.2 ⟨i, hold, hrun⟩)
  · cases hnone.symm.trans hrun
  · exact .inr ⟨clock, draws, m, d, rfl, Option.some.inj hrun, hhandled⟩
  · exact .inl (Option.bind_eq_some_iff.2 ⟨_, hold, hrun⟩)

end

namespace Floor

def Dispatches (call : Nat) (run : String) (f : Floor) (a : Action) (f' : Floor) : Prop :=
  (∃ clock draws m, a = .receive call clock draws m) ∧
    (∃ r, f.scene.store.find? run = some r ∧ r.status = .awaitingApproval) ∧
    ∃ r', f'.scene.store.find? run = some r' ∧ r'.status = .dispatching

def Completing (f : Floor) (worker : String) (id : Int) : Prop :=
  ∃ entry success error disposition,
    f.tasks worker = some (.completing entry success error disposition) ∧ entry.id = id

variable {policy : Policy} {q : Backend} {acts : List Action}

/-- A call that carries a run is the one that had it dispatched. -/
theorem dispatched_by (hq : q.Sound) {call : Nat} {run : String}
    (hc : ((idle (.new policy) q).run acts).scene.carried call = some run) :
    (idle (.new policy) q).Happened acts (Dispatches call run) := by
  refine Happened.of_run (P := fun f => f.scene.carried call = some run) ?_ ?_ hc
  · intro hstart
    cases hstart
  · intro acts a hafter
    have hmove := (step_moves (run_sound (f := idle (.new policy) q) hq acts) a).move
    rcases hmove.carried hafter with hbefore | ⟨clock, draws, m, d, rfl, rfl, hhandled⟩
    · exact .inl hbefore
    · obtain ⟨hwaits, r', hr', hstatus, -⟩ := hhandled.dispatched
      exact .inr ⟨⟨clock, draws, m, rfl⟩, hwaits, r', hr', hstatus⟩

theorem run_placed (hq : q.Sound) (hempty : q.live.entries = [])
    (hacts : ∀ outage, Action.breakQueue outage ∉ acts) :
    ((idle (.new policy) q).run acts).Sound ∧ ((idle (.new policy) q).run acts).Calm ∧
      ((idle (.new policy) q).run acts).scene.Traced ∧
      ((idle (.new policy) q).run acts).scene.Matching ∧
      ((idle (.new policy) q).run acts).scene.Placed := by
  refine calm_induction (f := idle (.new policy) q)
    (P := fun s => s.Traced ∧ s.Matching ∧ s.Placed) hq rfl
    ⟨.idle policy hempty, fun worker t entry ht => (by cases ht), ?_⟩
    (fun h hq hs => ⟨h.traced hs.1, h.matching hq hs.2.1, h.placed hs.1 hs.2.1 hs.2.2⟩) hacts
  have hnone : (idle (.new policy) q).scene.queue.runs = [] := by
    show List.map _ q.live.entries = []
    rw [hempty]
    rfl
  refine ⟨hnone ▸ List.nodup_nil, fun c c' run hc => ?_, fun c run hc => ?_, fun run hrun => ?_⟩
  · cases hc
  · cases hc
  · obtain ⟨r, hr, -⟩ := hrun
    cases hr

/-- No run is left behind while no call of the queue fails.  A run that the workers have
to end is carried by the call that had it dispatched, or else it is the run of exactly one
live entry.  An entry goes only when a worker completes it, and its run is over then.  And
when the depth is zero and no call is in flight, no run is dispatching or running. -/
theorem no_run_left_behind (hq : q.Sound) (hempty : q.live.entries = [])
    (hacts : ∀ outage, Action.breakQueue outage ∉ acts) :
    (∀ run, ((idle (.new policy) q).run acts).scene.store.Busy run →
      (∃ call, ((idle (.new policy) q).run acts).scene.carried call = some run ∧
        (idle (.new policy) q).Happened acts (Dispatches call run) ∧
        run ∉ ((idle (.new policy) q).run acts).scene.queue.runs) ∨
      (∀ call, ((idle (.new policy) q).run acts).scene.carried call ≠ some run) ∧
        ((idle (.new policy) q).run acts).scene.queue.runs.count run = 1) ∧
    (∀ a, ∀ e ∈ ((idle (.new policy) q).run acts).scene.queue.entries,
      (∀ x ∈ (((idle (.new policy) q).run acts).step a).scene.queue.entries, x.id ≠ e.id) →
      (∃ worker clock, a = .work worker clock ∧
        ((idle (.new policy) q).run acts).Completing worker e.id) ∧
        ((idle (.new policy) q).run acts).scene.store.Over e.run) ∧
    ∃ depth, (ExecutionQueue.depth ((idle (.new policy) q).run acts).site.queue).1 = .ok depth ∧
      (depth.live = 0 → (∀ call, ((idle (.new policy) q).run acts).calls call = none) →
        ∀ run, ¬ ((idle (.new policy) q).run acts).scene.store.Busy run) := by
  obtain ⟨hsound, hcalm, htraced, hmatching, hplaced⟩ :=
    run_placed hq hempty hacts
  refine ⟨fun run hrun => ?_, fun a e he hgone => ?_,
    _, depth_eq hsound hcalm, fun hdepth hcalls run hrun => ?_⟩
  · by_cases hcarried : ∃ call, ((idle (.new policy) q).run acts).scene.carried call = some run
    · obtain ⟨call, hc⟩ := hcarried
      exact .inl ⟨call, hc, dispatched_by hq hc, hplaced.apart hc⟩
    · have hmem := (hplaced.placed hrun).resolve_left hcarried
      exact .inr ⟨fun call hc => hcarried ⟨call, hc⟩,
        List.count_eq_one_of_mem hplaced.distinct hmem⟩
  · have hmove := (step_moves hsound a).move
    rw [eq_true hcalm] at hmove
    obtain ⟨worker, clock, entry, success, error, disposition, rfl, htask, hid⟩ :=
      hmove.completes htraced he hgone
    exact ⟨⟨worker, clock, rfl, entry, success, error, disposition, htask, hid⟩,
      hmatching.over htraced htask he hid.symm⟩
  · rw [LiveQueue.depth_live] at hdepth
    rcases hplaced.placed hrun with ⟨call, hc⟩ | hmem
    · obtain ⟨i, hi, -⟩ := Option.bind_eq_some_iff.1 hc
      cases (hcalls call).symm.trans hi
    · obtain ⟨e, he, -⟩ := LiveQueue.mem_runs.1 hmem
      rw [List.eq_nil_of_length_eq_zero hdepth] at he
      cases he

/-- An approved backup waits in the queue. -/
theorem backup_not_left_behind :
    let acts := Action.say 0 "run backup" ++ Action.say 1 "yes run-0-0000"
    let s := ((idle (.new .requesterOnly) (.memory (.new 1))).run acts).scene
    s.store.Busy "run-0-0000" ∧ s.queue.runs.count "run-0-0000" = 1 := by
  intro acts s
  have hbusy : s.store.Busy "run-0-0000" := ⟨_, rfl, rfl⟩
  have hacts : ∀ outage, Action.breakQueue outage ∉ acts := by
    intro outage hmem
    simp [acts, Action.say] at hmem
  refine ⟨hbusy, ?_⟩
  rcases (no_run_left_behind (q := .memory (.new 1)) (MemoryQueue.new_sound 1) rfl hacts).1
    _ hbusy with ⟨call, -, -, hnot⟩ | ⟨-, hcount⟩
  · exact absurd List.mem_cons_self hnot
  · exact hcount

end Floor
end JobGate
