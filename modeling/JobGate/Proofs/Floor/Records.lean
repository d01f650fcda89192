/-
Every dispatch is one of a run that was dispatched.

A dispatch that a call carries, that lies in the queue, or that a worker deals with
names a run that is on record, and the record has come at least as far as its holder
takes for granted: it was dispatched, begun while a worker executes it, and over when
the entry is to be completed.  `Scene.Traced` says all of this, and records only move
forward, so every move preserves it.
-/
import JobGate.Proofs.Floor.Progress

namespace JobGate

namespace RunStore

def Dispatched (s : RunStore) (run jobKey : String) : Prop :=
  ∃ r, s.find? run = some r ∧ 3 ≤ r.status.stage ∧ r.run.jobKey = jobKey

def Begun (s : RunStore) (run : String) : Prop :=
  ∃ r, s.find? run = some r ∧ 4 ≤ r.status.stage ∧ ∃ e ∈ r.events, e.kind = .started

def Over (s : RunStore) (run : String) : Prop :=
  ∃ r, s.find? run = some r ∧ r.status.isTerminal = true

variable {s s' : RunStore} {run jobKey actor : String} {status : Option Status}

theorem Dispatched.grows (h : s.Dispatched run jobKey) (hs : s.Grows s') :
    s'.Dispatched run jobKey := by
  obtain ⟨r, hr, hstage, hkey⟩ := h
  obtain ⟨r', hr', hlater⟩ := hs hr
  refine ⟨r', hr', Nat.le_trans hstage hlater.stage_le, ?_⟩
  rw [hlater.run]
  exact hkey

theorem Begun.grows (h : s.Begun run) (hs : s.Grows s') : s'.Begun run := by
  obtain ⟨r, hr, hstage, e, he, hk⟩ := h
  obtain ⟨r', hr', hlater⟩ := hs hr
  exact ⟨r', hr', Nat.le_trans hstage hlater.stage_le, e, hlater.mem_events he, hk⟩

theorem Over.grows (h : s.Over run) (hs : s.Grows s') : s'.Over run := by
  obtain ⟨r, hr, hover⟩ := h
  obtain ⟨r', hr', hlater⟩ := hs hr
  have hle := hlater.stage_le
  have hmax := r'.status.stage_le
  rw [Status.isTerminal_iff_stage] at hover
  exact ⟨r', hr', Status.isTerminal_iff_stage.2 (by omega)⟩

/-- What was dispatched, and no worker has yet to end, is over. -/
theorem Dispatched.over_of_idle (h : s.Dispatched run jobKey) (hidle : ¬ s.Busy run) :
    s.Over run := by
  obtain ⟨r, hr, hstage, -⟩ := h
  have hnot : ¬ r.status.isBusy = true := fun hbusy => hidle ⟨r, hr, hbusy⟩
  have hmax := r.status.stage_le
  rw [Status.isBusy_iff_stage] at hnot
  exact ⟨r, hr, Status.isTerminal_iff_stage.2 (by omega)⟩

/-- What waits for a decision was not dispatched. -/
theorem Dispatched.not_waiting (h : s.Dispatched run jobKey) {r : RunRecord}
    (hr : s.find? run = some r) : r.status ≠ .awaitingApproval := by
  obtain ⟨x, hx, hstage, -⟩ := h
  cases hr.symm.trans hx
  intro hwaits
  rw [hwaits] at hstage
  exact absurd hstage (by decide)

theorem Over.not_busy (h : s.Over run) : ¬ s.Busy run := by
  rintro ⟨r, hr, hbusy⟩
  obtain ⟨x, hx, hover⟩ := h
  cases hr.symm.trans hx
  rw [Status.isTerminal_iff_stage] at hover
  rw [Status.isBusy_iff_stage] at hbusy
  omega

namespace Attempt

/-- A run that is running after its beginning was reported was not over before. -/
theorem not_over (h : s.Attempt .started actor run (some .running) s') :
    ∃ r, s.find? run = some r ∧ r.status.isTerminal = false := by
  generalize hstatus : (some Status.running : Option Status) = status at h
  cases h with
  | unknown hfind => cases hstatus
  | refused hfind _ => exact ⟨_, hfind, by rw [← Option.some.inj hstatus]; rfl⟩
  | took hfind happend => exact ⟨_, hfind, RunRecord.append_isTerminal happend⟩

/-- A run that is running after its beginning was reported has begun. -/
theorem begun (h : s.Attempt .started actor run (some .running) s')
    (hs : ∀ r, s.find? run = some r → r.Faithful) : s'.Begun run := by
  generalize hstatus : (some Status.running : Option Status) = status at h
  cases h with
  | unknown hfind => cases hstatus
  | @refused r hfind hrefuse =>
    have hrunning : r.status = .running := (Option.some.inj hstatus).symm
    refine ⟨r, hfind, by rw [hrunning]; decide, ?_⟩
    rcases kinds_of_replay (hs r hfind) with ⟨-, hkinds⟩ | ⟨-, -, -, hover, -⟩
    · have hmem : EventKind.started ∈ r.events.map (·.kind) := by
        rw [hkinds, hrunning]
        decide
      obtain ⟨e, he, hk⟩ := List.mem_map.1 hmem
      exact ⟨e, he, hk⟩
    · rw [hrunning] at hover
      cases hover
  | @took r r' payload time e hfind happend =>
    have hfind' := find?_put_of_append hfind happend
    obtain ⟨hevents, hkind, -⟩ := RunRecord.append_events happend
    refine ⟨r', hfind', by rw [← Option.some.inj hstatus]; decide, e, ?_, hkind⟩
    rw [hevents]
    exact List.mem_append_right _ List.mem_cons_self

/-- A dispatched run that does not run after its beginning was reported is over. -/
theorem over_of_started (h : s.Attempt .started actor run status s')
    (hs : s.Dispatched run jobKey) (hstatus : status ≠ some .running) : s'.Over run := by
  refine (hs.grows (h.moved rfl).grows).over_of_idle ?_
  rintro ⟨r, hr, hbusy⟩
  have hnow := h.status_eq
  rw [hr, Option.map_some] at hnow
  -- only a run that was dispatching can be so still, and it would have taken the event
  have hdispatching : r.status = .dispatching := by
    have hne : r.status ≠ .running := fun heq => hstatus (by rw [← hnow, heq])
    cases hr' : r.status <;> rw [hr'] at hbusy hne <;>
      first | rfl | exact absurd rfl hne | cases hbusy
  cases h with
  | unknown hfind =>
    rw [hfind] at hr
    cases hr
  | refused hfind hrefuse =>
    rw [hfind] at hr
    cases hr
    rw [hdispatching] at hrefuse
    cases hrefuse
  | @took x _ _ _ _ hfind happend =>
    have happly := RunRecord.append_apply happend
    rw [← Option.some.inj hnow, hdispatching] at happly
    cases hx : x.status <;> rw [hx] at happly <;> cases happly

/-- A run whose end was reported after it had begun is over. -/
theorem over_of_ended {success : Bool}
    (h : s.Attempt (Orchestrator.endKind success) actor run status s') (hs : s.Begun run) :
    s'.Over run := by
  obtain ⟨r, hr, hstage, -⟩ := hs
  cases h with
  | unknown hfind =>
    rw [hfind] at hr
    cases hr
  | refused hfind hrefuse =>
    rw [hfind] at hr
    cases hr
    refine ⟨r, hfind, ?_⟩
    cases hstatus : r.status <;> rw [hstatus] at hstage hrefuse <;>
      first | rfl | exact absurd hstage (by decide) | skip
    cases success <;> cases hrefuse
  | @took _ r' payload time e hfind happend =>
    rw [hfind] at hr
    cases hr
    have hlt := Status.stage_lt_of_apply (RunRecord.append_apply happend)
    have hmax := r'.status.stage_le
    have hfind' := find?_put_of_append hfind happend
    exact ⟨r', hfind', Status.isTerminal_iff_stage.2 (by omega)⟩

/-- Nobody has to end a run that was canceled, whether it took the event or was over
before. -/
theorem not_busy_of_canceled (h : s.Attempt .canceled actor run status s') :
    ¬ s'.Busy run := by
  rintro ⟨r', hr', hbusy⟩
  cases h with
  | unknown hfind =>
    rw [hfind] at hr'
    cases hr'
  | refused hfind hrefuse =>
    rw [hfind] at hr'
    cases hr'
    cases hover : r'.status.isTerminal with
    | true => exact Over.not_busy ⟨r', hfind, hover⟩ ⟨r', hfind, hbusy⟩
    | false =>
      rw [(Status.apply_ending hover).2] at hrefuse
      cases hrefuse
  | took hfind happend =>
    rw [find?_put_of_append hfind happend] at hr'
    cases hr'
    have happly := RunRecord.append_apply happend
    rw [(Status.apply_ending (RunRecord.append_isTerminal happend)).2] at happly
    rw [← Option.some.inj happly] at hbusy
    cases hbusy

end Attempt
end RunStore

/-- The entry whose run a worker has begun, and has not yet ended. -/
def Task.begun? : Task → Option QueuedDispatch
  | executing entry _ | reporting entry _ _ => some entry
  | _ => none

/-- Every record has a log that leads to its status, and whatever is dispatched has a
record that has come far enough. -/
structure Scene.Traced (s : Scene) : Prop where
  faithful : ∀ ⦃run r⦄, s.store.find? run = some r → r.Faithful
  entries : ∀ e ∈ s.queue.entries, s.store.Dispatched e.run e.jobKey
  enqueuing : ∀ ⦃call outcome d⦄, s.calls call = some (.enqueuing outcome d) →
    s.store.Dispatched d.run.text d.jobKey
  abandoning : ∀ ⦃call run reason error⦄, s.calls call = some (.abandoning run reason error) →
    ∃ jobKey, s.store.Dispatched run jobKey
  tasks : ∀ ⦃worker t entry⦄, s.tasks worker = some t → t.entry? = some entry →
    s.store.Dispatched entry.run.text entry.jobKey
  begun : ∀ ⦃worker t entry⦄, s.tasks worker = some t → t.begun? = some entry →
    s.store.Begun entry.run.text
  completing : ∀ ⦃worker entry success error disposition⦄,
    s.tasks worker = some (.completing entry success error disposition) →
      s.store.Over entry.run.text

namespace Scene.Traced

theorem idle (policy : Policy) {q : Backend} (hq : q.live.entries = []) :
    (Floor.idle (.new policy) q).scene.Traced where
  faithful run r h := by cases h
  entries e he := by
    rw [show (Floor.idle (.new policy) q).scene.queue.entries = [] from hq] at he
    cases he
  enqueuing call outcome d h := by cases h
  abandoning call run reason error h := by cases h
  tasks worker t entry h := by cases h
  begun worker t entry h := by cases h
  completing worker entry success error disposition h := by cases h

/-- The run that a call carries was dispatched. -/
theorem carried {s : Scene} (h : s.Traced) {call : Nat} {i : Intake} {run : String}
    (hi : s.calls call = some i) (hrun : i.run? = some run) :
    ∃ jobKey, s.store.Dispatched run jobKey := by
  cases i with
  | enqueuing outcome d =>
    cases hrun
    exact ⟨d.jobKey, h.enqueuing hi⟩
  | abandoning run' reason error =>
    cases hrun
    exact h.abandoning hi
  | answering outcome | done result => cases hrun

end Scene.Traced

/-! ## Every move -/

section
variable {calm : Prop} {stale : Clock → Nat → Int → Bool} {s s' : Scene} {a : Action}

theorem Move.faithful (h : Move calm stale s a s')
    (hs : ∀ ⦃run r⦄, s.store.find? run = some r → r.Faithful) {run : String} {r' : RunRecord}
    (hr' : s'.store.find? run = some r') : r'.Faithful := by
  rcases h.before hr' with ⟨r, hr, hlater⟩ | ⟨-, _, _, _, _, _, _, _, _, hnew⟩
  · exact hlater.faithful (hs hr)
  · exact hnew.faithful

/-- A run that a worker has begun was begun before, or begins now. -/
theorem Move.begun (h : Move calm stale s a s') (hs : s.Traced) {worker : String} {t' : Task}
    {entry : QueuedDispatch} (ht' : s'.tasks worker = some t') (hentry : t'.begun? = some entry) :
    s'.store.Begun entry.run.text := by
  rcases h.task ht' with ht | ⟨t, ht, hgoes⟩ | ⟨_, _, -, -, -, -, -, -, rfl⟩
  · exact (hs.begun ht hentry).grows h.grows
  · cases hgoes with
    | began _ hattempt =>
      cases hentry
      exact hattempt.begun fun r hr => hs.faithful hr
    | noticed _ | reported _ _ =>
      cases hentry
      exact (hs.begun ht rfl).grows h.grows
    | skipped | interrupted | ended => cases hentry
  · cases hentry

/-- The run of an entry that is to be completed is over. -/
theorem Move.completing (h : Move calm stale s a s') (hs : s.Traced) {worker : String}
    {entry : QueuedDispatch} {success : Bool} {error : Option String} {disposition : Disposition}
    (ht' : s'.tasks worker = some (.completing entry success error disposition)) :
    s'.store.Over entry.run.text := by
  rcases h.task ht' with ht | ⟨t, ht, hgoes⟩ | ⟨_, _, -, -, -, -, -, -, heq⟩
  · exact (hs.completing ht).grows h.grows
  · cases hgoes with
    | skipped _ _ hattempt hstatus => exact hattempt.over_of_started (hs.tasks ht rfl) hstatus
    | ended _ _ _ hattempt => exact hattempt.over_of_ended (hs.begun ht rfl)
  · cases heq

/-- Every move keeps what is dispatched traced. -/
theorem Move.traced (h : Move calm stale s a s') (hs : s.Traced) : s'.Traced where
  faithful _ _ hr' := h.faithful hs.faithful hr'
  entries e he := by
    rcases h.entry he with ⟨x, hx, -, hrun, hkey⟩ | ⟨call, outcome, d, hcall, rfl⟩
    · rw [← hrun, ← hkey]
      exact (hs.entries x hx).grows h.grows
    · exact (hs.enqueuing hcall).grows h.grows
  enqueuing call outcome d hcall := by
    rcases h.call hcall with
      hcall | hnone | ⟨_, _, _, _, _, -, heq, hhandled⟩ | ⟨_, _, _, _, -, heq⟩
    · exact (hs.enqueuing hcall).grows h.grows
    · cases hnone
    · cases heq
      obtain ⟨r', hr', hstatus, hkey⟩ := hhandled.dispatched.2
      exact ⟨r', hr', by rw [hstatus]; decide, hkey⟩
    · cases heq
  abandoning call run reason error hcall := by
    rcases h.call hcall with hcall | hnone | ⟨_, _, _, _, _, -, heq, -⟩ | ⟨_, d, _, _, hold, heq⟩
    · obtain ⟨jobKey, hdispatched⟩ := hs.abandoning hcall
      exact ⟨jobKey, hdispatched.grows h.grows⟩
    · cases hnone
    · cases heq
    · cases heq
      exact ⟨d.jobKey, (hs.enqueuing hold).grows h.grows⟩
  tasks worker t' entry ht' hentry := by
    rcases h.task ht' with ht | ⟨t, ht, hgoes⟩ | ⟨e, y, hfirst, -, -, hrun, hkey, -, rfl⟩
    · exact (hs.tasks ht hentry).grows h.grows
    · exact (hs.tasks ht (hgoes.entry?_eq ▸ hentry)).grows h.grows
    · cases hentry
      rw [hrun, hkey]
      exact (hs.entries e (LiveQueue.of_first? hfirst).1).grows h.grows
  begun _ _ _ ht' hentry := h.begun hs ht' hentry
  completing _ _ _ _ _ ht' := h.completing hs ht'

end
end JobGate
