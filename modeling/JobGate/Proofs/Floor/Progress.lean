/-
What each part of a scene can become.

A move changes several parts of a scene at once.  Here they are taken one by one: what
the records were before a move, where the live entries come from, and what a call or a
worker had in hand.  An invariant that says something about one part needs only the
lemma about that part.
-/
import JobGate.Proofs.Floor.Move

namespace JobGate

namespace Task

/-- How a worker goes on with an entry that it has in hand, by which action, and what
that does to the records. -/
inductive Goes (worker : String) (s s' : RunStore) : Action → Task → Task → Prop
  | began {clock : Clock} (entry : QueuedDispatch)
      (hattempt : s.Attempt .started worker entry.run.text (some .running) s') :
      Goes worker s s' (.work worker clock) (.claimed entry) (.executing entry false)
  | skipped {clock : Clock} (entry : QueuedDispatch) (error : Option String)
      {status : Option Status}
      (hattempt : s.Attempt .started worker entry.run.text status s')
      (hstatus : status ≠ some .running) :
      Goes worker s s' (.work worker clock) (.claimed entry)
        (.completing entry false error (.skipped status))
  | noticed {clock : Clock} (entry : QueuedDispatch) :
      Goes worker s s' (.renew worker clock) (.executing entry false) (.executing entry true)
  | reported {report : Report} {stopped : Bool} (entry : QueuedDispatch) (lost : Bool) :
      Goes worker s s' (.report worker report stopped) (.executing entry lost)
        (.reporting entry report lost)
  | interrupted {report : Report} {stopped : Bool} (entry : QueuedDispatch) :
      Goes worker s s' (.report worker report stopped) (.executing entry false) (.yielding entry)
  | ended {clock : Clock} (entry : QueuedDispatch) (report : Report) (error : Option String)
      {status : Option Status}
      (hattempt : s.Attempt (Orchestrator.endKind report.success) worker entry.run.text status s') :
      Goes worker s s' (.work worker clock) (.reporting entry report false)
        (.completing entry report.success error (.executed report.success))

namespace Goes

variable {worker : String} {s s' : RunStore} {a : Action} {t t' : Task}

theorem entry?_eq (h : Goes worker s s' a t t') : t'.entry? = t.entry? := by
  cases h <;> rfl

theorem of_reported {report : Report} {stopped lost : Bool} {entry : QueuedDispatch}
    (h : (Task.reported report stopped (.executing entry lost)).pending? = some t') :
    Goes worker s s' (.report worker report stopped) (.executing entry lost) t' := by
  unfold Task.reported at h
  by_cases hstop : (!report.success && stopped) = true
  · simp only [hstop, if_true] at h
    cases lost with
    | true => cases h
    | false =>
      cases h
      exact .interrupted entry
  · simp only [hstop, Bool.false_eq_true, if_false] at h
    cases h
    exact .reported entry lost

end Goes

end Task

/-! ## The queue and the workers -/

/-- Every move leaves the queue's entries what they are. -/
theorem Move.keeps {calm : Prop} {stale : Clock → Nat → Int → Bool} {s s' : Scene} {a : Action}
    (h : Move calm stale s a s') : s.queue.Keeps s'.queue := by
  cases h with
  | enqueued _ _ => exact .add _ _
  | took _ _ _ _ _ _ => exact .hold _ _ _
  | discarded _ _ _ => exact .remove _ _
  | completed _ _ => exact .remove _ _
  | returned _ _ _ => exact .free _ _
  | reclaimed => exact .free _ _
  | _ => exact .refl _

/-- What a worker has in hand after a move: what it had, the next phase of that, or an
entry that it has just claimed. -/
theorem Move.task {calm : Prop} {stale : Clock → Nat → Int → Bool} {s s' : Scene}
    {a : Action} (h : Move calm stale s a s') {worker : String} {t' : Task}
    (ht' : s'.tasks worker = some t') :
    s.tasks worker = some t' ∨
      (∃ t, s.tasks worker = some t ∧ Task.Goes worker s.store s'.store a t t') ∨
      ∃ e entry, s.queue.first? = some e ∧ s'.queue = s.queue.hold e.id worker ∧
        entry.id = e.id ∧ entry.run.text = e.run ∧ entry.jobKey = e.jobKey ∧
        (entry.attempts : Int) = e.attempts ∧ t' = .claimed entry := by
  cases h with
  | took _ hfirst hid hrun hkey hattempts =>
    rcases Scene.of_hand ht' with ⟨rfl, ht⟩ | ht
    · cases ht
      exact .inr (.inr ⟨_, _, hfirst, rfl, hid, hrun, hkey, hattempts, rfl⟩)
    · exact .inl ht
  | began htask hattempt =>
    rcases Scene.of_hand ht' with ⟨rfl, ht⟩ | ht
    · cases ht
      exact .inr (.inl ⟨_, htask, .began _ hattempt⟩)
    · exact .inl ht
  | skipped htask hattempt hstatus =>
    rcases Scene.of_hand ht' with ⟨rfl, ht⟩ | ht
    · cases ht
      exact .inr (.inl ⟨_, htask, .skipped _ _ hattempt hstatus⟩)
    · exact .inl ht
  | ended htask hattempt =>
    rcases Scene.of_hand ht' with ⟨rfl, ht⟩ | ht
    · cases ht
      exact .inr (.inl ⟨_, htask, .ended _ _ _ hattempt⟩)
    · exact .inl ht
  | noticed htask _ =>
    rcases Scene.of_hand ht' with ⟨rfl, ht⟩ | ht
    · cases ht
      exact .inr (.inl ⟨_, htask, .noticed _⟩)
    · exact .inl ht
  | reported htask =>
    rcases Scene.of_hand ht' with ⟨rfl, ht⟩ | ht
    · exact .inr (.inl ⟨_, htask, .of_reported ht⟩)
    · exact .inl ht
  | endedLost htask _ | completed htask _ | returned htask _ _ | endedLate htask _ _
  | finished htask =>
    rcases Scene.of_hand ht' with ⟨-, ht⟩ | ht
    · cases ht
    · exact .inl ht
  | _ => exact .inl ht'

/-- What a worker deals with is an entry that was given out, and that is the live one
with its identifier as long as there is one. -/
def Scene.Matching (s : Scene) : Prop :=
  ∀ ⦃worker t entry⦄, s.tasks worker = some t → t.entry? = some entry →
    entry.id < s.queue.next ∧ ∀ e ∈ s.queue.entries, e.id = entry.id →
      e.run = entry.run.text ∧ e.jobKey = entry.jobKey

theorem Move.matching {calm : Prop} {stale : Clock → Nat → Int → Bool} {s s' : Scene}
    {a : Action} (h : Move calm stale s a s') (hq : s.queue.Sound) (hs : s.Matching) :
    s'.Matching := by
  intro worker t' entry ht' hentry
  have hkeeps := h.keeps
  obtain ⟨hlt, hsame⟩ : entry.id < s.queue.next ∧ ∀ e ∈ s.queue.entries, e.id = entry.id →
      e.run = entry.run.text ∧ e.jobKey = entry.jobKey := by
    rcases h.task ht' with ht | ⟨t, ht, hgoes⟩ | ⟨e, y, hfirst, -, hid, hrun, hkey, -, rfl⟩
    · exact hs ht hentry
    · exact hs ht (hgoes.entry?_eq ▸ hentry)
    · cases hentry
      have he := (LiveQueue.of_first? hfirst).1
      refine ⟨hid ▸ hq.fresh e he, fun x hx hxid => ?_⟩
      rw [hq.eq_of_id hx he (hxid.trans hid)]
      exact ⟨hrun.symm, hkey.symm⟩
  refine ⟨Int.lt_of_lt_of_le hlt hkeeps.next, fun x hx hxid => ?_⟩
  obtain ⟨e, he, heid, hrun, hkey⟩ := hkeeps.entries x hx (hxid ▸ hlt)
  rw [← hrun, ← hkey]
  exact hsame e he (heid.trans hxid)

/-- Where a live entry comes from: it was there before, or a call has just added it. -/
theorem Move.entry {calm : Prop} {stale : Clock → Nat → Int → Bool} {s s' : Scene} {a : Action}
    (h : Move calm stale s a s') {e : LiveEntry} (he : e ∈ s'.queue.entries) :
    (∃ x ∈ s.queue.entries, x.id = e.id ∧ x.run = e.run ∧ x.jobKey = e.jobKey) ∨
      ∃ call outcome d, s.calls call = some (.enqueuing outcome d) ∧
        e = ⟨s.queue.next, d.run.text, d.jobKey, 0, none⟩ := by
  cases h with
  | enqueued hcall _ =>
    rcases LiveQueue.mem_add.1 he with he | rfl
    · exact .inl ⟨e, he, rfl, rfl, rfl⟩
    · exact .inr ⟨_, _, _, hcall, rfl⟩
  | took _ _ _ _ _ _ => exact .inl (LiveQueue.of_mem_hold he)
  | returned _ _ _ => exact .inl (LiveQueue.of_mem_free he)
  | reclaimed => exact .inl (LiveQueue.of_mem_free he)
  | discarded _ _ _ => exact .inl ⟨e, (LiveQueue.mem_remove.1 he).1, rfl, rfl, rfl⟩
  | completed _ _ => exact .inl ⟨e, (LiveQueue.mem_remove.1 he).1, rfl, rfl, rfl⟩
  | _ => exact .inl ⟨e, he, rfl, rfl, rfl⟩

/-! ## Messages -/

/-- What a call has in hand after a move: what it had, a run that has just been
dispatched, a dispatch given up, or nothing that matters to a run. -/
theorem Move.call {calm : Prop} {stale : Clock → Nat → Int → Bool} {s s' : Scene} {a : Action}
    (h : Move calm stale s a s') {call : Nat} {i : Intake} (hi : s'.calls call = some i) :
    s.calls call = some i ∨ i.run? = none ∨
      (∃ clock draws m outcome d, a = .receive call clock draws m ∧ i = .enqueuing outcome d ∧
        Handled s.policy s.store m (Intent.parse m.body) (some d) s'.store) ∨
      ∃ outcome d reason error, s.calls call = some (.enqueuing outcome d) ∧
        i = .abandoning d.run.text reason error := by
  cases h with
  | @dispatched c clock draws m outcome d _ _ hhandled =>
    rcases Scene.of_follow hi with ⟨rfl, hx⟩ | hold
    · cases hx
      exact .inr (.inr (.inl ⟨clock, draws, m, outcome, d, rfl, rfl, hhandled⟩))
    · exact .inl hold
  | @heard c _ _ _ _ x _ _ hrun =>
    rcases Scene.of_follow hi with ⟨rfl, hx⟩ | hold
    · refine .inr (.inl ?_)
      cases x with
      | done result => cases hx
      | _ => cases hx; exact hrun
    · exact .inl hold
  | enqueued _ _ =>
    rcases Scene.of_follow hi with ⟨rfl, hx⟩ | hold
    · cases hx
      exact .inr (.inl rfl)
    · exact .inl hold
  | @gaveUp c _ _ outcome d reason error hcall _ =>
    rcases Scene.of_follow hi with ⟨rfl, hx⟩ | hold
    · cases hx
      exact .inr (.inr (.inr ⟨outcome, d, reason, error, hcall, rfl⟩))
    · exact .inl hold
  | abandoned _ _ | answered _ _ =>
    rcases Scene.of_follow hi with ⟨-, hx⟩ | hold
    · cases hx
    · exact .inl hold
  | _ => exact .inl hi

/-! ## The records -/

theorem Move.policy {calm : Prop} {stale : Clock → Nat → Int → Bool} {s s' : Scene} {a : Action}
    (h : Move calm stale s a s') : s'.policy = s.policy := by
  cases h <;> rfl

section
variable {calm : Prop} {stale : Clock → Nat → Int → Bool} {s s' : Scene} {a : Action}
  {run : String} {r' : RunRecord}

/-- Records change by what happens to a run after the decision on it, or by a
message. -/
theorem Move.store (h : Move calm stale s a s') :
    s.store.Moved s'.store ∨ ∃ call clock draws m dispatch, a = .receive call clock draws m ∧
      Handled s.policy s.store m (Intent.parse m.body) dispatch s'.store ∧
      ∀ d, dispatch = some d → ∃ outcome, s'.calls call = some (.enqueuing outcome d) := by
  cases h with
  | dispatched _ hhandled =>
    refine .inr ⟨_, _, _, _, _, rfl, hhandled, fun d hd => ?_⟩
    cases hd
    exact ⟨_, Scene.follow_calls_self⟩
  | heard _ hhandled _ => exact .inr ⟨_, _, _, _, _, rfl, hhandled, fun d hd => by cases hd⟩
  | abandoned _ hattempt => exact .inl (hattempt.moved rfl)
  | began _ hattempt => exact .inl (hattempt.moved rfl)
  | skipped _ hattempt _ => exact .inl (hattempt.moved rfl)
  | ended _ hattempt => exact .inl (hattempt.moved (Orchestrator.endKind_isExecution _))
  | endedLost _ hattempt => exact .inl (hattempt.moved (Orchestrator.endKind_isExecution _))
  | endedRuns _ hmoved => exact .inl hmoved
  | _ => exact .inl (.refl _)

theorem Move.grows (h : Move calm stale s a s') : s.store.Grows s'.store := by
  rcases h.store with hmoved | ⟨_, _, _, _, _, _, hhandled, _⟩
  · exact hmoved.grows
  · exact hhandled.grows

/-- What a record was before a move, unless a message has just created it. -/
theorem Move.before (h : Move calm stale s a s') (hr' : s'.store.find? run = some r') :
    (∃ r, s.store.find? run = some r ∧ RunRecord.Later (fun _ => True) r r') ∨
      (s.store.find? run = none ∧ ∃ call clock draws m jobKey, a = .receive call clock draws m ∧
        (Intent.parse m.body).kind = .runJob ∧ (Intent.parse m.body).jobKey = some jobKey ∧
        (RunRequest.ofMessage m jobKey).Composed r') := by
  rcases h.store with hmoved | ⟨call, clock, draws, m, _, rfl, hhandled, _⟩
  · obtain ⟨r, hr, hlater⟩ := hmoved.before hr'
    exact .inl ⟨r, hr, hlater.mono fun _ _ => trivial⟩
  · rcases hhandled.before hr' with hold | ⟨hnone, hkind, jobKey, hkey, hnew⟩
    · exact .inl hold
    · exact .inr ⟨hnone, call, clock, draws, m, jobKey, rfl, hkind, hkey, hnew⟩

/-- Where an approval in a log comes from: it was there before, or a message of its
actor has just been taken, who may decide on the run. -/
theorem Move.approval (h : Move calm stale s a s') (hr' : s'.store.find? run = some r')
    {e : Event} (he : e ∈ r'.events) (hk : e.kind = .approved) :
    (∃ r, s.store.find? run = some r ∧ e ∈ r.events) ∨
      ∃ call clock draws m r, a = .receive call clock draws m ∧
        (Intent.parse m.body).kind = .approveRun ∧ (Intent.parse m.body).run = some run ∧
        e.actor = m.sender ∧ s.store.find? run = some r ∧ r.status = .awaitingApproval ∧
        s.policy r.run m.sender = true := by
  rcases h.store with hmoved | ⟨call, clock, draws, m, _, rfl, hhandled, _⟩
  · obtain ⟨r, hr, hlater⟩ := hmoved.before hr'
    obtain ⟨new, hevents, hnew⟩ := hlater.events
    rw [hevents] at he
    rcases List.mem_append.1 he with he | he
    · exact .inl ⟨r, hr, he⟩
    · have hexecution := hnew e he
      rw [hk] at hexecution
      cases hexecution
  · rcases hhandled.approval hr' he hk with hold | ⟨hkind, hrun, hactor, r, hr, hwaits, hmay⟩
    · exact .inl hold
    · exact .inr ⟨call, clock, draws, m, r, rfl, hkind, hrun, hactor, hr, hwaits, hmay⟩

end

end JobGate
