/-
The lives that a run can have.

A run that is not over got where it is in one way only, so its status tells the
kinds of all events in its log (`Status.path`).  A run that is over has one event
more, the one that ended it.  `kinds_of_replay` says this of every log that can be
replayed, and `RunRecord.Faithful` of the records that `append` builds.
-/
import JobGate.Run.Record
import Mathlib.Data.List.Induction
import Mathlib.Data.List.Nodup

namespace JobGate

namespace Status

/-- The kinds of the events that lead to a status in which a run is not over. -/
def path : Status → List EventKind
  | created => [.created]
  | awaitingApproval => [.created, .approvalRequested]
  | approved => [.created, .approvalRequested, .approved]
  | dispatching => [.created, .approvalRequested, .approved, .dispatched]
  | running => [.created, .approvalRequested, .approved, .dispatched, .started]
  | succeeded | failed | denied | canceled | timedOut => []

/-- A run that is over takes no event. -/
theorem apply_eq_none {s : Status} (h : s.isTerminal = true) (k : EventKind) :
    s.apply k = none := by
  simp only [apply, h, if_true]

theorem isTerminal_of_apply {s t : Status} {k : EventKind} (h : s.apply k = some t) :
    s.isTerminal = false := by
  cases hs : s.isTerminal with
  | false => rfl
  | true => rw [apply_eq_none hs] at h; cases h

/-- Whatever happens, a run that is not over can be ended from outside. -/
theorem apply_ending {s : Status} (h : s.isTerminal = false) :
    s.apply .timedOut = some .timedOut ∧ s.apply .canceled = some .canceled := by
  cases s <;> first | exact ⟨rfl, rfl⟩ | cases h

/-- A status in which a run is not over is entered from one status, by one
event. -/
theorem path_of_apply {s t : Status} {k : EventKind} (h : s.apply k = some t)
    (ht : t.isTerminal = false) : t.path = s.path ++ [k] := by
  cases s <;> cases k <;> simp only [apply, isTerminal, Bool.false_eq_true, if_false, if_true,
    Option.some.injEq, reduceCtorEq] at h <;> subst h <;> first | rfl | cases ht

theorem nodup_path (s : Status) : s.path.Nodup := by
  cases s <;> decide

/-- What can happen to a run has not happened to it before. -/
theorem not_mem_path_of_apply {s t : Status} {k : EventKind} (h : s.apply k = some t) :
    k ∉ s.path := by
  cases k <;> cases s <;> simp [apply, isTerminal] at h <;> decide

end Status

/-! ## Logs -/

theorem replayFrom_append (s : Status) (a b : List Event) :
    replayFrom s (a ++ b) = (replayFrom s a).bind fun t => replayFrom t b := by
  induction a generalizing s with
  | nil => rfl
  | cons e rest ih =>
    simp only [List.cons_append, replayFrom]
    cases s.apply e.kind with
    | none => rfl
    | some t => exact ih t

theorem replay_append {a : List Event} (ha : a ≠ []) (b : List Event) :
    replay (a ++ b) = (replay a).bind fun t => replayFrom t b := by
  cases a with
  | nil => exact absurd rfl ha
  | cons e rest =>
    simp only [List.cons_append, replay]
    by_cases he : e.kind = .created
    · simp only [he, if_true, replayFrom_append]
    · simp only [he, if_false]
      rfl

/-- One event more is accepted exactly when the status allows it. -/
theorem replay_concat {events : List Event} {s t : Status} {e : Event}
    (h : replay events = .ok s) : replay (events ++ [e]) = .ok t ↔ s.apply e.kind = some t := by
  have hne : events ≠ [] := by rintro rfl; cases h
  rw [replay_append hne, h]
  show replayFrom s [e] = .ok t ↔ _
  simp only [replayFrom]
  cases s.apply e.kind <;> simp

/-- The kinds of the events in a log that can be replayed: those on the path to
the status, or those on the path to the status before the run was over and the
event that ended it. -/
theorem kinds_of_replay {events : List Event} {s : Status} (h : replay events = .ok s) :
    (s.isTerminal = false ∧ events.map (·.kind) = s.path) ∨
      ∃ (t : Status) (k : EventKind), t.apply k = some s ∧ s.isTerminal = true ∧
        events.map (·.kind) = t.path ++ [k] := by
  induction events using List.reverseRecOn generalizing s with
  | nil => cases h
  | append_singleton events e ih =>
    by_cases hnil : events = []
    · subst hnil
      by_cases he : e.kind = .created
      · simp only [List.nil_append, replay, he, if_true, replayFrom, Except.ok.injEq] at h
        subst h
        exact .inl ⟨rfl, by simp [he, Status.path]⟩
      · simp [replay, he] at h
    · -- the last event moves the run out of a status in which it is not over
      obtain ⟨t, ht⟩ : ∃ t, replay events = .ok t := by
        rw [replay_append hnil] at h
        cases ht : replay events with
        | error fault => rw [ht] at h; cases h
        | ok t => exact ⟨t, rfl⟩
      have happ := (replay_concat ht).1 h
      have hkinds : events.map (·.kind) = t.path := by
        rcases ih ht with ⟨-, hk⟩ | ⟨-, -, -, hover, -⟩
        · exact hk
        · rw [Status.isTerminal_of_apply happ] at hover
          cases hover
      cases hs : s.isTerminal with
      | false =>
        refine .inl ⟨rfl, ?_⟩
        rw [List.map_append, hkinds, Status.path_of_apply happ hs]
        rfl
      | true => exact .inr ⟨t, e.kind, happ, rfl, by rw [List.map_append, hkinds]; rfl⟩

/-- Nothing happens to a run twice. -/
theorem nodup_kinds_of_replay {events : List Event} {s : Status} (h : replay events = .ok s) :
    (events.map (·.kind)).Nodup := by
  rcases kinds_of_replay h with ⟨-, hkinds⟩ | ⟨t, k, happly, -, hkinds⟩
  · rw [hkinds]
    exact s.nodup_path
  · rw [hkinds, ← List.concat_eq_append, List.nodup_concat]
    exact ⟨Status.not_mem_path_of_apply happly, t.nodup_path⟩

/-- A denial ends a run that was not decided on before. -/
theorem not_approved_of_denied {events : List Event} {s : Status} (h : replay events = .ok s)
    (hdenied : .denied ∈ events.map (·.kind)) : .approved ∉ events.map (·.kind) := by
  rcases kinds_of_replay h with ⟨-, hkinds⟩ | ⟨t, k, happly, -, hkinds⟩
  · rw [hkinds] at hdenied
    cases s <;> simp [Status.path] at hdenied
  · have hpath : .denied ∉ t.path := by
      cases t <;> decide
    rw [hkinds, List.mem_append, List.mem_singleton] at hdenied
    have hlast : EventKind.denied = k := hdenied.resolve_left hpath
    subst hlast
    rw [hkinds]
    cases t <;> simp [Status.apply, Status.isTerminal] at happly
    decide

/-! ## Records -/

namespace RunRecord

/-- The status kept beside the log is the one that the log leads to. -/
def Faithful (r : RunRecord) : Prop := replay r.events = .ok r.status

theorem create_faithful (new : NewRun) (time : Instant) : (create new time).Faithful := rfl

theorem nextEvent_kind (r : RunRecord) (kind : EventKind) (actor : String) (payload : Payload)
    (time : Instant) : (r.nextEvent kind actor payload time).kind = kind := by
  unfold nextEvent
  cases r.events.getLast? <;> rfl

theorem nextEvent_actor (r : RunRecord) (kind : EventKind) (actor : String) (payload : Payload)
    (time : Instant) : (r.nextEvent kind actor payload time).actor = actor := by
  unfold nextEvent
  cases r.events.getLast? <;> rfl

theorem nextEvent_run (r : RunRecord) (kind : EventKind) (actor : String) (payload : Payload)
    (time : Instant) : (r.nextEvent kind actor payload time).run = r.run.id := by
  unfold nextEvent
  cases r.events.getLast? <;> rfl

variable {r r' : RunRecord} {kind : EventKind} {actor : String} {payload : Payload}
  {time : Instant} {e : Event}

theorem append_eq_ok_iff : r.append kind actor payload time = .ok (e, r') ↔
    ∃ next, r.status.apply kind = some next ∧ e = r.nextEvent kind actor payload time ∧
      r' = { run := { r.run with status := next }, events := r.events ++ [e] } := by
  unfold append
  cases r.status.apply kind with
  | none => simp
  | some next =>
    simp only [Except.ok.injEq, Prod.mk.injEq, Option.some.injEq, exists_eq_left']
    constructor
    · rintro ⟨rfl, rfl⟩
      exact ⟨rfl, rfl⟩
    · rintro ⟨rfl, rfl⟩
      exact ⟨rfl, rfl⟩

theorem exists_append {next : Status} (h : r.status.apply kind = some next) (actor : String)
    (payload : Payload) (time : Instant) :
    ∃ e r', r.append kind actor payload time = .ok (e, r') ∧ r'.status = next :=
  ⟨_, _, append_eq_ok_iff.2 ⟨next, h, rfl, rfl⟩, rfl⟩

theorem append_apply (h : r.append kind actor payload time = .ok (e, r')) :
    r.status.apply kind = some r'.status := by
  obtain ⟨next, hnext, -, rfl⟩ := append_eq_ok_iff.1 h
  exact hnext

theorem append_run (h : r.append kind actor payload time = .ok (e, r')) :
    r'.run = { r.run with status := r'.run.status } := by
  obtain ⟨next, -, -, rfl⟩ := append_eq_ok_iff.1 h
  rfl

theorem append_id (h : r.append kind actor payload time = .ok (e, r')) :
    r'.run.id = r.run.id := by
  rw [append_run h]

theorem append_events (h : r.append kind actor payload time = .ok (e, r')) :
    r'.events = r.events ++ [e] ∧ e.kind = kind ∧ e.actor = actor := by
  obtain ⟨next, -, rfl, rfl⟩ := append_eq_ok_iff.1 h
  exact ⟨rfl, nextEvent_kind .., nextEvent_actor ..⟩

theorem append_own (h : r.append kind actor payload time = .ok (e, r')) :
    e.run = r.run.id := by
  obtain ⟨next, -, rfl, -⟩ := append_eq_ok_iff.1 h
  exact nextEvent_run ..

theorem append_isTerminal (h : r.append kind actor payload time = .ok (e, r')) :
    r.status.isTerminal = false :=
  Status.isTerminal_of_apply (append_apply h)

theorem Faithful.append (hr : r.Faithful) (h : r.append kind actor payload time = .ok (e, r')) :
    r'.Faithful := by
  obtain ⟨hevents, hkind, -⟩ := append_events h
  show replay r'.events = .ok r'.status
  rw [hevents, replay_concat hr, hkind]
  exact append_apply h

/-- The log of a run that was once started: whatever follows the start ends the
run. -/
theorem Faithful.kinds_of_started (hr : r.Faithful) (hs : ∃ e ∈ r.events, e.kind = .started) :
    ∃ tail, r.events.map (·.kind) = Status.running.path ++ tail ∧
      ∀ k ∈ tail, k ≠ .approved ∧ k ≠ .dispatched := by
  have hmem : EventKind.started ∈ r.events.map (·.kind) := by
    obtain ⟨e, he, hk⟩ := hs
    exact List.mem_map.2 ⟨e, he, hk⟩
  have hrunning : ∀ t : Status, .started ∈ t.path → t = .running := by
    intro t ht
    cases t <;> simp [Status.path] at ht ⊢
  rcases kinds_of_replay hr with ⟨-, hk⟩ | ⟨t, k, happ, hover, hk⟩
  · rw [hk] at hmem
    exact ⟨[], by rw [hk, hrunning _ hmem, List.append_nil], by simp⟩
  · have hstart : k ≠ .started := by
      rintro rfl
      cases t <;> simp [Status.apply, Status.isTerminal] at happ
      rw [← happ] at hover
      cases hover
    rw [hk, List.mem_append, List.mem_singleton] at hmem
    have ht : t = .running := hrunning t (hmem.resolve_right fun h => hstart h.symm)
    subst ht
    refine ⟨[k], hk, fun j hj => ?_⟩
    rw [List.mem_singleton.1 hj]
    cases k <;> simp [Status.apply, Status.isTerminal] at happ ⊢

/-- The log holds one approval, directly followed by the only dispatch. -/
def ApprovedOnce (r : RunRecord) (approval : Event) : Prop :=
  ∃ before dispatched after, r.events = before ++ approval :: dispatched :: after ∧
    approval.kind = .approved ∧ dispatched.kind = .dispatched ∧
    ∀ e ∈ before ++ after, e.kind ≠ .approved ∧ e.kind ≠ .dispatched

theorem Faithful.approvedOnce (hr : r.Faithful) (hs : ∃ e ∈ r.events, e.kind = .started) :
    ∃ approval, r.ApprovedOnce approval := by
  obtain ⟨tail, hkinds, htail⟩ := hr.kinds_of_started hs
  obtain ⟨first, rest, hevents, hfirst, hrest⟩ := List.map_eq_append_iff.1 hkinds
  -- the five events up to the start, one by one
  simp only [Status.path, List.map_eq_cons_iff, List.map_eq_nil_iff] at hfirst
  obtain ⟨e₁, _, rfl, h₁, e₂, _, rfl, h₂, approval, _, rfl, h₃, dispatched, _, rfl, h₄, e₅, _,
    rfl, h₅, rfl⟩ := hfirst
  refine ⟨approval, [e₁, e₂], dispatched, e₅ :: rest, by simpa using hevents, h₃, h₄, ?_⟩
  intro e he
  simp only [List.mem_append, List.mem_cons, List.not_mem_nil, or_false] at he
  rcases he with (rfl | rfl) | rfl | he
  · simp [h₁]
  · simp [h₂]
  · simp [h₅]
  · exact htail e.kind (hrest ▸ List.mem_map_of_mem he)

end RunRecord
end JobGate
