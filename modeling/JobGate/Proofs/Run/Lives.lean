/-
The logs that can be replayed.

Of the events in a log a replay looks at the kinds only, which it follows from one status to
the next (`replay_eq_ok_iff`).  The lists of kinds that can be followed are the lives of a run
(`EventKind.Life`): it is executed, or is on its way to that; it is denied; or it is ended from
outside at any moment before it is over.
-/
import JobGate.Proofs.Message.Notice
import JobGate.Proofs.Run.Lifecycle

namespace JobGate

namespace EventKind

/-- The status that such an event leads to, wherever it is legal. -/
def target : EventKind → Status
  | created => .created
  | approvalRequested => .awaitingApproval
  | approved => .approved
  | denied => .denied
  | dispatched => .dispatching
  | started => .running
  | succeeded => .succeeded
  | failed => .failed
  | timedOut => .timedOut
  | canceled => .canceled

theorem isTerminal_target (k : EventKind) : k.target.isTerminal = k.isEnd := by
  cases k <;> rfl

def course : List EventKind := [created, approvalRequested, approved, dispatched, started]

/-- The kinds of the events that a log can hold, at any moment in the life of its run. -/
inductive Life : List EventKind → Prop
  | executed {kinds : List EventKind} {result : EventKind}
      (hresult : result = succeeded ∨ result = failed) (hbegun : kinds ≠ [])
      (hcourse : kinds <+: course ++ [result]) : Life kinds
  | denied : Life [created, approvalRequested, denied]
  | ended {kinds : List EventKind} {ending : EventKind}
      (hending : ending = timedOut ∨ ending = canceled) (hbegun : kinds ≠ [])
      (hcourse : kinds <+: course) : Life (kinds ++ [ending])

end EventKind

namespace Status

theorem eq_target_of_apply {s t : Status} {k : EventKind} (h : s.apply k = some t) :
    t = k.target := by
  cases s <;> cases k <;> simp [apply, isTerminal] at h <;> exact h.symm

theorem path_prefix_course (s : Status) : s.path <+: EventKind.course := by
  cases s <;> decide

theorem path_ne_nil {s : Status} (h : s.isTerminal = false) : s.path ≠ [] := by
  cases s <;> first | decide | cases h

def follow (s : Status) (kinds : List EventKind) : Option Status := kinds.foldlM apply s

theorem follow_cons_eq_some_iff {s t : Status} {k : EventKind} {kinds : List EventKind} :
    s.follow (k :: kinds) = some t ↔ ∃ u, s.apply k = some u ∧ u.follow kinds = some t := by
  rw [follow, List.foldlM_cons]
  exact Option.bind_eq_some_iff

theorem follow_append_eq_some_iff {s t : Status} {a b : List EventKind} :
    s.follow (a ++ b) = some t ↔ ∃ u, s.follow a = some u ∧ u.follow b = some t := by
  rw [follow, List.foldlM_append]
  exact Option.bind_eq_some_iff

/-- What leads to a status in which a run is not over never passes through one in which it
is. -/
theorem isTerminal_of_follow {s t : Status} {kinds : List EventKind}
    (h : s.follow kinds = some t) (ht : t.isTerminal = false) : s.isTerminal = false := by
  cases kinds with
  | nil => exact Option.some.inj h ▸ ht
  | cons k kinds =>
    obtain ⟨u, happly, -⟩ := follow_cons_eq_some_iff.1 h
    exact isTerminal_of_apply happly

end Status

/-! ## Replay -/

theorem replayFrom_eq_ok_iff {s t : Status} {events : List Event} :
    replayFrom s events = .ok t ↔ s.follow (events.map (·.kind)) = some t := by
  induction events generalizing s with
  | nil => simp [replayFrom, Status.follow]
  | cons e rest ih =>
    rw [List.map_cons, Status.follow_cons_eq_some_iff, replayFrom]
    cases s.apply e.kind with
    | none => simp
    | some u => simp [ih]

/-- A log can be replayed when it begins with the creation of its run, and the kinds of the
events behind it can be followed. -/
theorem replay_eq_ok_iff {events : List Event} {s : Status} : replay events = .ok s ↔
    ∃ rest, events.map (·.kind) = .created :: rest ∧ Status.created.follow rest = some s := by
  cases events with
  | nil => simp [replay]
  | cons e rest =>
    rw [replay, List.map_cons]
    split_ifs with hcreated
    · simp [hcreated, replayFrom_eq_ok_iff]
    · simp [hcreated]

theorem exists_replay_of_isPrefix {first events : List Event} {s : Status}
    (h : replay events = .ok s) (hfirst : first ≠ []) (hbegins : first <+: events) :
    ∃ t, replay first = .ok t ∧ ∃ rest, events = first ++ rest ∧ replayFrom t rest = .ok s := by
  obtain ⟨rest, rfl⟩ := hbegins
  rw [replay_append hfirst] at h
  cases ht : replay first with
  | error fault =>
    rw [ht] at h
    cases h
  | ok t =>
    rw [ht] at h
    exact ⟨t, rfl, rest, rfl, h⟩

/-- The status behind a log is the one that its last event leads to. -/
theorem target_of_replay {events : List Event} {s : Status} (h : replay events = .ok s) :
    events.getLast?.map (·.kind.target) = some s := by
  rcases List.eq_nil_or_concat events with rfl | ⟨before, e, rfl⟩
  · cases h
  rw [List.concat_eq_append] at h ⊢
  rw [List.getLast?_concat, Option.map_some, Option.some.injEq]
  by_cases hnil : before = []
  · subst hnil
    obtain ⟨rest, hkinds, hfollow⟩ := replay_eq_ok_iff.1 h
    obtain ⟨hcreated, rfl⟩ := List.cons.inj hkinds
    rw [show e.kind = .created from hcreated]
    exact Option.some.inj hfollow
  · obtain ⟨t, ht, -⟩ := exists_replay_of_isPrefix h hnil (List.prefix_append ..)
    exact (Status.eq_target_of_apply ((replay_concat ht).1 h)).symm

/-- Nothing follows the event that ends a run. -/
theorem eq_nil_of_isEnd {before after : List Event} {e : Event} {s : Status}
    (h : replay (before ++ e :: after) = .ok s) (he : e.kind.isEnd = true) : after = [] := by
  have hsplit : before ++ e :: after = (before ++ [e]) ++ after := by simp
  have hfirst : before ++ [e] ≠ [] := by simp
  obtain ⟨t, ht, rest, hrest, hfrom⟩ := exists_replay_of_isPrefix h hfirst ⟨after, hsplit.symm⟩
  obtain rfl : after = rest := List.append_cancel_left (hsplit.symm.trans hrest)
  have hover : t.isTerminal = true := by
    have htarget := target_of_replay ht
    rw [List.getLast?_concat, Option.map_some, Option.some.injEq] at htarget
    rw [← htarget, EventKind.isTerminal_target, he]
  cases after with
  | nil => rfl
  | cons next after =>
    rw [replayFrom, Status.apply_eq_none hover] at hfrom
    cases hfrom

/-! ## Lives -/

namespace EventKind
namespace Life

/-- A log that can be replayed holds a life. -/
theorem of_replay {events : List Event} {s : Status} (h : replay events = .ok s) :
    Life (events.map (·.kind)) := by
  rcases kinds_of_replay h with ⟨hgoing, hkinds⟩ | ⟨t, k, happly, hover, hkinds⟩
  · rw [hkinds]
    exact .executed (.inl rfl) (Status.path_ne_nil hgoing)
      (s.path_prefix_course.trans (List.prefix_append ..))
  · -- the last event ended the run: the run was denied, executed, or ended from outside
    rw [hkinds]
    have hbegun := Status.path_ne_nil (Status.isTerminal_of_apply happly)
    cases k with
    | timedOut => exact .ended (.inl rfl) hbegun t.path_prefix_course
    | canceled => exact .ended (.inr rfl) hbegun t.path_prefix_course
    | denied =>
      cases t <;> simp [Status.apply, Status.isTerminal] at happly
      exact .denied
    | succeeded =>
      cases t <;> simp [Status.apply, Status.isTerminal] at happly
      exact .executed (.inl rfl) (by decide) (List.prefix_refl _)
    | failed =>
      cases t <;> simp [Status.apply, Status.isTerminal] at happly
      exact .executed (.inr rfl) (by decide) (List.prefix_refl _)
    | created | approvalRequested | approved | dispatched | started =>
      rw [Status.eq_target_of_apply happly] at hover
      cases hover

/-- The beginning of what can be followed from the creation of a run can be followed. -/
theorem exists_follow_of_isPrefix {kinds all : List EventKind} {t : Status}
    (hall : Status.created.follow all = some t) (hbegun : kinds ≠ [])
    (hbegins : kinds <+: created :: all) : ∃ rest s more, kinds = created :: rest ∧
      Status.created.follow rest = some s ∧ s.follow more = some t := by
  cases kinds with
  | nil => exact absurd rfl hbegun
  | cons k rest =>
    obtain ⟨rfl, more, rfl⟩ := List.cons_prefix_cons.1 hbegins
    obtain ⟨s, hrest, hmore⟩ := Status.follow_append_eq_some_iff.1 hall
    exact ⟨rest, s, more, rfl, hrest, hmore⟩

/-- The kinds of a life can be followed. -/
theorem exists_follow {kinds : List EventKind} (h : Life kinds) :
    ∃ rest s, kinds = created :: rest ∧ Status.created.follow rest = some s := by
  cases h with
  | @executed _ result hresult hbegun hcourse =>
    have hall : Status.created.follow (course.tail ++ [result]) = some result.target := by
      rcases hresult with rfl | rfl <;> rfl
    obtain ⟨rest, s, -, hkinds, hrest, -⟩ := exists_follow_of_isPrefix hall hbegun hcourse
    exact ⟨rest, s, hkinds, hrest⟩
  | denied => exact ⟨_, _, rfl, rfl⟩
  | @ended kinds ending hending hbegun hcourse =>
    obtain ⟨rest, s, more, rfl, hrest, hmore⟩ := exists_follow_of_isPrefix
      (show Status.created.follow course.tail = some .running from rfl) hbegun hcourse
    have hgoing : s.isTerminal = false := Status.isTerminal_of_follow hmore rfl
    have happly : s.apply ending = some ending.target := by
      rcases hending with rfl | rfl
      · exact (Status.apply_ending hgoing).1
      · exact (Status.apply_ending hgoing).2
    exact ⟨rest ++ [ending], ending.target, rfl, Status.follow_append_eq_some_iff.2
      ⟨s, hrest, Status.follow_cons_eq_some_iff.2 ⟨_, happly, rfl⟩⟩⟩

theorem length_le {kinds : List EventKind} (h : Life kinds) : kinds.length ≤ 6 := by
  cases h with
  | executed _ _ hcourse => exact hcourse.length_le
  | denied => decide
  | ended _ _ hcourse =>
    rw [List.length_append]
    exact Nat.succ_le_succ hcourse.length_le

end Life
end EventKind

/-- A log can be replayed exactly when the kinds of its events are a life, whatever their
numbers, actors and times, and it leads where its last event leads.  So such a log is short,
nothing follows an event that ends the run, the log up to any event could be replayed, and an
event can be added exactly where it is legal. -/
theorem replays_lives (events : List Event) :
    (∀ s, replay events = .ok s ↔
      EventKind.Life (events.map (·.kind)) ∧ events.getLast?.map (·.kind.target) = some s) ∧
    ∀ s, replay events = .ok s →
      events.length ≤ 6 ∧
      (∀ before e after, events = before ++ e :: after → e.kind.isEnd = true → after = []) ∧
      (∀ first, first ≠ [] → first <+: events → ∃ t, replay first = .ok t) ∧
      ∀ e t, replay (events ++ [e]) = .ok t ↔ s.apply e.kind = some t := by
  constructor
  · intro s
    constructor
    · exact fun h => ⟨.of_replay h, target_of_replay h⟩
    · rintro ⟨hlife, hlast⟩
      obtain ⟨rest, t, hkinds, hfollow⟩ := hlife.exists_follow
      have hreplay : replay events = .ok t := replay_eq_ok_iff.2 ⟨rest, hkinds, hfollow⟩
      rw [target_of_replay hreplay] at hlast
      rw [hreplay, Option.some.inj hlast]
  · intro s h
    refine ⟨?_, ?_, ?_, fun e t => replay_concat h⟩
    · have hlength := (EventKind.Life.of_replay h).length_le
      rwa [List.length_map] at hlength
    · rintro before e after rfl he
      exact eq_nil_of_isEnd h he
    · intro first hfirst hbegins
      obtain ⟨t, ht, -⟩ := exists_replay_of_isPrefix h hfirst hbegins
      exact ⟨t, ht⟩

def Event.ofKinds (kinds : List EventKind) : List Event :=
  kinds.map fun kind =>
    { run := ⟨"run-0-0000", by decide⟩, seq := 1, kind, time := .epoch, actor := "lead",
      payload := [] }

/-- Nothing can be added to the log of a run that was canceled while it waited for a
decision. -/
theorem replays_lives_canceled :
    let events := Event.ofKinds [.created, .approvalRequested, .canceled]
    replay events = .ok .canceled ∧ EventKind.Life (events.map (·.kind)) ∧ events.length ≤ 6 ∧
      (∃ t, replay (events.take 2) = .ok t) ∧ ∀ e t, replay (events ++ [e]) ≠ .ok t := by
  intro events
  have hreplay : replay events = .ok .canceled := rfl
  obtain ⟨haccepts, hlog⟩ := replays_lives events
  obtain ⟨hlength, -, hfirst, hnext⟩ := hlog _ hreplay
  refine ⟨hreplay, ((haccepts _).1 hreplay).1, hlength,
    hfirst _ (List.cons_ne_nil _ _) (List.take_prefix ..), fun e t h => ?_⟩
  have happly := (hnext e t).1 h
  rw [Status.apply_eq_none rfl] at happly
  cases happly

end JobGate
