/-
One entry in the hands of one worker.

A worker takes the entry that has waited longest (`LiveQueue.Oldest`), and while it holds it
none of its calls is refused.  `Backend.Turns` is what such calls make of a queue as long as
nobody else makes one: some change to the live entries, and no change to what is stored of
any other entry.  Freeing or removing an entry that was claimed meanwhile comes to the same as
if it had not been (`LiveQueue.free_hold`), so a whole turn is one change to the queue in which
it began.
-/
import JobGate.Proofs.Queue.Rows

namespace JobGate

def QueuedDispatch.waiting (d : QueuedDispatch) : LiveEntry :=
  ⟨d.id, d.run.text, d.jobKey, d.attempts, none⟩

namespace LiveQueue

variable {q : LiveQueue} {e : LiveEntry}

structure Oldest (q : LiveQueue) (e : LiveEntry) : Prop where
  mem : e ∈ q.entries
  waits : e.holder = none
  least : ∀ x ∈ q.entries, x.holder = none → e.id ≤ x.id

theorem oldest_of_first? (h : q.Sound) (hfirst : q.first? = some e) : q.Oldest e := by
  obtain ⟨hmem, hwaits⟩ := of_first? hfirst
  obtain ⟨-, before, after, hentries, hbefore⟩ := List.find?_eq_some_iff_append.1 hfirst
  refine ⟨hmem, hwaits, fun x hx hfree => ?_⟩
  rw [hentries, List.mem_append, List.mem_cons] at hx
  rcases hx with hx | rfl | hx
  · have hclaimed := hbefore x hx
    rw [hfree] at hclaimed
    cases hclaimed
  · exact Int.le_refl _
  · have hascending := h.ascending
    rw [hentries, List.map_append, List.map_cons, List.pairwise_append, List.pairwise_cons]
      at hascending
    exact Int.le_of_lt (hascending.2.1.1 x.id (List.mem_map_of_mem hx))

/-! ## What undoes a claim -/

theorem remove_hold (id : Int) (worker : String) : (q.hold id worker).remove id = q.remove id := by
  show LiveQueue.mk (List.filter _ (List.map _ _)) _ _ _ = LiveQueue.mk _ _ _ _
  congr 1
  induction q.entries with
  | nil => rfl
  | cons e rest ih =>
    rw [List.map_cons, List.filter_cons, List.filter_cons, ih]
    by_cases hid : e.id = id
    · simp [hid]
    · simp [hid]

theorem free_hold (id : Int) (worker : String) :
    (q.hold id worker).free (·.id = id) = q.free (·.id = id) := by
  show LiveQueue.mk (List.map _ (List.map _ _)) _ _ _ = LiveQueue.mk _ _ _ _
  rw [List.map_map]
  congr 1
  refine List.map_congr_left fun e _ => ?_
  by_cases hid : e.id = id
  · simp only [Function.comp_apply, hid, decide_true, if_true]
    rfl
  · simp only [Function.comp_apply, hid, decide_false, Bool.false_eq_true, if_false]

theorem mem_free_self (he : e ∈ q.entries) :
    { e with attempts := q.bump e.attempts, holder := none } ∈
      (q.free (·.id = e.id)).entries :=
  mem_update.2 ⟨e, he, if_pos (decide_eq_true rfl)⟩

theorem Guarded.of_allowed {allowed : Prop} {id : Int} {q' live : LiveQueue}
    {answer : Except QueueError Unit} (h : Guarded allowed id q q' answer live)
    (hallowed : allowed) : answer = .ok () ∧ live = q' := by
  cases h with
  | done _ => exact ⟨rfl, rfl⟩
  | notClaimed hnot => exact absurd hallowed hnot

/-! ## What a claim is answered -/

theorem Claims.of_nothing {worker : String} {live : LiveQueue}
    (h : q.Claims worker (.ok none) live) : ∀ e ∈ q.entries, e.holder ≠ none := by
  intro e he hfree
  cases h with
  | nothing hnone =>
    have hclaimed := List.find?_eq_none.1 hnone e he
    rw [hfree] at hclaimed
    exact hclaimed rfl

theorem Claims.of_error {worker : String} {live : LiveQueue} {error : QueueError}
    (h : q.Claims worker (.error error) live) : ∃ e, q.first? = some e ∧
      ((∀ run : RunId, run.text ≠ e.run) ∨ ¬ (0 ≤ e.attempts ∧ e.attempts < 4294967296)) := by
  cases h with
  | discarded hfirst hrun => exact ⟨_, hfirst, .inl hrun⟩
  | refused hfirst hattempts => exact ⟨_, hfirst, .inr hattempts⟩

theorem Claims.of_entry (hq : q.Sound) {worker : String} {live : LiveQueue} {d : QueuedDispatch}
    (h : q.Claims worker (.ok (some d)) live) : q.Oldest d.waiting ∧ live = q.hold d.id worker := by
  cases h with
  | @claimed e _ hfirst hid hrun hkey hattempts =>
    have holdest := oldest_of_first? hq hfirst
    have hentry : e = d.waiting := by
      rw [QueuedDispatch.waiting, hid, hrun, hkey, hattempts, ← holdest.waits]
    rw [hentry] at holdest
    exact ⟨holdest, by rw [hid]⟩

/-! ## Attempts -/

/-- Attempts are counted from zero, and not stopped below it. -/
structure Counts (q : LiveQueue) : Prop where
  attempts : ∀ e ∈ q.entries, 0 ≤ e.attempts
  highest : ∀ highest, q.highest = some highest → 0 ≤ highest

namespace Counts

theorem add (h : q.Counts) (d : Dispatch) : (q.add d).Counts := by
  refine ⟨fun x hx => ?_, h.highest⟩
  rcases mem_add.1 hx with hx | rfl
  · exact h.attempts x hx
  · exact Int.le_refl 0

theorem remove (h : q.Counts) (id : Int) : (q.remove id).Counts :=
  ⟨fun x hx => h.attempts x (mem_remove.1 hx).1, h.highest⟩

theorem update (h : q.Counts) {p : LiveEntry → Bool} {f : LiveEntry → LiveEntry}
    (hf : ∀ e ∈ q.entries, 0 ≤ (f e).attempts) : (q.update p f).Counts := by
  refine ⟨fun x hx => ?_, h.highest⟩
  obtain ⟨e, he, rfl⟩ := mem_update.1 hx
  by_cases hp : p e = true
  · rw [if_pos hp]
    exact hf e he
  · rw [if_neg hp]
    exact h.attempts e he

theorem hold (h : q.Counts) (id : Int) (worker : String) : (q.hold id worker).Counts :=
  h.update fun e he => h.attempts e he

theorem free (h : q.Counts) (p : LiveEntry → Bool) : (q.free p).Counts := by
  refine h.update fun e he => ?_
  have hpos := h.attempts e he
  show 0 ≤ q.bump e.attempts
  unfold bump
  cases hstop : q.highest with
  | none =>
    show 0 ≤ e.attempts + 1
    omega
  | some highest =>
    have := h.highest highest hstop
    show 0 ≤ min (e.attempts + 1) highest
    omega

end Counts

end LiveQueue

/-! ## What a claim changes -/

/-- What is listed as waiting is there, so a queue in memory always has an answer. -/
theorem MemoryQueue.claim_cases {q : MemoryQueue} (h : q.Sound) (clock : Clock)
    (worker : String) :
    (∃ d q', q.claim clock worker = (.ok (some d), q') ∧
        (Backend.memory q').others d.id = (Backend.memory q).others d.id) ∨
      q.claim clock worker = (.ok none, q) := by
  unfold claim
  cases hpending : q.pending with
  | nil => exact .inr rfl
  | cons i rest =>
    have hi : i ∈ waiting q.entries := by
      rw [← h.pending, hpending]
      exact List.mem_cons_self
    obtain ⟨e, he, rfl⟩ := List.mem_map.1 (waiting_subset hi)
    have hentry : entry? { q with pending := rest } e.dispatch.id = some e := entry?_of_mem h he
    simp only [hentry]
    exact .inl ⟨_, _, rfl, others_update rfl fun _ => rfl⟩

theorem TableQueue.claim_cases {q : TableQueue}
    (hnamed : ∀ e ∈ q.live.entries, ∃ run : RunId, run.text = e.run) (clock : Clock)
    (worker : String) :
    (∃ d q', q.claim clock worker = (.ok (some d), q') ∧
        (Backend.table q').others d.id = (Backend.table q).others d.id) ∨
      q.claim clock worker = (.ok none, q) ∨ q.claim clock worker = (.error .statement, q) := by
  unfold claim
  cases hfind : q.rows.find? (·.status = .pending) with
  | none => exact .inr (.inl rfl)
  | some row =>
    simp only
    cases attempts? row with
    | none => exact .inr (.inr rfl)
    | some attempts =>
      have hpending : row.status = .pending := by simpa using List.find?_some hfind
      have hlive : row.live ∈ q.live.entries :=
        mem_live.2 ⟨row, List.mem_of_find?_eq_some hfind, Row.isLive_of_pending hpending, rfl⟩
      simp only
      cases hparse : RunId.parse row.run with
      | error fault =>
        obtain ⟨run, htext⟩ := hnamed _ hlive
        exact absurd htext (parse_error hparse run)
      | ok run =>
        refine .inl ⟨_, _, rfl, others_updateWhere (fun r _ hr => ?_) fun _ => rfl⟩
        simp only [Bool.and_eq_true, decide_eq_true_eq] at hr
        exact hr.1

namespace Backend

variable {q q' q'' : Backend} {id : Int} {live live' : LiveQueue}

/-- Calls about one entry have changed the live entries in some way, and nothing that is stored
of any other entry. -/
structure Turns (q : Backend) (id : Int) (live : LiveQueue) (q' : Backend) : Prop where
  sound : q'.Sound
  live : q'.live = live
  others : q'.others id = q.others id

theorem Turns.trans (h : q.Turns id live q') (h' : q'.Turns id live' q'') :
    q.Turns id live' q'' :=
  ⟨h'.sound, h'.live, h'.others.trans h.others⟩

theorem live_highest (q : Backend) {highest : Int} (h : q.live.highest = some highest) :
    0 ≤ highest := by
  cases q with
  | memory q =>
    cases h
    exact Int.natCast_nonneg _
  | table q => cases h

/-! ## The beginning of a turn -/

/-- What a worker can be answered that asks for an entry, when every entry names a run. -/
inductive Takes (q : Backend) (worker : String) :
    Except QueueError (Option QueuedDispatch) × Backend → Prop
  | nothing (hnone : ∀ e ∈ q.live.entries, e.holder ≠ none) : Takes q worker (.ok none, q)
  | taken {d : QueuedDispatch} {q' : Backend} (holdest : q.live.Oldest d.waiting)
      (hqueue : q.Turns d.id (q.live.hold d.id worker) q') : Takes q worker (.ok (some d), q')
  /-- The number of attempts does not fit into an answer. -/
  | refused {e : LiveEntry} (hkind : q.kind = .table) (holdest : q.live.Oldest e)
      (hattempts : ¬ (0 ≤ e.attempts ∧ e.attempts < 4294967296)) :
      Takes q worker (.error .statement, q)

/-- A claim leaves alone what is stored of other entries.  One that hands out nothing leaves
the queue as it is, when every entry names a run. -/
theorem claim_cases (h : q.Sound) (hnamed : ∀ e ∈ q.live.entries, ∃ run : RunId, run.text = e.run)
    (clock : Clock) (worker : String) :
    (∃ d q', ExecutionQueue.claim q clock worker = (.ok (some d), q') ∧
        q'.others d.id = q.others d.id) ∨
      ExecutionQueue.claim q clock worker = (.ok none, q) ∨
      q.kind = .table ∧ ExecutionQueue.claim q clock worker = (.error .statement, q) := by
  cases q with
  | memory m =>
    rcases MemoryQueue.claim_cases h clock worker with ⟨d, m', hclaim, hothers⟩ | hclaim
    · exact .inl ⟨d, memory m', congrArg (wrap memory) hclaim, hothers⟩
    · exact .inr (.inl (congrArg (wrap memory) hclaim))
  | table t =>
    have hcall : ExecutionQueue.claim (table t) clock worker =
        wrap table (t.claim clock worker) := congrArg (wrap table) (TableQueue.onTable_eq h _)
    rcases TableQueue.claim_cases hnamed clock worker with
      ⟨d, t', hclaim, hothers⟩ | hclaim | hclaim
    · exact .inl ⟨d, table t', hcall.trans (congrArg (wrap table) hclaim), hothers⟩
    · exact .inr (.inl (hcall.trans (congrArg (wrap table) hclaim)))
    · exact .inr (.inr ⟨rfl, hcall.trans (congrArg (wrap table) hclaim)⟩)

theorem claim_takes (h : q.Sound) (hnamed : ∀ e ∈ q.live.entries, ∃ run : RunId, run.text = e.run)
    (clock : Clock) (worker : String) : q.Takes worker (ExecutionQueue.claim q clock worker) := by
  obtain ⟨hsound, hclaims⟩ := claim_answers h clock worker
  rcases claim_cases h hnamed clock worker with
    ⟨d, q', hanswer, hothers⟩ | hanswer | ⟨hkind, hanswer⟩
  · rw [hanswer] at hsound hclaims ⊢
    obtain ⟨holdest, hlive⟩ := hclaims.of_entry (sound_live h)
    exact .taken holdest ⟨hsound, hlive, hothers⟩
  · rw [hanswer] at hclaims ⊢
    exact .nothing hclaims.of_nothing
  · rw [hanswer] at hclaims ⊢
    obtain ⟨e, hfirst, hwhy⟩ := hclaims.of_error
    have holdest := LiveQueue.oldest_of_first? (sound_live h) hfirst
    obtain ⟨run, hrun⟩ := hnamed e holdest.mem
    exact .refused hkind holdest (hwhy.resolve_left fun hnone => hnone run hrun)

/-! ## The end of a turn -/

theorem renew_turns (h : q.Sound) {worker : String} (hholds : q.live.Holds worker id)
    (clock : Clock) : (ExecutionQueue.renew q clock id worker).1 = .ok () ∧
      q.Turns id q.live (ExecutionQueue.renew q clock id worker).2 := by
  obtain ⟨hsound, hguarded⟩ := renew_answers h clock id worker
  obtain ⟨hanswer, hlive⟩ := hguarded.of_allowed hholds
  exact ⟨hanswer, hsound, hlive, others_renew h clock id worker⟩

theorem complete_turns (h : q.Sound) (hclaimed : q.live.Claimed id) (clock : Clock)
    (success : Bool) (error : Option String) :
    (ExecutionQueue.complete q clock id success error).1 = .ok () ∧
      q.Turns id (q.live.remove id) (ExecutionQueue.complete q clock id success error).2 := by
  obtain ⟨hsound, hguarded⟩ := complete_answers h clock id success error
  obtain ⟨hanswer, hlive⟩ := hguarded.of_allowed hclaimed
  exact ⟨hanswer, hsound, hlive, others_complete h clock id success error⟩

theorem release_turns (h : q.Sound) (hclaimed : q.live.Claimed id) (clock : Clock)
    (error : Option String) : (ExecutionQueue.release q clock id error).1 = .ok () ∧
      q.Turns id (q.live.free (·.id = id)) (ExecutionQueue.release q clock id error).2 := by
  obtain ⟨hsound, hguarded⟩ := release_answers h clock id error
  obtain ⟨hanswer, hlive⟩ := hguarded.of_allowed hclaimed
  exact ⟨hanswer, hsound, hlive, others_release h clock id error⟩

end Backend
end JobGate
