/-
Claims and the clock from which they date.

Each kind of queue keeps the time at which a claim was made or last renewed, on a clock of
its own.  `Dated` says for both that a claimed entry stands as given and that its claim
dates from some clock.  No call moves that date but one about the very claim, and a sweep
takes the claim back exactly when it finds it old (`Dated.perform`, `Dated.stale_eq`).

A clock that is moved forward moves both of its hands by at most the same length
(`Clock.Within`), so a claim that is younger than a timeout is old on neither.
-/
import JobGate.Proofs.Queue.Agreement
import JobGate.Proofs.Queue.Backpressure
import JobGate.Proofs.Time.Passed

namespace JobGate

/-! ## Clocks that are moved forward -/

/-- Neither hand has moved further than some length since an earlier clock. -/
structure Clock.Within (length : Nat) (since now : Clock) : Prop where
  elapsed : now.elapsed ≤ since.elapsed + length
  wall : now.wall.unixNanos ≤ since.wall.unixNanos + length

namespace Clock.Within

variable {since now : Clock} {length : Nat}

theorem refl (c : Clock) (length : Nat) : c.Within length c :=
  ⟨Nat.le_add_right _ _, by omega⟩

theorem advance (h : since.Within length now) (d : Nat) :
    since.Within (length + d) (now.advance d) := by
  refine ⟨?_, ?_⟩
  · have := h.elapsed
    show now.elapsed + d ≤ _
    omega
  · have := h.wall
    unfold Clock.advance
    -- at the end of time the wall clock stands still
    cases hadd : now.wall.add? d with
    | none =>
      show now.wall.unixNanos ≤ _
      omega
    | some wall =>
      have := Instant.unixNanos_add? hadd
      show wall.unixNanos ≤ _
      omega

end Clock.Within

/-! ## Claims in memory -/

namespace MemoryQueue

/-- An entry is claimed as given, and its claim dates from a clock. -/
def Dated (q : MemoryQueue) (x : LiveEntry) (since : Clock) : Prop :=
  ∃ e ∈ q.entries, e.live = x ∧ e.claim.map (·.since) = some since.elapsed

namespace Dated

variable {q : MemoryQueue} {x : LiveEntry} {since : Clock}

theorem mem (h : q.Dated x since) : x ∈ q.live.entries := by
  obtain ⟨e, he, rfl, -⟩ := h
  exact List.mem_map_of_mem he

theorem stale_eq (hq : q.Sound) (h : q.Dated x since) (now : Clock) (timeout : Nat) :
    q.stale now timeout x.id = isOld since now timeout := by
  obtain ⟨e, he, rfl, hdate⟩ := h
  obtain ⟨c, hc, hsince⟩ := Option.map_eq_some_iff.1 hdate
  show q.stale now timeout e.dispatch.id = _
  rw [stale_of_mem hq now timeout he, isStale, hc]
  simp only [isOld, hsince]

/-- What changes other entries only leaves this one as it is. -/
theorem update (h : q.Dated x since) {id : Int} (hid : id ≠ x.id) {f : MemoryEntry → MemoryEntry}
    {pending : List Int} : Dated { q.update id f with pending } x since := by
  obtain ⟨e, he, rfl, hdate⟩ := h
  exact ⟨e, List.mem_map.2 ⟨e, he, if_neg (Ne.symm hid)⟩, rfl, hdate⟩

theorem offer (h : q.Dated x since) (d : Dispatch) (stopped : Bool) :
    (q.offer d stopped).2.Dated x since := by
  unfold MemoryQueue.offer
  split_ifs
  · exact h
  · obtain ⟨e, he, hx⟩ := h
    exact ⟨e, List.mem_append_left _ he, hx⟩
  · exact h

/-- An entry that is claimed does not wait, so the next claim is one of another. -/
theorem claim (hq : q.Sound) (h : q.Dated x since) (clock : Clock) (worker : String) :
    (q.claim clock worker).2.Dated x since := by
  unfold MemoryQueue.claim
  have hpending := hq.pending
  cases hlist : q.pending with
  | nil => exact h
  | cons id rest =>
    have hwaits : id ∈ waiting q.entries := by
      rw [← hpending, hlist]
      exact List.mem_cons_self
    have hid : id ≠ x.id := by
      obtain ⟨e, he, rfl, hdate⟩ := h
      obtain ⟨y, hy, rfl⟩ := List.mem_map.1 hwaits
      obtain ⟨hy, hnone⟩ := List.mem_filter.1 hy
      intro heq
      have hsame := entry?_of_mem hq hy
      rw [heq, show e.live.id = e.dispatch.id from rfl, entry?_of_mem hq he] at hsame
      rw [← Option.some.inj hsame] at hnone
      rw [Option.isNone_iff_eq_none.1 hnone] at hdate
      cases hdate
    simp only
    split
    · exact h
    · exact update (q := { q with pending := rest }) h hid

theorem complete (h : q.Dated x since) {id : Int} (hid : id ≠ x.id) :
    (q.complete id).2.Dated x since := by
  unfold MemoryQueue.complete
  split_ifs
  · obtain ⟨e, he, rfl, hdate⟩ := h
    exact ⟨e, List.mem_filter.2 ⟨he, decide_eq_true (Ne.symm hid)⟩, rfl, hdate⟩
  · exact h

theorem release (h : q.Dated x since) {id : Int} (hid : id ≠ x.id) (error : Option String) :
    (q.release id error).2.Dated x since := by
  unfold MemoryQueue.release
  rw [free?_eq]
  split_ifs
  · exact h.update hid
  · exact h

theorem renew_other (hq : q.Sound) (h : q.Dated x since) {id : Int} {worker : String}
    (hother : id = x.id → x.holder ≠ some worker) (clock : Clock) :
    (q.renew clock id worker).2.Dated x since := by
  unfold MemoryQueue.renew
  split
  · rename_i c hc
    split_ifs with hworker
    · refine h.update fun hid => hother hid ?_
      obtain ⟨e, he, rfl, -⟩ := h
      rw [hid, show e.live.id = e.dispatch.id from rfl, entry?_of_mem hq he] at hc
      show e.claim.map (·.worker) = some worker
      rw [show e.claim = some c from hc, Option.map_some, hworker]
    · exact h
  · exact h

/-- Whoever holds a claim may renew it, and then it dates from that moment. -/
theorem renew (hq : q.Sound) (h : q.Dated x since) {worker : String}
    (hholder : x.holder = some worker) (clock : Clock) :
    (q.renew clock x.id worker).1 = .ok () ∧ (q.renew clock x.id worker).2.Dated x clock := by
  obtain ⟨e, he, rfl, -⟩ := h
  obtain ⟨c, hc, hworker⟩ := Option.map_eq_some_iff.1 hholder
  have hclaim : (q.entry? e.live.id).bind (·.claim) = some c := by
    rw [show e.live.id = e.dispatch.id from rfl, entry?_of_mem hq he]
    exact hc
  unfold MemoryQueue.renew
  simp only [hclaim, if_pos hworker]
  refine ⟨trivial, { e with claim := some ⟨worker, clock.elapsed⟩ }, ?_, ?_, rfl⟩
  · exact List.mem_map.2 ⟨e, he, if_pos rfl⟩
  · simp only [MemoryEntry.live, hc, Option.map_some, hworker]

theorem reclaim (hq : q.Sound) (h : q.Dated x since) {clock : Clock} {timeout : Nat}
    (hyoung : isOld since clock timeout = false) : (q.reclaim clock timeout).2.Dated x since := by
  have hstale := h.stale_eq hq clock timeout
  obtain ⟨e, he, rfl, hdate⟩ := h
  rw [show e.live.id = e.dispatch.id from rfl, stale_of_mem hq clock timeout he, hyoung] at hstale
  refine ⟨e, ?_, rfl, hdate⟩
  rw [reclaim_entries hq]
  exact List.mem_map.2 ⟨e, he, by rw [hstale]; rfl⟩

end Dated

/-- A claim dates from the clock at which it was made. -/
theorem dated_of_claim {q q' : MemoryQueue} {clock : Clock} {worker : String}
    {d : QueuedDispatch} (h : q.claim clock worker = (.ok (some d), q')) :
    q'.Dated ⟨d.id, d.run.text, d.jobKey, d.attempts, some worker⟩ clock := by
  unfold MemoryQueue.claim at h
  split at h
  · cases h
  · rename_i id rest _
    dsimp only at h
    split at h
    · cases h
    · rename_i e he
      obtain ⟨hmem, hid⟩ := of_entry? (q := q) he
      cases h
      exact ⟨{ e with claim := some ⟨worker, clock.elapsed⟩ },
        List.mem_map.2 ⟨e, hmem, if_pos hid⟩, rfl, rfl⟩

end MemoryQueue

/-! ## Claims in a table -/

namespace TableQueue

def Dated (q : TableQueue) (x : LiveEntry) (since : Clock) : Prop :=
  ∃ r ∈ q.rows, r.status = .claimed ∧ r.live = x ∧ r.claimedAt = some since.millis

namespace Dated

variable {q : TableQueue} {x : LiveEntry} {since : Clock}

theorem mem (h : q.Dated x since) : x ∈ q.live.entries := by
  obtain ⟨r, hr, hclaimed, rfl, -⟩ := h
  exact mem_live.2 ⟨r, hr, Row.isLive_of_claimed hclaimed, rfl⟩

theorem stale_eq (hq : q.Sound) (h : q.Dated x since) (now : Clock) (timeout : Nat) :
    q.stale now timeout x.id = isOld since now timeout := by
  obtain ⟨r, hr, hclaimed, rfl, hdate⟩ := h
  show q.stale now timeout r.id = _
  rw [stale_of_mem hq now timeout hr, isStale, hclaimed, hdate]
  rfl

/-- A statement that does not touch the row leaves it as it is. -/
theorem updateWhere (h : q.Dated x since) {c : Row → Bool} {f : Row → Row}
    (hc : ∀ r ∈ q.rows, r.status = .claimed → r.live = x → r.claimedAt = some since.millis →
      c r = false) : (q.updateWhere c f).2.Dated x since := by
  obtain ⟨r, hr, hclaimed, hx, hdate⟩ := h
  refine ⟨r, List.mem_map.2 ⟨r, hr, ?_⟩, hclaimed, hx, hdate⟩
  rw [hc r hr hclaimed hx hdate]
  rfl

theorem changed (h : q.Dated x since) {id : Int} {n : Nat} :
    (changed id (n, q)).2.Dated x since := by
  unfold TableQueue.changed
  split_ifs <;> exact h

theorem offer (hq : q.Sound) (h : q.Dated x since) (d : Dispatch) (stopped : Bool) :
    (q.offer d stopped).2.Dated x since := by
  unfold TableQueue.offer
  rw [onTable_eq hq]
  unfold add
  split_ifs
  · exact h
  · exact h
  · obtain ⟨r, hr, hx⟩ := h
    exact ⟨r, List.mem_append_left _ hr, hx⟩

theorem claim (hq : q.Sound) (h : q.Dated x since) (clock : Clock) (worker : String) :
    (q.claim clock worker).2.Dated x since := by
  unfold TableQueue.claim
  cases hfind : q.rows.find? (·.status = .pending) with
  | none => exact h
  | some row =>
    have hmem : row ∈ q.rows := List.mem_of_find?_eq_some hfind
    have hpending : row.status = .pending := by simpa using List.find?_some hfind
    simp only
    split
    · exact h
    · split
      · refine h.updateWhere fun r hr hclaimed _ _ => decide_eq_false fun hid => ?_
        rw [eq_of_id hq hr hmem hid, hpending] at hclaimed
        cases hclaimed
      · exact h.updateWhere fun r _ hclaimed _ _ => by simp [hclaimed]

theorem complete (h : q.Dated x since) {id : Int} (hid : id ≠ x.id) (success : Bool)
    (error : Option String) : (q.complete id success error).2.Dated x since := by
  refine changed (h.updateWhere fun r _ _ hx _ => ?_)
  simp [show r.id ≠ id from fun heq => hid (heq ▸ hx ▸ rfl)]

theorem release (h : q.Dated x since) {id : Int} (hid : id ≠ x.id) (error : Option String) :
    (q.release id error).2.Dated x since := by
  refine changed (h.updateWhere fun r _ _ hx _ => ?_)
  simp [show r.id ≠ id from fun heq => hid (heq ▸ hx ▸ rfl)]

theorem renew_other (h : q.Dated x since) {id : Int} {worker : String}
    (hother : id = x.id → x.holder ≠ some worker) (clock : Clock) :
    (q.renew clock id worker).2.Dated x since := by
  refine changed (h.updateWhere fun r _ hclaimed hx _ => ?_)
  by_cases hid : r.id = id
  · have hby : r.claimedBy ≠ some worker := fun hby =>
      hother (hid ▸ hx ▸ rfl) (hx ▸ by simp [Row.live, hclaimed, hby])
    simp [hby]
  · simp [hid]

/-- Whoever holds a claim may renew it, and then it dates from that moment. -/
theorem renew (h : q.Dated x since) {worker : String} (hholder : x.holder = some worker)
    (clock : Clock) :
    (q.renew clock x.id worker).1 = .ok () ∧ (q.renew clock x.id worker).2.Dated x clock := by
  obtain ⟨r, hr, hclaimed, rfl, -⟩ := h
  have hby : r.claimedBy = some worker := by simpa [Row.live, hclaimed] using hholder
  have hc : (decide (r.id = r.id) && decide (r.status = .claimed) &&
      decide (r.claimedBy = some worker)) = true := by simp [hclaimed, hby]
  have hiff : True ↔ ∃ y ∈ q.rows, (decide (y.id = r.id) && decide (y.status = .claimed) &&
      decide (y.claimedBy = some worker)) = true := ⟨fun _ => ⟨r, hr, hc⟩, fun _ => trivial⟩
  unfold TableQueue.renew
  rcases changed_eq (f := fun r => { r with claimedAt := some clock.millis }) hiff r.id with
    ⟨-, heq⟩ | ⟨hnot, -⟩
  · rw [show r.live.id = r.id from rfl, heq]
    exact ⟨rfl, _, List.mem_map.2 ⟨r, hr, if_pos hc⟩, hclaimed, rfl, rfl⟩
  · exact absurd trivial hnot

theorem reclaim (h : q.Dated x since) {clock : Clock} {timeout : Nat}
    (hyoung : isOld since clock timeout = false) : (q.reclaim clock timeout).2.Dated x since := by
  refine h.updateWhere fun r _ hclaimed _ hdate => ?_
  rw [isStale, hclaimed, hdate]
  exact hyoung

end Dated

/-- A claim dates from the clock at which it was made. -/
theorem dated_of_claim {q q' : TableQueue} {clock : Clock} {worker : String} {d : QueuedDispatch}
    (h : q.claim clock worker = (.ok (some d), q')) :
    q'.Dated ⟨d.id, d.run.text, d.jobKey, d.attempts, some worker⟩ clock := by
  unfold TableQueue.claim at h
  split at h
  · cases h
  · rename_i row hfind
    have hpending : row.status = .pending := by simpa using List.find?_some hfind
    split at h
    · cases h
    · rename_i attempts hattempts
      split at h
      · cases h
      · rename_i run hparse
        have hcount : (attempts : Int) = row.attempts := by
          rcases attempts?_eq row with ⟨n, hn, heq⟩ | ⟨hnone, -⟩
          · rw [hattempts] at hn
            rw [Option.some.inj hn, heq]
          · rw [hattempts] at hnone
            cases hnone
        cases h
        refine ⟨_, List.mem_map.2 ⟨row, List.mem_of_find?_eq_some hfind, if_pos ?_⟩, rfl, ?_, rfl⟩
        · simp [hpending]
        · simp [Row.live, parse_ok hparse, hcount]

end TableQueue

/-! ## Claims in either kind of queue -/

/-- Whether an operation is about something else than the claim of an entry.  A sweep is
about whatever claims are old. -/
def QueueOp.LeavesAlone (x : LiveEntry) : QueueOp → Prop
  | complete id _ _ | release id _ => id ≠ x.id
  | renew id worker => id = x.id → x.holder ≠ some worker
  | offer _ _ | claim _ | reclaim _ | depth => True

namespace Backend

def isOld : Backend → Staleness
  | memory _ => MemoryQueue.isOld
  | table _ => TableQueue.isOld

def Dated : Backend → LiveEntry → Clock → Prop
  | memory q => q.Dated
  | table q => q.Dated

variable {q : Backend} {x : LiveEntry} {since : Clock}

theorem Dated.mem (h : q.Dated x since) : x ∈ q.live.entries := by
  cases q with
  | memory q => exact MemoryQueue.Dated.mem h
  | table q => exact TableQueue.Dated.mem h

theorem Dated.stale_eq (hq : q.Sound) (h : q.Dated x since) (now : Clock) (timeout : Nat) :
    q.stale now timeout x.id = q.isOld since now timeout := by
  cases q with
  | memory q => exact MemoryQueue.Dated.stale_eq hq h now timeout
  | table q => exact TableQueue.Dated.stale_eq hq h now timeout

theorem dated_of_claim (hq : q.Sound) {clock : Clock} {worker : String} {d : QueuedDispatch}
    {q' : Backend} (h : ExecutionQueue.claim q clock worker = (.ok (some d), q')) :
    q'.Dated ⟨d.id, d.run.text, d.jobKey, d.attempts, some worker⟩ clock := by
  cases q with
  | memory q =>
    obtain ⟨hanswer, hqueue⟩ := Prod.mk.inj h
    rw [← hqueue]
    exact MemoryQueue.dated_of_claim (Prod.ext hanswer rfl)
  | table q =>
    change wrap table (TableQueue.onTable q _) = _ at h
    rw [TableQueue.onTable_eq hq] at h
    obtain ⟨hanswer, hqueue⟩ := Prod.mk.inj h
    rw [← hqueue]
    exact TableQueue.dated_of_claim (Prod.ext hanswer rfl)

theorem Dated.renew (hq : q.Sound) (h : q.Dated x since) {worker : String}
    (hholder : x.holder = some worker) (clock : Clock) :
    (ExecutionQueue.renew q clock x.id worker).1 = .ok () ∧
      (ExecutionQueue.renew q clock x.id worker).2.Dated x clock := by
  cases q with
  | memory q => exact MemoryQueue.Dated.renew hq h hholder clock
  | table q =>
    show (TableQueue.onTable q _).1 = _ ∧ TableQueue.Dated (TableQueue.onTable q _).2 x clock
    rw [TableQueue.onTable_eq hq]
    exact TableQueue.Dated.renew h hholder clock

/-- A call about something else leaves a claim with its date, and so does a sweep that does
not find the claim old. -/
theorem Dated.perform (hq : q.Sound) (h : q.Dated x since) {c : QueueCall}
    (hop : c.op.LeavesAlone x)
    (hyoung : ∀ timeout, c.op = .reclaim timeout → q.isOld since c.clock timeout = false) :
    (ExecutionQueue.perform q c).2.Dated x since := by
  obtain ⟨clock, op⟩ := c
  cases q with
  | memory q =>
    cases op with
    | offer d stopped => exact MemoryQueue.Dated.offer h d stopped
    | claim worker => exact MemoryQueue.Dated.claim hq h clock worker
    | complete id success error => exact MemoryQueue.Dated.complete h hop
    | release id error => exact MemoryQueue.Dated.release h hop error
    | renew id worker => exact MemoryQueue.Dated.renew_other hq h hop clock
    | reclaim timeout => exact MemoryQueue.Dated.reclaim hq h (hyoung timeout rfl)
    | depth => exact h
  | table q =>
    cases op with
    | offer d stopped => exact TableQueue.Dated.offer hq h d stopped
    | claim worker =>
      show TableQueue.Dated (TableQueue.onTable q _).2 x since
      rw [TableQueue.onTable_eq hq]
      exact TableQueue.Dated.claim hq h clock worker
    | complete id success error =>
      show TableQueue.Dated (TableQueue.onTable q _).2 x since
      rw [TableQueue.onTable_eq hq]
      exact TableQueue.Dated.complete h hop success error
    | release id error =>
      show TableQueue.Dated (TableQueue.onTable q _).2 x since
      rw [TableQueue.onTable_eq hq]
      exact TableQueue.Dated.release h hop error
    | renew id worker =>
      show TableQueue.Dated (TableQueue.onTable q _).2 x since
      rw [TableQueue.onTable_eq hq]
      exact TableQueue.Dated.renew_other h hop clock
    | reclaim timeout =>
      show TableQueue.Dated (TableQueue.onTable q _).2 x since
      rw [TableQueue.onTable_eq hq]
      exact TableQueue.Dated.reclaim h (hyoung timeout rfl)
    | depth =>
      show TableQueue.Dated (TableQueue.onTable q _).2 x since
      rw [TableQueue.onTable_eq hq]
      exact h

/-- Nobody is handed an entry that is claimed. -/
theorem Dated.claim_ne (hq : q.Sound) (h : q.Dated x since) (hholder : x.holder.isSome = true)
    {clock : Clock} {worker : String} {d : QueuedDispatch}
    (hanswer : (ExecutionQueue.claim q clock worker).1 = .ok (some d)) : d.id ≠ x.id := by
  have hclaims := (claim_answers hq clock worker).2
  rw [hanswer] at hclaims
  generalize (ExecutionQueue.claim q clock worker).2.live = live at hclaims
  cases hclaims with
  | claimed hfirst hid _ _ _ =>
    obtain ⟨holder, hx⟩ := Option.isSome_iff_exists.1 hholder
    intro heq
    exact LiveQueue.not_holds_first (sound_live hq) hfirst ⟨x, h.mem, heq ▸ hid, hx⟩

/-- A claim is no older than its clock has moved on since.  Two milliseconds make up for the
rounding of a table. -/
theorem isOld_of_within {now : Clock} {length timeout : Nat} (h : since.Within length now)
    (hlength : length + 2 * Duration.perMilli ≤ timeout) (q : Backend) :
    q.isOld since now timeout = false := by
  cases q with
  | memory q =>
    refine decide_eq_false fun hold => ?_
    have := h.elapsed
    unfold Duration.perMilli at hlength
    omega
  | table q =>
    refine decide_eq_false fun hold => ?_
    have hwall := h.wall
    have hsince := (Instant.toMillis_bounds since.wall).1
    have hnow := (Instant.toMillis_bounds now.wall).2
    unfold TableQueue.cutoff TableQueue.maxMillis Clock.millis at hold
    rw [Instant.toMillis_eq] at hold hsince hnow
    rw [Instant.toMillis_eq] at hold
    unfold Duration.toMillis at hold
    unfold Duration.perMilli at *
    omega

end Backend
end JobGate
