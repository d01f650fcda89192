/-
The queue that is a table, as a list of live entries.

A row is live while it waits or is claimed; the others are history.  A statement
changes the rows that satisfy a condition, and what it does to the live entries is
either a change of some of them or their removal (`live_update`, `live_remove`).
-/
import JobGate.Proofs.Queue.Live
import JobGate.Queue.Table
import Mathlib.Data.List.Find

namespace JobGate

namespace Row

def isLive (r : Row) : Bool := r.status = .pending || r.status = .claimed

def live (r : Row) : LiveEntry :=
  ⟨r.id, r.run, r.jobKey, r.attempts, if r.status = .claimed then r.claimedBy else none⟩

theorem isLive_of_pending {r : Row} (h : r.status = .pending) : r.isLive = true := by
  simp [isLive, h]

theorem isLive_of_claimed {r : Row} (h : r.status = .claimed) : r.isLive = true := by
  simp [isLive, h]

end Row

namespace TableQueue

/-- The live entries: those of the rows that wait or are claimed. -/
def live (q : TableQueue) : LiveQueue :=
  ⟨(q.rows.filter (·.isLive)).map (·.live), q.nextId, q.capacity, none⟩

/-- The table is there, its rows have ascending numbers, and a claimed row says who
has claimed it. -/
structure Sound (q : TableQueue) : Prop where
  present : q.missing = false
  ascending : (q.rows.map (·.id)).Pairwise (· < ·)
  fresh : ∀ r ∈ q.rows, r.id < q.nextId
  claimed : ∀ r ∈ q.rows, r.status = .claimed → r.claimedBy.isSome = true

theorem new_sound (capacity : Nat) : (new capacity).Sound :=
  ⟨rfl, List.Pairwise.nil, fun _ h => absurd h List.not_mem_nil,
    fun _ h => absurd h List.not_mem_nil⟩

variable {q : TableQueue} {c : Row → Bool} {f : Row → Row} {id : Int}

theorem onTable_eq {α : Type} (h : q.Sound)
    (g : TableQueue → Except QueueError α × TableQueue) : q.onTable g = g q := by
  rw [onTable, h.present]
  rfl

theorem mem_live {e : LiveEntry} :
    e ∈ q.live.entries ↔ ∃ r ∈ q.rows, r.isLive = true ∧ r.live = e := by
  simp only [live, List.mem_map, List.mem_filter, and_assoc]

theorem sound_live (h : q.Sound) : q.live.Sound := by
  constructor
  · show (List.map _ (List.map _ _)).Pairwise _
    rw [List.map_map]
    exact h.ascending.sublist (List.filter_sublist.map _)
  · intro x hx
    obtain ⟨r, hr, -, rfl⟩ := mem_live.1 hx
    exact h.fresh r hr

theorem eq_of_id (h : q.Sound) {r x : Row} (hr : r ∈ q.rows) (hx : x ∈ q.rows)
    (hid : r.id = x.id) : r = x := by
  have hnodup : (q.rows.map (·.id)).Nodup := h.ascending.imp fun hlt => Int.ne_of_lt hlt
  exact List.inj_on_of_nodup_map hnodup hr hx hid

/-! ## Statements that change rows -/

theorem updateWhere_none (h : ∀ r ∈ q.rows, c r ≠ true) : (q.updateWhere c f).2 = q := by
  unfold updateWhere
  rw [(List.map_congr_left fun r hr => ?_).trans (List.map_id q.rows)]
  rw [if_neg (h r hr)]
  rfl

theorem updateWhere_sound (h : q.Sound) (hid : ∀ r, (f r).id = r.id)
    (hclaimed : ∀ r ∈ q.rows, c r = true → (f r).status = .claimed →
      (f r).claimedBy.isSome = true) : (q.updateWhere c f).2.Sound := by
  have hmem : ∀ x ∈ (q.updateWhere c f).2.rows, ∃ r ∈ q.rows,
      (if c r then f r else r) = x := fun x hx => List.mem_map.1 hx
  refine ⟨h.present, ?_, fun x hx => ?_, fun x hx hstatus => ?_⟩
  · show (List.map _ (List.map _ _)).Pairwise _
    rw [List.map_map, (List.map_congr_left fun r _ => ?_ : _ = q.rows.map (·.id))]
    · exact h.ascending
    · by_cases hc : c r = true
      · rw [Function.comp_apply, if_pos hc, hid]
      · rw [Function.comp_apply, if_neg hc]
  · obtain ⟨r, hr, rfl⟩ := hmem x hx
    by_cases hc : c r = true
    · rw [if_pos hc, hid]
      exact h.fresh r hr
    · rw [if_neg hc]
      exact h.fresh r hr
  · obtain ⟨r, hr, rfl⟩ := hmem x hx
    by_cases hc : c r = true
    · rw [if_pos hc] at hstatus ⊢
      exact hclaimed r hr hc hstatus
    · rw [if_neg hc] at hstatus ⊢
      exact h.claimed r hr hstatus

theorem live_update {p : LiveEntry → Bool} {g : LiveEntry → LiveEntry}
    (hp : ∀ r ∈ q.rows, r.isLive = true → c r = p r.live)
    (hf : ∀ r ∈ q.rows, c r = true →
      r.isLive = true ∧ (f r).isLive = true ∧ (f r).live = g r.live) :
    (q.updateWhere c f).2.live = q.live.update p g := by
  show LiveQueue.mk _ _ _ _ = LiveQueue.mk _ _ _ _
  congr 1
  show List.map _ (List.filter _ (List.map _ q.rows)) =
    List.map _ (List.map _ (List.filter _ q.rows))
  revert hp hf
  induction q.rows with
  | nil => intro _ _; rfl
  | cons r rest ih =>
    intro hp hf
    have hrest := ih (fun x hx => hp x (List.mem_cons_of_mem r hx))
      fun x hx => hf x (List.mem_cons_of_mem r hx)
    by_cases hc : c r = true
    · obtain ⟨hlive, hlive', hg⟩ := hf r List.mem_cons_self hc
      have hpr : p r.live = true := by rw [← hp r List.mem_cons_self hlive, hc]
      simp only [List.map_cons, List.filter_cons, hc, if_true, hlive, hlive', hrest, hpr, hg]
    · cases hlive : r.isLive with
      | false =>
        simp only [List.map_cons, List.filter_cons, hc, Bool.false_eq_true, if_false, hlive, hrest]
      | true =>
        have hpr : p r.live = false := by
          rw [← hp r List.mem_cons_self hlive]
          exact Bool.eq_false_iff.2 hc
        simp only [List.map_cons, List.filter_cons, hc, Bool.false_eq_true, if_false, hlive,
          if_true, hrest, hpr]

theorem live_remove (hc : ∀ r ∈ q.rows, r.isLive = true → (c r = true ↔ r.id = id))
    (hf : ∀ r ∈ q.rows, c r = true → r.isLive = true ∧ (f r).isLive = false) :
    (q.updateWhere c f).2.live = q.live.remove id := by
  show LiveQueue.mk _ _ _ _ = LiveQueue.mk _ _ _ _
  congr 1
  show List.map _ (List.filter _ (List.map _ q.rows)) =
    List.filter _ (List.map _ (List.filter _ q.rows))
  revert hc hf
  induction q.rows with
  | nil => intro _ _; rfl
  | cons r rest ih =>
    intro hc hf
    have hrest := ih (fun x hx => hc x (List.mem_cons_of_mem r hx))
      fun x hx => hf x (List.mem_cons_of_mem r hx)
    by_cases hcr : c r = true
    · obtain ⟨hlive, hdead⟩ := hf r List.mem_cons_self hcr
      have hid : r.live.id = id := (hc r List.mem_cons_self hlive).1 hcr
      simp only [List.map_cons, List.filter_cons, hcr, if_true, hlive, hdead, hrest, hid,
        Bool.false_eq_true, if_false, ne_eq, not_true, decide_false]
    · cases hlive : r.isLive with
      | false =>
        simp only [List.map_cons, List.filter_cons, hcr, Bool.false_eq_true, if_false, hlive, hrest]
      | true =>
        have hid : r.live.id ≠ id := fun hid => hcr ((hc r List.mem_cons_self hlive).2 hid)
        simp only [List.map_cons, List.filter_cons, hcr, Bool.false_eq_true, if_false, hlive,
          if_true, hrest, hid, ne_eq, not_false_eq_true, decide_true]

theorem changed_eq {allowed : Prop} (hiff : allowed ↔ ∃ r ∈ q.rows, c r = true) (id : Int) :
    (allowed ∧ changed id (q.updateWhere c f) = (.ok (), (q.updateWhere c f).2)) ∨
      (¬ allowed ∧ changed id (q.updateWhere c f) = (.error (.notClaimed id), q)) := by
  by_cases h : ∃ r ∈ q.rows, c r = true
  · refine .inl ⟨hiff.2 h, ?_⟩
    have hcount : (q.updateWhere c f).1 ≠ 0 := by
      obtain ⟨r, hr, hc⟩ := h
      exact fun hzero => List.countP_eq_zero.1 hzero r hr hc
    rw [changed, if_neg hcount]
  · refine .inr ⟨fun ha => h (hiff.1 ha), ?_⟩
    have hnone : ∀ r ∈ q.rows, c r ≠ true := fun r hr hc => h ⟨r, hr, hc⟩
    have hcount : (q.updateWhere c f).1 = 0 := List.countP_eq_zero.2 hnone
    rw [changed, if_pos hcount, updateWhere_none hnone]

/-! ## Who holds what -/

theorem holds_iff {worker : String} : q.live.Holds worker id ↔
    ∃ r ∈ q.rows, r.id = id ∧ r.status = .claimed ∧ r.claimedBy = some worker := by
  constructor
  · rintro ⟨x, hx, hid, hw⟩
    obtain ⟨r, hr, -, rfl⟩ := mem_live.1 hx
    by_cases hstatus : r.status = .claimed
    · exact ⟨r, hr, hid, hstatus, by simpa only [Row.live, hstatus, if_true] using hw⟩
    · simp only [Row.live, hstatus, if_false, reduceCtorEq] at hw
  · rintro ⟨r, hr, hid, hstatus, hw⟩
    exact ⟨r.live, mem_live.2 ⟨r, hr, Row.isLive_of_claimed hstatus, rfl⟩, hid,
      by simpa only [Row.live, hstatus, if_true] using hw⟩

theorem claimed_iff (h : q.Sound) :
    q.live.Claimed id ↔ ∃ r ∈ q.rows, r.id = id ∧ r.status = .claimed := by
  constructor
  · rintro ⟨worker, hw⟩
    obtain ⟨r, hr, hid, hstatus, -⟩ := holds_iff.1 hw
    exact ⟨r, hr, hid, hstatus⟩
  · rintro ⟨r, hr, hid, hstatus⟩
    obtain ⟨worker, hw⟩ := Option.isSome_iff_exists.1 (h.claimed r hr hstatus)
    exact ⟨worker, holds_iff.2 ⟨r, hr, hid, hstatus, hw⟩⟩

/-- The row of a claimed entry is the only live one with its number. -/
theorem claimed_of_id (h : q.Sound) (hclaimed : q.live.Claimed id) {r : Row} (hr : r ∈ q.rows)
    (hid : r.id = id) : r.status = .claimed := by
  obtain ⟨x, hx, hxid, hstatus⟩ := (claimed_iff h).1 hclaimed
  rw [eq_of_id h hr hx (hid.trans hxid.symm)]
  exact hstatus

/-! ## The operations -/

theorem live_length (q : TableQueue) :
    q.live.entries.length = q.count .pending + q.count .claimed := by
  show (List.map _ (List.filter _ _)).length = _
  rw [List.length_map, ← List.countP_eq_length_filter]
  show List.countP _ q.rows = List.countP _ q.rows + List.countP _ q.rows
  induction q.rows with
  | nil => rfl
  | cons r rest ih =>
    simp only [Row.isLive] at ih ⊢
    simp only [List.countP_cons, ih]
    cases r.status <;> simp <;> omega

def added (q : TableQueue) (d : Dispatch) : TableQueue :=
  (q.insert fun id => { id, run := d.run.text, jobKey := d.jobKey, status := .pending }).2

theorem added_sound (h : q.Sound) (d : Dispatch) : (q.added d).Sound where
  present := h.present
  ascending := by
    show (List.map _ (q.rows ++ [_])).Pairwise _
    rw [List.map_append, List.map_singleton]
    refine LiveQueue.ascending_concat h.ascending fun i hi => ?_
    obtain ⟨r, hr, rfl⟩ := List.mem_map.1 hi
    exact h.fresh r hr
  fresh r hr := by
    show r.id < q.nextId + 1
    rcases List.mem_append.1 hr with hr | hr
    · have := h.fresh r hr
      omega
    · rw [List.mem_singleton.1 hr]
      show q.nextId < q.nextId + 1
      omega
  claimed r hr hstatus := by
    rcases List.mem_append.1 hr with hr | hr
    · exact h.claimed r hr hstatus
    · rw [List.mem_singleton.1 hr] at hstatus
      cases hstatus

theorem added_live (q : TableQueue) (d : Dispatch) : (q.added d).live = q.live.add d := by
  simp only [added, live, insert, List.filter_append, List.map_append]
  rfl

theorem add_eq (q : TableQueue) (d : Dispatch) : q.add d =
    if q.capacity ≤ q.live.entries.length then (.full, q) else (.entry q.nextId, q.added d) := by
  rw [live_length]
  rfl

theorem offer_spec (h : q.Sound) (d : Dispatch) (stopped : Bool) :
    (q.offer d stopped).2.Sound ∧
      q.live.Offered d stopped (q.offer d stopped).1 (q.offer d stopped).2.live := by
  unfold offer
  cases stopped with
  | true => exact ⟨h, .canceled rfl⟩
  | false =>
    simp only [Bool.false_eq_true, if_false, onTable_eq h, add_eq]
    by_cases hfull : q.capacity ≤ q.live.entries.length
    · rw [if_pos hfull]
      exact ⟨h, .full rfl hfull⟩
    · rw [if_neg hfull]
      have hadded : q.live.Offered d false (.ok (.entry q.nextId)) (q.live.add d) :=
        .added rfl (Nat.not_le.1 hfull)
      exact ⟨added_sound h d, added_live q d ▸ hadded⟩

/-- The entry that is claimed next is that of the first row that waits. -/
theorem first?_live (h : q.Sound) :
    q.live.first? = (q.rows.find? (·.status = .pending)).map (·.live) := by
  show List.find? _ (List.map _ (List.filter _ _)) = _
  rw [List.find?_map, List.find?_filter]
  congr 1
  refine List.find?_congr fun r hr => ?_
  by_cases hpending : r.status = .pending
  · simp [Row.isLive, Row.live, hpending]
  · by_cases hclaimed : r.status = .claimed
    · have hsome := h.claimed r hr hclaimed
      simp [Row.isLive, Row.live, hclaimed, Option.isSome_iff_ne_none.1 hsome]
    · simp [Row.isLive, hpending, hclaimed]

theorem parse_error {text : String} {fault : Identifier.Fault}
    (h : RunId.parse text = .error fault) (id : RunId) : id.text ≠ text := by
  rintro rfl
  unfold RunId.parse at h
  split at h
  · cases h
  · rename_i hfault
    rw [id.valid] at hfault
    cases hfault

theorem parse_ok {text : String} {id : RunId} (h : RunId.parse text = .ok id) :
    id.text = text := by
  unfold RunId.parse at h
  split at h
  · cases h
    rfl
  · cases h

/-- The number of attempts is told as it stands in the row. -/
theorem attempts?_eq (r : Row) : (∃ n : Nat, attempts? r = some n ∧ (n : Int) = r.attempts) ∨
    attempts? r = none ∧ ¬ (0 ≤ r.attempts ∧ r.attempts < 4294967296) := by
  unfold attempts?
  by_cases hin : 0 ≤ r.attempts ∧ r.attempts < 4294967296
  · rw [if_pos hin]
    exact .inl ⟨_, rfl, Int.toNat_of_nonneg hin.1⟩
  · rw [if_neg hin]
    exact .inr ⟨rfl, hin⟩

theorem claim_spec (h : q.Sound) (clock : Clock) (worker : String) :
    (q.claim clock worker).2.Sound ∧
      q.live.Claims worker (q.claim clock worker).1 (q.claim clock worker).2.live := by
  have hfirst := first?_live h
  unfold claim
  cases hfind : q.rows.find? (·.status = .pending) with
  | none =>
    rw [hfind] at hfirst
    exact ⟨h, .nothing hfirst⟩
  | some row =>
    rw [hfind, Option.map_some] at hfirst
    have hmem : row ∈ q.rows := List.mem_of_find?_eq_some hfind
    have hpending : row.status = .pending := by simpa using List.find?_some hfind
    have hone : ∀ r ∈ q.rows, r.id = row.id → r = row := fun r hr hid => eq_of_id h hr hmem hid
    simp only
    rcases attempts?_eq row with ⟨attempts, hattempts, hcount⟩ | ⟨hattempts, hout⟩
    · simp only [hattempts]
      cases hparse : RunId.parse row.run with
      | error fault =>
        refine ⟨updateWhere_sound h (fun _ => rfl) fun _ _ _ hstatus => (by cases hstatus), ?_⟩
        have hremove : (q.updateWhere (·.id = row.id)
            (unreadable (fault.message RunId.kind))).2.live = q.live.remove row.id := by
          refine live_remove (fun r _ _ => by simp) fun r hr hc => ?_
          rw [hone r hr (by simpa using hc)]
          exact ⟨Row.isLive_of_pending hpending, rfl⟩
        simp only [hremove]
        exact .discarded hfirst (parse_error hparse)
      | ok run =>
        refine ⟨updateWhere_sound h (fun _ => rfl) fun _ _ _ _ => rfl, ?_⟩
        have hhold := live_update (q := q)
          (c := fun r => r.id = row.id && r.status = .pending)
          (f := fun r => { r with
            status := .claimed
            claimedBy := some worker
            claimedAt := some clock.millis })
          (p := fun e => e.id = row.id) (g := fun e => { e with holder := some worker })
          (fun r hr _ => by
            by_cases hid : r.id = row.id
            · simp [Row.live, hone r hr hid, hpending]
            · simp [Row.live, hid])
          fun r hr hc => by
            have hstatus : r.status = .pending := by simpa using (Bool.and_eq_true_iff.1 hc).2
            exact ⟨Row.isLive_of_pending hstatus, rfl, rfl⟩
        simp only [hhold]
        exact .claimed hfirst rfl (parse_ok hparse) rfl hcount
    · simp only [hattempts]
      exact ⟨h, .refused hfirst hout⟩

theorem complete_spec (h : q.Sound) (id : Int) (success : Bool) (error : Option String) :
    (q.complete id success error).2.Sound ∧
      LiveQueue.Guarded (q.live.Claimed id) id q.live (q.live.remove id)
        (q.complete id success error).1 (q.complete id success error).2.live := by
  have hiff : q.live.Claimed id ↔
      ∃ r ∈ q.rows, (decide (r.id = id) && decide (r.status = .claimed)) = true := by
    simp only [claimed_iff h, Bool.and_eq_true, decide_eq_true_eq]
  unfold complete
  rcases changed_eq (f := fun r => { r with
      status := if success then .succeeded else .failed
      lastError := error }) hiff id with ⟨hclaimed, heq⟩ | ⟨hfree, heq⟩
  · rw [heq]
    have hdead : ∀ r : Row, Row.isLive { r with
        status := if success then .succeeded else .failed
        lastError := error } = false := by
      intro r
      cases success <;> rfl
    refine ⟨updateWhere_sound h (fun _ => rfl) fun r hr _ hstatus => ?_, ?_⟩
    · have := hdead r
      rw [Row.isLive_of_claimed hstatus] at this
      cases this
    · have hremove : (q.updateWhere (fun r => decide (r.id = id) && decide (r.status = .claimed))
          fun r => { r with
            status := if success then .succeeded else .failed
            lastError := error }).2.live = q.live.remove id := by
        refine live_remove (fun r hr _ => ?_) fun r hr hc => ?_
        · simp only [Bool.and_eq_true, decide_eq_true_eq, and_iff_left_iff_imp]
          exact claimed_of_id h hclaimed hr
        · simp only [Bool.and_eq_true, decide_eq_true_eq] at hc
          exact ⟨Row.isLive_of_claimed hc.2, hdead r⟩
      rw [hremove]
      exact .done hclaimed
  · rw [heq]
    exact ⟨h, .notClaimed hfree⟩

theorem live_freed (error : Option String) (r : Row) :
    (freed error r).isLive = true ∧ (freed error r).live =
      { r.live with attempts := q.live.bump r.live.attempts, holder := none } :=
  ⟨rfl, rfl⟩

theorem release_spec (h : q.Sound) (id : Int) (error : Option String) :
    (q.release id error).2.Sound ∧
      LiveQueue.Guarded (q.live.Claimed id) id q.live (q.live.free (·.id = id))
        (q.release id error).1 (q.release id error).2.live := by
  have hiff : q.live.Claimed id ↔
      ∃ r ∈ q.rows, (decide (r.id = id) && decide (r.status = .claimed)) = true := by
    simp only [claimed_iff h, Bool.and_eq_true, decide_eq_true_eq]
  unfold release
  rcases changed_eq (f := freed error) hiff id with ⟨hclaimed, heq⟩ | ⟨hfree, heq⟩
  · rw [heq]
    refine ⟨updateWhere_sound h (fun _ => rfl) fun r hr _ hstatus => (by cases hstatus), ?_⟩
    have hlive : (q.updateWhere (fun r => decide (r.id = id) && decide (r.status = .claimed))
        (freed error)).2.live = q.live.free (·.id = id) := by
      refine live_update (fun r hr _ => ?_) fun r hr hc => ?_
      · by_cases hid : r.id = id
        · simp [Row.live, hid, claimed_of_id h hclaimed hr hid]
        · simp [Row.live, hid]
      · simp only [Bool.and_eq_true, decide_eq_true_eq] at hc
        exact ⟨Row.isLive_of_claimed hc.2, live_freed error r⟩
    rw [hlive]
    exact .done hclaimed
  · rw [heq]
    exact ⟨h, .notClaimed hfree⟩

theorem renew_spec (h : q.Sound) (clock : Clock) (id : Int) (worker : String) :
    (q.renew clock id worker).2.Sound ∧
      LiveQueue.Guarded (q.live.Holds worker id) id q.live q.live (q.renew clock id worker).1
        (q.renew clock id worker).2.live := by
  have hiff : q.live.Holds worker id ↔ ∃ r ∈ q.rows,
      (decide (r.id = id) && decide (r.status = .claimed) &&
        decide (r.claimedBy = some worker)) = true := by
    simp only [holds_iff, Bool.and_eq_true, decide_eq_true_eq, and_assoc]
  unfold renew
  rcases changed_eq (f := fun r => { r with claimedAt := some clock.millis }) hiff id with
    ⟨hholds, heq⟩ | ⟨hnot, heq⟩
  · rw [heq]
    refine ⟨updateWhere_sound h (fun _ => rfl) fun r hr _ hstatus => h.claimed r hr hstatus, ?_⟩
    rw [live_update (p := fun e => decide (e.id = id) && decide (e.holder = some worker))
      (g := fun e => e) (fun r hr hlive => ?_) fun r hr hc => ?_]
    · rw [LiveQueue.update_self fun e _ _ => rfl]
      exact .done hholds
    · by_cases hstatus : r.status = .claimed
      · simp [Row.live, hstatus]
      · simp [Row.live, hstatus]
    · simp only [Bool.and_eq_true, decide_eq_true_eq] at hc
      have hlive := Row.isLive_of_claimed hc.1.2
      exact ⟨hlive, hlive, rfl⟩
  · rw [heq]
    exact ⟨h, .notClaimed hnot⟩

def stale (q : TableQueue) (clock : Clock) (timeout : Nat) (id : Int) : Bool :=
  (q.rows.find? (·.id = id)).any (isStale (cutoff clock timeout))

theorem stale_of_mem (h : q.Sound) (clock : Clock) (timeout : Nat) {r : Row}
    (hr : r ∈ q.rows) : q.stale clock timeout r.id = isStale (cutoff clock timeout) r := by
  have hnodup : (q.rows.map (·.id)).Nodup := h.ascending.imp fun hlt => Int.ne_of_lt hlt
  rw [stale, find?_of_nodup hnodup hr]
  rfl

theorem claimed_of_isStale {cutoff : Int} {r : Row} (h : isStale cutoff r = true) :
    r.status = .claimed := by
  simp only [isStale, Bool.and_eq_true, decide_eq_true_eq] at h
  exact h.1

theorem claimed_of_stale (h : q.Sound) {clock : Clock} {timeout : Nat}
    (hstale : q.stale clock timeout id = true) : q.live.Claimed id := by
  obtain ⟨r, hr, hage⟩ := (Option.any_eq_true _ _).1 hstale
  have hid : r.id = id := by simpa using List.find?_some hr
  exact (claimed_iff h).2 ⟨r, List.mem_of_find?_eq_some hr, hid, claimed_of_isStale hage⟩

/-- A reclaim frees exactly the entries whose claims are stale. -/
theorem reclaim_spec (h : q.Sound) (clock : Clock) (timeout : Nat) :
    (q.reclaim clock timeout).2.Sound ∧
      (q.reclaim clock timeout).1 = q.live.entries.countP (q.stale clock timeout ·.id) ∧
      (q.reclaim clock timeout).2.live = q.live.free (q.stale clock timeout ·.id) := by
  unfold reclaim
  refine ⟨updateWhere_sound h (fun _ => rfl) fun r hr _ hstatus => (by cases hstatus), ?_, ?_⟩
  · show List.countP _ q.rows = List.countP _ (List.map _ (List.filter _ _))
    rw [List.countP_map, List.countP_filter]
    refine List.countP_congr fun r hr => ?_
    show _ ↔ (q.stale clock timeout r.id && r.isLive) = true
    rw [stale_of_mem h clock timeout hr, Bool.and_eq_true]
    exact ⟨fun hs => ⟨hs, Row.isLive_of_claimed (claimed_of_isStale hs)⟩, fun hs => hs.1⟩
  · exact live_update (fun r hr _ => (stale_of_mem h clock timeout hr).symm) fun r hr hc =>
      ⟨Row.isLive_of_claimed (claimed_of_isStale hc), live_freed _ r⟩

theorem depth_live (h : q.Sound) : q.depth = q.live.depth := by
  have hcount : ∀ (s : RowStatus) (p : LiveEntry → Bool),
      (∀ r ∈ q.rows, r.status = s ↔ r.isLive = true ∧ p r.live = true) →
        q.count s = q.live.entries.countP p := by
    intro s p hp
    show List.countP _ q.rows = List.countP _ (List.map _ (List.filter _ _))
    rw [List.countP_map, List.countP_filter]
    refine List.countP_congr fun r hr => ?_
    simp only [Function.comp_apply, decide_eq_true_eq, Bool.and_eq_true, hp r hr, and_comm]
  show Depth.mk _ _ = Depth.mk _ _
  congr 1
  · refine hcount .pending _ fun r hr => ?_
    by_cases hclaimed : r.status = .claimed
    · have hsome := h.claimed r hr hclaimed
      simp [Row.isLive, Row.live, hclaimed, Option.isSome_iff_ne_none.1 hsome]
    · simp [Row.isLive, Row.live, hclaimed]
  · refine hcount .claimed _ fun r hr => ?_
    by_cases hclaimed : r.status = .claimed
    · simp [Row.isLive, Row.live, hclaimed, h.claimed r hr hclaimed]
    · simp [Row.isLive, Row.live, hclaimed]

end TableQueue
end JobGate
