/-
Rows that a call leaves alone.

A row that nobody has claimed is changed by nothing but a claim for which it is the first that
waits (`TableQueue.kept`).  So a row that is finished, or holds a word that no queue writes, stays
in its table as it is, whatever is called (`TableQueue.idle_kept`).
-/
import JobGate.Proofs.Queue.Recovery

namespace JobGate
namespace TableQueue

open ExecutionQueue (perform after)

variable {q : TableQueue} {r : Row}

theorem mem_updateWhere {c : Row → Bool} {f : Row → Row} (hr : r ∈ q.rows) (hc : c r = false) :
    r ∈ (q.updateWhere c f).2.rows :=
  List.mem_map.2 ⟨r, hr, by rw [hc]; rfl⟩

theorem mem_changed {id : Int} {c : Row → Bool} {f : Row → Row} (hr : r ∈ q.rows)
    (hc : c r = false) : r ∈ (changed id (q.updateWhere c f)).2.rows := by
  unfold changed
  split <;> exact mem_updateWhere hr hc

theorem kept_offer (hr : r ∈ q.rows) (d : Dispatch) (stopped : Bool) :
    r ∈ (q.offer d stopped).2.rows := by
  unfold offer onTable
  split_ifs
  · exact hr
  · exact hr
  · show r ∈ (q.add d).2.rows
    rw [add_eq]
    split_ifs
    · exact hr
    · exact List.mem_append_left _ hr

theorem kept_claim (h : q.Sound) (hr : r ∈ q.rows)
    (hfirst : q.rows.find? (·.status = .pending) ≠ some r) (clock : Clock) (worker : String) :
    r ∈ (q.claim clock worker).2.rows := by
  unfold claim
  split
  · exact hr
  · rename_i row hrow
    have hother : r.id ≠ row.id := by
      intro hid
      exact hfirst (hrow.trans (congrArg some
        (eq_of_id h hr (List.mem_of_find?_eq_some hrow) hid).symm))
    split
    · exact hr
    · split
      · exact mem_updateWhere hr (decide_eq_false hother)
      · exact mem_updateWhere hr (by rw [decide_eq_false hother, Bool.false_and])

/-- A row that nobody has claimed is changed by no call but a claim that finds it waiting before
all others. -/
theorem kept (h : q.Sound) (hr : r ∈ q.rows) (hfree : r.status ≠ .claimed) (c : QueueCall)
    (hfirst : ∀ worker, c.op = .claim worker →
      q.rows.find? (·.status = .pending) ≠ some r) : r ∈ (perform q c).2.rows := by
  have hnot : decide (r.status = .claimed) = false := decide_eq_false hfree
  rw [perform_eq h]
  obtain ⟨clock, op⟩ := c
  cases op with
  | offer d stopped => exact kept_offer hr d stopped
  | claim worker => exact kept_claim h hr (hfirst worker rfl) clock worker
  | complete id success error => exact mem_changed hr (by rw [hnot, Bool.and_false])
  | release id error => exact mem_changed hr (by rw [hnot, Bool.and_false])
  | renew id worker => exact mem_changed hr (by rw [hnot, Bool.and_false, Bool.false_and])
  | reclaim timeout => exact mem_updateWhere hr (by rw [isStale, hnot, Bool.false_and])
  | depth => exact hr

theorem perform_sound (h : q.Sound) (c : QueueCall) : (perform q c).2.Sound := by
  have hsound := (Backend.perform_steps (q := .table q) h c).1
  rw [Backend.perform_table] at hsound
  exact hsound

theorem after_sound (h : q.Sound) (calls : List QueueCall) : (after q calls).Sound := by
  induction calls generalizing q with
  | nil => exact h
  | cons c rest ih => exact ih (perform_sound h c)

/-- The row with a number is the only one. -/
theorem find?_of_mem (h : q.Sound) (hr : r ∈ q.rows) :
    q.rows.find? (·.id = r.id) = some r :=
  find?_of_nodup (h.ascending.imp fun hlt => Int.ne_of_lt hlt) hr

theorem ne_first_of_idle (hidle : r.isLive = false) :
    q.rows.find? (·.status = .pending) ≠ some r := by
  intro hfind
  have hpending : r.status = .pending := by simpa using List.find?_some hfind
  rw [Row.isLive_of_pending hpending] at hidle
  cases hidle

theorem ne_claimed_of_idle (hidle : r.isLive = false) : r.status ≠ .claimed := by
  intro hclaimed
  rw [Row.isLive_of_claimed hclaimed] at hidle
  cases hidle

/-- A row that neither waits nor is claimed stays as it is for ever. -/
theorem idle_kept (h : q.Sound) (hr : r ∈ q.rows) (hidle : r.isLive = false)
    (calls : List QueueCall) : r ∈ (after q calls).rows := by
  induction calls generalizing q with
  | nil => exact hr
  | cons c rest ih =>
    exact ih (perform_sound h c)
      (kept h hr (ne_claimed_of_idle hidle) c fun _ _ => ne_first_of_idle hidle)

end TableQueue
end JobGate
