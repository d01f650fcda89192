/-
Rows whose run has no legal name.

A row that was put into a table from outside can name a run that nobody can read.  Such a row is
never handed out.  The claim that finds it waiting before all others reports it and marks it as
failed, and from then on no call touches it (`Unread.step`).  So it is reported once at most, and
it is in the way of one claim only: as many claims as there are rows that wait come to the end of
the table (`claims_drain`).
-/
import JobGate.Proofs.Queue.Answered
import JobGate.Proofs.Queue.Kept

namespace JobGate

namespace QueueHistory

def reports (id : Int) (e : QueueEvent) : Bool :=
  match e.op, e.answer with
  | .claim _, .claimed (.error (.corrupt i _)) => i = id
  | _, _ => false

end QueueHistory

namespace TableQueue

open QueueHistory
open ExecutionQueue (perform after history answers)

variable {q : TableQueue} {r : Row} {id : Int}

/-! ## The turn of a row -/

def waiting (q : TableQueue) : List Row := q.rows.filter (·.status = .pending)

def setRow (q : TableQueue) (r : Row) : TableQueue :=
  { q with rows := q.rows.map fun x => if x.id = r.id then r else x }

def without (q : TableQueue) (id : Int) : TableQueue :=
  { q with rows := q.rows.filter (·.id ≠ id) }

def Fits (r : Row) : Prop := 0 ≤ r.attempts ∧ r.attempts < 4294967296

instance : Decidable (Fits r) := inferInstanceAs (Decidable (_ ∧ _))

def turn (r : Row) : Except QueueError (Option QueuedDispatch) :=
  match RunId.parse r.run with
  | .error fault => .error (.corrupt r.id (fault.message RunId.kind))
  | .ok run => .ok (some ⟨r.id, run, r.jobKey, r.attempts.toNat⟩)

def turned (clock : Clock) (worker : String) (r : Row) : Row :=
  match RunId.parse r.run with
  | .error fault => unreadable (fault.message RunId.kind) r
  | .ok _ =>
    { r with status := .claimed, claimedBy := some worker, claimedAt := some clock.millis }

theorem turned_id (clock : Clock) (worker : String) (r : Row) :
    (turned clock worker r).id = r.id := by
  unfold turned
  cases RunId.parse r.run <;> rfl

theorem turned_not_pending (clock : Clock) (worker : String) (r : Row) :
    (turned clock worker r).status ≠ .pending := by
  unfold turned
  cases RunId.parse r.run <;> exact RowStatus.noConfusion

theorem head?_waiting (q : TableQueue) :
    q.waiting.head? = q.rows.find? (·.status = .pending) := List.head?_filter ..

theorem mem_waiting : r ∈ q.waiting ↔ r ∈ q.rows ∧ r.status = .pending := by
  simp [waiting, List.mem_filter]

theorem ascending_waiting (h : q.Sound) : (q.waiting.map (·.id)).Pairwise (· < ·) :=
  h.ascending.sublist (List.filter_sublist.map _)

theorem updateWhere_setRow (h : q.Sound) (hr : r ∈ q.rows) {c : Row → Bool} {f : Row → Row}
    (hc : ∀ x ∈ q.rows, c x = true ↔ x.id = r.id) (hf : (f r).id = r.id) :
    (q.updateWhere c f).2 = q.setRow (f r) := by
  have hrows : q.rows.map (fun x => if c x then f x else x) =
      q.rows.map fun x => if x.id = (f r).id then f r else x := by
    refine List.map_congr_left fun x hx => ?_
    by_cases hid : x.id = r.id
    · rw [if_pos ((hc x hx).2 hid), if_pos (hid.trans hf.symm), eq_of_id h hx hr hid]
    · rw [if_neg (mt (hc x hx).1 hid), if_neg (hf ▸ hid)]
  unfold updateWhere setRow
  rw [hrows]

/-- A claim is the turn of the first row that waits, readable or not. -/
theorem perform_claim (h : q.Sound) (clock : Clock) (worker : String) :
    perform q ⟨clock, .claim worker⟩ =
      match q.waiting.head? with
      | none => (.claimed (.ok none), q)
      | some r =>
        if Fits r then (.claimed (turn r), q.setRow (turned clock worker r))
        else (.claimed (.error .statement), q) := by
  rw [perform_eq h, head?_waiting]
  unfold claim
  cases hfind : q.rows.find? (·.status = .pending) with
  | none => rfl
  | some row =>
    have hmem : row ∈ q.rows := List.mem_of_find?_eq_some hfind
    have hpending : row.status = .pending := by simpa using List.find?_some hfind
    simp only
    by_cases hfits : Fits row
    · rw [show attempts? row = some row.attempts.toNat from if_pos hfits, if_pos hfits]
      unfold turn turned
      cases RunId.parse row.run with
      | error fault =>
        simp only
        rw [updateWhere_setRow h hmem (fun x _ => decide_eq_true_iff) rfl]
      | ok run =>
        have hone : ∀ x ∈ q.rows, (decide (x.id = row.id) && decide (x.status = .pending)) = true ↔
            x.id = row.id := by
          intro x hx
          simp only [Bool.and_eq_true, decide_eq_true_eq, and_iff_left_iff_imp]
          exact fun hid => eq_of_id h hx hmem hid ▸ hpending
        simp only
        rw [updateWhere_setRow h hmem hone rfl]
    · rw [show attempts? row = none from if_neg hfits, if_neg hfits]

/-- The row whose turn it was does not wait any longer, and all others do. -/
theorem waiting_setRow (h : q.Sound) {rest : List Row} (hwaiting : q.waiting = r :: rest)
    {x : Row} (hid : x.id = r.id) (hx : x.status ≠ .pending) : (q.setRow x).waiting = rest := by
  have hother : (q.setRow x).waiting = q.waiting.filter (·.id ≠ r.id) := by
    show List.filter _ (List.map _ q.rows) = List.filter _ (List.filter _ q.rows)
    rw [List.filter_filter]
    induction q.rows with
    | nil => rfl
    | cons y rows ih =>
      rw [List.map_cons, List.filter_cons, List.filter_cons, ih, hid]
      by_cases hy : y.id = r.id <;> simp [hy, hx]
  have hascending := ascending_waiting h
  rw [hwaiting, List.map_cons, List.pairwise_cons] at hascending
  have hrest : ∀ y ∈ rest, decide (y.id ≠ r.id) = true := fun y hy =>
    decide_eq_true (Int.ne_of_gt (hascending.1 y.id (List.mem_map_of_mem hy)))
  rw [hother, hwaiting, List.filter_cons_of_neg (by simp), List.filter_eq_self.2 hrest]

/-- Every row that waits has its turn in as many claims as there are. -/
theorem claims_drain (h : q.Sound) (hfits : ∀ x ∈ q.waiting, Fits x) {calls : List QueueCall}
    (hclaims : ∀ c ∈ calls, ∃ worker, c.op = .claim worker)
    (hlength : calls.length = q.waiting.length) :
    answers q calls = q.waiting.map (fun r => .claimed (turn r)) ∧
      (after q calls).waiting = [] := by
  induction calls generalizing q with
  | nil =>
    have hnone : q.waiting = [] := List.eq_nil_of_length_eq_zero hlength.symm
    rw [hnone]
    exact ⟨rfl, hnone⟩
  | cons c rest ih =>
    obtain ⟨clock, op⟩ := c
    obtain ⟨worker, rfl⟩ := hclaims _ List.mem_cons_self
    cases hwaiting : q.waiting with
    | nil =>
      rw [hwaiting] at hlength
      cases hlength
    | cons r others =>
      rw [hwaiting] at hfits hlength
      have hclaim := perform_claim h clock worker
      rw [hwaiting, List.head?_cons] at hclaim
      simp only [if_pos (hfits r List.mem_cons_self)] at hclaim
      have hnext := waiting_setRow h hwaiting (turned_id clock worker r)
        (turned_not_pending clock worker r)
      have hsound := perform_sound h ⟨clock, .claim worker⟩
      rw [hclaim] at hsound
      obtain ⟨hrest, hdone⟩ := ih hsound
        (hnext ▸ fun x hx => hfits x (List.mem_cons_of_mem r hx))
        (fun c hc => hclaims c (List.mem_cons_of_mem _ hc)) (hnext ▸ Nat.succ.inj hlength)
      rw [ExecutionQueue.after_cons, ExecutionQueue.answers_cons, hclaim, hrest, hnext]
      exact ⟨rfl, hdone⟩

/-! ## What becomes of an unreadable row -/

/-- A call whose answer names an entry is a claim that found its row before all others. -/
theorem first_of_named (h : q.Sound) {c : QueueCall}
    (hnames : hands id ⟨c, (perform q c).1⟩ = true ∨ reports id ⟨c, (perform q c).1⟩ = true) :
    ∃ worker row, c.op = .claim worker ∧ q.waiting.head? = some row ∧ row.id = id := by
  obtain ⟨clock, op⟩ := c
  cases op with
  | claim worker =>
    rw [perform_claim h] at hnames
    cases hfirst : q.waiting.head? with
    | none => simp [hfirst, hands, reports] at hnames
    | some row =>
      refine ⟨worker, row, rfl, rfl, ?_⟩
      rw [hfirst] at hnames
      simp only at hnames
      split_ifs at hnames
      · unfold turn at hnames
        cases hparse : RunId.parse row.run <;> simpa [hparse, hands, reports] using hnames
      · simp [hands, reports] at hnames
  | offer _ _ | complete _ _ _ | release _ _ | renew _ _ | reclaim _ | depth =>
    simp [hands, reports] at hnames

/-- An unreadable row that waited before some events is as it was until one of them reports it,
and is marked as failed from then on. -/
structure Unread (r : Row) (reason : String) (h : List QueueEvent) (q : TableQueue) : Prop where
  sound : q.Sound
  row : (if h.any (reports r.id) then unreadable reason r else r) ∈ q.rows
  unclaimed : ∀ e ∈ h, hands r.id e = false
  told : ∀ e ∈ h, reports r.id e = true → e.answer = .claimed (.error (.corrupt r.id reason))
  once : h.countP (reports r.id) ≤ 1

namespace Unread

variable {reason : String} {fault : Identifier.Fault} {h : List QueueEvent}

theorem concat (hu : Unread r reason h q) {e : QueueEvent} {q' : TableQueue}
    (hsound : q'.Sound) (hunclaimed : hands r.id e = false)
    (hrow : (if (h.any (reports r.id) || reports r.id e) then unreadable reason r else r) ∈ q'.rows)
    (htold : reports r.id e = true → h.any (reports r.id) = false ∧
      e.answer = .claimed (.error (.corrupt r.id reason))) :
    Unread r reason (h ++ [e]) q' := by
  refine ⟨hsound, ?_, fun x hx => ?_, fun x hx hx' => ?_, ?_⟩
  · rw [List.any_append, List.any_cons, List.any_nil, Bool.or_false]
    exact hrow
  · rcases List.mem_append.1 hx with hx | hx
    · exact hu.unclaimed x hx
    · rwa [List.mem_singleton.1 hx]
  · rcases List.mem_append.1 hx with hx | hx
    · exact hu.told x hx hx'
    · rw [List.mem_singleton.1 hx] at hx' ⊢
      exact (htold hx').2
  · rw [List.countP_append, List.countP_singleton]
    cases hreports : reports r.id e with
    | false => exact hu.once
    | true =>
      have hzero : h.countP (reports r.id) = 0 :=
        List.countP_eq_zero.2 fun x hx => List.any_eq_false.1 (htold hreports).1 x hx
      rw [hzero]
      exact Nat.le_refl 1

/-- One more call, whatever it is. -/
theorem step (hu : Unread r (fault.message RunId.kind) h q) (hpending : r.status = .pending)
    (hfault : RunId.parse r.run = .error fault) (hfits : Fits r) (c : QueueCall) :
    Unread r (fault.message RunId.kind) (h ++ [⟨c, (perform q c).1⟩]) (perform q c).2 := by
  have hrow := hu.row
  generalize hx : (if h.any (reports r.id) then unreadable (fault.message RunId.kind) r else r) = x
    at hrow
  have hid : x.id = r.id := by rw [← hx]; split <;> rfl
  have hfree : x.status ≠ .claimed := by rw [← hx]; split <;> simp [unreadable, hpending]
  have hsound := perform_sound hu.sound c
  by_cases hturn : ∃ worker, c.op = .claim worker ∧ q.waiting.head? = some x
  · -- a row that is marked as failed has no turn, so it has not been reported before
    obtain ⟨worker, hop, hfirst⟩ := hturn
    obtain ⟨clock, op⟩ := c
    cases hop
    have hnone : h.any (reports r.id) = false := by
      rw [Bool.eq_false_iff]
      intro hany
      rw [if_pos hany] at hx
      have hstatus := (mem_waiting.1 (List.mem_of_mem_head? hfirst)).2
      rw [← hx] at hstatus
      cases hstatus
    rw [hnone, if_neg Bool.false_ne_true] at hx
    subst hx
    have hclaim := perform_claim hu.sound clock worker
    simp only [hfirst, if_pos hfits, turn, turned, hfault] at hclaim
    rw [hclaim] at hsound ⊢
    refine hu.concat hsound rfl ?_ fun _ => ⟨hnone, rfl⟩
    rw [if_pos (by simp [reports])]
    exact List.mem_map.2 ⟨r, hrow, if_pos rfl⟩
  · have hnames : ¬ (hands r.id ⟨c, (perform q c).1⟩ = true ∨
        reports r.id ⟨c, (perform q c).1⟩ = true) := by
      intro hnames
      obtain ⟨worker, row, hop, hfirst, hrid⟩ := first_of_named hu.sound hnames
      have hmem := (mem_waiting.1 (List.mem_of_mem_head? hfirst)).1
      refine hturn ⟨worker, hop, ?_⟩
      rw [eq_of_id hu.sound hrow hmem (hid.trans hrid.symm)]
      exact hfirst
    simp only [not_or, Bool.not_eq_true] at hnames
    refine hu.concat hsound hnames.1 ?_ fun hreports => ?_
    · rw [hnames.2, Bool.or_false, hx]
      exact kept hu.sound hrow hfree c fun worker hop hfirst =>
        hturn ⟨worker, hop, (head?_waiting q).trans hfirst⟩
    · rw [hnames.2] at hreports
      cases hreports

theorem run (hq : q.Sound) (hr : r ∈ q.waiting) (hfault : RunId.parse r.run = .error fault)
    (hfits : Fits r) (calls : List QueueCall) :
    Unread r (fault.message RunId.kind) (history q calls) (after q calls) := by
  obtain ⟨hmem, hpending⟩ := mem_waiting.1 hr
  induction calls using List.reverseRecOn with
  | nil => exact ⟨hq, hmem, by simp [history], by simp [history], by simp [history]⟩
  | append_singleton calls c ih =>
    rw [ExecutionQueue.after_concat, ExecutionQueue.history_concat]
    exact ih.step hpending hfault hfits c

end Unread

/-- A row that neither waits nor is claimed is not counted. -/
theorem depth_without (h : q.Sound) (hr : r ∈ q.rows) (hidle : r.isLive = false) :
    (q.without r.id).depth = q.depth := by
  have hcount : ∀ s, r.status ≠ s → (q.without r.id).count s = q.count s := by
    intro s hs
    show List.countP _ (List.filter _ q.rows) = List.countP _ q.rows
    rw [List.countP_filter]
    refine List.countP_congr fun x hx => ?_
    simp only [Bool.and_eq_true, decide_eq_true_eq, and_iff_left_iff_imp]
    rintro rfl hid
    exact hs (congrArg Row.status (eq_of_id h hx hr hid)).symm
  simp only [Row.isLive, Bool.or_eq_false_iff, decide_eq_false_iff_not] at hidle
  rw [depth, hcount _ hidle.1, hcount _ hidle.2, depth]

/-- Rows that cannot be read are in nobody's way.

Whatever is called, an unreadable row that waits is never handed out.  The claim that finds it
before all others reports it, marks it as failed and changes nothing else; it is the only one that
reports it, and from then on the row stays failed and is not counted.  So as many claims as there
are rows that wait, whether they can be read or not, hand out or report each of them once in the
order of their numbers, and the next claim finds nothing. -/
theorem unreadable_rows_pass (hsound : q.Sound) (hfits : ∀ r ∈ q.waiting, Fits r) :
    (∀ r ∈ q.waiting, ∀ fault, RunId.parse r.run = .error fault → ∀ calls : List QueueCall,
      let reason := fault.message RunId.kind
      let h := history q calls
      let q' := after q calls
      (∀ e ∈ h, hands r.id e = false) ∧
      (∀ clock worker, q'.waiting.head? = some r →
        perform q' ⟨clock, .claim worker⟩ =
          (.claimed (.error (.corrupt r.id reason)), q'.setRow (unreadable reason r))) ∧
      (∀ e ∈ h, reports r.id e = true → e.answer = .claimed (.error (.corrupt r.id reason))) ∧
      h.countP (reports r.id) ≤ 1 ∧
      q'.rows.find? (·.id = r.id) = some (if h.any (reports r.id) then unreadable reason r else r) ∧
      (h.any (reports r.id) = true → ∀ clock,
        (perform q' ⟨clock, .depth⟩).1 = .counted (.ok (q'.without r.id).depth))) ∧
    (q.waiting.map (·.id)).Pairwise (· < ·) ∧
    ∀ calls : List QueueCall, (∀ c ∈ calls, ∃ worker, c.op = .claim worker) →
      calls.length = q.waiting.length →
      answers q calls = q.waiting.map (fun r => .claimed (turn r)) ∧
      ∀ clock worker, (perform (after q calls) ⟨clock, .claim worker⟩).1 = .claimed (.ok none) := by
  refine ⟨fun r hr fault hfault calls => ?_, ascending_waiting hsound,
    fun calls hclaims hlength => ?_⟩
  · intro reason h q'
    have hu : Unread r reason h q' := .run hsound hr hfault (hfits r hr) calls
    refine ⟨hu.unclaimed, fun clock worker hfirst => ?_, hu.told, hu.once, ?_,
      fun hany clock => ?_⟩
    · simp only [perform_claim hu.sound, hfirst, if_pos (hfits r hr), turn, turned, hfault]
      rfl
    · have hfind := find?_of_mem hu.sound hu.row
      split_ifs at hfind ⊢ <;> exact hfind
    · have hrow := hu.row
      rw [if_pos hany] at hrow
      have hdepth : (q'.without r.id).depth = q'.depth :=
        depth_without (r := unreadable reason r) hu.sound hrow rfl
      simp only [perform_eq hu.sound, hdepth]
  · obtain ⟨hanswers, hnone⟩ := claims_drain hsound hfits hclaims hlength
    refine ⟨hanswers, fun clock worker => ?_⟩
    rw [perform_claim (after_sound hsound calls), hnone]
    rfl

/-- Two of three rows name no run, and the one between them is claimed and released in between. -/
theorem unreadable_rows_pass_two_of_three :
    let row (id : Int) (run : String) : Row := { id, run, jobKey := "backup", status := .pending }
    let q : TableQueue := ⟨2, [row 1 "run 0", row 2 "run-0-0000", row 3 ""], 4, false⟩
    let claim : QueueCall := ⟨⟨.epoch, 0⟩, .claim "worker-1"⟩
    let release : QueueCall := ⟨⟨.epoch, 0⟩, .release 2 (some "boom")⟩
    let calls := [claim, claim, release, claim, claim]
    (∀ e ∈ history q calls, hands 1 e = false) ∧
      (history q calls).map (reports 1) = [true, false, false, false, false] ∧
      (after q calls).rows.find? (·.id = 1) = some { row 1 "run 0" with
        status := .failed
        lastError := some
          "run id must use only ASCII letters, digits, '-', '_', '.' or ':'" } ∧
      answers q [claim, claim, claim] =
        [.claimed (.error (.corrupt 1
            "run id must use only ASCII letters, digits, '-', '_', '.' or ':'")),
          .claimed (.ok (some ⟨2, ⟨"run-0-0000", by decide⟩, "backup", 0⟩)),
          .claimed (.error (.corrupt 3 "run id must be non-empty"))] := by
  intro row q claim release calls
  have hsound : q.Sound := ⟨rfl, by decide, by decide, by decide⟩
  have hfits : ∀ r ∈ q.waiting, Fits r := by decide
  obtain ⟨hunread, -, hdrain⟩ := unreadable_rows_pass hsound hfits
  obtain ⟨hunclaimed, -, -, -, hfind, -⟩ :=
    hunread (row 1 "run 0") (by decide) .badCharacter (by decide) calls
  have hany : (history q calls).any (reports (row 1 "run 0").id) = true := by decide
  rw [if_pos hany] at hfind
  have hclaims : ∀ c ∈ [claim, claim, claim], ∃ worker, c.op = .claim worker := by
    intro c hc
    simp only [List.mem_cons, List.not_mem_nil, or_false, or_self] at hc
    exact ⟨"worker-1", hc ▸ rfl⟩
  exact ⟨hunclaimed, by decide, hfind,
    (hdrain [claim, claim, claim] hclaims rfl).1.trans (by decide)⟩

end TableQueue
end JobGate
