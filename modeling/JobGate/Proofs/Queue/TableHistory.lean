/-
The table of a queue is what its history says.

A row keeps all that the account of its entry tells, also when the entry is finished, so
the table `Follows` a history without any condition.  Its answers are those that the
history asks for as long as every number of attempts fits into 32 bits.
-/
import JobGate.Proofs.Queue.History
import JobGate.Proofs.Queue.Table

namespace JobGate
namespace TableQueue

open QueueHistory
open ExecutionQueue (perform after history)

/-- The age of a claim, in whole milliseconds of the wall clock, against a timeout. -/
def isOld (since now : Clock) (timeout : Nat) : Bool := since.millis ≤ cutoff now timeout

def statusOf : Standing → RowStatus
  | .waiting => .pending
  | .claimed _ => .claimed
  | .finished true _ => .succeeded
  | .finished false _ => .failed

def stored (id : Int) (a : Account) : Option Row :=
  some {
    id, run := a.dispatch.run.text, jobKey := a.dispatch.jobKey
    status := statusOf a.standing
    attempts := a.returns
    claimedBy := a.standing.lease?.map (·.worker)
    claimedAt := a.standing.lease?.map (·.since.millis)
    lastError := a.lastError }

structure Follows (q : TableQueue) (capacity : Nat) (h : List QueueEvent) : Prop where
  sound : q.Sound
  room : q.capacity = max capacity 1
  numbered : Numbered h
  nextId : q.nextId = (ids h).length + 1
  rows : q.rows = roll isOld h stored

theorem new_follows (capacity : Nat) : (new capacity).Follows capacity [] :=
  ⟨new_sound capacity, rfl, rfl, rfl, rfl⟩

/-- The table behind a call follows on, and the answer is what the history asks for unless
an entry was given back too often. -/
structure Continues (capacity : Nat) (h : List QueueEvent) (c : QueueCall)
    (r : QueueAnswer × TableQueue) : Prop where
  answer : (∀ id, returns isOld h id < 4294967296) → r.1 = answer isOld h capacity c
  follows : r.2.Follows capacity (h ++ [⟨c, r.1⟩])

/-- What a call does to a table that is there. -/
theorem perform_eq {q : TableQueue} (h : q.Sound) (c : QueueCall) : perform q c =
    match c.op with
    | .offer d stopped => (.offered (q.offer d stopped).1, (q.offer d stopped).2)
    | .claim worker => (.claimed (q.claim c.clock worker).1, (q.claim c.clock worker).2)
    | .complete id success error =>
      (.settled (q.complete id success error).1, (q.complete id success error).2)
    | .release id error => (.settled (q.release id error).1, (q.release id error).2)
    | .renew id worker => (.settled (q.renew c.clock id worker).1, (q.renew c.clock id worker).2)
    | .reclaim timeout =>
      (.reclaimed (.ok (q.reclaim c.clock timeout).1), (q.reclaim c.clock timeout).2)
    | .depth => (.counted (.ok q.depth), q) := by
  obtain ⟨clock, op⟩ := c
  cases op with
  | offer d stopped => rfl
  | claim _ | complete _ _ _ | release _ _ | renew _ _ | reclaim _ | depth =>
    simp only [perform, ExecutionQueue.claim, ExecutionQueue.complete, ExecutionQueue.release,
      ExecutionQueue.renew, ExecutionQueue.reclaim, ExecutionQueue.depth, onTable_eq h]
    rfl

/-! ## Stored rows -/

theorem stored_id {i : Int} {a : Account} {r : Row} (h : stored i a = some r) : r.id = i := by
  cases h
  rfl

section
variable {h : List QueueEvent} {i : Int}

theorem stored_waits :
    ((account isOld h i).bind (stored i)).any (·.status = .pending) = waits isOld h i := by
  unfold waits
  cases account isOld h i with
  | none => rfl
  | some a => rcases a with ⟨_, _ | _ | ⟨_ | _⟩, _, _⟩ <;> rfl

theorem stored_claimed :
    ((account isOld h i).bind (stored i)).any (·.status = .claimed) = isClaimed isOld h i := by
  unfold isClaimed holder?
  cases account isOld h i with
  | none => rfl
  | some a => rcases a with ⟨_, _ | _ | ⟨_ | _⟩, _, _⟩ <;> rfl

theorem stored_live :
    ((account isOld h i).bind (stored i)).any (·.isLive) = isLive isOld h i := by
  unfold isLive
  cases account isOld h i with
  | none => rfl
  | some a => rcases a with ⟨_, _ | _ | ⟨_ | _⟩, _, _⟩ <;> rfl

theorem stored_stale {clock : Clock} {timeout : Nat} :
    ((account isOld h i).bind (stored i)).any (isStale (cutoff clock timeout)) =
      QueueHistory.isStale isOld h clock timeout i := by
  unfold QueueHistory.isStale
  cases account isOld h i with
  | none => rfl
  | some a =>
    rcases a with ⟨_, _ | _ | ⟨_ | _⟩, _, _⟩ <;>
      simp [stored, isStale, Account.isStale, statusOf, Standing.lease?, isOld]

end

/-- A sweep gives back the rows whose claims are stale. -/
theorem stored_sweep {i : Int} {a : Account} {clock : Clock} {timeout : Nat} :
    stored i (if a.isStale isOld clock timeout then a.giveBack (some reclaimMessage) else a) =
      (stored i a).map fun r =>
        if isStale (cutoff clock timeout) r then freed (some reclaimMessage) r else r := by
  have hage : ∀ r, stored i a = some r →
      isStale (cutoff clock timeout) r = a.isStale isOld clock timeout := by
    intro r hr
    cases hr
    rcases a with ⟨_, _ | _ | ⟨_ | _⟩, _, _⟩ <;>
      simp [isStale, Account.isStale, statusOf, Standing.lease?, isOld]
  cases hstale : a.isStale isOld clock timeout with
  | true =>
    rw [if_pos rfl]
    show (stored i a).map (freed (some reclaimMessage)) = _
    exact Option.map_congr fun r hr => by rw [hage r hr, hstale, if_pos rfl]
  | false =>
    simp [stored, hage _ rfl, hstale]

theorem statusOf_eq_claimed {s : Standing} (h : statusOf s = .claimed) :
    ∃ lease, s = .claimed lease := by
  rcases s with _ | lease | ⟨_ | _⟩
  · cases h
  · exact ⟨lease, rfl⟩
  · cases h
  · cases h

/-- What is written as the text of a run is read as that run. -/
theorem parse_text (run : RunId) : RunId.parse run.text = .ok run := by
  cases hparse : RunId.parse run.text with
  | error fault => exact absurd rfl (parse_error hparse run)
  | ok run' =>
    have htext := parse_ok hparse
    cases run
    cases run'
    cases htext
    rfl

/-! ## The calls -/

namespace Follows

variable {q : TableQueue} {capacity : Nat} {h : List QueueEvent} {id : Int}

/-- Nothing changes but the history. -/
theorem idle (hq : q.Follows capacity h) {e : QueueEvent} (hgiven : given? e = none)
    (hnext : ∀ i a, next isOld i a e = a) : q.Follows capacity (h ++ [e]) where
  sound := hq.sound
  room := hq.room
  numbered := hq.numbered.concat hgiven
  nextId := by rw [ids_of_given_none hgiven, hq.nextId]
  rows := by rw [hq.rows, roll_idle hgiven hnext]

/-- A statement changes the row of one entry, as an event does its account. -/
theorem update (hq : q.Follows capacity h) {c : Row → Bool} {f : Row → Row}
    {g : Account → Account} {e : QueueEvent} (hsound : (q.updateWhere c f).2.Sound)
    (hc : ∀ r ∈ q.rows, c r = true ↔ r.id = id) (hgiven : given? e = none)
    (hnext : ∀ i a, next isOld i a e = if id = i then a.map g else a)
    (hview : ∀ a, account isOld h id = some a → stored id (g a) = (stored id a).map f) :
    (q.updateWhere c f).2.Follows capacity (h ++ [e]) where
  sound := hsound
  room := hq.room
  numbered := hq.numbered.concat hgiven
  nextId := by
    rw [ids_of_given_none hgiven]
    exact hq.nextId
  rows := by
    rw [roll_update (fun _ _ _ => stored_id) hgiven hnext hview, ← hq.rows]
    exact List.map_congr_left fun r hr => if_congr (hc r hr) rfl rfl

theorem account_of_mem (hq : q.Follows capacity h) {r : Row} (hr : r ∈ q.rows) :
    ∃ a, account isOld h r.id = some a ∧ stored r.id a = some r := by
  rw [hq.rows] at hr
  obtain ⟨i, a, ha, hview⟩ := mem_roll.1 hr
  rw [stored_id hview]
  exact ⟨a, ha, hview⟩

theorem mem_of_account (hq : q.Follows capacity h) {a : Account}
    (ha : account isOld h id = some a) : ∃ r ∈ q.rows, stored id a = some r := by
  rw [hq.rows]
  exact ⟨_, mem_roll.2 ⟨id, a, ha, rfl⟩, rfl⟩

/-- The row of an entry says who has claimed it, as the history does. -/
theorem holder?_iff (hq : q.Follows capacity h) (id : Int) (worker : String) :
    holder? isOld h id = some worker ↔ ∃ r ∈ q.rows, (decide (r.id = id) &&
      decide (r.status = .claimed) && decide (r.claimedBy = some worker)) = true := by
  simp only [Bool.and_eq_true, decide_eq_true_eq, and_assoc]
  constructor
  · intro hw
    obtain ⟨a, since, ha, hclaimed⟩ := QueueHistory.holder?_iff.1 hw
    obtain ⟨r, hr, hview⟩ := hq.mem_of_account ha
    cases hview
    exact ⟨_, hr, rfl, by rw [hclaimed]; rfl, by rw [hclaimed]; rfl⟩
  · rintro ⟨r, hr, rfl, hstatus, hby⟩
    obtain ⟨a, ha, hview⟩ := hq.account_of_mem hr
    rw [← Option.some.inj hview] at hstatus hby
    obtain ⟨lease, hclaimed⟩ := statusOf_eq_claimed hstatus
    simp only [hclaimed, Standing.lease?, Option.map_some, Option.some.injEq] at hby
    exact QueueHistory.holder?_iff.2 ⟨a, lease.since, ha, by rw [hclaimed, ← hby]⟩

theorem isClaimed_iff (hq : q.Follows capacity h) (id : Int) : isClaimed isOld h id = true ↔
    ∃ r ∈ q.rows, (decide (r.id = id) && decide (r.status = .claimed)) = true := by
  rw [isClaimed, Option.isSome_iff_exists]
  constructor
  · rintro ⟨worker, hw⟩
    obtain ⟨r, hr, hc⟩ := (hq.holder?_iff id worker).1 hw
    exact ⟨r, hr, (Bool.and_eq_true_iff.1 hc).1⟩
  · rintro ⟨r, hr, hc⟩
    simp only [Bool.and_eq_true, decide_eq_true_eq] at hc
    obtain ⟨worker, hby⟩ := Option.isSome_iff_exists.1 (hq.sound.claimed r hr hc.2)
    exact ⟨worker, (hq.holder?_iff id worker).2 ⟨r, hr, by simp [hc, hby]⟩⟩

/-- Every row of a claimed entry is a claimed one. -/
theorem status_of_claimed (hq : q.Follows capacity h) {a : Account} {lease : Lease}
    (ha : account isOld h id = some a) (hclaimed : a.standing = .claimed lease) {r : Row}
    (hr : r ∈ q.rows) (hid : r.id = id) :
    r.status = .claimed ∧ r.claimedBy = some lease.worker := by
  obtain ⟨b, hb, hview⟩ := hq.account_of_mem hr
  rw [hid, ha] at hb
  cases hb
  rw [← Option.some.inj hview, hclaimed]
  exact ⟨rfl, rfl⟩

/-- The row of a claimed entry is the one that is claimed under its identifier. -/
theorem claimed_row_iff (hq : q.Follows capacity h) (hclaimed : isClaimed isOld h id = true)
    {r : Row} (hr : r ∈ q.rows) :
    (decide (r.id = id) && decide (r.status = .claimed)) = true ↔ r.id = id := by
  obtain ⟨a, lease, ha, hs⟩ := QueueHistory.isClaimed_iff.1 hclaimed
  simp only [Bool.and_eq_true, decide_eq_true_eq, and_iff_left_iff_imp]
  exact fun hid => (hq.status_of_claimed ha hs hr hid).1

theorem offer (hq : q.Follows capacity h) (clock : Clock) (d : Dispatch) (stopped : Bool) :
    Continues capacity h ⟨clock, .offer d stopped⟩ (perform q ⟨clock, .offer d stopped⟩) := by
  have hlength : q.count .pending + q.count .claimed =
      (ids h).countP (QueueHistory.isLive isOld h) := by
    rw [← live_length, ← countP_roll fun _ _ => stored_live, ← hq.rows,
      List.countP_eq_length_filter]
    exact List.length_map _
  have hsound := (offer_spec hq.sound d stopped).1
  rw [perform_eq hq.sound]
  unfold TableQueue.offer at hsound ⊢
  cases stopped with
  | true => exact ⟨fun _ => rfl, hq.idle rfl fun _ _ => rfl⟩
  | false =>
    simp only [Bool.false_eq_true, if_false, onTable_eq hq.sound, add] at hsound ⊢
    by_cases hfull : q.capacity ≤ q.count .pending + q.count .claimed
    · rw [if_pos hfull]
      refine ⟨fun _ => ?_, hq.idle rfl fun _ _ => rfl⟩
      rw [hlength, hq.room, ← Nat.not_lt] at hfull
      simp only [answer, Bool.false_eq_true, if_false, hfull]
    · rw [if_neg hfull] at hsound ⊢
      have hid := hq.nextId
      refine ⟨fun _ => ?_, hsound, hq.room, hq.numbered.add (congrArg some hid), ?_, ?_⟩
      · rw [hlength, hq.room, Nat.not_le] at hfull
        simp only [answer, Bool.false_eq_true, if_false, hfull, if_true, insert, hid]
      · rw [ids_concat]
        show q.nextId + 1 = _
        simp [given?, insert, hid]
      · have hnew : q.nextId ∉ ids h := by
          rw [hq.numbered.mem_iff]
          omega
        rw [roll_add (a := { dispatch := d }) rfl hnew fun _ _ => rfl, ← hq.rows]
        rfl

theorem claim (hq : q.Follows capacity h) (clock : Clock) (worker : String) :
    Continues capacity h ⟨clock, .claim worker⟩ (perform q ⟨clock, .claim worker⟩) := by
  have hfind : q.rows.find? (·.status = .pending) = ((ids h).find? (waits isOld h)).bind fun i =>
      (account isOld h i).bind (stored i) := by
    rw [hq.rows]
    exact find?_roll_first fun _ _ => stored_waits
  have hsound := (claim_spec hq.sound clock worker).1
  rw [perform_eq hq.sound]
  unfold TableQueue.claim at hsound ⊢
  cases hfirst : (ids h).find? (waits isOld h) with
  | none =>
    rw [hfirst, Option.bind_none] at hfind
    simp only [hfind]
    exact ⟨fun _ => by simp only [answer, hfirst, Option.bind_none], hq.idle rfl fun _ _ => rfl⟩
  | some i =>
    obtain ⟨a, ha, hwaiting⟩ := waits_iff.1 (List.find?_some hfirst)
    obtain ⟨row, hrow⟩ : ∃ row, stored i a = some row := ⟨_, rfl⟩
    obtain ⟨hid, hrun, hkey, hcount⟩ : row.id = i ∧ row.run = a.dispatch.run.text ∧
        row.jobKey = a.dispatch.jobKey ∧ row.attempts = a.returns := by
      cases hrow
      exact ⟨rfl, rfl, rfl, rfl⟩
    rw [hfirst, Option.bind_some, ha, Option.bind_some, hrow] at hfind
    rcases attempts?_eq row with ⟨attempts, hattempts, heq⟩ | ⟨hattempts, hout⟩
    · simp only [hfind, hattempts, hrun, parse_text] at hsound ⊢
      have hreturns : attempts = a.returns := by omega
      have hone : ∀ r ∈ q.rows, (decide (r.id = row.id) && decide (r.status = .pending)) = true ↔
          r.id = i := by
        intro r hr
        simp only [hid, Bool.and_eq_true, decide_eq_true_eq, and_iff_left_iff_imp]
        intro hri
        obtain ⟨b, hb, hview⟩ := hq.account_of_mem hr
        rw [hri, ha] at hb
        cases hb
        rw [← Option.some.inj hview, hwaiting]
        rfl
      rw [hid] at hsound hone ⊢
      refine ⟨fun hbound => ?_, hq.update (g := (·.claim ⟨worker, clock⟩)) hsound hone rfl
        (fun _ _ => rfl) fun _ _ => rfl⟩
      have hmin : min a.returns MemoryQueue.maxAttempts = a.returns := by
        have hlt : a.returns < 4294967296 := by simpa [returns, ha] using hbound i
        exact Nat.min_eq_left (Nat.le_of_lt_succ hlt)
      simp only [answer, hfirst, Option.bind_some, handedOut, ha, Option.map_some, hmin, hkey,
        hreturns]
    · -- the number of attempts does not fit, which the bound on the returns excludes
      simp only [hfind, hattempts]
      refine ⟨fun hbound => absurd (hbound i) ?_, hq.idle rfl fun _ _ => rfl⟩
      have hreturns : returns isOld h i = a.returns := by rw [returns, ha]; rfl
      rw [hreturns]
      omega

/-- A statement that ends or renews the claim of an entry, where that is allowed. -/
theorem settle (hq : q.Follows capacity h) {c : Row → Bool} {f : Row → Row}
    {g : Account → Account} {call : QueueCall} {allowed : Prop} [Decidable allowed]
    (hanswer : answer isOld h capacity call =
      .settled (if allowed then .ok () else .error (.notClaimed id)))
    (hsound : (changed id (q.updateWhere c f)).2.Sound)
    (hiff : allowed ↔ ∃ r ∈ q.rows, c r = true)
    (hc : allowed → ∀ r ∈ q.rows, c r = true ↔ r.id = id)
    (hgiven : ∀ result, given? ⟨call, .settled result⟩ = none)
    (hdone : ∀ i a, next isOld i a ⟨call, .settled (.ok ())⟩ = if id = i then a.map g else a)
    (hidle : ∀ i a error, next isOld i a ⟨call, .settled (.error error)⟩ = a)
    (hview : allowed → ∀ a, account isOld h id = some a → stored id (g a) = (stored id a).map f) :
    Continues capacity h call
      (.settled (changed id (q.updateWhere c f)).1, (changed id (q.updateWhere c f)).2) := by
  rcases changed_eq (f := f) hiff id with ⟨hallowed, heq⟩ | ⟨hnot, heq⟩
  · rw [heq] at hsound ⊢
    refine ⟨fun _ => ?_, hq.update hsound (hc hallowed) (hgiven _) hdone (hview hallowed)⟩
    rw [hanswer, if_pos hallowed]
  · rw [heq]
    refine ⟨fun _ => ?_, hq.idle (hgiven _) fun i a => hidle i a _⟩
    rw [hanswer, if_neg hnot]

theorem complete (hq : q.Follows capacity h) (clock : Clock) (id : Int) (success : Bool)
    (error : Option String) :
    Continues capacity h ⟨clock, .complete id success error⟩
      (perform q ⟨clock, .complete id success error⟩) := by
  rw [perform_eq hq.sound]
  refine hq.settle (g := (·.finish success error)) rfl (complete_spec hq.sound id success error).1
    (hq.isClaimed_iff id) (fun hclaimed _ => hq.claimed_row_iff hclaimed) (fun _ => rfl)
    (fun _ _ => rfl) (fun _ _ _ => rfl) fun _ a _ => ?_
  cases success <;> rfl

theorem release (hq : q.Follows capacity h) (clock : Clock) (id : Int) (error : Option String) :
    Continues capacity h ⟨clock, .release id error⟩ (perform q ⟨clock, .release id error⟩) := by
  rw [perform_eq hq.sound]
  exact hq.settle (g := (·.giveBack error)) rfl (release_spec hq.sound id error).1
    (hq.isClaimed_iff id) (fun hclaimed _ => hq.claimed_row_iff hclaimed) (fun _ => rfl)
    (fun _ _ => rfl) (fun _ _ _ => rfl) fun _ _ _ => rfl

theorem renew (hq : q.Follows capacity h) (clock : Clock) (id : Int) (worker : String) :
    Continues capacity h ⟨clock, .renew id worker⟩ (perform q ⟨clock, .renew id worker⟩) := by
  rw [perform_eq hq.sound]
  refine hq.settle (g := (·.renew clock)) rfl (renew_spec hq.sound clock id worker).1
    (hq.holder?_iff id worker) (fun hw r hr => ?_) (fun _ => rfl) (fun _ _ => rfl)
    (fun _ _ _ => rfl) fun hw b hb => ?_
  · obtain ⟨a, since, ha, hs⟩ := QueueHistory.holder?_iff.1 hw
    simp only [Bool.and_eq_true, decide_eq_true_eq, and_assoc, and_iff_left_iff_imp]
    exact fun hid => hq.status_of_claimed ha hs hr hid
  · obtain ⟨a, since, ha, hs⟩ := QueueHistory.holder?_iff.1 hw
    rw [ha] at hb
    cases hb
    simp only [stored, Account.renew, hs, Option.map_some]
    rfl

theorem reclaim (hq : q.Follows capacity h) (clock : Clock) (timeout : Nat) :
    Continues capacity h ⟨clock, .reclaim timeout⟩ (perform q ⟨clock, .reclaim timeout⟩) := by
  rw [perform_eq hq.sound]
  refine ⟨fun _ => ?_, (reclaim_spec hq.sound clock timeout).1, hq.room, hq.numbered.concat rfl,
    ?_, ?_⟩
  · have hcount : (q.reclaim clock timeout).1 =
        (ids h).countP (QueueHistory.isStale isOld h clock timeout) := by
      rw [← countP_roll fun _ _ => stored_stale, ← hq.rows]
      rfl
    simp only [hcount, answer]
  · rw [ids_of_given_none rfl]
    exact hq.nextId
  · rw [roll_sweep rfl (fun _ _ => rfl) fun _ _ _ => stored_sweep, ← hq.rows]
    rfl

theorem depth (hq : q.Follows capacity h) (clock : Clock) :
    Continues capacity h ⟨clock, .depth⟩ (perform q ⟨clock, .depth⟩) := by
  have hpending : q.count .pending = (ids h).countP (waits isOld h) := by
    rw [count, hq.rows]
    exact countP_roll fun _ _ => stored_waits
  have hclaimed : q.count .claimed = (ids h).countP (isClaimed isOld h) := by
    rw [count, hq.rows]
    exact countP_roll fun _ _ => stored_claimed
  rw [perform_eq hq.sound]
  refine ⟨fun _ => ?_, hq.idle rfl fun _ _ => rfl⟩
  simp only [answer, TableQueue.depth, hpending, hclaimed]

theorem continues (hq : q.Follows capacity h) (c : QueueCall) :
    Continues capacity h c (perform q c) := by
  obtain ⟨clock, op⟩ := c
  cases op with
  | offer d stopped => exact hq.offer clock d stopped
  | claim worker => exact hq.claim clock worker
  | complete id success error => exact hq.complete clock id success error
  | release id error => exact hq.release clock id error
  | renew id worker => exact hq.renew clock id worker
  | reclaim timeout => exact hq.reclaim clock timeout
  | depth => exact hq.depth clock

end Follows

/-- A table that started empty is what its history says. -/
theorem follows_history (capacity : Nat) (calls : List QueueCall) :
    (after (new capacity) calls).Follows capacity (history (new capacity) calls) := by
  induction calls using List.reverseRecOn with
  | nil => exact new_follows capacity
  | append_singleton calls c ih =>
    rw [ExecutionQueue.after_concat, ExecutionQueue.history_concat]
    exact (ih.continues c).follows

end TableQueue
end JobGate
