/-
What a table remembers of its entries.

No row of a table is deleted, so a table tells of every entry that it was ever given where the
entry stands and what its last error is.  Both follow from the deeds of the entry
(`entryStatus_history`).  A queue in memory forgets the entries that are finished, and tells the
same of all others as long as the same was done to them (`MemoryQueue.Follows.lastError_eq`).
-/
import JobGate.Proofs.Queue.Agreement
import JobGate.Proofs.Queue.Deeds
import JobGate.Proofs.Queue.Kept

namespace JobGate

open QueueHistory
open ExecutionQueue (perform after history)

namespace QueueHistory

variable {old old' : Staleness} {h : List QueueEvent} {e : QueueEvent} {id : Int}

theorem deed?_congr (hsame : ∀ x ∈ h, SameAge old old' x.toQueueCall e.toQueueCall)
    (haccount : account old h = account old' h) : deed? old h id e = deed? old' h id e := by
  unfold deed?
  -- only a reclaim looks at the age of a claim
  split <;> try rfl
  rename_i hop _
  rw [isStale_congr hsame hop haccount]

/-- Two ages that agree on every reclaim of a history tell of the same deeds. -/
theorem deeds_congr
    (hsame : h.Pairwise fun x e => SameAge old old' x.toQueueCall e.toQueueCall) :
    deeds old h id = deeds old' h id := by
  induction h using List.reverseRecOn with
  | nil => rfl
  | append_singleton h e ih =>
    obtain ⟨hbefore, -, hlast⟩ := List.pairwise_append.1 hsame
    have hnow : ∀ x ∈ h, SameAge old old' x.toQueueCall e.toQueueCall :=
      fun x hx => hlast x hx e (List.mem_singleton_self e)
    rw [deeds_concat, deeds_concat, ih hbefore, deed?_congr hnow (account_congr hbefore)]

end QueueHistory

theorem deeds_agree (capacity : Nat) (calls : List QueueCall)
    (hsame : calls.Pairwise (SameAge MemoryQueue.isOld TableQueue.isOld))
    (hreturns : ∀ id,
      returns MemoryQueue.isOld (history (MemoryQueue.new capacity) calls) id < 4294967296)
    (id : Int) : deeds MemoryQueue.isOld (history (MemoryQueue.new capacity) calls) id =
      deeds TableQueue.isOld (history (TableQueue.new capacity) calls) id := by
  rw [histories_agree capacity calls hsame hreturns]
  refine deeds_congr (List.pairwise_map.1 ?_)
  rw [ExecutionQueue.calls_history]
  exact hsame

/-- A queue in memory has the last error of every entry that is not finished. -/
theorem MemoryQueue.Follows.lastError_eq {q : MemoryQueue} {capacity : Nat}
    {h : List QueueEvent} {id : Int} {status : RowStatus} {error : Option String}
    (hq : q.Follows capacity h)
    (hview : (account MemoryQueue.isOld h id).map Account.view = some (status, error))
    (hlive : status = .pending ∨ status = .claimed) : q.lastError id = error := by
  obtain ⟨a, ha, hav⟩ := Option.map_eq_some_iff.1 hview
  cases hav
  rw [lastError, hq.entry?_eq, ha, Option.bind_some]
  cases hs : a.standing with
  | waiting | claimed lease => rw [stored, hs]; rfl
  | finished success lease =>
    rw [hs] at hlive
    cases success <;> simp [TableQueue.statusOf] at hlive

namespace TableQueue

variable {q : TableQueue} {capacity : Nat} {h : List QueueEvent} {id : Int}

def stands (q : TableQueue) (s : RowStatus) (id : Int) : Bool :=
  (q.entryStatus id).any (·.1 = s)

namespace Follows

theorem entryStatus_eq (hq : q.Follows capacity h) (id : Int) :
    q.entryStatus id = (account isOld h id).map Account.view := by
  rw [entryStatus, hq.rows, find?_roll fun _ _ _ => stored_id]
  cases account isOld h id <;> rfl

theorem count_eq (hq : q.Follows capacity h) (s : RowStatus) :
    q.count s = (ids h).countP (q.stands s) := by
  rw [count, hq.rows]
  refine countP_roll fun i _ => ?_
  rw [stands, hq.entryStatus_eq]
  cases account isOld h i <;> rfl

/-- A claim leaves the last error of every entry. -/
theorem error_kept (hq : q.Follows capacity h) (clock : Clock) (worker : String) :
    ((perform q ⟨clock, .claim worker⟩).2.entryStatus id).map (·.2) =
      (q.entryStatus id).map (·.2) := by
  rw [(hq.continues ⟨clock, .claim worker⟩).follows.entryStatus_eq, hq.entryStatus_eq,
    account_concat, view_next]
  cases hdeed : deed? isOld h id ⟨⟨clock, .claim worker⟩, (perform q ⟨clock, .claim worker⟩).1⟩ with
  | none => rfl
  | some deed =>
    obtain ⟨-, rfl⟩ := deed?_claim.1 hdeed
    rw [Option.map_map, Option.map_map]
    rfl

theorem renew_kept (hq : q.Follows capacity h) (clock : Clock) (i : Int) (worker : String) :
    (perform q ⟨clock, .renew i worker⟩).2.entryStatus id = q.entryStatus id := by
  rw [(hq.continues ⟨clock, .renew i worker⟩).follows.entryStatus_eq, hq.entryStatus_eq,
    account_concat, view_next]
  rfl

/-- There is room for one more entry as long as those that wait or are claimed leave it. -/
theorem offer_answer (hq : q.Follows capacity h) (clock : Clock) (d : Dispatch) :
    (perform q ⟨clock, .offer d false⟩).1 = .offered (.ok
      (if q.depth.live < max capacity 1 then .entry ((ids h).length + 1) else .full)) := by
  have hlength : q.live.entries.length = q.depth.live := live_length q
  simp only [perform_eq hq.sound, TableQueue.offer, Bool.false_eq_true, if_false,
    onTable_eq hq.sound, add_eq, hlength, hq.room, hq.nextId]
  by_cases hroom : q.depth.live < max capacity 1
  · rw [if_neg (Nat.not_le.2 hroom), if_pos hroom]
  · rw [if_pos (Nat.not_lt.1 hroom), if_neg hroom]

end Follows

/-- A table says of an entry what its deeds do. -/
theorem entryStatus_history (capacity : Nat) (calls : List QueueCall) (id : Int) :
    (after (new capacity) calls).entryStatus id =
      visible (deeds isOld (history (new capacity) calls) id) := by
  have hview := Backend.view_history .table capacity isOld calls id
  rw [Backend.new, (Backend.run_table (.new capacity) calls).2] at hview
  rw [(follows_history capacity calls).entryStatus_eq, hview]

/-- The row of an entry that is finished stays as it is for ever. -/
theorem finished_kept (h : q.Sound) {status : RowStatus} {error : Option String}
    (hstatus : q.entryStatus id = some (status, error))
    (hfinished : status = .succeeded ∨ status = .failed) (rest : List QueueCall) :
    (after q rest).rows.find? (·.id = id) = q.rows.find? (·.id = id) := by
  obtain ⟨r, hfind, hr⟩ := Option.map_eq_some_iff.1 hstatus
  obtain rfl : r.id = id := by simpa using List.find?_some hfind
  have hidle : r.isLive = false := by
    cases hr
    rcases hfinished with hs | hs <;> simp [Row.isLive, hs]
  have hkept := idle_kept h (List.mem_of_find?_eq_some hfind) hidle rest
  rw [hfind, find?_of_mem (after_sound h rest) hkept]

/-- The history that a table keeps is faithful.

A table knows the entries that were ever enqueued.  It tells of an entry what the deeds of the
entry do, so a claim leaves the last error, and to renew a claim changes nothing that is seen.
The row of an entry that is finished never changes again, and the entry takes no room and is not
counted.  A queue in memory in which the same was done to an entry tells the same last error until
the entry is finished, and the same was done to it if the calls were the same, their clocks agree
on the age of every claim and no entry was given back too often for a row. -/
theorem remembers_what_was_done (capacity : Nat) (calls : List QueueCall) (id : Int) :
    let h := history (new capacity) calls
    let q := after (new capacity) calls
    (q.entryStatus id = none ↔ id ∉ ids h) ∧
    q.entryStatus id = visible (deeds isOld h id) ∧
    (∀ clock worker i,
      ((perform q ⟨clock, .claim worker⟩).2.entryStatus id).map (·.2) =
        (q.entryStatus id).map (·.2) ∧
      (perform q ⟨clock, .renew i worker⟩).2.entryStatus id = q.entryStatus id) ∧
    (∀ status error, q.entryStatus id = some (status, error) →
      status = .succeeded ∨ status = .failed → ∀ rest : List QueueCall,
        (after q rest).rows.find? (·.id = id) = q.rows.find? (·.id = id)) ∧
    (let depth : Depth := ⟨(ids h).countP (q.stands .pending), (ids h).countP (q.stands .claimed)⟩
      ∀ clock d, (perform q ⟨clock, .depth⟩).1 = .counted (.ok depth) ∧
        (perform q ⟨clock, .offer d false⟩).1 = .offered (.ok
          (if depth.live < max capacity 1 then .entry ((ids h).length + 1) else .full))) ∧
    (∀ (room : Nat) (calls' : List QueueCall),
      let h' := history (MemoryQueue.new room) calls'
      deeds MemoryQueue.isOld h' id = deeds isOld h id →
      ∀ status error, q.entryStatus id = some (status, error) →
        status = .pending ∨ status = .claimed →
        (after (MemoryQueue.new room) calls').lastError id = error) ∧
    (calls.Pairwise (SameAge MemoryQueue.isOld isOld) →
      let h' := history (MemoryQueue.new capacity) calls
      (∀ i, returns MemoryQueue.isOld h' i < 4294967296) →
      deeds MemoryQueue.isOld h' id = deeds isOld h id) := by
  intro h q
  have hq : q.Follows capacity h := follows_history capacity calls
  refine ⟨?_, entryStatus_history capacity calls id, fun clock worker i => ⟨?_, ?_⟩,
    fun status error => finished_kept hq.sound, fun clock d => ⟨?_, ?_⟩,
    ?_, fun hsame hreturns => deeds_agree capacity calls hsame hreturns id⟩
  · have hknown : (account isOld h id).isSome = true ↔ id ∈ ids h := account_isSome
    rw [hq.entryStatus_eq, Option.map_eq_none_iff, ← hknown, Option.not_isSome_iff_eq_none]
  · exact hq.error_kept clock worker
  · exact hq.renew_kept clock i worker
  · simp only [perform_eq hq.sound, TableQueue.depth, hq.count_eq]
  · rw [hq.offer_answer, TableQueue.depth, hq.count_eq, hq.count_eq]
  · intro room calls' h' hdeeds status error hstatus hlive
    refine (MemoryQueue.follows_history room calls').lastError_eq ?_ hlive
    have hview := Backend.view_history .memory room MemoryQueue.isOld calls' id
    rw [Backend.new, (Backend.run_memory (.new room) calls').2] at hview
    rw [hview, hdeeds, ← entryStatus_history]
    exact hstatus

/-- One entry was claimed and taken back, and another one has failed. -/
theorem remembers_what_was_done_twice :
    let clock (n : Nat) : Clock := Clock.advance ⟨.epoch, 0⟩ (Duration.ofMillis n)
    let calls : List QueueCall :=
      [⟨clock 0, .offer ⟨⟨"run-0-0000", by decide⟩, "backup"⟩ false⟩,
        ⟨clock 0, .offer ⟨⟨"run-0-0001", by decide⟩, "deploy"⟩ false⟩,
        ⟨clock 0, .claim "worker-1"⟩, ⟨clock 5, .claim "worker-2"⟩,
        ⟨clock 5, .complete 2 false (some "exit 1")⟩, ⟨clock 7, .reclaim (Duration.ofMillis 7)⟩]
    let q := after (new 2) calls
    deeds isOld (history (new 2) calls) 1 = [.enqueued, .claimed, .reclaimed] ∧
      q.entryStatus 1 = some (.pending, some "claim lock expired") ∧
      q.entryStatus 2 = some (.failed, some "exit 1") ∧
      (∀ rest : List QueueCall,
        (after q rest).rows.find? (·.id = 2) = q.rows.find? (·.id = 2)) ∧
      (after (MemoryQueue.new 2) calls).lastError 1 = some "claim lock expired" := by
  intro clock calls q
  obtain ⟨-, -, -, -, -, hmemory, hsame⟩ := remembers_what_was_done 2 calls 1
  obtain ⟨-, -, -, hfinished, -⟩ := remembers_what_was_done 2 calls 2
  have hages : calls.Pairwise (SameAge MemoryQueue.isOld isOld) := by
    refine sameAge_of_ticks ?_ fun c hc timeout hop => ?_
    · refine .cons_cons ⟨0, by decide⟩ (.cons_cons ⟨0, by decide⟩ (.cons_cons ⟨5, by decide⟩
        (.cons_cons ⟨0, by decide⟩ (.cons_cons ⟨2, by decide⟩ ?_))))
      exact .singleton _
    · simp only [calls, List.mem_cons, List.not_mem_nil, or_false] at hc
      rcases hc with rfl | rfl | rfl | rfl | rfl | rfl <;> cases hop
      exact ⟨7, rfl⟩
  have hdeeds := hsame hages fun id =>
    Nat.lt_of_le_of_lt ((MemoryQueue.history_answered 2 calls).returns_le_length id)
      (show 6 < 4294967296 by decide)
  have hstatus : q.entryStatus 1 = some (.pending, some "claim lock expired") := by decide
  have hfailed : q.entryStatus 2 = some (.failed, some "exit 1") := by decide
  exact ⟨by decide, hstatus, hfailed, hfinished _ _ hfailed (.inr rfl),
    hmemory 2 calls hdeeds _ _ hstatus (.inl rfl)⟩

end TableQueue
end JobGate
