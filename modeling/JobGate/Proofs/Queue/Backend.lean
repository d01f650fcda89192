/-
Both kinds of queue, behind an outage or not.

Either kind does to its live entries what the relations of `LiveQueue` say, so
nothing that is proved from them depends on the kind.  A call that an outage lets
fail does not reach the queue, and one that is let through changes no outage
(`Faulty.Answers`).
-/
import JobGate.Proofs.Queue.Memory
import JobGate.Proofs.Queue.Table
import JobGate.Queue.Backend

namespace JobGate

namespace Backend

def live : Backend → LiveQueue
  | memory q => q.live
  | table q => q.live

def Sound : Backend → Prop
  | memory q => q.Sound
  | table q => q.Sound

def stale : Backend → Clock → Nat → Int → Bool
  | memory q => q.stale
  | table q => q.stale

variable {q : Backend}

theorem sound_live (h : q.Sound) : q.live.Sound := by
  cases q with
  | memory q => exact MemoryQueue.sound_live h
  | table q => exact TableQueue.sound_live h

theorem claimed_of_stale (h : q.Sound) {clock : Clock} {timeout : Nat} {id : Int}
    (hstale : q.stale clock timeout id = true) : q.live.Claimed id := by
  cases q with
  | memory q => exact MemoryQueue.claimed_of_stale h hstale
  | table q => exact TableQueue.claimed_of_stale h hstale

/-- Attempts are counted one by one as long as the number fits into 32 bits. -/
theorem bump_live {attempts : Int} (h : attempts + 1 < 4294967296) :
    q.live.bump attempts = attempts + 1 := by
  cases q with
  | memory q =>
    have hle : attempts + 1 ≤ ((4294967295 : Nat) : Int) := by omega
    exact min_eq_left hle
  | table q => rfl

/-- The answer of a call and the queue behind it are related, and the queue is
still sound. -/
def Answers {α : Type} (P : α → LiveQueue → Prop) (r : α × Backend) : Prop :=
  r.2.Sound ∧ P r.1 r.2.live

theorem offer_answers (h : q.Sound) (clock : Clock) (d : Dispatch) (stopped : Bool) :
    Answers (q.live.Offered d stopped) (ExecutionQueue.offer q clock d stopped) := by
  cases q with
  | memory q => exact MemoryQueue.offer_spec h d stopped
  | table q => exact TableQueue.offer_spec h d stopped

def added : Backend → Dispatch → Backend
  | memory q, d => memory (q.added d)
  | table q, d => table (q.added d)

theorem added_live (q : Backend) (d : Dispatch) : (q.added d).live = q.live.add d := by
  cases q with
  | memory q => exact q.added_live d
  | table q => exact q.added_live d

/-- How an attempt to add an entry can end, be the queue sound or not.  The entry is added,
or nothing has changed. -/
inductive Offers (q : Backend) (d : Dispatch) (stopped : Bool) :
    Except QueueError Offer × Backend → Prop
  | added {id : Int} (hgo : stopped = false)
      (hroom : q.live.entries.length < q.live.capacity) :
      Offers q d stopped (.ok (.entry id), q.added d)
  | full (hgo : stopped = false) (hfull : q.live.capacity ≤ q.live.entries.length) :
      Offers q d stopped (.ok .full, q)
  | canceled (hstop : stopped = true) : Offers q d stopped (.ok .canceled, q)
  | failed {e : QueueError} : Offers q d stopped (.error e, q)

theorem offer_offers (q : Backend) (clock : Clock) (d : Dispatch) (stopped : Bool) :
    q.Offers d stopped (ExecutionQueue.offer q clock d stopped) := by
  cases q with
  | memory q =>
    have hlength : q.live.entries.length = q.entries.length := List.length_map _
    show Offers _ _ _ (.ok (q.offer d stopped).1, memory (q.offer d stopped).2)
    unfold MemoryQueue.offer
    cases stopped with
    | true => exact .canceled rfl
    | false =>
      rw [if_neg Bool.false_ne_true, ← hlength]
      by_cases hroom : q.live.entries.length < q.capacity
      · rw [if_pos hroom]
        exact .added rfl hroom
      · rw [if_neg hroom]
        exact .full rfl (Nat.not_lt.1 hroom)
  | table q =>
    show Offers _ _ _ ((q.offer d stopped).1, table (q.offer d stopped).2)
    unfold TableQueue.offer TableQueue.onTable
    cases stopped with
    | true => exact .canceled rfl
    | false =>
      rw [if_neg Bool.false_ne_true]
      cases q.missing with
      | true => exact .failed
      | false =>
        simp only [Bool.false_eq_true, if_false, TableQueue.add_eq]
        by_cases hfull : q.capacity ≤ q.live.entries.length
        · rw [if_pos hfull]
          exact .full rfl hfull
        · rw [if_neg hfull]
          exact .added rfl (Nat.not_le.1 hfull)

theorem claim_answers (h : q.Sound) (clock : Clock) (worker : String) :
    Answers (q.live.Claims worker) (ExecutionQueue.claim q clock worker) := by
  cases q with
  | memory q => exact MemoryQueue.claim_spec h clock worker
  | table q =>
    show Answers _ (wrap table (q.onTable _))
    rw [TableQueue.onTable_eq h]
    exact TableQueue.claim_spec h clock worker

theorem complete_answers (h : q.Sound) (clock : Clock) (id : Int) (success : Bool)
    (error : Option String) :
    Answers (LiveQueue.Guarded (q.live.Claimed id) id q.live (q.live.remove id))
      (ExecutionQueue.complete q clock id success error) := by
  cases q with
  | memory q => exact MemoryQueue.complete_spec h id
  | table q =>
    show Answers _ (wrap table (q.onTable _))
    rw [TableQueue.onTable_eq h]
    exact TableQueue.complete_spec h id success error

theorem release_answers (h : q.Sound) (clock : Clock) (id : Int) (error : Option String) :
    Answers (LiveQueue.Guarded (q.live.Claimed id) id q.live (q.live.free (·.id = id)))
      (ExecutionQueue.release q clock id error) := by
  cases q with
  | memory q => exact MemoryQueue.release_spec h id error
  | table q =>
    show Answers _ (wrap table (q.onTable _))
    rw [TableQueue.onTable_eq h]
    exact TableQueue.release_spec h id error

theorem renew_answers (h : q.Sound) (clock : Clock) (id : Int) (worker : String) :
    Answers (LiveQueue.Guarded (q.live.Holds worker id) id q.live q.live)
      (ExecutionQueue.renew q clock id worker) := by
  cases q with
  | memory q => exact MemoryQueue.renew_spec h clock id worker
  | table q =>
    show Answers _ (wrap table (q.onTable _))
    rw [TableQueue.onTable_eq h]
    exact TableQueue.renew_spec h clock id worker

theorem reclaim_answers (h : q.Sound) (clock : Clock) (timeout : Nat) :
    Answers (fun answer live =>
        answer = .ok (q.live.entries.countP (q.stale clock timeout ·.id)) ∧
          live = q.live.free (q.stale clock timeout ·.id))
      (ExecutionQueue.reclaim q clock timeout) := by
  cases q with
  | memory q =>
    obtain ⟨hsound, hcount, hlive⟩ := MemoryQueue.reclaim_spec h clock timeout
    exact ⟨hsound, congrArg Except.ok hcount, hlive⟩
  | table q =>
    obtain ⟨hsound, hcount, hlive⟩ := TableQueue.reclaim_spec h clock timeout
    show Answers _ (wrap table (q.onTable _))
    rw [TableQueue.onTable_eq h]
    exact ⟨hsound, congrArg Except.ok hcount, hlive⟩

theorem depth_answers (h : q.Sound) :
    Answers (fun answer live => answer = .ok q.live.depth ∧ live = q.live)
      (ExecutionQueue.depth q) := by
  cases q with
  | memory q => exact ⟨h, congrArg Except.ok (MemoryQueue.depth_live h), rfl⟩
  | table q =>
    show Answers _ (wrap table (q.onTable _))
    rw [TableQueue.onTable_eq h]
    exact ⟨h, congrArg Except.ok (TableQueue.depth_live h), rfl⟩

end Backend

namespace Faulty

/-- How a call of a queue behind an outage ends.  One that the outage lets fail
leaves the queue as it is. -/
inductive Answers {α : Type} (q : Faulty Backend) (P : Except QueueError α → LiveQueue → Prop) :
    Except QueueError α × Faulty Backend → Prop
  | failed {outage : Outage} (hout : q.outage ≠ {}) :
      Answers q P (.error .poisoned, { q with outage })
  | answered {answer : Except QueueError α} {queue : Backend} (hsound : queue.Sound)
      (h : P answer queue.live) : Answers q P (answer, { q with queue })

variable {q : Faulty Backend}

/-- A call that reaches the queue ends as the queue answers. -/
theorem call_answers {α : Type} {P : Except QueueError α → LiveQueue → Prop} {left : Nat}
    {fewer : Outage} {f : Backend → Except QueueError α × Backend}
    (hleft : q.outage = {} → left = 0) (h : Backend.Answers P (f q.queue)) :
    q.Answers P (q.call left fewer f) := by
  unfold call
  by_cases hzero : left = 0
  · rw [if_pos hzero]
    exact .answered h.1 h.2
  · rw [if_neg hzero]
    exact .failed fun hout => hzero (hleft hout)

theorem offer_answers (h : q.queue.Sound) (clock : Clock) (d : Dispatch) (stopped : Bool) :
    q.Answers (q.queue.live.Offered d stopped) (ExecutionQueue.offer q clock d stopped) :=
  call_answers (fun hout => by rw [hout]) (Backend.offer_answers h clock d stopped)

/-- How an attempt to add an entry can end that may not reach the queue. -/
inductive Offers (q : Faulty Backend) (d : Dispatch) (stopped : Bool) :
    Except QueueError Offer × Faulty Backend → Prop
  | failed {outage : Outage} : Offers q d stopped (.error .poisoned, { q with outage })
  | answered {answer : Except QueueError Offer} {queue : Backend}
      (h : q.queue.Offers d stopped (answer, queue)) :
      Offers q d stopped (answer, { q with queue })

theorem offer_offers (q : Faulty Backend) (clock : Clock) (d : Dispatch) (stopped : Bool) :
    q.Offers d stopped (ExecutionQueue.offer q clock d stopped) := by
  show q.Offers d stopped (q.call _ _ _)
  unfold call
  by_cases hzero : q.outage.offer = 0
  · rw [if_pos hzero]
    exact .answered (q.queue.offer_offers clock d stopped)
  · rw [if_neg hzero]
    exact .failed

/-- An entry gets into a queue that works and has room. -/
theorem offer_room (h : q.queue.Sound) (hcalm : q.outage = {})
    (hroom : q.queue.live.entries.length < q.queue.live.capacity) (clock : Clock) (d : Dispatch) :
    ∃ id queue, ExecutionQueue.offer q clock d false = (.ok (.entry id), queue) ∧
      queue.queue.live = q.queue.live.add d := by
  have hanswers := offer_answers h clock d false
  generalize ExecutionQueue.offer q clock d false = answer at hanswers ⊢
  cases hanswers with
  | failed hout => exact absurd hcalm hout
  | @answered answer queue _ hoffered =>
    generalize hlive : queue.live = live at hoffered
    cases hoffered with
    | added _ _ => exact ⟨_, _, rfl, hlive⟩
    | full _ hfull => exact absurd hroom (Nat.not_lt.2 hfull)
    | canceled hstop => cases hstop

theorem claim_answers (h : q.queue.Sound) (clock : Clock) (worker : String) :
    q.Answers (q.queue.live.Claims worker) (ExecutionQueue.claim q clock worker) :=
  call_answers (fun hout => by rw [hout]) (Backend.claim_answers h clock worker)

theorem complete_answers (h : q.queue.Sound) (clock : Clock) (id : Int) (success : Bool)
    (error : Option String) :
    q.Answers (LiveQueue.Guarded (q.queue.live.Claimed id) id q.queue.live
      (q.queue.live.remove id)) (ExecutionQueue.complete q clock id success error) :=
  call_answers (fun hout => by rw [hout]) (Backend.complete_answers h clock id success error)

theorem release_answers (h : q.queue.Sound) (clock : Clock) (id : Int) (error : Option String) :
    q.Answers (LiveQueue.Guarded (q.queue.live.Claimed id) id q.queue.live
      (q.queue.live.free (·.id = id))) (ExecutionQueue.release q clock id error) :=
  call_answers (fun hout => by rw [hout]) (Backend.release_answers h clock id error)

theorem renew_answers (h : q.queue.Sound) (clock : Clock) (id : Int) (worker : String) :
    q.Answers (LiveQueue.Guarded (q.queue.live.Holds worker id) id q.queue.live q.queue.live)
      (ExecutionQueue.renew q clock id worker) :=
  call_answers (fun hout => by rw [hout]) (Backend.renew_answers h clock id worker)

theorem reclaim_answers (h : q.queue.Sound) (clock : Clock) (timeout : Nat) :
    q.Answers (fun answer live =>
        answer = .ok (q.queue.live.entries.countP (q.queue.stale clock timeout ·.id)) ∧
          live = q.queue.live.free (q.queue.stale clock timeout ·.id))
      (ExecutionQueue.reclaim q clock timeout) :=
  call_answers (fun hout => by rw [hout]) (Backend.reclaim_answers h clock timeout)

theorem depth_answers (h : q.queue.Sound) :
    q.Answers (fun answer live => answer = .ok q.queue.live.depth ∧ live = q.queue.live)
      (ExecutionQueue.depth q) :=
  call_answers (fun hout => by rw [hout]) (Backend.depth_answers h)

end Faulty
end JobGate
