/-
The queue in memory hands out its entries in order and to one worker at a time.

`HandsOut` is what its users rely on, told by the history of its calls alone: whom a
claim gets, what ends a claim, and when an entry may come again.  The queue follows its
history, so each part is a fact about histories that were answered as they should be.
-/
import JobGate.Proofs.Queue.Answered
import JobGate.Proofs.Queue.MemoryHistory
import Mathlib.Data.Set.Card
import Mathlib.Order.Bounds.Basic

namespace JobGate
namespace QueueHistory

/-- Enqueued, and neither completed nor claimed at the end of the history. -/
structure Outstanding (old : Staleness) (h : List QueueEvent) (id : Int) : Prop where
  enqueued : id ∈ ids h
  unfinished : ∀ e ∈ h, completes id e = false
  unclaimed : ∀ worker, ¬ Held old h id worker

/-- A call that is to end or renew a claim succeeds under a condition and is refused
otherwise. -/
inductive Settles (allowed : Prop) (id : Int) : Except QueueError Unit → Prop
  | done (h : allowed) : Settles allowed id (.ok ())
  | notClaimed (h : ¬ allowed) : Settles allowed id (.error (.notClaimed id))

variable {old : Staleness} {capacity : Nat} {h : List QueueEvent} {id : Int}

/-- The first element of an ascending list that has a property is the least number that
has it, when the list holds all that have it. -/
theorem find?_eq_some_iff_isLeast {l : List Int} (hl : l.Pairwise (· < ·)) {p : Int → Bool}
    (hp : ∀ i, p i = true → i ∈ l) {i : Int} :
    l.find? p = some i ↔ IsLeast {j | p j = true} i := by
  have hleast : ∀ i, l.find? p = some i → IsLeast {j | p j = true} i := by
    intro i hi
    refine ⟨List.find?_some hi, fun j hj => ?_⟩
    obtain ⟨-, before, rest, heq, hbefore⟩ := List.find?_eq_some_iff_append.1 hi
    have hmem := hp j hj
    rw [heq] at hmem hl
    rcases List.mem_append.1 hmem with hmem | hmem
    · have hnot := hbefore j hmem
      rw [show p j = true from hj] at hnot
      cases hnot
    · rcases List.mem_cons.1 hmem with rfl | hmem
      · exact Int.le_refl j
      · have hlt := (List.pairwise_cons.1 (List.pairwise_append.1 hl).2.1).1 j hmem
        exact Int.le_of_lt hlt
  refine ⟨hleast i, fun hi => ?_⟩
  cases hfind : l.find? p with
  | none => exact absurd hi.1 (List.find?_eq_none.1 hfind i (hp i hi.1))
  | some j => rw [(hleast j hfind).unique hi]

theorem ncard_eq_countP {l : List Int} (hl : l.Nodup) {p : Int → Bool}
    (hp : ∀ i, p i = true → i ∈ l) : {i | p i = true}.ncard = l.countP p := by
  have hset : {i | p i = true} = ((l.filter p).toFinset : Set Int) := by
    ext i
    simpa using hp i
  rw [hset, Set.ncard_coe_finset, List.toFinset_card_of_nodup (hl.filter p),
    List.countP_eq_length_filter]

theorem Settles.of_iff {allowed c : Prop} [Decidable c] {result : Except QueueError Unit}
    (hc : c ↔ allowed) (hresult : result = if c then .ok () else .error (.notClaimed id)) :
    Settles allowed id result := by
  subst hresult
  by_cases h : c
  · rw [if_pos h]
    exact .done (hc.1 h)
  · rw [if_neg h]
    exact .notClaimed fun hallowed => h (hc.2 hallowed)

theorem mem_ids_of_waits (hid : waits old h id = true) : id ∈ ids h := by
  obtain ⟨a, ha, -⟩ := waits_iff.1 hid
  exact mem_ids_of_account ha

theorem mem_ids_of_claimed (hid : isClaimed old h id = true) : id ∈ ids h := by
  obtain ⟨a, -, ha, -⟩ := isClaimed_iff.1 hid
  exact mem_ids_of_account ha

theorem mem_ids_of_stale {clock : Clock} {timeout : Nat}
    (hid : isStale old h clock timeout id = true) : id ∈ ids h := by
  obtain ⟨a, ha, -⟩ := (Option.any_eq_true _ _).1 hid
  exact mem_ids_of_account ha

namespace Answered

/-- The entries that wait are the outstanding ones. -/
theorem waits_iff (hh : Answered old capacity h) (id : Int) :
    waits old h id = true ↔ Outstanding old h id := by
  have hcompleted := hh.any_completes id
  constructor
  · intro hwaits
    obtain ⟨a, ha, hwaiting⟩ := QueueHistory.waits_iff.1 hwaits
    refine ⟨mem_ids_of_account ha, fun e he => ?_, fun worker hheld => ?_⟩
    · rw [ha, Option.any_some, hwaiting] at hcompleted
      simpa using List.any_eq_false.1 hcompleted e he
    · have hholder := (hh.holder?_iff id worker).2 hheld
      rw [holder?, ha, Option.bind_some, hwaiting] at hholder
      cases hholder
  · rintro ⟨hid, hunfinished, hunclaimed⟩
    obtain ⟨a, ha⟩ := Option.isSome_iff_exists.1 (account_isSome.2 hid)
    rw [ha, Option.any_some, List.any_eq_false.2 fun e he => by simp [hunfinished e he]]
      at hcompleted
    cases hs : a.standing with
    | waiting => exact QueueHistory.waits_iff.2 ⟨a, ha, hs⟩
    | claimed lease =>
      obtain ⟨worker, hheld⟩ :=
        (hh.isClaimed_iff id).1 (QueueHistory.isClaimed_iff.2 ⟨a, lease, ha, hs⟩)
      exact absurd hheld (hunclaimed worker)
    | finished success lease => simp [hs, Standing.isLive] at hcompleted

theorem setOf_outstanding (hh : Answered old capacity h) :
    {id | Outstanding old h id} = {id | waits old h id = true} :=
  Set.ext fun id => (hh.waits_iff id).symm

theorem setOf_held (hh : Answered old capacity h) :
    {id | ∃ worker, Held old h id worker} = {id | isClaimed old h id = true} :=
  Set.ext fun id => (hh.isClaimed_iff id).symm

theorem ids_nodup (hh : Answered old capacity h) : (ids h).Nodup :=
  hh.numbered.ascending.imp fun hlt => Int.ne_of_lt hlt

/-- The entry that is handed out is the least outstanding one, as it was enqueued, with the
number of times that it was given back. -/
theorem handedOut_iff (hh : Answered old capacity h) (d : QueuedDispatch) :
    ((ids h).find? (waits old h)).bind (handedOut old h) = some d ↔
      IsLeast {id | Outstanding old h id} d.id ∧
        (∃ clock, ⟨⟨clock, .offer d.dispatch false⟩, .offered (.ok (.entry d.id))⟩ ∈ h) ∧
        d.attempts = min (returns old h d.id) MemoryQueue.maxAttempts := by
  rw [hh.setOf_outstanding,
    ← find?_eq_some_iff_isLeast hh.numbered.ascending fun _ => mem_ids_of_waits,
    ← hh.dispatch_iff d.id d.dispatch]
  constructor
  · intro hd
    obtain ⟨i, hfirst, hi⟩ := Option.bind_eq_some_iff.1 hd
    obtain ⟨a, ha, rfl⟩ := Option.map_eq_some_iff.1 hi
    refine ⟨hfirst, by rw [ha]; rfl, ?_⟩
    simp only [returns, ha, Option.map_some, Option.getD_some]
  · rintro ⟨hfirst, hdispatch, hattempts⟩
    obtain ⟨a, ha, hd⟩ := Option.map_eq_some_iff.1 hdispatch
    rw [hfirst, Option.bind_some, handedOut, ha, Option.map_some]
    simp only [returns, ha, Option.map_some, Option.getD_some] at hattempts
    obtain ⟨id, run, jobKey, attempts⟩ := d
    simp only [hd, ← hattempts, QueuedDispatch.dispatch]

theorem no_handedOut_iff (hh : Answered old capacity h) :
    ((ids h).find? (waits old h)).bind (handedOut old h) = none ↔
      ∀ id, ¬ Outstanding old h id := by
  cases hfirst : (ids h).find? (waits old h) with
  | none =>
    refine ⟨fun _ id hid => ?_, fun _ => rfl⟩
    have hwaits := (hh.waits_iff id).2 hid
    exact List.find?_eq_none.1 hfirst id (mem_ids_of_waits hwaits) hwaits
  | some i =>
    have hwaits := List.find?_some hfirst
    obtain ⟨a, ha, -⟩ := QueueHistory.waits_iff.1 hwaits
    refine ⟨fun hnone => ?_, fun hall => absurd ((hh.waits_iff i).1 hwaits) (hall i)⟩
    rw [Option.bind_some, handedOut, ha] at hnone
    cases hnone

/-- Between two claims that hand out one entry there is an event that gives it back. -/
theorem given_back_between (hh : Answered old capacity h) {before mid rest : List QueueEvent}
    {first second : QueueEvent} (hsplit : h = before ++ first :: (mid ++ second :: rest))
    (hfirst : hands id first = true) (hsecond : hands id second = true) :
    ∃ mid₁ e mid₂, mid = mid₁ ++ e :: mid₂ ∧
      givesBack old (before ++ first :: mid₁) id e = true := by
  by_contra hnone
  push Not at hnone
  -- the first claim leaves the entry not waiting, and so it is found by the second
  have hsplit' : h = (before ++ [first]) ++ mid ++ [second] ++ rest := by simp [hsplit]
  rw [hsplit'] at hh
  have hsecondTurn := (hh.of_append.turn_of_concat id).of_hands hsecond
  have hfirstTurn := (hh.of_append.of_append.of_append.turn_of_concat id).of_hands hfirst
  have hstays := hh.of_append.of_append.not_waiting hfirstTurn.2 fun mid₁ e mid₂ hmid => by
    simpa using hnone mid₁ e mid₂ hmid
  obtain ⟨a, ha, hwaiting⟩ := (Option.any_eq_true _ _).1 hsecondTurn.1
  rw [ha, Option.any_some, hwaiting] at hstays
  cases hstays

/-- An entry that is completed is never handed out again, and no call settles it again. -/
theorem completed_for_good (hh : Answered old capacity h) {before rest : List QueueEvent}
    {e : QueueEvent} (hsplit : h = before ++ e :: rest) (hcompletes : completes id e = true)
    {x : QueueEvent} (hx : x ∈ rest) :
    hands id x = false ∧
      (x.op.settles? = some id → x.answer = .settled (.error (.notClaimed id))) := by
  obtain ⟨mid, rest, rfl⟩ := List.append_of_mem hx
  have hsplit' : h = (before ++ [e]) ++ mid ++ [x] ++ rest := by simp [hsplit]
  have hanswer := hh ((before ++ [e]) ++ mid) x rest (by simp [hsplit])
  rw [hsplit'] at hh
  have hfinished : (account old (before ++ [e]) id).any (!·.standing.isLive) = true := by
    rw [← hh.of_append.of_append.of_append.any_completes id]
    simp [hcompletes]
  have hlater : (account old ((before ++ [e]) ++ mid) id).any (!·.standing.isLive) = true := by
    rwa [hh.of_append.of_append.finished_stays hfinished]
  refine ⟨((hh.of_append.turn_of_concat id).idle hlater).2, fun hsettles => ?_⟩
  have hholder : holder? old ((before ++ [e]) ++ mid) id = none := by
    obtain ⟨a, ha, hlive⟩ := (Option.any_eq_true _ _).1 hlater
    cases hs : a.standing with
    | waiting | claimed lease => simp [hs, Standing.isLive] at hlive
    | finished success lease =>
      simp only [holder?, ha, Option.bind_some, hs, Standing.holder?]
  rw [hanswer]
  obtain ⟨⟨clock, op⟩, result⟩ := x
  cases op with
  | complete i _ _ | release i _ | renew i _ =>
    cases hsettles
    simp only [answer, isClaimed, hholder, Option.isSome_none, Bool.false_eq_true, reduceCtorEq,
      if_false]
  | offer _ _ | claim _ | reclaim _ | depth => cases hsettles

end Answered

end QueueHistory

namespace MemoryQueue

open QueueHistory
open ExecutionQueue (after history)

/-- What a queue does for those who use it, by the history of its calls. -/
structure HandsOut (q : MemoryQueue) (h : List QueueEvent) : Prop where
  /-- A claim gets the oldest outstanding entry as it was enqueued, with the number of times
  that it was released or taken back. -/
  claims : ∀ clock worker d, (ExecutionQueue.claim q clock worker).1 = .ok (some d) ↔
    IsLeast {id | Outstanding isOld h id} d.id ∧
      (∃ clock, ⟨⟨clock, .offer d.dispatch false⟩, .offered (.ok (.entry d.id))⟩ ∈ h) ∧
      d.attempts = min (returns isOld h d.id) maxAttempts
  /-- A claim gets nothing exactly when no entry is outstanding. -/
  nothing : ∀ clock worker, (ExecutionQueue.claim q clock worker).1 = .ok none ↔
    ∀ id, ¬ Outstanding isOld h id
  /-- An entry that is handed out twice was given back in between. -/
  exclusive : ∀ id before first mid second rest, h = before ++ first :: (mid ++ second :: rest) →
    hands id first = true → hands id second = true →
    ∃ mid₁ e mid₂, mid = mid₁ ++ e :: mid₂ ∧
      givesBack isOld (before ++ first :: mid₁) id e = true
  /-- What is completed stays so. -/
  final : ∀ id before e rest, h = before ++ e :: rest → completes id e = true → ∀ x ∈ rest,
    hands id x = false ∧
      (x.op.settles? = some id → x.answer = .settled (.error (.notClaimed id)))
  completes : ∀ clock id success error, Settles (∃ worker, Held isOld h id worker) id
    (ExecutionQueue.complete q clock id success error).1
  releases : ∀ clock id error, Settles (∃ worker, Held isOld h id worker) id
    (ExecutionQueue.release q clock id error).1
  renews : ∀ clock id worker, Settles (Held isOld h id worker) id
    (ExecutionQueue.renew q clock id worker).1
  reclaims : ∀ clock timeout, (ExecutionQueue.reclaim q clock timeout).1 =
    .ok {id | QueueHistory.isStale isOld h clock timeout id = true}.ncard
  counts : (ExecutionQueue.depth q).1 = .ok
    ⟨{id | Outstanding isOld h id}.ncard, {id | ∃ worker, Held isOld h id worker}.ncard⟩

/-- Work is handed out in order, to one worker at a time, without loss or duplication. -/
theorem hands_out_in_order (capacity : Nat) (calls : List QueueCall) :
    (after (new capacity) calls).HandsOut (history (new capacity) calls) := by
  have hq := follows_history capacity calls
  have hh := history_answered capacity calls
  generalize after (new capacity) calls = q at hq
  generalize history (new capacity) calls = h at hq hh
  have hclaim : ∀ clock worker, (ExecutionQueue.claim q clock worker).1 =
      .ok (((ids h).find? (waits isOld h)).bind (handedOut isOld h)) := fun clock worker =>
    QueueAnswer.claimed.inj (hq.continues ⟨clock, .claim worker⟩).answer
  exact {
    claims := fun clock worker d => by
      rw [hclaim, Except.ok.injEq]
      exact hh.handedOut_iff d
    nothing := fun clock worker => by
      rw [hclaim, Except.ok.injEq]
      exact hh.no_handedOut_iff
    exclusive := fun _ _ _ _ _ _ hsplit => hh.given_back_between hsplit
    final := fun _ _ _ _ hsplit hcompletes _ hx => hh.completed_for_good hsplit hcompletes hx
    completes := fun clock id success error => .of_iff (hh.isClaimed_iff id) <|
      QueueAnswer.settled.inj (hq.continues ⟨clock, .complete id success error⟩).answer
    releases := fun clock id error => .of_iff (hh.isClaimed_iff id) <|
      QueueAnswer.settled.inj (hq.continues ⟨clock, .release id error⟩).answer
    renews := fun clock id worker => .of_iff (hh.holder?_iff id worker) <|
      QueueAnswer.settled.inj (hq.continues ⟨clock, .renew id worker⟩).answer
    reclaims := fun clock timeout => by
      rw [ncard_eq_countP hh.ids_nodup fun _ => mem_ids_of_stale]
      exact QueueAnswer.reclaimed.inj (hq.continues ⟨clock, .reclaim timeout⟩).answer
    counts := by
      rw [hh.setOf_outstanding, hh.setOf_held,
        ncard_eq_countP hh.ids_nodup fun _ => mem_ids_of_waits,
        ncard_eq_countP hh.ids_nodup fun _ => mem_ids_of_claimed]
      exact QueueAnswer.counted.inj (hq.continues ⟨default, .depth⟩).answer }

end MemoryQueue
end JobGate
