/-
What the history of a queue says about its entries.

An entry has an account: what was enqueued, whether it waits, is claimed or is finished,
how often it was given back, and its last error.  The account is kept by reading the
history from its start (`account`), so it depends on no queue.  `answer` is what a queue
is to answer after a history, and `roll` lists the accounts as a queue would store them.

When a claim is stale is left open (`Staleness`), for the two kinds of queue read
different clocks.
-/
import JobGate.Proofs.Queue.Calls
import JobGate.Queue.Memory
import Mathlib.Data.List.Basic
import Mathlib.Data.List.Find

namespace JobGate

/-- Whether a claim made at the first clock is stale at the second, for some timeout. -/
abbrev Staleness := Clock → Clock → Nat → Bool

namespace QueueHistory

/-- The claim of an entry: who made it, and the clock when it was made or last renewed. -/
structure Lease where
  worker : String
  since : Clock
deriving DecidableEq

inductive Standing
  | waiting
  | claimed (lease : Lease)
  /-- Completed, with the claim that this ended. -/
  | finished (success : Bool) (lease : Option Lease)
deriving DecidableEq

namespace Standing

def isWaiting : Standing → Bool
  | waiting => true
  | claimed _ | finished _ _ => false

def holder? : Standing → Option String
  | claimed lease => some lease.worker
  | waiting | finished _ _ => none

def isLive : Standing → Bool
  | waiting | claimed _ => true
  | finished _ _ => false

def lease? : Standing → Option Lease
  | waiting => none
  | claimed lease => some lease
  | finished _ lease => lease

end Standing

/-- What is known of an entry.  `returns` counts the releases and reclaims of it. -/
structure Account where
  dispatch : Dispatch
  standing : Standing := .waiting
  returns : Nat := 0
  lastError : Option String := none
deriving DecidableEq

namespace Account

def claim (lease : Lease) (a : Account) : Account := { a with standing := .claimed lease }

def finish (success : Bool) (error : Option String) (a : Account) : Account :=
  { a with standing := .finished success a.standing.lease?, lastError := error }

def giveBack (error : Option String) (a : Account) : Account :=
  { a with standing := .waiting, returns := a.returns + 1, lastError := error }

def renew (clock : Clock) (a : Account) : Account :=
  match a.standing with
  | .claimed lease => { a with standing := .claimed { lease with since := clock } }
  | .waiting | .finished _ _ => a

def isStale (old : Staleness) (clock : Clock) (timeout : Nat) (a : Account) : Bool :=
  match a.standing with
  | .claimed lease => old lease.since clock timeout
  | .waiting | .finished _ _ => false

end Account

def given? (e : QueueEvent) : Option Int :=
  match e.op, e.answer with
  | .offer _ _, .offered (.ok (.entry id)) => some id
  | _, _ => none

def next (old : Staleness) (id : Int) (a : Option Account) (e : QueueEvent) : Option Account :=
  match e.op, e.answer with
  | .offer d _, .offered (.ok (.entry i)) => if i = id then some { dispatch := d } else a
  | .claim worker, .claimed (.ok (some d)) =>
    if d.id = id then a.map (·.claim ⟨worker, e.clock⟩) else a
  | .complete i success error, .settled (.ok ()) =>
    if i = id then a.map (·.finish success error) else a
  | .release i error, .settled (.ok ()) => if i = id then a.map (·.giveBack error) else a
  | .renew i _, .settled (.ok ()) => if i = id then a.map (·.renew e.clock) else a
  | .reclaim timeout, .reclaimed (.ok _) =>
    a.map fun a => if a.isStale old e.clock timeout then a.giveBack (some reclaimMessage) else a
  | _, _ => a

section
variable (old : Staleness) (h : List QueueEvent)

def ids : List Int := h.filterMap given?

def account (id : Int) : Option Account := h.foldl (next old id) none

def waits (id : Int) : Bool := (account old h id).any (·.standing.isWaiting)

def holder? (id : Int) : Option String := (account old h id).bind (·.standing.holder?)

def isClaimed (id : Int) : Bool := (holder? old h id).isSome

def isLive (id : Int) : Bool := (account old h id).any (·.standing.isLive)

def isStale (clock : Clock) (timeout : Nat) (id : Int) : Bool :=
  (account old h id).any (·.isStale old clock timeout)

def returns (id : Int) : Nat := ((account old h id).map (·.returns)).getD 0

def handedOut (id : Int) : Option QueuedDispatch :=
  (account old h id).map fun a =>
    ⟨id, a.dispatch.run, a.dispatch.jobKey, min a.returns MemoryQueue.maxAttempts⟩

def answer (capacity : Nat) (c : QueueCall) : QueueAnswer :=
  match c.op with
  | .offer _ stopped =>
    .offered <| .ok <|
      if stopped then .canceled
      else if (ids h).countP (isLive old h) < max capacity 1 then .entry ((ids h).length + 1)
      else .full
  | .claim _ => .claimed (.ok (((ids h).find? (waits old h)).bind (handedOut old h)))
  | .complete id _ _ | .release id _ =>
    .settled (if isClaimed old h id then .ok () else .error (.notClaimed id))
  | .renew id worker =>
    .settled (if holder? old h id = some worker then .ok () else .error (.notClaimed id))
  | .reclaim timeout => .reclaimed (.ok ((ids h).countP (isStale old h c.clock timeout)))
  | .depth => .counted (.ok ⟨(ids h).countP (waits old h), (ids h).countP (isClaimed old h)⟩)

/-- The accounts as a queue would store them. -/
def roll {α : Type} (view : Int → Account → Option α) : List α :=
  (ids h).filterMap fun id => (account old h id).bind (view id)

/-- Entries are numbered from one in the order in which they came. -/
def Numbered : Prop := ids h = (List.range (ids h).length).map fun n : Nat => (n : Int) + 1

end

variable {old : Staleness} {h : List QueueEvent} {e : QueueEvent} {id : Int}

@[simp] theorem ids_concat : ids (h ++ [e]) = ids h ++ (given? e).toList := by
  rw [ids, List.filterMap_append]
  cases hgiven : given? e <;> simp [ids, hgiven]

theorem account_concat : account old (h ++ [e]) id = next old id (account old h id) e :=
  List.foldl_append ..

theorem next_isSome {a : Option Account} :
    (next old id a e).isSome = true ↔ a.isSome = true ∨ given? e = some id := by
  fun_cases next old id a e <;> simp_all [given?]

/-- The entries with an account are those whose identifiers were given out. -/
theorem account_isSome : (account old h id).isSome = true ↔ id ∈ ids h := by
  induction h using List.reverseRecOn with
  | nil => exact ⟨fun hsome => (by cases hsome), fun hmem => absurd hmem List.not_mem_nil⟩
  | append_singleton h e ih =>
    rw [account_concat, next_isSome, ih, ids_concat, List.mem_append, Option.mem_toList]

theorem mem_ids_of_account {a : Account} (ha : account old h id = some a) : id ∈ ids h :=
  account_isSome.1 (by rw [ha]; rfl)

theorem waits_iff : waits old h id = true ↔
    ∃ a, account old h id = some a ∧ a.standing = .waiting := by
  unfold waits
  cases account old h id with
  | none => simp
  | some a => cases hs : a.standing <;> simp [Standing.isWaiting, hs]

theorem holder?_iff {worker : String} : holder? old h id = some worker ↔
    ∃ a since, account old h id = some a ∧ a.standing = .claimed ⟨worker, since⟩ := by
  unfold holder?
  cases account old h id with
  | none => simp
  | some a =>
    cases hs : a.standing with
    | waiting | finished _ _ => simp [Standing.holder?, hs]
    | claimed lease => cases lease; simp [Standing.holder?, hs]

theorem isClaimed_iff : isClaimed old h id = true ↔
    ∃ a lease, account old h id = some a ∧ a.standing = .claimed lease := by
  rw [isClaimed, Option.isSome_iff_exists]
  constructor
  · rintro ⟨worker, hw⟩
    obtain ⟨a, since, ha⟩ := holder?_iff.1 hw
    exact ⟨a, _, ha⟩
  · rintro ⟨a, ⟨worker, since⟩, ha⟩
    exact ⟨worker, holder?_iff.2 ⟨a, since, ha⟩⟩

theorem ids_of_given_none (hgiven : given? e = none) : ids (h ++ [e]) = ids h := by
  rw [ids_concat, hgiven, Option.toList_none, List.append_nil]

namespace Numbered

theorem concat (hh : Numbered h) (hgiven : given? e = none) : Numbered (h ++ [e]) := by
  unfold Numbered
  rw [ids_of_given_none hgiven]
  exact hh

theorem add (hh : Numbered h) (hgiven : given? e = some ((ids h).length + 1 : Int)) :
    Numbered (h ++ [e]) := by
  unfold Numbered
  rw [ids_concat, hgiven, Option.toList_some, List.length_append, List.length_singleton,
    List.range_succ, List.map_append, ← hh]
  rfl

theorem mem_iff (hh : Numbered h) : id ∈ ids h ↔ 1 ≤ id ∧ id ≤ (ids h).length := by
  constructor
  · intro hid
    rw [hh] at hid
    obtain ⟨n, hn, rfl⟩ := List.mem_map.1 hid
    have := List.mem_range.1 hn
    omega
  · rintro ⟨hone, hle⟩
    rw [hh]
    exact List.mem_map.2 ⟨(id - 1).toNat, List.mem_range.2 (by omega), by omega⟩

theorem ascending (hh : Numbered h) : (ids h).Pairwise (· < ·) := by
  rw [hh]
  refine List.pairwise_map.2 (List.pairwise_lt_range.imp fun hlt => ?_)
  omega

end Numbered

/-! ## Stored accounts -/

section
variable {α : Type} {view : Int → Account → Option α} {key : α → Int}

theorem mem_roll {x : α} : x ∈ roll old h view ↔
    ∃ id a, account old h id = some a ∧ view id a = some x := by
  simp only [roll, List.mem_filterMap, Option.bind_eq_some_iff]
  constructor
  · rintro ⟨id, -, a, ha, hx⟩
    exact ⟨id, a, ha, hx⟩
  · rintro ⟨id, a, ha, hx⟩
    exact ⟨id, mem_ids_of_account ha, a, ha, hx⟩

theorem find?_roll (hkey : ∀ i a x, view i a = some x → key x = i) :
    (roll old h view).find? (key · = id) = (account old h id).bind (view id) := by
  cases hstored : (account old h id).bind (view id) with
  | none =>
    refine List.find?_eq_none.2 fun x hx hid => ?_
    obtain ⟨i, a, ha, hview⟩ := mem_roll.1 hx
    have hi : i = id := (hkey i a x hview).symm.trans (of_decide_eq_true hid)
    rw [hi] at ha hview
    rw [ha, Option.bind_some, hview] at hstored
    cases hstored
  | some x =>
    obtain ⟨a, ha, hview⟩ := Option.bind_eq_some_iff.1 hstored
    cases hfind : (roll old h view).find? (key · = id) with
    | none =>
      exact absurd (decide_eq_true (hkey id a x hview))
        (List.find?_eq_none.1 hfind x (mem_roll.2 ⟨id, a, ha, hview⟩))
    | some y =>
      obtain ⟨i, b, hb, hy⟩ := mem_roll.1 (List.mem_of_find?_eq_some hfind)
      have hi : i = id := (hkey i b y hy).symm.trans (by simpa using List.find?_some hfind)
      rw [hi, ha] at hb
      rw [hi, ← Option.some.inj hb, hview] at hy
      exact hy.symm

/-- The oldest stored entry of a kind is that of the oldest identifier of that kind. -/
theorem find?_roll_first {p : α → Bool} {kind : Int → Bool}
    (hp : ∀ i ∈ ids h, ((account old h i).bind (view i)).any p = kind i) :
    (roll old h view).find? p = ((ids h).find? kind).bind fun i =>
      (account old h i).bind (view i) := by
  rw [roll, List.find?_filterMap]
  congr 1
  exact List.find?_congr hp

theorem countP_roll {p : α → Bool} {kind : Int → Bool}
    (hp : ∀ i ∈ ids h, ((account old h i).bind (view i)).any p = kind i) :
    (roll old h view).countP p = (ids h).countP kind := by
  rw [roll, List.countP_filterMap]
  refine List.countP_congr fun i hi => ?_
  rw [← hp i hi]
  cases (account old h i).bind (view i) <;> rfl

/-- Nothing happened to any entry. -/
theorem roll_idle (hgiven : given? e = none) (hnext : ∀ i a, next old i a e = a) :
    roll old (h ++ [e]) view = roll old h view := by
  simp only [roll, ids_of_given_none hgiven, account_concat, hnext]

theorem roll_add {a : Account} (hgiven : given? e = some id) (hnew : id ∉ ids h)
    (hnext : ∀ i b, next old i b e = if id = i then some a else b) :
    roll old (h ++ [e]) view = roll old h view ++ (view id a).toList := by
  simp only [roll, ids_concat, hgiven, Option.toList_some, List.filterMap_append, account_concat,
    hnext]
  congr 1
  · refine List.filterMap_congr fun i hi => ?_
    rw [if_neg fun heq : id = i => hnew (heq ▸ hi)]
  · cases hview : view id a <;> simp [hview]

/-- The same happened to every entry. -/
theorem roll_sweep {g : Account → Account} {f : α → α} (hgiven : given? e = none)
    (hnext : ∀ i a, next old i a e = a.map g)
    (hview : ∀ i a, account old h i = some a → view i (g a) = (view i a).map f) :
    roll old (h ++ [e]) view = (roll old h view).map f := by
  simp only [roll, ids_of_given_none hgiven, account_concat, hnext, List.map_filterMap]
  refine List.filterMap_congr fun i _ => ?_
  cases ha : account old h i with
  | none => rfl
  | some a => exact hview i a ha

/-- Something happened to one entry, which is still stored. -/
theorem roll_update {g : Account → Account} {f : α → α}
    (hkey : ∀ i a x, view i a = some x → key x = i) (hgiven : given? e = none)
    (hnext : ∀ i a, next old i a e = if id = i then a.map g else a)
    (hview : ∀ a, account old h id = some a → view id (g a) = (view id a).map f) :
    roll old (h ++ [e]) view =
      (roll old h view).map fun x => if key x = id then f x else x := by
  simp only [roll, ids_of_given_none hgiven, account_concat, hnext, List.map_filterMap]
  refine List.filterMap_congr fun i _ => ?_
  cases ha : account old h i with
  | none => split <;> rfl
  | some a =>
    by_cases hi : id = i
    · subst hi
      rw [if_pos rfl, Option.map_some, Option.bind_some, Option.bind_some, hview a ha]
      exact Option.map_congr fun x hx => by rw [if_pos (hkey _ _ _ hx)]
    · rw [if_neg hi, Option.bind_some]
      cases hx : view i a with
      | none => rfl
      | some x => rw [Option.map_some, hkey _ _ _ hx, if_neg (Ne.symm hi)]

/-- Something happened to one entry, which is no longer stored. -/
theorem roll_remove {g : Account → Account}
    (hkey : ∀ i a x, view i a = some x → key x = i) (hgiven : given? e = none)
    (hnext : ∀ i a, next old i a e = if id = i then a.map g else a)
    (hview : ∀ a, account old h id = some a → view id (g a) = none) :
    roll old (h ++ [e]) view = (roll old h view).filter (key · ≠ id) := by
  simp only [roll, ids_of_given_none hgiven, account_concat, hnext, List.filter_filterMap]
  refine List.filterMap_congr fun i _ => ?_
  cases ha : account old h i with
  | none => split <;> rfl
  | some a =>
    by_cases hi : id = i
    · subst hi
      rw [if_pos rfl, Option.map_some, Option.bind_some, Option.bind_some, hview a ha]
      cases hx : view id a with
      | none => rfl
      | some x => rw [Option.filter_some, hkey _ _ _ hx]; simp
    · rw [if_neg hi, Option.bind_some]
      cases hx : view i a with
      | none => rfl
      | some x => rw [Option.filter_some, hkey _ _ _ hx]; simp [Ne.symm hi]

end

end QueueHistory
end JobGate
