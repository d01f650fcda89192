/-
What was done to an entry, and what is to be seen of it afterwards.

A `Deed` is what an event did to one entry: it was enqueued, claimed, released, reclaimed or
completed.  A call that failed did nothing, and to renew a claim is no deed.  What is known of an
entry follows from its deeds in a plain way (`visible`): the last one says where it stands, and
the last of those that leave an error, or leave that there is none, says what its last error is.
-/
import JobGate.Proofs.Queue.Recovery

namespace JobGate
namespace QueueHistory

inductive Deed
  | enqueued
  | claimed
  | released (error : Option String)
  | reclaimed
  | completed (success : Bool) (error : Option String)
deriving DecidableEq

namespace Deed

def status : Deed → RowStatus
  | enqueued | released _ | reclaimed => .pending
  | claimed => .claimed
  | completed success _ => if success then .succeeded else .failed

/-- The last error that a deed leaves, which may be that there is none.  Some deeds leave the
one from before. -/
def error? : Deed → Option (Option String)
  | enqueued | claimed => none
  | released error | completed _ error => some error
  | reclaimed => some (some reclaimMessage)

end Deed

def deed? (old : Staleness) (h : List QueueEvent) (id : Int) (e : QueueEvent) : Option Deed :=
  match e.op, e.answer with
  | .offer _ _, .offered (.ok (.entry i)) => if i = id then some .enqueued else none
  | .claim _, .claimed (.ok (some d)) => if d.id = id then some .claimed else none
  | .complete i success error, .settled (.ok ()) =>
    if i = id then some (.completed success error) else none
  | .release i error, .settled (.ok ()) => if i = id then some (.released error) else none
  | .reclaim timeout, .reclaimed (.ok _) =>
    if isStale old h e.clock timeout id then some .reclaimed else none
  | _, _ => none

def deedsFrom (old : Staleness) (id : Int) : List QueueEvent → List QueueEvent → List Deed
  | _, [] => []
  | before, e :: rest => (deed? old before id e).toList ++ deedsFrom old id (before ++ [e]) rest

def deeds (old : Staleness) (h : List QueueEvent) (id : Int) : List Deed := deedsFrom old id [] h

/-- What is to be seen of an entry: where it stands, and its last error.  Nothing was ever done
to an entry that is not there. -/
def visible (deeds : List Deed) : Option (RowStatus × Option String) :=
  deeds.getLast?.map fun last => (last.status, (deeds.filterMap Deed.error?).getLast?.join)

variable {old : Staleness} {h : List QueueEvent} {e : QueueEvent} {id : Int}

theorem deedsFrom_append (before rest rest' : List QueueEvent) :
    deedsFrom old id before (rest ++ rest') =
      deedsFrom old id before rest ++ deedsFrom old id (before ++ rest) rest' := by
  induction rest generalizing before with
  | nil => rw [List.nil_append, List.append_nil]; rfl
  | cons e rest ih =>
    simp only [List.cons_append, deedsFrom, ih, List.append_assoc, List.nil_append]

theorem deeds_concat :
    deeds old (h ++ [e]) id = deeds old h id ++ (deed? old h id e).toList := by
  rw [deeds, deedsFrom_append]
  exact congrArg _ (List.append_nil _)

section
variable {clock : Clock} {deed : Deed}

theorem deed?_offer {d : Dispatch} {stopped : Bool} {answer : Except QueueError Offer} :
    deed? old h id ⟨⟨clock, .offer d stopped⟩, .offered answer⟩ = some deed ↔
      answer = .ok (.entry id) ∧ deed = .enqueued := by
  match answer with
  | .ok (.entry i) => simp [deed?, eq_comm]
  | .ok .canceled | .ok .full | .error _ => simp [deed?]

theorem deed?_claim {worker : String} {answer : Except QueueError (Option QueuedDispatch)} :
    deed? old h id ⟨⟨clock, .claim worker⟩, .claimed answer⟩ = some deed ↔
      (∃ d, answer = .ok (some d) ∧ d.id = id) ∧ deed = .claimed := by
  match answer with
  | .ok (some d) => simp [deed?, eq_comm]
  | .ok none | .error _ => simp [deed?]

theorem deed?_complete {i : Int} {success : Bool} {error : Option String}
    {answer : Except QueueError Unit} :
    deed? old h id ⟨⟨clock, .complete i success error⟩, .settled answer⟩ = some deed ↔
      answer = .ok () ∧ i = id ∧ deed = .completed success error := by
  match answer with
  | .ok () => simp [deed?, eq_comm]
  | .error _ => simp [deed?]

theorem deed?_release {i : Int} {error : Option String} {answer : Except QueueError Unit} :
    deed? old h id ⟨⟨clock, .release i error⟩, .settled answer⟩ = some deed ↔
      answer = .ok () ∧ i = id ∧ deed = .released error := by
  match answer with
  | .ok () => simp [deed?, eq_comm]
  | .error _ => simp [deed?]

theorem deed?_reclaim {timeout : Nat} {answer : Except QueueError Nat} :
    deed? old h id ⟨⟨clock, .reclaim timeout⟩, .reclaimed answer⟩ = some deed ↔
      (∃ n, answer = .ok n) ∧ isStale old h clock timeout id = true ∧ deed = .reclaimed := by
  match answer with
  | .ok n => cases hstale : isStale old h clock timeout id <;> simp [deed?, hstale, eq_comm]
  | .error _ => simp [deed?]

end

theorem visible_concat (ds : List Deed) (d : Deed) :
    visible (ds ++ [d]) = some (d.status, d.error?.getD ((visible ds).bind (·.2))) := by
  have hbefore : (visible ds).bind (·.2) = (ds.filterMap Deed.error?).getLast?.join := by
    unfold visible
    rcases List.eq_nil_or_concat ds with rfl | ⟨ds, x, rfl⟩
    · rfl
    · rw [List.concat_eq_append, List.getLast?_concat]
      rfl
  rw [hbefore, visible, List.getLast?_concat, List.filterMap_append]
  cases herror : d.error? with
  | none => simp [herror]
  | some error => simp [herror]

/-! ## Accounts -/

/-- What an account says of its entry to those who only see a row of it. -/
def Account.view (a : Account) : RowStatus × Option String :=
  (TableQueue.statusOf a.standing, a.lastError)

theorem Account.view_finish (success : Bool) (error : Option String) (a : Account) :
    (a.finish success error).view = ((Deed.completed success error).status, error) := by
  cases success <;> rfl

theorem Account.view_renew (clock : Clock) (a : Account) :
    (a.renew clock).view = a.view := by
  unfold renew view
  cases hs : a.standing with
  | waiting | finished _ _ => simp [hs]
  | claimed lease => rfl

/-- An event changes what is seen of an entry as its deed says, and only if there is one. -/
theorem view_next : (next old id (account old h id) e).map Account.view =
    match deed? old h id e with
    | none => (account old h id).map Account.view
    | some .enqueued => some (.pending, none)
    | some deed => (account old h id).map fun a =>
        (deed.status, deed.error?.getD a.lastError) := by
  fun_cases deed? old h id e with
  | case1 d stopped hop hanswer =>
    simp only [next, hop, hanswer, if_true]
    rfl
  | case2 d stopped i hanswer hop hid => simp only [next, hop, hanswer, if_neg hid]
  | case3 worker d hanswer hop hid =>
    simp only [next, hop, hanswer, if_pos hid, Option.map_map]
    rfl
  | case4 worker d hanswer hop hid => simp only [next, hop, hanswer, if_neg hid]
  | case5 success error hanswer hop =>
    simp only [next, hop, hanswer, if_true, Option.map_map]
    exact Option.map_congr fun a _ => a.view_finish success error
  | case6 i success error hanswer hop hid => simp only [next, hop, hanswer, if_neg hid]
  | case7 error hanswer hop =>
    simp only [next, hop, hanswer, if_true, Option.map_map]
    rfl
  | case8 i error hanswer hop hid => simp only [next, hop, hanswer, if_neg hid]
  | case9 timeout n hanswer hop hstale =>
    simp only [next, hop, hanswer, Option.map_map]
    refine Option.map_congr fun a ha => ?_
    rw [isStale, ha, Option.any_some] at hstale
    rw [Function.comp_apply, if_pos hstale]
    rfl
  | case10 timeout n hanswer hop hstale =>
    simp only [next, hop, hanswer, Option.map_map]
    refine Option.map_congr fun a ha => ?_
    rw [isStale, ha, Option.any_some] at hstale
    rw [Function.comp_apply, if_neg hstale]
  | case11 hoffer hclaim hcomplete hrelease hreclaim =>
    -- only a renewal still changes the account, and what is seen of it stays the same
    unfold next
    split
    · exact (hoffer _ _ _ ‹_› ‹_›).elim
    · exact (hclaim _ _ ‹_› ‹_›).elim
    · exact (hcomplete _ _ _ ‹_› ‹_›).elim
    · exact (hrelease _ _ ‹_› ‹_›).elim
    · split_ifs
      · rw [Option.map_map]
        exact Option.map_congr fun a _ => a.view_renew e.clock
      · rfl
    · exact (hreclaim _ _ ‹_› ‹_›).elim
    · rfl

/-- An account says of its entry what the deeds of the entry do, as long as those entries are
enqueued that are new, and nothing is done to others than those that are there. -/
theorem view_concat (ih : (account old h id).map Account.view = visible (deeds old h id))
    (hdeed : ∀ deed, deed? old h id e = some deed → (deed = .enqueued ↔ id ∉ ids h)) :
    (account old (h ++ [e]) id).map Account.view = visible (deeds old (h ++ [e]) id) := by
  rw [account_concat, view_next, deeds_concat]
  cases hd : deed? old h id e with
  | none =>
    rw [Option.toList_none, List.append_nil]
    exact ih
  | some deed =>
    rw [Option.toList_some, visible_concat, ← ih]
    have hnew := hdeed deed hd
    cases ha : account old h id with
    | none =>
      have hmissing : id ∉ ids h := by
        rw [← account_isSome, ha]
        exact Bool.false_ne_true
      rw [hnew.2 hmissing]
      rfl
    | some a =>
      have hne : deed ≠ .enqueued := fun heq => hnew.1 heq (mem_ids_of_account ha)
      cases deed with
      | enqueued => exact absurd rfl hne
      | claimed | released _ | reclaimed | completed _ _ => rfl

end QueueHistory

/-! ## Deeds of a queue -/

namespace LiveQueue

/-- A new entry has the next number. -/
theorem Offered.new {q live : LiveQueue} {d : Dispatch} {stopped : Bool} {id : Int}
    {answer : Except QueueError Offer} (h : q.Offered d stopped answer live)
    (hentry : answer = .ok (.entry id)) : q.next = id := by
  cases h with
  | added _ _ => exact Offer.entry.inj (Except.ok.inj hentry)
  | full _ _ | canceled _ => cases hentry

/-- The entry that is handed out is there. -/
theorem Claims.mem {q live : LiveQueue} {worker : String} {d : QueuedDispatch}
    {answer : Except QueueError (Option QueuedDispatch)} (h : q.Claims worker answer live)
    (hd : answer = .ok (some d)) : d.id ∈ q.entries.map (·.id) := by
  cases h with
  | claimed hfirst hid _ _ _ =>
    cases hd
    exact List.mem_map.2 ⟨_, (of_first? hfirst).1, hid.symm⟩
  | nothing _ | discarded _ _ | refused _ _ => cases hd

/-- A call about one entry is answered with success only when the entry is there. -/
theorem Guarded.mem {q q' live : LiveQueue} {id : Int} {answer : Except QueueError Unit}
    (h : Guarded (q.Claimed id) id q q' answer live) (hok : answer = .ok ()) :
    id ∈ q.entries.map (·.id) := by
  cases h with
  | done hclaimed =>
    obtain ⟨_, x, hx, rfl, -⟩ := hclaimed
    exact List.mem_map_of_mem hx
  | notClaimed _ => cases hok

end LiveQueue

namespace Backend

open QueueHistory
open ExecutionQueue (perform after history)

/-- The live entries are among those of a history, and the next number is that of none. -/
structure Within (q : Backend) (h : List QueueEvent) : Prop where
  sound : q.Sound
  entries : ∀ x ∈ q.live.entries, x.id ∈ ids h
  next : q.live.next ∉ ids h

variable {q : Backend} {old : Staleness} {h : List QueueEvent} {id : Int} {deed : Deed}

/-- An entry is enqueued under a new number, and all else is done to entries that are there. -/
theorem Within.deed_iff (hq : q.Within h) (c : QueueCall)
    (hdeed : deed? old h id ⟨c, (perform q c).1⟩ = some deed) :
    deed = .enqueued ↔ id ∉ ids h := by
  have hdone : id ∈ ids h → deed ≠ .enqueued → (deed = .enqueued ↔ id ∉ ids h) :=
    fun hmem hne => ⟨fun heq => absurd heq hne, fun hnot => absurd hmem hnot⟩
  have hlive : id ∈ q.live.entries.map (·.id) → id ∈ ids h := by
    intro hmem
    obtain ⟨x, hx, rfl⟩ := List.mem_map.1 hmem
    exact hq.entries x hx
  obtain ⟨clock, op⟩ := c
  cases op with
  | offer d stopped =>
    obtain ⟨hentry, rfl⟩ := deed?_offer.1 hdeed
    have hnew := (offer_answers hq.sound clock d stopped).2.new hentry
    exact ⟨fun _ => hnew ▸ hq.next, fun _ => rfl⟩
  | claim worker =>
    obtain ⟨⟨d, hd, rfl⟩, rfl⟩ := deed?_claim.1 hdeed
    exact hdone (hlive ((claim_answers hq.sound clock worker).2.mem hd)) (by simp)
  | complete i success error =>
    obtain ⟨hok, rfl, rfl⟩ := deed?_complete.1 hdeed
    exact hdone (hlive ((complete_answers hq.sound clock i success error).2.mem hok)) (by simp)
  | release i error =>
    obtain ⟨hok, rfl, rfl⟩ := deed?_release.1 hdeed
    exact hdone (hlive ((release_answers hq.sound clock i error).2.mem hok)) (by simp)
  | renew i worker => cases hdeed
  | reclaim timeout =>
    obtain ⟨-, hstale, rfl⟩ := deed?_reclaim.1 hdeed
    obtain ⟨a, ha, -⟩ := (Option.any_eq_true _ _).1 hstale
    exact hdone (mem_ids_of_account ha) (by simp)
  | depth => cases hdeed

theorem within_memory {q : MemoryQueue} {capacity : Nat} (hq : q.Follows capacity h) :
    (memory q).Within h where
  sound := hq.sound
  entries x hx := by
    obtain ⟨e, he, rfl⟩ := List.mem_map.1 hx
    rw [hq.entries] at he
    obtain ⟨i, a, ha, hview⟩ := mem_roll.1 he
    rw [show e.live.id = i from MemoryQueue.stored_id hview]
    exact mem_ids_of_account ha
  next := by
    show q.nextId ∉ ids h
    rw [hq.nextId, hq.numbered.mem_iff]
    omega

theorem within_table {q : TableQueue} {capacity : Nat} (hq : q.Follows capacity h) :
    (table q).Within h where
  sound := hq.sound
  entries x hx := by
    obtain ⟨r, hr, -, rfl⟩ := TableQueue.mem_live.1 hx
    obtain ⟨a, ha, -⟩ := hq.account_of_mem hr
    exact mem_ids_of_account ha
  next := by
    show q.nextId ∉ ids h
    rw [hq.nextId, hq.numbered.mem_iff]
    omega

theorem within_after (kind : BackendKind) (capacity : Nat) (calls : List QueueCall) :
    (after (new kind capacity) calls).Within (history (new kind capacity) calls) := by
  cases kind with
  | memory =>
    obtain ⟨hafter, hhistory⟩ := run_memory (.new capacity) calls
    rw [new, hafter, hhistory]
    exact within_memory (MemoryQueue.follows_history capacity calls)
  | table =>
    obtain ⟨hafter, hhistory⟩ := run_table (.new capacity) calls
    rw [new, hafter, hhistory]
    exact within_table (TableQueue.follows_history capacity calls)

/-- What the deeds of an entry make of it is what the history says of it. -/
theorem view_history (kind : BackendKind) (capacity : Nat) (old : Staleness)
    (calls : List QueueCall) (id : Int) :
    (account old (history (new kind capacity) calls) id).map Account.view =
      visible (deeds old (history (new kind capacity) calls) id) := by
  induction calls using List.reverseRecOn with
  | nil => rfl
  | append_singleton calls c ih =>
    rw [ExecutionQueue.history_concat]
    exact view_concat ih fun deed => (within_after kind capacity calls).deed_iff c

end Backend
end JobGate
