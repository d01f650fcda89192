/-
Histories in which every call was answered as it should have been.

`Turn` is all that one more event can mean for an entry: nothing, or it is enqueued,
claimed, completed, given back or renewed, each from one standing only.  What holds of
an entry over a whole history follows from it by induction over the events.
-/
import JobGate.Proofs.Queue.History

namespace JobGate
namespace QueueHistory

def hands (id : Int) (e : QueueEvent) : Bool :=
  match e.op, e.answer with
  | .claim _, .claimed (.ok (some d)) => d.id = id
  | _, _ => false

def completes (id : Int) (e : QueueEvent) : Bool :=
  match e.op, e.answer with
  | .complete i _ _, .settled (.ok ()) => i = id
  | _, _ => false

/-- Whether an entry is released, or taken back by a reclaim that counts it. -/
def givesBack (old : Staleness) (h : List QueueEvent) (id : Int) (e : QueueEvent) : Bool :=
  match e.op, e.answer with
  | .release i _, .settled (.ok ()) => i = id
  | .reclaim timeout, .reclaimed (.ok _) => isStale old h e.clock timeout id
  | _, _ => false

/-- A worker was handed an entry, which since then was neither completed nor given back. -/
def Held (old : Staleness) (h : List QueueEvent) (id : Int) (worker : String) : Prop :=
  ∃ before e rest, h = before ++ e :: rest ∧ e.op = .claim worker ∧ hands id e = true ∧
    ∀ mid x later, rest = mid ++ x :: later →
      completes id x = false ∧ givesBack old (before ++ e :: mid) id x = false

/-- Every call was answered as the history before it asks for. -/
def Answered (old : Staleness) (capacity : Nat) (h : List QueueEvent) : Prop :=
  ∀ before e rest, h = before ++ e :: rest →
    e.answer = answer old before capacity e.toQueueCall

/-- What one more event means for an entry. -/
inductive Turn (old : Staleness) (h : List QueueEvent) (id : Int) (e : QueueEvent) :
    Option Account → Option Account → Prop
  | none {a : Option Account} (hgiven : given? e ≠ some id) (hhands : hands id e = false)
      (hcompletes : completes id e = false) (hback : givesBack old h id e = false) :
      Turn old h id e a a
  | given {clock : Clock} {d : Dispatch}
      (he : e = ⟨⟨clock, .offer d false⟩, .offered (.ok (.entry id))⟩) (hnew : id ∉ ids h) :
      Turn old h id e .none (some { dispatch := d })
  | handed {a : Account} {worker : String} (hop : e.op = .claim worker)
      (hgiven : given? e ≠ some id) (hhands : hands id e = true)
      (hcompletes : completes id e = false) (hback : givesBack old h id e = false)
      (hwaiting : a.standing = .waiting) :
      Turn old h id e (some a) (some (a.claim ⟨worker, e.clock⟩))
  | completed {a : Account} {lease : Lease} {success : Bool} {error : Option String}
      (hgiven : given? e ≠ some id) (hhands : hands id e = false)
      (hcompletes : completes id e = true)
      (hback : givesBack old h id e = false) (hclaimed : a.standing = .claimed lease) :
      Turn old h id e (some a) (some (a.finish success error))
  | back {a : Account} {lease : Lease} {error : Option String}
      (hgiven : given? e ≠ some id) (hhands : hands id e = false)
      (hcompletes : completes id e = false)
      (hback : givesBack old h id e = true) (hclaimed : a.standing = .claimed lease) :
      Turn old h id e (some a) (some (a.giveBack error))
  | renewed {a : Account} {lease : Lease} (hgiven : given? e ≠ some id)
      (hhands : hands id e = false) (hcompletes : completes id e = false)
      (hback : givesBack old h id e = false) (hclaimed : a.standing = .claimed lease) :
      Turn old h id e (some a) (some (a.renew e.clock))

variable {old : Staleness} {capacity : Nat} {h h' : List QueueEvent} {e : QueueEvent} {id : Int}

/-- A place in a list with one more element is the last one, or a place in the list. -/
theorem concat_eq_iff {α : Type} {l before rest : List α} {a x : α} :
    l ++ [a] = before ++ x :: rest ↔
      (l = before ∧ a = x ∧ rest = []) ∨
        ∃ rest', rest = rest' ++ [a] ∧ l = before ++ x :: rest' := by
  constructor
  · intro heq
    rcases List.eq_nil_or_concat rest with rfl | ⟨rest, y, rfl⟩
    · obtain ⟨hl, ha⟩ := List.append_inj' heq rfl
      exact .inl ⟨hl, List.singleton_inj.1 ha, rfl⟩
    · rw [List.concat_eq_append, ← List.cons_append, ← List.append_assoc] at heq
      obtain ⟨hl, ha⟩ := List.append_inj' heq rfl
      exact .inr ⟨rest, by rw [List.singleton_inj.1 ha, List.concat_eq_append], hl⟩
  · rintro (⟨rfl, rfl, rfl⟩ | ⟨rest', rfl, rfl⟩)
    · rfl
    · exact List.append_assoc ..

theorem held_concat {worker : String} : Held old (h ++ [e]) id worker ↔
    (e.op = .claim worker ∧ hands id e = true) ∨
      (Held old h id worker ∧ completes id e = false ∧ givesBack old h id e = false) := by
  constructor
  · rintro ⟨before, x, rest, heq, hop, hhands, hsince⟩
    rcases concat_eq_iff.1 heq with ⟨-, rfl, -⟩ | ⟨rest, rfl, rfl⟩
    · exact .inl ⟨hop, hhands⟩
    · refine .inr ⟨⟨before, x, rest, rfl, hop, hhands, fun mid y later hy => ?_⟩,
        hsince rest e [] rfl⟩
      exact hsince mid y (later ++ [e]) (concat_eq_iff.2 (.inr ⟨later, rfl, hy⟩))
  · rintro (⟨hop, hhands⟩ | ⟨⟨before, x, rest, rfl, hop, hhands, hsince⟩, hlast⟩)
    · refine ⟨h, e, [], rfl, hop, hhands, fun mid y later hy => ?_⟩
      cases mid <;> cases hy
    · refine ⟨before, x, rest ++ [e], by simp, hop, hhands, fun mid y later hy => ?_⟩
      rcases concat_eq_iff.1 hy with ⟨rfl, rfl, -⟩ | ⟨later, rfl, rfl⟩
      · exact hlast
      · exact hsince mid y later rfl

namespace Answered

theorem concat_iff : Answered old capacity (h ++ [e]) ↔
    Answered old capacity h ∧ e.answer = answer old h capacity e.toQueueCall := by
  constructor
  · intro hh
    refine ⟨fun before x rest heq => hh before x (rest ++ [e]) (by simp [heq]), hh h e [] rfl⟩
  · rintro ⟨hh, he⟩ before x rest heq
    rcases concat_eq_iff.1 heq with ⟨rfl, rfl, -⟩ | ⟨rest, -, heq⟩
    · exact he
    · exact hh before x rest heq

theorem of_append (hh : Answered old capacity (h ++ h')) : Answered old capacity h :=
  fun before e rest heq => hh before e (rest ++ h') (by simp [heq])

/-- An event that gives out a number gives out the next one. -/
theorem given?_eq (he : e.answer = answer old h capacity e.toQueueCall) :
    given? e = none ∨ given? e = some ((ids h).length + 1 : Int) := by
  obtain ⟨⟨clock, op⟩, result⟩ := e
  replace he : result = answer old h capacity ⟨clock, op⟩ := he
  subst he
  cases op with
  | offer d stopped =>
    simp only [answer]
    split_ifs
    · exact .inl rfl
    · exact .inr rfl
    · exact .inl rfl
  | claim _ | complete _ _ _ | release _ _ | renew _ _ | reclaim _ | depth => exact .inl rfl

theorem numbered (hh : Answered old capacity h) : Numbered h := by
  induction h using List.reverseRecOn with
  | nil => rfl
  | append_singleton h e ih =>
    obtain ⟨hh, he⟩ := concat_iff.1 hh
    rcases given?_eq he with hnone | hsome
    · exact (ih hh).concat hnone
    · exact (ih hh).add hsome

/-- A call that is to end or renew the claim of one entry means nothing for the others, and
nothing at all when it is refused. -/
theorem turn_settled {c : QueueCall} {i : Int} {g : Account → Account} {allowed : Prop}
    [Decidable allowed]
    (hallowed : allowed → ∃ a lease, account old h i = some a ∧ a.standing = .claimed lease)
    (hnext : ∀ a, next old id a ⟨c, .settled (.ok ())⟩ = if i = id then a.map g else a)
    (hdone : ∀ {a lease}, i = id → a.standing = .claimed lease →
      Turn old h id ⟨c, .settled (.ok ())⟩ (some a) (some (g a)))
    (hother : i ≠ id →
      Turn old h id ⟨c, .settled (.ok ())⟩ (account old h id) (account old h id))
    (hrefused : Turn old h id ⟨c, .settled (.error (.notClaimed i))⟩ (account old h id)
      (next old id (account old h id) ⟨c, .settled (.error (.notClaimed i))⟩)) :
    let result := QueueAnswer.settled (if allowed then .ok () else .error (.notClaimed i))
    Turn old h id ⟨c, result⟩ (account old h id) (next old id (account old h id) ⟨c, result⟩) := by
  dsimp only
  by_cases hc : allowed
  · obtain ⟨a, lease, ha, hclaimed⟩ := hallowed hc
    rw [if_pos hc, hnext]
    by_cases hid : i = id
    · rw [if_pos hid, ← hid, ha, Option.map_some, hid]
      exact hdone hid hclaimed
    · rw [if_neg hid]
      exact hother hid
  · rw [if_neg hc]
    exact hrefused

/-- Every event that was answered as it should be is one of the turns of an entry. -/
theorem turn (hnumbered : Numbered h) (he : e.answer = answer old h capacity e.toQueueCall)
    (id : Int) : Turn old h id e (account old h id) (account old (h ++ [e]) id) := by
  rw [account_concat]
  obtain ⟨⟨clock, op⟩, result⟩ := e
  replace he : result = answer old h capacity ⟨clock, op⟩ := he
  subst he
  cases op with
  | offer d stopped =>
    simp only [answer]
    split_ifs with hstop hroom
    · exact .none nofun rfl rfl rfl
    · by_cases hid : ((ids h).length + 1 : Int) = id
      · subst hid
        have hnew : ((ids h).length + 1 : Int) ∉ ids h := by
          rw [hnumbered.mem_iff]
          omega
        have hnone : account old h ((ids h).length + 1) = none := by
          rw [← Option.not_isSome_iff_eq_none, account_isSome]
          exact hnew
        rw [Bool.not_eq_true] at hstop
        subst hstop
        rw [hnone]
        simp only [next, if_true]
        exact .given rfl hnew
      · simp only [next, if_neg hid]
        exact .none (fun hgiven => hid (Option.some.inj hgiven)) rfl rfl rfl
    · exact .none nofun rfl rfl rfl
  | claim worker =>
    simp only [answer]
    -- whatever is handed out waits, and no other entry is touched
    cases hfirst : (ids h).find? (waits old h) with
    | none => exact .none nofun rfl rfl rfl
    | some i =>
      obtain ⟨a, ha, hwaiting⟩ := waits_iff.1 (List.find?_some hfirst)
      have hgiven : handedOut old h i = some ⟨i, a.dispatch.run, a.dispatch.jobKey,
          min a.returns MemoryQueue.maxAttempts⟩ := by rw [handedOut, ha, Option.map_some]
      rw [Option.bind_some, hgiven]
      by_cases hid : i = id
      · subst hid
        rw [ha]
        simp only [next, if_true, Option.map_some]
        exact .handed rfl nofun (decide_eq_true rfl) rfl rfl hwaiting
      · simp only [next, if_neg hid]
        exact .none nofun (decide_eq_false hid) rfl rfl
  | complete i success error =>
    exact turn_settled isClaimed_iff.1 (fun _ => rfl)
      (fun hid hclaimed => .completed nofun rfl (decide_eq_true hid) rfl hclaimed)
      (fun hid => .none nofun rfl (decide_eq_false hid) rfl) (.none nofun rfl rfl rfl)
  | release i error =>
    exact turn_settled isClaimed_iff.1 (fun _ => rfl)
      (fun hid hclaimed => .back nofun rfl rfl (decide_eq_true hid) hclaimed)
      (fun hid => .none nofun rfl rfl (decide_eq_false hid)) (.none nofun rfl rfl rfl)
  | renew i worker =>
    refine turn_settled (fun hholder => ?_) (fun _ => rfl)
      (fun hid hclaimed => .renewed nofun rfl rfl rfl hclaimed)
      (fun hid => .none nofun rfl rfl rfl) (.none nofun rfl rfl rfl)
    obtain ⟨a, since, ha, hclaimed⟩ := holder?_iff.1 hholder
    exact ⟨a, _, ha, hclaimed⟩
  | reclaim timeout =>
    simp only [answer, next]
    -- a reclaim is about every entry, and gives this one back if its claim is stale
    cases ha : account old h id with
    | none =>
      have hback : isStale old h clock timeout id = false := by rw [isStale, ha, Option.any_none]
      exact .none nofun rfl rfl hback
    | some a =>
      have hback : isStale old h clock timeout id = a.isStale old clock timeout := by
        rw [isStale, ha, Option.any_some]
      rw [Option.map_some]
      cases hstale : a.isStale old clock timeout with
      | false => exact .none nofun rfl rfl (hback.trans hstale)
      | true =>
        cases hs : a.standing with
        | waiting | finished _ _ => simp [Account.isStale, hs] at hstale
        | claimed lease => exact .back nofun rfl rfl (hback.trans hstale) hs
  | depth => exact .none nofun rfl rfl rfl

end Answered

/-! ## What an entry has been through -/

section
variable {a b : Option Account}

/-- An entry is finished by the event that completes it and by no other. -/
theorem Turn.finished (ht : Turn old h id e a b) :
    b.any (!·.standing.isLive) = (a.any (!·.standing.isLive) || completes id e) := by
  cases ht with
  | none _ _ hcompletes _ => rw [hcompletes, Bool.or_false]
  | given he _ =>
    subst he
    rfl
  | handed _ _ _ hcompletes _ hwaiting =>
    simp [Account.claim, Standing.isLive, hwaiting, hcompletes]
  | completed _ _ hcompletes _ _ => simp [Account.finish, Standing.isLive, hcompletes]
  | back _ _ hcompletes _ hclaimed =>
    simp [Account.giveBack, Standing.isLive, hclaimed, hcompletes]
  | renewed _ _ hcompletes _ hclaimed =>
    simp [Account.renew, Standing.isLive, hclaimed, hcompletes]

/-- An entry is given back as often as events give it back. -/
theorem Turn.returns (ht : Turn old h id e a b) :
    (b.map (·.returns)).getD 0 =
      (a.map (·.returns)).getD 0 + if givesBack old h id e then 1 else 0 := by
  cases ht with
  | none _ _ _ hback => simp [hback]
  | given he _ =>
    subst he
    rfl
  | handed _ _ _ _ hback _ => simp [hback, Account.claim]
  | completed _ _ _ hback _ => simp [hback, Account.finish]
  | back _ _ _ hback _ => simp [hback, Account.giveBack]
  | renewed _ _ _ hback hclaimed => simp [hback, Account.renew, hclaimed]

/-- An entry keeps what was enqueued. -/
theorem Turn.dispatch (ht : Turn old h id e a b) (d : Dispatch) :
    b.map (·.dispatch) = some d ↔ a.map (·.dispatch) = some d ∨
      ∃ clock, e = ⟨⟨clock, .offer d false⟩, .offered (.ok (.entry id))⟩ := by
  have hother : given? e ≠ some id → ¬ ∃ clock,
      e = ⟨⟨clock, .offer d false⟩, .offered (.ok (.entry id))⟩ := by
    rintro hgiven ⟨clock, rfl⟩
    exact hgiven rfl
  cases ht with
  | none hgiven => simp [hother hgiven]
  | given he _ =>
    subst he
    simp [eq_comm]
  | handed _ hgiven => simp [hother hgiven, Account.claim]
  | completed hgiven => simp [hother hgiven, Account.finish]
  | back hgiven => simp [hother hgiven, Account.giveBack]
  | renewed hgiven _ _ _ hclaimed => simp [hother hgiven, Account.renew, hclaimed]

/-- An entry is held by whoever is handed it, until it is completed or given back. -/
theorem Turn.holder (ht : Turn old h id e a b) (worker : String) :
    b.bind (·.standing.holder?) = some worker ↔
      (e.op = .claim worker ∧ hands id e = true) ∨
        (a.bind (·.standing.holder?) = some worker ∧ completes id e = false ∧
          givesBack old h id e = false) := by
  cases ht with
  | none _ hhands hcompletes hback => simp [hhands, hcompletes, hback]
  | given he _ =>
    subst he
    simp [Standing.holder?, hands]
  | handed hop _ hhands _ _ hwaiting =>
    simp [Account.claim, Standing.holder?, hwaiting, hop, hhands]
  | completed _ hhands hcompletes _ _ =>
    simp [Account.finish, Standing.holder?, hhands, hcompletes]
  | back _ hhands _ hback _ => simp [Account.giveBack, Standing.holder?, hhands, hback]
  | renewed _ hhands hcompletes hback hclaimed =>
    simp [Account.renew, Standing.holder?, hclaimed, hhands, hcompletes, hback]

/-- Only what gives an entry back, or enqueues it, lets it wait. -/
theorem Turn.not_waiting (ht : Turn old h id e a b) (ha : a.any (!·.standing.isWaiting) = true)
    (hback : givesBack old h id e = false) : b.any (!·.standing.isWaiting) = true := by
  cases ht with
  | none => exact ha
  | given => cases ha
  | handed => rfl
  | completed => rfl
  | back _ _ _ hreturn _ => rw [hback] at hreturn; cases hreturn
  | renewed _ _ _ _ hclaimed => simp [Account.renew, hclaimed, Standing.isWaiting]

/-- Only an entry that waits is handed out, and then it waits no longer. -/
theorem Turn.of_hands (ht : Turn old h id e a b) (hhands : hands id e = true) :
    a.any (·.standing.isWaiting) = true ∧ b.any (!·.standing.isWaiting) = true := by
  cases ht with
  | none _ hnot _ _ | completed _ hnot _ _ _ | back _ hnot _ _ _ | renewed _ hnot _ _ _ =>
    rw [hhands] at hnot
    cases hnot
  | given he _ =>
    subst he
    cases hhands
  | handed _ _ _ _ _ hwaiting => exact ⟨by simp [hwaiting, Standing.isWaiting], rfl⟩

theorem Turn.idle (ht : Turn old h id e a b) (ha : a.any (!·.standing.isLive) = true) :
    b = a ∧ hands id e = false := by
  cases ht with
  | none _ hhands _ _ => exact ⟨rfl, hhands⟩
  | given => cases ha
  | handed _ _ _ _ _ hs | completed _ _ _ _ hs | back _ _ _ _ hs | renewed _ _ _ _ hs =>
    simp [hs, Standing.isLive] at ha

end

namespace Answered

theorem turn_of_concat (hh : Answered old capacity (h ++ [e])) (id : Int) :
    Turn old h id e (account old h id) (account old (h ++ [e]) id) :=
  turn (concat_iff.1 hh).1.numbered (concat_iff.1 hh).2 id

/-- A claim that has not ended is that of the worker who was handed the entry last. -/
theorem holder?_iff (hh : Answered old capacity h) (id : Int) (worker : String) :
    holder? old h id = some worker ↔ Held old h id worker := by
  induction h using List.reverseRecOn with
  | nil => simp [holder?, account, Held]
  | append_singleton h e ih =>
    rw [held_concat, ← ih hh.of_append]
    exact (hh.turn_of_concat id).holder worker

theorem isClaimed_iff (hh : Answered old capacity h) (id : Int) :
    isClaimed old h id = true ↔ ∃ worker, Held old h id worker := by
  rw [isClaimed, Option.isSome_iff_exists]
  exact exists_congr fun worker => hh.holder?_iff id worker

theorem any_completes (hh : Answered old capacity h) (id : Int) :
    h.any (completes id) = (account old h id).any (!·.standing.isLive) := by
  induction h using List.reverseRecOn with
  | nil => rfl
  | append_singleton h e ih =>
    rw [(hh.turn_of_concat id).finished, ← ih hh.of_append]
    simp

theorem returns_concat (hh : Answered old capacity (h ++ [e])) (id : Int) :
    returns old (h ++ [e]) id = returns old h id + if givesBack old h id e then 1 else 0 :=
  (hh.turn_of_concat id).returns

theorem returns_le (hh : Answered old capacity (h ++ h')) (id : Int) :
    returns old h id ≤ returns old (h ++ h') id := by
  induction h' using List.reverseRecOn with
  | nil => rw [List.append_nil]
  | append_singleton h' e ih =>
    rw [← List.append_assoc] at hh ⊢
    rw [hh.returns_concat id]
    exact Nat.le_add_right_of_le (ih hh.of_append)

/-- No entry is given back more often than there are calls. -/
theorem returns_le_length (hh : Answered old capacity h) (id : Int) :
    returns old h id ≤ h.length := by
  induction h using List.reverseRecOn with
  | nil => rfl
  | append_singleton h e ih =>
    rw [hh.returns_concat id, List.length_append, List.length_singleton]
    have := ih hh.of_append
    split <;> omega

/-- What a history says was enqueued is what somebody enqueued. -/
theorem dispatch_iff (hh : Answered old capacity h) (id : Int) (d : Dispatch) :
    (account old h id).map (·.dispatch) = some d ↔
      ∃ clock, ⟨⟨clock, .offer d false⟩, .offered (.ok (.entry id))⟩ ∈ h := by
  induction h using List.reverseRecOn with
  | nil => simp [account]
  | append_singleton h e ih =>
    rw [(hh.turn_of_concat id).dispatch d, ih hh.of_append]
    simp only [List.mem_append, List.mem_singleton, exists_or, eq_comm]

/-- An entry that does not wait goes on not to wait until it is given back. -/
theorem not_waiting (hh : Answered old capacity (h ++ h'))
    (hstart : (account old h id).any (!·.standing.isWaiting) = true)
    (hback : ∀ before e rest, h' = before ++ e :: rest → givesBack old (h ++ before) id e = false) :
    (account old (h ++ h') id).any (!·.standing.isWaiting) = true := by
  induction h' using List.reverseRecOn with
  | nil => rwa [List.append_nil]
  | append_singleton h' e ih =>
    rw [← List.append_assoc] at hh ⊢
    have hbefore := ih hh.of_append fun before x rest heq =>
      hback before x (rest ++ [e]) (by simp [heq])
    exact (hh.turn_of_concat id).not_waiting hbefore (hback h' e [] rfl)

theorem finished_stays (hh : Answered old capacity (h ++ h'))
    (hstart : (account old h id).any (!·.standing.isLive) = true) :
    account old (h ++ h') id = account old h id := by
  induction h' using List.reverseRecOn with
  | nil => rw [List.append_nil]
  | append_singleton h' e ih =>
    rw [← List.append_assoc] at hh ⊢
    have hbefore := ih hh.of_append
    rw [← hbefore] at hstart ⊢
    exact ((hh.turn_of_concat id).idle hstart).1

end Answered
end QueueHistory
end JobGate
