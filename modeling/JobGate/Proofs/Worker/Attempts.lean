/-
How often an entry is executed.

A worker invokes its executor once for each time that it was given the entry, and an entry
that was given to somebody is not given to anybody else before it comes back.  The first
is a matter of the workers (`Spent`), the second one of the queue (`Ledger`), which also
counts in the entry how often it came back.  Together they bound the executions of an entry
by the attempts that its next claim reports.
-/
import JobGate.Proofs.Worker.Crowd
import Mathlib.Data.Finset.Card

namespace JobGate

/-! ## The account of the queue -/

namespace LiveQueue

def attemptsOf (q : LiveQueue) (id : Int) : Int :=
  ((q.entries.find? (·.id = id)).map (·.attempts)).getD 0

/-- An entry has been given to workers and has come back so many times, and had been tried
`base` times before that. -/
structure Ledger (q : LiveQueue) (base id : Int) (claims returns : Nat) : Prop where
  claims_le : claims ≤ returns + 1
  waiting : ∀ e ∈ q.entries, e.id = id → e.holder = none → claims ≤ returns
  fresh : q.next ≤ id → base = 0 ∧ claims = 0 ∧ returns = 0
  attempts : base + returns < 4294967296 →
    ∀ e ∈ q.entries, e.id = id → e.attempts = base + returns

namespace Ledger

variable {q q' : LiveQueue} {base id : Int} {claims returns : Nat}

theorem start (hq : q.Sound) (id : Int) : q.Ledger (q.attemptsOf id) id 0 0 where
  claims_le := Nat.zero_le _
  waiting _ _ _ _ := Nat.le_refl 0
  fresh hnext := by
    refine ⟨?_, rfl, rfl⟩
    have hnone : q.entries.find? (·.id = id) = none := by
      refine List.find?_eq_none.2 fun e he hid => ?_
      have hlt := hq.fresh e he
      have hid : e.id = id := of_decide_eq_true hid
      omega
    rw [attemptsOf, hnone]
    rfl
  attempts _ e he hid := by
    subst hid
    rw [attemptsOf, find?_of_nodup hq.nodup he]
    exact (Int.add_zero _).symm

theorem add (h : q.Ledger base id claims returns) (d : Dispatch) :
    (q.add d).Ledger base id claims returns where
  claims_le := h.claims_le
  waiting e he hid hholder := by
    rcases mem_add.1 he with he | rfl
    · exact h.waiting e he hid hholder
    · obtain ⟨-, rfl, -⟩ := h.fresh (Int.le_of_eq hid)
      exact Nat.zero_le _
  fresh hnext := h.fresh (Int.le_trans (Int.le_of_lt (Int.lt_succ q.next)) hnext)
  attempts hlt e he hid := by
    rcases mem_add.1 he with he | rfl
    · exact h.attempts hlt e he hid
    · obtain ⟨rfl, -, rfl⟩ := h.fresh (Int.le_of_eq hid)
      rfl

theorem remove (h : q.Ledger base id claims returns) (gone : Int) :
    (q.remove gone).Ledger base id claims returns where
  claims_le := h.claims_le
  waiting e he := h.waiting e (mem_remove.1 he).1
  fresh := h.fresh
  attempts hlt e he := h.attempts hlt e (mem_remove.1 he).1

/-- The entry waits when it is given to a worker, and does not wait afterwards. -/
theorem hold (h : q.Ledger base id claims returns) (hq : q.Sound) {e : LiveEntry}
    (hfirst : q.first? = some e) (worker : String) :
    (q.hold e.id worker).Ledger base id (claims + if e.id = id then 1 else 0) returns := by
  obtain ⟨hmem, hfree⟩ := of_first? hfirst
  constructor
  · by_cases hid : e.id = id
    · -- it waited, so it has come back as often as it was given away before
      have := h.waiting e hmem hid hfree
      rw [if_pos hid]
      omega
    · rw [if_neg hid]
      exact h.claims_le
  · intro x hx hxid hholder
    obtain ⟨y, hy, rfl⟩ := mem_update.1 hx
    by_cases hye : y.id = e.id
    · simp [hye] at hholder
    · simp only [hye, decide_false, Bool.false_eq_true, if_false] at hxid hholder
      rw [if_neg (hxid ▸ Ne.symm hye)]
      exact h.waiting y hy hxid hholder
  · intro hnext
    have hne : e.id ≠ id := by
      have hlt := hq.fresh e hmem
      have hnext : q.next ≤ id := hnext
      omega
    rw [if_neg hne]
    exact h.fresh hnext
  · intro hlt x hx hxid
    obtain ⟨y, hy, rfl⟩ := mem_update.1 hx
    by_cases hye : y.id = e.id
    · simp only [hye, decide_true, if_true] at hxid ⊢
      exact h.attempts hlt y hy (hye.trans hxid)
    · simp only [hye, decide_false, Bool.false_eq_true, if_false] at hxid ⊢
      exact h.attempts hlt y hy hxid

/-- An entry that comes back was given to somebody, and counts one attempt more. -/
theorem free (h : q.Ledger base id claims returns) (hq : q.Sound) {returned : Int → Bool}
    (hbump : ∀ {a : Int}, a + 1 < 4294967296 → q.bump a = a + 1) {p : LiveEntry → Bool}
    (hp : ∀ e ∈ q.entries, p e = returned e.id)
    (hclaimed : ∀ id, returned id = true → q.Claimed id) :
    (q.free p).Ledger base id claims (returns + if returned id then 1 else 0) := by
  have hle := h.claims_le
  cases hback : returned id with
  | false =>
    -- none of the entries with the number is changed
    have hsame : ∀ x ∈ (q.free p).entries, x.id = id → x ∈ q.entries := by
      intro x hx hxid
      obtain ⟨y, hy, rfl⟩ := mem_update.1 hx
      by_cases hpy : p y = true
      · rw [if_pos hpy] at hxid
        rw [hp y hy, show y.id = id from hxid, hback] at hpy
        cases hpy
      · rw [if_neg hpy]
        exact hy
    exact
      { claims_le := hle
        waiting := fun x hx hxid => h.waiting x (hsame x hx hxid) hxid
        fresh := h.fresh
        attempts := fun hlt x hx hxid => h.attempts hlt x (hsame x hx hxid) hxid }
  | true =>
    obtain ⟨worker, e, he, hid, -⟩ := hclaimed id hback
    have hlive := hq.fresh e he
    simp only [if_true]
    constructor
    · omega
    · intros
      omega
    · intro hnext
      have hnext : q.next ≤ id := hnext
      omega
    · intro hlt x hx hxid
      obtain ⟨y, hy, rfl⟩ := mem_update.1 hx
      have hyid : y.id = id := by
        by_cases hpy : p y = true
        · rwa [if_pos hpy] at hxid
        · rwa [if_neg hpy] at hxid
      have hpy : p y = true := by rw [hp y hy, hyid, hback]
      have hbefore := h.attempts (by push_cast at hlt; omega) y hy hyid
      rw [if_pos hpy]
      show q.bump y.attempts = _
      rw [hbefore, hbump (by push_cast at hlt; omega)]
      push_cast
      omega

theorem shift (h : q.Ledger base id claims returns) (hq : q.Sound)
    (hbump : ∀ {a : Int}, a + 1 < 4294967296 → q.bump a = a + 1)
    {claimed : Option QueuedDispatch} {returned : Int → Bool}
    (hshift : q.Shift claimed returned q') :
    q'.Ledger base id (claims + if claimed.any (·.id = id) then 1 else 0)
      (returns + if returned id then 1 else 0) := by
  cases hshift with
  | kept => exact h
  | added d => exact h.add d
  | removed gone => exact h.remove gone
  | claimed worker hfirst hid _ => simpa [hid] using h.hold hq hfirst worker
  | freed hp hclaimed => exact h.free hq hbump hp hclaimed

end Ledger
end LiveQueue

/-! ## The account of the workers -/

namespace Task

/-- Of the times that an entry was given to workers, so many have led to an execution, and
some workers still stand before it. -/
def Spent (hands : Nat → Option Task) (id : Int) (executions claims : Nat) : Prop :=
  ∃ before : Finset Nat,
    (∀ n entry, hands n = some (.claimed entry) → entry.id = id → n ∈ before) ∧
      executions + before.card ≤ claims

variable {hands hands' : Nat → Option Task} {id : Int} {executions claims : Nat}

theorem Spent.passes (h : Spent hands id executions claims)
    {claimed executed : Option QueuedDispatch} (hpasses : Passes hands claimed executed hands') :
    Spent hands' id (executions + if executed.any (·.id = id) then 1 else 0)
      (claims + if claimed.any (·.id = id) then 1 else 0) := by
  obtain ⟨before, hbefore, hle⟩ := h
  cases hpasses with
  | other hsub => exact ⟨before, fun n entry hn => hbefore n entry (hsub n entry hn), hle⟩
  | claimed n entry =>
    by_cases hid : entry.id = id
    · -- the set need not be exact: all that matters is that nobody is missing from it
      have hcard := Finset.card_insert_le n before
      refine ⟨insert n before, fun k x hx hxid => ?_, ?_⟩
      · rcases of_update hx with ⟨rfl, -⟩ | ⟨-, hx⟩
        · exact Finset.mem_insert_self k before
        · exact Finset.mem_insert_of_mem (hbefore k x hx hxid)
      · simp only [Option.any_some, Option.any_none, hid, decide_true, if_true,
          Bool.false_eq_true, if_false]
        omega
    · refine ⟨before, fun k x hx hxid => ?_, by simpa [hid] using hle⟩
      rcases of_update hx with ⟨-, ht⟩ | ⟨-, hx⟩
      · cases ht
        exact absurd hxid hid
      · exact hbefore k x hx hxid
  | @executed n entry lost htask =>
    have hothers : ∀ k x, Function.update hands n (some (.executing entry lost)) k =
        some (.claimed x) → k ≠ n ∧ hands k = some (.claimed x) := by
      intro k x hx
      rcases of_update hx with ⟨-, ht⟩ | hother
      · cases ht
      · exact hother
    by_cases hid : entry.id = id
    · have hcard := Finset.card_erase_add_one (hbefore n entry htask hid)
      refine ⟨before.erase n, fun k x hx hxid => ?_, ?_⟩
      · obtain ⟨hk, hx⟩ := hothers k x hx
        exact Finset.mem_erase_of_ne_of_mem hk (hbefore k x hx hxid)
      · simp only [Option.any_some, Option.any_none, hid, decide_true, if_true,
          Bool.false_eq_true, if_false]
        omega
    · exact ⟨before, fun k x hx => hbefore k x (hothers k x hx).2, by simpa [hid] using hle⟩

end Task

/-! ## Both together -/

namespace Crowd

def executionCount (c : Crowd) (ts : List Turn) (id : Int) : Nat :=
  (c.history ts).countP fun (c, t) => (c.executed? t).any (·.id = id)

def claimCount (c : Crowd) (ts : List Turn) (id : Int) : Nat :=
  (c.history ts).countP fun (c, t) => (c.claimed? t).any (·.id = id)

def returnCount (c : Crowd) (ts : List Turn) (id : Int) : Nat :=
  (c.history ts).countP fun (c, t) => c.returns t id

theorem countP_concat (c : Crowd) (ts : List Turn) (t : Turn) (p : Crowd × Turn → Bool) :
    (c.history (ts ++ [t])).countP p =
      (c.history ts).countP p + if p (c.run ts, t) then 1 else 0 := by
  rw [history_concat, List.countP_append, List.countP_singleton]

variable {o : Orchestrator} {q : Backend}

theorem ledger (hq : q.Sound) (ts : List Turn) (id : Int) :
    ((gather o q).run ts).live.Ledger (q.live.attemptsOf id) id
      ((gather o q).claimCount ts id) ((gather o q).returnCount ts id) := by
  induction ts using List.reverseRecOn with
  | nil => exact .start (Backend.sound_live hq) id
  | append_singleton ts t ih =>
    have hsound := run_sound (c := gather o q) hq ts
    rw [run_concat, claimCount, returnCount, countP_concat, countP_concat]
    exact ih.shift (Backend.sound_live hsound) Backend.bump_live (step_turned hsound t).queue

theorem spent (hq : q.Sound) (ts : List Turn) (id : Int) :
    Task.Spent ((gather o q).run ts).hands id ((gather o q).executionCount ts id)
      ((gather o q).claimCount ts id) := by
  induction ts using List.reverseRecOn with
  | nil => exact ⟨∅, fun _ _ hentry => (by cases hentry), Nat.le_refl 0⟩
  | append_singleton ts t ih =>
    have hsound := run_sound (c := gather o q) hq ts
    rw [run_concat, executionCount, claimCount, countP_concat, countP_concat]
    exact ih.passes (step_turned hsound t).hands

/-- The entry is the first that waits, and nothing stands against giving it away. -/
structure Due (c : Crowd) (e : LiveEntry) : Prop where
  calm : c.site.queue.outage = {}
  first : c.live.first? = some e
  named : ∃ run : RunId, run.text = e.run
  counted : 0 ≤ e.attempts

section
variable {c : Crowd} {d : QueuedDispatch}

theorem attempts_of_claimed? (h : c.Sound) {t : Turn} (hclaimed : c.claimed? t = some d) :
    ∃ e ∈ c.live.entries, e.id = d.id ∧ e.attempts = d.attempts := by
  have hshift := (step_turned h t).queue
  rw [hclaimed] at hshift
  generalize c.returns t = returned, (c.step t).live = live at hshift
  cases hshift with
  | claimed _ hfirst hid hattempts =>
    exact ⟨_, (LiveQueue.of_first? hfirst).1, hid.symm, hattempts.symm⟩

theorem Due.claimed? {e : LiveEntry} (hdue : c.Due e) (h : c.Sound)
    (hlt : e.attempts < 4294967296) {n : Nat} (hfree : c.hands n = none) (worker : String)
    (clock : Clock) : ∃ d, c.claimed? (.claim n worker clock) = some d ∧ d.id = e.id := by
  have hanswers := Faulty.claim_answers h clock worker
  simp only [Crowd.claimed?, hfree]
  generalize ExecutionQueue.claim c.site.queue clock worker = answer at hanswers ⊢
  cases hanswers with
  | failed hout => exact absurd hdue.calm hout
  | answered hsound hclaims =>
    rename_i queue
    have hfirst := hdue.first
    generalize queue.live = live at hclaims
    cases hclaims with
    | nothing hnone => cases hnone.symm.trans hfirst
    | claimed hfirst' hid _ _ _ =>
      cases hfirst'.symm.trans hfirst
      exact ⟨_, rfl, hid⟩
    | discarded hfirst' hrun =>
      cases hfirst'.symm.trans hfirst
      obtain ⟨run, hnamed⟩ := hdue.named
      exact absurd hnamed (hrun run)
    | refused hfirst' hattempts =>
      cases hfirst'.symm.trans hfirst
      exact absurd ⟨hdue.counted, hlt⟩ hattempts

end

/-- An entry is executed at most once more often than it came back, and not more than once
if it never did, however many workers there are.  The next claim of it succeeds when it is
due, and reports how often the entry came back, as long as 32 bits hold the number. -/
theorem executions_le_attempts (o : Orchestrator) (hq : q.Sound) (ts : List Turn) (id : Int) :
    (gather o q).executionCount ts id ≤ 1 + (gather o q).returnCount ts id ∧
    ((gather o q).returnCount ts id = 0 → (gather o q).executionCount ts id ≤ 1) ∧
    (q.live.attemptsOf id + (gather o q).returnCount ts id < 4294967296 →
      (∀ t d, ((gather o q).run ts).claimed? t = some d → d.id = id →
        (d.attempts : Int) = q.live.attemptsOf id + (gather o q).returnCount ts id) ∧
      ∀ n worker clock e, ((gather o q).run ts).Due e → e.id = id →
        ((gather o q).run ts).hands n = none →
          ∃ d, ((gather o q).run ts).claimed? (.claim n worker clock) = some d ∧ d.id = id) := by
  have hsound := run_sound (c := gather o q) hq ts
  have hledger := ledger (o := o) hq ts id
  obtain ⟨before, -, hspent⟩ := spent (o := o) hq ts id
  have hclaims := hledger.claims_le
  have hbound : (gather o q).executionCount ts id ≤ 1 + (gather o q).returnCount ts id := by
    omega
  refine ⟨hbound, fun hnever => by omega, fun hlt => ⟨fun t d hclaimed hid => ?_, ?_⟩⟩
  · obtain ⟨e, he, heid, hattempts⟩ := attempts_of_claimed? hsound hclaimed
    rw [← hattempts]
    exact hledger.attempts hlt e he (heid.trans hid)
  · intro n worker clock e hdue hid hfree
    have he := (LiveQueue.of_first? hdue.first).1
    have hattempts := hledger.attempts hlt e he hid
    obtain ⟨d, hclaimed, hdid⟩ := hdue.claimed? hsound (by omega) hfree worker clock
    exact ⟨d, hclaimed, hdid.trans hid⟩

/-- Two workers that go by one name, at an entry of an approved run.  The first begins to
execute it, a minute later its claim is taken back, and the second executes it too. -/
def raced : List Turn :=
  [.claim 0 "a" default, .work 0 "a" default,
    .reclaim ⟨default, Duration.ofSeconds 60⟩ (Duration.ofSeconds 60),
    .claim 1 "a" default, .work 1 "a" default]

theorem executions_le_attempts_raced :
    let site := ((Floor.idle (.new .requesterOnly) (.memory (.new 1))).run
      (Action.say 0 "run backup" ++ Action.say 1 "yes run-0-0000")).site
    let c := gather site.orchestrator site.queue.queue
    c.executionCount raced 1 = 2 ∧ c.returnCount raced 1 = 1 ∧
      c.executionCount raced 1 ≤ 1 + c.returnCount raced 1 ∧
      ((c.run (raced.take 3)).claimed? (.claim 1 "a" default)).map (·.attempts) = some 1 := by
  intro site c
  have hsound : site.queue.queue.Sound :=
    Floor.run_sound (f := Floor.idle (.new .requesterOnly) (.memory (.new 1)))
      (MemoryQueue.new_sound 1) _
  exact ⟨rfl, rfl, (executions_le_attempts site.orchestrator hsound raced 1).1, rfl⟩

end Crowd
end JobGate
