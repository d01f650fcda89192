/-
What a worker on watch does.

What it finds tells everything else that it does: the reports it makes, and how long it sleeps.
How long that is depends on how many times in a row it has found no entry (`Finding.idle`), and
nothing else of the past matters.  That is the invariant of a watch (`Watch.Follows`), which a
step preserves whatever the surroundings are like.
-/
import JobGate.Service.Setup
import JobGate.Worker.Watch
import Mathlib.Algebra.Ring.Nat
import Mathlib.Data.List.DropRight

namespace JobGate

/-! ## Waits -/

namespace Polling

def waitAfter (p : Polling) (k : Nat) : Nat := min p.longest (p.shortest * 2 ^ (k - 1))

/-- The limits are in order, and are lengths of time. -/
structure Lawful (p : Polling) : Prop where
  ordered : p.shortest ≤ p.longest
  bounded : p.longest ≤ Duration.longest

namespace Lawful

variable {p : Polling} {k : Nat}

theorem waitAfter_one (h : p.Lawful) : p.waitAfter 1 = p.shortest := by
  have hordered := h.ordered
  unfold waitAfter
  omega

/-- A sleep that is too long to be doubled is the longest one already. -/
theorem next_waitAfter (h : p.Lawful) (hk : 0 < k) :
    p.next (p.waitAfter k) = p.waitAfter (k + 1) := by
  obtain ⟨j, rfl⟩ := Nat.exists_eq_add_of_lt hk
  have hordered := h.ordered
  have hbounded := h.bounded
  have hgrows : p.shortest ≤ p.shortest * 2 ^ j := Nat.le_mul_of_pos_right _ (Nat.two_pow_pos j)
  have hdouble : p.shortest * 2 ^ (j + 1) = 2 * (p.shortest * 2 ^ j) := by
    rw [Nat.pow_succ, ← Nat.mul_assoc, Nat.mul_comm 2]
  unfold next waitAfter Duration.double
  rw [show 0 + j + 1 - 1 = j by omega, show 0 + j + 1 + 1 - 1 = j + 1 by omega, hdouble]
  omega

end Lawful
end Polling

/-! ## Findings -/

namespace Finding

def isEntry : Finding → Bool
  | .ok (some _) => true
  | .ok none | .error _ => false

def report? (worker : String) (time : Int) : Finding → Option WorkerEvent
  | .error e => some (.error worker time e.message)
  | .ok _ => none

/-- How many times in a row no entry has been found lately. -/
def idle (fs : List Finding) : Nat := (fs.rtakeWhile fun f => !isEntry f).length

theorem idle_concat (fs : List Finding) (f : Finding) :
    idle (fs ++ [f]) = if isEntry f then 0 else idle fs + 1 := by
  unfold idle
  rw [List.rtakeWhile_concat]
  cases isEntry f <;> simp

end Finding

namespace Polling

open Finding

/-- What a worker does about a finding, after those it has had before. -/
def response (p : Polling) (worker : String) (before : List Finding) (f : Finding) (time : Int) :
    List Act :=
  .looked f :: (report? worker time f).toList.map .reported ++
    if isEntry f then [] else [.slept (p.waitAfter (idle (before ++ [f])))]

/-- What a worker does about its findings, which come with the times of its reports. -/
def responses (p : Polling) (worker : String) (before : List Finding) :
    List (Finding × Int) → List Act
  | [] => []
  | (f, time) :: rest => p.response worker before f time ++ p.responses worker (before ++ [f]) rest

variable {p : Polling} {worker : String}

theorem responses_concat (before : List Finding) (found : List (Finding × Int)) (f : Finding)
    (time : Int) :
    p.responses worker before (found ++ [(f, time)]) =
      p.responses worker before found ++
        p.response worker (before ++ found.map (·.1)) f time := by
  induction found generalizing before with
  | nil => simp [responses]
  | cons x found ih => simp [responses, ih]

/-- Each error is reported once, and nothing else is. -/
theorem events_responses (before : List Finding) (found : List (Finding × Int)) :
    (p.responses worker before found).filterMap Act.event? =
      found.filterMap fun (f, time) => report? worker time f := by
  induction found generalizing before with
  | nil => rfl
  | cons x found ih =>
    obtain ⟨f, time⟩ := x
    rw [responses, List.filterMap_append, ih, List.filterMap_cons]
    rcases f with e | _ | entry <;> rfl

/-- The turn of a worker that has slept as long as its findings so far ask for. -/
theorem Lawful.turn_eq (h : p.Lawful) (before : List Finding) (f : Finding) :
    let t := p.turn (p.waitAfter (idle before + 1)) f
    (∀ worker time, t.report? worker time = report? worker time f) ∧
    t.wait = (if isEntry f then none else some (p.waitAfter (idle (before ++ [f])))) ∧
    t.next = p.waitAfter (idle (before ++ [f]) + 1) := by
  intro t
  rw [idle_concat]
  rcases f with e | _ | entry
  · exact ⟨fun _ _ => rfl, rfl, h.next_waitAfter (Nat.succ_pos _)⟩
  · exact ⟨fun _ _ => rfl, rfl, h.next_waitAfter (Nat.succ_pos _)⟩
  · exact ⟨fun _ _ => rfl, rfl, h.waitAfter_one.symm⟩

end Polling

/-! ## The watch -/

namespace Surroundings

variable {S : Type}

def Asked (around : Surroundings S) (place : S) : Prop :=
  around.stopped place = true ∨
    ∃ length asleep, around.sleep length asleep = (false, place)

end Surroundings

namespace Watch

open Finding Polling

variable {S : Type} {p : Polling} {around : Surroundings S} {worker : String} {place : S}
  {found : List (Finding × Int)} {w : Watch S}

/-- The worker has come to certain findings, and has done what it had to about them. -/
structure Follows (p : Polling) (around : Surroundings S) (worker : String) (place : S)
    (found : List (Finding × Int)) (w : Watch S) : Prop where
  acts : w.acts = .reported (.started worker (around.time place)) ::
    p.responses worker [] found ++
      if w.ended then [.reported (.stopped worker (around.time w.place))] else []
  wait : w.wait = p.waitAfter (idle (found.map (·.1)) + 1)
  asked : w.ended = true → around.Asked w.place

/-! ### What happens once the worker is asked to stop -/

theorem step_of_ended (h : w.ended = true) : w.step p around worker = w := if_pos h

namespace Follows

theorem start (h : p.Lawful) (around : Surroundings S) (worker : String) (place : S) :
    Follows p around worker place [] (Watch.start p around worker place) where
  acts := rfl
  wait := h.waitAfter_one.symm
  asked := nofun

theorem acts_of_on (h : Follows p around worker place found w) (hended : w.ended = false) :
    w.acts = .reported (.started worker (around.time place)) :: p.responses worker [] found := by
  rw [h.acts, hended, if_neg Bool.false_ne_true, List.append_nil]

theorem finish (h : Follows p around worker place found w) (hended : w.ended = false)
    (hasked : around.Asked w.place) :
    Follows p around worker place found (w.finish around worker) where
  acts := congrArg (· ++ _) (h.acts_of_on hended)
  wait := h.wait
  asked _ := hasked

/-- After another finding the worker reports an error, and sleeps if it is no entry. -/
theorem respond (h : Follows p around worker place found w) (hended : w.ended = false) (f : Finding)
    (time : Int) (seen : S) :
    Follows p around worker place (found ++ [(f, time)])
      { w with
        place := seen
        wait := p.waitAfter (idle (found.map (·.1) ++ [f]) + 1)
        acts := w.acts ++ p.response worker (found.map (·.1)) f time } where
  acts := by
    show w.acts ++ _ = _
    rw [h.acts_of_on hended, hended, if_neg Bool.false_ne_true, List.append_nil, responses_concat]
    rfl
  wait := by rw [List.map_append, List.map_singleton]
  asked hstopped := absurd (hended.symm.trans hstopped) Bool.false_ne_true

/-- In a step the worker comes to one more finding, unless it is asked to stop first. -/
theorem step (h : Follows p around worker place found w) (hp : p.Lawful) :
    ∃ found', Follows p around worker place found' (w.step p around worker) ∧
      ((w.step p around worker).ended = false → found'.length = found.length + 1) := by
  unfold Watch.step
  cases hended : w.ended with
  | true => exact ⟨found, h, fun hstep => absurd (hended.symm.trans hstep) (by decide)⟩
  | false =>
    cases hstopped : around.stopped w.place with
    | true => exact ⟨found, h.finish hended (.inl hstopped), nofun⟩
    | false =>
      rcases around.look w.place with ⟨f, seen⟩
      obtain ⟨hreport, hturn, hnext⟩ := hp.turn_eq (found.map (·.1)) f
      rw [← h.wait] at hreport hturn hnext
      have hrespond := h.respond hended f (around.time seen)
      simp only [← hnext, hended, response] at hrespond
      simp only [Bool.false_eq_true, if_false, hreport]
      refine ⟨found ++ [(f, around.time seen)], ?_, fun _ => List.length_append⟩
      -- the worker sleeps just when it has found no entry
      cases hentry : isEntry f with
      | true =>
        rw [hentry, if_pos rfl] at hturn
        simp only [hentry, if_true, List.append_nil] at hrespond
        rw [hturn]
        exact hrespond seen
      | false =>
        rw [hentry, if_neg Bool.false_ne_true] at hturn
        simp only [hentry, Bool.false_eq_true, if_false, ← List.append_assoc] at hrespond
        rw [hturn]
        dsimp only
        split
        · exact hrespond _
        · exact (hrespond _).finish rfl (.inr ⟨_, _, Prod.ext (Bool.eq_false_iff.2 ‹_›) rfl⟩)

theorem run (h : p.Lawful) (around : Surroundings S) (worker : String) (place : S) (n : Nat) :
    let w := (Watch.start p around worker place).run p around worker n
    ∃ found, Follows p around worker place found w ∧ (w.ended = false → found.length = n) := by
  induction n with
  | zero => exact ⟨[], start h around worker place, fun _ => rfl⟩
  | succ n ih =>
    obtain ⟨found, hfollows, hlength⟩ := ih
    obtain ⟨found', hfollows', hlength'⟩ := hfollows.step h
    refine ⟨found', hfollows', fun hended => ?_⟩
    rw [hlength' hended, hlength (Bool.eq_false_iff.2 fun hbefore => ?_)]
    rw [Watch.run, step_of_ended hbefore, hbefore] at hended
    exact Bool.noConfusion hended

theorem events (h : Follows p around worker place found w) :
    w.acts.filterMap Act.event? = .started worker (around.time place) ::
      (found.filterMap fun (f, time) => report? worker time f) ++
        if w.ended then [.stopped worker (around.time w.place)] else [] := by
  rw [h.acts, List.cons_append, List.filterMap_cons, List.filterMap_append, events_responses]
  cases w.ended <;> rfl

end Follows

end Watch
end JobGate
