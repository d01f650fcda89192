/-
How an execution comes to its report.

A worker looks at a program until a look decides what it reports.  It does so once the program is
not running any more or the worker is asked to stop (`Jobs.follow_isSome_iff`), and what it reports
then is told by that look (`Jobs.exists_of_follow`), whatever the platform is like.
-/
import JobGate.Service.Execution

namespace JobGate
namespace Jobs

variable {program : String} {progress : Nat → Progress} {stopped : Nat → Bool} {n : Nat}
  {r : Report}

theorem Progress.report?_isSome_iff (p : Progress) (stopped : Bool) :
    (p.report? program stopped).isSome = true ↔ p ≠ .running ∨ stopped = true := by
  cases p with
  | running => cases stopped <;> simp [report?]
  | ended _ | unknown _ => simp [report?]

theorem follow_isSome_iff : (follow program progress stopped n).isSome = true ↔
    ∃ k < n, progress k ≠ .running ∨ stopped k = true := by
  induction n with
  | zero => simp [follow]
  | succ n ih =>
    rw [follow, Option.isSome_or, Bool.or_eq_true, ih, Progress.report?_isSome_iff,
      Nat.exists_lt_succ_right]

theorem exists_of_follow (h : follow program progress stopped n = some r) :
    ∃ k < n, (progress k).report? program (stopped k) = some r := by
  induction n with
  | zero => cases h
  | succ n ih =>
    rcases Option.or_eq_some_iff.1 h with h | ⟨-, h⟩
    · obtain ⟨k, hk, hlook⟩ := ih h
      exact ⟨k, Nat.lt_succ_of_lt hk, hlook⟩
    · exact ⟨n, Nat.lt_succ_self n, h⟩

end Jobs
end JobGate
