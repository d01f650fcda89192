/-
What can be relied on once settings have been checked.

`Settings.fault?` names the first thing that is wrong, so settings without a fault pass
every check, and each consequence that something else depends on is drawn here.
-/
import JobGate.Service.Setup
import Mathlib.Tactic.SplitIfs

namespace JobGate

theorem heartbeatInterval_pos (timeout : Nat) : 0 < heartbeatInterval timeout := by
  have hpos : 0 < shortestHeartbeat := by decide
  exact Nat.lt_of_lt_of_le hpos (Nat.le_max_right _ _)

/-- The time between two renewals is at most a third of a timeout of a second or more. -/
theorem heartbeatInterval_le {timeout : Nat} (h : Duration.perSecond ≤ timeout) :
    heartbeatInterval timeout ≤ timeout / 3 := by
  unfold heartbeatInterval shortestHeartbeat Duration.ofMillis Duration.perMilli
  unfold Duration.perSecond at h
  omega

namespace Settings

variable {s : Settings}

theorem fault?_eq_none (h : s.fault? = none) :
    queueFault? s.queue = none ∧ workerFault? s.workers = none ∧
      approvalFault? s.approval = none ∧ runFault? s.runs = none ∧
      ∀ job ∈ s.jobs, jobFault? job.1 job.2 = none := by
  simpa only [fault?, Option.or_eq_none_iff, List.findSome?_eq_none_iff, and_assoc] using h

theorem jobFault?_eq_none (h : s.fault? = none) {key : String} {job : Job}
    (hjob : (key, job) ∈ s.jobs) : jobFault? key job = none :=
  (fault?_eq_none h).2.2.2.2 _ hjob

/-- A timeout of claims that can be used is at least a second. -/
theorem perSecond_le_lockTimeout (h : s.fault? = none) :
    Duration.perSecond ≤ (Crew.ofSettings s).lockTimeout := by
  have hqueue := (fault?_eq_none h).1
  unfold queueFault? at hqueue
  split_ifs at hqueue with _ htimeout
  exact Nat.le_mul_of_pos_left _ (Nat.pos_of_ne_zero htimeout)

/-- Somebody may decide on any run whose requester has a name, and has a name too. -/
theorem exists_mayDecide (h : s.fault? = none) {run : Run}
    (hrequester : Text.isEmptyTrimmed run.requestedBy = false) :
    ∃ sender, Text.isEmptyTrimmed sender = false ∧
      Policy.ofSettings s.approval run sender = true := by
  have happroval := (fault?_eq_none h).2.2.1
  unfold approvalFault? at happroval
  split_ifs at happroval with hnobody hblank
  unfold Policy.ofSettings Policy.approverList
  cases hallow : s.approval.allowRequester with
  | true => exact ⟨run.requestedBy, hrequester, by simp⟩
  | false =>
    rw [hallow, Bool.not_false, Bool.true_and] at hnobody
    obtain ⟨approver, hmem⟩ : ∃ approver, approver ∈ s.approval.approvers :=
      List.exists_mem_of_ne_nil _ fun hnil => hnobody (by rw [hnil]; rfl)
    have hnamed : ¬ Text.isEmptyTrimmed approver = true := fun hempty =>
      hblank (List.any_eq_true.2 ⟨approver, hmem, hempty⟩)
    exact ⟨approver, Bool.eq_false_iff.2 hnamed, by simp [hmem]⟩

end Settings
end JobGate
