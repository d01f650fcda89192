/-
Reports that are delivered again.

A worker that does not hear back reports again, and the second report may come at any time
after the first: behind the end of the run, or behind calls that had nothing to do with
it.  What makes this safe is that the status of a run only moves on.  Once a report has had
its effect the run has come so far that the same report is refused as a duplicate
(`Heeded`), and no call brings it back.
-/
import JobGate.Proofs.Orchestrator.Calls

namespace JobGate

inductive Callback
  | started (run worker : String)
  | completed (run worker : String) (success : Bool) (summary : String)

namespace Callback

def run : Callback → String
  | started run _ | completed run _ _ _ => run

def worker : Callback → String
  | started _ worker | completed _ worker _ _ => worker

def kind : Callback → EventKind
  | started _ _ => .started
  | completed _ _ success _ => Orchestrator.endKind success

def call (report : Callback) (clock : Readings) : Orchestrator.Call :=
  match report with
  | started run worker => .onStarted clock run worker
  | completed run worker success summary => .onCompleted clock run worker success summary

end Callback

namespace Orchestrator

/-- Deliveries from some moment on: calls, and among them the same report once more. -/
inductive Delivery
  | call (c : Call)
  | again (clock : Readings)

namespace Delivery

def toCall (report : Callback) : Delivery → Call
  | call c => c
  | again clock => report.call clock

def call? : Delivery → Option Call
  | call c => some c
  | again _ => none

end Delivery

/-! ## Duplicates -/

/-- A duplicate is told from the stage that the run has come to. -/
theorem refusal_eq_duplicate_iff {kind : EventKind} {status : Status} :
    refusal kind status = .duplicate ↔ kind = .started ∧ 4 ≤ status.stage ∨
      (kind = .succeeded ∨ kind = .failed) ∧ 5 ≤ status.stage := by
  cases kind <;> cases status <;> decide

theorem refusal_of_stage_le {kind : EventKind} {s t : Status} (hle : s.stage ≤ t.stage)
    (hs : refusal kind s = .duplicate) : refusal kind t = .duplicate := by
  rw [refusal_eq_duplicate_iff] at hs ⊢
  rcases hs with ⟨hkind, hs⟩ | ⟨hkind, hs⟩
  · exact .inl ⟨hkind, Nat.le_trans hs hle⟩
  · exact .inr ⟨hkind, Nat.le_trans hs hle⟩

theorem apply_of_refusal {kind : EventKind} {status : Status}
    (h : refusal kind status = .duplicate) : status.apply kind = none := by
  cases kind <;> cases status <;> first | rfl | cases h

theorem refusal_of_apply {report : Callback} {s t : Status} (h : s.apply report.kind = some t) :
    refusal report.kind t = .duplicate := by
  cases report with
  | started run worker =>
    cases s <;> first | cases h; rfl | cases h
  | completed run worker success summary =>
    cases success <;> cases s <;> first | cases h; rfl | cases h

/-- The report has had its effect, or the run was over before it could. -/
def Heeded (report : Callback) (o : Orchestrator) : Prop :=
  ∃ r, o.store.find? report.run = some r ∧ refusal report.kind r.status = .duplicate

variable {o : Orchestrator} {report : Callback}

theorem callback_reported (o : Orchestrator) (report : Callback) (clock : Readings) :
    ∃ outcome o', o.perform (report.call clock) = (.execution (.ok outcome), o') ∧
      o.Reported report.run report.kind report.worker outcome o' := by
  cases report with
  | started run worker =>
    obtain ⟨outcome, o', heq, h⟩ := o.onStarted_reported clock run worker
    exact ⟨outcome, o', by simp only [Callback.call, perform, heq], h⟩
  | completed run worker success summary =>
    obtain ⟨outcome, o', heq, h⟩ := o.onCompleted_reported clock run worker success summary
    exact ⟨outcome, o', by simp only [Callback.call, perform, heq], h⟩

/-- A report that is applied is heeded then, and so is one that is told to be a duplicate. -/
theorem heeded_of_answer {clock : Readings} {outcome : ExecutionOutcome}
    (hanswer : (o.perform (report.call clock)).1 = .execution (.ok outcome))
    (htook : outcome.applied = true ∨ outcome.condition = some .duplicate) :
    Heeded report (o.perform (report.call clock)).2 := by
  obtain ⟨outcome', o', heq, hreported⟩ := callback_reported o report clock
  rw [heq] at hanswer ⊢
  cases hanswer
  cases hreported with
  | unknown _ => rcases htook with h | h <;> cases h
  | refused hfind _ =>
    rcases htook with happlied | hduplicate
    · cases happlied
    · exact ⟨_, hfind, Option.some.inj hduplicate⟩
  | took hfind happend =>
    exact ⟨_, RunStore.find?_put_of_append hfind happend,
      refusal_of_apply (RunRecord.append_apply happend)⟩

namespace Heeded

theorem again (h : Heeded report o) (clock : Readings) :
    ∃ status, o.perform (report.call clock) =
      (.execution (.ok (.unchanged report.run status .duplicate)), o) := by
  obtain ⟨r, hfind, hduplicate⟩ := h
  obtain ⟨outcome, o', heq, hreported⟩ := callback_reported o report clock
  cases hreported with
  | unknown hnone => cases hfind.symm.trans hnone
  | refused hfind' _ =>
    cases hfind.symm.trans hfind'
    exact ⟨r.status, by rw [heq, hduplicate]⟩
  | took hfind' happend =>
    cases hfind.symm.trans hfind'
    have happly := RunRecord.append_apply happend
    rw [apply_of_refusal hduplicate] at happly
    cases happly

theorem perform (h : Heeded report o) (c : Call) : Heeded report (o.perform c).2 := by
  obtain ⟨r, hfind, hduplicate⟩ := h
  obtain ⟨r', hfind', hlater⟩ := (perform_effect o c).2.grows hfind
  exact ⟨r', hfind', refusal_of_stage_le hlater.stage_le hduplicate⟩

end Heeded

/-! ## Histories -/

def answered (o : Orchestrator) (report : Callback) (plan : List Delivery) :
    List (Delivery × Answer) :=
  plan.zip (o.answers (plan.map (·.toCall report)))

def answersToCalls (o : Orchestrator) (report : Callback) (plan : List Delivery) : List Answer :=
  (o.answered report plan).filterMap fun p => p.1.call?.map fun _ => p.2

theorem answered_cons (o : Orchestrator) (report : Callback) (x : Delivery)
    (rest : List Delivery) :
    o.answered report (x :: rest) = (x, (o.perform (x.toCall report)).1) ::
      (o.perform (x.toCall report)).2.answered report rest := rfl

theorem Heeded.deliveries (h : Heeded report o) (plan : List Delivery) :
    o.after (plan.map (·.toCall report)) = o.after (plan.filterMap (·.call?)) ∧
      o.answersToCalls report plan = o.answers (plan.filterMap (·.call?)) ∧
      ∀ p ∈ o.answered report plan, p.1.call? = none →
        ∃ status, p.2 = .execution (.ok (.unchanged report.run status .duplicate)) := by
  induction plan generalizing o with
  | nil => exact ⟨rfl, rfl, fun p hp => by cases hp⟩
  | cons x rest ih =>
    cases x with
    | call c =>
      -- the call may well move the run, but the report stays heeded
      obtain ⟨hafter, hanswers, hagain⟩ := ih (h.perform c)
      refine ⟨hafter, congrArg ((o.perform c).1 :: ·) hanswers, fun p hp hnone => ?_⟩
      rcases List.mem_cons.1 hp with rfl | hp
      · cases hnone
      · exact hagain p hp hnone
    | again clock =>
      -- the report leaves the orchestrator as it is, and the rest goes on from there
      obtain ⟨status, heq⟩ := h.again clock
      have hrest := answered_cons o report (.again clock) rest
      rw [Delivery.toCall, heq] at hrest
      obtain ⟨hafter, hanswers, hagain⟩ := ih h
      refine ⟨?_, ?_, fun p hp hnone => ?_⟩
      · show (o.perform (report.call clock)).2.after _ = _
        rw [heq]
        exact hafter
      · rw [answersToCalls, hrest]
        exact hanswers
      · rw [hrest] at hp
        rcases List.mem_cons.1 hp with rfl | hp
        · exact ⟨status, rfl⟩
        · exact hagain p hp hnone

/-- A report that is applied or told to be a duplicate may be delivered again, as often and
as late as it happens: every further delivery is told to be a duplicate and tells nobody,
and all other calls are answered, and leave the orchestrator, as if there had been none. -/
theorem redelivery_ignored (o : Orchestrator) (report : Callback) (clock : Readings)
    (outcome : ExecutionOutcome)
    (hanswer : (o.perform (report.call clock)).1 = .execution (.ok outcome))
    (htook : outcome.applied = true ∨ outcome.condition = some .duplicate)
    (plan : List Delivery) :
    let o' := (o.perform (report.call clock)).2
    o'.after (plan.map (·.toCall report)) = o'.after (plan.filterMap (·.call?)) ∧
      o'.answersToCalls report plan = o'.answers (plan.filterMap (·.call?)) ∧
      ∀ p ∈ o'.answered report plan, p.1.call? = none →
        ∃ again, p.2 = .execution (.ok again) ∧ again.applied = false ∧
          again.condition = some .duplicate ∧ again.notices = [] := by
  obtain ⟨hafter, hanswers, hagain⟩ := (heeded_of_answer hanswer htook).deliveries plan
  refine ⟨hafter, hanswers, fun p hp hnone => ?_⟩
  obtain ⟨status, heq⟩ := hagain p hp hnone
  exact ⟨_, heq, rfl, rfl, rfl⟩

def backupApproved : Orchestrator :=
  (new .requesterOnly).after
    (["run backup", "yes run-0-0000"].map fun body =>
      .handle default (.ofList [some 0]) ⟨"chat", "ann", "ops", body, none⟩ (.parse body))

/-- The start of a backup is reported three times, the second time before it times out and
the third time after that. -/
theorem redelivery_ignored_backup :
    let report := Callback.started "run-0-0000" "w"
    let o := (backupApproved.perform (report.call default)).2
    let plan := [.again default, .call (.onTimeout default "run-0-0000" "late"), .again default]
    (o.answered report plan).length = 3 ∧
      o.after (plan.map (·.toCall report)) =
        o.after [.onTimeout default "run-0-0000" "late"] ∧
      ∀ p ∈ o.answered report plan, p.1.call? = none →
        ∃ again, p.2 = .execution (.ok again) ∧ again.applied = false ∧
          again.condition = some .duplicate ∧ again.notices = [] := by
  intro report o plan
  obtain ⟨outcome, hanswer, happlied⟩ : ∃ outcome,
      (backupApproved.perform (report.call default)).1 = .execution (.ok outcome) ∧
        outcome.applied = true := ⟨_, rfl, rfl⟩
  obtain ⟨hafter, -, hagain⟩ :=
    redelivery_ignored backupApproved report default outcome hanswer (.inl happlied) plan
  exact ⟨rfl, hafter, hagain⟩

end Orchestrator
end JobGate
