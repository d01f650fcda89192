/-
What the operations of workers and operators do to the runs.

Every one of them tries to append a single event to the log of a single run, and
`Reported` says how that can end, and with what answer; `Attempt` keeps of it what
happens to the records.  None of them fails: each looks at the status before it
appends, and looks in the same way as `Status.apply` does.
-/
import JobGate.Orchestrator.Execution
import JobGate.Proofs.Message.Notice
import JobGate.Proofs.Run.Later
import JobGate.Proofs.Run.Store

namespace JobGate

/-- Every record found in one store is found in the other, and has become what it
is there by appended events. -/
def RunStore.Grows (s s' : RunStore) : Prop :=
  ∀ ⦃id r⦄, s.find? id = some r →
    ∃ r', s'.find? id = some r' ∧ RunRecord.Later (fun _ => True) r r'

namespace RunStore

theorem Grows.refl (s : RunStore) : s.Grows s := fun _ r h => ⟨r, h, .refl r⟩

theorem Grows.trans {s s' s'' : RunStore} (h : s.Grows s') (h' : s'.Grows s'') :
    s.Grows s'' := by
  intro id r hr
  obtain ⟨r', hr', hlater⟩ := h hr
  obtain ⟨r'', hr'', hlater'⟩ := h' hr'
  exact ⟨r'', hr'', hlater.trans hlater'⟩

theorem put_self {s : RunStore} {id : String} {r : RunRecord} (h : s.find? id = some r) :
    s.put r = s := by
  have hsame : ∀ x ∈ s.records, (if x.run.id = r.run.id then r else x) = x := by
    intro x hx
    by_cases hid : x.run.id = r.run.id
    · rw [if_pos hid]
      exact List.inj_on_of_nodup_map s.distinct (mem_of_find? h) hx hid.symm
    · rw [if_neg hid]
  unfold put
  congr 1
  exact (List.map_congr_left hsame).trans (List.map_id' _)

/-- A record is found where it was after an event was appended to it. -/
theorem find?_put_of_append {s : RunStore} {run : String} {r r' : RunRecord} {kind : EventKind}
    {actor : String} {payload : Payload} {time : Instant} {e : Event}
    (hfind : s.find? run = some r) (happend : r.append kind actor payload time = .ok (e, r')) :
    (s.put r').find? run = some r' :=
  find?_put_of_id hfind (RunRecord.append_id happend)

end RunStore

/-- How an attempt to append an event to the log of a run can end.  The status is
the one that the run has afterwards. -/
inductive RunStore.Attempt (kind : EventKind) (actor run : String) (s : RunStore) :
    Option Status → RunStore → Prop
  /-- The run is not known. -/
  | unknown (hfind : s.find? run = none) : Attempt kind actor run s none s
  /-- The run does not take the event. -/
  | refused {r : RunRecord} (hfind : s.find? run = some r)
      (hrefuse : r.status.apply kind = none) : Attempt kind actor run s (some r.status) s
  | took {r r' : RunRecord} {payload : Payload} {time : Instant} {e : Event}
      (hfind : s.find? run = some r)
      (happend : r.append kind actor payload time = .ok (e, r')) :
      Attempt kind actor run s (some r'.status) (s.put r')

/-- The same runs are known, and have changed only by what happens to a run after
the decision on it. -/
def RunStore.Moved (s s' : RunStore) : Prop :=
  ∀ id, Option.Rel (RunRecord.Later (·.isExecution = true)) (s.find? id) (s'.find? id)

/-- The workers have yet to end the run. -/
def RunStore.Busy (s : RunStore) (run : String) : Prop :=
  ∃ r, s.find? run = some r ∧ r.status.isBusy = true

namespace RunStore

variable {s s' s'' : RunStore}

namespace Moved

theorem refl (s : RunStore) : s.Moved s := by
  intro id
  cases s.find? id with
  | none => exact .none
  | some r => exact .some (.refl r)

theorem trans (h : s.Moved s') (h' : s'.Moved s'') : s.Moved s'' := by
  intro id
  have hfirst := h id
  have hsecond := h' id
  generalize s.find? id = a, s'.find? id = b, s''.find? id = c at hfirst hsecond ⊢
  cases hfirst with
  | none => exact hsecond
  | some hlater =>
    cases hsecond with
    | some hlater' => exact .some (hlater.trans hlater')

theorem after (h : s.Moved s') {id : String} {r : RunRecord} (hr : s.find? id = some r) :
    ∃ r', s'.find? id = some r' ∧ RunRecord.Later (·.isExecution = true) r r' := by
  have hrel := h id
  rw [hr] at hrel
  generalize s'.find? id = found at hrel ⊢
  cases hrel with
  | some hlater => exact ⟨_, rfl, hlater⟩

theorem before (h : s.Moved s') {id : String} {r' : RunRecord} (hr' : s'.find? id = some r') :
    ∃ r, s.find? id = some r ∧ RunRecord.Later (·.isExecution = true) r r' := by
  have hrel := h id
  rw [hr'] at hrel
  generalize s.find? id = found at hrel ⊢
  cases hrel with
  | some hlater => exact ⟨_, rfl, hlater⟩

theorem grows (h : s.Moved s') : s.Grows s' := by
  intro id r hr
  obtain ⟨r', hr', hlater⟩ := h.after hr
  exact ⟨r', hr', hlater.mono fun _ _ => trivial⟩

theorem busy (h : s.Moved s') {run : String} (hbusy : s'.Busy run) : s.Busy run := by
  obtain ⟨r', hr', hbusy⟩ := hbusy
  obtain ⟨r, hr, hlater⟩ := h.before hr'
  exact ⟨r, hr, hlater.isBusy hbusy⟩

theorem of_put {r r' : RunRecord} (hfind : s.find? r.run.id.text = some r)
    (hlater : RunRecord.Later (·.isExecution = true) r r') : s.Moved (s.put r') := by
  have hid : r'.run.id = r.run.id := by rw [hlater.run]
  intro id
  rw [find?_put, hid]
  by_cases h : r.run.id.text = id
  · rw [if_pos h, ← h, hfind]
    exact .some hlater
  · rw [if_neg h]
    exact refl s id

end Moved

namespace Attempt

variable {kind : EventKind} {actor run : String} {status : Option Status}

theorem moved (h : Attempt kind actor run s status s') (hkind : kind.isExecution = true) :
    s.Moved s' := by
  cases h with
  | unknown _ => exact .refl s
  | refused _ _ => exact .refl s
  | took hfind happend =>
    have hrun := text_of_find? hfind
    exact .of_put (hrun ▸ hfind) (.of_append hkind happend)

theorem status_eq (h : Attempt kind actor run s status s') :
    (s'.find? run).map (·.status) = status := by
  cases h with
  | unknown hfind => rw [hfind, Option.map_none]
  | refused hfind _ => rw [hfind, Option.map_some]
  | took hfind happend => rw [find?_put_of_append hfind happend, Option.map_some]

/-- The logs of other runs are left alone. -/
theorem others (h : Attempt kind actor run s status s') {id : String} (hne : run ≠ id) :
    s'.find? id = s.find? id := by
  cases h with
  | unknown _ => rfl
  | refused _ _ => rfl
  | took hfind happend =>
    rw [find?_put, RunRecord.append_id happend, text_of_find? hfind, if_neg hne]

end Attempt
end RunStore

namespace Orchestrator

/-! ## The operations -/

variable (o : Orchestrator) (clock : Readings) (run : String)

theorem appendChecked_eq {r : RunRecord} {kind : EventKind} {next : Status}
    (h : r.status.apply kind = some next) (actor : String) (payload : Payload) (time : Instant) :
    ∃ e r', r.append kind actor payload time = .ok (e, r') ∧
      appendChecked r kind actor payload time = .ok (e, r') := by
  obtain ⟨e, r', happend, -⟩ := RunRecord.exists_append h actor payload time
  exact ⟨e, r', happend, by unfold appendChecked; rw [happend]; rfl⟩

/-- What is told of an event that the run does not take.  A worker may report twice, and
late; others are told that the run is over. -/
def refusal (kind : EventKind) (status : Status) : ExecutionCondition :=
  match kind with
  | .started =>
    if status = .running || status.isTerminal then .duplicate else .invalidTransition
  | .succeeded | .failed => if status.isTerminal then .duplicate else .invalidTransition
  | _ => .invalidTransition

/-- How a report of an event of a run can end, with what is answered.  An event that is
appended is told of, and nothing else is. -/
inductive Reported (kind : EventKind) (actor : String) : ExecutionOutcome → Orchestrator → Prop
  | unknown (hfind : o.store.find? run = none) : Reported kind actor (.notFound run) o
  | refused {r : RunRecord} (hfind : o.store.find? run = some r)
      (hrefuse : r.status.apply kind = none) :
      Reported kind actor (.unchanged run r.status (refusal kind r.status)) o
  | took {r r' : RunRecord} {payload : Payload} {time : Instant} {e : Event} {body : String}
      (hfind : o.store.find? run = some r)
      (happend : r.append kind actor payload time = .ok (e, r')) :
      Reported kind actor (.changed run r'.status (Notice.ofKind kind r'.run e body)) (o.put r')

namespace Reported

variable {o run} {kind : EventKind} {actor : String} {outcome : ExecutionOutcome}
  {o' : Orchestrator}

theorem policy (h : o.Reported run kind actor outcome o') : o'.policy = o.policy := by
  cases h <;> rfl

theorem receipts (h : o.Reported run kind actor outcome o') : o'.receipts = o.receipts := by
  cases h <;> rfl

theorem run_eq (h : o.Reported run kind actor outcome o') : outcome.run = run := by
  cases h <;> rfl

theorem applied {r : RunRecord} {next : Status} (h : o.Reported run kind actor outcome o')
    (hfind : o.store.find? run = some r) (hnext : r.status.apply kind = some next) :
    outcome.applied = true := by
  cases h with
  | unknown hnone => cases hfind.symm.trans hnone
  | refused hfind' hrefuse =>
    cases hfind.symm.trans hfind'
    cases hrefuse.symm.trans hnext
  | took _ _ => rfl

theorem attempt (h : o.Reported run kind actor outcome o') :
    o.store.Attempt kind actor run outcome.status o'.store := by
  cases h with
  | unknown hfind => exact .unknown hfind
  | refused hfind hrefuse => exact .refused hfind hrefuse
  | took hfind happend => exact .took hfind happend

end Reported

theorem onStarted_reported (worker : String) :
    ∃ outcome o', o.onStarted clock run worker = (.ok outcome, o') ∧
      o.Reported run .started worker outcome o' := by
  unfold onStarted
  cases hfind : o.store.find? run with
  | none => exact ⟨_, _, rfl, .unknown hfind⟩
  | some r =>
    by_cases hd : r.status = .dispatching
    · have hnext : r.status.apply .started = some .running := by rw [hd]; rfl
      obtain ⟨e, r', happend, hchecked⟩ := appendChecked_eq hnext worker
        (Payload.ofTexts [("workerId", worker)]) (clock 0)
      simp only [hd, if_true, start, hchecked]
      have htook : o.Reported run .started worker
          (.changed run r'.status (Notice.ofKind .started r'.run e "")) (o.put r') :=
        .took hfind happend
      exact ⟨_, _, rfl, htook⟩
    · have hrefuse : r.status.apply .started = none := by
        cases hs : r.status <;> first | rfl | exact absurd hs hd
      have hrefused : o.Reported run .started worker _ o := .refused hfind hrefuse
      simp only [hd, if_false]
      by_cases hover : (r.status = .running || r.status.isTerminal) = true
      · rw [refusal, if_pos hover] at hrefused
        rw [if_pos hover]
        exact ⟨_, _, rfl, hrefused⟩
      · rw [refusal, if_neg hover] at hrefused
        rw [if_neg hover]
        exact ⟨_, _, rfl, hrefused⟩

theorem onStarted_attempt (worker : String) :
    ∃ outcome o', o.onStarted clock run worker = (.ok outcome, o') ∧ o'.policy = o.policy ∧
      o.store.Attempt .started worker run outcome.status o'.store := by
  obtain ⟨outcome, o', heq, hreported⟩ := o.onStarted_reported clock run worker
  exact ⟨outcome, o', heq, hreported.policy, hreported.attempt⟩

def endKind (success : Bool) : EventKind := if success then .succeeded else .failed

theorem refusal_endKind (success : Bool) (status : Status) :
    refusal (endKind success) status =
      if status.isTerminal then .duplicate else .invalidTransition := by
  cases success <;> rfl

theorem onCompleted_reported (worker : String) (success : Bool) (summary : String) :
    ∃ outcome o', o.onCompleted clock run worker success summary = (.ok outcome, o') ∧
      o.Reported run (endKind success) worker outcome o' := by
  unfold onCompleted
  cases hfind : o.store.find? run with
  | none => exact ⟨_, _, rfl, .unknown hfind⟩
  | some r =>
    by_cases hr : r.status = .running
    · obtain ⟨next, hnext⟩ : ∃ next, r.status.apply (endKind success) = some next := by
        rw [hr]
        cases success
        · exact ⟨_, rfl⟩
        · exact ⟨_, rfl⟩
      obtain ⟨e, r', happend, hchecked⟩ := appendChecked_eq hnext worker
        (Payload.ofTexts [("summary", summary), ("workerId", worker)]) (clock 0)
      simp only [hr, Status.isTerminal, Bool.false_eq_true, if_false, ne_eq, not_true, finish]
      rw [show (if success = true then EventKind.succeeded else .failed) = endKind success from
        rfl, hchecked]
      cases success with
      | false => exact ⟨_, _, rfl, .took hfind happend⟩
      | true => exact ⟨_, _, rfl, .took hfind happend⟩
    · have hrefuse : r.status.apply (endKind success) = none := by
        cases hs : r.status <;> cases success <;> first | rfl | exact absurd hs hr
      have hrefused : o.Reported run (endKind success) worker _ o := .refused hfind hrefuse
      rw [refusal_endKind] at hrefused
      by_cases hover : r.status.isTerminal = true
      · rw [if_pos hover] at hrefused
        simp only [hover, if_true]
        exact ⟨_, _, rfl, hrefused⟩
      · rw [if_neg hover] at hrefused
        simp only [hover, hr, ne_eq, not_false_eq_true, if_true]
        exact ⟨_, _, rfl, hrefused⟩

theorem onCompleted_attempt (worker : String) (success : Bool) (summary : String) :
    ∃ outcome o', o.onCompleted clock run worker success summary = (.ok outcome, o') ∧
      o'.policy = o.policy ∧
      o.store.Attempt (endKind success) worker run outcome.status o'.store := by
  obtain ⟨outcome, o', heq, hreported⟩ := o.onCompleted_reported clock run worker success summary
  exact ⟨outcome, o', heq, hreported.policy, hreported.attempt⟩

theorem put_self {r : RunRecord} (hfind : o.store.find? run = some r) : o.put r = o := by
  rw [put, RunStore.put_self hfind]

theorem refusal_termination (t : Termination) (status : Status) :
    refusal t.kind status = .invalidTransition := by
  cases t <;> rfl

theorem terminateRecord_reported {r : RunRecord} (hfind : o.store.find? run = some r)
    (t : Termination) (reason : String) (time : Instant) :
    ∃ outcome r', terminateRecord r t reason time = (.ok outcome, r') ∧
      o.Reported run t.kind t.by_ outcome (o.put r') := by
  have hrun := RunStore.text_of_find? hfind
  unfold terminateRecord
  rw [hrun]
  cases hover : r.status.isTerminal with
  | true =>
    have hrefused : o.Reported run t.kind t.by_ _ o :=
      .refused hfind (Status.apply_eq_none hover t.kind)
    rw [refusal_termination] at hrefused
    simp only [if_true]
    exact ⟨_, _, rfl, (o.put_self run hfind).symm ▸ hrefused⟩
  | false =>
    obtain ⟨next, hnext⟩ : ∃ next, r.status.apply t.kind = some next := by
      cases t with
      | timeout => exact ⟨_, (Status.apply_ending hover).1⟩
      | cancel actor => exact ⟨_, (Status.apply_ending hover).2⟩
    obtain ⟨e, r', happend, hchecked⟩ := appendChecked_eq hnext t.by_
      (Payload.ofTexts [("previousStatus", r.status.name), ("reason", reason)]) time
    simp only [Bool.false_eq_true, if_false, hchecked]
    cases t with
    | timeout => exact ⟨_, _, rfl, .took hfind happend⟩
    | cancel actor => exact ⟨_, _, rfl, .took hfind happend⟩

theorem terminate_reported (t : Termination) (reason : String) :
    ∃ outcome o', o.terminate clock run t reason = (.ok outcome, o') ∧
      o.Reported run t.kind t.by_ outcome o' := by
  unfold terminate
  cases hfind : o.store.find? run with
  | none => exact ⟨_, _, rfl, .unknown hfind⟩
  | some r =>
    obtain ⟨outcome, r', heq, hreported⟩ :=
      o.terminateRecord_reported run hfind t reason (clock 0)
    simp only [heq]
    exact ⟨_, _, rfl, hreported⟩

theorem terminate_attempt (t : Termination) (reason : String) :
    ∃ outcome o', o.terminate clock run t reason = (.ok outcome, o') ∧ o'.policy = o.policy ∧
      o.store.Attempt t.kind t.by_ run outcome.status o'.store := by
  obtain ⟨outcome, o', heq, hreported⟩ := o.terminate_reported clock run t reason
  exact ⟨outcome, o', heq, hreported.policy, hreported.attempt⟩

theorem Termination.isExecution (t : Termination) : t.kind.isExecution = true := by
  cases t <;> rfl

theorem endKind_isExecution (success : Bool) : (endKind success).isExecution = true := by
  cases success <;> rfl

inductive Sweeps : Orchestrator → List ExecutionOutcome → Orchestrator → Prop
  | done (o : Orchestrator) : Sweeps o [] o
  | next {o o' o'' : Orchestrator} {run : String} {outcome : ExecutionOutcome}
      {outcomes : List ExecutionOutcome}
      (hfirst : o.Reported run .timedOut Orchestrator.actor outcome o')
      (happlied : outcome.applied = true) (hrest : Sweeps o' outcomes o'') :
      Sweeps o (outcome :: outcomes) o''

namespace Sweeps

variable {o} {outcomes : List ExecutionOutcome} {o' : Orchestrator}

theorem policy (h : Sweeps o outcomes o') : o'.policy = o.policy := by
  induction h with
  | done _ => rfl
  | next hfirst _ _ ih => rw [ih, hfirst.policy]

theorem receipts (h : Sweeps o outcomes o') : o'.receipts = o.receipts := by
  induction h with
  | done _ => rfl
  | next hfirst _ _ ih => rw [ih, hfirst.receipts]

theorem moved (h : Sweeps o outcomes o') : o.store.Moved o'.store := by
  induction h with
  | done o => exact .refl o.store
  | next hfirst _ _ ih => exact (hfirst.attempt.moved rfl).trans ih

/-- Only the runs that are reported change. -/
theorem others (h : Sweeps o outcomes o') {run : String} (hnot : ∀ x ∈ outcomes, x.run ≠ run) :
    o'.store.find? run = o.store.find? run := by
  induction h with
  | done _ => rfl
  | next hfirst _ _ ih =>
    have hne := hfirst.run_eq ▸ hnot _ List.mem_cons_self
    rw [ih fun x hx => hnot x (List.mem_cons_of_mem _ hx), hfirst.attempt.others hne]

end Sweeps

/-- Timing out runs never fails, however many they are. -/
theorem timeOutEach_sweeps (cutoff : Instant) (ids : List RunId) (done : List ExecutionOutcome) :
    ∃ outcomes o', o.timeOutEach cutoff clock ids done = (.ok (done.reverse ++ outcomes), o') ∧
      Sweeps o outcomes o' := by
  induction ids generalizing o done with
  | nil => exact ⟨[], o, by rw [List.append_nil]; rfl, .done o⟩
  | cons id rest ih =>
    unfold timeOutEach
    cases hfind : o.store.find? id.text with
    | none => exact ih o done
    | some r =>
      by_cases hstale : isStale cutoff r = true
      · obtain ⟨outcome, r', heq, hreported⟩ :=
          o.terminateRecord_reported id.text hfind .timeout staleReason (clock done.length)
        have hactive : r.status.isTerminal = false := by
          simp only [isStale, Bool.and_eq_true, Bool.not_eq_true'] at hstale
          exact hstale.1
        have happlied := hreported.applied hfind (Status.apply_ending hactive).1
        obtain ⟨outcomes, o', hrest, hsweeps⟩ := ih (o.put r') (outcome :: done)
        simp only [hstale, if_true, heq]
        refine ⟨outcome :: outcomes, o', ?_, .next hreported happlied hsweeps⟩
        rw [hrest, List.reverse_cons, List.append_assoc]
        rfl
      · simp only [hstale, Bool.false_eq_true, if_false]
        exact ih o done

theorem timeOutStale_sweeps (maxAge : Nat) (now : Instant) :
    ∃ outcomes o', o.timeOutStale clock maxAge now = (.ok outcomes, o') ∧
      Sweeps o outcomes o' := by
  unfold timeOutStale
  cases now.sub? maxAge with
  | none => exact ⟨_, _, rfl, .done o⟩
  | some cutoff =>
    obtain ⟨outcomes, o', heq, hsweeps⟩ := o.timeOutEach_sweeps clock cutoff o.store.ids []
    exact ⟨outcomes, o', heq, hsweeps⟩

theorem timeOutStale_moved (maxAge : Nat) (now : Instant) :
    ∃ outcomes o', o.timeOutStale clock maxAge now = (.ok outcomes, o') ∧
      o'.policy = o.policy ∧ o.store.Moved o'.store ∧
      ∀ run, (∀ x ∈ outcomes, x.run ≠ run) → o'.store.find? run = o.store.find? run := by
  obtain ⟨outcomes, o', heq, hsweeps⟩ := o.timeOutStale_sweeps clock maxAge now
  exact ⟨outcomes, o', heq, hsweeps.policy, hsweeps.moved, fun _ hnot => hsweeps.others hnot⟩

end Orchestrator
end JobGate
