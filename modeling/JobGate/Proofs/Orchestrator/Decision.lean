/-
A run is decided on once, and handed to the workers once.

Whether a run was decided on is read off its log.  A call adds an approval to a log just
when its answer carries the dispatch of that run (`Effect.count`), so that the dispatches
of a whole history are counted by the log, and a log that can be replayed holds nothing
twice.  What a single call for a decision comes to is a `Ruling`.
-/
import JobGate.Proofs.Orchestrator.Consistency

namespace JobGate

/-! ## Counting events -/

namespace RunRecord

def count (r : RunRecord) (kind : EventKind) : Nat := (r.events.map (·.kind)).count kind

variable {r r' : RunRecord} {kind : EventKind}

theorem count_append {k : EventKind} {actor : String} {payload : Payload} {time : Instant}
    {e : Event} (h : r.append k actor payload time = .ok (e, r')) :
    r'.count kind = r.count kind + if k = kind then 1 else 0 := by
  obtain ⟨hevents, hkind, -⟩ := append_events h
  unfold count
  rw [hevents, List.map_append, List.count_append, List.map_singleton, hkind,
    List.count_singleton]
  simp only [beq_iff_eq]

theorem Later.count (h : Later (·.isExecution = true) r r') (hkind : kind.isExecution = false) :
    r'.count kind = r.count kind := by
  refine h.preserves (P := fun x => x.count kind = r.count kind) ?_ rfl
  intro x x' k actor payload time e hk happend ih
  have hne : k ≠ kind := by
    rintro rfl
    rw [hkind] at hk
    cases hk
  rw [count_append happend, ih, if_neg hne, Nat.add_zero]

theorem Faithful.count_le_one (h : r.Faithful) (kind : EventKind) : r.count kind ≤ 1 :=
  List.nodup_iff_count_le_one.1 (nodup_kinds_of_replay h) kind

theorem Faithful.not_approved_and_denied (h : r.Faithful) :
    r.count .approved = 0 ∨ r.count .denied = 0 := by
  by_cases hdenied : .denied ∈ r.events.map (·.kind)
  · exact .inl (List.count_eq_zero.2 (not_approved_of_denied h hdenied))
  · exact .inr (List.count_eq_zero.2 hdenied)

end RunRecord

/-- The kinds of events by which a run is handed to the workers. -/
def EventKind.IsHandover (kind : EventKind) : Prop := kind = .approved ∨ kind = .dispatched

theorem EventKind.IsHandover.ne {kind : EventKind} (h : kind.IsHandover) :
    kind ≠ .created ∧ kind ≠ .approvalRequested ∧ kind ≠ .denied ∧ kind.isExecution = false := by
  rcases h with rfl | rfl <;> decide

theorem RunRequest.Composed.count {q : RunRequest} {r : RunRecord} (h : q.Composed r)
    {kind : EventKind} (hkind : kind.IsHandover) : r.count kind = 0 := by
  obtain ⟨id, created, requested, e, happend⟩ := h
  obtain ⟨hcreated, hrequested, -, -⟩ := hkind.ne
  rw [RunRecord.count_append happend, if_neg hrequested.symm]
  exact List.count_eq_zero.2 fun hmem => hcreated (List.mem_singleton.1 hmem)

namespace RunStore

def count (s : RunStore) (run : String) (kind : EventKind) : Nat :=
  ((s.find? run).map fun r => r.count kind).getD 0

variable {s s' : RunStore} {r : RunRecord} {run : String} {kind : EventKind}

theorem count_of_find? (h : s.find? run = some r) : s.count run kind = r.count kind := by
  rw [count, h]
  rfl

theorem count_of_none (h : s.find? run = none) : s.count run kind = 0 := by
  rw [count, h]
  rfl

theorem Moved.count (h : s.Moved s') (hkind : kind.isExecution = false) (run : String) :
    s'.count run kind = s.count run kind := by
  cases hfind : s.find? run with
  | none =>
    have hnone : s'.find? run = none := by
      cases hfind' : s'.find? run with
      | none => rfl
      | some r' =>
        obtain ⟨r, hr, -⟩ := h.before hfind'
        rw [hfind] at hr
        cases hr
    rw [count_of_none hfind, count_of_none hnone]
  | some r =>
    obtain ⟨r', hr', hlater⟩ := h.after hfind
    rw [count_of_find? hfind, count_of_find? hr', hlater.count hkind]

/-- What replacing a record adds to the count of its run, and of no other. -/
theorem count_put {x : RunRecord} {n : Nat} (hfind : s.find? x.run.id.text = some x)
    (hid : r.run.id = x.run.id) (hcount : r.count kind = x.count kind + n) :
    (s.put r).count run kind = s.count run kind + if x.run.id.text = run then n else 0 := by
  by_cases hrun : x.run.id.text = run
  · subst hrun
    rw [count_of_find? (find?_put_of_id hfind hid), count_of_find? hfind, hcount, if_pos rfl]
  · have hsame : (s.put r).find? run = s.find? run := by
      rw [find?_put, hid, if_neg hrun]
    rw [count, hsame, if_neg hrun, Nat.add_zero, count]

end RunStore

/-- A message has a run approved and dispatched just when a dispatch of it follows. -/
theorem Handled.count {policy : Policy} {s s' : RunStore} {m : Inbound} {i : Intent}
    {dispatch : Option Dispatch} (h : Handled policy s m i dispatch s') {kind : EventKind}
    (hkind : kind.IsHandover) (run : String) :
    s'.count run kind =
      s.count run kind + if dispatch.any (·.run.text = run) then 1 else 0 := by
  cases h with
  | kept => rfl
  | @created _ r _ _ _ hnew hinsert =>
    show _ = s.count run kind
    by_cases hrun : r.run.id.text = run
    · subst hrun
      have hfind : s'.find? r.run.id.text = some r := by
        rw [RunStore.find?_insert hinsert, if_pos rfl]
      rw [RunStore.count_of_none (RunStore.records_insert? hinsert).1,
        RunStore.count_of_find? hfind, hnew.count hkind]
    · rw [RunStore.count, RunStore.find?_insert hinsert, if_neg hrun, RunStore.count]
  | @denied r r' _ _ _ _ _ hfind _ _ happend =>
    obtain ⟨-, -, hdenied, -⟩ := hkind.ne
    have hcount : r'.count kind = r.count kind + 0 := by
      rw [RunRecord.count_append happend, if_neg hdenied.symm]
    rw [RunStore.count_put hfind (RunRecord.append_id happend) hcount]
    simp
  | @approved r r' r'' _ _ _ _ _ _ _ _ hfind _ _ happend hdispatch =>
    have hid : r''.run.id = r.run.id := by
      rw [RunRecord.append_id hdispatch, RunRecord.append_id happend]
    have hcount : r''.count kind = r.count kind + 1 := by
      rw [RunRecord.count_append hdispatch, RunRecord.count_append happend]
      rcases hkind with rfl | rfl <;> rfl
    rw [RunStore.count_put hfind hid hcount]
    simp only [Option.any_some, hid, decide_eq_true_eq]

namespace Orchestrator

/-! ## Dispatches -/

def Answer.dispatches (run : String) (answer : Answer) : Bool :=
  answer.dispatch?.any (·.run.text = run)

theorem Effect.count {policy : Policy} {s s' : RunStore} {c : Call} {answer : Answer}
    (h : Effect policy s c answer s') {kind : EventKind} (hkind : kind.IsHandover)
    (run : String) :
    s'.count run kind = s.count run kind + if answer.dispatches run then 1 else 0 := by
  rcases h.store with ⟨hmoved, hnone⟩ | ⟨_, _, _, _, -, hhandled⟩
  · obtain ⟨-, -, -, hexecution⟩ := hkind.ne
    rw [hmoved.count hexecution, Answer.dispatches, hnone]
    rfl
  · exact hhandled.count hkind run

/-- The dispatches of a run that were answered so far are those in its log. -/
theorem countP_dispatches (policy : Policy) (calls : List Call) {kind : EventKind}
    (hkind : kind.IsHandover) (run : String) :
    ((new policy).answers calls).countP (·.dispatches run) =
      ((new policy).after calls).store.count run kind := by
  induction calls using List.reverseRecOn with
  | nil => rfl
  | append_singleton calls c ih =>
    have heffect := (perform_effect ((new policy).after calls) c).2
    rw [answers_concat, after_concat, heffect.count hkind, List.countP_append, ih,
      List.countP_singleton]

theorem count_le_one (policy : Policy) (calls : List Call) (run : String) (kind : EventKind) :
    ((new policy).after calls).store.count run kind ≤ 1 := by
  cases hfind : ((new policy).after calls).store.find? run with
  | none =>
    rw [RunStore.count_of_none hfind]
    exact Nat.zero_le 1
  | some r =>
    rw [RunStore.count_of_find? hfind]
    exact (after_regular policy calls hfind).faithful.count_le_one kind

theorem not_approved_and_denied (policy : Policy) (calls : List Call) (run : String) :
    ((new policy).after calls).store.count run .approved = 0 ∨
      ((new policy).after calls).store.count run .denied = 0 := by
  cases hfind : ((new policy).after calls).store.find? run with
  | none => exact .inl (RunStore.count_of_none hfind)
  | some r =>
    rw [RunStore.count_of_find? hfind, RunStore.count_of_find? hfind]
    exact (after_regular policy calls hfind).faithful.not_approved_and_denied

end Orchestrator

/-! ## Single decisions -/

/-- The event by which a call for a decision is granted. -/
def IntentKind.decision? : IntentKind → Option EventKind
  | approveRun => some .approved
  | denyRun => some .denied
  | unknown | runJob | status => none

namespace RunStore

structure MayDecide (policy : Policy) (s : RunStore) (run sender : String) (r : RunRecord) :
    Prop where
  known : s.find? run = some r
  waits : r.status = .awaitingApproval
  may : policy r.run sender = true

/-- The log of the run goes on with the decision of the sender. -/
def Decided (s : RunStore) (run sender : String) (kind : EventKind) (s' : RunStore) : Prop :=
  ∃ r r' e rest, s.find? run = some r ∧ s'.find? run = some r' ∧
    r'.events = r.events ++ e :: rest ∧ e.kind = kind ∧ e.actor = sender

inductive Objection (policy : Policy) (s : RunStore) (run sender : String) :
    InboundCondition → Prop
  | unknown (hfind : s.find? run = none) : Objection policy s run sender (.notFound run)
  | late {r : RunRecord} (hfind : s.find? run = some r) (hlate : r.status ≠ .awaitingApproval) :
      Objection policy s run sender (.invalidTransition run r.status)
  | refused {r : RunRecord} (hfind : s.find? run = some r)
      (hwaits : r.status = .awaitingApproval) (hmay : policy r.run sender = false) :
      Objection policy s run sender (.unauthorized run sender)

variable {policy : Policy} {s s' : RunStore} {run sender : String} {kind : EventKind}

theorem Objection.not_mayDecide {condition : InboundCondition}
    (h : s.Objection policy run sender condition) :
    ¬ ∃ r, s.MayDecide policy run sender r := by
  rintro ⟨r, hknown, hwaits, hmay⟩
  cases h with
  | unknown hfind =>
    rw [hfind] at hknown
    cases hknown
  | late hfind hlate =>
    rw [hfind] at hknown
    cases hknown
    exact hlate hwaits
  | refused hfind _ hno =>
    rw [hfind] at hknown
    cases hknown
    rw [hno] at hmay
    cases hmay

theorem not_decided_self : ¬ s.Decided run sender kind s := by
  rintro ⟨r, r', e, rest, hr, hr', hevents, -, -⟩
  rw [hr] at hr'
  cases hr'
  have hlength := congrArg List.length hevents
  rw [List.length_append, List.length_cons] at hlength
  omega

end RunStore

/-- What a call of a sender for a decision on a run comes to. -/
structure Ruling (policy : Policy) (s : RunStore) (run sender : String) (kind : EventKind)
    (outcome : InboundOutcome) (s' : RunStore) : Prop where
  decided : s.Decided run sender kind s' ↔ ∃ r, s.MayDecide policy run sender r
  granted : (∃ r, s.MayDecide policy run sender r) → outcome.condition = none
  refused : (¬ ∃ r, s.MayDecide policy run sender r) →
    s' = s ∧ ∃ condition, outcome.condition = some condition ∧
      s.Objection policy run sender condition
  dispatched : outcome.dispatched = outcome.dispatch.isSome
  dispatch : ∀ d, outcome.dispatch = some d ↔
    kind = .approved ∧ ∃ r, s.MayDecide policy run sender r ∧ d = ⟨r.run.id, r.run.jobKey⟩

namespace Ruling

variable {policy : Policy} {s s' : RunStore} {run sender : String} {kind : EventKind}
  {outcome : InboundOutcome}

theorem of_objection {condition : InboundCondition}
    (h : s.Objection policy run sender condition) (hcondition : outcome.condition = some condition)
    (hdispatch : outcome.dispatch = none) (hdispatched : outcome.dispatched = false) :
    Ruling policy s run sender kind outcome s where
  decided := ⟨fun hdecided => absurd hdecided RunStore.not_decided_self,
    fun hmay => absurd hmay h.not_mayDecide⟩
  granted hmay := absurd hmay h.not_mayDecide
  refused _ := ⟨rfl, condition, hcondition, h⟩
  dispatched := by rw [hdispatched, hdispatch]; rfl
  dispatch d := by
    rw [hdispatch]
    exact ⟨nofun, fun ⟨_, r, hmay, _⟩ => absurd ⟨r, hmay⟩ h.not_mayDecide⟩

theorem of_mayDecide {r : RunRecord} (h : s.MayDecide policy run sender r)
    (hdecided : s.Decided run sender kind s') (hcondition : outcome.condition = none)
    (hdispatch : outcome.dispatch =
      if kind = .approved then some ⟨r.run.id, r.run.jobKey⟩ else none)
    (hdispatched : outcome.dispatched = outcome.dispatch.isSome) :
    Ruling policy s run sender kind outcome s' where
  decided := ⟨fun _ => ⟨r, h⟩, fun _ => hdecided⟩
  granted _ := hcondition
  refused hnot := absurd ⟨r, h⟩ hnot
  dispatched := hdispatched
  dispatch d := by
    rw [hdispatch]
    constructor
    · intro hd
      by_cases hkind : kind = .approved
      · rw [if_pos hkind] at hd
        exact ⟨hkind, r, h, (Option.some.inj hd).symm⟩
      · rw [if_neg hkind] at hd
        cases hd
    · rintro ⟨hkind, x, hx, rfl⟩
      have hsame : r = x := Option.some.inj (h.known.symm.trans hx.known)
      rw [if_pos hkind, hsame]

end Ruling

namespace Orchestrator

variable {o : Orchestrator}

theorem Decides.ruling {d : Received} {run : String} {outcome : InboundOutcome} {approves : Bool}
    {answer : Except OrchestratorError InboundOutcome × Orchestrator}
    (h : o.Decides d run outcome approves answer) (hcondition : outcome.condition = none)
    (hdispatch : outcome.dispatch = none) (hdispatched : outcome.dispatched = false) :
    ∃ outcome', answer.1 = .ok outcome' ∧
      Ruling o.policy o.store run d.message.sender (if approves then .approved else .denied)
        outcome' answer.2.store := by
  cases h with
  | unknown hfind => exact ⟨_, rfl, .of_objection (.unknown hfind) rfl hdispatch hdispatched⟩
  | late hfind hlate =>
    exact ⟨_, rfl, .of_objection (.late hfind hlate) rfl hdispatch hdispatched⟩
  | refused hfind hwaits hmay =>
    exact ⟨_, rfl, .of_objection (.refused hfind hwaits hmay) rfl hdispatch hdispatched⟩
  | denied hfind hwaits hmay happend =>
    obtain ⟨hevents, hkind, hactor⟩ := RunRecord.append_events happend
    have hdecided : o.store.Decided run d.message.sender .denied (o.put _).store :=
      ⟨_, _, _, [], hfind, RunStore.find?_put_of_append hfind happend, hevents, hkind, hactor⟩
    exact ⟨_, rfl, .of_mayDecide ⟨hfind, hwaits, hmay⟩ hdecided hcondition hdispatch
      (by rw [hdispatched, hdispatch]; rfl)⟩
  | @approved r r' r'' _ _ _ _ e e' _ hfind hwaits hmay happend hdispatch =>
    obtain ⟨hevents, hkind, hactor⟩ := RunRecord.append_events happend
    obtain ⟨hevents', -, -⟩ := RunRecord.append_events hdispatch
    have hrun : r''.run.id = r.run.id ∧ r''.run.jobKey = r.run.jobKey := by
      rw [RunRecord.append_run hdispatch, RunRecord.append_run happend]
      exact ⟨rfl, rfl⟩
    have hput : (o.put r'').store.find? run = some r'' := RunStore.find?_put_of_id hfind hrun.1
    -- the decision is the first of the two events, and the dispatch follows it
    have hlog : r''.events = r.events ++ e :: [e'] := by
      rw [hevents', hevents, List.append_assoc]
      rfl
    refine ⟨_, rfl, .of_mayDecide ⟨hfind, hwaits, hmay⟩
      ⟨r, r'', e, [e'], hfind, hput, hlog, hkind, hactor⟩ hcondition ?_ rfl⟩
    rw [if_pos rfl, if_pos rfl, hrun.1, hrun.2]

/-- A message that calls for a decision is answered by the ruling on it, or by the list of
commands when it names no run. -/
theorem handle_ruling (o : Orchestrator) (clock : Readings) (draws : Draws) (m : Inbound)
    {i : Intent} {kind : EventKind} (hkind : i.kind.decision? = some kind) :
    ∃ outcome, (o.handle clock draws m i).1 = .ok outcome ∧
      (∀ run, i.run = some run → Ruling o.policy o.store run m.sender kind outcome
        (o.handle clock draws m i).2.1.store) ∧
      (i.run = none → outcome.dispatch = none ∧ outcome.dispatched = false ∧
        (o.handle clock draws m i).2.1.store = o.store) := by
  have htakes := handle_takes o clock draws m i
  generalize o.handle clock draws m i = answer at htakes ⊢
  cases htakes with
  | requests hjob _ =>
    rw [hjob] at hkind
    cases hkind
  | @decides run approves hdecides hrun =>
    obtain ⟨outcome, hok, hruling⟩ := (decide_decides { o with receipts := o.receipts + 1 } clock
      ⟨m, o.receipts + 1⟩ run approves (.ofIntent i)).ruling rfl rfl rfl
    have hsame : (if approves then EventKind.approved else .denied) = kind := by
      rw [hdecides] at hkind
      cases approves <;> exact Option.some.inj hkind
    refine ⟨outcome, hok, fun run' hrun' => ?_, fun hnone => ?_⟩
    · cases hrun.symm.trans hrun'
      exact hsame ▸ hruling
    · cases hrun.symm.trans hnone
  | asks hstatus _ =>
    rw [hstatus] at hkind
    cases hkind
  | guided _ hguided =>
    have hnone : i.run = none := by
      rcases hguided with hjob | hunknown | hnone
      · rw [hjob] at hkind
        cases hkind
      · rw [hunknown] at hkind
        cases hkind
      · exact hnone
    refine ⟨_, rfl, fun run hrun => ?_, fun _ => ⟨rfl, rfl, rfl⟩⟩
    cases hnone.symm.trans hrun

/-- Whatever was called for, in whatever order: as many answers had a run dispatched as
there are approvals, and dispatches, in its log, which is one at most, and the log does not
hold a denial beside an approval.  And the next call for a decision on a run decides just
when the run waits for it and the sender may decide, or tells what stands against it. -/
theorem decided_once (policy : Policy) (calls : List Call) :
    (∀ run,
      ((new policy).answers calls).countP (·.dispatches run) =
          ((new policy).after calls).store.count run .approved ∧
        ((new policy).answers calls).countP (·.dispatches run) =
          ((new policy).after calls).store.count run .dispatched ∧
        ((new policy).answers calls).countP (·.dispatches run) ≤ 1 ∧
        (((new policy).after calls).store.count run .approved = 0 ∨
          ((new policy).after calls).store.count run .denied = 0)) ∧
    ∀ clock draws m i kind, i.kind.decision? = some kind →
      ∃ outcome o', ((new policy).after calls).perform (.handle clock draws m i) =
          (.inbound (.ok outcome), o') ∧
        (∀ run, i.run = some run →
          Ruling policy ((new policy).after calls).store run m.sender kind outcome o'.store) ∧
        (i.run = none → outcome.dispatch = none ∧ outcome.dispatched = false ∧
          o'.store = ((new policy).after calls).store) := by
  refine ⟨fun run => ?_, fun clock draws m i kind hkind => ?_⟩
  · have happroved := countP_dispatches policy calls (.inl rfl) run
    have hdispatched := countP_dispatches policy calls (.inr rfl) run
    exact ⟨happroved, hdispatched, happroved ▸ count_le_one policy calls run .approved,
      not_approved_and_denied policy calls run⟩
  · obtain ⟨outcome, hok, hruling, hnone⟩ :=
      handle_ruling ((new policy).after calls) clock draws m hkind
    rw [after_policy] at hruling
    exact ⟨outcome, _, Prod.ext (congrArg Answer.inbound hok) rfl, hruling, hnone⟩

end Orchestrator
end JobGate
