/-
Records stay in order, whatever an orchestrator is called for.

Every operation looks at the status of a run before it appends, so that a log is never
found corrupt rests on these looks agreeing with the transitions.  `after_regular` says
what they leave behind: every record is `Regular`, and so its log can be told and no call
fails for its sake.  A message can fail only for want of a free identifier.
-/
import JobGate.Proofs.Orchestrator.Calls
import JobGate.Proofs.Run.Regular

namespace JobGate

def OrchestratorError.isDraw : OrchestratorError → Bool
  | .noIdentifier _ | .allTaken _ => true
  | .poisoned | .corrupt _ _ => false

def RunStore.Regular (s : RunStore) : Prop := ∀ ⦃run r⦄, s.find? run = some r → r.Regular

/-! ## Errors -/

namespace Creation

variable {q : RunRequest} {clock : Readings}

theorem look_error {left : Nat} {store : RunStore} {draws : Draws} {e : OrchestratorError}
    (h : (look q clock left store draws).1 = .done (.error e)) : e.isDraw = true := by
  unfold look at h
  cases left with
  | zero =>
    cases h
    rfl
  | succ left =>
    rcases hdraw : RunId.generate (clock 0).seconds draws with ⟨fault | id, draws'⟩
    · rw [hdraw] at h
      cases h
      rfl
    · rw [hdraw] at h
      obtain ⟨r, e', -, hmade⟩ := compose_eq q id (clock 0) (clock 1)
      by_cases htaken : store.contains id.text = true
      · simp only [htaken, if_true] at h
        cases h
      · simp only [htaken, Bool.false_eq_true, if_false, hmade] at h
        cases h

theorem add_ne_error {left : Nat} {record : RunRecord} {notice : Notice} {store : RunStore}
    {e : OrchestratorError} : (add left record notice store).1 ≠ .done (.error e) := by
  unfold add
  cases store.insert? record with
  | none => exact fun h => by cases h
  | some store' => exact fun h => by cases h

theorem run_error {steps : Nat} {c : Creation} {store : RunStore} {draws : Draws}
    {e : OrchestratorError} (hc : ∀ e, c = .done (.error e) → e.isDraw = true)
    (h : (run q clock steps c store draws).1 = .error e) : e.isDraw = true := by
  induction steps generalizing c store draws with
  | zero =>
    cases c with
    | done result => exact hc e (congrArg done h)
    | drawing left =>
      cases h
      rfl
    | adding left record notice =>
      cases h
      rfl
  | succ steps ih =>
    cases c with
    | done result => exact hc e (congrArg done h)
    | drawing left => exact ih (fun e he => look_error he) h
    | adding left record notice => exact ih (fun e he => absurd he add_ne_error) h

end Creation

namespace Orchestrator

variable {o : Orchestrator}

theorem answerStatus_ok (hs : o.store.Regular) (d : Received) (run : String)
    (outcome : InboundOutcome) : ∃ outcome', o.answerStatus d run outcome = .ok outcome' := by
  unfold answerStatus
  cases hfind : o.store.find? run with
  | none => exact ⟨_, rfl⟩
  | some r =>
    simp only [(hs hfind).faithful.verify]
    exact ⟨_, rfl⟩

theorem decide_ok (clock : Readings) (d : Received) (run : String) (approves : Bool)
    (outcome : InboundOutcome) :
    ∃ outcome', (o.decide clock d run approves outcome).1 = .ok outcome' := by
  have hdecides := decide_decides o clock d run approves outcome
  generalize o.decide clock d run approves outcome = answer at hdecides ⊢
  cases hdecides <;> exact ⟨_, rfl⟩

/-- A message fails only when there is no identifier for a new run. -/
theorem handle_error (hs : o.store.Regular) {clock : Readings} {draws : Draws} {m : Inbound}
    {i : Intent} {e : OrchestratorError} (h : (o.handle clock draws m i).1 = .error e) :
    e.isDraw = true := by
  have htakes := handle_takes o clock draws m i
  generalize o.handle clock draws m i = answer at htakes h
  cases htakes with
  | @requests jobKey _ _ =>
    unfold request at h
    rcases hrun : Creation.complete (RunRequest.ofMessage m jobKey) clock o.store draws with
      ⟨fault | made, store, draws'⟩
    · rw [hrun] at h
      cases h
      refine Creation.run_error (fun e he => ?_) (congrArg Prod.fst hrun)
      cases he
    · rw [hrun] at h
      cases h
  | @decides run approves _ _ =>
    obtain ⟨outcome, hok⟩ := decide_ok (o := { o with receipts := o.receipts + 1 }) clock
      ⟨m, o.receipts + 1⟩ run approves (.ofIntent i)
    cases hok.symm.trans h
  | @asks run _ _ =>
    obtain ⟨outcome, hok⟩ := answerStatus_ok (o := { o with receipts := o.receipts + 1 }) hs
      ⟨m, o.receipts + 1⟩ run (.ofIntent i)
    cases hok.symm.trans h
  | guided _ _ => cases h

end Orchestrator

/-! ## Records -/

namespace Handled

variable {policy : Policy} {s s' : RunStore} {m : Inbound} {i : Intent}
  {dispatch : Option Dispatch} {id : String} {r' : RunRecord}

/-- A message leaves a run as it is, or waiting for a decision, denied or dispatched. -/
theorem status (h : Handled policy s m i dispatch s') (hr' : s'.find? id = some r') :
    s.find? id = some r' ∨ r'.status = .awaitingApproval ∨ r'.status = .denied ∨
      r'.status = .dispatching := by
  cases h with
  | kept => exact .inl hr'
  | created _ _ hnew hinsert =>
    rcases RunStore.of_find?_insert hinsert hr' with ⟨-, rfl⟩ | hold
    · exact .inr (.inl hnew.status)
    · exact .inl hold
  | denied _ _ _ hwaits _ happend =>
    rcases RunStore.of_find?_put hr' with ⟨-, rfl⟩ | ⟨-, hold⟩
    · have happly := RunRecord.append_apply happend
      rw [hwaits] at happly
      exact .inr (.inr (.inl (Option.some.inj happly).symm))
    · exact .inl hold
  | approved _ _ _ hwaits _ happend hdispatch =>
    rcases RunStore.of_find?_put hr' with ⟨-, rfl⟩ | ⟨-, hold⟩
    · have hfirst := RunRecord.append_apply happend
      have hsecond := RunRecord.append_apply hdispatch
      rw [hwaits] at hfirst
      rw [← Option.some.inj hfirst] at hsecond
      exact .inr (.inr (.inr (Option.some.inj hsecond).symm))
    · exact .inl hold

theorem regular (h : Handled policy s m i dispatch s') (hs : s.Regular) : s'.Regular := by
  intro id r' hr'
  have hopened : r'.Opened := by
    rcases h.before hr' with ⟨r, hr, hlater⟩ | ⟨-, -, jobKey, -, hnew⟩
    · exact hlater.opened (hs hr).toOpened
    · obtain ⟨_, _, _, _, happend⟩ := hnew
      exact .of_create happend
  refine ⟨hopened, ?_⟩
  rcases h.status hr' with hold | hwaits | hdenied | hdispatching
  · exact (hs hold).resting
  · rw [hwaits]
    rfl
  · rw [hdenied]
    rfl
  · rw [hdispatching]
    rfl

end Handled

theorem RunStore.Moved.regular {s s' : RunStore} (h : s.Moved s') (hs : s.Regular) :
    s'.Regular := by
  intro id r' hr'
  obtain ⟨r, hr, hlater⟩ := h.before hr'
  exact ⟨hlater.opened (hs hr).toOpened, hlater.isResting (hs hr).resting⟩

namespace Orchestrator

theorem Effect.regular {policy : Policy} {s s' : RunStore} {c : Call} {answer : Answer}
    (h : Effect policy s c answer s') (hs : s.Regular) : s'.Regular := by
  rcases h.store with ⟨hmoved, -⟩ | ⟨_, _, _, _, _, hhandled⟩
  · exact hmoved.regular hs
  · exact hhandled.regular hs

theorem after_regular (policy : Policy) (calls : List Call) :
    ((new policy).after calls).store.Regular :=
  after_induction (P := RunStore.Regular) (fun run r h => by cases h) (fun h hs => h.regular hs)
    calls

/-- No call finds a log corrupt. -/
theorem perform_error {o : Orchestrator} (hs : o.store.Regular) {c : Call}
    {e : OrchestratorError} (h : (o.perform c).1.error? = some e) : e.isDraw = true := by
  have heffect := (perform_effect o c).2
  generalize hanswer : (o.perform c).1 = answer at heffect h
  cases heffect with
  | @handled clock draws m i result s' _ =>
    cases result with
    | ok outcome => cases h
    | error e' =>
      cases h
      exact handle_error hs (Answer.inbound.inj hanswer)
  | attempted _ _ _ => cases h
  | swept _ _ => cases h

theorem timeline_ok {o : Orchestrator} (hs : o.store.Regular) (run : String) :
    o.timeline run = .ok ((o.store.find? run).map fun r => ⟨r.run, r.events⟩) := by
  unfold timeline
  cases hfind : o.store.find? run with
  | none => rfl
  | some r =>
    simp only [(hs hfind).faithful.verify]
    rfl

/-- Whatever an orchestrator was called for before, its records are in order: each run
rests in a status that its log leads to, the log opens with its creation by the requester
and the request for a decision, and holds no event of another run.  So no call ever finds
a log corrupt, and the timeline of every run can be told. -/
theorem records_in_order (policy : Policy) (calls : List Call) :
    (∀ r ∈ ((new policy).after calls).store.records, r.Regular) ∧
      (∀ c run fault, (((new policy).after calls).perform c).1.error? ≠
        some (.corrupt run fault)) ∧
      ∀ run, ((new policy).after calls).timeline run =
        .ok ((((new policy).after calls).store.find? run).map fun r => ⟨r.run, r.events⟩) := by
  have hregular := after_regular policy calls
  refine ⟨fun r hr => hregular (RunStore.find?_of_mem hr), fun c run fault herror => ?_,
    fun run => timeline_ok hregular run⟩
  cases perform_error hregular herror

end Orchestrator
end JobGate
