/-
What a message does to the runs.

A message creates a run, decides on one, or leaves all of them alone, and
`Handled` tells these ends apart.  Only an approval has a run dispatched, and it
appends the approval and the dispatch together.
-/
import JobGate.Orchestrator.Inbound
import JobGate.Proofs.Orchestrator.Effects

namespace JobGate

/-- A record as it is added to the store: created, and waiting for a decision. -/
def RunRequest.Composed (q : RunRequest) (r : RunRecord) : Prop :=
  ∃ id created requested e, (RunRecord.create (q.named id) created).append .approvalRequested
    Orchestrator.actor [] requested = .ok (e, r)

namespace RunRequest.Composed

variable {q : RunRequest} {r : RunRecord}

theorem status (h : q.Composed r) : r.status = .awaitingApproval := by
  obtain ⟨id, created, requested, e, happend⟩ := h
  have happly := RunRecord.append_apply happend
  exact (Option.some.inj happly).symm

theorem faithful (h : q.Composed r) : r.Faithful := by
  obtain ⟨id, created, requested, e, happend⟩ := h
  exact (RunRecord.create_faithful _ _).append happend

theorem jobKey (h : q.Composed r) : r.run.jobKey = q.jobKey := by
  obtain ⟨id, created, requested, e, happend⟩ := h
  rw [RunRecord.append_run happend]
  rfl

theorem events (h : q.Composed r) : ∀ e ∈ r.events, e.kind ≠ .approved := by
  obtain ⟨id, created, requested, e, happend⟩ := h
  obtain ⟨hevents, hkind, -⟩ := RunRecord.append_events happend
  intro a ha
  rw [hevents] at ha
  rcases List.mem_append.1 ha with ha | ha
  · rw [List.mem_singleton.1 ha]
    exact fun hk => by cases hk
  · rw [List.mem_singleton.1 ha, hkind]
    exact fun hk => by cases hk

end RunRequest.Composed

namespace Creation

variable {q : RunRequest}

/-- A record that is about to be added is one that the request asks for, with the notice
about it.  What is done without adding a record has failed. -/
def Sound (q : RunRequest) : Creation → Prop
  | adding _ record notice => ∃ id created requested e,
      (RunRecord.create (q.named id) created).append .approvalRequested Orchestrator.actor []
        requested = .ok (e, record) ∧ notice = approvalNotice record.run e
  | done result => ∃ e, result = .error e
  | drawing _ => True

theorem compose_eq (q : RunRequest) (id : RunId) (created requested : Instant) :
    ∃ r e, (RunRecord.create (q.named id) created).append .approvalRequested Orchestrator.actor []
        requested = .ok (e, r) ∧
      compose q id created requested = .ok (r, approvalNotice r.run e) := by
  have hnext : (RunRecord.create (q.named id) created).status.apply .approvalRequested =
      some .awaitingApproval := rfl
  obtain ⟨e, r, happend, hchecked⟩ :=
    Orchestrator.appendChecked_eq hnext Orchestrator.actor [] requested
  refine ⟨r, e, happend, ?_⟩
  unfold compose
  rw [hchecked]

theorem look_sound (clock : Readings) (left : Nat) (store : RunStore) (draws : Draws) :
    (look q clock left store draws).1.Sound q := by
  unfold look
  cases left with
  | zero => exact ⟨_, rfl⟩
  | succ left =>
    rcases hdraw : RunId.generate (clock 0).seconds draws with ⟨fault | id, draws'⟩
    · exact ⟨_, rfl⟩
    · simp only
      by_cases htaken : store.contains id.text = true
      · simp only [htaken, if_true]
        trivial
      · obtain ⟨r, e, happend, hcompose⟩ := compose_eq q id (clock 0) (clock 1)
        simp only [htaken, Bool.false_eq_true, if_false, hcompose]
        exact ⟨id, _, _, e, happend, rfl⟩

/-- How a creation can end: without a record, or with one added and its notice to be
sent. -/
inductive Ended (q : RunRequest) (store : RunStore) :
    Except OrchestratorError (RunId × Notice) → RunStore → Prop
  | failed (e : OrchestratorError) : Ended q store (.error e) store
  | created {id : RunId} {created requested : Instant} {e : Event} {r : RunRecord}
      {store' : RunStore}
      (happend : (RunRecord.create (q.named id) created).append .approvalRequested
        Orchestrator.actor [] requested = .ok (e, r))
      (hinsert : store.insert? r = some store') :
      Ended q store (.ok (r.run.id, approvalNotice r.run e)) store'

theorem run_ended (clock : Readings) (steps : Nat) {c : Creation} (hc : c.Sound q)
    (store : RunStore) (draws : Draws) :
    Ended q store (run q clock steps c store draws).1 (run q clock steps c store draws).2.1 := by
  induction steps generalizing c draws with
  | zero =>
    cases c with
    | done result =>
      obtain ⟨e, rfl⟩ := hc
      exact .failed e
    | drawing left => exact .failed _
    | adding left record notice => exact .failed _
  | succ steps ih =>
    cases c with
    | done result =>
      obtain ⟨e, rfl⟩ := hc
      exact .failed e
    | drawing left => exact ih (look_sound clock left store draws) _
    | adding left record notice =>
      cases hinsert : store.insert? record with
      | none =>
        simp only [run, step, add, hinsert]
        exact ih (c := .drawing left) trivial draws
      | some store' =>
        obtain ⟨id, created, requested, e, happend, rfl⟩ := hc
        have hrun : ∀ result : Except OrchestratorError (RunId × Notice),
            run q clock steps (.done result) store' draws = (result, store', draws) := by
          intro result
          cases steps <;> rfl
        simp only [run, step, add, hinsert, hrun]
        exact .created happend hinsert

theorem complete_ended (clock : Readings) (store : RunStore) (draws : Draws) :
    Ended q store (complete q clock store draws).1 (complete q clock store draws).2.1 :=
  run_ended clock _ (c := .drawing maxDraws) trivial store draws

end Creation

/-- What a message with an intent did to the store, under a policy, and the dispatch
that followed from it. -/
inductive Handled (policy : Policy) (s : RunStore) (m : Inbound) (i : Intent) :
    Option Dispatch → RunStore → Prop
  | kept : Handled policy s m i none s
  | created {jobKey : String} {r : RunRecord} {s' : RunStore} (hkind : i.kind = .runJob)
      (hkey : i.jobKey = some jobKey) (hnew : (RunRequest.ofMessage m jobKey).Composed r)
      (hinsert : s.insert? r = some s') : Handled policy s m i none s'
  | denied {r r' : RunRecord} {payload : Payload} {time : Instant} {e : Event}
      (hkind : i.kind = .denyRun) (hrun : i.run = some r.run.id.text)
      (hfind : s.find? r.run.id.text = some r) (hwaits : r.status = .awaitingApproval)
      (hmay : policy r.run m.sender = true)
      (happend : r.append .denied m.sender payload time = .ok (e, r')) :
      Handled policy s m i none (s.put r')
  | approved {r r' r'' : RunRecord} {payload payload' : Payload} {time time' : Instant}
      {e e' : Event} (hkind : i.kind = .approveRun) (hrun : i.run = some r.run.id.text)
      (hfind : s.find? r.run.id.text = some r) (hwaits : r.status = .awaitingApproval)
      (hmay : policy r.run m.sender = true)
      (happend : r.append .approved m.sender payload time = .ok (e, r'))
      (hdispatch : r'.append .dispatched Orchestrator.actor payload' time' = .ok (e', r'')) :
      Handled policy s m i (some ⟨r''.run.id, r''.run.jobKey⟩) (s.put r'')

theorem RunStore.Grows.of_put {s : RunStore} {r r' : RunRecord}
    (hfind : s.find? r.run.id.text = some r) (hlater : RunRecord.Later (fun _ => True) r r') :
    s.Grows (s.put r') := by
  intro id x hx
  have hid : r'.run.id = r.run.id := by rw [hlater.run]
  rw [RunStore.find?_put, hid]
  by_cases hrun : r.run.id.text = id
  · subst hrun
    rw [hfind] at hx
    cases hx
    exact ⟨r', by rw [if_pos rfl, hfind]; rfl, hlater⟩
  · exact ⟨x, by rw [if_neg hrun, hx], .refl x⟩

theorem RunStore.Grows.of_insert {s s' : RunStore} {r : RunRecord}
    (hinsert : s.insert? r = some s') : s.Grows s' := by
  intro id x hx
  refine ⟨x, ?_, .refl x⟩
  rw [RunStore.find?_insert hinsert]
  by_cases hrun : r.run.id.text = id
  · subst hrun
    rw [(RunStore.records_insert? hinsert).1] at hx
    cases hx
  · rw [if_neg hrun, hx]

theorem Handled.grows {policy : Policy} {s s' : RunStore} {m : Inbound} {i : Intent}
    {dispatch : Option Dispatch} (h : Handled policy s m i dispatch s') : s.Grows s' := by
  cases h with
  | kept => exact .refl _
  | created _ _ _ hinsert => exact .of_insert hinsert
  | denied _ _ hfind _ _ happend => exact .of_put hfind (.of_append trivial happend)
  | approved _ _ hfind _ _ happend hdispatch =>
    exact .of_put hfind ((RunRecord.Later.of_append trivial happend).trans
      (.of_append trivial hdispatch))

namespace Handled

variable {policy : Policy} {s s' : RunStore} {m : Inbound} {i : Intent}
  {dispatch : Option Dispatch} {id : String} {r' : RunRecord}

/-- What a record was before a message, unless the message created it. -/
theorem before (h : Handled policy s m i dispatch s') (hr' : s'.find? id = some r') :
    (∃ r, s.find? id = some r ∧ RunRecord.Later (fun _ => True) r r') ∨
      (s.find? id = none ∧ i.kind = .runJob ∧
        ∃ jobKey, i.jobKey = some jobKey ∧ (RunRequest.ofMessage m jobKey).Composed r') := by
  have hput : ∀ {r x : RunRecord}, s.find? r.run.id.text = some r →
      RunRecord.Later (fun _ => True) r x → (s.put x).find? id = some r' →
      ∃ r, s.find? id = some r ∧ RunRecord.Later (fun _ => True) r r' := by
    intro r x hfind hlater hx
    have hid : x.run.id = r.run.id := by rw [hlater.run]
    rcases RunStore.of_find?_put hx with ⟨rfl, rfl⟩ | ⟨-, hold⟩
    · exact ⟨r, hid ▸ hfind, hlater⟩
    · exact ⟨r', hold, .refl r'⟩
  cases h with
  | kept => exact .inl ⟨r', hr', .refl r'⟩
  | @created jobKey _ _ hkind hkey hnew hinsert =>
    rcases RunStore.of_find?_insert hinsert hr' with ⟨hnone, rfl⟩ | hold
    · exact .inr ⟨hnone, hkind, jobKey, hkey, hnew⟩
    · exact .inl ⟨r', hold, .refl r'⟩
  | denied _ _ hfind _ _ happend => exact .inl (hput hfind (.of_append trivial happend) hr')
  | approved _ _ hfind _ _ happend hdispatch =>
    exact .inl (hput hfind ((RunRecord.Later.of_append trivial happend).trans
      (.of_append trivial hdispatch)) hr')

/-- An approval in a log was there before, or is the sender's, who may decide on the
run that was waiting. -/
theorem approval (h : Handled policy s m i dispatch s') (hr' : s'.find? id = some r')
    {e : Event} (he : e ∈ r'.events) (hk : e.kind = .approved) :
    (∃ r, s.find? id = some r ∧ e ∈ r.events) ∨
      (i.kind = .approveRun ∧ i.run = some id ∧ e.actor = m.sender ∧
        ∃ r, s.find? id = some r ∧ r.status = .awaitingApproval ∧
          policy r.run m.sender = true) := by
  cases h with
  | kept => exact .inl ⟨r', hr', he⟩
  | created _ _ hnew hinsert =>
    rcases RunStore.of_find?_insert hinsert hr' with ⟨-, rfl⟩ | hold
    · exact absurd hk (hnew.events e he)
    · exact .inl ⟨r', hold, he⟩
  | denied _ _ hfind _ _ happend =>
    rcases RunStore.of_find?_put hr' with ⟨rfl, rfl⟩ | ⟨-, hold⟩
    · obtain ⟨hevents, hkind, -⟩ := RunRecord.append_events happend
      rw [hevents] at he
      rcases List.mem_append.1 he with he | he
      · exact .inl ⟨_, RunRecord.append_id happend ▸ hfind, he⟩
      · rw [List.mem_singleton.1 he, hkind] at hk
        cases hk
    · exact .inl ⟨r', hold, he⟩
  | @approved r x _ _ _ _ _ _ _ hkind hrun hfind hwaits hmay happend hdispatch =>
    rcases RunStore.of_find?_put hr' with ⟨hid, rfl⟩ | ⟨-, hold⟩
    · have hsame : r.run.id.text = id := by
        rw [← hid, RunRecord.append_id hdispatch, RunRecord.append_id happend]
      subst hsame
      obtain ⟨hevents, -, hactor⟩ := RunRecord.append_events happend
      obtain ⟨hevents', hkind', -⟩ := RunRecord.append_events hdispatch
      rw [hevents', hevents] at he
      rcases List.mem_append.1 he with he | he
      · rcases List.mem_append.1 he with he | he
        · exact .inl ⟨r, hfind, he⟩
        · rw [List.mem_singleton.1 he]
          exact .inr ⟨hkind, hrun, hactor, r, hfind, hwaits, hmay⟩
      · rw [List.mem_singleton.1 he, hkind'] at hk
        cases hk
    · exact .inl ⟨r', hold, he⟩

/-- A run that a message hands to the workers: it waited for a decision before. -/
theorem dispatched {d : Dispatch} (h : Handled policy s m i (some d) s') :
    (∃ r, s.find? d.run.text = some r ∧ r.status = .awaitingApproval) ∧
      ∃ r', s'.find? d.run.text = some r' ∧ r'.status = .dispatching ∧
        r'.run.jobKey = d.jobKey := by
  cases h with
  | @approved r x r'' _ _ _ _ _ _ hkind hrun hfind hwaits hmay happend hdispatch =>
    have hid : r''.run.id = r.run.id := by
      rw [RunRecord.append_id hdispatch, RunRecord.append_id happend]
    have hstatus : r''.status = .dispatching := by
      have hfirst := RunRecord.append_apply happend
      have hsecond := RunRecord.append_apply hdispatch
      rw [hwaits] at hfirst
      rw [← Option.some.inj hfirst] at hsecond
      exact (Option.some.inj hsecond).symm
    have hfind' : s.find? r''.run.id.text = some r := hid ▸ hfind
    exact ⟨⟨r, hfind', hwaits⟩, r'', RunStore.find?_put_of_id hfind' hid, hstatus, rfl⟩

/-- A message hands a run to the workers only by asking for its dispatch. -/
theorem busy (h : Handled policy s m i dispatch s') (hbusy : s'.Busy id) :
    s.Busy id ∨ ∃ d, dispatch = some d ∧ d.run.text = id := by
  obtain ⟨r', hr', hbusy⟩ := hbusy
  cases h with
  | kept => exact .inl ⟨r', hr', hbusy⟩
  | created _ _ hnew hinsert =>
    rcases RunStore.of_find?_insert hinsert hr' with ⟨-, rfl⟩ | hold
    · rw [hnew.status] at hbusy
      cases hbusy
    · exact .inl ⟨r', hold, hbusy⟩
  | denied _ _ hfind hwaits _ happend =>
    rcases RunStore.of_find?_put hr' with ⟨rfl, rfl⟩ | ⟨-, hold⟩
    · have happly := RunRecord.append_apply happend
      rw [hwaits] at happly
      rw [← Option.some.inj happly] at hbusy
      cases hbusy
    · exact .inl ⟨r', hold, hbusy⟩
  | approved _ _ _ _ _ _ _ =>
    rcases RunStore.of_find?_put hr' with ⟨hid, rfl⟩ | ⟨-, hold⟩
    · exact .inr ⟨_, rfl, hid⟩
    · exact .inl ⟨r', hold, hbusy⟩

end Handled

namespace Orchestrator

def dispatchOf : Except OrchestratorError InboundOutcome → Option Dispatch
  | .ok outcome => outcome.dispatch
  | .error _ => none

variable {m : Inbound} {i : Intent} (o : Orchestrator) (clock : Readings)

/-- The ways in which a call for a decision can end.  What stands against the decision
is told by the condition, and an approval carries the dispatch of the run. -/
inductive Decides (d : Received) (run : String) (outcome : InboundOutcome) :
    Bool → Except OrchestratorError InboundOutcome × Orchestrator → Prop
  | unknown {approves : Bool} (hfind : o.store.find? run = none) :
      Decides d run outcome approves (.ok { outcome with condition := some (.notFound run) }, o)
  | late {approves : Bool} {r : RunRecord} (hfind : o.store.find? run = some r)
      (hlate : r.status ≠ .awaitingApproval) :
      Decides d run outcome approves (.ok (refuseLate d r run outcome), o)
  | refused {approves : Bool} {r : RunRecord} (hfind : o.store.find? run = some r)
      (hwaits : r.status = .awaitingApproval)
      (hmay : o.policy r.run d.message.sender = false) :
      Decides d run outcome approves (.ok (refuseSender d r run outcome), o)
  | denied {r r' : RunRecord} {payload : Payload} {time : Instant} {e : Event} {body : String}
      (hfind : o.store.find? run = some r) (hwaits : r.status = .awaitingApproval)
      (hmay : o.policy r.run d.message.sender = true)
      (happend : r.append .denied d.message.sender payload time = .ok (e, r')) :
      Decides d run outcome false
        (.ok { outcome with
            notices := [Notice.ofEventIn r'.run e "denied" d.message.channel
              d.message.conversation body] }, o.put r')
  | approved {r r' r'' : RunRecord} {payload payload' : Payload} {time time' : Instant}
      {e e' : Event} {body : String}
      (hfind : o.store.find? run = some r) (hwaits : r.status = .awaitingApproval)
      (hmay : o.policy r.run d.message.sender = true)
      (happend : r.append .approved d.message.sender payload time = .ok (e, r'))
      (hdispatch : r'.append .dispatched actor payload' time' = .ok (e', r'')) :
      Decides d run outcome true
        (.ok { outcome with
            notices := [Notice.ofEventIn r''.run e' "approved" d.message.channel
              d.message.conversation body]
            dispatch := some ⟨r''.run.id, r''.run.jobKey⟩
            dispatched := true }, o.put r'')

theorem decide_decides (d : Received) (run : String) (approves : Bool)
    (outcome : InboundOutcome) :
    o.Decides d run outcome approves (o.decide clock d run approves outcome) := by
  unfold decide
  cases hfind : o.store.find? run with
  | none => exact .unknown hfind
  | some r =>
    by_cases hwaits : r.status = .awaitingApproval
    · cases hmay : o.policy r.run d.message.sender with
      | false =>
        simp only [hwaits, ne_eq, not_true, if_false, hmay, Bool.not_false, if_true]
        exact .refused hfind hwaits hmay
      | true =>
        simp only [hwaits, ne_eq, not_true, if_false, hmay, Bool.not_true, Bool.false_eq_true]
        cases approves with
        | false =>
          have hnext : r.status.apply .denied = some .denied := by rw [hwaits]; rfl
          obtain ⟨e, r', happend, hchecked⟩ := appendChecked_eq hnext d.message.sender
            (Payload.ofTexts [("decidedBy", d.message.sender)]) (clock 0)
          simp only [Bool.false_eq_true, if_false, deny, hchecked]
          exact .denied hfind hwaits hmay happend
        | true =>
          have happroves : r.status.apply .approved = some .approved := by rw [hwaits]; rfl
          obtain ⟨e, r', happend, hchecked⟩ := appendChecked_eq happroves d.message.sender
            (Payload.ofTexts [("decidedBy", d.message.sender)]) (clock 0)
          have hnext : r'.status.apply .dispatched = some .dispatching := by
            have happly := RunRecord.append_apply happend
            rw [hwaits] at happly
            rw [← Option.some.inj happly]
            rfl
          obtain ⟨e', r'', hdispatch, hchecked'⟩ := appendChecked_eq hnext actor
            (Payload.ofTexts [("jobKey", r'.run.jobKey)]) (clock 1)
          have hsame : r''.run.jobKey = r'.run.jobKey := by
            rw [RunRecord.append_run hdispatch]
          simp only [if_true, approve, hchecked, hchecked']
          exact hsame ▸ .approved hfind hwaits hmay happend hdispatch
    · simp only [hwaits, ne_eq, not_false_eq_true, if_true]
      exact .late hfind hwaits

theorem decide_handled (d : Received) {run : String} {approves : Bool}
    {outcome : InboundOutcome} (hnone : outcome.dispatch = none)
    (hkind : i.kind = if approves then .approveRun else .denyRun) (hrun : i.run = some run) :
    (o.decide clock d run approves outcome).2.policy = o.policy ∧
      Handled o.policy o.store d.message i (dispatchOf (o.decide clock d run approves outcome).1)
        (o.decide clock d run approves outcome).2.store := by
  have hdecides := decide_decides o clock d run approves outcome
  generalize o.decide clock d run approves outcome = answer at hdecides ⊢
  cases hdecides with
  | unknown _ => exact ⟨rfl, by simpa only [dispatchOf, hnone] using .kept⟩
  | late _ _ => exact ⟨rfl, by simpa only [dispatchOf, refuseLate, hnone] using .kept⟩
  | refused _ _ _ => exact ⟨rfl, by simpa only [dispatchOf, refuseSender, hnone] using .kept⟩
  | denied hfind hwaits hmay happend =>
    have hid := RunStore.text_of_find? hfind
    subst hid
    refine ⟨rfl, ?_⟩
    simp only [dispatchOf, hnone]
    exact .denied hkind hrun hfind hwaits hmay happend
  | approved hfind hwaits hmay happend hdispatch =>
    have hid := RunStore.text_of_find? hfind
    subst hid
    exact ⟨rfl, .approved hkind hrun hfind hwaits hmay happend hdispatch⟩

theorem request_handled (draws : Draws) {jobKey : String} {outcome : InboundOutcome}
    (hnone : outcome.dispatch = none) (hkind : i.kind = .runJob) (hkey : i.jobKey = some jobKey) :
    (o.request clock draws m jobKey outcome).2.1.policy = o.policy ∧
      Handled o.policy o.store m i (dispatchOf (o.request clock draws m jobKey outcome).1)
        (o.request clock draws m jobKey outcome).2.1.store := by
  have hended := Creation.complete_ended (q := RunRequest.ofMessage m jobKey) clock o.store draws
  unfold request
  generalize Creation.complete (RunRequest.ofMessage m jobKey) clock o.store draws = answer
    at hended ⊢
  obtain ⟨result, store, draws'⟩ := answer
  cases hended with
  | failed e => exact ⟨rfl, .kept⟩
  | @created id created requested e r _ happend hinsert =>
    refine ⟨rfl, ?_⟩
    simp only [dispatchOf, hnone]
    exact .created hkind hkey ⟨id, created, requested, e, happend⟩ hinsert

theorem dispatchOf_answerStatus {d : Received} {run : String} {outcome : InboundOutcome}
    (hnone : outcome.dispatch = none) : dispatchOf (o.answerStatus d run outcome) = none := by
  unfold answerStatus
  cases o.store.find? run with
  | none => exact hnone
  | some r =>
    simp only
    cases r.verify with
    | error fault => rfl
    | ok _ => exact hnone

/-- A message has a run created, decides on one, asks for the state of one, or is answered
by the list of commands. -/
inductive Takes (draws : Draws) (m : Inbound) (i : Intent) :
    Except OrchestratorError InboundOutcome × Orchestrator × Draws → Prop
  | requests {jobKey : String} (hkind : i.kind = .runJob) (hkey : i.jobKey = some jobKey) :
      Takes draws m i (o.request clock draws m jobKey (.ofIntent i))
  | decides {run : String} {approves : Bool}
      (hkind : i.kind = if approves then .approveRun else .denyRun) (hrun : i.run = some run) :
      Takes draws m i
        ((o.decide clock ⟨m, o.receipts⟩ run approves (.ofIntent i)).1,
          (o.decide clock ⟨m, o.receipts⟩ run approves (.ofIntent i)).2, draws)
  | asks {run : String} (hkind : i.kind = .status) (hrun : i.run = some run) :
      Takes draws m i (o.answerStatus ⟨m, o.receipts⟩ run (.ofIntent i), o, draws)
  | guided (hkey : i.kind = .runJob → i.jobKey = none)
      (hrun : i.kind = .runJob ∨ i.kind = .unknown ∨ i.run = none) :
      Takes draws m i
        (.ok { InboundOutcome.ofIntent i with
            notices := [Received.guidance ⟨m, o.receipts⟩] }, o, draws)

/-- A message is taken after it has used up a receipt number. -/
theorem handle_takes (draws : Draws) (m : Inbound) (i : Intent) :
    Takes { o with receipts := o.receipts + 1 } clock draws m i (o.handle clock draws m i) := by
  unfold handle
  cases hkind : i.kind with
  | unknown => exact .guided (fun h => nomatch hkind.symm.trans h) (.inr (.inl hkind))
  | runJob =>
    cases hkey : i.jobKey with
    | none => exact .guided (fun _ => hkey) (.inl hkind)
    | some jobKey => exact .requests hkind hkey
  | approveRun =>
    cases hrun : i.run with
    | none => exact .guided (fun h => nomatch hkind.symm.trans h) (.inr (.inr hrun))
    | some run =>
      have hdecides : i.kind = if true then .approveRun else .denyRun := hkind
      exact .decides hdecides hrun
  | denyRun =>
    cases hrun : i.run with
    | none => exact .guided (fun h => nomatch hkind.symm.trans h) (.inr (.inr hrun))
    | some run =>
      have hdecides : i.kind = if false then .approveRun else .denyRun := hkind
      exact .decides hdecides hrun
  | status =>
    cases hrun : i.run with
    | none => exact .guided (fun h => nomatch hkind.symm.trans h) (.inr (.inr hrun))
    | some run => exact .asks hkind hrun

theorem handle_handled (draws : Draws) (m : Inbound) (i : Intent) :
    (o.handle clock draws m i).2.1.policy = o.policy ∧
      Handled o.policy o.store m i (dispatchOf (o.handle clock draws m i).1)
        (o.handle clock draws m i).2.1.store := by
  have hnone : (InboundOutcome.ofIntent i).dispatch = none := rfl
  have htakes := handle_takes o clock draws m i
  generalize o.handle clock draws m i = answer at htakes ⊢
  cases htakes with
  | requests hkind hkey => exact request_handled _ clock draws hnone hkind hkey
  | decides hkind hrun => exact decide_handled _ clock ⟨m, _⟩ hnone hkind hrun
  | asks _ _ =>
    refine ⟨rfl, ?_⟩
    rw [dispatchOf_answerStatus _ hnone]
    exact .kept
  | guided _ _ => exact ⟨rfl, .kept⟩

end Orchestrator
end JobGate
