/-
Every run can be decided.

A run that waits is of no use unless somebody can answer for it in the conversation it came
from, and that takes more than a policy.  The settings have to name somebody
(`Settings.exists_mayDecide`), the message that asked for the run must have left a place to
answer to (`Run.Addressed`), the identifier has to be a word that a command can name
(`RunId.isWord`), and the answer has to get through the intake.

`Orchestrator.Reached` is about everything that can have happened before: messages that an
intake handed in, in whole or in part, and calls of workers, sweeps and operators, in any
order and with nothing assumed about who calls when.
-/
import JobGate.Proofs.Floor.Basic
import JobGate.Proofs.Message.Command
import JobGate.Proofs.Orchestrator.Decision
import JobGate.Proofs.Service.Intake
import JobGate.Proofs.Settings.Usable

namespace JobGate

/-! ## What can have happened -/

namespace Orchestrator

def Call.isMessage : Call → Bool
  | .handle .. => true
  | .onStarted .. | .onCompleted .. | .onTimeout .. | .cancelRun .. | .timeOutStale .. => false

/-- An orchestrator that had nothing on record at first, and has since been handed messages
by an intake and been called by others. -/
inductive Reached (policy : Policy) : Orchestrator → Prop
  | new : Reached policy (.new policy)
  | taken {Q : Type} {s : Site Q} (h : Reached policy s.orchestrator) (clock : Readings)
      (draws : Draws) (m : Inbound) :
      Reached policy (Intake.take s clock draws m).2.1.orchestrator
  | called {o : Orchestrator} (h : Reached policy o) {c : Call} (hc : c.isMessage = false) :
      Reached policy (o.perform c).2

namespace Reached

variable {policy : Policy} {Q : Type} [ExecutionQueue Q] {s : Site Q}

/-- A message that goes on calls the orchestrator to cancel its run, if at all. -/
theorem pursues (h : Reached policy s.orchestrator) (i : Intake) (clock : Clock)
    (stopped : Bool) : Reached policy (i.step clock stopped s).2.orchestrator := by
  cases i with
  | enqueuing outcome d =>
    simp only [Intake.step, Site.callQueue]
    generalize ExecutionQueue.offer s.queue clock d stopped = answer
    obtain ⟨_ | _ | _ | _, queue⟩ := answer <;> exact h
  | abandoning run reason error =>
    have hcalled : Reached policy
        (s.orchestrator.cancelRun clock.still run Intake.actor reason).2 :=
      h.called (c := .cancelRun clock.still run Intake.actor reason) rfl
    simp only [Intake.step, Site.callOrchestrator]
    generalize s.orchestrator.cancelRun clock.still run Intake.actor reason = answer at hcalled ⊢
    obtain ⟨_ | _, o⟩ := answer <;> exact hcalled
  | answering outcome => exact h
  | done result => exact h

theorem pursued (h : Reached policy s.orchestrator) (attempts : List (Clock × Bool))
    (i : Intake) : Reached policy (i.pursued attempts s).2.orchestrator := by
  induction attempts generalizing i s with
  | nil => exact h
  | cons attempt rest ih => exact ih (h.pursues i attempt.1 attempt.2) _

theorem receives (h : Reached policy s.orchestrator) (clock : Clock) (draws : Draws)
    (m : Inbound) (stopped : Bool) :
    Reached policy (Intake.receive s clock draws m stopped).2.1.orchestrator := by
  rw [Intake.receive_eq_pursued]
  exact (h.taken clock.still draws m).pursued _ _

/-- A worker calls the orchestrator to report the beginning and the end of a run. -/
theorem works (h : Reached policy s.orchestrator) (t : Task) (clock : Clock) (worker : String) :
    Reached policy (t.step clock worker s).2.orchestrator := by
  cases t with
  | claimed entry =>
    have hcalled : Reached policy
        (s.orchestrator.onStarted clock.still entry.run.text worker).2 :=
      h.called (c := .onStarted clock.still entry.run.text worker) rfl
    simp only [Task.step, Site.callOrchestrator]
    generalize s.orchestrator.onStarted clock.still entry.run.text worker = answer at hcalled ⊢
    obtain ⟨_ | outcome, o⟩ := answer
    · exact hcalled
    · simp only
      split <;> exact hcalled
  | reporting entry report lost =>
    have hcalled : Reached policy (s.orchestrator.onCompleted clock.still entry.run.text worker
        report.success report.summary).2 :=
      h.called (c := .onCompleted clock.still entry.run.text worker report.success report.summary)
        rfl
    simp only [Task.step, Site.callOrchestrator]
    generalize s.orchestrator.onCompleted clock.still entry.run.text worker report.success
      report.summary = answer at hcalled ⊢
    obtain ⟨_ | outcome, o⟩ := answer
    · exact hcalled
    · simp only
      split <;> exact hcalled
  | executing _ _ | completing _ _ _ _ | yielding _ | rejecting _ _ | done _ => exact h

end Reached
end Orchestrator

namespace Floor

variable {policy : Policy}

theorem step_reached {f : Floor} (h : f.site.orchestrator.Reached policy) (a : Action) :
    (f.step a).site.orchestrator.Reached policy := by
  cases a with
  | receive call clock draws m =>
    simp only [step]
    split
    · exact h
    · exact h.taken clock draws m
  | pursue call clock stopped =>
    simp only [step]
    split
    · exact h
    · exact h.pursues _ clock stopped
  | claim worker clock =>
    simp only [step, Task.claim, Site.callQueue]
    split
    · exact h
    · generalize ExecutionQueue.claim f.site.queue clock worker = answer
      obtain ⟨_ | _ | _, queue⟩ := answer <;> exact h
  | work worker clock =>
    simp only [step]
    split
    · exact h
    · exact h.works _ clock worker
  | report worker report stopped =>
    simp only [step]
    split <;> exact h
  | renew worker clock =>
    simp only [step]
    split <;> exact h
  | reclaim clock timeout => exact h
  | timeOutStale clock maxAge now => exact h.called (c := .timeOutStale clock maxAge now) rfl
  | terminate clock run t reason =>
    cases t with
    | timeout => exact h.called (c := .onTimeout clock run reason) rfl
    | cancel actor => exact h.called (c := .cancelRun clock run actor reason) rfl
  | breakQueue outage => exact h

/-- Whatever goes on at a floor, its orchestrator is one that can be reached. -/
theorem run_reached (policy : Policy) (q : Backend) (acts : List Action) :
    ((idle (.new policy) q).run acts).site.orchestrator.Reached policy := by
  induction acts using List.reverseRecOn with
  | nil => exact .new
  | append_singleton acts a ih =>
    rw [run_concat]
    exact step_reached ih a

end Floor

/-! ## Where a run can be answered for -/

structure Run.Addressed (r : Run) : Prop where
  requester : Text.isEmptyTrimmed r.requestedBy = false
  channel : Text.isEmptyTrimmed r.channel = false
  conversation : Text.isEmptyTrimmed r.conversation = false

theorem Run.Addressed.later {kinds : EventKind → Prop} {r r' : RunRecord} (h : r.run.Addressed)
    (hlater : RunRecord.Later kinds r r') : r'.run.Addressed := by
  rw [hlater.run]
  exact ⟨h.requester, h.channel, h.conversation⟩

theorem Inbound.blankField?_eq_none {m : Inbound} :
    m.blankField? = none ↔ ∀ f, Text.isEmptyTrimmed (m.get f) = false := by
  simp only [blankField?, List.find?_eq_none, List.mem_cons, List.not_mem_nil, or_false,
    Bool.not_eq_true]
  refine ⟨fun h f => h f ?_, fun h f _ => h f⟩
  cases f <;> decide

theorem RunRequest.Composed.addressed {m : Inbound} {jobKey : String} {r : RunRecord}
    (h : (RunRequest.ofMessage m jobKey).Composed r) (hm : m.blankField? = none) :
    r.run.Addressed := by
  obtain ⟨id, created, requested, e, happend⟩ := h
  have hfields := Inbound.blankField?_eq_none.1 hm
  rw [RunRecord.append_run happend]
  exact ⟨hfields .sender, hfields .channel, hfields .conversation⟩

/-- A message reaches the orchestrator when it is complete. -/
theorem Intake.take_orchestrator {Q : Type} (s : Site Q) (clock : Readings) (draws : Draws)
    (m : Inbound) :
    (take s clock draws m).2.1.orchestrator = s.orchestrator ∨
      m.blankField? = none ∧ (take s clock draws m).2.1.orchestrator =
        (s.orchestrator.handle clock draws m (Intent.parse m.body)).2.1 := by
  unfold take
  cases m.blankField? with
  | some field => exact .inl rfl
  | none =>
    refine .inr ⟨rfl, ?_⟩
    simp only
    generalize s.orchestrator.handle clock draws m (Intent.parse m.body) = answer
    obtain ⟨_ | outcome, o, draws'⟩ := answer
    · rfl
    · simp only
      cases outcome.dispatch <;> rfl

namespace Orchestrator.Reached

variable {policy : Policy} {o : Orchestrator}

theorem policy_eq (h : Reached policy o) : o.policy = policy := by
  induction h with
  | new => rfl
  | @taken Q s _ clock draws m ih =>
    rcases Intake.take_orchestrator s clock draws m with hsame | ⟨-, htaken⟩
    · rw [hsame, ih]
    · rw [htaken, (s.orchestrator.handle_handled clock draws m (Intent.parse m.body)).1, ih]
  | called _ _ ih => exact (perform_effect _ _).1.trans ih

/-- A run keeps what it was asked for with. -/
theorem addressed (h : Reached policy o) {run : String} {r : RunRecord}
    (hr : o.store.find? run = some r) : r.run.Addressed := by
  induction h generalizing r with
  | new => cases hr
  | @taken Q s _ clock draws m ih =>
    rcases Intake.take_orchestrator s clock draws m with hsame | ⟨hcomplete, htaken⟩
    · exact ih (hsame ▸ hr)
    · rw [htaken] at hr
      rcases (s.orchestrator.handle_handled clock draws m (Intent.parse m.body)).2.before hr with
        ⟨x, hx, hlater⟩ | ⟨-, -, jobKey, -, hnew⟩
      · exact (ih hx).later hlater
      · exact hnew.addressed hcomplete
  | @called o _ c hc ih =>
    rcases (perform_effect o c).2.store with ⟨hmoved, -⟩ | ⟨_, _, _, _, rfl, -⟩
    · obtain ⟨x, hx, hlater⟩ := hmoved.before hr
      exact (ih hx).later hlater
    · cases hc

end Orchestrator.Reached

/-! ## Answering for a run -/

def Run.answered (r : Run) (sender command : String) (providerId : Option String) : Inbound :=
  { channel := r.channel, sender, conversation := r.conversation,
    body := command ++ " " ++ r.id.text, providerId }

/-- Whether a message lacks nothing and is read as a command of some kind about a run. -/
structure Inbound.Commands (m : Inbound) (kind : IntentKind) (run : String) : Prop where
  complete : m.blankField? = none
  kind : (Intent.parse m.body).kind = kind
  run : (Intent.parse m.body).run = some run

theorem Run.Addressed.commands {r : Run} (h : r.Addressed) {sender command : String}
    {kind : IntentKind} (hsender : Text.isEmptyTrimmed sender = false)
    (hkind : IntentKind.ofCommand? command.toList = some kind) (hnot : kind ≠ .runJob)
    (hcommand : Text.IsWord command.toList) (providerId : Option String) :
    (r.answered sender command providerId).Commands kind r.id.text := by
  have hbody : Text.isEmptyTrimmed (command ++ " " ++ r.id.text) = false :=
    Text.not_isEmptyTrimmed hcommand (Text.toList_command command r.id.text)
  have hparse := Intent.parse_command hkind hcommand r.id.isWord
  rw [Intent.ofCommand, if_neg hnot] at hparse
  refine ⟨Inbound.blankField?_eq_none.2 fun f => ?_, ?_, ?_⟩
  · cases f with
    | channel => exact h.channel
    | sender => exact hsender
    | conversation => exact h.conversation
    | body => exact hbody
  · show (Intent.parse (command ++ " " ++ r.id.text)).kind = kind
    rw [hparse]
  · show (Intent.parse (command ++ " " ++ r.id.text)).run = some r.id.text
    rw [hparse]

/-- A decision of somebody who may make it is carried out. -/
theorem Orchestrator.handle_granted (o : Orchestrator) (clock : Readings) (draws : Draws)
    (m : Inbound) (approves : Bool) {i : Intent} {run : String} {r : RunRecord}
    (hkind : i.kind = if approves then .approveRun else .denyRun) (hrun : i.run = some run)
    (hmay : o.store.MayDecide o.policy run m.sender r) :
    ∃ outcome o', o.handle clock draws m i = (.ok outcome, o', draws) ∧
      outcome.condition = none ∧
      outcome.dispatch = (if approves then some ⟨r.run.id, r.run.jobKey⟩ else none) ∧
      o'.statusOf run = some (if approves then .dispatching else .denied) := by
  obtain ⟨hfind, hwaits, hmay⟩ := hmay
  have htakes := handle_takes o clock draws m i
  generalize o.handle clock draws m i = answer at htakes ⊢
  cases htakes with
  | requests hjob _ =>
    rw [hjob] at hkind
    cases approves <;> cases hkind
  | @decides run' approves' hdecides hrun' =>
    cases hrun.symm.trans hrun'
    obtain rfl : approves' = approves := by
      rw [hdecides] at hkind
      cases approves <;> cases approves' <;> first | rfl | cases hkind
    have hdecided := decide_decides { o with receipts := o.receipts + 1 } clock
      ⟨m, o.receipts + 1⟩ run approves' (.ofIntent i)
    generalize Orchestrator.decide _ _ _ _ _ _ = decision at hdecided ⊢
    cases hdecided with
    | unknown hnone => cases hfind.symm.trans hnone
    | late hfind' hlate =>
      cases hfind.symm.trans hfind'
      exact absurd hwaits hlate
    | refused hfind' _ hno =>
      cases hfind.symm.trans hfind'
      cases hmay.symm.trans hno
    | denied hfind' _ _ happend =>
      cases hfind.symm.trans hfind'
      have happly := RunRecord.append_apply happend
      rw [hwaits] at happly
      refine ⟨_, _, rfl, rfl, rfl, ?_⟩
      show ((o.store.put _).find? run).map (·.status) = some .denied
      rw [RunStore.find?_put_of_append hfind happend, Option.map_some, ← happly]
      rfl
    | approved hfind' _ _ happend hdispatch =>
      cases hfind.symm.trans hfind'
      have hran := RunRecord.append_run hdispatch
      rw [RunRecord.append_run happend] at hran
      have happly := RunRecord.append_apply happend
      have happly' := RunRecord.append_apply hdispatch
      rw [hwaits] at happly
      rw [← Option.some.inj happly] at happly'
      have hid := (RunRecord.append_id hdispatch).trans (RunRecord.append_id happend)
      refine ⟨_, _, rfl, rfl, by rw [hran]; rfl, ?_⟩
      show ((o.store.put _).find? run).map (·.status) = some .dispatching
      rw [RunStore.find?_put_of_id hfind hid, Option.map_some, ← happly']
      rfl
  | asks hstatus _ =>
    rw [hstatus] at hkind
    cases approves <;> cases hkind
  | guided _ hguided =>
    rcases hguided with hjob | hunknown | hnone
    · rw [hjob] at hkind
      cases approves <;> cases hkind
    · rw [hunknown] at hkind
      cases approves <;> cases hkind
    · cases hrun.symm.trans hnone

/-- Under settings that can be used, whatever has happened before: for a run that waits for a
decision there is somebody whose `yes`, in the conversation that the run came from, is read as
the approval of that run and has it dispatched when the queue has room, and whose `no` is read
as its denial and has it denied. -/
theorem every_run_can_be_decided {s : Settings} (hs : s.fault? = none) {o : Orchestrator}
    (ho : o.Reached (Policy.ofSettings s.approval)) {run : String} {r : RunRecord}
    (hr : o.store.find? run = some r) (hwaits : r.status = .awaitingApproval) :
    ∃ sender, ∀ providerId clock draws outbox,
      let yes := r.run.answered sender "yes" providerId
      let no := r.run.answered sender "no" providerId
      yes.Commands .approveRun run ∧ no.Commands .denyRun run ∧
      (∀ q : Faulty Backend, q.queue.Sound → q.outage = {} →
        q.queue.live.entries.length < q.queue.live.capacity →
        ∃ outcome s', Intake.receive ⟨o, q, outbox⟩ clock draws yes false =
            (some (.ok outcome), s', draws) ∧
          outcome.dispatch = some ⟨r.run.id, r.run.jobKey⟩ ∧
          s'.orchestrator.statusOf run = some .dispatching ∧
          s'.queue.queue.live = q.queue.live.add ⟨r.run.id, r.run.jobKey⟩) ∧
      ∀ (q : Faulty Backend) stopped, ∃ outcome s',
        Intake.receive ⟨o, q, outbox⟩ clock draws no stopped = (some (.ok outcome), s', draws) ∧
          outcome.condition = none ∧ s'.orchestrator.statusOf run = some .denied ∧
          s'.queue = q := by
  have haddressed := ho.addressed hr
  obtain ⟨sender, hsender, hmay⟩ := Settings.exists_mayDecide hs haddressed.requester
  have hdecides : o.store.MayDecide o.policy run sender r := ⟨hr, hwaits, ho.policy_eq ▸ hmay⟩
  have hid := RunStore.text_of_find? hr
  refine ⟨sender, fun providerId clock draws outbox => ?_⟩
  intro yes no
  have hyes : yes.Commands .approveRun run := hid ▸ haddressed.commands hsender rfl
    (by decide) (Text.isWord_of_all rfl rfl) providerId
  have hno : no.Commands .denyRun run := hid ▸ haddressed.commands hsender rfl
    (by decide) (Text.isWord_of_all rfl rfl) providerId
  refine ⟨hyes, hno, fun q hq hcalm hroom => ?_, fun q stopped => ?_⟩
  · obtain ⟨outcome, o', hhandle, -, hdispatch, hstatus⟩ :=
      o.handle_granted clock.still draws yes true hyes.kind hyes.run hdecides
    obtain ⟨id, queue, hoffer, hlive⟩ :=
      Faulty.offer_room hq hcalm hroom clock ⟨r.run.id, r.run.jobKey⟩
    exact ⟨outcome, _, Intake.receive_of_dispatch hyes.complete hhandle hdispatch hoffer,
      hdispatch, hstatus, hlive⟩
  · obtain ⟨outcome, o', hhandle, hcondition, hdispatch, hstatus⟩ :=
      o.handle_granted clock.still draws no false hno.kind hno.run hdecides
    exact ⟨outcome, _, Intake.receive_of_no_dispatch hno.complete hhandle hdispatch, hcondition,
      hstatus, rfl⟩

def Settings.withLead : Settings :=
  { approval := { allowRequester := false, approvers := ["lead"] } }

/-- An orchestrator that alice has asked for a backup. -/
def Orchestrator.waiting : Orchestrator :=
  (Intake.receive (⟨.new (Policy.ofSettings Settings.withLead.approval),
    { queue := .memory (.new 1) }, {}⟩ : Site (Faulty Backend)) default .zeros
    (.ofAlice "run backup") false).2.1.orchestrator

/-- Somebody can have the backup executed, though alice cannot. -/
theorem every_run_can_be_decided_backup :
    Settings.withLead.fault? = none ∧
      Orchestrator.waiting.Reached (Policy.ofSettings Settings.withLead.approval) ∧
      ∃ r, Orchestrator.waiting.store.find? "run-0-0000" = some r ∧
        r.status = .awaitingApproval ∧ Orchestrator.waiting.policy r.run "alice" = false ∧
        ∃ sender outcome s',
          Intake.receive ⟨.waiting, ({ queue := .memory (.new 1) } : Faulty Backend), {}⟩ default
              .zeros (r.run.answered sender "yes" none) false =
            (some (.ok outcome), s', .zeros) ∧
          outcome.dispatch = some ⟨r.run.id, "backup"⟩ ∧
          s'.orchestrator.statusOf "run-0-0000" = some .dispatching := by
  have hreached : Orchestrator.waiting.Reached (Policy.ofSettings Settings.withLead.approval) :=
    Orchestrator.Reached.receives .new default .zeros (.ofAlice "run backup") false
  obtain ⟨r, hr, hwaits, halice, hjob⟩ :
      ∃ r, Orchestrator.waiting.store.find? "run-0-0000" = some r ∧ r.status = .awaitingApproval ∧
        Orchestrator.waiting.policy r.run "alice" = false ∧ r.run.jobKey = "backup" :=
    ⟨_, rfl, rfl, rfl, rfl⟩
  obtain ⟨sender, hdecides⟩ :=
    every_run_can_be_decided (s := .withLead) (by rfl) hreached hr hwaits
  obtain ⟨outcome, s', hreceive, hdispatch, hstatus, -⟩ :=
    (hdecides none default .zeros {}).2.2.1 { queue := .memory (.new 1) }
      (MemoryQueue.new_sound 1) rfl (by decide)
  exact ⟨rfl, hreached, r, hr, hwaits, halice, sender, outcome, s', hreceive,
    hjob ▸ hdispatch, hstatus⟩

end JobGate
