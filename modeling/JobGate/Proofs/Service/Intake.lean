/-
A message is taken whole or not at all.

Taking one touches the records, then the queue, then the outbox, and any of these can be
where it ends.  `Site.Settled` says what each answer promises of all three: a message that
is refused has left them alone, one that is taken has had everything done that its answer
tells of, and a run whose dispatch did not get into the queue has been canceled, which is
all that anybody hears of it.

While a message waits for room, a stop may be asked for.  `Intake.pursued` makes one attempt
after the other, each at a clock of its own, and `Site.Stands` is where the message can have
got to; `Intake.receive` is the case of a clock that stands still.
-/
import JobGate.Proofs.Orchestrator.Account
import JobGate.Proofs.Queue.Backend
import JobGate.Service.Intake

namespace JobGate

/-! ## Deliveries -/

namespace Outbox

/-- Notices were handed over in order.  Those that had to fail are lost, and the others are
delivered. -/
structure Receives (o : Outbox) (notices : List Notice) (o' : Outbox) : Prop where
  delivered : o'.delivered = o.delivered ++ (notices.map (·.outbound)).drop o.failing
  failing : o'.failing = o.failing - notices.length

theorem deliverAll_receives (o : Outbox) (notices : List Notice) :
    o.Receives notices (o.deliverAll notices) := by
  induction notices generalizing o with
  | nil => exact ⟨by rw [List.map_nil, List.drop_nil, List.append_nil]; rfl, rfl⟩
  | cons n rest ih =>
    have hrest : (o.deliver n.outbound).Receives rest (o.deliverAll (n :: rest)) :=
      ih (o.deliver n.outbound)
    by_cases hzero : o.failing = 0
    · have hdeliver : o.deliver n.outbound = ⟨o.delivered ++ [n.outbound], 0⟩ := by
        rw [deliver, if_pos hzero, hzero]
      rw [hdeliver] at hrest
      exact ⟨by simpa [hzero] using hrest.delivered, by simpa [hzero] using hrest.failing⟩
    · obtain ⟨k, hk⟩ := Nat.exists_eq_succ_of_ne_zero hzero
      have hdeliver : o.deliver n.outbound = ⟨o.delivered, k⟩ := by
        rw [deliver, if_neg hzero, hk]
        rfl
      rw [hdeliver] at hrest
      exact ⟨by simpa [hk] using hrest.delivered, by simpa [hk] using hrest.failing⟩

end Outbox

/-! ## The runs -/

namespace Orchestrator

variable (o : Orchestrator) (clock : Readings)

def cancellation (run : Run) (e : Event) (actor reason : String) : Notice :=
  Notice.ofEvent run e "canceled" ("Run " ++ run.id.text ++ " (`" ++ run.jobKey ++ "`) " ++
    ("was canceled by " ++ actor) ++ ": " ++ reason)

/-- A run that is not over is canceled, and told of. -/
theorem cancelRun_eq {run : String} {r : RunRecord} (hfind : o.store.find? run = some r)
    (hgoing : r.status.isTerminal = false) (actor reason : String) :
    ∃ e r' payload, r.append .canceled actor payload (clock 0) = .ok (e, r') ∧
      o.cancelRun clock run actor reason =
        (.ok (.changed run r'.status [cancellation r'.run e actor reason]), o.put r') := by
  obtain ⟨e, r', happend, hchecked⟩ := appendChecked_eq (Status.apply_ending hgoing).2 actor
    (Payload.ofTexts [("previousStatus", r.status.name), ("reason", reason)]) (clock 0)
  refine ⟨e, r', _, happend, ?_⟩
  have hrun := RunStore.text_of_find? hfind
  have hsame : r'.run.id = r.run.id := RunRecord.append_id happend
  simp only [cancelRun, terminate, hfind, terminateRecord, hgoing, Bool.false_eq_true, if_false,
    Termination.kind, Termination.by_, hchecked, cancellation, hsame, hrun]
  rfl

/-- A message that cannot be taken changes no record. -/
theorem handle_failed (draws : Draws) (m : Inbound) (i : Intent) {e : OrchestratorError}
    (h : (o.handle clock draws m i).1 = .error e) :
    (o.handle clock draws m i).2.1.store = o.store := by
  have htakes := handle_takes o clock draws m i
  generalize o.handle clock draws m i = answer at htakes h ⊢
  cases htakes with
  | @requests jobKey hkind hkey =>
    have hended := Creation.complete_ended (q := RunRequest.ofMessage m jobKey) clock o.store draws
    unfold request at h ⊢
    generalize Creation.complete (RunRequest.ofMessage m jobKey) clock o.store draws = creation
      at hended h ⊢
    obtain ⟨result, store, draws'⟩ := creation
    cases hended with
    | failed e => rfl
    | created _ _ => cases h
  | @decides run approves hkind hrun =>
    have hdecides := decide_decides { o with receipts := o.receipts + 1 } clock
      ⟨m, o.receipts + 1⟩ run approves (.ofIntent i)
    generalize Orchestrator.decide _ _ _ _ _ _ = decision at hdecides h ⊢
    cases hdecides <;> cases h
  | asks _ _ => rfl
  | guided _ _ => rfl

end Orchestrator

/-- A run that was waiting has been approved and dispatched, and nothing else has happened. -/
structure RunStore.HandsOver (s : RunStore) (run sender : String) (s' : RunStore) : Prop where
  waited : (s.find? run).map (·.status) = some .awaitingApproval
  handed : (s'.find? run).map (·.status) = some .dispatching
  log : s.Extends run [(.approved, sender), (.dispatched, Orchestrator.actor)] s'

theorem Handled.handsOver {policy : Policy} {s s' : RunStore} {m : Inbound} {i : Intent}
    {d : Dispatch} (h : Handled policy s m i (some d) s') :
    s.HandsOver d.run.text m.sender s' := by
  obtain ⟨⟨r, hr, hwaits⟩, r', hr', hstatus, -⟩ := h.dispatched
  refine ⟨by rw [hr, Option.map_some, hwaits], by rw [hr', Option.map_some, hstatus], ?_⟩
  cases h with
  | approved _ _ hfind _ _ happend hdispatch =>
    have hid := (RunRecord.append_id hdispatch).trans (RunRecord.append_id happend)
    show s.Extends (RunRecord.run _).id.text _ _
    rw [hid]
    exact RunStore.extends_of_appends hfind happend hdispatch

/-! ## What an answer promises -/

/-- Why a run is canceled whose dispatch did not get into the queue, with what is answered. -/
inductive IntakeError.Abandons (run : String) : String → IntakeError → Prop
  | canceled : Abandons run "enqueue canceled before the queue had room" (.canceled run)
  | failed (e : QueueError) : Abandons run ("enqueue failed: " ++ e.message) (.queue run e)

namespace Site

/-- A run that was waiting has been approved, dispatched, and canceled again.  The queue does
not hold it, and the cancellation is all that was told. -/
structure Abandoned (s : Site (Faulty Backend)) (sender run reason : String)
    (s' : Site (Faulty Backend)) : Prop where
  queue : s'.queue.queue = s.queue.queue
  waited : s.orchestrator.statusOf run = some .awaitingApproval
  canceled : s'.orchestrator.statusOf run = some .canceled
  log : s.orchestrator.store.Extends run
    [(.approved, sender), (.dispatched, Orchestrator.actor), (.canceled, Intake.actor)]
    s'.orchestrator.store
  told : ∃ r e, s'.orchestrator.store.find? run = some r ∧ r.events.getLast? = some e ∧
    s.outbox.Receives [Orchestrator.cancellation r.run e Intake.actor reason] s'.outbox

/-- What has become of the queue when a message was taken: an entry was added for a run that
is to be executed, which waits and has not been attempted. -/
def Queued (q : Faulty Backend) (dispatch : Option Dispatch) (q' : Faulty Backend) : Prop :=
  match dispatch with
  | none => q' = q
  | some d => q'.queue = q.queue.added d ∧ q'.queue.live = q.queue.live.add d

/-- What has become of a site when a message from somebody was answered. -/
def Settled (s : Site (Faulty Backend)) (sender : String) (s' : Site (Faulty Backend)) :
    Except IntakeError InboundOutcome → Prop
  | .ok outcome =>
    s.outbox.Receives outcome.notices s'.outbox ∧ Queued s.queue outcome.dispatch s'.queue
  | .error (.blank _) => s' = s
  | .error (.orchestrator _) =>
    s'.orchestrator.store = s.orchestrator.store ∧ s'.queue = s.queue ∧ s'.outbox = s.outbox
  | .error (.canceled run) =>
    s.Abandoned sender run "enqueue canceled before the queue had room" s'
  | .error (.queue run e) => s.Abandoned sender run ("enqueue failed: " ++ e.message) s'

/-- How far a message from somebody can have come, with what has become of the site where
it was handed in. -/
inductive Stands (s : Site (Faulty Backend)) (sender : String) :
    Intake → Site (Faulty Backend) → Prop
  | enqueuing {outcome : InboundOutcome} {d : Dispatch} {o : Orchestrator}
      {queue : Faulty Backend} (hdispatch : outcome.dispatch = some d)
      (hrun : s.orchestrator.store.HandsOver d.run.text sender o.store)
      (hqueue : queue.queue = s.queue.queue) :
      Stands s sender (.enqueuing outcome d) ⟨o, queue, s.outbox⟩
  | abandoning {run reason : String} {error : IntakeError} {o : Orchestrator}
      {queue : Faulty Backend} (hwhy : error.Abandons run reason)
      (hrun : s.orchestrator.store.HandsOver run sender o.store)
      (hqueue : queue.queue = s.queue.queue) :
      Stands s sender (.abandoning run reason error) ⟨o, queue, s.outbox⟩
  | answering {outcome : InboundOutcome} {o : Orchestrator} {queue : Faulty Backend}
      (hqueue : Queued s.queue outcome.dispatch queue) :
      Stands s sender (.answering outcome) ⟨o, queue, s.outbox⟩
  | settled {answer : Except IntakeError InboundOutcome} {s' : Site (Faulty Backend)}
      (h : s.Settled sender s' answer) : Stands s sender (.done answer) s'

variable {s s' : Site (Faulty Backend)} {sender : String}

theorem take_stands (s : Site (Faulty Backend)) (clock : Readings) (draws : Draws) (m : Inbound) :
    s.Stands m.sender (Intake.take s clock draws m).1 (Intake.take s clock draws m).2.1 := by
  unfold Intake.take
  cases m.blankField? with
  | some field =>
    have hsettled : s.Settled m.sender s (.error (.blank field)) := rfl
    exact .settled hsettled
  | none =>
    have hfailed e := s.orchestrator.handle_failed clock draws m (Intent.parse m.body) (e := e)
    have hhandled := (s.orchestrator.handle_handled clock draws m (Intent.parse m.body)).2
    simp only
    generalize s.orchestrator.handle clock draws m (Intent.parse m.body) = answer
      at hfailed hhandled ⊢
    obtain ⟨e | outcome, o, draws'⟩ := answer
    · exact .settled ⟨hfailed e rfl, rfl, rfl⟩
    · have hdispatch : Orchestrator.dispatchOf (.ok outcome) = outcome.dispatch := rfl
      rw [hdispatch] at hhandled
      simp only
      cases hd : outcome.dispatch with
      | none =>
        have hqueue : Queued s.queue outcome.dispatch s.queue := by
          rw [hd]
          exact rfl
        exact .answering hqueue
      | some d =>
        rw [hd] at hhandled
        exact .enqueuing hd hhandled.handsOver rfl

/-- A run that was handed over is canceled. -/
theorem abandoned {o : Orchestrator} {queue : Faulty Backend} {run : String}
    (hrun : s.orchestrator.store.HandsOver run sender o.store)
    (hqueue : queue.queue = s.queue.queue) (clock : Readings) (reason : String) :
    ∃ outcome o', o.cancelRun clock run Intake.actor reason = (.ok outcome, o') ∧
      s.Abandoned sender run reason ⟨o', queue, s.outbox.deliverAll outcome.notices⟩ := by
  obtain ⟨hwaited, hhanded, hlog⟩ := hrun
  obtain ⟨r, hfind, hstatus⟩ := Option.map_eq_some_iff.1 hhanded
  have hgoing : r.status.isTerminal = false := by
    rw [hstatus]
    rfl
  obtain ⟨e, r', payload, happend, hcancel⟩ := o.cancelRun_eq clock hfind hgoing Intake.actor reason
  have hfind' := RunStore.find?_put_of_append hfind happend
  have hcanceled : r'.status = .canceled := by
    have happly := RunRecord.append_apply happend
    rw [(Status.apply_ending hgoing).2] at happly
    exact (Option.some.inj happly).symm
  refine ⟨_, _, hcancel, hqueue, hwaited, ?_, ?_, r', e, hfind', ?_, ?_⟩
  · show ((o.store.put r').find? run).map (·.status) = _
    rw [hfind', Option.map_some, hcanceled]
  · exact hlog.trans (RunStore.extends_of_append hfind happend)
  · rw [(RunRecord.append_events happend).1, List.getLast?_append]
    rfl
  · exact s.outbox.deliverAll_receives _

theorem Stands.step {i : Intake} (h : s.Stands sender i s') (clock : Clock) (stopped : Bool) :
    s.Stands sender (i.step clock stopped s').1 (i.step clock stopped s').2 := by
  cases h with
  | @enqueuing outcome d o queue hdispatch hrun hqueue =>
    have hoffers := queue.offer_offers clock d stopped
    simp only [Intake.step, callQueue]
    generalize ExecutionQueue.offer queue clock d stopped = answer at hoffers ⊢
    cases hoffers with
    | failed => exact .abandoning (.failed _) hrun hqueue
    | answered hanswer =>
      cases hanswer with
      | added _ _ =>
        have hqueued : Queued s.queue outcome.dispatch
            { queue with queue := queue.queue.added d } := by
          rw [hdispatch, hqueue]
          exact ⟨rfl, s.queue.queue.added_live d⟩
        exact .answering hqueued
      | full _ _ => exact .enqueuing hdispatch hrun hqueue
      | canceled _ => exact .abandoning .canceled hrun hqueue
      | failed => exact .abandoning (.failed _) hrun hqueue
  | @abandoning run reason error o queue hwhy hrun hqueue =>
    obtain ⟨outcome, o', hcancel, habandoned⟩ := abandoned hrun hqueue clock.still reason
    simp only [Intake.step, callOrchestrator, hcancel]
    have hsettled : s.Settled sender
        ⟨o', queue, s.outbox.deliverAll outcome.notices⟩ (.error error) := by
      cases hwhy with
      | canceled => exact habandoned
      | failed e => exact habandoned
    exact .settled hsettled
  | @answering outcome o queue hqueue =>
    exact .settled ⟨s.outbox.deliverAll_receives outcome.notices, hqueue⟩
  | settled h => exact .settled h

end Site

/-! ## Attempts -/

namespace Intake

variable {Q : Type} [ExecutionQueue Q]

def pursued (attempts : List (Clock × Bool)) (i : Intake) (s : Site Q) : Intake × Site Q :=
  attempts.foldl (fun x attempt => x.1.step attempt.1 attempt.2 x.2) (i, s)

def answer? : Intake → Option (Except IntakeError InboundOutcome)
  | done result => some result
  | _ => none

theorem receive_eq_pursued (s : Site Q) (clock : Clock) (draws : Draws) (m : Inbound)
    (stopped : Bool) :
    receive s clock draws m stopped =
      let (i, site, draws) := take s clock.still draws m
      let (i, site) := pursued [(clock, stopped), (clock, stopped)] i site
      (i.answer?, site, draws) := by
  have hsettle : ∀ i (site : Site Q), settle clock stopped i site =
      pursued [(clock, stopped), (clock, stopped)] i site := fun _ _ => rfl
  unfold receive
  generalize take s clock.still draws m = taken
  obtain ⟨i, site, draws'⟩ := taken
  simp only [hsettle]
  generalize pursued [(clock, stopped), (clock, stopped)] i site = r
  obtain ⟨i, site⟩ := r
  cases i <;> rfl

section

variable {s : Site Q} {clock : Clock} {draws draws' : Draws} {m : Inbound} {stopped : Bool}
  {outcome : InboundOutcome} {o : Orchestrator}

/-- A message from which nothing is to be executed is answered with what was decided. -/
theorem receive_of_no_dispatch (hcomplete : m.blankField? = none)
    (htaken : s.orchestrator.handle clock.still draws m (Intent.parse m.body) =
      (.ok outcome, o, draws')) (hdispatch : outcome.dispatch = none) :
    receive s clock draws m stopped =
      (some (.ok outcome), ⟨o, s.queue, s.outbox.deliverAll outcome.notices⟩, draws') := by
  simp only [receive, take, hcomplete, htaken, hdispatch]
  rfl

/-- A message whose dispatch the queue takes is answered with what was decided. -/
theorem receive_of_dispatch {d : Dispatch} {id : Int} {queue : Q}
    (hcomplete : m.blankField? = none)
    (htaken : s.orchestrator.handle clock.still draws m (Intent.parse m.body) =
      (.ok outcome, o, draws')) (hdispatch : outcome.dispatch = some d)
    (hoffer : ExecutionQueue.offer s.queue clock d stopped = (.ok (.entry id), queue)) :
    receive s clock draws m stopped =
      (some (.ok outcome), ⟨o, queue, s.outbox.deliverAll outcome.notices⟩, draws') := by
  simp only [receive, take, hcomplete, htaken, hdispatch, settle, step, Site.callQueue, hoffer]
  rfl

end

variable {clock : Clock} {stopped : Bool} {s : Site (Faulty Backend)}

/-- What does not wait for room is answered at the next step. -/
theorem answer?_step {i : Intake} (h : ∀ outcome d, i ≠ .enqueuing outcome d) :
    (i.step clock stopped s).1.answer? ≠ none := by
  cases i with
  | enqueuing outcome d => exact absurd rfl (h outcome d)
  | abandoning run reason error =>
    simp only [step]
    generalize s.callOrchestrator _ = r
    obtain ⟨_ | _, _⟩ := r <;> exact Option.some_ne_none _
  | answering outcome => exact Option.some_ne_none _
  | done result => exact Option.some_ne_none _

/-- A message waits where nobody asked for a stop and the queue is full. -/
theorem step_waits {outcome outcome' : InboundOutcome} {d d' : Dispatch}
    (h : ((enqueuing outcome d).step clock stopped s).1 = .enqueuing outcome' d') :
    stopped = false ∧ s.queue.queue.live.capacity ≤ s.queue.queue.live.entries.length := by
  have hoffers := s.queue.offer_offers clock d stopped
  simp only [step, Site.callQueue] at h
  generalize ExecutionQueue.offer s.queue clock d stopped = answer at hoffers h
  cases hoffers with
  | failed => cases h
  | answered hanswer =>
    cases hanswer with
    | added _ _ => cases h
    | full hgo hfull => exact ⟨hgo, hfull⟩
    | canceled _ => cases h
    | failed => cases h

/-- Two steps answer a message, unless it waits. -/
theorem waits_of_unanswered {i : Intake}
    (h : (i.pursued [(clock, stopped), (clock, stopped)] s).1.answer? = none) :
    (∃ outcome d, i = .enqueuing outcome d) ∧ stopped = false ∧
      s.queue.queue.live.capacity ≤ s.queue.queue.live.entries.length := by
  have hfirst : ∃ outcome d, (i.step clock stopped s).1 = .enqueuing outcome d := by
    by_contra hnot
    push Not at hnot
    exact answer?_step hnot h
  obtain ⟨outcome', d', hfirst⟩ := hfirst
  cases i with
  | enqueuing outcome d => exact ⟨⟨outcome, d, rfl⟩, step_waits hfirst⟩
  | abandoning run reason error =>
    have hdone : ((abandoning run reason error).step clock stopped s).1.answer? ≠ none :=
      answer?_step fun _ _ h => nomatch h
    rw [hfirst] at hdone
    exact absurd rfl hdone
  | answering outcome => cases hfirst
  | done result => cases hfirst

end Intake

namespace Site

theorem Stands.pursued {s s' : Site (Faulty Backend)} {sender : String} {i : Intake}
    (h : s.Stands sender i s') (attempts : List (Clock × Bool)) :
    s.Stands sender (i.pursued attempts s').1 (i.pursued attempts s').2 := by
  induction attempts generalizing i s' with
  | nil => exact h
  | cons attempt rest ih => exact ih (h.step attempt.1 attempt.2)

end Site

/-- Whatever the site, the message and the stop that is asked for: a message that lacks a
field changes nothing at all, and any other is answered by what was done.  An answer is only
missing while the queue is full and nobody asks for a stop; and it tells what was done at
whatever moment the stop is asked for. -/
theorem receive_all_or_nothing (s : Site (Faulty Backend)) (draws : Draws) (m : Inbound) :
    (∀ clock stopped field, m.blankField? = some field →
      Intake.receive s clock draws m stopped = (some (.error (.blank field)), s, draws)) ∧
    (∀ clock stopped answer, (Intake.receive s clock draws m stopped).1 = some answer →
      s.Settled m.sender (Intake.receive s clock draws m stopped).2.1 answer) ∧
    (∀ clock stopped, (Intake.receive s clock draws m stopped).1 = none →
      stopped = false ∧ s.queue.queue.live.capacity ≤ s.queue.queue.live.entries.length) ∧
    ∀ clock attempts answer s',
      (Intake.take s clock draws m).1.pursued attempts (Intake.take s clock draws m).2.1 =
        (.done answer, s') → s.Settled m.sender s' answer := by
  have hstands clock := s.take_stands clock draws m
  refine ⟨fun clock stopped field hblank => ?_, fun clock stopped answer hanswer => ?_,
    fun clock stopped hnone => ?_, fun clock attempts answer s' hdone => ?_⟩
  · rw [Intake.receive_eq_pursued]
    simp only [Intake.take, hblank]
    rfl
  · rw [Intake.receive_eq_pursued] at hanswer ⊢
    have hend := (hstands clock.still).pursued [(clock, stopped), (clock, stopped)]
    generalize Intake.take s clock.still draws m = taken at hanswer hend ⊢
    obtain ⟨i, site, draws'⟩ := taken
    simp only at hanswer hend ⊢
    generalize i.pursued [(clock, stopped), (clock, stopped)] site = r at hanswer hend ⊢
    obtain ⟨i, site⟩ := r
    cases hend with
    | enqueuing _ _ _ => cases hanswer
    | abandoning _ _ _ => cases hanswer
    | answering _ => cases hanswer
    | settled h =>
      cases hanswer
      exact h
  · rw [Intake.receive_eq_pursued] at hnone
    have htaken := hstands clock.still
    generalize Intake.take s clock.still draws m = taken at hnone htaken
    obtain ⟨i, site, draws'⟩ := taken
    obtain ⟨⟨outcome, d, rfl⟩, hgo, hfull⟩ := Intake.waits_of_unanswered hnone
    cases htaken with
    | enqueuing _ _ hqueue => exact ⟨hgo, hqueue ▸ hfull⟩
  · have hend := (hstands clock).pursued attempts
    rw [hdone] at hend
    cases hend with
    | settled h => exact h

def Inbound.ofAlice (body : String) : Inbound :=
  { channel := "chat", sender := "alice", conversation := "ops", body }

def Draws.zeros : Draws := ⟨fun _ => some 0, 0⟩

/-- A site with room for one entry, where a backup waits for a decision. -/
def Site.waiting : Site (Faulty Backend) :=
  (Intake.receive ⟨.new .requesterOnly, { queue := .memory (.new 1) }, {}⟩ default .zeros
    (.ofAlice "run backup") false).2.1

/-- The backup is approved, and either gets into the queue or, when a stop was asked for, is
canceled again. -/
theorem receive_all_or_nothing_waiting :
    (∃ outcome s', Intake.receive .waiting default .zeros (.ofAlice "yes run-0-0000") false =
        (some (.ok outcome), s', .zeros) ∧
      outcome.dispatch = some ⟨⟨"run-0-0000", by decide⟩, "backup"⟩ ∧
      Site.Queued Site.waiting.queue outcome.dispatch s'.queue) ∧
    (∃ s', Intake.receive .waiting default .zeros (.ofAlice "yes run-0-0000") true =
        (some (.error (.canceled "run-0-0000")), s', .zeros) ∧
      Site.waiting.Abandoned "alice" "run-0-0000"
        "enqueue canceled before the queue had room" s') ∧
    Intake.receive .waiting default .zeros (.ofAlice " ") false =
      (some (.error (.blank .body)), .waiting, .zeros) := by
  refine ⟨⟨_, _, rfl, rfl, ?_⟩, ⟨_, rfl, ?_⟩, ?_⟩
  · exact ((receive_all_or_nothing .waiting .zeros (.ofAlice "yes run-0-0000")).2.1 default false
      _ rfl).2
  · exact (receive_all_or_nothing .waiting .zeros (.ofAlice "yes run-0-0000")).2.1 default true
      _ rfl
  · exact (receive_all_or_nothing .waiting .zeros (.ofAlice " ")).1 default false .body (by rfl)

end JobGate
