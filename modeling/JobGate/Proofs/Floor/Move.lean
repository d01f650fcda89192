/-
What one action can do.

A `Scene` is what matters of a floor: the records, the live entries, and how far
everybody has come.  `Move` lists all that an action can do to a scene, and
`Floor.step_moves` says that nothing else happens.  Whatever holds along every run is
proved from it, one case for each kind of move.
-/
import JobGate.Proofs.Floor.Basic
import JobGate.Proofs.Orchestrator.Handled
import JobGate.Proofs.Queue.Backend

namespace JobGate

/-! ## What somebody has in hand -/

namespace Intake

/-- The dispatched run that is not yet in the queue, nor canceled. -/
def run? : Intake → Option String
  | enqueuing _ d => some d.run.text
  | abandoning run _ _ => some run
  | answering _ | done _ => none

end Intake

namespace Task

def entry? : Task → Option QueuedDispatch
  | claimed entry | executing entry _ | reporting entry _ _ | completing entry _ _ _
  | yielding entry | rejecting entry _ => some entry
  | done _ => none

def returned? : Task → Option QueuedDispatch
  | yielding entry | rejecting entry _ => some entry
  | _ => none

def ending? : Task → Option QueuedDispatch
  | completing entry _ _ _ | yielding entry | rejecting entry _ => some entry
  | _ => none

end Task

/-- The records, the live entries, and what everybody has in hand. -/
structure Scene where
  policy : Policy
  store : RunStore
  queue : LiveQueue
  calls : Nat → Option Intake
  tasks : String → Option Task

namespace Scene

def follow (s : Scene) (call : Nat) (i : Intake) : Scene :=
  { s with calls := Function.update s.calls call i.pending? }

def hand (s : Scene) (worker : String) (t : Task) : Scene :=
  { s with tasks := Function.update s.tasks worker t.pending? }

variable {s : Scene} {call c : Nat} {i : Intake} {worker w : String} {t : Task}

theorem follow_calls_self : (s.follow call i).calls call = i.pending? :=
  Function.update_self ..

theorem follow_calls_of_ne (h : c ≠ call) : (s.follow call i).calls c = s.calls c :=
  Function.update_of_ne h ..

theorem hand_tasks_self : (s.hand worker t).tasks worker = t.pending? :=
  Function.update_self ..

theorem hand_tasks_of_ne (h : w ≠ worker) : (s.hand worker t).tasks w = s.tasks w :=
  Function.update_of_ne h ..

/-- What a call has in hand after one of them has come so far. -/
theorem of_follow {x : Intake} (h : (s.follow call i).calls c = some x) :
    (c = call ∧ i.pending? = some x) ∨ s.calls c = some x := by
  by_cases hc : c = call
  · subst hc
    exact .inl ⟨rfl, follow_calls_self.symm.trans h⟩
  · exact .inr ((follow_calls_of_ne hc).symm.trans h)

theorem of_hand {x : Task} (h : (s.hand worker t).tasks w = some x) :
    (w = worker ∧ t.pending? = some x) ∨ s.tasks w = some x := by
  by_cases hw : w = worker
  · subst hw
    exact .inl ⟨rfl, hand_tasks_self.symm.trans h⟩
  · exact .inr ((hand_tasks_of_ne hw).symm.trans h)

end Scene

def Floor.scene (f : Floor) : Scene where
  policy := f.site.orchestrator.policy
  store := f.site.orchestrator.store
  queue := f.site.queue.queue.live
  calls := f.calls
  tasks := f.tasks

/-- Whether an action may leave everything as it is, when no call of the queue fails
in case of `calm`. -/
def Action.Idle (calm : Prop) (s : Scene) : Action → Prop
  | work worker _ =>
    s.tasks worker = none ∨ ∃ entry lost, s.tasks worker = some (.executing entry lost)
  | report worker _ _ => ∀ entry lost, s.tasks worker ≠ some (.executing entry lost)
  | renew worker _ => calm → ∀ entry, s.tasks worker = some (.executing entry false) →
      s.queue.Holds worker entry.id
  | reclaim _ _ => ¬ calm
  | timeOutStale _ _ _ | terminate _ _ _ _ => False
  | receive _ _ _ _ | pursue _ _ _ | claim _ _ | breakQueue _ => True

def Action.EndsRuns : Action → Prop
  | timeOutStale _ _ _ | terminate _ _ _ _ => True
  | _ => False

/-- What an action can do to a scene.  `stale` tells which claims are stale. -/
inductive Move (calm : Prop) (stale : Clock → Nat → Int → Bool) (s : Scene) :
    Action → Scene → Prop
  | still {a : Action} (hidle : a.Idle calm s) : Move calm stale s a s
  -- messages
  | dispatched {call : Nat} {clock : Readings} {draws : Draws} {m : Inbound}
      {outcome : InboundOutcome} {d : Dispatch} {store : RunStore} (hfree : s.calls call = none)
      (hhandled : Handled s.policy s.store m (Intent.parse m.body) (some d) store) :
      Move calm stale s (.receive call clock draws m)
        ({ s with store }.follow call (.enqueuing outcome d))
  | heard {call : Nat} {clock : Readings} {draws : Draws} {m : Inbound} {store : RunStore}
      {i : Intake} (hfree : s.calls call = none)
      (hhandled : Handled s.policy s.store m (Intent.parse m.body) none store)
      (hi : i.run? = none) :
      Move calm stale s (.receive call clock draws m) ({ s with store }.follow call i)
  | enqueued {call : Nat} {clock : Clock} {stopped : Bool} {outcome : InboundOutcome}
      {d : Dispatch} (hcall : s.calls call = some (.enqueuing outcome d))
      (hroom : s.queue.entries.length < s.queue.capacity) :
      Move calm stale s (.pursue call clock stopped)
        ({ s with queue := s.queue.add d }.follow call (.answering outcome))
  | gaveUp {call : Nat} {clock : Clock} {stopped : Bool} {outcome : InboundOutcome}
      {d : Dispatch} {reason : String} {error : IntakeError}
      (hcall : s.calls call = some (.enqueuing outcome d)) (hwhy : stopped = true ∨ ¬ calm) :
      Move calm stale s (.pursue call clock stopped)
        (s.follow call (.abandoning d.run.text reason error))
  | abandoned {call : Nat} {clock : Clock} {stopped : Bool} {run reason : String}
      {error : IntakeError} {result : Except IntakeError InboundOutcome} {status : Option Status}
      {store : RunStore} (hcall : s.calls call = some (.abandoning run reason error))
      (hattempt : s.store.Attempt .canceled Intake.actor run status store) :
      Move calm stale s (.pursue call clock stopped)
        ({ s with store }.follow call (.done result))
  | answered {call : Nat} {clock : Clock} {stopped : Bool} {i : Intake}
      {result : Except IntakeError InboundOutcome} (hcall : s.calls call = some i)
      (hi : i.run? = none) :
      Move calm stale s (.pursue call clock stopped) (s.follow call (.done result))
  -- workers
  | took {worker : String} {clock : Clock} {e : LiveEntry} {entry : QueuedDispatch}
      (hfree : s.tasks worker = none) (hfirst : s.queue.first? = some e) (hid : entry.id = e.id)
      (hrun : entry.run.text = e.run) (hkey : entry.jobKey = e.jobKey)
      (hattempts : (entry.attempts : Int) = e.attempts) :
      Move calm stale s (.claim worker clock)
        ({ s with queue := s.queue.hold e.id worker }.hand worker (.claimed entry))
  | discarded {worker : String} {clock : Clock} {e : LiveEntry} (hfree : s.tasks worker = none)
      (hfirst : s.queue.first? = some e) (hrun : ∀ id : RunId, id.text ≠ e.run) :
      Move calm stale s (.claim worker clock) { s with queue := s.queue.remove e.id }
  | began {worker : String} {clock : Clock} {entry : QueuedDispatch} {store : RunStore}
      (htask : s.tasks worker = some (.claimed entry))
      (hattempt : s.store.Attempt .started worker entry.run.text (some .running) store) :
      Move calm stale s (.work worker clock)
        ({ s with store }.hand worker (.executing entry false))
  | skipped {worker : String} {clock : Clock} {entry : QueuedDispatch} {error : Option String}
      {status : Option Status} {store : RunStore}
      (htask : s.tasks worker = some (.claimed entry))
      (hattempt : s.store.Attempt .started worker entry.run.text status store)
      (hstatus : status ≠ some .running) :
      Move calm stale s (.work worker clock)
        ({ s with store }.hand worker (.completing entry false error (.skipped status)))
  | ended {worker : String} {clock : Clock} {entry : QueuedDispatch} {report : Report}
      {error : Option String} {status : Option Status} {store : RunStore}
      (htask : s.tasks worker = some (.reporting entry report false))
      (hattempt : s.store.Attempt (Orchestrator.endKind report.success) worker entry.run.text
        status store) :
      Move calm stale s (.work worker clock)
        ({ s with store }.hand worker
          (.completing entry report.success error (.executed report.success)))
  | endedLost {worker : String} {clock : Clock} {entry : QueuedDispatch} {report : Report}
      {result : Except WorkerError Processed} {status : Option Status} {store : RunStore}
      (htask : s.tasks worker = some (.reporting entry report true))
      (hattempt : s.store.Attempt (Orchestrator.endKind report.success) worker entry.run.text
        status store) :
      Move calm stale s (.work worker clock) ({ s with store }.hand worker (.done result))
  | completed {worker : String} {clock : Clock} {entry : QueuedDispatch} {success : Bool}
      {error : Option String} {disposition : Disposition} {result : Except WorkerError Processed}
      (htask : s.tasks worker = some (.completing entry success error disposition))
      (hclaimed : s.queue.Claimed entry.id) :
      Move calm stale s (.work worker clock)
        ({ s with queue := s.queue.remove entry.id }.hand worker (.done result))
  | returned {worker : String} {clock : Clock} {t : Task} {entry : QueuedDispatch}
      {result : Except WorkerError Processed} (htask : s.tasks worker = some t)
      (hreturned : t.returned? = some entry) (hclaimed : s.queue.Claimed entry.id) :
      Move calm stale s (.work worker clock)
        ({ s with queue := s.queue.free (·.id = entry.id) }.hand worker (.done result))
  | endedLate {worker : String} {clock : Clock} {t : Task} {entry : QueuedDispatch}
      {result : Except WorkerError Processed} (htask : s.tasks worker = some t)
      (hending : t.ending? = some entry) (hwhy : ¬ s.queue.Claimed entry.id ∨ ¬ calm) :
      Move calm stale s (.work worker clock) (s.hand worker (.done result))
  | finished {worker : String} {clock : Clock} {result : Except WorkerError Processed}
      (htask : s.tasks worker = some (.done result)) :
      Move calm stale s (.work worker clock) (s.hand worker (.done result))
  | reported {worker : String} {report : Report} {stopped : Bool} {entry : QueuedDispatch}
      {lost : Bool} (htask : s.tasks worker = some (.executing entry lost)) :
      Move calm stale s (.report worker report stopped)
        (s.hand worker (Task.reported report stopped (.executing entry lost)))
  | noticed {worker : String} {clock : Clock} {entry : QueuedDispatch}
      (htask : s.tasks worker = some (.executing entry false))
      (hlost : ¬ s.queue.Holds worker entry.id) :
      Move calm stale s (.renew worker clock) (s.hand worker (.executing entry true))
  -- others
  | reclaimed {clock : Clock} {timeout : Nat} :
      Move calm stale s (.reclaim clock timeout)
        { s with queue := s.queue.free (stale clock timeout ·.id) }
  | endedRuns {a : Action} {store : RunStore} (ha : a.EndsRuns) (hmoved : s.store.Moved store) :
      Move calm stale s a { s with store }

namespace Floor

def Calm (f : Floor) : Prop := f.site.queue.outage = {}

/-- The queue is as its own operations leave it. -/
def Sound (f : Floor) : Prop := f.site.queue.queue.Sound

/-- The action is one of the moves.  The queue stays sound, and calm too unless the
action breaks it. -/
structure Moves (f : Floor) (a : Action) (f' : Floor) : Prop where
  sound : f'.Sound
  calm : (∀ outage, a ≠ .breakQueue outage) → f.Calm → f'.Calm
  move : Move f.Calm f.site.queue.queue.stale f.scene a f'.scene

variable {f : Floor}

theorem Moves.of_scene {a : Action} {f' : Floor} {s' : Scene} (hsound : f'.Sound)
    (hcalm : f.Calm → f'.Calm) (hscene : f'.scene = s')
    (hmove : Move f.Calm f.site.queue.queue.stale f.scene a s') : f.Moves a f' :=
  ⟨hsound, fun _ => hcalm, hscene ▸ hmove⟩

theorem scene_site {site : Site (Faulty Backend)} {store : RunStore} {queue : LiveQueue}
    (hpolicy : site.orchestrator.policy = f.site.orchestrator.policy)
    (hstore : site.orchestrator.store = store) (hqueue : site.queue.queue.live = queue) :
    Floor.scene { f with site } = { f.scene with store, queue } := by
  subst hstore hqueue
  show Scene.mk _ _ _ _ _ = Scene.mk _ _ _ _ _
  rw [hpolicy]
  rfl

theorem follow_self {s : Scene} {call : Nat} {i : Intake} (h : s.calls call = some i)
    (hi : i.pending? = some i) : s.follow call i = s := by
  unfold Scene.follow
  rw [hi, ← h, Function.update_eq_self]

theorem hand_self {s : Scene} {worker : String} {t : Task} (h : s.tasks worker = some t)
    (ht : t.pending? = some t) : s.hand worker t = s := by
  unfold Scene.hand
  rw [ht, ← h, Function.update_eq_self]

namespace Moves

variable {a : Action} {site : Site (Faulty Backend)} {store : RunStore} {queue : LiveQueue}

/-- A call has come so far, and left the site like this. -/
theorem of_follow {call : Nat} {i : Intake} (hsound : site.queue.queue.Sound)
    (hcalm : f.Calm → site.queue.outage = {})
    (hpolicy : site.orchestrator.policy = f.site.orchestrator.policy)
    (hstore : site.orchestrator.store = store) (hqueue : site.queue.queue.live = queue)
    (hmove : Move f.Calm f.site.queue.queue.stale f.scene a
      ({ f.scene with store, queue }.follow call i)) :
    f.Moves a (Floor.follow { f with site } call i) :=
  .of_scene hsound hcalm (congrArg (Scene.follow · call i) (scene_site hpolicy hstore hqueue))
    hmove

theorem of_hand {worker : String} {t : Task} (hsound : site.queue.queue.Sound)
    (hcalm : f.Calm → site.queue.outage = {})
    (hpolicy : site.orchestrator.policy = f.site.orchestrator.policy)
    (hstore : site.orchestrator.store = store) (hqueue : site.queue.queue.live = queue)
    (hmove : Move f.Calm f.site.queue.queue.stale f.scene a
      ({ f.scene with store, queue }.hand worker t)) :
    f.Moves a (Floor.hand { f with site } worker t) :=
  .of_scene hsound hcalm (congrArg (Scene.hand · worker t) (scene_site hpolicy hstore hqueue))
    hmove

end Moves

/-! ## Messages -/

/-- How far a message has come once the orchestrator has taken it. -/
theorem take_handled (s : Site (Faulty Backend)) (clock : Readings) (draws : Draws)
    (m : Inbound) : ∃ i o draws',
      Intake.take s clock draws m = (i, { s with orchestrator := o }, draws') ∧
      o.policy = s.orchestrator.policy ∧ ∃ dispatch,
        Handled s.orchestrator.policy s.orchestrator.store m (Intent.parse m.body) dispatch
          o.store ∧
        ((∃ outcome d, dispatch = some d ∧ i = .enqueuing outcome d) ∨
          dispatch = none ∧ i.run? = none) := by
  unfold Intake.take
  cases m.blankField? with
  | some field => exact ⟨_, _, _, rfl, rfl, none, .kept, .inr ⟨rfl, rfl⟩⟩
  | none =>
    obtain ⟨hpolicy, hhandled⟩ := s.orchestrator.handle_handled clock draws m (Intent.parse m.body)
    simp only
    generalize s.orchestrator.handle clock draws m (Intent.parse m.body) = answer
      at hpolicy hhandled ⊢
    obtain ⟨e | outcome, o, draws'⟩ := answer
    · exact ⟨_, o, _, rfl, hpolicy, none, hhandled, .inr ⟨rfl, rfl⟩⟩
    · have hdispatch : Orchestrator.dispatchOf (.ok outcome) = outcome.dispatch := rfl
      rw [hdispatch] at hhandled
      simp only
      cases hd : outcome.dispatch with
      | none => exact ⟨_, o, _, rfl, hpolicy, none, hd ▸ hhandled, .inr ⟨rfl, rfl⟩⟩
      | some d => exact ⟨_, o, _, rfl, hpolicy, some d, hd ▸ hhandled, .inl ⟨outcome, d, rfl, rfl⟩⟩

theorem receive_moves (h : f.Sound) (call : Nat) (clock : Readings) (draws : Draws)
    (m : Inbound) :
    f.Moves (.receive call clock draws m) (f.step (.receive call clock draws m)) := by
  cases hcall : f.calls call with
  | some i =>
    simp only [step, hcall]
    exact ⟨h, fun _ => id, .still trivial⟩
  | none =>
    obtain ⟨i, o, draws', htake, hpolicy, dispatch, hhandled, hi⟩ :=
      take_handled f.site clock draws m
    simp only [step, hcall, htake]
    refine .of_follow h id hpolicy rfl rfl ?_
    rcases hi with ⟨outcome, d, rfl, rfl⟩ | ⟨rfl, hrun⟩
    · exact .dispatched hcall hhandled
    · exact .heard hcall hhandled hrun

theorem pursue_moves (h : f.Sound) (call : Nat) (clock : Clock) (stopped : Bool) :
    f.Moves (.pursue call clock stopped) (f.step (.pursue call clock stopped)) := by
  cases hcall : f.calls call with
  | none =>
    simp only [step, hcall]
    exact ⟨h, fun _ => id, .still trivial⟩
  | some i =>
    simp only [step, hcall]
    cases i with
    | enqueuing outcome d =>
      have hanswers := Faulty.offer_answers h clock d stopped
      simp only [Intake.step, Site.callQueue]
      generalize ExecutionQueue.offer f.site.queue clock d stopped = answer at hanswers ⊢
      cases hanswers with
      | failed hout => exact ⟨h, fun _ hcalm => absurd hcalm hout, .gaveUp hcall (.inr hout)⟩
      | answered hsound hoffered =>
        rename_i queue
        generalize hlive : queue.live = live at hoffered
        cases hoffered with
        | added _ hroom =>
          refine .of_follow hsound id rfl rfl hlive ?_
          exact .enqueued hcall hroom
        | full _ _ =>
          refine .of_follow hsound id rfl rfl hlive ?_
          rw [follow_self hcall rfl]
          exact .still trivial
        | canceled hstop =>
          refine .of_follow hsound id rfl rfl hlive ?_
          exact .gaveUp hcall (.inl hstop)
    | abandoning run reason error =>
      obtain ⟨outcome, o, heq, hpolicy, hattempt⟩ :=
        f.site.orchestrator.terminate_attempt clock.still run (.cancel Intake.actor) reason
      simp only [Intake.step, Site.callOrchestrator, Orchestrator.cancelRun, heq]
      refine .of_follow h id hpolicy rfl rfl ?_
      exact .abandoned hcall hattempt
    | answering outcome => exact ⟨h, fun _ => id, .answered hcall rfl⟩
    | done result => exact ⟨h, fun _ => id, .answered hcall rfl⟩

/-! ## Workers -/

theorem claim_moves (h : f.Sound) (worker : String) (clock : Clock) :
    f.Moves (.claim worker clock) (f.step (.claim worker clock)) := by
  cases htask : f.tasks worker with
  | some t =>
    simp only [step, htask]
    exact ⟨h, fun _ => id, .still trivial⟩
  | none =>
    have hanswers := Faulty.claim_answers h clock worker
    simp only [step, htask, Task.claim, Site.callQueue]
    generalize ExecutionQueue.claim f.site.queue clock worker = answer at hanswers ⊢
    cases hanswers with
    | failed hout => exact ⟨h, fun _ hcalm => absurd hcalm hout, .still trivial⟩
    | answered hsound hclaims =>
      rename_i queue
      generalize hlive : queue.live = live at hclaims
      cases hclaims with
      | nothing _ => exact .of_scene hsound id (scene_site rfl rfl hlive) (.still trivial)
      | refused _ _ => exact .of_scene hsound id (scene_site rfl rfl hlive) (.still trivial)
      | discarded hfirst hrun =>
        exact .of_scene hsound id (scene_site rfl rfl hlive) (.discarded htask hfirst hrun)
      | claimed hfirst hid hrun hkey hattempts =>
        refine .of_hand hsound id rfl rfl hlive ?_
        exact .took htask hfirst hid hrun hkey hattempts

theorem afterClaimEnd_done (entry : QueuedDispatch) (d : Disposition)
    (answer : Except QueueError Unit) :
    ∃ result, Task.afterClaimEnd entry d answer = .done result := by
  cases answer with
  | ok _ => exact ⟨_, rfl⟩
  | error e => cases e <;> exact ⟨_, rfl⟩

theorem end_moves {worker : String} {clock : Clock} {t t' : Task} {entry : QueuedDispatch}
    {result : Except WorkerError Processed} {queue : LiveQueue}
    {answer : Except QueueError Unit × Faulty Backend}
    (htask : f.tasks worker = some t) (h : f.Sound) (hending : t.ending? = some entry)
    (hdone : t' = .done result)
    (hanswers : f.site.queue.Answers (LiveQueue.Guarded (f.scene.queue.Claimed entry.id) entry.id
      f.scene.queue queue) answer)
    (hmove : f.scene.queue.Claimed entry.id → Move f.Calm f.site.queue.queue.stale f.scene
      (.work worker clock) ({ f.scene with queue }.hand worker (.done result))) :
    f.Moves (.work worker clock)
      (Floor.hand { f with site.queue := answer.2 } worker t') := by
  subst hdone
  cases hanswers with
  | failed hout => exact ⟨h, fun _ hcalm => absurd hcalm hout, .endedLate htask hending (.inr hout)⟩
  | answered hsound hguarded =>
    rename_i queue'
    generalize hlive : queue'.live = live at hguarded
    cases hguarded with
    | done hclaimed =>
      refine .of_hand hsound id rfl rfl hlive ?_
      exact hmove hclaimed
    | notClaimed hfree =>
      refine .of_hand hsound id rfl rfl hlive ?_
      exact .endedLate htask hending (.inl hfree)

theorem work_moves (h : f.Sound) (worker : String) (clock : Clock) :
    f.Moves (.work worker clock) (f.step (.work worker clock)) := by
  cases htask : f.tasks worker with
  | none =>
    simp only [step, htask]
    exact ⟨h, fun _ => id, .still (.inl htask)⟩
  | some t =>
    simp only [step, htask]
    cases t with
    | claimed entry =>
      obtain ⟨outcome, o, heq, hpolicy, hattempt⟩ :=
        f.site.orchestrator.onStarted_attempt clock.still entry.run.text worker
      simp only [Task.step, Site.callOrchestrator, heq]
      by_cases hrunning : outcome.status = some .running
      · simp only [hrunning, if_true]
        refine .of_hand h id hpolicy rfl rfl ?_
        exact .began htask (hrunning ▸ hattempt)
      · simp only [hrunning, if_false]
        refine .of_hand h id hpolicy rfl rfl ?_
        exact .skipped htask hattempt hrunning
    | executing entry lost =>
      refine .of_scene h id (hand_self (s := f.scene) htask rfl) ?_
      exact .still (.inr ⟨entry, lost, htask⟩)
    | reporting entry report lost =>
      obtain ⟨outcome, o, heq, hpolicy, hattempt⟩ := f.site.orchestrator.onCompleted_attempt
        clock.still entry.run.text worker report.success report.summary
      simp only [Task.step, Site.callOrchestrator, heq]
      cases lost with
      | true =>
        refine .of_hand h id hpolicy rfl rfl ?_
        exact .endedLost htask hattempt
      | false =>
        refine .of_hand h id hpolicy rfl rfl ?_
        exact .ended htask hattempt
    | completing entry success error disposition =>
      obtain ⟨result, hdone⟩ := afterClaimEnd_done entry disposition
        (ExecutionQueue.complete f.site.queue clock entry.id success error).1
      exact end_moves htask h rfl hdone
        (Faulty.complete_answers h clock entry.id success error) (.completed htask)
    | yielding entry =>
      obtain ⟨result, hdone⟩ := afterClaimEnd_done entry .interrupted
        (ExecutionQueue.release f.site.queue clock entry.id (some Task.shutdownMessage)).1
      exact end_moves htask h rfl hdone
        (Faulty.release_answers h clock entry.id (some Task.shutdownMessage)) (.returned htask rfl)
    | rejecting entry e =>
      exact end_moves htask h rfl rfl
        (Faulty.release_answers h clock entry.id (some e.message)) (.returned htask rfl)
    | done result => exact ⟨h, fun _ => id, .finished htask⟩

theorem report_moves (h : f.Sound) (worker : String) (report : Report) (stopped : Bool) :
    f.Moves (.report worker report stopped) (f.step (.report worker report stopped)) := by
  by_cases hexec : ∃ entry lost, f.tasks worker = some (.executing entry lost)
  · obtain ⟨entry, lost, htask⟩ := hexec
    simp only [step, htask]
    exact ⟨h, fun _ => id, .reported htask⟩
  · have hne : ∀ entry lost, f.tasks worker ≠ some (.executing entry lost) :=
      fun entry lost htask => hexec ⟨entry, lost, htask⟩
    have hsame : f.step (.report worker report stopped) = f := by
      simp only [step]
    rw [hsame]
    exact ⟨h, fun _ => id, .still hne⟩

theorem renew_moves (h : f.Sound) (worker : String) (clock : Clock) :
    f.Moves (.renew worker clock) (f.step (.renew worker clock)) := by
  by_cases hexec : ∃ entry, f.tasks worker = some (.executing entry false)
  · obtain ⟨entry, htask⟩ := hexec
    have hanswers := Faulty.renew_answers h clock entry.id worker
    simp only [step, htask, Task.renew, Site.callQueue]
    generalize ExecutionQueue.renew f.site.queue clock entry.id worker = answer at hanswers ⊢
    cases hanswers with
    | failed hout =>
      refine .of_scene h (fun hcalm => absurd hcalm hout) (hand_self (s := f.scene) htask rfl) ?_
      exact .still fun hcalm => absurd hcalm hout
    | answered hsound hguarded =>
      rename_i queue
      generalize hlive : queue.live = live at hguarded
      cases hguarded with
      | done hholds =>
        refine .of_hand hsound id rfl rfl hlive ?_
        refine Eq.mpr (congrArg _ (hand_self (s := f.scene) htask rfl))
          (.still fun _ entry' h' => ?_)
        cases htask.symm.trans h'
        exact hholds
      | notClaimed hnot =>
        refine .of_hand hsound id rfl rfl hlive ?_
        exact .noticed htask hnot
  · have hne : ∀ entry, f.tasks worker ≠ some (.executing entry false) :=
      fun entry htask => hexec ⟨entry, htask⟩
    have hsame : f.step (.renew worker clock) = f := by
      simp only [step]
    rw [hsame]
    exact ⟨h, fun _ => id, .still fun _ entry htask => absurd htask (hne entry)⟩

/-! ## The others -/

theorem reclaim_moves (h : f.Sound) (clock : Clock) (timeout : Nat) :
    f.Moves (.reclaim clock timeout) (f.step (.reclaim clock timeout)) := by
  have hanswers := Faulty.reclaim_answers h clock timeout
  simp only [step, Site.callQueue]
  generalize ExecutionQueue.reclaim f.site.queue clock timeout = answer at hanswers ⊢
  cases hanswers with
  | failed hout => exact ⟨h, fun _ hcalm => absurd hcalm hout, .still hout⟩
  | answered hsound hreclaim =>
    exact .of_scene hsound id (scene_site rfl rfl hreclaim.2) .reclaimed

/-- Every action is one of the moves. -/
theorem step_moves (h : f.Sound) (a : Action) : f.Moves a (f.step a) := by
  cases a with
  | receive call clock draws m => exact receive_moves h call clock draws m
  | pursue call clock stopped => exact pursue_moves h call clock stopped
  | claim worker clock => exact claim_moves h worker clock
  | work worker clock => exact work_moves h worker clock
  | report worker report stopped => exact report_moves h worker report stopped
  | renew worker clock => exact renew_moves h worker clock
  | reclaim clock timeout => exact reclaim_moves h clock timeout
  | timeOutStale clock maxAge now =>
    obtain ⟨outcomes, o, heq, hpolicy, hmoved, -⟩ :=
      f.site.orchestrator.timeOutStale_moved clock maxAge now
    simp only [step, Site.callOrchestrator, heq]
    exact .of_scene h id (scene_site hpolicy rfl rfl) (.endedRuns trivial hmoved)
  | terminate clock run t reason =>
    obtain ⟨outcome, o, heq, hpolicy, hattempt⟩ :=
      f.site.orchestrator.terminate_attempt clock run t reason
    simp only [step, Site.callOrchestrator, heq]
    have hmoved := hattempt.moved t.isExecution
    exact .of_scene h id (scene_site hpolicy rfl rfl) (.endedRuns trivial hmoved)
  | breakQueue outage => exact ⟨h, fun ha => absurd rfl (ha outage), .still trivial⟩

/-- While no call of the queue fails, it tells its depth. -/
theorem depth_eq (h : f.Sound) (hcalm : f.Calm) :
    (ExecutionQueue.depth f.site.queue).1 = .ok f.scene.queue.depth := by
  have hanswers := Faulty.depth_answers (q := f.site.queue) h
  generalize ExecutionQueue.depth f.site.queue = answer at hanswers ⊢
  cases hanswers with
  | failed hout => exact absurd hcalm hout
  | answered _ hdepth => exact hdepth.1

/-- What holds at the start and is preserved by every move holds along every run. -/
theorem run_induction {P : Scene → Prop} (h : f.Sound) (hstart : P f.scene)
    (hmove : ∀ {calm stale s a s'}, Move calm stale s a s' → s.queue.Sound → P s → P s')
    (acts : List Action) : (f.run acts).Sound ∧ P (f.run acts).scene := by
  induction acts using List.reverseRecOn with
  | nil => exact ⟨h, hstart⟩
  | append_singleton acts a ih =>
    have hmoves := step_moves ih.1 a
    rw [run_concat]
    exact ⟨hmoves.sound, hmove hmoves.move (Backend.sound_live ih.1) ih.2⟩

theorem run_sound (h : f.Sound) (acts : List Action) : (f.run acts).Sound :=
  (run_induction (P := fun _ => True) h trivial (fun _ _ _ => trivial) acts).1

/-- The same for runs in which no call of the queue fails. -/
theorem calm_induction {P : Scene → Prop} (h : f.Sound) (hcalm : f.Calm) (hstart : P f.scene)
    (hmove : ∀ {stale s a s'}, Move True stale s a s' → s.queue.Sound → P s → P s')
    {acts : List Action} (hacts : ∀ outage, Action.breakQueue outage ∉ acts) :
    (f.run acts).Sound ∧ (f.run acts).Calm ∧ P (f.run acts).scene := by
  induction acts using List.reverseRecOn with
  | nil => exact ⟨h, hcalm, hstart⟩
  | append_singleton acts a ih =>
    obtain ⟨hsound, hcalm, hP⟩ := ih fun outage hx => hacts outage (List.mem_append_left _ hx)
    have hmoves := step_moves hsound a
    have hbreak : ∀ outage, a ≠ .breakQueue outage := by
      rintro outage rfl
      exact hacts outage (List.mem_append_right _ List.mem_cons_self)
    have hcalmMove := hmoves.move
    rw [eq_true hcalm] at hcalmMove
    rw [run_concat]
    exact ⟨hmoves.sound, hmoves.calm hbreak hcalm,
      hmove hcalmMove (Backend.sound_live hsound) hP⟩

end Floor
end JobGate
