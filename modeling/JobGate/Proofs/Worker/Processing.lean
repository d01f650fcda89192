/-
A worker deals with one entry.

`Task.attend` is a whole turn of a worker with nobody else in between: it claims an entry,
begins the run, renews its claim while the executor runs, and ends the run and the claim.
Each call reads a clock of its own.  `Task.process` is the turn at a clock that stands still.

`Site.Attended` lists the ways in which a turn can end, each with its answer, what was
executed, and all that has become of the records, the queue and the outbox.  Which of them it
is hangs on the record of the entry's run, on the report and on whether the worker was asked
to stop.  The renewals of the heartbeat are the only calls that can be many (`beat_holds`).
Each of the others is spelled out once, and `Task.deal_executed` puts most of them together.
-/
import JobGate.Proofs.Floor.Approval
import JobGate.Proofs.Queue.Turn
import JobGate.Proofs.Service.Intake
import JobGate.Proofs.Worker.Heartbeat

namespace JobGate

namespace Task

/-- The clocks that a worker reads while it deals with an entry. -/
structure Pace where
  claim : Clock
  /-- The beginning of the run is reported. -/
  start : Clock
  /-- An entry whose run is not to be executed is completed. -/
  skip : Clock
  /-- The heartbeat renews the claim. -/
  beats : List Clock
  /-- The end of the run is reported, or the entry is given back. -/
  finish : Clock
  /-- The entry is completed. -/
  close : Clock

/-- A clock that stands still, so that the heartbeat never beats. -/
def Pace.steady (clock : Clock) : Pace := ⟨clock, clock, clock, [], clock, clock⟩

variable {Q : Type} [ExecutionQueue Q]

def settleAt (first second : Clock) (worker : String) (t : Task) (s : Site Q) : Task × Site Q :=
  let (t, s) := step first worker t s
  step second worker t s

def beat (worker : String) : List Clock → Task → Site Q → Task × Site Q
  | clock :: rest, .executing entry false, s =>
    let (_, t, s) := renew clock worker (.executing entry false) s
    beat worker rest t s
  | _, t, s => (t, s)

def conclude (d : Dispatch) :
    Task × Site Q → Except WorkerError (Option Processed) × Option Dispatch × Site Q
  | (.done result, s) => (result.map some, some d, s)
  | (_, s) => (.ok none, some d, s)

/-- Deals with an entry that was claimed.  The dispatch that was executed is part of the
answer. -/
def deal (execute : Dispatch → Report) (stopped : Bool) (p : Pace) (worker : String) (t : Task)
    (s : Site Q) : Except WorkerError (Option Processed) × Option Dispatch × Site Q :=
  match settleAt p.start p.skip worker t s with
  | (.executing entry lost, s) =>
    let (t, s) := beat worker p.beats (.executing entry lost) s
    conclude entry.dispatch
      (settleAt p.finish p.close worker (reported (execute entry.dispatch) stopped t) s)
  | (.done result, s) => (result.map some, none, s)
  | (_, s) => (.ok none, none, s)

/-- Claims an entry and deals with it, with nothing else happening in between. -/
def attend (execute : Dispatch → Report) (stopped : Bool) (p : Pace) (worker : String)
    (s : Site Q) : Except WorkerError (Option Processed) × Option Dispatch × Site Q :=
  match claim s p.claim worker with
  | (.error e, s) => (.error e, none, s)
  | (.ok none, s) => (.ok none, none, s)
  | (.ok (some t), s) => deal execute stopped p worker t s

theorem process_eq_attend (execute : Dispatch → Report) (stopped : Bool) (clock : Clock)
    (worker : String) (s : Site Q) :
    process execute stopped clock worker s = attend execute stopped (.steady clock) worker s := by
  unfold process attend deal conclude
  rfl

end Task

/-! ## The run -/

namespace RunRecord

/-- A worker begins a run.  One that was dispatched is started, and one that is running already
goes on as it is. -/
inductive Begins (worker : String) (time : Instant) (r : RunRecord) : RunRecord → Prop
  | started {e : Event} {r' : RunRecord} (hstatus : r.status = .dispatching)
      (happend : r.append .started worker (Payload.ofTexts [("workerId", worker)]) time =
        .ok (e, r')) : Begins worker time r r'
  | resumed (hstatus : r.status = .running) : Begins worker time r r

/-- A worker ends a run.  The last event of its log is the report. -/
structure Ends (worker : String) (report : Report) (time : Instant) (r : RunRecord) (e : Event)
    (r' : RunRecord) : Prop where
  append : r.append (Orchestrator.endKind report.success) worker
    (Payload.ofTexts [("summary", report.summary), ("workerId", worker)]) time = .ok (e, r')
  status : r'.status = if report.success then .succeeded else .failed

variable {r r' : RunRecord} {worker : String} {time : Instant} {report : Report} {e : Event}

theorem Begins.status (h : r.Begins worker time r') : r'.status = .running := by
  cases h with
  | started hstatus happend =>
    have happly := append_apply happend
    rw [hstatus] at happly
    exact (Option.some.inj happly).symm
  | resumed hstatus => exact hstatus

theorem Begins.id (h : r.Begins worker time r') : r'.run.id = r.run.id := by
  cases h with
  | started _ happend => exact append_id happend
  | resumed _ => rfl

theorem ends_of_append (hrunning : r.status = .running)
    (happend : r.append (Orchestrator.endKind report.success) worker
      (Payload.ofTexts [("summary", report.summary), ("workerId", worker)]) time = .ok (e, r')) :
    r.Ends worker report time e r' := by
  refine ⟨happend, ?_⟩
  have happly := append_apply happend
  rw [hrunning] at happly
  cases hsuccess : report.success with
  | true =>
    rw [hsuccess] at happly
    exact (Option.some.inj happly).symm
  | false =>
    rw [hsuccess] at happly
    exact (Option.some.inj happly).symm

end RunRecord

namespace RunStore

theorem put_put (s : RunStore) {r r' : RunRecord} (h : r'.run.id = r.run.id) :
    (s.put r).put r' = s.put r' := by
  unfold put
  congr 1
  rw [List.map_map]
  refine List.map_congr_left fun x _ => ?_
  by_cases hx : x.run.id = r.run.id
  · simp [hx, h]
  · simp [hx, h]

end RunStore

namespace Orchestrator

variable (o : Orchestrator) (clock : Readings)

def completion (run : Run) (e : Event) (report : JobGate.Report) : Notice :=
  let verb := if report.success then "succeeded" else "failed"
  Notice.ofEvent run e verb
    ("Run " ++ run.id.text ++ " (`" ++ run.jobKey ++ "`) " ++ verb ++ ": " ++ report.summary)

theorem onStarted_begins {run : String} {r : RunRecord} (hfind : o.store.find? run = some r)
    (hbusy : r.status.isBusy = true) (worker : String) :
    ∃ r' outcome, r.Begins worker (clock 0) r' ∧
      o.onStarted clock run worker = (.ok outcome, o.put r') ∧
      outcome.status = some .running ∧ outcome.notices = [] := by
  by_cases hdispatching : r.status = .dispatching
  · have hnext : r.status.apply .started = some .running := by
      rw [hdispatching]
      rfl
    obtain ⟨e, r', happend, hchecked⟩ := appendChecked_eq hnext worker
      (Payload.ofTexts [("workerId", worker)]) (clock 0)
    have hbegins : r.Begins worker (clock 0) r' := .started hdispatching happend
    refine ⟨r', .changed run r'.status [], hbegins, ?_, congrArg some hbegins.status, rfl⟩
    simp only [onStarted, hfind, hdispatching, if_true, start, hchecked]
  · have hrunning : r.status = .running := by
      cases hstatus : r.status <;> rw [hstatus] at hbusy hdispatching <;>
        first | rfl | exact absurd rfl hdispatching | cases hbusy
    refine ⟨r, .unchanged run r.status .duplicate, .resumed hrunning, ?_,
      congrArg some hrunning, rfl⟩
    rw [put_self o run hfind]
    simp only [onStarted, hfind, hrunning]
    rfl

theorem onStarted_over {run : String}
    (hover : ∀ r, o.store.find? run = some r → r.status.isTerminal = true) (worker : String) :
    ∃ outcome, o.onStarted clock run worker = (.ok outcome, o) ∧
      outcome.status = o.statusOf run ∧ outcome.status ≠ some .running ∧
      outcome.notices = [] := by
  unfold onStarted statusOf
  cases hfind : o.store.find? run with
  | none => exact ⟨.notFound run, rfl, rfl, nofun, rfl⟩
  | some r =>
    have hterminal := hover r hfind
    have hdispatching : r.status ≠ .dispatching := by
      intro hstatus
      rw [hstatus] at hterminal
      cases hterminal
    refine ⟨.unchanged run r.status .duplicate, ?_, rfl, ?_, rfl⟩
    · simp only [hdispatching, if_false, hterminal, Bool.or_true, if_true]
    · intro hstatus
      rw [Option.some.inj hstatus] at hterminal
      cases hterminal

theorem onCompleted_ends {run : String} {r : RunRecord} (hfind : o.store.find? run = some r)
    (hrunning : r.status = .running) (worker : String) (report : JobGate.Report) :
    ∃ e r', r.Ends worker report (clock 0) e r' ∧
      o.onCompleted clock run worker report.success report.summary =
        (.ok (.changed run r'.status [completion r'.run e report]), o.put r') := by
  obtain ⟨next, hnext⟩ : ∃ next, r.status.apply (endKind report.success) = some next := by
    rw [hrunning]
    cases report.success with
    | true => exact ⟨_, rfl⟩
    | false => exact ⟨_, rfl⟩
  obtain ⟨e, r', happend, hchecked⟩ := appendChecked_eq hnext worker
    (Payload.ofTexts [("summary", report.summary), ("workerId", worker)]) (clock 0)
  refine ⟨e, r', RunRecord.ends_of_append hrunning happend, ?_⟩
  simp only [onCompleted, hfind, hrunning, Status.isTerminal, Bool.false_eq_true, if_false, ne_eq,
    not_true, finish]
  rw [show (if report.success = true then EventKind.succeeded else .failed) =
    endKind report.success from rfl, hchecked]
  rfl

end Orchestrator

/-! ## The calls of a turn -/

namespace Task

section
variable {Q : Type} [ExecutionQueue Q] {o : Orchestrator} {q : Q} {x : Outbox} {r : RunRecord}
  {entry : QueuedDispatch}

theorem step_claimed_over
    (hover : ∀ r, o.store.find? entry.run.text = some r → r.status.isTerminal = true)
    (clock : Clock) (worker : String) :
    step clock worker (.claimed entry) (⟨o, q, x⟩ : Site Q) =
      (.completing entry false (some (skipReason (o.statusOf entry.run.text)))
        (.skipped (o.statusOf entry.run.text)), ⟨o, q, x⟩) := by
  obtain ⟨outcome, heq, hstatus, hnot, hnotices⟩ := o.onStarted_over clock.still hover worker
  rw [hstatus] at hnot
  simp only [step, Site.callOrchestrator, heq, hstatus, hnot, if_false, hnotices]
  rfl

theorem step_claimed_busy (hfind : o.store.find? entry.run.text = some r)
    (hbusy : r.status.isBusy = true) (clock : Clock) (worker : String) :
    ∃ r', r.Begins worker clock.wall r' ∧
      step clock worker (.claimed entry) (⟨o, q, x⟩ : Site Q) =
        (.executing entry false, ⟨o.put r', q, x⟩) := by
  obtain ⟨r', outcome, hbegins, heq, hstatus, hnotices⟩ :=
    o.onStarted_begins clock.still hfind hbusy worker
  refine ⟨r', hbegins, ?_⟩
  simp only [step, Site.callOrchestrator, heq, hstatus, if_true, hnotices]
  rfl

theorem step_reporting (hfind : o.store.find? entry.run.text = some r)
    (hrunning : r.status = .running) (clock : Clock) (worker : String) (report : Report) :
    ∃ e r', r.Ends worker report clock.wall e r' ∧
      step clock worker (.reporting entry report false) (⟨o, q, x⟩ : Site Q) =
        (.completing entry report.success
            (if report.success then none else some report.summary) (.executed report.success),
          ⟨o.put r', q, x.deliverAll [Orchestrator.completion r'.run e report]⟩) := by
  obtain ⟨e, r', hends, heq⟩ := o.onCompleted_ends clock.still hfind hrunning worker report
  refine ⟨e, r', hends, ?_⟩
  simp only [step, Site.callOrchestrator, heq, Bool.false_eq_true, if_false]
  rfl

end

variable {o : Orchestrator} {q : Backend} {x : Outbox} {entry : QueuedDispatch} {worker : String}

/-- A worker that holds its entry renews its claim as often as it likes. -/
theorem beat_holds (h : q.Sound) (hholds : q.live.Holds worker entry.id) (clocks : List Clock) :
    ∃ q', q.Turns entry.id q.live q' ∧
      beat worker clocks (.executing entry false)
          (⟨o, { queue := q }, x⟩ : Site (Faulty Backend)) =
        (.executing entry false, ⟨o, { queue := q' }, x⟩) := by
  induction clocks generalizing q with
  | nil => exact ⟨q, ⟨h, rfl, rfl⟩, rfl⟩
  | cons clock rest ih =>
    obtain ⟨hanswer, hqueue⟩ := Backend.renew_turns h hholds clock
    have hrenew : renew clock worker (.executing entry false)
        (⟨o, { queue := q }, x⟩ : Site (Faulty Backend)) = (.ok (), .executing entry false,
          ⟨o, { queue := (ExecutionQueue.renew q clock entry.id worker).2 }, x⟩) :=
      renew_ok hanswer
    obtain ⟨q', hqueue', hbeat⟩ := ih hqueue.sound (hqueue.live ▸ hholds)
    refine ⟨q', hqueue.trans (hqueue.live ▸ hqueue'), ?_⟩
    rw [beat, hrenew]
    exact hbeat

theorem step_completing (h : q.Sound) (hclaimed : q.live.Claimed entry.id) (clock : Clock)
    (worker : String) (success : Bool) (error : Option String) (d : Disposition) :
    ∃ q', q.Turns entry.id (q.live.remove entry.id) q' ∧
      step clock worker (.completing entry success error d)
          (⟨o, { queue := q }, x⟩ : Site (Faulty Backend)) =
        (finished entry d, ⟨o, { queue := q' }, x⟩) := by
  obtain ⟨hanswer, hqueue⟩ := Backend.complete_turns h hclaimed clock success error
  refine ⟨_, hqueue, ?_⟩
  show (afterClaimEnd entry d (ExecutionQueue.complete q clock entry.id success error).1, _) = _
  rw [hanswer]
  rfl

theorem settle_over (h : q.Sound) (hclaimed : q.live.Claimed entry.id)
    (hover : ∀ r, o.store.find? entry.run.text = some r → r.status.isTerminal = true)
    (first second : Clock) (worker : String) :
    ∃ q', q.Turns entry.id (q.live.remove entry.id) q' ∧
      settleAt first second worker (.claimed entry)
          (⟨o, { queue := q }, x⟩ : Site (Faulty Backend)) =
        (finished entry (.skipped (o.statusOf entry.run.text)), ⟨o, { queue := q' }, x⟩) := by
  obtain ⟨q', hqueue, hstep⟩ := step_completing (o := o) (x := x) h hclaimed second worker false
    (some (skipReason (o.statusOf entry.run.text))) (.skipped (o.statusOf entry.run.text))
  refine ⟨q', hqueue, ?_⟩
  rw [settleAt, step_claimed_over hover]
  exact hstep

/-- A worker whose execution failed when it was asked to stop gives the entry back. -/
theorem settle_failed (h : q.Sound) (hclaimed : q.live.Claimed entry.id) {report : Report}
    (hfailed : report.success = false) (first second : Clock) (worker : String) :
    ∃ q', q.Turns entry.id (q.live.free (·.id = entry.id)) q' ∧
      settleAt first second worker (reported report true (.executing entry false))
          (⟨o, { queue := q }, x⟩ : Site (Faulty Backend)) =
        (finished entry .interrupted, ⟨o, { queue := q' }, x⟩) := by
  obtain ⟨hanswer, hqueue⟩ := Backend.release_turns h hclaimed first (some shutdownMessage)
  refine ⟨_, hqueue, ?_⟩
  have hyields : reported report true (.executing entry false) = .yielding entry := by
    simp only [reported, hfailed, Bool.not_false, Bool.and_self, if_true, Bool.false_eq_true,
      if_false]
  rw [hyields]
  show step second worker (afterClaimEnd entry .interrupted
    (ExecutionQueue.release q first entry.id (some shutdownMessage)).1) _ = _
  rw [hanswer]
  rfl

/-- A worker that does not give the entry back reports the end of the run. -/
theorem settle_ended (h : q.Sound) (hclaimed : q.live.Claimed entry.id) {r : RunRecord}
    (hfind : o.store.find? entry.run.text = some r) (hrunning : r.status = .running)
    {report : Report} {stopped : Bool} (hgoes : report.success = true ∨ stopped = false)
    (first second : Clock) (worker : String) :
    ∃ e r' q', r.Ends worker report first.wall e r' ∧
      q.Turns entry.id (q.live.remove entry.id) q' ∧
      settleAt first second worker (reported report stopped (.executing entry false))
          (⟨o, { queue := q }, x⟩ : Site (Faulty Backend)) =
        (finished entry (.executed report.success), ⟨o.put r', { queue := q' },
          x.deliverAll [Orchestrator.completion r'.run e report]⟩) := by
  obtain ⟨e, r', hends, hreport⟩ := step_reporting (q := ({ queue := q } : Faulty Backend))
    (x := x) hfind hrunning first worker report
  obtain ⟨q', hqueue, hstep⟩ := step_completing (o := o.put r')
    (x := x.deliverAll [Orchestrator.completion r'.run e report]) h hclaimed second worker
    report.success (if report.success then none else some report.summary)
    (.executed report.success)
  refine ⟨e, r', q', hends, hqueue, ?_⟩
  have hreports : reported report stopped (.executing entry false) =
      .reporting entry report false := by
    rcases hgoes with hsuccess | hgoes
    · simp only [reported, hsuccess, Bool.not_true, Bool.false_and, Bool.false_eq_true, if_false]
    · simp only [reported, hgoes, Bool.and_false, Bool.false_eq_true, if_false]
  rw [hreports, settleAt, hreport]
  exact hstep

end Task

/-! ## A whole turn -/

/-- How a turn of a worker can end: with its answer, the dispatch that was executed, and the
site behind it.  The records of all other runs are as they were, and so is whatever the queue
stores of all other entries. -/
inductive Site.Attended (execute : Dispatch → Report) (stopped : Bool) (p : Task.Pace)
    (worker : String) (s : Site (Faulty Backend)) :
    Except WorkerError (Option Processed) × Option Dispatch × Site (Faulty Backend) → Prop
  /-- No entry waits. -/
  | idle (hnone : ∀ e ∈ s.queue.queue.live.entries, e.holder ≠ none) :
      Attended execute stopped p worker s (.ok none, none, s)
  /-- The entry has come back so often that a table cannot tell the number. -/
  | refused {e : LiveEntry} (hkind : s.queue.queue.kind = .table)
      (holdest : s.queue.queue.live.Oldest e) (hattempts : 4294967296 ≤ e.attempts) :
      Attended execute stopped p worker s (.error (.queue .statement), none, s)
  /-- The run is not known, or over. -/
  | skipped {d : QueuedDispatch} {q : Backend} (holdest : s.queue.queue.live.Oldest d.waiting)
      (hover : ∀ r, s.orchestrator.store.find? d.run.text = some r → r.status.isTerminal = true)
      (hqueue : s.queue.queue.Turns d.id (s.queue.queue.live.remove d.id) q) :
      Attended execute stopped p worker s
        (.ok (some ⟨d.id, d.run, .skipped (s.orchestrator.statusOf d.run.text)⟩), none,
          { s with queue := { queue := q } })
  /-- The execution failed, and the worker was asked to stop. -/
  | interrupted {d : QueuedDispatch} {q : Backend} {r r' : RunRecord}
      (holdest : s.queue.queue.live.Oldest d.waiting)
      (hfind : s.orchestrator.store.find? d.run.text = some r)
      (hbegins : r.Begins worker p.start.wall r') (hrunning : r'.status = .running)
      (hfailed : (execute d.dispatch).success = false) (hstopped : stopped = true)
      (hqueue : s.queue.queue.Turns d.id (s.queue.queue.live.free (·.id = d.id)) q)
      (hwaits : d.attempts + 1 < 4294967296 →
        { d with attempts := d.attempts + 1 }.waiting ∈ q.live.entries) :
      Attended execute stopped p worker s
        (.ok (some ⟨d.id, d.run, .interrupted⟩), some d.dispatch,
          ⟨s.orchestrator.put r', { queue := q }, s.outbox⟩)
  /-- The run has ended as reported, and that is told. -/
  | executed {d : QueuedDispatch} {q : Backend} {r r' r'' : RunRecord} {last : Event}
      {outbox : Outbox} (holdest : s.queue.queue.live.Oldest d.waiting)
      (hfind : s.orchestrator.store.find? d.run.text = some r)
      (hbegins : r.Begins worker p.start.wall r')
      (hgoes : (execute d.dispatch).success = true ∨ stopped = false)
      (hends : r'.Ends worker (execute d.dispatch) p.finish.wall last r'')
      (hqueue : s.queue.queue.Turns d.id (s.queue.queue.live.remove d.id) q)
      (htold : s.outbox.Receives
        [Orchestrator.completion r''.run last (execute d.dispatch)] outbox) :
      Attended execute stopped p worker s
        (.ok (some ⟨d.id, d.run, .executed (execute d.dispatch).success⟩), some d.dispatch,
          ⟨s.orchestrator.put r'', { queue := q }, outbox⟩)

namespace Task

variable {execute : Dispatch → Report} {stopped : Bool} {p : Pace} {worker : String}
  {o : Orchestrator} {q : Backend} {x : Outbox}

theorem deal_skipped {d : QueuedDispatch} {claimed : Backend} (holdest : q.live.Oldest d.waiting)
    (hclaim : q.Turns d.id (q.live.hold d.id worker) claimed)
    (hclaimed : claimed.live.Claimed d.id)
    (hover : ∀ r, o.store.find? d.run.text = some r → r.status.isTerminal = true) :
    Site.Attended execute stopped p worker ⟨o, { queue := q }, x⟩
      (deal execute stopped p worker (.claimed d) ⟨o, { queue := claimed }, x⟩) := by
  obtain ⟨removed, hremove, hsettle⟩ :=
    settle_over (x := x) hclaim.sound hclaimed hover p.start p.skip worker
  have hqueue := hclaim.trans hremove
  rw [hclaim.live, LiveQueue.remove_hold] at hqueue
  unfold deal
  rw [hsettle]
  exact .skipped holdest hover hqueue

/-- An entry whose run is to be executed stays claimed until the executor has ended. -/
theorem deal_begun (execute : Dispatch → Report) (stopped : Bool) (p : Pace) {d : QueuedDispatch}
    (h : q.Sound) (hholds : q.live.Holds worker d.id) {r : RunRecord}
    (hfind : o.store.find? d.run.text = some r) (hbusy : r.status.isBusy = true) :
    ∃ r' q', r.Begins worker p.start.wall r' ∧ q.Turns d.id q.live q' ∧
      deal execute stopped p worker (.claimed d) (⟨o, { queue := q }, x⟩ : Site (Faulty Backend)) =
        conclude d.dispatch (settleAt p.finish p.close worker
          (reported (execute d.dispatch) stopped (.executing d false))
          ⟨o.put r', { queue := q' }, x⟩) := by
  obtain ⟨r', hbegins, hstart⟩ := step_claimed_busy (x := x)
    (q := ({ queue := q } : Faulty Backend)) hfind hbusy p.start worker
  obtain ⟨q', hqueue, hbeat⟩ := beat_holds (o := o.put r') (x := x) h hholds p.beats
  refine ⟨r', q', hbegins, hqueue, ?_⟩
  -- the second of the first two steps finds the executor at work
  have hsettle : settleAt p.start p.skip worker (.claimed d)
      (⟨o, { queue := q }, x⟩ : Site (Faulty Backend)) =
        (.executing d false, ⟨o.put r', { queue := q }, x⟩) := by
    rw [settleAt, hstart]
    rfl
  unfold deal
  rw [hsettle]
  simp only [hbeat]

theorem deal_executed {d : QueuedDispatch} {claimed : Backend} (holdest : q.live.Oldest d.waiting)
    (hclaim : q.Turns d.id (q.live.hold d.id worker) claimed)
    (hholds : claimed.live.Holds worker d.id) {r : RunRecord}
    (hfind : o.store.find? d.run.text = some r) (hbusy : r.status.isBusy = true) :
    Site.Attended execute stopped p worker ⟨o, { queue := q }, x⟩
      (deal execute stopped p worker (.claimed d) ⟨o, { queue := claimed }, x⟩) := by
  obtain ⟨r', beaten, hbegins, hbeats, hdeal⟩ :=
    deal_begun (x := x) execute stopped p hclaim.sound hholds hfind hbusy
  have hfind' : (o.put r').store.find? d.run.text = some r' :=
    RunStore.find?_put_of_id hfind hbegins.id
  have hrenewed : q.Turns d.id (q.live.hold d.id worker) beaten :=
    hclaim.trans (hclaim.live ▸ hbeats)
  have hclaimed : beaten.live.Claimed d.id := ⟨worker, hbeats.live.symm ▸ hholds⟩
  rw [hdeal]
  by_cases hstop : (execute d.dispatch).success = false ∧ stopped = true
  · obtain ⟨hfailed, rfl⟩ := hstop
    obtain ⟨freed, hfree, hsettle⟩ := settle_failed (o := o.put r') (x := x) hrenewed.sound
      hclaimed hfailed p.finish p.close worker
    have hqueue := hrenewed.trans hfree
    rw [hrenewed.live, LiveQueue.free_hold] at hqueue
    rw [hsettle]
    refine .interrupted holdest hfind hbegins hbegins.status hfailed rfl hqueue fun hlt => ?_
    have hbump : q.live.bump d.attempts = d.attempts + 1 := Backend.bump_live (by omega)
    have hmem := LiveQueue.mem_free_self holdest.mem
    rw [show d.waiting.attempts = d.attempts from rfl, hbump] at hmem
    rw [hqueue.live]
    exact hmem
  · have hgoes : (execute d.dispatch).success = true ∨ stopped = false := by
      rw [not_and_or, Bool.not_eq_false, Bool.not_eq_true] at hstop
      exact hstop
    obtain ⟨last, r'', removed, hends, hremove, hsettle⟩ := settle_ended (x := x)
      hrenewed.sound hclaimed hfind' hbegins.status hgoes p.finish p.close worker
    have hqueue := hrenewed.trans hremove
    rw [hrenewed.live, LiveQueue.remove_hold] at hqueue
    have hput : (o.put r').put r'' = o.put r'' :=
      congrArg (fun store => { o with store })
        (o.store.put_put (RunRecord.append_id hends.append))
    rw [hsettle, hput]
    exact .executed holdest hfind hbegins hgoes hends hqueue (x.deliverAll_receives _)

/-- An entry that was claimed is dealt with.  The turn began at the queue in front of the
claim. -/
theorem deal_attended {d : QueuedDispatch} {claimed : Backend}
    (holdest : q.live.Oldest d.waiting) (hclaim : q.Turns d.id (q.live.hold d.id worker) claimed)
    (hdispatched : ∀ r, o.store.find? d.run.text = some r → 3 ≤ r.status.stage) :
    Site.Attended execute stopped p worker ⟨o, { queue := q }, x⟩
      (deal execute stopped p worker (.claimed d) ⟨o, { queue := claimed }, x⟩) := by
  have hholds : claimed.live.Holds worker d.id := by
    rw [hclaim.live]
    exact (LiveQueue.holds_hold holdest.mem).2 (.inl ⟨rfl, rfl⟩)
  by_cases hbusy : ∃ r, o.store.find? d.run.text = some r ∧ r.status.isBusy = true
  · obtain ⟨r, hfind, hbusy⟩ := hbusy
    exact deal_executed holdest hclaim hholds hfind hbusy
  · refine deal_skipped holdest hclaim ⟨worker, hholds⟩ fun r hfind => ?_
    have hnot : ¬ r.status.isBusy = true := fun hyes => hbusy ⟨r, hfind, hyes⟩
    have hstage := hdispatched r hfind
    have hmax := r.status.stage_le
    rw [Status.isBusy_iff_stage] at hnot
    rw [Status.isTerminal_iff_stage]
    omega

/-- A turn at a queue that no outage hides, where every entry is one of a dispatched run or of a
run that is not known. -/
theorem attend_attended (h : q.Sound) (hcounts : q.live.Counts)
    (hnamed : ∀ e ∈ q.live.entries, ∃ run : RunId, run.text = e.run)
    (hdispatched : ∀ e ∈ q.live.entries, ∀ r, o.store.find? e.run = some r →
      3 ≤ r.status.stage) :
    Site.Attended execute stopped p worker ⟨o, { queue := q }, x⟩
      (attend execute stopped p worker ⟨o, { queue := q }, x⟩) := by
  have htakes := Backend.claim_takes h hnamed p.claim worker
  have hclaim : ExecutionQueue.claim ({ queue := q } : Faulty Backend) p.claim worker =
      ((ExecutionQueue.claim q p.claim worker).1,
        { queue := (ExecutionQueue.claim q p.claim worker).2 }) := rfl
  simp only [attend, claim, Site.callQueue, hclaim]
  generalize ExecutionQueue.claim q p.claim worker = answer at htakes ⊢
  cases htakes with
  | nothing hnone => exact .idle hnone
  | @refused e hkind holdest hattempts =>
    have hpos := hcounts.attempts e holdest.mem
    exact .refused hkind holdest (by omega)
  | @taken d _ holdest hqueue =>
    exact deal_attended holdest hqueue (hdispatched d.waiting holdest.mem)

end Task

/-! ## What workers find -/

theorem Move.counts {calm : Prop} {stale : Clock → Nat → Int → Bool} {s s' : Scene} {a : Action}
    (h : Move calm stale s a s') (hs : s.queue.Counts) : s'.queue.Counts := by
  cases h with
  | enqueued _ _ => exact hs.add _
  | took _ _ _ _ _ _ => exact hs.hold _ _
  | discarded _ _ _ => exact hs.remove _
  | completed _ _ => exact hs.remove _
  | returned _ _ _ => exact hs.free _
  | reclaimed => exact hs.free _
  | _ => exact hs

namespace Floor

variable {policy : Policy} {q : Backend}

/-- Whatever has happened around a queue that was empty, a worker that looks for work takes the
entry that has waited longest and deals with it as the record of its run, the report and the
request to stop ask for.  The orchestrator may have been started anew behind the queue, so that
it knows less of the runs in it than there was on record; a run that it does not know is
skipped.  A queue that fails is left out, except for the number of attempts, which a table
refuses to tell once it does not fit into 32 bits. -/
theorem deals_with_oldest (hq : q.Sound) (hempty : q.live.entries = []) (acts : List Action)
    (hcalm : ((idle (.new policy) q).run acts).Calm) {o : Orchestrator}
    (ho : ∀ e ∈ ((idle (.new policy) q).run acts).scene.queue.entries, ∀ r,
      o.store.find? e.run = some r →
        ((idle (.new policy) q).run acts).scene.store.find? e.run = some r)
    (outbox : Outbox) (execute : Dispatch → Report) (stopped : Bool) (worker : String) :
    let s : Site (Faulty Backend) := ⟨o, ((idle (.new policy) q).run acts).site.queue, outbox⟩
    (∀ p : Task.Pace,
      s.Attended execute stopped p worker (Task.attend execute stopped p worker s)) ∧
    ∀ clock, Task.process execute stopped clock worker s =
      Task.attend execute stopped (.steady clock) worker s := by
  refine ⟨fun p => ?_, fun clock => Task.process_eq_attend execute stopped clock worker _⟩
  have hsound := run_sound (f := idle (.new policy) q) hq acts
  have htraced : ((idle (.new policy) q).run acts).scene.Traced := run_traced hq hempty acts
  have hcounts : ((idle (.new policy) q).run acts).scene.queue.Counts := by
    refine (run_induction (P := fun s => s.queue.Counts) (f := idle (.new policy) q) hq ?_
      (fun hmove _ hs => hmove.counts hs) acts).2
    refine ⟨fun e he => ?_, fun _ => q.live_highest⟩
    rw [show (idle (.new policy) q).scene.queue.entries = [] from hempty] at he
    cases he
  generalize (idle (.new policy) q).run acts = f at hcalm ho hsound htraced hcounts ⊢
  obtain ⟨⟨o', ⟨queue, outage⟩, outbox'⟩, calls, tasks⟩ := f
  have hnone : outage = {} := hcalm
  subst hnone
  refine Task.attend_attended hsound hcounts (fun e he => ?_) fun e he r hr => ?_
  · obtain ⟨r, hr, -⟩ := htraced.entries e he
    exact ⟨r.run.id, RunStore.text_of_find? hr⟩
  · obtain ⟨r', hr', hstage, -⟩ := htraced.entries e he
    cases hr'.symm.trans (ho e he r hr)
    exact hstage

/-- A backup that was approved is executed.  A worker behind an orchestrator that was started
anew skips it. -/
theorem deals_with_oldest_backup :
    let acts := Action.say 0 "run backup" ++ Action.say 1 "yes run-0-0000"
    let f := (idle (.new .requesterOnly) (.table (.new 1))).run acts
    let execute (d : Dispatch) : Report := ⟨true, d.jobKey ++ " done"⟩
    let site (o : Orchestrator) : Site (Faulty Backend) := ⟨o, f.site.queue, {}⟩
    let turn (o : Orchestrator) := Task.process execute false default "w" (site o)
    f.Calm ∧
      (turn f.site.orchestrator).1 =
        .ok (some ⟨1, ⟨"run-0-0000", by decide⟩, .executed true⟩) ∧
      (site f.site.orchestrator).Attended execute false (.steady default) "w"
        (turn f.site.orchestrator) ∧
      (turn (.new .requesterOnly)).1 =
        .ok (some ⟨1, ⟨"run-0-0000", by decide⟩, .skipped none⟩) ∧
      (site (.new .requesterOnly)).Attended execute false (.steady default) "w"
        (turn (.new .requesterOnly)) := by
  intro acts f execute site turn
  have hcalm : f.Calm := rfl
  have hknown := deals_with_oldest (q := .table (.new 1)) (TableQueue.new_sound 1) rfl acts hcalm
    (fun _ _ _ hr => hr) {} execute false "w"
  have hanew := deals_with_oldest (q := .table (.new 1)) (TableQueue.new_sound 1) rfl acts hcalm
    (o := .new .requesterOnly) (fun _ _ _ hr => nomatch hr) {} execute false "w"
  refine ⟨hcalm, rfl, ?_, rfl, ?_⟩
  · rw [show turn f.site.orchestrator = _ from hknown.2 default]
    exact hknown.1 (.steady default)
  · rw [show turn (.new .requesterOnly) = _ from hanew.2 default]
    exact hanew.1 (.steady default)

end Floor
end JobGate
