/-
The steps of a script on a bench.

`Step.perform` recurses on the script, since the steps that happen during an
execution are part of the step that makes it happen.
-/
import JobGate.Rehearsal.Execution

namespace JobGate
namespace Rehearsal

/-- An entry for a run that is named by a text. -/
def withRun (b : Bench) (run jobKey : String)
    (f : Dispatch → Except QueueError Offer × Bench) : Answer × Bench :=
  match RunId.parse run with
  | .error fault => (.badRun fault, b)
  | .ok id =>
    let (result, b) := f ⟨id, jobKey⟩
    (.offered result, b)

def workOnce (b : Bench) (worker : String) (a : Action) (stopped : Bool) : Answer × Bench :=
  let (round, b) := b.processOne worker a stopped
  (.worked round.result round.executed, b)

def callRuns (b : Bench)
    (f : Orchestrator → Except OrchestratorError ExecutionOutcome × Orchestrator) :
    Answer × Bench :=
  let (result, b) := b.callOrchestrator f
  (.execution result, b)

mutual

def Step.perform (step : Step) (b : Bench) : Answer × Bench :=
  match step with
  | .say m stopped =>
    let (result, site, draws) := Intake.receive b.site b.clock b.draws m stopped
    (.said result, { b with site, draws })
  | .handle m i =>
    let (result, orchestrator, draws) :=
      b.site.orchestrator.handle b.clock.still b.draws m i
    (.handled result, { b with site := { b.site with orchestrator }, draws })
  | .timeline run => (.timeline (b.site.orchestrator.timeline run), b)
  | .status run => (.status (b.site.orchestrator.statusOf run), b)
  | .store run =>
    (.store b.site.orchestrator.store.size (b.site.orchestrator.store.contains run), b)
  | .runs => (.runs b.site.orchestrator.statuses, b)
  | .started run worker => callRuns b (·.onStarted b.clock.still run worker)
  | .completed run worker report =>
    callRuns b (·.onCompleted b.clock.still run worker report.success report.summary)
  | .timeout run reason => callRuns b (·.onTimeout b.clock.still run reason)
  | .cancelRun run actor reason => callRuns b (·.cancelRun b.clock.still run actor reason)
  | .timeOutStale maxAge now =>
    let (result, b) :=
      b.callOrchestrator (·.timeOutStale b.clock.still maxAge (now.getD b.clock.wall))
    (.executions result, b)
  | .enqueue run jobKey stopped => withRun b run jobKey (b.offer · stopped)
  | .enqueueWaiting run jobKey completes => withRun b run jobKey (b.offerWaiting · completes)
  | .claim worker =>
    let (result, b) := b.callQueue (ExecutionQueue.claim · b.clock worker)
    (.claimed result, b)
  | .claimWaiting worker poll token =>
    let start := b.clock.elapsed
    let token := { token with due := token.due.map (start + ·) }
    let (result, b) := Bench.claimWaiting worker poll (Bench.lookRounds poll token start) token b
    (.waited result (Duration.toMillis (b.clock.elapsed - start)), b)
  | .complete id success error =>
    let (result, b) := b.callQueue (ExecutionQueue.complete · b.clock id success error)
    (.ended result, b)
  | .release id error =>
    let (result, b) := b.callQueue (ExecutionQueue.release · b.clock id error)
    (.ended result, b)
  | .renew id worker =>
    let (result, b) := b.callQueue (ExecutionQueue.renew · b.clock id worker)
    (.ended result, b)
  | .reclaim lockTimeout =>
    let (result, b) := b.callQueue (ExecutionQueue.reclaim · b.clock lockTimeout)
    (.reclaimed result, b)
  | .depth =>
    let (result, b) := b.callQueue ExecutionQueue.depth
    (.depth result, b)
  | .entry id => (b.entry id, b)
  | .insertRow row => b.onTable (Bench.insertRow row)
  | .dropTable => b.onTable fun q => (.nothing, q.drop)
  | .reopen => b.onTable fun q => (.reopened (.ok q.reopen.depth), q.reopen)
  | .work worker script stopped => workOnce b worker script.action stopped
  | .awaitRenewal => b.renewInnermost
  | .loop worker claims polling scripts quiet stopped =>
    b.loop worker claims polling (Script.actions scripts) quiet stopped
  | .tick sweep =>
    let (report, site) := sweep.tick b.clock b.site
    (.ticked report, { b with site })
  | .sweeps ticks interval sweep stopped => b.sweeps ticks interval sweep stopped
  | .health => (.health b.registry, b)
  | .setClock wall => (.nothing, { b with clock := b.clock.set wall })
  | .advance d => (.nothing, b.advance d)
  | .breakQueue outage =>
    (.nothing, { b with site := { b.site with queue := { b.site.queue with outage } } })
  | .breakOutbox times =>
    (.nothing, { b with site := { b.site with outbox := { b.site.outbox with failing := times } } })

def Script.action : Script → Action
  | .mk during raises report => ⟨Step.performAll during, raises, report⟩

/-- Steps in order, each with what its answer carries beside it. -/
def Step.performAll (steps : List Step) (b : Bench) : List StepAnswer × Bench :=
  match steps with
  | [] => ([], b)
  | step :: rest =>
    let (answer, b) := step.perform b
    let (closed, b) := Bench.close answer b
    let (answers, b) := Step.performAll rest b
    (closed :: answers, b)

def Script.actions : List Script → List Action
  | [] => []
  | script :: rest => script.action :: Script.actions rest

end

end Rehearsal
end JobGate
