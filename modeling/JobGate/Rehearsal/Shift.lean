/-
A crew that starts its work on a queue that was filled before.

Runs are asked for and approved while nobody works, and some of them are canceled
afterwards.  Then the crew starts, finishes the queue and stops.  No time passes.
-/
import JobGate.Service.Serve

namespace JobGate
namespace Rehearsal

/-- What waits for a crew. -/
structure Shift where
  /-- The jobs of the runs that are asked for and approved. -/
  jobs : List String
  /-- The jobs among them whose runs are canceled. -/
  canceled : List String
  /-- Runs that are in the queue but otherwise not known. -/
  strays : List RunId

namespace Shift

def said (body : String) : Inbound where
  channel := Inbound.defaultChannel
  sender := "alice"
  conversation := "ops"
  body := body

def strayKey : String := "stray"

/-- Asks for a run of a job and approves it, and cancels it if it is one of those. -/
def prepareJob (s : Shift) (c : Conditions) (job : String) (d : Desk Backend) : Desk Backend :=
  match d.receive c none (said ("run " ++ job)) with
  | (.taken { run := some id, .. }, d) =>
    let (_, d) := d.receive c none (said ("yes " ++ id))
    if s.canceled.contains job then
      let (_, site) :=
        d.site.callOrchestrator (·.cancelRun c.clock.still id "operator" "not needed")
      { d with site }
    else d
  | (_, d) => d

def addStray (c : Conditions) (run : RunId) (d : Desk Backend) : Desk Backend :=
  let (_, site) := d.site.callQueue (ExecutionQueue.offer · c.clock ⟨run, strayKey⟩ false)
  { d with site }

/-- The desk when the crew starts.  What was delivered so far is put aside. -/
def prepare (s : Shift) (c : Conditions) (d : Desk Backend) : Desk Backend :=
  let d := s.jobs.foldl (fun d job => s.prepareJob c job d) d
  let d := s.strays.foldl (fun d run => addStray c run d) d
  { d with site := { d.site with outbox := d.site.outbox.take.2 } }

def perform (s : Shift) (c : Conditions) (crew : Crew) (d : Desk Backend) : Desk Backend :=
  (s.prepare c d).finish c crew.names.head?

end Shift
end Rehearsal
end JobGate
