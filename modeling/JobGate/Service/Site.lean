/-
What everybody who works for a desk shares: the orchestrator, the queue, and the
place where messages are delivered.

A call to one of the three is a single step; whatever needs several of them is
divided into phases in the modules that build on this one, so that the steps of
different callers can come in any order.
-/
import JobGate.Message.Outbound
import JobGate.Orchestrator.Execution
import JobGate.Orchestrator.Inbound
import JobGate.Queue.Basic

namespace JobGate

/-- The shared parts of a desk. -/
structure Site (Q : Type) where
  orchestrator : Orchestrator
  queue : Q
  outbox : Outbox

namespace Site

variable {Q : Type}

def deliver (s : Site Q) (notices : List Notice) : Site Q :=
  { s with outbox := s.outbox.deliverAll notices }

def callQueue {α : Type} (s : Site Q) (f : Q → α × Q) : α × Site Q :=
  let (a, queue) := f s.queue
  (a, { s with queue })

def callOrchestrator {α : Type} (s : Site Q) (f : Orchestrator → α × Orchestrator) : α × Site Q :=
  let (a, orchestrator) := f s.orchestrator
  (a, { s with orchestrator })

end Site

/-- A clock that stands still during a call. -/
def Clock.still (c : Clock) : Readings := fun _ => c.wall

end JobGate
