/-
What settings say about a desk: who decides, who works, and at which rhythm.
-/
import JobGate.Approval
import JobGate.Service.Sweep
import JobGate.Settings.Basic
import JobGate.Worker.Polling

namespace JobGate

def Policy.ofSettings (a : ApprovalSettings) : Policy :=
  approverList a.allowRequester a.approvers

def Polling.ofSettings (w : WorkerSettings) : Polling := ofMillis w.shortestPoll w.longestPoll

/-- The workers of a desk and their rhythm. -/
structure Crew where
  workers : Nat
  polling : Polling
  lockTimeout : Nat
  reclaimInterval : Nat
  runTimeout : Option Nat
deriving DecidableEq, Repr

namespace Crew

def ofSettings (s : Settings) : Crew where
  workers := s.workers.count
  polling := .ofSettings s.workers
  lockTimeout := Duration.ofSeconds s.queue.lockTimeout
  reclaimInterval := Duration.ofSeconds s.queue.reclaimInterval
  runTimeout := s.runs.timeout.map Duration.ofSeconds

/-- The name of a worker, counted from one. -/
def workerName (n : Nat) : String := "worker-" ++ toString n

def names (c : Crew) : List String := (List.range c.workers).map fun n => workerName (n + 1)

/-- The time between two renewals of a claim. -/
def heartbeat (c : Crew) : Nat := heartbeatInterval c.lockTimeout

/-- What is known about a crew, with its sweep, that started and stopped without an
error.  Times are in milliseconds. -/
def registry (c : Crew) (startedAt stoppedAt : Int) : Registry :=
  let all := c.names ++ [Sweep.worker]
  ((all.foldl Registry.register {}).applyAll (all.map (.started · startedAt))).applyAll
    (all.map (.stopped · stoppedAt))

end Crew
end JobGate
