/-
Clearing up at regular intervals.

A sweep takes back the claims of workers that have not renewed them in time, and
times out the runs that are too old.  A part that fails does not keep the other
from being done.
-/
import JobGate.Service.Site
import JobGate.Worker.Health

namespace JobGate

/-- What a sweep looks for: claims, and runs where an age is given. -/
structure Sweep where
  lockTimeout : Nat
  maxAge : Option Nat
deriving DecidableEq, Repr

/-- What a sweep has done. -/
structure SweepReport where
  reclaimed : Nat
  timedOut : Nat
  errors : Nat
deriving DecidableEq, Repr

namespace Sweep

def worker : String := "reclaim-sweep"

variable {Q : Type} [ExecutionQueue Q]

def reclaim (w : Sweep) (clock : Clock) (s : Site Q) : SweepReport × Site Q :=
  match s.callQueue (ExecutionQueue.reclaim · clock w.lockTimeout) with
  | (.ok n, s) => (⟨n, 0, 0⟩, s)
  | (.error _, s) => (⟨0, 0, 1⟩, s)

def timeOut (w : Sweep) (clock : Clock) (r : SweepReport) (s : Site Q) : SweepReport × Site Q :=
  match w.maxAge with
  | none => (r, s)
  | some maxAge =>
    match s.callOrchestrator (·.timeOutStale clock.still maxAge clock.wall) with
    | (.ok outcomes, s) =>
      ({ r with timedOut := outcomes.length },
        s.deliver (outcomes.flatMap (·.notices)))
    | (.error _, s) => ({ r with errors := r.errors + 1 }, s)

def tick (w : Sweep) (clock : Clock) (s : Site Q) : SweepReport × Site Q :=
  let (r, s) := w.reclaim clock s
  w.timeOut clock r s

/-- The message with which a sweep reports that parts of it failed. -/
def errorMessage (errors : Nat) : String := toString errors ++ " sweep step(s) failed"

end Sweep
end JobGate
