/-
How a worker waits for work.

A worker that finds nothing to do waits, and doubles the wait each time up to a
limit; an error makes it wait the same way.  After an entry it dealt with it does
not wait and starts from the shortest wait again.  While it executes a run it
renews its claim three times within the time after which the claim is stale.
-/
import JobGate.Time.Instant
import JobGate.Worker.Health
import JobGate.Worker.Task

namespace JobGate

/-- The shortest and the longest wait, in nanoseconds. -/
structure Polling where
  shortest : Nat
  longest : Nat
deriving DecidableEq, Repr

namespace Polling

/-- The waits for limits in milliseconds.  The longest wait is never less than
the shortest. -/
def ofMillis (shortest longest : Nat) : Polling :=
  ⟨Duration.ofMillis shortest, Duration.ofMillis (max longest shortest)⟩

def next (p : Polling) (wait : Nat) : Nat := max (min (Duration.double wait) p.longest) p.shortest

/-- What a worker does after it has looked for work. -/
structure Turn where
  /-- The message of the error it reports. -/
  error : Option String
  /-- How long it waits, if it does. -/
  wait : Option Nat
  /-- How long it waits the next time. -/
  next : Nat
deriving DecidableEq, Repr

/-- What a worker does after it has looked for work, when its next wait is
`wait`. -/
def turn (p : Polling) (wait : Nat) : Except WorkerError (Option Processed) → Turn
  | .ok (some _) => ⟨none, none, p.shortest⟩
  | .ok none => ⟨none, some wait, p.next wait⟩
  | .error e => ⟨some e.message, some wait, p.next wait⟩

end Polling

/-- The shortest time between two renewals of a claim. -/
def shortestHeartbeat : Nat := Duration.ofMillis 10

/-- The time between two renewals of a claim that is stale after `lockTimeout`. -/
def heartbeatInterval (lockTimeout : Nat) : Nat := max (lockTimeout / 3) shortestHeartbeat

end JobGate
