/-
Asking a sleeper to stop.

A `Token` is raised once and stays raised.  It can also fall due: it is then
raised as soon as sleeping brings the elapsed time to a given point.  A sleep is
cut into slices of at most 50 milliseconds and looks at the token before each
slice, so it ends at most one slice after the token was raised.
-/
import JobGate.Time.Instant

namespace JobGate

/-- A request to stop, shared by everybody who holds the token. -/
structure Token where
  /-- Whether the stop has been asked for. -/
  raised : Bool := false
  /-- The elapsed time at which the token raises itself. -/
  due : Option Nat := none
deriving DecidableEq, Repr

namespace Token

def ofBool (b : Bool) : Token := { raised := b }

def raise (t : Token) : Token := { t with raised := true }

/-- The token once the elapsed time has reached a point. -/
def reach (t : Token) (elapsed : Nat) : Token :=
  { t with raised := t.raised || t.due.any (· ≤ elapsed) }

def slice : Nat := Duration.ofMillis 50

structure Sleep where
  /-- Whether the whole time passed without the token being raised. -/
  completed : Bool
  slept : Nat
  token : Token
deriving DecidableEq, Repr

/-- Sleeps what remains, after `slept` has already passed since `start`. -/
def sleepOn (start slept remaining : Nat) (t : Token) : Sleep :=
  if remaining = 0 then { completed := !t.raised, slept, token := t }
  else if t.raised then { completed := false, slept, token := t }
  else
    let step := min remaining slice
    sleepOn start (slept + step) (remaining - step) (t.reach (start + slept + step))
termination_by remaining
decreasing_by
  simp only [slice, Duration.ofMillis, Duration.perMilli]
  omega

def sleep (t : Token) (start total : Nat) : Sleep := sleepOn start 0 total t

/-- Sleeps for each length in turn, from the elapsed time `start` on. -/
def sleepAll (t : Token) (start : Nat) : List Nat → List Sleep
  | [] => []
  | total :: rest =>
    let s := t.sleep start total
    s :: s.token.sleepAll (start + s.slept) rest

end Token
end JobGate
