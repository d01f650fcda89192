/-
Lengths of time, points in time, and the clock that a desk reads.

A length of time is a natural number of nanoseconds.  An `Instant` is a point of Universal
Time with nanoseconds, which may lie inside a leap second: it then has more than
a second's worth of nanoseconds after the last ordinary second of a minute.
Instants are ordered by their seconds first, so a leap second comes before the
second that follows it.  Only instants of the years -262143 to 262142 exist.
-/

namespace JobGate

namespace Duration

def perSecond : Nat := 1000000000

def perMilli : Nat := 1000000

def ofSeconds (n : Nat) : Nat := n * perSecond

def ofMillis (n : Nat) : Nat := n * perMilli

def toMillis (d : Nat) : Nat := d / perMilli

/-- The longest length of time: one nanosecond short of `2 ^ 64` seconds. -/
def longest : Nat := 18446744073709551616 * perSecond - 1

/-- Twice the length, or the longest length when that is less. -/
def double (d : Nat) : Nat := min (2 * d) longest

end Duration

/-- A point in time: Unix seconds and the nanoseconds after them. -/
structure Instant where
  seconds : Int
  nanos : Nat
  seconds_ge : -8334601228800 ≤ seconds
  seconds_le : seconds ≤ 8210266876799
  nanos_lt : nanos < 1000000000 ∨ (seconds % 60 = 59 ∧ nanos < 2000000000)
deriving DecidableEq

namespace Instant

/-- The instant with these seconds and nanoseconds, where there is one. -/
def ofUnix? (seconds : Int) (nanos : Nat) : Option Instant :=
  if hs : -8334601228800 ≤ seconds ∧ seconds ≤ 8210266876799 then
    if hn : nanos < 1000000000 ∨ (seconds % 60 = 59 ∧ nanos < 2000000000) then
      some ⟨seconds, nanos, hs.1, hs.2, hn⟩
    else none
  else none

/-- The start of 1970. -/
def epoch : Instant := ⟨0, 0, by decide, by decide, by decide⟩

instance : Inhabited Instant := ⟨epoch⟩

def isAfter (a b : Instant) : Bool :=
  b.seconds < a.seconds || (a.seconds == b.seconds && b.nanos < a.nanos)

def latest (a b : Instant) : Instant := if a.isAfter b then a else b

/-- Whole milliseconds since the start of 1970, rounded down. -/
def toMillis (t : Instant) : Int :=
  t.seconds * 1000 + (t.nanos / Duration.perMilli : Nat)

/-- The instant a length of time later, where there is one.  Used for a clock,
which never stands inside a leap second. -/
def add? (t : Instant) (d : Nat) : Option Instant :=
  let nanos := t.nanos + d
  ofUnix? (t.seconds + (nanos / Duration.perSecond : Nat)) (nanos % Duration.perSecond)

/-- The instant a length of time earlier, where there is one.  Going back by
less than a second from inside a leap second stays in the same minute; going
back further counts the leap second as the start of the next minute. -/
def sub? (t : Instant) (d : Nat) : Option Instant :=
  let whole := d / Duration.perSecond
  let part := d % Duration.perSecond
  let inLeapSecond := decide (Duration.perSecond ≤ t.nanos)
  if inLeapSecond && whole == 0 then ofUnix? t.seconds (t.nanos - part)
  else
    let seconds := if inLeapSecond then t.seconds + 1 else t.seconds
    let nanos := if inLeapSecond then t.nanos - Duration.perSecond else t.nanos
    if part ≤ nanos then ofUnix? (seconds - whole) (nanos - part)
    else ofUnix? (seconds - whole - 1) (nanos + Duration.perSecond - part)

end Instant

/-- What a desk can read at one moment: the wall clock, which may be set, and
the time elapsed on a clock that only moves forward. -/
structure Clock where
  wall : Instant
  elapsed : Nat
deriving DecidableEq, Inhabited

namespace Clock

/-- Both clocks moved forward.  The wall clock stops at the last instant. -/
def advance (c : Clock) (d : Nat) : Clock :=
  { wall := (c.wall.add? d).getD c.wall, elapsed := c.elapsed + d }

/-- Only the wall clock set. -/
def set (c : Clock) (wall : Instant) : Clock := { c with wall }

def millis (c : Clock) : Int := c.wall.toMillis

end Clock

/-- The wall clock as one call reads it: entry `i` is its reading number `i`.
The readings need not agree, since the clock may be set during the call. -/
abbrev Readings := Nat → Instant

end JobGate
