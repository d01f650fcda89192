/-
A source of random numbers, as the values it will give.

A draw gives a number below `2 ^ 32` or fails.  The source is a stream of such
draws with the count of those already taken, so whatever depends on chance is a
function of the source.
-/

namespace JobGate

/-- A stream of draws, some of them already taken.  `none` is a failing draw. -/
structure Draws where
  stream : Nat → Option Nat
  taken : Nat

namespace Draws

def draw (d : Draws) : Option Nat × Draws :=
  (d.stream d.taken, { d with taken := d.taken + 1 })

/-- The number behind the last one listed, and zero when none is. -/
def following (items : List (Option Nat)) : Nat :=
  match items.reverse.findSome? id with
  | some n => n + 1
  | none => 0

/-- The listed draws, and then numbers that count up from the last of them. -/
def ofList (items : List (Option Nat)) : Draws where
  stream i :=
    if i < items.length then (items[i]?).bind id
    else some ((following items + (i - items.length)) % 4294967296)
  taken := 0

end Draws
end JobGate
