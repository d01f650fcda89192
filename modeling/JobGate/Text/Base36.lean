/-
Numerals in base 36, with the digits `0` to `9` and `a` to `z`.

`encode` writes the shortest numeral of a number and `encodeFixed` its lowest
digits at a fixed width.  `value` reads either of them back, so the pair can be
compared with each other.
-/

namespace JobGate
namespace Base36

/-- The digit for a value below 36. -/
def digit (n : Nat) : Char :=
  if n < 10 then Char.ofNat (48 + n) else Char.ofNat (87 + n)

/-- The value of a digit, when the character is one. -/
def digitValue? (c : Char) : Option Nat :=
  let n := c.toNat
  if 48 ≤ n ∧ n ≤ 57 then some (n - 48)
  else if 97 ≤ n ∧ n ≤ 122 then some (n - 87)
  else none

/-- The digits of a positive number in front of `tail`, and `tail` for zero. -/
def digitsOnto (n : Nat) (tail : List Char) : List Char :=
  if n = 0 then tail else digitsOnto (n / 36) (digit (n % 36) :: tail)
termination_by n
decreasing_by omega

/-- The shortest numeral: no leading zero, except for the number zero itself. -/
def encode (n : Nat) : List Char :=
  if n = 0 then ['0'] else digitsOnto n []

/-- The lowest `width` digits, with zeros in front where the number is shorter. -/
def encodeFixed : Nat → Nat → List Char
  | 0, _ => []
  | width + 1, n => encodeFixed width (n / 36) ++ [digit (n % 36)]

/-- The number a list of digits stands for, the highest digit first. -/
def value? (cs : List Char) : Option Nat :=
  cs.foldl (fun acc c => do return (← acc) * 36 + (← digitValue? c)) (some 0)

end Base36
end JobGate
