/-
Patterns: texts with marks that stand for other texts.

A star stands for any text, a question mark for one character, and brackets for
one of some characters.  A quoted character only stands for itself.
-/

namespace JobGate
namespace Shell

/-- An element of a pattern. -/
inductive Glob
  | char (c : Char)
  | anyChar
  | anyText
  /-- One of some ranges, or none of them. -/
  | oneOf (negated : Bool) (ranges : List (Char × Char))
deriving DecidableEq, Repr

namespace Glob

/-- The ranges in brackets, and what follows the closing one. -/
def ranges : Nat → List (Char × Bool) → Option (List (Char × Char) × List (Char × Bool))
  | 0, _ => none
  | _, [] => none
  | fuel + 1, (c, _) :: ('-', false) :: (d, q) :: rest =>
    if d = ']' && !q then some ([(c, c), ('-', '-')], rest)
    else do
      let (rs, rest) ← tail fuel rest
      return ((c, d) :: rs, rest)
  | fuel + 1, (c, _) :: rest => do
    let (rs, rest) ← tail fuel rest
    return ((c, c) :: rs, rest)
where
  /-- The ranges up to a closing bracket. -/
  tail (fuel : Nat) (rest : List (Char × Bool)) :
      Option (List (Char × Char) × List (Char × Bool)) :=
    match rest with
    | (']', false) :: rest => some ([], rest)
    | rest => ranges fuel rest

/-- The elements of a pattern whose characters are marked where they are quoted. -/
def parse : Nat → List (Char × Bool) → List Glob
  | 0, _ => []
  | _, [] => []
  | fuel + 1, ('*', false) :: rest => .anyText :: parse fuel rest
  | fuel + 1, ('?', false) :: rest => .anyChar :: parse fuel rest
  | fuel + 1, ('[', false) :: rest =>
    let (negated, inner) :=
      match rest with
      | ('!', false) :: inner => (true, inner)
      | inner => (false, inner)
    match ranges (inner.length + 1) inner with
    | some (rs, rest) => .oneOf negated rs :: parse fuel rest
    | none => .char '[' :: parse fuel rest
  | fuel + 1, (c, _) :: rest => .char c :: parse fuel rest

def accepts (c : Char) : Glob → Bool
  | char d => c = d
  | anyChar => true
  | anyText => true
  | oneOf negated rs => rs.any (fun r => r.1 ≤ c && c ≤ r.2) != negated

/-- Whether a pattern stands for a whole text.  The first argument is at least the
number of elements and characters together. -/
def matchesWithin : Nat → List Glob → List Char → Bool
  | 0, _, _ => false
  | _ + 1, [], cs => cs.isEmpty
  | fuel + 1, .anyText :: gs, cs =>
    matchesWithin fuel gs cs ||
      match cs with
      | [] => false
      | _ :: cs => matchesWithin fuel (.anyText :: gs) cs
  | fuel + 1, g :: gs, cs =>
    match cs with
    | [] => false
    | c :: cs => g.accepts c && matchesWithin fuel gs cs

def isMatch (gs : List Glob) (cs : List Char) : Bool :=
  matchesWithin (gs.length + cs.length + 1) gs cs

/-- What is left of a text when what a pattern stands for is cut off its end. -/
def cutEnd (gs : List Glob) (longest : Bool) (cs : List Char) : List Char :=
  let sizes := List.range (cs.length + 1)
  let order := if longest then sizes else sizes.reverse
  match order.find? fun n => isMatch gs (cs.drop n) with
  | some n => cs.take n
  | none => cs

/-- What is left of a text when what a pattern stands for is cut off its start. -/
def cutStart (gs : List Glob) (longest : Bool) (cs : List Char) : List Char :=
  let sizes := List.range (cs.length + 1)
  let order := if longest then sizes.reverse else sizes
  match order.find? fun n => isMatch gs (cs.take n) with
  | some n => cs.drop n
  | none => cs

end Glob
end Shell
end JobGate
