/-
Words that have been expanded, and the fields they make.

A piece of a word that comes from a parameter and is not quoted is split at the
separators; other pieces are kept whole.  Separators that are blanks count once
however many stand together.
-/
import JobGate.Shell.Syntax

namespace JobGate
namespace Shell

/-- A piece of an expanded word. -/
inductive Piece
  | whole (s : String) (quoted : Bool)
  | divisible (s : String)
  /-- A field ends here, and another begins. -/
  | boundary
deriving DecidableEq, Repr

namespace Piece

/-- The characters of a piece, marked where they only stand for themselves. -/
def chars : Piece → List (Char × Bool)
  | whole s quoted => s.toList.map fun c => (c, quoted)
  | divisible s => s.toList.map fun c => (c, false)
  | boundary => [(' ', true)]

def text (ps : List Piece) : String := String.ofList (ps.flatMap fun p => p.chars.map (·.1))

end Piece

/-- Fields under way: those that are complete, the last first, and the one that has
been begun, backwards. -/
structure Fields where
  done : List String := []
  current : Option (List Char) := none
  /-- Whether a separator that is no blank may follow without ending a field. -/
  ended : Bool := false

namespace Fields

/-- Begins a field, unless one has been begun, and puts characters into it. -/
def add (f : Fields) (cs : List Char) : Fields :=
  { f with current := some (cs.reverse ++ f.current.getD []), ended := false }

def finish (f : Fields) : Fields :=
  match f.current with
  | some cs => { f with done := String.ofList cs.reverse :: f.done, current := none }
  | none => f

/-- Takes a character of a piece that can be split. -/
def split (separators : List Char) (f : Fields) (c : Char) : Fields :=
  if !separators.contains c then f.add [c]
  else if c = ' ' || c = '\t' || c = '\n' then
    if f.current.isSome then { f.finish with ended := true } else f
  else if f.current.isNone && f.ended then { f with ended := false }
  else { (f.add []).finish with ended := false }

def take (separators : List Char) (f : Fields) : Piece → Fields
  | .whole s quoted => if s.isEmpty && !quoted then f else f.add s.toList
  | .divisible s => s.toList.foldl (split separators) f
  | .boundary => (f.add []).finish.add []

def ofPieces (separators : List Char) (ps : List Piece) : List String :=
  (ps.foldl (take separators) {}).finish.done.reverse

end Fields
end Shell
end JobGate
