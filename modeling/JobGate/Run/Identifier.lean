/-
Identifiers, and the identifiers of runs.

An identifier is a non-empty text of ASCII letters, digits and four marks, so it
is always a single word of a chat message.  A run's identifier is made of the
second in which the run was requested and a random suffix of four digits, both
in base 36.
-/
import JobGate.Random.Draws
import JobGate.Text.Base36

namespace JobGate

namespace Identifier

def allows (c : Char) : Bool :=
  c.isAlphanum || c = '-' || c = '_' || c = '.' || c = ':'

/-- Why a text is not an identifier. -/
inductive Fault
  | empty
  | badCharacter
deriving DecidableEq, Repr

/-- The wording of a fault in an identifier of some kind. -/
def Fault.message (kind : String) : Fault → String
  | .empty => kind ++ " must be non-empty"
  | .badCharacter => kind ++ " must use only ASCII letters, digits, '-', '_', '.' or ':'"

/-- What is wrong with a text as an identifier, if anything. -/
def fault? (text : String) : Option Fault :=
  if text.isEmpty then some .empty
  else if text.toList.all allows then none
  else some .badCharacter

end Identifier

/-- The identifier of a run. -/
structure RunId where
  text : String
  valid : Identifier.fault? text = none
deriving DecidableEq

namespace RunId

/-- What identifiers of runs are called in messages. -/
def kind : String := "run id"

/-- The identifier with this text, or what is wrong with the text. -/
def parse (text : String) : Except Identifier.Fault RunId :=
  match h : Identifier.fault? text with
  | none => .ok ⟨text, h⟩
  | some fault => .error fault

def suffixWidth : Nat := 4

def suffixCount : Nat := Nat.pow 36 suffixWidth

/-- The text of the identifier for a second and a random sample. -/
def compose (seconds sample : Nat) : String :=
  String.ofList ("run-".toList ++ Base36.encode seconds ++
    '-' :: Base36.encodeFixed suffixWidth (sample % suffixCount))

/-- Why no identifier could be made. -/
inductive DrawFault
  /-- The clock stands before 1970. -/
  | negativeTime
  | noRandomness
  | invalid (fault : Identifier.Fault)
deriving DecidableEq, Repr

def DrawFault.message : DrawFault → String
  | .negativeTime => "run id generation requires a non-negative timestamp"
  | .noRandomness => "failed to generate run id randomness: random source unavailable"
  | .invalid fault => fault.message kind

/-- Draws an identifier for a second.  Nothing is drawn for a second before
1970. -/
def generate (seconds : Int) (draws : Draws) : Except DrawFault RunId × Draws :=
  if seconds < 0 then (.error .negativeTime, draws)
  else
    match draws.draw with
    | (none, rest) => (.error .noRandomness, rest)
    | (some sample, rest) =>
      ((parse (compose seconds.toNat sample)).mapError .invalid, rest)

/-- Draws an identifier for each second in turn. -/
def generateAll (draws : Draws) : List Int → List (Except DrawFault RunId)
  | [] => []
  | s :: rest =>
    let (result, draws) := generate s draws
    result :: generateAll draws rest

end RunId
end JobGate
