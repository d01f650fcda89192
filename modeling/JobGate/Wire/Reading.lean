/-
Reading records out of JSON.

A record is an object, or an array with its fields in order.  `Slot` describes a
field: its name, what it accepts, and what happens when it is absent.  The
members of an object are looked at in the order in which they come, so the fault
that is reported is the first one met; only then are absent fields reported, in
the order of the slots.  Members that are no field are skipped.
-/
import JobGate.Json.Reader
import JobGate.Run.Identifier

namespace JobGate
namespace Wire

/-- Why a value is not the record that was asked for. -/
inductive Fault
  /-- The value, or a part of it, is of another kind, or the text is not JSON. -/
  | shape
  | missing (field : String)
  | duplicate (field : String)
  | unknownVariant (given : String) (known : List String)
  | runId (given : String) (fault : Identifier.Fault)
deriving DecidableEq, Repr

def quotedList (names : List String) : String :=
  ", ".intercalate (names.map fun n => "`" ++ n ++ "`")

/-- The wording of a fault, for those that have one. -/
def Fault.message? : Fault → Option String
  | .shape => none
  | .missing field => some ("missing field `" ++ field ++ "`")
  | .duplicate field => some ("duplicate field `" ++ field ++ "`")
  | .unknownVariant given known =>
    some ("unknown variant `" ++ given ++ "`, expected one of " ++ quotedList known)
  | .runId given fault =>
    some ("invalid " ++ RunId.kind ++ " `" ++ given ++ "`: " ++ fault.message RunId.kind)

abbrev Reader (α : Type) := Json → Except Fault α

/-! ## Readers of single values -/

def text : Reader String
  | .str s => .ok s
  | _ => .error .shape

def integer (low high : Int) : Reader Int
  | .number (.integer n) => if low ≤ n ∧ n ≤ high then .ok n else .error .shape
  | _ => .error .shape

def natural (high : Nat) : Reader Nat
  | .number (.integer n) => if 0 ≤ n ∧ n ≤ high then .ok n.toNat else .error .shape
  | _ => .error .shape

def nullable {α : Type} (read : Reader α) : Reader (Option α)
  | .null => .ok none
  | j => (read j).map some

def members : Reader (List (String × Json))
  | .obj members => .ok members
  | _ => .error .shape

/-- The word of a variant: a text, or an object whose only member has that name
and holds `null`. -/
def word {α : Type} (known : List String) (ofName? : String → Option α) : Reader α
  | .str s => named s
  | .obj [(s, v)] =>
    match named s, v with
    | .error fault, _ => .error fault
    | .ok a, .null => .ok a
    | .ok _, _ => .error .shape
  | _ => .error .shape
where
  named (s : String) : Except Fault α :=
    match ofName? s with
    | some a => .ok a
    | none => .error (.unknownVariant s known)

def runId : Reader RunId
  | .str s => (RunId.parse s).mapError (.runId s)
  | _ => .error .shape

/-! ## Records -/

/-- What an absent field means. -/
inductive Absence
  /-- It may not be absent. -/
  | required
  /-- It may be absent from an object but not from an array. -/
  | unlessArray
  /-- It may be absent. -/
  | allowed
deriving DecidableEq, Repr

/-- A field of a record. -/
structure Slot where
  name : String
  accepts : Json → Except Fault Unit
  absence : Absence := .required

/-- The slot of a field that is read in some way. -/
def slot {α : Type} (name : String) (read : Reader α) (absence : Absence := .required) : Slot where
  name := name
  accepts j := (read j).map fun _ => ()
  absence := absence

/-- The fields that have been read. -/
abbrev Fields := List (String × Json)

/-- Looks at one member: its name and its value, where they are there. -/
def takeMember (slots : List Slot) (seen : Fields) (name : Option String) (value : Option Json) :
    Except Fault Fields :=
  match name with
  | none => .error .shape
  | some name =>
    match slots.find? (·.name = name) with
    | none => .ok seen
    | some slot =>
      if (seen.lookup name).isSome then .error (.duplicate name)
      else
        match value with
        | none => .error .shape
        | some value =>
          match slot.accepts value with
          | .error fault => .error fault
          | .ok () => .ok ((name, value) :: seen)

/-- Looks at members in order, after some have been read. -/
def takeMembers (slots : List Slot) (seen : Fields) :
    List (Option String × Option Json) → Except Fault Fields
  | [] => .ok seen
  | (name, value) :: rest =>
    match takeMember slots seen name value with
    | .error fault => .error fault
    | .ok seen => takeMembers slots seen rest

/-- Fails with the first field that is absent and may not be. -/
def checkAbsent (slots : List Slot) (seen : Fields) : Except Fault Fields :=
  match slots.find? fun s => s.absence = .required && (seen.lookup s.name).isNone with
  | some s => .error (.missing s.name)
  | none => .ok seen

def fieldsOfMembers (slots : List Slot) (members : List (String × Json)) : Except Fault Fields :=
  match takeMembers slots [] (members.map fun (k, v) => (some k, some v)) with
  | .error fault => .error fault
  | .ok seen => checkAbsent slots seen

def fieldsOfElements (slots : List Slot) (elements : List Json) : Except Fault Fields :=
  match takeMembers slots []
      (slots.zipWith (fun s j => (some s.name, some j)) elements) with
  | .error fault => .error fault
  | .ok seen =>
    if slots.length < elements.length then .error .shape
    else if (slots.drop elements.length).all (·.absence = .allowed) then .ok seen
    else .error .shape

def fields (slots : List Slot) : Reader Fields
  | .obj members => fieldsOfMembers slots members
  | .arr elements => fieldsOfElements slots elements
  | _ => .error .shape

/-- The fields of a record given as the text of an object. -/
def fieldsOfText (slots : List Slot) (t : Json.ObjectText) : Except Fault Fields :=
  match takeMembers slots [] t.members with
  | .error fault => .error fault
  | .ok seen =>
    match t.ending with
    | .broken none => .error .shape
    | .broken (some name) =>
      if (seen.lookup name).isSome then .error (.duplicate name) else .error .shape
    | .closed => checkAbsent slots seen
    | .trailing => (checkAbsent slots seen).bind fun _ => .error .shape

namespace Fields

def get {α : Type} (f : Fields) (name : String) (read : Reader α) : Except Fault α :=
  match f.lookup name with
  | some j => read j
  | none => .error (.missing name)

/-- Reads a field that may be absent, and takes a default for it then. -/
def getD {α : Type} (f : Fields) (name : String) (read : Reader α) (default : α) :
    Except Fault α :=
  match f.lookup name with
  | some j => read j
  | none => .ok default

end Fields
end Wire
end JobGate
