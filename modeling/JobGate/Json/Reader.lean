/-
JSON values read from text.

Tokens are taken one by one, and `Frame` holds the arrays and objects that are
open.  A value is `none` when it is written correctly but contains a string that
has no value; it can be skipped and not used.

`readObject` reads a text that ought to be one object and keeps what it found
even when the text breaks off: a reader of records reports the first thing that
is wrong with the record, and that may stand before the break.
-/
import JobGate.Json.Token

namespace JobGate
namespace Json

/-- An open array or object, with what it holds so far, the last first.  An
object behind a name also holds that name. -/
inductive Frame
  | array (before : List (Option Json))
  | object (before : List (Option String × Option Json)) (name : Option (Option String))
deriving Repr

inductive Want
  | value
  | valueOrClose
  | name
  | nameOrClose
  | colon
  | commaOrClose
  | nothing
deriving DecidableEq, Repr

/-- The state of reading: the open frames, the innermost first, what may come
next, and the value once it is complete. -/
structure Reading where
  frames : List Frame
  want : Want
  result : Option Json
deriving Repr

namespace Reading

/-- Nothing read yet. -/
def start : Reading := { frames := [], want := .value, result := none }

def allSome {α : Type} : List (Option α) → Option (List α)
  | [] => some []
  | none :: _ => none
  | some a :: rest => (allSome rest).map (a :: ·)

def wholeMember : Option String × Option Json → Option (String × Json)
  | (some k, some v) => some (k, v)
  | _ => none

def place (r : Reading) (v : Option Json) : Option Reading :=
  match r.frames with
  | [] => some { frames := [], want := .nothing, result := v }
  | .array before :: rest =>
    some { r with frames := .array (v :: before) :: rest, want := .commaOrClose }
  | .object before (some name) :: rest =>
    some { r with frames := .object ((name, v) :: before) none :: rest, want := .commaOrClose }
  | .object _ none :: _ => none

def wantsValue (r : Reading) : Bool := r.want = .value || r.want = .valueOrClose

def scalar? : Token → Option (Option Json)
  | .null => some (some .null)
  | .bool b => some (some (.bool b))
  | .number n => some (some (.number n))
  | .text s => some (s.map .str)
  | _ => none

/-- Takes one token; `none` when it may not come next. -/
def step (r : Reading) (t : Token) : Option Reading :=
  match t with
  | .openArray =>
    if r.wantsValue then
      some { r with frames := .array [] :: r.frames, want := .valueOrClose }
    else none
  | .openObject =>
    if r.wantsValue then
      some { r with frames := .object [] none :: r.frames, want := .nameOrClose }
    else none
  | .closeArray =>
    match r.frames with
    | .array before :: rest =>
      if r.want = .valueOrClose || r.want = .commaOrClose then
        place { r with frames := rest } ((allSome before.reverse).map .arr)
      else none
    | _ => none
  | .closeObject =>
    match r.frames with
    | .object before none :: rest =>
      if r.want = .nameOrClose || r.want = .commaOrClose then
        place { r with frames := rest } ((allSome (before.reverse.map wholeMember)).map .obj)
      else none
    | _ => none
  | .comma =>
    if r.want = .commaOrClose then
      match r.frames with
      | .array _ :: _ => some { r with want := .value }
      | .object _ _ :: _ => some { r with want := .name }
      | [] => none
    else none
  | .colon => if r.want = .colon then some { r with want := .value } else none
  | .broken => none
  | t =>
    match t, r.frames with
    | .text s, .object before none :: rest =>
      if r.want = .name || r.want = .nameOrClose then
        some { r with frames := .object before (some s) :: rest, want := .colon }
      else none
    | t, _ => if r.wantsValue then (scalar? t).bind r.place else none

/-- Takes tokens until the value is complete or one may not come next.  The
rest begins with that one. -/
def run (r : Reading) : List Token → Reading × List Token
  | [] => (r, [])
  | t :: ts =>
    if r.want = .nothing then (r, t :: ts)
    else
      match r.step t with
      | none => (r, t :: ts)
      | some r => run r ts

end Reading

/-- The value a text holds, with nothing but blanks around it. -/
def parse? (text : String) : Option Json :=
  match Reading.start.run (tokens text.toList) with
  | (r, []) => if r.want = .nothing then r.result else none
  | _ => none

/-! ## Objects that break off -/

/-- How far the text of an object goes. -/
inductive Ending
  /-- The object is closed, and nothing follows. -/
  | closed
  /-- The object is closed, and something follows. -/
  | trailing
  /-- The text breaks off.  When that is behind the name of a member, the name
  is given. -/
  | broken (name : Option String)
deriving DecidableEq, Repr

/-- The members of an object that are complete, in order, and how it ends. -/
structure ObjectText where
  members : List (Option String × Option Json)
  ending : Ending
deriving Repr

def ObjectText.ofFrames (frames : List Frame) : ObjectText :=
  match frames.getLast? with
  | some (.object before name) => ⟨before.reverse, .broken (name.bind id)⟩
  | _ => ⟨[], .broken none⟩

/-- Reads the text of an object.  The object is left open by the machine so that
its members are still in the frame when it closes. -/
def readObject (text : String) : ObjectText :=
  match tokens text.toList with
  | .openObject :: ts => go { frames := [.object [] none], want := .nameOrClose, result := none } ts
  | _ => ⟨[], .broken none⟩
where
  go (r : Reading) : List Token → ObjectText
    | [] => ObjectText.ofFrames r.frames
    | t :: ts =>
      match r.step t with
      | none => ObjectText.ofFrames r.frames
      | some next =>
        if next.want = .nothing then
          ⟨(ObjectText.ofFrames r.frames).members, if ts.isEmpty then .closed else .trailing⟩
        else go next ts

end Json
end JobGate
