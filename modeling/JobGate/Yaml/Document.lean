/-
The document of a YAML text.

Nodes are read from tokens.  Whoever reads a document here expects a text with one
document at most, so a second one is a fault like any other.  Faults are not told
apart.  The number of steps is bounded by the number of tokens, since a node
takes at least one.
-/
import JobGate.Yaml.Token

namespace JobGate
namespace Yaml

/-- The tokens that are left, the nodes that have a name, and the meanings of the
handles of tags. -/
structure Reading where
  tokens : List Token
  anchors : List (String × Node) := []
  handles : List (String × String) := []

abbrev Read := StateT Reading Option

namespace Read

def peek : Read (Option Token) := return (← get).tokens.head?

def skip : Read Unit := modify fun r => { r with tokens := r.tokens.tail }

/-- Whether the next token is a given one, which is taken then. -/
def take? (t : Token) : Read Bool := do
  if (← peek) = some t then
    skip
    return true
  else return false

def expect (t : Token) : Read Unit := do
  if !(← take? t) then failure

def isNone (ts : List Token) : Read Bool := do
  match ← peek with
  | some t => return !ts.contains t
  | none => return true

def name (anchor : Option String) (n : Node) : Read Unit :=
  match anchor with
  | some a => modify fun r => { r with anchors := (a, n) :: r.anchors }
  | none => pure ()

/-- The handles that need no directive. -/
def standardHandles : List (String × String) := [("!", "!"), ("!!", "tag:yaml.org,2002:")]

def resolve (t : TagText) : Read String := do
  if t.handle.isEmpty then return t.suffix
  match ((← get).handles ++ standardHandles).lookup t.handle with
  | some meaning => return meaning ++ t.suffix
  | none => failure

def anchor : Read (Option String) := do
  match ← peek with
  | some (.anchor a) =>
    skip
    return some a
  | _ => return none

def tag : Read (Option String) := do
  match ← peek with
  | some (.tag t) =>
    skip
    return some (← resolve t)
  | _ => return none

/-- The anchor and the tag of a node, in either order. -/
def properties : Read (Option String × Option String) := do
  match ← anchor with
  | some a => return (some a, ← tag)
  | none =>
    match ← tag with
    | some t => return (← anchor, some t)
    | none => return (none, none)

mutual

/-- A node.  Only a value of a mapping may be a list that is not indented. -/
def node (inBlock unindented : Bool) : Nat → Read Node
  | 0 => failure
  | fuel + 1 => do
    match ← peek with
    | some (.alias a) =>
      skip
      match (← get).anchors.lookup a with
      | some n => return n
      | none => failure
    | _ =>
      let (a, t) ← properties
      name a .loop
      let n ← content inBlock unindented (a.isSome || t.isSome) t fuel
      name a n
      return n

def content (inBlock unindented bare : Bool) (t : Option String) : Nat → Read Node
  | 0 => failure
  | fuel + 1 => do
    match ← peek with
    | some (.scalar style text) =>
      skip
      return .scalar style (if t = some "!" then none else t) text
    | some .openList =>
      skip
      return .list (← flowElements true fuel)
    | some .openMapping =>
      skip
      return .mapping (← flowEntries true fuel)
    | next =>
      if next = some .entry && unindented then return .list (← looseElements fuel)
      else if next = some .blockList && inBlock then
        skip
        return .list (← blockElements fuel)
      else if next = some .blockMapping && inBlock then
        skip
        return .mapping (← blockEntries fuel)
      else if bare then return .scalar .plain t ""
      else failure

/-- A node, unless one of some tokens comes next. -/
def nodeUnless (stop : List Token) (inBlock : Bool) (unindented : Bool) : Nat → Read Node
  | 0 => failure
  | fuel + 1 => do
    if ← isNone stop then node inBlock unindented fuel else return .empty

def valueUnless (stop : List Token) (inBlock : Bool) : Nat → Read Node
  | 0 => failure
  | fuel + 1 => do
    if ← take? .value then nodeUnless stop inBlock inBlock fuel else return .empty

def blockElements : Nat → Read (List Node)
  | 0 => failure
  | fuel + 1 => do
    if ← take? .entry then
      let n ← nodeUnless [.entry, .blockEnd] true false fuel
      return n :: (← blockElements fuel)
    else
      expect .blockEnd
      return []

/-- The elements of a list that is not indented. -/
def looseElements : Nat → Read (List Node)
  | 0 => failure
  | fuel + 1 => do
    if ← take? .entry then
      let n ← nodeUnless [.entry, .key, .value, .blockEnd] true false fuel
      return n :: (← looseElements fuel)
    else return []

def blockEntries : Nat → Read (List (Node × Node))
  | 0 => failure
  | fuel + 1 => do
    if ← take? .key then
      let stop := [.key, .value, .blockEnd]
      let k ← nodeUnless stop true true fuel
      let v ← valueUnless stop true fuel
      return (k, v) :: (← blockEntries fuel)
    else
      expect .blockEnd
      return []

def flowElements (first : Bool) : Nat → Read (List Node)
  | 0 => failure
  | fuel + 1 => do
    if ← take? .closeList then return []
    if !first then
      expect .comma
      if ← take? .closeList then return []
    let n ← if ← take? .key then flowPair fuel else node false false fuel
    return n :: (← flowElements false fuel)

/-- A mapping of one entry, as an element of a list in brackets.  Where the key is
missing, the token behind its place is passed over. -/
def flowPair : Nat → Read Node
  | 0 => failure
  | fuel + 1 => do
    let stop := [.comma, .closeList]
    let k ←
      if ← isNone (.value :: stop) then node false false fuel
      else
        skip
        pure .empty
    let v ← valueUnless stop false fuel
    return .mapping [(k, v)]

def flowEntries (first : Bool) : Nat → Read (List (Node × Node))
  | 0 => failure
  | fuel + 1 => do
    if ← take? .closeMapping then return []
    if !first then
      expect .comma
      if ← take? .closeMapping then return []
    let stop := [.comma, .closeMapping]
    let e ←
      if ← take? .key then
        let k ← nodeUnless (.value :: stop) false false fuel
        pure (k, ← valueUnless stop false fuel)
      else
        let k ← node false false fuel
        pure (k, Node.empty)
    return e :: (← flowEntries false fuel)

end

def directives : List Token → Bool → Read Unit
  | .version major minor :: rest, seen => do
    if seen || major ≠ 1 || (minor ≠ 1 && minor ≠ 2) then failure
    skip
    directives rest true
  | .tagHandle handle meaning :: rest, seen => do
    if ((← get).handles.lookup handle).isSome then failure
    modify fun r => { r with handles := (handle, meaning) :: r.handles }
    skip
    directives rest seen
  | _, _ => pure ()

/-- Whether a token belongs to the beginning of a document. -/
def beginsDocument : Token → Bool
  | .version _ _ | .tagHandle _ _ | .documentStart => true
  | _ => false

def document (fuel : Nat) : Read (Option Node) := do
  match ← peek with
  | none => return none
  | some t =>
    if beginsDocument t then
      directives (← get).tokens false
      expect .documentStart
      match ← peek with
      | none => return some .empty
      | some t =>
        if beginsDocument t || t = .documentEnd then return some .empty
        else return some (← node true false fuel)
    else return some (← node true false fuel)

def onlyDocument (fuel : Nat) : Read (Option Node) := do
  let n ← document fuel
  let rest := (← get).tokens.dropWhile (· = .documentEnd)
  if rest.isEmpty then return n else failure

end Read

/-- The document of a text, and nothing inside for a text without one. -/
def document? (text : String) : Option (Option Node) := do
  let ts ← tokens text
  let (n, _) ← (Read.onlyDocument (8 * ts.length + 8)).run { tokens := ts }
  return n

end Yaml
end JobGate
