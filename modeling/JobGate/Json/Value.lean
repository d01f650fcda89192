/-
JSON values and how they are written.

An object is a list of members in the order in which they are written.  A number
is an integer, or a decimal that keeps its digits and its exponent, so nothing
is rounded.  Compact text holds no character below U+0020, since all of them are
escaped inside strings, so it never spans lines.
-/

namespace JobGate

namespace Json

inductive Number
  | integer (n : Int)
  /-- `digits * 10 ^ exponent`, negative when asked for. -/
  | decimal (negative : Bool) (digits : Nat) (exponent : Int)
deriving DecidableEq, Repr

end Json

inductive Json
  | null
  | bool (b : Bool)
  | number (n : Json.Number)
  | str (s : String)
  | arr (elements : List Json)
  | obj (members : List (String × Json))
deriving Repr, Inhabited

namespace Json

def int (n : Int) : Json := .number (.integer n)

def nat (n : Nat) : Json := .number (.integer n)

/-- A value that may be absent; absence is written `null`. -/
def nullable {α : Type} (write : α → Json) : Option α → Json
  | none => .null
  | some a => write a

/-- A member that is left out when there is no value for it. -/
def member? {α : Type} (name : String) (write : α → Json) : Option α → List (String × Json)
  | none => []
  | some a => [(name, write a)]

/-! ## Writing -/

def hexDigit (n : Nat) : Char :=
  if n < 10 then Char.ofNat (48 + n) else Char.ofNat (87 + n)

/-- A character inside a string.  Only quotes, backslashes and the characters
below U+0020 are escaped, the common ones by a letter. -/
def escapeChar (c : Char) : List Char :=
  if c = '"' then ['\\', '"']
  else if c = '\\' then ['\\', '\\']
  else if 0x20 ≤ c.toNat then [c]
  else if c = '\n' then ['\\', 'n']
  else if c = '\r' then ['\\', 'r']
  else if c = '\t' then ['\\', 't']
  else if c.toNat = 8 then ['\\', 'b']
  else if c.toNat = 12 then ['\\', 'f']
  else ['\\', 'u', '0', '0', hexDigit (c.toNat / 16), hexDigit (c.toNat % 16)]

def quote (s : String) : List Char := '"' :: s.toList.flatMap escapeChar ++ ['"']

/-- A number.  A decimal always has a point or an exponent, so it does not look
like an integer. -/
def Number.write : Number → List Char
  | .integer n => (toString n).toList
  | .decimal negative digits exponent =>
    let sign := if negative then ['-'] else []
    let mantissa := (toString digits).toList
    if exponent = 0 then sign ++ mantissa ++ ['.', '0']
    else sign ++ mantissa ++ 'e' :: (toString exponent).toList

mutual

def write : Json → List Char
  | .null => "null".toList
  | .bool true => "true".toList
  | .bool false => "false".toList
  | .number n => n.write
  | .str s => quote s
  | .arr elements => '[' :: writeElements elements ++ [']']
  | .obj members => '\x7b' :: writeMembers members ++ ['\x7d']

def writeElements : List Json → List Char
  | [] => []
  | [j] => write j
  | j :: rest => write j ++ ',' :: writeElements rest

def writeMembers : List (String × Json) → List Char
  | [] => []
  | [(k, v)] => quote k ++ ':' :: write v
  | (k, v) :: rest => quote k ++ ':' :: write v ++ ',' :: writeMembers rest

end

def compact (j : Json) : String := String.ofList (write j)

/-- A line break followed by the indentation of a depth. -/
def newline (depth : Nat) : List Char := '\n' :: List.replicate (2 * depth) ' '

mutual

/-- The text of a value over several lines, two blanks to a level. -/
def writeIndented (depth : Nat) : Json → List Char
  | .arr [] => ['[', ']']
  | .obj [] => ['\x7b', '\x7d']
  | .arr (j :: rest) =>
    '[' :: writeIndentedElements (depth + 1) (j :: rest) ++ newline depth ++ [']']
  | .obj (m :: rest) =>
    '\x7b' :: writeIndentedMembers (depth + 1) (m :: rest) ++ newline depth ++ ['\x7d']
  | .null => "null".toList
  | .bool true => "true".toList
  | .bool false => "false".toList
  | .number n => n.write
  | .str s => quote s

def writeIndentedElements (depth : Nat) : List Json → List Char
  | [] => []
  | [j] => newline depth ++ writeIndented depth j
  | j :: rest =>
    newline depth ++ writeIndented depth j ++ ',' :: writeIndentedElements depth rest

def writeIndentedMembers (depth : Nat) : List (String × Json) → List Char
  | [] => []
  | [(k, v)] => newline depth ++ quote k ++ ':' :: ' ' :: writeIndented depth v
  | (k, v) :: rest =>
    newline depth ++ quote k ++ ':' :: ' ' :: writeIndented depth v ++
      ',' :: writeIndentedMembers depth rest

end

def indented (j : Json) : String := String.ofList (writeIndented 0 j)

/-! ## Members in order -/

/-- Puts a member into a list sorted by names, in place of one of its name. -/
def insertMember (name : String) (value : Json) :
    List (String × Json) → List (String × Json)
  | [] => [(name, value)]
  | (k, v) :: rest =>
    if name = k then (name, value) :: rest
    else if name < k then (name, value) :: (k, v) :: rest
    else (k, v) :: insertMember name value rest

mutual

/-- The value with the members of every object sorted by name.  Of members with
one name the last stays. -/
def sorted : Json → Json
  | .arr elements => .arr (sortedElements elements)
  | .obj members => .obj (sortedMembers members [])
  | .null => .null
  | .bool b => .bool b
  | .number n => .number n
  | .str s => .str s

/-- `sorted` on every element. -/
def sortedElements : List Json → List Json
  | [] => []
  | j :: rest => sorted j :: sortedElements rest

/-- `sorted` on every member, put in order behind those already placed. -/
def sortedMembers : List (String × Json) → List (String × Json) → List (String × Json)
  | [], placed => placed
  | (k, v) :: rest, placed => sortedMembers rest (insertMember k (sorted v) placed)

end

def member (name : String) : Json → Option Json
  | .obj members => members.lookup name
  | _ => none

end Json
end JobGate
