/-
The tokens of a YAML text.

Indentation is turned into tokens: a collection that is marked by indentation
begins with a token of its own and ends with `blockEnd`.  A key without a mark is
only recognised by the colon behind it, so every place where such a key may begin
is remembered as a `Candidate`, and the tokens of the key are put in there when
the colon comes.
-/
import JobGate.Yaml.Node
import JobGate.Yaml.Scalar

namespace JobGate
namespace Yaml

/-- A tag as it is written: a handle, which may be empty, and what follows. -/
structure TagText where
  handle : String
  suffix : String
deriving DecidableEq, Repr

inductive Token
  | version (major minor : Nat)
  | tagHandle (handle meaning : String)
  | documentStart
  | documentEnd
  | blockList
  | blockMapping
  | blockEnd
  | openList
  | closeList
  | openMapping
  | closeMapping
  | entry
  | comma
  | key
  | value
  | alias (name : String)
  | anchor (name : String)
  | tag (text : TagText)
  | scalar (style : Style) (text : String)
deriving DecidableEq, Repr

/-! ## Names, tags and directives -/

def name? (p : Place) : Option (String × Place) :=
  let (chars, p) := p.span isNameChar
  if chars.isEmpty then none else some (String.ofList chars, p)

def anchorName? (p : Place) : Option (String × Place) := do
  let (name, p) ← name? p.step
  if endsWord p.rest || p.next?.any (fun c => "?:,]\x7d%@\x60".toList.contains c) then
    return (name, p)
  else none

def isTagChar (verbatim : Bool) (c : Char) : Bool :=
  isNameChar c || ";/?:@&=+$.%!~*'()".toList.contains c || (verbatim && ",[]".toList.contains c)

def percentDecode : List Char → Option (List UInt8)
  | [] => some []
  | '%' :: a :: b :: rest => do
    let n ← hexNumber? [a, b]
    return UInt8.ofNat n :: (← percentDecode rest)
  | c :: rest => do
    if c = '%' then none
    return (String.singleton c).toUTF8.toList ++ (← percentDecode rest)

def tagText? (chars : List Char) : Option String := do
  let bytes ← percentDecode chars
  String.fromUTF8? ⟨bytes.toArray⟩

/-- The handle of a tag, with both its marks where it has two. -/
def tagHandle (p : Place) : List Char × Place :=
  let (name, q) := p.step.span isNameChar
  if q.next? = some '!' then ('!' :: name ++ ['!'], q.step) else ('!' :: name, q)

def tag? (p : Place) : Option (TagText × Place) := do
  let (text, p) ←
    if p.startsWith "!<" then
      let (chars, p) := (p.skip 2).span (isTagChar true)
      if chars.isEmpty || p.next? ≠ some '>' then none
      else pure (TagText.mk "" (← tagText? chars), p.step)
    else
      let (handle, p) := tagHandle p
      let (chars, p) := p.span (isTagChar false)
      if 2 ≤ handle.length && handle.getLast? == some '!' then
        if chars.isEmpty then none
        else pure (TagText.mk (String.ofList handle) (← tagText? chars), p)
      else
        let chars := handle.drop 1 ++ chars
        if chars.isEmpty then pure (TagText.mk "" "!", p)
        else pure (TagText.mk "!" (← tagText? chars), p)
  return (text, p)

def versionNumber? (p : Place) : Option (Nat × Place) :=
  let (digits, p) := p.span Char.isDigit
  if digits.isEmpty || 9 < digits.length then none
  else some (digits.foldl (fun n c => n * 10 + (c.toNat - 48)) 0, p)

/-- A directive, from its mark on to the end of the line. -/
def directive? (p : Place) : Option (Token × Place) := do
  let (name, p) ← name? p.step
  if !endsWord p.rest then none
  let p := p.skipWhile isGap
  if name = "YAML" then
    let (major, p) ← versionNumber? p
    if p.next? ≠ some '.' then none
    let (minor, p) ← versionNumber? p.step
    return (.version major minor, ← p.finishLine?)
  else if name = "TAG" then
    if p.next? ≠ some '!' then none
    let (handle, p) := tagHandle p
    if handle ≠ ['!'] && handle.getLast? ≠ some '!' then none
    if !p.next?.any isGap then none
    let (chars, p) := (p.skipWhile isGap).span (isTagChar true)
    if chars.isEmpty || !endsWord p.rest then none
    return (.tagHandle (String.ofList handle) (← tagText? chars), ← p.finishLine?)
  else none

/-! ## Indentation and keys -/

/-- A place where a key may have begun. -/
structure Candidate where
  /-- The number of tokens in front of it. -/
  position : Nat
  place : Place
  /-- Whether it must turn out to be a key. -/
  required : Bool

/-- The state of reading tokens.  `indents` are the columns of the open block
collections, the innermost first, and `candidates` holds one candidate for every
open bracket and one for what is outside of them. -/
structure Scan where
  place : Place
  tokens : Array Token := #[]
  indents : List Nat := []
  candidate : Option Candidate := none
  outer : List (Option Candidate) := []
  keyAllowed : Bool := true

namespace Scan

def inBrackets (s : Scan) : Bool := !s.outer.isEmpty

/-- The column of the innermost block collection. -/
def indent? (s : Scan) : Option Nat := s.indents.head?

def push (s : Scan) (t : Token) : Scan := { s with tokens := s.tokens.push t }

def insert (s : Scan) (position : Nat) (t : Token) : Scan :=
  { s with tokens := s.tokens.extract 0 position ++ #[t] ++
      s.tokens.extract position s.tokens.size }

def mark (s : Scan) (t : Token) (width : Nat) : Scan :=
  { s.push t with place := s.place.skip width }

/-- Ends the block collections that are deeper than a column; all of them where
no column is given. -/
def unindent (s : Scan) (column : Option Nat) : Scan :=
  if s.inBrackets then s
  else
    let deeper := s.indents.takeWhile fun i => column.all (· < i)
    { s with
      indents := s.indents.drop deeper.length
      tokens := s.tokens ++ Array.replicate deeper.length Token.blockEnd }

/-- Begins a block collection when the column is deeper than the innermost
one. -/
def beginBlock (s : Scan) (column position : Nat) (t : Token) : Scan :=
  if s.inBrackets || s.indent?.any (column ≤ ·) then s
  else { s.insert position t with indents := column :: s.indents }

/-- Gives the candidate up, which must not be one that is required. -/
def dropCandidate (s : Scan) : Option Scan :=
  if s.candidate.any (·.required) then none else some { s with candidate := none }

def setCandidate (s : Scan) : Option Scan :=
  if s.keyAllowed then do
    let s ← s.dropCandidate
    let required := !s.inBrackets && s.indent? == some s.place.column
    return { s with candidate := some ⟨s.tokens.size, s.place, required⟩ }
  else some s

/-- How long a key without a mark may be. -/
def longestKey : Nat := 1024

/-- The candidate, when the key it began can end here: on the line on which it
began, and not too far away. -/
def validCandidate (s : Scan) : Option (Option Candidate) :=
  match s.candidate with
  | none => some none
  | some c =>
    if c.place.line < s.place.line || c.place.index + longestKey < s.place.index then
      if c.required then none else some none
    else some (some c)

/-! ## Single tokens -/

/-- A mark behind which a new line of thought begins: all block collections end. -/
def takeMark (s : Scan) (t : Token) : Option Scan := do
  let s ← (s.unindent none).dropCandidate
  return { s.mark t 3 with keyAllowed := false }

def takeDirective (s : Scan) : Option Scan := do
  let s ← (s.unindent none).dropCandidate
  let (t, place) ← directive? s.place
  return { s.push t with place, keyAllowed := false }

def takeOpening (s : Scan) (t : Token) : Option Scan := do
  let s ← s.setCandidate
  return { s.mark t 1 with
    candidate := none, outer := s.candidate :: s.outer, keyAllowed := true }

def takeClosing (s : Scan) (t : Token) : Option Scan := do
  let s ← s.dropCandidate
  return { s.mark t 1 with
    candidate := s.outer.head?.join, outer := s.outer.tail, keyAllowed := false }

def takeComma (s : Scan) : Option Scan := do
  let s ← s.dropCandidate
  return { s.mark .comma 1 with keyAllowed := true }

def takeEntry (s : Scan) : Option Scan := do
  if !s.inBrackets && !s.keyAllowed then none
  let s ← (s.beginBlock s.place.column s.tokens.size .blockList).dropCandidate
  return { s.mark .entry 1 with keyAllowed := true }

def takeKey (s : Scan) : Option Scan := do
  if !s.inBrackets && !s.keyAllowed then none
  let s ← (s.beginBlock s.place.column s.tokens.size .blockMapping).dropCandidate
  return { s.mark .key 1 with keyAllowed := !s.inBrackets }

/-- The mark of a value, which may make a key of what stands before it. -/
def takeValue (s : Scan) : Option Scan := do
  match ← s.validCandidate with
  | some c =>
    let s := (s.insert c.position .key).beginBlock c.place.column c.position .blockMapping
    return { s.mark .value 1 with candidate := none, keyAllowed := false }
  | none =>
    if !s.inBrackets && !s.keyAllowed then none
    let s := s.beginBlock s.place.column s.tokens.size .blockMapping
    return { s.mark .value 1 with keyAllowed := !s.inBrackets }

def takeAnchor (s : Scan) (make : String → Token) : Option Scan := do
  let s ← s.setCandidate
  let (name, place) ← anchorName? s.place
  return { s.push (make name) with place, keyAllowed := false }

def takeTag (s : Scan) : Option Scan := do
  let s ← s.setCandidate
  let (t, place) ← tag? s.place
  if !endsWord place.rest && !(s.inBrackets && place.next? = some ',') then none
  return { s.push (.tag t) with place, keyAllowed := false }

def takeBlock (s : Scan) (isFolded : Bool) : Option Scan := do
  let s ← s.dropCandidate
  let (text, place) ← block isFolded s.indent? s.place
  let style := if isFolded then Style.folded else .literal
  return { s.push (.scalar style (String.ofList text)) with place, keyAllowed := true }

def takeQuoted (s : Scan) (double : Bool) : Option Scan := do
  let s ← s.setCandidate
  let (text, place) ← quoted double s.place
  let style := if double then Style.doubleQuoted else .singleQuoted
  return { s.push (.scalar style (String.ofList text)) with place, keyAllowed := false }

def takePlain (s : Scan) : Option Scan := do
  let s ← s.setCandidate
  let least := match s.indent? with
    | some n => n + 1
    | none => 0
  let r ← plain least s.inBrackets s.place
  return { s.push (.scalar .plain (String.ofList r.text)) with
    place := r.place, keyAllowed := r.lineEnded }

/-- Whether a plain scalar can begin with a character, given what follows it. -/
def startsPlain (inBrackets : Bool) (c : Char) (rest : List Char) : Bool :=
  if c = '-' then !rest.head?.any isGap
  else if c = '?' || c = ':' then !inBrackets && !endsWord rest
  else !",[]\x7b\x7d#&*!|>'\"%@\x60".toList.contains c

/-- The token that begins at a character that is no blank. -/
def takeToken (s : Scan) (c : Char) (rest : List Char) : Option Scan :=
  if s.place.column = 0 && c = '%' then s.takeDirective
  else if s.place.atMark "---" then s.takeMark .documentStart
  else if s.place.atMark "..." then s.takeMark .documentEnd
  else
    match c with
    | '[' => s.takeOpening .openList
    | '\x7b' => s.takeOpening .openMapping
    | ']' => s.takeClosing .closeList
    | '\x7d' => s.takeClosing .closeMapping
    | ',' => s.takeComma
    | '*' => s.takeAnchor .alias
    | '&' => s.takeAnchor .anchor
    | '!' => s.takeTag
    | '\'' => s.takeQuoted false
    | '"' => s.takeQuoted true
    | _ =>
      if c = '-' && endsWord rest then s.takeEntry
      else if c = '?' && (s.inBrackets || endsWord rest) then s.takeKey
      else if c = ':' && (s.inBrackets || endsWord rest) then s.takeValue
      else if c = '|' && !s.inBrackets then s.takeBlock false
      else if c = '>' && !s.inBrackets then s.takeBlock true
      else if startsPlain s.inBrackets c rest then s.takePlain
      else none

/-! ## All tokens -/

/-- Goes on to the next character that is neither blank nor part of a comment.  A
tab is no indentation, so where a key may begin it is not skipped. -/
def skipBlanks : Nat → Scan → Scan
  | 0, s => s
  | fuel + 1, s =>
    let place := s.place.skipWhile fun c =>
      c = ' ' || (c = '\t' && (s.inBrackets || !s.keyAllowed))
    let place := if place.next? = some '#' then place.skipWhile (!isBreak ·) else place
    if place.next?.any isBreak then
      skipBlanks fuel { s with place := place.step, keyAllowed := s.keyAllowed || !s.inBrackets }
    else { s with place }

def takeAll : Nat → Scan → Option Scan
  | 0, _ => none
  | fuel + 1, s =>
    let s := s.skipBlanks (s.place.rest.length + 1)
    let s := s.unindent (some s.place.column)
    match s.place.rest with
    | [] => (s.unindent none).dropCandidate
    | c :: rest => (s.takeToken c rest).bind (takeAll fuel)

end Scan

def tokens (text : String) : Option (List Token) := do
  let chars ← prepare text.toList
  let s ← Scan.takeAll (chars.length + 1) { place := { rest := chars } }
  return s.tokens.toList

end Yaml
end JobGate
