/-
The scalars of a YAML text: plain, quoted, and block scalars.

Each reader starts at the scalar, gives its text and the place behind it, and
fails where the text is not a scalar.  The number of steps is bounded by the
length of what follows, since every step takes at least one character.
-/
import JobGate.Yaml.Place

namespace JobGate
namespace Yaml

/-! ## Plain scalars -/

def isFlowMark (c : Char) : Bool := c = ',' || c = '[' || c = ']' || c = '\x7b' || c = '\x7d'

/-- The next word of a plain scalar.  A colon ends it when nothing follows the
colon, and inside brackets their marks end it too. -/
def plainWord (inBrackets : Bool) : List Char → Option (List Char)
  | [] => some []
  | c :: rest =>
    if isSpace c || (c = ':' && endsWord rest) || (inBrackets && isFlowMark c) then some []
    else if inBrackets && c = ':' && rest.head?.any (fun d => isFlowMark d || d = '?') then none
    else (plainWord inBrackets rest).map (c :: ·)

/-- A plain scalar that was read. -/
structure Plain where
  text : List Char
  place : Place
  /-- Whether the scalar was followed by a line break. -/
  lineEnded : Bool

/-- Reads on behind some words and a gap.  Outside brackets a line has to be
indented by at least `indent`. -/
def plainFrom (indent : Nat) (inBrackets : Bool) :
    Nat → List Char → Gap → Place → Option Plain
  | 0, _, _, _ => none
  | fuel + 1, text, gap, p =>
    let stop := some ⟨text, p, !gap.breaks.isEmpty⟩
    if p.atDocumentMark || p.next? = some '#' then stop
    else
      match plainWord inBrackets p.rest with
      | none => none
      | some [] => stop
      | some word =>
        let text := text ++ gap.text ++ word
        let (gap, p) := Gap.take (p.skip word.length)
        if gap.tabWithin indent then none
        else if gap.taken.isEmpty || (!inBrackets && p.column < indent) then
          some ⟨text, p, !gap.breaks.isEmpty⟩
        else plainFrom indent inBrackets fuel text gap p

def plain (indent : Nat) (inBrackets : Bool) (p : Place) : Option Plain :=
  plainFrom indent inBrackets (p.rest.length + 1) [] ⟨[]⟩ p

/-! ## Quoted scalars -/

def hexValue? (c : Char) : Option Nat :=
  if c.isDigit then some (c.toNat - 48)
  else if 'a' ≤ c ∧ c ≤ 'f' then some (c.toNat - 87)
  else if 'A' ≤ c ∧ c ≤ 'F' then some (c.toNat - 55)
  else none

def hexNumber? (digits : List Char) : Option Nat :=
  digits.foldl (fun n c => do return (← n) * 16 + (← hexValue? c)) (some 0)

def letterEscape? (c : Char) : Option Char :=
  match c with
  | '0' => some '\x00'
  | 'a' => some '\x07'
  | 'b' => some '\x08'
  | 't' | '\t' => some '\t'
  | 'n' => some '\n'
  | 'v' => some '\x0b'
  | 'f' => some '\x0c'
  | 'r' => some '\r'
  | 'e' => some '\x1b'
  | ' ' | '"' | '/' | '\\' => some c
  | 'N' => some '\u0085'
  | '_' => some '\u00a0'
  | 'L' => some '\u2028'
  | 'P' => some '\u2029'
  | _ => none

/-- How many hexadecimal digits follow the letter of an escape. -/
def escapeWidth? (c : Char) : Option Nat :=
  match c with
  | 'x' => some 2
  | 'u' => some 4
  | 'U' => some 8
  | _ => none

/-- The character of an escape, and how many characters it takes behind the
backslash. -/
def escape? (rest : List Char) : Option (Char × Nat) :=
  match rest with
  | [] => none
  | c :: more =>
    match letterEscape? c, escapeWidth? c with
    | some d, _ => some (d, 1)
    | none, none => none
    | none, some width =>
      let digits := more.take width
      if digits.length ≠ width then none
      else
        match hexNumber? digits with
        | none => none
        | some n => if n.isValidChar then some (Char.ofNat n, width + 1) else none

def singleQuotedFrom : Nat → List Char → Place → Option (List Char × Place)
  | 0, _, _ => none
  | fuel + 1, text, p =>
    if p.atDocumentMark then none
    else
      match p.rest with
      | [] => none
      | '\'' :: '\'' :: _ => singleQuotedFrom fuel (text ++ ['\'']) (p.skip 2)
      | '\'' :: _ => some (text, p.step)
      | c :: _ =>
        if isSpace c then
          let (gap, p) := Gap.take p
          singleQuotedFrom fuel (text ++ gap.text) p
        else singleQuotedFrom fuel (text ++ [c]) p.step

/-- Reads on inside double quotes.  Behind an escaped line break only the line
breaks of the gap count. -/
def doubleQuotedFrom : Nat → List Char → Place → Option (List Char × Place)
  | 0, _, _ => none
  | fuel + 1, text, p =>
    if p.atDocumentMark then none
    else
      match p.rest with
      | [] => none
      | '"' :: _ => some (text, p.step)
      | '\\' :: rest =>
        if rest.head?.any isBreak then
          let (gap, p) := Gap.take (p.skip 2)
          doubleQuotedFrom fuel (text ++ gap.breaks) p
        else
          match escape? rest with
          | none => none
          | some (c, width) => doubleQuotedFrom fuel (text ++ [c]) (p.skip (width + 1))
      | c :: _ =>
        if isSpace c then
          let (gap, p) := Gap.take p
          doubleQuotedFrom fuel (text ++ gap.text) p
        else doubleQuotedFrom fuel (text ++ [c]) p.step

/-- Reads a scalar in quotes, from its opening quote on. -/
def quoted (double : Bool) (p : Place) : Option (List Char × Place) :=
  let fuel := p.rest.length + 1
  if double then doubleQuotedFrom fuel [] p.step else singleQuotedFrom fuel [] p.step

/-! ## Block scalars -/

/-- What becomes of the line breaks at the end of a block scalar. -/
inductive Chomping
  | strip
  | clip
  | keep
deriving DecidableEq, Repr

/-- What stands behind the mark of a block scalar: the chomping, and how much
deeper than its parent it is indented, when that is said. -/
structure BlockHeader where
  chomping : Chomping := .clip
  deeper : Option Nat := none

def chomping? : Char → Option Chomping
  | '-' => some .strip
  | '+' => some .keep
  | _ => none

/-- The depth that a digit asks for; `none` inside where it is no digit, and
nothing where it is zero. -/
def deeper? (c : Char) : Option (Option Nat) :=
  if c = '0' then none
  else if c.isDigit then some (some (c.toNat - 48))
  else some none

def blockHeader (p : Place) : Option (BlockHeader × Place) :=
  match p.rest with
  | [] => some ({}, p)
  | c :: rest =>
    match chomping? c with
    | some chomping =>
      match rest with
      | [] => some ({ chomping }, p.step)
      | d :: _ =>
        match deeper? d with
        | none => none
        | some none => some ({ chomping }, p.step)
        | some deeper => some ({ chomping, deeper }, p.skip 2)
    | none =>
      match deeper? c with
      | none => none
      | some none => some ({}, p)
      | some deeper =>
        match rest.head?.bind chomping? with
        | some chomping => some ({ chomping, deeper }, p.skip 2)
        | none => some ({ deeper }, p.step)

/-- The empty lines in front of a line of a block scalar. -/
structure BlockBreaks where
  breaks : List Char
  /-- The deepest indentation met. -/
  deepest : Nat
  place : Place

/-- Reads the empty lines up to the next line with content.  While the indentation
is not known yet (`none`), all blanks in front of a line are indentation. -/
def blockBreaks (indent : Option Nat) : Nat → BlockBreaks → Option BlockBreaks
  | 0, b => some b
  | fuel + 1, b =>
    let blanks := (b.place.rest.takeWhile (· = ' ')).length
    let wanted := (indent.map (· - b.place.column)).getD blanks
    let p := b.place.skip (min blanks wanted)
    let deepest := max b.deepest p.column
    if (indent.all (p.column < ·)) && p.next? = some '\t' then none
    else
      match p.next? with
      | none => some { b with deepest, place := p }
      | some c =>
        if isBreak c then
          blockBreaks indent fuel { breaks := b.breaks ++ [c], deepest, place := p.step }
        else some { b with deepest, place := p }

/-- A block scalar under way. -/
structure BlockState where
  text : List Char
  /-- The line break behind the last line. -/
  lineBreak : List Char
  /-- The empty lines behind it. -/
  breaks : List Char
  /-- Whether the last line began with a blank. -/
  blankLine : Bool
  place : Place

/-- Reads the lines of a block scalar that are indented by `indent`. -/
def blockLines (folded : Bool) (indent : Nat) : Nat → BlockState → Option BlockState
  | 0, s => some s
  | fuel + 1, s =>
    match s.place.rest with
    | [] => some s
    | c :: _ =>
      if s.place.column ≠ indent then some s
      else
        let blankLine := isGap c
        let join :=
          if folded && s.lineBreak == ['\n'] && !s.blankLine && !blankLine then
            if s.breaks.isEmpty then [' '] else []
          else s.lineBreak
        let (line, p) := s.place.span (!isBreak ·)
        let lineBreak := p.next?.toList
        match blockBreaks (some indent) (p.rest.length + 1) ⟨[], 0, p.step⟩ with
        | none => none
        | some b =>
          blockLines folded indent fuel
            { text := s.text ++ join ++ s.breaks ++ line
              lineBreak
              breaks := b.breaks
              blankLine
              place := b.place }

/-- Reads a block scalar from its mark on.  `parent` is the indentation of what
the scalar is part of. -/
def block (folded : Bool) (parent : Option Nat) (p : Place) : Option (List Char × Place) := do
  let (header, p) ← blockHeader p.step
  let p ← p.finishLine?
  let given := header.deeper.map fun n => parent.getD 0 + n
  let fuel := p.rest.length + 1
  let b ← blockBreaks given fuel ⟨[], 0, p⟩
  let least := match parent with
    | some n => n + 1
    | none => 1
  let indent := given.getD (max b.deepest least)
  let s ← blockLines folded indent fuel ⟨[], [], b.breaks, false, b.place⟩
  return match header.chomping with
    | .strip => (s.text, s.place)
    | .clip => (s.text ++ s.lineBreak, s.place)
    | .keep => (s.text ++ s.lineBreak ++ s.breaks, s.place)

end Yaml
end JobGate
