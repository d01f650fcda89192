/-
Places in a YAML text, and the gaps between its words.

A text is prepared first: its line breaks become line feeds, except for the two
separators of Unicode, which stay what they are when they are folded.
-/

namespace JobGate
namespace Yaml

def isGap (c : Char) : Bool := c = ' ' || c = '\t'

def isBreak (c : Char) : Bool := c = '\n' || c = '\u2028' || c = '\u2029'

def isSpace (c : Char) : Bool := isGap c || isBreak c

/-- Letters of names: those of handles, anchors and directives. -/
def isNameChar (c : Char) : Bool := c.isAlphanum || c = '_' || c = '-'

/-- Whether a text ends here or goes on with a blank or a line break. -/
def endsWord : List Char → Bool
  | [] => true
  | c :: _ => isSpace c

def isPrintable (c : Char) : Bool :=
  let n := c.toNat
  n == 0x9 || n == 0xa || n == 0xd || (0x20 ≤ n && n ≤ 0x7e) || n == 0x85 ||
    (0xa0 ≤ n && n ≤ 0xfffd && n != 0xfeff) || 0x10000 ≤ n

/-- Makes every line break a line feed, the separators of Unicode aside. -/
def unifyBreaks : List Char → List Char
  | [] => []
  | '\r' :: '\n' :: rest => '\n' :: unifyBreaks rest
  | c :: rest => (if c = '\r' || c = '\u0085' then '\n' else c) :: unifyBreaks rest

/-- The text without a byte order mark, with line feeds for line breaks, when all
its characters are allowed. -/
def prepare (text : List Char) : Option (List Char) :=
  let text :=
    match text with
    | '\ufeff' :: rest => rest
    | text => text
  if text.all isPrintable then some (unifyBreaks text) else none

/-- A place: what follows, the number of the line, and how many characters
precede in the line and in the text. -/
structure Place where
  rest : List Char
  line : Nat := 0
  column : Nat := 0
  index : Nat := 0
deriving Repr

namespace Place

def step (p : Place) : Place :=
  match p.rest with
  | [] => p
  | c :: rest =>
    if isBreak c then { rest, line := p.line + 1, column := 0, index := p.index + 1 }
    else { p with rest, column := p.column + 1, index := p.index + 1 }

def skip : Nat → Place → Place
  | 0, p => p
  | n + 1, p => skip n p.step

/-- The characters that satisfy a condition, and the place behind them. -/
def span (p : Place) (f : Char → Bool) : List Char × Place :=
  let taken := p.rest.takeWhile f
  (taken, p.skip taken.length)

def skipWhile (p : Place) (f : Char → Bool) : Place := (p.span f).2

def next? (p : Place) : Option Char := p.rest.head?

def startsWith (p : Place) (s : String) : Bool := s.toList.isPrefixOf p.rest

/-- Whether a mark of a document stands here: three characters at the start of a
line, with nothing behind them. -/
def atMark (p : Place) (mark : String) : Bool :=
  p.column == 0 && p.startsWith mark && endsWord (p.rest.drop 3)

/-- Whether the start or the end of a document is marked here. -/
def atDocumentMark (p : Place) : Bool := p.atMark "---" || p.atMark "..."

/-- The place behind the rest of a line in which nothing is left but blanks and a
comment, and behind its end. -/
def finishLine? (p : Place) : Option Place :=
  let p := p.skipWhile isGap
  let p := if p.next? = some '#' then p.skipWhile (!isBreak ·) else p
  match p.next? with
  | none => some p
  | some c => if isBreak c then some p.step else none

end Place

/-- What stands between two words of a scalar. -/
structure Gap where
  taken : List Char
deriving Repr

namespace Gap

def take (p : Place) : Gap × Place :=
  let (taken, p) := p.span isSpace
  (⟨taken⟩, p)

def breaks (g : Gap) : List Char := g.taken.filter isBreak

/-- What the gap means: one line break is a blank, and of several the first is
dropped; blanks around line breaks mean nothing. -/
def text (g : Gap) : List Char :=
  match g.breaks with
  | [] => g.taken
  | ['\n'] => [' ']
  | '\n' :: more => more
  | breaks => breaks

/-- Whether a tab stands where a line has to be indented so far. -/
def tabWithin (g : Gap) (indent : Nat) : Bool :=
  let lines := g.taken.dropWhile isGap
  (lines.foldl (fun (s : Nat × Bool) c =>
    if isBreak c then (0, s.2) else (s.1 + 1, s.2 || (c == '\t' && decide (s.1 < indent))))
    (0, false)).2

end Gap
end Yaml
end JobGate
