/-
Scripts read from text.

A script is read line by line, since what stands before a fault is still carried
out.  The first argument of the readers bounds how deeply they call each other;
the length of the text is enough.
-/
import JobGate.Shell.Syntax

namespace JobGate
namespace Shell

/-- Why a text is not a script. -/
inductive SyntaxFault
  | openQuote
  | openBrace
  | openBackquote
  | badLoopName
  /-- A word or mark that may not come here, and what would have to come. -/
  | unexpected (found : String) (wanted : Option String)
  | badSubstitution
deriving DecidableEq, Repr

def SyntaxFault.message : SyntaxFault → String
  | openQuote => "Syntax error: Unterminated quoted string"
  | openBrace => "Syntax error: Missing '\x7d'"
  | openBackquote => "Syntax error: EOF in backquote substitution"
  | badLoopName => "Syntax error: Bad for loop variable"
  | unexpected found none => "Syntax error: " ++ found ++ " unexpected"
  | unexpected found (some wanted) =>
    "Syntax error: " ++ found ++ " unexpected (expecting \"" ++ wanted ++ "\")"
  | badSubstitution => "Bad substitution"

/-- What is left of a text, and the number of the line. -/
structure Source where
  rest : List Char
  line : Nat := 1
deriving Repr

abbrev Read := StateT Source (Except (Nat × SyntaxFault))

namespace Read

def fail {α : Type} (f : SyntaxFault) : Read α := do throw ((← get).line, f)

def peek : Read (Option Char) := return (← get).rest.head?

def next : Read (Option Char) := do
  match (← get).rest with
  | [] => return none
  | c :: rest =>
    modify fun s => { rest, line := if c = '\n' then s.line + 1 else s.line }
    return some c

def skip : Nat → Read Unit
  | 0 => pure ()
  | n + 1 => do
    let _ ← next
    skip n

def take? (s : String) : Read Bool := do
  if s.toList.isPrefixOf (← get).rest then
    skip s.length
    return true
  else return false

def takeWhile (f : Char → Bool) : Read String := do
  let taken := (← get).rest.takeWhile f
  skip taken.length
  return String.ofList taken

end Read

open Read

def isNameStart (c : Char) : Bool := c.isAlpha || c = '_'

/-- Characters of names behind the first one. -/
def isNameChar (c : Char) : Bool := c.isAlphanum || c = '_'

def isSpecial (c : Char) : Bool := "@*#?-$!".toList.contains c

def isMeta (c : Char) : Bool := " \t\n;&|<>()".toList.contains c

/-- Puts a text in front of a word, joined to a text of the same kind. -/
def consText (s : String) (quoted : Bool) : Word → Word
  | .text t q :: rest =>
    if q = quoted then .text (s ++ t) q :: rest else .text s quoted :: .text t q :: rest
  | w => .text s quoted :: w

/-- Joins the texts of a word that stand next to each other. -/
def joinTexts (w : Word) : Word :=
  w.foldr (fun p w =>
    match p with
    | .text s quoted => consText s quoted w
    | p => p :: w) []

def skipBlanks : Nat → Read Unit
  | 0 => pure ()
  | fuel + 1 => do
    match (← get).rest with
    | ' ' :: _ | '\t' :: _ =>
      skip 1
      skipBlanks fuel
    | '\\' :: '\n' :: _ =>
      skip 2
      skipBlanks fuel
    | '#' :: _ =>
      let _ ← takeWhile (· ≠ '\n')
    | _ => pure ()

def skipLines : Nat → Read Unit
  | 0 => pure ()
  | fuel + 1 => do
    skipBlanks (fuel + 1)
    if ← take? "\n" then skipLines fuel

/-- The text of a part in single quotes, up to the closing one. -/
def singleQuoted : Read String := do
  let s ← takeWhile (· ≠ '\'')
  if ← take? "'" then return s else fail .openQuote

/-- The text between two parentheses that are both closed by two. -/
def untilDouble : Nat → Nat → List Char → Option (List Char)
  | _, _, [] => none
  | 0, _, _ => none
  | fuel + 1, depth, c :: rest =>
    if c = ')' && depth = 0 then
      if rest.head? = some ')' then some [] else none
    else
      let depth := if c = '(' then depth + 1 else if c = ')' then depth - 1 else depth
      (untilDouble fuel depth rest).map (c :: ·)

/-- What is done with a parameter, by the marks behind its name. -/
def paramUse : Read (Option ParamUse) := do
  let colon ← take? ":"
  match ← next with
  | some '-' => return some (.default colon)
  | some '=' => return some (.assign colon)
  | some '+' => return some (.alternative colon)
  | some '?' => return some (.demand colon)
  | some '%' =>
    let longest ← take? "%"
    return if colon then none else some (.cutEnd longest)
  | some '#' =>
    let longest ← take? "#"
    return if colon then none else some (.cutStart longest)
  | _ => return none

def paramName? : Read (Option String) := do
  match ← peek with
  | some c =>
    if isNameStart c then return some (← takeWhile isNameChar)
    else if c.isDigit then return some (← takeWhile Char.isDigit)
    else if isSpecial c then
      skip 1
      return some (String.singleton c)
    else return none
  | none => return none

/-- Whether a character ends the part of a word that is read. -/
inductive Until
  | word
  | doubleQuote
  | brace (quoted : Bool)
  /-- The whole text is read. -/
  | never
deriving DecidableEq

def Until.quoted : Until → Bool
  | doubleQuote | never | brace true => true
  | word | brace false => false

def Until.ends : Until → Char → Bool
  | word, c => isMeta c
  | doubleQuote, c => c = '"'
  | brace _, c => c = '\x7d'
  | never, _ => false

/-- The words that end or divide compound commands. -/
def dividers : List String :=
  ["then", "else", "elif", "fi", "do", "done", "esac", "\x7d", "in"]

/-- The words that mean something where a command begins. -/
def reserved : List String := dividers ++ ["if", "while", "until", "for", "case", "\x7b", "!"]

def bareText? : Word → Option String
  | [.text s false] => some s
  | _ => none

def describeNext : Read String := do
  match (← get).rest with
  | [] => return "end of file"
  | '\n' :: _ => return "newline"
  | '&' :: '&' :: _ => return "\"&&\""
  | '|' :: '|' :: _ => return "\"||\""
  | ';' :: ';' :: _ => return "\";;\""
  | c :: _ =>
    if isMeta c then return "\"" ++ String.singleton c ++ "\""
    else
      let w ← takeWhile (!isMeta ·)
      return if reserved.contains w then "\"" ++ w ++ "\"" else "word"

def unexpected {α : Type} (wanted : Option String) : Read α := do
  let found ← describeNext
  fail (.unexpected found wanted)

/-- The lines of a text up to one that is a given text, and what follows. -/
def splitDocument (strip : Bool) (stop : List Char) :
    Nat → List Char → List Char × List Char
  | 0, text => (text, [])
  | fuel + 1, text =>
    if text.isEmpty then ([], [])
    else
      let line := text.takeWhile (· ≠ '\n')
      let rest := (text.drop line.length).drop 1
      let line := if strip then line.dropWhile (· = '\t') else line
      if line = stop then ([], rest)
      else
        let (body, rest) := splitDocument strip stop fuel rest
        (line ++ '\n' :: body, rest)

/-- Takes the lines behind the present one as a document, up to the line that ends
it. -/
def takeDocument (strip : Bool) (stop : String) : Read String := do
  let s ← get
  let line := s.rest.takeWhile (· ≠ '\n')
  let below := (s.rest.drop line.length).drop 1
  let (body, rest) := splitDocument strip stop.toList (below.length + 1) below
  set { s with rest := line ++ '\n' :: rest }
  return String.ofList body

/-- The descriptor and the kind of a redirection, where one comes next.  The flag
tells whether tabs in front of the lines of a document mean nothing. -/
def redirectMark? : Read (Option (Nat × RedirectKind × Bool)) := do
  let rest := (← get).rest
  let digits := rest.takeWhile Char.isDigit
  let given := String.ofList digits
  let marks : List (String × Nat × RedirectKind × Bool) :=
    [("<<-", 0, .document, true), ("<<", 0, .document, false), ("<&", 0, .duplicate, false),
      ("<", 0, .input, false), (">>", 1, .append, false), (">&", 1, .duplicate, false),
      (">|", 1, .output, false), (">", 1, .output, false)]
  match marks.find? fun m => m.1.toList.isPrefixOf (rest.drop digits.length) with
  | none => return none
  | some (mark, usual, kind, strip) =>
    if 1 < digits.length then return none
    skip (digits.length + mark.length)
    return some (given.toNat?.getD usual, kind, strip)

mutual

def dollar (quoted : Bool) : Nat → Read Part
  | 0 => fail .badSubstitution
  | fuel + 1 => do
    match (← get).rest with
    | '(' :: '(' :: rest =>
      match untilDouble rest.length 0 rest with
      | some inner =>
        skip (inner.length + 4)
        let outer ← get
        set { outer with rest := inner }
        let expression ← parts .never fuel
        set outer
        return .arithmetic (joinTexts expression)
      | none =>
        skip 1
        let c ← commandList [] fuel
        if ← take? ")" then return .command c quoted else unexpected (some ")")
    | '(' :: _ =>
      skip 1
      let c ← commandList [] fuel
      if ← take? ")" then return .command c quoted else unexpected (some ")")
    | '\x7b' :: rest =>
      skip 1
      let measures := rest.head? = some '#' && (rest.drop 1).head? ≠ some '\x7d'
      if measures then skip 1
      match ← paramName? with
      | none => fail .badSubstitution
      | some name =>
        if ← take? "\x7d" then
          return .param name (if measures then .length else .value) [] quoted
        else if measures then fail .badSubstitution
        else
          match ← paramUse with
          | none => if (← get).rest.isEmpty then fail .openBrace else fail .badSubstitution
          | some use =>
            let word ← parts (.brace (quoted && !use.cuts)) fuel
            if ← take? "\x7d" then return .param name use (joinTexts word) quoted
            else fail .openBrace
    | c :: _ =>
      if c.isDigit then
        skip 1
        return .param (String.singleton c) .value [] quoted
      else
        match ← paramName? with
        | some name => return .param name .value [] quoted
        | none => return .text "$" quoted
    | [] => return .text "$" quoted

def backquoted (quoted : Bool) : Nat → Read Part
  | 0 => fail .openQuote
  | fuel + 1 => do
    let inner ← takeWhile (· ≠ '\x60')
    if ← take? "\x60" then
      let outer ← get
      set { outer with rest := inner.toList }
      let c ← commandList [] fuel
      set outer
      return .command c quoted
    else fail .openBackquote

/-- The parts of a word up to where it ends. -/
def parts (stop : Until) : Nat → Read Word
  | 0 => fail .openQuote
  | fuel + 1 => do
    match (← get).rest with
    | [] => if stop = .doubleQuote then fail .openQuote else return []
    | c :: rest =>
      if stop.ends c then return []
      skip 1
      let p ←
        match c, rest with
        | '\\', '\n' :: _ =>
          skip 1
          pure (Part.text "" false)
        | '\\', d :: _ =>
          if stop.quoted && !"$\x60\"\\".toList.contains d then pure (Part.text "\\" true)
          else
            skip 1
            pure (Part.text (String.singleton d) true)
        | '\'', _ =>
          if stop.quoted then pure (Part.text "'" true)
          else pure (Part.text (← singleQuoted) true)
        | '"', _ =>
          if stop = .never then pure (Part.text "\"" true)
          else
            let inner ← parts .doubleQuote fuel
            skip 1
            return (.text "" true :: inner) ++ (← parts stop fuel)
        | '$', _ => dollar stop.quoted fuel
        | '\x60', _ => backquoted stop.quoted fuel
        | c, _ => pure (Part.text (String.singleton c) stop.quoted)
      return p :: (← parts stop fuel)

def word? : Nat → Read (Option Word)
  | 0 => return none
  | fuel + 1 => do
    skipBlanks (fuel + 1)
    match ← peek with
    | none => return none
    | some c =>
      if isMeta c then return none
      else
        let w ← parts .word fuel
        return some (joinTexts w)

def redirect? : Nat → Read (Option Redirect)
  | 0 => return none
  | fuel + 1 => do
    skipBlanks (fuel + 1)
    match ← redirectMark? with
    | none => return none
    | some (descriptor, kind, strip) =>
      match ← word? fuel with
      | none => unexpected none
      | some target =>
        if kind ≠ .document then return some (.mk descriptor kind target)
        else
          let quoted := target.any fun p => match p with
            | .text _ q => q
            | _ => false
          let stop := "".intercalate (target.map fun p => match p with
            | .text s _ => s
            | _ => "")
          let body ← takeDocument strip stop
          if quoted then return some (.mk descriptor kind [.text body true])
          else
            let outer ← get
            set { outer with rest := body.toList }
            let text ← parts .never fuel
            set outer
            return some (.mk descriptor kind (joinTexts text))

def redirects : Nat → Read (List Redirect)
  | 0 => return []
  | fuel + 1 => do
    match ← redirect? fuel with
    | none => return []
    | some r => return r :: (← redirects fuel)

/-- The rest of a simple command: its words and redirections. -/
def simpleRest : Nat → Read (List Word × List Redirect)
  | 0 => return ([], [])
  | fuel + 1 => do
    match ← redirect? fuel with
    | some r =>
      let (ws, rs) ← simpleRest fuel
      return (ws, r :: rs)
    | none =>
      match ← word? fuel with
      | none => return ([], [])
      | some w =>
        let (ws, rs) ← simpleRest fuel
        return (w :: ws, rs)

def expectWord (wanted : String) : Nat → Read Unit
  | 0 => pure ()
  | fuel + 1 => do
    skipLines (fuel + 1)
    let before ← get
    match ← word? fuel with
    | some [.text s false] =>
      if s ≠ wanted then
        set before
        unexpected (some wanted)
    | _ =>
      set before
      unexpected (some wanted)

/-- Commands of which there has to be one at least. -/
def someCommands (stop : List String) : Nat → Read Command
  | 0 => return .nothing
  | fuel + 1 => do
    match ← commandList stop fuel with
    | .nothing =>
      if (← get).rest.isEmpty then return .nothing else unexpected none
    | c => return c

def branchRest : Nat → Read (Command × Command)
  | 0 => return (.nothing, .nothing)
  | fuel + 1 => do
    expectWord "then" fuel
    let yes ← someCommands ["else", "elif", "fi"] fuel
    let before ← get
    match (← word? fuel).bind bareText? with
    | some "else" =>
      let no ← someCommands ["fi"] fuel
      expectWord "fi" fuel
      return (yes, no)
    | some "elif" =>
      let condition ← someCommands ["then"] fuel
      let (inner, other) ← branchRest fuel
      return (yes, .branch condition inner other)
    | some "fi" => return (yes, .nothing)
    | _ =>
      set before
      unexpected (some "fi")

def loopBody : Nat → Read Command
  | 0 => return .nothing
  | fuel + 1 => do
    expectWord "do" fuel
    let body ← someCommands ["done"] fuel
    expectWord "done" fuel
    return body

def loopWords : Nat → Read (List Word)
  | 0 => return []
  | fuel + 1 => do
    match ← word? fuel with
    | none => return []
    | some w => return w :: (← loopWords fuel)

def patterns : Nat → Read (List Word)
  | 0 => return []
  | fuel + 1 => do
    match ← word? fuel with
    | none => unexpected none
    | some w =>
      skipBlanks (fuel + 1)
      if ← take? "|" then return w :: (← patterns fuel) else return [w]

def arms : Nat → Read (List (List Word × Command))
  | 0 => return []
  | fuel + 1 => do
    skipLines (fuel + 1)
    let before ← get
    if (← word? fuel).bind bareText? = some "esac" then return []
    set before
    let _ ← take? "("
    let ps ← patterns fuel
    skipBlanks (fuel + 1)
    if !(← take? ")") then unexpected (some ")")
    let body ← commandList ["esac"] fuel
    skipLines (fuel + 1)
    let _ ← take? ";;"
    return (ps, body) :: (← arms fuel)

def commandOf (w : Word) (line : Nat) : Nat → Read Command
  | 0 => return .nothing
  | fuel + 1 => do
    match bareText? w with
    | some "if" =>
      let condition ← someCommands ["then"] fuel
      let (yes, no) ← branchRest fuel
      return .branch condition yes no
    | some "while" =>
      let condition ← someCommands ["do"] fuel
      return .repeated false condition (← loopBody fuel)
    | some "until" =>
      let condition ← someCommands ["do"] fuel
      return .repeated true condition (← loopBody fuel)
    | some "for" =>
      match (← word? fuel).bind bareText? with
      | none => fail .badLoopName
      | some name =>
        if !(name.toList.all isNameChar && name.toList.head?.any isNameStart) then
          fail .badLoopName
        skipLines (fuel + 1)
        let before ← get
        if (← word? fuel).bind bareText? = some "in" then
          let ws ← loopWords fuel
          let _ ← take? ";"
          return .each name (some ws) (← loopBody fuel)
        else
          set before
          let _ ← take? ";"
          return .each name none (← loopBody fuel)
    | some "case" =>
      match ← word? fuel with
      | none => unexpected none
      | some subject =>
        expectWord "in" fuel
        return .choose subject (← arms fuel)
    | some "\x7b" =>
      let body ← someCommands ["\x7d"] fuel
      expectWord "\x7d" fuel
      return .group body
    | bare =>
      let before ← get
      skipBlanks (fuel + 1)
      if (bare.any fun s => s.toList.all isNameChar) && (← take? "(") then
        skipBlanks (fuel + 1)
        if !(← take? ")") then unexpected (some ")")
        skipLines (fuel + 1)
        return .define (bare.getD "") (← command fuel)
      else
        set before
        let (ws, rs) ← simpleRest fuel
        return .simple line (w :: ws) rs

def command : Nat → Read Command
  | 0 => return .nothing
  | fuel + 1 => do
    skipBlanks (fuel + 1)
    let line := (← get).line
    if ← take? "(" then
      let body ← someCommands [] fuel
      if !(← take? ")") then unexpected (some ")")
      return .redirected (.subshell body) (← redirects fuel)
    let front ← redirects fuel
    let before ← get
    match ← word? fuel with
    | none => if front.isEmpty then unexpected none else return .simple line [] front
    | some w =>
      if (bareText? w).any dividers.contains then
        set before
        unexpected none
      match ← commandOf w line fuel with
      | .simple line ws rs => return .simple line ws (front ++ rs)
      | c => return .redirected c (front ++ (← redirects fuel))

def pipeline : Nat → Read Command
  | 0 => return .nothing
  | fuel + 1 => do
    skipBlanks (fuel + 1)
    let before ← get
    if (← word? fuel).bind bareText? = some "!" then
      return .negated (← pipeline fuel)
    set before
    let left ← command fuel
    skipBlanks (fuel + 1)
    match (← get).rest with
    | '|' :: '|' :: _ => return left
    | '|' :: _ =>
      skip 1
      skipLines (fuel + 1)
      return .pipe left (← pipeline fuel)
    | _ => return left

/-- What follows a pipeline that depends on its success. -/
def conditional (left : Command) : Nat → Read Command
  | 0 => return left
  | fuel + 1 => do
    skipBlanks (fuel + 1)
    if ← take? "&&" then
      skipLines (fuel + 1)
      conditional (.both left (← pipeline fuel)) fuel
    else if ← take? "||" then
      skipLines (fuel + 1)
      conditional (.either left (← pipeline fuel)) fuel
    else return left

def commandLine (stop : List String) : Nat → Read Command
  | 0 => return .nothing
  | fuel + 1 => do
    let first ← conditional (← pipeline fuel) fuel
    skipBlanks (fuel + 1)
    let (ended, first) ←
      match (← get).rest with
      | ';' :: ';' :: _ => pure (false, first)
      | ';' :: _ =>
        skip 1
        pure (true, first)
      | '&' :: _ =>
        skip 1
        pure (true, Command.background first)
      | _ => pure (false, first)
    if !ended then return first
    skipBlanks (fuel + 1)
    let before ← get
    match before.rest with
    | [] => return first
    | c :: _ =>
      if c = '\n' || c = ')' then return first
      let bare := (← word? fuel).bind bareText?
      set before
      if bare.any stop.contains then return first
      return .sequence first (← commandLine stop fuel)

/-- Commands over several lines, up to a word that ends them, a parenthesis, or
the end of the text. -/
def commandList (stop : List String) : Nat → Read Command
  | 0 => return .nothing
  | fuel + 1 => do
    skipLines (fuel + 1)
    let before ← get
    match before.rest with
    | [] => return .nothing
    | ')' :: _ => return .nothing
    | ';' :: ';' :: _ => return .nothing
    | _ =>
      let bare := (← word? fuel).bind bareText?
      set before
      if bare.any stop.contains then return .nothing
      let first ← commandLine stop fuel
      match ← commandList stop fuel with
      | .nothing => return first
      | rest => return .sequence first rest

end

/-- A text that is assigned to a name by a word, and the parts of the word behind
the sign. -/
def assignment? : Word → Option (String × Word)
  | .text s false :: rest =>
    let name := s.toList.takeWhile isNameChar
    match s.toList.drop name.length with
    | '=' :: value =>
      if name.head?.any isNameStart then
        some (String.ofList name,
          if value.isEmpty then rest else .text (String.ofList value) false :: rest)
      else none
    | _ => none
  | _ => none

/-- The assignments in front of the words of a command, and the words. -/
def splitAssignments : List Word → List (String × Word) × List Word
  | [] => ([], [])
  | w :: ws =>
    match assignment? w with
    | some a =>
      let (as, ws) := splitAssignments ws
      (a :: as, ws)
    | none => ([], w :: ws)

/-- The commands of the next line of a script, and what follows; nothing when only
blanks are left. -/
def nextLine (s : Source) : Except (Nat × SyntaxFault) (Option (Command × Source)) :=
  let fuel := 2 * s.rest.length + 8
  let read : Read (Option Command) := do
    skipLines fuel
    match (← get).rest with
    | [] => return none
    | _ =>
      let c ← commandLine [] fuel
      skipBlanks fuel
      match (← get).rest with
      | [] => return some c
      | '\n' :: _ => return some c
      | _ => unexpected none
  match read.run s with
  | .error e => .error e
  | .ok (none, _) => .ok none
  | .ok (some c, s) => .ok (some (c, s))

end Shell
end JobGate
