/-
The programs that a script can call, as functions.

A program gets its arguments, its environment and what stands ready to be read,
and answers what it prints, how it ends, and what of its input it leaves.
-/
import JobGate.Shell.Condition
import JobGate.Shell.Format

namespace JobGate
namespace Shell

/-- How a program is called. -/
structure Call where
  name : String
  args : List String
  environment : List (String × String)
  directory : Host.Names
  input : List UInt8
  /-- What stands in a file, or why it cannot be read.  Of a source without an end
  as much is read as is asked for. -/
  read : String → Nat → Except String (List UInt8)

structure Effect where
  output : List UInt8 := []
  errors : List UInt8 := []
  status : Nat := 0
  /-- What is left of the input. -/
  input : List UInt8 := []

namespace Effect

def print (s : String) : Effect := { output := Format.encode s }

def fail (status : Nat) (s : String) : Effect :=
  { errors := Format.encode (s ++ "\n"), status }

def misuse (name message : String) : Effect :=
  fail 1 (name ++ ": " ++ message ++ "\nTry '" ++ name ++ " --help' for more information.")

end Effect

namespace Tools

/-- How much is read of a source without an end when nobody says how much. -/
def endless : Nat := 100000

def lineFeed : UInt8 := 10

def splitLines (bytes : List UInt8) : List (List UInt8) :=
  let (last, lines) := bytes.foldl (fun (s : List UInt8 × List (List UInt8)) b =>
    if b = lineFeed then ([], (b :: s.1).reverse :: s.2) else (b :: s.1, s.2)) ([], [])
  (if last.isEmpty then lines else last.reverse :: lines).reverse

/-- The contents of files, or of the input where none is named. -/
def contents (c : Call) (paths : List String) (limit : Nat) :
    List UInt8 × List String × List UInt8 :=
  if paths.isEmpty then (c.input, [], [])
  else
    paths.foldl (fun (bytes, faults, input) path =>
      if path = "-" then (bytes ++ input, faults, [])
      else
        match c.read path limit with
        | .ok more => (bytes ++ more, faults, input)
        | .error fault => (bytes, faults ++ [c.name ++ ": " ++ path ++ ": " ++ fault], input))
      ([], [], c.input)

/-- The effect of printing, with messages about what went wrong. -/
def printed (output : List UInt8) (faults : List String) (input : List UInt8) : Effect where
  output := output
  errors := faults.flatMap fun f => Format.encode (f ++ "\n")
  status := if faults.isEmpty then 0 else 1
  input := input

def echo (c : Call) : Effect :=
  let isOption (a : String) := a.toList.head? = some '-' && 2 ≤ a.length &&
    (a.toList.drop 1).all "neE".toList.contains
  let options := c.args.takeWhile isOption
  let marks := options.flatMap (·.toList)
  let text := " ".intercalate (c.args.drop options.length)
  let p := if (marks.filter fun m => m = 'e' || m = 'E').getLast? = some 'e' then
      Format.printEscaped Format.programText (text.length + 1) text.toList
    else { bytes := Format.encode text }
  { output := p.bytes ++ (if marks.contains 'n' || p.stopped then [] else [lineFeed])
    input := c.input }

def printf (c : Call) : Effect :=
  match c.args with
  | [] => Effect.misuse c.name "missing operand"
  | "--" :: format :: args | format :: args =>
    let (output, faults) := Format.print Format.programFormat format args
    printed output (faults.map fun f => c.name ++ ": " ++ f.programMessage) c.input

/-- Waits, which takes no time here. -/
def sleep (c : Call) : Effect :=
  let isInterval (a : String) : Bool :=
    let cs := a.toList
    let digits := cs.takeWhile fun d => d.isDigit || d = '.'
    digits.any Char.isDigit && digits.count '.' ≤ 1 &&
      [[], ['s'], ['m'], ['h'], ['d']].contains (cs.drop digits.length)
  if c.args.isEmpty then Effect.misuse c.name "missing operand"
  else
    match c.args.find? (!isInterval ·) with
    | some a => Effect.misuse c.name ("invalid time interval '" ++ a ++ "'")
    | none => {}

/-- A count in an option: of lines or of bytes, from the start or from the other
end. -/
structure Extent where
  lines : Bool := true
  count : Nat := 10
  flipped : Bool := false
  paths : List String := []

/-- The count in a text, with a mark that flips it. -/
def countOf (mark : Char) (s : String) : Nat × Bool :=
  match s.toList with
  | c :: rest =>
    if c = mark then (Format.number 10 rest, true) else (Format.number 10 (c :: rest), false)
  | [] => (0, false)

def extent (mark : Char) (e : Extent) : List String → Extent
  | [] => e
  | "-n" :: n :: rest =>
    let (count, flipped) := countOf mark n
    extent mark { e with lines := true, count, flipped } rest
  | "-c" :: n :: rest =>
    let (count, flipped) := countOf mark n
    extent mark { e with lines := false, count, flipped } rest
  | a :: rest =>
    match a.toList with
    | '-' :: 'n' :: n =>
      let (count, flipped) := countOf mark (String.ofList n)
      extent mark { e with lines := true, count, flipped } rest
    | '-' :: 'c' :: n =>
      let (count, flipped) := countOf mark (String.ofList n)
      extent mark { e with lines := false, count, flipped } rest
    | '-' :: d :: n =>
      if d.isDigit then extent mark { e with count := Format.number 10 (d :: n) } rest
      else extent mark { e with paths := e.paths ++ [a] } rest
    | _ => extent mark { e with paths := e.paths ++ [a] } rest

def head (c : Call) : Effect :=
  let e := extent '-' {} c.args
  let limit := if e.lines || e.flipped then endless else e.count
  let (bytes, faults, input) := contents c e.paths limit
  let cut {α : Type} (l : List α) : List α :=
    l.take (if e.flipped then l.length - e.count else e.count)
  printed (if e.lines then (cut (splitLines bytes)).flatten else cut bytes) faults input

def tail (c : Call) : Effect :=
  let e := extent '+' {} c.args
  let (bytes, faults, input) := contents c e.paths endless
  let cut {α : Type} (l : List α) : List α :=
    l.drop (if e.flipped then e.count - 1 else l.length - e.count)
  printed (if e.lines then (cut (splitLines bytes)).flatten else cut bytes) faults input

def cat (c : Call) : Effect :=
  let (bytes, faults, input) := contents c c.args endless
  printed bytes faults input

def byteClass? (name : String) : Option (List Nat) :=
  let all := List.range 256
  let is (f : Char → Bool) := all.filter fun n => n < 128 && f (Char.ofNat n)
  match name with
  | "upper" => some (is Char.isUpper)
  | "lower" => some (is Char.isLower)
  | "alpha" => some (is Char.isAlpha)
  | "digit" => some (is Char.isDigit)
  | "alnum" => some (is Char.isAlphanum)
  | "space" => some (all.filter fun n => n = 32 || (9 ≤ n && n ≤ 13))
  | "blank" => some [9, 32]
  | _ => none

/-- The bytes of a set: its elements, ranges and classes in order. -/
def byteSet : Nat → List UInt8 → List Nat
  | 0, _ => []
  | _, [] => []
  | fuel + 1, 91 :: 58 :: rest =>
    let name := rest.takeWhile (· ≠ 58)
    match byteClass? (String.ofList (name.map fun b => Char.ofNat b.toNat)) with
    | some bytes => bytes ++ byteSet fuel (rest.drop (name.length + 2))
    | none => 91 :: byteSet fuel (58 :: rest)
  | fuel + 1, a :: 45 :: b :: rest =>
    ((List.range 256).filter fun n => a.toNat ≤ n && n ≤ b.toNat) ++ byteSet fuel rest
  | fuel + 1, a :: rest => a.toNat :: byteSet fuel rest

def bytesOfSet (s : String) : List Nat :=
  let p := Format.printEscaped Format.programFormat (s.length + 1) s.toList
  byteSet (p.bytes.length + 1) p.bytes

/-- Leaves one of every stretch of equal bytes of a set. -/
def squeeze (set : List Nat) : List UInt8 → List UInt8
  | a :: b :: rest =>
    if a = b && set.contains a.toNat then squeeze set (b :: rest)
    else a :: squeeze set (b :: rest)
  | bytes => bytes

def tr (c : Call) : Effect :=
  let isOption (a : String) := a.toList.head? = some '-' && 2 ≤ a.length
  let options := (c.args.takeWhile isOption).flatMap (·.toList.drop 1)
  let deletes := options.contains 'd'
  match c.args.dropWhile isOption with
  | [] => Effect.misuse c.name "missing operand"
  | first :: more =>
    if more.isEmpty && !deletes && !options.contains 's' then
      Effect.misuse c.name ("missing operand after '" ++ first ++ "'")
    else if 1 < more.length then
      Effect.misuse c.name ("extra operand '" ++ (more[1]?.getD "") ++ "'")
    else
    let set := bytesOfSet first
    let set := if options.contains 'c' || options.contains 'C' then
        (List.range 256).filter (!set.contains ·)
      else set
    let target := (more.head?.map bytesOfSet).getD []
    let same := (Array.range 256).map UInt8.ofNat
    let table :=
      match target.getLast? with
      | some last =>
        set.zipIdx.foldl (fun (t : Array UInt8) (e : Nat × Nat) =>
          t.setIfInBounds e.1 (UInt8.ofNat (target[e.2]?.getD last))) same
      | none => same
    let bytes := if deletes then c.input.filter fun b => !set.contains b.toNat
      else c.input.map fun b => table[b.toNat]?.getD b
    let bytes := if options.contains 's' then squeeze (if target.isEmpty then set else target) bytes
      else bytes
    { output := bytes }

def wc (c : Call) : Effect :=
  let isOption (a : String) := a.toList.head? = some '-' && 2 ≤ a.length
  let options := (c.args.filter isOption).flatMap (·.toList.drop 1)
  let paths := c.args.filter (!isOption ·)
  let (bytes, faults, input) := contents c paths endless
  let isBlank (b : UInt8) : Bool := b = 32 || (9 ≤ b && b ≤ 13)
  let words := (bytes.foldl (fun (s : Nat × Bool) b =>
    if isBlank b then (s.1, false) else (if s.2 then s.1 else s.1 + 1, true)) (0, false)).1
  let counts := [('l', bytes.count lineFeed), ('w', words), ('c', bytes.length)]
  let wanted := if options.isEmpty then counts else counts.filter fun x => options.contains x.1
  let pad (n : Nat) : String :=
    let s := toString n
    if wanted.length = 1 then s else "".pushn ' ' (7 - s.length) ++ s
  let text := " ".intercalate (wanted.map fun x => pad x.2) ++
    "".intercalate (paths.map (" " ++ ·)) ++ "\n"
  printed (Format.encode text) faults input

def countUp (step last : Int) : Nat → Int → List Int
  | 0, _ => []
  | fuel + 1, n =>
    if (0 < step && last < n) || (step < 0 && n < last) || step = 0 then []
    else n :: countUp step last fuel (n + step)

def seq (c : Call) : Effect :=
  let print (first step last : Int) : Effect :=
    let count := if step = 0 then 0 else ((last - first) / step).toNat + 1
    Effect.print ("".intercalate ((countUp step last count first).map fun n => toString n ++ "\n"))
  let isNumber (a : String) : Bool := (Condition.number? a).toOption.isSome
  match c.args.mapM fun a => (Condition.number? a).toOption with
  | some [] => Effect.misuse c.name "missing operand"
  | some [last] => print 1 1 last
  | some [first, last] => print first 1 last
  | some [first, step, last] => print first step last
  | some (_ :: _ :: _ :: a :: _) =>
    Effect.misuse c.name ("extra operand '" ++ toString a ++ "'")
  | none =>
    let wrong := (c.args.find? (!isNumber ·)).getD ""
    Effect.misuse c.name ("invalid floating point argument: '" ++ wrong ++ "'")

def lastName (path : String) : String :=
  match ((path.splitOn "/").filter (!·.isEmpty)).getLast? with
  | some name => name
  | none => if path.isEmpty then "" else "/"

/-- Prints the last name of a path, without an ending. -/
def basename (c : Call) : Effect :=
  match c.args with
  | path :: more =>
    let name := lastName path
    let ending := more.headD ""
    let short := if name ≠ ending && ending.toList.isSuffixOf name.toList then
        String.ofList (name.toList.take (name.length - ending.length))
      else name
    Effect.print (short ++ "\n")
  | [] => Effect.misuse c.name "missing operand"

def dirname (c : Call) : Effect :=
  match c.args with
  | path :: _ =>
    let cs := (path.toList.reverse.dropWhile (· = '/')).dropWhile (· ≠ '/')
    let above := (cs.dropWhile (· = '/')).reverse
    let answer := if !above.isEmpty then String.ofList above
      else if path.toList.head? = some '/' then "/" else "."
    Effect.print (answer ++ "\n")
  | [] => Effect.misuse c.name "missing operand"

def printenv (c : Call) : Effect :=
  if c.args.isEmpty then
    Effect.print ("".intercalate (c.environment.map fun (k, v) => k ++ "=" ++ v ++ "\n"))
  else
    let values := c.args.map fun name => c.environment.lookup name
    { Effect.print ("".intercalate (values.map fun v => (v.map (· ++ "\n")).getD "")) with
      status := if values.all Option.isSome then 0 else 1 }

/-- Repeats a line; as often as anybody will read. -/
def yes (c : Call) : Effect :=
  let line := Format.encode ((if c.args.isEmpty then "y" else " ".intercalate c.args) ++ "\n")
  { output := (List.replicate (endless / line.length) line).flatten, input := c.input }

def sort (c : Call) : Effect :=
  let isOption (a : String) := a.toList.head? = some '-' && 2 ≤ a.length
  let options := (c.args.filter isOption).flatMap (·.toList.drop 1)
  let (bytes, faults, input) := contents c (c.args.filter (!isOption ·)) endless
  let lines := (splitLines bytes).map fun l => l.filter (· ≠ lineFeed)
  let key (l : List UInt8) : Int :=
    (Format.argument (String.ofList (l.map fun b => Char.ofNat b.toNat))).1
  let byBytes (a b : List UInt8) : Bool := !List.lex (b.map UInt8.toNat) (a.map UInt8.toNat) Nat.blt
  let before (a b : List UInt8) : Bool :=
    if options.contains 'n' && key a ≠ key b then decide (key a ≤ key b) else byBytes a b
  let sorted := lines.mergeSort before
  let sorted := if options.contains 'r' then sorted.reverse else sorted
  let sorted := if options.contains 'u' then sorted.eraseDups else sorted
  printed (sorted.flatMap (· ++ [lineFeed])) faults input

/-- Says whether a condition holds.  In brackets the closing one comes last. -/
def condition (c : Call) : Effect :=
  let args? := if c.name = "[" then
      if c.args.getLast? = some "]" then some c.args.dropLast else none
    else some c.args
  match args? with
  | none => Effect.fail 2 (c.name ++ ": missing ']'")
  | some args =>
    match Condition.holds c.directory args with
    | .ok b => { status := if b then 0 else 1, input := c.input }
    | .error f => { Effect.fail 2 (c.name ++ ": " ++ f.message) with input := c.input }

/-- Sends a signal, which nobody but the sender could get. -/
def kill (c : Call) : Effect :=
  match c.args.find? fun a => a.toList.head? ≠ some '-' with
  | none =>
    Effect.fail 1 ("\nUsage:\n kill [options] <pid> [...]\n\n" ++
      "For more details see kill(1).")
  | some target => Effect.fail 1 ("kill: (" ++ target ++ "): No such process")

/-- What a program does, by its name; nothing where there is no such program or it
is not one of these. -/
def run? (c : Call) : Option Effect :=
  match c.name with
  | "true" => some { input := c.input }
  | "false" => some { status := 1, input := c.input }
  | "sleep" => some { sleep c with input := c.input }
  | "echo" => some (echo c)
  | "printf" => some (printf c)
  | "pwd" => some { Effect.print (Host.pathOf c.directory ++ "\n") with input := c.input }
  | "cat" => some (cat c)
  | "head" => some (head c)
  | "tail" => some (tail c)
  | "tr" => some (tr c)
  | "wc" => some (wc c)
  | "seq" => some { seq c with input := c.input }
  | "sort" => some (sort c)
  | "tee" => some { output := c.input }
  | "yes" => some (yes c)
  | "basename" => some { basename c with input := c.input }
  | "dirname" => some { dirname c with input := c.input }
  | "printenv" | "env" => some { printenv c with input := c.input }
  | "test" | "[" => some (condition c)
  | "kill" => some (kill c)
  | _ => none

end Tools
end Shell
end JobGate
