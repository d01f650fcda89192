/-
Text printed by formats and with escapes.

What is printed is bytes, since an escape can stand for any byte.  The programs
know more escapes than the commands that are part of the shell.
-/
import JobGate.Shell.Arithmetic

namespace JobGate
namespace Shell
namespace Format

def bytesOf (c : Char) : List UInt8 := (String.singleton c).toUTF8.toList

def encode (s : String) : List UInt8 := s.toUTF8.toList

structure Dialect where
  /-- Bytes may be written in hexadecimal. -/
  hexadecimal : Bool
  /-- A quote may be escaped. -/
  quotes : Bool
  /-- An octal number has a zero in front that does not count. -/
  octalZero : Bool

def shellFormat : Dialect := ⟨false, false, false⟩

def shellText : Dialect := ⟨false, false, true⟩

def programFormat : Dialect := ⟨true, true, false⟩

def programText : Dialect := ⟨true, false, true⟩

/-- What stands behind a backslash. -/
inductive Escaped
  | bytes (bytes : List UInt8) (rest : List Char)
  /-- Nothing more is printed. -/
  | stop

def letter? (c : Char) : Option UInt8 :=
  match c with
  | 'a' => some 7
  | 'b' => some 8
  | 'e' => some 27
  | 't' => some 9
  | 'n' => some 10
  | 'v' => some 11
  | 'f' => some 12
  | 'r' => some 13
  | '\\' => some 92
  | _ => none

def isOctal (c : Char) : Bool := '0' ≤ c && c ≤ '7'

def number (base : Nat) (digits : List Char) : Nat :=
  (Arithmetic.digits? base digits).getD 0

def escape (d : Dialect) (cs : List Char) : Escaped :=
  match cs with
  | [] => .bytes [92] []
  | 'c' :: _ => .stop
  | c :: rest =>
    match letter? c with
    | some b => .bytes [b] rest
    | none =>
      if c = '"' && d.quotes then .bytes [34] rest
      else if c = 'x' && d.hexadecimal then
        let digits := (rest.take 2).takeWhile fun c => (Arithmetic.digitValue? c).isSome
        if digits.isEmpty then .bytes [92, 120] rest
        else .bytes [UInt8.ofNat (number 16 digits)] (rest.drop digits.length)
      else if isOctal c then
        let tail := if d.octalZero then rest else cs
        if d.octalZero && c ≠ '0' then .bytes (92 :: bytesOf c) rest
        else
          let digits := (tail.take 3).takeWhile isOctal
          .bytes [UInt8.ofNat (number 8 digits)] (tail.drop digits.length)
      else .bytes (92 :: bytesOf c) rest

/-- What was printed, and whether printing was stopped by an escape. -/
structure Printed where
  bytes : List UInt8 := []
  stopped : Bool := false

def printEscaped (d : Dialect) : Nat → List Char → Printed
  | 0, _ => {}
  | _, [] => {}
  | fuel + 1, '\\' :: rest =>
    match escape d rest with
    | .stop => { stopped := true }
    | .bytes bs rest =>
      let p := printEscaped d fuel rest
      { p with bytes := bs ++ p.bytes }
  | fuel + 1, c :: rest =>
    let p := printEscaped d fuel rest
    { p with bytes := bytesOf c ++ p.bytes }

/-- A directive of a format. -/
structure Directive where
  flags : List Char := []
  width : Nat := 0
  precision : Option Nat := none

namespace Directive

def has (d : Directive) (c : Char) : Bool := d.flags.contains c

def fill (d : Directive) (bytes : List UInt8) : List UInt8 :=
  let blanks := List.replicate (d.width - bytes.length) (32 : UInt8)
  if d.has '-' then bytes ++ blanks else blanks ++ bytes

/-- A number with its sign, filled up to the width. -/
def number (d : Directive) (sign digits : String) : List UInt8 :=
  let digits :=
    match d.precision with
    | some p => "".pushn '0' (p - digits.length) ++ digits
    | none =>
      if d.has '0' && !d.has '-' then
        "".pushn '0' (d.width - digits.length - sign.length) ++ digits
      else digits
  d.fill (encode (sign ++ digits))

/-- A text, cut where a precision is given. -/
def text (d : Directive) (bytes : List UInt8) : List UInt8 :=
  d.fill (match d.precision with
    | some p => bytes.take p
    | none => bytes)

end Directive

/-- What is wrong with a format or its arguments. -/
inductive Fault
  | noNumber (argument : String)
  /-- There is more in the argument than a number. -/
  | excess (argument : String)
  | noDirective (text : String)
deriving DecidableEq, Repr

def Fault.message : Fault → String
  | noNumber a => a ++ ": expected numeric value"
  | excess a => a ++ ": not completely converted"
  | noDirective "" => "missing format character"
  | noDirective text => "%" ++ text ++ ": invalid directive"

def Fault.programMessage : Fault → String
  | noNumber a => "'" ++ a ++ "': expected a numeric value"
  | excess a => "'" ++ a ++ "': value not completely converted"
  | noDirective text => "%" ++ text ++ ": invalid conversion specification"

def Fault.isFatal : Fault → Bool
  | noDirective _ => true
  | _ => false

/-- The number in an argument, and what is wrong with it. -/
def argument (s : String) : Int × Option Fault :=
  match s.toList.dropWhile (· = ' ') with
  | [] => (0, if s.isEmpty then none else some (.noNumber s))
  | '\'' :: rest | '"' :: rest => ((rest.head?.map fun c => (c.toNat : Int)).getD 0, none)
  | cs =>
    let (negative, digits) :=
      match cs with
      | '-' :: r => (true, r)
      | '+' :: r => (false, r)
      | r => (false, r)
    let (base, digits) :=
      match digits with
      | '0' :: 'x' :: r | '0' :: 'X' :: r => (16, r)
      | '0' :: r => (8, '0' :: r)
      | r => (10, r)
    let good := digits.takeWhile fun c => (Arithmetic.digitValue? c).any (· < base)
    let n : Int := Format.number base good
    let n := if negative then -n else n
    if good.isEmpty then (0, some (.noNumber s))
    else if good.length < digits.length then (n, some (.excess s))
    else (n, none)

/-- A format under way: the arguments that are left, whether any was used, what was
printed and what went wrong. -/
structure State where
  args : List String
  used : Bool := false
  bytes : List UInt8 := []
  faults : List Fault := []
  stopped : Bool := false

namespace State

def next (s : State) : String × State :=
  match s.args with
  | [] => ("", s)
  | a :: rest => (a, { s with args := rest, used := true })

def nextNumber (s : State) : Int × State :=
  let (a, s) := s.next
  let (n, fault) := argument a
  (n, { s with faults := s.faults ++ fault.toList })

def print (s : State) (bytes : List UInt8) : State := { s with bytes := s.bytes ++ bytes }

end State

/-- The number that stands in a directive, or the next argument for a star. -/
def size (cs : List Char) (s : State) : Option Nat × List Char × State :=
  match cs with
  | '*' :: rest =>
    let (n, s) := s.nextNumber
    (some n.toNat, rest, s)
  | cs =>
    let digits := cs.takeWhile Char.isDigit
    (if digits.isEmpty then none else some (number 10 digits), cs.drop digits.length, s)

def digitsOf (base n : Nat) (upper : Bool) : String :=
  let s := String.ofList (Nat.toDigits base n)
  if upper then s.map Char.toUpper else s

/-- Prints the next argument as a directive asks for; nothing where there is no such
directive. -/
def convert (dialect : Dialect) (d : Directive) (c : Char) (s : State) : Option State :=
  match c with
  | 's' =>
    let (a, s) := s.next
    some (s.print (d.text (encode a)))
  | 'b' =>
    let (a, s) := s.next
    let p := printEscaped { dialect with octalZero := true } (a.length + 1) a.toList
    some { s.print (d.text p.bytes) with stopped := p.stopped }
  | 'c' =>
    let (a, s) := s.next
    some (s.print (d.fill ((encode a).take 1)))
  | 'd' | 'i' =>
    let (n, s) := s.nextNumber
    let sign := if n < 0 then "-" else if d.has '+' then "+" else if d.has ' ' then " " else ""
    some (s.print (d.number sign (toString n.natAbs)))
  | 'u' =>
    let (n, s) := s.nextNumber
    some (s.print (d.number "" (toString (Arithmetic.bits n))))
  | 'o' =>
    let (n, s) := s.nextNumber
    some (s.print (d.number (if d.has '#' then "0" else "")
      (digitsOf 8 (Arithmetic.bits n) false)))
  | 'x' =>
    let (n, s) := s.nextNumber
    some (s.print (d.number (if d.has '#' then "0x" else "")
      (digitsOf 16 (Arithmetic.bits n) false)))
  | 'X' =>
    let (n, s) := s.nextNumber
    some (s.print (d.number (if d.has '#' then "0X" else "")
      (digitsOf 16 (Arithmetic.bits n) true)))
  | _ => none

def once (dialect : Dialect) : Nat → List Char → State → State
  | 0, _, s => s
  | _, [], s => s
  | fuel + 1, '\\' :: rest, s =>
    match escape dialect rest with
    | .stop => { s with stopped := true }
    | .bytes bs rest => once dialect fuel rest (s.print bs)
  | fuel + 1, '%' :: '%' :: rest, s => once dialect fuel rest (s.print [37])
  | fuel + 1, '%' :: rest, s =>
    let flags := rest.takeWhile "#-+ 0".toList.contains
    let (width, rest, s) := size (rest.drop flags.length) s
    let (precision, rest, s) :=
      match rest with
      | '.' :: rest =>
        let (p, rest, s) := size rest s
        (some (p.getD 0), rest, s)
      | rest => (none, rest, s)
    let d : Directive := ⟨flags, width.getD 0, precision⟩
    match rest with
    | [] => { s with faults := s.faults ++ [.noDirective ""], stopped := true }
    | c :: rest =>
      match convert dialect d c s with
      | none => { s with
          faults := s.faults ++ [.noDirective (String.singleton c)]
          stopped := true }
      | some s => if s.stopped then s else once dialect fuel rest s
  | fuel + 1, c :: rest, s => once dialect fuel rest (s.print (bytesOf c))

/-- Prints a format again and again until all arguments are used. -/
def repeated (dialect : Dialect) (format : List Char) : Nat → State → State
  | 0, s => s
  | rounds + 1, s =>
    let s := once dialect (format.length + 1) format { s with used := false }
    if s.stopped || s.args.isEmpty || !s.used then s else repeated dialect format rounds s

/-- Prints arguments as a format asks for: the bytes, and what went wrong. -/
def print (dialect : Dialect) (format : String) (args : List String) : List UInt8 × List Fault :=
  let s := repeated dialect format.toList (args.length + 1) { args }
  (s.bytes, s.faults)

end Format
end Shell
end JobGate
