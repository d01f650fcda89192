/-
Instants as text, in the notation of RFC 3339.

Written out, an instant is in Universal Time, with a fraction of no, three, six
or nine digits, the fewest that lose nothing.  A year outside 0 to 9999 carries
a sign.  Reading accepts more: an offset other than zero, blanks between the
parts, one digit where two are written, and a space for the letter `T`.
-/
import JobGate.Text.Blank
import JobGate.Time.Calendar
import JobGate.Time.Instant

namespace JobGate
namespace Rfc3339

/-- The decimal digits of a number, with zeros in front up to a width. -/
def padded (width n : Nat) : List Char :=
  let digits := (Nat.repr n).toList
  List.replicate (width - digits.length) '0' ++ digits

/-- A year: four digits, or a sign and at least four digits. -/
def year (y : Int) : List Char :=
  if 0 ≤ y ∧ y ≤ 9999 then padded 4 y.toNat
  else if y < 0 then '-' :: padded 4 (-y).toNat
  else '+' :: padded 4 y.toNat

/-- A fraction of a second, with its point. -/
def fraction (nanos : Nat) : List Char :=
  if nanos = 0 then []
  else if nanos % 1000000 = 0 then '.' :: padded 3 (nanos / 1000000)
  else if nanos % 1000 = 0 then '.' :: padded 6 (nanos / 1000)
  else '.' :: padded 9 nanos

/-- An instant without its offset.  A leap second is second number 60. -/
def civil (t : Instant) : List Char :=
  let date := CivilDate.ofDays (t.seconds / 86400)
  let inDay := (t.seconds % 86400).toNat
  let leap := decide (Duration.perSecond ≤ t.nanos)
  let second := inDay % 60 + if leap then 1 else 0
  let nanos := if leap then t.nanos - Duration.perSecond else t.nanos
  year date.year ++ '-' :: padded 2 date.month ++ '-' :: padded 2 date.day ++
    'T' :: padded 2 (inDay / 3600) ++ ':' :: padded 2 (inDay / 60 % 60) ++
    ':' :: padded 2 second ++ fraction nanos

/-- The form used in records: the offset is written `Z`. -/
def zulu (t : Instant) : String := String.ofList (civil t ++ ['Z'])

/-- The form used in messages: the offset is written `+00:00`. -/
def withOffset (t : Instant) : String := String.ofList (civil t ++ "+00:00".toList)

/-! ## Reading

A reader takes the text and gives back what it read with the rest of the text. -/

/-- The number that a list of decimal digits stands for. -/
def number (digits : List Char) : Nat :=
  digits.foldl (fun n c => n * 10 + (c.toNat - 48)) 0

def digits? (width : Nat) (cs : List Char) : Option (List Char × List Char) :=
  let run := (cs.take width).takeWhile Char.isDigit
  if run.isEmpty then none else some (run, cs.drop run.length)

def skipBlanks (cs : List Char) : List Char := cs.dropWhile Text.isBlank

def mark? (c : Char) (cs : List Char) : Option (List Char) :=
  match skipBlanks cs with
  | d :: rest => if d = c then some rest else none
  | [] => none

def two? (cs : List Char) : Option (Nat × List Char) := do
  let (digits, rest) ← digits? 2 (skipBlanks cs)
  return (number digits, rest)

/-- A year: up to four digits, or a sign and any number of digits. -/
def year? (cs : List Char) : Option (Int × List Char) :=
  match skipBlanks cs with
  | '-' :: rest => do
    let (digits, rest) ← digits? rest.length rest
    return (-(number digits : Int), rest)
  | '+' :: rest => do
    let (digits, rest) ← digits? rest.length rest
    return ((number digits : Int), rest)
  | rest => do
    let (digits, rest) ← digits? 4 rest
    return ((number digits : Int), rest)

/-- A fraction in nanoseconds.  Digits after the ninth are dropped. -/
def fraction? (cs : List Char) : Option (Nat × List Char) :=
  match cs with
  | '.' :: rest => do
    let (digits, rest) ← digits? 9 rest
    return (number digits * Nat.pow 10 (9 - digits.length), rest.dropWhile Char.isDigit)
  | _ => some (0, cs)

/-- The sign of an offset; `true` is west of Greenwich. -/
def sign? : List Char → Option (Bool × List Char)
  | '+' :: rest => some (false, rest)
  | '-' :: rest => some (true, rest)
  | '\u2212' :: rest => some (true, rest)
  | _ => none

/-- An offset in seconds: `Z`, `UTC`, or hours and minutes of two digits each,
with colons or blanks or nothing between them. -/
def offset? (cs : List Char) : Option (Int × List Char) :=
  match cs with
  | 'Z' :: rest => some (0, rest)
  | 'z' :: rest => some (0, rest)
  | _ =>
    if (cs.take 3).map Char.toUpper = ['U', 'T', 'C'] then some (0, cs.drop 3)
    else do
      let (west, rest) ← sign? cs
      match rest with
      | h1 :: h2 :: rest =>
        match rest.dropWhile (fun c => c = ':' || Text.isBlank c) with
        | m1 :: m2 :: rest =>
          if h1.isDigit && h2.isDigit && m1.isDigit && m2.isDigit && m1.toNat < 54 then
            let seconds : Int := (number [h1, h2] * 3600 + number [m1, m2] * 60 : Nat)
            some (if west then -seconds else seconds, rest)
          else none
        | _ => none
      | _ => none

/-- The letter or blank between a date and a time. -/
def separator? : List Char → Option (List Char)
  | 'T' :: rest => some rest
  | 't' :: rest => some rest
  | ' ' :: rest => some rest
  | _ => none

/-- The instant that a date, a time of day and an offset name.  Second number 60
is a leap second after second 59. -/
def assemble? (date : CivilDate) (hour minute second nanos : Nat) (offset : Int) :
    Option Instant :=
  if date.exists? && hour < 24 && minute < 60 && second ≤ 60 && offset.natAbs < 86400 then
    let (second, nanos) :=
      if second = 60 then (59, nanos + Duration.perSecond) else (second, nanos)
    Instant.ofUnix? (date.toDays * 86400 + (hour * 3600 + minute * 60 + second : Nat) - offset)
      nanos
  else none

/-- Reads an instant.  Nothing may follow the offset. -/
def parse? (text : String) : Option Instant := do
  let (year, cs) ← year? text.toList
  let (month, cs) ← two? (← mark? '-' cs)
  let (day, cs) ← two? (← mark? '-' cs)
  let (hour, cs) ← two? (← separator? cs)
  let (minute, cs) ← two? (← mark? ':' cs)
  let (second, cs) ← two? (← mark? ':' cs)
  let (nanos, cs) ← fraction? cs
  let (offset, rest) ← offset? (skipBlanks cs)
  if rest.isEmpty then assemble? ⟨year, month, day⟩ hour minute second nanos offset else none

end Rfc3339
end JobGate
