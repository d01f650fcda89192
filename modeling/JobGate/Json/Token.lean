/-
The tokens of a JSON text.

The text is read one character at a time, and `Mode` is what has been begun and
not yet ended.  A string whose escapes pair up surrogates wrongly is still a
string, so that it can be skipped; it only has no value, and its token holds
`none`.  Where the text cannot go on, the tokens end with `broken`.
-/
import JobGate.Json.Value

namespace JobGate
namespace Json

inductive Token
  | openArray
  | closeArray
  | openObject
  | closeObject
  | comma
  | colon
  | null
  | bool (b : Bool)
  | number (n : Number)
  | text (s : Option String)
  | broken
deriving DecidableEq, Repr

/-! ## Numbers -/

/-- The number that a list of decimal digits stands for. -/
def digitsValue (digits : List Char) : Nat :=
  digits.foldl (fun n c => n * 10 + (c.toNat - 48)) 0

/-- Splits off the digits at the start of a text. -/
def spanDigits (cs : List Char) : List Char × List Char :=
  (cs.takeWhile Char.isDigit, cs.dropWhile Char.isDigit)

/-- The exponent at the end of a number: a letter, a sign that may be missing,
and digits. -/
def exponent? : List Char → Option Int
  | [] => some 0
  | e :: rest =>
    if e = 'e' || e = 'E' then
      let (negative, digits) :=
        match rest with
        | '-' :: d => (true, d)
        | '+' :: d => (false, d)
        | d => (false, d)
      if digits.isEmpty || !digits.all Char.isDigit then none
      else
        let n : Int := digitsValue digits
        some (if negative then -n else n)
    else none

/-- The number that follows a sign.  An integer has no leading zero, and one
outside the range of 64 bits is kept as a decimal, as is minus zero. -/
def unsigned? (negative : Bool) (cs : List Char) : Option Number :=
  let (whole, rest) := spanDigits cs
  if whole.isEmpty || (whole.head? == some '0' && whole.length != 1) then none
  else
    match rest with
    | [] =>
      let n := digitsValue whole
      -- an integer is one that fits into 64 bits, with or without a sign
      if negative then
        if n = 0 || 9223372036854775808 < n then some (.decimal true n 0) else some (.integer (-n))
      else if 18446744073709551616 ≤ n then some (.decimal false n 0)
      else some (.integer n)
    | '.' :: rest =>
      let (part, rest) := spanDigits rest
      if part.isEmpty then none
      else
        (exponent? rest).map fun e =>
          .decimal negative (digitsValue (whole ++ part)) (e - part.length)
    | rest => (exponent? rest).map fun e => .decimal negative (digitsValue whole) e

def number? : List Char → Option Number
  | '-' :: cs => unsigned? true cs
  | cs => unsigned? false cs

/-! ## Reading characters -/

def hexValue? (c : Char) : Option Nat :=
  let n := c.toNat
  if 48 ≤ n ∧ n ≤ 57 then some (n - 48)
  else if 97 ≤ n ∧ n ≤ 102 then some (n - 87)
  else if 65 ≤ n ∧ n ≤ 70 then some (n - 55)
  else none

/-- What has been begun at some point of the text. -/
inductive Mode
  | between
  /-- A number or a word, backwards. -/
  | bare (chars : List Char)
  /-- A string: its characters backwards, whether it has a value so far, and
  the first half of a surrogate pair that the next escape has to complete. -/
  | quoted (chars : List Char) (sound : Bool) (high : Option Nat)
  /-- Behind a backslash. -/
  | escape (chars : List Char) (sound : Bool) (high : Option Nat)
  /-- Among the four digits of an escape: how many are missing, and their value
  so far. -/
  | unit (chars : List Char) (sound : Bool) (high : Option Nat) (missing value : Nat)
deriving DecidableEq, Repr

def bareToken (chars : List Char) : Token :=
  if chars = "null".toList then .null
  else if chars = "true".toList then .bool true
  else if chars = "false".toList then .bool false
  else
    match number? chars with
    | some n => .number n
    | none => .broken

def mark? : Char → Option Token
  | '[' => some .openArray
  | ']' => some .closeArray
  | '\x7b' => some .openObject
  | '\x7d' => some .closeObject
  | ',' => some .comma
  | ':' => some .colon
  | _ => none

def isSpace (c : Char) : Bool := c = ' ' || c = '\n' || c = '\t' || c = '\r'

def isBare (c : Char) : Bool := c.isAlphanum || c = '-' || c = '+' || c = '.'

def escaped? : Char → Option Char
  | '"' => some '"'
  | '\\' => some '\\'
  | '/' => some '/'
  | 'b' => some '\x08'
  | 'f' => some '\x0c'
  | 'n' => some '\n'
  | 'r' => some '\r'
  | 't' => some '\t'
  | _ => none

/-- A string after the four digits of an escape have given a code unit. -/
def takeUnit (chars : List Char) (sound : Bool) (high : Option Nat) (u : Nat) : Mode :=
  let isLow := decide (0xdc00 ≤ u ∧ u ≤ 0xdfff)
  let isHigh := decide (0xd800 ≤ u ∧ u ≤ 0xdbff)
  match high with
  | some h =>
    if isLow then
      .quoted (Char.ofNat (0x10000 + (h - 0xd800) * 0x400 + (u - 0xdc00)) :: chars) sound none
    else .quoted chars false none
  | none =>
    if isHigh then .quoted chars sound (some u)
    else if isLow then .quoted chars false none
    else .quoted (Char.ofNat u :: chars) sound none

def stepBetween (c : Char) : Option (List Token × Mode) :=
  if isSpace c then some ([], .between)
  else if c = '"' then some ([], .quoted [] true none)
  else if isBare c then some ([], .bare [c])
  else (mark? c).map fun t => ([t], .between)

/-- One character: the tokens it ends, the last first, and the mode behind it.
`none` where the text cannot go on. -/
def stepMode (m : Mode) (c : Char) : Option (List Token × Mode) :=
  match m with
  | .between => stepBetween c
  | .bare chars =>
    if isBare c then some ([], .bare (c :: chars))
    else
      match bareToken chars.reverse with
      | .broken => none
      | t => (stepBetween c).map fun (ts, m) => (ts ++ [t], m)
  | .quoted chars sound high =>
    if c = '\\' then some ([], .escape chars sound high)
    else if c = '"' then
      let whole := sound && high.isNone
      some ([.text (if whole then some (String.ofList chars.reverse) else none)], .between)
    else if c.toNat < 0x20 then none
    else some ([], .quoted (c :: chars) (sound && high.isNone) none)
  | .escape chars sound high =>
    if c = 'u' then some ([], .unit chars sound high 4 0)
    else (escaped? c).map fun d => ([], .quoted (d :: chars) (sound && high.isNone) none)
  | .unit chars sound high missing value =>
    (hexValue? c).map fun d =>
      let value := value * 16 + d
      ([], if missing ≤ 1 then takeUnit chars sound high value
        else .unit chars sound high (missing - 1) value)

/-- The tokens, the last first, once the text has ended. -/
def endMode (m : Mode) (done : List Token) : List Token :=
  match m with
  | .between => done
  | .bare chars => bareToken chars.reverse :: done
  | _ => .broken :: done

/-- Reads on in some mode with some tokens, the last first, already read. -/
def tokensFrom (m : Mode) (done : List Token) : List Char → List Token
  | [] => (endMode m done).reverse
  | c :: cs =>
    match stepMode m c with
    | none => (.broken :: done).reverse
    | some (ts, m) => tokensFrom m (ts ++ done) cs

def tokens (cs : List Char) : List Token := tokensFrom .between [] cs

end Json
end JobGate
