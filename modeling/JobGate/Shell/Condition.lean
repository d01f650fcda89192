/-
Conditions that are written as arguments.

A condition compares texts or numbers, or asks about a text or a path, and
conditions can be negated, joined and put in parentheses.
-/
import JobGate.Host.Tree
import JobGate.Shell.Arithmetic

namespace JobGate
namespace Shell
namespace Condition

/-- Why arguments are no condition. -/
inductive Fault
  | badNumber (text : String)
  | noOperand (operator : String)
  | unexpected (text : String)
  | noParenthesis
deriving DecidableEq, Repr

def Fault.message : Fault → String
  | badNumber text => "Illegal number: " ++ text
  | noOperand operator => operator ++ ": argument expected"
  | unexpected text => text ++ ": unexpected operator"
  | noParenthesis => "closing paren expected"

def textOperators : List String := ["=", "!=", "<", ">"]

def numberOperators : List String := ["-eq", "-ne", "-lt", "-le", "-gt", "-ge"]

/-- The operators in front of a text or a path. -/
def unaryOperators : List String :=
  ["-n", "-z", "-e", "-f", "-d", "-r", "-w", "-x", "-s", "-c", "-b", "-p", "-L", "-h", "-t"]

def number? (s : String) : Except Fault Int :=
  let cs := (s.toList.dropWhile (· = ' ')).reverse.dropWhile (· = ' ') |>.reverse
  let (negative, digits) :=
    match cs with
    | '-' :: r => (true, r)
    | '+' :: r => (false, r)
    | r => (false, r)
  match Arithmetic.digits? 10 digits with
  | some n => .ok (if negative then -n else n)
  | none => .error (.badNumber s)

def compareNumbers (op : String) (a b : Int) : Bool :=
  match op with
  | "-eq" => a = b
  | "-ne" => a ≠ b
  | "-lt" => a < b
  | "-le" => a ≤ b
  | "-gt" => b < a
  | _ => b ≤ a

def compareTexts (op a b : String) : Bool :=
  match op with
  | "=" => a = b
  | "!=" => a ≠ b
  | "<" => a < b
  | _ => b < a

/-- What an operator in front of a text or a path asks. -/
def ask (directory : Host.Names) (op s : String) : Bool :=
  let kind? := match Host.lookup directory s with
    | .found k => some k
    | _ => none
  match op with
  | "-n" => !s.isEmpty
  | "-z" => s.isEmpty
  | "-e" | "-r" | "-w" => kind?.isSome
  | "-f" => kind? = some .file || kind? = some .program
  | "-d" => kind? = some .directory
  | "-x" => kind? = some .directory || kind? = some .program
  | "-s" => kind?.any (· ≠ .device)
  | "-c" => kind? = some .device
  | _ => false

mutual

def anyOf (d : Host.Names) : Nat → List String → Except Fault (Bool × List String)
  | 0, _ => .error .noParenthesis
  | fuel + 1, args => do
    let (a, rest) ← allOf d fuel args
    match rest with
    | "-o" :: rest =>
      let (b, rest) ← anyOf d fuel rest
      return (a || b, rest)
    | rest => return (a, rest)

def allOf (d : Host.Names) : Nat → List String → Except Fault (Bool × List String)
  | 0, _ => .error .noParenthesis
  | fuel + 1, args => do
    let (a, rest) ← negatable d fuel args
    match rest with
    | "-a" :: rest =>
      let (b, rest) ← allOf d fuel rest
      return (a && b, rest)
    | rest => return (a, rest)

/-- A condition that may be negated. -/
def negatable (d : Host.Names) : Nat → List String → Except Fault (Bool × List String)
  | 0, _ => .error .noParenthesis
  | fuel + 1, args => do
    match args with
    | [a, op, b] =>
      if textOperators.contains op || numberOperators.contains op then primary d fuel [a, op, b]
      else if a = "!" then
        let (r, rest) ← negatable d fuel [op, b]
        return (!r, rest)
      else primary d fuel args
    | "!" :: x :: rest =>
      let (r, rest) ← negatable d fuel (x :: rest)
      return (!r, rest)
    | args => primary d fuel args

def primary (d : Host.Names) : Nat → List String → Except Fault (Bool × List String)
  | 0, _ => .error .noParenthesis
  | fuel + 1, args => do
    match args with
    | [] => return (false, [])
    | [a] => return (!a.isEmpty, [])
    | a :: op :: more =>
      match more with
      | b :: rest =>
        if textOperators.contains op then return (compareTexts op a b, rest)
        else if numberOperators.contains op then
          return (compareNumbers op (← number? a) (← number? b), rest)
        else if a = "(" then
          let (r, rest) ← anyOf d fuel (op :: more)
          match rest with
          | ")" :: rest => return (r, rest)
          | _ => .error .noParenthesis
        else if unaryOperators.contains a then return (ask d a op, more)
        else return (!a.isEmpty, op :: more)
      | [] =>
        if unaryOperators.contains a then return (ask d a op, [])
        else if textOperators.contains op || numberOperators.contains op then
          .error (.noOperand op)
        else return (!a.isEmpty, [op])

end

/-- Whether a condition holds.  What is too much is reported with the argument in
front of it. -/
def holds (directory : Host.Names) (args : List String) : Except Fault Bool :=
  match anyOf directory (4 * args.length + 8) args with
  | .error f => .error f
  | .ok (b, []) => .ok b
  | .ok (_, excess) => .error (.unexpected (args[args.length - excess.length - 1]?.getD ""))

end Condition
end Shell
end JobGate
