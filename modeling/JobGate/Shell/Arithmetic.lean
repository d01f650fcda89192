/-
The arithmetic of a command shell.

Numbers have 64 bits and wrap around.  An expression may assign variables, so its
value comes with the assignments that were made, the last one first.
-/

namespace JobGate
namespace Shell
namespace Arithmetic

/-- Why an expression has no value. -/
inductive Fault
  | noPrimary
  | noOperator
  | division
  | badNumber (text : String)
deriving DecidableEq, Repr

def Fault.message (expression : String) : Fault → String
  | noPrimary => "arithmetic expression: expecting primary: \"" ++ expression ++ "\""
  | noOperator => "arithmetic expression: expecting EOF: \"" ++ expression ++ "\""
  | division => "arithmetic expression: division by zero: \"" ++ expression ++ "\""
  | badNumber text => "Illegal number: " ++ text

/-- A token of an expression. -/
inductive Token
  | number (n : Int)
  | name (s : String)
  | mark (s : String)
deriving DecidableEq, Repr

/-- The marks, each behind all that it is the beginning of. -/
def marks : List String :=
  ["<<=", ">>=", "<<", ">>", "<=", ">=", "==", "!=", "&&", "||", "+=", "-=", "*=", "/=", "%=",
    "&=", "|=", "^=", "+", "-", "*", "/", "%", "<", ">", "&", "|", "^", "!", "~", "?", ":", "=",
    "(", ")"]

/-- The number nearest to zero that differs from a number by a multiple of
`2 ^ 64`. -/
def wrap (n : Int) : Int := Int.bmod n 18446744073709551616

def digitValue? (c : Char) : Option Nat :=
  if c.isDigit then some (c.toNat - 48)
  else if 'a' ≤ c ∧ c ≤ 'f' then some (c.toNat - 87)
  else if 'A' ≤ c ∧ c ≤ 'F' then some (c.toNat - 55)
  else none

def digits? (base : Nat) (cs : List Char) : Option Nat :=
  if cs.isEmpty then none
  else
    cs.foldl (fun n c => do return (← n) * base + (← (digitValue? c).filter (· < base))) (some 0)

/-- The number that a numeral stands for: hexadecimal, octal or decimal. -/
def numeral? (cs : List Char) : Option Nat :=
  match cs with
  | '0' :: 'x' :: rest | '0' :: 'X' :: rest => digits? 16 rest
  | '0' :: rest => if rest.isEmpty then some 0 else digits? 8 rest
  | cs => digits? 10 cs

def tokens : Nat → List Char → Option (List Token)
  | _, [] => some []
  | 0, _ => none
  | fuel + 1, c :: rest =>
    if c = ' ' || c = '\t' || c = '\n' then tokens fuel rest
    else if c.isDigit then do
      let cs := (c :: rest).takeWhile Char.isAlphanum
      let n ← numeral? cs
      return .number n :: (← tokens fuel ((c :: rest).drop cs.length))
    else if c.isAlpha || c = '_' then do
      let cs := (c :: rest).takeWhile fun c => c.isAlphanum || c = '_'
      return .name (String.ofList cs) :: (← tokens fuel ((c :: rest).drop cs.length))
    else
      match marks.find? fun m => m.toList.isPrefixOf (c :: rest) with
      | none => none
      | some m => do return .mark m :: (← tokens fuel ((c :: rest).drop m.length))

inductive Expr
  | number (n : Int)
  | variable (name : String)
  | unary (op : String) (e : Expr)
  | binary (op : String) (a b : Expr)
  | condition (c a b : Expr)
  | assign (name op : String) (e : Expr)
deriving Repr

/-- The binary operators, from the weakest to the strongest. -/
def levels : List (List String) :=
  [["||"], ["&&"], ["|"], ["^"], ["&"], ["==", "!="], ["<=", ">=", "<", ">"], ["<<", ">>"],
    ["+", "-"], ["*", "/", "%"]]

def assignments : List String :=
  ["=", "+=", "-=", "*=", "/=", "%=", "<<=", ">>=", "&=", "|=", "^="]

mutual

def assignment : Nat → List Token → Except Fault (Expr × List Token)
  | 0, _ => .error .noPrimary
  | fuel + 1, ts => do
    match ts with
    | .name x :: .mark op :: rest =>
      if assignments.contains op then
        let (e, rest) ← assignment fuel rest
        return (.assign x op e, rest)
      else conditional fuel ts
    | ts => conditional fuel ts

/-- An expression that may begin with a condition. -/
def conditional : Nat → List Token → Except Fault (Expr × List Token)
  | 0, _ => .error .noPrimary
  | fuel + 1, ts => do
    let (c, rest) ← level levels fuel ts
    match rest with
    | .mark "?" :: rest =>
      let (a, rest) ← assignment fuel rest
      match rest with
      | .mark ":" :: rest =>
        let (b, rest) ← conditional fuel rest
        return (.condition c a b, rest)
      | _ => .error .noPrimary
    | rest => return (c, rest)

/-- An expression of operators at least as strong as the first of some levels. -/
def level (ops : List (List String)) : Nat → List Token → Except Fault (Expr × List Token)
  | 0, _ => .error .noPrimary
  | fuel + 1, ts => do
    match ops with
    | [] => unary fuel ts
    | first :: stronger =>
      let (a, rest) ← level stronger fuel ts
      operands first stronger a fuel rest

def operands (ops : List String) (stronger : List (List String)) (a : Expr) :
    Nat → List Token → Except Fault (Expr × List Token)
  | 0, _ => .error .noPrimary
  | fuel + 1, ts => do
    match ts with
    | .mark op :: rest =>
      if ops.contains op then
        let (b, rest) ← level stronger fuel rest
        operands ops stronger (.binary op a b) fuel rest
      else return (a, ts)
    | ts => return (a, ts)

def unary : Nat → List Token → Except Fault (Expr × List Token)
  | 0, _ => .error .noPrimary
  | fuel + 1, ts => do
    match ts with
    | .number n :: rest => return (.number n, rest)
    | .name x :: rest => return (.variable x, rest)
    | .mark "(" :: rest =>
      let (e, rest) ← assignment fuel rest
      match rest with
      | .mark ")" :: rest => return (e, rest)
      | _ => .error .noPrimary
    | .mark op :: rest =>
      if ["+", "-", "!", "~"].contains op then
        let (e, rest) ← unary fuel rest
        return (.unary op e, rest)
      else .error .noPrimary
    | [] => .error .noPrimary

end

def ofBool (b : Bool) : Int := if b then 1 else 0

/-- The bits of a number as a natural number. -/
def bits (n : Int) : Nat := (Int.emod n 18446744073709551616).toNat

/-- The value of a binary operator that has both its operands. -/
def combine (op : String) (a b : Int) : Except Fault Int :=
  match op with
  | "+" => .ok (wrap (a + b))
  | "-" => .ok (wrap (a - b))
  | "*" => .ok (wrap (a * b))
  | "/" => if b = 0 then .error .division else .ok (wrap (Int.tdiv a b))
  | "%" => if b = 0 then .error .division else .ok (wrap (Int.tmod a b))
  | "==" => .ok (ofBool (a = b))
  | "!=" => .ok (ofBool (a ≠ b))
  | "<=" => .ok (ofBool (a ≤ b))
  | ">=" => .ok (ofBool (b ≤ a))
  | "<" => .ok (ofBool (a < b))
  | ">" => .ok (ofBool (b < a))
  | "&" => .ok (wrap (bits a &&& bits b : Nat))
  | "|" => .ok (wrap (bits a ||| bits b : Nat))
  | "^" => .ok (wrap (bits a ^^^ bits b : Nat))
  | "<<" => .ok (wrap (a * Int.pow 2 (bits b % 64)))
  | ">>" => .ok (Int.fdiv a (Int.pow 2 (bits b % 64)))
  | _ => .error .noPrimary

/-- The variables of an expression: those assigned by it come before the others. -/
structure Scope where
  bindings : String → Option String
  assigned : List (String × Int) := []

def Scope.get (s : Scope) (name : String) : Except Fault Int :=
  match s.assigned.lookup name with
  | some n => .ok n
  | none =>
    match s.bindings name with
    | none => .ok 0
    | some text =>
      let cs := (text.toList.dropWhile (· = ' ')).reverse.dropWhile (· = ' ') |>.reverse
      if cs.isEmpty then .ok 0
      else
        let (negative, digits) :=
          match cs with
          | '-' :: d => (true, d)
          | '+' :: d => (false, d)
          | d => (false, d)
        match numeral? digits with
        | some n => .ok (wrap (if negative then -n else n))
        | none => .error (.badNumber text)

def Expr.eval (s : Scope) : Expr → Except Fault (Int × Scope)
  | .number n => .ok (wrap n, s)
  | .variable x => (s.get x).map fun n => (n, s)
  | .unary op e =>
    match e.eval s with
    | .error f => .error f
    | .ok (n, s) =>
      match op with
      | "-" => .ok (wrap (-n), s)
      | "!" => .ok (ofBool (n = 0), s)
      | "~" => .ok (-n - 1, s)
      | _ => .ok (n, s)
  | .binary op a b =>
    match a.eval s with
    | .error f => .error f
    | .ok (m, s) =>
      if op = "&&" && m = 0 then .ok (0, s)
      else if op = "||" && m ≠ 0 then .ok (1, s)
      else
        match b.eval s with
        | .error f => .error f
        | .ok (n, s) =>
          if op = "&&" || op = "||" then .ok (ofBool (n ≠ 0), s)
          else (combine op m n).map fun r => (r, s)
  | .condition c a b =>
    match c.eval s with
    | .error f => .error f
    | .ok (n, s) => if n = 0 then b.eval s else a.eval s
  | .assign x op e =>
    match e.eval s with
    | .error f => .error f
    | .ok (n, s) =>
      let value : Except Fault Int :=
        if op = "=" then .ok n
        else
          match s.get x with
          | .error f => .error f
          | .ok old => combine (op.dropEnd 1).toString old n
      value.map fun v => (v, { s with assigned := (x, v) :: s.assigned })

/-- The value of the text of an expression, and the variables it assigns. -/
def evaluate (bindings : String → Option String) (text : String) :
    Except Fault (Int × List (String × Int)) :=
  let cs := text.toList
  if cs.all fun c => c = ' ' || c = '\t' || c = '\n' then .ok (0, [])
  else
    match tokens (cs.length + 1) cs with
    | none => .error .noPrimary
    | some ts =>
      match assignment (16 * ts.length + 64) ts with
      | .error f => .error f
      | .ok (_, _ :: _) => .error .noOperator
      | .ok (e, []) => (e.eval { bindings }).map fun (n, s) => (n, s.assigned)

end Arithmetic
end Shell
end JobGate
