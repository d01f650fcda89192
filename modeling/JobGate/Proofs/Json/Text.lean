/-
Texts inside JSON.

What is written for a value never holds a control character, so it never spans lines
(`write_printable`).  What is written for a text is read as one token, and the token is the text
(`tokensFrom_quote`): each character is written so that it is read back on its own
(`Escapes.read`), and only a quote that stands alone ends the text.
-/
import JobGate.Json.Reader
import JobGate.Proofs.Text.Digits
import Mathlib.Tactic.SplitIfs

namespace JobGate
namespace Json

/-! ## One character -/

inductive Escapes (c : Char) : List Char → Prop
  | plain (hquote : c ≠ '"') (hback : c ≠ '\\') (hhigh : 0x20 ≤ c.toNat) : Escapes c [c]
  | letter (d : Char) (h : escaped? d = some c) (hunit : d ≠ 'u') (hhigh : 0x20 ≤ d.toNat) :
    Escapes c ['\\', d]
  | unit (h : c.toNat < 0x20) :
    Escapes c ['\\', 'u', '0', '0', hexDigit (c.toNat / 16), hexDigit (c.toNat % 16)]

theorem escapeChar_escapes (c : Char) : Escapes c (escapeChar c) := by
  unfold escapeChar
  split_ifs with hquote hback hhigh hline hreturn htab hbackspace hfeed
  · exact hquote ▸ .letter '"' rfl (by decide) (by decide)
  · exact hback ▸ .letter '\\' rfl (by decide) (by decide)
  · exact .plain hquote hback hhigh
  · exact hline ▸ .letter 'n' rfl (by decide) (by decide)
  · exact hreturn ▸ .letter 'r' rfl (by decide) (by decide)
  · exact htab ▸ .letter 't' rfl (by decide) (by decide)
  · have hc : c = '\x08' := Char.toNat_inj.1 hbackspace
    exact hc ▸ .letter 'b' rfl (by decide) (by decide)
  · have hc : c = '\x0c' := Char.toNat_inj.1 hfeed
    exact hc ▸ .letter 'f' rfl (by decide) (by decide)
  · exact .unit (Nat.not_le.1 hhigh)

/-! ## No control characters -/

def Printable (cs : List Char) : Prop := ∀ c ∈ cs, 0x20 ≤ c.toNat

instance (cs : List Char) : Decidable (Printable cs) :=
  List.decidableBAll (fun c : Char => 0x20 ≤ c.toNat) cs

theorem printable_append {as bs : List Char} : Printable (as ++ bs) ↔ Printable as ∧ Printable bs :=
  List.forall_mem_append

theorem printable_cons {c : Char} {cs : List Char} :
    Printable (c :: cs) ↔ 0x20 ≤ c.toNat ∧ Printable cs :=
  List.forall_mem_cons

theorem hexDigit_printable {n : Nat} (h : n < 16) : 0x20 ≤ (hexDigit n).toNat := by
  have hall : ∀ k : Fin 16, 0x20 ≤ (hexDigit k).toNat := by decide
  exact hall ⟨n, h⟩

theorem Escapes.printable {c : Char} {cs : List Char} (h : Escapes c cs) : Printable cs := by
  cases h with
  | plain _ _ hhigh => exact printable_cons.2 ⟨hhigh, by decide⟩
  | letter d _ _ hhigh => exact printable_cons.2 ⟨by decide, printable_cons.2 ⟨hhigh, by decide⟩⟩
  | unit hlow =>
    have hdigits : Printable [hexDigit (c.toNat / 16), hexDigit (c.toNat % 16)] :=
      printable_cons.2 ⟨hexDigit_printable (by omega),
        printable_cons.2 ⟨hexDigit_printable (by omega), by decide⟩⟩
    have hmark : Printable ['\\', 'u', '0', '0'] := by decide
    exact printable_append.2 ⟨hmark, hdigits⟩

theorem quote_printable (s : String) : Printable (quote s) := by
  refine printable_cons.2 ⟨by decide, printable_append.2 ⟨fun c hc => ?_, by decide⟩⟩
  obtain ⟨d, -, hd⟩ := List.mem_flatMap.1 hc
  exact (escapeChar_escapes d).printable c hd

theorem toString_printable (n : Nat) : Printable (toString n).toList := by
  intro c hc
  have hbounds := Text.isDigit_bounds (Text.isDigit_of_mem_toString hc)
  omega

theorem toString_printable_int (n : Int) : Printable (toString n).toList := by
  rw [Int.toString_eq_repr, Int.repr_eq_if]
  split
  · exact toString_printable n.toNat
  · rw [String.toList_append]
    exact printable_append.2 ⟨by decide, toString_printable (-n).toNat⟩

theorem Number.write_printable (n : Number) : Printable n.write := by
  cases n with
  | integer n => exact toString_printable_int n
  | decimal negative digits exponent =>
    have hsign : Printable (if negative then ['-'] else []) := by cases negative <;> decide
    have hmantissa := printable_append.2 ⟨hsign, toString_printable digits⟩
    rw [Number.write]
    split
    · exact printable_append.2 ⟨hmantissa, by decide⟩
    · exact printable_append.2
        ⟨hmantissa, printable_cons.2 ⟨by decide, toString_printable_int exponent⟩⟩

theorem writeElements_cons_cons (j k : Json) (rest : List Json) :
    writeElements (j :: k :: rest) = write j ++ ',' :: writeElements (k :: rest) := rfl

def writeMember (name : String) (value : Json) : List Char := quote name ++ ':' :: write value

theorem writeMembers_cons_cons (name : String) (value : Json) (m : String × Json)
    (rest : List (String × Json)) :
    writeMembers ((name, value) :: m :: rest) =
      writeMember name value ++ ',' :: writeMembers (m :: rest) := rfl

theorem writeMember_printable (name : String) {value : Json} (h : Printable (write value)) :
    Printable (writeMember name value) :=
  printable_append.2 ⟨quote_printable name, printable_cons.2 ⟨by decide, h⟩⟩

mutual

theorem write_printable : ∀ j : Json, Printable (write j)
  | .null => by decide
  | .bool true => by decide
  | .bool false => by decide
  | .number n => n.write_printable
  | .str s => quote_printable s
  | .arr elements =>
    printable_cons.2 ⟨by decide, printable_append.2 ⟨writeElements_printable elements, by decide⟩⟩
  | .obj members =>
    printable_cons.2 ⟨by decide, printable_append.2 ⟨writeMembers_printable members, by decide⟩⟩

theorem writeElements_printable : ∀ elements : List Json, Printable (writeElements elements)
  | [] => by decide
  | [j] => write_printable j
  | j :: k :: rest => by
    rw [writeElements_cons_cons]
    exact printable_append.2 ⟨write_printable j,
      printable_cons.2 ⟨by decide, writeElements_printable (k :: rest)⟩⟩

theorem writeMembers_printable :
    ∀ members : List (String × Json), Printable (writeMembers members)
  | [] => by decide
  | [(name, value)] => writeMember_printable name (write_printable value)
  | (name, value) :: m :: rest => by
    rw [writeMembers_cons_cons]
    exact printable_append.2 ⟨writeMember_printable name (write_printable value),
      printable_cons.2 ⟨by decide, writeMembers_printable (m :: rest)⟩⟩

end

/-! ## A text read back -/

theorem tokensFrom_cons {m m' : Mode} {c : Char} {ts : List Token}
    (h : stepMode m c = some (ts, m')) (done : List Token) (cs : List Char) :
    tokensFrom m done (c :: cs) = tokensFrom m' (ts ++ done) cs := by
  simp only [tokensFrom, h]

theorem hexValue?_hexDigit {n : Nat} (h : n < 16) : hexValue? (hexDigit n) = some n := by
  have hall : ∀ k : Fin 16, hexValue? (hexDigit k) = some k.val := by decide
  exact hall ⟨n, h⟩

/-- A code unit outside the surrogates is a character. -/
theorem takeUnit_of_lt {u : Nat} (h : u < 0xd800) (chars : List Char) :
    takeUnit chars true none u = .quoted (Char.ofNat u :: chars) true none := by
  unfold takeUnit
  simp only [show ¬ (0xd800 ≤ u ∧ u ≤ 0xdbff) by omega, show ¬ (0xdc00 ≤ u ∧ u ≤ 0xdfff) by omega,
    decide_false, Bool.false_eq_true, if_false]

/-- A text with some characters read, backwards. -/
def Mode.reading (chars : List Char) : Mode := .quoted chars true none

/-- A character is read back as it was written. -/
theorem Escapes.read {c : Char} {cs : List Char} (h : Escapes c cs) (chars : List Char)
    (done : List Token) (rest : List Char) :
    tokensFrom (.reading chars) done (cs ++ rest) =
      tokensFrom (.reading (c :: chars)) done rest := by
  cases h with
  | plain hquote hback hhigh =>
    have hstep : stepMode (.reading chars) c = some ([], .reading (c :: chars)) := by
      simp only [Mode.reading, stepMode, if_neg hquote, if_neg hback, if_neg (Nat.not_lt.2 hhigh)]
      rfl
    exact tokensFrom_cons hstep done rest
  | letter d hd hunit hhigh =>
    have hback : stepMode (.reading chars) '\\' = some ([], .escape chars true none) := rfl
    have hletter : stepMode (.escape chars true none) d = some ([], .reading (c :: chars)) := by
      simp only [stepMode, if_neg hunit, hd]
      rfl
    rw [List.cons_append, tokensFrom_cons hback, List.cons_append, tokensFrom_cons hletter]
    rfl
  | unit hlow =>
    have hstart : ∀ cs, tokensFrom (.reading chars) done ('\\' :: 'u' :: '0' :: '0' :: cs) =
        tokensFrom (.unit chars true none 2 0) done cs := fun _ => rfl
    have hhigh : stepMode (.unit chars true none 2 0) (hexDigit (c.toNat / 16)) =
        some ([], .unit chars true none 1 (c.toNat / 16)) := by
      simp only [stepMode, hexValue?_hexDigit (show c.toNat / 16 < 16 by omega)]
      simp
    have hvalue : c.toNat / 16 * 16 + c.toNat % 16 = c.toNat := by omega
    have hlast : stepMode (.unit chars true none 1 (c.toNat / 16)) (hexDigit (c.toNat % 16)) =
        some ([], .reading (c :: chars)) := by
      simp only [stepMode, hexValue?_hexDigit (show c.toNat % 16 < 16 by omega), Option.map_some,
        hvalue, takeUnit_of_lt (show c.toNat < 0xd800 by omega), Char.ofNat_toNat]
      rfl
    exact (hstart _).trans ((tokensFrom_cons hhigh done _).trans (tokensFrom_cons hlast _ rest))

/-- What is written for a text is read as one token that holds the text. -/
theorem tokensFrom_quote (s : String) (done : List Token) (rest : List Char) :
    tokensFrom .between done (quote s ++ rest) =
      tokensFrom .between (.text (some s) :: done) rest := by
  have hread : ∀ (cs chars : List Char),
      tokensFrom (.reading chars) done (cs.flatMap escapeChar ++ ('"' :: rest)) =
        tokensFrom (.reading (cs.reverse ++ chars)) done ('"' :: rest) := by
    intro cs
    induction cs with
    | nil => exact fun _ => rfl
    | cons c cs ih =>
      intro chars
      rw [List.flatMap_cons, List.append_assoc, (escapeChar_escapes c).read, ih,
        List.reverse_cons, List.append_assoc, List.singleton_append]
  have hopen : tokensFrom .between done (quote s ++ rest) =
      tokensFrom (.reading []) done (s.toList.flatMap escapeChar ++ ('"' :: rest)) := by
    rw [quote, List.cons_append, List.cons_append, List.append_assoc]
    rfl
  have hclose : stepMode (.reading s.toList.reverse) '"' = some ([.text (some s)], .between) := by
    simp only [Mode.reading, stepMode, List.reverse_reverse, String.ofList_toList]
    rfl
  rw [hopen, hread, List.append_nil, tokensFrom_cons hclose]
  rfl

/-! ## An object of texts read back -/

def textMembers (fields : List (String × String)) : List (String × Json) :=
  fields.map fun (name, value) => (name, .str value)

def textTokens : List (String × String) → List Token
  | [] => []
  | [(name, value)] => [.text (some name), .colon, .text (some value)]
  | (name, value) :: m :: rest =>
    .text (some name) :: .colon :: .text (some value) :: .comma :: textTokens (m :: rest)

theorem tokensFrom_member (name value : String) (done : List Token) (rest : List Char) :
    tokensFrom .between done (writeMember name (.str value) ++ rest) =
      tokensFrom .between (.text (some value) :: .colon :: .text (some name) :: done) rest := by
  have hcolon : stepMode .between ':' = some ([.colon], .between) := rfl
  rw [writeMember, List.append_assoc, tokensFrom_quote, List.cons_append, tokensFrom_cons hcolon]
  exact tokensFrom_quote value _ rest

theorem tokensFrom_members (fields : List (String × String)) (done : List Token)
    (rest : List Char) :
    tokensFrom .between done (writeMembers (textMembers fields) ++ rest) =
      tokensFrom .between ((textTokens fields).reverse ++ done) rest := by
  have hcomma : stepMode .between ',' = some ([.comma], .between) := rfl
  fun_induction textTokens fields generalizing done with
  | case1 => rfl
  | case2 name value => exact tokensFrom_member name value done rest
  | case3 name value m others ih =>
    have hcons : writeMembers (textMembers ((name, value) :: m :: others)) =
        writeMember name (.str value) ++ ',' :: writeMembers (textMembers (m :: others)) := rfl
    rw [hcons, List.append_assoc, tokensFrom_member, List.cons_append, tokensFrom_cons hcomma, ih]
    simp

theorem tokens_textObject (fields : List (String × String)) :
    tokens (write (.obj (textMembers fields))) =
      .openObject :: (textTokens fields ++ [.closeObject]) := by
  have hopen : tokens (write (.obj (textMembers fields))) = tokensFrom .between [.openObject]
      (writeMembers (textMembers fields) ++ ['\x7d']) := rfl
  have hclose : tokensFrom .between ((textTokens fields).reverse ++ [.openObject]) ['\x7d'] =
      (.closeObject :: ((textTokens fields).reverse ++ [.openObject])).reverse := rfl
  rw [hopen, tokensFrom_members, hclose]
  simp

namespace Reading

/-- An object is open, with some members read, backwards. -/
def inObject (before : List (Option String × Option Json)) (want : Want) : Reading where
  frames := [.object before none]
  want := want
  result := none

variable {want : Want} {before : List (Option String × Option Json)}

theorem go_member (hwant : want = .name ∨ want = .nameOrClose) (name value : String)
    (ts : List Token) :
    readObject.go (inObject before want) (.text (some name) :: .colon :: .text (some value) :: ts) =
      readObject.go (inObject ((some name, some (.str value)) :: before) .commaOrClose) ts := by
  rcases hwant with rfl | rfl <;> rfl

theorem go_comma (ts : List Token) :
    readObject.go (inObject before .commaOrClose) (.comma :: ts) =
      readObject.go (inObject before .name) ts := rfl

theorem go_close (hwant : want = .nameOrClose ∨ want = .commaOrClose) :
    readObject.go (inObject before want) [.closeObject] = ⟨before.reverse, .closed⟩ := by
  rcases hwant with rfl | rfl <;> rfl

/-- Where a name is read, the members that follow are all read. -/
theorem go_textTokens (hwant : want = .name ∨ want = .nameOrClose) (m : String × String)
    (rest : List (String × String)) :
    readObject.go (inObject before want) (textTokens (m :: rest) ++ [.closeObject]) =
      ⟨before.reverse ++ (textMembers (m :: rest)).map fun (k, v) => (some k, some v),
        .closed⟩ := by
  obtain ⟨name, value⟩ := m
  induction rest generalizing want before name value with
  | nil =>
    refine (go_member hwant name value _).trans ((go_close (.inr rfl)).trans ?_)
    rw [List.reverse_cons]
    rfl
  | cons m rest ih =>
    refine (go_member hwant name value _).trans ((go_comma _).trans ?_)
    refine (ih (.inl rfl) m.1 m.2).trans ?_
    rw [List.reverse_cons, List.append_assoc]
    rfl

end Reading

/-- The text of an object of texts is read back whole. -/
theorem readObject_textObject (fields : List (String × String)) :
    readObject (compact (.obj (textMembers fields))) =
      ⟨(textMembers fields).map fun (k, v) => (some k, some v), .closed⟩ := by
  unfold readObject compact
  rw [String.toList_ofList, tokens_textObject]
  cases fields with
  | nil => exact Reading.go_close (.inl rfl)
  | cons m rest => exact Reading.go_textTokens (.inr rfl) m rest

end Json
end JobGate
