/-
Numerals in base 36.

A numeral consists of digits and is read back as the number it was written for, whether it is as
short as possible or has a fixed width.  Conversely a list of digits that reads as a number is
its shortest numeral if it has no zero in front (`eq_encode`), and its numeral at a fixed width
if it has this width (`eq_encodeFixed`).
-/
import JobGate.Text.Base36
import Mathlib.Algebra.Ring.Nat
import Mathlib.Data.List.Induction
import Mathlib.Tactic.SplitIfs

namespace JobGate
namespace Base36

def alphabet : List Char := "0123456789abcdefghijklmnopqrstuvwxyz".toList

/-- Whether a numeral is as short as it can be. -/
def Shortest (cs : List Char) : Prop := cs ≠ [] ∧ (cs.head? = some '0' → cs = ['0'])

variable {c : Char} {cs : List Char} {n : Nat}

/-! ## Digits -/

theorem digit_mem_alphabet (h : n < 36) : digit n ∈ alphabet := by
  have hall : ∀ k : Fin 36, digit k ∈ alphabet := by decide
  exact hall ⟨n, h⟩

theorem digitValue?_digit (h : n < 36) : digitValue? (digit n) = some n := by
  have hall : ∀ k : Fin 36, digitValue? (digit k) = some k.val := by decide
  exact hall ⟨n, h⟩

/-- A digit is told by its value. -/
theorem digit_of_value (h : digitValue? c = some n) : n < 36 ∧ digit n = c := by
  unfold digitValue? at h
  dsimp only at h
  split_ifs at h with hdecimal hletter
  · cases h
    refine ⟨by omega, ?_⟩
    rw [digit, if_pos (by omega), show 48 + (c.toNat - 48) = c.toNat by omega, Char.ofNat_toNat]
  · cases h
    refine ⟨by omega, ?_⟩
    rw [digit, if_neg (by omega), show 87 + (c.toNat - 87) = c.toNat by omega, Char.ofNat_toNat]

theorem value?_concat_eq_some_iff : value? (cs ++ [c]) = some n ↔
    ∃ m d, value? cs = some m ∧ digitValue? c = some d ∧ m * 36 + d = n := by
  have hconcat : value? (cs ++ [c]) =
      (value? cs).bind fun m => (digitValue? c).bind fun d => some (m * 36 + d) := by
    rw [value?, List.foldl_append]
    rfl
  simp only [hconcat, Option.bind_eq_some_iff, Option.some.injEq]
  constructor
  · rintro ⟨m, hm, d, hd, hn⟩
    exact ⟨m, d, hm, hd, hn⟩
  · rintro ⟨m, d, hm, hd, hn⟩
    exact ⟨m, hm, d, hd, hn⟩

/-! ## Shortest numerals -/

theorem digitsOnto_append (n : Nat) (front tail : List Char) :
    digitsOnto n (front ++ tail) = digitsOnto n front ++ tail := by
  fun_induction digitsOnto n front with
  | case1 front => rw [digitsOnto, if_pos rfl]
  | case2 n front hn ih => rw [digitsOnto, if_neg hn, ← List.cons_append, ih]

/-- The digits of a number end with its lowest one. -/
theorem digitsOnto_nil (h : n ≠ 0) :
    digitsOnto n [] = digitsOnto (n / 36) [] ++ [digit (n % 36)] := by
  rw [digitsOnto, if_neg h]
  exact digitsOnto_append (n / 36) [] [digit (n % 36)]

/-- Proves something of the digits of a number, from its highest digit on. -/
theorem digitsOnto_induction {P : Nat → List Char → Prop} (zero : P 0 [])
    (concat : ∀ n, n ≠ 0 → P (n / 36) (digitsOnto (n / 36) []) →
      P n (digitsOnto (n / 36) [] ++ [digit (n % 36)])) (n : Nat) : P n (digitsOnto n []) := by
  induction n using Nat.strongRecOn with
  | _ n ih =>
    by_cases hn : n = 0
    · subst hn
      rwa [digitsOnto, if_pos rfl]
    · rw [digitsOnto_nil hn]
      exact concat n hn (ih (n / 36) (by omega))

theorem mem_encode (n : Nat) : ∀ c ∈ encode n, c ∈ alphabet := by
  unfold encode
  split_ifs with hn
  · exact List.forall_mem_singleton.2 (by decide)
  · refine digitsOnto_induction (P := fun _ cs => ∀ c ∈ cs, c ∈ alphabet) ?_ ?_ n
    · exact fun c hc => (List.not_mem_nil hc).elim
    · intro n _ ih c hc
      rcases List.mem_append.1 hc with hc | hc
      · exact ih c hc
      · rw [List.mem_singleton.1 hc]
        exact digit_mem_alphabet (Nat.mod_lt _ (by omega))

theorem value?_encode (n : Nat) : value? (encode n) = some n := by
  unfold encode
  split_ifs with hn
  · rw [hn]
    rfl
  · refine digitsOnto_induction (P := fun n cs => value? cs = some n) rfl (fun n _ ih => ?_) n
    exact value?_concat_eq_some_iff.2
      ⟨n / 36, n % 36, ih, digitValue?_digit (Nat.mod_lt _ (by omega)), by omega⟩

theorem head?_digitsOnto (n : Nat) : (digitsOnto n []).head? ≠ some '0' := by
  refine digitsOnto_induction (P := fun _ cs => cs.head? ≠ some '0') nofun (fun n hn ih => ?_) n
  rw [List.head?_append]
  by_cases hhigh : n / 36 = 0
  · have hlow : ∀ k : Fin 36, k.val ≠ 0 → digit k ≠ '0' := by decide
    rw [hhigh, digitsOnto, if_pos rfl]
    exact fun hzero => hlow ⟨n % 36, Nat.mod_lt _ (by omega)⟩ (by dsimp only; omega)
      (Option.some.inj hzero)
  · rw [digitsOnto_nil hhigh, List.head?_append] at ih ⊢
    cases hfront : (digitsOnto (n / 36 / 36) []).head? with
    | none => rwa [hfront] at ih
    | some c => rwa [hfront] at ih

theorem shortest_encode (n : Nat) : Shortest (encode n) := by
  unfold encode
  split_ifs with hn
  · exact ⟨List.cons_ne_nil _ _, fun _ => rfl⟩
  · refine ⟨?_, fun hzero => (head?_digitsOnto n hzero).elim⟩
    rw [digitsOnto_nil hn]
    exact List.append_ne_nil_of_right_ne_nil _ (List.cons_ne_nil _ _)

/-- Digits with no zero in front are those of the number that they read as. -/
theorem eq_digitsOnto (hvalue : value? cs = some n) (hhead : cs.head? ≠ some '0') :
    cs = digitsOnto n [] := by
  induction cs using List.reverseRecOn generalizing n with
  | nil =>
    cases hvalue
    rw [digitsOnto, if_pos rfl]
  | append_singleton cs c ih =>
    obtain ⟨m, d, hm, hd, rfl⟩ := value?_concat_eq_some_iff.1 hvalue
    obtain ⟨hlt, rfl⟩ := digit_of_value hd
    have hcs : cs = digitsOnto m [] := by
      refine ih hm fun hzero => hhead ?_
      rw [List.head?_append, hzero]
      rfl
    have hne : m * 36 + d ≠ 0 := by
      intro hzero
      obtain ⟨rfl, rfl⟩ : m = 0 ∧ d = 0 := by omega
      rw [digitsOnto, if_pos rfl] at hcs
      exact hhead (by rw [hcs]; rfl)
    rw [digitsOnto_nil hne, show (m * 36 + d) / 36 = m by omega,
      show (m * 36 + d) % 36 = d by omega, ← hcs]

theorem eq_encode (hvalue : value? cs = some n) (hshort : Shortest cs) : cs = encode n := by
  unfold encode
  by_cases hzero : cs.head? = some '0'
  · rw [hshort.2 hzero] at hvalue ⊢
    cases hvalue
    rfl
  · have hcs := eq_digitsOnto hvalue hzero
    rw [if_neg ?_]
    · exact hcs
    · rintro rfl
      rw [digitsOnto, if_pos rfl] at hcs
      exact hshort.1 hcs

/-! ## Numerals of a fixed width -/

theorem length_encodeFixed (width n : Nat) : (encodeFixed width n).length = width := by
  induction width generalizing n with
  | zero => rfl
  | succ width ih => rw [encodeFixed, List.length_append, ih, List.length_singleton]

theorem mem_encodeFixed (width n : Nat) : ∀ c ∈ encodeFixed width n, c ∈ alphabet := by
  induction width generalizing n with
  | zero => exact fun c hc => (List.not_mem_nil hc).elim
  | succ width ih =>
    intro c hc
    rcases List.mem_append.1 hc with hc | hc
    · exact ih (n / 36) c hc
    · rw [List.mem_singleton.1 hc]
      exact digit_mem_alphabet (Nat.mod_lt _ (by omega))

theorem value?_encodeFixed (width n : Nat) :
    value? (encodeFixed width n) = some (n % 36 ^ width) := by
  induction width generalizing n with
  | zero =>
    rw [Nat.pow_zero, Nat.mod_one]
    rfl
  | succ width ih =>
    have hlow := digitValue?_digit (Nat.mod_lt n (by decide))
    refine value?_concat_eq_some_iff.2 ⟨n / 36 % 36 ^ width, n % 36, ih (n / 36), hlow, ?_⟩
    rw [Nat.pow_succ', Nat.mod_mul]
    omega

theorem eq_encodeFixed {width : Nat} (hvalue : value? cs = some n) (hlength : cs.length = width) :
    cs = encodeFixed width n := by
  subst hlength
  induction cs using List.reverseRecOn generalizing n with
  | nil => rfl
  | append_singleton cs c ih =>
    obtain ⟨m, d, hm, hd, rfl⟩ := value?_concat_eq_some_iff.1 hvalue
    obtain ⟨hlt, rfl⟩ := digit_of_value hd
    rw [List.length_append, List.length_singleton, encodeFixed,
      show (m * 36 + d) / 36 = m by omega, show (m * 36 + d) % 36 = d by omega, ← ih hm]

end Base36
end JobGate
