/-
A command is read as it was written.

A word has something in it and nothing that is blank.  A command word and an argument with
one blank between them are read back as these two (`Intent.parse_command`), whatever the
argument, as long as it is a word; and the identifier of a run always is one.
-/
import JobGate.Intent
import JobGate.Run.Identifier

namespace JobGate

namespace Text

structure IsWord (w : List Char) : Prop where
  nonempty : w ≠ []
  visible : ∀ c ∈ w, isBlank c = false

theorem isWord_of_all {w : List Char} (hne : w.isEmpty = false)
    (hvisible : w.all (!isBlank ·) = true) : IsWord w where
  nonempty := List.isEmpty_eq_false_iff.1 hne
  visible c hc := by simpa using List.all_eq_true.1 hvisible c hc

/-- A word ends where a blank or nothing follows. -/
theorem words_append {w rest : List Char} (hw : IsWord w)
    (hrest : ∀ c ∈ rest.head?, isBlank c = true) : words (w ++ rest) = w :: words rest := by
  obtain ⟨hne, hvisible⟩ := hw
  induction w with
  | nil => exact absurd rfl hne
  | cons c w ih =>
    have hc : isBlank c = false := hvisible c List.mem_cons_self
    cases w with
    | nil =>
      rw [List.cons_append, List.nil_append, words.eq_def (c :: rest)]
      cases rest with
      | nil => simp only [hc, Bool.false_eq_true, if_false, words.eq_def []]
      | cons b rest => simp only [hc, hrest b rfl, Bool.false_eq_true, if_false, if_true]
    | cons d w =>
      have hd : isBlank d = false := hvisible d (List.mem_cons_of_mem _ List.mem_cons_self)
      have htail := ih (List.cons_ne_nil d w) fun x hx => hvisible x (List.mem_cons_of_mem _ hx)
      rw [List.cons_append] at htail ⊢
      rw [List.cons_append, words.eq_def (c :: d :: (w ++ rest))]
      simp only [hc, hd, htail, Bool.false_eq_true, if_false]

theorem words_eq_singleton {w : List Char} (hw : IsWord w) : words w = [w] := by
  have h : words (w ++ []) = w :: words [] := words_append hw nofun
  rwa [List.append_nil] at h

theorem words_blank {b : Char} (hb : isBlank b = true) (cs : List Char) :
    words (b :: cs) = words cs := by
  rw [words.eq_def (b :: cs)]
  simp only [hb, if_true]

/-- A text that begins with a word is not blank. -/
theorem not_isEmptyTrimmed {s : String} {w rest : List Char} (hw : IsWord w)
    (hs : s.toList = w ++ rest) : isEmptyTrimmed s = false := by
  obtain ⟨c, hc⟩ := List.exists_mem_of_ne_nil w hw.nonempty
  refine List.all_eq_false.2 ⟨c, ?_, by rw [hw.visible c hc]; exact Bool.false_ne_true⟩
  rw [hs]
  exact List.mem_append_left _ hc

end Text

/-! ## Identifiers -/

namespace Identifier

theorem isAlphanum_bounds {c : Char} (h : c.isAlphanum = true) :
    0x30 ≤ c.toNat ∧ c.toNat ≤ 0x7a := by
  rcases (Bool.or_eq_true _ _).mp h with hletter | hdigit
  · rcases (Bool.or_eq_true _ _).mp hletter with hupper | hlower
    · obtain ⟨hlow, hhigh⟩ := of_decide_eq_true hupper
      exact ⟨Nat.le_trans (by decide) hlow, Nat.le_trans hhigh (by decide)⟩
    · obtain ⟨hlow, hhigh⟩ := (Bool.and_eq_true _ _).mp hlower
      exact ⟨Nat.le_trans (by decide) (of_decide_eq_true hlow),
        Nat.le_trans (of_decide_eq_true hhigh) (by decide)⟩
  · obtain ⟨hlow, hhigh⟩ := (Bool.and_eq_true _ _).mp hdigit
    exact ⟨of_decide_eq_true hlow, Nat.le_trans (of_decide_eq_true hhigh) (by decide)⟩

/-- Everything that an identifier is made of stands between the hyphen and the letter z. -/
theorem allows_bounds {c : Char} (h : allows c = true) : 0x2d ≤ c.toNat ∧ c.toNat ≤ 0x7a := by
  simp only [allows, Bool.or_eq_true, decide_eq_true_eq] at h
  rcases h with (((halphanum | rfl) | rfl) | rfl) | rfl
  · obtain ⟨hlow, hhigh⟩ := isAlphanum_bounds halphanum
    exact ⟨Nat.le_trans (by decide) hlow, hhigh⟩
  all_goals exact ⟨by decide, by decide⟩

/-- What an identifier is made of is not blank. -/
theorem isBlank_of_allows {c : Char} (h : allows c = true) : Text.isBlank c = false := by
  obtain ⟨hlow, hhigh⟩ := allows_bounds h
  simp only [Text.isBlank, Bool.or_eq_false_iff, Bool.and_eq_false_iff, decide_eq_false_iff_not,
    beq_eq_false_iff_ne]
  omega

end Identifier

namespace RunId

theorem allowed (id : RunId) :
    id.text.isEmpty = false ∧ id.text.toList.all Identifier.allows = true := by
  have hvalid := id.valid
  unfold Identifier.fault? at hvalid
  cases hempty : id.text.isEmpty with
  | true =>
    rw [if_pos hempty] at hvalid
    cases hvalid
  | false =>
    rw [hempty, if_neg Bool.false_ne_true] at hvalid
    by_cases hall : id.text.toList.all Identifier.allows = true
    · exact ⟨rfl, hall⟩
    · rw [if_neg hall] at hvalid
      cases hvalid

theorem isWord (id : RunId) : Text.IsWord id.text.toList where
  nonempty h := by
    have hempty := id.allowed.1
    rw [String.toList_eq_nil_iff.1 h] at hempty
    cases hempty
  visible c hc := Identifier.isBlank_of_allows (List.all_eq_true.1 id.allowed.2 c hc)

end RunId

/-! ## Commands -/

theorem Text.toList_command (command argument : String) :
    (command ++ " " ++ argument).toList = command.toList ++ ' ' :: argument.toList := by
  simp [String.toList_append]

/-- A command word and one argument are read as what they are. -/
theorem Intent.parse_command {command argument : String} {kind : IntentKind}
    (hkind : IntentKind.ofCommand? command.toList = some kind)
    (hcommand : Text.IsWord command.toList) (hargument : Text.IsWord argument.toList) :
    parse (command ++ " " ++ argument) =
      ofCommand kind (Text.trim (command ++ " " ++ argument)) argument := by
  have hspace : ∀ c ∈ (' ' :: argument.toList).head?, Text.isBlank c = true := by
    intro c hc
    cases hc
    rfl
  have hwords : Text.words (command ++ " " ++ argument).toList =
      [command.toList, argument.toList] := by
    rw [Text.toList_command, Text.words_append hcommand hspace, Text.words_blank rfl,
      Text.words_eq_singleton hargument]
  unfold parse
  simp only [hwords, hkind, String.ofList_toList]

end JobGate
