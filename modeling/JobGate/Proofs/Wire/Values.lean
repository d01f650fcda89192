/-
The readers of single values.

A reader gives back what was written (`status_name`, `instant_ofInstant`, `natural_nat`), and what a
checked reader gives back has passed its check: a number is in range (`natural_le`,
`isSigned_of_signed`), and an identifier is valid and spelled out in the value (`get_runId`).
-/
import JobGate.Proofs.Run.Identifier
import JobGate.Proofs.Time.Rfc3339
import JobGate.Proofs.Wire.Fields
import JobGate.Wire.Records

namespace JobGate
namespace Wire

/-! ## Single values -/

theorem text_str (s : String) : text (.str s) = .ok s := rfl

theorem members_obj (members : List (String × Json)) : Wire.members (.obj members) = .ok members :=
  rfl

theorem nullable_text (s : Option String) : nullable text (Json.nullable .str s) = .ok s := by
  cases s <;> rfl

theorem word_text {α : Type} {known : List String} {ofName? : String → Option α} {s : String}
    {a : α} (h : ofName? s = some a) : word known ofName? (.str s) = .ok a := by
  simp only [word, word.named, h]

theorem status_name (s : Status) : status (.str s.name) = .ok s :=
  word_text (by cases s <;> decide)

theorem eventKind_name (k : EventKind) : eventKind (.str k.name) = .ok k :=
  word_text (by cases k <;> decide)

theorem intentKind_name (k : IntentKind) : intentKind (.str k.name) = .ok k :=
  word_text (by cases k <;> decide)

theorem workerState_name (s : WorkerState) : workerState (.str s.name) = .ok s :=
  word_text (by cases s <;> decide)

theorem instant_ofInstant (t : Instant) : instant (ofInstant t) = .ok t := by
  simp only [instant, ofInstant, Rfc3339.parse?_zulu]

/-! ## Identifiers -/

theorem runId_text (id : RunId) : runId (.str id.text) = .ok id := by
  simp only [runId, RunId.parse_of_valid id.valid]
  rfl

/-- An identifier is read from a text that is one. -/
theorem runId_eq_ok {v : Json} {id : RunId} (h : runId v = .ok id) :
    v = .str id.text ∧ RunId.parse id.text = .ok id := by
  unfold runId at h
  split at h
  case h_1 s =>
    cases hparse : RunId.parse s with
    | error fault =>
      rw [hparse] at h
      cases h
    | ok id' =>
      rw [hparse] at h
      cases h
      rw [RunId.parse_eq_ok_iff.1 hparse]
      exact ⟨rfl, hparse⟩
  case h_2 => cases h

/-- The identifier is spelled out in the value that the fields were read from. -/
theorem get_runId {slots : List Slot} {j : Json} {f : Fields} {name : String} {id : RunId}
    (hf : fields slots j = .ok f) (h : f.get name runId = .ok id) :
    .str id.text ∈ parts j ∧ RunId.parse id.text = .ok id := by
  obtain ⟨v, hv, hread⟩ := Fields.get_eq_ok h
  obtain ⟨rfl, hparse⟩ := runId_eq_ok hread
  exact ⟨fields_parts hf hv, hparse⟩

/-! ## Numbers -/

theorem natural_nat {n high : Nat} (h : n ≤ high) : natural high (.nat n) = .ok n := by
  have hrange : (0 : Int) ≤ n ∧ (n : Int) ≤ high := by omega
  simp only [natural, Json.nat, if_pos hrange, Int.toNat_natCast]

theorem natural_le {v : Json} {n high : Nat} (h : natural high v = .ok n) : n ≤ high := by
  unfold natural at h
  split at h
  · split_ifs at h
    cases h
    omega
  · cases h

def IsSigned (n : Int) : Prop := -9223372036854775808 ≤ n ∧ n ≤ 9223372036854775807

instance (n : Int) : Decidable (IsSigned n) := inferInstanceAs (Decidable (_ ∧ _))

theorem signed_int {n : Int} (h : IsSigned n) : signed (.int n) = .ok n := by
  simp only [signed, integer, Json.int]
  exact if_pos h

theorem isSigned_of_signed {v : Json} {n : Int} (h : signed v = .ok n) : IsSigned n := by
  unfold signed integer at h
  split at h
  · split_ifs at h with hrange
    cases h
    exact hrange
  · cases h

theorem nullable_signed {n : Option Int} (h : ∀ k ∈ n, IsSigned k) :
    nullable signed (Json.nullable .int n) = .ok n := by
  cases n with
  | none => rfl
  | some k => exact map_eq_ok.2 ⟨k, signed_int (h k rfl), rfl⟩

theorem isSigned_of_nullable {f : Fields} {name : String} {n : Option Int}
    (h : f.getD name (nullable signed) none = .ok n) : ∀ k ∈ n, IsSigned k := by
  rcases Fields.getD_eq_ok h with rfl | ⟨v, -, hv⟩
  · exact fun _ hk => nomatch hk
  · unfold nullable at hv
    split at hv
    · cases hv
      exact fun _ hk => nomatch hk
    · obtain ⟨k, hk, rfl⟩ := map_eq_ok.1 hv
      rintro _ ⟨⟩
      exact isSigned_of_signed hk

end Wire
end JobGate
