/-
Keys are read back from their bytes.

The parts of a key stand in its bytes with a NUL between one and the next, so two lists of
parts have the same bytes when a NUL of the one is taken for the end of a part in the
other.  Nothing else can go wrong: keys whose parts hold no NUL are equal when their bytes
are (`Key.bytes_inj`).
-/
import JobGate.Proofs.Message.Command
import JobGate.Proofs.Message.Notice
import JobGate.Proofs.Text.Digits

namespace JobGate

/-! ## Texts without a NUL -/

/-- Whether a text can be told from the next one in a key. -/
def Text.IsPlain (s : String) : Prop := '\x00' ∉ s.toList

namespace Text

instance (s : String) : Decidable (IsPlain s) :=
  inferInstanceAs (Decidable ('\x00' ∉ s.toList))

theorem isPlain_append {s t : String} : IsPlain (s ++ t) ↔ IsPlain s ∧ IsPlain t := by
  simp only [IsPlain, String.toList_append, List.mem_append, not_or]

theorem isPlain_of_all {s : String} {p : Char → Bool} (hs : s.toList.all p = true)
    (hp : p '\x00' = false) : IsPlain s := by
  intro hmem
  rw [List.all_eq_true.1 hs _ hmem] at hp
  cases hp

theorem isPlain_toString (n : Nat) : IsPlain (toString n) :=
  isPlain_of_all (p := Char.isDigit) (List.all_eq_true.2 fun _ => isDigit_of_mem_toString) rfl

end Text

theorem EventKind.isPlain_purpose {k : EventKind} {purpose : String}
    (h : k.purpose? = some purpose) : Text.IsPlain purpose := by
  cases k <;> cases h <;> decide

theorem Notice.isPlain_replyPurpose {purpose : String} (h : purpose ∈ replyPurposes) :
    Text.IsPlain purpose := by
  have hall : ∀ p ∈ replyPurposes, Text.IsPlain p := by decide
  exact hall purpose h

theorem Status.isPlain_name (s : Status) : Text.IsPlain s.name := by
  cases s <;> decide

theorem RunId.isPlain (id : RunId) : Text.IsPlain id.text :=
  Text.isPlain_of_all id.allowed.2 rfl

structure Inbound.IsPlain (m : Inbound) : Prop where
  fields : ∀ f, Text.IsPlain (m.get f)
  providerId : ∀ id, m.providerId = some id → Text.IsPlain id

theorem Inbound.IsPlain.source {m : Inbound} (h : m.IsPlain) : Text.IsPlain m.source := by
  unfold Inbound.source
  cases hid : m.providerId with
  | none => exact h.fields .body
  | some id => exact h.providerId id hid

/-! ## Bytes -/

namespace Key

theorem toList_loop (bs : ByteArray) (i : Nat) (read : List UInt8) :
    ByteArray.toList.loop bs i read = read.reverse ++ bs.data.toList.drop i := by
  fun_induction ByteArray.toList.loop bs i read with
  | case1 i read hlt ih =>
    have hbyte : bs.get! i = bs.data.toList[i] := getElem!_pos bs.data i hlt
    rw [ih, List.reverse_cons, List.append_assoc, List.drop_eq_getElem_cons hlt, hbyte]
    rfl
  | case2 i read hend =>
    rw [List.drop_eq_nil_of_le (Nat.le_of_not_lt hend), List.append_nil]

theorem toList_byteArray (bs : ByteArray) : bs.toList = bs.data.toList :=
  toList_loop bs 0 []

theorem joined_inj {k k' : Key} : k.bytes = k'.bytes ↔ k.joined = k'.joined := by
  refine ⟨fun h => ?_, fun h => congrArg (·.toUTF8.toList) h⟩
  have hdata : k.joined.toUTF8.data.toList = k'.joined.toUTF8.data.toList := by
    rw [← toList_byteArray, ← toList_byteArray]
    exact h
  exact String.toByteArray_inj.1 (ByteArray.ext (Array.toList_inj.1 hdata))

/-- Whether a key can be read back from its bytes. -/
structure IsPlain (k : Key) : Prop where
  ne_nil : k.parts ≠ []
  parts : ∀ s ∈ k.parts, Text.IsPlain s

theorem splitOn_joined {k : Key} (h : k.IsPlain) :
    k.joined.toList.splitOn '\x00' = k.parts.map String.toList := by
  have hplain : ∀ cs ∈ k.parts.map String.toList, '\x00' ∉ cs := by
    intro cs hcs
    obtain ⟨s, hs, rfl⟩ := List.mem_map.1 hcs
    exact h.parts s hs
  have hne : k.parts.map String.toList ≠ [] := fun hnil => h.ne_nil (List.map_eq_nil_iff.1 hnil)
  rw [joined, String.toList_intercalate]
  exact List.splitOn_intercalate _ hplain hne

theorem bytes_inj {k k' : Key} (h : k.IsPlain) (h' : k'.IsPlain) :
    k.bytes = k'.bytes ↔ k = k' := by
  refine ⟨fun hbytes => ?_, fun hk => hk ▸ rfl⟩
  have hparts : k.parts.map String.toList = k'.parts.map String.toList := by
    rw [← splitOn_joined h, ← splitOn_joined h', joined_inj.1 hbytes]
  cases k
  cases k'
  exact congrArg Key.mk ((List.map_inj_right fun _ _ => String.toList_inj.1).1 hparts)

end Key
end JobGate
