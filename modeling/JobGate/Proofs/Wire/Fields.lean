/-
What is read out of an object.

An object with distinct names is read when the value of every field is accepted, and what is kept
of it are these values (`fields_of_shown`).  The order of the members does not matter, nor do
members that are no field, and an absent field counts as its default.  Nothing is kept that was not
part of the value (`fields_parts`).
-/
import JobGate.Wire.Reading
import Mathlib.Data.List.Forall2

namespace JobGate
namespace Wire

/-! ## Steps that succeed -/

section Steps

variable {α β : Type} {x : Except Fault α} {a : α} {b : β}

theorem bind_of_ok (h : x = .ok a) (f : α → Except Fault β) : x >>= f = f a := by
  rw [h]
  rfl

theorem bind_eq_ok {f : α → Except Fault β} :
    x >>= f = .ok b ↔ ∃ a, x = .ok a ∧ f a = .ok b := by
  cases x with
  | error fault => exact ⟨nofun, fun ⟨_, h, _⟩ => nomatch h⟩
  | ok a =>
    refine ⟨fun h => ⟨a, rfl, h⟩, fun ⟨_, h, hf⟩ => ?_⟩
    cases h
    exact hf

theorem map_eq_ok {f : α → β} : x.map f = .ok b ↔ ∃ a, x = .ok a ∧ f a = b := by
  cases x with
  | error fault => exact ⟨nofun, fun ⟨_, h, _⟩ => nomatch h⟩
  | ok a =>
    refine ⟨fun h => ⟨a, rfl, Except.ok.inj h⟩, fun ⟨_, h, hf⟩ => ?_⟩
    cases h
    exact congrArg _ hf

theorem slot_accepts {read : Reader α} {v : Json} (h : read v = .ok a) (name : String)
    (absence : Absence) : (slot name read absence).accepts v = .ok () :=
  map_eq_ok.2 ⟨a, h, rfl⟩

end Steps

/-! ## Members by name -/

section Names

variable {members : List (String × Json)} {name : String} {value : Json}

theorem lookup_of_new (h : name ∉ members.map Prod.fst) : members.lookup name = none :=
  List.lookup_eq_none_iff.2 fun _ hm => bne_iff_ne.2 fun heq => h (heq ▸ List.mem_map_of_mem hm)

theorem mem_of_lookup (h : members.lookup name = some value) : (name, value) ∈ members := by
  obtain ⟨before, after, hmembers, -⟩ := List.lookup_eq_some_iff.1 h
  rw [hmembers]
  exact List.mem_append_right _ List.mem_cons_self

theorem lookup_of_mem (hnodup : (members.map Prod.fst).Nodup) (h : (name, value) ∈ members) :
    members.lookup name = some value := by
  obtain ⟨before, after, rfl⟩ := List.append_of_mem h
  refine List.lookup_eq_some_iff.2 ⟨before, after, rfl, fun m hm => bne_iff_ne.2 ?_⟩
  rw [List.map_append, List.nodup_append] at hnodup
  exact (hnodup.2.2 m.1 (List.mem_map_of_mem hm) name (List.mem_map_of_mem List.mem_cons_self)).symm

end Names

/-! ## Members looked at in order -/

variable {slots : List Slot} {seen f : Fields}

/-- What is kept after a member has been looked at. -/
theorem takeMember_of_fresh {name : String} {value : Json} (hfresh : seen.lookup name = none)
    (haccepts : ∀ s ∈ slots, s.name = name → s.accepts value = .ok ()) :
    ∃ seen', takeMember slots seen (some name) (some value) = .ok seen' ∧
      ∀ k, seen'.lookup k = if k = name ∧ name ∈ slots.map Slot.name then some value
        else seen.lookup k := by
  cases hfind : slots.find? (·.name = name) with
  | none =>
    have hunknown : name ∉ slots.map Slot.name := by
      rw [List.mem_map]
      rintro ⟨s, hs, hname⟩
      exact of_decide_eq_false (Bool.eq_false_iff.2 (List.find?_eq_none.1 hfind s hs)) hname
    refine ⟨seen, by simp only [takeMember, hfind], fun k => ?_⟩
    rw [if_neg fun h => hunknown h.2]
  | some s =>
    have hs := List.mem_of_find?_eq_some hfind
    have hname : s.name = name := by simpa using List.find?_some hfind
    have hknown : name ∈ slots.map Slot.name := List.mem_map.2 ⟨s, hs, hname⟩
    have htake : takeMember slots seen (some name) (some value) = .ok ((name, value) :: seen) := by
      simp [takeMember, hfind, hfresh, haccepts s hs hname]
    refine ⟨_, htake, fun k => ?_⟩
    rw [List.lookup_cons]
    by_cases hk : k = name
    · rw [if_pos ⟨hk, hknown⟩, hk, beq_self_eq_true]
    · rw [if_neg fun h => hk h.1, beq_false_of_ne hk]

theorem takeMembers_of_fresh (members : List (String × Json))
    (hnodup : (members.map Prod.fst).Nodup) (hfresh : ∀ m ∈ members, seen.lookup m.1 = none)
    (haccepts : ∀ m ∈ members, ∀ s ∈ slots, s.name = m.1 → s.accepts m.2 = .ok ()) :
    ∃ f, takeMembers slots seen (members.map fun (k, v) => (some k, some v)) = .ok f ∧
      ∀ s ∈ slots, f.lookup s.name = (members.lookup s.name).or (seen.lookup s.name) := by
  induction members generalizing seen with
  | nil => exact ⟨seen, rfl, fun _ _ => rfl⟩
  | cons m rest ih =>
    obtain ⟨name, value⟩ := m
    obtain ⟨hnew, hrest⟩ : name ∉ rest.map Prod.fst ∧ (rest.map Prod.fst).Nodup :=
      List.nodup_cons.1 hnodup
    obtain ⟨seen', htake, hseen⟩ := takeMember_of_fresh (hfresh _ List.mem_cons_self)
      (haccepts _ List.mem_cons_self)
    have hother : ∀ m ∈ rest, seen'.lookup m.1 = none := by
      intro m hm
      have hne : m.1 ≠ name := by
        rintro rfl
        exact hnew (List.mem_map_of_mem hm)
      rw [hseen, if_neg fun h => hne h.1, hfresh m (List.mem_cons_of_mem _ hm)]
    obtain ⟨f, hf, hlookup⟩ := ih hrest hother fun m hm => haccepts m (List.mem_cons_of_mem _ hm)
    refine ⟨f, by simp only [List.map_cons, takeMembers, htake, hf], fun s hs => ?_⟩
    rw [hlookup s hs, hseen, List.lookup_cons]
    by_cases hk : s.name = name
    · rw [if_pos ⟨hk, hk ▸ List.mem_map_of_mem hs⟩, hk, lookup_of_new hnew, beq_self_eq_true]
      rfl
    · rw [if_neg fun h => hk h.1, beq_false_of_ne hk]

/-! ## A whole object -/

/-- The value of a field: that of the member with its name, or else its default. -/
def fieldValue (defaults members : List (String × Json)) (name : String) : Option Json :=
  (members.lookup name).or (defaults.lookup name)

/-- The members of an object give each of these fields its value. -/
def Shows (defaults values members : List (String × Json)) : Prop :=
  ∀ m ∈ values, fieldValue defaults members m.1 = some m.2

/-- A slot is for a field with this name and accepts its value.  A required field has no default. -/
structure Slot.Fits (defaults : List (String × Json)) (s : Slot) (m : String × Json) : Prop where
  name_eq : s.name = m.1
  accepts : s.accepts m.2 = .ok ()
  required : s.absence = .required → defaults.lookup s.name = none

theorem slot_fits {α : Type} {read : Reader α} {name : String} {value : Json} {a : α}
    {absence : Absence} {defaults : List (String × Json)} (h : read value = .ok a)
    (hrequired : absence = .required → defaults.lookup name = none) :
    (slot name read absence).Fits defaults (name, value) :=
  ⟨rfl, slot_accepts h name absence, hrequired⟩

variable {defaults values members : List (String × Json)}

theorem fields_of_shown (hslots : List.Forall₂ (Slot.Fits defaults) slots values)
    (hnodup : (members.map Prod.fst).Nodup) (hshown : Shows defaults values members) :
    ∃ f, fields slots (.obj members) = .ok f ∧ Shows defaults values f := by
  have hvalue : ∀ s ∈ slots, ∃ v, fieldValue defaults members s.name = some v ∧
      s.accepts v = .ok () ∧ (s.absence = .required → defaults.lookup s.name = none) := by
    intro s hs
    obtain ⟨i, hi, rfl⟩ := List.getElem_of_mem hs
    have hi' : i < values.length := hslots.length_eq ▸ hi
    have hfits := hslots.get hi hi'
    have hm := hshown _ (List.getElem_mem hi')
    exact ⟨_, hfits.name_eq ▸ hm, hfits.accepts, hfits.required⟩
  have haccepts : ∀ m ∈ members, ∀ s ∈ slots, s.name = m.1 → s.accepts m.2 = .ok () := by
    intro m hm s hs hname
    obtain ⟨v, hv, haccepts, -⟩ := hvalue s hs
    rw [fieldValue, hname, lookup_of_mem hnodup hm] at hv
    exact Option.some.inj hv ▸ haccepts
  obtain ⟨f, htake, hlookup⟩ := @takeMembers_of_fresh slots [] members hnodup (fun _ _ => rfl)
    haccepts
  have hkept : ∀ s ∈ slots, f.lookup s.name = members.lookup s.name := by
    intro s hs
    rw [hlookup s hs, List.lookup_nil, Option.or_none]
  have hpresent : checkAbsent slots f = .ok f := by
    have hnone :
        slots.find? (fun s => s.absence = .required && (f.lookup s.name).isNone) = none := by
      refine List.find?_eq_none.2 fun s hs habsent => ?_
      obtain ⟨hrequired, hnone⟩ := (Bool.and_eq_true _ _).mp habsent
      obtain ⟨v, hv, -, hdefault⟩ := hvalue s hs
      rw [fieldValue, hdefault (of_decide_eq_true hrequired), Option.or_none, ← hkept s hs] at hv
      rw [hv] at hnone
      cases hnone
    unfold checkAbsent
    rw [hnone]
  refine ⟨f, ?_, fun m hm => ?_⟩
  · simp only [fields, fieldsOfMembers, htake, hpresent]
  · obtain ⟨i, hi, rfl⟩ := List.getElem_of_mem hm
    have hi' : i < slots.length := hslots.length_eq ▸ hi
    have hname := (hslots.get hi' hi).name_eq
    have hsame : f.lookup values[i].1 = members.lookup values[i].1 :=
      hname ▸ hkept _ (List.getElem_mem hi')
    rw [← hshown _ hm, fieldValue, fieldValue, hsame]

/-! ## Reading one field -/

namespace Fields

variable {α : Type} {name : String} {value : Json} {read : Reader α} {a d : α}

theorem get_of_value (hvalue : fieldValue defaults f name = some value)
    (hdefault : defaults.lookup name = none) (h : read value = .ok a) :
    f.get name read = .ok a := by
  rw [fieldValue, hdefault, Option.or_none] at hvalue
  rw [get, hvalue]
  exact h

theorem getD_of_value (hvalue : fieldValue defaults f name = some value)
    (hdefault : ∃ v, defaults.lookup name = some v ∧ read v = .ok d) (h : read value = .ok a) :
    f.getD name read d = .ok a := by
  obtain ⟨v, hv, hd⟩ := hdefault
  cases hlookup : f.lookup name with
  | none =>
    rw [fieldValue, hlookup, Option.none_or, hv] at hvalue
    rw [getD, hlookup, ← hd, Option.some.inj hvalue]
    exact h
  | some w =>
    rw [fieldValue, hlookup, Option.some_or] at hvalue
    rw [getD, hlookup]
    exact Option.some.inj hvalue ▸ h

theorem getD_nullable {a : Option α} (hvalue : fieldValue defaults f name = some value)
    (hdefault : defaults.lookup name = some .null) (h : nullable read value = .ok a) :
    f.getD name (nullable read) none = .ok a :=
  getD_of_value hvalue ⟨.null, hdefault, rfl⟩ h

theorem get_eq_ok (h : f.get name read = .ok a) : ∃ v, (name, v) ∈ f ∧ read v = .ok a := by
  cases hlookup : f.lookup name with
  | none =>
    rw [get, hlookup] at h
    cases h
  | some v =>
    rw [get, hlookup] at h
    exact ⟨v, mem_of_lookup hlookup, h⟩

theorem getD_eq_ok (h : f.getD name read d = .ok a) :
    a = d ∨ ∃ v, (name, v) ∈ f ∧ read v = .ok a := by
  cases hlookup : f.lookup name with
  | none =>
    rw [getD, hlookup] at h
    exact .inl (Except.ok.inj h).symm
  | some v =>
    rw [getD, hlookup] at h
    exact .inr ⟨v, mem_of_lookup hlookup, h⟩

end Fields

/-! ## Nothing else is kept -/

def parts : Json → List Json
  | .obj members => members.map Prod.snd
  | .arr elements => elements
  | _ => []

theorem takeMember_mem {name : Option String} {value : Option Json} {f : Fields}
    (h : takeMember slots seen name value = .ok f) {m : String × Json} (hm : m ∈ f) :
    m ∈ seen ∨ value = some m.2 := by
  unfold takeMember at h
  split at h
  · cases h
  · split at h
    · cases h
      exact .inl hm
    · split_ifs at h
      split at h
      · cases h
      · split at h
        · cases h
        · cases h
          rcases List.mem_cons.1 hm with rfl | hm
          · exact .inr rfl
          · exact .inl hm

theorem takeMembers_mem (ms : List (Option String × Option Json))
    (h : takeMembers slots seen ms = .ok f) {m : String × Json} (hm : m ∈ f) :
    m ∈ seen ∨ some m.2 ∈ ms.map Prod.snd := by
  induction ms generalizing seen with
  | nil =>
    cases h
    exact .inl hm
  | cons first rest ih =>
    obtain ⟨name, value⟩ := first
    unfold takeMembers at h
    split at h
    case h_1 => cases h
    case h_2 seen' htake =>
      rw [List.map_cons, List.mem_cons]
      rcases ih h with hseen | hrest
      · exact (takeMember_mem htake hseen).imp_right fun hvalue => .inl hvalue.symm
      · exact .inr (.inr hrest)

theorem checkAbsent_eq_ok (h : checkAbsent slots seen = .ok f) : f = seen := by
  unfold checkAbsent at h
  split at h
  · cases h
  · exact (Except.ok.inj h).symm

/-- What is kept of a value is a part of it. -/
theorem fields_parts {j : Json} (h : fields slots j = .ok f) {m : String × Json} (hm : m ∈ f) :
    m.2 ∈ parts j := by
  unfold fields at h
  split at h
  case h_1 members =>
    unfold fieldsOfMembers at h
    split at h
    case h_1 => cases h
    case h_2 seen htake =>
      have hmem := takeMembers_mem _ htake (checkAbsent_eq_ok h ▸ hm)
      simpa [parts] using hmem
  case h_2 elements =>
    unfold fieldsOfElements at h
    split at h
    case h_1 => cases h
    case h_2 seen htake =>
      have hseen : f = seen := by
        split_ifs at h
        exact (Except.ok.inj h).symm
      have hmem := takeMembers_mem _ htake (hseen ▸ hm)
      rw [← List.map_uncurry_zip_eq_zipWith, List.map_map, List.mem_map] at hmem
      rcases hmem with hnil | ⟨⟨s, j⟩, hzip, hj⟩
      · cases hnil
      · exact Option.some.inj hj ▸ (List.of_mem_zip hzip).2
  case h_3 => cases h

end Wire
end JobGate
