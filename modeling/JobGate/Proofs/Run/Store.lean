/-
Looking up runs.

A store is known by what `find?` gives for each identifier: the lemmas below say
this of a store after a record was added or replaced, and after them nobody looks
at the list of records.
-/
import JobGate.Run.Store
import Mathlib.Data.List.Nodup

namespace JobGate

theorem RunId.text_inj {a b : RunId} : a.text = b.text ↔ a = b := by
  refine ⟨fun h => ?_, fun h => h ▸ rfl⟩
  cases a
  cases b
  cases h
  rfl

namespace RunStore

variable {s t : RunStore} {r : RunRecord} {id : String}

theorem text_of_find? (h : s.find? id = some r) : r.run.id.text = id := by
  simpa using List.find?_some h

theorem mem_of_find? (h : s.find? id = some r) : r ∈ s.records := List.mem_of_find?_eq_some h

theorem find?_of_mem (h : r ∈ s.records) : s.find? r.run.id.text = some r := by
  cases hfind : s.find? r.run.id.text with
  | none => exact absurd (List.mem_map_of_mem h) (not_mem_of_find?_eq_none hfind)
  | some x =>
    have hid : x.run.id = r.run.id := RunId.text_inj.1 (text_of_find? hfind)
    exact congrArg some (List.inj_on_of_nodup_map s.distinct (mem_of_find? hfind) h hid)

theorem find?_put (s : RunStore) (r : RunRecord) (id : String) :
    (s.put r).find? id =
      if r.run.id.text = id then (s.find? id).map fun _ => r else s.find? id := by
  have hkey : ∀ x : RunRecord,
      (if x.run.id = r.run.id then r else x).run.id.text = x.run.id.text := by
    intro x
    by_cases hx : x.run.id = r.run.id <;> simp [hx]
  show List.find? _ (List.map _ _) = _
  rw [List.find?_map]
  have hcomp : ((fun x : RunRecord => decide (x.run.id.text = id)) ∘
      fun x => if x.run.id = r.run.id then r else x) = fun x => decide (x.run.id.text = id) := by
    funext x
    simp only [Function.comp_apply, hkey]
  rw [hcomp]
  show Option.map _ (s.find? id) = _
  cases hf : s.find? id with
  | none => simp
  | some x =>
    have hx := text_of_find? hf
    by_cases hid : r.run.id.text = id
    · have : x.run.id = r.run.id := RunId.text_inj.1 (hx.trans hid.symm)
      simp [hid, this]
    · have : x.run.id ≠ r.run.id := fun e => hid (e ▸ hx)
      simp [hid, this]

/-- A record is found where the one that it replaced was found. -/
theorem find?_put_of_id {x : RunRecord} (h : s.find? id = some x)
    (hid : r.run.id = x.run.id) : (s.put r).find? id = some r := by
  rw [find?_put, hid, if_pos (text_of_find? h), h]
  rfl

/-- What is found after a record was replaced is that record, or what was found
before. -/
theorem of_find?_put {id : String} {x : RunRecord} (h : (s.put r).find? id = some x) :
    r.run.id.text = id ∧ x = r ∨ r.run.id.text ≠ id ∧ s.find? id = some x := by
  rw [find?_put] at h
  by_cases hid : r.run.id.text = id
  · rw [if_pos hid] at h
    obtain ⟨_, -, hx⟩ := Option.map_eq_some_iff.1 h
    exact .inl ⟨hid, hx.symm⟩
  · rw [if_neg hid] at h
    exact .inr ⟨hid, h⟩

/-- A record is only added under an identifier that is free. -/
theorem records_insert? (h : s.insert? r = some t) :
    s.find? r.run.id.text = none ∧ t.records = s.records ++ [r] := by
  unfold insert? at h
  split at h
  · cases h
  · rename_i hnone
    cases h
    exact ⟨hnone, rfl⟩

theorem find?_insert (h : s.insert? r = some t) (id : String) :
    t.find? id = if r.run.id.text = id then some r else s.find? id := by
  obtain ⟨hnone, hrecords⟩ := records_insert? h
  show List.find? _ t.records = _
  rw [hrecords, List.find?_append]
  by_cases hid : r.run.id.text = id
  · subst hid
    have : s.records.find? (·.run.id.text = r.run.id.text) = none := hnone
    simp [this]
  · simp only [if_neg hid]
    show (s.find? id).or _ = s.find? id
    simp [hid]

/-- What is found after a record was added is that record, or what was found before. -/
theorem of_find?_insert {x : RunRecord} (h : s.insert? r = some t) (hx : t.find? id = some x) :
    (s.find? id = none ∧ x = r) ∨ s.find? id = some x := by
  rw [find?_insert h] at hx
  by_cases hid : r.run.id.text = id
  · rw [if_pos hid] at hx
    exact .inl ⟨hid ▸ (records_insert? h).1, (Option.some.inj hx).symm⟩
  · rw [if_neg hid] at hx
    exact .inr hx

end RunStore
end JobGate
