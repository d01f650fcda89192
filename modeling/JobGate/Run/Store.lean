/-
The records of all runs.

Records are kept in the order in which their runs were created, and no two have
the same identifier.  A record is looked up by the text of its identifier, since
that is what a message holds.
-/
import JobGate.Run.Record

namespace JobGate

/-- Records with different identifiers, the oldest first. -/
structure RunStore where
  records : List RunRecord
  distinct : (records.map (·.run.id)).Nodup

namespace RunStore

def empty : RunStore := ⟨[], List.nodup_nil⟩

instance : Inhabited RunStore := ⟨empty⟩

def find? (s : RunStore) (id : String) : Option RunRecord :=
  s.records.find? (·.run.id.text = id)

def contains (s : RunStore) (id : String) : Bool := (s.find? id).isSome

def size (s : RunStore) : Nat := s.records.length

theorem not_mem_of_find?_eq_none {s : RunStore} {id : RunId} (h : s.find? id.text = none) :
    id ∉ s.records.map (·.run.id) := by
  intro hmem
  obtain ⟨r, hr, rfl⟩ := List.mem_map.1 hmem
  simpa using List.find?_eq_none.1 h r hr

/-- Adds a record behind the others, unless its identifier is taken. -/
def insert? (s : RunStore) (r : RunRecord) : Option RunStore :=
  match h : s.find? r.run.id.text with
  | some _ => none
  | none =>
    some
      { records := s.records ++ [r]
        distinct := by
          rw [List.map_append, List.nodup_append]
          refine ⟨s.distinct, by simp, ?_⟩
          intro a ha b hb hab
          simp only [List.map_cons, List.map_nil, List.mem_singleton] at hb
          exact not_mem_of_find?_eq_none h (hb ▸ hab ▸ ha) }

/-- The identifiers do not change when every record is replaced by one of its
own identifier. -/
theorem map_id_replace (records : List RunRecord) (r : RunRecord) :
    (records.map fun x => if x.run.id = r.run.id then r else x).map (·.run.id) =
      records.map (·.run.id) := by
  rw [List.map_map]
  refine List.map_congr_left fun x _ => ?_
  by_cases h : x.run.id = r.run.id <;> simp [h]

/-- Replaces the record of a run by another record of the same run. -/
def put (s : RunStore) (r : RunRecord) : RunStore where
  records := s.records.map fun x => if x.run.id = r.run.id then r else x
  distinct := by rw [map_id_replace]; exact s.distinct

def ids (s : RunStore) : List RunId :=
  (s.records.map (·.run.id)).mergeSort fun a b => decide (a.text ≤ b.text)

end RunStore
end JobGate
