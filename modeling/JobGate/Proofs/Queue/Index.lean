/-
The list of waiting identifiers is an index of the entries.

A queue in memory keeps the identifiers of the entries that wait in a list of their own, which a
claim shortens before it looks the entry up.  `Indexed` says that this list and the entries tell
the same.  It holds between any two calls and between the steps of a sweep, so a claim always finds
the entry whose identifier it took from the list, and no identifier is put into the list twice.
-/
import JobGate.Proofs.Queue.MemoryHistory

namespace JobGate
namespace MemoryQueue

open QueueHistory ExecutionQueue

structure Indexed (q : MemoryQueue) : Prop where
  /-- The identifiers in the list are those of the entries without a claim. -/
  pending_iff : ∀ id, id ∈ q.pending ↔ ∃ e, q.entry? id = some e ∧ e.claim = none
  /-- The list is in order and holds no identifier twice. -/
  ascending : q.pending.Pairwise (· < ·)
  /-- An entry is found by its own identifier and by no other. -/
  found_iff : ∀ id e, q.entry? id = some e ↔ e ∈ q.entries ∧ e.dispatch.id = id
  numbered : ∀ e ∈ q.entries, 1 ≤ e.dispatch.id ∧ e.dispatch.id < q.nextId

def takenBy (worker : String) (clock : Clock) (e : MemoryEntry) : MemoryEntry :=
  { e with claim := some ⟨worker, clock.elapsed⟩ }

variable {q : MemoryQueue}

theorem Sound.indexed (h : q.Sound) (hpos : ∀ e ∈ q.entries, 1 ≤ e.dispatch.id) : q.Indexed where
  pending_iff id := by
    rw [h.pending]
    constructor
    · intro hid
      obtain ⟨e, he, rfl⟩ := List.mem_map.1 hid
      obtain ⟨hmem, hnone⟩ := List.mem_filter.1 he
      exact ⟨e, entry?_of_mem h hmem, Option.isNone_iff_eq_none.1 hnone⟩
    · rintro ⟨e, he, hnone⟩
      obtain ⟨hmem, rfl⟩ := of_entry? he
      exact List.mem_map_of_mem (List.mem_filter.2 ⟨hmem, Option.isNone_iff_eq_none.2 hnone⟩)
  ascending := by
    rw [h.pending]
    exact h.ascending.sublist (List.filter_sublist.map _)
  found_iff id e := ⟨fun he => of_entry? he, by rintro ⟨hmem, rfl⟩; exact entry?_of_mem h hmem⟩
  numbered e he := ⟨hpos e he, h.fresh e he⟩

/-! ## The steps of a sweep -/

/-- Freeing an entry, or failing to, leaves a sound queue with the same identifiers. -/
theorem freeAll_kept (h : q.Sound) (ids : List Int) :
    (q.freeAll ids).2.Sound ∧
      (q.freeAll ids).2.entries.map (·.dispatch.id) = q.entries.map (·.dispatch.id) := by
  induction ids generalizing q with
  | nil => exact ⟨h, rfl⟩
  | cons id rest ih =>
    rcases free?_spec h id (some reclaimMessage) with ⟨hnone, -⟩ | ⟨q', hsome, -, hsound, -⟩
    · simp only [freeAll, hnone]
      exact ih h
    · obtain ⟨hrest, hids⟩ := ih hsound
      have hq' : q'.entries.map (·.dispatch.id) = q.entries.map (·.dispatch.id) := by
        rw [free?_eq] at hsome
        split at hsome
        · cases hsome
          exact update_ids (q := q) fun _ => rfl
        · cases hsome
      simp only [freeAll, hsome]
      exact ⟨hrest, hids.trans hq'⟩

theorem freeAll_indexed (h : q.Sound) (hpos : ∀ e ∈ q.entries, 1 ≤ e.dispatch.id)
    (ids : List Int) : (q.freeAll ids).2.Indexed := by
  obtain ⟨hsound, hids⟩ := freeAll_kept h ids
  refine hsound.indexed fun e he => ?_
  have hmem : e.dispatch.id ∈ q.entries.map (·.dispatch.id) := hids ▸ List.mem_map_of_mem he
  obtain ⟨x, hx, hid⟩ := List.mem_map.1 hmem
  exact hid ▸ hpos x hx

theorem entry?_update {id : Int} {f : MemoryEntry → MemoryEntry}
    (hf : ∀ e, (f e).dispatch.id = e.dispatch.id) (i : Int) :
    entry? (q.update id f) i = (q.entry? i).map fun e => if e.dispatch.id = id then f e else e := by
  show List.find? _ (List.map _ _) = Option.map _ (List.find? _ _)
  rw [List.find?_map]
  congr 2
  funext e
  by_cases he : e.dispatch.id = id
  · rw [Function.comp_apply, if_pos he, hf]
  · rw [Function.comp_apply, if_neg he]

namespace Indexed

variable {id : Int}

/-- An identifier is put into the list only where it does not stand in it yet. -/
theorem not_pending_of_free? (h : q.Indexed) {error : Option String} {q' : MemoryQueue}
    (hfree : q.free? id error = some q') :
    id ∉ q.pending ∧ q'.pending = insertId id q.pending := by
  rw [free?_eq] at hfree
  split at hfree
  · rename_i hclaimed
    cases hfree
    refine ⟨fun hid => ?_, rfl⟩
    obtain ⟨e, he, hnone⟩ := (h.pending_iff id).1 hid
    rw [isClaimed, he, Option.bind_some, hnone] at hclaimed
    cases hclaimed
  · cases hfree

/-- A claim takes the least identifier from the list and finds its entry. -/
theorem claim_eq (h : q.Indexed) {rest : List Int} (hpending : q.pending = id :: rest)
    (clock : Clock) (worker : String) :
    ∃ e, q.entry? id = some e ∧ q.claim clock worker =
      (.ok (some e.dispatch), { q.update id (takenBy worker clock) with pending := rest }) := by
  obtain ⟨e, he, -⟩ := (h.pending_iff id).1 (hpending ▸ List.mem_cons_self)
  refine ⟨e, he, ?_⟩
  have hentry : MemoryQueue.entry? { q with pending := rest } id = some e := he
  unfold claim
  rw [hpending]
  simp only [hentry]
  rfl

/-- An empty list answers that nothing waits.  Otherwise the entry of the least identifier is handed
out, and no other entry changes. -/
theorem claim_takes (h : q.Indexed) (clock : Clock) (worker : String) :
    (q.pending = [] ∧ q.claim clock worker = (.ok none, q)) ∨
    ∃ id rest e, q.pending = id :: rest ∧ q.entry? id = some e ∧
      (q.claim clock worker).1 = .ok (some e.dispatch) ∧
      (q.claim clock worker).2.pending = rest ∧
      ∀ i, entry? (q.claim clock worker).2 i =
        if i = id then some (takenBy worker clock e) else q.entry? i := by
  cases hpending : q.pending with
  | nil => exact .inl ⟨rfl, by unfold claim; rw [hpending]⟩
  | cons id rest =>
    obtain ⟨e, he, hclaim⟩ := h.claim_eq hpending clock worker
    refine .inr ⟨id, rest, e, rfl, he, by rw [hclaim], by rw [hclaim], fun i => ?_⟩
    have hupdate : entry? (q.claim clock worker).2 i = (q.entry? i).map fun e =>
        if e.dispatch.id = id then takenBy worker clock e else e := by
      rw [hclaim]
      exact entry?_update (f := takenBy worker clock) (fun _ => rfl) i
    rw [hupdate]
    by_cases hi : i = id
    · obtain ⟨-, hid⟩ := of_entry? he
      rw [if_pos hi, hi, he, Option.map_some, if_pos hid]
    · rw [if_neg hi]
      cases hother : q.entry? i with
      | none => rfl
      | some x =>
        obtain ⟨-, hx⟩ := of_entry? hother
        rw [Option.map_some, if_neg fun hid => hi (hx ▸ hid)]

end Indexed

/-! ## The life of a queue -/

/-- The entries that wait are no more than all, and the others are claimed. -/
theorem depth_eq (h : q.Sound) :
    q.pending.length + q.entries.countP (·.claim.isSome) = q.entries.length := by
  have hall := List.length_eq_countP_add_countP (fun e : MemoryEntry => e.claim.isNone)
    (l := q.entries)
  have hclaimed : q.entries.countP (fun e => ¬ e.claim.isNone = true) =
      q.entries.countP (·.claim.isSome) :=
    List.countP_congr fun e _ => by cases e.claim <;> simp
  rw [h.pending, waiting, List.length_map, ← List.countP_eq_length_filter, hall, hclaimed]

/-- What is left of the entries when those that wait are taken off is what is claimed. -/
theorem depth_counts (h : q.Sound) :
    q.depth = ⟨q.entries.countP (·.claim.isNone), q.entries.countP (·.claim.isSome)⟩ := by
  have hdepth := depth_eq h
  have hwaiting : q.pending.length = q.entries.countP (·.claim.isNone) := by
    rw [h.pending, waiting, List.length_map, List.countP_eq_length_filter]
  show Depth.mk _ _ = Depth.mk _ _
  congr 1
  omega

/-- Throughout the life of a queue the list of waiting identifiers and the entries tell the same.

So a claim that takes an identifier from the list hands out its entry, which is claimed from then
on, and changes no other; the entries that do not wait are counted as claimed; and an entry that is
freed, by a release or by a step of a sweep, did not wait before. -/
theorem indexed_throughout (capacity : Nat) (calls : List QueueCall) :
    let q := after (new capacity) calls
    q.Indexed ∧
    (∀ clock worker,
      (q.pending = [] ∧ q.claim clock worker = (.ok none, q)) ∨
      ∃ id rest e, q.pending = id :: rest ∧ q.entry? id = some e ∧
        (q.claim clock worker).1 = .ok (some e.dispatch) ∧
        (q.claim clock worker).2.pending = rest ∧
        ∀ i, entry? (q.claim clock worker).2 i =
          if i = id then some (takenBy worker clock e) else q.entry? i) ∧
    q.pending.length ≤ q.entries.length ∧
    q.depth = ⟨q.entries.countP (·.claim.isNone), q.entries.countP (·.claim.isSome)⟩ ∧
    ∀ ids, let swept := (q.freeAll ids).2
      swept.Indexed ∧ ∀ id error q', swept.free? id error = some q' →
        id ∉ swept.pending ∧ q'.pending = insertId id swept.pending := by
  intro q
  have hq : q.Follows capacity (history (new capacity) calls) := follows_history capacity calls
  have hpos : ∀ e ∈ q.entries, 1 ≤ e.dispatch.id := by
    intro e he
    obtain ⟨id, a, ha, hstored⟩ := mem_roll.1 (hq.entries ▸ he)
    rw [stored_id hstored]
    exact (hq.numbered.mem_iff.1 (mem_ids_of_account ha)).1
  have hindexed : q.Indexed := hq.sound.indexed hpos
  have hdepth := depth_eq hq.sound
  exact ⟨hindexed, hindexed.claim_takes, by omega, depth_counts hq.sound, fun ids =>
    ⟨freeAll_indexed hq.sound hpos ids, fun id error q' =>
      (freeAll_indexed hq.sound hpos ids).not_pending_of_free?⟩⟩

end MemoryQueue
end JobGate
