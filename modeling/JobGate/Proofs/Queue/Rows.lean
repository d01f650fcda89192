/-
All that a queue stores, row by row.

The live entries of a queue leave out the last error of an entry and the time from which its
claim dates.  Here an entry in memory is read as the row that a table would hold, so a queue of
either kind is a list of rows with the next number and the room that it has
(`Backend.eq_of_rows`).  A call about one entry leaves the rows of all others as they are, and
a sweep changes every row on its own.
-/
import JobGate.Proofs.Queue.Backpressure
import JobGate.Proofs.Queue.MemoryHistory

namespace JobGate

/-- An entry in memory, as a row.  Its claim dates from an elapsed time. -/
def MemoryEntry.row (e : MemoryEntry) : Row where
  id := e.dispatch.id
  run := e.dispatch.run.text
  jobKey := e.dispatch.jobKey
  status := if e.claim.isSome then .claimed else .pending
  attempts := e.dispatch.attempts
  claimedBy := e.claim.map (·.worker)
  claimedAt := e.claim.map (·.since)
  lastError := e.lastError

theorem MemoryEntry.row_injective : Function.Injective MemoryEntry.row := by
  rintro ⟨⟨id, ⟨run, _⟩, jobKey, attempts⟩, claim, error⟩
    ⟨⟨id', ⟨run', _⟩, jobKey', attempts'⟩, claim', error'⟩ h
  simp only [MemoryEntry.row, Row.mk.injEq, Int.natCast_inj] at h
  obtain ⟨rfl, rfl, rfl, -, rfl, hworker, hsince, rfl⟩ := h
  have hclaim : claim = claim' := by
    cases claim with
    | none =>
      cases claim' with
      | none => rfl
      | some c' => cases hworker
    | some c =>
      cases claim' with
      | none => cases hworker
      | some c' =>
        simp only [Option.map_some, Option.some.injEq, Int.natCast_inj] at hworker hsince
        cases c
        cases c'
        cases hworker
        cases hsince
        rfl
  rw [hclaim]

namespace Backend

variable {q q' q'' : Backend}

def kind : Backend → BackendKind
  | memory _ => .memory
  | table _ => .table

def rows : Backend → List Row
  | memory q => q.entries.map (·.row)
  | table q => q.rows

/-- A queue is known by what it stores, its next number and its room. -/
theorem eq_of_rows (h : q.Sound) (h' : q'.Sound) (hkind : q'.kind = q.kind)
    (hrows : q'.rows = q.rows) (hnext : q'.live.next = q.live.next)
    (hroom : q'.live.capacity = q.live.capacity) : q' = q := by
  cases q with
  | memory m =>
    cases q' with
    | memory m' =>
      have hentries : m'.entries = m.entries :=
        MemoryEntry.row_injective.list_map hrows
      have hpending : m'.pending = m.pending := by
        rw [MemoryQueue.Sound.pending h', MemoryQueue.Sound.pending h, hentries]
      obtain ⟨capacity, nextId, entries, pending⟩ := m
      obtain ⟨capacity', nextId', entries', pending'⟩ := m'
      cases hentries
      cases hpending
      cases hnext
      cases hroom
      rfl
    | table t => cases hkind
  | table t =>
    cases q' with
    | memory m => cases hkind
    | table t' =>
      have hmissing : t'.missing = t.missing := by
        rw [TableQueue.Sound.present h', TableQueue.Sound.present h]
      obtain ⟨capacity, rows, nextId, missing⟩ := t
      obtain ⟨capacity', rows', nextId', missing'⟩ := t'
      cases hrows
      cases hmissing
      cases hnext
      cases hroom
      rfl

/-- Every row is changed on its own, and nothing else is. -/
structure Becomes (q : Backend) (f : Row → Row) (q' : Backend) : Prop where
  sound : q'.Sound
  kind : q'.kind = q.kind
  rows : q'.rows = q.rows.map f
  next : q'.live.next = q.live.next
  capacity : q'.live.capacity = q.live.capacity

namespace Becomes

variable {f g : Row → Row}

theorem refl (h : q.Sound) (hf : ∀ r ∈ q.rows, f r = r) : q.Becomes f q where
  sound := h
  kind := rfl
  rows := ((List.map_congr_left hf).trans (List.map_id' _)).symm
  next := rfl
  capacity := rfl

theorem trans (h : q.Becomes f q') (h' : q'.Becomes g q'') : q.Becomes (fun r => g (f r)) q'' where
  sound := h'.sound
  kind := h'.kind.trans h.kind
  rows := by
    rw [h'.rows, h.rows, List.map_map]
    rfl
  next := h'.next.trans h.next
  capacity := h'.capacity.trans h.capacity

theorem congr (h : q.Becomes f q') (hfg : ∀ r ∈ q.rows, f r = g r) : q.Becomes g q' where
  sound := h.sound
  kind := h.kind
  rows := h.rows.trans (List.map_congr_left hfg)
  next := h.next
  capacity := h.capacity

/-- What becomes of a queue is one queue only. -/
theorem unique (h : q.Becomes f q') (h' : q.Becomes f q'') : q' = q'' :=
  eq_of_rows h'.sound h.sound (h.kind.trans h'.kind.symm) (h.rows.trans h'.rows.symm)
    (h.next.trans h'.next.symm) (h.capacity.trans h'.capacity.symm)

end Becomes

/-! ## Calls about one entry -/

def others (q : Backend) (id : Int) : List Row := q.rows.filter (·.id ≠ id)

theorem others_memory (q : MemoryQueue) (id : Int) :
    (memory q).others id = (q.entries.filter (·.dispatch.id ≠ id)).map (·.row) := by
  show List.filter _ (List.map _ _) = _
  rw [List.filter_map]
  rfl

/-- Changing the elements with one key, which they keep, leaves the others. -/
theorem filter_map_other {α : Type} {key : α → Int} {id : Int} {c : α → Bool} {f : α → α}
    {l : List α} (hc : ∀ a ∈ l, c a = true → key a = id) (hf : ∀ a, key (f a) = key a) :
    (l.map fun a => if c a then f a else a).filter (key · ≠ id) = l.filter (key · ≠ id) := by
  induction l with
  | nil => rfl
  | cons a rest ih =>
    have hrest := ih fun b hb => hc b (List.mem_cons_of_mem a hb)
    rw [List.map_cons, List.filter_cons, List.filter_cons, hrest]
    cases hca : c a with
    | false => rfl
    | true =>
      have hkey : key a = id := hc a List.mem_cons_self hca
      simp only [if_true, hf, hkey, ne_eq, not_true, decide_false, Bool.false_eq_true, if_false]

end Backend

namespace MemoryQueue

variable {q : MemoryQueue} {id : Int}

theorem others_update {q' : MemoryQueue} {f : MemoryEntry → MemoryEntry}
    (hentries : q'.entries = (q.update id f).entries)
    (hf : ∀ e, (f e).dispatch.id = e.dispatch.id) :
    (Backend.memory q').others id = (Backend.memory q).others id := by
  have hupdate : q'.entries =
      q.entries.map fun e => if decide (e.dispatch.id = id) = true then f e else e := by
    rw [hentries]
    simp only [update, decide_eq_true_eq]
  rw [Backend.others_memory, Backend.others_memory, hupdate,
    Backend.filter_map_other (fun e _ he => of_decide_eq_true he) hf]

end MemoryQueue

namespace TableQueue

variable {q : TableQueue} {id : Int}

theorem others_updateWhere {c : Row → Bool} {f : Row → Row}
    (hc : ∀ r ∈ q.rows, c r = true → r.id = id) (hf : ∀ r, (f r).id = r.id) :
    (Backend.table (q.updateWhere c f).2).others id = (Backend.table q).others id :=
  Backend.filter_map_other hc hf

theorem others_changed (i : Int) (r : Nat × TableQueue) :
    (Backend.table (changed i r).2).others id = (Backend.table r.2).others id := by
  unfold changed
  split <;> rfl

end TableQueue

namespace Backend

variable {q : Backend} {id : Int}

theorem others_complete (h : q.Sound) (clock : Clock) (id : Int) (success : Bool)
    (error : Option String) :
    (ExecutionQueue.complete q clock id success error).2.others id = q.others id := by
  cases q with
  | memory q =>
    show (memory (q.complete id).2).others id = _
    unfold MemoryQueue.complete
    cases q.isClaimed id with
    | false => rfl
    | true =>
      rw [others_memory, others_memory]
      simp only [if_true, List.filter_filter, Bool.and_self]
  | table q =>
    show (table (q.onTable (·.complete id success error)).2).others id = _
    rw [TableQueue.onTable_eq h]
    refine (TableQueue.others_changed id _).trans
      (TableQueue.others_updateWhere (fun r _ hr => ?_) fun _ => rfl)
    simp only [Bool.and_eq_true, decide_eq_true_eq] at hr
    exact hr.1

theorem others_release (h : q.Sound) (clock : Clock) (id : Int) (error : Option String) :
    (ExecutionQueue.release q clock id error).2.others id = q.others id := by
  cases q with
  | memory q =>
    show (memory (q.release id error).2).others id = _
    unfold MemoryQueue.release
    rw [MemoryQueue.free?_eq]
    cases q.isClaimed id with
    | false => rfl
    | true =>
      have hentries : (q.putBack id error).entries =
          (q.update id (MemoryQueue.MemoryEntry.freed error)).entries := rfl
      exact MemoryQueue.others_update hentries fun _ => rfl
  | table q =>
    show (table (q.onTable (·.release id error)).2).others id = _
    rw [TableQueue.onTable_eq h]
    refine (TableQueue.others_changed id _).trans
      (TableQueue.others_updateWhere (fun r _ hr => ?_) fun _ => rfl)
    simp only [Bool.and_eq_true, decide_eq_true_eq] at hr
    exact hr.1

theorem others_renew (h : q.Sound) (clock : Clock) (id : Int) (worker : String) :
    (ExecutionQueue.renew q clock id worker).2.others id = q.others id := by
  cases q with
  | memory q =>
    show (memory (q.renew clock id worker).2).others id = _
    unfold MemoryQueue.renew
    cases (q.entry? id).bind (·.claim) with
    | none => rfl
    | some c =>
      simp only
      split
      · exact MemoryQueue.others_update rfl fun _ => rfl
      · rfl
  | table q =>
    show (table (q.onTable (·.renew clock id worker)).2).others id = _
    rw [TableQueue.onTable_eq h]
    refine (TableQueue.others_changed id _).trans
      (TableQueue.others_updateWhere (fun r _ hr => ?_) fun _ => rfl)
    simp only [Bool.and_eq_true, decide_eq_true_eq] at hr
    exact hr.1.1

end Backend
end JobGate
