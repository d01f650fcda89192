/-
What a queue is for those who use it: its live entries.

A live entry waits or is claimed, and both kinds of queue come down to a list of
them in the order of their identifiers (`LiveQueue`).  Every operation is one of four
changes to that list, an entry added, claimed, freed or removed, and the relations
`Offered`, `Claims` and `Guarded` say which change goes with which answer.
-/
import JobGate.Queue.Basic
import Mathlib.Data.List.Nodup

namespace JobGate

/-- Among elements with different keys, each is found by its own. -/
theorem find?_of_nodup {α κ : Type} [DecidableEq κ] {key : α → κ} {l : List α}
    (h : (l.map key).Nodup) {a : α} (ha : a ∈ l) : l.find? (key · = key a) = some a := by
  cases hfind : l.find? (key · = key a) with
  | none => exact absurd (decide_eq_true rfl) (List.find?_eq_none.1 hfind a ha)
  | some x =>
    have hkey : key x = key a := by simpa using List.find?_some hfind
    rw [List.inj_on_of_nodup_map h (List.mem_of_find?_eq_some hfind) ha hkey]

structure LiveEntry where
  id : Int
  run : String
  jobKey : String
  attempts : Int
  /-- The worker that has claimed it. -/
  holder : Option String
deriving DecidableEq

/-- The live entries of a queue, with what its operations need besides. -/
structure LiveQueue where
  entries : List LiveEntry
  next : Int
  capacity : Nat
  /-- Where the count of attempts stops, if it does. -/
  highest : Option Int
deriving DecidableEq

namespace LiveQueue

def bump (q : LiveQueue) (attempts : Int) : Int :=
  match q.highest with
  | none => attempts + 1
  | some highest => min (attempts + 1) highest

def update (q : LiveQueue) (p : LiveEntry → Bool) (f : LiveEntry → LiveEntry) : LiveQueue :=
  { q with entries := q.entries.map fun e => if p e then f e else e }

def add (q : LiveQueue) (d : Dispatch) : LiveQueue :=
  { q with
    entries := q.entries ++ [⟨q.next, d.run.text, d.jobKey, 0, none⟩]
    next := q.next + 1 }

def hold (q : LiveQueue) (id : Int) (worker : String) : LiveQueue :=
  q.update (·.id = id) fun e => { e with holder := some worker }

def free (q : LiveQueue) (p : LiveEntry → Bool) : LiveQueue :=
  q.update p fun e => { e with attempts := q.bump e.attempts, holder := none }

def remove (q : LiveQueue) (id : Int) : LiveQueue :=
  { q with entries := q.entries.filter (·.id ≠ id) }

def runs (q : LiveQueue) : List String := q.entries.map (·.run)

def first? (q : LiveQueue) : Option LiveEntry := q.entries.find? (·.holder.isNone)

def Holds (q : LiveQueue) (worker : String) (id : Int) : Prop :=
  ∃ e ∈ q.entries, e.id = id ∧ e.holder = some worker

def Claimed (q : LiveQueue) (id : Int) : Prop := ∃ worker, q.Holds worker id

/-- Identifiers ascend, and the next one is free. -/
structure Sound (q : LiveQueue) : Prop where
  ascending : (q.entries.map (·.id)).Pairwise (· < ·)
  fresh : ∀ e ∈ q.entries, e.id < q.next

/-! ## Answers -/

inductive Offered (q : LiveQueue) (d : Dispatch) (stopped : Bool) :
    Except QueueError Offer → LiveQueue → Prop
  | added (hgo : stopped = false) (hroom : q.entries.length < q.capacity) :
      Offered q d stopped (.ok (.entry q.next)) (q.add d)
  | full (hgo : stopped = false) (hfull : q.capacity ≤ q.entries.length) :
      Offered q d stopped (.ok .full) q
  | canceled (hstop : stopped = true) : Offered q d stopped (.ok .canceled) q

inductive Claims (q : LiveQueue) (worker : String) :
    Except QueueError (Option QueuedDispatch) → LiveQueue → Prop
  | nothing (hnone : q.first? = none) : Claims q worker (.ok none) q
  | claimed {e : LiveEntry} {d : QueuedDispatch} (hfirst : q.first? = some e)
      (hid : d.id = e.id) (hrun : d.run.text = e.run) (hkey : d.jobKey = e.jobKey)
      (hattempts : (d.attempts : Int) = e.attempts) :
      Claims q worker (.ok (some d)) (q.hold e.id worker)
  /-- The run of the entry has no legal name, so nobody will ever claim it. -/
  | discarded {e : LiveEntry} {error : QueueError} (hfirst : q.first? = some e)
      (hrun : ∀ id : RunId, id.text ≠ e.run) : Claims q worker (.error error) (q.remove e.id)
  /-- The number of attempts is none that an answer can hold. -/
  | refused {e : LiveEntry} {error : QueueError} (hfirst : q.first? = some e)
      (hattempts : ¬ (0 ≤ e.attempts ∧ e.attempts < 4294967296)) : Claims q worker (.error error) q

/-- What happens to the claim of an entry: the change, when it is allowed, and
otherwise the answer that the entry is not claimed. -/
inductive Guarded (allowed : Prop) (id : Int) (q q' : LiveQueue) :
    Except QueueError Unit → LiveQueue → Prop
  | done (h : allowed) : Guarded allowed id q q' (.ok ()) q'
  | notClaimed (h : ¬ allowed) : Guarded allowed id q q' (.error (.notClaimed id)) q

def depth (q : LiveQueue) : Depth :=
  ⟨q.entries.countP (·.holder.isNone), q.entries.countP (·.holder.isSome)⟩

/-! ## Entries after a change -/

section
variable {q : LiveQueue} {p : LiveEntry → Bool} {f : LiveEntry → LiveEntry} {x : LiveEntry}

theorem mem_update : x ∈ (q.update p f).entries ↔
    ∃ e ∈ q.entries, (if p e then f e else e) = x := List.mem_map

theorem map_update {α : Type} (g : LiveEntry → α) (h : ∀ e, g (f e) = g e) :
    (q.update p f).entries.map g = q.entries.map g := by
  show List.map g (List.map _ _) = _
  rw [List.map_map]
  refine List.map_congr_left fun e _ => ?_
  by_cases hp : p e = true
  · rw [Function.comp_apply, if_pos hp, h]
  · rw [Function.comp_apply, if_neg hp]

theorem exists_mem_update {e : LiveEntry} (he : e ∈ q.entries) (hf : ∀ e, (f e).id = e.id) :
    ∃ x ∈ (q.update p f).entries, x.id = e.id := by
  have hmem : e.id ∈ (q.update p f).entries.map (·.id) := by
    rw [map_update _ hf]
    exact List.mem_map_of_mem he
  exact List.mem_map.1 hmem

theorem update_congr {p' : LiveEntry → Bool} (h : ∀ e ∈ q.entries, p e = p' e) :
    q.update p f = q.update p' f := by
  unfold update
  congr 1
  exact List.map_congr_left fun e he => by rw [h e he]

theorem update_self (h : ∀ e ∈ q.entries, p e = true → f e = e) : q.update p f = q := by
  unfold update
  rw [(List.map_congr_left fun e he => ?_).trans (List.map_id q.entries)]
  by_cases hp : p e = true
  · rw [if_pos hp, h e he hp]
    rfl
  · rw [if_neg hp]
    rfl

theorem free_free_cons {id : Int} {ids : List Int} (hnot : id ∉ ids) :
    (q.free (·.id = id)).free (·.id ∈ ids) = q.free (·.id ∈ id :: ids) := by
  show LiveQueue.mk (List.map _ (List.map _ _)) _ _ _ = LiveQueue.mk _ _ _ _
  rw [List.map_map]
  congr 1
  refine List.map_congr_left fun e _ => ?_
  by_cases hid : e.id = id
  · simp [hid, hnot]
  · simp only [Function.comp_apply, hid, decide_false, Bool.false_eq_true, if_false,
      List.mem_cons, false_or]
    rfl

theorem mem_remove {id : Int} : x ∈ (q.remove id).entries ↔ x ∈ q.entries ∧ x.id ≠ id := by
  simp [remove]

theorem mem_add {d : Dispatch} : x ∈ (q.add d).entries ↔
    x ∈ q.entries ∨ x = ⟨q.next, d.run.text, d.jobKey, 0, none⟩ := by
  simp [add]

end

section
variable {q : LiveQueue}

theorem runs_add {d : Dispatch} : (q.add d).runs = q.runs ++ [d.run.text] := List.map_append

theorem runs_hold {id : Int} {worker : String} : (q.hold id worker).runs = q.runs :=
  map_update (·.run) fun _ => rfl

theorem runs_free {p : LiveEntry → Bool} : (q.free p).runs = q.runs :=
  map_update (·.run) fun _ => rfl

theorem runs_remove {id : Int} : (q.remove id).runs.Sublist q.runs := List.filter_sublist.map _

theorem mem_runs {run : String} : run ∈ q.runs ↔ ∃ e ∈ q.entries, e.run = run := List.mem_map

end

theorem depth_live (q : LiveQueue) : q.depth.live = q.entries.length := by
  show q.entries.countP (·.holder.isNone) + q.entries.countP (·.holder.isSome) = _
  rw [List.length_eq_countP_add_countP (·.holder.isNone)]
  congr 1
  exact List.countP_congr fun e _ => by cases e.holder <;> simp

theorem of_first? {q : LiveQueue} {e : LiveEntry} (h : q.first? = some e) :
    e ∈ q.entries ∧ e.holder = none :=
  ⟨List.mem_of_find?_eq_some h, by simpa using List.find?_some h⟩

/-- Ascending numbers go on with one that is above them all. -/
theorem ascending_concat {ids : List Int} {n : Int} (h : ids.Pairwise (· < ·))
    (hlt : ∀ i ∈ ids, i < n) : (ids ++ [n]).Pairwise (· < ·) := by
  refine List.pairwise_append.2 ⟨h, List.pairwise_singleton _ _, fun i hi j hj => ?_⟩
  rw [List.mem_singleton.1 hj]
  exact hlt i hi

namespace Sound

variable {q : LiveQueue}

theorem nodup (h : q.Sound) : (q.entries.map (·.id)).Nodup :=
  h.ascending.imp fun hlt => Int.ne_of_lt hlt

theorem eq_of_id (h : q.Sound) {e x : LiveEntry} (he : e ∈ q.entries) (hx : x ∈ q.entries)
    (hid : e.id = x.id) : e = x :=
  List.inj_on_of_nodup_map h.nodup he hx hid

end Sound

/-! ## Entries that stay what they are -/

section
variable {q : LiveQueue} {x : LiveEntry}

theorem of_mem_update {p : LiveEntry → Bool} {f : LiveEntry → LiveEntry}
    (hx : x ∈ (q.update p f).entries)
    (hf : ∀ e, (f e).id = e.id ∧ (f e).run = e.run ∧ (f e).jobKey = e.jobKey) :
    ∃ e ∈ q.entries, e.id = x.id ∧ e.run = x.run ∧ e.jobKey = x.jobKey := by
  obtain ⟨e, he, rfl⟩ := mem_update.1 hx
  refine ⟨e, he, ?_⟩
  obtain ⟨hid, hrun, hkey⟩ := hf e
  by_cases hp : p e = true
  · rw [if_pos hp]
    exact ⟨hid.symm, hrun.symm, hkey.symm⟩
  · rw [if_neg hp]
    exact ⟨rfl, rfl, rfl⟩

theorem of_mem_hold {id : Int} {worker : String} (hx : x ∈ (q.hold id worker).entries) :
    ∃ e ∈ q.entries, e.id = x.id ∧ e.run = x.run ∧ e.jobKey = x.jobKey :=
  of_mem_update hx fun _ => ⟨rfl, rfl, rfl⟩

theorem of_mem_free {p : LiveEntry → Bool} (hx : x ∈ (q.free p).entries) :
    ∃ e ∈ q.entries, e.id = x.id ∧ e.run = x.run ∧ e.jobKey = x.jobKey :=
  of_mem_update hx fun _ => ⟨rfl, rfl, rfl⟩

end

/-- An entry whose identifier was given out before is the entry that it was. -/
structure Keeps (q q' : LiveQueue) : Prop where
  next : q.next ≤ q'.next
  entries : ∀ x ∈ q'.entries, x.id < q.next →
    ∃ e ∈ q.entries, e.id = x.id ∧ e.run = x.run ∧ e.jobKey = x.jobKey

namespace Keeps

variable (q : LiveQueue)

theorem refl : q.Keeps q := ⟨Int.le_refl _, fun x hx _ => ⟨x, hx, rfl, rfl, rfl⟩⟩

theorem add (d : Dispatch) : q.Keeps (q.add d) := by
  refine ⟨Int.le_of_lt (Int.lt_succ q.next), fun x hx hlt => ?_⟩
  rcases mem_add.1 hx with hx | rfl
  · exact ⟨x, hx, rfl, rfl, rfl⟩
  · exact absurd hlt (Int.lt_irrefl _)

theorem remove (id : Int) : q.Keeps (q.remove id) :=
  ⟨Int.le_refl _, fun x hx _ => ⟨x, (mem_remove.1 hx).1, rfl, rfl, rfl⟩⟩

theorem hold (id : Int) (worker : String) : q.Keeps (q.hold id worker) :=
  ⟨Int.le_refl _, fun _ hx _ => of_mem_hold hx⟩

theorem free (p : LiveEntry → Bool) : q.Keeps (q.free p) :=
  ⟨Int.le_refl _, fun _ hx _ => of_mem_free hx⟩

end Keeps

/-! ## Claims after a change -/

section
variable {q : LiveQueue} {worker w : String} {id i : Int}

theorem holds_add {d : Dispatch} : (q.add d).Holds w i ↔ q.Holds w i := by
  constructor
  · rintro ⟨e, he, hid, hw⟩
    rcases mem_add.1 he with he | rfl
    · exact ⟨e, he, hid, hw⟩
    · cases hw
  · rintro ⟨e, he, h⟩
    exact ⟨e, mem_add.2 (.inl he), h⟩

theorem holds_remove : (q.remove id).Holds w i ↔ q.Holds w i ∧ i ≠ id := by
  constructor
  · rintro ⟨e, he, rfl, hw⟩
    obtain ⟨he, hne⟩ := mem_remove.1 he
    exact ⟨⟨e, he, rfl, hw⟩, hne⟩
  · rintro ⟨⟨e, he, rfl, hw⟩, hne⟩
    exact ⟨e, mem_remove.2 ⟨he, hne⟩, rfl, hw⟩

/-- Whoever holds an entry after some were freed held it before. -/
theorem holds_free (hq : q.Sound) {p : LiveEntry → Bool} :
    (q.free p).Holds w i ↔ q.Holds w i ∧ ∀ e ∈ q.entries, e.id = i → p e = false := by
  constructor
  · rintro ⟨x, hx, rfl, hw⟩
    obtain ⟨e, he, rfl⟩ := mem_update.1 hx
    cases hp : p e with
    | true => simp [hp] at hw
    | false =>
      simp only [hp, Bool.false_eq_true, if_false] at hw ⊢
      refine ⟨⟨e, he, rfl, hw⟩, fun x hx hid => ?_⟩
      rw [hq.eq_of_id hx he hid, hp]
  · rintro ⟨⟨e, he, rfl, hw⟩, hp⟩
    refine ⟨e, mem_update.2 ⟨e, he, ?_⟩, rfl, hw⟩
    rw [hp e he rfl]
    rfl

/-- When one entry is freed the others are claimed as before. -/
theorem Claimed.free (hq : q.Sound) {id : Int} (hi : q.Claimed i) (hne : i ≠ id) :
    (q.free (·.id = id)).Claimed i := by
  obtain ⟨w, hw⟩ := hi
  refine ⟨w, (holds_free hq).2 ⟨hw, fun e _ hid => ?_⟩⟩
  simpa [hid] using hne

theorem holds_hold {e : LiveEntry} (he : e ∈ q.entries) :
    (q.hold e.id worker).Holds w i ↔ (i = e.id ∧ w = worker) ∨ (i ≠ e.id ∧ q.Holds w i) := by
  constructor
  · rintro ⟨y, hy, rfl, hw⟩
    obtain ⟨x, hx, rfl⟩ := mem_update.1 hy
    by_cases hid : x.id = e.id
    · simp only [hid, decide_true, if_true, Option.some.injEq] at hw ⊢
      exact .inl ⟨trivial, hw.symm⟩
    · simp only [hid, decide_false, Bool.false_eq_true, if_false] at hw ⊢
      exact .inr ⟨hid, x, hx, rfl, hw⟩
  · rintro (⟨rfl, rfl⟩ | ⟨hne, x, hx, rfl, hw⟩)
    · exact ⟨{ e with holder := some w }, mem_update.2 ⟨e, he, by simp⟩, rfl, rfl⟩
    · exact ⟨x, mem_update.2 ⟨x, hx, by simp [hne]⟩, rfl, hw⟩

theorem Holds.unique (hq : q.Sound) (h : q.Holds w i) (h' : q.Holds worker i) : w = worker := by
  obtain ⟨e, he, rfl, hw⟩ := h
  obtain ⟨x, hx, hid, hworker⟩ := h'
  rw [hq.eq_of_id hx he hid, hw] at hworker
  exact Option.some.inj hworker

theorem not_holds_first (hq : q.Sound) {e : LiveEntry} (h : q.first? = some e) :
    ¬ q.Holds w e.id := by
  obtain ⟨he, hnone⟩ := of_first? h
  rintro ⟨x, hx, hid, hw⟩
  rw [hq.eq_of_id hx he hid, hnone] at hw
  cases hw

end

end LiveQueue
end JobGate
