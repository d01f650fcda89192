/-
The queue in memory, as a list of live entries.

The list of waiting identifiers repeats what the entries say: it is `Sound` when it
holds the identifiers of the unclaimed entries in their order.  Putting a freed
identifier back into its place keeps it so (`insertId_waiting`), and that carries the
proofs about release and reclaim.
-/
import JobGate.Proofs.Queue.Live
import JobGate.Queue.Memory

namespace JobGate

def MemoryEntry.live (e : MemoryEntry) : LiveEntry :=
  ⟨e.dispatch.id, e.dispatch.run.text, e.dispatch.jobKey, e.dispatch.attempts,
    e.claim.map (·.worker)⟩

namespace MemoryQueue

def waiting (entries : List MemoryEntry) : List Int :=
  (entries.filter (·.claim.isNone)).map (·.dispatch.id)

def live (q : MemoryQueue) : LiveQueue :=
  ⟨q.entries.map (·.live), q.nextId, q.capacity, some maxAttempts⟩

/-- Identifiers ascend, the next one is free, and those that wait are listed. -/
structure Sound (q : MemoryQueue) : Prop where
  ascending : (q.entries.map (·.dispatch.id)).Pairwise (· < ·)
  fresh : ∀ e ∈ q.entries, e.dispatch.id < q.nextId
  pending : q.pending = waiting q.entries

theorem new_sound (capacity : Nat) : (new capacity).Sound :=
  ⟨List.Pairwise.nil, fun _ h => absurd h List.not_mem_nil, rfl⟩

/-! ## Identifiers that wait -/

theorem insertId_of_lt {id : Int} {ids : List Int} (h : ∀ x ∈ ids, id < x) :
    insertId id ids = id :: ids := by
  cases ids with
  | nil => rfl
  | cons x rest => rw [insertId, if_pos (h x List.mem_cons_self)]

theorem insertId_of_gt {id : Int} {ids : List Int} (h : ∀ x ∈ ids, x < id) :
    insertId id ids = ids ++ [id] := by
  induction ids with
  | nil => rfl
  | cons x rest ih =>
    have hx : ¬ id < x := Int.not_lt.2 (Int.le_of_lt (h x List.mem_cons_self))
    rw [insertId, if_neg hx, ih fun y hy => h y (List.mem_cons_of_mem x hy)]
    rfl

theorem waiting_subset {entries : List MemoryEntry} {id : Int} (h : id ∈ waiting entries) :
    id ∈ entries.map (·.dispatch.id) := by
  obtain ⟨e, he, rfl⟩ := List.mem_map.1 h
  exact List.mem_map_of_mem (List.mem_of_mem_filter he)

/-- A claimed entry that is freed takes its place among those that wait. -/
theorem insertId_waiting {entries : List MemoryEntry} {id : Int} {error : Option String}
    (hasc : (entries.map (·.dispatch.id)).Pairwise (· < ·))
    (hclaimed : ∃ e ∈ entries, e.dispatch.id = id ∧ e.claim.isNone = false) :
    insertId id (waiting entries) =
      waiting (entries.map fun e =>
        if e.dispatch.id = id then MemoryEntry.freed error e else e) := by
  induction entries with
  | nil => obtain ⟨e, he, -⟩ := hclaimed; cases he
  | cons x rest ih =>
    rw [List.map_cons, List.pairwise_cons] at hasc
    obtain ⟨hhead, hrest⟩ := hasc
    by_cases hx : x.dispatch.id = id
    · -- it is the first entry, and all others have greater identifiers
      have hothers : (rest.map fun e => if e.dispatch.id = id then MemoryEntry.freed error e else e)
          = rest := by
        refine (List.map_congr_left fun e he => ?_).trans (List.map_id _)
        have hlt := hhead _ (List.mem_map_of_mem he)
        rw [if_neg (by omega)]
        rfl
      have hxclaimed : x.claim.isNone = false := by
        obtain ⟨e, he, hid, hsome⟩ := hclaimed
        rcases List.mem_cons.1 he with rfl | he
        · exact hsome
        · have hlt := hhead _ (List.mem_map_of_mem he)
          omega
      have hlt : ∀ y ∈ waiting rest, id < y := fun y hy => hx ▸ hhead y (waiting_subset hy)
      rw [List.map_cons, hothers, if_pos hx]
      simp only [waiting, List.filter_cons, hxclaimed, Bool.false_eq_true, if_false,
        MemoryEntry.freed, Option.isNone_none, if_true, List.map_cons, hx]
      exact insertId_of_lt hlt
    · have hrestclaimed : ∃ e ∈ rest, e.dispatch.id = id ∧ e.claim.isNone = false := by
        obtain ⟨e, he, hid, hsome⟩ := hclaimed
        rcases List.mem_cons.1 he with rfl | he
        · exact absurd hid hx
        · exact ⟨e, he, hid, hsome⟩
      have hlt : x.dispatch.id < id := by
        obtain ⟨e, he, hid, -⟩ := hrestclaimed
        exact hid ▸ hhead _ (List.mem_map_of_mem he)
      have hrec := ih hrest hrestclaimed
      rw [List.map_cons, if_neg hx]
      cases hclaim : x.claim.isNone with
      | false =>
        simp only [waiting, List.filter_cons, hclaim, Bool.false_eq_true, if_false] at hrec ⊢
        exact hrec
      | true =>
        simp only [waiting, List.filter_cons, hclaim, if_true, List.map_cons] at hrec ⊢
        rw [insertId, if_neg (by omega), hrec]

/-! ## Looking up an entry -/

variable {q : MemoryQueue} {id : Int}

theorem sound_live (h : q.Sound) : q.live.Sound := by
  constructor
  · show (List.map _ (List.map _ _)).Pairwise _
    rw [List.map_map]
    exact h.ascending
  · intro x hx
    obtain ⟨e, he, rfl⟩ := List.mem_map.1 hx
    exact h.fresh e he

theorem entry?_of_mem (h : q.Sound) {e : MemoryEntry} (he : e ∈ q.entries) :
    q.entry? e.dispatch.id = some e :=
  find?_of_nodup (h.ascending.imp fun hlt => Int.ne_of_lt hlt) he

theorem of_entry? {e : MemoryEntry} (h : q.entry? id = some e) :
    e ∈ q.entries ∧ e.dispatch.id = id :=
  ⟨List.mem_of_find?_eq_some h, by simpa using List.find?_some h⟩

/-- The claim that the queue finds is the one that is held. -/
theorem holds_iff (h : q.Sound) {worker : String} : q.live.Holds worker id ↔
    ∃ c, (q.entry? id).bind (·.claim) = some c ∧ c.worker = worker := by
  constructor
  · rintro ⟨x, hx, rfl, hw⟩
    obtain ⟨e, he, rfl⟩ := List.mem_map.1 hx
    obtain ⟨c, hc, hcw⟩ := Option.map_eq_some_iff.1 hw
    exact ⟨c, by rw [show e.live.id = e.dispatch.id from rfl, entry?_of_mem h he]; exact hc, hcw⟩
  · rintro ⟨c, hc, rfl⟩
    obtain ⟨e, he, hec⟩ := Option.bind_eq_some_iff.1 hc
    obtain ⟨hmem, rfl⟩ := of_entry? he
    exact ⟨e.live, List.mem_map_of_mem hmem, rfl, by simp only [MemoryEntry.live, hec]; rfl⟩

theorem claimed_iff (h : q.Sound) : q.live.Claimed id ↔ q.isClaimed id = true := by
  simp only [LiveQueue.Claimed, holds_iff h, isClaimed, Option.isSome_iff_exists]
  constructor
  · rintro ⟨worker, c, hc, -⟩
    exact ⟨c, hc⟩
  · rintro ⟨c, hc⟩
    exact ⟨c.worker, c, hc, rfl⟩

theorem live_update {f : MemoryEntry → MemoryEntry} {g : LiveEntry → LiveEntry}
    (hf : ∀ e ∈ q.entries, e.dispatch.id = id → (f e).live = g e.live) :
    (q.update id f).live = q.live.update (·.id = id) g := by
  show LiveQueue.mk _ _ _ _ = LiveQueue.mk _ _ _ _
  congr 1
  show List.map _ (List.map _ _) = List.map _ (List.map _ _)
  rw [List.map_map, List.map_map]
  refine List.map_congr_left fun e he => ?_
  show (if e.dispatch.id = id then f e else e).live =
    if decide (e.dispatch.id = id) = true then g e.live else e.live
  by_cases hid : e.dispatch.id = id
  · rw [if_pos hid, if_pos (decide_eq_true hid), hf e he hid]
  · rw [if_neg hid, if_neg (by simpa using hid)]

theorem update_ids {f : MemoryEntry → MemoryEntry} (hf : ∀ e, (f e).dispatch.id = e.dispatch.id) :
    (q.update id f).entries.map (·.dispatch.id) = q.entries.map (·.dispatch.id) := by
  show List.map _ (List.map _ _) = _
  rw [List.map_map]
  refine List.map_congr_left fun e _ => ?_
  by_cases hid : e.dispatch.id = id
  · rw [Function.comp_apply, if_pos hid, hf]
  · rw [Function.comp_apply, if_neg hid]

theorem update_ascending (h : q.Sound) {f : MemoryEntry → MemoryEntry}
    (hf : ∀ e, (f e).dispatch.id = e.dispatch.id) :
    ((q.update id f).entries.map (·.dispatch.id)).Pairwise (· < ·) := by
  rw [update_ids hf]
  exact h.ascending

theorem update_fresh (h : q.Sound) {f : MemoryEntry → MemoryEntry}
    (hf : ∀ e, (f e).dispatch.id = e.dispatch.id) :
    ∀ e ∈ (q.update id f).entries, e.dispatch.id < q.nextId := by
  intro e he
  have hmem : e.dispatch.id ∈ q.entries.map (·.dispatch.id) :=
    update_ids hf ▸ List.mem_map_of_mem he
  obtain ⟨x, hx, hid⟩ := List.mem_map.1 hmem
  exact hid ▸ h.fresh x hx

/-! ## The operations -/

def added (q : MemoryQueue) (d : Dispatch) : MemoryQueue :=
  { q with
    nextId := q.nextId + 1
    entries := q.entries ++ [{ dispatch := ⟨q.nextId, d.run, d.jobKey, 0⟩ }]
    pending := insertId q.nextId q.pending }

theorem added_sound (h : q.Sound) (d : Dispatch) : (q.added d).Sound where
  ascending := by
    show (List.map _ (q.entries ++ [_])).Pairwise _
    rw [List.map_append]
    refine LiveQueue.ascending_concat h.ascending fun i hi => ?_
    obtain ⟨e, he, rfl⟩ := List.mem_map.1 hi
    exact h.fresh e he
  fresh e he := by
    show e.dispatch.id < q.nextId + 1
    rcases List.mem_append.1 he with he | he
    · have := h.fresh e he
      omega
    · rw [List.mem_singleton.1 he]
      show q.nextId < q.nextId + 1
      omega
  pending := by
    show insertId q.nextId q.pending = waiting (q.entries ++ [_])
    have hgt : ∀ x ∈ waiting q.entries, x < q.nextId := by
      intro x hx
      obtain ⟨e, he, rfl⟩ := List.mem_map.1 (waiting_subset hx)
      exact h.fresh e he
    rw [h.pending, insertId_of_gt hgt, waiting, waiting, List.filter_append, List.map_append]
    rfl

theorem added_live (q : MemoryQueue) (d : Dispatch) : (q.added d).live = q.live.add d := by
  simp only [added, live, List.map_append]
  rfl

theorem offer_spec (h : q.Sound) (d : Dispatch) (stopped : Bool) :
    (q.offer d stopped).2.Sound ∧
      q.live.Offered d stopped (.ok (q.offer d stopped).1) (q.offer d stopped).2.live := by
  have hlength : q.live.entries.length = q.entries.length := List.length_map _
  unfold offer
  cases stopped with
  | true => exact ⟨h, .canceled rfl⟩
  | false =>
    simp only [Bool.false_eq_true, if_false]
    by_cases hroom : q.entries.length < q.capacity
    · rw [if_pos hroom]
      have hadded : q.live.Offered d false (.ok (.entry q.nextId)) (q.live.add d) :=
        .added rfl (by rw [hlength]; exact hroom)
      exact ⟨added_sound h d, added_live q d ▸ hadded⟩
    · rw [if_neg hroom]
      exact ⟨h, .full rfl (by rw [hlength]; exact Nat.not_lt.1 hroom)⟩

/-- The entry that is claimed next is the first one without a claim. -/
theorem first?_live (q : MemoryQueue) :
    q.live.first? = (q.entries.find? (·.claim.isNone)).map (·.live) := by
  show List.find? _ (List.map _ _) = _
  rw [List.find?_map]
  congr 2
  funext e
  simp only [Function.comp_apply, MemoryEntry.live, Option.isNone_map]

theorem waiting_head? (entries : List MemoryEntry) :
    (waiting entries).head? = (entries.find? (·.claim.isNone)).map (·.dispatch.id) := by
  rw [waiting, List.head?_map, List.head?_filter]

theorem waiting_claim (entries : List MemoryEntry) (id : Int) (c : Claim) :
    waiting (entries.map fun e => if e.dispatch.id = id then { e with claim := some c } else e) =
      (waiting entries).filter (· ≠ id) := by
  induction entries with
  | nil => rfl
  | cons x rest ih =>
    by_cases hx : x.dispatch.id = id
    · cases hclaim : x.claim.isNone <;> simpa [waiting, hx, hclaim] using ih
    · cases hclaim : x.claim.isNone <;> simpa [waiting, hx, hclaim] using ih

theorem waiting_nodup (h : q.Sound) : (waiting q.entries).Nodup :=
  (h.ascending.sublist (List.filter_sublist.map _)).imp fun hlt => Int.ne_of_lt hlt

theorem claim_spec (h : q.Sound) (clock : Clock) (worker : String) :
    (q.claim clock worker).2.Sound ∧
      q.live.Claims worker (q.claim clock worker).1 (q.claim clock worker).2.live := by
  unfold claim
  have hpending := h.pending
  have hhead := waiting_head? q.entries
  cases hlist : q.pending with
  | nil =>
    rw [← hpending, hlist] at hhead
    refine ⟨h, .nothing ?_⟩
    rw [first?_live, Option.map_eq_none_iff]
    exact Option.map_eq_none_iff.1 hhead.symm
  | cons id rest =>
    rw [← hpending, hlist] at hhead
    obtain ⟨e, hfirst, hid⟩ := Option.map_eq_some_iff.1 hhead.symm
    have hmem : e ∈ q.entries := List.mem_of_find?_eq_some hfirst
    have hentry : q.entry? id = some e := hid ▸ entry?_of_mem h hmem
    have hrest : rest = waiting (q.update id fun e =>
        { e with claim := some ⟨worker, clock.elapsed⟩ }).entries := by
      have hnodup := waiting_nodup h
      rw [← hpending, hlist, List.nodup_cons] at hnodup
      show rest = waiting (List.map _ _)
      rw [waiting_claim, ← hpending, hlist, List.filter_cons_of_neg (by simp),
        List.filter_eq_self.2 fun x hx => by
          simpa using fun hxid : x = id => hnodup.1 (hxid ▸ hx)]
    simp only [show MemoryQueue.entry? { q with pending := rest } id = some e from hentry]
    refine ⟨⟨update_ascending h fun _ => rfl, update_fresh h fun _ => rfl, hrest⟩, ?_⟩
    · have hlive : (q.update id fun e =>
          { e with claim := some ⟨worker, clock.elapsed⟩ }).live = q.live.hold id worker :=
        live_update fun _ _ _ => rfl
      have hclaims : q.live.Claims worker (.ok (some e.dispatch)) (q.live.hold e.live.id worker) :=
        .claimed (by rw [first?_live, hfirst]; rfl) rfl rfl rfl rfl
      rw [show e.live.id = id from hid] at hclaims
      exact hlive ▸ hclaims

theorem complete_spec (h : q.Sound) (id : Int) :
    (q.complete id).2.Sound ∧ LiveQueue.Guarded (q.live.Claimed id) id q.live (q.live.remove id)
      (q.complete id).1 (q.complete id).2.live := by
  unfold complete
  by_cases hclaimed : q.isClaimed id = true
  · simp only [hclaimed, if_true]
    refine ⟨⟨h.ascending.sublist (List.filter_sublist.map _), fun e he =>
      h.fresh e (List.mem_of_mem_filter he), ?_⟩, ?_⟩
    · -- the entry does not wait, so none that waits is removed
      show q.pending = waiting (q.entries.filter (·.dispatch.id ≠ id))
      rw [h.pending, waiting, waiting, List.filter_filter]
      congr 1
      refine List.filter_congr fun e he => ?_
      by_cases hid : e.dispatch.id = id
      · have hsome : e.claim.isSome = true := by
          rw [isClaimed, ← hid, entry?_of_mem h he] at hclaimed
          exact hclaimed
        simp [hid, Option.isNone_eq_false_iff.2 hsome]
      · simp [hid]
    · have hlive : q.live.remove id = { q.live with
          entries := (q.entries.filter (·.dispatch.id ≠ id)).map (·.live) } := by
        show LiveQueue.mk _ _ _ _ = LiveQueue.mk _ _ _ _
        congr 1
        exact List.filter_map
      exact hlive ▸ .done ((claimed_iff h).2 hclaimed)
  · simp only [hclaimed, Bool.false_eq_true, if_false]
    exact ⟨h, .notClaimed fun hc => hclaimed ((claimed_iff h).1 hc)⟩

theorem bump_live (q : MemoryQueue) (attempts : Nat) :
    q.live.bump attempts = (min (attempts + 1) maxAttempts : Nat) := by
  show min ((attempts : Int) + 1) (maxAttempts : Nat) = _
  generalize maxAttempts = highest
  omega

theorem free?_spec (h : q.Sound) (id : Int) (error : Option String) :
    (q.free? id error = none ∧ ¬ q.live.Claimed id) ∨
      ∃ q', q.free? id error = some q' ∧ q.live.Claimed id ∧ q'.Sound ∧
        q'.live = q.live.free (·.id = id) := by
  have hiff : q.live.Claimed id ↔ q.isClaimed id = true := claimed_iff h
  unfold isClaimed at hiff
  cases hclaim : (q.entry? id).bind (·.claim) with
  | none =>
    refine .inl ⟨by simp only [free?, hclaim], fun hc => ?_⟩
    rw [hiff, hclaim] at hc
    cases hc
  | some c =>
    refine .inr ⟨{ q.update id (MemoryEntry.freed error) with pending := insertId id q.pending },
      by simp only [free?, hclaim]; rfl, hiff.2 (by rw [hclaim]; rfl), ?_, ?_⟩
    · refine ⟨update_ascending h fun _ => rfl, update_fresh h fun _ => rfl, ?_⟩
      obtain ⟨e, he, hec⟩ := Option.bind_eq_some_iff.1 hclaim
      obtain ⟨hmem, hid⟩ := of_entry? he
      show insertId id q.pending = waiting (List.map _ _)
      rw [h.pending]
      exact insertId_waiting h.ascending ⟨e, hmem, hid, by rw [hec]; rfl⟩
    · refine live_update (q := q) fun e _ _ => ?_
      simp only [MemoryEntry.live, MemoryEntry.freed, bump_live, Option.map_none]

theorem release_spec (h : q.Sound) (id : Int) (error : Option String) :
    (q.release id error).2.Sound ∧
      LiveQueue.Guarded (q.live.Claimed id) id q.live (q.live.free (·.id = id))
        (q.release id error).1 (q.release id error).2.live := by
  unfold release
  rcases free?_spec h id error with ⟨hnone, hfree⟩ | ⟨q', hsome, hclaimed, hsound, hlive⟩
  · rw [hnone]
    exact ⟨h, .notClaimed hfree⟩
  · rw [hsome]
    exact ⟨hsound, hlive ▸ .done hclaimed⟩

/-- Renewing a claim changes nothing but its age. -/
theorem renew_spec (h : q.Sound) (clock : Clock) (id : Int) (worker : String) :
    (q.renew clock id worker).2.Sound ∧
      LiveQueue.Guarded (q.live.Holds worker id) id q.live q.live (q.renew clock id worker).1
        (q.renew clock id worker).2.live := by
  have hiff : q.live.Holds worker id ↔
      ∃ c, (q.entry? id).bind (·.claim) = some c ∧ c.worker = worker := holds_iff h
  unfold renew
  cases hclaim : (q.entry? id).bind (·.claim) with
  | none =>
    refine ⟨h, .notClaimed fun hc => ?_⟩
    obtain ⟨c, hc, -⟩ := hiff.1 hc
    rw [hclaim] at hc
    cases hc
  | some c =>
    simp only
    by_cases hw : c.worker = worker
    · rw [if_pos hw]
      -- the entry is claimed by this worker before and after
      have hold : ∀ e ∈ q.entries, e.dispatch.id = id → e.claim = some c := by
        intro e he hid
        rw [← hid, entry?_of_mem h he] at hclaim
        exact hclaim
      have hlive : (q.update id fun e => { e with claim := some ⟨worker, clock.elapsed⟩ }).live =
          q.live := by
        refine (live_update (g := fun e => e) fun e he hid => ?_).trans ?_
        · simp only [MemoryEntry.live, hold e he hid, Option.map_some, hw]
        · exact LiveQueue.update_self fun e _ _ => rfl
      refine ⟨⟨update_ascending h fun _ => rfl, update_fresh h fun _ => rfl, ?_⟩, ?_⟩
      · have hnot : id ∉ waiting q.entries := by
          intro hmem
          obtain ⟨e, he, hid⟩ := List.mem_map.1 hmem
          obtain ⟨he, hnone⟩ := List.mem_filter.1 he
          rw [hold e he hid] at hnone
          cases hnone
        show q.pending = waiting (List.map _ _)
        rw [waiting_claim, h.pending, List.filter_eq_self.2 fun x hx => by
          simpa using fun hxid : x = id => hnot (hxid ▸ hx)]
      · rw [hlive]
        exact .done (hiff.2 ⟨c, hclaim, hw⟩)
    · rw [if_neg hw]
      refine ⟨h, .notClaimed fun hc => ?_⟩
      obtain ⟨c', hc', hw'⟩ := hiff.1 hc
      rw [hclaim] at hc'
      cases hc'
      exact hw hw'

def stale (q : MemoryQueue) (clock : Clock) (timeout : Nat) (id : Int) : Bool :=
  (q.entry? id).any (isStale clock timeout)

theorem stale_of_mem (h : q.Sound) (clock : Clock) (timeout : Nat) {e : MemoryEntry}
    (he : e ∈ q.entries) : q.stale clock timeout e.dispatch.id = isStale clock timeout e := by
  rw [stale, entry?_of_mem h he]
  rfl

theorem claimed_of_isStale (h : q.Sound) {clock : Clock} {timeout : Nat} {e : MemoryEntry}
    (he : e ∈ q.entries) (hstale : isStale clock timeout e = true) :
    q.live.Claimed e.dispatch.id := by
  rw [claimed_iff h, isClaimed, entry?_of_mem h he]
  cases hclaim : e.claim with
  | none =>
    rw [isStale, hclaim] at hstale
    cases hstale
  | some c => rw [Option.bind_some, hclaim]; rfl

theorem claimed_of_stale (h : q.Sound) {clock : Clock} {timeout : Nat}
    (hstale : q.stale clock timeout id = true) : q.live.Claimed id := by
  obtain ⟨e, he, hage⟩ := (Option.any_eq_true _ _).1 hstale
  obtain ⟨hmem, rfl⟩ := of_entry? he
  exact claimed_of_isStale h hmem hage

theorem mem_staleIds (h : q.Sound) (clock : Clock) (timeout : Nat) {e : MemoryEntry}
    (he : e ∈ q.entries) :
    e.dispatch.id ∈ q.staleIds clock timeout ↔ isStale clock timeout e = true := by
  constructor
  · intro hmem
    obtain ⟨x, hx, hid⟩ := List.mem_map.1 hmem
    obtain ⟨hx, hstale⟩ := List.mem_filter.1 hx
    rw [← stale_of_mem h clock timeout he, ← hid, stale_of_mem h clock timeout hx]
    exact hstale
  · exact fun hstale => List.mem_map.2 ⟨e, List.mem_filter.2 ⟨he, hstale⟩, rfl⟩

theorem staleIds_nodup (h : q.Sound) (clock : Clock) (timeout : Nat) :
    (q.staleIds clock timeout).Nodup :=
  (h.ascending.sublist (List.filter_sublist.map _)).imp fun hlt => Int.ne_of_lt hlt

theorem claimed_of_mem_staleIds (h : q.Sound) {clock : Clock} {timeout : Nat} {id : Int}
    (hid : id ∈ q.staleIds clock timeout) : q.live.Claimed id := by
  obtain ⟨e, he, rfl⟩ := List.mem_map.1 hid
  obtain ⟨he, hstale⟩ := List.mem_filter.1 he
  exact claimed_of_isStale h he hstale

theorem freeAll_spec (h : q.Sound) {ids : List Int} (hnodup : ids.Nodup)
    (hclaimed : ∀ id ∈ ids, q.live.Claimed id) :
    (q.freeAll ids).1 = ids.length ∧ (q.freeAll ids).2.Sound ∧
      (q.freeAll ids).2.live = q.live.free (·.id ∈ ids) := by
  induction ids generalizing q with
  | nil => exact ⟨rfl, h, (LiveQueue.update_self (by simp)).symm⟩
  | cons id rest ih =>
    obtain ⟨hnot, hnodup⟩ := List.nodup_cons.1 hnodup
    rcases free?_spec h id (some reclaimMessage) with ⟨-, hfree⟩ | ⟨q', hsome, -, hsound, hlive⟩
    · exact absurd (hclaimed id List.mem_cons_self) hfree
    · have hrest : ∀ i ∈ rest, q'.live.Claimed i := fun i hi => hlive ▸
        (hclaimed i (List.mem_cons_of_mem _ hi)).free (sound_live h) fun heq => hnot (heq ▸ hi)
      obtain ⟨hcount, hsound', hlive'⟩ := ih hsound hnodup hrest
      simp only [freeAll, hsome]
      refine ⟨by rw [hcount]; rfl, hsound', ?_⟩
      rw [hlive', hlive]
      exact LiveQueue.free_free_cons hnot

/-- A reclaim frees exactly the entries whose claims are stale. -/
theorem reclaim_spec (h : q.Sound) (clock : Clock) (timeout : Nat) :
    (q.reclaim clock timeout).2.Sound ∧
      (q.reclaim clock timeout).1 = q.live.entries.countP (q.stale clock timeout ·.id) ∧
      (q.reclaim clock timeout).2.live = q.live.free (q.stale clock timeout ·.id) := by
  obtain ⟨hcount, hsound, hlive⟩ :=
    freeAll_spec h (staleIds_nodup h clock timeout) fun _ => claimed_of_mem_staleIds h
  refine ⟨hsound, ?_, ?_⟩
  · show (q.freeAll _).1 = List.countP _ (List.map _ _)
    rw [hcount, staleIds, List.length_map, ← List.countP_eq_length_filter, List.countP_map]
    refine List.countP_congr fun e he => ?_
    show _ ↔ q.stale clock timeout e.dispatch.id = true
    rw [stale_of_mem h clock timeout he]
  · show (q.freeAll _).2.live = _
    rw [hlive]
    refine LiveQueue.update_congr fun x hx => ?_
    obtain ⟨e, he, rfl⟩ := List.mem_map.1 hx
    have hmem := mem_staleIds h clock timeout he
    rw [← stale_of_mem h clock timeout he] at hmem
    rw [Bool.eq_iff_iff, decide_eq_true_iff]
    exact hmem

theorem depth_live (h : q.Sound) : q.depth = q.live.depth := by
  have hwaiting : q.pending.length = q.live.entries.countP (·.holder.isNone) := by
    show _ = List.countP _ (List.map _ _)
    rw [h.pending, waiting, List.length_map, ← List.countP_eq_length_filter, List.countP_map]
    refine List.countP_congr fun e _ => ?_
    simp only [Function.comp_apply, MemoryEntry.live, Option.isNone_map]
  have hall := List.length_eq_countP_add_countP (fun e : LiveEntry => e.holder.isNone)
    (l := q.live.entries)
  have hclaimed : q.live.entries.countP (fun e => !e.holder.isNone) =
      q.live.entries.countP (·.holder.isSome) :=
    List.countP_congr fun e _ => by cases e.holder <;> simp
  have hlength : q.live.entries.length = q.entries.length := List.length_map _
  show Depth.mk _ _ = Depth.mk _ _
  congr 1
  rw [hwaiting, ← hlength]
  simp only [Bool.not_eq_true, Bool.decide_eq_false] at hall
  omega

end MemoryQueue
end JobGate
