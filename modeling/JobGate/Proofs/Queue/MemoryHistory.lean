/-
The queue in memory is what its history says.

A queue `Follows` a history when it stores the entries that the history leaves
unfinished and will give out the next number.  Every call answers what the history asks
for and is followed again, so a queue that started empty is known from its history alone.
-/
import JobGate.Proofs.Queue.Answered
import JobGate.Proofs.Queue.Memory

namespace JobGate
namespace MemoryQueue

open QueueHistory ExecutionQueue

/-- The age of a claim, on the clock that only moves forward, against a timeout. -/
def isOld (since now : Clock) (timeout : Nat) : Bool := timeout ≤ now.elapsed - since.elapsed

def stored (id : Int) (a : Account) : Option MemoryEntry :=
  let entry (claim : Option Claim) : MemoryEntry :=
    ⟨⟨id, a.dispatch.run, a.dispatch.jobKey, min a.returns maxAttempts⟩, claim, a.lastError⟩
  match a.standing with
  | .waiting => some (entry none)
  | .claimed lease => some (entry (some ⟨lease.worker, lease.since.elapsed⟩))
  | .finished _ _ => none

structure Follows (q : MemoryQueue) (capacity : Nat) (h : List QueueEvent) : Prop where
  sound : q.Sound
  room : q.capacity = max capacity 1
  numbered : Numbered h
  nextId : q.nextId = (ids h).length + 1
  entries : q.entries = roll isOld h stored

theorem new_follows (capacity : Nat) : (new capacity).Follows capacity [] :=
  ⟨new_sound capacity, rfl, rfl, rfl, rfl⟩

/-- A call answers what the history asks for, and the queue behind it follows on. -/
structure Continues (capacity : Nat) (h : List QueueEvent) (c : QueueCall)
    (r : QueueAnswer × MemoryQueue) : Prop where
  answer : r.1 = answer isOld h capacity c
  follows : r.2.Follows capacity (h ++ [⟨c, r.1⟩])

/-! ## Stored entries -/

theorem stored_id {i : Int} {a : Account} {x : MemoryEntry} (h : stored i a = some x) :
    x.dispatch.id = i := by
  unfold stored at h
  cases hs : a.standing with
  | waiting | claimed lease =>
    rw [hs] at h
    cases h
    rfl
  | finished success lease =>
    rw [hs] at h
    cases h

section
variable {h : List QueueEvent} {i : Int}

theorem stored_waits :
    ((account isOld h i).bind (stored i)).any (·.claim.isNone) = waits isOld h i := by
  unfold waits
  cases account isOld h i with
  | none => rfl
  | some a => cases hs : a.standing <;> simp [stored, Standing.isWaiting, hs]

theorem stored_live :
    ((account isOld h i).bind (stored i)).any (fun _ => true) = isLive isOld h i := by
  unfold isLive
  cases account isOld h i with
  | none => rfl
  | some a => cases hs : a.standing <;> simp [stored, Standing.isLive, hs]

theorem stored_claimed :
    ((account isOld h i).bind (stored i)).any (·.claim.isSome) =
      QueueHistory.isClaimed isOld h i := by
  unfold QueueHistory.isClaimed holder?
  cases account isOld h i with
  | none => rfl
  | some a => cases hs : a.standing <;> simp [stored, Standing.holder?, hs]

theorem stored_stale {clock : Clock} {timeout : Nat} :
    ((account isOld h i).bind (stored i)).any (isStale clock timeout) =
      QueueHistory.isStale isOld h clock timeout i := by
  unfold QueueHistory.isStale
  cases account isOld h i with
  | none => rfl
  | some a =>
    cases hs : a.standing <;> simp [stored, isStale, Account.isStale, isOld, hs]

end

/-- An entry that is given back counts one attempt more, up to the highest number. -/
theorem stored_giveBack {i : Int} {a : Account} {lease : Lease} (error : Option String)
    (h : a.standing = .claimed lease) :
    stored i (a.giveBack error) = (stored i a).map (MemoryEntry.freed error) := by
  have hcount :
      min (a.returns + 1) maxAttempts = min (min a.returns maxAttempts + 1) maxAttempts := by
    generalize maxAttempts = highest
    omega
  simp only [stored, Account.giveBack, h, Option.map_some, MemoryEntry.freed, hcount]

/-- A sweep gives back the entries whose claims are stale. -/
theorem stored_sweep {i : Int} {a : Account} {clock : Clock} {timeout : Nat} :
    stored i (if a.isStale isOld clock timeout then a.giveBack (some reclaimMessage) else a) =
      (stored i a).map fun e =>
        if isStale clock timeout e then MemoryEntry.freed (some reclaimMessage) e else e := by
  have hage : ∀ x, stored i a = some x →
      isStale clock timeout x = a.isStale isOld clock timeout := by
    intro x hx
    unfold stored at hx
    cases hs : a.standing <;> rw [hs] at hx <;> cases hx <;> simp only [Account.isStale, hs] <;> rfl
  cases hstale : a.isStale isOld clock timeout with
  | true =>
    cases hs : a.standing with
    | waiting | finished _ _ => simp [Account.isStale, hs] at hstale
    | claimed lease =>
      rw [if_pos rfl, stored_giveBack _ hs]
      exact Option.map_congr fun x hx => by rw [hage x hx, hstale, if_pos rfl]
  | false =>
    cases hx : stored i a with
    | none => simp [hx]
    | some x => simp [hx, hage x hx, hstale]

/-! ## Entries that wait again -/

section
variable {q : MemoryQueue} {id : Int}

def putBack (q : MemoryQueue) (id : Int) (error : Option String) : MemoryQueue :=
  { q.update id (MemoryEntry.freed error) with pending := insertId id q.pending }

theorem free?_eq (q : MemoryQueue) (id : Int) (error : Option String) :
    q.free? id error = if q.isClaimed id then some (q.putBack id error) else none := by
  unfold free? isClaimed
  cases (q.entry? id).bind (·.claim) <;> rfl

theorem freeAll_entries (h : q.Sound) {ids : List Int} (hnodup : ids.Nodup)
    (hclaimed : ∀ id ∈ ids, q.live.Claimed id) :
    (q.freeAll ids).2.entries = q.entries.map fun e =>
      if e.dispatch.id ∈ ids then MemoryEntry.freed (some reclaimMessage) e else e := by
  induction ids generalizing q with
  | nil => simp [freeAll]
  | cons id rest ih =>
    obtain ⟨hnot, hnodup⟩ := List.nodup_cons.1 hnodup
    have hid : q.isClaimed id = true := (claimed_iff h).1 (hclaimed id List.mem_cons_self)
    -- an entry is freed once, so none that was freed before is counted again
    rcases free?_spec h id (some reclaimMessage) with ⟨-, hfree⟩ | ⟨q', hsome, -, hsound, hlive⟩
    · exact absurd (hclaimed id List.mem_cons_self) hfree
    · have hrest : ∀ i ∈ rest, q'.live.Claimed i := fun i hi => hlive ▸
        (hclaimed i (List.mem_cons_of_mem _ hi)).free (sound_live h) fun heq => hnot (heq ▸ hi)
      have hq' : q' = q.putBack id (some reclaimMessage) := by
        rw [free?_eq, if_pos hid] at hsome
        exact (Option.some.inj hsome).symm
      simp only [freeAll, hsome]
      rw [ih hsound hnodup hrest, hq']
      show List.map _ (List.map _ _) = _
      rw [List.map_map]
      refine List.map_congr_left fun e _ => ?_
      by_cases he : e.dispatch.id = id
      · simp [he, MemoryEntry.freed, hnot]
      · simp [he]

theorem reclaim_entries (h : q.Sound) (clock : Clock) (timeout : Nat) :
    (q.reclaim clock timeout).2.entries = q.entries.map fun e =>
      if isStale clock timeout e then MemoryEntry.freed (some reclaimMessage) e else e := by
  refine (freeAll_entries h (staleIds_nodup h clock timeout) fun _ =>
    claimed_of_mem_staleIds h).trans (List.map_congr_left fun e he => ?_)
  rw [if_congr (mem_staleIds h clock timeout he) rfl rfl]

end

/-! ## The calls -/

namespace Follows

variable {q : MemoryQueue} {capacity : Nat} {h : List QueueEvent} {id : Int}

theorem entry?_eq (hq : q.Follows capacity h) (id : Int) :
    q.entry? id = (account isOld h id).bind (stored id) := by
  unfold entry?
  rw [hq.entries]
  exact find?_roll fun _ _ _ => stored_id

theorem isClaimed_eq (hq : q.Follows capacity h) (id : Int) :
    q.isClaimed id = QueueHistory.isClaimed isOld h id := by
  rw [isClaimed, hq.entry?_eq, ← stored_claimed]
  cases (account isOld h id).bind (stored id) <;> rfl

/-- Nothing changes but the history. -/
theorem idle (hq : q.Follows capacity h) {e : QueueEvent} (hgiven : given? e = none)
    (hnext : ∀ i a, next isOld i a e = a) : q.Follows capacity (h ++ [e]) where
  sound := hq.sound
  room := hq.room
  numbered := hq.numbered.concat hgiven
  nextId := by rw [hq.nextId, ids_concat, hgiven]; simp
  entries := by rw [hq.entries, roll_idle hgiven hnext]

/-- The entry of one identifier changes as an event changes its account. -/
theorem update (hq : q.Follows capacity h) {f : MemoryEntry → MemoryEntry} {pending : List Int}
    {g : Account → Account} {e : QueueEvent}
    (hsound : Sound { q.update id f with pending }) (hgiven : given? e = none)
    (hnext : ∀ i a, next isOld i a e = if id = i then a.map g else a)
    (hview : ∀ a, account isOld h id = some a → stored id (g a) = (stored id a).map f) :
    Follows { q.update id f with pending } capacity (h ++ [e]) where
  sound := hsound
  room := hq.room
  numbered := hq.numbered.concat hgiven
  nextId := by
    rw [ids_of_given_none hgiven]
    exact hq.nextId
  entries := by
    rw [roll_update (fun _ _ _ => stored_id) hgiven hnext hview, ← hq.entries]
    rfl

theorem offer (hq : q.Follows capacity h) (clock : Clock) (d : Dispatch) (stopped : Bool) :
    Continues capacity h ⟨clock, .offer d stopped⟩ (perform q ⟨clock, .offer d stopped⟩) := by
  have hlength : q.entries.length = (ids h).countP (QueueHistory.isLive isOld h) := by
    rw [hq.entries, ← List.countP_true]
    exact countP_roll fun _ _ => stored_live
  have hperform : perform q ⟨clock, .offer d stopped⟩ =
      (.offered (.ok (q.offer d stopped).1), (q.offer d stopped).2) := rfl
  rw [hperform]
  unfold MemoryQueue.offer
  cases stopped with
  | true => exact ⟨rfl, hq.idle rfl fun _ _ => rfl⟩
  | false =>
    simp only [Bool.false_eq_true, if_false]
    by_cases hroom : q.entries.length < q.capacity
    · rw [if_pos hroom]
      have hid := hq.nextId
      refine ⟨?_, added_sound hq.sound d, hq.room, hq.numbered.add (congrArg some hid), ?_, ?_⟩
      · rw [hlength, hq.room] at hroom
        simp only [answer, Bool.false_eq_true, if_false, hroom, if_true, hid]
      · rw [ids_concat]
        show q.nextId + 1 = _
        simp [given?, hid]
      · have hnew : q.nextId ∉ ids h := by
          rw [hq.numbered.mem_iff]
          omega
        rw [roll_add (a := { dispatch := d }) rfl hnew fun _ _ => rfl, ← hq.entries]
        rfl
    · rw [if_neg hroom]
      refine ⟨?_, hq.idle rfl fun _ _ => rfl⟩
      rw [hlength, hq.room] at hroom
      simp only [answer, Bool.false_eq_true, if_false, hroom]

theorem claim (hq : q.Follows capacity h) (clock : Clock) (worker : String) :
    Continues capacity h ⟨clock, .claim worker⟩ (perform q ⟨clock, .claim worker⟩) := by
  have hperform : perform q ⟨clock, .claim worker⟩ =
      (.claimed (q.claim clock worker).1, (q.claim clock worker).2) := rfl
  have hhead : q.pending.head? = (((ids h).find? (waits isOld h)).bind fun i =>
      (account isOld h i).bind (stored i)).map (·.dispatch.id) := by
    rw [hq.sound.pending, waiting_head?, hq.entries,
      find?_roll_first fun _ _ => stored_waits]
  have hsound := (claim_spec hq.sound clock worker).1
  rw [hperform]
  cases hfirst : (ids h).find? (waits isOld h) with
  | none =>
    rw [hfirst, Option.bind_none, Option.map_none, List.head?_eq_none_iff] at hhead
    have hclaim : q.claim clock worker = (.ok none, q) := by
      simp only [MemoryQueue.claim, hhead]
    rw [hclaim]
    exact ⟨by simp only [answer, hfirst, Option.bind_none], hq.idle rfl fun _ _ => rfl⟩
  | some i =>
    obtain ⟨a, ha, hwaiting⟩ := waits_iff.1 (List.find?_some hfirst)
    have hstored : stored i a = some ⟨⟨i, a.dispatch.run, a.dispatch.jobKey,
        min a.returns maxAttempts⟩, none, a.lastError⟩ := by rw [stored, hwaiting]
    have hentry : q.entry? i = stored i a := by rw [hq.entry?_eq, ha, Option.bind_some]
    rw [hfirst, Option.bind_some, ha, Option.bind_some, hstored, Option.map_some] at hhead
    obtain ⟨rest, hpending⟩ := List.head?_eq_some_iff.1 hhead
    have hclaim : q.claim clock worker = (.ok (handedOut isOld h i),
        { q with pending := rest }.update i fun e =>
          { e with claim := some ⟨worker, clock.elapsed⟩ }) := by
      have hentry' : entry? { q with pending := rest } i = some _ := hentry.trans hstored
      simp only [MemoryQueue.claim, hpending, hentry', handedOut, ha, Option.map_some]
    rw [hclaim] at hsound ⊢
    have hgiven : handedOut isOld h i = some ⟨i, a.dispatch.run, a.dispatch.jobKey,
        min a.returns maxAttempts⟩ := by rw [handedOut, ha, Option.map_some]
    have hview : ∀ b, account isOld h i = some b → stored i (b.claim ⟨worker, clock⟩) =
        (stored i b).map fun e => { e with claim := some ⟨worker, clock.elapsed⟩ } := by
      intro b hb
      rw [← Option.some.inj (ha.symm.trans hb), hstored]
      rfl
    refine ⟨by simp only [answer, hfirst, Option.bind_some], ?_⟩
    rw [hgiven]
    exact hq.update hsound rfl (fun _ _ => rfl) hview

theorem complete (hq : q.Follows capacity h) (clock : Clock) (id : Int) (success : Bool)
    (error : Option String) :
    Continues capacity h ⟨clock, .complete id success error⟩
      (perform q ⟨clock, .complete id success error⟩) := by
  have hperform : perform q ⟨clock, .complete id success error⟩ =
      (.settled (q.complete id).1, (q.complete id).2) := rfl
  have hsound := (complete_spec hq.sound id).1
  have hclaimed := hq.isClaimed_eq id
  rw [hperform]
  unfold MemoryQueue.complete at hsound ⊢
  by_cases hc : q.isClaimed id = true
  · simp only [hc, if_true] at hsound ⊢
    rw [hclaimed] at hc
    refine ⟨?_, hsound, hq.room, hq.numbered.concat rfl, ?_, ?_⟩
    · simp only [answer, hc, if_true]
    · rw [ids_of_given_none rfl]
      exact hq.nextId
    · rw [roll_remove (fun _ _ _ => stored_id) rfl (fun _ _ => rfl) fun _ _ => rfl, ← hq.entries]
  · simp only [hc, Bool.false_eq_true, if_false]
    rw [hclaimed] at hc
    exact ⟨by simp only [answer, hc, Bool.false_eq_true, if_false],
      hq.idle rfl fun _ _ => rfl⟩

theorem release (hq : q.Follows capacity h) (clock : Clock) (id : Int) (error : Option String) :
    Continues capacity h ⟨clock, .release id error⟩ (perform q ⟨clock, .release id error⟩) := by
  have hperform : perform q ⟨clock, .release id error⟩ =
      (.settled (q.release id error).1, (q.release id error).2) := rfl
  have hsound := (release_spec hq.sound id error).1
  rw [hperform]
  unfold MemoryQueue.release at hsound ⊢
  rw [free?_eq, hq.isClaimed_eq] at hsound ⊢
  by_cases hc : QueueHistory.isClaimed isOld h id = true
  · rw [if_pos hc] at hsound ⊢
    have hview : ∀ a, account isOld h id = some a → stored id (a.giveBack error) =
        (stored id a).map (MemoryEntry.freed error) := by
      intro a ha
      obtain ⟨b, lease, hb, hstanding⟩ := isClaimed_iff.1 hc
      rw [ha] at hb
      cases hb
      exact stored_giveBack error hstanding
    exact ⟨by simp only [answer, hc, if_true], hq.update hsound rfl (fun _ _ => rfl) hview⟩
  · rw [if_neg hc]
    exact ⟨by simp only [answer, hc, Bool.false_eq_true, if_false],
      hq.idle rfl fun _ _ => rfl⟩

theorem renew (hq : q.Follows capacity h) (clock : Clock) (id : Int) (worker : String) :
    Continues capacity h ⟨clock, .renew id worker⟩ (perform q ⟨clock, .renew id worker⟩) := by
  have hperform : perform q ⟨clock, .renew id worker⟩ =
      (.settled (q.renew clock id worker).1, (q.renew clock id worker).2) := rfl
  have hsound := (renew_spec hq.sound clock id worker).1
  have hclaim : (q.entry? id).bind (·.claim) = (account isOld h id).bind fun a =>
      (stored id a).bind (·.claim) := by
    rw [hq.entry?_eq, Option.bind_assoc]
  rw [hperform]
  unfold MemoryQueue.renew at hsound ⊢
  by_cases hw : holder? isOld h id = some worker
  · obtain ⟨a, since, ha, hstanding⟩ := holder?_iff.1 hw
    have hc : (q.entry? id).bind (·.claim) = some ⟨worker, since.elapsed⟩ := by
      rw [hclaim, ha, Option.bind_some, stored, hstanding]
      rfl
    simp only [hc, if_true] at hsound ⊢
    have hview : ∀ b, account isOld h id = some b → stored id (b.renew clock) =
        (stored id b).map fun e => { e with claim := some ⟨worker, clock.elapsed⟩ } := by
      intro b hb
      rw [← Option.some.inj (ha.symm.trans hb)]
      simp only [stored, Account.renew, hstanding, Option.map_some]
    exact ⟨by simp only [answer, hw, if_true], hq.update hsound rfl (fun _ _ => rfl) hview⟩
  · -- either nobody has claimed the entry or it is somebody else, and both are refused alike
    have hnot : ∀ c, (q.entry? id).bind (·.claim) = some c → c.worker ≠ worker := by
      intro c hc hcw
      rw [hclaim] at hc
      obtain ⟨a, ha, hac⟩ := Option.bind_eq_some_iff.1 hc
      refine hw (holder?_iff.2 ?_)
      cases hs : a.standing with
      | waiting | finished _ _ => simp [stored, hs] at hac
      | claimed lease =>
        simp only [stored, hs, Option.bind_some, Option.some.injEq] at hac
        rw [← hac] at hcw
        exact ⟨a, lease.since, ha, by rw [hs, ← hcw]⟩
    have hrefused : answer isOld h capacity ⟨clock, .renew id worker⟩ =
        .settled (.error (.notClaimed id)) := by simp only [answer, hw, if_false]
    cases hc : (q.entry? id).bind (·.claim) with
    | none => exact ⟨hrefused.symm, hq.idle rfl fun _ _ => rfl⟩
    | some c =>
      simp only [if_neg (hnot c hc)]
      exact ⟨hrefused.symm, hq.idle rfl fun _ _ => rfl⟩

theorem reclaim (hq : q.Follows capacity h) (clock : Clock) (timeout : Nat) :
    Continues capacity h ⟨clock, .reclaim timeout⟩ (perform q ⟨clock, .reclaim timeout⟩) := by
  have hperform : perform q ⟨clock, .reclaim timeout⟩ =
      (.reclaimed (.ok (q.reclaim clock timeout).1), (q.reclaim clock timeout).2) := rfl
  obtain ⟨hsound, hcount, hlive⟩ := reclaim_spec hq.sound clock timeout
  rw [hperform]
  refine ⟨?_, hsound, ?_, hq.numbered.concat rfl, ?_, ?_⟩
  · have hstale : (q.reclaim clock timeout).1 =
        (ids h).countP (QueueHistory.isStale isOld h clock timeout) := by
      rw [← countP_roll fun _ _ => stored_stale, ← hq.entries, hcount]
      show List.countP _ (List.map _ _) = _
      rw [List.countP_map]
      refine List.countP_congr fun e he => ?_
      show q.stale clock timeout e.dispatch.id = true ↔ _
      rw [stale_of_mem hq.sound clock timeout he]
    simp only [hstale, answer]
  · exact (congrArg LiveQueue.capacity hlive).trans hq.room
  · rw [ids_of_given_none rfl]
    exact (congrArg LiveQueue.next hlive).trans hq.nextId
  · rw [roll_sweep rfl (fun _ _ => rfl) fun _ _ _ => stored_sweep, ← hq.entries]
    exact reclaim_entries hq.sound clock timeout

theorem depth (hq : q.Follows capacity h) (clock : Clock) :
    Continues capacity h ⟨clock, .depth⟩ (perform q ⟨clock, .depth⟩) := by
  have hperform : perform q ⟨clock, .depth⟩ = (.counted (.ok q.depth), q) := rfl
  have hcount : ∀ p : LiveEntry → Bool, q.live.entries.countP p = q.entries.countP (p ·.live) :=
    fun p => List.countP_map
  rw [hperform]
  refine ⟨?_, hq.idle rfl fun _ _ => rfl⟩
  have hpending : q.entries.countP (·.live.holder.isNone) = (ids h).countP (waits isOld h) := by
    rw [hq.entries]
    refine countP_roll fun i _ => stored_waits ▸ ?_
    simp [MemoryEntry.live]
  have hheld : q.entries.countP (·.live.holder.isSome) =
      (ids h).countP (QueueHistory.isClaimed isOld h) := by
    rw [hq.entries]
    refine countP_roll fun i _ => stored_claimed ▸ ?_
    simp [MemoryEntry.live]
  simp only [answer, depth_live hq.sound, LiveQueue.depth, hcount, hpending, hheld]

theorem continues (hq : q.Follows capacity h) (c : QueueCall) :
    Continues capacity h c (perform q c) := by
  obtain ⟨clock, op⟩ := c
  cases op with
  | offer d stopped => exact hq.offer clock d stopped
  | claim worker => exact hq.claim clock worker
  | complete id success error => exact hq.complete clock id success error
  | release id error => exact hq.release clock id error
  | renew id worker => exact hq.renew clock id worker
  | reclaim timeout => exact hq.reclaim clock timeout
  | depth => exact hq.depth clock

end Follows

/-- A queue that started empty is what its history says. -/
theorem follows_history (capacity : Nat) (calls : List QueueCall) :
    (after (new capacity) calls).Follows capacity (history (new capacity) calls) := by
  induction calls using List.reverseRecOn with
  | nil => exact new_follows capacity
  | append_singleton calls c ih =>
    rw [after_concat, history_concat]
    exact (ih.continues c).follows

/-- A queue that started empty has answered every call as its history asks for. -/
theorem history_answered (capacity : Nat) (calls : List QueueCall) :
    Answered isOld capacity (history (new capacity) calls) := by
  intro before e rest heq
  obtain ⟨first, -, -, rfl, hanswer⟩ := of_history_eq heq
  rw [hanswer]
  exact ((follows_history capacity first).continues e.toQueueCall).answer

end MemoryQueue
end JobGate
