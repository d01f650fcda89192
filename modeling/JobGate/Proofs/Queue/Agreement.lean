/-
Both kinds of queue answer alike.

The queue in memory and the table follow the same histories, but for the clock on which
each measures the age of a claim.  While both clocks move alike and by whole
milliseconds, the two ages differ in no comparison with a timeout of whole milliseconds
(`isOld_eq`), so the histories are the same.
-/
import JobGate.Proofs.Queue.MemoryHistory
import JobGate.Proofs.Queue.TableHistory

namespace JobGate

/-! ## Clocks that move alike -/

/-- The second reading is some whole number of milliseconds after the first, on the wall
clock and on the elapsed one. -/
def Clock.Ticks (c c' : Clock) : Prop :=
  ∃ n : Nat, c'.millis = c.millis + n ∧ c'.elapsed = c.elapsed + Duration.ofMillis n

namespace Clock.Ticks

variable {c c' c'' : Clock}

theorem trans (h : c.Ticks c') (h' : c'.Ticks c'') : c.Ticks c'' := by
  obtain ⟨n, hwall, helapsed⟩ := h
  obtain ⟨m, hwall', helapsed'⟩ := h'
  refine ⟨n + m, by omega, ?_⟩
  rw [helapsed', helapsed, Nat.add_assoc]
  exact congrArg _ (Nat.add_mul n m Duration.perMilli).symm

instance : IsTrans Clock Clock.Ticks := ⟨fun _ _ _ => trans⟩

/-- A clock that is moved forward by whole milliseconds ticks, unless the wall clock has
come to its end. -/
theorem advance {n : Nat} {wall : Instant} (h : c.wall.add? (Duration.ofMillis n) = some wall) :
    c.Ticks (c.advance (Duration.ofMillis n)) := by
  refine ⟨n, ?_, rfl⟩
  unfold Clock.millis Clock.advance
  rw [h, Option.getD_some]
  unfold Instant.add? Instant.ofUnix? at h
  dsimp only at h
  split_ifs at h
  cases h
  simp only [Instant.toMillis, Duration.ofMillis, Duration.perSecond, Duration.perMilli]
  omega

end Clock.Ticks

theorem Instant.toMillis_bounds (t : Instant) :
    -8334601228800000 ≤ t.toMillis ∧ t.toMillis < 8210266876801000 := by
  obtain ⟨seconds, nanos, hlow, hhigh, hnanos⟩ := t
  simp only [Instant.toMillis, Duration.perMilli]
  omega

/-- The two ages of a claim agree on which timeouts have passed. -/
theorem isOld_eq {since now : Clock} (h : since.Ticks now) {timeout : Nat}
    (hwhole : Duration.perMilli ∣ timeout) :
    MemoryQueue.isOld since now timeout = TableQueue.isOld since now timeout := by
  obtain ⟨n, hwall, helapsed⟩ := h
  obtain ⟨k, rfl⟩ := hwhole
  have hsince : -8334601228800000 ≤ since.millis := (Instant.toMillis_bounds _).1
  have hnow : now.millis < 8210266876801000 := (Instant.toMillis_bounds _).2
  have hmillis : Duration.toMillis (Duration.perMilli * k) = k := by
    unfold Duration.toMillis Duration.perMilli
    omega
  rw [MemoryQueue.isOld, TableQueue.isOld, TableQueue.cutoff, helapsed, hmillis]
  unfold Duration.ofMillis Duration.perMilli TableQueue.maxMillis
  refine decide_eq_decide.2 ?_
  omega

/-! ## Histories on which two ages agree -/

namespace QueueHistory

variable {old old' : Staleness} {capacity : Nat} {h : List QueueEvent} {e : QueueEvent} {id : Int}

/-- Two ages agree on what the second call asks of claims made or renewed by the first. -/
def SameAge (old old' : Staleness) (x c : QueueCall) : Prop :=
  ∀ timeout, c.op = .reclaim timeout →
    old x.clock c.clock timeout = old' x.clock c.clock timeout

/-- A claim dates from the clock of the event that made or renewed it. -/
theorem next_since {a : Option Account} {b : Account} {lease : Lease}
    (hb : next old id a e = some b) (hlease : b.standing.lease? = some lease) :
    lease.since = e.clock ∨ ∃ x, a = some x ∧ x.standing.lease? = some lease := by
  unfold next at hb
  split at hb
  · split_ifs at hb
    · cases hb
      cases hlease
    · exact .inr ⟨b, hb, hlease⟩
  · split_ifs at hb
    · obtain ⟨x, -, rfl⟩ := Option.map_eq_some_iff.1 hb
      cases hlease
      exact .inl rfl
    · exact .inr ⟨b, hb, hlease⟩
  · split_ifs at hb
    · obtain ⟨x, hx, rfl⟩ := Option.map_eq_some_iff.1 hb
      exact .inr ⟨x, hx, hlease⟩
    · exact .inr ⟨b, hb, hlease⟩
  · split_ifs at hb
    · obtain ⟨x, -, rfl⟩ := Option.map_eq_some_iff.1 hb
      cases hlease
    · exact .inr ⟨b, hb, hlease⟩
  · split_ifs at hb
    · obtain ⟨x, hx, rfl⟩ := Option.map_eq_some_iff.1 hb
      unfold Account.renew at hlease
      split at hlease
      · cases hlease
        exact .inl rfl
      · exact .inr ⟨x, hx, hlease⟩
      · exact .inr ⟨x, hx, hlease⟩
    · exact .inr ⟨b, hb, hlease⟩
  · obtain ⟨x, hx, hxb⟩ := Option.map_eq_some_iff.1 hb
    split_ifs at hxb
    · rw [← hxb] at hlease
      cases hlease
    · exact .inr ⟨x, hx, hxb ▸ hlease⟩
  · exact .inr ⟨b, hb, hlease⟩

theorem since_mem {a : Account} {lease : Lease} (ha : account old h id = some a)
    (hlease : a.standing.lease? = some lease) : ∃ x ∈ h, x.clock = lease.since := by
  induction h using List.reverseRecOn generalizing a with
  | nil => cases ha
  | append_singleton h e ih =>
    rw [account_concat] at ha
    rcases next_since ha hlease with hsince | ⟨x, hx, hxlease⟩
    · exact ⟨e, by simp, hsince.symm⟩
    · obtain ⟨y, hy, hclock⟩ := ih hx hxlease
      exact ⟨y, List.mem_append_left _ hy, hclock⟩

theorem stale_congr {c : QueueCall} {timeout : Nat} {a : Account}
    (hsame : ∀ x ∈ h, SameAge old old' x.toQueueCall c) (hop : c.op = .reclaim timeout)
    (ha : account old h id = some a) :
    a.isStale old c.clock timeout = a.isStale old' c.clock timeout := by
  unfold Account.isStale
  cases hs : a.standing with
  | waiting | finished _ _ => rfl
  | claimed lease =>
    obtain ⟨x, hx, hclock⟩ := since_mem ha (by rw [hs]; rfl)
    have hage := hsame x hx timeout hop
    rw [hclock] at hage
    exact hage

theorem isStale_congr {c : QueueCall} {timeout : Nat}
    (hsame : ∀ x ∈ h, SameAge old old' x.toQueueCall c) (hop : c.op = .reclaim timeout)
    (haccount : account old h = account old' h) :
    isStale old h c.clock timeout id = isStale old' h c.clock timeout id := by
  unfold isStale
  rw [← haccount]
  cases ha : account old h id with
  | none => rfl
  | some a => exact stale_congr hsame hop ha

theorem next_congr (hsame : ∀ x ∈ h, SameAge old old' x.toQueueCall e.toQueueCall) :
    next old id (account old h id) e = next old' id (account old h id) e := by
  unfold next
  -- only a reclaim looks at the age of a claim
  split <;> try rfl
  rename_i hop _
  refine Option.map_congr fun a ha => ?_
  rw [stale_congr hsame hop ha]

/-- Two ages that agree on every reclaim of a history tell the same accounts. -/
theorem account_congr
    (hsame : h.Pairwise fun x e => SameAge old old' x.toQueueCall e.toQueueCall) :
    account old h = account old' h := by
  induction h using List.reverseRecOn with
  | nil => rfl
  | append_singleton h e ih =>
    obtain ⟨hbefore, -, hlast⟩ := List.pairwise_append.1 hsame
    funext id
    rw [account_concat, account_concat, ← ih hbefore]
    exact next_congr fun x hx => hlast x hx e (List.mem_singleton_self e)

theorem answer_congr {c : QueueCall} (hsame : ∀ x ∈ h, SameAge old old' x.toQueueCall c)
    (haccount : account old h = account old' h) :
    answer old h capacity c = answer old' h capacity c := by
  have hwaits : waits old h = waits old' h := by unfold waits; rw [haccount]
  have hholder : holder? old h = holder? old' h := by unfold holder?; rw [haccount]
  have hclaimed : isClaimed old h = isClaimed old' h := by unfold isClaimed; rw [hholder]
  have hlive : isLive old h = isLive old' h := by unfold isLive; rw [haccount]
  have hgiven : handedOut old h = handedOut old' h := by unfold handedOut; rw [haccount]
  obtain ⟨clock, op⟩ := c
  cases op with
  | reclaim timeout =>
    have hstale : isStale old h clock timeout = isStale old' h clock timeout :=
      funext fun id => isStale_congr hsame rfl haccount
    simp only [answer, hstale]
  | offer _ _ | claim _ | complete _ _ _ | release _ _ | renew _ _ | depth =>
    simp only [answer, hwaits, hholder, hclaimed, hlive, hgiven]

end QueueHistory

/-! ## The same calls -/

open QueueHistory
open ExecutionQueue (perform after history answers)

theorem sameAge_of_ticks {calls : List QueueCall}
    (hclocks : (calls.map (·.clock)).IsChain Clock.Ticks)
    (hwhole : ∀ c ∈ calls, ∀ timeout, c.op = .reclaim timeout → Duration.perMilli ∣ timeout) :
    calls.Pairwise (SameAge MemoryQueue.isOld TableQueue.isOld) := by
  have hticks : calls.Pairwise fun x c => x.clock.Ticks c.clock :=
    List.pairwise_map.1 (List.isChain_iff_pairwise.1 hclocks)
  exact hticks.imp_of_mem fun _ hc htick timeout hop => isOld_eq htick (hwhole _ hc timeout hop)

/-- The histories of both kinds of queue are the same as long as the two ages agree on
every reclaim and no entry is given back too often for a row. -/
theorem histories_agree (capacity : Nat) (calls : List QueueCall)
    (hsame : calls.Pairwise (SameAge MemoryQueue.isOld TableQueue.isOld))
    (hreturns : ∀ id,
      returns MemoryQueue.isOld (history (MemoryQueue.new capacity) calls) id < 4294967296) :
    history (MemoryQueue.new capacity) calls = history (TableQueue.new capacity) calls := by
  induction calls using List.reverseRecOn with
  | nil => rfl
  | append_singleton calls c ih =>
    have hanswered := MemoryQueue.history_answered capacity (calls ++ [c])
    rw [ExecutionQueue.history_concat] at hanswered hreturns
    have hbound : ∀ id,
        returns MemoryQueue.isOld (history (MemoryQueue.new capacity) calls) id < 4294967296 :=
      fun id => Nat.lt_of_le_of_lt (hanswered.returns_le id) (hreturns id)
    obtain ⟨hbefore, -, hlast⟩ := List.pairwise_append.1 hsame
    have hmemory := ((MemoryQueue.follows_history capacity calls).continues c).answer
    have htable := ((TableQueue.follows_history capacity calls).continues c).answer
    rw [ExecutionQueue.history_concat, ExecutionQueue.history_concat, ← ih hbefore hbound]
    rw [← ih hbefore hbound] at htable
    -- the calls so far had the same answers, so one history stands for both queues
    have hcalls := ExecutionQueue.calls_history (MemoryQueue.new capacity) calls
    generalize history (MemoryQueue.new capacity) calls = h at *
    have hages : h.Pairwise fun x e =>
        SameAge MemoryQueue.isOld TableQueue.isOld x.toQueueCall e.toQueueCall := by
      rw [← hcalls] at hbefore
      exact List.pairwise_map.1 hbefore
    have haccount := account_congr hages
    have hnow : ∀ x ∈ h, SameAge MemoryQueue.isOld TableQueue.isOld x.toQueueCall c := by
      intro x hx
      exact hlast _ (hcalls ▸ List.mem_map_of_mem hx) c (List.mem_singleton_self c)
    rw [hmemory, htable fun id => by unfold returns; rw [← haccount]; exact hbound id,
      answer_congr hnow haccount]

/-- Both kinds of queue answer the same calls alike, while the clocks move alike and by
whole milliseconds. -/
theorem backends_agree (capacity : Nat) (calls : List QueueCall)
    (hclocks : (calls.map (·.clock)).IsChain Clock.Ticks)
    (hwhole : ∀ c ∈ calls, ∀ timeout, c.op = .reclaim timeout → Duration.perMilli ∣ timeout)
    (hreturns : ∀ id,
      returns MemoryQueue.isOld (history (MemoryQueue.new capacity) calls) id < 4294967296) :
    answers (MemoryQueue.new capacity) calls = answers (TableQueue.new capacity) calls := by
  unfold answers
  rw [histories_agree capacity calls (sameAge_of_ticks hclocks hwhole) hreturns]

/-- A claim that is taken back at the very age of the timeout and made again. -/
theorem backends_agree_reclaimed :
    let clock (n : Nat) : Clock := Clock.advance ⟨.epoch, 0⟩ (Duration.ofMillis n)
    let calls : List QueueCall :=
      [⟨clock 0, .offer ⟨⟨"run-0-0000", by decide⟩, "backup"⟩ false⟩, ⟨clock 0, .claim "worker-1"⟩,
        ⟨clock 5, .reclaim (Duration.ofMillis 5)⟩, ⟨clock 5, .claim "worker-2"⟩]
    answers (MemoryQueue.new 1) calls = answers (TableQueue.new 1) calls := by
  intro clock calls
  refine backends_agree 1 calls ?_ ?_ fun id => ?_
  · refine .cons_cons ⟨0, by decide⟩ (.cons_cons ⟨5, by decide⟩ (.cons_cons ⟨0, by decide⟩ ?_))
    exact .singleton _
  · intro c hc timeout hop
    simp only [calls, List.mem_cons, List.not_mem_nil, or_false] at hc
    rcases hc with rfl | rfl | rfl | rfl <;> cases hop
    exact ⟨5, rfl⟩
  · exact Nat.lt_of_le_of_lt ((MemoryQueue.history_answered 1 calls).returns_le_length id)
      (show 4 < 4294967296 by decide)

end JobGate
