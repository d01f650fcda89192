/-
Claims that are taken back.

A sweep takes back every claim that is older than its timeout, and what it has taken back no
other sweep of the same instant finds.  So the sweeps of one instant, whatever their timeouts
and their order, come to a single one with the least of the timeouts (`after_sweeps`).

The age of a claim is what the history of the queue says: the time since the event that made or
last renewed it, on the clock that only moves forward.  A queue in memory measures just that,
and a table measures it as long as its clock moves alike and by whole milliseconds
(`isStale_eq_overdue`).
-/
import JobGate.Proofs.Queue.Dated
import JobGate.Proofs.Queue.Rows
import Mathlib.Algebra.Ring.Nat

namespace JobGate

/-! ## Rows -/

namespace Row

def isStale (kind : BackendKind) (now : Clock) (timeout : Nat) (r : Row) : Bool :=
  match kind with
  | .memory => r.status = .claimed && r.claimedAt.any fun since =>
      timeout ≤ now.elapsed - since.toNat
  | .table => TableQueue.isStale (TableQueue.cutoff now timeout) r

/-- The row after its claim was taken back.  A queue in memory counts no more attempts than fit
into 32 bits. -/
def recovered (kind : BackendKind) (r : Row) : Row :=
  { r with
    status := .pending
    attempts :=
      match kind with
      | .memory => min (r.attempts + 1) 4294967295
      | .table => r.attempts + 1
    claimedBy := none
    claimedAt := none
    lastError := some reclaimMessage }

def swept (kind : BackendKind) (now : Clock) (timeouts : List Nat) (r : Row) : Row :=
  if timeouts.any (r.isStale kind now ·) then r.recovered kind else r

variable {kind : BackendKind} {now : Clock} {timeout : Nat} {r : Row}

theorem isStale_recovered : (r.recovered kind).isStale kind now timeout = false := by
  cases kind <;> rfl

theorem claimed_of_isStale (h : r.isStale kind now timeout = true) : r.status = .claimed := by
  cases kind with
  | memory =>
    simp only [isStale, Bool.and_eq_true, decide_eq_true_eq] at h
    exact h.1
  | table => exact TableQueue.claimed_of_isStale h

/-- A row that was taken back is not taken back again. -/
theorem swept_cons (timeouts : List Nat) :
    (r.swept kind now [timeout]).swept kind now timeouts =
      r.swept kind now (timeout :: timeouts) := by
  unfold swept
  cases hstale : r.isStale kind now timeout with
  | true => simp [hstale, isStale_recovered]
  | false => simp [hstale]

/-- A sweep finds nothing that another one of its instant and its timeout has left. -/
theorem isStale_swept {timeouts : List Nat} (h : timeout ∈ timeouts) :
    (r.swept kind now timeouts).isStale kind now timeout = false := by
  unfold swept
  cases hany : timeouts.any (r.isStale kind now ·) with
  | true => exact isStale_recovered
  | false => exact Bool.eq_false_iff.2 (List.any_eq_false.1 hany timeout h)

theorem attempts_recovered (h : r.attempts + 1 < 4294967296) :
    (r.recovered kind).attempts = r.attempts + 1 := by
  cases kind with
  | memory =>
    show min (r.attempts + 1) 4294967295 = r.attempts + 1
    omega
  | table => rfl

end Row

theorem MemoryEntry.isStale_row (now : Clock) (timeout : Nat) (e : MemoryEntry) :
    e.row.isStale .memory now timeout = MemoryQueue.isStale now timeout e := by
  unfold Row.isStale MemoryEntry.row MemoryQueue.isStale
  cases e.claim <;> simp

theorem MemoryEntry.row_freed (e : MemoryEntry) :
    (MemoryQueue.MemoryEntry.freed (some reclaimMessage) e).row = e.row.recovered .memory := by
  have hcount : ((min (e.dispatch.attempts + 1) 4294967295 : Nat) : Int) =
      min ((e.dispatch.attempts : Int) + 1) 4294967295 := by omega
  simp only [MemoryQueue.MemoryEntry.freed, MemoryEntry.row, Row.recovered,
    MemoryQueue.maxAttempts, hcount]
  rfl

/-! ## Sweeps -/

def sweeps (now : Clock) (timeouts : List Nat) : List QueueCall :=
  timeouts.map fun timeout => ⟨now, .reclaim timeout⟩

namespace Backend

open ExecutionQueue (perform after history answers)

variable {q : Backend} {now : Clock}

theorem reclaim_count (h : q.Sound) (now : Clock) (timeout : Nat) :
    (ExecutionQueue.reclaim q now timeout).1 =
      .ok (q.rows.countP (·.isStale q.kind now timeout)) := by
  cases q with
  | memory q =>
    have hcount : (q.reclaim now timeout).1 = (q.staleIds now timeout).length :=
      (MemoryQueue.freeAll_spec h (MemoryQueue.staleIds_nodup h now timeout) fun _ =>
        MemoryQueue.claimed_of_mem_staleIds h).1
    have hrows : (memory q).rows.countP (·.isStale .memory now timeout) =
        q.entries.countP (MemoryQueue.isStale now timeout) := by
      show List.countP _ (List.map _ _) = _
      rw [List.countP_map]
      exact List.countP_congr fun e _ => by rw [Function.comp_apply, e.isStale_row]
    show Except.ok (q.reclaim now timeout).1 = .ok ((memory q).rows.countP _)
    rw [hcount, MemoryQueue.staleIds, List.length_map, ← List.countP_eq_length_filter]
    exact congrArg Except.ok hrows.symm
  | table q =>
    show (q.onTable _).1 = _
    rw [TableQueue.onTable_eq h]
    rfl

theorem reclaim_becomes (h : q.Sound) (now : Clock) (timeout : Nat) :
    q.Becomes (·.swept q.kind now [timeout]) (ExecutionQueue.reclaim q now timeout).2 := by
  obtain ⟨hsound, -, hlive⟩ := reclaim_answers h now timeout
  refine ⟨hsound, ?_, ?_, by rw [hlive]; rfl, by rw [hlive]; rfl⟩
  · cases q <;> rfl
  · cases q with
    | memory q =>
      show List.map _ (q.reclaim now timeout).2.entries = List.map _ (List.map _ q.entries)
      rw [MemoryQueue.reclaim_entries h, List.map_map, List.map_map]
      refine List.map_congr_left fun e _ => ?_
      show (if _ then _ else e : MemoryEntry).row = e.row.swept .memory now [timeout]
      rw [Row.swept, List.any_cons, List.any_nil, Bool.or_false, e.isStale_row]
      split
      · exact e.row_freed
      · rfl
    | table q =>
      show (q.onTable _).2.rows = _
      rw [TableQueue.onTable_eq h]
      refine List.map_congr_left fun r _ => ?_
      show _ = r.swept .table now [timeout]
      rw [Row.swept, List.any_cons, List.any_nil, Bool.or_false]
      rfl

theorem reclaim_of_none_stale (h : q.Sound) {timeout : Nat}
    (hnone : ∀ r ∈ q.rows, r.isStale q.kind now timeout = false) :
    ExecutionQueue.reclaim q now timeout = (.ok 0, q) := by
  have hsame : (ExecutionQueue.reclaim q now timeout).2 = q := by
    refine (reclaim_becomes h now timeout).unique (.refl h fun r hr => ?_)
    rw [Row.swept, List.any_cons, List.any_nil, hnone r hr]
    rfl
  have hcount : q.rows.countP (·.isStale q.kind now timeout) = 0 :=
    List.countP_eq_zero.2 fun r hr => by simp [hnone r hr]
  exact Prod.ext (by rw [reclaim_count h, hcount]) hsame

/-- The claims that the first sweep takes back are not found by the next ones. -/
theorem countP_swept (kind : BackendKind) (now : Clock) (timeout : Nat) (timeouts : List Nat)
    (rows : List Row) :
    rows.countP (·.isStale kind now timeout) +
        (rows.map (·.swept kind now [timeout])).countP
          (fun r => timeouts.any (r.isStale kind now ·)) =
      rows.countP fun r => (timeout :: timeouts).any (r.isStale kind now ·) := by
  induction rows with
  | nil => rfl
  | cons r rest ih =>
    rw [List.map_cons, List.countP_cons, List.countP_cons, List.countP_cons, ← ih, List.any_cons,
      Row.swept, List.any_cons, List.any_nil, Bool.or_false]
    cases r.isStale kind now timeout with
    | true => simp [Row.isStale_recovered]; omega
    | false => simp; omega

/-- The sweeps of one instant take back the claims that any of them finds stale. -/
theorem after_sweeps (h : q.Sound) (now : Clock) (timeouts : List Nat) :
    (∃ counts : List Nat,
      answers q (sweeps now timeouts) = counts.map (fun n => .reclaimed (.ok n)) ∧
      counts.sum = q.rows.countP fun r => timeouts.any (r.isStale q.kind now ·)) ∧
    q.Becomes (·.swept q.kind now timeouts) (after q (sweeps now timeouts)) := by
  induction timeouts generalizing q with
  | nil =>
    refine ⟨⟨[], rfl, ?_⟩, .refl h fun r _ => rfl⟩
    simp
  | cons timeout rest ih =>
    have hcount := reclaim_count h now timeout
    have hfirst := reclaim_becomes h now timeout
    have hafter : after q (sweeps now (timeout :: rest)) =
        after (ExecutionQueue.reclaim q now timeout).2 (sweeps now rest) := rfl
    have hanswers : answers q (sweeps now (timeout :: rest)) =
        .reclaimed (ExecutionQueue.reclaim q now timeout).1 ::
          answers (ExecutionQueue.reclaim q now timeout).2 (sweeps now rest) := rfl
    rw [hafter, hanswers, hcount]
    obtain ⟨⟨counts, hrest, hsum⟩, hbecomes⟩ := ih hfirst.sound
    rw [hfirst.kind] at hsum hbecomes
    refine ⟨⟨_ :: counts, by rw [hrest]; rfl, ?_⟩, ?_⟩
    · rw [List.sum_cons, hsum, hfirst.rows]
      exact countP_swept q.kind now timeout rest q.rows
    · exact (hfirst.trans hbecomes).congr fun r _ => r.swept_cons rest

/-! ## Ages -/

theorem perform_memory (q : MemoryQueue) (c : QueueCall) :
    perform (memory q) c = ((perform q c).1, memory (perform q c).2) := by
  obtain ⟨clock, op⟩ := c
  cases op <;> rfl

theorem perform_table (q : TableQueue) (c : QueueCall) :
    perform (table q) c = ((perform q c).1, table (perform q c).2) := by
  obtain ⟨clock, op⟩ := c
  cases op <;> rfl

theorem run_memory (q : MemoryQueue) (calls : List QueueCall) :
    after (memory q) calls = memory (after q calls) ∧
      history (memory q) calls = history q calls := by
  induction calls generalizing q with
  | nil => exact ⟨rfl, rfl⟩
  | cons c rest ih =>
    obtain ⟨hafter, hhistory⟩ := ih (perform q c).2
    constructor
    · show after (perform (memory q) c).2 rest = _
      rw [perform_memory]
      exact hafter
    · rw [history, perform_memory, hhistory]
      rfl

theorem run_table (q : TableQueue) (calls : List QueueCall) :
    after (table q) calls = table (after q calls) ∧
      history (table q) calls = history q calls := by
  induction calls generalizing q with
  | nil => exact ⟨rfl, rfl⟩
  | cons c rest ih =>
    obtain ⟨hafter, hhistory⟩ := ih (perform q c).2
    constructor
    · show after (perform (table q) c).2 rest = _
      rw [perform_table]
      exact hafter
    · rw [history, perform_table, hhistory]
      rfl

theorem after_sound (h : q.Sound) (calls : List QueueCall) : (after q calls).Sound := by
  induction calls generalizing q with
  | nil => exact h
  | cons c rest ih => exact ih (perform_steps h c).1

theorem after_kind (q : Backend) (calls : List QueueCall) : (after q calls).kind = q.kind := by
  cases q with
  | memory q => rw [(run_memory q calls).1]; rfl
  | table q => rw [(run_table q calls).1]; rfl

end Backend

def Clock.isOld : Staleness := fun since now length => since.elapsed + length ≤ now.elapsed

/-- The clock that a queue reads has come from an earlier reading.  A table needs its clock to
move like the one that only moves forward. -/
def Clock.LeadsTo (kind : BackendKind) (c now : Clock) : Prop :=
  match kind with
  | .memory => c.elapsed ≤ now.elapsed
  | .table => c.Ticks now

theorem Backend.isOld_eq {q : Backend} {since now : Clock} {timeout : Nat}
    (h : since.LeadsTo q.kind now) (hwhole : q.kind = .table → Duration.perMilli ∣ timeout) :
    q.isOld since now timeout = Clock.isOld since now timeout := by
  have hage : since.elapsed ≤ now.elapsed →
      MemoryQueue.isOld since now timeout = Clock.isOld since now timeout := by
    intro hle
    unfold MemoryQueue.isOld Clock.isOld
    refine decide_eq_decide.2 ?_
    omega
  cases q with
  | memory q => exact hage h
  | table q =>
    obtain ⟨n, -, helapsed⟩ := id h
    show TableQueue.isOld since now timeout = _
    rw [← JobGate.isOld_eq h (hwhole rfl)]
    exact hage (by omega)

namespace QueueHistory

def overdue (old : Staleness) (h : List QueueEvent) (now : Clock) (length : Nat) (id : Int) :
    Bool :=
  (account old h id).any (·.isStale Clock.isOld now length)

/-- A claim has come of some age exactly when it has come of the least of them. -/
theorem any_overdue {old : Staleness} {h : List QueueEvent} {now : Clock} {timeouts : List Nat}
    {least : Nat} (hleast : timeouts.min? = some least) (id : Int) :
    timeouts.any (overdue old h now · id) = overdue old h now least id := by
  obtain ⟨hmem, hle⟩ := List.min?_eq_some_iff.1 hleast
  rw [Bool.eq_iff_iff, List.any_eq_true]
  refine ⟨?_, fun hover => ⟨least, hmem, hover⟩⟩
  rintro ⟨timeout, htimeout, hover⟩
  have hless := hle timeout htimeout
  unfold overdue at hover ⊢
  cases ha : account old h id with
  | none =>
    rw [ha] at hover
    cases hover
  | some a =>
    rw [ha] at hover
    simp only [Option.any_some, Account.isStale] at hover ⊢
    cases hs : a.standing with
    | waiting | finished _ _ => simp [hs] at hover
    | claimed lease =>
      simp only [hs, Clock.isOld, decide_eq_true_eq] at hover ⊢
      omega

end QueueHistory

namespace Backend

open ExecutionQueue (after history answers)

variable {kind : BackendKind} {capacity : Nat} {calls : List QueueCall} {now : Clock} {r : Row}

theorem new_kind (kind : BackendKind) (capacity : Nat) : (new kind capacity).kind = kind := by
  cases kind <;> rfl

/-- A row tells of the age of its claim what the history of the queue does. -/
theorem isStale_of_mem (hr : r ∈ (after (new kind capacity) calls).rows) (now : Clock)
    (timeout : Nat) : r.isStale kind now timeout =
      QueueHistory.isStale (new kind capacity).isOld (history (new kind capacity) calls) now
        timeout r.id := by
  cases kind with
  | memory =>
    obtain ⟨hafter, hhistory⟩ := run_memory (.new capacity) calls
    have hfollows := MemoryQueue.follows_history capacity calls
    rw [new, hafter] at hr
    obtain ⟨e, he, rfl⟩ := List.mem_map.1 hr
    rw [hfollows.entries] at he
    obtain ⟨id, a, ha, hview⟩ := QueueHistory.mem_roll.1 he
    have hid : e.row.id = id := MemoryQueue.stored_id hview
    rw [new, hhistory, hid, e.isStale_row]
    show _ = QueueHistory.isStale MemoryQueue.isOld _ now timeout id
    rw [← MemoryQueue.stored_stale, ha, Option.bind_some, hview, Option.any_some]
  | table =>
    obtain ⟨hafter, hhistory⟩ := run_table (.new capacity) calls
    have hfollows := TableQueue.follows_history capacity calls
    rw [new, hafter] at hr
    change r ∈ (after (TableQueue.new capacity) calls).rows at hr
    rw [hfollows.rows] at hr
    obtain ⟨id, a, ha, hview⟩ := QueueHistory.mem_roll.1 hr
    have hid : r.id = id := TableQueue.stored_id hview
    rw [new, hhistory, hid]
    show _ = QueueHistory.isStale TableQueue.isOld _ now timeout id
    rw [← TableQueue.stored_stale, ha, Option.bind_some, hview, Option.any_some]
    rfl

theorem isStale_eq_overdue (hclocks : ∀ c ∈ calls, c.clock.LeadsTo kind now) {timeout : Nat}
    (hwhole : kind = .table → Duration.perMilli ∣ timeout)
    (hr : r ∈ (after (new kind capacity) calls).rows) :
    r.isStale kind now timeout = QueueHistory.overdue (new kind capacity).isOld
      (history (new kind capacity) calls) now timeout r.id := by
  rw [isStale_of_mem hr]
  unfold QueueHistory.isStale QueueHistory.overdue
  have hkind := new_kind kind capacity
  have hcalls := ExecutionQueue.calls_history (new kind capacity) calls
  generalize new kind capacity = start at hkind hcalls
  have hsame : ∀ x ∈ history start calls,
      QueueHistory.SameAge start.isOld Clock.isOld x.toQueueCall ⟨now, .reclaim timeout⟩ := by
    intro x hx t ht
    cases ht
    have hcall : x.toQueueCall ∈ calls := hcalls ▸ List.mem_map_of_mem hx
    exact isOld_eq (hkind ▸ hclocks _ hcall) (hkind ▸ hwhole)
  cases ha : QueueHistory.account start.isOld (history start calls) r.id with
  | none => rfl
  | some a => exact QueueHistory.stale_congr hsame rfl ha

end Backend

open ExecutionQueue (after history answers) in
/-- Sweeps of one instant take back exactly the claims that are at least as old as the least of
their timeouts, each of them once.

An entry that was taken back waits in its old place with one attempt more, as long as their
number fits into 32 bits, and everything else stays as it is.  The order of the sweeps does not
matter, and another one finds nothing. -/
theorem stale_claims_recovered_once (kind : BackendKind) (capacity : Nat) (calls : List QueueCall)
    (now : Clock) {timeouts : List Nat} {least : Nat}
    (hclocks : ∀ c ∈ calls, c.clock.LeadsTo kind now)
    (hwhole : kind = .table → ∀ timeout ∈ timeouts, Duration.perMilli ∣ timeout)
    (hleast : timeouts.min? = some least) :
    let start := Backend.new kind capacity
    let q := after start calls
    let q' := after q (sweeps now timeouts)
    let overdue := QueueHistory.overdue start.isOld (history start calls) now least
    (∃ counts : List Nat,
      answers q (sweeps now timeouts) = counts.map (fun n => .reclaimed (.ok n)) ∧
      counts.sum = q.rows.countP (overdue ·.id)) ∧
    q.Becomes (fun r => if overdue r.id then r.recovered kind else r) q' ∧
    (∀ r ∈ q.rows, overdue r.id = true → r.status = .claimed ∧
      (r.attempts + 1 < 4294967296 → (r.recovered kind).attempts = r.attempts + 1)) ∧
    (∀ timeouts' : List Nat, timeouts'.Perm timeouts → after q (sweeps now timeouts') = q') ∧
    ∀ timeout ∈ timeouts, ExecutionQueue.reclaim q' now timeout = (.ok 0, q') := by
  intro start q q' overdue
  have hsound : q.Sound := Backend.after_sound (Backend.new_sound kind capacity) calls
  have hkind : q.kind = kind :=
    (Backend.after_kind start calls).trans (Backend.new_kind kind capacity)
  have hover : ∀ r ∈ q.rows, timeouts.any (r.isStale kind now ·) = overdue r.id := by
    intro r hr
    have hstale : ∀ timeout ∈ timeouts, r.isStale kind now timeout =
        QueueHistory.overdue start.isOld (history start calls) now timeout r.id :=
      fun timeout htimeout =>
        Backend.isStale_eq_overdue hclocks (fun h => hwhole h timeout htimeout) hr
    have hany : timeouts.any (QueueHistory.overdue start.isOld (history start calls) now · r.id) =
        overdue r.id := QueueHistory.any_overdue hleast r.id
    rw [← hany, Bool.eq_iff_iff, List.any_eq_true, List.any_eq_true]
    exact exists_congr fun timeout => and_congr_right fun h => by rw [hstale timeout h]
  obtain ⟨⟨counts, hanswers, hsum⟩, hswept⟩ := Backend.after_sweeps hsound now timeouts
  rw [hkind] at hsum hswept
  have hbecomes : q.Becomes (fun r => if overdue r.id then r.recovered kind else r) q' :=
    hswept.congr fun r hr => by rw [Row.swept, hover r hr]
  refine ⟨⟨counts, hanswers, ?_⟩, hbecomes, fun r hr hdue => ?_, fun timeouts' hperm => ?_,
    fun timeout htimeout => ?_⟩
  · rw [hsum]
    exact List.countP_congr fun r hr => by rw [hover r hr]
  · rw [← hover r hr, List.any_eq_true] at hdue
    obtain ⟨timeout, -, hstale⟩ := hdue
    exact ⟨Row.claimed_of_isStale hstale, Row.attempts_recovered⟩
  · have hswept' := (Backend.after_sweeps hsound now timeouts').2
    rw [hkind] at hswept'
    refine (hswept'.congr fun r _ => ?_).unique hswept
    have hsame : timeouts'.any (r.isStale kind now ·) = timeouts.any (r.isStale kind now ·) :=
      hperm.any_eq
    rw [Row.swept, Row.swept, hsame]
  · refine Backend.reclaim_of_none_stale hswept.sound fun x hx => ?_
    rw [hswept.rows] at hx
    obtain ⟨r, -, rfl⟩ := List.mem_map.1 hx
    rw [hswept.kind, hkind]
    exact Row.isStale_swept htimeout

open ExecutionQueue (after) in
/-- Of two claims one has come of the lesser of two timeouts, to the very millisecond. -/
theorem stale_claims_recovered_once_of_two :
    let clock (n : Nat) : Clock := Clock.advance ⟨.epoch, 0⟩ (Duration.ofMillis n)
    let calls : List QueueCall :=
      [⟨clock 0, .offer ⟨⟨"run-0-0000", by decide⟩, "backup"⟩ false⟩,
        ⟨clock 0, .offer ⟨⟨"run-0-0001", by decide⟩, "deploy"⟩ false⟩,
        ⟨clock 0, .claim "worker-1"⟩, ⟨clock 5, .claim "worker-2"⟩]
    let q := after (Backend.new .table 2) calls
    let timeouts := [Duration.ofMillis 9, Duration.ofMillis 7]
    (after q (sweeps (clock 7) timeouts)).rows.map (fun r => (r.status, r.attempts)) =
        [(.pending, 1), (.claimed, 0)] ∧
      after q (sweeps (clock 7) timeouts.reverse) = after q (sweeps (clock 7) timeouts) ∧
      ExecutionQueue.reclaim (after q (sweeps (clock 7) timeouts)) (clock 7)
        (Duration.ofMillis 9) = (.ok 0, after q (sweeps (clock 7) timeouts)) := by
  intro clock calls q timeouts
  have hclocks : ∀ c ∈ calls, c.clock.LeadsTo .table (clock 7) := by
    intro c hc
    simp only [calls, List.mem_cons, List.not_mem_nil, or_false] at hc
    rcases hc with rfl | rfl | rfl | rfl
    · exact ⟨7, by decide⟩
    · exact ⟨7, by decide⟩
    · exact ⟨7, by decide⟩
    · exact ⟨2, by decide⟩
  have hwhole : BackendKind.table = .table → ∀ timeout ∈ timeouts,
      Duration.perMilli ∣ timeout := fun _ => by decide
  obtain ⟨-, -, -, horder, hagain⟩ := stale_claims_recovered_once .table 2 calls (clock 7)
    hclocks hwhole (show timeouts.min? = some (Duration.ofMillis 7) by decide)
  exact ⟨by decide, horder _ (List.reverse_perm timeouts), hagain _ List.mem_cons_self⟩

end JobGate
