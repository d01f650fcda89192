/-
The sweep that times out runs.

A run is overdue when it is not over and its age has come to a limit.  The sweep works out
the instant that lies the limit before now and compares, or gives up where there is none;
`RunRecord.Overdue` adds the limit to the creation of the run instead, as numbers, and no
limit is too large for that.  The two agree, so `times_out_overdue` tells all that a sweep
does: every overdue run times out, in the order of identifiers, each with one event and one
notice, nothing else changes, and the next sweep finds nothing to do.
-/
import JobGate.Proofs.Orchestrator.Effects
import JobGate.Proofs.Time.Passed
import Mathlib.Data.String.Basic

namespace JobGate

namespace RunRecord

/-- Whether a run is not over and was created at least some length of time ago. -/
def Overdue (maxAge : Nat) (now : Instant) (r : RunRecord) : Prop :=
  r.status.isTerminal = false ∧ r.run.createdAt.Passed maxAge now

def expiry (r : RunRecord) (time : Instant) : Event :=
  r.nextEvent .timedOut Orchestrator.actor
    (Payload.ofTexts [("previousStatus", r.status.name), ("reason", Orchestrator.staleReason)])
    time

def expired (r : RunRecord) (time : Instant) : RunRecord :=
  { run := { r.run with status := .timedOut }, events := r.events ++ [r.expiry time] }

def expiryOutcome (r : RunRecord) (time : Instant) : ExecutionOutcome :=
  .changed r.run.id.text .timedOut
    [Notice.ofEvent (r.expired time).run (r.expiry time) "timed_out"
      ("Run " ++ r.run.id.text ++ " (`" ++ r.run.jobKey ++ "`) " ++ "timed out" ++ ": " ++
        Orchestrator.staleReason)]

theorem terminateRecord_timeout {r : RunRecord} (h : r.status.isTerminal = false)
    (time : Instant) :
    Orchestrator.terminateRecord r .timeout Orchestrator.staleReason time =
      (.ok (r.expiryOutcome time), r.expired time) := by
  have happly : r.status.apply Orchestrator.Termination.timeout.kind = some .timedOut :=
    (Status.apply_ending h).1
  unfold Orchestrator.terminateRecord Orchestrator.appendChecked RunRecord.append
  simp only [h, Bool.false_eq_true, if_false, happly, Except.mapError]
  rfl

theorem isStale_iff {now cutoff : Instant} {maxAge : Nat} (hcutoff : now.sub? maxAge = some cutoff)
    {r : RunRecord} : Orchestrator.isStale cutoff r = true ↔ r.Overdue maxAge now := by
  unfold Orchestrator.isStale Overdue
  rw [Instant.passed_iff]
  simp [hcutoff]

end RunRecord

/-! ## Runs in the order of their identifiers -/

namespace RunStore

variable {s : RunStore} {r : RunRecord} {run : String}

theorem mem_ids {id : RunId} : id ∈ s.ids ↔ ∃ r ∈ s.records, r.run.id = id := by
  unfold ids
  rw [List.mem_mergeSort, List.mem_map]

theorem ids_nodup (s : RunStore) : s.ids.Nodup :=
  (List.mergeSort_perm _ _).nodup_iff.2 s.distinct

theorem ids_ascending (s : RunStore) : s.ids.Pairwise fun a b => a.text < b.text := by
  have hsorted : s.ids.Pairwise fun a b => decide (a.text ≤ b.text) = true :=
    List.pairwise_mergeSort
      (fun a b c hab hbc => by
        simp only [decide_eq_true_eq] at hab hbc ⊢
        exact le_trans hab hbc)
      (fun a b => by
        simp only [Bool.or_eq_true, decide_eq_true_eq]
        exact le_total a.text b.text) _
  refine (hsorted.and s.ids_nodup).imp fun {a b} h => ?_
  refine lt_of_le_of_ne (of_decide_eq_true h.1) fun heq => h.2 (RunId.text_inj.1 heq)

def among (s : RunStore) (p : RunRecord → Bool) (ids : List RunId) : List RunRecord :=
  ids.filterMap fun id => (s.find? id.text).filter p

theorem mem_among {p : RunRecord → Bool} {ids : List RunId} :
    r ∈ s.among p ids ↔ r.run.id ∈ ids ∧ r ∈ s.records ∧ p r = true := by
  simp only [among, List.mem_filterMap, Option.filter_eq_some_iff]
  constructor
  · rintro ⟨id, hid, hfind, hp⟩
    have hsame : r.run.id = id := RunId.text_inj.1 (text_of_find? hfind)
    exact ⟨hsame ▸ hid, mem_of_find? hfind, hp⟩
  · rintro ⟨hid, hr, hp⟩
    exact ⟨r.run.id, hid, find?_of_mem hr, hp⟩

theorem among_ids (s : RunStore) (p : RunRecord → Bool) (ids : List RunId) :
    ((s.among p ids).map (·.run.id)).Sublist ids := by
  induction ids with
  | nil => exact List.Sublist.slnil
  | cons id rest ih =>
    unfold among
    rw [List.filterMap_cons]
    cases hfind : (s.find? id.text).filter p with
    | none => exact ih.cons id
    | some r =>
      have hid : r.run.id = id :=
        RunId.text_inj.1 (text_of_find? (Option.filter_eq_some_iff.1 hfind).1)
      rw [List.map_cons, hid]
      exact ih.cons_cons id

/-- Whether the record of another run is replaced does not matter. -/
theorem among_put {p : RunRecord → Bool} {ids : List RunId} (hid : r.run.id ∉ ids) :
    (s.put r).among p ids = s.among p ids := by
  refine List.filterMap_congr fun id hmem => ?_
  have hne : r.run.id.text ≠ id.text := fun h => hid (RunId.text_inj.1 h ▸ hmem)
  rw [find?_put, if_neg hne]

/-- The store in which some runs have timed out for their age, each at a reading of the
clock of its own. -/
def expire (clock : Readings) (due : List (RunRecord × Nat)) (s : RunStore) : RunStore :=
  due.foldl (fun s x => s.put (x.1.expired (clock x.2))) s

section
variable {clock : Readings} {due : List (RunRecord × Nat)}

theorem expire_ids : (s.expire clock due).records.map (·.run.id) = s.records.map (·.run.id) := by
  induction due generalizing s with
  | nil => rfl
  | cons x rest ih =>
    have hput : (s.put (x.1.expired (clock x.2))).records.map (·.run.id) =
        s.records.map (·.run.id) := map_id_replace _ _
    exact ih.trans hput

theorem find?_expire_other (hnot : ∀ x ∈ due, x.1.run.id.text ≠ run) :
    (s.expire clock due).find? run = s.find? run := by
  induction due generalizing s with
  | nil => rfl
  | cons x rest ih =>
    have hne : (x.1.expired (clock x.2)).run.id.text ≠ run := hnot x List.mem_cons_self
    have hrest := ih (s := s.put (x.1.expired (clock x.2)))
      fun y hy => hnot y (List.mem_cons_of_mem x hy)
    rw [find?_put, if_neg hne] at hrest
    exact hrest

theorem find?_expire (hdistinct : (due.map (·.1.run.id)).Nodup)
    (hfound : ∀ x ∈ due, s.find? x.1.run.id.text = some x.1) {x : RunRecord × Nat}
    (hx : x ∈ due) :
    (s.expire clock due).find? x.1.run.id.text = some (x.1.expired (clock x.2)) := by
  induction due generalizing s with
  | nil => cases hx
  | cons y rest ih =>
    obtain ⟨hfirst, hrest⟩ := List.nodup_cons.1 hdistinct
    have hne : ∀ z ∈ rest, y.1.run.id.text ≠ z.1.run.id.text := fun z hz heq =>
      hfirst (List.mem_map.2 ⟨z, hz, (RunId.text_inj.1 heq).symm⟩)
    let s' := s.put (y.1.expired (clock y.2))
    rcases List.mem_cons.1 hx with rfl | hx
    · have hput : s'.find? x.1.run.id.text = some (x.1.expired (clock x.2)) :=
        find?_put_of_id (hfound x List.mem_cons_self) rfl
      have hsame : (s'.expire clock rest).find? x.1.run.id.text = s'.find? x.1.run.id.text :=
        find?_expire_other fun z hz => Ne.symm (hne z hz)
      exact hsame.trans hput
    · refine ih (s := s') hrest (fun z hz => ?_) hx
      have hother : (y.1.expired (clock y.2)).run.id.text ≠ z.1.run.id.text := hne z hz
      rw [find?_put, if_neg hother]
      exact hfound z (List.mem_cons_of_mem y hz)

end
end RunStore

/-! ## The sweep -/

namespace Orchestrator

theorem timeOutEach_eq {cutoff : Instant} (clock : Readings) {ids : List RunId}
    (hids : ids.Nodup) (o : Orchestrator) (done : List ExecutionOutcome) :
    o.timeOutEach cutoff clock ids done =
      (.ok (done.reverse ++ ((o.store.among (isStale cutoff) ids).zipIdx done.length).map
          fun x => x.1.expiryOutcome (clock x.2)),
        { o with store :=
            o.store.expire clock ((o.store.among (isStale cutoff) ids).zipIdx done.length) }) := by
  induction ids generalizing o done with
  | nil => rw [timeOutEach]; simp [RunStore.among, RunStore.expire]
  | cons id rest ih =>
    obtain ⟨hid, hrest⟩ := List.nodup_cons.1 hids
    unfold timeOutEach RunStore.among
    rw [List.filterMap_cons]
    cases hfind : o.store.find? id.text with
    | none => exact ih hrest o done
    | some r =>
      cases hstale : isStale cutoff r with
      | false =>
        simp only [Option.filter_some, hstale, Bool.false_eq_true, if_false]
        exact ih hrest o done
      | true =>
        have hgoing : r.status.isTerminal = false := by
          simp only [isStale, Bool.and_eq_true, Bool.not_eq_true'] at hstale
          exact hstale.1
        have hnot : (r.expired (clock done.length)).run.id ∉ rest := by
          have hsame : r.run.id = id := RunId.text_inj.1 (RunStore.text_of_find? hfind)
          exact hsame ▸ hid
        simp only [Option.filter_some, hstale, if_true, RunRecord.terminateRecord_timeout hgoing]
        rw [ih hrest, List.length_cons, List.reverse_cons, List.append_assoc]
        simp only [put, RunStore.among_put hnot]
        rfl

/-- What a sweep does: it times out the runs that are due, each once and at a reading of the
clock of its own, and touches nothing else. -/
structure TimesOut (o : Orchestrator) (clock : Readings) (due : List RunRecord)
    (outcomes : List ExecutionOutcome) (o' : Orchestrator) : Prop where
  outcomes : outcomes = due.zipIdx.map fun x => x.1.expiryOutcome (clock x.2)
  hit : ∀ x ∈ due.zipIdx, o.store.find? x.1.run.id.text = some x.1 ∧
    o'.store.find? x.1.run.id.text = some (x.1.expired (clock x.2))
  spared : ∀ run, (∀ r ∈ due, r.run.id.text ≠ run) → o'.store.find? run = o.store.find? run
  ids : o'.store.records.map (·.run.id) = o.store.records.map (·.run.id)
  policy : o'.policy = o.policy
  receipts : o'.receipts = o.receipts

theorem TimesOut.of_expire (o : Orchestrator) (clock : Readings) {due : List RunRecord}
    (hdue : ∀ r ∈ due, r ∈ o.store.records) (hdistinct : (due.map (·.run.id)).Nodup) :
    o.TimesOut clock due (due.zipIdx.map fun x => x.1.expiryOutcome (clock x.2))
      { o with store := o.store.expire clock due.zipIdx } := by
  have hmem : ∀ x ∈ due.zipIdx, x.1 ∈ due := fun x hx => List.fst_mem_of_mem_zipIdx hx
  have hfound : ∀ x ∈ due.zipIdx, o.store.find? x.1.run.id.text = some x.1 :=
    fun x hx => RunStore.find?_of_mem (hdue x.1 (hmem x hx))
  have hnumbered : (due.zipIdx.map (·.1.run.id)).Nodup := by
    have hfst : due.zipIdx.map (·.1.run.id) = (due.zipIdx.map Prod.fst).map (·.run.id) := by
      rw [List.map_map]
      rfl
    rw [hfst, List.zipIdx_map_fst]
    exact hdistinct
  constructor
  · rfl
  · exact fun x hx => ⟨hfound x hx, RunStore.find?_expire hnumbered hfound hx⟩
  · exact fun run hnot => RunStore.find?_expire_other fun x hx => hnot x.1 (hmem x hx)
  · exact RunStore.expire_ids
  · rfl
  · rfl

/-- A sweep goes through the overdue runs in the order of their identifiers.  Where no instant
lies far enough back there is no overdue run. -/
theorem timeOutStale_eq (o : Orchestrator) (clock : Readings) (maxAge : Nat) (now : Instant) :
    ∃ due : List RunRecord,
      o.timeOutStale clock maxAge now =
        (.ok (due.zipIdx.map fun x => x.1.expiryOutcome (clock x.2)),
          { o with store := o.store.expire clock due.zipIdx }) ∧
      (∀ r, r ∈ due ↔ r ∈ o.store.records ∧ r.Overdue maxAge now) ∧
      (due.map (·.run.id)).Sublist o.store.ids := by
  unfold timeOutStale
  cases hcutoff : now.sub? maxAge with
  | none =>
    refine ⟨[], rfl, fun r => ⟨fun h => (List.not_mem_nil h).elim, ?_⟩, List.nil_sublist _⟩
    rintro ⟨-, -, hpassed⟩
    obtain ⟨cutoff, hsome, -⟩ := Instant.passed_iff.1 hpassed
    rw [hcutoff] at hsome
    cases hsome
  | some cutoff =>
    refine ⟨o.store.among (isStale cutoff) o.store.ids, ?_, fun r => ?_, RunStore.among_ids ..⟩
    · exact timeOutEach_eq clock o.store.ids_nodup o []
    · rw [RunStore.mem_among, RunRecord.isStale_iff hcutoff]
      exact ⟨fun ⟨_, hr, hdue⟩ => ⟨hr, hdue⟩,
        fun ⟨hr, hdue⟩ => ⟨RunStore.mem_ids.2 ⟨r, hr, rfl⟩, hr, hdue⟩⟩

theorem timeOutStale_of_none_overdue {o : Orchestrator} {maxAge : Nat} {now : Instant}
    (h : ∀ r ∈ o.store.records, ¬ r.Overdue maxAge now) (clock : Readings) :
    o.timeOutStale clock maxAge now = (.ok [], o) := by
  obtain ⟨due, heq, hdue, -⟩ := o.timeOutStale_eq clock maxAge now
  have hnone : due = [] :=
    List.eq_nil_iff_forall_not_mem.2 fun r hr => h r ((hdue r).1 hr).1 ((hdue r).1 hr).2
  rw [heq, hnone]
  rfl

/-- After a sweep no run is overdue, and none was overdue earlier. -/
theorem TimesOut.none_overdue {o o' : Orchestrator} {clock : Readings} {due : List RunRecord}
    {outcomes : List ExecutionOutcome} {maxAge : Nat} {now now' : Instant}
    (h : o.TimesOut clock due outcomes o')
    (hdue : ∀ r, r ∈ due ↔ r ∈ o.store.records ∧ r.Overdue maxAge now)
    (hafter : now'.isAfter now = false) (hnanos : now'.unixNanos ≤ now.unixNanos) :
    ∀ r ∈ o'.store.records, ¬ r.Overdue maxAge now' := by
  rintro r hr ⟨hgoing, hpassed⟩
  have hfound : o'.store.find? r.run.id.text = some r := RunStore.find?_of_mem hr
  by_cases hhit : ∃ d ∈ due, d.run.id.text = r.run.id.text
  · obtain ⟨d, hd, hid⟩ := hhit
    obtain ⟨x, hx, rfl⟩ : ∃ x ∈ due.zipIdx, x.1 = d := by
      rw [← List.mem_map, List.zipIdx_map_fst]
      exact hd
    obtain ⟨-, hexpired⟩ := h.hit x hx
    rw [hid, hfound] at hexpired
    cases hexpired
    cases hgoing
  · have hsame : o'.store.find? r.run.id.text = o.store.find? r.run.id.text :=
      h.spared _ fun d hd hid => hhit ⟨d, hd, hid⟩
    have hbefore : r ∈ o.store.records := RunStore.mem_of_find? (hsame ▸ hfound)
    exact hhit ⟨r, (hdue r).2 ⟨hbefore, hgoing, hpassed.mono hafter hnanos⟩, rfl⟩

/-- A sweep times out exactly the overdue runs, in the order of their identifiers, and another
one at the same time or earlier does nothing.

Outside of leap seconds a run is overdue when its creation plus the limit is not after now, as
numbers of nanoseconds, however large the limit.  Within a leap second the numbers of
nanoseconds are ahead of the order of instants, so an earlier sweep at such an instant has to
be earlier in both. -/
theorem times_out_overdue (o : Orchestrator) (clock : Readings) (maxAge : Nat) (now : Instant) :
    ∃ due outcomes o',
      o.timeOutStale clock maxAge now = (.ok outcomes, o') ∧
      (∀ r, r ∈ due ↔ r ∈ o.store.records ∧ r.Overdue maxAge now) ∧
      (∀ r ∈ o.store.records, r.run.createdAt.nanos < Duration.perSecond →
        now.nanos < Duration.perSecond →
        (r ∈ due ↔ r.status.isTerminal = false ∧
          r.run.createdAt.unixNanos + maxAge ≤ now.unixNanos)) ∧
      (due.map (·.run.id.text)).Pairwise (· < ·) ∧
      o.TimesOut clock due outcomes o' ∧
      ∀ (clock' : Readings) (now' : Instant), now'.isAfter now = false →
        (now'.nanos < Duration.perSecond ∨ now'.unixNanos ≤ now.unixNanos) →
        o'.timeOutStale clock' maxAge now' = (.ok [], o') := by
  obtain ⟨due, heq, hdue, hids⟩ := o.timeOutStale_eq clock maxAge now
  have hascending : (due.map (·.run.id)).Pairwise fun a b => a.text < b.text :=
    o.store.ids_ascending.sublist hids
  have htimes := TimesOut.of_expire o clock (fun r hr => ((hdue r).1 hr).1)
    (hids.nodup o.store.ids_nodup)
  refine ⟨due, _, _, heq, hdue, fun r hr ht hnow => ?_, ?_, htimes, ?_⟩
  · rw [hdue, ← Instant.passed_iff_of_ordinary ht hnow]
    exact ⟨fun h => h.2, fun h => ⟨hr, h⟩⟩
  · have htexts : due.map (·.run.id.text) = (due.map (·.run.id)).map (·.text) := by
      rw [List.map_map]
      rfl
    rw [htexts, List.pairwise_map]
    exact hascending
  · intro clock' now' hafter hordinary
    have hnanos : now'.unixNanos ≤ now.unixNanos :=
      hordinary.elim (Instant.unixNanos_le_of_ordinary hafter) id
    exact timeOutStale_of_none_overdue (htimes.none_overdue hdue hafter hnanos) clock'

end Orchestrator
end JobGate
