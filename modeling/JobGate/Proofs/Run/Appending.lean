/-
Records under any proposals.

Whoever wants an event in the log of a run proposes it, with whatever time his clock shows.
An event that is legal is appended, and another one changes nothing (`RunRecord.propose_eq`).
Three things are kept in step with the log: the status, the numbers of the events, and their
times, each of which is the latest that has been given so far (`RunRecord.Kept`).
-/
import JobGate.Proofs.Run.Numbering
import JobGate.Proofs.Run.Regular
import JobGate.Proofs.Time.Passed

namespace JobGate

/-! ## The latest of several instants -/

namespace Instant

/-- Whether an instant is among some others, and none of them lies after it. -/
structure IsLatest (t : Instant) (among : List Instant) : Prop where
  mem : t ∈ among
  last : ∀ u ∈ among, u.isAfter t = false

variable {t u v : Instant} {among : List Instant}

theorem isAfter_self (t : Instant) : t.isAfter t = false :=
  isAfter_eq_false_iff.2 (.inr ⟨rfl, Nat.le_refl _⟩)

theorem isAfter_asymm (h : t.isAfter u = true) : u.isAfter t = false := by
  rw [← Bool.not_eq_false, isAfter_eq_false_iff] at h
  rw [isAfter_eq_false_iff]
  omega

theorem not_isAfter_trans (h : v.isAfter t = false) (h' : t.isAfter u = false) :
    v.isAfter u = false := by
  rw [isAfter_eq_false_iff] at *
  omega

theorem IsLatest.concat (h : t.IsLatest among) (u : Instant) :
    (t.latest u).IsLatest (among ++ [u]) := by
  unfold latest
  split_ifs with hafter
  · refine ⟨List.mem_append_left _ h.mem, fun v hv => ?_⟩
    rcases List.mem_append.1 hv with hv | hv
    · exact h.last v hv
    · rw [List.mem_singleton.1 hv]
      exact isAfter_asymm hafter
  · refine ⟨List.mem_append_right _ (List.mem_singleton_self u), fun v hv => ?_⟩
    rcases List.mem_append.1 hv with hv | hv
    · exact not_isAfter_trans (h.last v hv) (Bool.eq_false_iff.2 hafter)
    · rw [List.mem_singleton.1 hv]
      exact isAfter_self u

theorem isLatest_foldl (t : Instant) (others : List Instant) :
    (others.foldl latest t).IsLatest (t :: others) := by
  induction others using List.reverseRecOn with
  | nil =>
    refine ⟨List.mem_singleton_self t, fun u hu => ?_⟩
    rw [List.mem_singleton.1 hu]
    exact isAfter_self t
  | append_singleton others u ih =>
    rw [List.foldl_append]
    exact ih.concat u

end Instant

/-! ## Proposals -/

structure Proposal where
  kind : EventKind
  actor : String
  payload : Payload
  time : Instant

namespace RunRecord

def propose (r : RunRecord) (p : Proposal) : Except Rejection Event × RunRecord :=
  match r.append p.kind p.actor p.payload p.time with
  | .ok (e, r') => (.ok e, r')
  | .error rejection => (.error rejection, r)

def after (r : RunRecord) (proposals : List Proposal) : RunRecord :=
  proposals.foldl (fun r p => (r.propose p).2) r

def accepted (r : RunRecord) : List Proposal → List Proposal
  | [] => []
  | p :: rest =>
    match r.propose p with
    | (.ok _, r') => p :: r'.accepted rest
    | (.error _, r') => r'.accepted rest

variable {r r' : RunRecord}

theorem nextEvent_payload (r : RunRecord) (kind : EventKind) (actor : String)
    (payload : Payload) (time : Instant) :
    (r.nextEvent kind actor payload time).payload = payload := by
  unfold nextEvent
  cases r.events.getLast? <;> rfl

theorem after_concat (r : RunRecord) (proposals : List Proposal) (p : Proposal) :
    r.after (proposals ++ [p]) = ((r.after proposals).propose p).2 := by
  unfold after
  rw [List.foldl_append]
  rfl

theorem accepted_concat (r : RunRecord) (proposals : List Proposal) (p : Proposal) :
    r.accepted (proposals ++ [p]) =
      r.accepted proposals ++ (r.after proposals).accepted [p] := by
  induction proposals generalizing r with
  | nil => rfl
  | cons first rest ih =>
    have hafter : r.after (first :: rest) = (r.propose first).2.after rest := rfl
    rw [hafter, List.cons_append, accepted, accepted]
    rcases r.propose first with ⟨_ | e, r'⟩
    · exact ih r'
    · exact congrArg (first :: ·) (ih r')

/-- What a proposal does, told by the transition alone. -/
theorem propose_eq (r : RunRecord) (p : Proposal) : r.propose p =
    match r.status.apply p.kind with
    | some next =>
      (.ok (r.nextEvent p.kind p.actor p.payload p.time),
        { run := { r.run with status := next }
          events := r.events ++ [r.nextEvent p.kind p.actor p.payload p.time] })
    | none => (.error ⟨r.status, p.kind⟩, r) := by
  unfold propose append
  cases r.status.apply p.kind <;> rfl

/-- The status of a record, the numbers of its events and their times are those that the
accepted proposals lead to. -/
structure Kept (created : Instant) (accepted : List Proposal) (r : RunRecord) : Prop where
  faithful : r.Faithful
  numbered : r.Numbered
  times : r.events.map (·.time) = (accepted.map (·.time)).scanl Instant.latest created

namespace Kept

variable {created : Instant} {accepted : List Proposal}

theorem create (new : NewRun) (created : Instant) : Kept created [] (RunRecord.create new created)
    where
  faithful := create_faithful new created
  numbered := Numbered.create new created
  times := rfl

theorem length (h : Kept created accepted r) : r.events.length = accepted.length + 1 := by
  have hlength := congrArg List.length h.times
  rwa [List.length_map, List.length_scanl, List.length_map] at hlength

theorem append {p : Proposal} {e : Event} (h : Kept created accepted r)
    (happend : r.append p.kind p.actor p.payload p.time = .ok (e, r')) :
    Kept created (accepted ++ [p]) r' where
  faithful := h.faithful.append happend
  numbered := h.numbered.append happend
  times := by
    -- the last event has the latest of all times so far, which is what the new one is clamped to
    obtain ⟨events, last, hevents⟩ := (List.eq_nil_or_concat r.events).resolve_left fun hnil => by
      have hlength := h.length
      rw [hnil] at hlength
      cases hlength
    have hlast : last.time = (accepted.map (·.time)).foldl Instant.latest created := by
      have htimes := congrArg List.getLast? h.times
      rw [hevents, List.concat_eq_append, List.map_append, List.map_singleton,
        List.getLast?_concat, List.getLast?_scanl] at htimes
      exact Option.some.inj htimes
    have htime : e.time = last.time.latest p.time := by
      obtain ⟨-, -, rfl, -⟩ := append_eq_ok_iff.1 happend
      unfold nextEvent
      rw [hevents, List.concat_eq_append, List.getLast?_concat]
    rw [(append_events happend).1, List.map_append, h.times, List.map_singleton, htime, hlast,
      List.map_append, List.map_singleton, List.scanl_append]
    rfl

/-- One proposal more. -/
theorem propose (h : Kept created accepted r) (p : Proposal) :
    Kept created (accepted ++ r.accepted [p]) (r.propose p).2 := by
  unfold RunRecord.accepted RunRecord.propose
  cases happend : r.append p.kind p.actor p.payload p.time with
  | error rejection =>
    show Kept created (accepted ++ []) r
    rwa [List.append_nil]
  | ok x => exact h.append happend

theorem after (new : NewRun) (created : Instant) (proposals : List Proposal) :
    Kept created ((RunRecord.create new created).accepted proposals)
      ((RunRecord.create new created).after proposals) := by
  induction proposals using List.reverseRecOn with
  | nil => exact create new created
  | append_singleton proposals p ih =>
    rw [after_concat, accepted_concat]
    exact ih.propose p

theorem isLatest (h : Kept created accepted r) {i : Nat} {e : Event}
    (he : r.events[i]? = some e) :
    e.time.IsLatest (created :: (accepted.take i).map (·.time)) := by
  have htime : (r.events.map (·.time))[i]? = some e.time := by
    rw [List.getElem?_map, he]
    rfl
  rw [h.times, List.getElem?_scanl] at htime
  split_ifs at htime
  rw [← Option.some.inj htime, List.map_take]
  exact Instant.isLatest_foldl ..

/-- Times never decrease along the log: an event has the latest of more times than the events
before it. -/
theorem ascending (h : Kept created accepted r) :
    r.events.Pairwise fun a b => a.time.isAfter b.time = false := by
  rw [List.pairwise_iff_getElem]
  intro i j hi hj hij
  have hearlier := h.isLatest (List.getElem?_eq_getElem hi)
  have hlater := h.isLatest (List.getElem?_eq_getElem hj)
  have hsub : (accepted.take i).map (·.time) ⊆ (accepted.take j).map (·.time) :=
    List.map_subset _ (List.take_subset_take_left accepted (Nat.le_of_lt hij))
  exact hlater.last _ (List.cons_subset_cons created hsub hearlier.mem)

end Kept

/-- Whatever has been proposed for the log of a new run, in whatever order and with clocks that
may go back: the log leads to the status beside it, its events are numbered from one on, one
for the creation and one for each proposal accepted, and each event has the latest of all times
given until then, so that no event is earlier than one before it.  One proposal more appends
one event and moves the status, or is answered with what forbids it and changes nothing. -/
theorem log_in_step (new : NewRun) (created : Instant) (proposals : List Proposal) :
    let r := (create new created).after proposals
    let accepted := (create new created).accepted proposals
    r.verify = .ok () ∧
    r.events.map (·.seq) = List.range' 1 (accepted.length + 1) ∧
    (∀ (i : Nat) (e : Event), r.events[i]? = some e →
      e.time.IsLatest (created :: (accepted.take i).map (·.time))) ∧
    r.events.Pairwise (fun a b => a.time.isAfter b.time = false) ∧
    ∀ p, match r.status.apply p.kind with
      | some next => ∃ e, r.propose p =
            (.ok e, { run := { r.run with status := next }, events := r.events ++ [e] }) ∧
          e.run = r.run.id ∧ e.kind = p.kind ∧ e.actor = p.actor ∧ e.payload = p.payload
      | none => r.propose p = (.error ⟨r.status, p.kind⟩, r) := by
  intro r accepted
  have hkept : Kept created accepted r := Kept.after new created proposals
  refine ⟨hkept.faithful.verify, ?_, fun i e => hkept.isLatest, hkept.ascending, fun p => ?_⟩
  · rw [← hkept.length]
    exact hkept.numbered
  · rw [propose_eq]
    cases r.status.apply p.kind with
    | none => rfl
    | some next =>
      exact ⟨_, rfl, nextEvent_run .., nextEvent_kind .., nextEvent_actor ..,
        nextEvent_payload ..⟩

/-- A run whose start is proposed too early, and then the request for a decision, by a clock
that stands before the creation of the run. -/
theorem log_in_step_clock_back :
    let new : NewRun := ⟨⟨"run-0-0000", by decide⟩, "backup", "alice", "chat", "ops"⟩
    let created : Instant := ⟨60, 0, by decide, by decide, by decide⟩
    let r := (create new created).after
      [⟨.started, "w1", [], .epoch⟩, ⟨.approvalRequested, "desk", [], .epoch⟩]
    r.verify = .ok () ∧ r.status = .awaitingApproval ∧ r.events.length = 2 ∧
      ∃ e, r.events[1]? = some e ∧ e.time.IsLatest [created, .epoch] ∧ e.time = created := by
  intro new created r
  obtain ⟨hverify, -, htimes, -⟩ := log_in_step new created
    [⟨.started, "w1", [], .epoch⟩, ⟨.approvalRequested, "desk", [], .epoch⟩]
  exact ⟨hverify, rfl, rfl, _, rfl, htimes 1 _ rfl, rfl⟩

end RunRecord
end JobGate
