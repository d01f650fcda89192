/-
What is answered is what was done.

A call that is declined leaves the records alone, and one that is granted appends the
events that belong to it, no more and no fewer.  Which of the two it was, the caller reads
off the answer: from a condition, the list of commands or an error when it was a message
(`Declines`), and from `applied` when it was a report.
-/
import JobGate.Proofs.Orchestrator.Answers
import JobGate.Proofs.Orchestrator.History

namespace JobGate

def Event.entry (e : Event) : EventKind × String := (e.kind, e.actor)

namespace RunStore

/-- The log of a run has gone on with some entries, and the run is otherwise the same. -/
def Gains (s : RunStore) (run : String) (entries : List (EventKind × String))
    (s' : RunStore) : Prop :=
  ∃ r r' new, s.find? run = some r ∧ s'.find? run = some r' ∧
    r'.run = { r.run with status := r'.run.status } ∧ r'.events = r.events ++ new ∧
    new.map Event.entry = entries

/-- The log of one run has gone on with some entries, and no other run has changed. -/
def Extends (s : RunStore) (run : String) (entries : List (EventKind × String))
    (s' : RunStore) : Prop :=
  s.Gains run entries s' ∧ ∀ other, other ≠ run → s'.find? other = s.find? other

variable {s s' : RunStore} {run : String} {r r' r'' : RunRecord}

theorem extends_put {new : List Event} (hfind : s.find? run = some r)
    (hrun : r'.run = { r.run with status := r'.run.status })
    (hevents : r'.events = r.events ++ new) :
    s.Extends run (new.map Event.entry) (s.put r') := by
  have hid : r'.run.id = r.run.id := by rw [hrun]
  refine ⟨⟨r, r', new, hfind, find?_put_of_id hfind hid, hrun, hevents, rfl⟩, fun other hne => ?_⟩
  rw [find?_put, hid, text_of_find? hfind, if_neg (Ne.symm hne)]

theorem extends_of_append {kind : EventKind} {actor : String} {payload : Payload} {time : Instant}
    {e : Event} (hfind : s.find? run = some r)
    (happend : r.append kind actor payload time = .ok (e, r')) :
    s.Extends run [(kind, actor)] (s.put r') := by
  obtain ⟨hevents, hkind, hactor⟩ := RunRecord.append_events happend
  have hextends := extends_put hfind (RunRecord.append_run happend) hevents
  rwa [List.map_singleton, Event.entry, hkind, hactor] at hextends

theorem extends_of_appends {kind kind' : EventKind} {actor actor' : String}
    {payload payload' : Payload} {time time' : Instant} {e e' : Event}
    (hfind : s.find? run = some r)
    (happend : r.append kind actor payload time = .ok (e, r'))
    (happend' : r'.append kind' actor' payload' time' = .ok (e', r'')) :
    s.Extends run [(kind, actor), (kind', actor')] (s.put r'') := by
  obtain ⟨hevents, hkind, hactor⟩ := RunRecord.append_events happend
  obtain ⟨hevents', hkind', hactor'⟩ := RunRecord.append_events happend'
  have hrun : r''.run = { r.run with status := r''.run.status } := by
    rw [RunRecord.append_run happend', RunRecord.append_run happend]
  have hlog : r''.events = r.events ++ [e, e'] := by
    rw [hevents', hevents, List.append_assoc]
    rfl
  have hextends := extends_put hfind hrun hlog
  rwa [List.map_cons, List.map_singleton, Event.entry, Event.entry, hkind, hactor, hkind',
    hactor'] at hextends

theorem Gains.trans {s'' : RunStore} {first second : List (EventKind × String)}
    (h : s.Gains run first s') (h' : s'.Gains run second s'') :
    s.Gains run (first ++ second) s'' := by
  obtain ⟨r, x, new, hr, hx, hrun, hevents, rfl⟩ := h
  obtain ⟨x', r'', new', hx', hr'', hrun', hevents', rfl⟩ := h'
  cases hx.symm.trans hx'
  refine ⟨r, r'', new ++ new', hr, hr'', by rw [hrun', hrun], ?_, List.map_append⟩
  rw [hevents', hevents, List.append_assoc]

theorem Extends.trans {s'' : RunStore} {first second : List (EventKind × String)}
    (h : s.Extends run first s') (h' : s'.Extends run second s'') :
    s.Extends run (first ++ second) s'' :=
  ⟨h.1.trans h'.1, fun other hne => (h'.2 other hne).trans (h.2 other hne)⟩

/-- A run that is over gains nothing. -/
theorem Gains.not_over {entries : List (EventKind × String)} (h : s.Gains run entries s')
    (hne : entries ≠ []) (hgrows : s.Grows s') (hfind : s.find? run = some r) :
    r.status.isTerminal = false := by
  obtain ⟨x, x', new, hx, hx', -, hevents, hnew⟩ := h
  cases hfind.symm.trans hx
  cases hover : r.status.isTerminal with
  | false => rfl
  | true =>
    obtain ⟨x'', hx'', hlater⟩ := hgrows hfind
    cases hx'.symm.trans hx''
    rw [hlater.eq_of_isTerminal hover] at hevents
    have hlength := congrArg List.length hevents
    rw [List.length_append] at hlength
    have hnil : new = [] := List.eq_nil_of_length_eq_zero (by omega)
    rw [hnil] at hnew
    exact absurd hnew.symm hne

end RunStore

namespace Orchestrator

/-! ## Messages -/

/-- Whether an answer tells a sender that nothing was done: by an error, by a condition, by
the list of commands, or because the message only asked. -/
def Declines (d : Received) (i : Intent) : Except OrchestratorError InboundOutcome → Prop
  | .error _ => True
  | .ok outcome =>
    outcome.condition.isSome = true ∨ outcome.notices = [d.guidance] ∨ i.kind = .status

/-- What follows from a message that has something done. -/
inductive Grants (s : RunStore) (m : Inbound) (i : Intent) (outcome : InboundOutcome)
    (s' : RunStore) : Prop
  | requested {jobKey : String} {r : RunRecord} (hkind : i.kind = .runJob)
      (hkey : i.jobKey = some jobKey) (hrun : outcome.run = some r.run.id.text)
      (hadds : s.Adds r s') (hjob : r.run.jobKey = jobKey)
      (hlog : r.events.map Event.entry =
        [(.created, m.sender), (.approvalRequested, Orchestrator.actor)])
  | approved {run : String} (hkind : i.kind = .approveRun) (hrun : i.run = some run)
      (hlog : s.Extends run [(.approved, m.sender), (.dispatched, Orchestrator.actor)] s')
  | denied {run : String} (hkind : i.kind = .denyRun) (hrun : i.run = some run)
      (hlog : s.Extends run [(.denied, m.sender)] s')

section

variable {o o' : Orchestrator} {d : Received} {i : Intent}
  {result : Except OrchestratorError InboundOutcome}

/-- A notice about an event is not the list of commands. -/
theorem not_declines {outcome : InboundOutcome} {n : Notice} {k : EventKind}
    (hkind : i.kind ≠ .status) (hcondition : outcome.condition = none)
    (hnotices : outcome.notices = [n]) (hn : n.kind? = some k) :
    ¬ Declines d i (.ok outcome) := by
  rintro (hsome | hguidance | hstatus)
  · rw [hcondition] at hsome
    cases hsome
  · cases List.singleton_inj.1 (hnotices.symm.trans hguidance)
    cases hn.symm.trans (Notice.kind?_reply (by decide) _ _ _)
  · exact hkind hstatus

theorem Heard.declined (h : o.Heard d i result o') (hdeclines : Declines d i result) :
    o'.store = o.store := by
  cases h with
  | failed _ _ => rfl
  | replied _ _ => rfl
  | requested hkind _ _ _ =>
    have hasks : i.kind ≠ .status := by
      rw [hkind]
      decide
    exact absurd hdeclines
      (not_declines hasks rfl rfl (Notice.kind?_ofEventIn (k := .approvalRequested) rfl ..))
  | denied hkind _ _ _ _ _ =>
    have hdecides : i.kind ≠ .status := by
      rw [hkind]
      decide
    exact absurd hdeclines
      (not_declines hdecides rfl rfl (Notice.kind?_ofEventIn (k := .denied) rfl ..))
  | approved hkind _ _ _ _ _ _ =>
    have hdecides : i.kind ≠ .status := by
      rw [hkind]
      decide
    exact absurd hdeclines
      (not_declines hdecides rfl rfl (Notice.kind?_ofEventIn (k := .dispatched) rfl ..))

theorem Heard.granted (h : o.Heard d i result o') (hgrants : ¬ Declines d i result) :
    ∃ outcome, result = .ok outcome ∧ Grants o.store d.message i outcome o'.store := by
  cases h with
  | failed _ _ => exact absurd trivial hgrants
  | replied _ hwhy => exact absurd hwhy hgrants
  | requested hkind hkey happend hinsert =>
    obtain ⟨hevents, hrequested, hactor⟩ := RunRecord.append_events happend
    refine ⟨_, rfl, .requested hkind hkey rfl (RunStore.records_insert? hinsert) ?_ ?_⟩
    · rw [RunRecord.append_run happend]
      rfl
    · rw [hevents, List.map_append, List.map_singleton, Event.entry, hrequested, hactor]
      rfl
  | denied hkind hrun hfind _ _ happend =>
    exact ⟨_, rfl, .denied hkind hrun (RunStore.extends_of_append hfind happend)⟩
  | approved hkind hrun hfind _ _ happend hdispatch =>
    exact ⟨_, rfl, .approved hkind hrun (RunStore.extends_of_appends hfind happend hdispatch)⟩

end

/-! ## Reports -/

/-- What follows from a report, by what is answered. -/
structure Reflects (s : RunStore) (report : Report) (outcome : ExecutionOutcome)
    (s' : RunStore) : Prop where
  run : outcome.run = report.run
  status : outcome.status = (s'.find? report.run).map (·.status)
  declined : outcome.applied = false →
    s' = s ∧ outcome.notices = [] ∧ outcome.condition.isSome = true
  applied : outcome.applied = true → s.Extends report.run [(report.kind, report.actor)] s'

theorem Reported.reflects {o o' : Orchestrator} {report : Report} {outcome : ExecutionOutcome}
    (h : o.Reported report.run report.kind report.actor outcome o') :
    Reflects o.store report outcome o'.store where
  run := h.run_eq
  status := h.attempt.status_eq.symm
  declined := by
    intro hdeclined
    cases h with
    | unknown _ => exact ⟨rfl, rfl, rfl⟩
    | refused _ _ => exact ⟨rfl, rfl, rfl⟩
    | took _ _ => cases hdeclined
  applied := by
    intro happlied
    cases h with
    | unknown _ => cases happlied
    | refused _ _ => cases happlied
    | took hfind happend => exact RunStore.extends_of_append hfind happend

theorem timedOut_isTerminal {r r' : RunRecord} {actor : String} {payload : Payload}
    {time : Instant} {e : Event} (h : r.append .timedOut actor payload time = .ok (e, r')) :
    r'.status.isTerminal = true := by
  have happly := RunRecord.append_apply h
  rw [(Status.apply_ending (RunRecord.append_isTerminal h)).1] at happly
  rw [← Option.some.inj happly]
  rfl

/-- Every run that a sweep reports has timed out, once. -/
theorem Sweeps.gains {o o' : Orchestrator} {outcomes : List ExecutionOutcome}
    (h : o.Sweeps outcomes o') : ∀ x ∈ outcomes, x.applied = true ∧
      x.status = o'.statusOf x.run ∧
      o.store.Gains x.run [(.timedOut, Orchestrator.actor)] o'.store := by
  induction h with
  | done _ => exact nofun
  | @next o o₁ o' run outcome outcomes hfirst happlied hrest ih =>
    cases hfirst with
    | unknown _ => cases happlied
    | refused _ _ => cases happlied
    | @took r r₁ _ _ e _ hfind happend =>
      have hover := timedOut_isTerminal happend
      have hput := RunStore.find?_put_of_append hfind happend
      -- what has timed out stays so while the others do
      have hlast : o'.store.find? run = some r₁ := by
        obtain ⟨r₂, hr₂, hlater⟩ := hrest.moved.after hput
        rw [hr₂, hlater.eq_of_isTerminal hover]
      intro x hx
      rcases List.mem_cons.1 hx with rfl | hx
      · obtain ⟨⟨x, x', new, hx, hx', hrun, hevents, hnew⟩, -⟩ :=
          RunStore.extends_of_append hfind happend
        cases hput.symm.trans hx'
        refine ⟨rfl, ?_, x, r₁, new, hx, hlast, hrun, hevents, hnew⟩
        show _ = (o'.store.find? run).map (·.status)
        rw [hlast, Option.map_some]
        rfl
      · obtain ⟨happlied', hstatus, hgains⟩ := ih x hx
        have hne : x.run ≠ run := by
          rintro rfl
          rw [hgains.not_over (List.cons_ne_nil _ _) hrest.moved.grows hput] at hover
          cases hover
        obtain ⟨y, y', new, hy, hrest'⟩ := hgains
        refine ⟨happlied', hstatus, y, y', new, ?_, hrest'⟩
        rw [← hy, put, RunStore.find?_put, RunRecord.append_id happend,
          RunStore.text_of_find? hfind, if_neg (Ne.symm hne)]

/-- Whatever was called for before: a message that is declined changes no record, and any
other adds one run with its two events or appends what belongs to a decision; a report
that is not applied changes no record, is told why and tells nobody, and one that is
applied appends its one event; a sweep appends one event to each run that it reports.  And
the status that is answered is the one that the run has then. -/
theorem done_as_answered (policy : Policy) (calls : List Call) :
    (∀ clock draws m i, ∃ result o',
      ((new policy).after calls).perform (.handle clock draws m i) = (.inbound result, o') ∧
      (Declines ⟨m, ((new policy).after calls).receipts + 1⟩ i result →
        o'.store = ((new policy).after calls).store) ∧
      (¬ Declines ⟨m, ((new policy).after calls).receipts + 1⟩ i result →
        ∃ outcome, result = .ok outcome ∧
          Grants ((new policy).after calls).store m i outcome o'.store)) ∧
    (∀ c report, c.report? = some report → ∃ outcome o',
      ((new policy).after calls).perform c = (.execution (.ok outcome), o') ∧
      Reflects ((new policy).after calls).store report outcome o'.store) ∧
    ∀ clock maxAge now, ∃ outcomes o',
      ((new policy).after calls).perform (.timeOutStale clock maxAge now) =
        (.executions (.ok outcomes), o') ∧
      (∀ x ∈ outcomes, x.applied = true ∧ x.status = o'.statusOf x.run ∧
        ((new policy).after calls).store.Gains x.run [(.timedOut, Orchestrator.actor)] o'.store) ∧
      ∀ run, (∀ x ∈ outcomes, x.run ≠ run) →
        o'.store.find? run = ((new policy).after calls).store.find? run := by
  have hregular := after_regular policy calls
  generalize (new policy).after calls = o at hregular ⊢
  refine ⟨fun clock draws m i => ?_, fun c report hreport => ?_, fun clock maxAge now => ?_⟩
  · have hheard := handle_heard hregular clock draws m i
    exact ⟨_, _, rfl, hheard.declined, hheard.granted⟩
  · have hperforms := perform_performs hregular c
    generalize o.perform c = answer at hperforms ⊢
    obtain ⟨answer, o'⟩ := answer
    cases hperforms with
    | heard _ => cases hreport
    | reported hreport' h =>
      cases hreport.symm.trans hreport'
      exact ⟨_, _, rfl, h.reflects⟩
    | swept _ => cases hreport
  · obtain ⟨outcomes, o', heq, hsweeps⟩ := o.timeOutStale_sweeps clock maxAge now
    refine ⟨outcomes, o', ?_, hsweeps.gains, fun run hnot => hsweeps.others hnot⟩
    simp only [perform, heq]

end Orchestrator
end JobGate
