/-
What is written in a log stays there.

A record `Continues` as another when the run is the same one and its log has only grown.
Every call leaves every record to continue, and the records that it changes at all are
the one that it names, those that a sweep reports, and the one that it adds
(`Effect.changed`).  A log that has come to its end is therefore never touched again,
whatever is called for later.
-/
import JobGate.Proofs.Orchestrator.Calls

namespace JobGate

/-- The same run, with nothing taken out of its log and nothing added once it is over. -/
structure RunRecord.Continues (r r' : RunRecord) : Prop where
  id : r'.run.id = r.run.id
  jobKey : r'.run.jobKey = r.run.jobKey
  createdAt : r'.run.createdAt = r.run.createdAt
  requestedBy : r'.run.requestedBy = r.run.requestedBy
  channel : r'.run.channel = r.run.channel
  conversation : r'.run.conversation = r.run.conversation
  events : r.events <+: r'.events
  ended : r.status.isTerminal = true → r' = r

theorem RunRecord.Later.continues {kinds : EventKind → Prop} {r r' : RunRecord}
    (h : RunRecord.Later kinds r r') : r.Continues r' := by
  have hrun := h.run
  exact
    { id := by rw [hrun]
      jobKey := by rw [hrun]
      createdAt := by rw [hrun]
      requestedBy := by rw [hrun]
      channel := by rw [hrun]
      conversation := by rw [hrun]
      events := by
        obtain ⟨new, hnew, -⟩ := h.events
        exact ⟨new, hnew.symm⟩
      ended := h.eq_of_isTerminal }

namespace RunStore

/-- The second store is the first with one record more, of a run that was not known. -/
def Adds (s : RunStore) (r : RunRecord) (s' : RunStore) : Prop :=
  s.find? r.run.id.text = none ∧ s'.records = s.records ++ [r]

variable {s s' : RunStore} {r : RunRecord} {run : String}

/-- Replacing a record changes what is found for its run only. -/
theorem eq_of_find?_put_ne (h : (s.put r).find? run ≠ s.find? run) : r.run.id.text = run := by
  by_contra hne
  exact h (by rw [find?_put, if_neg hne])

theorem eq_of_find?_insert_ne (hinsert : s.insert? r = some s')
    (h : s'.find? run ≠ s.find? run) : r.run.id.text = run := by
  by_contra hne
  exact h (by rw [find?_insert hinsert, if_neg hne])

theorem Attempt.changed {kind : EventKind} {actor named : String} {status : Option Status}
    (h : Attempt kind actor named s status s') (hne : s'.find? run ≠ s.find? run) :
    named = run := by
  cases h with
  | unknown _ => exact absurd rfl hne
  | refused _ _ => exact absurd rfl hne
  | took hfind happend =>
    rw [← text_of_find? hfind, ← eq_of_find?_put_ne hne, RunRecord.append_id happend]

end RunStore

/-- A message changes the run that it decides on, or adds one. -/
theorem Handled.changed {policy : Policy} {s s' : RunStore} {m : Inbound} {i : Intent}
    {dispatch : Option Dispatch} {run : String} (h : Handled policy s m i dispatch s')
    (hne : s'.find? run ≠ s.find? run) :
    i.kind ≠ .runJob ∧ i.run = some run ∨
      i.kind = .runJob ∧ ∃ r, r.run.id.text = run ∧ s.Adds r s' := by
  cases h with
  | kept => exact absurd rfl hne
  | @created jobKey r _ hkind _ _ hinsert =>
    exact .inr ⟨hkind, r, RunStore.eq_of_find?_insert_ne hinsert hne,
      RunStore.records_insert? hinsert⟩
  | denied hkind hrun _ _ _ happend =>
    have hdecides : i.kind ≠ .runJob := by
      rw [hkind]
      decide
    refine .inl ⟨hdecides, ?_⟩
    rw [hrun, ← RunStore.eq_of_find?_put_ne hne, RunRecord.append_id happend]
  | approved hkind hrun _ _ _ happend hdispatch =>
    have hdecides : i.kind ≠ .runJob := by
      rw [hkind]
      decide
    refine .inl ⟨hdecides, ?_⟩
    rw [hrun, ← RunStore.eq_of_find?_put_ne hne, RunRecord.append_id hdispatch,
      RunRecord.append_id happend]

namespace Orchestrator

/-- Whether a call is a message that asks for a new run. -/
def Call.asksForRun : Call → Bool
  | .handle _ _ _ i => i.kind = .runJob
  | .onStarted .. | .onCompleted .. | .onTimeout .. | .cancelRun .. | .timeOutStale .. => false

theorem Effect.changed {policy : Policy} {s s' : RunStore} {c : Call} {answer : Answer}
    {run : String} (h : Effect policy s c answer s') (hne : s'.find? run ≠ s.find? run) :
    c.run? = some run ∨ run ∈ answer.swept ∨
      c.asksForRun = true ∧ ∃ r, r.run.id.text = run ∧ s.Adds r s' := by
  cases h with
  | handled h =>
    rcases h.changed hne with ⟨hkind, hrun⟩ | ⟨hkind, hadds⟩
    · exact .inl ((if_neg hkind).trans hrun)
    · exact .inr (.inr ⟨decide_eq_true hkind, hadds⟩)
  | attempted hrun _ h => exact .inl (h.changed hne ▸ hrun)
  | @swept _ _ _ outcomes _ _ hothers =>
    refine .inr (.inl ?_)
    by_contra hnot
    refine hne (hothers run fun x hx hrun => hnot ?_)
    exact List.mem_map.2 ⟨x, hx, hrun⟩

variable (o : Orchestrator)

theorem perform_continues (c : Call) {run : String} {r : RunRecord}
    (h : o.store.find? run = some r) :
    ∃ r', (o.perform c).2.store.find? run = some r' ∧ r.Continues r' := by
  obtain ⟨r', hr', hlater⟩ := (perform_effect o c).2.grows h
  exact ⟨r', hr', hlater.continues⟩

/-- A run that is over stays as it is, whatever is called for. -/
theorem after_over (calls : List Call) {run : String} {r : RunRecord}
    (h : o.store.find? run = some r) (hover : r.status.isTerminal = true) :
    (o.after calls).store.find? run = some r := by
  refine after_induction (P := fun s => s.find? run = some r) h (fun heffect hr => ?_) calls
  obtain ⟨r', hr', hlater⟩ := heffect.grows hr
  rw [hr', hlater.eq_of_isTerminal hover]

/-- A call leaves every record to continue, and changes only the run that it names, those
that it reports as timed out, or the single one that it adds under an identifier that was
free.  A run that is over is not changed by any calls. -/
theorem history_append_only (o : Orchestrator) :
    (∀ c run r, o.store.find? run = some r →
      ∃ r', (o.perform c).2.store.find? run = some r' ∧ r.Continues r') ∧
    (∀ c run, (o.perform c).2.store.find? run ≠ o.store.find? run →
      c.run? = some run ∨ run ∈ (o.perform c).1.swept ∨
        c.asksForRun = true ∧ ∃ r, r.run.id.text = run ∧ o.store.Adds r (o.perform c).2.store) ∧
    ∀ calls run r, o.store.find? run = some r → r.status.isTerminal = true →
      (o.after calls).store.find? run = some r :=
  ⟨fun c _ _ h => o.perform_continues c h, fun c _ hne => (perform_effect o c).2.changed hne,
    fun calls _ _ h hover => o.after_over calls h hover⟩

end Orchestrator
end JobGate
