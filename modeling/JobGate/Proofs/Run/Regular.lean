/-
Records as an orchestrator leaves them.

A log opens with the creation of its run and the request for a decision, and whatever is
appended to it later is an event of the same run (`Opened.append`).  Two statuses are
passed through in the course of a call; `Regular` says that the run rests in one of the
others.
-/
import JobGate.Proofs.Run.Later

namespace JobGate

namespace Status

/-- Whether a run can be left in a status.  Creating a run also asks for a decision on it,
and approving a run also dispatches it. -/
def isResting (s : Status) : Bool :=
  s = .awaitingApproval || s = .dispatching || s = .running || s.isTerminal

theorem isResting_of_apply {s t : Status} {k : EventKind} (h : s.apply k = some t)
    (hk : k.isExecution = true) : t.isResting = true := by
  cases k <;> cases hk <;> cases s <;> simp [apply, isTerminal] at h <;> subst h <;> rfl

end Status

namespace RunRecord

/-- The log leads to the status of the run, holds its events only, and begins with its
creation by the requester and the request for a decision. -/
structure Opened (r : RunRecord) : Prop where
  faithful : r.Faithful
  opening : ∃ created requested rest, r.events = created :: requested :: rest ∧
    created.kind = .created ∧ created.actor = r.run.requestedBy ∧
    created.time = r.run.createdAt ∧ requested.kind = .approvalRequested
  own : ∀ e ∈ r.events, e.run = r.run.id

structure Regular (r : RunRecord) : Prop extends Opened r where
  resting : r.status.isResting = true

variable {r r' : RunRecord} {kinds : EventKind → Prop} {kind : EventKind} {actor : String}
  {payload : Payload} {time : Instant} {e : Event}

theorem own_append (hr : ∀ a ∈ r.events, a.run = r.run.id)
    (h : r.append kind actor payload time = .ok (e, r')) :
    ∀ a ∈ r'.events, a.run = r'.run.id := by
  intro a ha
  rw [append_id h]
  rw [(append_events h).1] at ha
  rcases List.mem_append.1 ha with ha | ha
  · exact hr a ha
  · rw [List.mem_singleton.1 ha]
    exact append_own h

theorem Opened.append (hr : r.Opened) (h : r.append kind actor payload time = .ok (e, r')) :
    r'.Opened where
  faithful := hr.faithful.append h
  opening := by
    obtain ⟨created, requested, rest, hevents, hopening⟩ := hr.opening
    refine ⟨created, requested, rest ++ [e], ?_, ?_⟩
    · rw [(append_events h).1, hevents]
      rfl
    · rw [append_run h]
      exact hopening
  own := own_append hr.own h

/-- A run that has just been created is opened by the request for a decision. -/
theorem Opened.of_create {new : NewRun} {created requested : Instant}
    (h : (create new created).append .approvalRequested actor payload requested = .ok (e, r)) :
    r.Opened where
  faithful := (create_faithful new created).append h
  opening := by
    obtain ⟨hevents, hkind, -⟩ := append_events h
    refine ⟨_, e, [], hevents, rfl, ?_, ?_, hkind⟩
    · rw [append_run h]
      rfl
    · rw [append_run h]
      rfl
  own := own_append (fun a ha => by rw [List.mem_singleton.1 ha]; rfl) h

theorem Later.opened (h : Later kinds r r') (hr : r.Opened) : r'.Opened :=
  h.preserves (fun _ happend hx => hx.append happend) hr

theorem Later.isResting (h : Later (·.isExecution = true) r r')
    (hr : r.status.isResting = true) : r'.status.isResting = true :=
  h.preserves (P := fun x => x.status.isResting = true)
    (fun hkind happend _ => Status.isResting_of_apply (append_apply happend) hkind) hr

/-- The log of such a record passes the check of it. -/
theorem Faithful.verify (h : r.Faithful) : r.verify = .ok () := by
  unfold RunRecord.verify
  rw [show replay r.events = .ok r.status from h]
  simp only [if_true]

end RunRecord
end JobGate
