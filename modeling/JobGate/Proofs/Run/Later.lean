/-
What a record can become.

A record changes by events appended to its log, and by nothing else.  Each event
takes the status to a higher stage, so whatever stage a run has come to it never
falls behind it (`Later.stage_le`).
-/
import JobGate.Proofs.Run.Lifecycle
import Mathlib.Logic.Relation

namespace JobGate

namespace Status

/-- How far a run has come.  The five ways of being over are one stage. -/
def stage : Status → Nat
  | created => 0
  | awaitingApproval => 1
  | approved => 2
  | dispatching => 3
  | running => 4
  | succeeded | failed | denied | canceled | timedOut => 5

/-- Whether a worker has yet to end the run: it is approved, and not over. -/
def isBusy (s : Status) : Bool := s = .dispatching || s = .running

theorem stage_le (s : Status) : s.stage ≤ 5 := by
  cases s <;> decide

theorem isTerminal_iff_stage {s : Status} : s.isTerminal = true ↔ s.stage = 5 := by
  cases s <;> decide

theorem isBusy_iff_stage {s : Status} : s.isBusy = true ↔ s.stage = 3 ∨ s.stage = 4 := by
  cases s <;> decide

theorem stage_lt_of_apply {s t : Status} {k : EventKind} (h : s.apply k = some t) :
    s.stage < t.stage := by
  have hs : s.isTerminal = false := isTerminal_of_apply h
  cases ht : t.isTerminal with
  | true =>
    have hfive : t.stage = 5 := isTerminal_iff_stage.1 ht
    have hne : s.stage ≠ 5 := fun h5 => by rw [isTerminal_iff_stage.2 h5] at hs; cases hs
    have := s.stage_le
    omega
  | false =>
    -- neither is over, so the path to the one is a proper part of the path to the other
    have hpath := congrArg List.length (path_of_apply h ht)
    rw [List.length_append, List.length_singleton] at hpath
    have hlen : ∀ u : Status, u.isTerminal = false → u.path.length = u.stage + 1 := by
      intro u hu
      cases u <;> first | rfl | cases hu
    rw [hlen s hs, hlen t ht] at hpath
    omega

end Status

namespace EventKind

/-- Whether it is something that happens to a run after the decision on it, or
that ends it from outside. -/
def isExecution : EventKind → Bool
  | started | succeeded | failed | timedOut | canceled => true
  | created | approvalRequested | approved | denied | dispatched => false

end EventKind

/-- Only a dispatch hands a run to the workers. -/
theorem Status.isBusy_of_apply {s t : Status} {k : EventKind} (h : s.apply k = some t)
    (hk : k.isExecution = true) (ht : t.isBusy = true) : s.isBusy = true := by
  cases k <;> cases hk <;> cases s <;> simp [apply, isTerminal] at h <;> subst h <;>
    first | rfl | cases ht

namespace RunRecord

def Next (kinds : EventKind → Prop) (r r' : RunRecord) : Prop :=
  ∃ kind actor payload time e, kinds kind ∧ r.append kind actor payload time = .ok (e, r')

def Later (kinds : EventKind → Prop) : RunRecord → RunRecord → Prop :=
  Relation.ReflTransGen (Next kinds)

variable {kinds : EventKind → Prop} {r r' r'' : RunRecord}

namespace Later

theorem refl (r : RunRecord) : Later kinds r r := Relation.ReflTransGen.refl

theorem trans (h : Later kinds r r') (h' : Later kinds r' r'') : Later kinds r r'' :=
  Relation.ReflTransGen.trans h h'

theorem of_append {kind : EventKind} {actor : String} {payload : Payload} {time : Instant}
    {e : Event} (hkind : kinds kind) (h : r.append kind actor payload time = .ok (e, r')) :
    Later kinds r r' :=
  Relation.ReflTransGen.single ⟨kind, actor, payload, time, e, hkind, h⟩

theorem preserves {P : RunRecord → Prop} (h : Later kinds r r')
    (hP : ∀ {r r' kind actor payload time e}, kinds kind →
      RunRecord.append r kind actor payload time = .ok (e, r') → P r → P r') (hr : P r) :
    P r' := by
  induction h with
  | refl => exact hr
  | tail _ hlast ih =>
    obtain ⟨kind, actor, payload, time, e, hkind, happend⟩ := hlast
    exact hP hkind happend ih

theorem mono {kinds' : EventKind → Prop} (h : Later kinds r r')
    (hsub : ∀ k, kinds k → kinds' k) : Later kinds' r r' :=
  h.preserves (P := fun x => Later kinds' r x)
    (fun hkind happend ih => ih.trans (of_append (hsub _ hkind) happend)) (refl r)

theorem run (h : Later kinds r r') : r'.run = { r.run with status := r'.run.status } := by
  refine h.preserves (P := fun x => x.run = { r.run with status := x.run.status }) ?_ rfl
  intro x x' kind actor payload time e _ happend ih
  rw [append_run happend, ih]

theorem faithful (h : Later kinds r r') (hr : r.Faithful) : r'.Faithful :=
  h.preserves (fun _ happend hx => hx.append happend) hr

/-- Events are only added behind the log. -/
theorem events (h : Later kinds r r') :
    ∃ new, r'.events = r.events ++ new ∧ ∀ e ∈ new, kinds e.kind := by
  refine h.preserves (P := fun x => ∃ new, x.events = r.events ++ new ∧ ∀ e ∈ new, kinds e.kind)
    ?_ ⟨[], (List.append_nil _).symm, by simp⟩
  rintro x x' kind actor payload time e hkind happend ⟨new, hnew, hall⟩
  obtain ⟨hevents, hk, -⟩ := append_events happend
  refine ⟨new ++ [e], by rw [hevents, hnew, List.append_assoc], fun a ha => ?_⟩
  rcases List.mem_append.1 ha with ha | ha
  · exact hall a ha
  · rw [List.mem_singleton.1 ha, hk]
    exact hkind

theorem mem_events (h : Later kinds r r') {e : Event} (he : e ∈ r.events) : e ∈ r'.events := by
  obtain ⟨new, hnew, -⟩ := h.events
  rw [hnew]
  exact List.mem_append_left _ he

/-- A run never falls behind a stage it has come to. -/
theorem stage_le (h : Later kinds r r') : r.status.stage ≤ r'.status.stage := by
  refine h.preserves (P := fun x => r.status.stage ≤ x.status.stage) ?_ (Nat.le_refl _)
  intro x x' kind actor payload time e _ happend ih
  have := Status.stage_lt_of_apply (append_apply happend)
  omega

/-- A run that is over takes no event. -/
theorem eq_of_isTerminal (h : Later kinds r r') (hover : r.status.isTerminal = true) :
    r' = r := by
  refine h.preserves (P := fun x => x = r) ?_ rfl
  rintro x x' kind actor payload time e - happend rfl
  rw [append_isTerminal happend] at hover
  cases hover

theorem isBusy (h : Later (·.isExecution = true) r r') (hr : r'.status.isBusy = true) :
    r.status.isBusy = true := by
  refine h.preserves (P := fun x => x.status.isBusy = true → r.status.isBusy = true) ?_ id hr
  intro x x' kind actor payload time e hkind happend ih hx
  exact ih (Status.isBusy_of_apply (append_apply happend) hkind hx)

end Later
end RunRecord
end JobGate
