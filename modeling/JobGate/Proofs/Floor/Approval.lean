/-
No job runs without an approval.

Whatever a worker executes goes back to two messages.  One asked for the run, and named
the job that is executed.  The other approved the run while it waited, and its sender
was one whom the policy accepts.  Each of them is found by following a run of the floor
backwards, to the action by which the record was created or the approval came into its
log.
-/
import JobGate.Proofs.Floor.Records

namespace JobGate
namespace Floor

def Approves (policy : Policy) (run sender : String) (f : Floor) (a : Action) (_ : Floor) :
    Prop :=
  ∃ call clock draws m r, a = .receive call clock draws m ∧
    (Intent.parse m.body).kind = .approveRun ∧ (Intent.parse m.body).run = some run ∧
    m.sender = sender ∧ f.scene.store.find? run = some r ∧ r.status = .awaitingApproval ∧
    policy r.run sender = true

def Requests (run jobKey : String) (f : Floor) (a : Action) (f' : Floor) : Prop :=
  ∃ call clock draws m, a = .receive call clock draws m ∧
    (Intent.parse m.body).kind = .runJob ∧ (Intent.parse m.body).jobKey = some jobKey ∧
    f.scene.store.find? run = none ∧ ∃ r, f'.scene.store.find? run = some r

/-- A worker that had claimed an entry began to execute it when its run was not over, and
has been executing it since. -/
def Began (f : Floor) (acts : List Action) (worker : String) (entry : QueuedDispatch) : Prop :=
  ∃ before clock after, acts = before ++ .work worker clock :: after ∧
    (f.run before).tasks worker = some (.claimed entry) ∧
    (∃ r, (f.run before).scene.store.find? entry.run.text = some r ∧
      r.status.isTerminal = false) ∧
    ∀ mid rest, after = mid ++ rest → ∃ lost,
      (f.run (before ++ .work worker clock :: mid)).tasks worker = some (.executing entry lost)

variable {policy : Policy} {q : Backend} {acts : List Action}

theorem run_policy {f : Floor} (h : f.Sound) (acts : List Action) :
    (f.run acts).scene.policy = f.scene.policy :=
  (run_induction (P := fun s => s.policy = f.scene.policy) h rfl
    (fun hmove _ hs => hmove.policy.trans hs) acts).2

theorem run_traced (hq : q.Sound) (hempty : q.live.entries = []) (acts : List Action) :
    ((idle (.new policy) q).run acts).scene.Traced :=
  (run_induction (f := idle (.new policy) q) hq (.idle policy hempty)
    (fun hmove _ hs => hmove.traced hs) acts).2

/-- Every run on record was asked for. -/
theorem requested (hq : q.Sound) {run : String} {r : RunRecord}
    (hr : ((idle (.new policy) q).run acts).scene.store.find? run = some r) :
    (idle (.new policy) q).Happened acts (Requests run r.run.jobKey) := by
  refine Happened.of_run
    (P := fun f => ∃ x, f.scene.store.find? run = some x ∧ x.run.jobKey = r.run.jobKey)
    ?_ ?_ ⟨r, hr, rfl⟩
  · rintro ⟨x, hx, -⟩
    cases hx
  · rintro acts a ⟨x', hx', hkey⟩
    have hmove := (step_moves (run_sound (f := idle (.new policy) q) hq acts) a).move
    rcases hmove.before hx' with
      ⟨x, hx, hlater⟩ | ⟨hnone, call, clock, draws, m, jobKey, rfl, hkind, hjob, hnew⟩
    · refine .inl ⟨x, hx, ?_⟩
      rw [← hkey, hlater.run]
    · rw [← hkey, hnew.jobKey]
      exact .inr ⟨call, clock, draws, m, rfl, hkind, hjob, hnone, x', hx'⟩

/-- Every approval in a log was given by its actor, who might give it. -/
theorem approved (hq : q.Sound) {run : String} {r : RunRecord} {e : Event}
    (hr : ((idle (.new policy) q).run acts).scene.store.find? run = some r) (he : e ∈ r.events)
    (hk : e.kind = .approved) :
    (idle (.new policy) q).Happened acts (Approves policy run e.actor) := by
  refine Happened.of_run (P := fun f => ∃ x, f.scene.store.find? run = some x ∧ e ∈ x.events)
    ?_ ?_ ⟨r, hr, he⟩
  · rintro ⟨x, hx, -⟩
    cases hx
  · rintro acts a ⟨x', hx', he'⟩
    have hsound := run_sound (f := idle (.new policy) q) hq acts
    rcases (step_moves hsound a).move.approval hx' he' hk with
      hbefore | ⟨call, clock, draws, m, x, rfl, hkind, hrun, hactor, hx, hwaits, hmay⟩
    · exact .inl hbefore
    · rw [run_policy (f := idle (.new policy) q) hq acts] at hmay
      exact .inr ⟨call, clock, draws, m, x, rfl, hkind, hrun, hactor.symm, hx, hwaits,
        hactor ▸ hmay⟩

/-- Whatever a worker executes it began when the run was not over. -/
theorem began {f : Floor} (h : f.Sound) (hidle : ∀ worker, f.tasks worker = none)
    {worker : String} {entry : QueuedDispatch} {lost : Bool}
    (hexec : (f.run acts).tasks worker = some (.executing entry lost)) :
    f.Began acts worker entry := by
  induction acts using List.reverseRecOn generalizing lost with
  | nil => cases (hidle worker).symm.trans hexec
  | append_singleton acts a ih =>
    have hexec' := hexec
    rw [run_concat] at hexec'
    have hbefore : (∃ lost, (f.run acts).tasks worker = some (.executing entry lost)) ∨
        ∃ clock, a = .work worker clock ∧ (f.run acts).tasks worker = some (.claimed entry) ∧
          ∃ r, (f.run acts).scene.store.find? entry.run.text = some r ∧
            r.status.isTerminal = false := by
      rcases (step_moves (run_sound h acts) a).move.task hexec' with
        ht | ⟨t, ht, hgoes⟩ | ⟨_, _, -, -, -, -, -, -, heq⟩
      · exact .inl ⟨lost, ht⟩
      · cases hgoes with
        | began _ hattempt => exact .inr ⟨_, rfl, ht, hattempt.not_over⟩
        | noticed => exact .inl ⟨false, ht⟩
      · cases heq
    rcases hbefore with ⟨lost', hstill⟩ | ⟨clock, rfl, hclaimed, halive⟩
    · obtain ⟨before, clock, after, rfl, hclaimed, halive, hsince⟩ := ih hstill
      refine ⟨before, clock, after ++ [a], by simp, hclaimed, halive, fun mid rest heq => ?_⟩
      -- either the whole run, or a part of it that was there before
      rcases List.eq_nil_or_concat rest with rfl | ⟨rest', y, rfl⟩
      · rw [List.append_nil] at heq
        exact ⟨lost, by rw [← heq]; simpa using hexec⟩
      · rw [List.concat_eq_append, ← List.append_assoc] at heq
        exact hsince mid rest' (List.append_inj' heq rfl).1
    · refine ⟨acts, clock, [], rfl, hclaimed, halive, fun mid rest heq => ?_⟩
      obtain ⟨rfl, -⟩ := List.append_eq_nil_iff.1 heq.symm
      exact ⟨lost, hexec⟩

/-- No job runs without an approval.  What a worker executes is the job of a run that was
asked for, and that was approved once, by somebody whom the policy accepts, and then
dispatched.  The run was not over when the worker began it. -/
theorem executes_approved (hq : q.Sound) (hempty : q.live.entries = []) {worker : String}
    {entry : QueuedDispatch} {lost : Bool}
    (hexec : ((idle (.new policy) q).run acts).tasks worker = some (.executing entry lost)) :
    ∃ r, ((idle (.new policy) q).run acts).scene.store.find? entry.run.text = some r ∧
      (∃ approval, r.ApprovedOnce approval ∧
        (idle (.new policy) q).Happened acts
          (Approves policy entry.run.text approval.actor)) ∧
      r.run.jobKey = entry.jobKey ∧
      (idle (.new policy) q).Happened acts (Requests entry.run.text entry.jobKey) ∧
      (idle (.new policy) q).Began acts worker entry := by
  have htraced : ((idle (.new policy) q).run acts).scene.Traced := run_traced hq hempty acts
  obtain ⟨r, hr, -, hstarted⟩ := htraced.begun hexec rfl
  have hkey : r.run.jobKey = entry.jobKey := by
    obtain ⟨x, hx, -, hkey⟩ := htraced.tasks hexec rfl
    cases hr.symm.trans hx
    exact hkey
  obtain ⟨approval, honce⟩ := (htraced.faithful hr).approvedOnce hstarted
  have happroves : (idle (.new policy) q).Happened acts
      (Approves policy entry.run.text approval.actor) := by
    obtain ⟨before, dispatched, after, hevents, hk, -, -⟩ := honce
    exact approved hq hr (hevents ▸ List.mem_append_right _ List.mem_cons_self) hk
  exact ⟨r, hr, ⟨approval, honce, happroves⟩, hkey, hkey ▸ requested hq hr,
    began (f := idle (.new policy) q) hq (fun _ => rfl) hexec⟩

def backup : List Action :=
  Action.say 0 "run backup" ++ Action.say 1 "yes run-0-0000" ++
    [.claim "w" default, .work "w" default]

/-- The worker executes a backup that was approved. -/
theorem executes_approved_backup :
    (∃ entry, ((idle (.new .requesterOnly) (.memory (.new 1))).run backup).tasks "w" =
      some (.executing entry false) ∧ entry.run.text = "run-0-0000") ∧
    ∃ r, ((idle (.new .requesterOnly) (.memory (.new 1))).run backup).scene.store.find?
        "run-0-0000" = some r ∧ r.run.jobKey = "backup" ∧
      ∃ approval, r.ApprovedOnce approval ∧
        (idle (.new .requesterOnly) (.memory (.new 1))).Happened backup
          (Approves .requesterOnly "run-0-0000" approval.actor) := by
  let entry : QueuedDispatch := ⟨1, ⟨"run-0-0000", by decide⟩, "backup", 0⟩
  have hexec : ((idle (.new .requesterOnly) (.memory (.new 1))).run backup).tasks "w" =
      some (.executing entry false) := rfl
  obtain ⟨r, hr, honce, hkey, -⟩ :=
    executes_approved (q := .memory (.new 1)) (MemoryQueue.new_sound 1) rfl hexec
  exact ⟨⟨entry, hexec, rfl⟩, r, hr, hkey, honce⟩

end Floor
end JobGate
