/-
Claims that change hands.

A claim is ended by a number alone, so it can be ended by somebody who no longer has
it.  A worker whose claim was taken back finds that out only when it renews it: until
then it believes to hold the entry, and when it comes to the end of its task it ends
the claim that it finds there, whosever it is.  `claim_ends_duly_iff` says that this is
the only way in which a claim ends that should not, and that it always does then.
-/
import JobGate.Proofs.Floor.Custody

namespace JobGate

section
variable {stale : Clock → Nat → Int → Bool} {s s' : Scene} {a : Action} {worker : String} {id : Int}

/-- What takes a claim from a worker: a step that ends the claim of the entry, by
whomever, or a reclaim that finds it stale. -/
theorem Move.ends (h : Move True stale s a s') (hq : s.queue.Sound)
    (hholds : s.queue.Holds worker id) (hnot : ¬ s'.queue.Holds worker id) :
    (∃ other clock t entry, a = .work other clock ∧ s.tasks other = some t ∧
      t.ending? = some entry ∧ entry.id = id) ∨
      ∃ clock timeout, a = .reclaim clock timeout ∧ stale clock timeout id = true := by
  cases h with
  | enqueued _ _ => exact absurd (LiveQueue.holds_add.2 hholds) hnot
  | took _ hfirst _ _ _ _ =>
    have he := (LiveQueue.of_first? hfirst).1
    refine absurd ((LiveQueue.holds_hold he).2 (.inr ⟨?_, hholds⟩)) hnot
    rintro rfl
    exact LiveQueue.not_holds_first hq hfirst hholds
  | discarded _ hfirst _ =>
    refine absurd (LiveQueue.holds_remove.2 ⟨hholds, ?_⟩) hnot
    rintro rfl
    exact LiveQueue.not_holds_first hq hfirst hholds
  | @completed other clock entry _ _ _ _ htask _ =>
    refine .inl ⟨other, clock, _, entry, rfl, htask, rfl, ?_⟩
    by_contra hne
    exact hnot (LiveQueue.holds_remove.2 ⟨hholds, fun hid => hne hid.symm⟩)
  | @returned other clock t entry _ htask hreturned _ =>
    refine .inl ⟨other, clock, t, entry, rfl, htask, Task.ending?_of_returned hreturned, ?_⟩
    by_contra hne
    refine hnot ((LiveQueue.holds_free hq).2 ⟨hholds, fun e _ hid => ?_⟩)
    simpa [hid] using fun hid' : id = entry.id => hne hid'.symm
  | @reclaimed clock timeout =>
    refine .inr ⟨clock, timeout, rfl, ?_⟩
    by_contra hfresh
    refine hnot ((LiveQueue.holds_free hq).2 ⟨hholds, fun e _ hid => ?_⟩)
    simpa [hid] using hfresh
  | _ => exact absurd hholds hnot

/-- A worker that ends the claim of an entry ends it for whoever holds the entry. -/
theorem Move.not_holds_of_ending {other : String} {clock : Clock} {t : Task}
    {entry : QueuedDispatch} (h : Move True stale s (.work other clock) s') (hq : s.queue.Sound)
    (ht : s.tasks other = some t) (hending : t.ending? = some entry)
    (hholds : s.queue.Holds worker entry.id) : ¬ s'.queue.Holds worker entry.id := by
  intro hafter
  have hphase : ∀ x, s.tasks other = some x → x.ending? = some entry := by
    intro x hx
    rw [Option.some.inj (hx.symm.trans ht)]
    exact hending
  cases h with
  | still hidle =>
    rcases hidle with hnone | ⟨y, lost, hexec⟩
    · cases hnone.symm.trans ht
    · cases hphase _ hexec
  | began htask _ => cases hphase _ htask
  | skipped htask _ _ => cases hphase _ htask
  | ended htask _ => cases hphase _ htask
  | endedLost htask _ => cases hphase _ htask
  | finished htask => cases hphase _ htask
  | completed htask _ =>
    cases hphase _ htask
    exact (LiveQueue.holds_remove.1 hafter).2 rfl
  | returned htask hreturned _ =>
    cases (Task.ending?_of_returned hreturned).symm.trans (hphase _ htask)
    obtain ⟨e, he, hid, -⟩ := hholds
    simpa [hid] using ((LiveQueue.holds_free hq).1 hafter).2 e he hid
  | endedLate htask hending' hwhy =>
    cases hending'.symm.trans (hphase _ htask)
    rcases hwhy with hfree | hcalm
    · exact hfree ⟨worker, hholds⟩
    · exact hcalm trivial
  | endedRuns ha _ => exact ha

end

/-- A renewal tells the worker whether it still holds the entry. -/
theorem Move.holds_of_renew {stale : Clock → Nat → Int → Bool} {s s' : Scene} {worker : String}
    {clock : Clock} (h : Move True stale s (.renew worker clock) s') {entry : QueuedDispatch}
    (hexec : s.tasks worker = some (.executing entry false)) {t : Task} {id : Int}
    (ht : s'.tasks worker = some t) (hid : t.holding? = some id) :
    s.queue.Holds worker entry.id := by
  cases h with
  | still hidle => exact hidle trivial entry hexec
  | noticed htask _ =>
    cases Scene.hand_tasks_self.symm.trans ht
    cases hid
  | endedRuns ha _ => exact False.elim ha

namespace Floor

def Holds (f : Floor) (worker : String) (id : Int) : Prop := f.scene.queue.Holds worker id

def Ending (f : Floor) (worker : String) (id : Int) : Prop :=
  ∃ t entry, f.tasks worker = some t ∧ t.ending? = some entry ∧ entry.id = id

/-- The two ways in which a claim is meant to end: its worker ends it, or it is found
stale. -/
def EndsDuly (f : Floor) (a : Action) (worker : String) (id : Int) : Prop :=
  (∃ clock, a = .work worker clock ∧ f.Ending worker id) ∨
    ∃ clock timeout, a = .reclaim clock timeout ∧
      f.site.queue.queue.stale clock timeout id = true

/-- A worker held an entry, lost it to somebody else's action, and has not renewed its
claim since. -/
def LostUnnoticed (f : Floor) (acts : List Action) (worker : String) (id : Int) : Prop :=
  ∃ before a after, acts = before ++ a :: after ∧ (f.run before).Holds worker id ∧
    ¬ ((f.run before).step a).Holds worker id ∧
    ∀ mid clock rest, after = mid ++ .renew worker clock :: rest →
      ∀ entry, (f.run (before ++ a :: mid)).tasks worker ≠ some (.executing entry false)

/-- Another worker, which lost the entry without noticing, ends a claim of it. -/
def EndsLate (f : Floor) (acts : List Action) (a : Action) (worker : String) (id : Int) : Prop :=
  ∃ other clock, other ≠ worker ∧ a = .work other clock ∧ (f.run acts).Ending other id ∧
    f.LostUnnoticed acts other id

theorem LostUnnoticed.concat {f : Floor} {acts : List Action} {worker : String} {id : Int}
    (h : f.LostUnnoticed acts worker id) {a : Action}
    (ha : ∀ clock, a = .renew worker clock →
      ∀ entry, (f.run acts).tasks worker ≠ some (.executing entry false)) :
    f.LostUnnoticed (acts ++ [a]) worker id := by
  obtain ⟨before, x, after, rfl, hheld, hlost, hsince⟩ := h
  refine ⟨before, x, after ++ [a], by simp, hheld, hlost, fun mid clock rest heq => ?_⟩
  -- the renewal is the last action, or one of the earlier ones
  rcases List.eq_nil_or_concat rest with rfl | ⟨rest', y, rfl⟩
  · obtain ⟨rfl, hlast⟩ := List.append_inj' heq rfl
    exact ha clock (List.cons.inj hlast).1
  · rw [List.concat_eq_append, ← List.cons_append, ← List.append_assoc] at heq
    exact hsince mid clock rest' (List.append_inj' heq rfl).1

variable {o : Orchestrator} {q : Backend} {acts : List Action}

/-- A worker that believes to hold an entry holds it, or has lost it without
noticing. -/
theorem holds_or_lost (hq : q.Sound) (hfree : ∀ id, ¬ q.live.Claimed id)
    (hacts : ∀ outage, Action.breakQueue outage ∉ acts) {worker : String} {t : Task} {id : Int}
    (ht : ((idle o q).run acts).tasks worker = some t) (hid : t.holding? = some id) :
    ((idle o q).run acts).Holds worker id ∨ (idle o q).LostUnnoticed acts worker id := by
  induction acts using List.reverseRecOn generalizing t with
  | nil => cases ht
  | append_singleton acts a ih =>
    have hacts' : ∀ outage, Action.breakQueue outage ∉ acts :=
      fun outage hx => hacts outage (List.mem_append_left _ hx)
    obtain ⟨hsound, hcalm, hinHand, -⟩ := run_inHand (o := o) hq hfree hacts'
    have hmove := (step_moves hsound a).move
    rw [eq_true hcalm] at hmove
    rw [run_concat] at ht ⊢
    -- what it believes now it believed before, unless it has just claimed the entry
    have hbefore : (∃ t, ((idle o q).run acts).tasks worker = some t ∧ t.holding? = some id) ∨
        (((idle o q).run acts).step a).Holds worker id := by
      rcases hmove.task ht with ht | ⟨x, hx, hgoes⟩ | ⟨e, y, hfirst, hqueue, hyid, -, -, -, rfl⟩
      · exact .inl ⟨t, ht, hid⟩
      · exact .inl ⟨x, hx, hgoes.holding? hid⟩
      · refine .inr ?_
        show LiveQueue.Holds _ _ _
        rw [hqueue, LiveQueue.holds_hold (LiveQueue.of_first? hfirst).1]
        exact .inl ⟨(Option.some.inj hid).symm.trans hyid, rfl⟩
    rcases hbefore with ⟨x, hx, hxid⟩ | hholds
    · by_cases hafter : (((idle o q).run acts).step a).Holds worker id
      · exact .inl hafter
      · refine .inr ?_
        by_cases hheld : ((idle o q).run acts).Holds worker id
        · refine ⟨acts, a, [], rfl, hheld, hafter, fun mid clock rest heq => ?_⟩
          cases mid <;> cases heq
        · refine ((ih hacts' hx hxid).resolve_left hheld).concat ?_
          rintro clock rfl entry hexec
          cases hexec.symm.trans hx
          exact hheld (Option.some.inj hxid ▸ hmove.holds_of_renew hexec ht hid)
    · exact .inl hholds

/-- When a claim ends, it does so duly, exactly unless a worker that has lost the entry
without noticing ends it. -/
theorem claim_ends_duly_iff (hq : q.Sound) (hfree : ∀ id, ¬ q.live.Claimed id)
    (hacts : ∀ outage, Action.breakQueue outage ∉ acts) (a : Action) {worker : String} {id : Int}
    (hholds : ((idle o q).run acts).Holds worker id) :
    (¬ (((idle o q).run acts).step a).Holds worker id →
        ((idle o q).run acts).EndsDuly a worker id) ↔
      ¬ (idle o q).EndsLate acts a worker id := by
  obtain ⟨hsound, hcalm, hinHand, -⟩ := run_inHand (o := o) hq hfree hacts
  have hlive := Backend.sound_live hsound
  have hmove := (step_moves hsound a).move
  rw [eq_true hcalm] at hmove
  constructor
  · rintro hduly ⟨other, clock, hne, rfl, ⟨t, entry, ht, hending, rfl⟩, -⟩
    rcases hduly (hmove.not_holds_of_ending hlive ht hending hholds) with
      ⟨clock', heq, -⟩ | ⟨clock', timeout, heq, -⟩
    · cases heq
      exact hne rfl
    · cases heq
  · intro hlate hnot
    rcases hmove.ends hlive hholds hnot with
      ⟨other, clock, t, entry, rfl, ht, hending, hid⟩ | hstale
    · have hend : ((idle o q).run acts).Ending other id := ⟨t, entry, ht, hending, hid⟩
      by_cases hother : other = worker
      · subst hother
        exact .inl ⟨clock, rfl, hend⟩
      · -- the other worker believes to hold the entry, but it does not
        have hbelief := holds_or_lost hq hfree hacts ht (Task.holding?_of_ending hending)
        rw [hid] at hbelief
        rcases hbelief with hboth | hlost
        · exact absurd (LiveQueue.Holds.unique hlive hboth hholds) hother
        · exact absurd ⟨other, clock, hother, rfl, hend, hlost⟩ hlate
    · exact .inr hstale

/-! ## A claim that ends late -/

def minuteLater : Clock := ⟨default, Duration.ofSeconds 60⟩

/-- A run is approved, and worker `a` begins to execute it.  A minute later its claim is
taken back and worker `b` claims the entry.  Then the execution of `a` ends, which has
not renewed its claim in between, and `a` has yet to complete the entry. -/
def takeover : List Action :=
  Action.say 0 "run backup" ++ Action.say 1 "yes run-0-0000" ++
    [.claim "a" default, .work "a" default, .reclaim minuteLater (Duration.ofSeconds 60),
      .claim "b" minuteLater, .report "a" ⟨true, "done"⟩ false, .work "a" minuteLater]

def takeoverFloor : Floor := idle (.new .requesterOnly) (.memory (.new 1))

theorem takeover_before : (takeoverFloor.run takeover).scene.queue.entries =
    [⟨1, "run-0-0000", "backup", 1, some "b"⟩] := rfl

theorem takeover_after :
    ((takeoverFloor.run takeover).step (.work "a" minuteLater)).scene.queue.entries = [] := rfl

/-- The claim of `b` ends when `a` completes the entry: it neither was ended by `b` nor
was it found stale. -/
theorem takeover_ends_claim : (takeoverFloor.run takeover).Holds "b" 1 ∧
    ¬ ((takeoverFloor.run takeover).step (.work "a" minuteLater)).Holds "b" 1 ∧
    ¬ (takeoverFloor.run takeover).EndsDuly (.work "a" minuteLater) "b" 1 := by
  refine ⟨⟨_, takeover_before ▸ List.mem_cons_self, rfl, rfl⟩, ?_, ?_⟩
  · rintro ⟨e, he, -⟩
    rw [takeover_after] at he
    cases he
  · rintro (⟨clock, heq, -⟩ | ⟨clock, timeout, heq, -⟩)
    · simp at heq
    · cases heq

/-- And `a` had lost the entry without noticing. -/
theorem takeover_ends_late : (takeoverFloor.run takeover).Holds "b" 1 ∧
    takeoverFloor.EndsLate takeover (.work "a" minuteLater) "b" 1 := by
  have hholds : (takeoverFloor.run takeover).Holds "b" 1 :=
    ⟨_, takeover_before ▸ List.mem_cons_self, rfl, rfl⟩
  have hgone : ¬ ((takeoverFloor.run takeover).step (.work "a" minuteLater)).Holds "b" 1 := by
    rintro ⟨e, he, -⟩
    rw [takeover_after] at he
    cases he
  have hsound : (Backend.memory (.new 1)).Sound := MemoryQueue.new_sound 1
  have hfree : ∀ id, ¬ (Backend.memory (.new 1)).live.Claimed id := by
    rintro id ⟨w, e, he, -⟩
    cases he
  have hacts : ∀ outage, Action.breakQueue outage ∉ takeover := by
    intro outage hmem
    simp [takeover, Action.say] at hmem
  refine ⟨hholds, ?_⟩
  by_contra hlate
  rcases (claim_ends_duly_iff hsound hfree hacts (.work "a" minuteLater) hholds).2 hlate hgone with
    ⟨clock, heq, -⟩ | ⟨clock, timeout, heq, -⟩
  · simp at heq
  · cases heq

end Floor
end JobGate
