/-
Claims are in hand.

While no call of the queue fails, a worker that holds an entry is dealing with that
very entry, and has not noticed anything else (`Scene.InHand`).  Some ends of a task do
not touch the queue: a worker that finds its claim over, or has noticed so before,
leaves the entry alone.  It holds nothing then, so once nobody has anything in hand no
entry is claimed.
-/
import JobGate.Proofs.Floor.Progress

namespace JobGate

namespace Task

def holding? : Task → Option Int
  | claimed entry | completing entry _ _ _ | yielding entry | rejecting entry _ => some entry.id
  | executing entry lost | reporting entry _ lost => if lost then none else some entry.id
  | done _ => none

theorem pending?_of_holding {t : Task} {id : Int} (h : t.holding? = some id) :
    t.pending? = some t := by
  cases t with
  | done result => cases h
  | _ => rfl

theorem entry?_of_holding {t : Task} {id : Int} (h : t.holding? = some id) :
    ∃ entry, t.entry? = some entry ∧ entry.id = id := by
  cases t with
  | done result => cases h
  | executing entry lost | reporting entry report lost =>
    cases lost with
    | true => cases h
    | false => exact ⟨entry, rfl, Option.some.inj h⟩
  | claimed entry | yielding entry => exact ⟨entry, rfl, Option.some.inj h⟩
  | completing entry success error disposition => exact ⟨entry, rfl, Option.some.inj h⟩
  | rejecting entry error => exact ⟨entry, rfl, Option.some.inj h⟩

theorem holding?_of_ending {t : Task} {entry : QueuedDispatch} (h : t.ending? = some entry) :
    t.holding? = some entry.id := by
  cases t with
  | completing | yielding | rejecting => cases h; rfl
  | claimed | executing | reporting | done => cases h

theorem ending?_of_returned {t : Task} {entry : QueuedDispatch} (h : t.returned? = some entry) :
    t.ending? = some entry := by
  cases t with
  | yielding | rejecting => exact h
  | claimed | executing | reporting | completing | done => cases h

/-- Once a worker has noticed the loss of its claim, it never believes to hold it
again. -/
theorem Goes.holding? {worker : String} {s s' : RunStore} {a : Action} {t t' : Task}
    (h : Goes worker s s' a t t') {id : Int} (hid : t'.holding? = some id) :
    t.holding? = some id := by
  cases h with
  | noticed entry => cases hid
  | _ => exact hid

/-- A report changes nothing in what a worker believes to hold. -/
theorem holding?_reported {report : Report} {stopped lost : Bool} {entry : QueuedDispatch}
    {id : Int} (h : (executing entry lost).holding? = some id) :
    (reported report stopped (.executing entry lost)).holding? = some id := by
  unfold Task.reported
  by_cases hstop : (!report.success && stopped) = true
  · simp only [hstop, if_true]
    cases lost with
    | true => cases h
    | false => exact h
  · simp only [hstop, Bool.false_eq_true, if_false]
    exact h

end Task

namespace Scene

/-- Whoever holds an entry is dealing with it, and does not believe otherwise. -/
def InHand (s : Scene) : Prop :=
  ∀ worker id, s.queue.Holds worker id → ∃ t, s.tasks worker = some t ∧ t.holding? = some id

theorem InHand.fewer {s : Scene} (hs : s.InHand) {queue : LiveQueue}
    (hsub : ∀ w id, queue.Holds w id → s.queue.Holds w id) : { s with queue }.InHand :=
  fun w id hw => hs w id (hsub w id hw)

/-- A worker goes on with its entry, while nobody else claims one. -/
theorem InHand.hand {s : Scene} (hs : s.InHand) {queue : LiveQueue} {worker : String}
    {t t' : Task} (htask : s.tasks worker = some t)
    (hsub : ∀ w id, queue.Holds w id → s.queue.Holds w id)
    (hkeep : ∀ id, t.holding? = some id → queue.Holds worker id → t'.holding? = some id) :
    ({ s with queue }.hand worker t').InHand := by
  intro w id hw
  obtain ⟨x, hx, hid⟩ := hs w id (hsub w id hw)
  by_cases hworker : w = worker
  · subst hworker
    have hsame : x = t := Option.some.inj (hx.symm.trans htask)
    have hnew := hkeep id (hsame ▸ hid) hw
    exact ⟨t', hand_tasks_self.trans (Task.pending?_of_holding hnew), hnew⟩
  · exact ⟨x, (hand_tasks_of_ne hworker).trans hx, hid⟩

end Scene

theorem Move.inHand {stale : Clock → Nat → Int → Bool} {s s' : Scene} {a : Action}
    (h : Move True stale s a s') (hq : s.queue.Sound) (hs : s.InHand) : s'.InHand := by
  -- a worker that ends a claim, or finds it over, holds nothing afterwards
  have hrest : ∀ {worker : String} {t t' : Task} (_ : s.tasks worker = some t)
      (_ : ∀ id, t.holding? = some id → s.queue.Holds worker id → t'.holding? = some id),
      (s.hand worker t').InHand :=
    fun htask hkeep => hs.hand htask (fun _ _ hw => hw) hkeep
  cases h with
  | still _ | dispatched _ _ | heard _ _ _ | gaveUp _ _ | abandoned _ _ | answered _ _
  | endedRuns _ _ => exact hs
  | enqueued _ _ => exact hs.fewer fun _ _ hw => LiveQueue.holds_add.1 hw
  | discarded _ _ _ => exact hs.fewer fun _ _ hw => (LiveQueue.holds_remove.1 hw).1
  | reclaimed => exact hs.fewer fun _ _ hw => ((LiveQueue.holds_free hq).1 hw).1
  | @took worker clock e entry hfree hfirst hid _ _ _ =>
    intro w id hw
    rcases (LiveQueue.holds_hold (LiveQueue.of_first? hfirst).1).1 hw with ⟨rfl, rfl⟩ | ⟨-, hw⟩
    · exact ⟨.claimed entry, Scene.hand_tasks_self, congrArg some hid⟩
    · obtain ⟨x, hx, hold⟩ := hs w id hw
      have hne : w ≠ worker := by
        rintro rfl
        cases hfree.symm.trans hx
      exact ⟨x, (Scene.hand_tasks_of_ne hne).trans hx, hold⟩
  | began htask _ => exact hrest htask fun _ hid _ => hid
  | skipped htask _ _ => exact hrest htask fun _ hid _ => hid
  | ended htask _ => exact hrest htask fun _ hid _ => hid
  | endedLost htask _ => exact hrest htask fun _ hid _ => by cases hid
  | reported htask => exact hrest htask fun _ hid _ => Task.holding?_reported hid
  | completed htask _ =>
    refine hs.hand htask (fun _ _ hw => (LiveQueue.holds_remove.1 hw).1) fun id hid hw => ?_
    exact absurd (Option.some.inj hid).symm (LiveQueue.holds_remove.1 hw).2
  | returned htask hreturned _ =>
    refine hs.hand htask (fun _ _ hw => ((LiveQueue.holds_free hq).1 hw).1) fun id hid hw => ?_
    rw [Task.holding?_of_ending (Task.ending?_of_returned hreturned)] at hid
    obtain ⟨⟨e, he, heid, -⟩, hnone⟩ := (LiveQueue.holds_free hq).1 hw
    simpa [heid, Option.some.inj hid] using hnone e he heid
  | endedLate htask hending hwhy =>
    refine hrest htask fun id hid hw => ?_
    rw [Task.holding?_of_ending hending] at hid
    rcases hwhy with hfree | hcalm
    · exact absurd ⟨_, Option.some.inj hid ▸ hw⟩ hfree
    · exact absurd trivial hcalm
  | finished htask => exact hrest htask fun _ hid _ => by cases hid
  | noticed htask hlost =>
    exact hrest htask fun id hid hw => absurd (Option.some.inj hid ▸ hw) hlost

namespace Floor

variable {o : Orchestrator} {q : Backend} {acts : List Action}

/-- Claims are in hand along every run. -/
theorem run_inHand (hq : q.Sound) (hfree : ∀ id, ¬ q.live.Claimed id)
    (hacts : ∀ outage, Action.breakQueue outage ∉ acts) :
    ((idle o q).run acts).Sound ∧ ((idle o q).run acts).Calm ∧
      ((idle o q).run acts).scene.InHand ∧ ((idle o q).run acts).scene.Matching := by
  refine calm_induction (f := idle o q) (P := fun s => s.InHand ∧ s.Matching) hq rfl ⟨?_, ?_⟩
    (fun h hq hs => ⟨h.inHand hq hs.1, h.matching hq hs.2⟩) hacts
  · exact fun worker id hw => absurd ⟨worker, hw⟩ (hfree id)
  · intro worker t entry ht
    cases ht

/-- Whoever holds an entry is between claiming that very entry and being through with
it.  Once nobody has anything in hand, nothing is claimed: what is live waits. -/
theorem claims_in_hand (hq : q.Sound) (hfree : ∀ id, ¬ q.live.Claimed id)
    (hacts : ∀ outage, Action.breakQueue outage ∉ acts) :
    (∀ e ∈ ((idle o q).run acts).scene.queue.entries, ∀ worker, e.holder = some worker →
      ∃ t entry, ((idle o q).run acts).tasks worker = some t ∧ t.entry? = some entry ∧
        entry.id = e.id ∧ entry.run.text = e.run ∧ entry.jobKey = e.jobKey) ∧
    ((∀ worker, ((idle o q).run acts).tasks worker = none) →
      (∀ e ∈ ((idle o q).run acts).scene.queue.entries, e.holder = none) ∧
      (ExecutionQueue.depth ((idle o q).run acts).site.queue).1 =
        .ok ⟨((idle o q).run acts).scene.queue.entries.length, 0⟩) := by
  obtain ⟨hsound, hcalm, hinHand, hmatching⟩ := run_inHand (o := o) hq hfree hacts
  generalize (idle o q).run acts = f at hsound hcalm hinHand hmatching ⊢
  constructor
  · intro e he worker hholder
    obtain ⟨t, ht, hid⟩ := hinHand worker e.id ⟨e, he, rfl, hholder⟩
    obtain ⟨entry, hentry, heid⟩ := Task.entry?_of_holding hid
    obtain ⟨hrun, hkey⟩ := (hmatching ht hentry).2 e he heid.symm
    exact ⟨t, entry, ht, hentry, heid, hrun.symm, hkey.symm⟩
  · intro hnobody
    have hwaits : ∀ e ∈ f.scene.queue.entries, e.holder = none := by
      intro e he
      cases hholder : e.holder with
      | none => rfl
      | some worker =>
        obtain ⟨t, ht, -⟩ := hinHand worker e.id ⟨e, he, rfl, hholder⟩
        cases (hnobody worker).symm.trans ht
    refine ⟨hwaits, ?_⟩
    have hnone : f.scene.queue.entries.countP (·.holder.isNone) = f.scene.queue.entries.length :=
      List.countP_eq_length.2 fun e he => by rw [hwaits e he]; rfl
    have hsome : f.scene.queue.entries.countP (·.holder.isSome) = 0 :=
      List.countP_eq_zero.2 fun e he => by rw [hwaits e he]; simp
    rw [depth_eq hsound hcalm, LiveQueue.depth, hnone, hsome]

/-- A worker claims the only entry that waits. -/
theorem claims_in_hand_of_one :
    let r : RunId := ⟨"run-0-0000", by decide⟩
    let q : MemoryQueue := ⟨1, 2, [{ dispatch := ⟨1, r, "backup", 0⟩ }], [1]⟩
    let f := (idle (.new .requesterOnly) (.memory q)).run [.claim "w" default]
    f.scene.queue.entries = [⟨1, "run-0-0000", "backup", 0, some "w"⟩] ∧
      ∃ t entry, f.tasks "w" = some t ∧ t.entry? = some entry ∧ entry.id = 1 ∧
        entry.run.text = "run-0-0000" ∧ entry.jobKey = "backup" := by
  intro r q f
  have hlive : f.scene.queue.entries = [⟨1, "run-0-0000", "backup", 0, some "w"⟩] := rfl
  refine ⟨hlive, ?_⟩
  have hsound : (Backend.memory q).Sound := ⟨by simp [q], by simp [q], rfl⟩
  refine (claims_in_hand hsound ?_ ?_).1 _ (hlive ▸ List.mem_cons_self) "w" rfl
  · rintro id ⟨worker, e, he, -, hw⟩
    cases List.mem_singleton.1 he
    cases hw
  · intro outage hmem
    cases List.mem_singleton.1 hmem

end Floor
end JobGate
