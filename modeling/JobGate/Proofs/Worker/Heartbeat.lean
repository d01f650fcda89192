/-
A heartbeat keeps a claim.

While a run is executed, a heartbeat sleeps and renews the claim by turns.  It sleeps in
slices and looks before each whether the executor has ended.  Time passes only while it
sleeps, and meanwhile others may call the queue as they like, as long as nobody ends the
claim by hand or sweeps with a shorter timeout than the one that the heartbeat is for.

A claim is then never older than the time between two renewals, which is at most a third
of any timeout that settings can ask for (`heartbeatInterval_le`).  That is the invariant:
one step of anybody preserves it (`Beating.step`), and it leaves no sweep and no other
worker a chance.

Nor does a heartbeat stop renewing the claim: from wherever it stands, steps of its own
lead to every later time, and by then it has renewed the claim at every moment at which
that was due (`Beating.onward`).  `heartbeat_keeps_claim` says both.
-/
import JobGate.Proofs.Queue.Dated
import JobGate.Proofs.Settings.Usable
import JobGate.Proofs.Time.Sleep

namespace JobGate

/-- A worker that executes a run, with the heartbeat that renews its claim meanwhile. -/
structure Heartbeat where
  site : Site Backend
  clock : Clock
  task : Task
  /-- What is left of the slice that the heartbeat sleeps. -/
  slice : Nat := 0
  /-- How long it has to sleep behind that slice before it renews the claim. -/
  rest : Nat
  /-- Whether the executor has ended. -/
  stopped : Bool := false
  /-- What others have called so far. -/
  calls : List QueueEvent := []
  /-- The renewals so far, each with the elapsed time. -/
  renewals : List (Nat × Except QueueError Unit) := []

namespace Heartbeat

inductive Step
  /-- Somebody else calls the queue. -/
  | call (op : QueueOp)
  /-- Time passes, up to the end of the slice. -/
  | pass (length : Nat)
  /-- The heartbeat wakes up at the end of a slice.  It sleeps on, renews the claim when
  there is nothing left to sleep, or ends. -/
  | wake
  /-- The executor ends. -/
  | stop
deriving DecidableEq

def start (site : Site Backend) (clock : Clock) (entry : QueuedDispatch) (interval : Nat) :
    Heartbeat :=
  { site, clock, task := .executing entry false, rest := interval }

def lost (b : Heartbeat) : Bool :=
  match b.task with
  | .executing _ lost => lost
  | _ => false

variable (worker : String) (interval : Nat)

def step (b : Heartbeat) : Step → Heartbeat
  | .call op =>
    let (answer, site) := b.site.callQueue (ExecutionQueue.perform · ⟨b.clock, op⟩)
    { b with site, calls := b.calls ++ [⟨⟨b.clock, op⟩, answer⟩] }
  | .pass length =>
    let length := min length b.slice
    { b with clock := b.clock.advance length, slice := b.slice - length }
  | .wake =>
    if b.slice ≠ 0 ∨ b.stopped = true ∨ b.lost = true then b
    else if b.rest = 0 then
      let (result, task, site) := b.task.renew b.clock worker b.site
      { b with
        site, task, rest := interval, renewals := b.renewals ++ [(b.clock.elapsed, result)] }
    else
      let slice := min b.rest Token.slice
      { b with slice, rest := b.rest - slice }
  | .stop => { b with stopped := true }

def run (b : Heartbeat) (steps : List Step) : Heartbeat := steps.foldl (step worker interval) b

def after (site : Site Backend) (clock : Clock) (entry : QueuedDispatch) (steps : List Step) :
    Heartbeat := (start site clock entry interval).run worker interval steps

theorem run_append (b : Heartbeat) (steps steps' : List Step) :
    b.run worker interval (steps ++ steps') =
      (b.run worker interval steps).run worker interval steps' := List.foldl_append ..

theorem run_concat (b : Heartbeat) (steps : List Step) (a : Step) :
    b.run worker interval (steps ++ [a]) = (b.run worker interval steps).step worker interval a :=
  run_append ..

end Heartbeat

/-! ## What a heartbeat keeps -/

/-- A renewal that succeeds tells the worker nothing new. -/
theorem Task.renew_ok {Q : Type} [ExecutionQueue Q] {site : Site Q} {clock : Clock}
    {worker : String} {entry : QueuedDispatch} {lost : Bool}
    (h : (ExecutionQueue.renew site.queue clock entry.id worker).1 = .ok ()) :
    Task.renew clock worker (.executing entry lost) site = (.ok (), .executing entry lost,
      { site with queue := (ExecutionQueue.renew site.queue clock entry.id worker).2 }) := by
  simp only [Task.renew, Site.callQueue, h]

/-- The entry that a worker was handed, as it stands in the queue while the worker has
claimed it. -/
def QueuedDispatch.heldBy (d : QueuedDispatch) (worker : String) : LiveEntry :=
  ⟨d.id, d.run.text, d.jobKey, d.attempts, some worker⟩

/-- Whether an operation of somebody else is about something else than a claim, and sweeps,
if it does, with some timeout or a longer one. -/
def QueueOp.Spares (x : LiveEntry) (timeout : Nat) (op : QueueOp) : Prop :=
  op.LeavesAlone x ∧ ∀ length, op = .reclaim length → timeout ≤ length

namespace Heartbeat

/-- The claim of an entry has been kept since it was made at some clock. -/
structure Kept (worker : String) (entry : QueuedDispatch) (timeout : Nat) (began : Clock)
    (b : Heartbeat) : Prop where
  /-- The entry stands as it was handed out, and nobody else has been given it.  An entry that a
  sweep recovers counts one attempt more. -/
  held : entry.heldBy worker ∈ b.site.queue.live.entries
  /-- A sweep would not recover it now. -/
  young : ∀ length, timeout ≤ length → b.site.queue.stale b.clock length entry.id = false
  alone : ∀ e ∈ b.calls, ∀ d, e.answer = .claimed (.ok (some d)) → d.id ≠ entry.id
  task : b.task = .executing entry false
  /-- Every renewal came when it was due, and succeeded. -/
  renewed : b.renewals = (List.range b.renewals.length).map fun k =>
    (began.elapsed + (k + 1) * heartbeatInterval timeout, .ok ())
  /-- No renewal that was due is left out, and the next one comes when it is due. -/
  timely : began.elapsed + b.renewals.length * heartbeatInterval timeout ≤ b.clock.elapsed
  next : b.clock.elapsed + b.slice + b.rest =
    began.elapsed + (b.renewals.length + 1) * heartbeatInterval timeout

/-- What every step preserves: the claim dates from a clock that the time slept so far
separates from now. -/
structure Beating (worker : String) (entry : QueuedDispatch) (timeout : Nat) (began : Clock)
    (b : Heartbeat) : Prop where
  sound : b.site.queue.Sound
  sleeps : b.slice + b.rest ≤ heartbeatInterval timeout
  dated : ∃ since, b.site.queue.Dated (entry.heldBy worker) since ∧
    since.Within (heartbeatInterval timeout - (b.slice + b.rest)) b.clock
  alone : ∀ e ∈ b.calls, ∀ d, e.answer = .claimed (.ok (some d)) → d.id ≠ entry.id
  task : b.task = .executing entry false
  renewed : b.renewals = (List.range b.renewals.length).map fun k =>
    (began.elapsed + (k + 1) * heartbeatInterval timeout, .ok ())
  next : b.clock.elapsed + b.slice + b.rest =
    began.elapsed + (b.renewals.length + 1) * heartbeatInterval timeout

variable {worker : String} {entry : QueuedDispatch} {timeout : Nat} {began : Clock}
  {b : Heartbeat}

/-- A claim that is not older than the time between two renewals is not old for a sweep. -/
theorem isOld_of_sleeps (hsecond : Duration.perSecond ≤ timeout) {since now : Clock} {left : Nat}
    (h : since.Within (heartbeatInterval timeout - left) now) {length : Nat}
    (hlength : timeout ≤ length) (q : Backend) : q.isOld since now length = false := by
  refine Backend.isOld_of_within h ?_ q
  have := heartbeatInterval_le hsecond
  unfold Duration.perSecond at hsecond
  unfold Duration.perMilli
  omega

namespace Beating

theorem start {site : Site Backend} (hsound : site.queue.Sound)
    (hdated : site.queue.Dated (entry.heldBy worker) began) :
    Beating worker entry timeout began
      (Heartbeat.start site began entry (heartbeatInterval timeout)) where
  sound := hsound
  sleeps := by
    show 0 + heartbeatInterval timeout ≤ _
    omega
  dated := ⟨began, hdated, .refl began _⟩
  alone e he := absurd he List.not_mem_nil
  task := rfl
  renewed := rfl
  next := by
    show began.elapsed + 0 + heartbeatInterval timeout = began.elapsed + (0 + 1) * _
    omega

theorem lost_eq (h : Beating worker entry timeout began b) : b.lost = false := by
  unfold lost
  rw [h.task]

/-- Between two renewals no time is left out. -/
theorem timely (h : Beating worker entry timeout began b) :
    began.elapsed + b.renewals.length * heartbeatInterval timeout ≤ b.clock.elapsed := by
  have hsleeps := h.sleeps
  have hnext := h.next
  rw [Nat.add_mul, Nat.one_mul] at hnext
  omega

theorem kept (h : Beating worker entry timeout began b)
    (hsecond : Duration.perSecond ≤ timeout) : Kept worker entry timeout began b where
  held := by
    obtain ⟨since, hdated, -⟩ := h.dated
    exact hdated.mem
  young length hlength := by
    obtain ⟨since, hdated, hwithin⟩ := h.dated
    have hstale := hdated.stale_eq h.sound b.clock length
    rw [isOld_of_sleeps hsecond hwithin hlength] at hstale
    exact hstale
  alone := h.alone
  task := h.task
  renewed := h.renewed
  timely := h.timely
  next := h.next

theorem call (h : Beating worker entry timeout began b) (hsecond : Duration.perSecond ≤ timeout)
    {op : QueueOp} (hop : op.Spares (entry.heldBy worker) timeout) (interval : Nat) :
    Beating worker entry timeout began (b.step worker interval (.call op)) := by
  obtain ⟨since, hdated, hwithin⟩ := h.dated
  refine ⟨(Backend.perform_steps h.sound _).1, h.sleeps, ⟨since, ?_, hwithin⟩, ?_, h.task,
    h.renewed, h.next⟩
  · exact hdated.perform h.sound hop.1 fun length hlength =>
      isOld_of_sleeps hsecond hwithin (hop.2 length hlength) _
  · intro e he d hd
    rcases List.mem_append.1 he with he | he
    · exact h.alone e he d hd
    · rw [List.mem_singleton.1 he] at hd
      -- only a claim is answered with an entry
      cases op with
      | claim other => exact hdated.claim_ne h.sound rfl (QueueAnswer.claimed.inj hd)
      | offer _ _ | complete _ _ _ | release _ _ | renew _ _ | reclaim _ | depth => cases hd

theorem pass (h : Beating worker entry timeout began b) (length interval : Nat) :
    Beating worker entry timeout began (b.step worker interval (.pass length)) := by
  obtain ⟨since, hdated, hwithin⟩ := h.dated
  have hsleeps := h.sleeps
  have hnext := h.next
  have hmin : min length b.slice ≤ b.slice := Nat.min_le_right _ _
  refine ⟨h.sound, ?_, ⟨since, hdated, ?_⟩, h.alone, h.task, h.renewed, ?_⟩
  · show b.slice - min length b.slice + b.rest ≤ _
    omega
  · have hmoved := hwithin.advance (min length b.slice)
    rw [show heartbeatInterval timeout - (b.slice + b.rest) + min length b.slice =
      heartbeatInterval timeout - (b.slice - min length b.slice + b.rest) by omega] at hmoved
    exact hmoved
  · show b.clock.elapsed + min length b.slice + (b.slice - min length b.slice) + b.rest =
      began.elapsed + (b.renewals.length + 1) * _
    omega

theorem wake (h : Beating worker entry timeout began b) :
    Beating worker entry timeout began (b.step worker (heartbeatInterval timeout) .wake) := by
  obtain ⟨since, hdated, hwithin⟩ := h.dated
  unfold Heartbeat.step
  dsimp only
  split_ifs with hrests hdue
  · exact h
  · have hslice : b.slice = 0 := by
      by_contra hne
      exact hrests (.inl hne)
    have hnext := h.next
    rw [hslice, hdue] at hnext
    obtain ⟨hanswer, hrenewed⟩ := hdated.renew h.sound rfl b.clock
    have hsound := (Backend.renew_answers h.sound b.clock entry.id worker).1
    rw [h.task, Task.renew_ok hanswer]
    refine ⟨hsound, ?_, ⟨b.clock, hrenewed, .refl _ _⟩, h.alone, rfl, ?_, ?_⟩
    · show b.slice + heartbeatInterval timeout ≤ _
      omega
    · show b.renewals ++ [(b.clock.elapsed, .ok ())] = _
      rw [List.length_append, List.length_singleton, List.range_succ, List.map_append, ← h.renewed,
        List.map_singleton, ← hnext]
      rfl
    · show b.clock.elapsed + b.slice + heartbeatInterval timeout =
        began.elapsed + ((b.renewals ++ [_]).length + 1) * heartbeatInterval timeout
      rw [List.length_append, List.length_singleton, Nat.add_mul (_ + 1), Nat.one_mul]
      omega
  · have hslice : b.slice = 0 := by
      by_contra hne
      exact hrests (.inl hne)
    have hsleeps := h.sleeps
    have hnext := h.next
    have hmin : min b.rest Token.slice ≤ b.rest := Nat.min_le_left _ _
    refine ⟨h.sound, ?_, ⟨since, hdated, ?_⟩, h.alone, h.task, h.renewed, ?_⟩
    · show min b.rest Token.slice + (b.rest - min b.rest Token.slice) ≤ _
      omega
    · show since.Within
        (heartbeatInterval timeout - (min b.rest Token.slice + (b.rest - min b.rest Token.slice))) _
      rw [show min b.rest Token.slice + (b.rest - min b.rest Token.slice) = b.slice + b.rest by
        omega]
      exact hwithin
    · show b.clock.elapsed + min b.rest Token.slice + (b.rest - min b.rest Token.slice) =
        began.elapsed + (b.renewals.length + 1) * _
      omega

theorem stop (h : Beating worker entry timeout began b) (interval : Nat) :
    Beating worker entry timeout began (b.step worker interval .stop) :=
  ⟨h.sound, h.sleeps, h.dated, h.alone, h.task, h.renewed, h.next⟩

theorem step (h : Beating worker entry timeout began b) (hsecond : Duration.perSecond ≤ timeout)
    {a : Step} (ha : ∀ op, a = .call op → op.Spares (entry.heldBy worker) timeout) :
    Beating worker entry timeout began (b.step worker (heartbeatInterval timeout) a) := by
  cases a with
  | call op => exact h.call hsecond (ha op rfl) _
  | pass length => exact h.pass length _
  | wake => exact h.wake
  | stop => exact h.stop _

theorem run (h : Beating worker entry timeout began b) (hsecond : Duration.perSecond ≤ timeout)
    {steps : List Step}
    (hsteps : ∀ op, .call op ∈ steps → op.Spares (entry.heldBy worker) timeout) :
    Beating worker entry timeout began (b.run worker (heartbeatInterval timeout) steps) := by
  induction steps using List.reverseRecOn with
  | nil => exact h
  | append_singleton steps a ih =>
    rw [run_concat]
    refine (ih fun op hop => hsteps op (List.mem_append_left _ hop)).step hsecond fun op hop => ?_
    exact hsteps op (List.mem_append_right _ (hop ▸ List.mem_singleton_self _))

end Beating
end Heartbeat

/-! ## How far a heartbeat comes -/

namespace Heartbeat

def Step.IsOwn : Step → Prop
  | .wake | .pass _ => True
  | .call _ | .stop => False

def naps (lengths : List Nat) : List Step := lengths.flatMap fun length => [.wake, .pass length]

theorem isOwn_of_mem_naps {lengths : List Nat} : ∀ a ∈ naps lengths, a.IsOwn := by
  intro a ha
  obtain ⟨length, -, ha⟩ := List.mem_flatMap.1 ha
  rcases List.mem_cons.1 ha with rfl | ha
  · trivial
  · rw [List.mem_singleton.1 ha]
    trivial

variable {worker : String} {interval timeout : Nat} {entry : QueuedDispatch} {began : Clock}
  {b : Heartbeat}

theorem not_asleep (hslice : b.slice = 0) (hgoes : b.stopped = false) (hholds : b.lost = false) :
    ¬ (b.slice ≠ 0 ∨ b.stopped = true ∨ b.lost = true) := by
  simp [hslice, hgoes, hholds]

theorem wake_eq (hslice : b.slice = 0) (hgoes : b.stopped = false) (hholds : b.lost = false)
    (hrest : b.rest ≠ 0) : b.step worker interval .wake =
      { b with slice := min b.rest Token.slice, rest := b.rest - min b.rest Token.slice } := by
  simp only [step, if_neg (not_asleep hslice hgoes hholds), if_neg hrest]

theorem wake_due (hslice : b.slice = 0) (hgoes : b.stopped = false) (hholds : b.lost = false)
    (hrest : b.rest = 0) : ∃ site task result, b.step worker interval .wake = { b with
      site, task, rest := interval, renewals := b.renewals ++ [(b.clock.elapsed, result)] } := by
  simp only [step, if_neg (not_asleep hslice hgoes hholds), if_pos hrest]
  exact ⟨_, _, _, rfl⟩

/-- A heartbeat sleeps in the slices of a sleeper with a token that nobody raises. -/
theorem run_naps (hgoes : b.stopped = false) (hholds : b.lost = false) {total : Nat}
    (htotal : total ≤ b.rest) (hslice : b.slice = 0 ∨ total = 0) (elapsed : Nat) :
    ∃ clock slice rest,
      b.run worker interval (naps (Token.slices {} elapsed total)) =
        { b with clock, slice, rest } ∧
      clock.elapsed = b.clock.elapsed + total ∧ slice + rest + total = b.slice + b.rest := by
  induction total using Nat.strong_induction_on generalizing b elapsed with
  | _ total ih =>
    by_cases hpos : total = 0
    · rw [Token.slices, if_pos (.inl hpos), hpos]
      exact ⟨b.clock, b.slice, b.rest, rfl, rfl, rfl⟩
    · have hslice : b.slice = 0 := hslice.resolve_right hpos
      have hstep : 0 < min total Token.slice :=
        Nat.lt_min.2 ⟨Nat.pos_of_ne_zero hpos, Token.slice_pos⟩
      let awake : Heartbeat :=
        { b with slice := min b.rest Token.slice, rest := b.rest - min b.rest Token.slice }
      have hwake : b.step worker interval .wake = awake :=
        wake_eq hslice hgoes hholds (by omega)
      obtain ⟨clock, slice, rest, hrun, helapsed, hleft⟩ := ih (total - min total Token.slice)
        (by omega) (b := awake.step worker interval (.pass (min total Token.slice))) hgoes hholds
        (by show _ ≤ b.rest - min b.rest Token.slice; omega)
        (by show min b.rest _ - min (min total _) (min b.rest _) = 0 ∨ _; omega)
        (elapsed + min total Token.slice)
      have hnap : min (min total Token.slice) (min b.rest Token.slice) = min total Token.slice := by
        omega
      refine ⟨clock, slice, rest, ?_, ?_, ?_⟩
      · rw [Token.slices, if_neg (by simp [hpos])]
        show (b.step _ _ .wake).run _ _ (.pass _ :: naps (Token.slices {} _ _)) = _
        rw [hwake]
        exact hrun
      · rw [helapsed]
        show b.clock.elapsed + min (min total _) (min b.rest _) + _ = _
        omega
      · show _ = b.slice + b.rest
        change _ =
          min b.rest _ - min (min total _) (min b.rest _) + (b.rest - min b.rest _) at hleft
        omega

/-- On its own the heartbeat comes to any time until its next renewal. -/
theorem exists_moment (hgoes : b.stopped = false) (hholds : b.lost = false) {elapsed : Nat}
    (hlow : b.clock.elapsed ≤ elapsed) (hhigh : elapsed ≤ b.clock.elapsed + b.slice + b.rest) :
    ∃ more, (∀ a ∈ more, a.IsOwn) ∧ ∃ clock slice rest,
      b.run worker interval more = { b with clock, slice, rest } ∧ clock.elapsed = elapsed ∧
        elapsed + slice + rest = b.clock.elapsed + b.slice + b.rest := by
  let left := elapsed - b.clock.elapsed
  let passed := b.step worker interval (.pass left)
  have hleft : left = elapsed - b.clock.elapsed := rfl
  have hclock : passed.clock.elapsed = b.clock.elapsed + min left b.slice := rfl
  have hslice : passed.slice = b.slice - min left b.slice := rfl
  have hrest : passed.rest = b.rest := rfl
  have htotal : left - b.slice ≤ passed.rest := by omega
  have hends : passed.slice = 0 ∨ left - b.slice = 0 := by omega
  obtain ⟨clock, slice, rest, hrun, helapsed, hrests⟩ :=
    run_naps (b := passed) hgoes hholds htotal hends 0
  refine ⟨.pass left :: naps (Token.slices {} 0 (left - b.slice)), ?_, clock, slice, rest, hrun,
    by omega, by omega⟩
  intro a ha
  rcases List.mem_cons.1 ha with rfl | ha
  · trivial
  · exact isOwn_of_mem_naps a ha

/-- A heartbeat has come from one state to another by steps of its own, and goes on. -/
structure Onward (worker : String) (entry : QueuedDispatch) (timeout : Nat) (began : Clock)
    (b b' : Heartbeat) : Prop where
  steps : ∃ more, (∀ a ∈ more, a.IsOwn) ∧ b' = b.run worker (heartbeatInterval timeout) more
  beating : Beating worker entry timeout began b'
  goes : b'.stopped = false

namespace Onward

theorem refl (h : Beating worker entry timeout began b) (hgoes : b.stopped = false) :
    Onward worker entry timeout began b b :=
  ⟨⟨[], fun _ ha => absurd ha List.not_mem_nil, rfl⟩, h, hgoes⟩

theorem trans {b' b'' : Heartbeat} (h : Onward worker entry timeout began b b')
    (h' : Onward worker entry timeout began b' b'') :
    Onward worker entry timeout began b b'' := by
  obtain ⟨more, hown, rfl⟩ := h.steps
  obtain ⟨more', hown', rfl⟩ := h'.steps
  refine ⟨⟨more ++ more', fun a ha => ?_, (run_append ..).symm⟩, h'.beating, h'.goes⟩
  exact (List.mem_append.1 ha).elim (hown a) (hown' a)

theorem of_run (h : Beating worker entry timeout began b) (hsecond : Duration.perSecond ≤ timeout)
    {more : List Step} (hown : ∀ a ∈ more, a.IsOwn) {b' : Heartbeat}
    (hrun : b.run worker (heartbeatInterval timeout) more = b') (hgoes : b'.stopped = false) :
    Onward worker entry timeout began b b' := by
  subst hrun
  exact ⟨⟨more, hown, rfl⟩, h.run hsecond fun op hop => (hown _ hop).elim, hgoes⟩

end Onward

namespace Beating

theorem moment (h : Beating worker entry timeout began b) (hsecond : Duration.perSecond ≤ timeout)
    (hgoes : b.stopped = false) {elapsed : Nat} (hlow : b.clock.elapsed ≤ elapsed)
    (hhigh : elapsed ≤ began.elapsed + (b.renewals.length + 1) * heartbeatInterval timeout) :
    ∃ b', Onward worker entry timeout began b b' ∧ b'.clock.elapsed = elapsed ∧
      b'.renewals = b.renewals := by
  rw [← h.next] at hhigh
  obtain ⟨more, hown, clock, slice, rest, hrun, helapsed, -⟩ :=
    exists_moment hgoes h.lost_eq hlow hhigh
  exact ⟨_, .of_run h hsecond hown hrun hgoes, helapsed, rfl⟩

theorem renewal (h : Beating worker entry timeout began b)
    (hsecond : Duration.perSecond ≤ timeout) (hgoes : b.stopped = false) :
    ∃ b', Onward worker entry timeout began b b' ∧
      b'.renewals.length = b.renewals.length + 1 ∧
      b'.clock.elapsed =
        began.elapsed + (b.renewals.length + 1) * heartbeatInterval timeout := by
  obtain ⟨due, honward, helapsed, hsame⟩ :=
    h.moment hsecond hgoes (by rw [← h.next]; omega) (Nat.le_refl _)
  -- nothing is left to sleep when the renewal falls due
  have hnext := honward.beating.next
  rw [hsame, helapsed] at hnext
  obtain ⟨site, task, result, hwake⟩ : ∃ site task result,
      due.step worker (heartbeatInterval timeout) .wake = { due with
        site, task, rest := heartbeatInterval timeout
        renewals := due.renewals ++ [(due.clock.elapsed, result)] } :=
    wake_due (by omega) honward.goes honward.beating.lost_eq (by omega)
  have hown : ∀ a ∈ [Step.wake], a.IsOwn := by
    intro a ha
    rw [List.mem_singleton.1 ha]
    trivial
  refine ⟨_, honward.trans (.of_run honward.beating hsecond hown hwake honward.goes), ?_, helapsed⟩
  rw [List.length_append, hsame, List.length_singleton]

theorem renewals (h : Beating worker entry timeout began b)
    (hsecond : Duration.perSecond ≤ timeout) (hgoes : b.stopped = false) (n : Nat) :
    ∃ b', Onward worker entry timeout began b b' ∧
      b'.renewals.length = b.renewals.length + n ∧
      b'.clock.elapsed ≤ max b.clock.elapsed
        (began.elapsed + (b.renewals.length + n) * heartbeatInterval timeout) := by
  induction n with
  | zero => exact ⟨b, .refl h hgoes, rfl, Nat.le_max_left _ _⟩
  | succ n ih =>
    obtain ⟨b', honward, hcount, -⟩ := ih
    obtain ⟨b'', honward', hcount', helapsed⟩ := honward.beating.renewal hsecond honward.goes
    refine ⟨b'', honward.trans honward', by omega, ?_⟩
    rw [helapsed, hcount, Nat.add_assoc]
    exact Nat.le_max_right _ _

/-- On its own the heartbeat comes to any later time, with all the renewals that fall due until
then. -/
theorem onward (h : Beating worker entry timeout began b) (hsecond : Duration.perSecond ≤ timeout)
    (hgoes : b.stopped = false) {elapsed : Nat} (hlow : b.clock.elapsed ≤ elapsed) :
    ∃ b', Onward worker entry timeout began b b' ∧ b'.clock.elapsed = elapsed ∧
      b'.renewals.length = (elapsed - began.elapsed) / heartbeatInterval timeout := by
  let due := (elapsed - began.elapsed) / heartbeatInterval timeout
  have hpos : 0 < heartbeatInterval timeout := heartbeatInterval_pos timeout
  have htimely := h.timely
  have hmade : b.renewals.length ≤ due := (Nat.le_div_iff_mul_le hpos).2 (by omega)
  have hbegan : began.elapsed ≤ elapsed := by omega
  have hlast : began.elapsed + due * heartbeatInterval timeout ≤ elapsed := by
    have hmul : due * heartbeatInterval timeout ≤ elapsed - began.elapsed := Nat.div_mul_le_self ..
    omega
  have hafter : elapsed ≤ began.elapsed + (due + 1) * heartbeatInterval timeout := by
    have hmul : elapsed - began.elapsed < heartbeatInterval timeout * (due + 1) :=
      Nat.lt_mul_div_succ _ hpos
    rw [Nat.mul_comm] at hmul
    omega
  obtain ⟨b', honward, hcount, hsoon⟩ := h.renewals hsecond hgoes (due - b.renewals.length)
  rw [Nat.add_sub_cancel' hmade] at hcount hsoon
  obtain ⟨b'', honward', helapsed, hsame⟩ :=
    honward.beating.moment hsecond honward.goes
      (Nat.le_trans hsoon (Nat.max_le.2 ⟨hlow, hlast⟩)) (by rw [hcount]; exact hafter)
  exact ⟨b'', honward.trans honward', helapsed, by rw [hsame, hcount]⟩

end Beating

theorem stopped_run {steps : List Step} (hsteps : .stop ∉ steps) :
    (b.run worker interval steps).stopped = b.stopped := by
  induction steps using List.reverseRecOn with
  | nil => rfl
  | append_singleton steps a ih =>
    obtain ⟨hbefore, ha⟩ : .stop ∉ steps ∧ .stop ≠ a := by
      rw [List.mem_append, List.mem_singleton, not_or] at hsteps
      exact hsteps
    rw [run_concat, ← ih hbefore]
    cases a with
    | call _ | pass _ => rfl
    | wake =>
      unfold step
      dsimp only
      split_ifs
      · rfl
      · rfl
      · rfl
    | stop => exact absurd rfl ha

end Heartbeat

/-- With any settings that can be used, on either kind of queue: from the moment at which a
worker claims an entry until its heartbeat ends, no sweep recovers the entry, nobody else is
given it, and every renewal comes when it is due and succeeds.  While the executor runs, the
heartbeat comes to any later time by steps of its own, and by then has made every renewal that
fell due. -/
theorem heartbeat_keeps_claim {s : Settings} (hs : s.fault? = none) {q q' : Backend}
    (hq : q.Sound) {worker : String} {began : Clock} {entry : QueuedDispatch}
    (hclaim : ExecutionQueue.claim q began worker = (.ok (some entry), q')) (o : Orchestrator)
    (outbox : Outbox) (steps : List Heartbeat.Step)
    (hothers : ∀ op, .call op ∈ steps →
      op.Spares (entry.heldBy worker) (Crew.ofSettings s).lockTimeout) :
    let crew := Crew.ofSettings s
    let beat := Heartbeat.after worker crew.heartbeat ⟨o, q', outbox⟩ began entry
    (beat steps).Kept worker entry crew.lockTimeout began ∧
      (.stop ∉ steps → ∀ elapsed, (beat steps).clock.elapsed ≤ elapsed →
        ∃ more : List Heartbeat.Step, (∀ a ∈ more, a.IsOwn) ∧
          (beat (steps ++ more)).Kept worker entry crew.lockTimeout began ∧
          (beat (steps ++ more)).clock.elapsed = elapsed ∧
          (beat (steps ++ more)).renewals =
            (List.range ((elapsed - began.elapsed) / crew.heartbeat)).map fun k =>
              (began.elapsed + (k + 1) * crew.heartbeat, .ok ())) := by
  intro crew beat
  have hsecond := Settings.perSecond_le_lockTimeout hs
  have hsound : q'.Sound := by
    have := (Backend.claim_answers hq began worker).1
    rwa [hclaim] at this
  have hbegins : Heartbeat.Beating worker entry crew.lockTimeout began
      (Heartbeat.start ⟨o, q', outbox⟩ began entry crew.heartbeat) :=
    .start hsound (Backend.dated_of_claim hq hclaim)
  have hbeating : Heartbeat.Beating worker entry crew.lockTimeout began (beat steps) :=
    hbegins.run hsecond hothers
  refine ⟨hbeating.kept hsecond, fun hgoes elapsed hlater => ?_⟩
  obtain ⟨b, honward, helapsed, hcount⟩ :=
    hbeating.onward hsecond (Heartbeat.stopped_run hgoes) hlater
  obtain ⟨more, hown, rfl⟩ := honward.steps
  have hrun : beat (steps ++ more) = (beat steps).run worker crew.heartbeat more :=
    Heartbeat.run_append ..
  have hkept := honward.beating.kept hsecond
  refine ⟨more, hown, ?_, ?_, ?_⟩
  · rw [hrun]
    exact hkept
  · rw [hrun]
    exact helapsed
  · rw [hrun]
    refine hkept.renewed.trans ?_
    rw [hcount]
    rfl

/-- A sweep and another worker come by right before a renewal and right after it, when the entry
was claimed for longer than the timeout. -/
theorem heartbeat_keeps_claim_swept :
    let s : Settings := { queue := { lockTimeout := 1 } }
    let crew := Crew.ofSettings s
    let waiting := (ExecutionQueue.offer (Backend.new .table 1) default
      ⟨⟨"run-0-0000", by decide⟩, "backup"⟩ false).2
    let claimed := ExecutionQueue.claim waiting default "worker-1"
    let entry : QueuedDispatch := ⟨1, ⟨"run-0-0000", by decide⟩, "backup", 0⟩
    let naps (n : Nat) := Heartbeat.naps (List.replicate n Token.slice)
    let others : List Heartbeat.Step :=
      [.call (.reclaim crew.lockTimeout), .call (.claim "worker-2")]
    let steps := naps 31 ++ others ++ naps 1 ++ others
    let beat := Heartbeat.after "worker-1" crew.heartbeat ⟨.new .requesterOnly, claimed.2, {}⟩
      default entry
    s.fault? = none ∧ waiting.Sound ∧ claimed.1 = .ok (some entry) ∧
      crew.lockTimeout < (beat steps).clock.elapsed ∧
      (beat steps).Kept "worker-1" entry crew.lockTimeout default ∧
      (beat steps).renewals = [(333333333, .ok ()), (666666666, .ok ()), (999999999, .ok ()),
        (1333333332, .ok ())] ∧
      ∃ more : List Heartbeat.Step,
        (beat (steps ++ more)).clock.elapsed = 60 * Duration.perSecond ∧
          (beat (steps ++ more)).renewals.length = 180 := by
  intro s crew waiting claimed entry naps others steps beat
  have hsound : waiting.Sound := (Backend.offer_answers (Backend.new_sound .table 1) _ _ _).1
  have hanswer : claimed.1 = .ok (some entry) := by rfl
  have hclaim : ExecutionQueue.claim waiting default "worker-1" =
      (.ok (some entry), claimed.2) := Prod.ext hanswer rfl
  have hvisits : ∀ op, .call op ∈ others →
      op.Spares (entry.heldBy "worker-1") crew.lockTimeout := by
    intro op hop
    rcases List.mem_cons.1 hop with hop | hop
    · cases hop
      exact ⟨trivial, fun length hlength => Nat.le_of_eq (QueueOp.reclaim.inj hlength)⟩
    · cases List.mem_singleton.1 hop
      exact ⟨trivial, nofun⟩
  have hothers : ∀ op, .call op ∈ steps →
      op.Spares (entry.heldBy "worker-1") crew.lockTimeout := by
    intro op hop
    simp only [steps, List.mem_append] at hop
    rcases hop with ((hop | hop) | hop) | hop
    · exact (Heartbeat.isOwn_of_mem_naps _ hop).elim
    · exact hvisits op hop
    · exact (Heartbeat.isOwn_of_mem_naps _ hop).elim
    · exact hvisits op hop
  have hinterval : (Crew.ofSettings s).heartbeat = 333333333 := by decide +kernel
  have helapsed : (beat steps).clock.elapsed = 1333333332 := by decide +kernel
  have hcount : (beat steps).renewals.length = 4 := by decide +kernel
  have hgoes : .stop ∉ steps := by decide
  have hlate : (beat steps).clock.elapsed ≤ 60 * Duration.perSecond := by
    rw [helapsed]
    decide
  obtain ⟨hkept, honward⟩ := heartbeat_keeps_claim (s := s) rfl hsound hclaim
    (.new .requesterOnly) {} steps hothers
  obtain ⟨more, -, -, hlater, hrenewals⟩ := by with_reducible exact honward hgoes _ hlate
  refine ⟨rfl, hsound, hanswer, ?_, hkept, ?_, more, ?_, ?_⟩
  · rw [helapsed]
    decide
  · with_reducible refine hkept.renewed.trans ?_
    with_reducible show (List.range (beat steps).renewals.length).map _ = _
    rw [hcount]
    show (List.range 4).map (fun k => (0 + (k + 1) * (Crew.ofSettings s).heartbeat, _)) = _
    rw [hinterval]
    rfl
  · with_reducible exact hlater
  · with_reducible refine (congrArg List.length hrenewals).trans ?_
    rw [List.length_map, List.length_range, hinterval]
    rfl

end JobGate
