/-
Sleeps that can be broken off.

A sleep is slept in slices (`Token.slices`), one after the other, until it is over or the token is
raised.  A token that falls due is raised at the end of the slice that reaches that time.  So a
sleep takes its whole length before the token is raised, is cut short when it is raised, and does
not begin afterwards; in a sequence of sleeps on one token, the sum of their lengths tells which
of them is cut short (`Token.sleeps_until_due`).
-/
import JobGate.Time.Cancellation
import Mathlib.Algebra.Ring.Nat
import Mathlib.Data.List.Induction
import Mathlib.Tactic.SplitIfs

namespace JobGate
namespace Token

/-- The slices that are slept of what remains. -/
def slices (t : Token) (elapsed remaining : Nat) : List Nat :=
  if remaining = 0 ∨ t.raised = true then []
  else
    let step := min remaining slice
    step :: (t.reach (elapsed + step)).slices (elapsed + step) (remaining - step)
termination_by remaining
decreasing_by
  simp only [slice, Duration.ofMillis, Duration.perMilli]
  omega

def nap (now : Nat × Token) (length : Nat) : Nat × Token :=
  (now.1 + length, now.2.reach (now.1 + length))

/-- Whether a token falls due while somebody sleeps for some time.  A token is looked at after
slices only, so it never falls due where nobody sleeps. -/
def FallsDue (due : Option Nat) (start total : Nat) : Prop :=
  0 < total ∧ ∃ c, due = some c ∧ c ≤ start + total

variable {t : Token} {due : Option Nat} {start slept remaining total : Nat}

theorem slice_pos : 0 < slice := by decide

theorem reach_of_due {c : Nat} (hdue : t.due = some c) (h : c ≤ total) :
    t.reach total = ⟨true, some c⟩ := by
  obtain ⟨raised, due⟩ := t
  subst hdue
  simp [reach, h]

theorem reach_of_not_due (h : ∀ c, t.due = some c → total < c) : t.reach total = t := by
  obtain ⟨raised, due⟩ := t
  cases due with
  | none => simp [reach]
  | some c =>
    have hlt : ¬ c ≤ total := Nat.not_le.2 (h c rfl)
    simp [reach, hlt]

/-! ## One sleep -/

theorem sleepOn_of_raised (h : t.raised = true) (start slept remaining : Nat) :
    t.sleepOn start slept remaining = ⟨false, slept, t⟩ := by
  rw [sleepOn]
  split_ifs <;> simp [h]

/-- A sleep is its slices, slept one after the other. -/
theorem sleepOn_eq_naps (t : Token) (start slept remaining : Nat) :
    (t.slices (start + slept) remaining).foldl nap (start + slept, t) =
      (start + (t.sleepOn start slept remaining).slept,
        (t.sleepOn start slept remaining).token) := by
  fun_induction sleepOn start slept remaining t with
  | case1 slept t =>
    rw [slices, if_pos (.inl rfl)]
    rfl
  | case2 slept remaining t _ hraised =>
    rw [slices, if_pos (.inr hraised)]
    rfl
  | case3 slept remaining t hzero hraised step ih =>
    rw [slices, if_neg (by simp [hzero, hraised]), List.foldl_cons]
    rw [← Nat.add_assoc] at ih
    exact ih

theorem slices_bounds (t : Token) (elapsed remaining : Nat) :
    ∀ x ∈ t.slices elapsed remaining, 0 < x ∧ x ≤ slice := by
  fun_induction slices t elapsed remaining with
  | case1 => exact fun x hx => (List.not_mem_nil hx).elim
  | case2 t elapsed remaining hgoes step ih =>
    intro x hx
    rcases List.mem_cons.1 hx with rfl | hx
    · rw [not_or] at hgoes
      have hslice := slice_pos
      omega
    · exact ih x hx

/-- All slices but the last one are whole, so a sleep takes few of them. -/
theorem length_slices (t : Token) (elapsed remaining : Nat) :
    (t.slices elapsed remaining).length * slice < remaining + slice := by
  fun_induction slices t elapsed remaining with
  | case1 =>
    have hslice := slice_pos
    simp only [List.length_nil]
    omega
  | case2 t elapsed remaining hgoes step ih =>
    rw [not_or] at hgoes
    have hslice := slice_pos
    have hstep : step = min remaining slice := rfl
    rw [List.length_cons, Nat.succ_mul]
    rcases Nat.le_total remaining slice with hlast | hmore
    · -- nothing remains after the last slice
      rw [show remaining - step = 0 by omega, slices, if_pos (.inl rfl), List.length_nil]
      omega
    · omega

/-- No slice begins once the token is raised. -/
theorem slices_awake (t : Token) (elapsed remaining : Nat) :
    ∀ front x back, t.slices elapsed remaining = front ++ x :: back →
      (front.foldl nap (elapsed, t)).2.raised = false := by
  fun_induction slices t elapsed remaining with
  | case1 =>
    intro front x back h
    exact absurd h.symm (List.append_ne_nil_of_right_ne_nil _ (List.cons_ne_nil _ _))
  | case2 t elapsed remaining hgoes step ih =>
    intro front x back h
    cases front with
    | nil =>
      rw [not_or] at hgoes
      exact Bool.eq_false_iff.2 hgoes.2
    | cons y front =>
      obtain ⟨rfl, hrest⟩ := List.cons.inj h
      exact ih front x back hrest

/-- A sleep during which the token does not fall due takes its whole length, however it is
sliced. -/
theorem sleepOn_of_not_due (hraised : t.raised = false)
    (hdue : ¬ FallsDue t.due (start + slept) remaining) :
    t.sleepOn start slept remaining = ⟨true, slept + remaining, t⟩ := by
  fun_induction sleepOn start slept remaining t with
  | case1 slept t => rw [hraised]; rfl
  | case2 slept remaining t _ htrue => rw [hraised] at htrue; cases htrue
  | case3 slept remaining t hzero _ step ih =>
    have hlate : ∀ c, t.due = some c → start + slept + remaining < c := fun c hc =>
      Nat.lt_of_not_le fun hle => hdue ⟨Nat.pos_of_ne_zero hzero, c, hc, hle⟩
    have hstep : step ≤ remaining := Nat.min_le_left _ _
    have hreach : t.reach (start + slept + step) = t := reach_of_not_due fun c hc => by
      have := hlate c hc
      omega
    rw [hreach] at ih ⊢
    rw [ih hraised]
    · rw [show slept + step + (remaining - step) = slept + remaining by omega]
    · rintro ⟨-, c, hc, hle⟩
      have := hlate c hc
      omega

/-- A sleep during which the token falls due ends with the slice that reaches that time. -/
theorem sleepOn_of_due {c : Nat} (hraised : t.raised = false) (hdue : t.due = some c)
    (hpos : 0 < remaining) (hle : c ≤ start + slept + remaining) :
    ∃ k, 0 < k ∧
      t.sleepOn start slept remaining =
        ⟨false, slept + min remaining (k * slice), ⟨true, some c⟩⟩ ∧
      c ≤ start + (slept + min remaining (k * slice)) ∧
      start + (slept + min remaining (k * slice)) ≤ max c (start + slept) + slice := by
  fun_induction sleepOn start slept remaining t with
  | case1 slept t => omega
  | case2 slept remaining t _ htrue => rw [hraised] at htrue; cases htrue
  | case3 slept remaining t hzero _ step ih =>
    have hslice := slice_pos
    by_cases hreached : c ≤ start + slept + step
    · rw [reach_of_due hdue hreached, sleepOn_of_raised rfl]
      refine ⟨1, Nat.one_pos, ?_, ?_, ?_⟩
      · rw [Nat.one_mul]
      · omega
      · omega
    · have hreach : t.reach (start + slept + step) = t := reach_of_not_due fun c' hc' => by
        cases hdue.symm.trans hc'
        omega
      rw [hreach] at ih ⊢
      obtain ⟨k, hk, hsleep, hlow, hhigh⟩ := ih hraised hdue (by omega) (by omega)
      have hmore : slept + min remaining ((k + 1) * slice) =
          slept + step + min (remaining - step) (k * slice) := by
        rw [Nat.succ_mul]
        omega
      refine ⟨k + 1, Nat.succ_pos k, ?_, ?_, ?_⟩
      · rw [hmore, hsleep]
      · rw [hmore]
        exact hlow
      · rw [hmore]
        omega

theorem sleep_of_raised (h : t.raised = true) (start total : Nat) :
    t.sleep start total = ⟨false, 0, t⟩ := sleepOn_of_raised h start 0 total

theorem sleep_of_not_due (hraised : t.raised = false) (h : ¬ FallsDue t.due start total) :
    t.sleep start total = ⟨true, total, t⟩ := by
  have hstart : ¬ FallsDue t.due (start + 0) total := h
  rw [sleep, sleepOn_of_not_due hraised hstart, Nat.zero_add]

theorem sleep_of_due (hraised : t.raised = false) (h : FallsDue t.due start total) :
    ∃ c k, t.due = some c ∧
      t.sleep start total = ⟨false, min total (k * slice), ⟨true, some c⟩⟩ ∧
      c ≤ start + min total (k * slice) ∧
      start + min total (k * slice) ≤ max c start + slice := by
  obtain ⟨hpos, c, hc, hle⟩ := h
  have hstart : c ≤ start + 0 + total := hle
  obtain ⟨k, -, hsleep, hlow, hhigh⟩ := sleepOn_of_due hraised hc hpos hstart
  rw [Nat.zero_add] at hsleep hlow hhigh
  exact ⟨c, k, hc, hsleep, hlow, hhigh⟩

/-! ## Sleeps in turn -/

theorem fallsDue_add {more : Nat} (h : ¬ FallsDue due start total) :
    FallsDue due start (total + more) ↔ FallsDue due (start + total) more := by
  constructor
  · rintro ⟨hpos, c, hc, hle⟩
    refine ⟨Nat.pos_of_ne_zero fun hzero => h ?_, c, hc, by omega⟩
    subst hzero
    exact ⟨hpos, c, hc, hle⟩
  · rintro ⟨hpos, c, hc, hle⟩
    exact ⟨by omega, c, hc, by omega⟩

theorem FallsDue.add (h : FallsDue due start total) (more : Nat) :
    FallsDue due start (total + more) := by
  obtain ⟨hpos, c, hc, hle⟩ := h
  exact ⟨by omega, c, hc, by omega⟩

def wake (now : Nat × Token) (total : Nat) : Nat × Token :=
  let s := now.2.sleep now.1 total
  (now.1 + s.slept, s.token)

theorem sleepAll_append (t : Token) (start : Nat) (before after : List Nat) :
    t.sleepAll start (before ++ after) = t.sleepAll start before ++
      (before.foldl wake (start, t)).2.sleepAll (before.foldl wake (start, t)).1 after := by
  induction before generalizing t start with
  | nil => rfl
  | cons total before ih =>
    rw [List.cons_append, sleepAll, sleepAll, List.cons_append, ih]
    rfl

theorem foldl_wake_fst (t : Token) (start : Nat) (before : List Nat) :
    (before.foldl wake (start, t)).1 = start + ((t.sleepAll start before).map (·.slept)).sum := by
  induction before generalizing t start with
  | nil => rfl
  | cons total before ih =>
    rw [List.foldl_cons, wake, ih, sleepAll, List.map_cons, List.sum_cons, Nat.add_assoc]

/-- As long as the token has not fallen due, every sleep took its whole length. -/
theorem foldl_wake_of_not_due {before : List Nat} (h : ¬ FallsDue due start before.sum) :
    before.foldl wake (start, { due }) = (start + before.sum, { due }) := by
  induction before using List.reverseRecOn with
  | nil => rfl
  | append_singleton before total ih =>
    rw [List.sum_append, List.sum_singleton] at h ⊢
    have hbefore : ¬ FallsDue due start before.sum := fun hdue => h (hdue.add total)
    rw [List.foldl_append, ih hbefore]
    rw [fallsDue_add hbefore] at h
    show wake (start + before.sum, { due }) total = _
    rw [wake, sleep_of_not_due rfl h, Nat.add_assoc]

/-- Once the token has fallen due, it is raised. -/
theorem foldl_wake_of_due {before : List Nat} (h : FallsDue due start before.sum) :
    (before.foldl wake (start, { due })).2 = { raised := true, due } := by
  induction before using List.reverseRecOn with
  | nil => exact absurd h.1 (Nat.lt_irrefl 0)
  | append_singleton before total ih =>
    rw [List.sum_append, List.sum_singleton] at h
    rw [List.foldl_append]
    show (wake (before.foldl wake (start, { due })) total).2 = _
    by_cases hbefore : FallsDue due start before.sum
    · rw [wake, ih hbefore, sleep_of_raised rfl]
    · rw [fallsDue_add hbefore] at h
      obtain ⟨c, k, hc, hsleep, -⟩ := sleep_of_due (t := { due }) rfl h
      rw [foldl_wake_of_not_due hbefore, wake, hsleep, ← hc]

/-- A sleep that begins at some elapsed time is its slices, with a look at the token before each of
them. -/
structure Sliced (elapsed length : Nat) (held : Token) (s : Sleep) : Prop where
  naps : (held.slices elapsed length).foldl nap (elapsed, held) = (elapsed + s.slept, s.token)
  bounds : ∀ x ∈ held.slices elapsed length, 0 < x ∧ x ≤ Duration.ofMillis 50
  few : (held.slices elapsed length).length * Duration.ofMillis 50 < length + Duration.ofMillis 50
  awake : ∀ front x back, held.slices elapsed length = front ++ x :: back →
    (front.foldl nap (elapsed, held)).2.raised = false

/-- How a sleep goes that finds the token as `held`, after sleeps on the same token that were to
take the time `before` since `start`. -/
structure Goes (due : Option Nat) (start before elapsed length : Nat) (held : Token) (s : Sleep) :
    Prop extends Sliced elapsed length held s where
  raised_before : held.raised = true ↔ FallsDue due start before
  raised_after : s.token.raised = true ↔ FallsDue due start (before + length)
  whole : s.token.raised = false → s.completed = true ∧ s.slept = length
  cut : held.raised = false → s.token.raised = true →
    s.completed = false ∧ (∃ k, s.slept = min length (k * Duration.ofMillis 50)) ∧
      ∃ c, due = some c ∧ c ≤ elapsed + s.slept ∧
        elapsed + s.slept ≤ max c start + Duration.ofMillis 50
  later : held.raised = true → s.completed = false ∧ s.slept = 0
  /-- Nobody who holds the token sleeps any more. -/
  closed : s.token.raised = true → ∀ start total, s.token.sleep start total = ⟨false, 0, s.token⟩

theorem sleep_sliced (t : Token) (elapsed length : Nat) :
    Sliced elapsed length t (t.sleep elapsed length) where
  naps := sleepOn_eq_naps t elapsed 0 length
  bounds := slices_bounds t elapsed length
  few := length_slices t elapsed length
  awake := slices_awake t elapsed length

theorem goes_of_due {before : Nat} (h : FallsDue due start before) (elapsed length : Nat) :
    Goes due start before elapsed length { raised := true, due }
      (sleep { raised := true, due } elapsed length) := by
  have hs := sleep_of_raised (t := { raised := true, due }) rfl elapsed length
  refine { sleep_sliced _ _ _ with
    raised_before := iff_of_true rfl h
    raised_after := ?_
    whole := ?_
    cut := nofun
    later := ?_
    closed := sleep_of_raised }
  all_goals rw [hs]
  · exact iff_of_true rfl (h.add length)
  · exact nofun
  · exact fun _ => ⟨rfl, rfl⟩

theorem goes_of_not_due {before : Nat} (h : ¬ FallsDue due start before) (length : Nat) :
    Goes due start before (start + before) length { due }
      (sleep { due } (start + before) length) := by
  have hsleeps : FallsDue due start (before + length) ↔ FallsDue due (start + before) length :=
    fallsDue_add h
  by_cases hdue : FallsDue due (start + before) length
  · obtain ⟨c, k, rfl, hs, hlow, hhigh⟩ := sleep_of_due (t := { due }) rfl hdue
    -- it fell due before only if nobody had slept
    have hfirst : start + before ≤ max c start := by
      by_contra hlt
      exact h ⟨by omega, c, rfl, by omega⟩
    refine { sleep_sliced _ _ _ with
      raised_before := iff_of_false Bool.false_ne_true h
      raised_after := ?_
      whole := ?_
      cut := fun _ _ => ?_
      later := nofun
      closed := sleep_of_raised }
    all_goals rw [hs]
    · exact iff_of_true rfl (hsleeps.2 hdue)
    · exact nofun
    · exact ⟨rfl, ⟨k, rfl⟩, c, rfl, hlow, Nat.le_trans hhigh (Nat.add_le_add_right (by omega) _)⟩
  · have hs := sleep_of_not_due (t := { due }) rfl hdue
    refine { sleep_sliced _ _ _ with
      raised_before := iff_of_false Bool.false_ne_true h
      raised_after := ?_
      whole := ?_
      cut := ?_
      later := nofun
      closed := sleep_of_raised }
    all_goals rw [hs]
    · exact iff_of_false Bool.false_ne_true (hsleeps.not.2 hdue)
    · exact fun _ => ⟨rfl, rfl⟩
    · exact nofun

/-- Of any sleeps in turn on one token, every one before the token falls due takes its whole
length, the one during which it falls due ends with the slice that reaches that time, and those
after it do not begin. -/
theorem sleeps_until_due (due : Option Nat) (start : Nat) (before : List Nat) (length : Nat)
    (after : List Nat) :
    let earlier := sleepAll { due } start before
    let elapsed := start + (earlier.map (·.slept)).sum
    ∃ held : Token,
      let s := held.sleep elapsed length
      sleepAll { due } start (before ++ length :: after) =
        earlier ++ s :: s.token.sleepAll (elapsed + s.slept) after ∧
      Goes due start before.sum elapsed length held s := by
  intro earlier elapsed
  refine ⟨(before.foldl wake (start, { due })).2, ?_, ?_⟩
  · rw [sleepAll_append, foldl_wake_fst, sleepAll]
  · have helapsed : (before.foldl wake (start, { due })).1 = elapsed := foldl_wake_fst _ _ _
    by_cases hbefore : FallsDue due start before.sum
    · rw [foldl_wake_of_due hbefore]
      exact goes_of_due hbefore elapsed length
    · rw [foldl_wake_of_not_due hbefore] at helapsed ⊢
      rw [← helapsed]
      exact goes_of_not_due hbefore length

example : let due := some (Duration.ofMillis 120)
    sleepAll { due } 0 [Duration.ofMillis 30, Duration.ofMillis 200, Duration.ofMillis 10] =
      [⟨true, Duration.ofMillis 30, { due }⟩,
        ⟨false, Duration.ofMillis 100, { raised := true, due }⟩,
        ⟨false, 0, { raised := true, due }⟩] := by decide +kernel

end Token
end JobGate
