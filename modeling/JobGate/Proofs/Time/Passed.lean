/-
How much time has passed between two instants.

A length of time is taken off the later instant by `Instant.sub?`, which fails where no
instant lies that far back.  `Instant.Passed` says the same by adding the length to the
earlier one, as numbers and without any bound, and the two agree for every length
(`passed_iff`).  An instant within a leap second is later than the ordinary ones of the
second that it lengthens, and once that second is over the leap second counts for nothing.
-/
import JobGate.Time.Instant
import Mathlib.Tactic.SplitIfs

namespace JobGate
namespace Instant

def unixNanos (t : Instant) : Int := t.seconds * Duration.perSecond + t.nanos

theorem toMillis_eq (t : Instant) : t.toMillis = t.unixNanos / Duration.perMilli := by
  unfold toMillis unixNanos Duration.perSecond Duration.perMilli
  omega

theorem unixNanos_add? {t t' : Instant} {d : Nat} (h : t.add? d = some t') :
    t'.unixNanos = t.unixNanos + d := by
  unfold add? ofUnix? at h
  dsimp only at h
  split_ifs at h
  cases h
  simp only [unixNanos, Duration.perSecond]
  omega

/-- Whether at least some length of time has passed since an instant. -/
def Passed (t : Instant) (length : Nat) (now : Instant) : Prop :=
  t.seconds < now.seconds ∧
      t.seconds * Duration.perSecond + min t.nanos Duration.perSecond + length ≤ now.unixNanos ∨
    t.seconds = now.seconds ∧ t.nanos + length ≤ now.nanos

variable {t now : Instant} {length : Nat}

/-- Outside of leap seconds this is the addition of numbers of nanoseconds. -/
theorem passed_iff_of_ordinary (ht : t.nanos < Duration.perSecond)
    (hnow : now.nanos < Duration.perSecond) :
    t.Passed length now ↔ t.unixNanos + length ≤ now.unixNanos := by
  unfold Passed unixNanos
  unfold Duration.perSecond at *
  omega

theorem isAfter_eq_false_iff {a b : Instant} : a.isAfter b = false ↔
    a.seconds < b.seconds ∨ a.seconds = b.seconds ∧ a.nanos ≤ b.nanos := by
  unfold isAfter
  simp only [Bool.or_eq_false_iff, decide_eq_false_iff_not, Bool.and_eq_false_iff,
    beq_eq_false_iff_ne]
  omega

theorem ofUnix?_eq_some_iff {seconds : Int} {nanos : Nat} {t : Instant} :
    ofUnix? seconds nanos = some t ↔ t.seconds = seconds ∧ t.nanos = nanos := by
  unfold ofUnix?
  obtain ⟨s, n, hlow, hhigh, hn⟩ := t
  constructor
  · intro h
    split_ifs at h
    cases h
    exact ⟨rfl, rfl⟩
  · rintro ⟨rfl, rfl⟩
    rw [dif_pos ⟨hlow, hhigh⟩, dif_pos hn]

/-- An instant with these parts exists, within the years that do. -/
theorem exists_of_range (seconds : Int) (nanos : Nat) (hlow : -8334601228800 ≤ seconds)
    (hhigh : seconds ≤ 8210266876799) (hn : nanos < 1000000000) :
    ∃ t, ofUnix? seconds nanos = some t :=
  ⟨⟨seconds, nanos, hlow, hhigh, .inl hn⟩, ofUnix?_eq_some_iff.2 ⟨rfl, rfl⟩⟩

/-- Within its leap second an instant goes back by less than a second; any other difference is
one of numbers of nanoseconds. -/
theorem sub?_eq (now : Instant) (length : Nat) : now.sub? length =
    if Duration.perSecond ≤ now.nanos ∧ length < Duration.perSecond then
      ofUnix? now.seconds (now.nanos - length)
    else
      ofUnix? ((now.unixNanos - length) / Duration.perSecond)
        ((now.unixNanos - length) % Duration.perSecond).toNat := by
  have hn := now.nanos_lt
  unfold sub? unixNanos
  unfold Duration.perSecond
  by_cases hleap : 1000000000 ≤ now.nanos
  · by_cases hlength : length < 1000000000
    · have hwhole : length / 1000000000 = 0 := by omega
      have hpart : length % 1000000000 = length := by omega
      simp only [hleap, hlength, hwhole, hpart, decide_true, Bool.true_and, beq_self_eq_true,
        and_self, if_true]
    · have hwhole : (length / 1000000000 == 0) = false := beq_false_of_ne (by omega)
      simp only [hleap, hlength, hwhole, decide_true, Bool.true_and, Bool.false_eq_true, and_false,
        if_false, if_true]
      split_ifs
      · congr 1 <;> omega
      · congr 1 <;> omega
  · simp only [hleap, decide_false, Bool.false_and, Bool.false_eq_true, false_and, if_false]
    split_ifs
    · congr 1 <;> omega
    · congr 1 <;> omega

/-- A length of time has passed since an instant exactly when the length can be taken off, and
the instant does not lie after what is left. -/
theorem passed_iff : t.Passed length now ↔
    ∃ cutoff, now.sub? length = some cutoff ∧ t.isAfter cutoff = false := by
  have hn := now.nanos_lt
  have ht := t.nanos_lt
  have hlow := t.seconds_ge
  have hhigh := now.seconds_le
  rw [sub?_eq]
  split_ifs with hleap
  · -- what is left is still in the second that the leap second lengthens
    constructor
    · intro hpassed
      have hleft : now.nanos - length < 1000000000 ∨
          (now.seconds % 60 = 59 ∧ now.nanos - length < 2000000000) := by omega
      refine ⟨⟨_, _, now.seconds_ge, hhigh, hleft⟩, ofUnix?_eq_some_iff.2 ⟨rfl, rfl⟩, ?_⟩
      rw [isAfter_eq_false_iff]
      unfold Passed unixNanos Duration.perSecond at hpassed
      unfold Duration.perSecond at hleap
      show t.seconds < now.seconds ∨ t.seconds = now.seconds ∧ t.nanos ≤ now.nanos - length
      omega
    · rintro ⟨cutoff, hcutoff, hafter⟩
      obtain ⟨hseconds, hnanos⟩ := ofUnix?_eq_some_iff.1 hcutoff
      rw [isAfter_eq_false_iff, hseconds, hnanos] at hafter
      unfold Passed unixNanos
      unfold Duration.perSecond at hleap ⊢
      omega
  · unfold Passed
    unfold unixNanos Duration.perSecond at *
    constructor
    · intro hpassed
      obtain ⟨cutoff, hcutoff⟩ := exists_of_range
        ((now.seconds * (1000000000 : Nat) + now.nanos - length) / (1000000000 : Nat))
        ((now.seconds * (1000000000 : Nat) + now.nanos - length) % (1000000000 : Nat)).toNat
        (by omega) (by omega) (by omega)
      obtain ⟨hseconds, hnanos⟩ := ofUnix?_eq_some_iff.1 hcutoff
      refine ⟨cutoff, hcutoff, ?_⟩
      rw [isAfter_eq_false_iff, hseconds, hnanos]
      omega
    · rintro ⟨cutoff, hcutoff, hafter⟩
      obtain ⟨hseconds, hnanos⟩ := ofUnix?_eq_some_iff.1 hcutoff
      rw [isAfter_eq_false_iff, hseconds, hnanos] at hafter
      omega

/-- What has passed at some instant has passed at a later one.  Both orders are asked for: an
instant within a leap second has more nanoseconds than the ordinary ones that follow it. -/
theorem Passed.mono {now' : Instant} (h : t.Passed length now') (hafter : now'.isAfter now = false)
    (hnanos : now'.unixNanos ≤ now.unixNanos) : t.Passed length now := by
  have ht := t.nanos_lt
  rw [isAfter_eq_false_iff] at hafter
  unfold Passed unixNanos Duration.perSecond at *
  omega

theorem unixNanos_le_of_ordinary {now' : Instant} (hafter : now'.isAfter now = false)
    (hordinary : now'.nanos < Duration.perSecond) : now'.unixNanos ≤ now.unixNanos := by
  rw [isAfter_eq_false_iff] at hafter
  unfold unixNanos
  unfold Duration.perSecond at *
  omega

end Instant
end JobGate
