/-
Every day has a date, and the date leads back to the day.

A day of an era is split into a century, a span of four years, a year and the day of the year.  The
quotients are capped, and a cap is met only at the end of an era or of a span (`Place.ofDay_valid`).
A year has a day number 365 only there, and that is where its February, which ends it, has a 29th
(`exists_ofDays`).
-/
import JobGate.Time.Calendar
import Mathlib.Tactic.IntervalCases

namespace JobGate
namespace CivilDate

/-! ## The place of a day -/

structure Place where
  century : Nat
  span : Nat
  year : Nat
  inYear : Nat

namespace Place

def ofDay (n : Nat) : Place :=
  let century := min (n / 36524) 3
  let inCentury := n - century * 36524
  let inSpan := inCentury % 1461
  let year := min (inSpan / 365) 3
  ⟨century, inCentury / 1461, year, inSpan - year * 365⟩

def ofEra (p : Place) : Nat := p.century * 100 + p.span * 4 + p.year

/-- The month of the year.  Both begin in March. -/
def month (p : Place) : Nat := (5 * p.inYear + 2) / 153

structure Valid (p : Place) : Prop where
  century_le : p.century ≤ 3
  span_le : p.span ≤ 24
  year_le : p.year ≤ 3
  inYear_le : p.inYear ≤ 365
  /-- Only the last year of a span has the day, and the last of a century only at the end of an
  era. -/
  leap : p.inYear = 365 → p.year = 3 ∧ (p.span = 24 → p.century = 3)

def day (p : Place) : Nat := p.century * 36524 + p.span * 1461 + p.year * 365 + p.inYear

theorem ofDay_valid {n : Nat} (h : n < 146097) : (ofDay n).Valid := by
  obtain ⟨century, hcentury⟩ : ∃ c, min (n / 36524) 3 = c := ⟨_, rfl⟩
  obtain ⟨inCentury, hinCentury⟩ : ∃ d, n - century * 36524 = d := ⟨_, rfl⟩
  obtain ⟨inSpan, hinSpan⟩ : ∃ d, inCentury % 1461 = d := ⟨_, rfl⟩
  have hplace : ofDay n =
      ⟨century, inCentury / 1461, min (inSpan / 365) 3, inSpan - min (inSpan / 365) 3 * 365⟩ := by
    subst hcentury hinCentury hinSpan
    rfl
  have hlast : inCentury ≤ 36524 ∧ (inCentury = 36524 → century = 3) := by omega
  rw [hplace]
  refine ⟨?_, ?_, ?_, ?_, fun hlong => ⟨?_, fun hspan => ?_⟩⟩ <;> dsimp only at * <;> omega

theorem day_ofDay (n : Nat) : (ofDay n).day = n := by
  simp only [day, ofDay]
  omega

namespace Valid

variable {p : Place}

theorem month_le (h : p.Valid) : p.month ≤ 11 := by
  have hinYear := h.inYear_le
  unfold month
  omega

theorem monthStart_le (p : Place) : monthStart p.month ≤ p.inYear := by
  unfold monthStart month
  omega

theorem ofEra_lt (h : p.Valid) : p.ofEra < 400 := by
  have hcentury := h.century_le
  have hspan := h.span_le
  have hyear := h.year_le
  unfold ofEra
  omega

/-- The days of the years before, with a leap day for every fourth year but not for the centuries
between two eras. -/
theorem day_eq (h : p.Valid) :
    p.day = p.ofEra * 365 + p.ofEra / 4 - p.ofEra / 100 + p.inYear := by
  have hspan := h.span_le
  have hyear := h.year_le
  have hfour : p.ofEra / 4 = p.century * 25 + p.span := by unfold ofEra; omega
  have hhundred : p.ofEra / 100 = p.century := by unfold ofEra; omega
  rw [hfour, hhundred]
  unfold ofEra day
  omega

end Valid
end Place

/-! ## Dates -/

def ofPlace (era : Int) (p : Place) : CivilDate where
  year := if p.month < 10 then era * 400 + p.ofEra else era * 400 + p.ofEra + 1
  month := if p.month < 10 then p.month + 3 else p.month - 9
  day := p.inYear - monthStart p.month + 1

theorem ofDays_eq (days : Int) :
    ofDays days = ofPlace ((days + epochShift) / 146097)
      (.ofDay ((days + epochShift) % 146097).toNat) := rfl

theorem toDays_ofPlace (era : Int) {p : Place} (h : p.Valid) :
    (ofPlace era p).toDays = era * 146097 + p.day - epochShift := by
  have hmonth := h.month_le
  have hstart := Place.Valid.monthStart_le p
  have hera := h.ofEra_lt
  have hyear : (if (ofPlace era p).month ≤ 2 then (ofPlace era p).year - 1
      else (ofPlace era p).year) = era * 400 + p.ofEra := by
    simp only [ofPlace]
    split_ifs <;> omega
  have hmarch : (if (ofPlace era p).month ≤ 2 then (ofPlace era p).month + 9
      else (ofPlace era p).month - 3) = p.month := by
    simp only [ofPlace]
    split_ifs <;> omega
  have hdivide : (era * 400 + p.ofEra : Int) / 400 = era := by omega
  have hrest : (era * 400 + p.ofEra : Int) % 400 = p.ofEra := by omega
  have hday : monthStart p.month + (ofPlace era p).day - 1 = p.inYear := by
    simp only [ofPlace]
    omega
  simp only [toDays, hyear, hmarch, hdivide, hrest, hday, h.day_eq]
  omega

theorem toDays_ofDays (days : Int) : (ofDays days).toDays = days := by
  have hvalid : (Place.ofDay ((days + epochShift) % 146097).toNat).Valid :=
    Place.ofDay_valid (by omega)
  rw [ofDays_eq, toDays_ofPlace _ hvalid, Place.day_ofDay]
  omega

theorem isLeapYear_iff (year : Int) :
    isLeapYear year = true ↔ year % 4 = 0 ∧ (year % 100 ≠ 0 ∨ year % 400 = 0) := by
  simp [isLeapYear]

/-- Day 365 of a year is the 29th of its February. -/
theorem isLeapYear_of_inYear (era : Int) {p : Place} (h : p.Valid) (hlong : p.inYear = 365) :
    isLeapYear (era * 400 + p.ofEra + 1) = true := by
  have hcentury := h.century_le
  have hspan := h.span_le
  obtain ⟨hyear, hend⟩ := h.leap hlong
  refine (isLeapYear_iff _).2 ⟨?_, ?_⟩ <;> unfold Place.ofEra <;> omega

/-- February ends the year, so it alone has to reach day 365 where there is one. -/
theorem day_le_february (era : Int) {p : Place} (h : p.Valid) :
    p.inYear - monthStart 11 + 1 ≤ daysInMonth (era * 400 + p.ofEra + 1) 2 := by
  have hinYear := h.inYear_le
  by_cases hlong : p.inYear = 365
  · have hleap := isLeapYear_of_inYear era h hlong
    simp [daysInMonth, hleap, hlong, monthStart]
  · have hshort : 28 ≤ daysInMonth (era * 400 + p.ofEra + 1) 2 := by
      simp only [daysInMonth]
      split_ifs <;> decide
    simp only [monthStart]
    omega

/-- A month other than February ends where the next one starts. -/
theorem day_le_of_month (year : Int) {p : Place} (h : p.Valid) (hfebruary : p.month ≠ 11) :
    p.inYear - monthStart p.month + 1 ≤
      daysInMonth year (if p.month < 10 then p.month + 3 else p.month - 9) := by
  have hmonth := h.month_le
  have hnext : 5 * p.inYear + 2 < 153 * (p.month + 1) := by
    unfold Place.month
    omega
  obtain ⟨month, hm⟩ : ∃ m, p.month = m := ⟨_, rfl⟩
  rw [hm] at hmonth hnext hfebruary ⊢
  simp only [monthStart]
  interval_cases month <;> simp [daysInMonth] at hfebruary ⊢ <;> omega

theorem exists_ofPlace (era : Int) {p : Place} (h : p.Valid) : (ofPlace era p).exists? = true := by
  have hlast : (ofPlace era p).day ≤ daysInMonth (ofPlace era p).year (ofPlace era p).month := by
    by_cases hfebruary : p.month = 11
    · simp only [ofPlace, hfebruary]
      exact day_le_february era h
    · exact day_le_of_month _ h hfebruary
  simpa only [exists?, Bool.and_eq_true, decide_eq_true_eq] using ⟨Nat.le_add_left 1 _, hlast⟩

theorem exists_ofDays (days : Int) : (ofDays days).exists? = true :=
  exists_ofPlace _ (Place.ofDay_valid (by omega))

theorem daysInMonth_le (year : Int) (month : Nat) : daysInMonth year month ≤ 31 := by
  unfold daysInMonth
  split <;> (try split) <;> decide

theorem month_le_of_daysInMonth {year : Int} {month : Nat} (h : 1 ≤ daysInMonth year month) :
    month ≤ 12 := by
  unfold daysInMonth at h
  split at h <;> omega

theorem bounds_of_exists {d : CivilDate} (h : d.exists? = true) : d.month ≤ 12 ∧ d.day ≤ 31 := by
  simp only [exists?, Bool.and_eq_true, decide_eq_true_eq] at h
  exact ⟨month_le_of_daysInMonth (h.1.trans h.2), h.2.trans (daysInMonth_le _ _)⟩

end CivilDate
end JobGate
