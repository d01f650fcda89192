/-
Instants are read back from their text.

The parts of the text are read in order, each in front of whatever follows it.  A number of fixed
width ends by its width and a year with a sign by the mark after it, so no part takes characters of
the next.  The text names the date and the time of day of the instant, and a leap second by second
number 60, so nothing of the instant is lost (`parse?_zulu`).
-/
import JobGate.Proofs.Text.Digits
import JobGate.Proofs.Time.Calendar
import JobGate.Proofs.Time.Passed
import JobGate.Time.Rfc3339

namespace JobGate
namespace Rfc3339

/-! ## Digits -/

variable {width n : Nat}

theorem padded_eq (width n : Nat) : padded width n =
    List.replicate (width - (Nat.toDigits 10 n).length) '0' ++ Nat.toDigits 10 n := by
  rw [← Text.toList_toString]
  rfl

theorem number_eq (ds : List Char) : number ds = Nat.ofDigitChars 10 ds 0 := by
  rw [Nat.ofDigitChars_eq_foldl]
  simp only [number, Nat.mul_comm 10]
  rfl

theorem number_padded (width n : Nat) : number (padded width n) = n := by
  rw [number_eq, padded_eq, Nat.ofDigitChars_append, Nat.ofDigitChars_replicate_zero, Nat.mul_zero,
    Nat.ofDigitChars_ten_toDigits]

theorem isDigit_padded {c : Char} (h : c ∈ padded width n) : c.isDigit = true := by
  rw [padded_eq] at h
  rcases List.mem_append.1 h with hzero | hdigit
  · rw [List.eq_of_mem_replicate hzero]
    decide
  · exact Nat.isDigit_of_mem_toDigits (by decide) (by decide) hdigit

theorem padded_ne_nil (width n : Nat) : padded width n ≠ [] := by
  rw [padded_eq]
  exact List.append_ne_nil_of_right_ne_nil _ Nat.toDigits_ne_nil

theorem length_padded (hw : 0 < width) (h : n < 10 ^ width) : (padded width n).length = width := by
  have hlength := (Nat.length_toDigits_le_iff (by decide) hw).2 h
  rw [padded_eq, List.length_append, List.length_replicate]
  omega

theorem skipBlanks_padded (width n : Nat) (rest : List Char) :
    skipBlanks (padded width n ++ rest) = padded width n ++ rest := by
  obtain ⟨c, cs, hcs⟩ := List.exists_cons_of_ne_nil (padded_ne_nil width n)
  have hc : c.isDigit = true := isDigit_padded (hcs ▸ List.mem_cons_self)
  rw [hcs, List.cons_append, skipBlanks,
    List.dropWhile_cons_of_neg (by rw [Text.isBlank_of_isDigit hc]; exact Bool.false_ne_true)]

/-- Digits are read up to a width, or else up to what is no digit. -/
theorem digits?_append {ds rest : List Char} (hds : ∀ c ∈ ds, c.isDigit = true) (hne : ds ≠ [])
    (hwidth : ds.length ≤ width)
    (hends : ds.length = width ∨ ∀ c ∈ rest.head?, c.isDigit = false) :
    digits? width (ds ++ rest) = some (ds, rest) := by
  have hstop : (rest.take (width - ds.length)).takeWhile Char.isDigit = [] := by
    rcases hends with hfull | hhead
    · rw [hfull, Nat.sub_self, List.take_zero, List.takeWhile_nil]
    · cases rest with
      | nil => rw [List.take_nil, List.takeWhile_nil]
      | cons c cs =>
        have hc : ¬ c.isDigit = true := by
          rw [hhead c rfl]
          exact Bool.false_ne_true
        cases width - ds.length with
        | zero => rw [List.take_zero, List.takeWhile_nil]
        | succ k => rw [List.take_succ_cons, List.takeWhile_cons_of_neg hc]
  have hrun : ((ds ++ rest).take width).takeWhile Char.isDigit = ds := by
    rw [List.take_append, List.take_of_length_le hwidth, List.takeWhile_append_of_pos hds, hstop,
      List.append_nil]
  have hsome : ds.isEmpty = false := List.isEmpty_eq_false_iff.2 hne
  simp only [digits?, hrun, hsome, List.drop_left, Bool.false_eq_true, if_false]

theorem digits?_padded (hw : 0 < width) (h : n < 10 ^ width) (rest : List Char) :
    digits? width (padded width n ++ rest) = some (padded width n, rest) :=
  have hlength := length_padded hw h
  digits?_append (fun _ => isDigit_padded) (padded_ne_nil width n) (Nat.le_of_eq hlength)
    (.inl hlength)

/-- Digits in front of a mark are read up to it, however many there are. -/
theorem digits?_marked (width n : Nat) (rest : List Char) :
    digits? (padded width n ++ '-' :: rest).length (padded width n ++ '-' :: rest) =
      some (padded width n, '-' :: rest) := by
  refine digits?_append (fun _ => isDigit_padded) (padded_ne_nil width n) ?_ (.inr ?_)
  · rw [List.length_append]
    exact Nat.le_add_right _ _
  · rintro c ⟨⟩
    rfl

/-! ## The parts of the text -/

theorem two?_padded (h : n < 100) (rest : List Char) :
    two? (padded 2 n ++ rest) = some (n, rest) := by
  simp only [two?, skipBlanks_padded, digits?_padded (show 0 < 2 by decide) h, Option.bind_eq_bind,
    Option.bind_some, number_padded]
  rfl

/-- A digit in front of a year means that it has no sign. -/
theorem year?_of_isDigit {c : Char} (hc : c.isDigit = true) (cs : List Char) :
    year? (c :: cs) = (digits? 4 (c :: cs)).map fun (ds, rest) => ((number ds : Int), rest) := by
  have hskip : skipBlanks (c :: cs) = c :: cs :=
    List.dropWhile_cons_of_neg (by rw [Text.isBlank_of_isDigit hc]; exact Bool.false_ne_true)
  unfold year?
  rw [hskip]
  split
  case h_1 heq => cases heq; cases hc
  case h_2 heq => cases heq; cases hc
  case h_3 => cases digits? 4 (c :: cs) <;> rfl

theorem year?_year (y : Int) (rest : List Char) :
    year? (year y ++ '-' :: rest) = some (y, '-' :: rest) := by
  unfold year
  split_ifs with hplain hnegative
  · obtain ⟨c, cs, hcs⟩ := List.exists_cons_of_ne_nil (padded_ne_nil 4 y.toNat)
    have hc : c.isDigit = true := isDigit_padded (hcs ▸ List.mem_cons_self)
    have hdigits := digits?_padded (show 0 < 4 by decide) (show y.toNat < 10 ^ 4 by omega)
      ('-' :: rest)
    have hnumber : ((number (c :: cs) : Nat) : Int) = y := by
      rw [← hcs, number_padded]
      omega
    rw [hcs, List.cons_append] at hdigits ⊢
    rw [year?_of_isDigit hc, hdigits]
    exact congrArg (fun n => some (n, _)) hnumber
  · have hskip : ∀ cs, skipBlanks ('-' :: cs) = '-' :: cs := fun _ => rfl
    simp only [year?, List.cons_append, hskip, digits?_marked, Option.bind_eq_bind,
      Option.bind_some, number_padded]
    rw [show -(((-y).toNat : Nat) : Int) = y by omega]
    rfl
  · have hskip : ∀ cs, skipBlanks ('+' :: cs) = '+' :: cs := fun _ => rfl
    simp only [year?, List.cons_append, hskip, digits?_marked, Option.bind_eq_bind,
      Option.bind_some, number_padded]
    rw [show ((y.toNat : Nat) : Int) = y by omega]
    rfl

/-- A fraction of some digits counts units of its last place. -/
theorem fraction?_padded (hw : 0 < width) (hnine : width ≤ 9) (h : n < 10 ^ width)
    (rest : List Char) :
    fraction? ('.' :: padded width n ++ 'Z' :: rest) =
      some (n * 10 ^ (9 - width), 'Z' :: rest) := by
  have hlength := length_padded hw h
  have hdigits : digits? 9 (padded width n ++ 'Z' :: rest) = some (padded width n, 'Z' :: rest) :=
    digits?_append (fun _ => isDigit_padded) (padded_ne_nil width n) (hlength.trans_le hnine)
      (.inr (by rintro c ⟨⟩; rfl))
  simp only [fraction?, List.cons_append, hdigits, Option.bind_eq_bind, Option.bind_some,
    number_padded, hlength]
  rfl

theorem fraction?_fraction {nanos : Nat} (h : nanos < 1000000000) (rest : List Char) :
    fraction? (fraction nanos ++ 'Z' :: rest) = some (nanos, 'Z' :: rest) := by
  unfold fraction
  split_ifs with hzero hmilli hmicro
  · rw [hzero]
    rfl
  · rw [fraction?_padded (show 0 < 3 by decide) (by decide) (by omega)]
    congr 2
    omega
  · rw [fraction?_padded (show 0 < 6 by decide) (by decide) (by omega)]
    congr 2
    omega
  · rw [fraction?_padded (show 0 < 9 by decide) (by decide) h, Nat.sub_self, Nat.pow_zero,
      Nat.mul_one]

/-! ## The whole text -/

def parts (date : CivilDate) (hour minute second nanos : Nat) : List Char :=
  year date.year ++ '-' :: (padded 2 date.month ++ '-' :: (padded 2 date.day ++
    'T' :: (padded 2 hour ++ ':' :: (padded 2 minute ++ ':' :: (padded 2 second ++
      (fraction nanos ++ ['Z']))))))

/-- One reader after another. -/
theorem bind_of_eq_some {α β : Type} {x : Option α} {a : α} (h : x = some a)
    (f : α → Option β) : x >>= f = f a := by
  rw [h]
  rfl

theorem parse?_parts {date : CivilDate} (hmonth : date.month < 100) (hday : date.day < 100)
    {hour minute second nanos : Nat} (hhour : hour < 100) (hminute : minute < 100)
    (hsecond : second < 100) (hnanos : nanos < 1000000000) :
    parse? (String.ofList (parts date hour minute second nanos)) =
      assemble? date hour minute second nanos 0 := by
  unfold parse? parts
  rw [String.toList_ofList]
  refine (bind_of_eq_some (year?_year _ _) _).trans ?_
  refine (bind_of_eq_some rfl _).trans ((bind_of_eq_some (two?_padded hmonth _) _).trans ?_)
  refine (bind_of_eq_some rfl _).trans ((bind_of_eq_some (two?_padded hday _) _).trans ?_)
  refine (bind_of_eq_some rfl _).trans ((bind_of_eq_some (two?_padded hhour _) _).trans ?_)
  refine (bind_of_eq_some rfl _).trans ((bind_of_eq_some (two?_padded hminute _) _).trans ?_)
  refine (bind_of_eq_some rfl _).trans ((bind_of_eq_some (two?_padded hsecond _) _).trans ?_)
  exact bind_of_eq_some (fraction?_fraction hnanos _) _

/-! ## An instant -/

variable {date : CivilDate} {hour minute second nanos : Nat}

theorem assemble?_ordinary (hdate : date.exists? = true) (hhour : hour < 24) (hminute : minute < 60)
    (hsecond : second < 60) : assemble? date hour minute second nanos 0 = Instant.ofUnix?
      (date.toDays * 86400 + (hour * 3600 + minute * 60 + second : Nat)) nanos := by
  simp [assemble?, hdate, hhour, hminute, hsecond.le, hsecond.ne]

theorem assemble?_leap (hdate : date.exists? = true) (hhour : hour < 24) (hminute : minute < 60) :
    assemble? date hour minute 60 nanos 0 = Instant.ofUnix?
      (date.toDays * 86400 + (hour * 3600 + minute * 60 + 59 : Nat))
      (nanos + Duration.perSecond) := by
  simp [assemble?, hdate, hhour, hminute]

/-- The last ordinary second of a minute, when the instant lies in a leap second. -/
theorem seconds_of_leap {t : Instant} (h : Duration.perSecond ≤ t.nanos) :
    t.seconds % 60 = 59 ∧ t.nanos < 2 * Duration.perSecond := by
  have hnanos := t.nanos_lt
  unfold Duration.perSecond at *
  omega

/-- An instant is assembled from the parts of its text. -/
theorem zulu_eq (t : Instant) : ∃ date hour minute second nanos,
    zulu t = String.ofList (parts date hour minute second nanos) ∧ date.exists? = true ∧
    hour < 24 ∧ minute < 60 ∧ second ≤ 60 ∧ nanos < Duration.perSecond ∧
    assemble? date hour minute second nanos 0 = some t := by
  obtain ⟨date, hdate⟩ : ∃ d, CivilDate.ofDays (t.seconds / 86400) = d := ⟨_, rfl⟩
  obtain ⟨inDay, hinDay⟩ : ∃ n, (t.seconds % 86400).toNat = n := ⟨_, rfl⟩
  have hexists : date.exists? = true := hdate ▸ CivilDate.exists_ofDays _
  have hdays : date.toDays = t.seconds / 86400 := hdate ▸ CivilDate.toDays_ofDays _
  have hhour : inDay / 3600 < 24 := by omega
  have hminute : inDay / 60 % 60 < 60 := by omega
  have hsecond : inDay % 60 < 60 := by omega
  have hseconds : t.seconds =
      date.toDays * 86400 + (inDay / 3600 * 3600 + inDay / 60 % 60 * 60 + inDay % 60 : Nat) := by
    rw [hdays]
    omega
  by_cases hleap : Duration.perSecond ≤ t.nanos
  · obtain ⟨hlast, hnanos⟩ := seconds_of_leap hleap
    have hfinal : inDay % 60 = 59 := by omega
    refine ⟨date, inDay / 3600, inDay / 60 % 60, 60, t.nanos - Duration.perSecond, ?_, hexists,
      hhour, hminute, Nat.le_refl 60, by omega, ?_⟩
    · simp only [zulu, civil, hdate, hinDay, decide_eq_true hleap, if_true, hfinal, parts,
        List.append_assoc, List.cons_append]
    · rw [assemble?_leap hexists hhour hminute, Nat.sub_add_cancel hleap, ← hfinal]
      exact Instant.ofUnix?_eq_some_iff.2 ⟨hseconds, rfl⟩
  · refine ⟨date, inDay / 3600, inDay / 60 % 60, inDay % 60, t.nanos, ?_, hexists, hhour, hminute,
      hsecond.le, Nat.lt_of_not_le hleap, ?_⟩
    · simp only [zulu, civil, hdate, hinDay, decide_eq_false hleap, if_neg Bool.false_ne_true,
        parts, List.append_assoc, List.cons_append, Nat.add_zero]
    · rw [assemble?_ordinary hexists hhour hminute hsecond]
      exact Instant.ofUnix?_eq_some_iff.2 ⟨hseconds, rfl⟩

/-- The text of an instant names the instant. -/
theorem parse?_zulu (t : Instant) : parse? (zulu t) = some t := by
  obtain ⟨date, hour, minute, second, nanos, htext, hexists, hhour, hminute, hsecond, hnanos, ht⟩ :=
    zulu_eq t
  obtain ⟨hmonth, hday⟩ := CivilDate.bounds_of_exists hexists
  rw [htext, ← ht]
  exact parse?_parts (by omega) (by omega) (by omega) (by omega) (by omega) hnanos

end Rfc3339
end JobGate
