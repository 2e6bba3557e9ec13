import IntervalRules.Format.Day
import Mathlib.Logic.Function.Iterate
import Mathlib.Order.Monotone.Basic

/-!
The Gregorian calendar, day after day. Every month has a length and after its last day comes the
first of the next month. The days that come after the first of January of the year 0 in this way
are the real ones (`isReal_iff_exists`), and a day's number, which is counted from the lengths of
the years and months before it, is how many days it comes after that one (`iterate_next`).
-/

namespace IntervalRules.Format.Day

/-! ## The calendar -/

/-- A year that can be divided by four, and by four hundred if it ends a century. -/
def LeapYear (year : Nat) : Prop := 4 ∣ year ∧ (100 ∣ year → 400 ∣ year)

instance (year : Nat) : Decidable (LeapYear year) := inferInstanceAs (Decidable (_ ∧ (_ → _)))

/-- The lengths of the months from January on. -/
def monthLengths (year : Nat) : List Nat :=
  [31, if LeapYear year then 29 else 28, 31, 30, 31, 30, 31, 31, 30, 31, 30, 31]

/-- The last day of a month; months count from one. -/
def lastDay (year : Nat) : Nat → Nat
  | 0 => 0
  | month + 1 => (monthLengths year).getD month 0

/-- The first of January of the year 0. -/
def first : Day := ⟨0, 1, 1⟩

/-- The day after a day. -/
def next (d : Day) : Day :=
  if d.day < lastDay d.year d.month then { d with day := d.day + 1 }
  else if d.month < 12 then ⟨d.year, d.month + 1, 1⟩
  else ⟨d.year + 1, 1, 1⟩

/-- The days of a year before a month. -/
def daysToMonth (year : Nat) : Nat → Nat
  | 0 => 0
  | month + 1 => daysToMonth year month + lastDay year month

/-- The days before a year, from the year 0 on. -/
def daysToYear : Nat → Nat
  | 0 => 0
  | year + 1 => daysToYear year + daysToMonth year 13

/-- The number of days before a day. -/
def number (d : Day) : Nat := daysToYear d.year + daysToMonth d.year d.month + (d.day - 1)

/-- Earlier by the year, or else by the month, or else by the day. -/
def Earlier (d e : Day) : Prop :=
  d.year < e.year ∨ d.year = e.year ∧ (d.month < e.month ∨ d.month = e.month ∧ d.day < e.day)

/-! ## Lengths -/

theorem isLeap_iff (year : Nat) : isLeap year = true ↔ LeapYear year := by
  simp only [isLeap, LeapYear, Bool.or_eq_true, Bool.and_eq_true, beq_iff_eq, bne_iff_ne]
  omega

theorem daysInMonth_eq (year month : Nat) : daysInMonth year month = lastDay year month := by
  have hleap := isLeap_iff year
  match month with
  | 0 | 1 | 3 | 4 | 5 | 6 | 7 | 8 | 9 | 10 | 11 | 12 => rfl
  | 2 => by_cases h : LeapYear year <;> simp [daysInMonth, lastDay, monthLengths, h, hleap]
  | month + 13 => simp [daysInMonth, lastDay, monthLengths]

theorem isReal_iff (d : Day) :
    d.isReal = true ↔ 1 ≤ d.day ∧ d.day ≤ lastDay d.year d.month := by
  simp [isReal, daysInMonth_eq]

theorem lastDay_pos_iff (year month : Nat) :
    1 ≤ lastDay year month ↔ 1 ≤ month ∧ month ≤ 12 := by
  match month with
  | 0 | 1 | 3 | 4 | 5 | 6 | 7 | 8 | 9 | 10 | 11 | 12 => simp [lastDay, monthLengths]
  | 2 => by_cases h : LeapYear year <;> simp [lastDay, monthLengths, h]
  | month + 13 => simp [lastDay, monthLengths]

theorem lastDay_le (year month : Nat) : lastDay year month ≤ 31 := by
  match month with
  | 0 | 1 | 3 | 4 | 5 | 6 | 7 | 8 | 9 | 10 | 11 | 12 => simp [lastDay, monthLengths]
  | 2 => by_cases h : LeapYear year <;> simp [lastDay, monthLengths, h]
  | month + 13 => simp [lastDay, monthLengths]

theorem month_of_isReal {d : Day} (h : d.isReal = true) : 1 ≤ d.month ∧ d.month ≤ 12 := by
  rw [isReal_iff] at h
  exact (lastDay_pos_iff d.year d.month).1 (h.1.trans h.2)

theorem daysToMonth_thirteen (year : Nat) :
    daysToMonth year 13 = if LeapYear year then 366 else 365 := by
  by_cases h : LeapYear year <;> simp [daysToMonth, lastDay, monthLengths, h]

/-- Rounded up, `year / (k + 1)` counts the multiples of `k + 1` below `year`. -/
theorem count_multiples_succ (year k : Nat) :
    (year + 1 + k) / (k + 1) = (year + k) / (k + 1) + if k + 1 ∣ year then 1 else 0 := by
  have hdvd : k + 1 ∣ year + k + 1 ↔ k + 1 ∣ year := Nat.dvd_add_left (Nat.dvd_refl (k + 1))
  rw [Nat.add_right_comm, Nat.succ_div]
  simp only [hdvd]

/-- The days before a year in closed form: the years before it have 365 days each, and the leap
years among them one more. -/
theorem daysToYear_add (year : Nat) :
    daysToYear year + (year + 99) / 100 = 365 * year + (year + 3) / 4 + (year + 399) / 400 := by
  induction year with
  | zero => rfl
  | succ year ih =>
    have hfour : (year + 1 + 3) / 4 = _ := count_multiples_succ year 3
    have hcentury : (year + 1 + 99) / 100 = _ := count_multiples_succ year 99
    have hfourth : (year + 1 + 399) / 400 = _ := count_multiples_succ year 399
    have hwhole : 100 ∣ year → 4 ∣ year := Nat.dvd_trans (by decide)
    have hkept : 400 ∣ year → 100 ∣ year := Nat.dvd_trans (by decide)
    rw [daysToYear, daysToMonth_thirteen, hfour, hcentury, hfourth]
    by_cases hleap : LeapYear year
    · rw [if_pos hleap, if_pos hleap.1]
      by_cases hends : 100 ∣ year
      · rw [if_pos hends, if_pos (hleap.2 hends)]
        omega
      · rw [if_neg hends, if_neg (mt hkept hends)]
        omega
    · rw [if_neg hleap]
      by_cases hfours : 4 ∣ year
      · have hends : 100 ∣ year ∧ ¬ 400 ∣ year := by
          simpa [LeapYear, hfours] using hleap
        rw [if_pos hfours, if_pos hends.1, if_neg hends.2]
        omega
      · rw [if_neg hfours, if_neg (mt hwhole hfours), if_neg (mt (hwhole ∘ hkept) hfours)]
        omega

theorem daysToMonth_mono (year : Nat) : Monotone (daysToMonth year) :=
  monotone_nat_of_le_succ fun _ => Nat.le_add_right _ _

theorem daysToYear_mono : Monotone daysToYear :=
  monotone_nat_of_le_succ fun _ => Nat.le_add_right _ _

/-! ## One day after another -/

/-- The day after a real one is real and has the next number. -/
theorem next_of_isReal {d : Day} (h : d.isReal = true) :
    d.next.isReal = true ∧ d.next.number = d.number + 1 := by
  have hmonth := month_of_isReal h
  simp only [isReal_iff] at h ⊢
  unfold next
  split
  · rename_i hday
    simp only [number]
    omega
  · rename_i hday
    split
    · rename_i hless
      have hpos := (lastDay_pos_iff d.year (d.month + 1)).2 ⟨by omega, by omega⟩
      simp only [number, daysToMonth]
      omega
    · have htwelve : d.month = 12 := by omega
      have hpos := (lastDay_pos_iff (d.year + 1) 1).2 ⟨by omega, by omega⟩
      have hyear : daysToYear (d.year + 1) =
          daysToYear d.year + (daysToMonth d.year 12 + lastDay d.year 12) := rfl
      have hstart : daysToMonth (d.year + 1) 1 = 0 := rfl
      simp only [number, hyear, hstart, htwelve] at h hday ⊢
      omega

/-- So is the day that comes any number of days after the first one. -/
theorem iterate_next (n : Nat) : (next^[n] first).isReal = true ∧ (next^[n] first).number = n := by
  induction n with
  | zero => exact ⟨rfl, rfl⟩
  | succ n ih =>
    rw [Function.iterate_succ_apply']
    have hnext := next_of_isReal ih.1
    rw [ih.2] at hnext
    exact hnext

/-! ## Days by their numbers -/

variable {d e : Day}

theorem number_lt_month (h : d.isReal = true) :
    d.number < daysToYear d.year + daysToMonth d.year (d.month + 1) := by
  rw [isReal_iff] at h
  simp only [number, daysToMonth]
  omega

theorem number_lt_year (h : d.isReal = true) : d.number < daysToYear (d.year + 1) := by
  have hmonths : daysToMonth d.year (d.month + 1) ≤ daysToMonth d.year 13 :=
    daysToMonth_mono d.year (Nat.succ_le_succ (month_of_isReal h).2)
  have hnumber := number_lt_month h
  rw [daysToYear]
  omega

theorem number_lt_of_earlier (hd : d.isReal = true) (he : e.isReal = true)
    (h : Earlier d e) : d.number < e.number := by
  rcases h with hyear | ⟨hyear, hmonth | ⟨hmonth, hday⟩⟩
  · have hyears : daysToYear (d.year + 1) ≤ daysToYear e.year := daysToYear_mono hyear
    have hnumber := number_lt_year hd
    simp only [number] at hnumber ⊢
    omega
  · have hmonths : daysToMonth d.year (d.month + 1) ≤ daysToMonth d.year e.month :=
      daysToMonth_mono d.year hmonth
    have hnumber := number_lt_month hd
    simp only [number, ← hyear] at hnumber ⊢
    omega
  · rw [isReal_iff] at hd he
    simp only [number, ← hyear, ← hmonth]
    omega

theorem earlier_or_eq (d e : Day) : Earlier d e ∨ d = e ∨ Earlier e d := by
  obtain ⟨dy, dm, dd⟩ := d
  obtain ⟨ey, em, ed⟩ := e
  simp only [Earlier, Day.mk.injEq]
  omega

/-- Real days are in the order of their numbers. -/
theorem number_lt_iff (hd : d.isReal = true) (he : e.isReal = true) :
    d.number < e.number ↔ Earlier d e := by
  constructor
  · intro h
    rcases earlier_or_eq d e with hearlier | rfl | hlater
    · exact hearlier
    · exact absurd h (Nat.lt_irrefl _)
    · exact absurd h (Nat.lt_asymm (number_lt_of_earlier he hd hlater))
  · exact number_lt_of_earlier hd he

theorem number_injective (hd : d.isReal = true) (he : e.isReal = true)
    (h : d.number = e.number) : d = e := by
  rcases earlier_or_eq d e with hearlier | heq | hlater
  · exact absurd h (Nat.ne_of_lt (number_lt_of_earlier hd he hearlier))
  · exact heq
  · exact absurd h (Nat.ne_of_gt (number_lt_of_earlier he hd hlater))

/-- A real day comes as many days after the first one as its number says. -/
theorem iterate_number (h : d.isReal = true) : next^[d.number] first = d := by
  obtain ⟨hreal, hnumber⟩ := iterate_next d.number
  exact number_injective hreal h hnumber

/-- The real days are those that come after the first one. -/
theorem isReal_iff_exists (d : Day) : d.isReal = true ↔ ∃ n, next^[n] first = d := by
  constructor
  · intro h
    exact ⟨d.number, iterate_number h⟩
  · rintro ⟨n, rfl⟩
    exact (iterate_next n).1

/-- The years before a given one have the days before its first day. -/
theorem year_lt_iff (h : d.isReal = true) (year : Nat) :
    d.year < year ↔ d.number < daysToYear year := by
  constructor
  · intro hyear
    exact Nat.lt_of_lt_of_le (number_lt_year h) (daysToYear_mono hyear)
  · intro hnumber
    by_contra hyear
    have hyears : daysToYear year ≤ daysToYear d.year := daysToYear_mono (Nat.le_of_not_lt hyear)
    simp only [number] at hnumber
    omega

end IntervalRules.Format.Day
