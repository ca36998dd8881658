import Conform.Calendar.Date
import Mathlib.Algebra.BigOperators.Group.List.Basic
import Mathlib.Algebra.Ring.Nat

/-!
# The date of a day

Every day of the calendar has one date: the year, the month and the day of the month that are found
for the number of a day make a valid date, and that date is the only one with this number.
-/

set_option autoImplicit false

namespace Conform.Date

/-! ## Years -/

theorem daysBeforeYear_succ (year : Int) :
    daysBeforeYear (year + 1) = daysBeforeYear year + if isLeapYear year then 366 else 365 := by
  by_cases leap : isLeapYear year = true
  · rw [if_pos leap]
    simp only [isLeapYear, Bool.and_eq_true, Bool.or_eq_true, decide_eq_true_eq] at leap
    simp only [daysBeforeYear]
    omega
  · rw [if_neg leap]
    simp only [isLeapYear, Bool.and_eq_true, Bool.or_eq_true, decide_eq_true_eq] at leap
    simp only [daysBeforeYear]
    omega

/-- The year that is found contains the day. -/
theorem daysBeforeYear_yearOfDay (day : Int) :
    daysBeforeYear (yearOfDay day) ≤ day ∧ day < daysBeforeYear (yearOfDay day + 1) := by
  -- The mean length of a year is off by less than a year, so the guess has three years to be in.
  have below : daysBeforeYear (day * 400 / 146097) ≤ day := by
    simp only [daysBeforeYear]
    omega
  have above : day < daysBeforeYear (day * 400 / 146097 + 1 + 1 + 1) := by
    simp only [daysBeforeYear]
    omega
  simp only [yearOfDay]
  split
  · next early =>
    rw [show day * 400 / 146097 + 1 - 1 = day * 400 / 146097 by omega]
    exact ⟨below, early⟩
  · next notEarly =>
    split
    · next late => exact ⟨late, above⟩
    · next notLate => exact ⟨by omega, by omega⟩

theorem daysBeforeYear_mono {year other : Int} (h : year ≤ other) :
    daysBeforeYear year ≤ daysBeforeYear other := by
  simp only [daysBeforeYear]
  omega

/-- A day lies in one year only. -/
theorem yearOfDay_eq {year day : Int} (lower : daysBeforeYear year ≤ day)
    (upper : day < daysBeforeYear (year + 1)) : yearOfDay day = year := by
  obtain ⟨below, above⟩ := daysBeforeYear_yearOfDay day
  rcases Int.lt_trichotomy (yearOfDay day) year with before | same | after
  · have := daysBeforeYear_mono (show yearOfDay day + 1 ≤ year from before)
    omega
  · exact same
  · have := daysBeforeYear_mono (show year + 1 ≤ yearOfDay day from after)
    omega

/-! ## Months -/

theorem sum_monthLengths (year : Int) :
    (monthLengths year).sum = if isLeapYear year then 366 else 365 := by
  by_cases leap : isLeapYear year = true <;> simp [monthLengths, leap]

theorem daysBeforeMonth_eq_sum (year : Int) (month : Nat) :
    daysBeforeMonth year month = ((monthLengths year).take (month - 1)).sum :=
  List.sum_eq_foldl.symm

/-- The days that are left lie in the month that is found. -/
theorem monthAndDay_spec {lengths : List Nat} {days : Nat} (h : days < lengths.sum) (first : Nat) :
    ∃ month length day, monthAndDay lengths first days = (first + month, day + 1) ∧
      lengths[month]? = some length ∧ day < length ∧ (lengths.take month).sum + day = days := by
  induction lengths generalizing first days with
  | nil => simp at h
  | cons length rest ih =>
    by_cases here : days < length
    · exact ⟨0, length, days, by rw [monthAndDay, if_pos here]; rfl, rfl, here, by simp⟩
    · have left : days - length < rest.sum := by
        rw [List.sum_cons] at h
        omega
      obtain ⟨month, own, day, found, there, inside, total⟩ := ih left (first + 1)
      refine ⟨month + 1, own, day, ?_, there, inside, ?_⟩
      · rw [monthAndDay, if_neg here, found, show first + 1 + month = first + (month + 1) by omega]
      · rw [List.take_succ_cons, List.sum_cons]
        omega

theorem sum_take_add_le {lengths : List Nat} {month length : Nat}
    (there : lengths[month]? = some length) : (lengths.take month).sum + length ≤ lengths.sum := by
  obtain ⟨inside, rfl⟩ := List.getElem?_eq_some_iff.mp there
  rw [← List.sum_take_succ lengths month inside, ← List.sum_take_add_sum_drop lengths (month + 1)]
  exact Nat.le_add_right _ _

theorem monthAndDay_of_sum {lengths : List Nat} {month length day : Nat}
    (there : lengths[month]? = some length) (inside : day < length) (first : Nat) :
    monthAndDay lengths first ((lengths.take month).sum + day) = (first + month, day + 1) := by
  induction lengths generalizing first month with
  | nil => cases there
  | cons own rest ih =>
    cases month with
    | zero =>
      obtain rfl : own = length := Option.some.inj there
      rw [List.take_zero, List.sum_nil, Nat.zero_add, monthAndDay, if_pos inside]
      rfl
    | succ month =>
      have later : ¬ own + ((rest.take month).sum + day) < own := by omega
      rw [List.take_succ_cons, List.sum_cons, Nat.add_assoc, monthAndDay, if_neg later,
        Nat.add_sub_cancel_left, ih there, show first + 1 + month = first + (month + 1) by omega]

/-! ## Dates -/

/-- The parts of the date of a day. -/
theorem ofDayNumber_spec (number : Int) :
    ∃ month length day, ofDayNumber number = ⟨yearOfDay (number + epochDay), month + 1, day + 1⟩ ∧
      (monthLengths (yearOfDay (number + epochDay)))[month]? = some length ∧ day < length ∧
      daysBeforeYear (yearOfDay (number + epochDay)) +
        (((monthLengths (yearOfDay (number + epochDay))).take month).sum + day : Nat) =
          number + epochDay := by
  obtain ⟨below, above⟩ := daysBeforeYear_yearOfDay (number + epochDay)
  rw [daysBeforeYear_succ] at above
  have inYear : (number + epochDay - daysBeforeYear (yearOfDay (number + epochDay))).toNat <
      (monthLengths (yearOfDay (number + epochDay))).sum := by
    rw [sum_monthLengths]
    by_cases leap : isLeapYear (yearOfDay (number + epochDay)) = true
    · rw [if_pos leap] at above ⊢
      omega
    · rw [if_neg leap] at above ⊢
      omega
  obtain ⟨month, length, day, found, there, inside, total⟩ := monthAndDay_spec inYear 1
  refine ⟨month, length, day, ?_, there, inside, ?_⟩
  · rw [ofDayNumber, found, Nat.add_comm 1 month]
  · omega

theorem dayNumber_ofDayNumber (number : Int) : (ofDayNumber number).dayNumber = number := by
  obtain ⟨month, length, day, date, _, _, total⟩ := ofDayNumber_spec number
  rw [date]
  simp only [dayNumber, daysBeforeMonth_eq_sum, Nat.add_sub_cancel]
  push_cast at total ⊢
  omega

theorem isValid_ofDayNumber (number : Int) : (ofDayNumber number).isValid = true := by
  obtain ⟨month, length, day, date, there, inside, _⟩ := ofDayNumber_spec number
  rw [date]
  simp [isValid, daysInMonth, there]
  omega

/-- Months and days have two digits. -/
theorem month_le_of_isValid {d : Date} (h : d.isValid = true) : d.month ≤ 12 := by
  by_contra beyond
  have none : (monthLengths d.year)[d.month - 1]? = none := by
    rw [List.getElem?_eq_none_iff]
    simp [monthLengths]
    omega
  simp [isValid, daysInMonth, none] at h
  omega

theorem day_le_of_isValid {d : Date} (h : d.isValid = true) : d.day ≤ 31 := by
  have longest : daysInMonth d.year d.month ≤ 31 := by
    have each : ∀ n ∈ monthLengths d.year, n ≤ 31 := by
      by_cases leap : isLeapYear d.year = true <;> simp [monthLengths, leap]
    rw [daysInMonth]
    split
    · omega
    · cases found : (monthLengths d.year)[d.month - 1]? with
      | none => simp
      | some n => exact each n (List.mem_of_getElem? found)
  simp only [isValid, Bool.and_eq_true, decide_eq_true_eq] at h
  omega

/-- A valid date is the date of its day. -/
theorem ofDayNumber_dayNumber {d : Date} (valid : d.isValid = true) :
    ofDayNumber d.dayNumber = d := by
  obtain ⟨year, month, day⟩ := d
  simp only [isValid, Bool.and_eq_true, decide_eq_true_eq, daysInMonth] at valid
  obtain ⟨low, high⟩ := valid
  have counted : month ≠ 0 := by
    rintro rfl
    rw [if_pos rfl] at high
    omega
  rw [if_neg counted] at high
  cases there : (monthLengths year)[month - 1]? with
  | none =>
    rw [there, Option.getD_none] at high
    omega
  | some length =>
    rw [there, Option.getD_some] at high
    have before := sum_take_add_le there
    have inYear : yearOfDay (dayNumber ⟨year, month, day⟩ + epochDay) = year := by
      apply yearOfDay_eq
      · simp only [dayNumber, daysBeforeMonth_eq_sum]
        omega
      · rw [daysBeforeYear_succ]
        rw [sum_monthLengths] at before
        simp only [dayNumber, daysBeforeMonth_eq_sum]
        by_cases leap : isLeapYear year = true
        · rw [if_pos leap] at before ⊢
          omega
        · rw [if_neg leap] at before ⊢
          omega
    have left : (dayNumber ⟨year, month, day⟩ + epochDay - daysBeforeYear year).toNat =
        ((monthLengths year).take (month - 1)).sum + (day - 1) := by
      simp only [dayNumber, daysBeforeMonth_eq_sum]
      omega
    rw [ofDayNumber, inYear, left, monthAndDay_of_sum there (by omega) 1]
    simp only [mk.injEq, true_and]
    omega

end Conform.Date
