import Conform.Proofs.Calendar.Timestamp

/-!
# The text of a timestamp

What a timestamp says is described without the function that writes it: an instant shows a valid
date and a time of the day, and the text has a numeral for each of their parts.  Every instant has
one timestamp.
-/

set_option autoImplicit false

namespace Conform

open Text

/-! ## Moments -/

/-- What the calendar and the clock show. -/
@[ext]
structure Moment where
  date : Date
  hour : Nat
  minute : Nat
  second : Nat
  millisecond : Nat

namespace Instant

/-- The moment is that of the instant, in UTC.  A leap second has the number 60. -/
structure Shows (t : Instant) (m : Moment) : Prop where
  valid : m.date.isValid = true
  hour_lt : m.hour < 24
  minute_lt : m.minute < 60
  second_le : m.second ≤ 60
  leap_iff : m.second = 60 ↔ 10 ^ 9 ≤ t.nanos
  seconds : m.date.dayNumber * 86400 + (m.hour * 3600 + m.minute * 60 + m.second : Nat) =
    t.seconds + (t.nanos / 10 ^ 9 : Nat)
  millisecond : m.millisecond = t.nanos % 10 ^ 9 / 10 ^ 6

def moment (t : Instant) : Moment where
  date := t.date
  hour := t.secondOfDay / 3600
  minute := t.secondOfDay / 60 % 60
  second := t.secondOfDay % 60 + t.nanos / nanosPerSecond
  millisecond := t.nanos % nanosPerSecond / 1000000

theorem shows_moment (t : Instant) : t.Shows t.moment := by
  have inDay := t.secondOfDay_lt
  have nanos := t.nanos_lt
  have leap := @secondOfDay_of_leap t
  have total : t.date.dayNumber * 86400 + t.secondOfDay = t.seconds := by
    rw [date, Date.dayNumber_ofDayNumber, secondOfDay, secondsPerDay]
    omega
  simp only [nanosPerSecond] at leap
  constructor
  case valid => exact Date.isValid_ofDayNumber _
  case seconds =>
    simp only [moment, nanosPerSecond]
    omega
  case millisecond => rfl
  all_goals
    simp only [moment, nanosPerSecond]
    omega

variable {t : Instant} {m other : Moment}

theorem Shows.date_eq (h : t.Shows m) : m.date = t.date := by
  have number : m.date.dayNumber = t.seconds / secondsPerDay := by
    have := h.hour_lt
    have := h.minute_lt
    have := h.second_le
    have := h.leap_iff
    have := h.seconds
    have := t.nanos_lt
    have := t.leap
    rw [secondsPerDay]
    omega
  rw [date, ← number, Date.ofDayNumber_dayNumber h.valid]

/-- An instant shows one moment. -/
theorem Shows.unique (h : t.Shows m) (h' : t.Shows other) : m = other := by
  have dates : m.date = other.date := h.date_eq.trans h'.date_eq.symm
  have total := h.seconds.trans h'.seconds.symm
  rw [dates] at total
  have leaps := h.leap_iff.trans h'.leap_iff.symm
  have times : m.hour = other.hour ∧ m.minute = other.minute ∧ m.second = other.second := by
    have := h.minute_lt
    have := h.second_le
    have := h'.minute_lt
    have := h'.second_le
    omega
  obtain ⟨hours, minutes, seconds⟩ := times
  exact Moment.ext dates hours minutes seconds (h.millisecond.trans h'.millisecond.symm)

end Instant

/-! ## The text of a moment -/

/-- The years from 0 to 9999 are written without a sign, all others with one. -/
inductive IsYear (year : Int) : List Char → Prop
  | unsigned {row : List Char} (inside : 0 ≤ year ∧ year ≤ 9999)
      (digits : IsNumeral 4 year.toNat row) : IsYear year row
  | signed {row : List Char} (outside : ¬ (0 ≤ year ∧ year ≤ 9999))
      (digits : IsNumeral 4 year.natAbs row) :
      IsYear year ((if year < 0 then '-' else '+') :: row)

/-- Year, month and day; `T`; hour, minute and second; the milliseconds; and `Z`. -/
inductive Moment.IsText (m : Moment) : String → Prop
  | ofParts {year month day hour minute second millisecond : List Char}
      (isYear : IsYear m.date.year year) (isMonth : IsNumeral 2 m.date.month month)
      (isDay : IsNumeral 2 m.date.day day) (isHour : IsNumeral 2 m.hour hour)
      (isMinute : IsNumeral 2 m.minute minute) (isSecond : IsNumeral 2 m.second second)
      (isMillisecond : IsNumeral 3 m.millisecond millisecond) :
      m.IsText (String.ofList (year ++ ['-'] ++ month ++ ['-'] ++ day ++ ['T'] ++ hour ++ [':'] ++
        minute ++ [':'] ++ second ++ ['.'] ++ millisecond ++ ['Z']))

/-- The text is the timestamp of the instant after RFC 3339, in UTC and with milliseconds. -/
def Instant.IsTimestamp (t : Instant) (text : String) : Prop := ∃ m, t.Shows m ∧ m.IsText text

namespace Timestamp

theorem isYear_iff {year : Int} {row : List Char} : IsYear year row ↔ row = writeYear year := by
  rw [writeYear]
  split
  · next inside =>
    constructor
    · rintro (⟨_, digits⟩ | ⟨outside, _⟩)
      · exact (isNumeral_iff (by decide)).mp digits
      · exact absurd inside outside
    · intro same
      exact .unsigned inside ((isNumeral_iff (by decide)).mpr same)
  · next outside =>
    constructor
    · rintro (⟨inside, _⟩ | ⟨_, digits⟩)
      · exact absurd inside outside
      · rw [(isNumeral_iff (by decide)).mp digits]
    · rintro rfl
      exact .signed outside (isNumeral_padded (by decide) _)

/-- Every instant has one timestamp, and that is what is written. -/
theorem isTimestamp_iff {t : Instant} {text : String} : t.IsTimestamp text ↔ text = write t := by
  have two : ∀ {n row}, IsNumeral 2 n row ↔ row = padded 2 n := isNumeral_iff (by decide)
  have three : ∀ {n row}, IsNumeral 3 n row ↔ row = padded 3 n := isNumeral_iff (by decide)
  constructor
  · rintro ⟨m, shows, ⟨year, month, day, hour, minute, second, millisecond⟩⟩
    obtain rfl := shows.unique t.shows_moment
    rw [isYear_iff.mp year, two.mp month, two.mp day, two.mp hour, two.mp minute, two.mp second,
      three.mp millisecond]
    simp [write, writeDate, writeTime, Instant.moment]
  · rintro rfl
    refine ⟨t.moment, t.shows_moment, ?_⟩
    have text := Moment.IsText.ofParts (m := t.moment) (isYear_iff.mpr rfl) (two.mpr rfl)
      (two.mpr rfl) (two.mpr rfl) (two.mpr rfl) (two.mpr rfl) (three.mpr rfl)
    simpa [write, writeDate, writeTime, Instant.moment] using text

end Timestamp

end Conform
