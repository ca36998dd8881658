/-!
# Dates of the Gregorian calendar

A day is numbered from 1970-01-01, and the calendar extends without end in both directions; the
year before year 1 is year 0.  `Date.dayNumber` numbers a date and `Date.ofDayNumber` finds the date
of a number: the year whose days contain it, then the month, then the day.
-/

set_option autoImplicit false

namespace Conform

structure Date where
  year : Int
  month : Nat
  day : Nat
deriving DecidableEq

namespace Date

def isLeapYear (year : Int) : Bool :=
  decide (year % 4 = 0) && (decide (year % 100 ≠ 0) || decide (year % 400 = 0))

def monthLengths (year : Int) : List Nat :=
  [31, if isLeapYear year then 29 else 28, 31, 30, 31, 30, 31, 31, 30, 31, 30, 31]

/-- The number of days in a month, none outside January to December. -/
def daysInMonth (year : Int) (month : Nat) : Nat :=
  if month = 0 then 0 else ((monthLengths year)[month - 1]?).getD 0

def isValid (d : Date) : Bool :=
  decide (1 ≤ d.day) && decide (d.day ≤ daysInMonth d.year d.month)

/-- The days from 0001-01-01 to the first day of the year. -/
def daysBeforeYear (year : Int) : Int :=
  (year - 1) * 365 + (year - 1) / 4 - (year - 1) / 100 + (year - 1) / 400

def daysBeforeMonth (year : Int) (month : Nat) : Nat :=
  ((monthLengths year).take (month - 1)).foldl (· + ·) 0

/-- The days from 0001-01-01 to 1970-01-01. -/
def epochDay : Int := 719162

def dayNumber (d : Date) : Int :=
  daysBeforeYear d.year + daysBeforeMonth d.year d.month + (d.day - 1) - epochDay

/-- The year that contains the day, counted from 0001-01-01.  The mean length of a year gives a
guess that is off by one year at most. -/
def yearOfDay (day : Int) : Int :=
  let guess := day * 400 / 146097 + 1
  if day < daysBeforeYear guess then guess - 1
  else if daysBeforeYear (guess + 1) ≤ day then guess + 1
  else guess

/-- The month and the day of the month, from the lengths of the months to come, the number of the
first of them, and the days that are left. -/
def monthAndDay : List Nat → (month : Nat) → (days : Nat) → Nat × Nat
  | [], month, days => (month, days + 1)
  | length :: rest, month, days =>
    if days < length then (month, days + 1) else monthAndDay rest (month + 1) (days - length)

def ofDayNumber (number : Int) : Date :=
  let day := number + epochDay
  let year := yearOfDay day
  let (month, dayOfMonth) :=
    monthAndDay (monthLengths year) 1 (day - daysBeforeYear year).toNat
  ⟨year, month, dayOfMonth⟩

end Date

end Conform
