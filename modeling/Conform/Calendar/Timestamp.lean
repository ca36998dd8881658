import Conform.Calendar.Instant
import Conform.Text.Digits

/-!
# Timestamps

A timestamp writes an instant in UTC, cut to milliseconds, as `2024-01-01T00:00:00.000Z`; the leap
second has the number 60.  A year outside 0 to 9999 has a sign and at least four digits.

Timestamps are read in the profile of the Internet: four digits of the year, `T`, `t` or a blank
before the time, any number of digits of a fraction, and `Z`, `z` or an offset of less than a day.
-/

set_option autoImplicit false

namespace Conform

namespace Timestamp

open Text

/-! ## Writing -/

def writeYear (year : Int) : List Char :=
  if 0 ≤ year ∧ year ≤ 9999 then padded 4 year.toNat
  else (if year < 0 then '-' else '+') :: padded 4 year.natAbs

def writeDate (d : Date) : List Char :=
  writeYear d.year ++ ['-'] ++ padded 2 d.month ++ ['-'] ++ padded 2 d.day

def writeTime (t : Instant) : List Char :=
  let second := t.secondOfDay
  padded 2 (second / 3600) ++ [':'] ++ padded 2 (second / 60 % 60) ++ [':']
    ++ padded 2 (second % 60 + t.nanos / Instant.nanosPerSecond)
    ++ ['.'] ++ padded 3 (t.nanos % Instant.nanosPerSecond / 1000000)

def write (t : Instant) : String :=
  String.ofList (writeDate t.date ++ ['T'] ++ writeTime t ++ ['Z'])

/-! ## Reading -/

/-- What follows the character, if the text begins with it. -/
def expect? (c : Char) : List Char → Option (List Char)
  | [] => none
  | d :: rest => if d = c then some rest else none

/-- The nanoseconds of a fraction: nine digits count, the others are cut off. -/
def fractionNanos (digits : List Char) : Nat :=
  digitsValue (digits.take 9 ++ List.replicate (9 - digits.length) '0')

def readFraction? : List Char → Option (Nat × List Char)
  | '.' :: rest =>
    let digits := rest.takeWhile Char.isDigit
    if digits.isEmpty then none else some (fractionNanos digits, rest.dropWhile Char.isDigit)
  | rest => some (0, rest)

/-- The hours and minutes of an offset, in seconds. -/
def readOffsetTime? (text : List Char) : Option Int := do
  let (hours, rest) ← readDigits? 2 text
  let rest ← expect? ':' rest
  let (minutes, rest) ← readDigits? 2 rest
  if rest.isEmpty ∧ hours ≤ 23 ∧ minutes ≤ 59 then some ((hours * 3600 + minutes * 60 : Nat) : Int)
  else none

/-- The offset from UTC, which ends the text.  U+2212 is a minus too. -/
def readOffset? : List Char → Option Int
  | ['Z'] => some 0
  | ['z'] => some 0
  | '+' :: rest => readOffsetTime? rest
  | '-' :: rest => (readOffsetTime? rest).map (- ·)
  | '\u2212' :: rest => (readOffsetTime? rest).map (- ·)
  | _ => none

def isSeparator (c : Char) : Bool := c == 'T' || c == 't' || c == ' '

/-- A date of four, two and two digits, and what follows it. -/
def readDate? (text : List Char) : Option (Date × List Char) := do
  let (year, rest) ← readDigits? 4 text
  let rest ← expect? '-' rest
  let (month, rest) ← readDigits? 2 rest
  let rest ← expect? '-' rest
  let (day, rest) ← readDigits? 2 rest
  if (Date.mk year month day).isValid then some (⟨year, month, day⟩, rest) else none

/-- A time of the day: its second, its nanoseconds, and what follows it.  Second 60 is second 59 and
a second of nanoseconds more. -/
def readTime? (text : List Char) : Option (Nat × Nat × List Char) := do
  let (hour, rest) ← readDigits? 2 text
  let rest ← expect? ':' rest
  let (minute, rest) ← readDigits? 2 rest
  let rest ← expect? ':' rest
  let (second, rest) ← readDigits? 2 rest
  let (nanos, rest) ← readFraction? rest
  if hour ≤ 23 ∧ minute ≤ 59 ∧ second ≤ 60 then
    if second = 60 then
      some (hour * 3600 + minute * 60 + 59, nanos + Instant.nanosPerSecond, rest)
    else some (hour * 3600 + minute * 60 + second, nanos, rest)
  else none

def read? (text : String) : Option Instant := do
  let (date, rest) ← readDate? text.toList
  match rest with
  | [] => none
  | separator :: rest =>
    if isSeparator separator then
      let (second, nanos, rest) ← readTime? rest
      let offset ← readOffset? rest
      Instant.of? (date.dayNumber * Instant.secondsPerDay + second - offset) nanos
    else none

end Timestamp

end Conform
