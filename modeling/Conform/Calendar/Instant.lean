import Conform.Calendar.Date

/-!
# Instants

An instant is a second, counted from the start of 1970 in UTC, and the nanoseconds since then.  A
count of nanoseconds from `10 ^ 9` on stands for the leap second that follows, and only the last
second of a minute has one.  The years are those from -262143 to 262142.
-/

set_option autoImplicit false

namespace Conform

structure Instant where
  seconds : Int
  nanos : Nat
  seconds_ge : -8334601228800 ≤ seconds
  seconds_le : seconds ≤ 8210266876799
  nanos_lt : nanos < 2000000000
  leap : 1000000000 ≤ nanos → seconds % 60 = 59
deriving DecidableEq

namespace Instant

def secondsPerDay : Int := 86400

def nanosPerSecond : Nat := 1000000000

/-- The instant of a second and a count of nanoseconds, where there is one. -/
def of? (seconds : Int) (nanos : Nat) : Option Instant :=
  if h : -8334601228800 ≤ seconds ∧ seconds ≤ 8210266876799 ∧ nanos < 2000000000 ∧
      (1000000000 ≤ nanos → seconds % 60 = 59) then
    some ⟨seconds, nanos, h.1, h.2.1, h.2.2.1, h.2.2.2⟩
  else none

def midnight? (d : Date) : Option Instant := of? (d.dayNumber * secondsPerDay) 0

/-- The whole milliseconds since the start of 1970; the floor of the count before it. -/
def epochMillis (t : Instant) : Int := t.seconds * 1000 + (t.nanos / 1000000 : Nat)

def ofEpochMillis? (millis : Int) : Option Instant :=
  of? (millis / 1000) ((millis % 1000).toNat * 1000000)

def less (t u : Instant) : Bool :=
  decide (t.seconds < u.seconds) || (t.seconds == u.seconds && decide (t.nanos < u.nanos))

def lessOrEqual (t u : Instant) : Bool := !less u t

def date (t : Instant) : Date := .ofDayNumber (t.seconds / secondsPerDay)

/-- The second of the day, the leap second not counted. -/
def secondOfDay (t : Instant) : Nat := (t.seconds % secondsPerDay).toNat

end Instant

end Conform
