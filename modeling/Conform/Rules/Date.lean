import Conform.Rules.Basic

/-!
# Rules for dates
-/

set_option autoImplicit false

namespace Conform

inductive DateCheck where
  | min (bound : Instant)
  | max (bound : Instant)

namespace DateCheck

def holds (t : Instant) : DateCheck → Bool
  | min bound => bound.lessOrEqual t
  | max bound => t.lessOrEqual bound

def code : DateCheck → String
  | min _ => "min_value"
  | max _ => "max_value"

def expected : DateCheck → String
  | min bound => "at or after " ++ Timestamp.write bound
  | max bound => "at or before " ++ Timestamp.write bound

def message (t : Instant) (c : DateCheck) : String :=
  "Expecting date to be " ++ c.expected ++ ". Got " ++ Timestamp.write t ++ "."

def violation? (c : DateCheck) (t : Instant) : Option Violation :=
  if c.holds t then none else some ⟨c.code, c.expected, Timestamp.write t, c.message t⟩

end DateCheck

abbrev DateRules := Rules DateCheck

end Conform
