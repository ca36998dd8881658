import Conform.Rules.Basic

/-!
# Rules for numbers

The numbers that are checked are finite; bounds need not be.
-/

set_option autoImplicit false

namespace Conform

inductive NumberCheck where
  | min (bound : Binary64)
  | max (bound : Binary64)
  | positive
  | nonNegative
  | negative
  | integer

namespace NumberCheck

def holds (x : Binary64) : NumberCheck → Bool
  | min bound => bound.lessOrEqual x
  | max bound => x.lessOrEqual bound
  | positive => Binary64.zero.less x
  | nonNegative => Binary64.zero.lessOrEqual x
  | negative => x.less .zero
  | integer => x.isWhole

def code : NumberCheck → String
  | min _ => "min_value"
  | max _ => "max_value"
  | positive => "positive"
  | nonNegative => "non_negative"
  | negative => "negative"
  | integer => "integer"

def expected : NumberCheck → String
  | min bound => "at least " ++ bound.display
  | max bound => "at most " ++ bound.display
  | positive => "positive"
  | nonNegative => "non-negative"
  | negative => "negative"
  | integer => "an integer"

def message (x : Binary64) (c : NumberCheck) : String :=
  "Expecting value to be " ++ c.expected ++ ". Got " ++ x.display ++ "."

def violation? (c : NumberCheck) (x : Binary64) : Option Violation :=
  if c.holds x then none else some ⟨c.code, c.expected, x.display, c.message x⟩

end NumberCheck

abbrev NumberRules := Rules NumberCheck

namespace NumberRules

def range (rules : NumberRules) (low high : Binary64) : NumberRules :=
  (rules.require (.min low)).require (.max high)

end NumberRules

end Conform
