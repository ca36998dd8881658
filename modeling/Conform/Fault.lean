import Conform.Kind

/-!
# Faults of construction

A schema that makes no sense is refused when it is built, never when a value is validated.
-/

set_option autoImplicit false

namespace Conform

inductive BuildFault where
  /-- A literal that is neither a text, a number, a boolean nor null. -/
  | literalNotScalar (kindName : String)
  /-- A literal that equals no value. -/
  | literalNaN
  | enumerationEmpty
  /-- A member that is neither a text, a number, a boolean nor null, or that equals no value. -/
  | memberNotScalar (position : Nat) (kindName : String)
  /-- No conversion leads to this kind. -/
  | notCoercible (kind : Kind)
  /-- A pattern that does not compile, for this reason. -/
  | patternUnreadable (reason : String)
deriving DecidableEq

namespace BuildFault

def message : BuildFault → String
  | literalNotScalar kindName =>
    "literal constant must be of type 'string | number | boolean | null', got '" ++ kindName ++ "'"
  | literalNaN => "literal constant must not be NaN"
  | enumerationEmpty => "enumeration must declare at least one value"
  | memberNotScalar position kindName =>
    "enumeration member at position " ++ toString position
      ++ " must be a string, number, boolean or null, got '" ++ kindName ++ "'"
  | notCoercible kind => "cannot coerce a schema of kind '" ++ kind.name ++ "'"
  | patternUnreadable reason => "invalid pattern: " ++ reason

end BuildFault

end Conform
