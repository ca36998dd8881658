import Conform.Issue

/-!
# Rules

The rules of a schema are its requirements in the order in which they were added.  A message belongs
to the requirement before it; a message before the first requirement is for values of a wrong kind.
-/

set_option autoImplicit false

namespace Conform

/-- A check, and the message that replaces its own. -/
structure Requirement (κ : Type) where
  check : κ
  message : Option String

/-- How a value violates a check. -/
structure Violation where
  code : String
  expected : String
  got : String
  message : String

structure Rules (κ : Type) where
  kindMessage : Option String
  requirements : List (Requirement κ)

namespace Rules

variable {κ α : Type}

def empty : Rules κ := ⟨none, []⟩

def require (rules : Rules κ) (check : κ) : Rules κ :=
  { rules with requirements := rules.requirements ++ [⟨check, none⟩] }

def messageLast (message : String) : List (Requirement κ) → List (Requirement κ)
  | [] => []
  | [r] => [{ r with message := some message }]
  | r :: rest => r :: messageLast message rest

/-- Sets the message of the last requirement, or the one for values of a wrong kind. -/
def message (rules : Rules κ) (message : String) : Rules κ :=
  if rules.requirements.isEmpty then { rules with kindMessage := some message }
  else { rules with requirements := messageLast message rules.requirements }

/-- One issue for each requirement that the input violates, in order. -/
def issues (violation? : κ → α → Option Violation) (rules : Rules κ) (path : Path) (input : α) :
    List Issue :=
  rules.requirements.filterMap fun r => (violation? r.check input).map fun v =>
    ⟨path, r.message.getD v.message, v.code, some v.expected, some v.got⟩

end Rules

end Conform
