import Conform.Coercion
import Conform.Outcome
import Conform.Rules.Constant
import Conform.Rules.Date
import Conform.Rules.Number
import Conform.Rules.Text
import Conform.Run

/-!
# Validators

A validator takes a value and the path at which it stands, and runs to an outcome.  The ones here
look at the value alone; all but `anything` reject a value of another kind with a single issue.
-/

set_option autoImplicit false

namespace Conform

abbrev Validator (σ α : Type) := Value → Path → Run σ (Outcome α)

namespace Validator

variable {σ α β : Type}

/-- A validator without effects. -/
def ofOutcome (f : Value → Path → Outcome α) : Validator σ α := fun v p => pure (f v p)

def mapOutcome (f : Outcome α → Outcome β) (inner : Validator σ α) : Validator σ β := fun v p => do
  return f (← inner v p)

def map (f : α → β) (inner : Validator σ α) : Validator σ β := inner.mapOutcome (.map f)

def textOutcome (rules : TextRules) (v : Value) (p : Path) : Outcome String :=
  match v.text? with
  | some s => .settle s (rules.issues TextCheck.violation? p s)
  | none => .fail (.wrongKind p "string" v rules.kindMessage)

def notFinite (rules : NumberRules) (p : Path) (x : Binary64) : Issue where
  path := p
  message := rules.kindMessage.getD "Expecting value to be a finite 'number'."
  code := "not_finite"
  expected := some "finite number"
  got := some x.display

def numberOutcome (rules : NumberRules) (v : Value) (p : Path) : Outcome Binary64 :=
  match v.number? with
  | some x =>
    if x.isFinite then .settle x (rules.issues NumberCheck.violation? p x)
    else .fail (notFinite rules p x)
  | none => .fail (.wrongKind p "number" v rules.kindMessage)

def booleanOutcome (kindMessage : Option String) (v : Value) (p : Path) : Outcome Bool :=
  match v.bool? with
  | some b => .success b
  | none => .fail (.wrongKind p "boolean" v kindMessage)

def dateOutcome (rules : DateRules) (v : Value) (p : Path) : Outcome Instant :=
  match v.date? with
  | some t => .settle t (rules.issues DateCheck.violation? p t)
  | none => .fail (.wrongKind p "date" v rules.kindMessage)

def literalOutcome (l : Literal) (v : Value) (p : Path) : Outcome Value :=
  if v.equal l.constant.value then .success v else .fail (l.mismatch p v)

def enumerationOutcome (e : Enumeration) (v : Value) (p : Path) : Outcome Value :=
  if e.has v then .success v else .fail (e.mismatch p v)

end Validator

end Conform
