import Conform.Schema.Output
import Conform.Validator.Choice
import Conform.Validator.Modifier
import Conform.Validator.Structure

/-!
# Schemas

A schema describes values and what to make of them.  Its type tells the type of its output; the
schemas within lists, objects and unions, and under `nullable` and `optional`, answer with values,
which `erased` makes of any output.  Functions of the caller may use a state of type `σ`, and
`custom` takes a validator of the caller.

`Schema.validator` is the meaning of a schema; it follows the structure of the schema.
-/

set_option autoImplicit false

namespace Conform

inductive Schema (σ : Type) : OutputType → Type
  | text (rules : TextRules) : Schema σ .text
  | number (rules : NumberRules) : Schema σ .number
  | boolean (kindMessage : Option String) : Schema σ .boolean
  | date (rules : DateRules) : Schema σ .date
  | literal (l : Literal) : Schema σ .value
  | enumeration (e : Enumeration) : Schema σ .value
  | anything : Schema σ .value
  | custom {τ : OutputType} (kind : Kind) (validator : Validator σ (Output τ)) : Schema σ τ
  | list (rules : LengthRules) (item : Schema σ .value) : Schema σ .list
  | tuple (kindMessage : Option String) (positions : List (Schema σ .value)) : Schema σ .list
  | object (shape : Shape (Schema σ .value)) : Schema σ .map
  | record (kindMessage : Option String) (key : Schema σ .text) (value : Schema σ .value) :
      Schema σ .map
  | union (message : Option String) (alternatives : List (Schema σ .value)) : Schema σ .value
  | intersection (kindMessage : Option String) (components : List (Schema σ .map)) : Schema σ .map
  | erased {τ : OutputType} (inner : Schema σ τ) : Schema σ .value
  | nullable (inner : Schema σ .value) : Schema σ .value
  | optional (inner : Schema σ .value) : Schema σ .value
  | withDefault {τ : OutputType} (fallback : StateM σ (Output τ)) (inner : Schema σ τ) : Schema σ τ
  | refine {τ : OutputType} (test : Output τ → StateM σ Bool) (message code : String)
      (inner : Schema σ τ) : Schema σ τ
  | transform {τ υ : OutputType} (f : Output τ → StateM σ (Output υ)) (inner : Schema σ τ) :
      Schema σ υ
  | tryMap {τ υ : OutputType} (f : Output τ → StateM σ (Outcome (Output υ))) (inner : Schema σ τ) :
      Schema σ υ
  | chain {τ : OutputType} (steps : List (Output τ → StateM σ (Output τ))) (inner : Schema σ τ) :
      Schema σ τ
  | coerce {τ : OutputType} (coercion : Coercion) (inner : Schema σ τ) : Schema σ τ

namespace Schema

variable {σ : Type}

/-- The kind of a schema; a modifier has the kind of the schema within it. -/
def kind {τ : OutputType} : Schema σ τ → Kind
  | text _ => .text
  | number _ => .number
  | boolean _ => .boolean
  | date _ => .date
  | literal _ => .constant
  | enumeration _ => .enumeration
  | anything => .anything
  | custom kind _ => kind
  | list .. => .list
  | tuple .. => .tuple
  | object _ => .object
  | record .. => .record
  | union .. => .union
  | intersection .. => .intersection
  | erased inner => inner.kind
  | nullable inner => inner.kind
  | optional inner => inner.kind
  | withDefault _ inner => inner.kind
  | refine _ _ _ inner => inner.kind
  | transform _ inner => inner.kind
  | tryMap _ inner => inner.kind
  | chain _ inner => inner.kind
  | coerce _ inner => inner.kind

mutual
def validator {τ : OutputType} : Schema σ τ → Validator σ (Output τ)
  | text rules => .ofOutcome (Validator.textOutcome rules)
  | number rules => .ofOutcome (Validator.numberOutcome rules)
  | boolean kindMessage => .ofOutcome (Validator.booleanOutcome kindMessage)
  | date rules => .ofOutcome (Validator.dateOutcome rules)
  | literal l => .ofOutcome (Validator.literalOutcome l)
  | enumeration e => .ofOutcome (Validator.enumerationOutcome e)
  | anything => .ofOutcome fun v _ => .success v
  | custom _ validator => validator
  | list rules item => .list rules item.validator
  | tuple kindMessage positions => .tuple kindMessage (validators positions)
  | object ⟨fields, unknown, kindMessage⟩ =>
    .object ⟨fieldValidators fields, unknownValidator unknown, kindMessage⟩
  | record kindMessage key value => .record kindMessage key.validator value.validator
  | union message alternatives => .union message (validators alternatives)
  | intersection kindMessage components =>
    .intersection kindMessage (componentValidators components)
  | @erased _ t inner => inner.validator.map (Output.erase t)
  | nullable inner => inner.validator.nullable
  | optional inner => inner.validator.optional
  | withDefault fallback inner => inner.validator.withDefault fallback
  | refine test message code inner => inner.validator.refine test message code
  | transform f inner => inner.validator.transform f
  | tryMap f inner => inner.validator.tryMap f
  | chain steps inner => inner.validator.chain steps
  | coerce coercion inner => inner.validator.coerce coercion

def validators : List (Schema σ .value) → List (Validator σ Value)
  | [] => []
  | s :: rest => s.validator :: validators rest

def componentValidators : List (Schema σ .map) → List (Validator σ (Entries Value))
  | [] => []
  | s :: rest => s.validator :: componentValidators rest

def fieldValidators : List (String × Schema σ .value) → List (String × Validator σ Value)
  | [] => []
  | (name, s) :: rest => (name, s.validator) :: fieldValidators rest

def unknownValidator : UnknownKeys (Schema σ .value) → UnknownKeys (Validator σ Value)
  | .strip => .strip
  | .allow => .allow
  | .deny => .deny
  | .validate s => .validate s.validator
end

end Schema

end Conform
