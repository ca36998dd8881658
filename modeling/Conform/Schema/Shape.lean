import Conform.Schema.Basic

/-!
# Shapes of objects

A shape is built field by field.  Declaring a name again keeps its place and replaces its schema;
what becomes of undeclared keys, and the message for values that are no objects, stay those of the
shape that is built upon.
-/

set_option autoImplicit false

namespace Conform.Shape

variable {α : Type}

/-- No fields; other keys are stripped. -/
def empty : Shape α := ⟨[], .strip, none⟩

def declare (shape : Shape α) (name : String) (schema : α) : Shape α :=
  { shape with fields := Entries.insert shape.fields name schema }

def names (shape : Shape α) : List String := Entries.keys shape.fields

def pick (shape : Shape α) (names : List String) : Shape α :=
  { shape with fields := Entries.restrict shape.fields names }

def without (shape : Shape α) (names : List String) : Shape α :=
  { shape with fields := Entries.without shape.fields names }

/-- The shape with the fields of another one, which replace those of the same names. -/
def extend (shape other : Shape α) : Shape α :=
  { shape with fields := Entries.merge shape.fields other.fields }

def withUnknown (shape : Shape α) (unknown : UnknownKeys α) : Shape α :=
  { shape with unknown := unknown }

def message (shape : Shape α) (message : String) : Shape α :=
  { shape with kindMessage := some message }

variable {σ : Type}

/-- Declares a field of any type of output. -/
def field {τ : OutputType} (shape : Shape (Schema σ .value)) (name : String) (schema : Schema σ τ) :
    Shape (Schema σ .value) :=
  shape.declare name schema.erased

def optionalField {τ : OutputType} (shape : Shape (Schema σ .value)) (name : String)
    (schema : Schema σ τ) : Shape (Schema σ .value) :=
  shape.declare name (.optional schema.erased)

/-- Declares a field with something in the place of an absent value. -/
def defaultField {τ : OutputType} (shape : Shape (Schema σ .value)) (name : String)
    (schema : Schema σ τ) (fallback : Output τ) : Shape (Schema σ .value) :=
  shape.declare name (Schema.withDefault (pure fallback) schema).erased

end Conform.Shape
