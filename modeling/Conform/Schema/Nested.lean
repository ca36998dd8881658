import Conform.Schema.Basic

/-!
# Outputs within outputs

The output of a list, of a record and of a schema that accepts null or absent values is made of the
outputs of the schema within.  Nothing in it has been erased, so a test sees what is absent at every
depth.  `NestedSchema.erased` is the schema whose parts answer with values.
-/

set_option autoImplicit false

namespace Conform

inductive NestedType where
  | plain (τ : OutputType)
  | list (item : NestedType)
  | record (value : NestedType)
  | nullable (inner : NestedType)
  | optional (inner : NestedType)

namespace NestedType

def Output : NestedType → Type
  | plain τ => Conform.Output τ
  | list item => List item.Output
  | record value => Entries value.Output
  | nullable inner => Option inner.Output
  | optional inner => Presence inner.Output

/-- The value of an output. -/
def erase : (t : NestedType) → t.Output → Value
  | plain τ, a => Conform.Output.erase τ a
  | list item, as => Value.ofList item.erase as
  | record value, entries => Value.ofEntries value.erase entries
  | nullable inner, a => Value.ofOption inner.erase a
  | optional inner, a => Value.ofPresence inner.erase a

end NestedType

inductive NestedSchema (σ : Type) : NestedType → Type
  | plain {τ : OutputType} (schema : Schema σ τ) : NestedSchema σ (.plain τ)
  | list {t : NestedType} (rules : LengthRules) (item : NestedSchema σ t) : NestedSchema σ (.list t)
  | record {t : NestedType} (kindMessage : Option String) (key : Schema σ .text)
      (value : NestedSchema σ t) : NestedSchema σ (.record t)
  | nullable {t : NestedType} (inner : NestedSchema σ t) : NestedSchema σ (.nullable t)
  | optional {t : NestedType} (inner : NestedSchema σ t) : NestedSchema σ (.optional t)
  | withDefault {t : NestedType} (fallback : StateM σ t.Output) (inner : NestedSchema σ t) :
      NestedSchema σ t
  | refine {t : NestedType} (test : t.Output → StateM σ Bool) (message code : String)
      (inner : NestedSchema σ t) : NestedSchema σ t
  | transform {t u : NestedType} (f : t.Output → StateM σ u.Output) (inner : NestedSchema σ t) :
      NestedSchema σ u
  | tryMap {t u : NestedType} (f : t.Output → StateM σ (Outcome u.Output))
      (inner : NestedSchema σ t) : NestedSchema σ u
  | chain {t : NestedType} (steps : List (t.Output → StateM σ t.Output))
      (inner : NestedSchema σ t) : NestedSchema σ t
  | coerce {t : NestedType} (coercion : Coercion) (inner : NestedSchema σ t) : NestedSchema σ t

namespace NestedSchema

variable {σ : Type}

def kind {t : NestedType} : NestedSchema σ t → Kind
  | plain schema => schema.kind
  | list .. => .list
  | record .. => .record
  | nullable inner => inner.kind
  | optional inner => inner.kind
  | withDefault _ inner => inner.kind
  | refine _ _ _ inner => inner.kind
  | transform _ inner => inner.kind
  | tryMap _ inner => inner.kind
  | chain _ inner => inner.kind
  | coerce _ inner => inner.kind

def validator {t : NestedType} : NestedSchema σ t → Validator σ t.Output
  | plain schema => schema.validator
  | list rules item => .list rules item.validator
  | record kindMessage key value => .record kindMessage key.validator value.validator
  | nullable inner => inner.validator.option
  | optional inner => inner.validator.presence
  | withDefault fallback inner => inner.validator.withDefault fallback
  | refine test message code inner => inner.validator.refine test message code
  | transform f inner => inner.validator.transform f
  | tryMap f inner => inner.validator.tryMap f
  | chain steps inner => inner.validator.chain steps
  | coerce coercion inner => inner.validator.coerce coercion

/-- A validator of outputs as a schema, which answers with their values. -/
def asCustom {t : NestedType} (kind : Kind) (validator : Validator σ t.Output) : Schema σ .value :=
  @Schema.custom σ .value kind (validator.map t.erase)

/-- The schema with the same parts, which answer with values.  The functions of the caller see more
than values tell, so behind them there is a custom schema. -/
def erased {t : NestedType} : NestedSchema σ t → Schema σ .value
  | plain schema => schema.erased
  | list rules item => (Schema.list rules item.erased).erased
  | record kindMessage key value => (Schema.record kindMessage key value.erased).erased
  | nullable inner => .nullable inner.erased
  | optional inner => .optional inner.erased
  | withDefault fallback inner => .withDefault (t.erase <$> fallback) inner.erased
  | refine test message code inner =>
    asCustom inner.kind (inner.validator.refine test message code)
  | transform f inner => asCustom inner.kind (inner.validator.transform f)
  | tryMap f inner => asCustom inner.kind (inner.validator.tryMap f)
  | chain steps inner => asCustom inner.kind (inner.validator.chain steps)
  | coerce coercion inner => .coerce coercion inner.erased

end NestedSchema

end Conform
