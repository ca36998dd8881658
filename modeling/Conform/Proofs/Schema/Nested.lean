import Conform.Proofs.Validator.Coercion
import Conform.Proofs.Validator.Erasure
import Conform.Schema.Nested

/-!
# Nested schemas and schemas of values

A nested schema keeps the outputs of its parts as they are until all of it is erased.  The schema
that erases them as they come answers the same, so that what holds of schemas holds of nested ones:
they run the same functions, report the same issues, and their outputs are the same values.
-/

set_option autoImplicit false

namespace Conform.NestedSchema

variable {σ : Type} {t : NestedType}

theorem kind_erased (s : NestedSchema σ t) : s.erased.kind = s.kind := by
  induction s with
  | plain | list | record | refine | transform | tryMap | chain => rfl
  | nullable inner ih | optional inner ih | withDefault fallback inner ih | coerce c inner ih =>
    exact ih

/-- Erasing the parts is erasing the whole. -/
theorem validator_erased (s : NestedSchema σ t) : s.erased.validator = s.validator.map t.erase := by
  induction s with
  | plain schema =>
    rw [erased, Schema.validator]
    rfl
  | list rules item ih =>
    rw [erased, Schema.validator, Schema.validator, ih]
    exact Validator.list_erased _ rules _
  | record kindMessage key value ih =>
    rw [erased, Schema.validator, Schema.validator, ih]
    exact Validator.record_erased _ kindMessage _ _
  | nullable inner ih =>
    rw [erased, Schema.validator, ih]
    exact Validator.nullable_map _ _
  | optional inner ih =>
    rw [erased, Schema.validator, ih]
    exact Validator.optional_map _ _
  | withDefault fallback inner ih =>
    rw [erased, Schema.validator, ih]
    exact Validator.withDefault_map _ fallback _
  | coerce c inner ih =>
    rw [erased, Schema.validator, ih]
    exact (Validator.coerce_mapOutcome c _ _).symm
  | refine | transform | tryMap | chain =>
    rw [erased, asCustom, Schema.validator]
    rfl

end Conform.NestedSchema
