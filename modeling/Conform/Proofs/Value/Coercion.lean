import Conform.Coercion

/-!
# What coercions make of values

A coercion makes values of one kind only and leaves the values of that kind alone.  So it has
nothing to do a second time, and it neither takes nor makes a null or an absent value, which are of
other kinds.
-/

set_option autoImplicit false

namespace Conform.Coercion

/-- The name of the kind of all values that the coercion makes. -/
def target : Coercion → String
  | toText => "string"
  | toNumber => "number"
  | toBoolean => "boolean"
  | toDate => "date"

theorem kindName_of_convert? {c : Coercion} {v w : Value} (h : c.convert? v = some w) :
    w.kindName = c.target := by
  cases c with
  | toText | toNumber | toBoolean | toDate =>
    obtain ⟨x, _, rfl⟩ := Option.map_eq_some_iff.mp h
    rfl

theorem convert?_of_target {c : Coercion} {v : Value} (h : v.kindName = c.target) :
    c.convert? v = none := by
  cases c <;> cases v <;> simp [Value.kindName, target] at h <;> rfl

theorem convert?_converted {c : Coercion} {v w : Value} (h : c.convert? v = some w) :
    c.convert? w = none := convert?_of_target (kindName_of_convert? h)

theorem apply_of_convert? {c : Coercion} {v w : Value} (h : c.convert? v = some w) :
    c.apply v = w := by rw [apply, h, Option.getD_some]

theorem apply_of_none {c : Coercion} {v : Value} (h : c.convert? v = none) : c.apply v = v := by
  rw [apply, h, Option.getD_none]

theorem apply_apply (c : Coercion) (v : Value) : c.apply (c.apply v) = c.apply v := by
  cases converted : c.convert? v with
  | none => rw [apply_of_none converted, apply_of_none converted]
  | some w => rw [apply_of_convert? converted, apply_of_none (convert?_converted converted)]

theorem apply_eq_self_iff (c : Coercion) (v : Value) : c.apply v = v ↔ c.convert? v = none := by
  constructor
  · intro same
    cases converted : c.convert? v with
    | none => rfl
    | some w =>
      rw [apply_of_convert? converted] at same
      subst same
      rw [convert?_converted converted] at converted
      cases converted
  · exact apply_of_none

/-! ## Null and absent values -/

theorem convert?_null (c : Coercion) : c.convert? .null = none := by cases c <;> rfl

theorem convert?_absent (c : Coercion) : c.convert? .absent = none := by cases c <;> rfl

theorem target_ne (c : Coercion) :
    c.target ≠ Value.kindName .null ∧ c.target ≠ Value.kindName .absent := by
  cases c <;> decide

theorem ne_null_of_convert? {c : Coercion} {v w : Value} (h : c.convert? v = some w) :
    w ≠ .null := by
  rintro rfl
  exact c.target_ne.1 (kindName_of_convert? h).symm

theorem ne_absent_of_convert? {c : Coercion} {v w : Value} (h : c.convert? v = some w) :
    w ≠ .absent := by
  rintro rfl
  exact c.target_ne.2 (kindName_of_convert? h).symm

end Conform.Coercion
