import Conform.Proofs.Value.Coercion
import Conform.Proofs.Value.Depth
import Conform.Validator.Modifier

/-!
# Coercions pass through modifiers

A modifier that goes on with the output of the validator within it does not see the value, and one
that answers for null or absent values itself answers for values that no coercion converts or
makes.  So it makes no difference whether a value is converted before or behind a modifier.
-/

set_option autoImplicit false

namespace Conform.Validator

variable {σ α β : Type}

/-! ## Two forms of modifiers -/

/-- The validator, followed by a step that sees its outcome. -/
def andThen (inner : Validator σ α) (k : Path → Outcome α → Run σ (Outcome β)) : Validator σ β :=
  fun v p => inner v p >>= k p

/-- The validator, but for values that are answered without it. -/
def except (test : Value → Bool) (answer : Run σ (Outcome α)) (inner : Validator σ α) :
    Validator σ α := fun v p => if test v then answer else inner v p

theorem coerce_result (c : Coercion) (inner : Validator σ α) (v : Value) (p : Path) (s : σ) :
    (inner.coerce c v p s).result = (inner (c.apply v) p s).result := by
  rw [coerce]
  cases converted : c.convert? v with
  | none => rw [Coercion.apply_of_none converted]
  | some w =>
    rw [Coercion.apply_of_convert? converted]
    rfl

theorem coerce_andThen (c : Coercion) (inner : Validator σ α)
    (k : Path → Outcome α → Run σ (Outcome β)) :
    (inner.coerce c).andThen k = (inner.andThen k).coerce c := by
  funext v p
  rw [andThen, coerce, coerce]
  cases c.convert? v with
  | none => rfl
  | some w => exact bind_assoc _ _ _

/-- The test holds for no value that the coercion converts or makes. -/
def Spares (c : Coercion) (test : Value → Bool) : Prop :=
  ∀ v w, c.convert? v = some w → test v = false ∧ test w = false

theorem coerce_except {c : Coercion} {test : Value → Bool} (spares : Spares c test)
    (answer : Run σ (Outcome α)) (inner : Validator σ α) :
    (inner.coerce c).except test answer = (inner.except test answer).coerce c := by
  funext v p
  cases converted : c.convert? v with
  | none =>
    simp only [except, coerce, converted]
  | some w =>
    obtain ⟨before, after⟩ := spares v w converted
    simp only [except, coerce, converted, before, after]
    rfl

/-- A test for one value that the coercion neither converts nor makes. -/
theorem spares_of_iff {c : Coercion} {test : Value → Bool} {u : Value}
    (only : ∀ v, test v = true ↔ v = u) (left : c.convert? u = none)
    (notMade : ∀ v w, c.convert? v = some w → w ≠ u) : Spares c test := by
  intro v w converted
  constructor
  · rw [Bool.eq_false_iff, ne_eq, only]
    rintro rfl
    rw [left] at converted
    cases converted
  · rw [Bool.eq_false_iff, ne_eq, only]
    exact notMade v w converted

theorem spares_isNull (c : Coercion) : Spares c Value.isNull :=
  spares_of_iff Value.isNull_iff c.convert?_null fun _ _ => Coercion.ne_null_of_convert?

theorem spares_isAbsent (c : Coercion) : Spares c Value.isAbsent :=
  spares_of_iff Value.isAbsent_iff c.convert?_absent fun _ _ => Coercion.ne_absent_of_convert?

/-! ## The modifiers -/

variable (c : Coercion)

theorem coerce_mapOutcome (f : Outcome α → Outcome β) (inner : Validator σ α) :
    (inner.coerce c).mapOutcome f = (inner.mapOutcome f).coerce c :=
  coerce_andThen c inner fun _ o => pure (f o)

theorem coerce_nullable (inner : Validator σ Value) :
    (inner.coerce c).nullable = inner.nullable.coerce c :=
  coerce_except (spares_isNull c) (pure (.success Value.null)) inner

theorem coerce_optional (inner : Validator σ Value) :
    (inner.coerce c).optional = inner.optional.coerce c :=
  coerce_except (spares_isAbsent c) (pure (.success Value.absent)) inner

theorem coerce_withDefault (fallback : StateM σ α) (inner : Validator σ α) :
    (inner.coerce c).withDefault fallback = (inner.withDefault fallback).coerce c :=
  coerce_except (spares_isAbsent c) (do return .success (← Run.ofState fallback)) inner

theorem coerce_refine (test : α → StateM σ Bool) (message code : String) (inner : Validator σ α) :
    (inner.coerce c).refine test message code = (inner.refine test message code).coerce c :=
  coerce_andThen c inner _

theorem coerce_transform (f : α → StateM σ β) (inner : Validator σ α) :
    (inner.coerce c).transform f = (inner.transform f).coerce c := coerce_andThen c inner _

theorem coerce_tryMap (f : α → StateM σ (Outcome β)) (inner : Validator σ α) :
    (inner.coerce c).tryMap f = (inner.tryMap f).coerce c := coerce_andThen c inner _

theorem coerce_chain (fs : List (α → StateM σ α)) (inner : Validator σ α) :
    (inner.coerce c).chain fs = (inner.chain fs).coerce c := coerce_transform c (steps fs) inner

/-- A coercion has nothing to do after itself. -/
theorem coerce_coerce (inner : Validator σ α) : (inner.coerce c).coerce c = inner.coerce c := by
  funext v p
  cases converted : c.convert? v with
  | none => simp only [coerce, converted]
  | some w => simp only [coerce, converted, Coercion.convert?_converted converted]

end Conform.Validator
