import Conform.Proofs.Validator.Coercion
import Conform.Schema.Build
import Conform.Schema.Parse

/-!
# Coercions among modifiers

A schema has the kind of the schema at its core, so a coercion is chosen in the same way wherever it
stands among modifiers.  It can be moved from one place to another, past any modifier, and a second
one does nothing; so of a schema that is coerced in some place, all places do the same.
-/

set_option autoImplicit false

namespace Conform

variable {σ : Type} {τ υ : OutputType}

/-! ## Modifiers -/

/-- A modifier of schemas, by the types of the outputs of the schema within and of the whole. -/
inductive Modifier (σ : Type) : OutputType → OutputType → Type
  | nullable {τ : OutputType} : Modifier σ τ .value
  | optional {τ : OutputType} : Modifier σ τ .value
  | withDefault {τ : OutputType} (fallback : StateM σ (Output τ)) : Modifier σ τ τ
  | refine {τ : OutputType} (test : Output τ → StateM σ Bool) (message code : String) :
    Modifier σ τ τ
  | transform {τ υ : OutputType} (f : Output τ → StateM σ (Output υ)) : Modifier σ τ υ
  | tryMap {τ υ : OutputType} (f : Output τ → StateM σ (Outcome (Output υ))) : Modifier σ τ υ
  | chain {τ : OutputType} (steps : List (Output τ → StateM σ (Output τ))) : Modifier σ τ τ

namespace Modifier

def onto : {τ υ : OutputType} → Modifier σ τ υ → Schema σ τ → Schema σ υ
  | _, _, nullable, s => s.orNull
  | _, _, optional, s => s.orAbsent
  | _, _, withDefault fallback, s => .withDefault fallback s
  | _, _, refine test message code, s => .refine test message code s
  | _, _, transform f, s => .transform f s
  | _, _, tryMap f, s => .tryMap f s
  | _, _, chain steps, s => .chain steps s

/-- What the modifier does with a validator. -/
def act : {τ υ : OutputType} → Modifier σ τ υ → Validator σ (Output τ) → Validator σ (Output υ)
  | τ, _, nullable, w => (w.map (Output.erase τ)).nullable
  | τ, _, optional, w => (w.map (Output.erase τ)).optional
  | _, _, withDefault fallback, w => w.withDefault fallback
  | _, _, refine test message code, w => w.refine test message code
  | _, _, transform f, w => w.transform f
  | _, _, tryMap f, w => w.tryMap f
  | _, _, chain steps, w => w.chain steps

theorem onto_kind (m : Modifier σ τ υ) (s : Schema σ τ) : (m.onto s).kind = s.kind := by
  cases m <;> rfl

theorem onto_validator (m : Modifier σ τ υ) (s : Schema σ τ) :
    (m.onto s).validator = m.act s.validator := by
  cases m <;> rfl

/-- A coercion passes through every modifier. -/
theorem act_coerce (m : Modifier σ τ υ) (c : Coercion) (w : Validator σ (Output τ)) :
    m.act (w.coerce c) = (m.act w).coerce c := by
  cases m with
  | nullable =>
    rw [act, Validator.map, Validator.coerce_mapOutcome, Validator.coerce_nullable]
    rfl
  | optional =>
    rw [act, Validator.map, Validator.coerce_mapOutcome, Validator.coerce_optional]
    rfl
  | withDefault fallback => exact Validator.coerce_withDefault c fallback w
  | refine test message code => exact Validator.coerce_refine c test message code w
  | transform f => exact Validator.coerce_transform c f w
  | tryMap f => exact Validator.coerce_tryMap c f w
  | chain steps => exact Validator.coerce_chain c steps w

end Modifier

/-! ## Stacks of modifiers -/

/-- Modifiers around a schema, the outermost last, with coercions among them. -/
inductive Modifiers (σ : Type) (τ : OutputType) : OutputType → Type
  | none : Modifiers σ τ τ
  | modify {υ φ : OutputType} (inner : Modifiers σ τ υ) (m : Modifier σ υ φ) : Modifiers σ τ φ
  | coerce {υ : OutputType} (inner : Modifiers σ τ υ) : Modifiers σ τ υ

namespace Modifiers

/-- The schema with the modifiers around it, unless it cannot be coerced. -/
def onto (s : Schema σ τ) : {υ : OutputType} → Modifiers σ τ υ → Except BuildFault (Schema σ υ)
  | _, none => .ok s
  | _, modify inner m => do return m.onto (← inner.onto s)
  | _, coerce inner => do (← inner.onto s).coerced

/-- The modifiers without the coercions. -/
def plain : {υ : OutputType} → Modifiers σ τ υ → Modifiers σ τ υ
  | _, none => none
  | _, modify inner m => .modify inner.plain m
  | _, coerce inner => inner.plain

def coercions : {υ : OutputType} → Modifiers σ τ υ → Nat
  | _, none => 0
  | _, modify inner _ => inner.coercions
  | _, coerce inner => inner.coercions + 1

/-- Coercions come down to a single one around all modifiers. -/
theorem onto_normal {s : Schema σ τ} {c : Coercion} (kind : Coercion.forKind? s.kind = some c)
    (ms : Modifiers σ τ υ) :
    ∃ whole modified, ms.onto s = .ok whole ∧ ms.plain.onto s = .ok modified ∧
      whole.kind = s.kind ∧ whole.validator =
        if ms.coercions = 0 then modified.validator else modified.validator.coerce c := by
  induction ms with
  | none => exact ⟨s, s, rfl, rfl, rfl, rfl⟩
  | modify inner m ih =>
    obtain ⟨whole, modified, built, plain, same, normal⟩ := ih
    refine ⟨m.onto whole, m.onto modified, ?_, ?_, (m.onto_kind whole).trans same, ?_⟩
    · rw [onto, built]
      rfl
    · rw [Modifiers.plain, onto, plain]
      rfl
    · rw [m.onto_validator, m.onto_validator, normal, coercions]
      split
      · rfl
      · -- The coercion within moves out past the modifier.
        rw [m.act_coerce]
  | coerce inner ih =>
    obtain ⟨whole, modified, built, plain, same, normal⟩ := ih
    have coerced : whole.coerced = .ok (.coerce c whole) := by
      rw [Schema.coerced, same, kind]
    refine ⟨.coerce c whole, modified, ?_, plain, same, ?_⟩
    · rw [onto, built]
      exact coerced
    · rw [Schema.validator, normal, coercions, if_neg (Nat.succ_ne_zero _)]
      split
      · rfl
      · rw [Validator.coerce_coerce]

end Modifiers

/-! ## Where the coercion stands -/

namespace Schema

/-- Around a schema that can be coerced, a coercion may stand anywhere among the modifiers, and more
than once: each time it is the same one, the schema can be built, and it does the same for every
value at every path.  The coercion does nothing to what it has made, neither takes nor makes a null
or an absent value, and makes no difference to the schema for values that it leaves alone. -/
theorem coercion_passes_modifiers {s : Schema σ τ} {c : Coercion}
    (kind : Coercion.forKind? s.kind = some c) :
    (∀ {υ : OutputType} (ms ns : Modifiers σ τ υ), ms.plain = ns.plain →
      ms.coercions ≠ 0 → ns.coercions ≠ 0 →
      ∃ left right, ms.onto s = .ok left ∧ ns.onto s = .ok right ∧ left.validate = right.validate) ∧
    (∀ {υ : OutputType} (ms : Modifiers σ τ υ),
      ∃ whole, ms.onto s = .ok whole ∧ whole.coerced = .ok (.coerce c whole)) ∧
    (∀ v, c.apply (c.apply v) = c.apply v) ∧
    c.convert? .null = none ∧ c.convert? .absent = none ∧
    (∀ v w, c.convert? v = some w → w ≠ .null ∧ w ≠ .absent) ∧
    ∀ v p, c.apply v = v → (coerce c s).validate v p = s.validate v p := by
  refine ⟨?_, ?_, c.apply_apply, c.convert?_null, c.convert?_absent, ?_, ?_⟩
  · intro υ ms ns same some some'
    obtain ⟨left, modified, built, plain, _, normal⟩ := ms.onto_normal kind
    obtain ⟨right, modified', built', plain', _, normal'⟩ := ns.onto_normal kind
    rw [same, plain'] at plain
    cases plain
    rw [if_neg some] at normal
    rw [if_neg some'] at normal'
    refine ⟨left, right, built, built', ?_⟩
    funext v p
    rw [validate, validate, normal, normal']
  · intro υ ms
    obtain ⟨whole, _, built, _, same, _⟩ := ms.onto_normal kind
    exact ⟨whole, built, by rw [coerced, same, kind]⟩
  · exact fun v w made => ⟨Coercion.ne_null_of_convert? made, Coercion.ne_absent_of_convert? made⟩
  · intro v p alone
    rw [validate, validate, validator, Validator.coerce, (c.apply_eq_self_iff v).mp alone]

/-- Brings a number between 0 and 9. -/
def digit : Modifier Unit .number .number :=
  .transform fun (x : Binary64) => pure (x.clamp .zero (.ofNat 9))

/-- A digit that may be null, coerced as a whole. -/
def coercedDigit : Modifiers Unit .number .value :=
  .coerce (.modify (.modify .none digit) .nullable)

/-- A digit that may be null, of a number that is coerced. -/
def digitOfCoerced : Modifiers Unit .number .value :=
  .modify (.modify (.coerce .none) digit) .nullable

theorem digit_coercion_passes_modifiers :
    (∃ left right, coercedDigit.onto (.number .empty) = .ok left ∧
      digitOfCoerced.onto (.number .empty) = .ok right ∧ left.validate = right.validate) ∧
    (∃ whole, digitOfCoerced.onto (.number .empty) = .ok whole ∧
      whole.coerced = .ok (.coerce .toNumber whole)) ∧
    Coercion.toNumber.apply (Coercion.toNumber.apply (.bool true)) = .number (.ofNat 1) ∧
    (coerce .toNumber (.number .empty) : Schema Unit .number).validate .null .root =
      (number .empty).validate .null .root := by
  have kind : Coercion.forKind? (number .empty : Schema Unit .number).kind = some .toNumber := rfl
  obtain ⟨anywhere, chosen, again, _, _, _, alone⟩ := coercion_passes_modifiers kind
  exact ⟨anywhere coercedDigit digitOfCoerced rfl (by decide) (by decide), chosen digitOfCoerced,
    (again (.bool true)).trans rfl, alone .null .root rfl⟩

end Schema

end Conform
