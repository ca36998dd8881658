import Conform.Proofs.Schema.Structure
import Conform.Proofs.Validator.Success

/-!
# What holds of every output

The outputs of a schema are put together from those of the schemas within it.  So a condition that
lists and objects inherit from their parts holds of every output, as soon as it holds of what comes
from elsewhere: of the answers of schemas without parts, of the results of functions of the caller,
and of fallbacks.  Nothing is asked of the input, provided that none of its entries is kept unseen.
-/

set_option autoImplicit false

namespace Conform

/-- A condition that lists inherit from their items, and objects from their entries, where no entry
of the object itself is absent. -/
structure Value.Inherited (Q : Value → Prop) : Prop where
  absent : Q .absent
  null : Q .null
  list : ∀ items : List Value, (∀ v ∈ items, Q v) → Q (.list items)
  object : ∀ entries : Entries Value, (∀ e ∈ entries, Q e.2) → Q (.object (present entries))

/-- The condition on an output: on the values of a map, whose own entries may be absent, and on any
other output as the value that it is. -/
def Output.Meets (Q : Value → Prop) : (τ : OutputType) → Output τ → Prop
  | .map, entries => ∀ e ∈ entries, Q e.2
  | τ, a => Q (view τ a)

theorem Value.Inherited.erase {Q : Value → Prop} (h : Inherited Q) {τ : OutputType} {a : Output τ}
    (meets : Output.Meets Q τ a) : Q (Output.erase τ a) := by
  cases τ with
  | map => exact h.object a meets
  | text | number | boolean | date | list | value => exact meets

namespace Schema

open Validator

variable {σ : Type}

/-- Schemas whose answers are not made of the answers of schemas within them. -/
def Originates {τ : OutputType} : Schema σ τ → Prop
  | text _ | number _ | boolean _ | date _ | literal _ | enumeration _ | anything | custom .. =>
    True
  | transform .. | tryMap .. | chain .. => True
  | _ => False

variable {Q : Value → Prop}

theorem unknownAnswer_meets {unknown : UnknownKeys (Schema σ .value)} {entries kept : Entries Value}
    (seen : unknown ≠ .allow)
    (h : unknown.Holds fun s => ∀ v a, s.validator.CanAnswer v a → Q a)
    (found : UnknownAnswer CanAnswer (unknown.map validator) entries kept) : ∀ e ∈ kept, Q e.2 := by
  cases unknown with
  | strip | deny =>
    cases found
    exact nofun
  | allow => exact absurd rfl seen
  | validate s =>
    cases found with
    | validate answers =>
      intro k member
      obtain ⟨e, _, _, answer⟩ := exists_of_mem_right answers member
      exact h e.2 k.2 answer

/-- A condition on all outputs of a schema, from conditions on the schemas within it: where an
output originates the condition holds of it, and no entry of the input is allowed unseen. -/
theorem Every.outputs_meet {P : (τ : OutputType) → Schema σ τ → Prop}
    (inherited : Value.Inherited Q)
    (origin : ∀ (τ : OutputType) (s : Schema σ τ), s.Originates → P τ s →
      ∀ v a, s.validator.CanAnswer v a → Output.Meets Q τ a)
    (fallbacks : ∀ (τ : OutputType) (fallback : StateM σ (Output τ)) (inner : Schema σ τ),
      P τ (.withDefault fallback inner) → ∀ t, Output.Meets Q τ (fallback.run t).1)
    (seen : ∀ shape : Shape (Schema σ .value), P _ (.object shape) → shape.unknown ≠ .allow)
    {τ : OutputType} {s : Schema σ τ} (h : s.Every P) :
    ∀ v a, s.validator.CanAnswer v a → Output.Meets Q τ a := by
  induction s using parts_induction with
  | text | number | boolean | date | literal | enumeration | anything | custom =>
    exact origin _ _ trivial h
  | transform | tryMap | chain => exact origin _ _ trivial h.self
  | list rules item ih =>
    intro v as found
    obtain ⟨items, rfl, _, answers⟩ := list_canAnswer found
    refine inherited.list as fun a member => ?_
    obtain ⟨item, _, answer⟩ := exists_of_mem_right answers member
    exact ih h.2 item a answer
  | tuple kindMessage positions ih =>
    intro v as found
    rw [validator_tuple] at found
    refine inherited.list as fun a member => ?_
    obtain ⟨w, inPositions, i, answer⟩ := (tuple_canAnswer found).exists_of_mem member
    obtain ⟨s, there, rfl⟩ := List.mem_map.mp inPositions
    exact ih s there ((every_tuple_iff.mp h).2 s there) (v.item i) a answer
  | object shape fields unknown =>
    intro v out found
    obtain ⟨self, inFields, inUnknown⟩ := every_object_iff.mp h
    rw [validator_object] at found
    obtain ⟨entries, declared, others, rfl, rfl, answers, kept⟩ := object_canAnswer found
    intro e member
    rcases List.mem_append.mp member with ofDeclared | ofOthers
    · obtain ⟨f, ofField, _, answer⟩ :=
        exists_of_mem_right answers (List.mem_filter.mp ofDeclared).1
      obtain ⟨g, there, rfl⟩ := List.mem_map.mp ofField
      exact fields g there (inFields g there) _ e.2 answer
    · exact unknownAnswer_meets (seen shape self) (unknown.mp inUnknown) kept e ofOthers
  | record kindMessage key value _ values =>
    intro v out found o member
    obtain ⟨entries, rfl, _, answers⟩ := record_canAnswer found
    obtain ⟨e, _, _, answer⟩ := exists_of_mem_right answers member
    exact values h.2.2 e.2 o.2 answer
  | union message alternatives ih =>
    intro v a found
    rw [validator_union] at found
    obtain ⟨w, member, answer⟩ := union_canAnswer found
    obtain ⟨s, there, rfl⟩ := List.mem_map.mp member
    exact ih s there ((every_union_iff.mp h).2 s there) v a answer
  | intersection kindMessage components ih =>
    -- The condition on a map is on its values alone, so it does not matter which entries are
    -- overwritten.
    intro v out found e member
    rw [validator_intersection] at found
    obtain ⟨outs, rfl, answers⟩ := intersection_canAnswer found
    obtain ⟨o, there, inOutput⟩ := mem_of_mem_mergeAll member
    obtain ⟨w, inComponents, answer⟩ := exists_of_mem_right answers there
    obtain ⟨s, component, rfl⟩ := List.mem_map.mp inComponents
    exact ih s component ((every_intersection_iff.mp h).2 s component) v o answer e inOutput
  | erased τ inner ih =>
    intro v a found
    obtain ⟨b, answer, rfl⟩ := map_canAnswer found
    exact inherited.erase (ih h.2 v b answer)
  | nullable inner ih =>
    intro v a found
    rcases nullable_canAnswer found with rfl | answer
    · exact inherited.null
    · exact ih h.2 v a answer
  | optional inner ih =>
    intro v a found
    rcases optional_canAnswer found with ⟨_, rfl⟩ | ⟨_, answer⟩
    · exact inherited.absent
    · exact ih h.2 v a answer
  | withDefault τ fallback inner ih =>
    intro v a found
    rcases withDefault_canAnswer found with ⟨_, t, rfl⟩ | ⟨_, answer⟩
    · exact fallbacks τ fallback inner h.1 t
    · exact ih h.2 v a answer
  | refine τ test message code inner ih =>
    intro v a found
    exact ih h.2 v a (refine_canAnswer found).1
  | coerce τ c inner ih =>
    intro v a found
    exact ih h.2 (c.apply v) a (coerce_canAnswer found)

end Schema

end Conform
