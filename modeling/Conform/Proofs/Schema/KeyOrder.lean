import Conform.Proofs.Schema.Structure
import Conform.Proofs.Validator.KeyOrder
import Conform.Schema.Parse

/-!
# The order of keys never decides

Two values that differ in nothing but the order of keys are both accepted or both rejected, provided
that the functions of the caller see no such order either.  The outputs differ in nothing but the
order of keys, and the issues stand at the same places and have the same codes, in some order.  Only
a duplicate key may be reported at another one of the keys that collide, but never once more or
less.
-/

set_option autoImplicit false

namespace Conform

/-- Outputs that are equal up to the order of keys, at any depth. -/
def Output.Reordered (τ : OutputType) (a b : Output τ) : Prop :=
  (Output.view τ a).Reordered (Output.view τ b)

namespace Schema

open Validator

variable {σ : Type} {τ : OutputType}

/-- The condition on a schema apart from the schemas within it: the functions of the caller answer
reordered arguments alike, from whatever states, and a fallback is always the same value. -/
def OrderBlindStep : (τ : OutputType) → Schema σ τ → Prop
  | _, custom .. => False
  | _, object shape => (Entries.keys shape.fields).Nodup
  | τ, withDefault fallback _ => ∀ s t, Output.Reordered τ (fallback.run s).1 (fallback.run t).1
  | τ, @refine _ _ test _ _ _ => Respects (Output.Reordered τ) Eq test
  | _, @transform _ τ υ f _ => Respects (Output.Reordered τ) (Output.Reordered υ) f
  | _, @tryMap _ τ υ f _ =>
    Respects (Output.Reordered τ) (Outcome.Corresponds (Output.Reordered υ)) f
  | τ, chain fs _ => ∀ f ∈ fs, Respects (Output.Reordered τ) (Output.Reordered τ) f
  | _, _ => True

def OrderBlind (s : Schema σ τ) : Prop := s.Every OrderBlindStep

theorem erase_reordered {a b : Output τ} (h : Output.Reordered τ a b) :
    (Output.erase τ a).Reordered (Output.erase τ b) := by
  cases τ with
  | map =>
    exact Value.reordered_object_iff.mpr (Value.present_reordered (Value.reordered_object_iff.mp h))
  | text | number | boolean | date | list | value => exact h

theorem OrderBlind.validator {s : Schema σ τ} (h : s.OrderBlind) :
    s.validator.OrderBlind (Output.Reordered τ) := by
  induction s using parts_induction with
  | text rules =>
    exact .of_wrongKind "string" rules.kindMessage (fun _ => .same rfl rfl) (fun _ _ => rfl)
      fun _ _ => rfl
  | number rules =>
    exact .of_wrongKind "number" rules.kindMessage (fun _ => .same rfl rfl) (fun _ _ => rfl)
      fun _ _ => rfl
  | boolean kindMessage =>
    exact .of_wrongKind "boolean" kindMessage (fun _ => .same rfl rfl) (fun _ _ => rfl)
      fun _ _ => rfl
  | date rules =>
    exact .of_wrongKind "date" rules.kindMessage (fun _ => .same rfl rfl) (fun _ _ => rfl)
      fun _ _ => rfl
  | literal l => exact literal_orderBlind l
  | enumeration e => exact enumeration_orderBlind e
  | anything => exact anything_orderBlind
  | custom => exact h.elim
  | list rules item ih =>
    exact (list_orderBlind rules (ih h.2)).imp fun _ _ items => .list items
  | tuple kindMessage positions ih =>
    have parts := (every_tuple_iff.mp h).2
    rw [validator_tuple]
    refine (tuple_orderBlind kindMessage (List.forall_mem_map.mpr fun s there => ?_)).imp
      fun _ _ items => .list items
    exact ih s there (parts s there)
  | object shape fields unknown =>
    obtain ⟨names, inFields, inUnknown⟩ := every_object_iff.mp h
    rw [validator_object]
    refine (object_orderBlind ?_ (List.forall_mem_map.mpr fun f there => ?_) ?_).imp
      fun _ _ => Value.reordered_object_iff.mpr
    · rw [shapeValidators, Entries.keys, List.map_map]
      exact names
    · exact fields f there (inFields f there)
    · exact UnknownKeys.holds_map.mpr (unknown.mp inUnknown)
  | record kindMessage key value keys values =>
    have sameKeys : key.validator.OrderBlind Eq := by
      refine (keys h.2.1).imp ?_
      intro a b same
      cases same
      rfl
    exact (record_orderBlind kindMessage sameKeys (values h.2.2)).imp
      fun _ _ => Value.reordered_object_iff.mpr
  | union message alternatives ih =>
    have parts := (every_union_iff.mp h).2
    rw [validator_union]
    exact union_orderBlind message
      (List.forall_mem_map.mpr fun s there => ih s there (parts s there))
  | intersection kindMessage components ih =>
    have parts := (every_intersection_iff.mp h).2
    rw [validator_intersection]
    refine (intersection_orderBlind kindMessage (List.forall_mem_map.mpr fun s there => ?_)).imp
      fun _ _ => Value.reordered_object_iff.mpr
    exact (ih s there (parts s there)).imp fun _ _ => Value.reordered_object_iff.mp
  | erased τ inner ih => exact (ih h.2).map fun _ _ => erase_reordered
  | nullable inner ih => exact nullable_orderBlind (ih h.2)
  | optional inner ih => exact optional_orderBlind (ih h.2)
  | withDefault τ fallback inner ih => exact withDefault_orderBlind h.1 (ih h.2)
  | refine τ test message code inner ih => exact refine_orderBlind h.1 message code (ih h.2)
  | transform τ υ f inner ih => exact transform_orderBlind h.1 (ih h.2)
  | tryMap τ υ f inner ih => exact tryMap_orderBlind h.1 (ih h.2)
  | chain τ fs inner ih => exact transform_orderBlind (steps_respects h.1) (ih h.2)
  | coerce τ c inner ih => exact coerce_orderBlind c (ih h.2)

/-- On reorderings of one value a schema succeeds or fails alike; the outputs are reorderings of
each other, and the issues are as many, with as many duplicate keys among them, and the others at
the same paths with the same codes, in any order. -/
theorem validate_reordered (s : Schema σ τ) (h : s.OrderBlind) {v w : Value} (same : v.Reordered w)
    (p : Path) (t u : σ) :
    ((∃ a, (s.validate v p t).result = .success a) ↔
        ∃ b, (s.validate w p u).result = .success b) ∧
      (∀ a b, (s.validate v p t).result = .success a → (s.validate w p u).result = .success b →
        Output.Reordered τ a b) ∧
      ∀ es fs, (s.validate v p t).result.issues = es → (s.validate w p u).result.issues = fs →
        es.length = fs.length ∧
        es.countP (fun e => e.code = "duplicate_key") =
          fs.countP (fun e => e.code = "duplicate_key") ∧
        ((es.filter fun e => e.code ≠ "duplicate_key").map fun e => (e.path, e.code)).Perm
          ((fs.filter fun e => e.code ≠ "duplicate_key").map fun e => (e.path, e.code)) := by
  have both : Outcome.Corresponds (Output.Reordered τ) (s.validate v p t).result
      (s.validate w p u).result := h.validator v w same p t u
  refine ⟨?_, ?_, ?_⟩
  · rw [← Outcome.issues_eq_nil_iff, ← Outcome.issues_eq_nil_iff, both.issues.nil_iff]
  · intro a b ofLeft ofRight
    rw [ofLeft, ofRight] at both
    cases both with
    | success answers => exact answers
  · rintro es fs rfl rfl
    exact ⟨both.issues.length_eq, both.issues.countP_duplicates, both.issues.perm_others⟩

/-- Numbers under keys of which one may have two names, and an owner.  Of the two entries for gold
the one that comes second is the duplicate. -/
def metals : Schema Unit .map :=
  .object ⟨[("metals", .erased (.record none
      (.chain [fun s => pure (if s = "au" then "gold" else s)] (.text .empty))
      (.erased (.number .empty)))),
    ("owner", .erased (.text .empty))], .deny, none⟩

def metalsInput : Value :=
  .object [("metals", .object [("au", .number .zero), ("gold", .number .zero), ("iron", .null)]),
    ("owner", .text "me")]

def metalsReordered : Value :=
  .object [("owner", .text "me"),
    ("metals", .object [("gold", .number .zero), ("au", .number .zero), ("iron", .null)])]

theorem metals_validate_reordered :
    metals.OrderBlind ∧ metalsInput.Reordered metalsReordered ∧
      ((metals.validate metalsInput .root ()).result.issues.countP fun e =>
        e.code = "duplicate_key") = 1 := by
  have blind : metals.OrderBlind := by
    refine every_object_iff.mpr ⟨by simp [OrderBlindStep, Entries.keys], ?_, trivial⟩
    simp only [List.forall_mem_cons, List.not_mem_nil, false_implies, implies_true, and_true]
    refine ⟨⟨trivial, trivial, ⟨?_, trivial⟩, trivial, trivial⟩, trivial, trivial⟩
    refine List.forall_mem_singleton.mpr fun a b same _ _ => ?_
    cases same
    exact .same rfl rfl
  have same : metalsInput.Reordered metalsReordered := by
    refine .object (by simp [Entries.keys]) (.swap _ _ _) rfl ?_
    refine .cons (.same rfl rfl) (.cons ?_ .nil)
    refine .object (by simp [Entries.keys]) (.swap _ _ _) rfl ?_
    exact .cons (.same rfl rfl) (.cons (.same rfl rfl) (.cons (.same rfl rfl) .nil))
  refine ⟨blind, same, ?_⟩
  exact ((validate_reordered metals blind same .root () ()).2.2 _ _ rfl rfl).2.1.trans rfl

end Schema

end Conform
