import Conform.Proofs.Run.Success
import Conform.Proofs.Schema.Structure
import Conform.Proofs.Validator.InStep
import Conform.Schema.Parse

/-!
# Paths do not matter to schemas

A schema without validators of the caller does the same with a value wherever the value stands: with
`p` put in front of the path it succeeds with the same output, and otherwise reports the same issues
with `p` in front of their paths.  So every path in an issue extends the path of the value, however
many schemas move the issues of a step of the caller.
-/

set_option autoImplicit false

namespace Conform

theorem eq_map_of_forall₂ {α β : Type} {f : α → β} {as : List α} {bs : List β}
    (h : List.Forall₂ (fun a b => b = f a) as bs) : bs = as.map f := by
  induction h with
  | nil => rfl
  | cons first _ ih => rw [first, ih, List.map_cons]

namespace Schema

open Validator

variable {σ : Type} {τ : OutputType}

theorem forall₂_validators {υ : OutputType} {m : Shift} {ss : List (Schema σ υ)}
    (h : ∀ s ∈ ss, s.validator.InStep m s.validator) :
    List.Forall₂ (InStep m) (ss.map validator) (ss.map validator) := by
  rw [List.forall₂_map_left_iff, List.forall₂_map_right_iff]
  exact List.forall₂_same.mpr h

theorem BuiltIn.inStep {s : Schema σ τ} (h : s.BuiltIn) (m : Shift) :
    s.validator.InStep m s.validator := by
  induction s using parts_induction with
  | text rules => exact InStep.ofOutcome (textOutcome_like rules)
  | number rules => exact InStep.ofOutcome (numberOutcome_like rules)
  | boolean kindMessage => exact InStep.ofOutcome (booleanOutcome_like kindMessage)
  | date rules => exact InStep.ofOutcome (dateOutcome_like rules)
  | literal l => exact InStep.ofOutcome (literalOutcome_like l)
  | enumeration e => exact InStep.ofOutcome (enumerationOutcome_like e)
  | anything => exact InStep.ofOutcome fun v _ => .success v
  | custom => exact h.elim
  | list rules item ih => exact list_inStep rules (ih h.2)
  | tuple kindMessage positions ih =>
    have parts := (every_tuple_iff.mp h).2
    rw [validator_tuple]
    exact tuple_inStep kindMessage (forall₂_validators fun s hs => ih s hs (parts s hs))
  | object shape fields unknown =>
    obtain ⟨_, inFields, inUnknown⟩ := every_object_iff.mp h
    rw [validator_object]
    refine object_inStep ⟨?_, ?_, rfl⟩
    · rw [shapeValidators, List.forall₂_map_left_iff, List.forall₂_map_right_iff]
      exact List.forall₂_same.mpr fun f hf => ⟨rfl, fields f hf (inFields f hf)⟩
    · rw [shapeValidators]
      cases kept : shape.unknown with
      | strip => exact .strip
      | allow => exact .allow
      | deny => exact .deny
      | validate s =>
        rw [kept] at unknown inUnknown
        exact .validate (unknown inUnknown)
  | record kindMessage key value keys values =>
    exact record_inStep kindMessage (keys h.2.1) (values h.2.2)
  | union message alternatives ih =>
    have parts := (every_union_iff.mp h).2
    rw [validator_union]
    exact union_inStep message (forall₂_validators fun s hs => ih s hs (parts s hs))
  | intersection kindMessage components ih =>
    have parts := (every_intersection_iff.mp h).2
    rw [validator_intersection]
    exact intersection_inStep kindMessage (forall₂_validators fun s hs => ih s hs (parts s hs))
  | erased τ inner ih => exact map_inStep (Output.erase τ) (ih h.2)
  | nullable inner ih => exact nullable_inStep (ih h.2)
  | optional inner ih => exact optional_inStep (ih h.2)
  | withDefault τ fallback inner ih => exact withDefault_inStep fallback (ih h.2)
  | refine τ test message code inner ih => exact refine_inStep test message code (ih h.2)
  | transform τ υ f inner ih => exact transform_inStep f (ih h.2)
  | tryMap τ υ f inner ih => exact tryMap_inStep f (ih h.2)
  | chain τ fs inner ih => exact transform_inStep (steps fs) (ih h.2)
  | coerce τ c inner ih => exact coerce_inStep c (ih h.2)

theorem BuiltIn.issue_extends {s : Schema σ τ} (h : s.BuiltIn) {v : Value} {p : Path} {t : σ} :
    ∀ e ∈ (s.validator v p t).result.issues, ∃ r, e.path = p ++ r := by
  have fromRoot := (h.inStep (.prepend p) v .root t).result.issues
  rw [show (Shift.prepend p).path .root = p from p.append_root] at fromRoot
  intro e member
  obtain ⟨relative, _, rfl⟩ := exists_of_mem_right fromRoot member
  exact ⟨relative.path, rfl⟩

/-- At `p ++ q` a schema succeeds when it does at `q`, with the same output, and else has the issues
of `q` with `p` in front; it leaves the same state and the same events, told of the longer path. -/
theorem validate_append (s : Schema σ τ) (h : s.BuiltIn) (v : Value) (p q : Path) (t : σ) :
    (∀ a, (s.validate v (p ++ q) t).result = .success a ↔ (s.validate v q t).result = .success a) ∧
      (s.validate v (p ++ q) t).result.issues =
        (s.validate v q t).result.issues.map (Issue.relocate p) ∧
      (s.validate v (p ++ q) t).state = (s.validate v q t).state ∧
      (s.validate v (p ++ q) t).events = (s.validate v q t).events.map (Event.move (p ++ ·)) ∧
      (s.validate v p t).result.issues =
        (s.validate v .root t).result.issues.map (Issue.relocate p) ∧
      ∀ e ∈ (s.validate v p t).result.issues, ∃ r, e.path = p ++ r := by
  have moved : ∀ r, (s.validate v (p ++ r) t).result.issues =
      (s.validate v r t).result.issues.map (Issue.relocate p) := by
    intro r
    exact eq_map_of_forall₂ (h.inStep (.prepend p) v r t).result.issues
  have inStep := h.inStep (.prepend p) v q t
  have fromRoot := moved .root
  rw [Path.append_root] at fromRoot
  refine ⟨fun a => inStep.result.success_iff a, moved q, inStep.state.symm,
    eq_map_of_forall₂ inStep.events, fromRoot, ?_⟩
  intro e he
  rw [fromRoot] at he
  obtain ⟨relative, _, rfl⟩ := List.mem_map.mp he
  exact ⟨relative.path, rfl⟩

/-- A step that refuses every value, within another one, in a union, in a list, in an object. -/
def nestedSteps : Schema Unit .map :=
  .object ⟨[("a", .erased (.list .empty (.union none
    [@tryMap Unit .text .value (fun s => pure (.success (.text s)))
      (@tryMap Unit .text .text (fun _ => pure (.fail (.plain (Path.root.field "x") "no")))
        (.text .empty))])))], .deny, none⟩

theorem nestedSteps_validate_append :
    nestedSteps.BuiltIn ∧
      (nestedSteps.validate (.object [("a", .list [.text "t"])])
          (Path.root.field "up" ++ Path.root.index 7) ()).result.issues =
        [⟨⟨[.field "up", .index 7, .field "a", .index 0, .field "x"]⟩, "no", "validation_error",
          none, none⟩] := by
  have builtIn : nestedSteps.BuiltIn := by
    simp [BuiltIn, nestedSteps, Every, EveryField, EveryAmong, EveryUnknown]
  refine ⟨builtIn, ?_⟩
  rw [(validate_append nestedSteps builtIn _ (Path.root.field "up") (Path.root.index 7) ()).2.1]
  rfl

end Schema

end Conform
