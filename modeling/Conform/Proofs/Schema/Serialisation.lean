import Conform.Proofs.Schema.Outputs
import Conform.Proofs.Value.Json
import Conform.Schema.Build
import Conform.Schema.Parse

/-!
# What a schema answers has a document

A schema of numbers lets no infinity and no `nan` pass, converted or not.  So a schema that neither
keeps parts of the input unseen nor has a step that makes values of its own answers with values that
can be written as JSON, whatever it is given.
-/

set_option autoImplicit false

namespace Conform.Schema

open Validator

variable {σ : Type} {τ : OutputType}

/-- The condition on a schema apart from the schemas within it: what it adds to an output has a
document, and it passes on no value that it has not validated. -/
def SerialisableStep : (τ : OutputType) → Schema σ τ → Prop
  | _, anything | _, custom .. | _, transform .. | _, tryMap .. | _, chain .. => False
  | _, literal l => l.constant.value.AllFinite
  | _, enumeration e => ∀ c ∈ e.members, c.value.AllFinite
  | _, object shape => shape.unknown ≠ .allow
  | τ, withDefault fallback _ => ∀ t, ∃ j, (Output.view τ (fallback.run t).1).toJson = .ok j
  | _, _ => True

def Serialisable (s : Schema σ τ) : Prop := s.Every SerialisableStep

theorem allFinite_inherited : Value.Inherited Value.AllFinite where
  absent := nofun
  null := nofun
  list items := (Value.allFinite_list_iff items).mpr
  object entries h := ((Value.allFinite_object_iff entries).mpr h).of_present

theorem meets_allFinite_iff {a : Output τ} :
    Output.Meets Value.AllFinite τ a ↔ (Output.view τ a).AllFinite := by
  cases τ with
  | map => exact (Value.allFinite_object_iff a).symm
  | text | number | boolean | date | list | value => exact .rfl

theorem SerialisableStep.origin {s : Schema σ τ} (originates : s.Originates)
    (h : SerialisableStep τ s) :
    ∀ v a, s.validator.CanAnswer v a → Output.Meets Value.AllFinite τ a := by
  intro v a found
  cases s with
  | text | boolean | date => exact nofun
  | number rules =>
    obtain ⟨p, answer⟩ := found.ofOutcome
    exact List.forall_mem_singleton.mpr (numberOutcome_isFinite answer)
  | literal l =>
    obtain ⟨p, answer⟩ := found.ofOutcome
    exact Value.AllFinite.of_equal h l.constant.isScalar (.inr (literalOutcome_equal answer))
  | enumeration e =>
    obtain ⟨p, answer⟩ := found.ofOutcome
    obtain ⟨c, there, equal⟩ := enumerationOutcome_equal answer
    exact Value.AllFinite.of_equal (h c there) c.isScalar (.inl equal)
  | anything | custom | transform | tryMap | chain => exact h.elim
  | list | tuple | object | record | union | intersection | erased | nullable | optional
  | withDefault | refine | coerce => exact originates.elim

theorem Serialisable.allFinite {s : Schema σ τ} (h : s.Serialisable) :
    ∀ v a, s.validator.CanAnswer v a → (Output.view τ a).AllFinite := by
  intro v a found
  refine meets_allFinite_iff.mp (Every.outputs_meet allFinite_inherited
    (fun _ _ => SerialisableStep.origin) ?_ ?_ h v a found)
  · intro υ fallback inner step t
    exact meets_allFinite_iff.mpr ((Value.toJson_ok_iff _).mp (step t))
  · intro shape step
    exact step

/-- Whatever is validated, an output of a serialisable schema has a document, as it is and as a part
of another value. -/
theorem validate_toJson_ok (s : Schema σ τ) (h : s.Serialisable) (v : Value) (p : Path) (t : σ) :
    (∀ a, (s.validate v p t).result = .success a → ∃ j, (Output.view τ a).toJson = .ok j) ∧
      ∀ w, (s.validateErased v p t).result = .success w → ∃ j, w.toJson = .ok j := by
  have erased : s.erased.Serialisable := ⟨trivial, h⟩
  constructor
  · intro a accepted
    exact (Value.toJson_ok_iff _).mpr (h.allFinite v a ⟨p, t, accepted⟩)
  · intro w accepted
    exact (Value.toJson_ok_iff w).mpr (erased.allFinite v w ⟨p, t, accepted⟩)

/-- A number, a constant that equals `-0` as well, and a date that may be left out. -/
def meter : Schema Unit .map :=
  .object ⟨[("reading", .erased (.number .empty)),
      ("offset", .enumeration ⟨[⟨.number .zero, rfl, rfl⟩], by simp, none⟩),
      ("since", .erased (.withDefault (pure Value.startOf1970) (.date .empty)))], .strip, none⟩

/-- A `nan` under a key that is stripped. -/
def meterInput : Value :=
  .object [("reading", .number Value.tooLarge), ("offset", .number (.finite true .zero)),
    ("other", .number .nan)]

def meterOutput : Entries Value :=
  [("reading", .number Value.tooLarge), ("offset", .number (.finite true .zero)),
    ("since", .date Value.startOf1970)]

def meterJson : Json :=
  .object [("reading", .float Value.tooLarge), ("offset", .integer 0),
    ("since", .string "1970-01-01T00:00:00.000Z")]

/-- The input has no document, but the output that is made of it does. -/
theorem meter_validate_toJson_ok :
    meter.Serialisable ∧ meterInput.toJson = .error ⟨.nan⟩ ∧
      (meter.validate meterInput .root ()).result = .success meterOutput ∧
      (Value.object meterOutput).toJson = .ok meterJson := by
  have serialisable : meter.Serialisable := by
    refine every_object_iff.mpr ⟨nofun, ?_, trivial⟩
    simp only [List.forall_mem_cons, List.not_mem_nil, false_implies, implies_true, and_true]
    refine ⟨⟨trivial, trivial⟩, ?_, trivial, fun _ => ⟨_, rfl⟩, trivial⟩
    exact List.forall_mem_singleton.mpr (List.forall_mem_singleton.mpr rfl)
  have accepted : (meter.validate meterInput .root ()).result = .success meterOutput := rfl
  have refused : meterInput.toJson = .error ⟨.nan⟩ := by
    simp only [meterInput, Value.toJson, Value.entriesToJson, Value.numberToJson, Value.isAbsent,
      Value.smallWhole?_tooLarge]
    rfl
  have document : (Value.object meterOutput).toJson = .ok meterJson := by
    simp only [meterOutput, Value.toJson, Value.entriesToJson, Value.numberToJson, Value.isAbsent,
      Value.smallWhole?_tooLarge, Value.write_startOf1970]
    rfl
  obtain ⟨j, found⟩ :=
    (validate_toJson_ok meter serialisable meterInput .root ()).1 meterOutput accepted
  obtain rfl : meterJson = j := Except.ok.inj (document.symm.trans found)
  exact ⟨serialisable, refused, accepted, found⟩

end Conform.Schema
