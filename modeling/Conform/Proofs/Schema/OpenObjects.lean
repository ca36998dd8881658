import Conform.Proofs.Run.InTurn
import Conform.Proofs.Schema.Objects
import Conform.Proofs.Validator.Assembly
import Conform.Schema.Shape

/-!
# Records of any key and objects without declared fields

A record whose keys are any texts, and an object that declares nothing and validates every other
entry, run the same schema on the same entries at the same paths.  A record puts its output together
entry by entry and looks for duplicates, an object collects its entries; where the keys of the input
are distinct the two come to the same.
-/

set_option autoImplicit false

namespace Conform.Schema

open Outcome Validator

variable {σ : Type}

/-! ## Entries with the answers for their values -/

/-- An entry of a record whose key is taken as it is. -/
def keptEntry (p : Path) (e : String × Value) (answer : Outcome Value) : RecordEntry Value :=
  ⟨p.field e.1, .success e.1, answer⟩

variable (p : Path)

theorem accepted_keptEntries (answered : List ((String × Value) × Outcome Value)) :
    accepted (answered.map fun x => keptEntry p x.1 x.2) =
      outputs (answered.map fun x => underKey x.1.1 x.2) := by
  rw [accepted, outputs, List.filterMap_map, List.filterMap_map]
  refine List.filterMap_congr fun x _ => ?_
  obtain ⟨e, answer⟩ := x
  cases answer <;> rfl

theorem issues_keptEntries (answered : List ((String × Value) × Outcome Value)) :
    (answered.map fun x => keptEntry p x.1 x.2).flatMap RecordEntry.issues =
      allIssues (answered.map fun x => underKey x.1.1 x.2) := by
  rw [allIssues, List.flatMap_map, List.flatMap_map]
  refine List.flatMap_congr fun x _ => ?_
  obtain ⟨e, answer⟩ := x
  cases answer <;> rfl

/-- Answers come to stand under keys of the input, in its order. -/
theorem keys_outputs_sublist (entries : Entries Value) (answers : List (Outcome Value)) :
    (Entries.keys (outputs ((entries.zip answers).map fun x => underKey x.1.1 x.2))).Sublist
      (Entries.keys entries) := by
  induction entries generalizing answers with
  | nil => exact List.Sublist.refl _
  | cons e rest ih =>
    cases answers with
    | nil => exact List.nil_sublist _
    | cons answer others =>
      cases answer with
      | failure es => exact (ih others).cons e.1
      | success v => exact (ih others).cons_cons e.1

/-- Where keys are distinct and taken as they are, assembling a record is collecting its entries. -/
theorem settle_keptEntries {entries : Entries Value} (distinct : (Entries.keys entries).Nodup)
    (answers : List (Outcome Value)) {es : List (RecordEntry Value)}
    (kept : (entries.zip answers).map (fun x => keptEntry p x.1 x.2) = es) :
    settle (assemble [] es).1 (assemble [] es).2 =
      assembled [] ((entries.zip answers).map fun x => underKey x.1.1 x.2) := by
  subst kept
  have keys := distinct.sublist (keys_outputs_sublist entries answers)
  rw [← accepted_keptEntries p] at keys
  rw [assemble_of_distinct [] _ keys, List.nil_append, accepted_keptEntries,
    issues_keptEntries]
  rfl

/-! ## The two runs -/

variable (value : Schema σ .value) (message : Option String) (entries : Entries Value)

/-- The runs of a schema on the values of an object. -/
def valueRuns : List (Run σ (Outcome Value)) :=
  entries.map fun e => value.validate e.2 (p.field e.1)

theorem record_run :
    (record message (.text .empty) value).validate (.object entries) p = do
      let answers ← Run.sequence (valueRuns p value entries)
      let es := (entries.zip answers).map fun x => keptEntry p x.1 x.2
      return settle (assemble [] es).1 (assemble [] es).2 := by
  have runs : Run.sequence
      (entries.map (recordEntry (text (σ := σ) .empty).validator value.validator p)) = do
        let answers ← Run.sequence (valueRuns p value entries)
        return (entries.zip answers).map fun x => keptEntry p x.1 x.2 :=
    Run.sequence_map_with (keptEntry p) _ entries
  show (do
    let es ← Run.sequence
      (entries.map (recordEntry (text (σ := σ) .empty).validator value.validator p))
    return settle (assemble [] es).1 (assemble [] es).2) = _
  rw [runs]
  simp only [bind_assoc, pure_bind]

theorem openObject_run :
    (object ⟨[], .validate value, message⟩).validate (.object entries) p = do
      let answers ← Run.sequence (valueRuns p value entries)
      return assembled [] ((entries.zip answers).map fun x => underKey x.1.1 x.2) := by
  have all : undeclared ([] : List (String × Schema σ .value)) entries = entries :=
    List.filter_eq_self.mpr fun _ _ => rfl
  have runs : Run.sequence (otherRuns (.validate value) p entries) = do
      let answers ← Run.sequence (valueRuns p value entries)
      return (entries.zip answers).map fun x => underKey x.1.1 x.2 := by
    rw [otherRuns, partsWith, List.map_map]
    exact Run.sequence_map_with (fun e answer => underKey e.1 answer) _ entries
  rw [object_run, all, runs]
  simp only [declaredParts, List.map_nil, Run.sequence, bind_assoc, pure_bind]

theorem record_validate_eq {v : Value} (distinct : (Entries.keys (v.object?.getD [])).Nodup) :
    (record message (.text .empty) value).validate v p =
      (object ⟨[], .validate value, message⟩).validate v p := by
  cases v with
  | object entries =>
    rw [record_run, openObject_run]
    exact congrArg (_ >>= ·) (funext fun answers =>
      congrArg pure (settle_keptEntries p distinct answers rfl))
  | absent | null | bool | number | text | list | date =>
    rw [object_wrongKind _ rfl]
    rfl

/-- On any value whose keys are distinct, a record of any keys runs like an object that declares
nothing and validates all other entries with the schema for the values: both answer with the same
map, key by key in the same order, or with the same issues, and leave the same state and events. -/
theorem record_agrees_with_open_object {v : Value}
    (distinct : (Entries.keys (v.object?.getD [])).Nodup) :
    (record message (.text .empty) value).validateErased v p =
      (object { Shape.empty.withUnknown (.validate value) with
        kindMessage := message }).validateErased v p := by
  have whole := record_validate_eq p value message distinct
  exact congrArg (fun run => do return (← run).map (Output.erase .map)) whole

/-- A number that may be absent. -/
def reading : Schema Unit .value := .optional (.erased (.number .empty))

def readings : Entries Value := [("noon", .absent), ("dusk", .number .zero)]

/-- The absent reading is accepted, and left out by both. -/
theorem readings_agree :
    (Entries.keys readings).Nodup ∧
      ((record (some "no readings") (.text .empty) reading).validateErased (.object readings)
        .root ()).result = .success (.object [("dusk", .number .zero)]) ∧
      ((object { Shape.empty.withUnknown (.validate reading) with
        kindMessage := some "no readings" }).validateErased (.object readings) .root ()).result =
          .success (.object [("dusk", .number .zero)]) := by
  have distinct : (Entries.keys readings).Nodup := by decide
  have same := record_agrees_with_open_object .root reading (some "no readings")
    (v := .object readings) distinct
  refine ⟨distinct, rfl, ?_⟩
  rw [← same]
  rfl

end Conform.Schema
