import Conform.Proofs.Schema.Objects
import Conform.Proofs.Validator.Locality

/-!
# Schemas that keep no state

In a state-free schema the functions of the caller answer by their arguments alone, and there are no
validators of the caller.  Such a schema is steady: what it answers for a value does not depend on
what ran before.  So the fields of an object can be looked at one by one, in whichever order they
are declared.
-/

set_option autoImplicit false

namespace Conform.Schema

open Outcome Validator

variable {σ : Type} {τ : OutputType}

/-- The condition on a schema apart from the schemas within it. -/
def StateFreeStep : (τ : OutputType) → Schema σ τ → Prop
  | _, custom .. => False
  | _, withDefault fallback _ => ∃ a, ∀ t, (fallback.run t).1 = a
  | _, refine test _ _ _ => Stateless test
  | _, transform f _ => Stateless f
  | _, tryMap f _ => Stateless f
  | _, chain fs _ => ∀ f ∈ fs, Stateless f
  | _, _ => True

def StateFree (s : Schema σ τ) : Prop := s.Every StateFreeStep

theorem StateFree.builtIn {s : Schema σ τ} (h : s.StateFree) : s.BuiltIn := by
  refine Every.imp h fun υ t step => ?_
  cases t with
  | custom => exact step
  | text | number | boolean | date | literal | enumeration | anything | list | tuple | object
  | record | union | intersection | erased | nullable | optional | withDefault | refine | transform
  | tryMap | chain | coerce => trivial

theorem StateFree.steady {s : Schema σ τ} (h : s.StateFree) : s.validator.Steady := by
  induction s using parts_induction with
  | text | number | boolean | date | literal | enumeration | anything => exact ofOutcome_steady _
  | custom => exact h.self.elim
  | list rules item ih => exact list_steady rules (ih h.2)
  | tuple kindMessage positions ih =>
    have parts := (every_tuple_iff.mp h).2
    rw [validator_tuple]
    exact tuple_steady kindMessage
      (List.forall_mem_map.mpr fun s there => ih s there (parts s there))
  | object shape fields unknown =>
    obtain ⟨_, inFields, inUnknown⟩ := every_object_iff.mp h
    rw [validator_object]
    refine object_steady
      (List.forall_mem_map.mpr fun f there => fields f there (inFields f there)) ?_
    exact UnknownKeys.holds_map.mpr (unknown.mp inUnknown)
  | record kindMessage key value keys values =>
    exact record_steady kindMessage (keys h.2.1) (values h.2.2)
  | union message alternatives ih =>
    have parts := (every_union_iff.mp h).2
    rw [validator_union]
    exact union_steady message
      (List.forall_mem_map.mpr fun s there => ih s there (parts s there))
  | intersection kindMessage components ih =>
    have parts := (every_intersection_iff.mp h).2
    rw [validator_intersection]
    exact intersection_steady kindMessage
      (List.forall_mem_map.mpr fun s there => ih s there (parts s there))
  | erased τ inner ih => exact mapOutput_steady (Output.erase τ) (ih h.2)
  | nullable inner ih => exact nullable_steady (ih h.2)
  | optional inner ih => exact optional_steady (ih h.2)
  | withDefault τ fallback inner ih => exact withDefault_steady h.1 (ih h.2)
  | refine τ test message code inner ih => exact refine_steady h.1 message code (ih h.2)
  | transform τ υ f inner ih => exact transform_steady h.1 (ih h.2)
  | tryMap τ υ f inner ih => exact tryMap_steady h.1 (ih h.2)
  | chain τ fs inner ih => exact transform_steady (steps_stateless h.1) (ih h.2)
  | coerce τ c inner ih => exact coerce_steady c (ih h.2)

/-! ## Objects with steady fields -/

/-- What a declared field answers, when it runs in the given state. -/
def fieldAnswer (v : Value) (p : Path) (s : σ) (f : String × Schema σ .value) :
    Outcome (String × Value) :=
  underKey f.1 (f.2.validate (v.get f.1) (p.field f.1) s).result

theorem key_of_fieldAnswer {v : Value} {p : Path} {s : σ} {f : String × Schema σ .value}
    {e : String × Value} (answer : fieldAnswer v p s f = .success e) : e.1 = f.1 := by
  obtain ⟨_, _, rfl⟩ := (map_eq_success_iff _ _ e).mp answer
  rfl

/-- What an object comes to whose other keys are stripped, from the answers of its fields. -/
def collected (answers : List (Outcome (String × Value))) : Outcome (Entries Value) :=
  .settle (Value.present (outputs answers)) (allIssues answers)

theorem assembled_nil (declared : List (Outcome (String × Value))) :
    assembled declared [] = collected declared := by
  have output : Value.present (outputs declared) ++ outputs [] = Value.present (outputs declared) :=
    List.append_nil _
  have issues : allIssues declared ++ allIssues ([] : List (Outcome (String × Value))) =
    allIssues declared := List.append_nil _
  rw [assembled, output, issues, collected]

theorem collected_issues (answers : List (Outcome (String × Value))) :
    (collected answers).issues = allIssues answers := issues_settle _ _

theorem strip_result_of_steady {fields : List (String × Schema σ .value)} {entries : Entries Value}
    {p : Path}
    (steady : ∀ f ∈ fields, (f.2.validate (Value.get (.object entries) f.1) (p.field f.1)).Steady)
    (kindMessage : Option String) (s t : σ) :
    ((object ⟨fields, .strip, kindMessage⟩).validate (.object entries) p s).result =
      collected (fields.map (fieldAnswer (.object entries) p t)) := by
  have runs : ∀ r ∈ (declaredParts fields (.object entries)).map (Part.entry p), r.Steady := by
    intro r member
    obtain ⟨q, isPart, rfl⟩ := List.mem_map.mp member
    obtain ⟨f, declared, rfl⟩ := List.mem_map.mp isPart
    exact (steady f declared).bind fun o => Run.steady_pure (underKey f.1 o)
  rw [strip_result, assembled_nil, fieldAnswers, Run.Steady.sequence_result runs s t, declaredParts,
    List.map_map, List.map_map]
  rfl

end Conform.Schema
