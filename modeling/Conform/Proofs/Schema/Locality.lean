import Conform.Proofs.Schema.PathTranslation
import Conform.Proofs.Schema.Steadiness
import Conform.Proofs.Validator.Success

/-!
# A change in one place leaves the other issues alone

A partwise schema judges the parts of a value one by one, without choosing among alternatives, and
its records keep the keys that they accept.  When the value changes at one place, such a schema
reports the same issues everywhere but on the way to that place and inside of it.  A union would
choose another alternative with other issues, and a record that changes keys would find other
duplicates.
-/

set_option autoImplicit false

namespace Conform.Schema

open Validator

variable {σ : Type} {τ : OutputType}

/-- The condition on a schema apart from the schemas within it: it tries no alternatives, has no
issues of the caller, and the functions of the caller answer by their arguments alone. -/
def PartwiseStep : (τ : OutputType) → Schema σ τ → Prop
  | _, custom .. | _, union .. | _, tryMap .. => False
  | _, record _ key _ => key.validator.KeepsKeys
  | _, withDefault fallback _ => ∃ a, ∀ t, (fallback.run t).1 = a
  | _, refine test _ _ _ => Stateless test
  | _, transform f _ => Stateless f
  | _, chain fs _ => ∀ f ∈ fs, Stateless f
  | _, _ => True

def Partwise (s : Schema σ τ) : Prop := s.Every PartwiseStep

theorem Partwise.stateFree {s : Schema σ τ} (h : s.Partwise) : s.StateFree := by
  refine Every.imp h fun υ t step => ?_
  cases t with
  | custom | union | tryMap => exact step.elim
  | record => trivial
  | text | number | boolean | date | literal | enumeration | anything | list | tuple | object
  | intersection | erased | nullable | optional | withDefault | refine | transform | chain
  | coerce =>
    exact step

/-- All issues are below the value, so none of them is apart from it. -/
theorem Partwise.local_of_within {s : Schema σ τ} (h : s.Partwise)
    (within : s.Partwise → s.validator.LocalWithin) : s.validator.Local := by
  intro q x y differ p
  cases q with
  | nil =>
    have none : ∀ v t, Issue.apartFrom (p ++ .root) (s.validator v p t).result.issues = [] := by
      intro v t
      refine apartFrom_eq_nil fun e member => ?_
      obtain ⟨r, place⟩ := h.stateFree.builtIn.issue_extends e member
      rw [place, Path.append_root]
      exact Path.not_apart_below p r
    intro t u
    exact (none x t).trans (none y u).symm
  | cons seg rest => exact within h seg rest x y differ p

theorem Partwise.steady {s : Schema σ τ} (h : s.Partwise) : s.validator.Steady := h.stateFree.steady

theorem Partwise.localWithin {s : Schema σ τ} (h : s.Partwise) : s.validator.LocalWithin := by
  induction s using parts_induction with
  | text rules =>
    exact .of_rejected (fun v p => .wrongKind p "string" v rules.kindMessage) (fun _ _ => rfl)
      (fun _ _ => rfl) fun _ _ => rfl
  | number rules =>
    exact .of_rejected (fun v p => .wrongKind p "number" v rules.kindMessage) (fun _ _ => rfl)
      (fun _ _ => rfl) fun _ _ => rfl
  | boolean kindMessage =>
    exact .of_rejected (fun v p => .wrongKind p "boolean" v kindMessage) (fun _ _ => rfl)
      (fun _ _ => rfl) fun _ _ => rfl
  | date rules =>
    exact .of_rejected (fun v p => .wrongKind p "date" v rules.kindMessage) (fun _ _ => rfl)
      (fun _ _ => rfl) fun _ _ => rfl
  | literal l =>
    exact .of_rejected (fun v p => l.mismatch p v) (fun _ _ => rfl)
      (fun _ => literalOutcome_of_not_isScalar l rfl) fun _ => literalOutcome_of_not_isScalar l rfl
  | enumeration e =>
    exact .of_rejected (fun v p => e.mismatch p v) (fun _ _ => rfl)
      (fun _ => enumerationOutcome_of_not_isScalar e rfl)
      fun _ => enumerationOutcome_of_not_isScalar e rfl
  | anything => exact ofOutcome_localWithin (fun _ _ _ => nofun) fun _ _ _ => nofun
  | custom | tryMap => exact h.self.elim
  | union => exact h.self.elim
  | list rules item ih =>
    exact list_localWithin rules (Partwise.steady h.2) (Partwise.local_of_within h.2 ih)
  | tuple kindMessage positions ih =>
    have parts := (every_tuple_iff.mp h).2
    rw [validator_tuple]
    refine tuple_localWithin kindMessage (List.forall_mem_map.mpr fun s there => ?_)
      (List.forall_mem_map.mpr fun s there => ?_)
    · exact Partwise.steady (parts s there)
    · exact Partwise.local_of_within (parts s there) (ih s there)
  | object shape fields unknown =>
    obtain ⟨_, inFields, inUnknown⟩ := every_object_iff.mp h
    rw [validator_object]
    refine object_localWithin (List.forall_mem_map.mpr fun f there => ?_)
      (List.forall_mem_map.mpr fun f there => ?_) (UnknownKeys.holds_map.mpr ?_)
      (UnknownKeys.holds_map.mpr ?_)
    · exact Partwise.steady (inFields f there)
    · exact Partwise.local_of_within (inFields f there) (fields f there)
    · exact inUnknown.imp fun _ => Partwise.steady
    · exact (unknown.imp fun s within (part : s.Partwise) =>
        part.local_of_within within).mp inUnknown
  | record kindMessage key value keys values =>
    exact record_localWithin kindMessage (Partwise.steady h.2.1) h.1 (Partwise.steady h.2.2)
      (Partwise.local_of_within h.2.2 values)
  | intersection kindMessage components ih =>
    have parts := (every_intersection_iff.mp h).2
    rw [validator_intersection]
    exact intersection_localWithin kindMessage
      (List.forall_mem_map.mpr fun s there => ih s there (parts s there))
  | erased τ inner ih => exact mapOutput_localWithin (Output.erase τ) (ih h.2)
  | nullable inner ih => exact nullable_localWithin (ih h.2)
  | optional inner ih => exact optional_localWithin (ih h.2)
  | withDefault τ fallback inner ih => exact withDefault_localWithin fallback (ih h.2)
  | refine τ test message code inner ih => exact refine_localWithin test message code (ih h.2)
  | transform τ υ f inner ih => exact transform_localWithin f (ih h.2)
  | chain τ fs inner ih => exact transform_localWithin (steps fs) (ih h.2)
  | coerce τ c inner ih => exact coerce_localWithin c (ih h.2)

/-- When the value changes at `q`, be it there or anywhere inside, the issues at all paths that
neither lead towards `p ++ q` nor go on from it stay the same, in the same order. -/
theorem apartFrom_validate_eq (s : Schema σ τ) (h : s.Partwise) {q : Path} {x y : Value}
    (differ : Value.DifferOnlyAt q.segments x y) (p : Path) (t u : σ) :
    Issue.apartFrom (p ++ q) (s.validate x p t).result.issues =
      Issue.apartFrom (p ++ q) (s.validate y p u).result.issues :=
  h.local_of_within Partwise.localWithin q.segments x y differ p t u

/-- A name, at least three tags, and numbers under keys. -/
def parcel : Schema Unit .map :=
  .object ⟨[("name", .erased (.text (Rules.empty.require (.minLength 1)))),
    ("tags", .erased (.list (LengthRules.empty.minLength 3) (.erased
      (.refine (fun s => pure (s != "fragile")) "Not by post." "post" (.text .empty))))),
    ("weights", .erased (.record none (.text .empty) (.erased (.number .empty))))], .deny, none⟩

def parcelInput (tag : Value) : Value :=
  .object [("name", .text ""), ("tags", .list [.text "a", tag]),
    ("weights", .object [("box", .text "heavy")]), ("to", .null)]

theorem parcel_apartFrom_validate_eq :
    parcel.Partwise ∧
      Value.DifferOnlyAt [.field "tags", .index 1] (parcelInput (.text "fragile"))
        (parcelInput .null) ∧
      ((Issue.apartFrom ⟨[.field "up", .field "tags", .index 1]⟩
        (parcel.validate (parcelInput .null) ⟨[.field "up"]⟩ ()).result.issues).map Issue.path) =
        [⟨[.field "up", .field "name"]⟩, ⟨[.field "up", .field "weights", .field "box"]⟩,
          ⟨[.field "up", .field "to"]⟩] := by
  have keeps : Validator.KeepsKeys (text (σ := Unit) .empty).validator := by
    intro key p s key' accepted
    have answer : textOutcome .empty (.text key) p = .success key' := accepted
    exact (Value.text.inj (textOutcome_success answer)).symm
  have partwise : parcel.Partwise := by
    refine every_object_iff.mpr ⟨trivial, ?_, trivial⟩
    simp only [List.forall_mem_cons, List.not_mem_nil, false_implies, implies_true, and_true]
    refine ⟨⟨trivial, trivial⟩, ⟨trivial, trivial, trivial, ?_, trivial⟩,
      ⟨trivial, keeps, trivial, trivial, trivial⟩⟩
    exact ⟨fun s => s != "fragile", fun _ _ => rfl⟩
  have differ : Value.DifferOnlyAt [.field "tags", .index 1] (parcelInput (.text "fragile"))
      (parcelInput .null) :=
    .entry [("name", .text "")] _ (by simp [Entries.keys]) (.item [.text "a"] [] (.here _ _))
  refine ⟨partwise, differ, ?_⟩
  have same := apartFrom_validate_eq (q := ⟨[.field "tags", .index 1]⟩) parcel partwise differ
    ⟨[.field "up"]⟩ () ()
  exact (congrArg (List.map Issue.path) same.symm).trans rfl

end Conform.Schema
