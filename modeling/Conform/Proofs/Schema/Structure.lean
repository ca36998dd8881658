import Conform.Schema.Basic
import Mathlib.Data.List.Basic

/-!
# The structure of schemas

The validators of the parts of a schema as maps over those parts, the induction principle that gives
the hypothesis for every part of a tuple, an object, a union or an intersection, and conditions that
have to hold of a schema and of every schema within it.
-/

set_option autoImplicit false

namespace Conform

namespace Schema

variable {σ : Type}

/-! ## Validators of parts -/

theorem validators_eq_map (ss : List (Schema σ .value)) : validators ss = ss.map validator := by
  induction ss with
  | nil => rfl
  | cons s rest ih => rw [validators, ih, List.map_cons]

theorem componentValidators_eq_map (ss : List (Schema σ .map)) :
    componentValidators ss = ss.map validator := by
  induction ss with
  | nil => rfl
  | cons s rest ih => rw [componentValidators, ih, List.map_cons]

theorem fieldValidators_eq_map (fields : List (String × Schema σ .value)) :
    fieldValidators fields = fields.map fun f => (f.1, f.2.validator) := by
  induction fields with
  | nil => rfl
  | cons f rest ih =>
    obtain ⟨name, s⟩ := f
    rw [fieldValidators, ih, List.map_cons]

theorem unknownValidator_eq_map (unknown : UnknownKeys (Schema σ .value)) :
    unknownValidator unknown = unknown.map validator := by
  cases unknown <;> rfl

/-- The validators of the parts of a shape. -/
def shapeValidators (shape : Shape (Schema σ .value)) : Shape (Validator σ Value) :=
  ⟨shape.fields.map fun f => (f.1, f.2.validator), shape.unknown.map validator, shape.kindMessage⟩

theorem keys_shapeValidators (shape : Shape (Schema σ .value)) :
    Entries.keys (shapeValidators shape).fields = Entries.keys shape.fields := by
  simp [Entries.keys, shapeValidators, Function.comp_def]

theorem validator_tuple (kindMessage : Option String) (positions : List (Schema σ .value)) :
    (tuple kindMessage positions).validator = .tuple kindMessage (positions.map validator) := by
  rw [validator, validators_eq_map]

theorem validator_object (shape : Shape (Schema σ .value)) :
    (object shape).validator = .object (shapeValidators shape) := by
  obtain ⟨fields, unknown, kindMessage⟩ := shape
  rw [validator, fieldValidators_eq_map, unknownValidator_eq_map, shapeValidators]

theorem validator_union (message : Option String) (alternatives : List (Schema σ .value)) :
    (union message alternatives).validator = .union message (alternatives.map validator) := by
  rw [validator, validators_eq_map]

theorem validator_intersection (kindMessage : Option String) (components : List (Schema σ .map)) :
    (intersection kindMessage components).validator =
      .intersection kindMessage (components.map validator) := by
  rw [validator, componentValidators_eq_map]

/-! ## Induction -/

/-- Induction over schemas. -/
@[elab_as_elim]
theorem parts_induction {motive : (τ : OutputType) → Schema σ τ → Prop}
    (text : ∀ rules, motive _ (.text rules))
    (number : ∀ rules, motive _ (.number rules))
    (boolean : ∀ kindMessage, motive _ (.boolean kindMessage))
    (date : ∀ rules, motive _ (.date rules))
    (literal : ∀ l, motive _ (.literal l))
    (enumeration : ∀ e, motive _ (.enumeration e))
    (anything : motive _ .anything)
    (custom : ∀ (τ : OutputType) (kind : Kind) (w : Validator σ (Output τ)),
      motive τ (.custom kind w))
    (list : ∀ rules item, motive _ item → motive _ (.list rules item))
    (tuple : ∀ kindMessage positions, (∀ s ∈ positions, motive _ s) →
      motive _ (.tuple kindMessage positions))
    (object : ∀ shape : Shape (Schema σ .value), (∀ f ∈ shape.fields, motive _ f.2) →
      shape.unknown.Holds (motive _) → motive _ (.object shape))
    (record : ∀ kindMessage key value, motive _ key → motive _ value →
      motive _ (.record kindMessage key value))
    (union : ∀ message alternatives, (∀ s ∈ alternatives, motive _ s) →
      motive _ (.union message alternatives))
    (intersection : ∀ kindMessage components, (∀ s ∈ components, motive _ s) →
      motive _ (.intersection kindMessage components))
    (erased : ∀ (τ : OutputType) (inner : Schema σ τ), motive τ inner → motive _ inner.erased)
    (nullable : ∀ inner, motive _ inner → motive _ (.nullable inner))
    (optional : ∀ inner, motive _ inner → motive _ (.optional inner))
    (withDefault : ∀ (τ : OutputType) fallback (inner : Schema σ τ), motive τ inner →
      motive τ (.withDefault fallback inner))
    (refine : ∀ (τ : OutputType) test message code (inner : Schema σ τ), motive τ inner →
      motive τ (.refine test message code inner))
    (transform : ∀ (τ υ : OutputType) (f : Output τ → StateM σ (Output υ)) (inner : Schema σ τ),
      motive τ inner → motive υ (.transform f inner))
    (tryMap : ∀ (τ υ : OutputType) (f : Output τ → StateM σ (Outcome (Output υ)))
      (inner : Schema σ τ), motive τ inner → motive υ (.tryMap f inner))
    (chain : ∀ (τ : OutputType) steps (inner : Schema σ τ), motive τ inner →
      motive τ (.chain steps inner))
    (coerce : ∀ (τ : OutputType) coercion (inner : Schema σ τ), motive τ inner →
      motive τ (.coerce coercion inner))
    {τ : OutputType} (s : Schema σ τ) : motive τ s := by
  refine Schema.rec (motive_1 := motive) (motive_2 := fun ss => ∀ s ∈ ss, motive _ s)
    (motive_3 := fun shape => (∀ f ∈ shape.fields, motive _ f.2) ∧ shape.unknown.Holds (motive _))
    (motive_4 := fun ss => ∀ s ∈ ss, motive _ s)
    (motive_5 := fun fields => ∀ f ∈ fields, motive _ f.2)
    (motive_6 := fun unknown => unknown.Holds (motive _))
    (motive_7 := fun f => motive _ f.2)
    text number boolean date literal enumeration anything (fun kind w => custom _ kind w) list tuple
    (fun shape h => object shape h.1 h.2) record union intersection
    (fun inner => erased _ inner) nullable optional
    (fun fallback inner => withDefault _ fallback inner)
    (fun test message code inner => refine _ test message code inner)
    (fun f inner => transform _ _ f inner) (fun f inner => tryMap _ _ f inner)
    (fun steps inner => chain _ steps inner) (fun coercion inner => coerce _ coercion inner)
    (fun _ h => absurd h List.not_mem_nil)
    (fun _ _ first rest => List.forall_mem_cons.mpr ⟨first, rest⟩)
    (fun _ _ _ fields unknown => ⟨fields, unknown⟩)
    (fun _ h => absurd h List.not_mem_nil)
    (fun _ _ first rest => List.forall_mem_cons.mpr ⟨first, rest⟩)
    (fun _ h => absurd h List.not_mem_nil)
    (fun _ _ first rest => List.forall_mem_cons.mpr ⟨first, rest⟩)
    trivial trivial trivial (fun _ schema => schema) (fun _ _ schema => schema) s

/-! ## Conditions on every part -/

section Every

variable (P : (τ : OutputType) → Schema σ τ → Prop)

mutual
/-- The condition holds of the schema and of every schema within it. -/
def Every {τ : OutputType} : Schema σ τ → Prop
  | list rules item => P _ (.list rules item) ∧ item.Every
  | tuple kindMessage positions => P _ (.tuple kindMessage positions) ∧ EveryAmong positions
  | object ⟨fields, unknown, kindMessage⟩ =>
    P _ (.object ⟨fields, unknown, kindMessage⟩) ∧ EveryField fields ∧ EveryUnknown unknown
  | record kindMessage key value =>
    P _ (.record kindMessage key value) ∧ key.Every ∧ value.Every
  | union message alternatives => P _ (.union message alternatives) ∧ EveryAmong alternatives
  | intersection kindMessage components =>
    P _ (.intersection kindMessage components) ∧ EveryComponent components
  | erased inner => P _ (.erased inner) ∧ inner.Every
  | nullable inner => P _ (.nullable inner) ∧ inner.Every
  | optional inner => P _ (.optional inner) ∧ inner.Every
  | withDefault fallback inner => P _ (.withDefault fallback inner) ∧ inner.Every
  | refine test message code inner => P _ (.refine test message code inner) ∧ inner.Every
  | transform f inner => P _ (.transform f inner) ∧ inner.Every
  | tryMap f inner => P _ (.tryMap f inner) ∧ inner.Every
  | chain steps inner => P _ (.chain steps inner) ∧ inner.Every
  | coerce coercion inner => P _ (.coerce coercion inner) ∧ inner.Every
  | leaf => P _ leaf

def EveryAmong : List (Schema σ .value) → Prop
  | [] => True
  | s :: rest => s.Every ∧ EveryAmong rest

def EveryComponent : List (Schema σ .map) → Prop
  | [] => True
  | s :: rest => s.Every ∧ EveryComponent rest

def EveryField : List (String × Schema σ .value) → Prop
  | [] => True
  | (_, s) :: rest => s.Every ∧ EveryField rest

def EveryUnknown : UnknownKeys (Schema σ .value) → Prop
  | .strip | .allow | .deny => True
  | .validate s => s.Every
end

end Every

variable {P : (τ : OutputType) → Schema σ τ → Prop}

theorem everyAmong_iff (ss : List (Schema σ .value)) : EveryAmong P ss ↔ ∀ s ∈ ss, s.Every P := by
  induction ss with
  | nil => simp [EveryAmong]
  | cons s rest ih => rw [EveryAmong, ih, List.forall_mem_cons]

theorem everyComponent_iff (ss : List (Schema σ .map)) :
    EveryComponent P ss ↔ ∀ s ∈ ss, s.Every P := by
  induction ss with
  | nil => simp [EveryComponent]
  | cons s rest ih => rw [EveryComponent, ih, List.forall_mem_cons]

theorem everyField_iff (fields : List (String × Schema σ .value)) :
    EveryField P fields ↔ ∀ f ∈ fields, f.2.Every P := by
  induction fields with
  | nil => simp [EveryField]
  | cons f rest ih =>
    obtain ⟨name, s⟩ := f
    rw [EveryField, ih, List.forall_mem_cons]

theorem everyUnknown_iff (unknown : UnknownKeys (Schema σ .value)) :
    EveryUnknown P unknown ↔ unknown.Holds (Every P) := by
  cases unknown <;> rfl

theorem every_tuple_iff {kindMessage : Option String} {positions : List (Schema σ .value)} :
    (tuple kindMessage positions).Every P ↔
      P _ (.tuple kindMessage positions) ∧ ∀ s ∈ positions, s.Every P := by
  rw [Every, everyAmong_iff]

theorem every_object_iff {shape : Shape (Schema σ .value)} :
    (object shape).Every P ↔
      P _ (.object shape) ∧ (∀ f ∈ shape.fields, f.2.Every P) ∧ shape.unknown.Holds (Every P) := by
  obtain ⟨fields, unknown, kindMessage⟩ := shape
  rw [Every, everyField_iff, everyUnknown_iff]

theorem every_union_iff {message : Option String} {alternatives : List (Schema σ .value)} :
    (union message alternatives).Every P ↔
      P _ (.union message alternatives) ∧ ∀ s ∈ alternatives, s.Every P := by
  rw [Every, everyAmong_iff]

theorem every_intersection_iff {kindMessage : Option String} {components : List (Schema σ .map)} :
    (intersection kindMessage components).Every P ↔
      P _ (.intersection kindMessage components) ∧ ∀ s ∈ components, s.Every P := by
  rw [Every, everyComponent_iff]

theorem Every.self {τ : OutputType} {s : Schema σ τ} (h : s.Every P) : P τ s := by
  cases s with
  | object shape => exact (every_object_iff.mp h).1
  | text | number | boolean | date | literal | enumeration | anything | custom => exact h
  | list | tuple | record | union | intersection | erased | nullable | optional | withDefault
  | refine | transform | tryMap | chain | coerce => exact h.1

theorem Every.imp {Q : (τ : OutputType) → Schema σ τ → Prop} {τ : OutputType} {s : Schema σ τ}
    (h : s.Every P) (implies : ∀ (υ : OutputType) (t : Schema σ υ), P υ t → Q υ t) : s.Every Q := by
  induction s using parts_induction with
  | text | number | boolean | date | literal | enumeration | anything | custom =>
    exact implies _ _ h
  | list rules item ih => exact ⟨implies _ _ h.1, ih h.2⟩
  | tuple kindMessage positions ih =>
    obtain ⟨self, parts⟩ := every_tuple_iff.mp h
    exact every_tuple_iff.mpr ⟨implies _ _ self, fun s there => ih s there (parts s there)⟩
  | object shape fields unknown =>
    obtain ⟨self, inFields, inUnknown⟩ := every_object_iff.mp h
    exact every_object_iff.mpr ⟨implies _ _ self, fun f there => fields f there (inFields f there),
      unknown.mp inUnknown⟩
  | record kindMessage key value keys values =>
    exact ⟨implies _ _ h.1, keys h.2.1, values h.2.2⟩
  | union message alternatives ih =>
    obtain ⟨self, parts⟩ := every_union_iff.mp h
    exact every_union_iff.mpr ⟨implies _ _ self, fun s there => ih s there (parts s there)⟩
  | intersection kindMessage components ih =>
    obtain ⟨self, parts⟩ := every_intersection_iff.mp h
    exact every_intersection_iff.mpr ⟨implies _ _ self, fun s there => ih s there (parts s there)⟩
  | erased _ _ ih | nullable _ ih | optional _ ih | withDefault _ _ _ ih | refine _ _ _ _ _ ih
  | transform _ _ _ _ ih | tryMap _ _ _ _ ih | chain _ _ _ ih | coerce _ _ _ ih =>
    exact ⟨implies _ _ h.1, ih h.2⟩

/-- Schemas without a validator of the caller. -/
def BuiltIn {τ : OutputType} (s : Schema σ τ) : Prop :=
  s.Every fun _ t => match t with
    | custom .. => False
    | _ => True

end Schema

end Conform
