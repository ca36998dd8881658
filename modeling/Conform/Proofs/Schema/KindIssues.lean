import Conform.Proofs.Schema.Structure
import Conform.Proofs.Validator.InStep
import Conform.Proofs.Validator.Location
import Conform.Proofs.Value.Coercion
import Conform.Schema.Build
import Conform.Schema.Parse

/-!
# Issues of a wrong kind point at the input

The path of such an issue leads to a part of the validated value, and the kind it tells is the kind
of that part: not of a default, of an output or of a converted value.  A converted value has the
kind that the schema behind the coercion looks for, whatever modifiers lie between, so that schema
finds no wrong kind in it.  What the schema for the keys of a record reports is about keys, which
are no parts of the value; `Schema.markKeys` tells these issues from the others.
-/

set_option autoImplicit false

namespace Conform

/-- The issue, marked as one of a schema for keys. -/
def Issue.markKey (e : Issue) : Issue := { e with code := "record_key" }

def Outcome.markKey {α : Type} : Outcome α → Outcome α
  | .success a => .success a
  | .failure es => .failure ⟨es.first.markKey, es.others.map Issue.markKey⟩

namespace Schema

open Validator

variable {σ : Type} {τ : OutputType}

/-- The condition of `ReportsItself` on a schema apart from the schemas within it. -/
def ReportsItselfStep : (τ : OutputType) → Schema σ τ → Prop
  | _, custom .. | _, tryMap .. => False
  | _, refine _ _ code _ => code ≠ "invalid_type"
  | _, coerce c inner => Coercion.forKind? inner.kind = some c
  | _, _ => True

/-- No caller makes up an issue of a wrong kind, and every coercion is the one to the kind of the
schema behind it. -/
def ReportsItself (s : Schema σ τ) : Prop := s.Every ReportsItselfStep

/-! ## Marking the issues of keys -/

mutual
/-- The schema, marking what its schemas for the keys of records report. -/
def markKeys {τ : OutputType} : Schema σ τ → Schema σ τ
  | list rules item => .list rules item.markKeys
  | tuple kindMessage positions => .tuple kindMessage (markKeysAmong positions)
  | object ⟨fields, unknown, kindMessage⟩ =>
    .object ⟨markKeysFields fields, markKeysUnknown unknown, kindMessage⟩
  | record kindMessage key value =>
    .record kindMessage (.custom key.kind (key.validator.mapOutcome .markKey)) value.markKeys
  | union message alternatives => .union message (markKeysAmong alternatives)
  | intersection kindMessage components => .intersection kindMessage (markKeysComponents components)
  | erased inner => .erased inner.markKeys
  | nullable inner => .nullable inner.markKeys
  | optional inner => .optional inner.markKeys
  | withDefault fallback inner => .withDefault fallback inner.markKeys
  | refine test message code inner => .refine test message code inner.markKeys
  | transform f inner => .transform f inner.markKeys
  | tryMap f inner => .tryMap f inner.markKeys
  | chain steps inner => .chain steps inner.markKeys
  | coerce c inner => .coerce c inner.markKeys
  | leaf => leaf

def markKeysAmong : List (Schema σ .value) → List (Schema σ .value)
  | [] => []
  | s :: rest => s.markKeys :: markKeysAmong rest

def markKeysComponents : List (Schema σ .map) → List (Schema σ .map)
  | [] => []
  | s :: rest => s.markKeys :: markKeysComponents rest

def markKeysFields : List (String × Schema σ .value) → List (String × Schema σ .value)
  | [] => []
  | (name, s) :: rest => (name, s.markKeys) :: markKeysFields rest

def markKeysUnknown : UnknownKeys (Schema σ .value) → UnknownKeys (Schema σ .value)
  | .strip => .strip
  | .allow => .allow
  | .deny => .deny
  | .validate s => .validate s.markKeys
end

theorem markKeysAmong_eq_map (ss : List (Schema σ .value)) :
    markKeysAmong ss = ss.map markKeys := by
  induction ss with
  | nil => rfl
  | cons s rest ih => rw [markKeysAmong, ih, List.map_cons]

theorem markKeysComponents_eq_map (ss : List (Schema σ .map)) :
    markKeysComponents ss = ss.map markKeys := by
  induction ss with
  | nil => rfl
  | cons s rest ih => rw [markKeysComponents, ih, List.map_cons]

theorem markKeysFields_eq_map (fields : List (String × Schema σ .value)) :
    markKeysFields fields = fields.map fun f => (f.1, f.2.markKeys) := by
  induction fields with
  | nil => rfl
  | cons f rest ih =>
    obtain ⟨name, s⟩ := f
    rw [markKeysFields, ih, List.map_cons]

theorem markKeysUnknown_eq_map (unknown : UnknownKeys (Schema σ .value)) :
    markKeysUnknown unknown = unknown.map markKeys := by
  cases unknown <;> rfl

theorem markKeys_object (shape : Shape (Schema σ .value)) :
    (object shape).markKeys = .object ⟨shape.fields.map fun f => (f.1, f.2.markKeys),
      shape.unknown.map markKeys, shape.kindMessage⟩ := by
  obtain ⟨fields, unknown, kindMessage⟩ := shape
  rw [markKeys, markKeysFields_eq_map, markKeysUnknown_eq_map]

/-- Nothing moves; an issue stays as it is or is marked. -/
def keyMarks : Shift where
  path p := p
  path_push _ _ := rfl
  issue e f := f = e ∨ f = e.markKey
  issue_move _ := .inl rfl

theorem markKey_like {α : Type} (o : Outcome α) : Outcome.Like keyMarks.issue o o.markKey := by
  cases o with
  | success a => exact .success a
  | failure es =>
    refine .failure (.cons (.inr rfl) ?_)
    show List.Forall₂ keyMarks.issue es.others (es.others.map Issue.markKey)
    rw [List.forall₂_map_right_iff]
    exact List.forall₂_same.mpr fun e _ => .inr rfl

theorem markKey_inStep {α : Type} (key : Validator σ α) :
    key.InStep keyMarks (key.mapOutcome .markKey) := by
  intro v p s
  refine ⟨markKey_like _, rfl, ?_⟩
  have events : (key.mapOutcome Outcome.markKey v p s).events = (key v p s).events :=
    List.append_nil _
  have stays : ∀ e : Event, e.move keyMarks.path = e := by
    intro e
    cases e <;> rfl
  show List.Forall₂ _ _ (key.mapOutcome Outcome.markKey v p s).events
  rw [events]
  exact List.forall₂_same.mpr fun e _ => (stays e).symm

theorem forall₂_markKeys {υ : OutputType} {ss : List (Schema σ υ)}
    (h : ∀ s ∈ ss, s.validator.InStep keyMarks s.markKeys.validator) :
    List.Forall₂ (InStep keyMarks) (ss.map validator) ((ss.map markKeys).map validator) := by
  rw [List.map_map, List.forall₂_map_left_iff, List.forall₂_map_right_iff]
  exact List.forall₂_same.mpr h

theorem ReportsItself.inStep_markKeys {s : Schema σ τ} (h : s.ReportsItself) :
    s.validator.InStep keyMarks s.markKeys.validator := by
  induction s using parts_induction with
  | text rules => exact InStep.ofOutcome (textOutcome_like rules)
  | number rules => exact InStep.ofOutcome (numberOutcome_like rules)
  | boolean kindMessage => exact InStep.ofOutcome (booleanOutcome_like kindMessage)
  | date rules => exact InStep.ofOutcome (dateOutcome_like rules)
  | literal l => exact InStep.ofOutcome (literalOutcome_like l)
  | enumeration e => exact InStep.ofOutcome (enumerationOutcome_like e)
  | anything => exact InStep.ofOutcome fun v _ => .success v
  | custom | tryMap => exact h.self.elim
  | list rules item ih => exact list_inStep rules (ih h.2)
  | tuple kindMessage positions ih =>
    have parts := (every_tuple_iff.mp h).2
    rw [markKeys, markKeysAmong_eq_map, validator_tuple, validator_tuple]
    exact tuple_inStep kindMessage (forall₂_markKeys fun s hs => ih s hs (parts s hs))
  | object shape fields unknown =>
    obtain ⟨_, inFields, inUnknown⟩ := every_object_iff.mp h
    rw [markKeys_object, validator_object, validator_object]
    refine object_inStep ⟨?_, ?_, rfl⟩
    · simp only [shapeValidators, List.map_map]
      rw [List.forall₂_map_left_iff, List.forall₂_map_right_iff]
      exact List.forall₂_same.mpr fun f hf => ⟨rfl, fields f hf (inFields f hf)⟩
    · simp only [shapeValidators]
      cases kept : shape.unknown with
      | strip => exact .strip
      | allow => exact .allow
      | deny => exact .deny
      | validate s =>
        rw [kept] at unknown inUnknown
        exact .validate (unknown inUnknown)
  | record kindMessage key value _ values =>
    exact record_inStep kindMessage (markKey_inStep key.validator) (values h.2.2)
  | union message alternatives ih =>
    have parts := (every_union_iff.mp h).2
    rw [markKeys, markKeysAmong_eq_map, validator_union, validator_union]
    exact union_inStep message (forall₂_markKeys fun s hs => ih s hs (parts s hs))
  | intersection kindMessage components ih =>
    have parts := (every_intersection_iff.mp h).2
    rw [markKeys, markKeysComponents_eq_map, validator_intersection, validator_intersection]
    exact intersection_inStep kindMessage (forall₂_markKeys fun s hs => ih s hs (parts s hs))
  | erased τ inner ih => exact map_inStep (Output.erase τ) (ih h.2)
  | nullable inner ih => exact nullable_inStep (ih h.2)
  | optional inner ih => exact optional_inStep (ih h.2)
  | withDefault τ fallback inner ih => exact withDefault_inStep fallback (ih h.2)
  | refine τ test message code inner ih => exact refine_inStep test message code (ih h.2)
  | transform τ υ f inner ih => exact transform_inStep f (ih h.2)
  | chain τ fs inner ih => exact transform_inStep (steps fs) (ih h.2)
  | coerce τ c inner ih => exact coerce_inStep c (ih h.2)

/-! ## Converted values -/

/-- Whatever modifiers and coercions lie between, a value of the kind that is coerced to is of no
wrong kind to the schema. -/
theorem ReportsItself.silent_of_target {s : Schema σ τ} (h : s.ReportsItself) {c : Coercion} :
    Coercion.forKind? s.kind = some c →
      s.validator.Reports fun v _ e => v.kindName = c.target → e.code ≠ "invalid_type" := by
  have ofKind : ∀ {expected : String} {v : Value} {p : Path} {e : Issue},
      OfKind expected v p e → v.kindName = expected → e.code ≠ "invalid_type" := by
    intro expected v p e h same
    rcases h with other | ⟨different, _⟩
    · exact other
    · exact absurd same different
  induction s using parts_induction with
  | text rules =>
    intro kind v p t e member
    cases kind
    exact ofKind (textOutcome_ofKind rules v p e member)
  | number rules =>
    intro kind v p t e member
    cases kind
    exact ofKind (numberOutcome_ofKind rules v p e member)
  | boolean kindMessage =>
    intro kind v p t e member
    cases kind
    exact ofKind (booleanOutcome_ofKind kindMessage v p e member)
  | date rules =>
    intro kind v p t e member
    cases kind
    exact ofKind (dateOutcome_ofKind rules v p e member)
  | literal | enumeration | anything | list | tuple | object | record | union | intersection =>
    intro kind
    cases kind
  | custom | tryMap => exact h.self.elim
  | erased τ inner ih => exact fun kind => (ih h.2 kind).map (Output.erase τ)
  | nullable inner ih => exact fun kind => nullable_reports (ih h.2 kind)
  | optional inner ih => exact fun kind => optional_reports (ih h.2 kind)
  | withDefault τ fallback inner ih => exact fun kind => withDefault_reports fallback (ih h.2 kind)
  | refine τ test message code inner ih =>
    exact fun kind => refine_reports (ih h.2 kind) fun _ _ _ => h.1
  | transform τ υ f inner ih => exact fun kind => transform_reports f (ih h.2 kind)
  | chain τ fs inner ih => exact fun kind => transform_reports (steps fs) (ih h.2 kind)
  | coerce τ c' inner ih =>
    intro kind
    have same : c' = c := Option.some.inj (h.1.symm.trans kind)
    refine coerce_reports (ih h.2 kind) fun v p w converted t e _ target => ?_
    rw [same, Coercion.convert?_of_target target] at converted
    cases converted

/-! ## Locating issues -/

theorem code_of_markKey {α : Type} {o : Outcome α} {e : Issue} (h : e ∈ o.markKey.issues) :
    e.code = "record_key" := by
  cases o with
  | success a => cases h
  | failure es =>
    rcases List.mem_cons.mp h with rfl | other
    · rfl
    · obtain ⟨f, _, rfl⟩ := List.mem_map.mp other
      rfl

theorem markKey_reports {α : Type} (key : Validator σ α) :
    (key.mapOutcome .markKey).Reports fun _ _ e => e.code ≠ "invalid_type" := by
  intro v p s e member
  simp [code_of_markKey (o := (key v p s).result) member]

theorem ReportsItself.locates {s : Schema σ τ} (h : s.ReportsItself) :
    s.markKeys.validator.Locates := by
  induction s using parts_induction with
  | text rules =>
    exact ofOutcome_locates fun v p e member => (textOutcome_ofKind rules v p e member).pointsInto
  | number rules =>
    exact ofOutcome_locates fun v p e member => (numberOutcome_ofKind rules v p e member).pointsInto
  | boolean kindMessage =>
    exact ofOutcome_locates fun v p e member =>
      (booleanOutcome_ofKind kindMessage v p e member).pointsInto
  | date rules =>
    exact ofOutcome_locates fun v p e member => (dateOutcome_ofKind rules v p e member).pointsInto
  | literal l =>
    exact ofOutcome_locates fun v p e member => .of_code_ne (literalOutcome_code l v p e member)
  | enumeration x =>
    exact ofOutcome_locates fun v p e member => .of_code_ne (enumerationOutcome_code x v p e member)
  | anything =>
    refine ofOutcome_locates fun v p e member => ?_
    cases member
  | custom | tryMap => exact h.self.elim
  | list rules item ih => exact list_locates rules (ih h.2)
  | tuple kindMessage positions ih =>
    have parts := (every_tuple_iff.mp h).2
    rw [markKeys, markKeysAmong_eq_map, validator_tuple, List.map_map]
    exact tuple_locates kindMessage (List.forall_mem_map.mpr fun s hs => ih s hs (parts s hs))
  | object shape fields unknown =>
    obtain ⟨_, inFields, inUnknown⟩ := every_object_iff.mp h
    rw [markKeys_object, validator_object]
    refine object_locates ?_ ?_
    · simp only [shapeValidators, List.map_map]
      exact List.forall_mem_map.mpr fun f hf => fields f hf (inFields f hf)
    · simp only [shapeValidators]
      cases kept : shape.unknown with
      | strip | allow | deny => trivial
      | validate s =>
        rw [kept] at unknown inUnknown
        exact unknown inUnknown
  | record kindMessage key value _ values =>
    exact record_locates kindMessage (markKey_reports key.validator) (values h.2.2)
  | union message alternatives ih =>
    have parts := (every_union_iff.mp h).2
    rw [markKeys, markKeysAmong_eq_map, validator_union, List.map_map]
    exact union_locates message (List.forall_mem_map.mpr fun s hs => ih s hs (parts s hs))
  | intersection kindMessage components ih =>
    have parts := (every_intersection_iff.mp h).2
    rw [markKeys, markKeysComponents_eq_map, validator_intersection, List.map_map]
    exact intersection_locates kindMessage (List.forall_mem_map.mpr fun s hs =>
      ih s hs (parts s hs))
  | erased τ inner ih => exact (ih h.2).map (Output.erase τ)
  | nullable inner ih => exact nullable_reports (ih h.2)
  | optional inner ih => exact optional_reports (ih h.2)
  | withDefault τ fallback inner ih => exact withDefault_reports fallback (ih h.2)
  | refine τ test message code inner ih =>
    exact refine_reports (ih h.2) fun _ _ _ => .of_code_ne h.1
  | transform τ υ f inner ih => exact transform_reports f (ih h.2)
  | chain τ fs inner ih => exact transform_reports (steps fs) (ih h.2)
  | coerce τ c inner ih =>
    refine coerce_reports (ih h.2) fun v p w converted t e member _ => ?_
    -- What the schema reports of a converted value are the marked issues of the schema without
    -- marks.
    have issues := (ReportsItself.inStep_markKeys h.2 w p t).result.issues
    obtain ⟨f, ofInner, marked⟩ := exists_of_mem_right issues member
    have silent := ReportsItself.silent_of_target h.2 h.1 w p t f ofInner
      (Coercion.kindName_of_convert? converted)
    refine .of_code_ne ?_
    rcases marked with rfl | rfl
    · exact silent
    · simp [Issue.markKey]

/-- Issue by issue: what a schema reports is what it reports with the issues of its schemas for keys
marked, and an issue without a mark that is of a wrong kind points at a part of the value. -/
theorem wrongKind_pointsInto (s : Schema σ τ) (h : s.ReportsItself) (v : Value)
    (distinct : v.DistinctKeys) (p : Path) (t : σ) :
    List.Forall₂ (fun e e' => e' = e ∧ e.PointsInto v p ∨ e' = e.markKey)
        (s.validate v p t).result.issues (s.markKeys.validate v p t).result.issues ∧
      ∀ c w, Coercion.forKind? s.kind = some c → c.convert? v = some w →
        ∀ e ∈ (s.validate w p t).result.issues, e.code ≠ "invalid_type" := by
  have issues := (h.inStep_markKeys v p t).result.issues
  have located := h.locates v p t
  constructor
  · refine List.forall₂_iff_zip.mpr ⟨issues.length_eq, fun {e e'} member => ?_⟩
    rcases List.forall₂_zip issues member with same | marked
    · have points := located e' (List.of_mem_zip member).2 distinct
      rw [same] at points
      exact .inl ⟨same, points⟩
    · exact .inr marked
  · intro c w kind converted e member
    exact h.silent_of_target kind w p t e member (Coercion.kindName_of_convert? converted)

/-- Texts under coercion, and a record whose keys have to be numbers, which keys never are. -/
def tally : Schema Unit .map :=
  .object ⟨[("words", .erased (.list .empty (.erased asText))),
      ("counts", .erased (.record none
        (@transform Unit .number .text (fun (x : Binary64) => pure x.display) (.number .empty))
        (.erased (.text .empty))))], .strip, none⟩

def tallyInput : Value :=
  .object [("words", .list [.bool true, .null]), ("counts", .object [("k", .bool true)])]

theorem tally_wrongKind_pointsInto :
    tally.ReportsItself ∧ tallyInput.DistinctKeys ∧
      (tally.validate tallyInput .root ()).result.issues =
        [⟨⟨[.field "words", .index 1]⟩, "Expecting type 'string'. Got type 'null'.",
            "invalid_type", some "string", some "null"⟩,
          ⟨⟨[.field "counts", .field "k"]⟩, "Expecting type 'number'. Got type 'string'.",
            "invalid_type", some "number", some "string"⟩,
          ⟨⟨[.field "counts", .field "k"]⟩, "Expecting type 'string'. Got type 'boolean'.",
            "invalid_type", some "string", some "boolean"⟩] ∧
      List.Forall₂ (fun e e' => e' = e ∧ e.PointsInto tallyInput .root ∨ e' = e.markKey)
        (tally.validate tallyInput .root ()).result.issues
        (tally.markKeys.validate tallyInput .root ()).result.issues := by
  have itself : tally.ReportsItself := by
    simp [ReportsItself, tally, asText, Every, EveryField, EveryUnknown, ReportsItselfStep, kind,
      Coercion.forKind?]
  have distinct : tallyInput.DistinctKeys := by
    simp [tallyInput, Value.DistinctKeys, Value.EveryObject, Value.EveryEntry, Value.EveryItem,
      Entries.keys]
  exact ⟨itself, distinct, rfl, (wrongKind_pointsInto tally itself _ distinct .root ()).1⟩

end Schema

end Conform
