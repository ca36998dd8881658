import Conform.Proofs.Schema.Outputs
import Conform.Proofs.Value.Depth
import Conform.Schema.Parse

/-!
# Absent entries of outputs

A field that is declared leaves no entry when its output is absent.  Two other places let such an
entry into a map: the keys that a shape does not declare, where they are kept, and the values of a
record. An intersection takes over what its components have, also in the place of something that is
there.

Erasing leaves out the absent entries of the outermost map, and every part of an output has been
erased on its way into it.  So an erased output has no absent entry at any depth, as long as no part
of the input is kept unseen and no function of the caller makes outputs.
-/

set_option autoImplicit false

namespace Conform

theorem Value.noAbsentEntries_of_isScalar {v : Value} (h : v.isScalar = true) :
    v.NoAbsentEntries := by
  cases v with
  | absent | null | bool | number | text | date => trivial
  | list | object => cases h

theorem Value.noAbsentEntries_inherited : Value.Inherited Value.NoAbsentEntries where
  absent := trivial
  null := trivial
  list items := (everyObject_list_iff items).mpr
  object entries h := by
    refine (everyObject_object_iff _).mpr ⟨fun e member absent => ?_, fun e member => ?_⟩
    · have kept := (List.mem_filter.mp member).2
      rw [absent] at kept
      cases kept
    · exact h e (List.mem_filter.mp member).1

namespace Schema

open Validator

variable {σ : Type} {τ : OutputType}

/-! ## Where absent entries come from -/

theorem unknownAnswer_absent {unknown : UnknownKeys (Schema σ .value)}
    {entries kept : Entries Value} {name : String}
    (found : UnknownAnswer CanAnswer (unknown.map validator) entries kept)
    (absent : (name, .absent) ∈ kept) :
    unknown = .allow ∧ (name, .absent) ∈ entries ∨
      ∃ s w, unknown = .validate s ∧ (name, w) ∈ entries ∧ s.validator.CanAnswer w .absent := by
  cases unknown with
  | strip | deny =>
    cases found
    cases absent
  | allow =>
    cases found
    exact .inl ⟨rfl, absent⟩
  | validate s =>
    cases found with
    | validate answers =>
      obtain ⟨⟨key, w⟩, there, rfl, answer⟩ := exists_of_mem_right answers absent
      exact .inr ⟨s, w, rfl, there, answer⟩

theorem object_absent_entry {shape : Shape (Schema σ .value)} {v : Value} {out : Entries Value}
    {name : String} (found : (object shape).validator.CanAnswer v out)
    (absent : (name, .absent) ∈ out) :
    name ∉ Entries.keys shape.fields ∧ ∃ entries, v = .object entries ∧
      (shape.unknown = .allow ∧ (name, .absent) ∈ entries ∨
        ∃ s w, shape.unknown = .validate s ∧ (name, w) ∈ entries ∧
          s.validator.CanAnswer w .absent) := by
  rw [validator_object] at found
  obtain ⟨entries, declared, others, rfl, rfl, _, kept⟩ := object_canAnswer found
  rcases List.mem_append.mp absent with ofDeclared | ofOthers
  · -- Absent outputs of declared fields have been left out.
    have present := (List.mem_filter.mp ofDeclared).2
    cases present
  · have there : name ∈ Entries.keys others := List.mem_map_of_mem ofOthers
    obtain ⟨e, undeclaredKey, rfl⟩ := List.mem_map.mp (kept.keys_sublist.subset there)
    have inside : ∀ e, e ∈ undeclared (shapeValidators shape).fields entries → e ∈ entries :=
      fun e member => (List.mem_filter.mp member).1
    refine ⟨?_, entries, rfl, ?_⟩
    · have key := (List.mem_filter.mp undeclaredKey).2
      rw [← keys_shapeValidators, ← Entries.contains_iff]
      simpa using key
    · rcases unknownAnswer_absent kept ofOthers with
        ⟨allowed, member⟩ | ⟨s, w, validated, member, answer⟩
      · exact .inl ⟨allowed, inside _ member⟩
      · exact .inr ⟨s, w, validated, inside _ member, answer⟩

/-- An absent entry of the output of an object is one of a key that the shape does not declare: one
of the input that is allowed, or one whose value the schema for such keys has answered with
something absent.  In the output of a record the schema for values has answered so, and an
intersection has the entry from one of its components. -/
theorem absent_entry_origin (v : Value) (p : Path) (t : σ) (out : Entries Value) (name : String)
    (absent : (name, .absent) ∈ out) :
    (∀ shape : Shape (Schema σ .value), ((object shape).validate v p t).result = .success out →
      name ∉ Entries.keys shape.fields ∧ ∃ entries, v = .object entries ∧
        (shape.unknown = .allow ∧ (name, .absent) ∈ entries ∨
          ∃ s w, shape.unknown = .validate s ∧ (name, w) ∈ entries ∧
            ∃ q u, (s.validate w q u).result = .success .absent)) ∧
    (∀ (kindMessage : Option String) (key : Schema σ .text) (value : Schema σ .value),
      ((record kindMessage key value).validate v p t).result = .success out →
        ∃ entries, v = .object entries ∧ ∃ e ∈ entries,
          (∃ q u, (key.validate (.text e.1) q u).result = .success name) ∧
            ∃ q u, (value.validate e.2 q u).result = .success .absent) ∧
    ∀ (kindMessage : Option String) (components : List (Schema σ .map)),
      ((intersection kindMessage components).validate v p t).result = .success out →
        ∃ c ∈ components, ∃ o, (name, .absent) ∈ o ∧
          ∃ q u, (c.validate v q u).result = .success o := by
  refine ⟨fun shape accepted => object_absent_entry ⟨p, t, accepted⟩ absent, ?_, ?_⟩
  · intro kindMessage key value accepted
    obtain ⟨entries, rfl, _, answers⟩ := record_canAnswer ⟨p, t, accepted⟩
    obtain ⟨e, there, ofKey, ofValue⟩ := exists_of_mem_right answers absent
    exact ⟨entries, rfl, e, there, ofKey, ofValue⟩
  · intro kindMessage components accepted
    have found : (intersection kindMessage components).validator.CanAnswer v out := ⟨p, t, accepted⟩
    rw [validator_intersection] at found
    obtain ⟨outs, rfl, answers⟩ := intersection_canAnswer found
    obtain ⟨o, there, inOutput⟩ := mem_of_mem_mergeAll absent
    obtain ⟨w, inComponents, answer⟩ := exists_of_mem_right answers there
    obtain ⟨c, component, rfl⟩ := List.mem_map.mp inComponents
    exact ⟨c, component, o, inOutput, answer⟩

/-- Texts, each of which may be left out. -/
def phones : Schema Unit .map := .record none (.text .empty) (.optional (.erased (.text .empty)))

def phonesInput : Entries Value := [("home", .absent), ("work", .text "1")]

theorem phones_absent_entry_origin :
    (phones.validate (.object phonesInput) .root ()).result = .success phonesInput ∧
      ∃ e ∈ phonesInput,
        (∃ q u, ((.text .empty : Schema Unit .text).validate (.text e.1) q u).result =
          .success "home") ∧
        ∃ q u, ((.optional (.erased (.text .empty)) : Schema Unit .value).validate e.2 q u).result =
          .success .absent := by
  have accepted : (phones.validate (.object phonesInput) .root ()).result = .success phonesInput :=
    rfl
  have origin := absent_entry_origin (.object phonesInput) .root () phonesInput "home"
    (List.mem_cons_self ..)
  obtain ⟨entries, same, found⟩ := origin.2.1 none _ _ accepted
  cases same
  exact ⟨accepted, found⟩

/-- A mode that is `fast` where none is given. -/
def preset : Schema Unit .map :=
  .object ⟨[("mode", .erased (.withDefault (pure "fast") (.text .empty)))], .strip, none⟩

/-- Texts under any keys. -/
def extras : Schema Unit .map :=
  .object ⟨[], .validate (.optional (.erased (.text .empty))), none⟩

/-- An absent mode is left out by the component that declares it, and then taken over from the one
that does not, in the place of the fallback. -/
theorem intersection_overwrites_with_absent :
    (preset.validate (.object [("mode", .absent)]) .root ()).result =
        .success [("mode", .text "fast")] ∧
      (extras.validate (.object [("mode", .absent)]) .root ()).result =
        .success [("mode", .absent)] ∧
      ((intersection none [preset, extras]).validate (.object [("mode", .absent)]) .root
        ()).result =
        .success [("mode", .absent)] :=
  ⟨rfl, rfl, rfl⟩

/-! ## At every depth -/

/-- The condition on a schema apart from the schemas within it: it keeps no part of the input
unseen, has no function of the caller make outputs, and has no fallback with an absent entry. -/
def WholeStep : (τ : OutputType) → Schema σ τ → Prop
  | _, anything | _, custom .. | _, transform .. | _, tryMap .. | _, chain .. => False
  | _, object shape => shape.unknown ≠ .allow
  | τ, withDefault fallback _ => ∀ t, (Output.view τ (fallback.run t).1).NoAbsentEntries
  | _, _ => True

def Whole (s : Schema σ τ) : Prop := s.Every WholeStep

theorem WholeStep.origin {s : Schema σ τ} (originates : s.Originates) (h : WholeStep τ s) :
    ∀ v a, s.validator.CanAnswer v a → Output.Meets Value.NoAbsentEntries τ a := by
  intro v a found
  cases s with
  | text | number | boolean | date => trivial
  | literal l =>
    obtain ⟨p, answer⟩ := found.ofOutcome
    have scalar := isScalar_eq_of_equal (literalOutcome_equal answer)
    exact Value.noAbsentEntries_of_isScalar (scalar.trans l.constant.isScalar)
  | enumeration e =>
    obtain ⟨p, answer⟩ := found.ofOutcome
    obtain ⟨c, _, equal⟩ := enumerationOutcome_equal answer
    exact Value.noAbsentEntries_of_isScalar ((isScalar_eq_of_equal equal).symm.trans c.isScalar)
  | anything | custom | transform | tryMap | chain => exact h.elim
  | list | tuple | object | record | union | intersection | erased | nullable | optional
  | withDefault | refine | coerce => exact originates.elim

theorem meets_noAbsentEntries_of_view {a : Output τ} (h : (Output.view τ a).NoAbsentEntries) :
    Output.Meets Value.NoAbsentEntries τ a := by
  cases τ with
  | map => exact ((Value.everyObject_object_iff a).mp h).2
  | text | number | boolean | date | list | value => exact h

theorem Whole.meets {s : Schema σ τ} (h : s.Whole) :
    ∀ v a, s.validator.CanAnswer v a → Output.Meets Value.NoAbsentEntries τ a := by
  refine Every.outputs_meet Value.noAbsentEntries_inherited (fun _ _ => WholeStep.origin) ?_ ?_ h
  · intro υ fallback inner step t
    exact meets_noAbsentEntries_of_view (step t)
  · intro shape step
    exact step

/-- Whatever is validated, however many absent entries it has, no object within an erased output has
one. -/
theorem validateErased_noAbsentEntries (s : Schema σ τ) (h : s.Whole) (v : Value) (p : Path) (t : σ)
    (w : Value) (accepted : (s.validateErased v p t).result = .success w) : w.NoAbsentEntries := by
  obtain ⟨a, answer, rfl⟩ := map_canAnswer (v := v) ⟨p, t, accepted⟩
  exact Value.noAbsentEntries_inherited.erase (h.meets v a answer)

/-- Lists, tuples, records and fallbacks, under keys that are declared and under others. -/
def contact : Schema Unit .map :=
  .object ⟨[("spots", .erased (.list .empty (.erased phones))),
      ("pair", .erased (.tuple none [.nullable (.erased phones), .optional (.erased phones)])),
      ("groups", .erased (.record none (.text .empty) (.union none [.erased (.number .empty),
        .erased phones]))),
      ("mode", .erased (.withDefault (pure "fast") (.text .empty)))],
    .validate (.optional (.erased (.intersection none [preset, extras]))), none⟩

def contactInput : Value :=
  .object [("spots", .list [.object phonesInput]), ("pair", .list [.object phonesInput]),
    ("groups", .object [("a", .object phonesInput)]), ("mode", .absent),
    ("more", .object [("mode", .absent)]), ("gone", .absent)]

def contactOutput : Value :=
  .object [("spots", .list [.object [("work", .text "1")]]),
    ("pair", .list [.object [("work", .text "1")], .absent]),
    ("groups", .object [("a", .object [("work", .text "1")])]), ("mode", .text "fast"),
    ("more", .object [])]

theorem contact_validateErased_noAbsentEntries :
    contact.Whole ∧ (contact.validateErased contactInput .root ()).result = .success contactOutput ∧
      contactOutput.NoAbsentEntries := by
  have phonesWhole : phones.Whole := ⟨trivial, trivial, trivial, trivial, trivial⟩
  have presetWhole : preset.Whole := by
    refine every_object_iff.mpr ⟨nofun, ?_, trivial⟩
    exact List.forall_mem_singleton.mpr ⟨trivial, fun _ => trivial, trivial⟩
  have extrasWhole : extras.Whole :=
    every_object_iff.mpr ⟨nofun, nofun, trivial, trivial, trivial⟩
  have whole : contact.Whole := by
    refine every_object_iff.mpr ⟨nofun, ?_, trivial, trivial, ?_⟩
    · simp only [List.forall_mem_cons, List.not_mem_nil, false_implies, implies_true, and_true]
      refine ⟨⟨trivial, trivial, trivial, phonesWhole⟩, ?_, ?_, trivial, fun _ => trivial, trivial⟩
      · refine ⟨trivial, every_tuple_iff.mpr ⟨trivial, ?_⟩⟩
        simp only [List.forall_mem_cons, List.not_mem_nil, false_implies, implies_true, and_true]
        exact ⟨⟨trivial, trivial, phonesWhole⟩, trivial, trivial, phonesWhole⟩
      · refine ⟨trivial, trivial, trivial, every_union_iff.mpr ⟨trivial, ?_⟩⟩
        simp only [List.forall_mem_cons, List.not_mem_nil, false_implies, implies_true, and_true]
        exact ⟨⟨trivial, trivial⟩, trivial, phonesWhole⟩
    · refine every_intersection_iff.mpr ⟨trivial, ?_⟩
      simp only [List.forall_mem_cons, List.not_mem_nil, false_implies, implies_true, and_true]
      exact ⟨presetWhole, extrasWhole⟩
  have accepted :
      (contact.validateErased contactInput .root ()).result = .success contactOutput := rfl
  exact ⟨whole, accepted,
    validateErased_noAbsentEntries contact whole contactInput .root () contactOutput accepted⟩

end Schema

end Conform
