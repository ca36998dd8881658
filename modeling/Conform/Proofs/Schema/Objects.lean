import Conform.Proofs.Entries.Merge
import Conform.Proofs.Run.Success
import Conform.Proofs.Schema.Structure
import Conform.Proofs.Value.Depth
import Conform.Schema.Parse

/-!
# What an object schema makes of declared and of other keys

The output of an object schema has the declared fields in the order of their declaration and then
what is kept of the other entries, in the order of the input; absent values have no entries.  The
schemas of the fields see the entries with declared names alone, and what becomes of the others sees
the rest, so neither can change what the other one makes.

Hence schemas with the same fields differ in the other entries alone: stripping and keeping them
reject the same objects for the same reasons, denying them adds an issue for each, and keeping them
is to validate them with a schema that accepts anything.
-/

set_option autoImplicit false

namespace Conform.Schema

open Outcome Validator

variable {σ : Type}

/-! ## Entries that are validated one after another -/

/-- A value that a schema is to validate, and the key under which its output comes to stand. -/
structure Part (σ : Type) where
  key : String
  schema : Schema σ .value
  value : Value

namespace Part

def run (p : Path) (q : Part σ) : Run σ (Outcome Value) := q.schema.validate q.value (p.field q.key)

def entry (p : Path) (q : Part σ) : Run σ (Outcome (String × Value)) := do
  return underKey q.key (← q.run p)

end Part

/-- Every part is accepted as its turn comes, and these are the entries of the outputs. -/
inductive Accepted (p : Path) : List (Part σ) → σ → Entries Value → σ → Prop
  | nil {s : σ} : Accepted p [] s [] s
  | cons {q : Part σ} {rest : List (Part σ)} {s t : σ} {out : Value} {entries : Entries Value}
    (first : (q.run p s).result = .success out)
    (others : Accepted p rest (q.run p s).state entries t) :
    Accepted p (q :: rest) s ((q.key, out) :: entries) t

theorem Accepted.keys {p : Path} {parts : List (Part σ)} {s t : σ} {entries : Entries Value}
    (h : Accepted p parts s entries t) : Entries.keys entries = parts.map Part.key := by
  induction h with
  | nil => rfl
  | cons _ _ ih => exact congrArg _ ih

theorem Part.entry_success_iff (p : Path) (q : Part σ) (s : σ) (e : String × Value) :
    (q.entry p s).result = .success e ↔
      ∃ out, (q.run p s).result = .success out ∧ (q.key, out) = e :=
  map_eq_success_iff _ _ e

theorem accepted_iff (p : Path) (parts : List (Part σ)) (s t : σ) (entries : Entries Value) :
    Accepted p parts s entries t ↔
      (Run.sequence (parts.map (Part.entry p)) s).result = entries.map .success ∧
        (Run.sequence (parts.map (Part.entry p)) s).state = t := by
  induction parts generalizing s entries with
  | nil =>
    constructor
    · rintro ⟨⟩
      exact ⟨rfl, rfl⟩
    · rintro ⟨none, rfl⟩
      obtain rfl := List.map_eq_nil_iff.mp none.symm
      exact .nil
  | cons q rest ih =>
    have answers : (Run.sequence ((q :: rest).map (Part.entry p)) s).result =
        (q.entry p s).result ::
          (Run.sequence (rest.map (Part.entry p)) (q.run p s).state).result := rfl
    have last : (Run.sequence ((q :: rest).map (Part.entry p)) s).state =
        (Run.sequence (rest.map (Part.entry p)) (q.run p s).state).state := rfl
    rw [answers, last]
    constructor
    · rintro (_ | ⟨first, others⟩)
      obtain ⟨results, state⟩ := (ih _ _).mp others
      rw [results]
      exact ⟨congrArg (· :: _) ((q.entry_success_iff p s _).mpr ⟨_, first, rfl⟩), state⟩
    · rintro ⟨results, state⟩
      cases entries with
      | nil => cases results
      | cons e entries =>
        obtain ⟨own, others⟩ := List.cons.inj results
        obtain ⟨out, first, rfl⟩ := (q.entry_success_iff p s e).mp own
        exact .cons first ((ih _ _).mpr ⟨others, state⟩)

/-! ## The two lots of an object -/

/-- The declared fields, with what an object has under their names. -/
def declaredParts (fields : List (String × Schema σ .value)) (v : Value) : List (Part σ) :=
  fields.map fun f => ⟨f.1, f.2, v.get f.1⟩

/-- Entries that one schema is to validate. -/
def partsWith (schema : Schema σ .value) (entries : Entries Value) : List (Part σ) :=
  entries.map fun e => ⟨e.1, schema, e.2⟩

/-- The runs for the entries of an object whose keys are not declared. -/
def otherRuns (unknown : UnknownKeys (Schema σ .value)) (p : Path) (others : Entries Value) :
    List (Run σ (Outcome (String × Value))) :=
  match unknown with
  | .strip => []
  | .allow => others.map fun e => pure (.success e)
  | .deny => others.map fun e => pure (.fail (unexpectedKey p e.1 e.2))
  | .validate schema => (partsWith schema others).map (Part.entry p)

theorem unknownEntries_eq (unknown : UnknownKeys (Schema σ .value)) (p : Path)
    (others : Entries Value) :
    others.flatMap (unknownEntry (unknown.map validator) p) = otherRuns unknown p others := by
  cases unknown with
  | strip => exact List.flatMap_eq_nil_iff.mpr fun _ _ => rfl
  | allow | deny => exact List.flatMap_pure_eq_map _ others
  | validate schema =>
    rw [otherRuns, partsWith, List.map_map]
    exact List.flatMap_pure_eq_map _ others

/-- The output of an object, from the answers for its declared fields and for its other entries. -/
def assembled (declared others : List (Outcome (String × Value))) : Outcome (Entries Value) :=
  .settle (Value.present (outputs declared) ++ outputs others)
    (allIssues declared ++ allIssues others)

theorem object_run (fields : List (String × Schema σ .value))
    (unknown : UnknownKeys (Schema σ .value)) (kindMessage : Option String)
    (entries : Entries Value) (p : Path) :
    (object ⟨fields, unknown, kindMessage⟩).validate (.object entries) p = do
      let declared ← Run.sequence ((declaredParts fields (.object entries)).map (Part.entry p))
      let others ← Run.sequence (otherRuns unknown p (undeclared fields entries))
      return assembled declared others := by
  have own : (shapeValidators ⟨fields, unknown, kindMessage⟩).fields.map
      (fun f => field (.object entries) p f.1 f.2) =
        (declaredParts fields (.object entries)).map (Part.entry p) := by
    rw [shapeValidators, declaredParts, List.map_map, List.map_map]
    rfl
  have names : undeclared (shapeValidators ⟨fields, unknown, kindMessage⟩).fields entries =
      undeclared fields entries :=
    undeclared_eq_of_names (keys_shapeValidators ⟨fields, unknown, kindMessage⟩) entries
  rw [validate, validator_object, ← own, ← unknownEntries_eq, ← names]
  rfl

theorem sequence_map_pure {α β : Type} (f : α → β) (as : List α) :
    Run.sequence (as.map fun a => (pure (f a) : Run σ β)) = pure (as.map f) := by
  induction as with
  | nil => rfl
  | cons a rest ih =>
    rw [List.map_cons, Run.sequence, ih]
    rfl

/-! ## Success -/

/-- What is kept of the entries of an object whose keys are not declared. -/
inductive Kept (p : Path) (others : Entries Value) (s : σ) :
    UnknownKeys (Schema σ .value) → Entries Value → Prop
  | strip : Kept p others s .strip []
  | allow : Kept p others s .allow others
  | deny (none : others = []) : Kept p others s .deny []
  | validate {schema : Schema σ .value} {kept : Entries Value} {t : σ}
    (accepted : Accepted p (partsWith schema others) s kept t) :
    Kept p others s (.validate schema) kept

theorem kept_iff (p : Path) (others : Entries Value) (s : σ)
    (unknown : UnknownKeys (Schema σ .value)) (kept : Entries Value) :
    Kept p others s unknown kept ↔
      (Run.sequence (otherRuns unknown p others) s).result = kept.map .success := by
  cases unknown with
  | strip =>
    constructor
    · rintro ⟨⟩
      rfl
    · intro found
      obtain rfl := List.map_eq_nil_iff.mp found.symm
      exact .strip
  | allow =>
    rw [otherRuns, sequence_map_pure]
    constructor
    · rintro ⟨⟩
      rfl
    · intro found
      obtain rfl := List.map_injective_iff.mpr (fun _ _ same => Outcome.success.inj same) found
      exact .allow
  | deny =>
    rw [otherRuns, sequence_map_pure]
    constructor
    · rintro (_ | _ | none)
      rw [none]
      rfl
    · intro found
      cases others with
      | nil =>
        obtain rfl := List.map_eq_nil_iff.mp found.symm
        exact .deny rfl
      | cons e rest =>
        cases kept with
        | nil => cases found
        | cons k kept => cases (List.cons.inj found).1
  | validate schema =>
    constructor
    · rintro (_ | _ | _ | accepted)
      exact ((accepted_iff p _ s _ kept).mp accepted).1
    · intro found
      exact .validate ((accepted_iff p _ s _ kept).mpr ⟨found, rfl⟩)

theorem assembled_success_iff (declared others : List (Outcome (String × Value)))
    (out : Entries Value) :
    assembled declared others = .success out ↔
      ∃ own kept : Entries Value, declared = own.map .success ∧ others = kept.map .success ∧
        out = Value.present own ++ kept := by
  constructor
  · intro settled
    obtain ⟨none, rfl⟩ := settle_eq_success settled
    obtain ⟨noneDeclared, noneOther⟩ := List.append_eq_nil_iff.mp none
    exact ⟨_, _, eq_map_success noneDeclared, eq_map_success noneOther, rfl⟩
  · rintro ⟨own, kept, rfl, rfl, rfl⟩
    rw [assembled, outputs_map_success, outputs_map_success, allIssues_map_success,
      allIssues_map_success, List.append_nil, settle_nil]

theorem object_success_iff (fields : List (String × Schema σ .value))
    (unknown : UnknownKeys (Schema σ .value)) (kindMessage : Option String)
    (entries : Entries Value)
    (p : Path) (s : σ) (out : Entries Value) :
    ((object ⟨fields, unknown, kindMessage⟩).validate (.object entries) p s).result = .success out ↔
      ∃ own t kept, Accepted p (declaredParts fields (.object entries)) s own t ∧
        Kept p (undeclared fields entries) t unknown kept ∧ out = Value.present own ++ kept := by
  rw [object_run, Run.bind_apply, Run.bind_apply]
  simp only [Run.pure_apply, assembled_success_iff, kept_iff, accepted_iff]
  constructor
  · rintro ⟨own, kept, answers, others, rfl⟩
    exact ⟨own, _, kept, ⟨answers, rfl⟩, others, rfl⟩
  · rintro ⟨own, t, kept, ⟨answers, rfl⟩, others, rfl⟩
    exact ⟨own, kept, answers, others, rfl⟩

theorem validateErased_success_iff (shape : Shape (Schema σ .value)) (v w : Value) (p : Path)
    (s : σ) :
    ((object shape).validateErased v p s).result = .success w ↔
      ∃ out, ((object shape).validate v p s).result = .success out ∧
        .object (Value.present out) = w :=
  map_eq_success_iff _ _ w

theorem object_erased_success_iff (fields : List (String × Schema σ .value))
    (unknown : UnknownKeys (Schema σ .value)) (kindMessage : Option String)
    (entries : Entries Value)
    (p : Path) (s : σ) (w : Value) :
    ((object ⟨fields, unknown, kindMessage⟩).validateErased (.object entries) p s).result =
        .success w ↔
      ∃ own t kept, Accepted p (declaredParts fields (.object entries)) s own t ∧
        Kept p (undeclared fields entries) t unknown kept ∧
        w = .object (Value.present (own ++ kept)) := by
  rw [validateErased_success_iff]
  constructor
  · rintro ⟨out, found, rfl⟩
    obtain ⟨own, t, kept, accepted, others, rfl⟩ :=
      (object_success_iff fields unknown kindMessage entries p s out).mp found
    rw [Value.present_append, Value.present_present, ← Value.present_append]
    exact ⟨own, t, kept, accepted, others, rfl⟩
  · rintro ⟨own, t, kept, accepted, others, rfl⟩
    have found := (object_success_iff fields unknown kindMessage entries p s
      (Value.present own ++ kept)).mpr ⟨own, t, kept, accepted, others, rfl⟩
    refine ⟨_, found, ?_⟩
    rw [Value.present_append, Value.present_append, Value.present_present]

/-! ## Keys of the two lots -/

theorem declaredParts_keys (fields : List (String × Schema σ .value)) (v : Value) :
    (declaredParts fields v).map Part.key = Entries.keys fields := List.map_map

theorem Kept.keys_sublist {p : Path} {others kept : Entries Value} {s : σ}
    {unknown : UnknownKeys (Schema σ .value)} (h : Kept p others s unknown kept) :
    (Entries.keys kept).Sublist (Entries.keys others) := by
  cases h with
  | strip | deny => exact List.nil_sublist _
  | allow => exact List.Sublist.refl _
  | validate accepted =>
    rw [accepted.keys, partsWith, List.map_map]
    exact List.Sublist.refl _

theorem Accepted.keys_present_sublist {fields : List (String × Schema σ .value)} {v : Value}
    {p : Path} {s t : σ} {own : Entries Value} (h : Accepted p (declaredParts fields v) s own t) :
    (Entries.keys (Value.present own)).Sublist (Entries.keys fields) := by
  have names := Value.keys_present_sublist own
  rw [h.keys, declaredParts_keys] at names
  exact names

theorem undeclared_keys_sublist (fields : List (String × Schema σ .value))
    (entries : Entries Value) :
    (Entries.keys (undeclared fields entries)).Sublist (Entries.keys entries) :=
  List.filter_sublist.map Prod.fst

theorem not_declared_of_mem {fields : List (String × Schema σ .value)} {entries : Entries Value}
    {key : String} (member : key ∈ Entries.keys (undeclared fields entries)) :
    key ∉ Entries.keys fields := by
  obtain ⟨e, kept, rfl⟩ := List.mem_map.mp member
  have outside := (List.mem_filter.mp kept).2
  rw [← Entries.contains_iff]
  simpa using outside

/-! ## One thing to do with other entries against another -/

theorem object_wrongKind (shape : Shape (Schema σ .value)) {v : Value} (none : v.object? = none)
    (p : Path) :
    (object shape).validate v p = pure (.fail (.wrongKind p "object" v shape.kindMessage)) := by
  rw [validate, validator_object, Validator.object, none]
  rfl

theorem assembled_issues (declared others : List (Outcome (String × Value))) :
    (assembled declared others).issues = allIssues declared ++ allIssues others := issues_settle _ _

/-- What the declared fields answer. -/
def fieldAnswers (fields : List (String × Schema σ .value)) (entries : Entries Value) (p : Path)
    (s : σ) : List (Outcome (String × Value)) :=
  (Run.sequence ((declaredParts fields (.object entries)).map (Part.entry p)) s).result

theorem object_result (unknown : UnknownKeys (Schema σ .value))
    {fields : List (String × Schema σ .value)} {entries : Entries Value} {p : Path}
    {answers : List (Outcome (String × Value))}
    (others : Run.sequence (otherRuns unknown p (undeclared fields entries)) = pure answers)
    (kindMessage : Option String) (s : σ) :
    ((object ⟨fields, unknown, kindMessage⟩).validate (.object entries) p s).result =
      assembled (fieldAnswers fields entries p s) answers := by
  rw [object_run, others]
  rfl

variable (fields : List (String × Schema σ .value)) (kindMessage : Option String)

theorem strip_result (entries : Entries Value) (p : Path) (s : σ) :
    ((object ⟨fields, .strip, kindMessage⟩).validate (.object entries) p s).result =
      assembled (fieldAnswers fields entries p s) [] := object_result .strip rfl kindMessage s

theorem allow_result (entries : Entries Value) (p : Path) (s : σ) :
    ((object ⟨fields, .allow, kindMessage⟩).validate (.object entries) p s).result =
      assembled (fieldAnswers fields entries p s) ((undeclared fields entries).map .success) :=
  object_result .allow (sequence_map_pure _ _) kindMessage s

theorem deny_result (entries : Entries Value) (p : Path) (s : σ) :
    ((object ⟨fields, .deny, kindMessage⟩).validate (.object entries) p s).result =
      assembled (fieldAnswers fields entries p s)
        ((undeclared fields entries).map fun e => .fail (unexpectedKey p e.1 e.2)) :=
  object_result .deny (sequence_map_pure _ _) kindMessage s

/-- The entries of a value whose keys are not declared, if the value is an object. -/
def unexpected (fields : List (String × Schema σ .value)) (v : Value) : Entries Value :=
  undeclared fields (v.object?.getD [])

theorem allow_issues (v : Value) (p : Path) (s : σ) :
    ((object ⟨fields, .allow, kindMessage⟩).validate v p s).result.issues =
      ((object ⟨fields, .strip, kindMessage⟩).validate v p s).result.issues := by
  cases v with
  | object entries =>
    rw [allow_result, strip_result, assembled_issues, assembled_issues, allIssues_map_success]
    rfl
  | absent | null | bool | number | text | list | date =>
    rw [object_wrongKind _ rfl, object_wrongKind _ rfl]

theorem deny_issues (v : Value) (p : Path) (s : σ) :
    ((object ⟨fields, .deny, kindMessage⟩).validate v p s).result.issues =
      ((object ⟨fields, .strip, kindMessage⟩).validate v p s).result.issues ++
        (unexpected fields v).map fun e => unexpectedKey p e.1 e.2 := by
  cases v with
  | object entries =>
    rw [deny_result, strip_result, assembled_issues, assembled_issues]
    have reported : allIssues ((undeclared fields entries).map fun e =>
        (.fail (unexpectedKey p e.1 e.2) : Outcome (String × Value))) =
        (undeclared fields entries).map fun e => unexpectedKey p e.1 e.2 := by
      rw [allIssues, List.flatMap_map]
      exact List.flatMap_pure_eq_map _ _
    rw [reported]
    exact congrArg (· ++ _) (List.append_nil _).symm
  | absent | null | bool | number | text | list | date =>
    rw [object_wrongKind _ rfl, object_wrongKind _ rfl]
    exact (List.append_nil _).symm

/-- Where denying other entries succeeds there are none, and nothing is to be stripped. -/
theorem strip_of_deny {v : Value} {p : Path} {s : σ} {out : Entries Value}
    (accepted : ((object ⟨fields, .deny, kindMessage⟩).validate v p s).result = .success out) :
    ((object ⟨fields, .strip, kindMessage⟩).validate v p s).result = .success out := by
  cases v with
  | object entries =>
    obtain ⟨own, t, kept, answers, found, rfl⟩ := (object_success_iff _ _ _ _ p s out).mp accepted
    cases found
    exact (object_success_iff _ _ _ _ p s _).mpr ⟨own, t, [], answers, .strip, rfl⟩
  | absent | null | bool | number | text | list | date =>
    rw [object_wrongKind _ rfl] at accepted
    cases accepted

theorem allow_eq_anything :
    (object ⟨fields, .allow, kindMessage⟩).validate =
      (object ⟨fields, .validate anything.erased, kindMessage⟩).validate := by
  funext v p
  cases v with
  | object entries =>
    have runs : otherRuns .allow p (undeclared fields entries) =
        otherRuns (.validate (anything.erased : Schema σ .value)) p
          (undeclared fields entries) := by
      rw [otherRuns, otherRuns, partsWith, List.map_map]
      rfl
    rw [object_run, object_run, runs]
  | absent | null | bool | number | text | list | date =>
    rw [object_wrongKind _ rfl, object_wrongKind _ rfl]

/-! ## The whole object -/

/-- What is kept of the other entries comes after the declared fields, under keys of its own. -/
theorem others_come_after {unknown : UnknownKeys (Schema σ .value)} {entries out : Entries Value}
    {p : Path} {s : σ}
    (found : ((object ⟨fields, unknown, kindMessage⟩).validateErased (.object entries) p s).result =
      .success (.object out)) :
    ∃ own rest,
      ((object ⟨fields, .strip, kindMessage⟩).validateErased (.object entries) p s).result =
        .success (.object own) ∧
      out = own ++ rest ∧ (Entries.keys own).Sublist (Entries.keys fields) ∧
      (Entries.keys rest).Sublist (Entries.keys (undeclared fields entries)) := by
  obtain ⟨own, t, kept, answers, others, whole⟩ :=
    (object_erased_success_iff fields unknown kindMessage entries p s _).mp found
  cases whole
  refine ⟨Value.present own, Value.present kept, ?_, Value.present_append own kept,
    answers.keys_present_sublist, (Value.keys_present_sublist kept).trans others.keys_sublist⟩
  refine (object_erased_success_iff fields .strip kindMessage entries p s _).mpr ?_
  exact ⟨own, t, [], answers, .strip, by rw [List.append_nil]⟩

theorem get?_append_of_declared {own rest entries : Entries Value} {name : String}
    (outside : (Entries.keys rest).Sublist (Entries.keys (undeclared fields entries)))
    (declared : name ∈ Entries.keys fields) :
    Entries.get? (own ++ rest) name = Entries.get? own name := by
  have other : name ∉ Entries.keys rest := fun member =>
    not_declared_of_mem (outside.subset member) declared
  rw [Entries.get?_append, Entries.get?_eq_none_of_not_mem other, Option.or_none]

theorem nodup_keys_append {own rest entries : Entries Value}
    (inside : (Entries.keys own).Sublist (Entries.keys fields))
    (outside : (Entries.keys rest).Sublist (Entries.keys (undeclared fields entries)))
    (names : (Entries.keys fields).Nodup) (distinct : (Entries.keys entries).Nodup) :
    (Entries.keys (own ++ rest)).Nodup := by
  have keys : Entries.keys (own ++ rest) = Entries.keys own ++ Entries.keys rest := List.map_append
  rw [keys, List.nodup_append]
  refine ⟨names.sublist inside,
    distinct.sublist (outside.trans (undeclared_keys_sublist fields entries)), ?_⟩
  rintro key declared _ other rfl
  exact not_declared_of_mem (outside.subset other) (inside.subset declared)

/-- The output is the map into which the present fields and then the kept entries are written, one
by one: no key is written twice, so each comes last in its turn. -/
theorem object_writes_output {entries : Entries Value} (names : (Entries.keys fields).Nodup)
    (distinct : (Entries.keys entries).Nodup) (unknown : UnknownKeys (Schema σ .value)) (p : Path)
    (s : σ) (out : Entries Value) :
    ((object ⟨fields, unknown, kindMessage⟩).validate (.object entries) p s).result = .success out ↔
      ∃ own t kept, Accepted p (declaredParts fields (.object entries)) s own t ∧
        Kept p (undeclared fields entries) t unknown kept ∧
        out = Entries.ofList (Value.present own ++ kept) := by
  rw [object_success_iff]
  refine exists_congr fun own => exists_congr fun t => exists_congr fun kept =>
    and_congr_right fun answers => and_congr_right fun others => ?_
  have keys := nodup_keys_append fields answers.keys_present_sublist others.keys_sublist
    names distinct
  rw [Entries.ofList_eq_self keys]

/-- The erased output of an object schema has an entry for each declared field, in their order, and
then what the schema keeps of the other entries, in theirs; absent values are left out.  No other
entry hides a declared one.

Stripping and keeping the other entries reject the same values for the same reasons.  Denying them
rejects, besides these, the objects that have any, with an issue for each, and otherwise strips.
Keeping them is to validate them with a schema that accepts anything. -/
theorem object_output_and_other_keys :
    (∀ (unknown : UnknownKeys (Schema σ .value)) (entries : Entries Value) (p : Path) (s : σ)
      (w : Value),
      ((object ⟨fields, unknown, kindMessage⟩).validateErased (.object entries) p s).result =
          .success w ↔
        ∃ own t kept, Accepted p (declaredParts fields (.object entries)) s own t ∧
          Kept p (undeclared fields entries) t unknown kept ∧
          w = .object (Value.present (own ++ kept))) ∧
    (∀ (unknown : UnknownKeys (Schema σ .value)) (entries : Entries Value) (p : Path) (s : σ)
      (out : Entries Value),
      ((object ⟨fields, unknown, kindMessage⟩).validateErased (.object entries) p s).result =
          .success (.object out) →
        ∃ own rest,
          ((object ⟨fields, .strip, kindMessage⟩).validateErased (.object entries) p s).result =
            .success (.object own) ∧
          out = own ++ rest ∧ (Entries.keys own).Sublist (Entries.keys fields) ∧
          (Entries.keys rest).Sublist (Entries.keys (undeclared fields entries)) ∧
          (∀ name ∈ Entries.keys fields, Entries.get? out name = Entries.get? own name) ∧
          ((Entries.keys fields).Nodup → (Entries.keys entries).Nodup →
            (Entries.keys out).Nodup)) ∧
    ∀ (v : Value) (p : Path) (s : σ) (strip allow deny : Outcome (Entries Value)),
      ((object ⟨fields, .strip, kindMessage⟩).validate v p s).result = strip →
      ((object ⟨fields, .allow, kindMessage⟩).validate v p s).result = allow →
      ((object ⟨fields, .deny, kindMessage⟩).validate v p s).result = deny →
        (∀ es, strip = .failure es ↔ allow = .failure es) ∧
        ((∃ es, deny = .failure es) ↔ (∃ es, strip = .failure es) ∨ unexpected fields v ≠ []) ∧
        deny.issues = strip.issues ++ (unexpected fields v).map (fun e => unexpectedKey p e.1 e.2) ∧
        (∀ out, deny = .success out → strip = .success out) ∧
        (object ⟨fields, .allow, kindMessage⟩).validate v p s =
          (object ⟨fields, .validate anything.erased, kindMessage⟩).validate v p s := by
  refine ⟨fun unknown => object_erased_success_iff fields unknown kindMessage, ?_, ?_⟩
  · intro unknown entries p s out found
    obtain ⟨own, rest, stripped, rfl, inside, outside⟩ := others_come_after fields kindMessage found
    exact ⟨own, rest, stripped, rfl, inside, outside,
      fun name => get?_append_of_declared fields outside,
      nodup_keys_append fields inside outside⟩
  · rintro v p s _ _ _ rfl rfl rfl
    have denied := deny_issues fields kindMessage v p s
    refine ⟨fun es => ?_, ?_, denied, fun out => strip_of_deny fields kindMessage, ?_⟩
    · rw [eq_failure_iff, eq_failure_iff, allow_issues]
    · rw [fails_iff, fails_iff, denied, ne_eq, List.append_eq_nil_iff, List.map_eq_nil_iff,
        not_and_or]
    · rw [allow_eq_anything]

/-- A point, whose second coordinate is declared first. -/
def point : List (String × Schema Unit .value) :=
  [("b", .erased (.number .empty)), ("a", .erased (.number .empty))]

def labelledPoint : Entries Value :=
  [("z", .text "tip"), ("a", .number .zero), ("b", .number .zero)]

/-- The declared coordinates come first, in the order of their declaration. -/
def labelledOutput : Entries Value :=
  [("b", .number .zero), ("a", .number .zero), ("z", .text "tip")]

theorem labelledPoint_output :
    ((object ⟨point, .allow, none⟩).validateErased (.object labelledPoint) .root ()).result =
        .success (.object labelledOutput) ∧
      (∃ own rest, labelledOutput = own ++ rest ∧ (Entries.keys own).Sublist (Entries.keys point) ∧
        (Entries.keys rest).Sublist ["z"] ∧ (Entries.keys labelledOutput).Nodup) ∧
      (∃ es, ((object ⟨point, .deny, none⟩).validate (.object labelledPoint) .root ()).result =
        .failure es) ∧
      ((object ⟨point, .deny, none⟩).validate (.object labelledPoint) .root ()).result.issues =
        [⟨⟨[.field "z"]⟩, "Unexpected key 'z'.", "additional_property", none, some "string"⟩] := by
  obtain ⟨outputs, others, policies⟩ := object_output_and_other_keys point none
  obtain ⟨_, denied, reported, _⟩ := policies (.object labelledPoint) .root () _ _ _ rfl rfl rfl
  have accepted : Accepted .root (declaredParts point (.object labelledPoint)) ()
      [("b", .number .zero), ("a", .number .zero)] () := .cons rfl (.cons rfl .nil)
  have found := (outputs .allow labelledPoint .root () (.object labelledOutput)).mpr
    ⟨_, (), _, accepted, .allow, rfl⟩
  obtain ⟨own, rest, _, whole, inside, outside, _, distinct⟩ :=
    others .allow labelledPoint .root () labelledOutput found
  exact ⟨found, ⟨own, rest, whole, inside, outside, distinct (by decide) (by decide)⟩,
    denied.mpr (.inr (List.cons_ne_nil _ _)), reported⟩

end Conform.Schema
