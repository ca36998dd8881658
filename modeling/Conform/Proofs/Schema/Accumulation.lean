import Conform.Proofs.Schema.Structure
import Conform.Schema.Parse

/-!
# Nothing is skipped and nothing is lost

What a schema owes a value is a list of calls and of issues: the issues that objects, lists, tuples
and intersections report themselves, and the calls of the schemas within them that are none of
these, all in the order of the parts.  The list is read off the schema and the value, before
anything has run.

`Schema.recording` notes each call as it is made, with the state it is made in.  The main statement:
the calls that are noted are those of the list, whatever any of them answers, and the issues of the
whole are the issues of the list and of the answers, in the order of the list.
-/

set_option autoImplicit false

namespace Conform

variable {σ α β : Type}

structure Call (σ : Type) where
  output : OutputType
  leaf : Schema σ output
  value : Value
  path : Path

inductive Obligation (σ : Type) where
  | call (c : Call σ)
  | issue (e : Issue)

namespace Schema

mutual
/-- What a schema owes a value at a path.  Any schema that is not among the first ten is a leaf. -/
def obligations {τ : OutputType} : Schema σ τ → Value → Path → List (Obligation σ)
  | list rules item, v, p =>
    match v.list? with
    | some items => (rules.issues p items.length).map .issue ++
        items.zipIdx.flatMap fun x => item.obligations x.1 (p.index x.2)
    | none => [.issue (.wrongKind p "array" v rules.kindMessage)]
  | tuple kindMessage positions, v, p =>
    match v.list? with
    | some _ => positionObligations v p 0 positions
    | none => [.issue (.wrongKind p "array" v kindMessage)]
  | object ⟨fields, unknown, kindMessage⟩, v, p =>
    match v.object? with
    | some entries => fieldObligations v p fields ++
        (Validator.undeclared fields entries).flatMap (unknownObligations p unknown)
    | none => [.issue (.wrongKind p "object" v kindMessage)]
  | intersection kindMessage components, v, p =>
    match v.object? with
    | some _ => componentObligations v p components
    | none => [.issue (.wrongKind p "object" v kindMessage)]
  | erased inner, v, p => inner.obligations v p
  | nullable inner, v, p => if v.isNull then [] else inner.obligations v p
  | optional inner, v, p => if v.isAbsent then [] else inner.obligations v p
  | withDefault _ inner, v, p => if v.isAbsent then [] else inner.obligations v p
  | transform _ inner, v, p => inner.obligations v p
  | chain _ inner, v, p => inner.obligations v p
  | leaf, v, p => [.call ⟨τ, leaf, v, p⟩]

def positionObligations (v : Value) (p : Path) :
    (position : Nat) → List (Schema σ .value) → List (Obligation σ)
  | _, [] => []
  | position, s :: rest =>
    s.obligations (v.item position) (p.index position) ++
      positionObligations v p (position + 1) rest

def componentObligations (v : Value) (p : Path) : List (Schema σ .map) → List (Obligation σ)
  | [] => []
  | s :: rest => s.obligations v p ++ componentObligations v p rest

def fieldObligations (v : Value) (p : Path) :
    List (String × Schema σ .value) → List (Obligation σ)
  | [] => []
  | (name, s) :: rest => s.obligations (v.get name) (p.field name) ++ fieldObligations v p rest

def unknownObligations (p : Path) : UnknownKeys (Schema σ .value) → String × Value →
    List (Obligation σ)
  | .strip, _ | .allow, _ => []
  | .deny, entry => [.issue (Validator.unexpectedKey p entry.1 entry.2)]
  | .validate s, entry => s.obligations entry.2 (p.field entry.1)
end

end Schema

/-! ## Recording -/

/-- A call and the state in which it was made. -/
structure Made (σ : Type) where
  call : Call σ
  state : σ

/-- A state with the calls made so far, the oldest first. -/
structure Recording (σ : Type) where
  state : σ
  calls : List (Made σ)

/-- An effect of the caller, which makes no calls. -/
def Recording.aside (f : StateM σ α) : StateM (Recording σ) α := fun r =>
  let (a, s) := f.run r.state
  (a, { r with state := s })

theorem Recording.aside_steps (fs : List (α → StateM σ α)) (a : α) :
    Validator.steps (fs.map fun f a => aside (f a)) a = aside (Validator.steps fs a) := by
  rw [Validator.steps, Validator.steps]
  induction fs generalizing a with
  | nil => rfl
  | cons f rest ih =>
    rw [List.map_cons, List.foldlM_cons, List.foldlM_cons]
    simp only [ih]
    rfl

namespace Schema

/-- The leaf, as a validator that notes that it is called. -/
def noted {τ : OutputType} (leaf : Schema σ τ) : Schema (Recording σ) τ :=
  .custom leaf.kind fun v p r =>
    let ran := leaf.validate v p r.state
    ⟨ran.result, ⟨ran.state, r.calls ++ [⟨⟨τ, leaf, v, p⟩, r.state⟩]⟩, ran.events⟩

mutual
/-- The schema, noting the calls of its leaves. -/
def recording {τ : OutputType} : Schema σ τ → Schema (Recording σ) τ
  | list rules item => .list rules item.recording
  | tuple kindMessage positions => .tuple kindMessage (recordingPositions positions)
  | object ⟨fields, unknown, kindMessage⟩ =>
    .object ⟨recordingFields fields, recordingUnknown unknown, kindMessage⟩
  | intersection kindMessage components =>
    .intersection kindMessage (recordingComponents components)
  | erased inner => .erased inner.recording
  | nullable inner => .nullable inner.recording
  | optional inner => .optional inner.recording
  | withDefault fallback inner => .withDefault (Recording.aside fallback) inner.recording
  | transform f inner => .transform (fun a => Recording.aside (f a)) inner.recording
  | chain steps inner => .chain (steps.map fun f a => Recording.aside (f a)) inner.recording
  | leaf => leaf.noted

def recordingPositions : List (Schema σ .value) → List (Schema (Recording σ) .value)
  | [] => []
  | s :: rest => s.recording :: recordingPositions rest

def recordingComponents : List (Schema σ .map) → List (Schema (Recording σ) .map)
  | [] => []
  | s :: rest => s.recording :: recordingComponents rest

def recordingFields : List (String × Schema σ .value) →
    List (String × Schema (Recording σ) .value)
  | [] => []
  | (name, s) :: rest => (name, s.recording) :: recordingFields rest

def recordingUnknown : UnknownKeys (Schema σ .value) → UnknownKeys (Schema (Recording σ) .value)
  | .strip => .strip
  | .allow => .allow
  | .deny => .deny
  | .validate s => .validate s.recording
end

end Schema

/-! ## Meeting obligations -/

/-- An obligation that has been met, with the state in which its call was made. -/
inductive Met (σ : Type) where
  | made (m : Made σ)
  | issue (e : Issue)

namespace Met

def obligation : Met σ → Obligation σ
  | made m => .call m.call
  | issue e => .issue e

def made? : Met σ → Option (Made σ)
  | made m => some m
  | issue _ => none

/-- The issues that came of it; those of a call are what the leaf answered. -/
def issues : Met σ → List Issue
  | made m => (m.call.leaf.validate m.call.value m.call.path m.state).result.issues
  | issue e => [e]

end Met

/-- From issues that were there before, the recording run does what the plain one does, notes the
calls of the obligations, and ends with all issues. -/
def Meets (before : List Issue) (issues : α → List Issue) (os : List (Obligation σ))
    (recorded : Run (Recording σ) α) (plain : Run σ α) : Prop :=
  ∀ s calls, ∃ met : List (Met σ), met.map Met.obligation = os ∧
    recorded ⟨s, calls⟩ =
      ⟨(plain s).result, ⟨(plain s).state, calls ++ met.filterMap Met.made?⟩, (plain s).events⟩ ∧
    issues (plain s).result = before ++ met.flatMap Met.issues

variable {before : List Issue} {issues : α → List Issue} {issues' : β → List Issue}
  {os os' : List (Obligation σ)}

theorem meets_pure {a : α} (h : issues a = before) :
    Meets before issues [] (pure a : Run (Recording σ) α) (pure a) := by
  intro s calls
  refine ⟨[], rfl, ?_, ?_⟩
  · rw [List.filterMap_nil, List.append_nil]
    rfl
  · rw [List.flatMap_nil, List.append_nil]
    exact h

theorem meets_fail (e : Issue) :
    Meets [] Outcome.issues [.issue e] (pure (.fail e) : Run (Recording σ) (Outcome α))
      (pure (.fail e)) := by
  intro s calls
  refine ⟨[.issue e], rfl, ?_, rfl⟩
  have none : [Met.issue e].filterMap (Met.made? (σ := σ)) = [] := rfl
  rw [none, List.append_nil]
  rfl

theorem meets_aside (f : StateM σ α) :
    Meets before (fun _ => before) [] (Run.ofState (Recording.aside f)) (Run.ofState f) := by
  intro s calls
  refine ⟨[], rfl, ?_, (List.append_nil before).symm⟩
  rw [List.filterMap_nil, List.append_nil]
  rfl

theorem Meets.bind {recorded : Run (Recording σ) α} {plain : Run σ α}
    {f : α → Run (Recording σ) β} {g : α → Run σ β}
    (first : Meets before issues os recorded plain)
    (second : ∀ a, Meets (issues a) issues' os' (f a) (g a)) :
    Meets before issues' (os ++ os') (recorded >>= f) (plain >>= g) := by
  intro s calls
  obtain ⟨met, obligations, ran, found⟩ := first s calls
  obtain ⟨met', obligations', ran', found'⟩ :=
    second (plain s).result (plain s).state (calls ++ met.filterMap Met.made?)
  refine ⟨met ++ met', ?_, ?_, ?_⟩
  · rw [List.map_append, obligations, obligations']
  · rw [Run.bind_apply, Run.bind_apply, ran, ran', List.filterMap_append, List.append_assoc]
  · rw [Run.bind_apply, found', found, List.flatMap_append, List.append_assoc]

/-- What follows a run without making calls or finding issues. -/
theorem Meets.andThen {recorded : Run (Recording σ) α} {plain : Run σ α}
    {f : α → Run (Recording σ) β} {g : α → Run σ β}
    (first : Meets before issues os recorded plain)
    (second : ∀ a, Meets (issues a) issues' [] (f a) (g a)) :
    Meets before issues' os (recorded >>= f) (plain >>= g) := by
  have both := first.bind second
  rw [List.append_nil] at both
  exact both

/-- Issues of one's own come before all others. -/
theorem Meets.report {own : List Issue} {recorded : Run (Recording σ) α} {plain : Run σ α}
    (h : Meets (before ++ own) issues os recorded plain) :
    Meets before issues (own.map .issue ++ os) recorded plain := by
  intro s calls
  obtain ⟨met, obligations, ran, found⟩ := h s calls
  have none : (own.map (Met.issue (σ := σ))).filterMap Met.made? = [] := by
    simp [List.filterMap_map, Function.comp_def, Met.made?]
  have all : (own.map (Met.issue (σ := σ))).flatMap Met.issues = own := by
    simp [List.flatMap_map, Met.issues]
  refine ⟨own.map .issue ++ met, ?_, ?_, ?_⟩
  · rw [List.map_append, List.map_map, obligations]
    rfl
  · rw [List.filterMap_append, none, List.nil_append]
    exact ran
  · rw [List.flatMap_append, all, ← List.append_assoc]
    exact found

/-! ## Parts -/

/-- Runs for parts, each of which meets its obligations. -/
inductive MeetEach : List (Obligation σ) → List (Run (Recording σ) (Outcome α)) →
    List (Run σ (Outcome α)) → Prop
  | nil : MeetEach [] [] []
  | cons {os os' : List (Obligation σ)} {r : Run (Recording σ) (Outcome α)}
    {plain : Run σ (Outcome α)} {rs : List (Run (Recording σ) (Outcome α))}
    {plains : List (Run σ (Outcome α))} (first : Meets [] Outcome.issues os r plain)
    (rest : MeetEach os' rs plains) : MeetEach (os ++ os') (r :: rs) (plain :: plains)

theorem MeetEach.append {rs rs' : List (Run (Recording σ) (Outcome α))}
    {plains plains' : List (Run σ (Outcome α))} (h : MeetEach os rs plains)
    (h' : MeetEach os' rs' plains') : MeetEach (os ++ os') (rs ++ rs') (plains ++ plains') := by
  induction h with
  | nil => exact h'
  | cons first _ ih =>
    rw [List.append_assoc]
    exact .cons first ih

theorem Meets.after {recorded : Run (Recording σ) (Outcome α)} {plain : Run σ (Outcome α)}
    (h : Meets [] Outcome.issues os recorded plain) (before : List Issue) :
    Meets before (fun o => before ++ o.issues) os recorded plain := by
  intro s calls
  obtain ⟨met, obligations, ran, found⟩ := h s calls
  exact ⟨met, obligations, ran, congrArg (before ++ ·) found⟩

theorem MeetEach.sequence {rs : List (Run (Recording σ) (Outcome α))}
    {plains : List (Run σ (Outcome α))} (h : MeetEach os rs plains) (before : List Issue) :
    Meets before (fun answers => before ++ Outcome.allIssues answers) os (Run.sequence rs)
      (Run.sequence plains) := by
  induction h generalizing before with
  | nil => exact meets_pure (List.append_nil before)
  | cons first _ ih =>
    refine (first.after before).bind fun o => ?_
    refine (ih (before ++ o.issues)).andThen fun answers => meets_pure ?_
    rw [Outcome.allIssues_cons, List.append_assoc]

theorem MeetEach.gather {rs : List (Run (Recording σ) (Outcome α))}
    {plains : List (Run σ (Outcome α))} (h : MeetEach os rs plains) (own : List Issue) :
    Meets [] Outcome.issues (own.map .issue ++ os) (Validator.gather own rs)
      (Validator.gather own plains) := by
  refine Meets.report ?_
  refine (h.sequence own).andThen fun answers => meets_pure ?_
  exact Outcome.issues_settle _ _

/-! ## Schemas -/

namespace Schema

variable {τ : OutputType}

/-- The validator of a schema meets what the schema owes. -/
def Accumulates (s : Schema σ τ) : Prop :=
  ∀ v p, Meets [] Outcome.issues (s.obligations v p) (s.recording.validator v p) (s.validator v p)

theorem meets_noted (leaf : Schema σ τ) (v : Value) (p : Path) :
    Meets [] Outcome.issues [.call ⟨τ, leaf, v, p⟩] (leaf.noted.validator v p)
      (leaf.validator v p) := by
  intro s calls
  refine ⟨[.made ⟨⟨τ, leaf, v, p⟩, s⟩], rfl, rfl, ?_⟩
  rw [List.nil_append, List.flatMap_singleton]
  rfl

theorem items_meet {item : Schema σ .value} (h : item.Accumulates) (p : Path) (i : Nat)
    (items : List Value) :
    MeetEach ((items.zipIdx i).flatMap fun x => item.obligations x.1 (p.index x.2))
      (Validator.itemsFrom item.recording.validator p i items)
      (Validator.itemsFrom item.validator p i items) := by
  induction items generalizing i with
  | nil => exact .nil
  | cons v rest ih =>
    rw [List.zipIdx_cons, List.flatMap_cons]
    exact .cons (h v (p.index i)) (ih (i + 1))

theorem positions_meet {positions : List (Schema σ .value)}
    (h : ∀ s ∈ positions, s.Accumulates) (v : Value) (p : Path) (i : Nat) :
    MeetEach (positionObligations v p i positions)
      (Validator.positionsFrom v p i (validators (recordingPositions positions)))
      (Validator.positionsFrom v p i (validators positions)) := by
  induction positions generalizing i with
  | nil => exact .nil
  | cons s rest ih =>
    obtain ⟨first, others⟩ := List.forall_mem_cons.mp h
    exact .cons (first (v.item i) (p.index i)) (ih others (i + 1))

theorem components_meet {components : List (Schema σ .map)}
    (h : ∀ s ∈ components, s.Accumulates) (v : Value) (p : Path) :
    MeetEach (componentObligations v p components)
      ((componentValidators (recordingComponents components)).map fun component => component v p)
      ((componentValidators components).map fun component => component v p) := by
  induction components with
  | nil => exact .nil
  | cons s rest ih =>
    obtain ⟨first, others⟩ := List.forall_mem_cons.mp h
    exact .cons (first v p) (ih others)

/-- Putting an output under its key finds no issues. -/
theorem meets_underKey {recorded : Run (Recording σ) (Outcome Value)}
    {plain : Run σ (Outcome Value)} (h : Meets [] Outcome.issues os recorded plain) (key : String) :
    Meets [] Outcome.issues os (do return Validator.underKey key (← recorded))
      (do return Validator.underKey key (← plain)) := by
  refine h.andThen fun o => meets_pure ?_
  cases o with
  | success a => rfl
  | failure es => rfl

theorem fields_meet {fields : List (String × Schema σ .value)}
    (h : ∀ f ∈ fields, f.2.Accumulates) (v : Value) (p : Path) :
    MeetEach (fieldObligations v p fields)
      ((fieldValidators (recordingFields fields)).map fun f => Validator.field v p f.1 f.2)
      ((fieldValidators fields).map fun f => Validator.field v p f.1 f.2) := by
  induction fields with
  | nil => exact .nil
  | cons f rest ih =>
    obtain ⟨name, s⟩ := f
    obtain ⟨first, others⟩ := List.forall_mem_cons.mp h
    exact .cons (meets_underKey (first (v.get name) (p.field name)) name) (ih others)

theorem unknownEntry_meets {unknown : UnknownKeys (Schema σ .value)}
    (h : unknown.Holds Accumulates) (p : Path) (entry : String × Value) :
    MeetEach (unknownObligations p unknown entry)
      (Validator.unknownEntry (unknownValidator (recordingUnknown unknown)) p entry)
      (Validator.unknownEntry (unknownValidator unknown) p entry) := by
  cases unknown with
  | strip => exact .nil
  | allow => exact .cons (meets_pure rfl) .nil
  | deny => exact .cons (meets_fail (Validator.unexpectedKey p entry.1 entry.2)) .nil
  | validate s =>
    have met := meets_underKey (h entry.2 (p.field entry.1)) entry.1
    have one := MeetEach.cons met .nil
    rw [List.append_nil] at one
    exact one

theorem unknownEntries_meet {unknown : UnknownKeys (Schema σ .value)}
    (h : unknown.Holds Accumulates) (p : Path) (entries : List (String × Value)) :
    MeetEach (entries.flatMap (unknownObligations p unknown))
      (entries.flatMap (Validator.unknownEntry (unknownValidator (recordingUnknown unknown)) p))
      (entries.flatMap (Validator.unknownEntry (unknownValidator unknown) p)) := by
  induction entries with
  | nil => exact .nil
  | cons entry rest ih =>
    rw [List.flatMap_cons, List.flatMap_cons, List.flatMap_cons]
    exact (unknownEntry_meets h p entry).append ih

theorem keys_fieldValidators (fields : List (String × Schema σ .value)) :
    Entries.keys (fieldValidators fields) = Entries.keys fields := by
  rw [fieldValidators_eq_map, Entries.keys, Entries.keys, List.map_map]
  rfl

theorem keys_recordingFields (fields : List (String × Schema σ .value)) :
    Entries.keys (recordingFields fields) = Entries.keys fields := by
  induction fields with
  | nil => rfl
  | cons f rest ih => exact congrArg (f.1 :: ·) ih

theorem object_accumulates {shape : Shape (Schema σ .value)}
    (fields : ∀ f ∈ shape.fields, f.2.Accumulates) (unknown : shape.unknown.Holds Accumulates) :
    (object shape).Accumulates := by
  intro v p
  obtain ⟨declared, policy, kindMessage⟩ := shape
  rw [obligations, recording, validator, validator, Validator.object, Validator.object]
  cases v.object? with
  | none => exact meets_fail _
  | some entries =>
    have sameNames := Validator.undeclared_eq_of_names (keys_fieldValidators declared) entries
    have sameRecorded := Validator.undeclared_eq_of_names
      ((keys_fieldValidators (recordingFields declared)).trans (keys_recordingFields declared))
        entries
    simp only [sameNames, sameRecorded]
    refine ((fields_meet fields v p).sequence []).bind fun inFields => ?_
    refine ((unknownEntries_meet unknown p _).sequence _).andThen fun inOthers => meets_pure ?_
    rw [Outcome.issues_settle, List.nil_append]

/-- What is done with the output of a success finds no issues. -/
theorem Accumulates.transform_meets {υ : OutputType} {s : Schema σ τ} (h : s.Accumulates)
    (f : Output τ → StateM σ (Output υ)) (v : Value) (p : Path) :
    Meets [] Outcome.issues (s.obligations v p)
      (s.recording.validator.transform (fun a => Recording.aside (f a)) v p)
      (s.validator.transform f v p) := by
  refine (h v p).andThen fun o => ?_
  cases o with
  | success a => exact (meets_aside (f a)).andThen fun b => meets_pure rfl
  | failure es => exact meets_pure rfl

theorem accumulates (s : Schema σ τ) : s.Accumulates := by
  induction s using parts_induction with
  | text | number | boolean | date | literal | enumeration | anything | custom | record | union
  | refine | tryMap | coerce => exact fun v p => meets_noted _ v p
  | list rules item ih =>
    intro v p
    rw [obligations, recording, validator, validator, Validator.list, Validator.list]
    cases v.list? with
    | none => exact meets_fail _
    | some items => exact (items_meet ih p 0 items).gather (rules.issues p items.length)
  | tuple kindMessage positions ih =>
    intro v p
    rw [obligations, recording, validator, validator, Validator.tuple, Validator.tuple]
    cases v.list? with
    | none => exact meets_fail _
    | some items => exact (positions_meet ih v p 0).gather []
  | object shape fields unknown => exact object_accumulates fields unknown
  | intersection kindMessage components ih =>
    intro v p
    rw [obligations, recording, validator, validator, Validator.intersection,
      Validator.intersection]
    cases v.object? with
    | none => exact meets_fail _
    | some entries =>
      refine ((components_meet ih v p).sequence []).andThen fun answers => meets_pure ?_
      exact Outcome.issues_settle _ _
  | erased τ inner ih =>
    intro v p
    refine (ih v p).andThen fun o => meets_pure ?_
    cases o with
    | success a => rfl
    | failure es => rfl
  | nullable inner ih =>
    intro v p
    rw [obligations, recording, validator, validator, Validator.nullable, Validator.nullable]
    by_cases null : v.isNull
    · simp only [null, if_true]
      exact meets_pure rfl
    · simp only [null]
      exact ih v p
  | optional inner ih =>
    intro v p
    rw [obligations, recording, validator, validator, Validator.optional, Validator.optional]
    by_cases absent : v.isAbsent
    · simp only [absent, if_true]
      exact meets_pure rfl
    · simp only [absent]
      exact ih v p
  | withDefault τ fallback inner ih =>
    intro v p
    rw [obligations, recording, validator, validator, Validator.withDefault,
      Validator.withDefault]
    by_cases absent : v.isAbsent
    · simp only [absent, if_true]
      exact (meets_aside fallback).andThen fun a => meets_pure rfl
    · simp only [absent]
      exact ih v p
  | transform τ υ f inner ih => exact ih.transform_meets f
  | chain τ fs inner ih =>
    intro v p
    rw [obligations, recording, validator, validator, Validator.chain, Validator.chain]
    rw [funext (Recording.aside_steps fs)]
    exact ih.transform_meets (Validator.steps fs) v p

/-- Recording changes nothing but the record; the record gets the calls that the schema owes, each
once and in order, from every state; and the issues are those of the obligations met, so that the
schema succeeds when none of them has any. -/
theorem validate_meets_obligations (s : Schema σ τ) (v : Value) (p : Path) (t : σ)
    (calls : List (Made σ)) :
    ∃ met : List (Met σ), met.map Met.obligation = s.obligations v p ∧
      s.recording.validate v p ⟨t, calls⟩ =
        ⟨(s.validate v p t).result, ⟨(s.validate v p t).state, calls ++ met.filterMap Met.made?⟩,
          (s.validate v p t).events⟩ ∧
      (s.validate v p t).result.issues = met.flatMap Met.issues ∧
      ((∃ a, (s.validate v p t).result = .success a) ↔ ∀ m ∈ met, m.issues = []) := by
  obtain ⟨met, owed, ran, found⟩ := s.accumulates v p t calls
  rw [List.nil_append] at found
  refine ⟨met, owed, ran, found, ?_⟩
  rw [← Outcome.issues_eq_nil_iff, validate, found, List.flatMap_eq_nil_iff]

/-- A list of names whose bounds no length meets, and no other key. -/
def roll : Schema Unit .map :=
  .object ⟨[("names", .erased (.list ((LengthRules.empty.minLength 2).maxLength 0)
    (.erased (.text .empty))))], .deny, none⟩

def rollInput : Value := .object [("age", .null), ("names", .list [.number .zero])]

/-- Both bounds are violated and the name is called all the same; the other key is denied. -/
def rollObligations : List (Obligation Unit) :=
  [.issue ⟨⟨[.field "names"]⟩, "Expecting at least 2 items. Got 1.", "min_items",
      some "at least 2 items", some "1 items"⟩,
    .issue ⟨⟨[.field "names"]⟩, "Expecting at most 0 items. Got 1.", "max_items",
      some "at most 0 items", some "1 items"⟩,
    .call ⟨.text, .text .empty, .number .zero, ⟨[.field "names", .index 0]⟩⟩,
    .issue ⟨⟨[.field "age"]⟩, "Unexpected key 'age'.", "additional_property", none, some "null"⟩]

theorem roll_meets_obligations :
    ∃ met : List (Met Unit), met.map Met.obligation = rollObligations ∧
      (roll.recording.validate rollInput .root ⟨(), []⟩).state.calls = met.filterMap Met.made? ∧
      (roll.validate rollInput .root ()).result.issues = met.flatMap Met.issues := by
  obtain ⟨met, owed, ran, issues, _⟩ := validate_meets_obligations roll rollInput .root () []
  refine ⟨met, owed, ?_, issues⟩
  rw [ran]
  rfl

end Schema

end Conform
