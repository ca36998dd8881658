import Conform.Rules.Length
import Conform.Validator.Basic

/-!
# Validators of lists and objects

The parts of a value are validated one after the other, each at its own path, whatever becomes of
the others; the issues of all of them are reported.  A part that is missing is validated as an
absent value.
-/

set_option autoImplicit false

namespace Conform

/-- What becomes of the keys that a shape of objects does not declare. -/
inductive UnknownKeys (α : Type) where
  | strip
  | allow
  | deny
  | validate (schema : α)

namespace UnknownKeys

variable {α β : Type}

def map (f : α → β) : UnknownKeys α → UnknownKeys β
  | .strip => .strip
  | .allow => .allow
  | .deny => .deny
  | .validate a => .validate (f a)

/-- The condition on the schema for undeclared keys, if there is one. -/
def Holds (P : α → Prop) : UnknownKeys α → Prop
  | .strip | .allow | .deny => True
  | .validate a => P a

theorem Holds.imp {P Q : α → Prop} {unknown : UnknownKeys α} (h : unknown.Holds P)
    (pq : ∀ a, P a → Q a) : unknown.Holds Q := by
  cases unknown with
  | strip | allow | deny => trivial
  | validate a => exact pq a h

theorem Holds.mp {P Q : α → Prop} {unknown : UnknownKeys α}
    (pq : unknown.Holds fun a => P a → Q a) (h : unknown.Holds P) : unknown.Holds Q := by
  cases unknown with
  | strip | allow | deny => trivial
  | validate a => exact pq h

theorem holds_map {P : β → Prop} {f : α → β} {unknown : UnknownKeys α} :
    (unknown.map f).Holds P ↔ unknown.Holds fun a => P (f a) := by
  cases unknown <;> rfl

end UnknownKeys

/-- The declared fields of objects in order, what becomes of other keys, and the message for values
that are no objects. -/
structure Shape (α : Type) where
  fields : List (String × α)
  unknown : UnknownKeys α
  kindMessage : Option String

namespace Validator

variable {σ α : Type}

def gather (besides : List Issue) (parts : List (Run σ (Outcome α))) :
    Run σ (Outcome (List α)) := do
  return .gather besides (← Run.sequence parts)

/-! ## Lists -/

/-- The runs for the items of a list from a position on. -/
def itemsFrom (item : Validator σ α) (p : Path) : (position : Nat) → List Value →
    List (Run σ (Outcome α))
  | _, [] => []
  | position, v :: rest => item v (p.index position) :: itemsFrom item p (position + 1) rest

/-- Lists whose items all conform to one schema.  Issues of the length come before those of the
items. -/
def list (rules : LengthRules) (item : Validator σ α) : Validator σ (List α) := fun v p =>
  match v.list? with
  | some items => gather (rules.issues p items.length) (itemsFrom item p 0 items)
  | none => pure (.fail (.wrongKind p "array" v rules.kindMessage))

/-- The runs for the positions of a tuple from one on. -/
def positionsFrom (v : Value) (p : Path) : (position : Nat) → List (Validator σ α) →
    List (Run σ (Outcome α))
  | _, [] => []
  | position, item :: rest =>
    item (v.item position) (p.index position) :: positionsFrom v p (position + 1) rest

/-- Lists with a schema for each position; further items are left out. -/
def tuple (kindMessage : Option String) (positions : List (Validator σ α)) : Validator σ (List α) :=
  fun v p =>
    match v.list? with
    | some _ => gather [] (positionsFrom v p 0 positions)
    | none => pure (.fail (.wrongKind p "array" v kindMessage))

/-! ## Objects -/

def underKey (key : String) (o : Outcome Value) : Outcome (String × Value) :=
  o.map fun v => (key, v)

def field (v : Value) (p : Path) (name : String) (schema : Validator σ Value) :
    Run σ (Outcome (String × Value)) := do
  return underKey name (← schema (v.get name) (p.field name))

def unexpectedKey (p : Path) (key : String) (v : Value) : Issue :=
  { Issue.bare (p.field key) ("Unexpected key '" ++ key ++ "'.") "additional_property" with
    got := some v.kindName }

/-- The runs for an entry whose key is not declared; a stripped entry has none. -/
def unknownEntry (unknown : UnknownKeys (Validator σ Value)) (p : Path) (entry : String × Value) :
    List (Run σ (Outcome (String × Value))) :=
  match unknown with
  | .strip => []
  | .allow => [pure (.success entry)]
  | .deny => [pure (.fail (unexpectedKey p entry.1 entry.2))]
  | .validate schema => [do return underKey entry.1 (← schema entry.2 (p.field entry.1))]

def undeclared {β : Type} (fields : List (String × β)) (entries : Entries Value) : Entries Value :=
  entries.filter fun e => !Entries.contains fields e.1

theorem undeclared_eq_of_names {β γ : Type} {fields : List (String × β)}
    {fields' : List (String × γ)} (h : Entries.keys fields' = Entries.keys fields)
    (entries : Entries Value) : undeclared fields' entries = undeclared fields entries := by
  have same : ∀ key, Entries.contains fields' key = Entries.contains fields key := by
    intro key
    rw [Bool.eq_iff_iff, Entries.contains_iff, Entries.contains_iff, h]
  simp only [undeclared, same]

/-- Objects of a shape.  The output has the declared fields that are present, in their order, and
then what is kept of the other entries, in the order of the input. -/
def object (shape : Shape (Validator σ Value)) : Validator σ (Entries Value) := fun v p =>
  match v.object? with
  | some entries => do
    let declared ← Run.sequence (shape.fields.map fun f => field v p f.1 f.2)
    let others ← Run.sequence
      ((undeclared shape.fields entries).flatMap (unknownEntry shape.unknown p))
    return .settle (Value.present (Outcome.outputs declared) ++ Outcome.outputs others)
      (Outcome.allIssues declared ++ Outcome.allIssues others)
  | none => pure (.fail (.wrongKind p "object" v shape.kindMessage))

/-! ## Records -/

/-- What the schemas of a record answer for an entry of the input. -/
structure RecordEntry (α : Type) where
  path : Path
  key : Outcome String
  value : Outcome α

/-- The issue of a key that an earlier entry has too. -/
def duplicateKey (path : Path) (key : String) : Issue :=
  .bare path ("Duplicate key '" ++ key ++ "' after key validation.") "duplicate_key"

/-- The output and the issues of the entries of a record, from what the entries before them left. -/
def assemble (done : Entries α) : List (RecordEntry α) → Entries α × List Issue
  | [] => (done, [])
  | e :: rest =>
    match e.key, e.value with
    | .success key, .success a =>
      if Entries.contains done key then
        let (output, issues) := assemble done rest
        (output, duplicateKey e.path key :: issues)
      else assemble (done ++ [(key, a)]) rest
    | key, value =>
      let (output, issues) := assemble done rest
      (output, key.issues ++ value.issues ++ issues)

/-- The run for an entry of a record: the key, and then the value, both at the key of the input. -/
def recordEntry (key : Validator σ String) (value : Validator σ α) (p : Path)
    (entry : String × Value) : Run σ (RecordEntry α) := do
  let path := p.field entry.1
  let keyOutcome ← key (.text entry.1) path
  let valueOutcome ← value entry.2 path
  return ⟨path, keyOutcome, valueOutcome⟩

/-- Objects with keys and values of one schema each.  The outputs of the key schema are the keys of
the output; two that are equal are an issue. -/
def record (kindMessage : Option String) (key : Validator σ String) (value : Validator σ α) :
    Validator σ (Entries α) := fun v p =>
  match v.object? with
  | some entries => do
    let answers ← Run.sequence (entries.map (recordEntry key value p))
    let (output, issues) := assemble [] answers
    return .settle output issues
  | none => pure (.fail (.wrongKind p "object" v kindMessage))

end Validator

end Conform
