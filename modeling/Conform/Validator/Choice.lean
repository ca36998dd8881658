import Conform.Validator.Basic

/-!
# Unions and intersections

A union answers with the first alternative that accepts the value, and runs none after it.  An
intersection runs all its components on the same object and merges what they answer.
-/

set_option autoImplicit false

namespace Conform.Validator

variable {σ α : Type}

/-! ## Unions -/

/-- What the alternatives of a union come to. -/
inductive Attempt (α : Type) where
  /-- The alternative at the position accepted the value. -/
  | accepted (position : Nat) (output : α)
  /-- None did; these are their issues. -/
  | rejected (issues : List Issue)

/-- Runs alternatives, the first of which is at the given position, until one accepts. -/
def attempt (v : Value) (p : Path) : (position : Nat) → List (Validator σ α) → Run σ (Attempt α)
  | _, [] => pure (.rejected [])
  | position, alternative :: rest => do
    match ← alternative v p with
    | .success a => return .accepted position a
    | .failure es =>
      match ← attempt v p (position + 1) rest with
      | .accepted position a => return .accepted position a
      | .rejected issues => return .rejected (es.toList ++ issues)

def noMatch (message : String) (alternatives : Nat) (p : Path) (v : Value) : Issue where
  path := p
  message := message
  code := "union_no_match"
  expected := some ("one of " ++ toString alternatives ++ " alternatives")
  got := some v.kindName

/-- The failure of a union: its message alone if there is one, or else the issues of all
alternatives. -/
def rejection (message : Option String) (alternatives : Nat) (p : Path) (v : Value)
    (issues : List Issue) : Issues :=
  match message, Issues.ofList? issues with
  | some message, _ => .single (noMatch message alternatives p v)
  | none, some es => es
  | none, none =>
    .single (noMatch "Expecting value to match at least one alternative." alternatives p v)

theorem rejection_cons (alternatives : Nat) (p : Path) (v : Value) (e : Issue) (rest : List Issue) :
    rejection none alternatives p v (e :: rest) = ⟨e, rest⟩ := by
  simp only [rejection, Issues.ofList?_cons]

def union (message : Option String) (alternatives : List (Validator σ α)) : Validator σ α :=
  fun v p => do
    match ← attempt v p 0 alternatives with
    | .accepted position a =>
      Run.tell (.matched p position)
      return .success a
    | .rejected issues => return .failure (rejection message alternatives.length p v issues)

/-! ## Intersections -/

/-- One map of several: later ones write over earlier ones. -/
def mergeAll (outputs : List (Entries α)) : Entries α := outputs.foldl Entries.merge []

def intersection (kindMessage : Option String) (components : List (Validator σ (Entries α))) :
    Validator σ (Entries α) := fun v p =>
  match v.object? with
  | some _ => do
    let answers ← Run.sequence (components.map fun component => component v p)
    return .settle (mergeAll (Outcome.outputs answers)) (Outcome.allIssues answers)
  | none => pure (.fail (.wrongKind p "object" v kindMessage))

end Conform.Validator
