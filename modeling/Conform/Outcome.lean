import Conform.Issue

/-!
# Outcomes

A validation succeeds with an output, or fails with all the issues that it found.
-/

set_option autoImplicit false

namespace Conform

inductive Outcome (α : Type) where
  | success (output : α)
  | failure (issues : Issues)

namespace Outcome

variable {α β : Type}

def fail (e : Issue) : Outcome α := .failure (.single e)

/-- Success, unless there are issues. -/
def settle (output : α) (issues : List Issue) : Outcome α :=
  match Issues.ofList? issues with
  | none => .success output
  | some es => .failure es

def map (f : α → β) : Outcome α → Outcome β
  | .success a => .success (f a)
  | .failure es => .failure es

def bind (o : Outcome α) (f : α → Outcome β) : Outcome β :=
  match o with
  | .success a => f a
  | .failure es => .failure es

def relocate (base : Path) : Outcome α → Outcome α
  | .success a => .success a
  | .failure es => .failure (es.relocate base)

def output? : Outcome α → Option α
  | .success a => some a
  | .failure _ => none

def issues : Outcome α → List Issue
  | .success _ => []
  | .failure es => es.toList

def outputs (os : List (Outcome α)) : List α := os.filterMap output?

def allIssues (os : List (Outcome α)) : List Issue := os.flatMap issues

/-- All outputs, unless there are issues, of the outcomes or besides them. -/
def gather (besides : List Issue) (os : List (Outcome α)) : Outcome (List α) :=
  settle (outputs os) (besides ++ allIssues os)

theorem outputs_success_cons (a : α) (os : List (Outcome α)) :
    outputs (.success a :: os) = a :: outputs os := rfl

theorem outputs_failure_cons (es : Issues) (os : List (Outcome α)) :
    outputs (.failure es :: os) = outputs os := rfl

theorem allIssues_cons (o : Outcome α) (os : List (Outcome α)) :
    allIssues (o :: os) = o.issues ++ allIssues os := List.flatMap_cons

/-! ## Success and failure -/

theorem settle_nil (output : α) : settle output [] = .success output := rfl

theorem settle_cons (output : α) (e : Issue) (rest : List Issue) :
    settle output (e :: rest) = .failure ⟨e, rest⟩ := by
  rw [settle, Issues.ofList?_cons]

theorem issues_settle (output : α) (es : List Issue) : (settle output es).issues = es := by
  cases es with
  | nil => rfl
  | cons e rest => rw [settle_cons, issues, Issues.toList]

/-- A failure has issues, so an outcome without issues is a success. -/
theorem issues_eq_nil_iff (o : Outcome α) : o.issues = [] ↔ ∃ a, o = .success a := by
  cases o with
  | success a => exact ⟨fun _ => ⟨a, rfl⟩, fun _ => rfl⟩
  | failure es =>
    constructor
    · intro h
      exact absurd h es.toList_ne_nil
    · intro h
      obtain ⟨a, ha⟩ := h
      cases ha

end Outcome

end Conform
