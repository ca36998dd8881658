import Conform.Kind
import Conform.Path

/-!
# Runs

A run computes a result from a state of the caller's choice, changes that state, and tells the
events on its way.  The functions that a caller puts into a schema see and change the state; they do
not see the events, so no outcome depends on them.
-/

set_option autoImplicit false

namespace Conform

inductive Event where
  /-- A value was rejected. -/
  | rejected (kind : Kind) (issues : Nat) (first : Path)
  /-- An alternative of a union accepted a value; the position counts from zero. -/
  | matched (path : Path) (position : Nat)
  /-- A value was converted; the names are those of the kinds of values. -/
  | converted (path : Path) (source target : String)

namespace Event

def level : Event → String
  | rejected .. => "DEBUG"
  | matched .. => "TRACE"
  | converted .. => "TRACE"

def message : Event → String
  | rejected .. => "validation failed"
  | matched .. => "union alternative matched"
  | converted .. => "coerced value"

def fields : Event → List (String × String)
  | rejected kind issues first =>
    [("kind", kind.name), ("errors", toString issues), ("first_path", first.display)]
  | matched path position => [("path", path.display), ("branch", toString position)]
  | converted path source target =>
    [("path", path.display), ("from", source), ("to", target)]

end Event

structure Ran (σ α : Type) where
  result : α
  state : σ
  events : List Event

def Run (σ α : Type) : Type := σ → Ran σ α

namespace Run

variable {σ α β : Type}

instance : Monad (Run σ) where
  pure a := fun s => ⟨a, s, []⟩
  bind r f := fun s =>
    let first := r s
    let second := f first.result first.state
    ⟨second.result, second.state, first.events ++ second.events⟩

instance : LawfulMonad (Run σ) :=
  LawfulMonad.mk' _
    (fun r => by
      funext s
      show Ran.mk (r s).result (r s).state ((r s).events ++ []) = r s
      rw [List.append_nil])
    (fun _ _ => rfl)
    (fun r f g => by
      funext s
      simp only [bind, List.append_assoc])

def tell (e : Event) : Run σ Unit := fun s => ⟨(), s, [e]⟩

/-- A function of the caller, which sees the state alone. -/
def ofState (f : StateM σ α) : Run σ α := fun s =>
  let (a, s) := f.run s
  ⟨a, s, []⟩

/-- The runs one after the other, and their results in order. -/
def sequence : List (Run σ α) → Run σ (List α)
  | [] => pure []
  | r :: rest => do
    let a ← r
    return a :: (← sequence rest)

/-! ## Running -/

theorem pure_apply (a : α) (s : σ) : (pure a : Run σ α) s = ⟨a, s, []⟩ := rfl

theorem bind_apply (r : Run σ α) (f : α → Run σ β) (s : σ) :
    (r >>= f) s =
      ⟨(f (r s).result (r s).state).result, (f (r s).result (r s).state).state,
        (r s).events ++ (f (r s).result (r s).state).events⟩ := rfl

end Run

end Conform
