import Conform.Run
import Mathlib.Data.List.Forall2

/-!
# Runs in step

Two runs are in step when, from every state, they leave the same state behind, and their results and
events are related.  Pure runs, effects of the caller, binding and sequences keep the relation, so
two programs of one shape are in step as soon as their parts are.
-/

set_option autoImplicit false

namespace Conform

variable {σ α β γ δ : Type} {E : Event → Event → Prop} {R : α → β → Prop} {Q : γ → δ → Prop}

structure Ran.InStep (E : Event → Event → Prop) (R : α → β → Prop) (a : Ran σ α) (b : Ran σ β) :
    Prop where
  result : R a.result b.result
  state : a.state = b.state
  events : List.Forall₂ E a.events b.events

namespace Run

def InStep (E : Event → Event → Prop) (R : α → β → Prop) (r : Run σ α) (r' : Run σ β) : Prop :=
  ∀ s, (r s).InStep E R (r' s)

theorem inStep_pure {a : α} {b : β} (h : R a b) :
    InStep E R (pure a : Run σ α) (pure b : Run σ β) := by
  intro s
  exact ⟨h, rfl, .nil⟩

theorem inStep_ofState (f : StateM σ α) : InStep E Eq (ofState f) (ofState f) := by
  intro s
  exact ⟨rfl, rfl, .nil⟩

theorem inStep_tell {e e' : Event} (h : E e e') :
    InStep E Eq (tell e : Run σ Unit) (tell e') := by
  intro s
  exact ⟨rfl, rfl, .cons h .nil⟩

theorem inStep_bind {r : Run σ α} {r' : Run σ β} {f : α → Run σ γ} {f' : β → Run σ δ}
    (h : InStep E R r r') (hf : ∀ a b, R a b → InStep E Q (f a) (f' b)) :
    InStep E Q (r >>= f) (r' >>= f') := by
  intro s
  have first := h s
  have second := hf _ _ first.result (r s).state
  rw [bind_apply, bind_apply, ← first.state]
  exact ⟨second.result, second.state, List.rel_append first.events second.events⟩

theorem inStep_sequence {rs : List (Run σ α)} {rs' : List (Run σ β)}
    (h : List.Forall₂ (InStep E R) rs rs') :
    InStep E (List.Forall₂ R) (sequence rs) (sequence rs') := by
  induction h with
  | nil => exact inStep_pure .nil
  | cons first _ ih =>
    refine inStep_bind first fun a b related => ?_
    exact inStep_bind ih fun as bs all => inStep_pure (.cons related all)

end Run

end Conform
