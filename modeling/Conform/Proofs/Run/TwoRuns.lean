import Conform.Proofs.List.InAnyOrder
import Conform.Proofs.Run.Success

/-!
# Two runs side by side

Runs are related when, started from any two states, they have related results.  Nothing is said of
the states and the events, so two runs may do different things on the way.  A run is steady when it
is related to itself by equality: its result does not depend on the state.
-/

set_option autoImplicit false

namespace Conform

variable {σ α β γ δ : Type} {R R' : α → β → Prop} {Q : γ → δ → Prop}

/-- A function of the caller that answers by its argument alone. -/
def Stateless (f : α → StateM σ β) : Prop := ∃ g : α → β, ∀ a s, ((f a).run s).1 = g a

/-- A function of the caller that answers related arguments with related results. -/
def Respects (R : α → α → Prop) (Q : β → β → Prop) (f : α → StateM σ β) : Prop :=
  ∀ a b, R a b → ∀ s t, Q ((f a).run s).1 ((f b).run t).1

namespace Run

def Related (R : α → β → Prop) (r : Run σ α) (r' : Run σ β) : Prop :=
  ∀ s t, R (r s).result (r' t).result

theorem Related.imp {r : Run σ α} {r' : Run σ β} (h : r.Related R r')
    (implies : ∀ a b, R a b → R' a b) : r.Related R' r' :=
  fun s t => implies _ _ (h s t)

theorem related_pure {a : α} {b : β} (h : R a b) : Related R (pure a : Run σ α) (pure b) :=
  fun _ _ => h

theorem related_ofState {P : α → α → Prop} {Q : β → β → Prop} {f : α → StateM σ β}
    (h : Respects P Q f) {a b : α} (both : P a b) : (ofState (f a)).Related Q (ofState (f b)) :=
  h a b both

theorem related_bind {r : Run σ α} {r' : Run σ β} {f : α → Run σ γ} {f' : β → Run σ δ}
    (h : r.Related R r') (hf : ∀ a b, R a b → (f a).Related Q (f' b)) :
    (r >>= f).Related Q (r' >>= f') :=
  fun s t => hf _ _ (h s t) _ _

theorem related_sequence {rs : List (Run σ α)} {rs' : List (Run σ β)}
    (h : List.Forall₂ (Related R) rs rs') :
    (sequence rs).Related (List.Forall₂ R) (sequence rs') := by
  induction h with
  | nil => exact related_pure .nil
  | cons first _ ih =>
    refine related_bind first fun a b related => ?_
    exact related_bind ih fun as bs all => related_pure (.cons related all)

theorem related_sequence_inAnyOrder {rs : List (Run σ α)} {rs' : List (Run σ β)}
    (h : InAnyOrder (Related R) rs rs') :
    (sequence rs).Related (InAnyOrder R) (sequence rs') := by
  intro s t
  obtain ⟨moved, order, related⟩ := h
  -- The results of the first sequence follow its runs into the other order.
  have ran : List.Forall₂ (fun (r : Run σ α) a => ∃ s, (r s).result = a) rs
      (sequence rs s).result :=
    (results_of_sequence (List.forall₂_same.mpr fun r _ s => ⟨s, rfl⟩) s).flip
  obtain ⟨as, inOrder, results⟩ := List.perm_comp_forall₂ order.symm ran
  refine ⟨as, results.symm, ?_⟩
  have answers : List.Forall₂ (fun r' a => ∀ t, R a (r' t).result) rs' as := by
    refine (forall₂_comp inOrder.flip related ?_).flip
    rintro a r r' ⟨s, rfl⟩ both t
    exact both s t
  exact (results_of_sequence answers t).flip

/-! ## Steady runs -/

def Steady (r : Run σ α) : Prop := r.Related Eq r

theorem steady_pure (a : α) : (pure a : Run σ α).Steady := related_pure rfl

theorem steady_tell (e : Event) : (tell e : Run σ Unit).Steady := fun _ _ => rfl

theorem steady_ofState {f : α → StateM σ β} (h : Stateless f) (a : α) :
    (ofState (f a)).Steady := by
  obtain ⟨g, answer⟩ := h
  intro s t
  exact (answer a s).trans (answer a t).symm

theorem Steady.bind {r : Run σ α} {f : α → Run σ β} (h : r.Steady) (hf : ∀ a, (f a).Steady) :
    (r >>= f).Steady := by
  refine related_bind h ?_
  rintro a _ rfl
  exact hf a

theorem Steady.sequence {rs : List (Run σ α)} (h : ∀ r ∈ rs, r.Steady) :
    (Run.sequence rs).Steady :=
  (related_sequence (List.forall₂_same.mpr h)).imp fun as bs all => by
    rwa [List.forall₂_eq_eq_eq] at all

/-- Steady runs one after another answer what each of them answers from any state. -/
theorem Steady.sequence_result {rs : List (Run σ α)} (h : ∀ r ∈ rs, r.Steady) (s t : σ) :
    (Run.sequence rs s).result = rs.map fun r => (r t).result := by
  induction rs generalizing s with
  | nil => rfl
  | cons r rest ih =>
    rw [List.forall_mem_cons] at h
    have answers : (Run.sequence (r :: rest) s).result =
        (r s).result :: (Run.sequence rest (r s).state).result := rfl
    rw [answers, h.1 s t, ih h.2, List.map_cons]

end Run

end Conform
