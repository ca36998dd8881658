import Mathlib.Data.List.Perm.Basic

/-!
# Lists related in any order

Two lists are related in any order when one of them can be put into an order in which its elements
are related to those of the other one, place by place.
-/

set_option autoImplicit false

namespace Conform

variable {α β γ δ : Type} {R R' : α → β → Prop} {Q : γ → δ → Prop}

def InAnyOrder (R : α → β → Prop) (as : List α) (bs : List β) : Prop :=
  ∃ cs, as.Perm cs ∧ List.Forall₂ R cs bs

namespace InAnyOrder

variable {as as' : List α} {bs bs' : List β}

theorem of_forall₂ (h : List.Forall₂ R as bs) : InAnyOrder R as bs := ⟨as, .refl as, h⟩

theorem imp (h : InAnyOrder R as bs) (implies : ∀ a b, R a b → R' a b) : InAnyOrder R' as bs := by
  obtain ⟨cs, order, related⟩ := h
  exact ⟨cs, order, related.imp implies⟩

theorem perm_left (h : InAnyOrder R as bs) (order : as'.Perm as) : InAnyOrder R as' bs := by
  obtain ⟨cs, further, related⟩ := h
  exact ⟨cs, order.trans further, related⟩

theorem perm_right (h : InAnyOrder R as bs) (order : bs.Perm bs') : InAnyOrder R as bs' := by
  obtain ⟨cs, first, related⟩ := h
  obtain ⟨ds, moved, further⟩ := List.perm_comp_forall₂ order.symm related.flip
  exact ⟨ds, first.trans further.symm, moved.flip⟩

theorem length_eq (h : InAnyOrder R as bs) : as.length = bs.length := by
  obtain ⟨cs, order, related⟩ := h
  rw [order.length_eq, related.length_eq]

theorem append (h : InAnyOrder R as bs) (h' : InAnyOrder R as' bs') :
    InAnyOrder R (as ++ as') (bs ++ bs') := by
  obtain ⟨cs, order, related⟩ := h
  obtain ⟨cs', order', related'⟩ := h'
  exact ⟨cs ++ cs', order.append order', List.rel_append related related'⟩

theorem map (h : InAnyOrder R as bs) {f : α → γ} {g : β → δ} (hf : ∀ a b, R a b → Q (f a) (g b)) :
    InAnyOrder Q (as.map f) (bs.map g) := by
  obtain ⟨cs, order, related⟩ := h
  exact ⟨cs.map f, order.map f, List.rel_map (fun a b r => hf a b r) related⟩

theorem filter (h : InAnyOrder R as bs) {p : α → Bool} {q : β → Bool}
    (same : ∀ a b, R a b → p a = q b) : InAnyOrder R (as.filter p) (bs.filter q) := by
  obtain ⟨cs, order, related⟩ := h
  refine ⟨cs.filter p, order.filter p, List.rel_filter (fun a b r => ?_) related⟩
  simp only [same a b r]

theorem filterMap (h : InAnyOrder R as bs) {f : α → Option γ} {g : β → Option δ}
    (hf : ∀ a b, R a b → Option.Rel Q (f a) (g b)) :
    InAnyOrder Q (as.filterMap f) (bs.filterMap g) := by
  obtain ⟨cs, order, related⟩ := h
  exact ⟨cs.filterMap f, order.filterMap f, List.rel_filterMap (fun a b r => hf a b r) related⟩

theorem flatMap (h : InAnyOrder R as bs) {f : α → List γ} {g : β → List δ}
    (hf : ∀ a b, R a b → List.Forall₂ Q (f a) (g b)) :
    InAnyOrder Q (as.flatMap f) (bs.flatMap g) := by
  obtain ⟨cs, order, related⟩ := h
  exact ⟨cs.flatMap f, order.flatMap_right f, List.rel_flatMap related fun a b r => hf a b r⟩

theorem perm_map (h : InAnyOrder R as bs) {f : α → γ} {g : β → γ}
    (same : ∀ a b, R a b → f a = g b) : (as.map f).Perm (bs.map g) := by
  obtain ⟨cs, order, equal⟩ := h.map (Q := Eq) same
  rw [List.forall₂_eq_eq_eq] at equal
  rw [← equal]
  exact order

theorem perm_flatMap (h : InAnyOrder R as bs) {f : α → List γ} {g : β → List γ}
    (same : ∀ a b, R a b → (f a).Perm (g b)) : (as.flatMap f).Perm (bs.flatMap g) := by
  obtain ⟨cs, order, related⟩ := h
  refine (order.flatMap_right f).trans ?_
  clear order
  induction related with
  | nil => exact .refl _
  | cons first _ ih =>
    rw [List.flatMap_cons, List.flatMap_cons]
    exact (same _ _ first).append ih

end InAnyOrder

end Conform
