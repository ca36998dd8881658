import Conform.Proofs.Value.Depth
import Mathlib.Data.List.Forall2

/-!
# Values that differ at one place

Two values differ at one place when it is there in both of them and they are equal everywhere else:
the lists on the way have equal lengths, and the objects on the way the same keys in the same order.
-/

set_option autoImplicit false

namespace Conform.Value

variable {seg : Segment} {rest : List Segment} {v w : Value}

inductive DifferOnlyAt : List Segment → Value → Value → Prop
  | here (v w : Value) : DifferOnlyAt [] v w
  | item {rest : List Segment} {v w : Value} (before after : List Value)
    (h : DifferOnlyAt rest v w) :
    DifferOnlyAt (.index before.length :: rest) (.list (before ++ v :: after))
      (.list (before ++ w :: after))
  | entry {key : String} {rest : List Segment} {v w : Value} (before after : Entries Value)
    (first : key ∉ Entries.keys before) (h : DifferOnlyAt rest v w) :
    DifferOnlyAt (.field key :: rest) (.object (before ++ (key, v) :: after))
      (.object (before ++ (key, w) :: after))

/-- Parts at one segment of values that differ below another one, or below this one. -/
def SamePart (seg : Segment) (rest : List Segment) (part : Segment) (x y : Value) : Prop :=
  x = y ∨ (part = seg ∧ DifferOnlyAt rest x y)

theorem samePart_refl (part : Segment) (x : Value) : SamePart seg rest part x x := .inl rfl

theorem samePart_item (before after : List Value) (h : DifferOnlyAt rest v w) (j : Nat) :
    SamePart (.index before.length) rest (.index j) ((list (before ++ v :: after)).item j)
      ((list (before ++ w :: after)).item j) := by
  rw [item, item]
  rcases Nat.lt_trichotomy j before.length with less | rfl | more
  · rw [List.getElem?_append_left less, List.getElem?_append_left less]
    exact samePart_refl _ _
  · have here := Nat.le_refl before.length
    rw [List.getElem?_append_right here, List.getElem?_append_right here, Nat.sub_self]
    exact .inr ⟨rfl, h⟩
  · have past := Nat.le_of_lt more
    obtain ⟨k, further⟩ := Nat.exists_eq_add_of_lt more
    have later : j - before.length = k + 1 := by omega
    rw [List.getElem?_append_right past, List.getElem?_append_right past, later]
    exact samePart_refl _ _

theorem samePart_get {key : String} {before : Entries Value} (after : Entries Value)
    (first : key ∉ Entries.keys before) (h : DifferOnlyAt rest v w) (name : String) :
    SamePart (.field key) rest (.field name) ((object (before ++ (key, v) :: after)).get name)
      ((object (before ++ (key, w) :: after)).get name) := by
  rw [get, get, Entries.get?_append, Entries.get?_append]
  by_cases here : key = name
  · subst here
    rw [Entries.get?_eq_none_of_not_mem first, Option.none_or, Option.none_or, Entries.get?,
      Entries.get?, if_pos rfl, if_pos rfl]
    exact .inr ⟨rfl, h⟩
  · rw [Entries.get?, Entries.get?, if_neg here, if_neg here]
    exact samePart_refl _ _

theorem samePart_entries (key : String) (before after : Entries Value) (h : DifferOnlyAt rest v w) :
    List.Forall₂ (fun e f => f.1 = e.1 ∧ SamePart (.field key) rest (.field e.1) e.2 f.2)
      (before ++ (key, v) :: after) (before ++ (key, w) :: after) := by
  have same : ∀ entries : Entries Value, List.Forall₂
      (fun e f => f.1 = e.1 ∧ SamePart (.field key) rest (.field e.1) e.2 f.2) entries entries :=
    fun entries => List.forall₂_same.mpr fun e _ => ⟨rfl, samePart_refl _ e.2⟩
  exact List.rel_append (same before) (.cons ⟨rfl, .inr ⟨rfl, h⟩⟩ (same after))

end Conform.Value
