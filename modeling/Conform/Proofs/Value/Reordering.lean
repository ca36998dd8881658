import Conform.Proofs.List.InAnyOrder
import Conform.Proofs.Value.Depth

/-!
# Values up to the order of keys

Two values are reorderings of each other when they are equal but for the order of the entries of
their objects, at any depth.  The keys of an object are distinct, so under every key of one of them
there is a reordering of what is under that key in the other one.
-/

set_option autoImplicit false

namespace Conform

/-! ## Maps -/

namespace Entries

variable {α β : Type} {R : α → β → Prop}

/-- Entries for the same key, with related values. -/
def SameKey (R : α → β → Prop) (e : String × α) (f : String × β) : Prop := e.1 = f.1 ∧ R e.2 f.2

theorem forall₂_sameKey_iff {m : Entries α} {m' : Entries β} :
    List.Forall₂ (SameKey R) m m' ↔
      m.keys = m'.keys ∧ List.Forall₂ R (m.map Prod.snd) (m'.map Prod.snd) := by
  rw [← List.forall₂_eq_eq_eq, keys, keys, List.forall₂_map_left_iff, List.forall₂_map_right_iff,
    List.forall₂_map_left_iff, List.forall₂_map_right_iff]
  constructor
  · intro h
    exact ⟨h.imp fun _ _ same => same.1, h.imp fun _ _ same => same.2⟩
  · rintro ⟨names, values⟩
    exact names.mp (fun _ _ name value => ⟨name, value⟩) values

/-- Maps with the same keys, in any order, and related values under them. -/
structure Reordered (R : α → β → Prop) (m : Entries α) (m' : Entries β) : Prop where
  distinct : m.keys.Nodup
  entries : InAnyOrder (SameKey R) m m'

theorem Reordered.keys_perm {m : Entries α} {m' : Entries β} (h : m.Reordered R m') :
    m.keys.Perm m'.keys :=
  h.entries.perm_map fun _ _ same => same.1

theorem Reordered.distinct_right {m : Entries α} {m' : Entries β} (h : m.Reordered R m') :
    m'.keys.Nodup :=
  h.keys_perm.nodup_iff.mp h.distinct

theorem reordered_nil : Reordered R ([] : Entries α) ([] : Entries β) :=
  ⟨List.nodup_nil, .of_forall₂ .nil⟩

theorem get?_eq_of_perm {m n : Entries α} (distinct : m.keys.Nodup) (order : m.Perm n)
    (key : String) : m.get? key = n.get? key := by
  cases found : m.get? key with
  | some a =>
    have there : (key, a) ∈ n := order.mem_iff.mp (mem_of_get? found)
    exact (get?_of_mem ((order.map Prod.fst).nodup_iff.mp distinct) there).symm
  | none =>
    cases other : n.get? key with
    | none => rfl
    | some a =>
      have there : (key, a) ∈ m := order.mem_iff.mpr (mem_of_get? other)
      rw [get?_of_mem distinct there] at found
      cases found

theorem get?_related {m : Entries α} {m' : Entries β} (h : List.Forall₂ (SameKey R) m m')
    (key : String) : Option.Rel R (m.get? key) (m'.get? key) := by
  induction h with
  | nil => exact .none
  | @cons e f _ _ first _ ih =>
    obtain ⟨k, a⟩ := e
    obtain ⟨k', b⟩ := f
    obtain ⟨names, values⟩ := first
    dsimp only at names values
    subst names
    rw [get?, get?]
    by_cases here : k = key
    · rw [if_pos here, if_pos here]
      exact .some values
    · rw [if_neg here, if_neg here]
      exact ih

theorem Reordered.get? {m : Entries α} {m' : Entries β} (h : m.Reordered R m') (key : String) :
    Option.Rel R (m.get? key) (m'.get? key) := by
  obtain ⟨distinct, moved, order, related⟩ := h
  rw [get?_eq_of_perm distinct order key]
  exact get?_related related key

theorem Reordered.merge {m other : Entries α} {m' other' : Entries β} (h : m.Reordered R m')
    (further : other.Reordered R other') : (m.merge other).Reordered R (m'.merge other') := by
  refine ⟨nodup_keys_merge other h.distinct, ?_⟩
  have kept : InAnyOrder (SameKey R) (m.without other.keys) (m'.without other'.keys) := by
    refine h.entries.filter fun e f same => ?_
    have names : other.keys.contains e.1 = other'.keys.contains f.1 := by
      rw [same.1, further.keys_perm.contains_eq]
    rw [names]
  have both := kept.append further.entries
  have left := merge_perm h.distinct further.distinct
  have right := merge_perm h.distinct_right further.distinct_right
  exact (both.perm_left left).perm_right right.symm

end Entries

namespace Value

/-- Equal up to the order of keys at any depth. -/
inductive Reordered : Value → Value → Prop
  /-- Values without parts. -/
  | same {v : Value} (noList : v.list? = none) (noObject : v.object? = none) : Reordered v v
  | list {items items' : List Value} (h : List.Forall₂ Reordered items items') :
    Reordered (.list items) (.list items')
  | object {entries moved entries' : Entries Value} (distinct : (Entries.keys entries).Nodup)
    (order : List.Perm entries moved) (keys : Entries.keys moved = Entries.keys entries')
    (values : List.Forall₂ Reordered (moved.map Prod.snd) (entries'.map Prod.snd)) :
    Reordered (.object entries) (.object entries')

variable {v w : Value}

theorem reordered_object_iff {entries entries' : Entries Value} :
    (object entries).Reordered (object entries') ↔ entries.Reordered Reordered entries' := by
  constructor
  · intro h
    cases h with
    | same noList noObject => cases noObject
    | object distinct order keys values =>
      exact ⟨distinct, _, order, Entries.forall₂_sameKey_iff.mpr ⟨keys, values⟩⟩
  · intro ⟨distinct, moved, order, related⟩
    obtain ⟨keys, values⟩ := Entries.forall₂_sameKey_iff.mp related
    exact .object distinct order keys values

theorem Reordered.isAbsent_eq (h : v.Reordered w) : v.isAbsent = w.isAbsent := by
  cases h with
  | same | list | object => rfl

theorem Reordered.isNull_eq (h : v.Reordered w) : v.isNull = w.isNull := by
  cases h with
  | same | list | object => rfl

theorem reordered_getD {o o' : Option Value} (h : Option.Rel Reordered o o') :
    (o.getD absent).Reordered (o'.getD absent) := by
  cases h with
  | some h => exact h
  | none => exact .same rfl rfl

theorem getElem?_related {items items' : List Value} (h : List.Forall₂ Reordered items items')
    (i : Nat) : Option.Rel Reordered items[i]? items'[i]? := by
  induction h generalizing i with
  | nil => exact .none
  | cons first _ ih =>
    cases i with
    | zero => exact .some first
    | succ i => exact ih i

theorem Reordered.item (h : v.Reordered w) (i : Nat) : (v.item i).Reordered (w.item i) := by
  cases h with
  | same noList noObject =>
    cases v with
    | list => cases noList
    | absent | null | bool | number | text | object | date => exact .same rfl rfl
  | list h => exact reordered_getD (getElem?_related h i)
  | object => exact .same rfl rfl

theorem Reordered.get (h : v.Reordered w) (key : String) : (v.get key).Reordered (w.get key) := by
  cases h with
  | same noList noObject =>
    cases v with
    | object => cases noObject
    | absent | null | bool | number | text | list | date => exact .same rfl rfl
  | list => exact .same rfl rfl
  | object distinct order keys values =>
    have reordered := reordered_object_iff.mp (.object distinct order keys values)
    exact reordered_getD (reordered.get? key)

theorem present_forall₂ {entries entries' : Entries Value}
    (h : List.Forall₂ (Entries.SameKey Reordered) entries entries') :
    List.Forall₂ (Entries.SameKey Reordered) (present entries) (present entries') := by
  refine List.rel_filter (fun e f same => ?_) h
  simp only [same.2.isAbsent_eq]

theorem present_reordered {entries entries' : Entries Value}
    (h : entries.Reordered Reordered entries') :
    (present entries).Reordered Reordered (present entries') := by
  refine ⟨(List.filter_sublist.map Prod.fst).nodup h.distinct, h.entries.filter fun e f same => ?_⟩
  rw [same.2.isAbsent_eq]

end Value

end Conform
