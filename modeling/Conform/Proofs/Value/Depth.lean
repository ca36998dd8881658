import Conform.Path
import Conform.Value.Basic
import Mathlib.Data.List.Basic

/-!
# Values in depth

Induction over values, conditions on the objects at every depth of a value, and the part of a value
to which a path leads.
-/

set_option autoImplicit false

namespace Conform.Value

theorem isAbsent_iff (v : Value) : v.isAbsent = true ↔ v = absent := by
  cases v <;> simp [isAbsent]

theorem isNull_iff (v : Value) : v.isNull = true ↔ v = null := by
  cases v <;> simp [isNull]

/-- Induction over values. -/
@[elab_as_elim]
theorem parts_induction {motive : Value → Prop} (absent : motive .absent) (null : motive .null)
    (bool : ∀ b, motive (.bool b)) (number : ∀ x, motive (.number x))
    (text : ∀ s, motive (.text s))
    (list : ∀ items, (∀ v ∈ items, motive v) → motive (.list items))
    (object : ∀ entries : Entries Value, (∀ e ∈ entries, motive e.2) → motive (.object entries))
    (date : ∀ t, motive (.date t)) (v : Value) : motive v :=
  Value.rec (motive_1 := motive) (motive_2 := fun items => ∀ v ∈ items, motive v)
    (motive_3 := fun entries => ∀ e ∈ entries, motive e.2) (motive_4 := fun e => motive e.2)
    absent null bool number text list object date
    (fun _ h => absurd h List.not_mem_nil)
    (fun _ _ first rest => List.forall_mem_cons.mpr ⟨first, rest⟩)
    (fun _ h => absurd h List.not_mem_nil)
    (fun _ _ first rest => List.forall_mem_cons.mpr ⟨first, rest⟩)
    (fun _ _ v => v) v

/-! ## Conditions on all objects -/

section EveryObject

variable (P : Entries Value → Prop)

mutual
/-- The condition holds of the value if it is an object, and of every object within it. -/
def EveryObject : Value → Prop
  | list items => EveryItem items
  | object entries => P entries ∧ EveryEntry entries
  | absent | null | bool _ | number _ | text _ | date _ => True

def EveryItem : List Value → Prop
  | [] => True
  | v :: rest => v.EveryObject ∧ EveryItem rest

def EveryEntry : List (String × Value) → Prop
  | [] => True
  | (_, v) :: rest => v.EveryObject ∧ EveryEntry rest
end

end EveryObject

variable {P : Entries Value → Prop}

theorem everyItem_iff (items : List Value) : EveryItem P items ↔ ∀ v ∈ items, v.EveryObject P := by
  induction items with
  | nil => simp [EveryItem]
  | cons v rest ih => rw [EveryItem, ih, List.forall_mem_cons]

theorem everyEntry_iff (entries : List (String × Value)) :
    EveryEntry P entries ↔ ∀ e ∈ entries, e.2.EveryObject P := by
  induction entries with
  | nil => simp [EveryEntry]
  | cons e rest ih =>
    obtain ⟨key, v⟩ := e
    rw [EveryEntry, ih, List.forall_mem_cons]

theorem everyObject_list_iff (items : List Value) :
    (list items).EveryObject P ↔ ∀ v ∈ items, v.EveryObject P := by
  rw [EveryObject, everyItem_iff]

theorem everyObject_object_iff (entries : Entries Value) :
    (object entries).EveryObject P ↔ P entries ∧ ∀ e ∈ entries, e.2.EveryObject P := by
  rw [EveryObject, everyEntry_iff]

theorem EveryObject.get {v : Value} (h : v.EveryObject P) (key : String) :
    (v.get key).EveryObject P := by
  cases v with
  | object entries =>
    rw [Value.get]
    cases found : Entries.get? entries key with
    | none => trivial
    | some a => exact ((everyObject_object_iff entries).mp h).2 _ (Entries.mem_of_get? found)
  | absent | null | bool | number | text | list | date => trivial

theorem EveryObject.item {v : Value} (h : v.EveryObject P) (i : Nat) :
    (v.item i).EveryObject P := by
  cases v with
  | list items =>
    rw [Value.item]
    cases found : items[i]? with
    | none => trivial
    | some a => exact (everyObject_list_iff items).mp h a (List.mem_of_getElem? found)
  | absent | null | bool | number | text | object | date => trivial

/-- No object within the value has an entry for something absent. -/
def NoAbsentEntries (v : Value) : Prop := v.EveryObject fun entries => ∀ e ∈ entries, e.2 ≠ absent

/-- No object within the value has two entries with one key. -/
def DistinctKeys (v : Value) : Prop := v.EveryObject fun entries => (Entries.keys entries).Nodup

theorem present_eq_self {entries : Entries Value} (h : ∀ e ∈ entries, e.2 ≠ absent) :
    present entries = entries := by
  rw [present, List.filter_eq_self]
  intro e he
  have there : ¬ e.2.isAbsent = true := fun absent => h e he ((isAbsent_iff e.2).mp absent)
  simp [there]

theorem present_append (entries others : Entries Value) :
    present (entries ++ others) = present entries ++ present others :=
      List.filter_append entries others

theorem present_present (entries : Entries Value) : present (present entries) = present entries :=
  List.filter_eq_self.mpr fun _ member => (List.mem_filter.mp member).2

theorem keys_present_sublist (entries : Entries Value) :
    (Entries.keys (present entries)).Sublist (Entries.keys entries) :=
  List.filter_sublist.map Prod.fst

/-! ## Following paths -/

/-- The part one segment down; `absent` where there is none. -/
def step (v : Value) : Segment → Value
  | .field name => v.get name
  | .index position => v.item position

def follow (v : Value) (p : Path) : Value := p.segments.foldl step v

theorem follow_append (v : Value) (p q : Path) : v.follow (p ++ q) = (v.follow p).follow q :=
  List.foldl_append

end Conform.Value
