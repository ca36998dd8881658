/-!
# Maps in order of insertion

A map from keys to values is the list of its entries, the oldest first.  Writing to a key that is
there replaces the value and keeps the place; a new key comes last.  Every map built from the empty
one by the operations here has distinct keys.
-/

set_option autoImplicit false

namespace Conform

abbrev Entries (α : Type) := List (String × α)

namespace Entries

variable {α : Type}

def keys (m : Entries α) : List String := m.map Prod.fst

def contains (m : Entries α) (key : String) : Bool := m.any fun e => e.1 == key

def get? : Entries α → String → Option α
  | [], _ => none
  | (k, a) :: rest, key => if k = key then some a else get? rest key

def insert : Entries α → String → α → Entries α
  | [], key, a => [(key, a)]
  | (k, b) :: rest, key, a => if k = key then (k, a) :: rest else (k, b) :: insert rest key a

/-- Writes the second map into the first, entry by entry. -/
def merge (m other : Entries α) : Entries α := other.foldl (fun m e => m.insert e.1 e.2) m

def ofList (entries : List (String × α)) : Entries α := merge [] entries

def restrict (m : Entries α) (names : List String) : Entries α :=
  m.filter fun e => names.contains e.1

def without (m : Entries α) (names : List String) : Entries α :=
  m.filter fun e => !names.contains e.1

def erase (m : Entries α) (key : String) : Entries α := m.without [key]

def mapValues {β : Type} (f : α → β) (m : Entries α) : Entries β := m.map fun e => (e.1, f e.2)

/-! ## Looking up -/

theorem get?_eq_none_of_not_mem {m : Entries α} {key : String} (h : key ∉ m.keys) :
    m.get? key = none := by
  induction m with
  | nil => rfl
  | cons e rest ih =>
    obtain ⟨k, b⟩ := e
    have hk : k ≠ key := fun e => h (List.mem_cons.mpr (.inl e.symm))
    simp only [get?, if_neg hk]
    exact ih fun e => h (List.mem_cons.mpr (.inr e))

theorem mem_of_get? {m : Entries α} {key : String} {a : α} (h : m.get? key = some a) :
    (key, a) ∈ m := by
  induction m with
  | nil => cases h
  | cons e rest ih =>
    obtain ⟨k, b⟩ := e
    by_cases hk : k = key
    · rw [get?, if_pos hk] at h
      cases h
      simp [hk]
    · rw [get?, if_neg hk] at h
      exact List.mem_cons_of_mem _ (ih h)

theorem get?_append (m other : Entries α) (key : String) :
    get? (m ++ other) key = (m.get? key).or (other.get? key) := by
  induction m with
  | nil => rfl
  | cons e rest ih =>
    obtain ⟨k, b⟩ := e
    by_cases hk : k = key
    · simp [get?, hk]
    · simpa [get?, hk] using ih

theorem get?_of_mem {m : Entries α} {key : String} {a : α} (distinct : m.keys.Nodup)
    (h : (key, a) ∈ m) : m.get? key = some a := by
  induction m with
  | nil => cases h
  | cons e rest ih =>
    obtain ⟨k, b⟩ := e
    obtain ⟨new, others⟩ := List.nodup_cons.mp distinct
    rcases List.mem_cons.mp h with first | later
    · cases first
      rw [get?, if_pos rfl]
    · have hk : k ≠ key := by
        rintro rfl
        exact new (List.mem_map.mpr ⟨_, later, rfl⟩)
      rw [get?, if_neg hk]
      exact ih others later

/-! ## Keys and values after a write -/

theorem contains_iff (m : Entries α) (key : String) : m.contains key = true ↔ key ∈ m.keys := by
  simp [contains, keys]

theorem get?_insert_self (m : Entries α) (key : String) (a : α) :
    (m.insert key a).get? key = some a := by
  induction m with
  | nil => simp [insert, get?]
  | cons e rest ih =>
    obtain ⟨k, b⟩ := e
    by_cases h : k = key
    · simp [insert, get?, h]
    · simp only [insert, if_neg h, get?]
      exact ih

theorem get?_insert_of_ne (m : Entries α) {key other : String} (a : α) (h : other ≠ key) :
    (m.insert key a).get? other = m.get? other := by
  induction m with
  | nil => simp [insert, get?, Ne.symm h]
  | cons e rest ih =>
    obtain ⟨k, b⟩ := e
    by_cases hk : k = key
    · subst hk
      simp [insert, get?, Ne.symm h]
    · simp only [insert, if_neg hk, get?, ih]

/-- A key that is there keeps its place. -/
theorem keys_insert_of_mem {m : Entries α} {key : String} (a : α) (h : key ∈ m.keys) :
    (m.insert key a).keys = m.keys := by
  induction m with
  | nil => cases h
  | cons e rest ih =>
    obtain ⟨k, b⟩ := e
    by_cases hk : k = key
    · simp [insert, keys, hk]
    · have hrest : key ∈ keys rest := (List.mem_cons.mp h).resolve_left (Ne.symm hk)
      simp only [insert, if_neg hk, keys, List.map_cons]
      exact congrArg (k :: ·) (ih hrest)

/-- A new key comes last. -/
theorem insert_of_not_mem {m : Entries α} {key : String} (a : α) (h : key ∉ m.keys) :
    m.insert key a = m ++ [(key, a)] := by
  induction m with
  | nil => rfl
  | cons e rest ih =>
    obtain ⟨k, b⟩ := e
    have hk : k ≠ key := fun e => h (List.mem_cons.mpr (.inl e.symm))
    have hrest : key ∉ keys rest := fun e => h (List.mem_cons.mpr (.inr e))
    simp only [insert, if_neg hk, ih hrest, List.cons_append]

theorem mem_of_mem_insert {m : Entries α} {key : String} {a : α} {e : String × α}
    (h : e ∈ m.insert key a) : e = (key, a) ∨ e ∈ m := by
  induction m with
  | nil => exact .inl (List.mem_singleton.mp h)
  | cons first rest ih =>
    obtain ⟨k, b⟩ := first
    by_cases hk : k = key
    · rw [insert, if_pos hk] at h
      rcases List.mem_cons.mp h with rfl | later
      · exact .inl (by rw [hk])
      · exact .inr (List.mem_cons_of_mem _ later)
    · rw [insert, if_neg hk] at h
      rcases List.mem_cons.mp h with rfl | later
      · exact .inr List.mem_cons_self
      · exact (ih later).imp_right (List.mem_cons_of_mem _)

theorem mem_of_mem_merge {m other : Entries α} {e : String × α} (h : e ∈ m.merge other) :
    e ∈ m ∨ e ∈ other := by
  induction other generalizing m with
  | nil => exact .inl h
  | cons first rest ih =>
    rcases ih h with written | later
    · rcases mem_of_mem_insert written with rfl | before
      · exact .inr List.mem_cons_self
      · exact .inl before
    · exact .inr (List.mem_cons_of_mem _ later)

theorem nodup_keys_insert {m : Entries α} (key : String) (a : α) (h : m.keys.Nodup) :
    (m.insert key a).keys.Nodup := by
  by_cases hk : key ∈ m.keys
  · rw [keys_insert_of_mem a hk]
    exact h
  · rw [insert_of_not_mem a hk]
    simp only [keys, List.map_append, List.map_cons, List.map_nil]
    refine List.nodup_append.mpr ⟨h, by simp, ?_⟩
    intro x hx y hy hxy
    rw [List.mem_singleton.mp hy] at hxy
    exact hk (hxy ▸ hx)

theorem nodup_keys_merge {m : Entries α} (other : Entries α) (h : m.keys.Nodup) :
    (m.merge other).keys.Nodup := by
  induction other generalizing m with
  | nil => exact h
  | cons e rest ih => exact ih (nodup_keys_insert e.1 e.2 h)

/-! ## Entries after a write, in any order -/

theorem without_eq_self {m : Entries α} {names : List String} (h : ∀ key ∈ m.keys, key ∉ names) :
    m.without names = m := by
  rw [without, List.filter_eq_self]
  intro e member
  simp [h e.1 (List.mem_map_of_mem member)]

theorem without_without (m : Entries α) (names others : List String) :
    (m.without names).without others = m.without (names ++ others) := by
  simp only [without, List.filter_filter]
  congr 1
  funext e
  rw [List.contains_append, Bool.not_or, Bool.and_comm]

/-- The entry takes the place of the one for its key, if there is one. -/
theorem insert_perm {m : Entries α} (distinct : m.keys.Nodup) (key : String) (a : α) :
    (m.insert key a).Perm ((key, a) :: m.without [key]) := by
  induction m with
  | nil => exact .refl _
  | cons e rest ih =>
    obtain ⟨k, b⟩ := e
    obtain ⟨new, others⟩ := List.nodup_cons.mp distinct
    by_cases hk : k = key
    · subst hk
      have kept : without rest [k] = rest := by
        refine without_eq_self fun key member here => ?_
        rw [List.mem_singleton.mp here] at member
        exact new member
      have dropped : without ((k, b) :: rest) [k] = without rest [k] := by
        simp [without]
      rw [insert, if_pos rfl, dropped, kept]
    · have kept : without ((k, b) :: rest) [key] = (k, b) :: without rest [key] := by
        simp [without, hk]
      rw [insert, if_neg hk, kept]
      exact ((ih others).cons (k, b)).trans (.swap _ _ _)

/-- The second map stays whole, and the first one where the second one has no entry. -/
theorem merge_perm {m other : Entries α} (distinct : m.keys.Nodup) (distinct' : other.keys.Nodup) :
    (m.merge other).Perm (m.without other.keys ++ other) := by
  induction other generalizing m with
  | nil =>
    have all : m.without [] = m := without_eq_self fun _ _ => List.not_mem_nil
    show m.Perm (m.without [] ++ [])
    rw [all, List.append_nil]
  | cons e rest ih =>
    obtain ⟨key, a⟩ := e
    obtain ⟨new, others⟩ := List.nodup_cons.mp distinct'
    have written : ((m.insert key a).without (keys rest)).Perm
        ((key, a) :: m.without (key :: keys rest)) := by
      have filtered := (insert_perm distinct key a).filter fun e => !(keys rest).contains e.1
      have first : (!(keys rest).contains key) = true := by
        rw [Bool.not_eq_true', List.contains_eq_mem, decide_eq_false_iff_not]
        exact new
      rw [List.filter_cons, if_pos first] at filtered
      refine filtered.trans (.of_eq ?_)
      exact congrArg _ (without_without m [key] (keys rest))
    have merged := ih (nodup_keys_insert key a distinct) others
    exact (merged.trans (written.append_right rest)).trans List.perm_middle.symm

end Entries

end Conform
