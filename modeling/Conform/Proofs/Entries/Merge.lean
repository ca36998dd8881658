import Conform.Entries
import Mathlib.Data.List.Nodup

/-!
# Merging maps

Writing entries into a map one after another keeps the key where it first came and the value that
came last.  So it does not matter whether entries are written one by one or collected in a map of
their own first, and merging is associative.
-/

set_option autoImplicit false

namespace Conform.Entries

variable {α : Type}

theorem merge_append (m entries others : Entries α) :
    m.merge (entries ++ others) = (m.merge entries).merge others := List.foldl_append

/-- Entries that are new come last, in their order. -/
theorem merge_eq_append {m other : Entries α} (distinct : other.keys.Nodup)
    (apart : ∀ key ∈ other.keys, key ∉ m.keys) : m.merge other = m ++ other := by
  induction other generalizing m with
  | nil => exact (List.append_nil m).symm
  | cons e rest ih =>
    obtain ⟨key, a⟩ := e
    obtain ⟨new, others⟩ := List.nodup_cons.mp distinct
    have written : m.insert key a = m ++ [(key, a)] :=
      insert_of_not_mem a (apart key List.mem_cons_self)
    have step := ih (m := m ++ [(key, a)]) others fun k later => by
      have before := apart k (List.mem_cons_of_mem _ later)
      have other : k ≠ key := fun same => new (same ▸ later)
      simpa [keys, other] using before
    rw [List.append_assoc, ← written] at step
    exact step

theorem ofList_eq_self {m : Entries α} (distinct : m.keys.Nodup) : ofList m = m :=
  merge_eq_append distinct fun _ _ => List.not_mem_nil

/-! ## Two writes -/

theorem mem_keys_insert_iff (m : Entries α) (key other : String) (a : α) :
    other ∈ (m.insert key a).keys ↔ other = key ∨ other ∈ m.keys := by
  by_cases there : key ∈ m.keys
  · rw [keys_insert_of_mem a there]
    constructor
    · exact .inr
    · rintro (rfl | before)
      · exact there
      · exact before
  · rw [insert_of_not_mem a there]
    simp only [keys, List.map_append, List.map_cons, List.map_nil, List.mem_append,
      List.mem_singleton]
    exact or_comm

/-- The second of two writes to one key stands. -/
theorem insert_insert (m : Entries α) (key : String) (a b : α) :
    (m.insert key a).insert key b = m.insert key b := by
  induction m with
  | nil => simp [insert]
  | cons e rest ih =>
    obtain ⟨k, c⟩ := e
    by_cases hk : k = key
    · simp [insert, hk]
    · simp only [insert, if_neg hk, ih]

/-- A write to a key that is there moves before a write to another key. -/
theorem insert_comm {m : Entries α} {key other : String} (a b : α) (there : key ∈ m.keys)
    (differ : other ≠ key) :
    (m.insert other b).insert key a = (m.insert key a).insert other b := by
  induction m with
  | nil => cases there
  | cons e rest ih =>
    obtain ⟨k, c⟩ := e
    by_cases hk : k = key
    · subst hk
      simp only [insert, if_neg (Ne.symm differ), if_true]
    · have later : key ∈ keys rest := (List.mem_cons.mp there).resolve_left (Ne.symm hk)
      by_cases ho : k = other
      · subst ho
        simp only [insert, if_neg hk, if_true]
      · simp only [insert, if_neg hk, if_neg ho, ih later]

/-- A write to a key that is there moves before the writes to other keys. -/
theorem insert_merge {m entries : Entries α} {key : String} (a : α) (there : key ∈ m.keys)
    (differ : key ∉ entries.keys) :
    (m.merge entries).insert key a = (m.insert key a).merge entries := by
  induction entries generalizing m with
  | nil => rfl
  | cons e rest ih =>
    obtain ⟨k, b⟩ := e
    have other : k ≠ key := fun e => differ (List.mem_cons.mpr (.inl e.symm))
    have others : key ∉ keys rest := fun later => differ (List.mem_cons_of_mem _ later)
    have step := ih ((mem_keys_insert_iff m k key b).mpr (.inr there)) others
    rw [insert_comm a b there other] at step
    exact step

/-! ## Associativity -/

/-- Merging a map that was written to is merging and then writing. -/
theorem merge_insert (m : Entries α) {other : Entries α} (distinct : other.keys.Nodup)
    (key : String) (a : α) : m.merge (other.insert key a) = (m.merge other).insert key a := by
  induction other generalizing m with
  | nil => rfl
  | cons e rest ih =>
    obtain ⟨k, b⟩ := e
    obtain ⟨new, others⟩ := List.nodup_cons.mp distinct
    by_cases hk : k = key
    · subst hk
      -- The entry is the first to be merged, and the write to its key moves up behind it.
      have there : k ∈ (m.insert k b).keys := (mem_keys_insert_iff m k k b).mpr (.inl rfl)
      have moved := insert_merge a there new
      rw [insert_insert] at moved
      rw [insert, if_pos rfl]
      exact moved.symm
    · rw [insert, if_neg hk]
      exact ih (m.insert k b) others

theorem merge_merge (m : Entries α) {other : Entries α} (distinct : other.keys.Nodup)
    (entries : Entries α) : m.merge (other.merge entries) = (m.merge other).merge entries := by
  induction entries generalizing other with
  | nil => rfl
  | cons e rest ih =>
    have step := ih (nodup_keys_insert e.1 e.2 distinct)
    rw [merge_insert m distinct] at step
    exact step

/-- Entries may be collected in a map before they are written. -/
theorem merge_ofList (m entries : Entries α) : m.merge (ofList entries) = m.merge entries :=
  have none : keys ([] : Entries α) = [] := rfl
  merge_merge m (none ▸ List.nodup_nil) entries

/-! ## Keys and values of a merged map -/

theorem removeAll_append_singleton (names others : List String) (key : String) :
    names.removeAll (others ++ [key]) = (names.removeAll others).filter fun k => !k == key := by
  simp only [List.removeAll, List.filter_filter, List.elem_eq_contains, List.contains_append,
    List.contains_cons, List.contains_nil, Bool.or_false, Bool.not_or]
  congr 1
  funext k
  exact Bool.and_comm _ _

/-- New keys follow in the order of their first entries. -/
theorem keys_merge (m entries : Entries α) :
    (m.merge entries).keys = m.keys ++ (entries.keys.removeAll m.keys).eraseDups := by
  induction entries generalizing m with
  | nil => exact (List.append_nil _).symm
  | cons e rest ih =>
    obtain ⟨key, a⟩ := e
    have step := ih (m.insert key a)
    have rest_keys : keys ((key, a) :: rest) = key :: keys rest := rfl
    rw [rest_keys, List.cons_removeAll]
    by_cases there : key ∈ m.keys
    · rw [keys_insert_of_mem a there] at step
      rw [if_neg (by simp [there])]
      exact step
    · rw [insert_of_not_mem a there] at step
      have keys_written : keys (m ++ [(key, a)]) = m.keys ++ [key] := by simp [keys]
      rw [keys_written, removeAll_append_singleton, List.append_assoc] at step
      rw [if_pos (by simp [there]), List.eraseDups_cons]
      rw [← insert_of_not_mem a there] at step
      exact step

theorem keys_ofList (entries : Entries α) : (ofList entries).keys = entries.keys.eraseDups := by
  rw [ofList, keys_merge]
  have none : keys ([] : Entries α) = [] := rfl
  rw [none, List.nil_append, List.removeAll_nil]

/-- The last entry of a key gives its value. -/
theorem get?_merge (m entries : Entries α) (key : String) :
    (m.merge entries).get? key = (get? entries.reverse key).or (m.get? key) := by
  induction entries generalizing m with
  | nil => rfl
  | cons e rest ih =>
    obtain ⟨k, a⟩ := e
    have step := ih (m.insert k a)
    rw [List.reverse_cons, get?_append, Option.or_assoc]
    refine step.trans (congrArg _ ?_)
    by_cases hk : k = key
    · subst hk
      rw [get?_insert_self, get?, if_pos rfl, Option.some_or]
    · rw [get?_insert_of_ne m a (Ne.symm hk), get?, if_neg hk, get?, Option.none_or]

theorem get?_reverse {m : Entries α} (distinct : m.keys.Nodup) (key : String) :
    get? m.reverse key = m.get? key := by
  have reversed : (keys m.reverse).Nodup := by
    rw [keys, List.map_reverse, List.nodup_reverse]
    exact distinct
  cases found : m.get? key with
  | some a => exact get?_of_mem reversed (List.mem_reverse.mpr (mem_of_get? found))
  | none =>
    by_contra other
    obtain ⟨a, there⟩ := Option.ne_none_iff_exists'.mp other
    have member := List.mem_reverse.mp (mem_of_get? there)
    rw [get?_of_mem distinct member] at found
    cases found

/-! ## Merging what is there already -/

theorem insert_eq_self {m : Entries α} {key : String} {a : α} (there : m.get? key = some a) :
    m.insert key a = m := by
  induction m with
  | nil => cases there
  | cons e rest ih =>
    obtain ⟨k, b⟩ := e
    by_cases hk : k = key
    · rw [get?, if_pos hk] at there
      rw [insert, if_pos hk, Option.some.inj there]
    · rw [get?, if_neg hk] at there
      rw [insert, if_neg hk, ih there]

theorem merge_eq_self {m entries : Entries α} (there : ∀ e ∈ entries, m.get? e.1 = some e.2) :
    m.merge entries = m := by
  induction entries with
  | nil => rfl
  | cons e rest ih =>
    obtain ⟨first, others⟩ := List.forall_mem_cons.mp there
    have step := ih others
    rw [← insert_eq_self first] at step
    exact step.trans (insert_eq_self first)

theorem merge_self {m : Entries α} (distinct : m.keys.Nodup) : m.merge m = m :=
  merge_eq_self fun _ member => get?_of_mem distinct member

/-! ## Selecting entries by their keys -/

section Selecting

variable (keep : String → Bool)

theorem keys_filter (m : Entries α) :
    keys (m.filter fun e => keep e.1) = m.keys.filter keep := List.filter_map.symm

theorem get?_filter (m : Entries α) (key : String) :
    get? (m.filter fun e => keep e.1) key = if keep key then m.get? key else none := by
  induction m with
  | nil => simp [get?]
  | cons e rest ih =>
    obtain ⟨k, b⟩ := e
    rw [List.filter_cons, get?]
    by_cases hk : k = key
    · subst hk
      by_cases kept : keep k = true
      · rw [if_pos kept, get?, if_pos rfl, if_pos rfl, if_pos kept]
      · rw [if_neg kept, ih, if_neg kept, if_neg kept]
    · by_cases other : keep k = true
      · rw [if_pos other, get?, if_neg hk, if_neg hk, ih]
      · rw [if_neg other, if_neg hk, ih]

theorem filter_insert_of_pos (m : Entries α) {key : String} (a : α) (kept : keep key = true) :
    (m.insert key a).filter (fun e => keep e.1) =
      insert (m.filter fun e => keep e.1) key a := by
  induction m with
  | nil => simp [insert, kept]
  | cons e rest ih =>
    obtain ⟨k, b⟩ := e
    by_cases hk : k = key
    · subst hk
      simp [insert, kept]
    · by_cases other : keep k = true
      · simp only [insert, if_neg hk, List.filter_cons, if_pos other, ih]
      · simp only [insert, if_neg hk, List.filter_cons, if_neg other, ih]

/-- A write to a key that is not selected does not show. -/
theorem filter_insert_of_neg (m : Entries α) {key : String} (a : α) (gone : ¬ keep key = true) :
    (m.insert key a).filter (fun e => keep e.1) = m.filter fun e => keep e.1 := by
  induction m with
  | nil => simp [insert, gone]
  | cons e rest ih =>
    obtain ⟨k, b⟩ := e
    by_cases hk : k = key
    · subst hk
      simp [insert, gone]
    · rw [insert, if_neg hk, List.filter_cons, List.filter_cons, ih]

theorem filter_merge (m entries : Entries α) :
    (m.merge entries).filter (fun e => keep e.1) =
      merge (m.filter fun e => keep e.1) (entries.filter fun e => keep e.1) := by
  induction entries generalizing m with
  | nil => rfl
  | cons e rest ih =>
    have step := ih (m.insert e.1 e.2)
    rw [List.filter_cons]
    by_cases kept : keep e.1 = true
    · rw [filter_insert_of_pos keep m e.2 kept] at step
      rw [if_pos kept]
      exact step
    · rw [filter_insert_of_neg keep m e.2 kept] at step
      rw [if_neg kept]
      exact step

end Selecting

end Conform.Entries
