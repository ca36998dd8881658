import Conform.Proofs.Validator.Success

/-!
# Accepting what has been answered

Validators of lists, tuples, objects and records accept what they have answered once, as soon as the
validators of the parts do.  An output is looked at as the value it would be read as.
-/

set_option autoImplicit false

namespace Conform.Validator

variable {σ α : Type} {exact : Prop}

/-- What is answered to a value without absent entries is accepted when it is read again. -/
def Revalidates (exact : Prop) (read : α → Value) (w : Validator σ α) : Prop :=
  ∀ v a, v.NoAbsentEntries → w.CanAnswer v a → w.Returns exact (read a) a

theorem ofOutcome_revalidates {f : Value → Path → Outcome α} {read : α → Value}
    (like : ∀ (m : Shift) v p, Outcome.Like m.issue (f v p) (f v (m.path p)))
    (kept : ∀ v p a, f v p = .success a → v = read a) :
    (ofOutcome f : Validator σ α).Revalidates exact read := by
  intro v a _ found p s
  obtain ⟨q, ran⟩ := found.ofOutcome
  rw [← kept v q a ran]
  exact ⟨a, success_anywhere like ran p, fun _ => rfl⟩

/-! ## Lists -/

theorem list_revalidates (rules : LengthRules) {item : Validator σ Value}
    (h : item.Revalidates exact id) : (list rules item).Revalidates exact .list := by
  intro v as whole found
  obtain ⟨items, rfl, fitting, answers⟩ := list_canAnswer found
  have parts := (Value.everyObject_list_iff items).mp whole
  rw [answers.length_eq] at fitting
  refine list_returns fitting (List.forall₂_same.mpr fun a member => ?_)
  obtain ⟨item, there, answer⟩ := exists_of_mem_right answers member
  exact h item a (parts item there) answer

/-- The outputs from a position on are the items of the whole output from there on. -/
theorem PositionsAnswer.revalidates {ws : List (Validator σ Value)} {v : Value}
    {as bs : List Value} {i : Nat} (whole : v.NoAbsentEntries)
    (answers : PositionsAnswer CanAnswer v i ws bs) (h : ∀ w ∈ ws, w.Revalidates exact id)
    (rest : as.drop i = bs) : PositionsAnswer (Returns exact) (.list as) i ws bs := by
  induction answers with
  | nil i => exact .nil i
  | @cons i w ws b bs first _ ih =>
    obtain ⟨head, others⟩ := List.forall_mem_cons.mp h
    have found : as[i]? = some b := by
      rw [← List.head?_drop, rest, List.head?_cons]
    have later : as.drop (i + 1) = bs := by
      rw [← List.drop_drop, rest, List.drop_one, List.tail_cons]
    have place : (Value.list as).item i = b := by
      simp [Value.item, found]
    refine .cons ?_ (ih others later)
    rw [place]
    exact head _ b (whole.item i) first

theorem tuple_revalidates (kindMessage : Option String) {ws : List (Validator σ Value)}
    (h : ∀ w ∈ ws, w.Revalidates exact id) : (tuple kindMessage ws).Revalidates exact .list := by
  intro v as whole found
  exact tuple_returns kindMessage ((tuple_canAnswer found).revalidates whole h List.drop_zero)

/-! ## Objects -/

/-- An absent output has no entry, and is found all the same. -/
theorem get_present_append {declared others : Entries Value} {name : String} {a : Value}
    (distinct : (Entries.keys declared).Nodup) (there : (name, a) ∈ declared)
    (other : name ∉ Entries.keys others) :
    (Value.object (Value.present declared ++ others)).get name = a := by
  rw [Value.get, Entries.get?_append, Entries.get?_eq_none_of_not_mem other, Option.or_none]
  cases found : Entries.get? (Value.present declared) name with
  | some b =>
    have kept := (List.mem_filter.mp (Entries.mem_of_get? found)).1
    have same := Entries.get?_of_mem distinct kept
    rw [Entries.get?_of_mem distinct there] at same
    exact (Option.some.inj same).symm
  | none =>
    by_contra present
    have kept : (name, a) ∈ Value.present declared := by
      refine List.mem_filter.mpr ⟨there, ?_⟩
      have notAbsent : ¬ a.isAbsent = true := fun e => present ((Value.isAbsent_iff a).mp e).symm
      simp [notAbsent]
    have distinctPresent : (Entries.keys (Value.present declared)).Nodup :=
      distinct.sublist (Value.keys_present_sublist declared)
    rw [Entries.get?_of_mem distinctPresent kept] at found
    cases found

theorem undeclared_present_append {β : Type} {fields : List (String × β)}
    {declared others : Entries Value} (inside : Entries.keys declared = Entries.keys fields)
    (outside : ∀ e ∈ others, e.1 ∉ Entries.keys fields) :
    undeclared fields (Value.present declared ++ others) = others := by
  rw [undeclared, List.filter_append]
  have none : (Value.present declared).filter (fun e => !Entries.contains fields e.1) = [] := by
    rw [List.filter_eq_nil_iff]
    intro e member
    have key : e.1 ∈ Entries.keys fields := by
      rw [← inside]
      exact (Value.keys_present_sublist declared).subset (List.mem_map_of_mem member)
    simp [(Entries.contains_iff fields e.1).mpr key]
  have all : others.filter (fun e => !Entries.contains fields e.1) = others := by
    rw [List.filter_eq_self]
    intro e member
    have key := outside e member
    rw [← Entries.contains_iff] at key
    simp [key]
  rw [none, all, List.nil_append]

theorem UnknownAnswer.revalidates {unknown : UnknownKeys (Validator σ Value)}
    {entries kept : Entries Value} (h : UnknownAnswer CanAnswer unknown entries kept)
    (whole : ∀ e ∈ entries, e.2.NoAbsentEntries)
    (revalidates : unknown.Holds (Revalidates exact id)) :
    UnknownAnswer (Returns exact) unknown kept kept := by
  cases h with
  | strip => exact .strip []
  | allow => exact .allow entries
  | deny => exact .deny
  | @validate w _ _ answers =>
    refine .validate (List.forall₂_same.mpr fun k member => ⟨rfl, ?_⟩)
    obtain ⟨e, there, _, answer⟩ := exists_of_mem_right answers member
    exact revalidates e.2 k.2 (whole e there) answer

theorem object_revalidates {shape : Shape (Validator σ Value)}
    (distinct : (Entries.keys shape.fields).Nodup)
    (fields : ∀ f ∈ shape.fields, f.2.Revalidates exact id)
    (unknown : shape.unknown.Holds (Revalidates exact id)) :
    (object shape).Revalidates exact .object := by
  intro v out whole found
  obtain ⟨entries, declared, others, rfl, rfl, answers, kept⟩ := object_canAnswer found
  have parts := ((Value.everyObject_object_iff entries).mp whole).2
  have names : Entries.keys declared = Entries.keys shape.fields := keys_eq_of_forall₂ answers
  have outside : ∀ key ∈ Entries.keys others, key ∉ Entries.keys shape.fields := by
    intro key member
    obtain ⟨e, undeclaredKey, rfl⟩ := List.mem_map.mp (kept.keys_sublist.subset member)
    have key := (List.mem_filter.mp undeclaredKey).2
    rw [← Entries.contains_iff]
    simpa using key
  have left : undeclared shape.fields (Value.present declared ++ others) = others :=
    undeclared_present_append names fun e member => outside e.1 (List.mem_map_of_mem member)
  have again : UnknownAnswer (Returns exact) shape.unknown others others :=
    kept.revalidates (fun e member => parts e (List.mem_filter.mp member).1) unknown
  have declaredAgain : List.Forall₂ (fun f e => e.1 = f.1 ∧ f.2.Returns exact
      ((Value.object (Value.present declared ++ others)).get f.1) e.2) shape.fields declared := by
    refine List.forall₂_iff_zip.mpr ⟨answers.length_eq, fun {f e} member => ?_⟩
    obtain ⟨inFields, inDeclared⟩ := List.of_mem_zip member
    obtain ⟨name, answer⟩ := List.forall₂_zip answers member
    have nameInFields : f.1 ∈ Entries.keys shape.fields := List.mem_map_of_mem inFields
    have read : (Value.object (Value.present declared ++ others)).get f.1 = e.2 := by
      rw [← names] at distinct
      rw [← name]
      exact get_present_append distinct inDeclared fun inOthers =>
        outside e.1 inOthers (name ▸ nameInFields)
    rw [read]
    exact ⟨name, fields f inFields _ e.2 (whole.get f.1) answer⟩
  rw [← left] at again
  have returns := object_returns declaredAgain again
  rw [left] at returns
  exact returns

/-! ## Records -/

theorem record_revalidates (kindMessage : Option String) {key : Validator σ String}
    {value : Validator σ Value} (hk : key.Revalidates True .text)
    (hv : value.Revalidates exact id) :
    (record kindMessage key value).Revalidates exact .object := by
  intro v out whole found
  obtain ⟨entries, rfl, distinct, answers⟩ := record_canAnswer found
  have parts := ((Value.everyObject_object_iff entries).mp whole).2
  refine record_returns kindMessage distinct (List.forall₂_same.mpr fun o member => ?_)
  obtain ⟨e, there, keyAnswer, valueAnswer⟩ := exists_of_mem_right answers member
  exact ⟨hk (.text e.1) o.1 trivial keyAnswer, hv e.2 o.2 (parts e there) valueAnswer⟩

end Conform.Validator
