import Conform.Proofs.Entries.Merge
import Conform.Schema.Shape
import Mathlib.Data.Nat.Find

/-!
# The fields that calls leave

The calls that build a shape come down to two deeds: a schema is declared under a name, or the names
are selected that stay.  A declaration stands as long as its name has not been removed since.  After
any history of deeds the fields are the names with a declaration that stands, in the order of the
first of these, each with the schema of the last.

So building a shape from a part of another one, or from two, obeys the laws of selecting and
merging.
-/

set_option autoImplicit false

namespace Conform

/-- What a call does to the fields of a shape. -/
inductive Deed (α : Type) where
  | declare (name : String) (schema : α)
  /-- The names that do not stay are removed. -/
  | select (stays : String → Bool)

namespace Deed

variable {α : Type}

def Removes (name : String) : Deed α → Prop
  | declare .. => False
  | select stays => stays name = false

def act (fields : Entries α) : Deed α → Entries α
  | declare name schema => fields.insert name schema
  | select stays => fields.filter fun f => stays f.1

/-- At this place the schema was declared under the name, which has not been removed since. -/
structure Stands (history : List (Deed α)) (place : Nat) (name : String) (schema : α) : Prop where
  declared : history[place]? = some (.declare name schema)
  kept : ∀ (later : Nat) (d : Deed α), place < later → history[later]? = some d → ¬ d.Removes name

/-- The name was declared here for the first time since it was last removed. -/
def FirstStands (history : List (Deed α)) (place : Nat) (name : String) : Prop :=
  (∃ schema, Stands history place name schema) ∧
    ∀ other schema, Stands history other name schema → place ≤ other

/-- The name was declared here, with the schema, for the last time since it was last removed. -/
def LastStands (history : List (Deed α)) (place : Nat) (name : String) (schema : α) : Prop :=
  Stands history place name schema ∧
    ∀ other schema', Stands history other name schema' → other ≤ place

/-! ## One more deed -/

theorem Stands.lt_length {history : List (Deed α)} {place : Nat} {name : String} {schema : α}
    (h : Stands history place name schema) : place < history.length :=
  (List.getElem?_eq_some_iff.mp h.declared).1

theorem stands_append_iff {history : List (Deed α)} {d : Deed α} {place : Nat} {name : String}
    {schema : α} :
    Stands (history ++ [d]) place name schema ↔
      Stands history place name schema ∧ ¬ d.Removes name ∨
        place = history.length ∧ d = .declare name schema := by
  have last : (history ++ [d])[history.length]? = some d := List.getElem?_concat_length
  constructor
  · rintro ⟨declared, kept⟩
    rcases Nat.lt_trichotomy place history.length with before | rfl | after
    · refine .inl ⟨⟨?_, fun later e further there => ?_⟩, kept _ d before last⟩
      · rwa [List.getElem?_append_left before] at declared
      · have inside := (List.getElem?_eq_some_iff.mp there).1
        exact kept later e further ((List.getElem?_append_left inside).trans there)
    · exact .inr ⟨rfl, Option.some.inj (last.symm.trans declared)⟩
    · have outside : (history ++ [d]).length ≤ place := by
        rw [List.length_append, List.length_singleton]
        exact after
      rw [List.getElem?_eq_none outside] at declared
      cases declared
  · rintro (⟨h, stays⟩ | ⟨rfl, rfl⟩)
    · refine ⟨(List.getElem?_append_left h.lt_length).trans h.declared, ?_⟩
      intro later e further there
      rcases Nat.lt_or_ge later history.length with inside | past
      · rw [List.getElem?_append_left inside] at there
        exact h.kept later e further there
      · obtain rfl : e = d := by
          rw [List.getElem?_append_right past] at there
          exact List.mem_singleton.mp (List.mem_of_getElem? there)
        exact stays
    · refine ⟨last, fun later e further there => ?_⟩
      have inside := (List.getElem?_eq_some_iff.mp there).1
      rw [List.length_append, List.length_singleton] at inside
      omega

theorem stands_declare_iff {history : List (Deed α)} {name other : String} {schema schema' : α}
    {place : Nat} :
    Stands (history ++ [.declare name schema]) place other schema' ↔
      Stands history place other schema' ∨
        place = history.length ∧ other = name ∧ schema' = schema := by
  rw [stands_append_iff]
  simp only [Removes, not_false_eq_true, and_true, declare.injEq, eq_comm]

theorem stands_select_iff {history : List (Deed α)} {stays : String → Bool} {name : String}
    {schema : α} {place : Nat} :
    Stands (history ++ [.select stays]) place name schema ↔
      Stands history place name schema ∧ stays name = true := by
  rw [stands_append_iff]
  simp only [Removes, Bool.not_eq_false, reduceCtorEq, and_false, or_false]

theorem exists_firstStands {history : List (Deed α)} {place : Nat} {name : String} {schema : α}
    (h : Stands history place name schema) : ∃ first, FirstStands history first name := by
  classical
  have some : ∃ place, ∃ schema, Stands history place name schema := ⟨place, schema, h⟩
  exact ⟨Nat.find some, Nat.find_spec some, fun other schema' there =>
    Nat.find_min' some ⟨schema', there⟩⟩

/-! ## What fields tell of their history -/

/-- The fields are the names whose declarations stand, in the order of the first of these, each with
the schema of the last. -/
structure Follows (history : List (Deed α)) (fields : Entries α) : Prop where
  distinct : fields.keys.Nodup
  names : ∀ name, name ∈ fields.keys ↔ ∃ place schema, Stands history place name schema
  schemas : ∀ name schema,
    fields.get? name = some schema ↔ ∃ place, LastStands history place name schema
  order : fields.keys.Pairwise fun a b =>
    ∃ i j, i < j ∧ FirstStands history i a ∧ FirstStands history j b

theorem follows_nil : Follows ([] : List (Deed α)) [] where
  distinct := List.nodup_nil
  names name := by
    constructor
    · exact nofun
    · rintro ⟨place, schema, ⟨⟩, _⟩
  schemas name schema := by
    constructor
    · exact nofun
    · rintro ⟨place, ⟨⟨⟩, _⟩, _⟩
  order := .nil

theorem firstStands_declare {history : List (Deed α)} {place : Nat} {name other : String}
    {schema : α} (h : FirstStands history place other) :
    FirstStands (history ++ [.declare name schema]) place other := by
  obtain ⟨⟨own, stands⟩, first⟩ := h
  refine ⟨⟨own, stands_declare_iff.mpr (.inl stands)⟩, fun further schema' there => ?_⟩
  rcases stands_declare_iff.mp there with before | ⟨rfl, _⟩
  · exact first further schema' before
  · exact Nat.le_of_lt stands.lt_length

theorem firstStands_select {history : List (Deed α)} {stays : String → Bool} {place : Nat}
    {name : String} (kept : stays name = true) (h : FirstStands history place name) :
    FirstStands (history ++ [.select stays]) place name := by
  obtain ⟨⟨own, stands⟩, first⟩ := h
  exact ⟨⟨own, stands_select_iff.mpr ⟨stands, kept⟩⟩, fun further schema there =>
    first further schema (stands_select_iff.mp there).1⟩

theorem Follows.declare {history : List (Deed α)} {fields : Entries α} (h : Follows history fields)
    (name : String) (schema : α) :
    Follows (history ++ [.declare name schema]) (fields.insert name schema) where
  distinct := Entries.nodup_keys_insert name schema h.distinct
  names other := by
    rw [Entries.mem_keys_insert_iff, h.names]
    constructor
    · rintro (rfl | ⟨place, own, stands⟩)
      · exact ⟨history.length, schema, stands_declare_iff.mpr (.inr ⟨rfl, rfl, rfl⟩)⟩
      · exact ⟨place, own, stands_declare_iff.mpr (.inl stands)⟩
    · rintro ⟨place, own, stands⟩
      rcases stands_declare_iff.mp stands with before | ⟨_, same, _⟩
      · exact .inr ⟨place, own, before⟩
      · exact .inl same
  schemas other schema' := by
    by_cases same : other = name
    · -- The new declaration is the last one of its name.
      subst same
      rw [Entries.get?_insert_self]
      constructor
      · rintro ⟨⟩
        refine ⟨history.length, stands_declare_iff.mpr (.inr ⟨rfl, rfl, rfl⟩), ?_⟩
        intro further own there
        rcases stands_declare_iff.mp there with before | ⟨rfl, _⟩
        · exact Nat.le_of_lt before.lt_length
        · exact Nat.le_refl _
      · rintro ⟨place, stands, last⟩
        rcases stands_declare_iff.mp stands with before | ⟨_, _, rfl⟩
        · have new := last history.length schema (stands_declare_iff.mpr (.inr ⟨rfl, rfl, rfl⟩))
          exact absurd before.lt_length (Nat.not_lt.mpr new)
        · rfl
    · have unchanged : ∀ place own, Stands (history ++ [.declare name schema]) place other own ↔
          Stands history place other own := by
        intro place own
        rw [stands_declare_iff]
        simp only [same, false_and, and_false, or_false]
      rw [Entries.get?_insert_of_ne fields schema same, h.schemas]
      simp only [LastStands, unchanged]
  order := by
    have kept : fields.keys.Pairwise fun a b => ∃ i j, i < j ∧
        FirstStands (history ++ [.declare name schema]) i a ∧
        FirstStands (history ++ [.declare name schema]) j b := by
      refine h.order.imp fun {a b} => ?_
      rintro ⟨i, j, before, first, second⟩
      exact ⟨i, j, before, firstStands_declare first, firstStands_declare second⟩
    by_cases there : name ∈ fields.keys
    · rw [Entries.keys_insert_of_mem schema there]
      exact kept
    · -- A new name comes last, and so does its first declaration.
      rw [Entries.insert_of_not_mem schema there, Entries.keys, List.map_append, List.map_singleton,
        List.pairwise_append]
      refine ⟨kept, List.pairwise_singleton _ _, fun a member b last => ?_⟩
      rw [List.mem_singleton.mp last]
      obtain ⟨place, own, stands⟩ := (h.names a).mp member
      obtain ⟨i, first⟩ := exists_firstStands stands
      obtain ⟨_, earlier⟩ := first.1
      refine ⟨i, history.length, earlier.lt_length, firstStands_declare first,
        ⟨schema, stands_declare_iff.mpr (.inr ⟨rfl, rfl, rfl⟩)⟩, fun further own there' => ?_⟩
      rcases stands_declare_iff.mp there' with before | ⟨rfl, _⟩
      · exact absurd ((h.names name).mpr ⟨further, own, before⟩) there
      · exact Nat.le_refl _

theorem Follows.select {history : List (Deed α)} {fields : Entries α} (h : Follows history fields)
    (stays : String → Bool) :
    Follows (history ++ [.select stays]) (fields.filter fun f => stays f.1) where
  distinct := by
    rw [Entries.keys_filter]
    exact h.distinct.filter _
  names name := by
    rw [Entries.keys_filter, List.mem_filter, h.names]
    simp only [stands_select_iff, exists_and_right]
  schemas name schema := by
    rw [Entries.get?_filter]
    by_cases kept : stays name = true
    · rw [if_pos kept, h.schemas]
      simp only [LastStands, stands_select_iff, kept, and_true]
    · rw [if_neg kept]
      constructor
      · exact nofun
      · rintro ⟨place, stands, _⟩
        exact absurd (stands_select_iff.mp stands).2 kept
  order := by
    rw [Entries.keys_filter]
    refine (h.order.filter stays).imp_of_mem fun {a b} first second => ?_
    rintro ⟨i, j, before, ofFirst, ofSecond⟩
    exact ⟨i, j, before, firstStands_select (List.mem_filter.mp first).2 ofFirst,
      firstStands_select (List.mem_filter.mp second).2 ofSecond⟩

theorem Follows.act {history : List (Deed α)} {fields : Entries α} (h : Follows history fields)
    (d : Deed α) : Follows (history ++ [d]) (d.act fields) := by
  cases d with
  | declare name schema => exact h.declare name schema
  | select stays => exact h.select stays

theorem Follows.run {history : List (Deed α)} {fields : Entries α} (h : Follows history fields)
    (deeds : List (Deed α)) : Follows (history ++ deeds) (deeds.foldl Deed.act fields) := by
  induction deeds generalizing history fields with
  | nil =>
    rw [List.append_nil]
    exact h
  | cons d rest ih =>
    rw [List.append_cons]
    exact ih (h.act d)

end Deed

/-! ## Calls -/

/-- The calls that change the fields of a shape. -/
inductive FieldCall (σ : Type) where
  | field {τ : OutputType} (name : String) (schema : Schema σ τ)
  | optionalField {τ : OutputType} (name : String) (schema : Schema σ τ)
  | defaultField {τ : OutputType} (name : String) (schema : Schema σ τ) (fallback : Output τ)
  | pick (names : List String)
  | without (names : List String)
  | extend (other : Shape (Schema σ .value))

variable {σ : Type}

namespace FieldCall

def apply (shape : Shape (Schema σ .value)) : FieldCall σ → Shape (Schema σ .value)
  | field name schema => shape.field name schema
  | optionalField name schema => shape.optionalField name schema
  | defaultField name schema fallback => shape.defaultField name schema fallback
  | pick names => shape.pick names
  | without names => shape.without names
  | extend other => shape.extend other

def deeds : FieldCall σ → List (Deed (Schema σ .value))
  | field name schema => [.declare name schema.erased]
  | optionalField name schema => [.declare name (.optional schema.erased)]
  | defaultField name schema fallback =>
    [.declare name (Schema.withDefault (pure fallback) schema).erased]
  | pick names => [.select names.contains]
  | without names => [.select (!names.contains ·)]
  | extend other => other.fields.map fun f => .declare f.1 f.2

theorem apply_eq (shape : Shape (Schema σ .value)) (c : FieldCall σ) :
    c.apply shape = { shape with fields := c.deeds.foldl Deed.act shape.fields } := by
  cases c with
  | field | optionalField | defaultField | pick | without => rfl
  | extend other =>
    rw [deeds, List.foldl_map]
    rfl

theorem foldl_apply_eq (shape : Shape (Schema σ .value)) (calls : List (FieldCall σ)) :
    calls.foldl apply shape =
      { shape with fields := (calls.flatMap deeds).foldl Deed.act shape.fields } := by
  induction calls generalizing shape with
  | nil => rfl
  | cons c rest ih => rw [List.foldl_cons, ih, apply_eq, List.flatMap_cons, List.foldl_append]

end FieldCall

namespace Shape

/-- The deeds of calls on a shape, whose own fields were declared before. -/
def history (shape : Shape (Schema σ .value)) (calls : List (FieldCall σ)) :
    List (Deed (Schema σ .value)) :=
  shape.fields.map (fun f => .declare f.1 f.2) ++ calls.flatMap FieldCall.deeds

theorem follows_history {shape : Shape (Schema σ .value)} (distinct : shape.names.Nodup)
    (calls : List (FieldCall σ)) :
    Deed.Follows (shape.history calls) (calls.foldl FieldCall.apply shape).fields := by
  have own := Deed.follows_nil.run (shape.fields.map fun f => Deed.declare f.1 f.2)
  have declared : (shape.fields.map fun f => Deed.declare f.1 f.2).foldl Deed.act [] =
      shape.fields := by
    rw [List.foldl_map]
    exact Entries.merge_eq_append distinct fun _ _ => List.not_mem_nil
  rw [declared] at own
  rw [FieldCall.foldl_apply_eq]
  exact own.run (calls.flatMap FieldCall.deeds)

/-! ## Laws -/

variable {α : Type}

theorem extend_extend (shape : Shape α) {other : Shape α} (distinct : other.names.Nodup)
    (third : Shape α) :
    (shape.extend other).extend third = shape.extend (other.extend third) := by
  have merged := Entries.merge_merge shape.fields distinct third.fields
  rw [extend, extend, extend, extend, merged]

theorem pick_extend (shape other : Shape α) (names : List String) :
    (shape.extend other).pick names = (shape.pick names).extend (other.pick names) :=
  congrArg (Shape.mk · shape.unknown shape.kindMessage) (Entries.filter_merge names.contains _ _)

theorem without_extend (shape other : Shape α) (names : List String) :
    (shape.extend other).without names = (shape.without names).extend (other.without names) :=
  congrArg (Shape.mk · shape.unknown shape.kindMessage)
    (Entries.filter_merge (!names.contains ·) _ _)

theorem pick_pick (shape : Shape α) (names others : List String) :
    (shape.pick names).pick others = shape.pick (names ∩ others) := by
  have both : ∀ name,
      (others.contains name && names.contains name) = (names ∩ others).contains name := by
    intro name
    rw [Bool.eq_iff_iff, Bool.and_eq_true]
    simp only [List.contains_eq_mem, decide_eq_true_eq, List.mem_inter_iff]
    exact and_comm
  simp only [pick, Entries.restrict, List.filter_filter, both]

theorem without_eq_pick (shape : Shape α) (names : List String) :
    shape.without names = shape.pick (shape.names.filter (· ∉ names)) := by
  have kept : Entries.without shape.fields names =
      Entries.restrict shape.fields (shape.names.filter (· ∉ names)) := by
    refine List.filter_congr fun f member => ?_
    have declared : f.1 ∈ shape.names := List.mem_map_of_mem member
    simp [declared]
  rw [without, pick, kept]

theorem extend_self {shape : Shape α} (distinct : shape.names.Nodup) :
    shape.extend shape = shape := by
  have merged := Entries.merge_self distinct
  rw [extend, merged]

/-- After any calls on a shape the names of its fields are distinct; each has the schema of its last
declaration since it was last removed, and stands in the order of the first.  What becomes of other
keys, and the message, are those of the shape itself.

Extending is associative, and extending a shape by itself changes nothing.  Picking and leaving out
go through an extension.  To pick twice is to pick the common names, and to leave out names is to
pick the others. -/
theorem fields_follow_calls (shape other third : Shape (Schema σ .value))
    (distinct : shape.names.Nodup) (distinct' : other.names.Nodup) (names others : List String) :
    (∀ (calls : List (FieldCall σ)) (built : Shape (Schema σ .value)),
      calls.foldl FieldCall.apply shape = built →
        Deed.Follows (shape.history calls) built.fields ∧ built.unknown = shape.unknown ∧
          built.kindMessage = shape.kindMessage) ∧
    (shape.extend other).extend third = shape.extend (other.extend third) ∧
    (shape.extend other).pick names = (shape.pick names).extend (other.pick names) ∧
    (shape.extend other).without names = (shape.without names).extend (other.without names) ∧
    (shape.pick names).pick others = shape.pick (names ∩ others) ∧
    shape.without names = shape.pick (shape.names.filter (· ∉ names)) ∧
    shape.extend shape = shape := by
  refine ⟨?_, extend_extend shape distinct' third, pick_extend shape other names,
    without_extend shape other names, pick_pick shape names others, without_eq_pick shape names,
    extend_self distinct⟩
  rintro calls _ rfl
  refine ⟨follows_history distinct calls, ?_, ?_⟩
  · rw [FieldCall.foldl_apply_eq]
  · rw [FieldCall.foldl_apply_eq]

/-- A form with a name and an age, and nothing else. -/
def form : Shape (Schema Unit .value) :=
  ⟨[("name", .erased (.text .empty)), ("age", .erased (.number .empty))], .deny, some "no form"⟩

def address : Shape (Schema Unit .value) :=
  ⟨[("street", .erased (.text .empty)), ("name", .erased (.number .empty))], .strip, none⟩

/-- The name is declared anew, and the age is removed before that. -/
def formCalls : List (FieldCall Unit) :=
  [.field "name" (.number .empty), .optionalField "note" (.text .empty), .without ["age"],
    .field "age" (.boolean none)]

/-- The name keeps its place and the age loses it. -/
theorem form_fields_follow_calls :
    form.names.Nodup ∧ address.names.Nodup ∧
      (formCalls.foldl FieldCall.apply form).names = ["name", "note", "age"] ∧
      (∃ place, Deed.LastStands (form.history formCalls) place "name" (.erased (.number .empty))) ∧
      (∃ i j, i < j ∧ Deed.FirstStands (form.history formCalls) i "note" ∧
        Deed.FirstStands (form.history formCalls) j "age") ∧
      (formCalls.foldl FieldCall.apply form).kindMessage = some "no form" ∧
      (form.extend address).pick ["name"] =
        (form.pick ["name"]).extend (address.pick ["name"]) := by
  have distinct : form.names.Nodup := by decide
  have distinct' : address.names.Nodup := by decide
  obtain ⟨ofCalls, _, picked, _⟩ :=
    fields_follow_calls form address form distinct distinct' ["name"] []
  obtain ⟨follows, _, message⟩ := ofCalls formCalls _ rfl
  have order : ["name", "note", "age"].Pairwise _ := follows.order
  simp only [List.pairwise_cons] at order
  exact ⟨distinct, distinct', rfl, (follows.schemas "name" _).mp rfl,
    order.2.1 "age" (List.mem_singleton_self _), message, picked⟩

end Shape

end Conform
