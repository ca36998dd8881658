import Conform.Proofs.Run.TwoRuns
import Conform.Proofs.Validator.Assembly
import Conform.Proofs.Validator.Reports
import Conform.Proofs.Value.Difference

/-!
# Issues away from a change

A validator is steady when its outcome does not depend on the state.  It is local when two values
that differ at one place get the same issues apart from that place, that is at the paths that lead
neither towards it nor into it.  A part that is the same in both values is judged twice the same by
a steady validator, and the part that differs by induction, so lists and objects of steady and local
validators are local.
-/

set_option autoImplicit false

namespace Conform

variable {σ α β : Type}

/-! ## Issues apart from a place -/

/-- Neither of the paths extends the other one. -/
def Path.Apart (p q : Path) : Prop :=
  ¬ p.segments <+: q.segments ∧ ¬ q.segments <+: p.segments

instance (p q : Path) : Decidable (p.Apart q) := inferInstanceAs (Decidable (_ ∧ _))

theorem Path.not_apart_above (p q : Path) : ¬ p.Apart (p ++ q) :=
  fun apart => apart.1 (List.prefix_append p.segments q.segments)

theorem Path.not_apart_below (p q : Path) : ¬ (p ++ q).Apart p :=
  fun apart => apart.2 (List.prefix_append p.segments q.segments)

/-- The issues apart from a place, in their order. -/
def Issue.apartFrom (r : Path) (es : List Issue) : List Issue :=
  es.filter fun e => e.path.Apart r

open Issue

variable {r : Path}

theorem apartFrom_append (es fs : List Issue) :
    apartFrom r (es ++ fs) = apartFrom r es ++ apartFrom r fs := List.filter_append es fs

theorem apartFrom_eq_nil {es : List Issue} (h : ∀ e ∈ es, ¬ e.path.Apart r) :
    apartFrom r es = [] := by
  rw [apartFrom, List.filter_eq_nil_iff]
  intro e member
  simp [h e member]

namespace Outcome

/-- The two outcomes have the same issues apart from a place; a success has none. -/
def AgreeApart (r : Path) (o o' : Outcome α) : Prop := apartFrom r o.issues = apartFrom r o'.issues

theorem agreeApart_of_eq {o o' : Outcome α} (h : o = o') : AgreeApart r o o' := by
  rw [h]
  rfl

theorem agreeApart_settle {a b : α} {es fs : List Issue} (h : apartFrom r es = apartFrom r fs) :
    AgreeApart r (settle a es) (settle b fs) := by
  rw [AgreeApart, issues_settle, issues_settle]
  exact h

theorem AgreeApart.map {o o' : Outcome α} (h : AgreeApart r o o') (f : α → β) :
    AgreeApart r (o.map f) (o'.map f) := by
  rw [AgreeApart, issues_map, issues_map]
  exact h

theorem agreeApart_fail {e f : Issue} (he : ¬ e.path.Apart r) (hf : ¬ f.path.Apart r) :
    AgreeApart r (fail e : Outcome α) (fail f) :=
  (apartFrom_eq_nil (List.forall_mem_singleton.mpr he)).trans
    (apartFrom_eq_nil (List.forall_mem_singleton.mpr hf)).symm

theorem apartFrom_allIssues {os os' : List (Outcome α)} (h : List.Forall₂ (AgreeApart r) os os') :
    apartFrom r (allIssues os) = apartFrom r (allIssues os') := by
  induction h with
  | nil => rfl
  | cons first _ ih =>
    rw [allIssues_cons, allIssues_cons, apartFrom_append, apartFrom_append, first, ih]

end Outcome

open Outcome Run

namespace Validator

def Steady (w : Validator σ α) : Prop := ∀ v p, (w v p).Steady

/-- Whatever becomes of a part of the value, the issues apart from it stay. -/
def LocalWithin (w : Validator σ α) : Prop :=
  ∀ seg rest x y, Value.DifferOnlyAt (seg :: rest) x y → ∀ p : Path,
    (w x p).Related (AgreeApart (p ++ ⟨seg :: rest⟩)) (w y p)

/-- Whatever becomes of the value or of a part of it, the issues apart from it stay. -/
def Local (w : Validator σ α) : Prop :=
  ∀ q x y, Value.DifferOnlyAt q x y → ∀ p : Path, (w x p).Related (AgreeApart (p ++ ⟨q⟩)) (w y p)

/-! ## Values without parts -/

theorem ofOutcome_steady (f : Value → Path → Outcome α) : (ofOutcome f : Validator σ α).Steady :=
  fun v p => steady_pure (f v p)

/-- Issues of a list or an object itself stand on the way to its parts. -/
theorem ofOutcome_localWithin {f : Value → Path → Outcome α}
    (lists : ∀ items p, ∀ e ∈ (f (.list items) p).issues, e.path = p)
    (objects : ∀ entries p, ∀ e ∈ (f (.object entries) p).issues, e.path = p) :
    (ofOutcome f : Validator σ α).LocalWithin := by
  intro seg rest x y differ p
  have none : ∀ o : Outcome α, (∀ e ∈ o.issues, e.path = p) →
      apartFrom (p ++ ⟨seg :: rest⟩) o.issues = [] := by
    intro o own
    refine apartFrom_eq_nil fun e member => ?_
    rw [own e member]
    exact p.not_apart_above ⟨seg :: rest⟩
  refine related_pure ?_
  cases differ with
  | item => exact (none _ (lists _ p)).trans (none _ (lists _ p)).symm
  | entry => exact (none _ (objects _ p)).trans (none _ (objects _ p)).symm

/-- What rejects lists and objects with one issue of their own is the same for all of them. -/
theorem LocalWithin.of_rejected {f : Value → Path → Outcome α} (reject : Value → Path → Issue)
    (place : ∀ v p, (reject v p).path = p)
    (lists : ∀ items p, f (.list items) p = .fail (reject (.list items) p))
    (objects : ∀ entries p, f (.object entries) p = .fail (reject (.object entries) p)) :
    (ofOutcome f : Validator σ α).LocalWithin := by
  refine ofOutcome_localWithin (fun items p e member => ?_) fun entries p e member => ?_
  · rw [lists] at member
    rw [List.mem_singleton.mp member]
    exact place _ p
  · rw [objects] at member
    rw [List.mem_singleton.mp member]
    exact place _ p

theorem wrongKind_agreeApart (expected : String) (v w : Value) (message : Option String)
    (p q : Path) :
    AgreeApart (p ++ q) (fail (.wrongKind p expected v message) : Outcome α)
      (fail (.wrongKind p expected w message)) :=
  agreeApart_fail (p.not_apart_above q) (p.not_apart_above q)

/-! ## Parts -/

variable {seg : Segment} {rest : List Segment}

theorem part_agrees {w : Validator σ α} (steady : w.Steady) (loc : w.Local) {part : Segment}
    {x y : Value} (h : Value.SamePart seg rest part x y) (p : Path) :
    (w x (p.push part)).Related (AgreeApart (p ++ ⟨seg :: rest⟩)) (w y (p.push part)) := by
  rcases h with rfl | ⟨rfl, differ⟩
  · exact (steady x (p.push part)).imp fun _ _ same => agreeApart_of_eq same
  · rw [Path.append_cons]
    exact loc rest x y differ (p.push part)

theorem gather_steady {besides : List Issue} {parts : List (Run σ (Outcome α))}
    (h : ∀ r ∈ parts, r.Steady) : (gather besides parts).Steady :=
  (Steady.sequence h).bind fun os => steady_pure (Outcome.gather besides os)

theorem gather_agrees {besides besides' : List Issue} {parts parts' : List (Run σ (Outcome α))}
    (own : apartFrom r besides = apartFrom r besides')
    (h : List.Forall₂ (Related (AgreeApart r)) parts parts') :
    (gather besides parts).Related (AgreeApart r) (gather besides' parts') := by
  refine related_bind (related_sequence h) fun os os' related => related_pure ?_
  refine agreeApart_settle ?_
  rw [apartFrom_append, apartFrom_append, own, apartFrom_allIssues related]

theorem list_steady (rules : LengthRules) {item : Validator σ α} (h : item.Steady) :
    (list rules item).Steady := by
  intro v p
  rw [list]
  cases v.list? with
  | none => exact steady_pure _
  | some items =>
    refine gather_steady fun run member => ?_
    obtain ⟨j, x, _, rfl⟩ := mem_itemsFrom member
    exact h x _

theorem itemsFrom_agree {item : Validator σ α} (steady : item.Steady) (loc : item.Local)
    {v w : Value} (differ : Value.DifferOnlyAt rest v w) (before after : List Value) (p : Path)
    (i : Nat) :
    List.Forall₂ (Related (AgreeApart (p ++ ⟨.index (i + before.length) :: rest⟩)))
      (itemsFrom item p i (before ++ v :: after)) (itemsFrom item p i (before ++ w :: after)) := by
  induction before generalizing i with
  | nil =>
    refine .cons (part_agrees steady loc (.inr ⟨rfl, differ⟩) p) ?_
    refine List.forall₂_same.mpr fun run member => ?_
    obtain ⟨j, x, _, rfl⟩ := mem_itemsFrom member
    exact part_agrees steady loc (Value.samePart_refl _ x) p
  | cons x before ih =>
    have further := ih (i + 1)
    rw [show i + 1 + before.length = i + (x :: before).length by simp; omega] at further
    exact .cons (part_agrees steady loc (Value.samePart_refl _ x) p) further

theorem list_localWithin (rules : LengthRules) {item : Validator σ α} (steady : item.Steady)
    (loc : item.Local) : (list rules item).LocalWithin := by
  intro seg rest x y differ p
  cases differ with
  | entry => exact related_pure (wrongKind_agreeApart "array" _ _ rules.kindMessage p _)
  | @item _ v w before after h =>
    have parts := itemsFrom_agree steady loc h before after p 0
    rw [Nat.zero_add] at parts
    refine gather_agrees ?_ parts
    rw [List.length_append, List.length_append, List.length_cons, List.length_cons]

theorem tuple_steady (kindMessage : Option String) {ws : List (Validator σ α)}
    (h : ∀ w ∈ ws, w.Steady) : (tuple kindMessage ws).Steady := by
  intro v p
  rw [tuple]
  cases v.list? with
  | none => exact steady_pure _
  | some items =>
    refine gather_steady fun run member => ?_
    obtain ⟨j, w, inPositions, rfl⟩ := mem_positionsFrom member
    exact h w inPositions _ _

theorem positionsFrom_agree {ws : List (Validator σ α)} (steady : ∀ w ∈ ws, w.Steady)
    (loc : ∀ w ∈ ws, w.Local) {x y : Value}
    (same : ∀ j, Value.SamePart seg rest (.index j) (x.item j) (y.item j)) (p : Path) (i : Nat) :
    List.Forall₂ (Related (AgreeApart (p ++ ⟨seg :: rest⟩))) (positionsFrom x p i ws)
      (positionsFrom y p i ws) := by
  induction ws generalizing i with
  | nil => exact .nil
  | cons w ws ih =>
    rw [List.forall_mem_cons] at steady loc
    exact .cons (part_agrees steady.1 loc.1 (same i) p) (ih steady.2 loc.2 (i + 1))

theorem tuple_localWithin (kindMessage : Option String) {ws : List (Validator σ α)}
    (steady : ∀ w ∈ ws, w.Steady) (loc : ∀ w ∈ ws, w.Local) :
    (tuple kindMessage ws).LocalWithin := by
  intro seg rest x y differ p
  cases differ with
  | entry => exact related_pure (wrongKind_agreeApart "array" _ _ kindMessage p _)
  | @item _ v w before after h =>
    exact gather_agrees rfl
      (positionsFrom_agree steady loc (Value.samePart_item before after h) p 0)

/-! ## Objects -/

theorem field_steady {w : Validator σ Value} (h : w.Steady) (v : Value) (p : Path) (name : String) :
    (field v p name w).Steady :=
  (h _ _).bind fun o => steady_pure (underKey name o)

theorem unknownEntry_steady {unknown : UnknownKeys (Validator σ Value)}
    (h : unknown.Holds Steady) (p : Path) (e : String × Value) :
    ∀ r ∈ unknownEntry unknown p e, r.Steady := by
  cases unknown with
  | strip => exact nofun
  | allow => exact List.forall_mem_singleton.mpr (steady_pure _)
  | deny => exact List.forall_mem_singleton.mpr (steady_pure _)
  | validate w =>
    exact List.forall_mem_singleton.mpr ((h _ _).bind fun o => steady_pure (underKey e.1 o))

theorem object_steady {shape : Shape (Validator σ Value)} (fields : ∀ f ∈ shape.fields, f.2.Steady)
    (unknown : shape.unknown.Holds Steady) : (object shape).Steady := by
  intro v p
  rw [object]
  cases v.object? with
  | none => exact steady_pure _
  | some entries =>
    have declared : ∀ r ∈ shape.fields.map fun f => field v p f.1 f.2, r.Steady := by
      intro run member
      obtain ⟨f, there, rfl⟩ := List.mem_map.mp member
      exact field_steady (fields f there) v p f.1
    have others : ∀ r ∈ (undeclared shape.fields entries).flatMap (unknownEntry shape.unknown p),
        r.Steady := by
      intro run member
      obtain ⟨e, _, ofEntry⟩ := List.mem_flatMap.mp member
      exact unknownEntry_steady unknown p e run ofEntry
    refine (Steady.sequence declared).bind fun os => ?_
    exact (Steady.sequence others).bind fun us => steady_pure _

theorem unknownEntry_agrees {unknown : UnknownKeys (Validator σ Value)}
    (steady : unknown.Holds Steady) (loc : unknown.Holds Local) {key : String}
    {e f : String × Value}
    (names : f.1 = e.1) (same : Value.SamePart (.field key) rest (.field e.1) e.2 f.2) (p : Path) :
    List.Forall₂ (Related (AgreeApart (p ++ ⟨.field key :: rest⟩))) (unknownEntry unknown p e)
      (unknownEntry unknown p f) := by
  obtain ⟨name, x⟩ := e
  obtain ⟨name', y⟩ := f
  dsimp only at names same
  subst names
  cases unknown with
  | strip => exact .nil
  | allow => exact .cons (related_pure rfl) .nil
  | deny =>
    refine .cons (related_pure ?_) .nil
    rcases same with rfl | ⟨here, _⟩
    · exact agreeApart_of_eq rfl
    · rw [Path.append_cons, ← here]
      exact agreeApart_fail (Path.not_apart_above _ _) (Path.not_apart_above _ _)
  | validate w =>
    refine .cons ?_ .nil
    refine related_bind (part_agrees steady loc same p) fun o o' related => ?_
    exact related_pure (related.map fun v => (name', v))

theorem unknownEntries_agree {β : Type} (fields : List (String × β))
    {unknown : UnknownKeys (Validator σ Value)} (steady : unknown.Holds Steady)
    (loc : unknown.Holds Local) {key : String} {entries entries' : Entries Value}
    (same : List.Forall₂
      (fun e f => f.1 = e.1 ∧ Value.SamePart (.field key) rest (.field e.1) e.2 f.2)
      entries entries') (p : Path) :
    List.Forall₂ (Related (AgreeApart (p ++ ⟨.field key :: rest⟩)))
      ((undeclared fields entries).flatMap (unknownEntry unknown p))
      ((undeclared fields entries').flatMap (unknownEntry unknown p)) := by
  refine List.rel_flatMap (List.rel_filter ?_ same) ?_
  · intro e f related
    simp only [related.1]
  · intro e f related
    exact unknownEntry_agrees steady loc related.1 related.2 p

theorem object_localWithin {shape : Shape (Validator σ Value)}
    (fieldsSteady : ∀ f ∈ shape.fields, f.2.Steady) (fieldsLocal : ∀ f ∈ shape.fields, f.2.Local)
    (unknownSteady : shape.unknown.Holds Steady) (unknownLocal : shape.unknown.Holds Local) :
    (object shape).LocalWithin := by
  intro seg rest x y differ p
  cases differ with
  | item => exact related_pure (wrongKind_agreeApart "object" _ _ shape.kindMessage p _)
  | @entry key _ v w before after first h =>
    have declared : List.Forall₂ (Related (AgreeApart (p ++ ⟨.field key :: rest⟩)))
        (shape.fields.map fun f => field (.object (before ++ (key, v) :: after)) p f.1 f.2)
        (shape.fields.map fun f => field (.object (before ++ (key, w) :: after)) p f.1 f.2) := by
      rw [List.forall₂_map_left_iff, List.forall₂_map_right_iff]
      refine List.forall₂_same.mpr fun f there => ?_
      have part := part_agrees (fieldsSteady f there) (fieldsLocal f there)
        (Value.samePart_get after first h f.1) p
      exact related_bind part fun o o' related => related_pure (related.map fun v => (f.1, v))
    have others := unknownEntries_agree shape.fields unknownSteady unknownLocal
      (Value.samePart_entries key before after h) p
    refine related_bind (related_sequence declared) fun os os' inFields => ?_
    refine related_bind (related_sequence others) fun us us' inOthers => related_pure ?_
    refine agreeApart_settle ?_
    rw [apartFrom_append, apartFrom_append, apartFrom_allIssues inFields,
      apartFrom_allIssues inOthers]

theorem attempt_steady {ws : List (Validator σ α)} (h : ∀ w ∈ ws, w.Steady) (v : Value) (p : Path)
    (i : Nat) : (attempt v p i ws).Steady := by
  induction ws generalizing i with
  | nil => exact steady_pure _
  | cons w rest ih =>
    rw [List.forall_mem_cons] at h
    refine (h.1 v p).bind fun o => ?_
    cases o with
    | success a => exact steady_pure _
    | failure es =>
      refine (ih h.2 (i + 1)).bind fun further => ?_
      cases further with
      | accepted | rejected => exact steady_pure _

theorem union_steady (message : Option String) {ws : List (Validator σ α)}
    (h : ∀ w ∈ ws, w.Steady) : (union message ws).Steady := by
  intro v p
  refine (attempt_steady h v p 0).bind fun answer => ?_
  cases answer with
  | accepted i a => exact (steady_tell _).bind fun _ => steady_pure _
  | rejected issues => exact steady_pure _

theorem intersection_steady (kindMessage : Option String)
    {components : List (Validator σ (Entries α))} (h : ∀ w ∈ components, w.Steady) :
    (intersection kindMessage components).Steady := by
  intro v p
  rw [intersection]
  cases v.object? with
  | none => exact steady_pure _
  | some entries =>
    refine Steady.bind (Steady.sequence ?_) fun os => steady_pure _
    intro run member
    obtain ⟨w, there, rfl⟩ := List.mem_map.mp member
    exact h w there v p

theorem intersection_localWithin (kindMessage : Option String)
    {components : List (Validator σ (Entries α))} (h : ∀ w ∈ components, w.LocalWithin) :
    (intersection kindMessage components).LocalWithin := by
  intro seg rest x y differ p
  have each : List.Forall₂ (Related (AgreeApart (p ++ ⟨seg :: rest⟩)))
      (components.map fun component => component x p)
      (components.map fun component => component y p) := by
    rw [List.forall₂_map_left_iff, List.forall₂_map_right_iff]
    exact List.forall₂_same.mpr fun w there => h w there seg rest x y differ p
  cases differ with
  | item => exact related_pure (wrongKind_agreeApart "object" _ _ kindMessage p _)
  | entry =>
    refine related_bind (related_sequence each) fun os os' related => related_pure ?_
    exact agreeApart_settle (apartFrom_allIssues related)

/-! ## Records -/

/-- A key that is accepted is the key of the output. -/
def KeepsKeys (w : Validator σ String) : Prop :=
  ∀ key p s key', (w (.text key) p s).result = .success key' → key' = key

/-- Answers for entries with one key, which differ at most where the key is the given name. -/
structure EntryAgrees (p : Path) (name : String) (rest : List Segment) (e e' : RecordEntry α) :
    Prop where
  path : e'.path = e.path
  key : e'.key = e.key
  kept : ∀ key, e.key = .success key → e.path = p.field key
  value : e'.value = e.value ∨ e.path = p.field name
  agree : AgreeApart (p ++ ⟨.field name :: rest⟩) e.value e'.value

/-- Two outputs so far that have the same keys, but perhaps for the given one. -/
def SameKeysBut (name : String) (done done' : Entries α) : Prop :=
  ∀ key, key ≠ name → Entries.contains done key = Entries.contains done' key

/-- What an entry under the name comes to depends on the output so far, but not apart from it. -/
theorem assembleEntry_under_name (p : Path) (name : String) (rest : List Segment)
    (value : Outcome α)
    (done : Entries α) :
    apartFrom (p ++ ⟨.field name :: rest⟩)
        (assembleEntry done ⟨p.field name, .success name, value⟩).2 =
      apartFrom (p ++ ⟨.field name :: rest⟩) value.issues ∧
    SameKeysBut name (assembleEntry done ⟨p.field name, .success name, value⟩).1 done := by
  rcases assembleEntry_cases done ⟨p.field name, .success name, value⟩ with
    ⟨_, step⟩ | ⟨_, _, some, _, step⟩ | ⟨key, a, some, _, step⟩
  · rw [step]
    exact ⟨rfl, fun _ _ => rfl⟩
  · have none : value.issues = [] := issues_of_accepted some
    rw [step, none]
    refine ⟨apartFrom_eq_nil (List.forall_mem_singleton.mpr ?_), fun _ _ => rfl⟩
    rw [Path.append_cons]
    exact Path.not_apart_above _ _
  · have none : value.issues = [] := issues_of_accepted some
    obtain ⟨⟨⟩, _⟩ := accepted?_eq_some_iff.mp some
    rw [step, none]
    refine ⟨rfl, fun key other => ?_⟩
    simp [Entries.contains, Ne.symm other]

/-- An entry that is not accepted under the name comes to the same after both outputs. -/
theorem assembleEntry_under_other {name : String} (e : RecordEntry α)
    (other : ∀ key, e.key = .success key → key ≠ name) {done done' : Entries α}
    (same : SameKeysBut name done done') :
    (assembleEntry done e).2 = (assembleEntry done' e).2 ∧
      SameKeysBut name (assembleEntry done e).1 (assembleEntry done' e).1 := by
  rw [assembleEntry, assembleEntry]
  cases answer : e.accepted? with
  | none => exact ⟨rfl, same⟩
  | some out =>
    obtain ⟨key, a⟩ := out
    have taken := same key (other key (accepted?_eq_some_iff.mp answer).1)
    dsimp only
    rw [taken]
    by_cases there : Entries.contains done' key
    · rw [if_pos there, if_pos there]
      exact ⟨rfl, same⟩
    · rw [if_neg there, if_neg there]
      refine ⟨rfl, fun further ne => ?_⟩
      have before := same further ne
      simp only [Entries.contains] at before
      simp [Entries.contains, before]

theorem assembleEntry_agrees {p : Path} {name : String} {e e' : RecordEntry α}
    (h : EntryAgrees p name rest e e') {done done' : Entries α}
    (same : SameKeysBut name done done') :
    apartFrom (p ++ ⟨.field name :: rest⟩) (assembleEntry done e).2 =
        apartFrom (p ++ ⟨.field name :: rest⟩) (assembleEntry done' e').2 ∧
      SameKeysBut name (assembleEntry done e).1 (assembleEntry done' e').1 := by
  obtain ⟨path, key, value⟩ := e
  obtain ⟨path', key', value'⟩ := e'
  obtain ⟨samePath, sameKey, kept, values, agree⟩ := h
  dsimp only at samePath sameKey kept values agree
  subst samePath sameKey
  cases key' with
  | failure k =>
    refine ⟨?_, same⟩
    simp only [assembleEntry, RecordEntry.accepted?, RecordEntry.issues]
    rw [apartFrom_append, apartFrom_append, agree]
  | success key =>
    obtain rfl := kept key rfl
    -- Under the name itself one entry may be accepted, the other one rejected or a duplicate.
    by_cases here : key = name
    · subst here
      obtain ⟨issues, keys⟩ := assembleEntry_under_name p key rest value done
      obtain ⟨issues', keys'⟩ := assembleEntry_under_name p key rest value' done'
      refine ⟨issues.trans (agree.trans issues'.symm), fun other ne => ?_⟩
      exact (keys other ne).trans ((same other ne).trans (keys' other ne).symm)
    · have sameValue : value' = value :=
        values.resolve_right fun place => here (by simpa [Path.field, Path.push] using place)
      subst sameValue
      obtain ⟨issues, keys⟩ := assembleEntry_under_other ⟨p.field key, .success key, value'⟩
        (by rintro k ⟨⟩; exact here) same
      exact ⟨congrArg _ issues, keys⟩

theorem assemble_agrees {p : Path} {name : String} {es es' : List (RecordEntry α)}
    (h : List.Forall₂ (EntryAgrees p name rest) es es') {done done' : Entries α}
    (same : SameKeysBut name done done') :
    apartFrom (p ++ ⟨.field name :: rest⟩) (assemble done es).2 =
      apartFrom (p ++ ⟨.field name :: rest⟩) (assemble done' es').2 := by
  induction h generalizing done done' with
  | nil => rfl
  | cons first _ ih =>
    obtain ⟨issues, keys⟩ := assembleEntry_agrees first same
    rw [assemble_cons, assemble_cons, apartFrom_append, apartFrom_append, issues, ih keys]

theorem recordEntry_steady {key : Validator σ String} {value : Validator σ α} (keys : key.Steady)
    (values : value.Steady) (p : Path) (e : String × Value) : (recordEntry key value p e).Steady :=
  (keys _ _).bind fun _ => (values _ _).bind fun _ => steady_pure _

theorem record_steady (kindMessage : Option String) {key : Validator σ String}
    {value : Validator σ α} (keys : key.Steady) (values : value.Steady) :
    (record kindMessage key value).Steady := by
  intro v p
  rw [record]
  cases v.object? with
  | none => exact steady_pure _
  | some entries =>
    refine Steady.bind (Steady.sequence ?_) fun os => steady_pure _
    intro run member
    obtain ⟨e, _, rfl⟩ := List.mem_map.mp member
    exact recordEntry_steady keys values p e

theorem recordEntry_agrees {key : Validator σ String} {value : Validator σ α} (keys : key.Steady)
    (kept : key.KeepsKeys) (values : value.Steady) (loc : value.Local) {name : String}
    {e f : String × Value} (names : f.1 = e.1)
    (same : Value.SamePart (.field name) rest (.field e.1) e.2 f.2) (p : Path) :
    (recordEntry key value p e).Related (EntryAgrees p name rest) (recordEntry key value p f) := by
  obtain ⟨k, x⟩ := e
  obtain ⟨k', y⟩ := f
  dsimp only at names same
  subst names
  have keyRuns : (key (.text k') (p.field k')).Related
      (fun o o' => o' = o ∧ ∀ key', o = .success key' → key' = k') (key (.text k') (p.field k')) :=
    fun s t => ⟨keys _ _ t s, fun key' accepted => kept k' _ s key' accepted⟩
  have valueRuns : (value x (p.field k')).Related
      (fun o o' => (o' = o ∨ k' = name) ∧ AgreeApart (p ++ ⟨.field name :: rest⟩) o o')
      (value y (p.field k')) := by
    intro s t
    refine ⟨?_, part_agrees values loc same p s t⟩
    rcases same with rfl | ⟨here, _⟩
    · exact .inl (values x (p.field k') t s)
    · exact .inr (Segment.field.inj here)
  refine related_bind keyRuns ?_
  rintro o _ ⟨rfl, unchanged⟩
  refine related_bind valueRuns ?_
  rintro a a' ⟨sameValue, agree⟩
  refine related_pure ⟨rfl, rfl, fun key' accepted => ?_, sameValue.imp_right fun here => ?_, agree⟩
  · rw [unchanged key' accepted]
  · rw [here]

theorem record_localWithin (kindMessage : Option String) {key : Validator σ String}
    {value : Validator σ α} (keys : key.Steady) (kept : key.KeepsKeys) (values : value.Steady)
    (loc : value.Local) : (record kindMessage key value).LocalWithin := by
  intro seg rest x y differ p
  cases differ with
  | item => exact related_pure (wrongKind_agreeApart "object" _ _ kindMessage p _)
  | @entry name _ v w before after first h =>
    have each : List.Forall₂ (Related (EntryAgrees p name rest))
        ((before ++ (name, v) :: after).map (recordEntry key value p))
        ((before ++ (name, w) :: after).map (recordEntry key value p)) := by
      rw [List.forall₂_map_left_iff, List.forall₂_map_right_iff]
      refine (Value.samePart_entries name before after h).imp fun e f related => ?_
      exact recordEntry_agrees keys kept values loc related.1 related.2 p
    refine related_bind (related_sequence each) fun es es' related => related_pure ?_
    exact agreeApart_settle (assemble_agrees related fun _ _ => rfl)

/-! ## Modifiers -/

theorem mapOutput_steady (f : α → β) {inner : Validator σ α} (h : inner.Steady) :
    (inner.map f).Steady :=
  fun v p => (h v p).bind fun o => steady_pure (o.map f)

theorem nullable_steady {inner : Validator σ Value} (h : inner.Steady) : inner.nullable.Steady := by
  intro v p
  rw [nullable]
  by_cases null : v.isNull
  · simp only [null, if_true]
    exact steady_pure _
  · simp only [null]
    exact h v p

theorem optional_steady {inner : Validator σ Value} (h : inner.Steady) : inner.optional.Steady := by
  intro v p
  rw [optional]
  by_cases absent : v.isAbsent
  · simp only [absent, if_true]
    exact steady_pure _
  · simp only [absent]
    exact h v p

theorem withDefault_steady {fallback : StateM σ α} (constant : ∃ a, ∀ s, (fallback.run s).1 = a)
    {inner : Validator σ α} (h : inner.Steady) : (inner.withDefault fallback).Steady := by
  intro v p
  rw [withDefault]
  by_cases absent : v.isAbsent
  · simp only [absent, if_true]
    obtain ⟨a, answer⟩ := constant
    have steady : (ofState fallback).Steady := fun s t => (answer s).trans (answer t).symm
    exact steady.bind fun b => steady_pure _
  · simp only [absent]
    exact h v p

/-- What a modifier does with an output is steady, so the modifier is. -/
theorem onSuccess_steady {inner : Validator σ α} (h : inner.Steady) {f : α → Run σ (Outcome β)}
    (hf : ∀ a, (f a).Steady) (v : Value) (p : Path) :
    Run.Steady (do match ← inner v p with
      | .success a => f a
      | .failure es => return .failure es) := by
  refine (h v p).bind fun o => ?_
  cases o with
  | success a => exact hf a
  | failure es => exact steady_pure _

theorem refine_steady {test : α → StateM σ Bool} (stateless : Stateless test)
    (message code : String) {inner : Validator σ α} (h : inner.Steady) :
    (inner.refine test message code).Steady := by
  intro v p
  refine onSuccess_steady h (fun a => (steady_ofState stateless a).bind fun holds => ?_) v p
  cases holds with
  | true => exact steady_pure _
  | false => exact steady_pure _

theorem transform_steady {f : α → StateM σ β} (stateless : Stateless f) {inner : Validator σ α}
    (h : inner.Steady) : (inner.transform f).Steady :=
  onSuccess_steady h fun a => (steady_ofState stateless a).bind fun _ => steady_pure _

theorem tryMap_steady {f : α → StateM σ (Outcome β)} (stateless : Stateless f)
    {inner : Validator σ α} (h : inner.Steady) : (inner.tryMap f).Steady := by
  intro v p
  exact onSuccess_steady h (fun a => (steady_ofState stateless a).bind fun o => steady_pure _) v p

theorem steps_stateless {fs : List (α → StateM σ α)} (h : ∀ f ∈ fs, Stateless f) :
    Stateless (steps fs) := by
  induction fs with
  | nil => exact ⟨id, fun _ _ => rfl⟩
  | cons f fs ih =>
    rw [List.forall_mem_cons] at h
    obtain ⟨g, first⟩ := h.1
    obtain ⟨k, later⟩ := ih h.2
    refine ⟨k ∘ g, fun a s => ?_⟩
    rw [steps_cons, Function.comp_apply, ← first a s]
    exact later ((f a).run s).1 ((f a).run s).2

theorem coerce_steady (c : Coercion) {inner : Validator σ α} (h : inner.Steady) :
    (inner.coerce c).Steady := by
  intro v p
  rw [coerce]
  cases c.convert? v with
  | none => exact h v p
  | some converted => exact (steady_tell _).bind fun _ => h converted p

/-- A modifier that leaves lists and objects to the validator within it is as local as that one. -/
theorem LocalWithin.of_eq_on_parts {w inner : Validator σ α} (h : inner.LocalWithin)
    (lists : ∀ items p, w (.list items) p = inner (.list items) p)
    (objects : ∀ entries p, w (.object entries) p = inner (.object entries) p) :
    w.LocalWithin := by
  intro seg rest x y differ p
  have within := h seg rest x y differ p
  cases differ with
  | item =>
    rw [lists, lists]
    exact within
  | entry =>
    rw [objects, objects]
    exact within

theorem nullable_localWithin {inner : Validator σ Value} (h : inner.LocalWithin) :
    inner.nullable.LocalWithin :=
  h.of_eq_on_parts (fun _ _ => rfl) (fun _ _ => rfl)

theorem optional_localWithin {inner : Validator σ Value} (h : inner.LocalWithin) :
    inner.optional.LocalWithin :=
  h.of_eq_on_parts (fun _ _ => rfl) (fun _ _ => rfl)

theorem withDefault_localWithin (fallback : StateM σ α) {inner : Validator σ α}
    (h : inner.LocalWithin) : (inner.withDefault fallback).LocalWithin :=
  h.of_eq_on_parts (fun _ _ => rfl) (fun _ _ => rfl)

theorem coerce_localWithin (c : Coercion) {inner : Validator σ α} (h : inner.LocalWithin) :
    (inner.coerce c).LocalWithin := by
  refine h.of_eq_on_parts (fun items p => ?_) (fun entries p => ?_)
  · cases c <;> rfl
  · cases c <;> rfl

/-- Steps on the output have issues at the value itself or none, so they change nothing below it. -/
theorem LocalWithin.of_issues {w : Validator σ β} {inner : Validator σ α} (h : inner.LocalWithin)
    (own : ∀ v p s, ∃ es, (∀ e ∈ es, e.path = p) ∧
      (w v p s).result.issues = (inner v p s).result.issues ++ es) : w.LocalWithin := by
  intro seg rest x y differ p s t
  have none : ∀ es : List Issue, (∀ e ∈ es, e.path = p) →
      apartFrom (p ++ ⟨seg :: rest⟩) es = [] := by
    intro es atValue
    refine apartFrom_eq_nil fun e member => ?_
    rw [atValue e member]
    exact p.not_apart_above ⟨seg :: rest⟩
  obtain ⟨es, atLeft, left⟩ := own x p s
  obtain ⟨fs, atRight, right⟩ := own y p t
  rw [AgreeApart, left, right, apartFrom_append, apartFrom_append, none es atLeft, none fs atRight,
    List.append_nil, List.append_nil]
  exact h seg rest x y differ p s t

theorem refine_localWithin (test : α → StateM σ Bool) (message code : String)
    {inner : Validator σ α} (h : inner.LocalWithin) :
    (inner.refine test message code).LocalWithin := by
  refine h.of_issues fun v p s => ?_
  rw [refine_result]
  cases (inner v p s).result with
  | failure es => exact ⟨[], nofun, (List.append_nil _).symm⟩
  | success a =>
    rw [Outcome.bind]
    by_cases holds : ((test a).run (inner v p s).state).1 = true
    · rw [if_pos holds]
      exact ⟨[], nofun, rfl⟩
    · rw [if_neg holds]
      exact ⟨[.bare p message code], List.forall_mem_singleton.mpr rfl, rfl⟩

theorem transform_localWithin (f : α → StateM σ β) {inner : Validator σ α} (h : inner.LocalWithin) :
    (inner.transform f).LocalWithin := by
  refine h.of_issues fun v p s => ⟨[], nofun, ?_⟩
  rw [transform, bind_apply, List.append_nil]
  cases (inner v p s).result with
  | success a | failure es => rfl

theorem mapOutput_localWithin (f : α → β) {inner : Validator σ α} (h : inner.LocalWithin) :
    (inner.map f).LocalWithin := by
  refine h.of_issues fun v p s => ⟨[], nofun, ?_⟩
  rw [List.append_nil]
  exact issues_map f (inner v p s).result

end Validator

end Conform
