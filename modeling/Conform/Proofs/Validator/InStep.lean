import Conform.Proofs.Run.InStep
import Conform.Validator.Choice
import Conform.Validator.Modifier
import Conform.Validator.Structure

/-!
# Validators in step

Two validators are in step under a shift when one of them, at the shifted path, does to the state
what the other one does, succeeds with the same outputs, and reports as many issues, each of which
the shift relates.  Every way of building a validator from others keeps this.
-/

set_option autoImplicit false

namespace Conform

/-- The issue at another path. -/
def Issue.move (f : Path → Path) (e : Issue) : Issue := { e with path := f e.path }

def Event.move (f : Path → Path) : Event → Event
  | rejected kind issues first => rejected kind issues (f first)
  | matched path position => matched (f path) position
  | converted path source target => converted (f path) source target

/-- Where a validator stands instead, and which issue may take the place of another one; the moved
issue always may. -/
structure Shift where
  path : Path → Path
  path_push : ∀ p s, path (p.push s) = (path p).push s
  issue : Issue → Issue → Prop
  issue_move : ∀ e, issue e (e.move path)

theorem Shift.path_append (m : Shift) (p q : Path) : m.path (p ++ q) = m.path p ++ q := by
  obtain ⟨segments⟩ := q
  induction segments generalizing p with
  | nil =>
    have append_nil : ∀ r : Path, r ++ ⟨[]⟩ = r := Path.append_root
    rw [append_nil, append_nil]
  | cons s rest ih => rw [Path.append_cons, Path.append_cons, ih, m.path_push]

/-- Everything stands `base` further down. -/
def Shift.prepend (base : Path) : Shift where
  path p := base ++ p
  path_push p s := Path.append_push base p s
  issue e f := f = e.relocate base
  issue_move _ := rfl

variable {σ α β : Type} {m : Shift}

/-! ## Outcomes -/

/-- Outcomes with the same output, or with related issues. -/
inductive Outcome.Like (I : Issue → Issue → Prop) : Outcome α → Outcome α → Prop
  | success (a : α) : Like I (.success a) (.success a)
  | failure {es fs : Issues} (h : List.Forall₂ I es.toList fs.toList) :
    Like I (.failure es) (.failure fs)

namespace Outcome

variable {I : Issue → Issue → Prop}

theorem like_fail {e f : Issue} (h : I e f) : Like I (fail e : Outcome α) (fail f) :=
  .failure (.cons h .nil)

theorem like_settle (a : α) {es fs : List Issue} (h : List.Forall₂ I es fs) :
    Like I (settle a es) (settle a fs) := by
  cases h with
  | nil => exact .success a
  | cons first rest =>
    rw [settle_cons, settle_cons]
    exact .failure (.cons first rest)

theorem Like.map {o o' : Outcome α} (h : Like I o o') (f : α → β) :
    Like I (o.map f) (o'.map f) := by
  cases h with
  | success a => exact .success (f a)
  | failure h => exact .failure h

theorem Like.issues {o o' : Outcome α} (h : Like I o o') :
    List.Forall₂ I o.issues o'.issues := by
  cases h with
  | success a => exact .nil
  | failure h => exact h

theorem Like.success_iff {o o' : Outcome α} (h : Like I o o') (a : α) :
    o' = .success a ↔ o = .success a := by
  cases h with
  | success b => exact Iff.rfl
  | failure h => simp

theorem like_outputs {os os' : List (Outcome α)} (h : List.Forall₂ (Like I) os os') :
    outputs os' = outputs os := by
  induction h with
  | nil => rfl
  | cons first _ ih =>
    cases first with
    | success a => rw [outputs_success_cons, outputs_success_cons, ih]
    | failure h => rw [outputs_failure_cons, outputs_failure_cons, ih]

theorem like_allIssues {os os' : List (Outcome α)} (h : List.Forall₂ (Like I) os os') :
    List.Forall₂ I (allIssues os) (allIssues os') := by
  induction h with
  | nil => exact .nil
  | cons first _ ih => exact List.rel_append first.issues ih

/-- Failing with the issues of the caller, moved to where the value stands. -/
theorem like_relocate (p : Path) (o : Outcome α) :
    Like m.issue (o.relocate p) (o.relocate (m.path p)) := by
  have moved : ∀ e : Issue, m.issue (e.relocate p) (e.relocate (m.path p)) := by
    intro e
    have step := m.issue_move (e.relocate p)
    rw [Issue.move, Issue.relocate, m.path_append] at step
    exact step
  cases o with
  | success a => exact .success a
  | failure es =>
    refine .failure ?_
    rw [Issues.toList_relocate, Issues.toList_relocate, List.forall₂_map_left_iff,
      List.forall₂_map_right_iff]
    exact List.forall₂_same.mpr fun e _ => moved e

end Outcome

open Outcome

namespace Validator

def InStep (m : Shift) (w w' : Validator σ α) : Prop :=
  ∀ v p, Run.InStep (fun e f => f = e.move m.path) (Like m.issue) (w v p) (w' v (m.path p))

theorem InStep.ofOutcome {f : Value → Path → Outcome α}
    (h : ∀ v p, Like m.issue (f v p) (f v (m.path p))) :
    (ofOutcome f : Validator σ α).InStep m (ofOutcome f) :=
  fun v p => Run.inStep_pure (h v p)

theorem like_wrongKind (expected : String) (v : Value) (message : Option String) (p : Path) :
    Like m.issue (fail (.wrongKind p expected v message) : Outcome α)
      (fail (.wrongKind (m.path p) expected v message)) :=
  like_fail (m.issue_move (.wrongKind p expected v message))

/-! ## Values without parts -/

theorem rules_issues_related {κ ι : Type} (violation? : κ → ι → Option Violation) (rules : Rules κ)
    (x : ι) (p : Path) :
    List.Forall₂ m.issue (rules.issues violation? p x) (rules.issues violation? (m.path p) x) := by
  rw [Rules.issues, Rules.issues]
  induction rules.requirements with
  | nil => exact .nil
  | cons r rest ih =>
    cases found : violation? r.check x with
    | none => simpa [List.filterMap_cons, found] using ih
    | some violation =>
      have moved := m.issue_move
        ⟨p, r.message.getD violation.message, violation.code, some violation.expected,
          some violation.got⟩
      simpa [List.filterMap_cons, found] using ⟨moved, ih⟩

theorem textOutcome_like (rules : TextRules) (v : Value) (p : Path) :
    Like m.issue (textOutcome rules v p) (textOutcome rules v (m.path p)) := by
  rw [textOutcome, textOutcome]
  cases v.text? with
  | none => exact like_wrongKind "string" v rules.kindMessage p
  | some s => exact like_settle s (rules_issues_related _ rules s p)

theorem numberOutcome_like (rules : NumberRules) (v : Value) (p : Path) :
    Like m.issue (numberOutcome rules v p) (numberOutcome rules v (m.path p)) := by
  rw [numberOutcome, numberOutcome]
  cases v.number? with
  | none => exact like_wrongKind "number" v rules.kindMessage p
  | some x =>
    by_cases finite : x.isFinite
    · simp only [finite, if_true]
      exact like_settle x (rules_issues_related _ rules x p)
    · simp only [finite]
      exact like_fail (m.issue_move (notFinite rules p x))

theorem booleanOutcome_like (kindMessage : Option String) (v : Value) (p : Path) :
    Like m.issue (booleanOutcome kindMessage v p) (booleanOutcome kindMessage v (m.path p)) := by
  rw [booleanOutcome, booleanOutcome]
  cases v.bool? with
  | none => exact like_wrongKind "boolean" v kindMessage p
  | some b => exact .success b

theorem dateOutcome_like (rules : DateRules) (v : Value) (p : Path) :
    Like m.issue (dateOutcome rules v p) (dateOutcome rules v (m.path p)) := by
  rw [dateOutcome, dateOutcome]
  cases v.date? with
  | none => exact like_wrongKind "date" v rules.kindMessage p
  | some t => exact like_settle t (rules_issues_related _ rules t p)

theorem literalOutcome_like (l : Literal) (v : Value) (p : Path) :
    Like m.issue (literalOutcome l v p) (literalOutcome l v (m.path p)) := by
  rw [literalOutcome, literalOutcome]
  by_cases equal : v.equal l.constant.value
  · simp only [equal, if_true]
    exact .success v
  · simp only [equal]
    exact like_fail (m.issue_move (l.mismatch p v))

theorem enumerationOutcome_like (e : Enumeration) (v : Value) (p : Path) :
    Like m.issue (enumerationOutcome e v p) (enumerationOutcome e v (m.path p)) := by
  rw [enumerationOutcome, enumerationOutcome]
  by_cases has : e.has v
  · simp only [has, if_true]
    exact .success v
  · simp only [has]
    exact like_fail (m.issue_move (e.mismatch p v))

/-! ## Lists and objects -/

theorem gather_inStep {E : Event → Event → Prop} {I : Issue → Issue → Prop}
    {besides besides' : List Issue} {parts parts' : List (Run σ (Outcome α))}
    (hb : List.Forall₂ I besides besides')
    (hp : List.Forall₂ (Run.InStep E (Like I)) parts parts') :
    Run.InStep E (Like I) (gather besides parts) (gather besides' parts') := by
  refine Run.inStep_bind (Run.inStep_sequence hp) fun os os' related => Run.inStep_pure ?_
  rw [Outcome.gather, Outcome.gather, like_outputs related]
  exact like_settle _ (List.rel_append hb (like_allIssues related))

theorem lengthRules_issues_related (rules : LengthRules) (n : Nat) (p : Path) :
    List.Forall₂ m.issue (rules.issues p n) (rules.issues (m.path p) n) := by
  rw [LengthRules.issues, LengthRules.issues]
  refine List.rel_append ?_ ?_
  · cases rules.least with
    | none => exact .nil
    | some b =>
      by_cases short : n < b.length
      · simp only [short, if_true]
        exact .cons (m.issue_move (LengthRules.issue "at least" "min_items" p b n)) .nil
      · simp only [short, if_false]
        exact .nil
  · cases rules.greatest with
    | none => exact .nil
    | some b =>
      by_cases long : b.length < n
      · simp only [long, if_true]
        exact .cons (m.issue_move (LengthRules.issue "at most" "max_items" p b n)) .nil
      · simp only [long, if_false]
        exact .nil

theorem InStep.at_field {w w' : Validator σ α} (h : w.InStep m w') (v : Value) (p : Path)
    (name : String) :
    Run.InStep (fun e f => f = e.move m.path) (Like m.issue) (w v (p.field name))
      (w' v ((m.path p).field name)) := by
  have moved := h v (p.field name)
  rw [Path.field, m.path_push] at moved
  exact moved

theorem InStep.at_index {w w' : Validator σ α} (h : w.InStep m w') (v : Value) (p : Path)
    (i : Nat) :
    Run.InStep (fun e f => f = e.move m.path) (Like m.issue) (w v (p.index i))
      (w' v ((m.path p).index i)) := by
  have moved := h v (p.index i)
  rw [Path.index, m.path_push] at moved
  exact moved

theorem itemsFrom_inStep {item item' : Validator σ α} (h : item.InStep m item') (p : Path)
    (i : Nat) (items : List Value) :
    List.Forall₂ (Run.InStep (fun e f => f = e.move m.path) (Like m.issue))
      (itemsFrom item p i items) (itemsFrom item' (m.path p) i items) := by
  induction items generalizing i with
  | nil => exact .nil
  | cons v rest ih => exact .cons (h.at_index v p i) (ih (i + 1))

theorem list_inStep (rules : LengthRules) {item item' : Validator σ α} (h : item.InStep m item') :
    (list rules item).InStep m (list rules item') := by
  intro v p
  rw [list, list]
  cases v.list? with
  | none => exact Run.inStep_pure (like_wrongKind "array" v rules.kindMessage p)
  | some items =>
    exact gather_inStep (lengthRules_issues_related rules items.length p)
      (itemsFrom_inStep h p 0 items)

theorem positionsFrom_inStep {positions positions' : List (Validator σ α)}
    (h : List.Forall₂ (InStep m) positions positions') (v : Value) (p : Path) (i : Nat) :
    List.Forall₂ (Run.InStep (fun e f => f = e.move m.path) (Like m.issue))
      (positionsFrom v p i positions) (positionsFrom v (m.path p) i positions') := by
  induction h generalizing i with
  | nil => exact .nil
  | cons first _ ih => exact .cons (first.at_index (v.item i) p i) (ih (i + 1))

theorem tuple_inStep (kindMessage : Option String) {positions positions' : List (Validator σ α)}
    (h : List.Forall₂ (InStep m) positions positions') :
    (tuple kindMessage positions).InStep m (tuple kindMessage positions') := by
  intro v p
  rw [tuple, tuple]
  cases v.list? with
  | none => exact Run.inStep_pure (like_wrongKind "array" v kindMessage p)
  | some items => exact gather_inStep .nil (positionsFrom_inStep h v p 0)

/-- Shapes that differ in the validators alone, which are in step. -/
inductive UnknownInStep (m : Shift) :
    UnknownKeys (Validator σ Value) → UnknownKeys (Validator σ Value) → Prop
  | strip : UnknownInStep m .strip .strip
  | allow : UnknownInStep m .allow .allow
  | deny : UnknownInStep m .deny .deny
  | validate {w w' : Validator σ Value} (h : w.InStep m w') :
    UnknownInStep m (.validate w) (.validate w')

theorem field_inStep {w w' : Validator σ Value} (h : w.InStep m w') (v : Value) (p : Path)
    (name : String) :
    Run.InStep (fun e f => f = e.move m.path) (Like m.issue) (field v p name w)
      (field v (m.path p) name w') :=
  Run.inStep_bind (h.at_field (v.get name) p name) fun _ _ related =>
    Run.inStep_pure (related.map _)

theorem unknownEntry_inStep {unknown unknown' : UnknownKeys (Validator σ Value)}
    (h : UnknownInStep m unknown unknown') (p : Path) (entry : String × Value) :
    List.Forall₂ (Run.InStep (fun e f => f = e.move m.path) (Like m.issue))
      (unknownEntry unknown p entry) (unknownEntry unknown' (m.path p) entry) := by
  cases h with
  | strip => exact .nil
  | allow => exact .cons (Run.inStep_pure (.success entry)) .nil
  | deny =>
    have moved := m.issue_move (unexpectedKey p entry.1 entry.2)
    have place : (unexpectedKey p entry.1 entry.2).move m.path =
        unexpectedKey (m.path p) entry.1 entry.2 := by
      simp only [unexpectedKey, Issue.move, Issue.bare, Path.field, m.path_push]
    rw [place] at moved
    exact .cons (Run.inStep_pure (like_fail moved)) .nil
  | validate h =>
    refine .cons ?_ .nil
    exact Run.inStep_bind (h.at_field entry.2 p entry.1) fun _ _ related =>
      Run.inStep_pure (related.map _)

theorem unknownEntries_inStep {unknown unknown' : UnknownKeys (Validator σ Value)}
    (h : UnknownInStep m unknown unknown') (p : Path) (entries : List (String × Value)) :
    List.Forall₂ (Run.InStep (fun e f => f = e.move m.path) (Like m.issue))
      (entries.flatMap (unknownEntry unknown p))
      (entries.flatMap (unknownEntry unknown' (m.path p))) := by
  induction entries with
  | nil => exact .nil
  | cons entry rest ih =>
    rw [List.flatMap_cons, List.flatMap_cons]
    exact List.rel_append (unknownEntry_inStep h p entry) ih

structure ShapeInStep (m : Shift) (shape shape' : Shape (Validator σ Value)) : Prop where
  fields : List.Forall₂ (fun f f' => f'.1 = f.1 ∧ f.2.InStep m f'.2) shape.fields shape'.fields
  unknown : UnknownInStep m shape.unknown shape'.unknown
  kindMessage : shape'.kindMessage = shape.kindMessage

theorem ShapeInStep.names {shape shape' : Shape (Validator σ Value)}
    (h : ShapeInStep m shape shape') :
    Entries.keys shape'.fields = Entries.keys shape.fields := by
  obtain ⟨related, _, _⟩ := h
  rw [Entries.keys, Entries.keys]
  generalize shape.fields = fields at related ⊢
  generalize shape'.fields = fields' at related ⊢
  induction related with
  | nil => rfl
  | cons first _ ih => rw [List.map_cons, List.map_cons, first.1, ih]

theorem object_inStep {shape shape' : Shape (Validator σ Value)} (h : ShapeInStep m shape shape') :
    (object shape).InStep m (object shape') := by
  intro v p
  have declared : List.Forall₂ (Run.InStep (fun e f => f = e.move m.path) (Like m.issue))
      (shape.fields.map fun f => field v p f.1 f.2)
      (shape'.fields.map fun f => field v (m.path p) f.1 f.2) := by
    rw [List.forall₂_map_left_iff, List.forall₂_map_right_iff]
    refine h.fields.imp fun f f' related => ?_
    rw [related.1]
    exact field_inStep related.2 v p f.1
  rw [object, object, h.kindMessage]
  cases v.object? with
  | none => exact Run.inStep_pure (like_wrongKind "object" v shape.kindMessage p)
  | some entries =>
    simp only [undeclared_eq_of_names h.names]
    refine Run.inStep_bind (Run.inStep_sequence declared) fun os os' inFields => ?_
    refine Run.inStep_bind (Run.inStep_sequence
      (unknownEntries_inStep h.unknown p (undeclared shape.fields entries)))
      fun us us' inOthers => Run.inStep_pure ?_
    rw [like_outputs inFields, like_outputs inOthers]
    exact like_settle _ (List.rel_append (like_allIssues inFields) (like_allIssues inOthers))

structure EntryInStep (m : Shift) (e e' : RecordEntry α) : Prop where
  path : e'.path = m.path e.path
  key : Like m.issue e.key e'.key
  value : Like m.issue e.value e'.value

theorem assemble_related {entries entries' : List (RecordEntry α)}
    (h : List.Forall₂ (EntryInStep m) entries entries') (done : Entries α) :
    (assemble done entries').1 = (assemble done entries).1 ∧
      List.Forall₂ m.issue (assemble done entries).2 (assemble done entries').2 := by
  induction h generalizing done with
  | nil => exact ⟨rfl, .nil⟩
  | @cons e e' _ _ first _ ih =>
    obtain ⟨path, key, value⟩ := e
    obtain ⟨path', key', value'⟩ := e'
    obtain ⟨samePlace, keys, values⟩ := first
    dsimp only at samePlace keys values
    subst samePlace
    cases keys with
    | failure k =>
      obtain ⟨outputs, issues⟩ := ih done
      exact ⟨outputs, List.rel_append (List.rel_append k values.issues) issues⟩
    | success key =>
      cases values with
      | failure w =>
        obtain ⟨outputs, issues⟩ := ih done
        exact ⟨outputs, List.rel_append w issues⟩
      | success a =>
        by_cases taken : Entries.contains done key
        · obtain ⟨outputs, issues⟩ := ih done
          simp only [assemble, taken, if_true]
          exact ⟨outputs, .cons (m.issue_move (duplicateKey path key)) issues⟩
        · simp only [assemble, taken]
          exact ih (done ++ [(key, a)])

theorem recordEntry_inStep {key key' : Validator σ String} {value value' : Validator σ α}
    (hk : key.InStep m key') (hv : value.InStep m value') (p : Path) (entry : String × Value) :
    Run.InStep (fun e f => f = e.move m.path) (EntryInStep m) (recordEntry key value p entry)
      (recordEntry key' value' (m.path p) entry) := by
  refine Run.inStep_bind (hk.at_field (.text entry.1) p entry.1) fun k k' keys => ?_
  refine Run.inStep_bind (hv.at_field entry.2 p entry.1) fun a a' values => ?_
  exact Run.inStep_pure ⟨(m.path_push p (.field entry.1)).symm, keys, values⟩

theorem record_inStep (kindMessage : Option String) {key key' : Validator σ String}
    {value value' : Validator σ α} (hk : key.InStep m key') (hv : value.InStep m value') :
    (record kindMessage key value).InStep m (record kindMessage key' value') := by
  intro v p
  rw [record, record]
  cases v.object? with
  | none => exact Run.inStep_pure (like_wrongKind "object" v kindMessage p)
  | some entries =>
    have each : List.Forall₂ (Run.InStep (fun e f => f = e.move m.path) (EntryInStep m))
        (entries.map (recordEntry key value p))
        (entries.map (recordEntry key' value' (m.path p))) := by
      rw [List.forall₂_map_left_iff, List.forall₂_map_right_iff]
      exact List.forall₂_same.mpr fun entry _ => recordEntry_inStep hk hv p entry
    refine Run.inStep_bind (Run.inStep_sequence each) fun as as' related => Run.inStep_pure ?_
    obtain ⟨outputs, issues⟩ := assemble_related related []
    rw [outputs]
    exact like_settle _ issues

/-! ## Unions and intersections -/

inductive AttemptLike (I : Issue → Issue → Prop) : Attempt α → Attempt α → Prop
  | accepted (position : Nat) (a : α) : AttemptLike I (.accepted position a) (.accepted position a)
  | rejected {es fs : List Issue} (h : List.Forall₂ I es fs) :
    AttemptLike I (.rejected es) (.rejected fs)

theorem attempt_inStep {alternatives alternatives' : List (Validator σ α)}
    (h : List.Forall₂ (InStep m) alternatives alternatives') (v : Value) (p : Path) (i : Nat) :
    Run.InStep (fun e f => f = e.move m.path) (AttemptLike m.issue) (attempt v p i alternatives)
      (attempt v (m.path p) i alternatives') := by
  induction h generalizing i with
  | nil => exact Run.inStep_pure (.rejected .nil)
  | cons first _ ih =>
    refine Run.inStep_bind (first v p) fun o o' related => ?_
    cases related with
    | success a => exact Run.inStep_pure (.accepted i a)
    | failure issues =>
      refine Run.inStep_bind (ih (i + 1)) fun b b' further => ?_
      cases further with
      | accepted position a => exact Run.inStep_pure (.accepted position a)
      | rejected others => exact Run.inStep_pure (.rejected (List.rel_append issues others))

theorem rejection_related (message : Option String) (n : Nat) (p : Path) (v : Value)
    {es fs : List Issue} (h : List.Forall₂ m.issue es fs) :
    List.Forall₂ m.issue (rejection message n p v es).toList
      (rejection message n (m.path p) v fs).toList := by
  cases message with
  | some message => exact .cons (m.issue_move (noMatch message n p v)) .nil
  | none =>
    cases h with
    | nil => exact .cons (m.issue_move (noMatch _ n p v)) .nil
    | cons first rest =>
      rw [rejection_cons, rejection_cons]
      exact .cons first rest

theorem union_inStep (message : Option String) {alternatives alternatives' : List (Validator σ α)}
    (h : List.Forall₂ (InStep m) alternatives alternatives') :
    (union message alternatives).InStep m (union message alternatives') := by
  intro v p
  refine Run.inStep_bind (attempt_inStep h v p 0) fun b b' related => ?_
  cases related with
  | accepted position a =>
    exact Run.inStep_bind (Run.inStep_tell rfl) fun _ _ _ => Run.inStep_pure (.success a)
  | rejected issues =>
    rw [h.length_eq]
    exact Run.inStep_pure (.failure (rejection_related message alternatives'.length p v issues))

theorem intersection_inStep (kindMessage : Option String)
    {components components' : List (Validator σ (Entries α))}
    (h : List.Forall₂ (InStep m) components components') :
    (intersection kindMessage components).InStep m (intersection kindMessage components') := by
  intro v p
  rw [intersection, intersection]
  cases v.object? with
  | none => exact Run.inStep_pure (like_wrongKind "object" v kindMessage p)
  | some entries =>
    have each : List.Forall₂ (Run.InStep (fun e f => f = e.move m.path) (Like m.issue))
        (components.map fun component => component v p)
        (components'.map fun component => component v (m.path p)) := by
      rw [List.forall₂_map_left_iff, List.forall₂_map_right_iff]
      exact h.imp fun _ _ related => related v p
    refine Run.inStep_bind (Run.inStep_sequence each) fun os os' related => Run.inStep_pure ?_
    rw [like_outputs related]
    exact like_settle _ (like_allIssues related)

/-! ## Modifiers -/

theorem nullable_inStep {inner inner' : Validator σ Value} (h : inner.InStep m inner') :
    inner.nullable.InStep m inner'.nullable := by
  intro v p
  rw [nullable, nullable]
  by_cases null : v.isNull
  · simp only [null, if_true]
    exact Run.inStep_pure (.success Value.null)
  · simp only [null]
    exact h v p

theorem optional_inStep {inner inner' : Validator σ Value} (h : inner.InStep m inner') :
    inner.optional.InStep m inner'.optional := by
  intro v p
  rw [optional, optional]
  by_cases absent : v.isAbsent
  · simp only [absent, if_true]
    exact Run.inStep_pure (.success Value.absent)
  · simp only [absent]
    exact h v p

theorem withDefault_inStep (fallback : StateM σ α) {inner inner' : Validator σ α}
    (h : inner.InStep m inner') :
    (inner.withDefault fallback).InStep m (inner'.withDefault fallback) := by
  intro v p
  rw [withDefault, withDefault]
  by_cases absent : v.isAbsent
  · simp only [absent, if_true]
    refine Run.inStep_bind (Run.inStep_ofState fallback) fun a b same => ?_
    subst same
    exact Run.inStep_pure (.success a)
  · simp only [absent]
    exact h v p

theorem map_inStep (f : α → β) {inner inner' : Validator σ α} (h : inner.InStep m inner') :
    (inner.map f).InStep m (inner'.map f) :=
  fun v p => Run.inStep_bind (h v p) fun _ _ related => Run.inStep_pure (related.map f)

/-- What a modifier does with an output is the same at every path, but for where its issues are. -/
theorem onSuccess_inStep {inner inner' : Validator σ α} (h : inner.InStep m inner')
    {f f' : α → Run σ (Outcome β)} {v : Value} {p : Path}
    (hf : ∀ a, Run.InStep (fun e f => f = e.move m.path) (Like m.issue) (f a) (f' a)) :
    Run.InStep (fun e f => f = e.move m.path) (Like m.issue)
      (do match ← inner v p with
        | .success a => f a
        | .failure es => return .failure es)
      (do match ← inner' v (m.path p) with
        | .success a => f' a
        | .failure es => return .failure es) := by
  refine Run.inStep_bind (h v p) fun o o' related => ?_
  cases related with
  | success a => exact hf a
  | failure issues => exact Run.inStep_pure (.failure issues)

theorem refine_inStep (test : α → StateM σ Bool) (message code : String)
    {inner inner' : Validator σ α} (h : inner.InStep m inner') :
    (inner.refine test message code).InStep m (inner'.refine test message code) := by
  intro v p
  refine onSuccess_inStep h fun a => Run.inStep_bind (Run.inStep_ofState (test a)) ?_
  rintro holds _ rfl
  cases holds with
  | true => exact Run.inStep_pure (.success a)
  | false => exact Run.inStep_pure (like_fail (m.issue_move (.bare p message code)))

theorem transform_inStep (f : α → StateM σ β) {inner inner' : Validator σ α}
    (h : inner.InStep m inner') : (inner.transform f).InStep m (inner'.transform f) := by
  intro v p
  refine onSuccess_inStep h fun a => Run.inStep_bind (Run.inStep_ofState (f a)) ?_
  rintro b _ rfl
  exact Run.inStep_pure (.success b)

theorem tryMap_inStep (f : α → StateM σ (Outcome β)) {inner inner' : Validator σ α}
    (h : inner.InStep m inner') : (inner.tryMap f).InStep m (inner'.tryMap f) := by
  intro v p
  refine onSuccess_inStep h fun a => Run.inStep_bind (Run.inStep_ofState (f a)) ?_
  rintro o _ rfl
  exact Run.inStep_pure (like_relocate p o)

theorem coerce_inStep (c : Coercion) {inner inner' : Validator σ α} (h : inner.InStep m inner') :
    (inner.coerce c).InStep m (inner'.coerce c) := by
  intro v p
  rw [coerce, coerce]
  cases c.convert? v with
  | none => exact h v p
  | some converted => exact Run.inStep_bind (Run.inStep_tell rfl) fun _ _ _ => h converted p

end Validator

end Conform
