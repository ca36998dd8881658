import Conform.Proofs.Run.TwoRuns
import Conform.Proofs.Validator.Assembly
import Conform.Proofs.Validator.Success
import Conform.Proofs.Value.Reordering

/-!
# Validators and the order of keys

Two outcomes correspond when both succeed, with related outputs, or both fail with as many issues,
at the same paths and with the same codes, in any order; of duplicate keys only the number counts,
since of two entries with one key it is the later one that is reported.  A validator is blind to the
order of keys when its outcomes for two values that are reorderings of each other correspond.
-/

set_option autoImplicit false

namespace Conform

variable {σ α β γ δ : Type}

/-! ## Issues in any order -/

namespace Issue

/-- What of an issue does not depend on the order of keys; of a duplicate key, that it is one. -/
def trace (e : Issue) : Option (Path × String) :=
  if e.code = "duplicate_key" then none else some (e.path, e.code)

/-- The issues are as many, with the same traces in any order. -/
def SameTraces (es fs : List Issue) : Prop := (es.map trace).Perm (fs.map trace)

variable {es fs es' fs' : List Issue}

theorem sameTraces_refl (es : List Issue) : SameTraces es es := .refl _

theorem SameTraces.append (h : SameTraces es fs) (h' : SameTraces es' fs') :
    SameTraces (es ++ es') (fs ++ fs') := by
  rw [SameTraces, List.map_append, List.map_append]
  exact List.Perm.append h h'

theorem SameTraces.length_eq (h : SameTraces es fs) : es.length = fs.length := by
  have same := List.Perm.length_eq h
  rwa [List.length_map, List.length_map] at same

theorem SameTraces.nil_iff (h : SameTraces es fs) : es = [] ↔ fs = [] := by
  rw [← List.length_eq_zero_iff, ← List.length_eq_zero_iff, h.length_eq]

theorem sameTraces_singleton {e f : Issue} (path : e.path = f.path) (code : e.code = f.code) :
    SameTraces [e] [f] := by
  rw [SameTraces, List.map_singleton, List.map_singleton, trace, trace, path, code]

theorem sameTraces_of_perm (h : es.Perm fs) : SameTraces es fs := h.map trace

theorem SameTraces.relocate (h : SameTraces es fs) (p : Path) :
    SameTraces (es.map (Issue.relocate p)) (fs.map (Issue.relocate p)) := by
  have moved : trace ∘ Issue.relocate p = Option.map (fun t => (p ++ t.1, t.2)) ∘ trace := by
    funext e
    rw [Function.comp_apply, Function.comp_apply, trace, trace, Issue.relocate]
    by_cases duplicate : e.code = "duplicate_key"
    · rw [if_pos duplicate, if_pos duplicate, Option.map_none]
    · rw [if_neg duplicate, if_neg duplicate, Option.map_some]
  rw [SameTraces, List.map_map, List.map_map, moved, ← List.map_map, ← List.map_map]
  exact h.map _

theorem SameTraces.countP_duplicates (h : SameTraces es fs) :
    es.countP (fun e => e.code = "duplicate_key") =
      fs.countP fun e => e.code = "duplicate_key" := by
  have traces : ∀ es : List Issue, es.countP (fun e => e.code = "duplicate_key") =
      (es.map trace).countP Option.isNone := by
    intro es
    rw [List.countP_map]
    refine List.countP_congr fun e _ => ?_
    rw [Function.comp_apply, trace]
    by_cases duplicate : e.code = "duplicate_key"
    · simp [duplicate]
    · simp [duplicate]
  rw [traces, traces]
  exact h.countP_eq _

theorem SameTraces.perm_others (h : SameTraces es fs) :
    ((es.filter fun e => e.code ≠ "duplicate_key").map fun e => (e.path, e.code)).Perm
      ((fs.filter fun e => e.code ≠ "duplicate_key").map fun e => (e.path, e.code)) := by
  have traces : ∀ es : List Issue,
      (es.filter fun e => e.code ≠ "duplicate_key").map (fun e => (e.path, e.code)) =
        (es.map trace).filterMap id := by
    intro es
    induction es with
    | nil => rfl
    | cons e rest ih =>
      rw [List.map_cons, List.filter_cons, trace]
      by_cases duplicate : e.code = "duplicate_key"
      · simpa [duplicate] using ih
      · simpa [duplicate] using ih
  rw [traces, traces]
  exact h.filterMap id

/-- Duplicates all have the same trace. -/
theorem sameTraces_of_duplicates (codes : ∀ e ∈ es, e.code = "duplicate_key")
    (codes' : ∀ e ∈ fs, e.code = "duplicate_key") (count : es.length = fs.length) :
    SameTraces es fs := by
  have traces : ∀ ds : List Issue, (∀ d ∈ ds, d.code = "duplicate_key") →
      ds.map trace = List.replicate ds.length none := by
    intro ds duplicates
    rw [List.eq_replicate_iff, List.length_map]
    refine ⟨rfl, List.forall_mem_map.mpr fun d member => ?_⟩
    rw [trace, if_pos (duplicates d member)]
  rw [SameTraces, traces es codes, traces fs codes', count]

end Issue

open Issue

/-! ## Outcomes that correspond -/

namespace Outcome

variable {Q : α → β → Prop} {Q' : γ → δ → Prop}

inductive Corresponds (Q : α → β → Prop) : Outcome α → Outcome β → Prop
  | success {a : α} {b : β} (h : Q a b) : Corresponds Q (.success a) (.success b)
  | failure {es fs : Issues} (h : SameTraces es.toList fs.toList) :
    Corresponds Q (.failure es) (.failure fs)

theorem Corresponds.map {o : Outcome α} {o' : Outcome β} (h : Corresponds Q o o') {f : α → γ}
    {g : β → δ} (hf : ∀ a b, Q a b → Q' (f a) (g b)) : Corresponds Q' (o.map f) (o'.map g) := by
  cases h with
  | success h => exact .success (hf _ _ h)
  | failure h => exact .failure h

theorem Corresponds.imp {R : α → β → Prop} {o : Outcome α} {o' : Outcome β}
    (h : Corresponds Q o o') (implies : ∀ a b, Q a b → R a b) : Corresponds R o o' := by
  cases h with
  | success h => exact .success (implies _ _ h)
  | failure h => exact .failure h

theorem Corresponds.issues {o : Outcome α} {o' : Outcome β} (h : Corresponds Q o o') :
    SameTraces o.issues o'.issues := by
  cases h with
  | success h => exact sameTraces_refl []
  | failure h => exact h

theorem Corresponds.output? {o : Outcome α} {o' : Outcome β} (h : Corresponds Q o o') :
    Option.Rel Q o.output? o'.output? := by
  cases h with
  | success h => exact .some h
  | failure h => exact .none

theorem corresponds_fail {e f : Issue} (path : e.path = f.path) (code : e.code = f.code) :
    Corresponds Q (fail e) (fail f) :=
  .failure (sameTraces_singleton path code)

theorem corresponds_self {Q : α → α → Prop} (o : Outcome α) (h : ∀ a, o = .success a → Q a a) :
    Corresponds Q o o := by
  cases o with
  | success a => exact .success (h a rfl)
  | failure es => exact .failure (sameTraces_refl _)

theorem corresponds_settle {a : α} {b : β} {es fs : List Issue} (issues : SameTraces es fs)
    (outputs : es = [] → fs = [] → Q a b) : Corresponds Q (settle a es) (settle b fs) := by
  cases es with
  | nil =>
    have none := issues.nil_iff.mp rfl
    rw [none]
    exact .success (outputs rfl none)
  | cons e es =>
    cases fs with
    | nil => cases issues.nil_iff.mpr rfl
    | cons f fs =>
      rw [settle_cons, settle_cons]
      exact .failure issues

theorem Corresponds.relocate {o : Outcome α} {o' : Outcome β} (h : Corresponds Q o o') (p : Path) :
    Corresponds Q (o.relocate p) (o'.relocate p) := by
  cases h with
  | success h => exact .success h
  | failure h =>
    refine .failure ?_
    rw [Issues.toList_relocate, Issues.toList_relocate]
    exact h.relocate p

theorem outputs_inAnyOrder {os : List (Outcome α)} {os' : List (Outcome β)}
    (h : InAnyOrder (Corresponds Q) os os') : InAnyOrder Q (outputs os) (outputs os') :=
  h.filterMap fun _ _ related => related.output?

theorem outputs_forall₂ {os : List (Outcome α)} {os' : List (Outcome β)}
    (h : List.Forall₂ (Corresponds Q) os os') : List.Forall₂ Q (outputs os) (outputs os') :=
  List.rel_filterMap (fun _ _ related => related.output?) h

theorem allIssues_sameTraces {os : List (Outcome α)} {os' : List (Outcome β)}
    (h : InAnyOrder (Corresponds Q) os os') : SameTraces (allIssues os) (allIssues os') := by
  rw [SameTraces, allIssues, allIssues, List.map_flatMap, List.map_flatMap]
  exact h.perm_flatMap fun _ _ related => related.issues

end Outcome

open Outcome Run

namespace Validator

variable {Q : α → α → Prop} {Q' : β → β → Prop}

/-- Two values that are reorderings of each other have outcomes that correspond. -/
def OrderBlind (Q : α → α → Prop) (w : Validator σ α) : Prop :=
  ∀ v v', v.Reordered v' → ∀ p, (w v p).Related (Corresponds Q) (w v' p)

/-! ## Values without parts -/

/-- A validator without effects sees no order in a value without parts. -/
theorem ofOutcome_orderBlind {f : Value → Path → Outcome α}
    (atoms : ∀ v p a, v.list? = none → v.object? = none → f v p = .success a → Q a a)
    (lists : ∀ items items' p, Corresponds Q (f (.list items) p) (f (.list items') p))
    (objects : ∀ entries entries' p,
      Corresponds Q (f (.object entries) p) (f (.object entries') p)) :
    (ofOutcome f : Validator σ α).OrderBlind Q := by
  intro v v' h p
  refine related_pure ?_
  cases h with
  | same noList noObject => exact corresponds_self _ fun a => atoms v p a noList noObject
  | list => exact lists _ _ p
  | object => exact objects _ _ p

/-- What rejects lists and objects with one issue of their own sees no order in them. -/
theorem OrderBlind.of_rejected {f : Value → Path → Outcome α} (reject : Value → Path → Issue)
    (alike : ∀ v v' p, (reject v p).path = (reject v' p).path ∧
      (reject v p).code = (reject v' p).code)
    (atoms : ∀ v p a, v.list? = none → v.object? = none → f v p = .success a → Q a a)
    (lists : ∀ items p, f (.list items) p = .fail (reject (.list items) p))
    (objects : ∀ entries p, f (.object entries) p = .fail (reject (.object entries) p)) :
    (ofOutcome f : Validator σ α).OrderBlind Q := by
  refine ofOutcome_orderBlind atoms (fun items items' p => ?_) fun entries entries' p => ?_
  · rw [lists, lists]
    exact corresponds_fail (alike _ _ p).1 (alike _ _ p).2
  · rw [objects, objects]
    exact corresponds_fail (alike _ _ p).1 (alike _ _ p).2

theorem OrderBlind.of_wrongKind {f : Value → Path → Outcome α} (expected : String)
    (message : Option String) (self : ∀ a, Q a a)
    (lists : ∀ items p, f (.list items) p = .fail (.wrongKind p expected (.list items) message))
    (objects : ∀ entries p,
      f (.object entries) p = .fail (.wrongKind p expected (.object entries) message)) :
    (ofOutcome f : Validator σ α).OrderBlind Q :=
  .of_rejected (fun v p => .wrongKind p expected v message) (fun _ _ _ => ⟨rfl, rfl⟩)
    (fun _ _ a _ _ _ => self a) lists objects

theorem literal_orderBlind (l : Literal) :
    (ofOutcome (literalOutcome l) : Validator σ Value).OrderBlind Value.Reordered := by
  refine .of_rejected (fun v p => l.mismatch p v) (fun _ _ _ => ⟨rfl, rfl⟩) ?_
    (fun _ => literalOutcome_of_not_isScalar l rfl) fun _ => literalOutcome_of_not_isScalar l rfl
  intro v p a noList noObject answer
  rw [← literalOutcome_success answer]
  exact .same noList noObject

theorem enumeration_orderBlind (e : Enumeration) :
    (ofOutcome (enumerationOutcome e) : Validator σ Value).OrderBlind Value.Reordered := by
  refine .of_rejected (fun v p => e.mismatch p v) (fun _ _ _ => ⟨rfl, rfl⟩) ?_
    (fun _ => enumerationOutcome_of_not_isScalar e rfl)
    fun _ => enumerationOutcome_of_not_isScalar e rfl
  intro v p a noList noObject answer
  rw [← enumerationOutcome_success answer]
  exact .same noList noObject

theorem anything_orderBlind :
    (ofOutcome fun v _ => .success v : Validator σ Value).OrderBlind Value.Reordered :=
  fun _ _ h _ => related_pure (.success h)

/-! ## Lists -/

theorem gather_corresponds {Q : α → β → Prop} {besides : List Issue}
    {parts : List (Run σ (Outcome α))}
    {parts' : List (Run σ (Outcome β))} (h : List.Forall₂ (Related (Corresponds Q)) parts parts') :
    (gather besides parts).Related (Corresponds (List.Forall₂ Q)) (gather besides parts') := by
  refine related_bind (related_sequence h) fun os os' related => related_pure ?_
  refine corresponds_settle ?_ fun _ _ => outputs_forall₂ related
  exact (sameTraces_refl besides).append (allIssues_sameTraces (.of_forall₂ related))

theorem itemsFrom_corresponds {item : Validator σ α} (h : item.OrderBlind Q) (p : Path)
    {items items' : List Value} (same : List.Forall₂ Value.Reordered items items') (i : Nat) :
    List.Forall₂ (Related (Corresponds Q)) (itemsFrom item p i items)
      (itemsFrom item p i items') := by
  induction same generalizing i with
  | nil => exact .nil
  | cons first _ ih => exact .cons (h _ _ first _) (ih (i + 1))

theorem list_orderBlind (rules : LengthRules) {item : Validator σ α} (h : item.OrderBlind Q) :
    (list rules item).OrderBlind (List.Forall₂ Q) := by
  intro v v' same p
  cases same with
  | same noList noObject =>
    rw [list, noList]
    exact related_pure (corresponds_fail rfl rfl)
  | list items =>
    rw [list, list]
    dsimp only [Value.list?]
    rw [items.length_eq]
    exact gather_corresponds (itemsFrom_corresponds h p items 0)
  | object => exact related_pure (corresponds_fail rfl rfl)

theorem positionsFrom_corresponds {v v' : Value} (same : v.Reordered v')
    {ws : List (Validator σ α)} (h : ∀ w ∈ ws, w.OrderBlind Q) (p : Path) (i : Nat) :
    List.Forall₂ (Related (Corresponds Q)) (positionsFrom v p i ws) (positionsFrom v' p i ws) := by
  induction ws generalizing i with
  | nil => exact .nil
  | cons w rest ih =>
    rw [List.forall_mem_cons] at h
    exact .cons (h.1 _ _ (same.item i) _) (ih h.2 (i + 1))

theorem tuple_orderBlind (kindMessage : Option String) {ws : List (Validator σ α)}
    (h : ∀ w ∈ ws, w.OrderBlind Q) : (tuple kindMessage ws).OrderBlind (List.Forall₂ Q) := by
  intro v v' same p
  have parts := positionsFrom_corresponds same h p 0
  cases same with
  | same noList noObject =>
    rw [tuple, noList]
    exact related_pure (corresponds_fail rfl rfl)
  | list items => exact gather_corresponds parts
  | object => exact related_pure (corresponds_fail rfl rfl)

/-! ## Objects -/

/-- What is known of an output that the first run can answer with comes on top. -/
theorem related_and_of_canReturn {Q : α → β → Prop} {P : α → Prop} {r : Run σ (Outcome α)}
    {r' : Run σ (Outcome β)} (h : r.Related (Corresponds Q) r')
    (known : ∀ a, r.CanReturn a → P a) :
    r.Related (Corresponds fun a b => P a ∧ Q a b) r' := by
  intro s t
  have both := h s t
  have answers : ∀ a, (r s).result = .success a → P a := fun a found => known a ⟨s, found⟩
  generalize (r s).result = o at both answers ⊢
  generalize (r' t).result = o' at both ⊢
  cases both with
  | failure h => exact .failure h
  | success h => exact .success ⟨answers _ rfl, h⟩

theorem object_answer_keys_nodup {shape : Shape (Validator σ Value)} {entries out : Entries Value}
    (names : (Entries.keys shape.fields).Nodup) (distinct : (Entries.keys entries).Nodup)
    (h : (object shape).CanAnswer (.object entries) out) : (Entries.keys out).Nodup := by
  obtain ⟨entries', declared, others, same, rfl, fields, unknown⟩ := object_canAnswer h
  cases same
  have declaredNames : Entries.keys declared = Entries.keys shape.fields :=
    keys_eq_of_forall₂ fields
  have ofDeclared :
      (Entries.keys (Value.present declared)).Sublist (Entries.keys shape.fields) := by
    rw [← declaredNames]
    exact (List.filter_sublist (l := declared)).map Prod.fst
  have ofOthers := unknown.keys_sublist
  have undeclaredNames : (Entries.keys (undeclared shape.fields entries)).Sublist
      (Entries.keys entries) := (List.filter_sublist (l := entries)).map Prod.fst
  rw [Entries.keys, List.map_append]
  refine List.nodup_append.mpr ⟨ofDeclared.nodup names, ?_, ?_⟩
  · exact ofOthers.nodup (undeclaredNames.nodup distinct)
  · rintro key isDeclared _ isOther rfl
    obtain ⟨e, member, rfl⟩ := List.mem_map.mp (ofOthers.subset isOther)
    have notDeclared := (List.mem_filter.mp member).2
    rw [Bool.not_eq_true', ← Bool.not_eq_true, Entries.contains_iff] at notDeclared
    exact notDeclared (ofDeclared.subset isDeclared)

theorem underKey_corresponds {w : Validator σ Value} (h : w.OrderBlind Value.Reordered)
    {v v' : Value} (same : v.Reordered v') (p : Path) (key : String) :
    Run.Related (Corresponds (Entries.SameKey Value.Reordered))
      (do return underKey key (← w v p)) (do return underKey key (← w v' p)) :=
  related_bind (h v v' same p) fun _ _ related => related_pure (related.map fun _ _ r => ⟨rfl, r⟩)

theorem unknownEntry_corresponds {unknown : UnknownKeys (Validator σ Value)}
    (h : unknown.Holds (OrderBlind Value.Reordered)) (p : Path) {e f : String × Value}
    (same : Entries.SameKey Value.Reordered e f) :
    List.Forall₂ (Related (Corresponds (Entries.SameKey Value.Reordered)))
      (unknownEntry unknown p e)
      (unknownEntry unknown p f) := by
  obtain ⟨key, v⟩ := e
  obtain ⟨key', v'⟩ := f
  obtain ⟨names, values⟩ := same
  dsimp only at names values
  subst names
  cases unknown with
  | strip => exact .nil
  | allow => exact .cons (related_pure (.success ⟨rfl, values⟩)) .nil
  | deny => exact .cons (related_pure (corresponds_fail rfl rfl)) .nil
  | validate w => exact .cons (underKey_corresponds h values (p.field key) key) .nil

theorem object_corresponds {shape : Shape (Validator σ Value)}
    (fields : ∀ f ∈ shape.fields, f.2.OrderBlind Value.Reordered)
    (unknown : shape.unknown.Holds (OrderBlind Value.Reordered)) {entries entries' : Entries Value}
    (same : (Value.object entries).Reordered (.object entries')) (p : Path) :
    (object shape (.object entries) p).Related
      (Corresponds (InAnyOrder (Entries.SameKey Value.Reordered)))
      (object shape (.object entries') p) := by
  have declared : List.Forall₂ (Related (Corresponds (Entries.SameKey Value.Reordered)))
      (shape.fields.map fun f => field (.object entries) p f.1 f.2)
      (shape.fields.map fun f => field (.object entries') p f.1 f.2) := by
    rw [List.forall₂_map_left_iff, List.forall₂_map_right_iff]
    exact List.forall₂_same.mpr fun f there =>
      underKey_corresponds (fields f there) (same.get f.1) (p.field f.1) f.1
  have others : InAnyOrder (Related (Corresponds (Entries.SameKey Value.Reordered)))
      ((undeclared shape.fields entries).flatMap (unknownEntry shape.unknown p))
      ((undeclared shape.fields entries').flatMap (unknownEntry shape.unknown p)) := by
    refine ((Value.reordered_object_iff.mp same).entries.filter fun e f sameKey => ?_).flatMap
      fun e f sameKey => unknownEntry_corresponds unknown p sameKey
    rw [sameKey.1]
  refine related_bind (related_sequence declared) fun os os' inFields => ?_
  refine related_bind (related_sequence_inAnyOrder others) fun us us' inOthers => ?_
  refine related_pure (corresponds_settle ?_ fun _ _ => ?_)
  · exact (allIssues_sameTraces (.of_forall₂ inFields)).append (allIssues_sameTraces inOthers)
  · have present := Value.present_forall₂ (outputs_forall₂ inFields)
    exact (InAnyOrder.of_forall₂ present).append (outputs_inAnyOrder inOthers)

theorem object_orderBlind {shape : Shape (Validator σ Value)}
    (names : (Entries.keys shape.fields).Nodup)
    (fields : ∀ f ∈ shape.fields, f.2.OrderBlind Value.Reordered)
    (unknown : shape.unknown.Holds (OrderBlind Value.Reordered)) :
    (object shape).OrderBlind (Entries.Reordered Value.Reordered) := by
  intro v v' same p
  cases same with
  | same noList noObject =>
    rw [object, noObject]
    exact related_pure (corresponds_fail rfl rfl)
  | list => exact related_pure (corresponds_fail rfl rfl)
  | object distinct order keys values =>
    have answers := object_corresponds fields unknown (.object distinct order keys values) p
    -- That its keys are distinct is known of every output by itself.
    have keyed := related_and_of_canReturn answers fun out found =>
      object_answer_keys_nodup names distinct ⟨p, found⟩
    exact keyed.imp fun o o' related => related.imp fun _ _ both => ⟨both.1, both.2⟩

/-! ## Records -/

structure EntryCorresponds (Q : α → α → Prop) (e e' : RecordEntry α) : Prop where
  key : Corresponds Eq e.key e'.key
  value : Corresponds Q e.value e'.value

theorem EntryCorresponds.accepted? {e e' : RecordEntry α} (h : EntryCorresponds Q e e') :
    Option.Rel (Entries.SameKey Q) e.accepted? e'.accepted? := by
  obtain ⟨path, key, value⟩ := e
  obtain ⟨path', key', value'⟩ := e'
  obtain ⟨keys, values⟩ := h
  dsimp only at keys values
  cases keys with
  | failure => exact .none
  | success same =>
    cases values with
    | failure => exact .none
    | success related => exact .some ⟨same, related⟩

/-- However the entries are ordered, the output has the same keys, so the duplicates are as many. -/
theorem assemble_corresponds {es es' : List (RecordEntry α)}
    (h : InAnyOrder (EntryCorresponds Q) es es') :
    Corresponds (Entries.Reordered Q) (settle (assemble [] es).1 (assemble [] es).2)
      (settle (assemble [] es').1 (assemble [] es').2) := by
  have inAnyOrder : InAnyOrder (Entries.SameKey Q) (accepted es) (accepted es') :=
    h.filterMap fun _ _ related => related.accepted?
  have acceptedKeys : (Entries.keys (accepted es)).Perm (Entries.keys (accepted es')) :=
    inAnyOrder.perm_map fun _ _ same => same.1
  have distinct : (Entries.keys (assemble [] es).1).Nodup := nodup_keys_assemble es List.nodup_nil
  have distinct' : (Entries.keys (assemble [] es').1).Nodup :=
    nodup_keys_assemble es' List.nodup_nil
  have keys : (Entries.keys (assemble [] es).1).Perm (Entries.keys (assemble [] es').1) := by
    refine (List.perm_ext_iff_of_nodup distinct distinct').mpr fun key => ?_
    rw [mem_keys_assemble_iff, mem_keys_assemble_iff, acceptedKeys.mem_iff]
  obtain ⟨duplicates, order, codes, count⟩ := assemble_issues_perm es []
  obtain ⟨duplicates', order', codes', count'⟩ := assemble_issues_perm es' []
  -- As many entries are accepted, and as many keys come out of them, so as many are left over.
  have sameCount : duplicates.length = duplicates'.length := by
    have outputs := keys.length_eq
    rw [Entries.keys, Entries.keys, List.length_map, List.length_map] at outputs
    have inputs := inAnyOrder.length_eq
    omega
  have own : SameTraces (es.flatMap RecordEntry.issues) (es'.flatMap RecordEntry.issues) := by
    rw [SameTraces, List.map_flatMap, List.map_flatMap]
    exact h.perm_flatMap fun e e' related => related.key.issues.append related.value.issues
  refine corresponds_settle ?_ fun none none' => ?_
  · have together := own.append (sameTraces_of_duplicates codes codes' sameCount)
    exact (sameTraces_of_perm order).trans (together.trans (sameTraces_of_perm order').symm)
  · refine ⟨distinct, ?_⟩
    rw [(assemble_of_no_issues none).1, (assemble_of_no_issues none').1]
    exact inAnyOrder

theorem recordEntry_corresponds {key : Validator σ String} {value : Validator σ α}
    (keys : key.OrderBlind Eq) (values : value.OrderBlind Q) (p : Path) {e f : String × Value}
    (same : Entries.SameKey Value.Reordered e f) :
    (recordEntry key value p e).Related (EntryCorresponds Q) (recordEntry key value p f) := by
  obtain ⟨name, v⟩ := e
  obtain ⟨name', v'⟩ := f
  obtain ⟨names, parts⟩ := same
  dsimp only at names parts
  subst names
  refine related_bind (keys _ _ (.same rfl rfl) _) fun o o' ofKey => ?_
  exact related_bind (values _ _ parts _) fun a a' ofValue => related_pure ⟨ofKey, ofValue⟩

theorem record_orderBlind (kindMessage : Option String) {key : Validator σ String}
    {value : Validator σ α} (keys : key.OrderBlind Eq) (values : value.OrderBlind Q) :
    (record kindMessage key value).OrderBlind (Entries.Reordered Q) := by
  intro v v' same p
  cases same with
  | same noList noObject =>
    rw [record, noObject]
    exact related_pure (corresponds_fail rfl rfl)
  | list => exact related_pure (corresponds_fail rfl rfl)
  | @object entries _ entries' distinct order keyOrder parts =>
    have reordered := Value.reordered_object_iff.mp (.object distinct order keyOrder parts)
    have each : InAnyOrder (Related (EntryCorresponds Q)) (entries.map (recordEntry key value p))
        (entries'.map (recordEntry key value p)) :=
      reordered.entries.map fun _ _ same => recordEntry_corresponds keys values p same
    exact related_bind (related_sequence_inAnyOrder each) fun es es' related =>
      related_pure (assemble_corresponds related)

/-! ## Unions and intersections -/

inductive AttemptCorresponds (Q : α → α → Prop) : Attempt α → Attempt α → Prop
  | accepted (position : Nat) {a b : α} (h : Q a b) :
    AttemptCorresponds Q (.accepted position a) (.accepted position b)
  | rejected {es fs : List Issue} (h : SameTraces es fs) :
    AttemptCorresponds Q (.rejected es) (.rejected fs)

theorem attempt_corresponds {ws : List (Validator σ α)} (h : ∀ w ∈ ws, w.OrderBlind Q)
    {v v' : Value}
    (same : v.Reordered v') (p : Path) (i : Nat) :
    (attempt v p i ws).Related (AttemptCorresponds Q) (attempt v' p i ws) := by
  induction ws generalizing i with
  | nil => exact related_pure (.rejected (sameTraces_refl []))
  | cons w rest ih =>
    rw [List.forall_mem_cons] at h
    refine related_bind (h.1 v v' same p) fun o o' related => ?_
    cases related with
    | success answer => exact related_pure (.accepted i answer)
    | failure issues =>
      refine related_bind (ih h.2 (i + 1)) fun b b' further => ?_
      cases further with
      | accepted position answer => exact related_pure (.accepted position answer)
      | rejected others => exact related_pure (.rejected (SameTraces.append issues others))

theorem rejection_sameTraces (message : Option String) (n : Nat) (p : Path) (v v' : Value)
    {es fs : List Issue} (h : SameTraces es fs) :
    SameTraces (rejection message n p v es).toList (rejection message n p v' fs).toList := by
  cases message with
  | some message => exact sameTraces_singleton rfl rfl
  | none =>
    cases es with
    | nil =>
      rw [h.nil_iff.mp rfl]
      exact sameTraces_singleton rfl rfl
    | cons e es =>
      cases fs with
      | nil => cases h.nil_iff.mpr rfl
      | cons f fs =>
        rw [rejection_cons, rejection_cons]
        exact h

theorem union_orderBlind (message : Option String) {ws : List (Validator σ α)}
    (h : ∀ w ∈ ws, w.OrderBlind Q) : (union message ws).OrderBlind Q := by
  intro v v' same p
  refine related_bind (attempt_corresponds h same p 0) fun b b' related => ?_
  cases related with
  | accepted position answer =>
    exact related_bind (steady_tell _) fun _ _ _ => related_pure (.success answer)
  | rejected issues => exact related_pure (.failure (rejection_sameTraces message _ p v v' issues))

theorem mergeAll_reordered {R : α → β → Prop} {outs : List (Entries α)} {outs' : List (Entries β)}
    (h : List.Forall₂ (Entries.Reordered R) outs outs') :
    (mergeAll outs).Reordered R (mergeAll outs') :=
  List.rel_foldl (fun _ _ done _ _ further => done.merge further) Entries.reordered_nil h

theorem intersection_orderBlind (kindMessage : Option String)
    {components : List (Validator σ (Entries α))}
    (h : ∀ w ∈ components, w.OrderBlind (Entries.Reordered Q)) :
    (intersection kindMessage components).OrderBlind (Entries.Reordered Q) := by
  intro v v' same p
  have each : List.Forall₂ (Related (Corresponds (Entries.Reordered Q)))
      (components.map fun component => component v p)
      (components.map fun component => component v' p) := by
    rw [List.forall₂_map_left_iff, List.forall₂_map_right_iff]
    exact List.forall₂_same.mpr fun w there => h w there v v' same p
  cases same with
  | same noList noObject =>
    rw [intersection, noObject]
    exact related_pure (corresponds_fail rfl rfl)
  | list => exact related_pure (corresponds_fail rfl rfl)
  | object =>
    refine related_bind (related_sequence each) fun os os' related => related_pure ?_
    exact corresponds_settle (allIssues_sameTraces (.of_forall₂ related)) fun _ _ =>
      mergeAll_reordered (outputs_forall₂ related)

/-! ## Modifiers -/

theorem OrderBlind.map {inner : Validator σ α} (h : inner.OrderBlind Q) {f : α → β}
    (hf : ∀ a b, Q a b → Q' (f a) (f b)) : (inner.map f).OrderBlind Q' :=
  fun v v' same p => related_bind (h v v' same p) fun _ _ related => related_pure (related.map hf)

theorem OrderBlind.imp {w : Validator σ α} (h : w.OrderBlind Q) {R : α → α → Prop}
    (implies : ∀ a b, Q a b → R a b) : w.OrderBlind R :=
  fun v v' same p => (h v v' same p).imp fun _ _ related => related.imp implies

theorem nullable_orderBlind {inner : Validator σ Value} (h : inner.OrderBlind Value.Reordered) :
    inner.nullable.OrderBlind Value.Reordered := by
  intro v v' same p
  rw [nullable, nullable, ← same.isNull_eq]
  by_cases null : v.isNull
  · simp only [null, if_true]
    exact related_pure (.success (.same rfl rfl))
  · simp only [null]
    exact h v v' same p

theorem optional_orderBlind {inner : Validator σ Value} (h : inner.OrderBlind Value.Reordered) :
    inner.optional.OrderBlind Value.Reordered := by
  intro v v' same p
  rw [optional, optional, ← same.isAbsent_eq]
  by_cases absent : v.isAbsent
  · simp only [absent, if_true]
    exact related_pure (.success (.same rfl rfl))
  · simp only [absent]
    exact h v v' same p

theorem withDefault_orderBlind {fallback : StateM σ α}
    (related : ∀ s t, Q (fallback.run s).1 (fallback.run t).1) {inner : Validator σ α}
    (h : inner.OrderBlind Q) : (inner.withDefault fallback).OrderBlind Q := by
  intro v v' same p
  rw [withDefault, withDefault, ← same.isAbsent_eq]
  by_cases absent : v.isAbsent
  · simp only [absent, if_true]
    have answers : (ofState fallback).Related Q (ofState fallback) := related
    exact related_bind answers fun a b both => related_pure (.success both)
  · simp only [absent]
    exact h v v' same p

/-- A modifier that does related things with related outputs is blind when the validator is. -/
theorem onSuccess_corresponds {inner : Validator σ α} (h : inner.OrderBlind Q)
    {f : α → Run σ (Outcome β)} {p : Path}
    (hf : ∀ a b, Q a b → (f a).Related (Corresponds Q') (f b)) {v v' : Value}
    (same : v.Reordered v') :
    Run.Related (Corresponds Q')
      (do match ← inner v p with
        | .success a => f a
        | .failure es => return .failure es)
      (do match ← inner v' p with
        | .success a => f a
        | .failure es => return .failure es) := by
  refine related_bind (h v v' same p) fun o o' related => ?_
  cases related with
  | success both => exact hf _ _ both
  | failure issues => exact related_pure (.failure issues)

theorem refine_orderBlind {test : α → StateM σ Bool} (respects : Respects Q Eq test)
    (message code : String) {inner : Validator σ α} (h : inner.OrderBlind Q) :
    (inner.refine test message code).OrderBlind Q := by
  intro v v' same p
  refine onSuccess_corresponds h (fun a b both => ?_) same
  refine related_bind (related_ofState respects both) ?_
  rintro holds _ rfl
  cases holds with
  | true => exact related_pure (.success both)
  | false => exact related_pure (corresponds_fail rfl rfl)

theorem transform_orderBlind {f : α → StateM σ β} (respects : Respects Q Q' f)
    {inner : Validator σ α} (h : inner.OrderBlind Q) : (inner.transform f).OrderBlind Q' := by
  intro v v' same p
  refine onSuccess_corresponds h (fun a b both => ?_) same
  exact related_bind (related_ofState respects both) fun c d answers =>
    related_pure (.success answers)

theorem tryMap_orderBlind {f : α → StateM σ (Outcome β)} (respects : Respects Q (Corresponds Q') f)
    {inner : Validator σ α} (h : inner.OrderBlind Q) : (inner.tryMap f).OrderBlind Q' := by
  intro v v' same p
  refine onSuccess_corresponds h (fun a b both => ?_) same
  exact related_bind (related_ofState respects both) fun o o' answers =>
    related_pure (answers.relocate p)

theorem steps_respects {fs : List (α → StateM σ α)} (h : ∀ f ∈ fs, Respects Q Q f) :
    Respects Q Q (steps fs) := by
  induction fs with
  | nil => exact fun a b both _ _ => both
  | cons f fs ih =>
    rw [List.forall_mem_cons] at h
    intro a b both s t
    rw [steps_cons, steps_cons]
    exact ih h.2 _ _ (h.1 a b both s t) _ _

/-- A converted value has no parts, and a value with parts is not converted. -/
theorem coerce_orderBlind (c : Coercion) {inner : Validator σ α} (h : inner.OrderBlind Q) :
    (inner.coerce c).OrderBlind Q := by
  intro v v' same p
  have parts : ∀ items, c.convert? (.list items) = none := fun items => by cases c <;> rfl
  have entries : ∀ entries, c.convert? (.object entries) = none := fun entries => by cases c <;> rfl
  have whole := h v v' same p
  cases same with
  | list =>
    rw [coerce, coerce, parts, parts]
    exact whole
  | object =>
    rw [coerce, coerce, entries, entries]
    exact whole
  | same noList noObject =>
    rw [coerce]
    cases converted : c.convert? v with
    | none => exact whole
    | some w =>
      have atom : w.list? = none ∧ w.object? = none := by
        cases c with
        | toText | toNumber | toBoolean | toDate =>
          obtain ⟨x, _, rfl⟩ := Option.map_eq_some_iff.mp converted
          exact ⟨rfl, rfl⟩
      exact related_bind (steady_tell _) fun _ _ _ => h w w (.same atom.1 atom.2) p

end Validator

end Conform
