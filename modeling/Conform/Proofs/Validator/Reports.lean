import Conform.Proofs.Run.Success
import Conform.Validator.Choice
import Conform.Validator.Modifier
import Conform.Validator.Structure

/-!
# What validators report

A condition on the issues of a validator, given the value and its path.  What the parts report is
all that lists, objects, unions and modifiers pass on, besides a few issues of their own.
-/

set_option autoImplicit false

namespace Conform

variable {σ α β : Type} {P : Issue → Prop}

theorem Outcome.mem_issues_settle {a : α} {es : List Issue} {e : Issue} :
    e ∈ (settle a es).issues ↔ e ∈ es := by
  rw [issues_settle]

namespace Run

/-- Whatever state it starts from, the run reports no other issues. -/
def Reports (P : Issue → Prop) (r : Run σ (Outcome α)) : Prop :=
  ∀ s, ∀ e ∈ (r s).result.issues, P e

theorem reports_success (a : α) : Reports P (pure (.success a) : Run σ (Outcome α)) := by
  intro s e member
  cases member

theorem reports_fail {e : Issue} (h : P e) : Reports P (pure (.fail e) : Run σ (Outcome α)) := by
  intro s f member
  rw [List.mem_singleton.mp member]
  exact h

theorem Reports.map {r : Run σ (Outcome α)} (h : r.Reports P) (f : α → β) :
    Reports P (do return (← r).map f) := by
  intro s e member
  rw [bind_apply, pure_apply, Outcome.issues_map] at member
  exact h s e member

theorem reports_of_sequence {rs : List (Run σ (Outcome α))} (h : ∀ r ∈ rs, r.Reports P) (s : σ) :
    ∀ e ∈ Outcome.allIssues (sequence rs s).result, P e := by
  have each : List.Forall₂ (fun (o : Outcome α) (_ : Run σ (Outcome α)) => ∀ e ∈ o.issues, P e)
      (sequence rs s).result rs :=
    results_of_sequence (List.forall₂_same.mpr fun r member t => h r member t) s
  intro e member
  obtain ⟨o, found, ofOutcome⟩ := List.mem_flatMap.mp member
  obtain ⟨r, _, reports⟩ := exists_of_mem_right each.flip found
  exact reports e ofOutcome

end Run

namespace Validator

open Run

variable {Φ : Value → Path → Issue → Prop}

def Reports (Φ : Value → Path → Issue → Prop) (w : Validator σ α) : Prop :=
  ∀ v p, (w v p).Reports (Φ v p)

theorem gather_reports {besides : List Issue} {parts : List (Run σ (Outcome α))}
    (own : ∀ e ∈ besides, P e) (h : ∀ r ∈ parts, r.Reports P) :
    (gather besides parts).Reports P := by
  intro s e member
  have settled : e ∈ besides ++ Outcome.allIssues (Run.sequence parts s).result :=
    Outcome.mem_issues_settle.mp member
  rcases List.mem_append.mp settled with ofOwn | ofParts
  · exact own e ofOwn
  · exact reports_of_sequence h s e ofParts

/-! ## Parts -/

theorem mem_itemsFrom {item : Validator σ α} {p : Path} {i : Nat} {items : List Value}
    {r : Run σ (Outcome α)} (h : r ∈ itemsFrom item p i items) :
    ∃ j v, items[j]? = some v ∧ r = item v (p.index (i + j)) := by
  induction items generalizing i with
  | nil => cases h
  | cons v rest ih =>
    rcases List.mem_cons.mp h with rfl | later
    · exact ⟨0, v, rfl, rfl⟩
    · obtain ⟨j, x, found, rfl⟩ := ih later
      refine ⟨j + 1, x, found, ?_⟩
      rw [show i + (j + 1) = i + 1 + j by omega]

theorem mem_positionsFrom {v : Value} {p : Path} {i : Nat} {ws : List (Validator σ α)}
    {r : Run σ (Outcome α)} (h : r ∈ positionsFrom v p i ws) :
    ∃ j, ∃ w ∈ ws, r = w (v.item j) (p.index j) := by
  induction ws generalizing i with
  | nil => cases h
  | cons w rest ih =>
    rcases List.mem_cons.mp h with rfl | later
    · exact ⟨i, w, List.mem_cons_self, rfl⟩
    · obtain ⟨j, x, member, same⟩ := ih later
      exact ⟨j, x, List.mem_cons_of_mem _ member, same⟩

theorem object_reports {shape : Shape (Validator σ Value)} {entries : Entries Value} {p : Path}
    (fields : ∀ f ∈ shape.fields,
      (f.2 ((Value.object entries).get f.1) (p.field f.1)).Reports P)
    (unexpected : ∀ e ∈ entries, P (unexpectedKey p e.1 e.2))
    (unknown : shape.unknown.Holds fun w => ∀ e ∈ entries, (w e.2 (p.field e.1)).Reports P) :
    (object shape (.object entries) p).Reports P := by
  have eachField : ∀ r ∈ shape.fields.map (fun f => field (.object entries) p f.1 f.2),
      r.Reports P := by
    intro r member
    obtain ⟨f, inFields, rfl⟩ := List.mem_map.mp member
    exact (fields f inFields).map fun v => (f.1, v)
  have eachUnknown : ∀ r ∈ (undeclared shape.fields entries).flatMap (unknownEntry shape.unknown p),
      r.Reports P := by
    intro r member
    obtain ⟨entry, isUndeclared, ofEntry⟩ := List.mem_flatMap.mp member
    have inEntries := (List.mem_filter.mp isUndeclared).1
    cases kept : shape.unknown with
    | strip =>
      rw [kept] at ofEntry
      cases ofEntry
    | allow =>
      rw [kept] at ofEntry
      rw [List.mem_singleton.mp ofEntry]
      exact reports_success entry
    | deny =>
      rw [kept] at ofEntry
      rw [List.mem_singleton.mp ofEntry]
      exact reports_fail (unexpected entry inEntries)
    | validate w =>
      rw [kept] at ofEntry unknown
      rw [List.mem_singleton.mp ofEntry]
      exact (unknown entry inEntries).map fun v => (entry.1, v)
  intro s e member
  rcases List.mem_append.mp (Outcome.mem_issues_settle.mp member) with ofDeclared | ofUnknown
  · exact reports_of_sequence eachField s e ofDeclared
  · exact reports_of_sequence eachUnknown _ e ofUnknown

theorem assemble_reports {es : List (RecordEntry α)}
    (h : ∀ x ∈ es, (∀ e ∈ x.key.issues, P e) ∧ (∀ e ∈ x.value.issues, P e) ∧
      ∀ key, P (duplicateKey x.path key)) (done : Entries α) :
    ∀ e ∈ (assemble done es).2, P e := by
  induction es generalizing done with
  | nil =>
    intro e member
    cases member
  | cons x rest ih =>
    obtain ⟨⟨keys, values, duplicates⟩, others⟩ := List.forall_mem_cons.mp h
    obtain ⟨path, key, value⟩ := x
    intro e member
    cases key with
    | failure ks =>
      rcases List.mem_append.mp member with own | later
      · rcases List.mem_append.mp own with ofKey | ofValue
        · exact keys e ofKey
        · exact values e ofValue
      · exact ih others done e later
    | success k =>
      cases value with
      | failure vs =>
        rcases List.mem_append.mp member with ofValue | later
        · exact values e ofValue
        · exact ih others done e later
      | success a =>
        by_cases taken : Entries.contains done k
        · simp only [assemble, taken, if_true] at member
          rcases List.mem_cons.mp member with rfl | later
          · exact duplicates k
          · exact ih others done e later
        · simp only [assemble, taken] at member
          exact ih others _ e member

theorem record_reports {kindMessage : Option String} {key : Validator σ String}
    {value : Validator σ α} {entries : Entries Value} {p : Path}
    (keys : ∀ e ∈ entries, (key (.text e.1) (p.field e.1)).Reports P)
    (values : ∀ e ∈ entries, (value e.2 (p.field e.1)).Reports P)
    (duplicates : ∀ e ∈ entries, ∀ k, P (duplicateKey (p.field e.1) k)) :
    (record kindMessage key value (.object entries) p).Reports P := by
  intro s e member
  have answers : List.Forall₂ (fun (x : RecordEntry α) (_ : String × Value) =>
      (∀ e ∈ x.key.issues, P e) ∧ (∀ e ∈ x.value.issues, P e) ∧
        ∀ key, P (duplicateKey x.path key))
      (Run.sequence (entries.map (recordEntry key value p)) s).result entries := by
    refine results_of_sequence ?_ s
    rw [List.forall₂_map_left_iff]
    exact List.forall₂_same.mpr fun e there t =>
      ⟨keys e there t, values e there _, duplicates e there⟩
  refine assemble_reports (fun x found => ?_) [] e (Outcome.mem_issues_settle.mp member)
  obtain ⟨_, _, reports⟩ := exists_of_mem_right answers.flip found
  exact reports

theorem intersection_reports {kindMessage : Option String}
    {components : List (Validator σ (Entries α))} {entries : Entries Value} {p : Path}
    (h : ∀ w ∈ components, (w (.object entries) p).Reports P) :
    (intersection kindMessage components (.object entries) p).Reports P := by
  intro s e member
  refine reports_of_sequence ?_ s e (Outcome.mem_issues_settle.mp member)
  intro r inRuns
  obtain ⟨w, there, rfl⟩ := List.mem_map.mp inRuns
  exact h w there

/-! ## Unions -/

theorem attempt_reports {ws : List (Validator σ α)} {v : Value} {p : Path}
    (h : ∀ w ∈ ws, (w v p).Reports P) (i : Nat) (s : σ) {issues : List Issue}
    (rejected : (attempt v p i ws s).result = .rejected issues) : ∀ e ∈ issues, P e := by
  induction ws generalizing i s issues with
  | nil =>
    cases rejected
    intro e member
    cases member
  | cons w rest ih =>
    obtain ⟨head, others⟩ := List.forall_mem_cons.mp h
    rw [attempt, bind_apply] at rejected
    have reports := head s
    cases first : (w v p s).result with
    | success a =>
      rw [first] at rejected
      cases rejected
    | failure es =>
      rw [first] at rejected reports
      simp only [bind_apply] at rejected
      cases later : (attempt v p (i + 1) rest (w v p s).state).result with
      | accepted j a =>
        rw [later] at rejected
        cases rejected
      | rejected fs =>
        rw [later] at rejected
        cases rejected
        intro e member
        rcases List.mem_append.mp member with own | further
        · exact reports e own
        · exact ih others (i + 1) _ later e further

theorem union_reports {message : Option String} {ws : List (Validator σ α)}
    (h : ∀ w ∈ ws, w.Reports Φ) (none : ∀ text n v p, Φ v p (noMatch text n p v)) :
    (union message ws).Reports Φ := by
  intro v p s
  rw [union, bind_apply]
  cases attempted : (attempt v p 0 ws s).result with
  | accepted j a =>
    intro e member
    cases member
  | rejected issues =>
    have reports := attempt_reports (fun w member => h w member v p) 0 s attempted
    intro e member
    cases message with
    | some text =>
      rw [List.mem_singleton.mp member]
      exact none text ws.length v p
    | none =>
      cases issues with
      | nil =>
        rw [List.mem_singleton.mp member]
        exact none _ ws.length v p
      | cons f rest =>
        have reported : e ∈ (rejection Option.none ws.length p v (f :: rest)).toList := member
        rw [rejection_cons] at reported
        exact reports e reported

/-! ## Modifiers -/

theorem Reports.map {inner : Validator σ α} (h : inner.Reports Φ) (f : α → β) :
    (inner.map f).Reports Φ := by
  intro v p
  exact (h v p).map f

theorem nullable_reports {inner : Validator σ Value} (h : inner.Reports Φ) :
    inner.nullable.Reports Φ := by
  intro v p
  rw [nullable]
  by_cases null : v.isNull
  · simp only [null, if_true]
    exact reports_success _
  · simp only [null]
    exact h v p

theorem optional_reports {inner : Validator σ Value} (h : inner.Reports Φ) :
    inner.optional.Reports Φ := by
  intro v p
  rw [optional]
  by_cases absent : v.isAbsent
  · simp only [absent, if_true]
    exact reports_success _
  · simp only [absent]
    exact h v p

theorem withDefault_reports (fallback : StateM σ α) {inner : Validator σ α}
    (h : inner.Reports Φ) : (inner.withDefault fallback).Reports Φ := by
  intro v p
  rw [withDefault]
  by_cases absent : v.isAbsent
  · simp only [absent, if_true]
    intro s e member
    cases member
  · simp only [absent]
    exact h v p

theorem refine_reports {test : α → StateM σ Bool} {message code : String} {inner : Validator σ α}
    (h : inner.Reports Φ) (failed : ∀ v p, Φ v p (.bare p message code)) :
    (inner.refine test message code).Reports Φ := by
  intro v p s
  have reports := h v p s
  rw [refine_result]
  cases first : (inner v p s).result with
  | failure es =>
    rw [first] at reports
    exact reports
  | success a =>
    rw [Outcome.bind]
    by_cases holds : ((test a).run (inner v p s).state).1 = true
    · rw [if_pos holds]
      intro e member
      cases member
    · rw [if_neg holds]
      intro e member
      rw [List.mem_singleton.mp member]
      exact failed v p

theorem transform_reports (f : α → StateM σ β) {inner : Validator σ α} (h : inner.Reports Φ) :
    (inner.transform f).Reports Φ := by
  intro v p s
  have reports := h v p s
  rw [transform, bind_apply]
  cases first : (inner v p s).result with
  | success a =>
    intro e member
    cases member
  | failure es =>
    rw [first] at reports
    exact reports

theorem coerce_reports {c : Coercion} {inner : Validator σ α} (h : inner.Reports Φ)
    (converted : ∀ v p w, c.convert? v = some w → (inner w p).Reports (Φ v p)) :
    (inner.coerce c).Reports Φ := by
  intro v p
  rw [coerce]
  cases conversion : c.convert? v with
  | none => exact h v p
  | some w => exact fun s => converted v p w conversion s

end Validator

end Conform
