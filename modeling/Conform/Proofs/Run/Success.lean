import Conform.Outcome
import Conform.Run
import Mathlib.Data.List.Forall2

/-!
# Success of runs

What a run answers once, what it answers always, and how both pass through the runs for the parts of
a value.
-/

set_option autoImplicit false

namespace Conform

variable {σ α β : Type}

theorem exists_of_mem_right {R : α → β → Prop} {as : List α} {bs : List β} {b : β}
    (h : List.Forall₂ R as bs) (member : b ∈ bs) : ∃ a ∈ as, R a b := by
  induction h with
  | nil => cases member
  | cons first _ ih =>
    rcases List.mem_cons.mp member with rfl | later
    · exact ⟨_, List.mem_cons_self, first⟩
    · obtain ⟨a, found, related⟩ := ih later
      exact ⟨a, List.mem_cons_of_mem _ found, related⟩

theorem forall₂_comp {γ : Type} {R : α → β → Prop} {T : β → γ → Prop} {S : α → γ → Prop}
    {as : List α} {bs : List β} {cs : List γ} (h : List.Forall₂ R as bs) (h' : List.Forall₂ T bs cs)
    (compose : ∀ a b c, R a b → T b c → S a c) : List.Forall₂ S as cs := by
  induction h generalizing cs with
  | nil =>
    cases h'
    exact .nil
  | cons first _ ih =>
    cases h' with
    | cons second later => exact .cons (compose _ _ _ first second) (ih later)

theorem Run.results_of_sequence {Q : α → β → Prop} {rs : List (Run σ α)} {bs : List β}
    (h : List.Forall₂ (fun r b => ∀ s, Q (r s).result b) rs bs) (s : σ) :
    List.Forall₂ Q (Run.sequence rs s).result bs := by
  induction h generalizing s with
  | nil => exact .nil
  | cons first _ ih => exact .cons (first s) (ih _)

/-! ## Outcomes -/

namespace Outcome

/-- A success; where it is said to be exact, with this very output. -/
def Returns (exact : Prop) (o : Outcome α) (a : α) : Prop :=
  ∃ b, o = .success b ∧ (exact → b = a)

theorem settle_eq_success {a b : α} {es : List Issue} (h : settle a es = .success b) :
    es = [] ∧ a = b := by
  cases es with
  | nil =>
    rw [settle_nil] at h
    cases h
    exact ⟨rfl, rfl⟩
  | cons e rest => cases h

theorem map_eq_success_iff (f : α → β) (o : Outcome α) (b : β) :
    o.map f = .success b ↔ ∃ a, o = .success a ∧ f a = b := by
  cases o with
  | success a =>
    constructor
    · intro mapped
      exact ⟨a, rfl, Outcome.success.inj mapped⟩
    · rintro ⟨_, ⟨⟩, rfl⟩
      rfl
  | failure es => exact ⟨nofun, nofun⟩

theorem output?_eq_some_iff {o : Outcome α} {a : α} : o.output? = some a ↔ o = .success a := by
  cases o with
  | success b => exact ⟨fun same => congrArg success (Option.some.inj same), fun | rfl => rfl⟩
  | failure es => exact ⟨nofun, nofun⟩

theorem eq_failure_iff (o : Outcome α) (es : Issues) : o = .failure es ↔ o.issues = es.toList := by
  cases o with
  | success a => exact ⟨nofun, fun none => absurd none.symm es.toList_ne_nil⟩
  | failure fs =>
    constructor
    · rintro ⟨⟩
      rfl
    · intro same
      have both := congrArg Issues.ofList? same
      rw [issues, Issues.ofList?_toList, Issues.ofList?_toList] at both
      exact congrArg failure (Option.some.inj both)

theorem fails_iff (o : Outcome α) : (∃ es, o = .failure es) ↔ o.issues ≠ [] := by
  cases o with
  | success a => exact ⟨nofun, fun some => absurd rfl some⟩
  | failure es => exact ⟨fun _ => es.toList_ne_nil, fun _ => ⟨es, rfl⟩⟩

theorem issues_map (f : α → β) (o : Outcome α) : (o.map f).issues = o.issues := by
  cases o <;> rfl

theorem outputs_map_success (as : List α) : outputs (as.map success) = as := by
  induction as with
  | nil => rfl
  | cons a rest ih => rw [List.map_cons, outputs_success_cons, ih]

theorem allIssues_map_success (as : List α) : allIssues (as.map success) = [] := by
  induction as with
  | nil => rfl
  | cons a rest ih => rw [List.map_cons, allIssues_cons, ih, issues, List.nil_append]

theorem outputs_append (os others : List (Outcome α)) :
    outputs (os ++ others) = outputs os ++ outputs others := List.filterMap_append

theorem allIssues_append (os others : List (Outcome α)) :
    allIssues (os ++ others) = allIssues os ++ allIssues others := List.flatMap_append

theorem eq_map_success {os : List (Outcome α)} (h : allIssues os = []) :
    os = (outputs os).map success := by
  induction os with
  | nil => rfl
  | cons o rest ih =>
    rw [allIssues_cons] at h
    obtain ⟨own, others⟩ := List.append_eq_nil_iff.mp h
    obtain ⟨a, rfl⟩ := (issues_eq_nil_iff o).mp own
    rw [outputs_success_cons, List.map_cons, ← ih others]

theorem issues_gather (besides : List Issue) (os : List (Outcome α)) :
    (gather besides os).issues = besides ++ allIssues os := issues_settle _ _

theorem gather_eq_success_iff {besides : List Issue} {os : List (Outcome α)} {as : List α} :
    gather besides os = .success as ↔ besides = [] ∧ os = as.map .success := by
  constructor
  · intro gathered
    obtain ⟨none, rfl⟩ := settle_eq_success gathered
    obtain ⟨noneBesides, noneWithin⟩ := List.append_eq_nil_iff.mp none
    exact ⟨noneBesides, eq_map_success noneWithin⟩
  · rintro ⟨rfl, rfl⟩
    rw [gather, outputs_map_success, allIssues_map_success]
    rfl

theorem Returns.all {exact : Prop} {os : List (Outcome α)} {as : List α}
    (h : List.Forall₂ (Returns exact) os as) :
    ∃ bs, os = bs.map success ∧ (exact → bs = as) := by
  induction h with
  | nil => exact ⟨[], rfl, fun _ => rfl⟩
  | cons first _ ih =>
    obtain ⟨b, rfl, same⟩ := first
    obtain ⟨bs, rfl, others⟩ := ih
    exact ⟨b :: bs, rfl, fun e => by rw [same e, others e]⟩

end Outcome

open Outcome

/-! ## Runs -/

namespace Run

def CanReturn (r : Run σ (Outcome α)) (a : α) : Prop := ∃ s, (r s).result = .success a

def Returns (exact : Prop) (r : Run σ (Outcome α)) (a : α) : Prop :=
  ∀ s, (r s).result.Returns exact a

theorem canReturn_of_sequence {rs : List (Run σ (Outcome α))} {s : σ}
    (h : allIssues (sequence rs s).result = []) :
    List.Forall₂ CanReturn rs (outputs (sequence rs s).result) := by
  have ran : List.Forall₂ (fun o (r : Run σ (Outcome α)) => ∃ t, (r t).result = o)
      (sequence rs s).result rs :=
    results_of_sequence (List.forall₂_same.mpr fun r _ t => ⟨t, rfl⟩) s
  have eachReturns := ran.flip
  rw [eq_map_success h, List.forall₂_map_right_iff] at eachReturns
  exact eachReturns

theorem returns_of_sequence {exact : Prop} {rs : List (Run σ (Outcome α))} {as : List α}
    (h : List.Forall₂ (Returns exact) rs as) (s : σ) :
    ∃ bs, (sequence rs s).result = bs.map success ∧ (exact → bs = as) :=
  Outcome.Returns.all (results_of_sequence h s)

theorem canReturn_map_iff {r : Run σ (Outcome α)} {f : α → β} {b : β} :
    CanReturn (do return (← r).map f) b ↔ ∃ a, r.CanReturn a ∧ f a = b := by
  constructor
  · rintro ⟨s, ran⟩
    obtain ⟨a, answer, rfl⟩ := (map_eq_success_iff f (r s).result b).mp ran
    exact ⟨a, ⟨s, answer⟩, rfl⟩
  · rintro ⟨a, ⟨s, ran⟩, rfl⟩
    exact ⟨s, (map_eq_success_iff f (r s).result (f a)).mpr ⟨a, ran, rfl⟩⟩

theorem Returns.map {exact : Prop} {r : Run σ (Outcome α)} {a : α} (h : r.Returns exact a)
    (f : α → β) : Returns exact (do return (← r).map f) (f a) := by
  intro s
  obtain ⟨b, ran, same⟩ := h s
  refine ⟨f b, ?_, fun e => congrArg f (same e)⟩
  show (r s).result.map f = .success (f b)
  rw [ran, Outcome.map]

end Run

end Conform
