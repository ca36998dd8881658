import Conform.Proofs.Entries.Merge
import Conform.Proofs.Run.InTurn
import Conform.Proofs.Run.Success
import Conform.Proofs.Schema.Structure
import Conform.Schema.Parse
import Mathlib.Data.List.Induction

/-!
# What an intersection makes of its components

An intersection runs every component on the same object.  It succeeds when all of them do; then a
key stands where a component first has it, with the value of the component that has it last.
Otherwise it has the issues of all components that fail.

The place of a key is told by the first of its entries and the value by the last, and both are the
same for a group of components whose outputs are merged beforehand.  So intersections may be nested
or flattened at will.
-/

set_option autoImplicit false

namespace Conform

open Outcome

/-! ## Merging several maps -/

namespace Validator

variable {α β : Type}

theorem mergeAll_eq_ofList (outs : List (Entries α)) :
    mergeAll outs = Entries.ofList outs.flatten :=
  List.foldl_flatten.symm

theorem mergeAll_nested (before group after : List (Entries α)) :
    mergeAll (before ++ mergeAll group :: after) = mergeAll (before ++ group ++ after) := by
  simp only [mergeAll_eq_ofList, List.flatten_append, List.flatten_cons]
  rw [Entries.ofList, Entries.merge_append, Entries.merge_append, Entries.merge_ofList,
    ← Entries.merge_append, ← Entries.merge_append, ← List.append_assoc, Entries.ofList]

theorem keys_mergeAll (outs : List (Entries α)) :
    Entries.keys (mergeAll outs) = (outs.flatMap Entries.keys).eraseDups := by
  rw [mergeAll_eq_ofList, Entries.keys_ofList, Entries.keys, List.map_flatten]
  rfl

/-- Under a key stands the value of the last map that has it. -/
theorem get?_mergeAll {outs : List (Entries α)} (distinct : ∀ m ∈ outs, (Entries.keys m).Nodup)
    (key : String) :
    Entries.get? (mergeAll outs) key = outs.reverse.findSome? fun m => Entries.get? m key := by
  induction outs using List.reverseRecOn with
  | nil => rfl
  | append_singleton outs m ih =>
    have last : mergeAll (outs ++ [m]) = Entries.merge (mergeAll outs) m := by
      rw [mergeAll, List.foldl_append]
      rfl
    have others := ih fun o there => distinct o (List.mem_append_left [m] there)
    have own := distinct m (List.mem_append_right outs (List.mem_singleton_self m))
    rw [last, Entries.get?_merge, Entries.get?_reverse own, others, List.reverse_append,
      List.reverse_singleton, List.singleton_append, List.findSome?_cons]
    cases Entries.get? m key <;> rfl

/-! ## Answers of components -/

/-- What the answers of the components come to. -/
def mergeAnswers (answers : List (Outcome (Entries α))) : Outcome (Entries α) :=
  .settle (mergeAll (outputs answers)) (allIssues answers)

theorem mergeAnswers_issues (answers : List (Outcome (Entries α))) :
    (mergeAnswers answers).issues = answers.flatMap Outcome.issues := issues_settle _ _

theorem mergeAnswers_success (outs : List (Entries α)) :
    mergeAnswers (outs.map .success) = .success (mergeAll outs) := by
  rw [mergeAnswers, outputs_map_success, allIssues_map_success, settle_nil]

/-- A success merges what all components have answered. -/
theorem eq_of_mergeAnswers {answers : List (Outcome (Entries α))} {out : Entries α}
    (merged : mergeAnswers answers = .success out) :
    ∃ outs, answers = outs.map .success ∧ out = mergeAll outs := by
  obtain ⟨none, rfl⟩ := settle_eq_success merged
  exact ⟨_, eq_map_success none, rfl⟩

theorem settle_of_issues (a b : β) {es : List Issue} (some : es ≠ []) :
    Outcome.settle a es = .settle b es := by
  cases es with
  | nil => exact absurd rfl some
  | cons e rest => rfl

/-- A group of answers may be merged beforehand. -/
theorem mergeAnswers_nested (before group after : List (Outcome (Entries α))) :
    mergeAnswers (before ++ mergeAnswers group :: after) =
      mergeAnswers (before ++ group ++ after) := by
  have issues : allIssues (before ++ mergeAnswers group :: after) =
      allIssues (before ++ group ++ after) := by
    simp only [allIssues, List.flatMap_append, List.flatMap_cons, mergeAnswers_issues,
      List.append_assoc]
  cases found : allIssues group with
  | nil =>
    -- The group answers with its merged output, which is merged with the others.
    have accepted : mergeAnswers group = .success (mergeAll (outputs group)) := by
      rw [mergeAnswers, found, settle_nil]
    have outs : outputs (before ++ mergeAnswers group :: after) =
        outputs before ++ mergeAll (outputs group) :: outputs after := by
      rw [accepted, outputs, List.filterMap_append]
      rfl
    rw [mergeAnswers, issues, outs, mergeAll_nested, mergeAnswers]
    simp only [outputs, List.filterMap_append]
  | cons e rest =>
    -- There are issues, and then the outputs do not count.
    have some : allIssues (before ++ group ++ after) ≠ [] := by
      intro none
      rw [allIssues, List.flatMap_append, List.flatMap_append] at none
      have noneOfGroup := (List.append_eq_nil_iff.mp (List.append_eq_nil_iff.mp none).1).2
      rw [← allIssues, found] at noneOfGroup
      cases noneOfGroup
    rw [mergeAnswers, issues, mergeAnswers]
    exact settle_of_issues _ _ some

end Validator

/-! ## Intersections -/

namespace Schema

open Validator

variable {σ : Type}

/-- What the components of an intersection answer, one after another, all on the same value. -/
def componentAnswers (components : List (Schema σ .map)) (v : Value) (p : Path) (s : σ) :
    List (Outcome (Entries Value)) :=
  (Run.inTurn (components.map fun c => c.validate v p) s).map Ran.result

theorem intersection_run (kindMessage : Option String) (components : List (Schema σ .map))
    (entries : Entries Value) (p : Path) :
    (intersection kindMessage components).validate (.object entries) p = do
      return mergeAnswers
        (← Run.sequence (components.map fun c => c.validate (.object entries) p)) := by
  have runs : (components.map validator).map (fun w => w (.object entries) p) =
      components.map fun c => c.validate (.object entries) p := by
    rw [List.map_map]
    rfl
  rw [validate, validator_intersection, ← runs]
  rfl

theorem intersection_result (kindMessage : Option String) (components : List (Schema σ .map))
    (entries : Entries Value) (p : Path) (s : σ) :
    ((intersection kindMessage components).validate (.object entries) p s).result =
      mergeAnswers (componentAnswers components (.object entries) p s) := by
  rw [intersection_run, Run.bind_apply, Run.sequence_apply]
  rfl

/-- A group of components may be an intersection of its own. -/
theorem intersection_nested (kindMessage message : Option String)
    (before group after : List (Schema σ .map)) :
    (intersection kindMessage (before ++ intersection message group :: after)).validate =
      (intersection kindMessage (before ++ group ++ after)).validate := by
  funext v p
  cases v with
  | object entries =>
    rw [intersection_run, intersection_run, List.map_append, List.map_cons, intersection_run,
      List.map_append, List.map_append]
    simp only [Run.sequence_append, Run.sequence, bind_assoc, pure_bind, mergeAnswers_nested]
  | absent | null | bool | number | text | list | date =>
    rw [validate, validate, validator_intersection, validator_intersection]
    rfl

/-- An intersection accepts an object when every component does.  Its output has the keys of their
outputs in the order in which they first occur, each with the value of the last component that has
it; outputs are maps, so that no key occurs twice in one of them.  A failure has the issues of all
components.  On any value, a group of components may be put into an intersection of its own: it
makes no difference to the answer, the state or the events. -/
theorem intersection_merges (kindMessage : Option String) (components : List (Schema σ .map)) :
    (∀ (entries : Entries Value) (p : Path) (s : σ) (o : Outcome (Entries Value)),
      ((intersection kindMessage components).validate (.object entries) p s).result = o →
        ((∃ out, o = .success out) ↔
          ∀ a ∈ componentAnswers components (.object entries) p s, ∃ out, a = .success out) ∧
        (∀ outs : List (Entries Value),
          componentAnswers components (.object entries) p s = outs.map .success →
          ∃ out, o = .success out ∧ Entries.keys out = (outs.flatMap Entries.keys).eraseDups ∧
            ((∀ m ∈ outs, (Entries.keys m).Nodup) → ∀ key,
              Entries.get? out key = outs.reverse.findSome? fun m => Entries.get? m key)) ∧
        ∀ es, o = .failure es →
          es.toList = (componentAnswers components (.object entries) p s).flatMap Outcome.issues) ∧
    ∀ (message : Option String) (before group after : List (Schema σ .map)),
      components = before ++ group ++ after →
        (intersection kindMessage (before ++ intersection message group :: after)).validate =
          (intersection kindMessage components).validate := by
  refine ⟨fun entries p s o ran => ?_, ?_⟩
  · rw [intersection_result] at ran
    subst ran
    refine ⟨⟨?_, fun accepted => ?_⟩, ?_, ?_⟩
    · rintro ⟨out, merged⟩ a member
      obtain ⟨outs, answers, _⟩ := eq_of_mergeAnswers merged
      rw [answers] at member
      obtain ⟨out, _, rfl⟩ := List.mem_map.mp member
      exact ⟨out, rfl⟩
    · rw [← issues_eq_nil_iff, mergeAnswers_issues, List.flatMap_eq_nil_iff]
      intro a member
      exact (issues_eq_nil_iff a).mpr (accepted a member)
    · intro outs answers
      rw [answers, mergeAnswers_success]
      exact ⟨mergeAll outs, rfl, keys_mergeAll outs, get?_mergeAll⟩
    · intro es failed
      rw [← mergeAnswers_issues, failed]
      rfl
  · rintro message before group after rfl
    exact intersection_nested kindMessage message before group after

/-- A named thing, `fast` unless it says otherwise. -/
def named : Schema Unit .map :=
  .object ⟨[("mode", .erased (.withDefault (pure "fast") (.text .empty))),
    ("name", .erased (.text .empty))], .strip, none⟩

/-- A thing with a size, `safe` unless it says otherwise. -/
def sized : Schema Unit .map :=
  .object ⟨[("size", .erased (.number .empty)),
    ("mode", .erased (.withDefault (pure "safe") (.text .empty)))], .strip, none⟩

def crate : Entries Value := [("size", .number .zero), ("name", .text "a")]

/-- The mode stands where `named` has it, with the value that `sized` gives it. -/
theorem crate_intersection_merges :
    ∃ out, ((intersection none [named, sized]).validate (.object crate) .root ()).result =
        .success out ∧
      Entries.keys out = ["mode", "name", "size"] ∧
      Entries.get? out "mode" = some (.text "safe") ∧
      (intersection none [intersection (some "crate") [named, sized]]).validate =
        (intersection none [named, sized]).validate := by
  obtain ⟨onObjects, nested⟩ := intersection_merges (σ := Unit) none [named, sized]
  obtain ⟨_, merges, _⟩ := onObjects crate .root () _ rfl
  obtain ⟨out, ran, keys, values⟩ := merges
    [[("mode", .text "fast"), ("name", .text "a")],
      [("size", .number .zero), ("mode", .text "safe")]] rfl
  have mode := values (by decide) "mode"
  exact ⟨out, ran, keys, mode, nested (some "crate") [] [named, sized] [] rfl⟩

end Schema

end Conform
