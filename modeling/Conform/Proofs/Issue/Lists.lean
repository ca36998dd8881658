import Conform.Proofs.Run.Success

/-!
# Issues as lists

`Issues.toList` shows all there is to issues.  Issues are taken up one at a time when they come from
a list and when they are relocated; what results has the same issues in the same order.  So `++` is
associative, and relocating is an action of paths on issues that passes through `++`.
-/

set_option autoImplicit false

namespace Conform

namespace Outcome

variable {α : Type}

theorem settle_eq_failure_iff (output : α) (es : List Issue) (all : Issues) :
    settle output es = .failure all ↔ all.toList = es := by
  rw [eq_failure_iff, issues_settle]
  exact eq_comm

theorem settle_eq_success_iff (output a : α) (es : List Issue) :
    settle output es = .success a ↔ es = [] ∧ output = a := by
  constructor
  · exact settle_eq_success
  · rintro ⟨rfl, rfl⟩
    exact settle_nil output

end Outcome

namespace Issues

theorem ofList?_eq_some_iff (es : List Issue) (all : Issues) :
    ofList? es = some all ↔ all.toList = es := by
  constructor
  · exact toList_of_ofList?
  · rintro rfl
    exact ofList?_toList all

theorem append_assoc (a b c : Issues) : a ++ b ++ c = a ++ (b ++ c) := by
  apply eq_of_toList_eq
  simp only [toList_append, List.append_assoc]

/-! ## Relocating -/

/-- What is done for other paths would do for the root as well. -/
theorem relocate_eq_addAll (p : Path) (es : Issues) :
    es.relocate p =
      (single (es.first.relocate p)).addAll ((es.toList.drop 1).map (·.relocate p)) := by
  apply eq_of_toList_eq
  rw [toList_relocate, toList_addAll]
  rfl

theorem relocate_append (p : Path) (a b : Issues) :
    (a ++ b).relocate p = a.relocate p ++ b.relocate p := by
  apply eq_of_toList_eq
  rw [toList_append, toList_relocate, toList_relocate, toList_relocate, toList_append,
    List.map_append]

theorem relocate_relocate (p q : Path) (es : Issues) :
    (es.relocate q).relocate p = es.relocate (p ++ q) := by
  apply eq_of_toList_eq
  rw [toList_relocate, toList_relocate, toList_relocate, List.map_map]
  exact List.map_congr_left fun e _ => e.relocate_relocate p q

/-- Only the empty list makes no issues; those of any other list, put together from any two lists as
well, are its members in their order, and an outcome that is settled with a list fails with them.

Relocating by `p` puts `p` before the path of every issue and leaves the rest of it, the number of
issues and their order as they are, whether `p` is the root or not.  It may be done before or after
issues are put together, and two paths one after the other act like one. -/
theorem listed_in_order_and_relocated {α : Type} (output : α) (es fs : List Issue)
    (a b c : Issues) (p q : Path) :
    (ofList? es = none ↔ es = []) ∧
      (∀ all, ofList? es = some all ↔ all.toList = es) ∧
      (a ++ b).toList = a.toList ++ b.toList ∧
      a ++ b ++ c = a ++ (b ++ c) ∧
      (∀ all, Outcome.settle output (es ++ fs) = .failure all ↔ all.toList = es ++ fs) ∧
      (∀ o, Outcome.settle output (es ++ fs) = .success o ↔ (es = [] ∧ fs = []) ∧ output = o) ∧
      Outcome.settle output (a.toList ++ b.toList) = .failure (a ++ b) ∧
      (a.relocate p).toList = a.toList.map (fun e => { e with path := p ++ e.path }) ∧
      (a.relocate p).length = a.length ∧
      a.relocate .root = a ∧
      a.relocate p =
        (single (a.first.relocate p)).addAll ((a.toList.drop 1).map (·.relocate p)) ∧
      (a ++ b).relocate p = a.relocate p ++ b.relocate p ∧
      (a.relocate q).relocate p = a.relocate (p ++ q) := by
  refine ⟨ofList?_eq_none_iff es, ofList?_eq_some_iff es, toList_append a b, append_assoc a b c,
    Outcome.settle_eq_failure_iff output _, ?_, ?_, toList_relocate p a, ?_, rfl,
    relocate_eq_addAll p a, relocate_append p a b, relocate_relocate p q a⟩
  · intro o
    rw [Outcome.settle_eq_success_iff, List.append_eq_nil_iff]
  · exact (Outcome.settle_eq_failure_iff output _ _).mpr (toList_append a b)
  · rw [length, toList_relocate, List.length_map, length]

/-- The path comes before that of the first issue and before those of the others. -/
example :
    ((single (.plain (.root |>.field "b") "1") ++ single (.plain .root "2")).relocate
      ((Path.root.field "a").index 0)).toList.map (·.path.display) = ["a[0].b", "a[0]"] := by
  decide

end Issues

end Conform
