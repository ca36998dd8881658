import Conform.Validator.Structure
import Mathlib.Data.List.Forall2

/-!
# Assembling records

Assembling the entries of a record one by one.  The output has every key that some entry was
accepted with once, with the value of the first such entry; each further one is a duplicate.  So the
output and the duplicates are together as many as the accepted entries, in whatever order they
come.  What an entry adds to the issues is told by the entries before it, of which only the accepted
ones count.
-/

set_option autoImplicit false

namespace Conform.Validator

variable {α : Type}

/-- The key and the value of an entry, if both are accepted. -/
def RecordEntry.accepted? (e : RecordEntry α) : Option (String × α) :=
  match e.key, e.value with
  | .success key, .success a => some (key, a)
  | _, _ => none

/-- The issues of the entry itself. -/
def RecordEntry.issues (e : RecordEntry α) : List Issue := e.key.issues ++ e.value.issues

def accepted (es : List (RecordEntry α)) : Entries α := es.filterMap RecordEntry.accepted?

theorem accepted_cons_of_none {e : RecordEntry α} (rest : List (RecordEntry α))
    (h : e.accepted? = none) : accepted (e :: rest) = accepted rest :=
  List.filterMap_cons_none h

theorem accepted_cons_of_some {e : RecordEntry α} (rest : List (RecordEntry α)) {out : String × α}
    (h : e.accepted? = some out) : accepted (e :: rest) = out :: accepted rest :=
  List.filterMap_cons_some h

/-- What an entry makes of the output of the entries before it, and the issues that it adds. -/
def assembleEntry (done : Entries α) (e : RecordEntry α) : Entries α × List Issue :=
  match e.accepted? with
  | some (key, a) =>
    if Entries.contains done key then (done, [duplicateKey e.path key])
    else (done ++ [(key, a)], [])
  | none => (done, e.issues)

theorem assemble_cons (done : Entries α) (e : RecordEntry α) (rest : List (RecordEntry α)) :
    assemble done (e :: rest) = ((assemble (assembleEntry done e).1 rest).1,
      (assembleEntry done e).2 ++ (assemble (assembleEntry done e).1 rest).2) := by
  obtain ⟨path, key, value⟩ := e
  cases key with
  | failure k => cases value <;> rfl
  | success key =>
    cases value with
    | failure w => rfl
    | success a =>
      simp only [assemble, assembleEntry, RecordEntry.accepted?]
      by_cases taken : Entries.contains done key
      · simp only [taken, if_true, List.cons_append, List.nil_append]
      · simp only [taken, Bool.false_eq_true, if_false, List.nil_append]

theorem accepted?_eq_some_iff {e : RecordEntry α} {key : String} {a : α} :
    e.accepted? = some (key, a) ↔ e.key = .success key ∧ e.value = .success a := by
  obtain ⟨path, k, v⟩ := e
  cases k with
  | failure k => simp [RecordEntry.accepted?]
  | success k => cases v <;> simp [RecordEntry.accepted?]

theorem issues_of_accepted {e : RecordEntry α} {key : String} {a : α}
    (h : e.accepted? = some (key, a)) : e.issues = [] := by
  obtain ⟨ofKey, ofValue⟩ := accepted?_eq_some_iff.mp h
  rw [RecordEntry.issues, ofKey, ofValue]
  rfl

/-- An entry that was not accepted has issues, so without issues all of them were. -/
theorem exists_accepted_of_issues_eq_nil {e : RecordEntry α} (h : e.issues = []) :
    ∃ out, e.accepted? = some out := by
  obtain ⟨path, k, v⟩ := e
  obtain ⟨ofKey, ofValue⟩ := List.append_eq_nil_iff.mp h
  obtain ⟨key, rfl⟩ := (Outcome.issues_eq_nil_iff k).mp ofKey
  obtain ⟨a, rfl⟩ := (Outcome.issues_eq_nil_iff v).mp ofValue
  exact ⟨(key, a), accepted?_eq_some_iff.mpr ⟨rfl, rfl⟩⟩

/-- An entry is rejected, is a duplicate, or is added to the output. -/
theorem assembleEntry_cases (done : Entries α) (e : RecordEntry α) :
    (e.accepted? = none ∧ assembleEntry done e = (done, e.issues)) ∨
    (∃ key a, e.accepted? = some (key, a) ∧ key ∈ Entries.keys done ∧
      assembleEntry done e = (done, [duplicateKey e.path key])) ∨
    (∃ key a, e.accepted? = some (key, a) ∧ key ∉ Entries.keys done ∧
      assembleEntry done e = (done ++ [(key, a)], [])) := by
  rw [assembleEntry]
  cases answer : e.accepted? with
  | none => exact .inl ⟨rfl, rfl⟩
  | some out =>
    obtain ⟨key, a⟩ := out
    by_cases taken : Entries.contains done key
    · refine .inr (.inl ⟨key, a, rfl, (Entries.contains_iff done key).mp taken, ?_⟩)
      simp only [taken, if_true]
    · have new : key ∉ Entries.keys done := fun there =>
        taken ((Entries.contains_iff done key).mpr there)
      refine .inr (.inr ⟨key, a, rfl, new, ?_⟩)
      simp only [taken, Bool.false_eq_true, if_false]

theorem nodup_keys_assemble (es : List (RecordEntry α)) {done : Entries α}
    (distinct : (Entries.keys done).Nodup) : (Entries.keys (assemble done es).1).Nodup := by
  induction es generalizing done with
  | nil => exact distinct
  | cons e rest ih =>
    rw [assemble_cons]
    refine ih ?_
    rcases assembleEntry_cases done e with ⟨_, step⟩ | ⟨_, _, _, _, step⟩ | ⟨key, a, _, new, step⟩
    · rw [step]
      exact distinct
    · rw [step]
      exact distinct
    · rw [step, ← Entries.insert_of_not_mem a new]
      exact Entries.nodup_keys_insert key a distinct

theorem mem_keys_assemble_iff (es : List (RecordEntry α)) (done : Entries α) (key : String) :
    key ∈ Entries.keys (assemble done es).1 ↔
      key ∈ Entries.keys done ∨ key ∈ Entries.keys (accepted es) := by
  induction es generalizing done with
  | nil => simp [assemble, accepted, Entries.keys]
  | cons e rest ih =>
    rw [assemble_cons, ih]
    rcases assembleEntry_cases done e with ⟨none, step⟩ | ⟨k, a, some, taken, step⟩ |
      ⟨k, a, some, _, step⟩
    · rw [step, accepted_cons_of_none rest none]
    · rw [step, accepted_cons_of_some rest some]
      show _ ↔ key ∈ Entries.keys done ∨ key ∈ k :: Entries.keys (accepted rest)
      rw [List.mem_cons]
      constructor
      · exact fun h => h.imp_right .inr
      · rintro (before | rfl | later)
        · exact .inl before
        · exact .inl taken
        · exact .inr later
    · rw [step, accepted_cons_of_some rest some]
      simp only [Entries.keys, List.map_append, List.map_cons, List.map_nil, List.mem_append,
        List.mem_cons, List.not_mem_nil, or_false, or_assoc]

/-- The issues are those of the entries and one for each duplicate. -/
theorem assemble_issues_perm (es : List (RecordEntry α)) (done : Entries α) :
    ∃ duplicates : List Issue,
      (assemble done es).2.Perm (es.flatMap RecordEntry.issues ++ duplicates) ∧
      (∀ d ∈ duplicates, d.code = "duplicate_key") ∧
      duplicates.length + (assemble done es).1.length = done.length + (accepted es).length := by
  induction es generalizing done with
  | nil => exact ⟨[], .refl _, nofun, by simp [assemble, accepted]⟩
  | cons e rest ih =>
    obtain ⟨duplicates, order, codes, count⟩ := ih (assembleEntry done e).1
    rw [assemble_cons, List.flatMap_cons]
    rcases assembleEntry_cases done e with ⟨none, step⟩ | ⟨k, a, some, _, step⟩ |
      ⟨k, a, some, _, step⟩
    · rw [step] at order count ⊢
      refine ⟨duplicates, ?_, codes, ?_⟩
      · rw [List.append_assoc]
        exact order.append_left e.issues
      · rw [accepted_cons_of_none rest none]
        exact count
    · rw [step] at order count ⊢
      rw [issues_of_accepted some, accepted_cons_of_some rest some, List.length_cons]
      refine ⟨duplicateKey e.path k :: duplicates, ?_, List.forall_mem_cons.mpr ⟨rfl, codes⟩, ?_⟩
      · exact (order.cons _).trans List.perm_middle.symm
      · rw [List.length_cons]
        dsimp only at count ⊢
        omega
    · rw [step] at order count ⊢
      rw [issues_of_accepted some, accepted_cons_of_some rest some, List.length_cons]
      refine ⟨duplicates, order, codes, ?_⟩
      rw [List.length_append, List.length_singleton] at count
      dsimp only at count ⊢
      omega

/-- Without issues, every entry is accepted, and the output has them in their order. -/
theorem assemble_of_no_issues {es : List (RecordEntry α)} {done : Entries α}
    (none : (assemble done es).2 = []) :
    (assemble done es).1 = done ++ accepted es ∧
      List.Forall₂ (fun e out => e.accepted? = some out) es (accepted es) := by
  induction es generalizing done with
  | nil => exact ⟨(List.append_nil done).symm, .nil⟩
  | cons e rest ih =>
    rw [assemble_cons] at none ⊢
    obtain ⟨own, others⟩ := List.append_eq_nil_iff.mp none
    obtain ⟨assembled, answers⟩ := ih others
    rcases assembleEntry_cases done e with ⟨rejected, step⟩ | ⟨_, _, _, _, step⟩ |
      ⟨k, a, some, _, step⟩
    · rw [step] at own
      obtain ⟨out, answer⟩ := exists_accepted_of_issues_eq_nil own
      rw [answer] at rejected
      cases rejected
    · rw [step] at own
      cases own
    · rw [accepted_cons_of_some rest some]
      refine ⟨?_, .cons some answers⟩
      dsimp only
      rw [assembled, step, List.append_assoc, List.singleton_append]

theorem keys_append_cons_nodup {done : Entries α} {key : String} {a : α} {rest : Entries α}
    (h : (Entries.keys (done ++ (key, a) :: rest)).Nodup) : key ∉ Entries.keys done := by
  intro member
  simp only [Entries.keys, List.map_append, List.map_cons] at h
  exact (List.nodup_append.mp h).2.2 key member key List.mem_cons_self rfl

/-- Where no two entries were accepted with one key there are no duplicates. -/
theorem assemble_of_distinct (done : Entries α) (es : List (RecordEntry α))
    (distinct : (Entries.keys (done ++ accepted es)).Nodup) :
    assemble done es = (done ++ accepted es, es.flatMap RecordEntry.issues) := by
  induction es generalizing done with
  | nil => exact congrArg (·, []) (List.append_nil done).symm
  | cons e rest ih =>
    rw [assemble_cons, List.flatMap_cons]
    rcases assembleEntry_cases done e with ⟨none, step⟩ | ⟨k, a, some, taken, step⟩ |
      ⟨k, a, some, _, step⟩
    · rw [accepted_cons_of_none rest none] at distinct ⊢
      rw [step, ih _ distinct]
    · rw [accepted_cons_of_some rest some] at distinct
      exact absurd taken (keys_append_cons_nodup distinct)
    · rw [accepted_cons_of_some rest some, List.append_cons] at distinct ⊢
      rw [step, ih _ distinct, issues_of_accepted some]

/-! ## Entry by entry -/

/-- What an entry adds to the issues after the entries before it: an accepted one is a duplicate if
one of those was accepted with its key, and a rejected one adds the issues of its key and of its
value. -/
def contribution (earlier : List (RecordEntry α)) (e : RecordEntry α) : List Issue :=
  match e.accepted? with
  | some (key, _) =>
    if key ∈ Entries.keys (accepted earlier) then [duplicateKey e.path key] else []
  | none => e.issues

theorem contribution_of_duplicate {earlier : List (RecordEntry α)} {e : RecordEntry α}
    {key : String} {a : α} (some : e.accepted? = some (key, a))
    (taken : key ∈ Entries.keys (accepted earlier)) :
    contribution earlier e = [duplicateKey e.path key] := by
  rw [contribution, some]
  exact if_pos taken

theorem assembleEntry_issues {done : Entries α} {earlier : List (RecordEntry α)}
    (same : ∀ key, key ∈ Entries.keys done ↔ key ∈ Entries.keys (accepted earlier))
    (e : RecordEntry α) : (assembleEntry done e).2 = contribution earlier e := by
  rw [contribution]
  rcases assembleEntry_cases done e with ⟨none, step⟩ | ⟨key, a, some, taken, step⟩ |
    ⟨key, a, some, new, step⟩
  · rw [step, none]
  · rw [step, some]
    exact (if_pos ((same key).mp taken)).symm
  · rw [step, some]
    exact (if_neg fun taken => new ((same key).mpr taken)).symm

/-- The keys of the output so far are those with which the entries so far were accepted. -/
theorem mem_keys_assembleEntry_iff {done : Entries α} {earlier : List (RecordEntry α)}
    (same : ∀ key, key ∈ Entries.keys done ↔ key ∈ Entries.keys (accepted earlier))
    (e : RecordEntry α) (key : String) :
    key ∈ Entries.keys (assembleEntry done e).1 ↔
      key ∈ Entries.keys (accepted (earlier ++ [e])) := by
  have one : (assemble done [e]).1 = (assembleEntry done e).1 := by
    rw [assemble_cons]
    rfl
  rw [← one, mem_keys_assemble_iff, same key]
  simp only [accepted, Entries.keys, List.filterMap_append, List.map_append, List.mem_append]

/-- The output so far counts through its keys alone, so the entries before may be any that were
accepted with the same ones. -/
theorem assemble_issues_from (es : List (RecordEntry α)) {done : Entries α}
    {earlier : List (RecordEntry α)}
    (same : ∀ key, key ∈ Entries.keys done ↔ key ∈ Entries.keys (accepted earlier)) :
    (assemble done es).2 =
      (es.zipIdx earlier.length).flatMap fun x => contribution ((earlier ++ es).take x.2) x.1 := by
  induction es generalizing done earlier with
  | nil => rfl
  | cons e rest ih =>
    -- The rest comes after one more entry; its positions are counted from there.
    have before : (earlier ++ e :: rest).take earlier.length = earlier := List.take_left
    have later := ih (mem_keys_assembleEntry_iff same e)
    rw [List.length_append, List.length_singleton, List.append_assoc,
      List.singleton_append] at later
    rw [assemble_cons, List.zipIdx_cons, List.flatMap_cons, before]
    dsimp only
    rw [assembleEntry_issues same e, later]

/-- The issues are what the entries add, in their order. -/
theorem assemble_issues (es : List (RecordEntry α)) :
    (assemble [] es).2 = es.zipIdx.flatMap fun x => contribution (es.take x.2) x.1 := by
  have none : ∀ key, key ∈ Entries.keys ([] : Entries α) ↔
      key ∈ Entries.keys (accepted ([] : List (RecordEntry α))) := fun _ => .rfl
  exact assemble_issues_from es none

end Conform.Validator
