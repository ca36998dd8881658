import Conform.Proofs.Run.InTurn
import Conform.Proofs.Run.Success
import Conform.Proofs.Validator.Assembly
import Conform.Schema.Output
import Conform.Validator.Modifier

/-!
# Erasing the parts of an output

The output of a list, of a record, or of a validator that accepts null or absent values is put
together from the outputs of the validator within.  To make something else of each of these and then
put them together comes to the same as to do it the other way round; so erasing the parts of an
output is erasing the output.
-/

set_option autoImplicit false

namespace Conform

/-! ## Outcomes -/

namespace Outcome

variable {α β γ : Type}

theorem map_map (f : α → β) (g : β → γ) (o : Outcome α) :
    (o.map f).map g = o.map fun a => g (f a) := by
  cases o <;> rfl

theorem settle_map (f : α → β) (a : α) (es : List Issue) :
    (settle a es).map f = settle (f a) es := by
  cases es <;> rfl

theorem outputs_map (f : α → β) (os : List (Outcome α)) :
    outputs (os.map (map f)) = (outputs os).map f := by
  induction os with
  | nil => rfl
  | cons o rest ih =>
    cases o with
    | success a => exact congrArg (f a :: ·) ih
    | failure es => exact ih

theorem allIssues_map (f : α → β) (os : List (Outcome α)) :
    allIssues (os.map (map f)) = allIssues os := by
  rw [allIssues, List.flatMap_map]
  exact List.flatMap_congr fun o _ => issues_map f o

theorem gather_map (f : α → β) (besides : List Issue) (os : List (Outcome α)) :
    gather besides (os.map (map f)) = (gather besides os).map (List.map f) := by
  rw [gather, gather, outputs_map, allIssues_map, settle_map]

end Outcome

theorem Run.sequence_map {σ α β : Type} (f : α → β) (rs : List (Run σ α)) :
    Run.sequence (rs.map (f <$> ·)) = List.map f <$> Run.sequence rs := by
  induction rs with
  | nil => rfl
  | cons r rest ih =>
    rw [List.map_cons, sequence, sequence, ih]
    simp only [bind_map_left, map_bind, map_pure, List.map_cons]

namespace Validator

variable {σ α β γ : Type}

/-! ## Lists -/

theorem map_apply (f : α → β) (inner : Validator σ α) (v : Value) (p : Path) :
    inner.map f v p = Outcome.map f <$> inner v p := rfl

theorem map_map (f : α → β) (g : β → γ) (inner : Validator σ α) :
    (inner.map f).map g = inner.map fun a => g (f a) := by
  funext v p
  simp only [map_apply, Functor.map_map, Outcome.map_map]

theorem itemsFrom_map (f : α → β) (item : Validator σ α) (p : Path) (position : Nat)
    (items : List Value) :
    itemsFrom (item.map f) p position items =
      (itemsFrom item p position items).map (Outcome.map f <$> ·) := by
  induction items generalizing position with
  | nil => rfl
  | cons v rest ih => exact congrArg (item.map f v _ :: ·) (ih (position + 1))

theorem gather_map (f : α → β) (besides : List Issue) (parts : List (Run σ (Outcome α))) :
    gather besides (parts.map (Outcome.map f <$> ·)) =
      Outcome.map (List.map f) <$> gather besides parts := by
  simp only [gather, Run.sequence_map, bind_map_left, Outcome.gather_map, map_bind, map_pure]

theorem list_map (f : α → β) (rules : LengthRules) (item : Validator σ α) :
    list rules (item.map f) = (list rules item).map (List.map f) := by
  funext v p
  rw [map_apply, list, list]
  cases v.list? with
  | none => exact (map_pure _ _).symm
  | some items => simp only [itemsFrom_map, gather_map]

theorem list_erased (f : α → Value) (rules : LengthRules) (item : Validator σ α) :
    (list rules (item.map f)).map (Output.erase .list) =
      (list rules item).map (Value.ofList f) := by
  rw [list_map, map_map]
  rfl

/-! ## Records -/

/-- The answers for an entry, with something else made of the value. -/
def RecordEntry.mapValue (f : α → β) (e : RecordEntry α) : RecordEntry β :=
  ⟨e.path, e.key, e.value.map f⟩

theorem accepted?_mapValue (f : α → β) (e : RecordEntry α) :
    (e.mapValue f).accepted? = e.accepted?.map fun x => (x.1, f x.2) := by
  obtain ⟨path, key, value⟩ := e
  cases key <;> cases value <;> rfl

theorem contains_mapValues (f : α → β) (m : Entries α) (key : String) :
    Entries.contains (Entries.mapValues f m) key = Entries.contains m key := List.any_map

theorem assembleEntry_mapValue (f : α → β) (done : Entries α) (e : RecordEntry α) :
    assembleEntry (Entries.mapValues f done) (e.mapValue f) =
      (Entries.mapValues f (assembleEntry done e).1, (assembleEntry done e).2) := by
  rw [assembleEntry, assembleEntry, accepted?_mapValue]
  cases e.accepted? with
  | none => exact congrArg (_, e.key.issues ++ ·) (Outcome.issues_map f e.value)
  | some x =>
    simp only [Option.map_some, contains_mapValues]
    split
    · rfl
    · rw [Entries.mapValues, Entries.mapValues, List.map_append]
      rfl

theorem assemble_mapValue (f : α → β) (done : Entries α) (es : List (RecordEntry α)) :
    assemble (Entries.mapValues f done) (es.map (RecordEntry.mapValue f)) =
      (Entries.mapValues f (assemble done es).1, (assemble done es).2) := by
  induction es generalizing done with
  | nil => rfl
  | cons e rest ih =>
    rw [List.map_cons, assemble_cons, assemble_cons, assembleEntry_mapValue, ih]

theorem recordEntry_map (f : α → β) (key : Validator σ String) (value : Validator σ α) (p : Path)
    (entry : String × Value) :
    recordEntry key (value.map f) p entry =
      RecordEntry.mapValue f <$> recordEntry key value p entry := by
  simp only [recordEntry, map_apply, bind_map_left, map_bind, map_pure]
  rfl

theorem record_map (f : α → β) (kindMessage : Option String) (key : Validator σ String)
    (value : Validator σ α) :
    record kindMessage key (value.map f) =
      (record kindMessage key value).map (Entries.mapValues f) := by
  funext v p
  rw [map_apply, record, record]
  cases v.object? with
  | none => exact (map_pure _ _).symm
  | some entries =>
    have answers : entries.map (recordEntry key (value.map f) p) =
        (entries.map (recordEntry key value p)).map (RecordEntry.mapValue f <$> ·) := by
      rw [List.map_map]
      exact List.map_congr_left fun entry _ => recordEntry_map f key value p entry
    have whole : ∀ es : List (RecordEntry α), assemble [] (es.map (RecordEntry.mapValue f)) =
        (Entries.mapValues f (assemble [] es).1, (assemble [] es).2) :=
      assemble_mapValue f []
    simp only [answers, Run.sequence_map, bind_map_left, map_bind, map_pure, whole,
      Outcome.settle_map]

theorem record_erased (f : α → Value) (kindMessage : Option String) (key : Validator σ String)
    (value : Validator σ α) :
    (record kindMessage key (value.map f)).map (Output.erase .map) =
      (record kindMessage key value).map (Value.ofEntries f) := by
  rw [record_map, map_map]
  rfl

/-! ## Modifiers -/

theorem nullable_map (f : α → Value) (inner : Validator σ α) :
    (inner.map f).nullable = inner.option.map (Value.ofOption f) := by
  funext v p
  rw [map_apply, nullable, option]
  split
  · exact (map_pure _ _).symm
  · rw [← map_apply, map_map]
    rfl

theorem optional_map (f : α → Value) (inner : Validator σ α) :
    (inner.map f).optional = inner.presence.map (Value.ofPresence f) := by
  funext v p
  rw [map_apply, optional, presence]
  split
  · exact (map_pure _ _).symm
  · rw [← map_apply, map_map]
    rfl

theorem withDefault_map (f : α → β) (fallback : StateM σ α) (inner : Validator σ α) :
    (inner.map f).withDefault (f <$> fallback) = (inner.withDefault fallback).map f := by
  funext v p
  rw [map_apply, withDefault, withDefault]
  split
  · rw [map_bind]
    rfl
  · rfl

end Validator

end Conform
