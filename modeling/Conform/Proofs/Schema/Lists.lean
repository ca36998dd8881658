import Conform.Proofs.Rules.Length
import Conform.Proofs.Run.InTurn
import Conform.Proofs.Run.Success
import Conform.Proofs.Schema.PathTranslation

/-!
# Lists and tuples

A list runs one schema on each of its items, a tuple runs each of its schemas on the item at the
same position.  A tuple looks at as many positions as it has schemas: what comes after them is as
good as cut off, and where the items end too early there might as well stand absent values.

A tuple with a copy of one schema for every item is therefore a list without bounds.  The bounds of
a list are those that the calls which build it set last.
-/

set_option autoImplicit false

namespace Conform.Schema

open Outcome Validator

variable {σ : Type}

/-! ## The runs for the parts -/

/-- The runs of one schema on the items of a list. -/
def itemRuns (item : Schema σ .value) (items : List Value) (p : Path) :
    List (Run σ (Outcome Value)) :=
  items.zipIdx.map fun x => item.validate x.1 (p.index x.2)

/-- The runs of the schemas of a tuple on the items at their positions. -/
def positionRuns (positions : List (Schema σ .value)) (items : List Value) (p : Path) :
    List (Run σ (Outcome Value)) :=
  positions.zipIdx.map fun x => x.1.validate ((Value.list items).item x.2) (p.index x.2)

theorem itemsFrom_eq_map (item : Schema σ .value) (p : Path) (i : Nat) (items : List Value) :
    itemsFrom item.validator p i items =
      (items.zipIdx i).map fun x => item.validate x.1 (p.index x.2) := by
  induction items generalizing i with
  | nil => rfl
  | cons v rest ih => exact congrArg (item.validate v (p.index i) :: ·) (ih (i + 1))

theorem positionsFrom_eq_map (v : Value) (p : Path) (i : Nat) (positions : List (Schema σ .value)) :
    positionsFrom v p i (positions.map validator) =
      (positions.zipIdx i).map fun x => x.1.validate (v.item x.2) (p.index x.2) := by
  induction positions generalizing i with
  | nil => rfl
  | cons s rest ih => exact congrArg (s.validate (v.item i) (p.index i) :: ·) (ih (i + 1))

theorem list_run (rules : LengthRules) (item : Schema σ .value) (items : List Value) (p : Path) :
    (list rules item).validate (.list items) p =
      Validator.gather (rules.issues p items.length) (itemRuns item items p) :=
  congrArg (Validator.gather _) (itemsFrom_eq_map item p 0 items)

theorem tuple_run (message : Option String) (positions : List (Schema σ .value))
    (items : List Value) (p : Path) :
    (tuple message positions).validate (.list items) p =
      Validator.gather [] (positionRuns positions items p) := by
  rw [validate, validator_tuple]
  exact congrArg (Validator.gather []) (positionsFrom_eq_map _ p 0 positions)

theorem getElem?_positionRuns (positions : List (Schema σ .value)) (items : List Value) (p : Path)
    (i : Nat) :
    (positionRuns positions items p)[i]? =
      positions[i]?.map fun s => s.validate ((Value.list items).item i) (p.index i) := by
  simp [positionRuns, List.getElem?_map, List.getElem?_zipIdx, Function.comp_def]

/-! ## As many items as there are positions -/

/-- The first items, and absent values in the place of those that are missing. -/
def fitted (n : Nat) (items : List Value) : List Value :=
  items.take n ++ List.replicate (n - items.length) .absent

theorem length_fitted (n : Nat) (items : List Value) : (fitted n items).length = n := by
  rw [fitted, List.length_append, List.length_take, List.length_replicate]
  omega

theorem item_fitted {n i : Nat} (items : List Value) (inside : i < n) :
    (Value.list (fitted n items)).item i = (Value.list items).item i := by
  rw [Value.item, Value.item, fitted, List.getElem?_append, List.length_take]
  split
  · rw [List.getElem?_take_of_lt inside]
  · have past : items.length ≤ i := by omega
    rw [List.getElem?_eq_none past, List.getElem?_replicate]
    split <;> rfl

theorem positionRuns_fitted (positions : List (Schema σ .value)) (items : List Value) (p : Path) :
    positionRuns positions (fitted positions.length items) p = positionRuns positions items p := by
  refine List.map_congr_left fun x member => ?_
  have inside : x.2 < positions.length := by simpa using List.snd_lt_add_of_mem_zipIdx member
  rw [item_fitted items inside]

theorem positionRuns_replicate (item : Schema σ .value) (items : List Value) (p : Path) :
    positionRuns (List.replicate items.length item) items p = itemRuns item items p := by
  refine List.ext_getElem? fun i => ?_
  rw [getElem?_positionRuns, List.getElem?_replicate, itemRuns, List.getElem?_map,
    List.getElem?_zipIdx]
  split
  case isTrue inside => simp [Value.item, inside]
  case isFalse outside => simp [List.getElem?_eq_none (Nat.le_of_not_lt outside)]

/-! ## What the positions answer -/

/-- What the schema at a position answers, in the state that those before it leave behind. -/
def answerAt (positions : List (Schema σ .value)) (items : List Value) (p : Path) (s : σ)
    (i : Fin positions.length) : Outcome Value :=
  (positions[i].validate ((Value.list items).item i) (p.index i)
    (Run.turn (positionRuns positions items p) s i)).result

theorem tuple_result (message : Option String) (positions : List (Schema σ .value))
    (items : List Value) (p : Path) (s : σ) :
    ((tuple message positions).validate (.list items) p s).result =
      Outcome.gather [] (List.ofFn (answerAt positions items p s)) := by
  have answers : (Run.sequence (positionRuns positions items p) s).result =
      List.ofFn (answerAt positions items p s) := by
    refine List.ext_getElem? fun i => ?_
    rw [Run.sequence_apply, List.getElem?_map, Run.getElem?_inTurn, getElem?_positionRuns,
      List.getElem?_ofFn]
    split
    case isTrue inside =>
      rw [List.getElem?_eq_getElem inside]
      rfl
    case isFalse outside =>
      rw [List.getElem?_eq_none (Nat.le_of_not_lt outside)]
      rfl
  rw [tuple_run, ← answers]
  rfl

theorem ofFn_eq_map_success_iff {n : Nat} {answers : Fin n → Outcome Value} {out : List Value} :
    List.ofFn answers = out.map .success ↔
      out.length = n ∧ ∀ i : Fin n, (answers i).output? = out[i.val]? := by
  rw [List.ext_getElem_iff]
  constructor
  · rintro ⟨lengths, same⟩
    rw [List.length_ofFn, List.length_map] at lengths
    refine ⟨lengths.symm, fun i => ?_⟩
    have there : i.val < out.length := lengths ▸ i.isLt
    have answer := same i (by simp) (by simpa using there)
    rw [List.getElem_ofFn, List.getElem_map] at answer
    rw [List.getElem?_eq_getElem there]
    exact output?_eq_some_iff.mpr answer
  · rintro ⟨rfl, same⟩
    refine ⟨by rw [List.length_ofFn, List.length_map], fun i inside _ => ?_⟩
    have there : i < out.length := by simpa using inside
    have answer := same ⟨i, there⟩
    rw [List.getElem?_eq_getElem there] at answer
    rw [List.getElem_ofFn, List.getElem_map]
    exact output?_eq_some_iff.mp answer

theorem tuple_success_iff (message : Option String) (positions : List (Schema σ .value))
    (items : List Value) (p : Path) (s : σ) (out : List Value) :
    ((tuple message positions).validate (.list items) p s).result = .success out ↔
      out.length = positions.length ∧
        ∀ i, (answerAt positions items p s i).output? = out[i.val]? := by
  rw [tuple_result, gather_eq_success_iff, ofFn_eq_map_success_iff, eq_self, true_and]

theorem mem_tuple_issues_iff (message : Option String) (positions : List (Schema σ .value))
    (items : List Value) (p : Path) (s : σ) (e : Issue) :
    e ∈ ((tuple message positions).validate (.list items) p s).result.issues ↔
      ∃ i, e ∈ (answerAt positions items p s i).issues := by
  rw [tuple_result, issues_gather, List.nil_append, allIssues, List.mem_flatMap]
  constructor
  · rintro ⟨o, there, member⟩
    obtain ⟨i, rfl⟩ := List.mem_ofFn.mp there
    exact ⟨i, member⟩
  · rintro ⟨i, member⟩
    exact ⟨_, List.mem_ofFn.mpr ⟨i, rfl⟩, member⟩

/-- A tuple does with any list what it does with one of as many items as it has positions: the first
items, and absent values for those that are missing.  It succeeds when each position accepts its
item as its turn comes, and then has their outputs, one for each position.  Its issues are those
that the positions report, so an issue at an item stands at one of the positions, and never past
them.

A list without bounds and the tuple of one copy of its schema for each item run alike. -/
theorem tuple_fits_and_agrees_with_list (message : Option String)
    (positions : List (Schema σ .value)) (items : List Value) (p : Path) :
    (fitted positions.length items).length = positions.length ∧
      (tuple message positions).validate (.list items) p =
        (tuple message positions).validate (.list (fitted positions.length items)) p ∧
      (∀ s out, ((tuple message positions).validate (.list items) p s).result = .success out ↔
        out.length = positions.length ∧
          ∀ i, (answerAt positions items p s i).output? = out[i.val]?) ∧
      (∀ s e, e ∈ ((tuple message positions).validate (.list items) p s).result.issues ↔
        ∃ i, e ∈ (answerAt positions items p s i).issues) ∧
      (∀ s i, ∀ e ∈ (answerAt positions items p s i).issues, positions[i].BuiltIn →
        ∃ r, e.path = p.index i ++ r) ∧
      ∀ (kindMessage : Option String) (item : Schema σ .value),
        (list { LengthRules.empty with kindMessage := kindMessage } item).validateErased
            (.list items) p =
          (tuple message (List.replicate items.length item)).validateErased (.list items) p := by
  refine ⟨length_fitted _ items, ?_, tuple_success_iff message positions items p,
    mem_tuple_issues_iff message positions items p, ?_, ?_⟩
  · rw [tuple_run, tuple_run, positionRuns_fitted]
  · intro s i e member builtIn
    exact builtIn.issue_extends e member
  · intro kindMessage item
    have whole :
        (list { LengthRules.empty with kindMessage := kindMessage } item).validate (.list items) p =
          (tuple message (List.replicate items.length item)).validate (.list items) p := by
      rw [list_run, tuple_run, positionRuns_replicate]
      rfl
    exact congrArg (fun run => do return (← run).map (Output.erase .list)) whole

/-- A number, and a unit that may be missing. -/
def measure : List (Schema Unit .value) :=
  [.erased (.number .empty), .optional (.erased (.text .empty))]

def misread : List Value := [.null, .text "m", .null]

/-- The missing unit is an absent output; what comes after a unit is not looked at, and issues stand
at the positions of the number and the unit. -/
theorem measure_fits :
    ((tuple none measure).validate (.list [.number .zero]) .root ()).result =
        .success [.number .zero, .absent] ∧
      (tuple none measure).validate (.list misread) .root =
        (tuple none measure).validate (.list [.null, .text "m"]) .root ∧
      (∀ s ∈ measure, s.BuiltIn) ∧
      ∀ e ∈ ((tuple none measure).validate (.list misread) .root ()).result.issues,
        ∃ i r, i < 2 ∧ e.path = Path.root.index i ++ r := by
  have builtIn : ∀ s ∈ measure, s.BuiltIn := by simp [measure, BuiltIn, Every]
  obtain ⟨_, cut, _, reported, placed, _⟩ :=
    tuple_fits_and_agrees_with_list none measure misread .root
  obtain ⟨_, _, success, _⟩ := tuple_fits_and_agrees_with_list none measure [.number .zero] .root
  have each : ∀ i : Fin 2, (answerAt measure [.number .zero] .root () i).output? =
      ([.number .zero, .absent] : List Value)[i.val]? := Fin.forall_fin_two.mpr ⟨rfl, rfl⟩
  refine ⟨(success () _).mpr ⟨rfl, each⟩, cut, builtIn, ?_⟩
  intro e member
  obtain ⟨i, found⟩ := (reported () e).mp member
  obtain ⟨r, path⟩ := placed () i e found (builtIn _ (List.getElem_mem i.isLt))
  exact ⟨i, r, i.isLt, path⟩

/-! ## Bounds and messages -/

theorem list_result (rules : LengthRules) (item : Schema σ .value) (items : List Value) (p : Path)
    (s : σ) :
    ((list rules item).validate (.list items) p s).result =
      Outcome.gather
        (rules.report p items.length .least ++ rules.report p items.length .greatest)
        (Run.sequence (itemRuns item items p) s).result := by
  rw [list_run, LengthRules.issues_eq_report]
  rfl

theorem list_success_iff (rules : LengthRules) (item : Schema σ .value) (items : List Value)
    (p : Path) (s : σ) (out : List Value) :
    ((list rules item).validate (.list items) p s).result = .success out ↔
      (∀ side b, rules.bound side = some b → side.violated b.length items.length = false) ∧
        (Run.sequence (itemRuns item items p) s).result = out.map .success := by
  rw [list_result, gather_eq_success_iff, List.append_eq_nil_iff, LengthRules.report_eq_nil_iff,
    LengthRules.report_eq_nil_iff]
  refine and_congr_left fun _ => ⟨fun ⟨least, greatest⟩ side => ?_, fun h => ⟨h _, h _⟩⟩
  cases side with
  | least => exact least
  | greatest => exact greatest

/-- Whatever calls build the rules of a list, the bounds are the last ones of either side, each with
the last message that was set after it and before any other bound; messages before all bounds are
for values that are no lists.  A bound that is marked as the latest is there, so every message that
is set is kept.

A list has the issue of the least length, then that of the greatest length, if they are violated,
and then those of its items.  It is accepted when no bound is violated and all items are
accepted. -/
theorem list_lengths_follow_calls (calls : List LengthCall) (item : Schema σ .value) (p : Path)
    (s : σ) :
    (∀ side b, (LengthRules.build calls).bound side = some b ↔ LengthRules.LastBound calls side b) ∧
      (LengthRules.build calls).kindMessage = leadingMessage LengthCall.text? calls ∧
      (∀ side, (LengthRules.build calls).latest = some side →
        ∃ b, (LengthRules.build calls).bound side = some b) ∧
      (∀ text, (LengthRules.build (calls ++ [.message text])).latestMessage = some text) ∧
      (∀ items, ((list (.build calls) item).validate (.list items) p s).result.issues =
        (LengthRules.build calls).report p items.length .least ++
          (LengthRules.build calls).report p items.length .greatest ++
            allIssues (Run.sequence (itemRuns item items p) s).result) ∧
      (∀ items out, ((list (.build calls) item).validate (.list items) p s).result = .success out ↔
        (∀ side b, LengthRules.LastBound calls side b →
          side.violated b.length items.length = false) ∧
          (Run.sequence (itemRuns item items p) s).result = out.map .success) ∧
      (∀ items side b, LengthRules.LastBound calls side b →
        side.violated b.length items.length = true →
          ∃ es, ((list (.build calls) item).validate (.list items) p s).result = .failure es) ∧
      ∀ v, v.list? = none → ((list (.build calls) item).validate v p s).result =
        .fail (.wrongKind p "array" v (leadingMessage LengthCall.text? calls)) := by
  have success : ∀ items out,
      ((list (.build calls) item).validate (.list items) p s).result = .success out ↔
        (∀ side b, LengthRules.LastBound calls side b →
          side.violated b.length items.length = false) ∧
          (Run.sequence (itemRuns item items p) s).result = out.map .success := by
    intro items out
    refine (list_success_iff _ item items p s out).trans (and_congr_left fun _ => ?_)
    exact forall₂_congr fun side b => imp_congr_left (LengthRules.bound_build_iff calls side b)
  refine ⟨LengthRules.bound_build_iff calls, LengthRules.kindMessage_build calls,
    LengthRules.marked_build calls, ?_, ?_, success, ?_, ?_⟩
  · intro text
    rw [LengthRules.build, LengthRules.after, List.foldl_append]
    exact (LengthRules.marked_build calls).latestMessage text
  · intro items
    rw [list_result, issues_gather]
  · intro items side b last violated
    cases result : ((list (.build calls) item).validate (.list items) p s).result with
    | failure es => exact ⟨es, rfl⟩
    | success out =>
      have kept := ((success items out).mp result).1 side b last
      rw [violated] at kept
      cases kept
  · intro v noList
    rw [← LengthRules.kindMessage_build]
    cases v with
    | list items => cases noList
    | absent | null | bool | number | text | object | date => rfl

def guestCalls : List LengthCall :=
  [.message "a list of guests", .maxLength 1, .message "one guest", .minLength 1, .minLength 3,
    .message "more guests", .message "three guests"]

def guests : Schema Unit .list := .list (.build guestCalls) .anything

/-- Two guests are too few and too many, though each of them is welcome. -/
theorem guests_follow_calls :
    LengthRules.LastBound guestCalls .least ⟨3, some "three guests"⟩ ∧
      LengthSide.least.violated 3 2 = true ∧
      (∃ es, (guests.validate (.list [.null, .null]) .root ()).result = .failure es) ∧
      (guests.validate (.list [.null, .null]) .root ()).result.issues =
        [⟨.root, "three guests", "min_items", some "at least 3 items", some "2 items"⟩,
          ⟨.root, "one guest", "max_items", some "at most 1 items", some "2 items"⟩] ∧
      (guests.validate .null .root ()).result =
        .fail ⟨.root, "a list of guests", "invalid_type", some "array", some "null"⟩ ∧
      (((Schema.list (.build [.nonEmpty]) .anything : Schema Unit .list).validate (.list []) .root
        ()).result.issues =
          [⟨.root, "Expecting at least 1 items. Got 0.", "min_items", some "at least 1 items",
            some "0 items"⟩]) := by
  obtain ⟨bounds, _, _, _, reported, _, rejected, wrongKind⟩ :=
    list_lengths_follow_calls guestCalls .anything .root ()
  have last := (bounds .least ⟨3, some "three guests"⟩).mp rfl
  obtain ⟨_, _, _, _, ofEmpty, _⟩ :=
    list_lengths_follow_calls [.nonEmpty] (.anything : Schema Unit .value) .root ()
  exact ⟨last, rfl, rejected [.null, .null] .least _ last rfl, reported [.null, .null],
    wrongKind .null rfl, ofEmpty []⟩

end Conform.Schema
