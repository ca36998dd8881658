import Conform.Proofs.Calendar.Format
import Conform.Proofs.Number.Exact
import Conform.Proofs.Value.Depth
import Conform.Value.Json

/-!
# Values through JSON and back

A value has a document unless a number in it is infinite or a `nan`; the first such number is the
one that is reported.  Reading the document gives the normal form of the value, which has the same
document; a value that is plain is its own normal form.  What the normal form is does not depend on
how it is computed.
-/

set_option autoImplicit false

namespace Conform.Value

/-! ## Numbers within a value -/

mutual
/-- The numbers within a value, depth first and from left to right.  An absent entry holds none. -/
def numbers : Value → List Binary64
  | number x => [x]
  | list items => itemNumbers items
  | object entries => entryNumbers entries
  | absent | null | bool _ | text _ | date _ => []

def itemNumbers : List Value → List Binary64
  | [] => []
  | v :: rest => v.numbers ++ itemNumbers rest

def entryNumbers : List (String × Value) → List Binary64
  | [] => []
  | (_, v) :: rest => v.numbers ++ entryNumbers rest
end

theorem numbers_list (items : List Value) : (list items).numbers = items.flatMap numbers := by
  rw [numbers]
  induction items with
  | nil => rfl
  | cons v rest ih => rw [itemNumbers, ih, List.flatMap_cons]

theorem numbers_object (entries : Entries Value) :
    (object entries).numbers = entries.flatMap fun e => e.2.numbers := by
  rw [numbers]
  induction entries with
  | nil => rfl
  | cons e rest ih =>
    obtain ⟨key, v⟩ := e
    rw [entryNumbers, ih, List.flatMap_cons]

def AllFinite (v : Value) : Prop := ∀ x ∈ v.numbers, x.isFinite = true

theorem allFinite_list_iff (items : List Value) :
    (list items).AllFinite ↔ ∀ v ∈ items, v.AllFinite := by
  simp only [AllFinite, numbers_list, List.mem_flatMap, forall_exists_index, and_imp]
  exact ⟨fun h v hv x hx => h x v hv hx, fun h x v hv hx => h v hv x hx⟩

theorem allFinite_object_iff (entries : Entries Value) :
    (object entries).AllFinite ↔ ∀ e ∈ entries, e.2.AllFinite := by
  simp only [AllFinite, numbers_object, List.mem_flatMap, forall_exists_index, and_imp]
  exact ⟨fun h e he x hx => h x e he hx, fun h x e he hx => h e he x hx⟩

theorem AllFinite.of_present {entries : Entries Value} (h : (object entries).AllFinite) :
    (object (present entries)).AllFinite := by
  rw [allFinite_object_iff] at h ⊢
  exact fun e he => h e (List.mem_filter.mp he).1

/-- What equals a finite scalar is finite. -/
theorem AllFinite.of_equal {c v : Value} (h : c.AllFinite) (scalar : c.isScalar = true)
    (equal : c.equal v = true ∨ v.equal c = true) : v.AllFinite := by
  cases c with
  | absent | list | object | date => cases scalar
  | null | bool | text =>
    cases v with
    | number | list | object => simp [Value.equal] at equal
    | absent | null | bool | text | date => exact nofun
  | number x =>
    have finite : x.isFinite = true := h x (List.mem_singleton.mpr rfl)
    cases v with
    | absent | null | bool | text | date => exact nofun
    | list | object => simp [Value.equal] at equal
    | number y =>
      refine List.forall_mem_singleton.mpr ?_
      cases x with
      | nan | infinity => cases finite
      | finite => cases y <;> simp [Value.equal, Binary64.equal, Binary64.isFinite] at equal ⊢

def firstNonFinite? (xs : List Binary64) : Option Binary64 := xs.find? fun x => !x.isFinite

theorem firstNonFinite?_append (xs ys : List Binary64) :
    firstNonFinite? (xs ++ ys) = (firstNonFinite? xs).or (firstNonFinite? ys) :=
  List.find?_append

theorem firstNonFinite?_eq_none_iff (v : Value) :
    firstNonFinite? v.numbers = none ↔ v.AllFinite := by
  simp [firstNonFinite?, AllFinite]

/-! ## Normal forms -/

mutual
/-- What is left of a value in its document: absent entries are dropped, anything else that is
absent is null, a date is its timestamp, and there is no `-0`. -/
inductive HasNormalForm : Value → Value → Prop
  | absent : HasNormalForm absent null
  | null : HasNormalForm null null
  | bool (b : Bool) : HasNormalForm (bool b) (bool b)
  | number (x : Binary64) : HasNormalForm (number x) (number x.withoutNegativeZero)
  | text (s : String) : HasNormalForm (text s) (text s)
  | list {items ws : List Value} (h : HaveNormalForms items ws) :
    HasNormalForm (list items) (list ws)
  | object {entries ws : List (String × Value)} (h : EntriesHaveNormalForms entries ws) :
      HasNormalForm (object entries) (object ws)
  | date {t : Instant} {s : String} (h : t.IsTimestamp s) : HasNormalForm (date t) (text s)

inductive HaveNormalForms : List Value → List Value → Prop
  | nil : HaveNormalForms [] []
  | cons {v w : Value} {rest ws : List Value} (h : HasNormalForm v w)
      (h' : HaveNormalForms rest ws) : HaveNormalForms (v :: rest) (w :: ws)

inductive EntriesHaveNormalForms : List (String × Value) → List (String × Value) → Prop
  | nil : EntriesHaveNormalForms [] []
  | dropped {key : String} {rest ws : List (String × Value)} (h : EntriesHaveNormalForms rest ws) :
      EntriesHaveNormalForms ((key, absent) :: rest) ws
  | kept {key : String} {v w : Value} {rest ws : List (String × Value)} (there : v ≠ absent)
      (h : HasNormalForm v w) (h' : EntriesHaveNormalForms rest ws) :
      EntriesHaveNormalForms ((key, v) :: rest) ((key, w) :: ws)
end

mutual
/-- The normal form, computed. -/
def normalForm : Value → Value
  | absent => null
  | null => null
  | bool b => bool b
  | number x => number x.withoutNegativeZero
  | text s => text s
  | list items => list (normalItems items)
  | object entries => object (normalEntries entries)
  | date t => text (Timestamp.write t)

def normalItems : List Value → List Value
  | [] => []
  | v :: rest => v.normalForm :: normalItems rest

def normalEntries : List (String × Value) → List (String × Value)
  | [] => []
  | (key, v) :: rest =>
    if v.isAbsent then normalEntries rest else (key, v.normalForm) :: normalEntries rest
end

theorem normalItems_eq_map (items : List Value) : normalItems items = items.map normalForm := by
  induction items with
  | nil => rfl
  | cons v rest ih => rw [normalItems, ih, List.map_cons]

theorem normalEntries_eq_mapValues (entries : Entries Value) :
    normalEntries entries = (present entries).mapValues normalForm := by
  induction entries with
  | nil => rfl
  | cons e rest ih =>
    obtain ⟨key, v⟩ := e
    cases gone : v.isAbsent <;> simp [normalEntries, present, Entries.mapValues, gone, ih]

theorem haveNormalForms_iff {items : List Value}
    (h : ∀ v ∈ items, ∀ w, v.HasNormalForm w ↔ w = v.normalForm) (ws : List Value) :
    HaveNormalForms items ws ↔ ws = normalItems items := by
  induction items generalizing ws with
  | nil =>
    constructor
    · rintro ⟨⟩
      rfl
    · rintro rfl
      exact .nil
  | cons v rest ih =>
    obtain ⟨first, others⟩ := List.forall_mem_cons.mp h
    rw [normalItems]
    constructor
    · rintro (_ | ⟨own, later⟩)
      rw [(first _).mp own, (ih others _).mp later]
    · rintro rfl
      exact .cons ((first _).mpr rfl) ((ih others _).mpr rfl)

theorem entriesHaveNormalForms_iff {entries : Entries Value}
    (h : ∀ e ∈ entries, ∀ w, e.2.HasNormalForm w ↔ w = e.2.normalForm) (ws : Entries Value) :
    EntriesHaveNormalForms entries ws ↔ ws = normalEntries entries := by
  induction entries generalizing ws with
  | nil =>
    constructor
    · rintro ⟨⟩
      rfl
    · rintro rfl
      exact .nil
  | cons e rest ih =>
    obtain ⟨key, v⟩ := e
    obtain ⟨first, others⟩ := List.forall_mem_cons.mp h
    by_cases gone : v = absent
    · subst gone
      rw [normalEntries, isAbsent, if_pos rfl, ← ih others]
      constructor
      · rintro (_ | later | ⟨there, _, _⟩)
        · exact later
        · exact absurd rfl there
      · exact .dropped
    · rw [normalEntries, if_neg fun absent => gone ((isAbsent_iff v).mp absent)]
      constructor
      · rintro (_ | _ | ⟨_, own, later⟩)
        · exact absurd rfl gone
        · rw [(first _).mp own, (ih others _).mp later]
      · rintro rfl
        exact .kept gone ((first _).mpr rfl) ((ih others _).mpr rfl)

/-- Every value has one normal form. -/
theorem hasNormalForm_iff (v w : Value) : v.HasNormalForm w ↔ w = v.normalForm := by
  induction v using parts_induction generalizing w with
  | list items ih =>
    constructor
    · intro h
      cases h with
      | list parts =>
        rw [normalForm, (haveNormalForms_iff ih _).mp parts]
    · rintro rfl
      exact .list ((haveNormalForms_iff ih _).mpr rfl)
  | object entries ih =>
    constructor
    · intro h
      cases h with
      | object parts =>
        rw [normalForm, (entriesHaveNormalForms_iff ih _).mp parts]
    · rintro rfl
      exact .object ((entriesHaveNormalForms_iff ih _).mpr rfl)
  | date t =>
    constructor
    · intro h
      cases h with
      | date timestamp =>
        rw [normalForm, Timestamp.isTimestamp_iff.mp timestamp]
    · rintro rfl
      exact .date (Timestamp.isTimestamp_iff.mpr rfl)
  | absent | null | bool | number | text =>
    constructor
    · rintro ⟨⟩
      rfl
    · rintro rfl
      constructor

theorem isAbsent_normalForm (v : Value) : v.normalForm.isAbsent = false := by
  cases v <;> rfl

mutual
/-- Nothing within the value is absent or a date, and its numbers are finite and no `-0`. -/
def Plain : Value → Prop
  | number x => x.isFinite = true ∧ x.isNegativeZero = false
  | list items => PlainItems items
  | object entries => PlainEntries entries
  | null | bool _ | text _ => True
  | absent | date _ => False

def PlainItems : List Value → Prop
  | [] => True
  | v :: rest => v.Plain ∧ PlainItems rest

def PlainEntries : List (String × Value) → Prop
  | [] => True
  | (_, v) :: rest => v.Plain ∧ PlainEntries rest
end

theorem plain_list_iff (items : List Value) : (list items).Plain ↔ ∀ v ∈ items, v.Plain := by
  rw [Plain]
  induction items with
  | nil => simp [PlainItems]
  | cons v rest ih => rw [PlainItems, ih, List.forall_mem_cons]

theorem plain_object_iff (entries : Entries Value) :
    (object entries).Plain ↔ ∀ e ∈ entries, e.2.Plain := by
  rw [Plain]
  induction entries with
  | nil => simp [PlainEntries]
  | cons e rest ih =>
    obtain ⟨key, v⟩ := e
    rw [PlainEntries, ih, List.forall_mem_cons]

theorem Plain.ne_absent {v : Value} (h : v.Plain) : v ≠ absent := by
  rintro rfl
  exact h.elim

theorem Plain.allFinite {v : Value} (h : v.Plain) : v.AllFinite := by
  induction v using parts_induction with
  | number x => exact List.forall_mem_singleton.mpr h.1
  | list items ih =>
    exact (allFinite_list_iff items).mpr fun v hv => ih v hv ((plain_list_iff items).mp h v hv)
  | object entries ih =>
    exact (allFinite_object_iff entries).mpr fun e he =>
      ih e he ((plain_object_iff entries).mp h e he)
  | null | bool | text => exact nofun
  | absent | date => exact h.elim

theorem Plain.normalForm_eq {v : Value} (h : v.Plain) : v.normalForm = v := by
  induction v using parts_induction with
  | number x => rw [normalForm, Binary64.withoutNegativeZero, if_neg (by simp [h.2])]
  | list items ih =>
    have parts := (plain_list_iff items).mp h
    rw [normalForm, normalItems_eq_map, List.map_congr_left fun v hv => ih v hv (parts v hv),
      List.map_id']
  | object entries ih =>
    have parts := (plain_object_iff entries).mp h
    rw [normalForm, normalEntries_eq_mapValues,
      present_eq_self fun e he => (parts e he).ne_absent, Entries.mapValues,
      List.map_congr_left fun e he => congrArg (e.1, ·) (ih e he (parts e he)), List.map_id']
  | null | bool | text => rfl
  | absent | date => exact h.elim

/-! ## Conversions -/

section Converts

variable {α α' β β' γ γ' : Type}

/-- The conversion stops at a number, if there is one to stop at, and else comes to something that
is read as the given result. -/
inductive Converts (read : β → α) (a : α) : Option Binary64 → Except NonFiniteNumber β → Prop
  | stopped (x : Binary64) : Converts read a (some x) (.error ⟨x⟩)
  | converted {b : β} (h : read b = a) : Converts read a none (.ok b)

variable {read : β → α} {read' : β' → α'} {a : α} {a' : α'} {first first' : Option Binary64}
  {r : Except NonFiniteNumber β} {r' : Except NonFiniteNumber β'}

theorem Converts.map (h : Converts read a first r) {f : β → β'} {g : α → α'}
    (same : ∀ b, read' (f b) = g (read b)) : Converts read' (g a) first (r.map f) := by
  cases h with
  | stopped x => exact .stopped x
  | converted h => exact .converted (by rw [same, h])

/-- Two conversions one after the other stop where the first of them stops. -/
theorem Converts.andThen (h : Converts read a first r) (h' : Converts read' a' first' r')
    {readBoth : γ → γ'} {f : β → β' → γ} {g : α → α' → γ'}
    (same : ∀ b b', readBoth (f b b') = g (read b) (read' b')) :
    Converts readBoth (g a a') (first.or first') (do
      let b ← r
      return f b (← r')) := by
  cases h with
  | stopped x => exact .stopped x
  | converted h =>
    cases h' with
    | stopped x => exact .stopped x
    | converted h' => exact .converted (by rw [same, h, h'])

theorem Converts.eq_error_iff (h : Converts read a first r) (x : Binary64) :
    r = .error ⟨x⟩ ↔ first = some x := by
  cases h with
  | stopped y => simp
  | converted => simp

theorem Converts.ok_iff (h : Converts read a first r) : (∃ b, r = .ok b) ↔ first = none := by
  cases h with
  | stopped y => simp
  | converted => simp

theorem Converts.read_eq (h : Converts read a first r) {b : β} (ok : r = .ok b) : read b = a := by
  cases h with
  | stopped y => cases ok
  | converted same =>
    cases ok
    exact same

end Converts

theorem numberToJson_converts (x : Binary64) :
    Converts ofJson (.number x.withoutNegativeZero) (firstNonFinite? [x]) (numberToJson x) := by
  rw [numberToJson]
  cases small : x.smallWhole? with
  | some n =>
    have finite := Binary64.isFinite_of_smallWhole? small
    have none : firstNonFinite? [x] = none := by simp [firstNonFinite?, finite]
    rw [none]
    exact .converted (congrArg Value.number (Binary64.ofInt_of_smallWhole? small))
  | none =>
    have same := Binary64.withoutNegativeZero_of_not_smallWhole small
    by_cases finite : x.isFinite = true
    · have none : firstNonFinite? [x] = none := by simp [firstNonFinite?, finite]
      rw [none, same]
      simp only [finite, if_true]
      exact .converted rfl
    · have some : firstNonFinite? [x] = some x := by simp [firstNonFinite?, finite]
      rw [some]
      simp only [finite]
      exact .stopped x

theorem itemsToJson_converts {items : List Value}
    (h : ∀ v ∈ items, Converts ofJson v.normalForm (firstNonFinite? v.numbers) v.toJson) :
    Converts ofJsonItems (normalItems items) (firstNonFinite? (itemNumbers items))
      (itemsToJson items) := by
  induction items with
  | nil => exact .converted rfl
  | cons v rest ih =>
    obtain ⟨first, others⟩ := List.forall_mem_cons.mp h
    rw [itemNumbers, firstNonFinite?_append]
    exact first.andThen (ih others) fun _ _ => rfl

theorem entriesToJson_converts {entries : Entries Value}
    (h : ∀ e ∈ entries, Converts ofJson e.2.normalForm (firstNonFinite? e.2.numbers) e.2.toJson) :
    Converts ofJsonEntries (normalEntries entries) (firstNonFinite? (entryNumbers entries))
      (entriesToJson entries) := by
  induction entries with
  | nil => exact .converted rfl
  | cons e rest ih =>
    obtain ⟨key, v⟩ := e
    obtain ⟨first, others⟩ := List.forall_mem_cons.mp h
    by_cases gone : v.isAbsent = true
    · obtain rfl := (isAbsent_iff v).mp gone
      exact ih others
    · rw [entryNumbers, firstNonFinite?_append, normalEntries, entriesToJson, if_neg gone,
        if_neg gone]
      exact first.andThen (ih others) (f := fun j js => (key, j) :: js)
        (g := fun w ws => (key, w) :: ws) fun _ _ => rfl

theorem toJson_converts (v : Value) :
    Converts ofJson v.normalForm (firstNonFinite? v.numbers) v.toJson := by
  induction v using parts_induction with
  | number x => exact numberToJson_converts x
  | list items ih => exact (itemsToJson_converts ih).map fun _ => rfl
  | object entries ih => exact (entriesToJson_converts ih).map fun _ => rfl
  | absent | null | bool | text | date => exact .converted rfl

/-! ## The document of a normal form -/

theorem numberToJson_withoutNegativeZero (x : Binary64) :
    numberToJson x.withoutNegativeZero = numberToJson x := by
  rw [numberToJson, numberToJson, Binary64.smallWhole?_withoutNegativeZero]
  cases small : x.smallWhole? with
  | some n => rfl
  | none => rw [Binary64.withoutNegativeZero_of_not_smallWhole small]

theorem itemsToJson_normalItems {items : List Value}
    (h : ∀ v ∈ items, v.normalForm.toJson = v.toJson) :
    itemsToJson (normalItems items) = itemsToJson items := by
  induction items with
  | nil => rfl
  | cons v rest ih =>
    obtain ⟨first, others⟩ := List.forall_mem_cons.mp h
    rw [normalItems, itemsToJson, itemsToJson, first, ih others]

theorem entriesToJson_normalEntries {entries : Entries Value}
    (h : ∀ e ∈ entries, e.2.normalForm.toJson = e.2.toJson) :
    entriesToJson (normalEntries entries) = entriesToJson entries := by
  induction entries with
  | nil => rfl
  | cons e rest ih =>
    obtain ⟨key, v⟩ := e
    obtain ⟨first, others⟩ := List.forall_mem_cons.mp h
    by_cases gone : v.isAbsent = true
    · rw [normalEntries, entriesToJson, if_pos gone, if_pos gone, ih others]
    · rw [normalEntries, entriesToJson, if_neg gone, if_neg gone, entriesToJson,
        isAbsent_normalForm, if_neg Bool.false_ne_true, first, ih others]

theorem toJson_normalForm (v : Value) : v.normalForm.toJson = v.toJson := by
  induction v using parts_induction with
  | number x => exact numberToJson_withoutNegativeZero x
  | list items ih => exact congrArg (Except.map Json.array) (itemsToJson_normalItems ih)
  | object entries ih => exact congrArg (Except.map Json.object) (entriesToJson_normalEntries ih)
  | absent | null | bool | text | date => rfl

theorem toJson_ok_iff (v : Value) : (∃ j, v.toJson = .ok j) ↔ v.AllFinite :=
  v.toJson_converts.ok_iff.trans (firstNonFinite?_eq_none_iff v)

/-- A value has no document just when a number in it is not finite, and the first such number is
told; else its document is read as its only normal form, which has this document too.  A plain value
comes back as it is. -/
theorem toJson_ofJson (v : Value) :
    (∀ x, v.toJson = .error ⟨x⟩ ↔ firstNonFinite? v.numbers = some x) ∧
      ((∃ j, v.toJson = .ok j) ↔ ∀ x ∈ v.numbers, x.isFinite = true) ∧
      (∀ j, v.toJson = .ok j →
        (∀ w, v.HasNormalForm w ↔ w = ofJson j) ∧ (ofJson j).toJson = .ok j) ∧
      (v.Plain → ∃ j, v.toJson = .ok j ∧ ofJson j = v) := by
  have converts := v.toJson_converts
  refine ⟨converts.eq_error_iff, v.toJson_ok_iff, fun j document => ?_, fun plain => ?_⟩
  · rw [converts.read_eq document]
    exact ⟨v.hasNormalForm_iff, v.toJson_normalForm.trans document⟩
  · obtain ⟨j, document⟩ := v.toJson_ok_iff.mpr plain.allFinite
    exact ⟨j, document, (converts.read_eq document).trans plain.normalForm_eq⟩

/-- `2 ^ 53`, the least whole number that is not written as an integer. -/
def tooLarge : Binary64 := .finite false ⟨1 <<< 52, 1075, by decide, by decide, .inr (by decide)⟩

theorem smallWhole?_tooLarge : tooLarge.smallWhole? = none := by decide +kernel

def startOf1970 : Instant := ⟨0, 0, by decide, by decide, by decide, by decide⟩

theorem write_startOf1970 : Timestamp.write startOf1970 = "1970-01-01T00:00:00.000Z" := by
  decide +kernel

/-- Absent values at the top, in a list and in an object within it, and a `-0`. -/
def shipment : Value :=
  object [("note", absent), ("left", number (.finite true .zero)),
    ("rows", list [absent, number tooLarge, date startOf1970, object [("note", absent)]])]

def shipmentJson : Json :=
  .object [("left", .integer 0),
    ("rows", .array [.null, .float tooLarge, .string "1970-01-01T00:00:00.000Z", .object []])]

def shipmentRead : Value :=
  object [("left", number .zero),
    ("rows", list [null, number tooLarge, text "1970-01-01T00:00:00.000Z", object []])]

/-- Two numbers without a text, the first one within an object. -/
def spoilt : Value :=
  list [object [("note", absent), ("left", number (.infinity true))], number .nan]

theorem shipment_toJson_ofJson :
    shipment.toJson = .ok shipmentJson ∧ ofJson shipmentJson = shipmentRead ∧
      (∀ w, shipment.HasNormalForm w ↔ w = shipmentRead) ∧ shipmentRead.toJson = .ok shipmentJson ∧
      shipmentRead.Plain ∧ (∃ j, shipmentRead.toJson = .ok j ∧ ofJson j = shipmentRead) ∧
      spoilt.toJson = .error ⟨.infinity true⟩ := by
  have zero : (Binary64.finite true .zero).smallWhole? = some 0 := rfl
  have document : shipment.toJson = .ok shipmentJson := by
    simp only [shipment, toJson, entriesToJson, itemsToJson, numberToJson, isAbsent, zero,
      smallWhole?_tooLarge, write_startOf1970]
    rfl
  have read : ofJson shipmentJson = shipmentRead := rfl
  have plain : shipmentRead.Plain := by
    simp [shipmentRead, Plain, PlainEntries, PlainItems, Binary64.isFinite, Binary64.isNegativeZero,
      Binary64.zero, tooLarge]
  obtain ⟨normal, again⟩ := (toJson_ofJson shipment).2.2.1 _ document
  rw [read] at normal again
  exact ⟨document, read, normal, again, plain, (toJson_ofJson shipmentRead).2.2.2 plain,
    ((toJson_ofJson spoilt).1 (.infinity true)).mpr rfl⟩

end Conform.Value
