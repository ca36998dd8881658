import Conform.Proofs.Validator.Reports
import Conform.Proofs.Value.Depth

/-!
# Where issues point

An issue of a wrong kind points into a value when its path leads from there to a part of it, the
kind it tells is the kind of that part, and another one was expected.  Validators of lists and
objects pass this on from their parts, except for the keys of records, to which no path leads.
-/

set_option autoImplicit false

namespace Conform

/-! ## Parts of the input -/

def Issue.PointsInto (v : Value) (p : Path) (e : Issue) : Prop :=
  e.code = "invalid_type" →
    ∃ q, e.path = p ++ q ∧ e.got = some (v.follow q).kindName ∧ e.expected ≠ e.got

namespace Issue.PointsInto

variable {v : Value} {p : Path} {e : Issue}

theorem of_code_ne (h : e.code ≠ "invalid_type") : e.PointsInto v p :=
  fun wrong => absurd wrong h

theorem of_wrongKind {expected : String} (h : v.kindName ≠ expected) (message : Option String) :
    (Issue.wrongKind p expected v message).PointsInto v p := by
  intro _
  refine ⟨.root, (Path.append_root p).symm, rfl, fun same => ?_⟩
  exact h (Option.some.inj same).symm

theorem of_get {key : String} (h : e.PointsInto (v.get key) (p.field key)) : e.PointsInto v p := by
  intro wrong
  obtain ⟨q, path, got, expected⟩ := h wrong
  refine ⟨Path.root.field key ++ q, ?_, ?_, expected⟩
  · rw [path, ← Path.append_assoc]
    rfl
  · rw [got, Value.follow_append]
    rfl

theorem of_item {i : Nat} (h : e.PointsInto (v.item i) (p.index i)) : e.PointsInto v p := by
  intro wrong
  obtain ⟨q, path, got, expected⟩ := h wrong
  refine ⟨Path.root.index i ++ q, ?_, ?_, expected⟩
  · rw [path, ← Path.append_assoc]
    rfl
  · rw [got, Value.follow_append]
    rfl

/-- No two entries have one key, so looking up the key of an entry finds that entry. -/
theorem of_entry {entries : Entries Value} (distinct : (Value.object entries).DistinctKeys)
    {entry : String × Value} (there : entry ∈ entries)
    (h : e.PointsInto entry.2 (p.field entry.1)) : e.PointsInto (.object entries) p := by
  have keys := ((Value.everyObject_object_iff entries).mp distinct).1
  have found : (Value.object entries).get entry.1 = entry.2 := by
    rw [Value.get, Entries.get?_of_mem keys there, Option.getD_some]
  rw [← found] at h
  exact h.of_get

end Issue.PointsInto

namespace Validator

variable {σ α : Type}

/-- The validator points into every value without repeated keys. -/
def Locates (w : Validator σ α) : Prop :=
  w.Reports fun v p e => v.DistinctKeys → e.PointsInto v p

/-! ## Values without parts -/

/-- The issue is of the wrong kind of this very value, or of no wrong kind. -/
def OfKind (expected : String) (v : Value) (p : Path) (e : Issue) : Prop :=
  e.code ≠ "invalid_type" ∨
    v.kindName ≠ expected ∧ ∃ message, e = Issue.wrongKind p expected v message

theorem rules_issues_code {κ ι : Type} {violation? : κ → ι → Option Violation}
    (codes : ∀ c x y, violation? c x = some y → y.code ≠ "invalid_type") (rules : Rules κ)
    (p : Path)
    (x : ι) : ∀ e ∈ rules.issues violation? p x, e.code ≠ "invalid_type" := by
  intro e member
  obtain ⟨r, _, found⟩ := List.mem_filterMap.mp member
  obtain ⟨y, violated, rfl⟩ := Option.map_eq_some_iff.mp found
  exact codes r.check x y violated

theorem textCheck_code (c : TextCheck) (s : String) (y : Violation)
    (h : c.violation? s = some y) : y.code ≠ "invalid_type" := by
  rw [TextCheck.violation?] at h
  split at h
  · cases h
  · cases h
    cases c <;> simp [TextCheck.code]

theorem numberCheck_code (c : NumberCheck) (x : Binary64) (y : Violation)
    (h : c.violation? x = some y) : y.code ≠ "invalid_type" := by
  rw [NumberCheck.violation?] at h
  split at h
  · cases h
  · cases h
    cases c <;> simp [NumberCheck.code]

theorem dateCheck_code (c : DateCheck) (t : Instant) (y : Violation)
    (h : c.violation? t = some y) : y.code ≠ "invalid_type" := by
  rw [DateCheck.violation?] at h
  split at h
  · cases h
  · cases h
    cases c <;> simp [DateCheck.code]

theorem textOutcome_ofKind (rules : TextRules) (v : Value) (p : Path) :
    ∀ e ∈ (textOutcome rules v p).issues, OfKind "string" v p e := by
  intro e member
  cases v with
  | text s =>
    exact .inl (rules_issues_code textCheck_code rules p s e (Outcome.mem_issues_settle.mp member))
  | absent | null | bool | number | list | object | date =>
    exact .inr ⟨by simp [Value.kindName], _, List.mem_singleton.mp member⟩

theorem numberOutcome_ofKind (rules : NumberRules) (v : Value) (p : Path) :
    ∀ e ∈ (numberOutcome rules v p).issues, OfKind "number" v p e := by
  intro e member
  cases v with
  | number x =>
    refine .inl ?_
    rw [numberOutcome, Value.number?] at member
    by_cases finite : x.isFinite
    · simp only [finite, if_true] at member
      exact rules_issues_code numberCheck_code rules p x e (Outcome.mem_issues_settle.mp member)
    · simp only [finite] at member
      have same : e = notFinite rules p x := List.mem_singleton.mp member
      simp [same, notFinite]
  | absent | null | bool | text | list | object | date =>
    exact .inr ⟨by simp [Value.kindName], _, List.mem_singleton.mp member⟩

theorem booleanOutcome_ofKind (kindMessage : Option String) (v : Value) (p : Path) :
    ∀ e ∈ (booleanOutcome kindMessage v p).issues, OfKind "boolean" v p e := by
  intro e member
  cases v with
  | bool b => cases member
  | absent | null | number | text | list | object | date =>
    exact .inr ⟨by simp [Value.kindName], _, List.mem_singleton.mp member⟩

theorem dateOutcome_ofKind (rules : DateRules) (v : Value) (p : Path) :
    ∀ e ∈ (dateOutcome rules v p).issues, OfKind "date" v p e := by
  intro e member
  cases v with
  | date t =>
    exact .inl (rules_issues_code dateCheck_code rules p t e (Outcome.mem_issues_settle.mp member))
  | absent | null | bool | number | text | list | object =>
    exact .inr ⟨by simp [Value.kindName], _, List.mem_singleton.mp member⟩

theorem literalOutcome_code (l : Literal) (v : Value) (p : Path) :
    ∀ e ∈ (literalOutcome l v p).issues, e.code ≠ "invalid_type" := by
  intro e member
  rw [literalOutcome] at member
  by_cases equal : v.equal l.constant.value
  · simp only [equal, if_true] at member
    cases member
  · simp only [equal] at member
    have same : e = l.mismatch p v := List.mem_singleton.mp member
    simp [same, Literal.mismatch]

theorem enumerationOutcome_code (x : Enumeration) (v : Value) (p : Path) :
    ∀ e ∈ (enumerationOutcome x v p).issues, e.code ≠ "invalid_type" := by
  intro e member
  rw [enumerationOutcome] at member
  by_cases has : x.has v
  · simp only [has, if_true] at member
    cases member
  · simp only [has] at member
    have same : e = x.mismatch p v := List.mem_singleton.mp member
    simp [same, Enumeration.mismatch]

theorem lengthRules_code (rules : LengthRules) (p : Path) (n : Nat) :
    ∀ e ∈ rules.issues p n, e.code ≠ "invalid_type" := by
  intro e member
  rcases List.mem_append.mp member with least | greatest
  · cases found : rules.least with
    | none => simp [found] at least
    | some b =>
      by_cases short : n < b.length
      · simp only [found, short, if_true, List.mem_singleton] at least
        simp [least, LengthRules.issue]
      · simp [found, short] at least
  · cases found : rules.greatest with
    | none => simp [found] at greatest
    | some b =>
      by_cases long : b.length < n
      · simp only [found, long, if_true, List.mem_singleton] at greatest
        simp [greatest, LengthRules.issue]
      · simp [found, long] at greatest

/-! ## Locating issues -/

theorem OfKind.pointsInto {expected : String} {v : Value} {p : Path} {e : Issue}
    (h : OfKind expected v p e) : e.PointsInto v p := by
  rcases h with other | ⟨kind, message, rfl⟩
  · exact .of_code_ne other
  · exact .of_wrongKind kind message

theorem ofOutcome_locates {f : Value → Path → Outcome α}
    (h : ∀ v p, ∀ e ∈ (f v p).issues, e.PointsInto v p) :
    (ofOutcome f : Validator σ α).Locates := by
  intro v p s e member _
  exact h v p e member

theorem fail_locates {expected : String} {v : Value} (h : v.kindName ≠ expected) (p : Path)
    (message : Option String) :
    Run.Reports (fun e => v.DistinctKeys → e.PointsInto v p)
      (pure (.fail (.wrongKind p expected v message)) : Run σ (Outcome α)) :=
  Run.reports_fail fun _ => .of_wrongKind h message

theorem list_locates (rules : LengthRules) {item : Validator σ α} (h : item.Locates) :
    (list rules item).Locates := by
  intro v p
  cases v with
  | list items =>
    refine gather_reports (fun e own _ => .of_code_ne (lengthRules_code rules p _ e own)) ?_
    intro r member s e ofItem distinct
    obtain ⟨j, x, found, rfl⟩ := mem_itemsFrom member
    rw [Nat.zero_add] at ofItem
    have place : (Value.list items).item j = x := by
      simp [Value.item, found]
    have points := h x (p.index j) s e ofItem (place ▸ distinct.item j)
    rw [← place] at points
    exact points.of_item
  | absent | null | bool | number | text | object | date =>
    exact fail_locates (by simp [Value.kindName]) p rules.kindMessage

theorem tuple_locates (kindMessage : Option String) {ws : List (Validator σ α)}
    (h : ∀ w ∈ ws, w.Locates) : (tuple kindMessage ws).Locates := by
  intro v p
  cases v with
  | list items =>
    refine gather_reports (fun e own _ => absurd own List.not_mem_nil) ?_
    intro r member s e ofItem distinct
    obtain ⟨j, w, there, rfl⟩ := mem_positionsFrom member
    exact (h w there _ _ s e ofItem (distinct.item j)).of_item
  | absent | null | bool | number | text | object | date =>
    exact fail_locates (by simp [Value.kindName]) p kindMessage

theorem object_locates {shape : Shape (Validator σ Value)}
    (fields : ∀ f ∈ shape.fields, f.2.Locates)
    (unknown : shape.unknown.Holds Locates) : (object shape).Locates := by
  intro v p
  cases v with
  | object entries =>
    refine object_reports ?_ ?_ (unknown.imp fun w located => ?_)
    · intro f member s e ofField distinct
      exact (fields f member _ _ s e ofField (distinct.get f.1)).of_get
    · intro entry _ _
      exact .of_code_ne (by simp [unexpectedKey, Issue.bare])
    · intro entry there s e ofEntry distinct
      have part := ((Value.everyObject_object_iff entries).mp distinct).2 entry there
      exact .of_entry distinct there (located _ _ s e ofEntry part)
  | absent | null | bool | number | text | list | date =>
    exact fail_locates (by simp [Value.kindName]) p shape.kindMessage

/-- A schema for keys must report nothing of a wrong kind, as no path leads to a key. -/
theorem record_locates (kindMessage : Option String) {key : Validator σ String}
    {value : Validator σ α} (hk : key.Reports fun _ _ e => e.code ≠ "invalid_type")
    (hv : value.Locates) : (record kindMessage key value).Locates := by
  intro v p
  cases v with
  | object entries =>
    refine record_reports ?_ ?_ ?_
    · intro entry _ s e ofKey _
      exact .of_code_ne (hk _ _ s e ofKey)
    · intro entry there s e ofValue distinct
      have part := ((Value.everyObject_object_iff entries).mp distinct).2 entry there
      exact .of_entry distinct there (hv _ _ s e ofValue part)
    · intro entry _ k _
      exact .of_code_ne (by simp [duplicateKey, Issue.bare])
  | absent | null | bool | number | text | list | date =>
    exact fail_locates (by simp [Value.kindName]) p kindMessage

theorem union_locates (message : Option String) {ws : List (Validator σ α)}
    (h : ∀ w ∈ ws, w.Locates) : (union message ws).Locates :=
  union_reports h fun text n v p _ => .of_code_ne (by simp [noMatch])

theorem intersection_locates (kindMessage : Option String)
    {components : List (Validator σ (Entries α))} (h : ∀ w ∈ components, w.Locates) :
    (intersection kindMessage components).Locates := by
  intro v p
  cases v with
  | object entries => exact intersection_reports fun w member => h w member _ p
  | absent | null | bool | number | text | list | date =>
    exact fail_locates (by simp [Value.kindName]) p kindMessage

end Validator

end Conform
