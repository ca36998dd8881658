import Conform.Proofs.Run.Success
import Conform.Proofs.Validator.Assembly
import Conform.Proofs.Validator.InStep
import Conform.Proofs.Value.Depth

/-!
# When validators succeed

For every way of building a validator: what it means for the parts that the whole has succeeded, and
what success of the parts gives for the whole.  The first of a pair speaks of one run, the second of
every run, so that a value that has been accepted once can be shown to be accepted always.
-/

set_option autoImplicit false

namespace Conform

variable {σ α β : Type}

open Outcome

namespace Validator

open Run

/-- Some run of the validator on the value answers with the output. -/
def CanAnswer (w : Validator σ α) (v : Value) (a : α) : Prop := ∃ p, (w v p).CanReturn a

/-- Every run of the validator on the value succeeds; where that is exact, with this output. -/
def Returns (exact : Prop) (w : Validator σ α) (v : Value) (a : α) : Prop :=
  ∀ p, (w v p).Returns exact a

theorem gather_canReturn {besides : List Issue} {parts : List (Run σ (Outcome α))} {as : List α}
    (h : (gather besides parts).CanReturn as) :
    besides = [] ∧ List.Forall₂ CanReturn parts as := by
  obtain ⟨s, ran⟩ := h
  obtain ⟨none, rfl⟩ := settle_eq_success ran
  obtain ⟨noneBesides, noneOfParts⟩ := List.append_eq_nil_iff.mp none
  exact ⟨noneBesides, canReturn_of_sequence noneOfParts⟩

theorem gather_returns {exact : Prop} {parts : List (Run σ (Outcome α))} {as : List α}
    (h : List.Forall₂ (Run.Returns exact) parts as) : (gather [] parts).Returns exact as := by
  intro s
  obtain ⟨bs, ran, same⟩ := returns_of_sequence h s
  exact ⟨bs, gather_eq_success_iff.mpr ⟨rfl, ran⟩, same⟩

/-! ## Values without parts -/

theorem success_anywhere {f : Value → Path → Outcome α}
    (like : ∀ (m : Shift) v p, Like m.issue (f v p) (f v (m.path p))) {v : Value} {p : Path} {a : α}
    (h : f v p = .success a) (q : Path) : f v q = .success a := by
  have fromRoot := fun r => (like (.prepend r) v .root).success_iff a
  have place : ∀ r, (Shift.prepend r).path .root = r := Path.append_root
  rw [← place p, fromRoot p] at h
  rw [← place q, fromRoot q]
  exact h

theorem CanAnswer.ofOutcome {f : Value → Path → Outcome α} {v : Value} {a : α}
    (h : (ofOutcome f : Validator σ α).CanAnswer v a) : ∃ p, f v p = .success a := by
  obtain ⟨p, _, ran⟩ := h
  exact ⟨p, ran⟩

theorem textOutcome_success {rules : TextRules} {v : Value} {p : Path} {s : String}
    (h : textOutcome rules v p = .success s) : v = .text s := by
  cases v with
  | text t => rw [← (settle_eq_success h).2]
  | absent | null | bool | number | list | object | date => cases h

theorem numberOutcome_success {rules : NumberRules} {v : Value} {p : Path} {x : Binary64}
    (h : numberOutcome rules v p = .success x) : v = .number x := by
  cases v with
  | number y =>
    rw [numberOutcome, Value.number?] at h
    by_cases finite : y.isFinite
    · simp only [finite, if_true] at h
      rw [← (settle_eq_success h).2]
    · simp [finite, Outcome.fail] at h
  | absent | null | bool | text | list | object | date => cases h

theorem booleanOutcome_success {kindMessage : Option String} {v : Value} {p : Path} {b : Bool}
    (h : booleanOutcome kindMessage v p = .success b) : v = .bool b := by
  cases v with
  | bool c =>
    cases h
    rfl
  | absent | null | number | text | list | object | date => cases h

theorem dateOutcome_success {rules : DateRules} {v : Value} {p : Path} {t : Instant}
    (h : dateOutcome rules v p = .success t) : v = .date t := by
  cases v with
  | date u => rw [← (settle_eq_success h).2]
  | absent | null | bool | number | text | list | object => cases h

theorem literalOutcome_success {l : Literal} {v w : Value} {p : Path}
    (h : literalOutcome l v p = .success w) : v = w := by
  rw [literalOutcome] at h
  by_cases equal : v.equal l.constant.value
  · simpa [equal] using h
  · simp [equal, Outcome.fail] at h

theorem enumerationOutcome_success {e : Enumeration} {v w : Value} {p : Path}
    (h : enumerationOutcome e v p = .success w) : v = w := by
  rw [enumerationOutcome] at h
  by_cases has : e.has v
  · simpa [has] using h
  · simp [has, Outcome.fail] at h

theorem isScalar_eq_of_equal {v w : Value} (h : v.equal w = true) : v.isScalar = w.isScalar := by
  cases v <;> cases w <;> first | rfl | simp [Value.equal] at h

theorem literalOutcome_of_not_isScalar (l : Literal) {v : Value} (parts : v.isScalar = false)
    (p : Path) : literalOutcome l v p = .fail (l.mismatch p v) := by
  have other : ¬ v.equal l.constant.value = true := by
    intro equal
    rw [isScalar_eq_of_equal equal, l.constant.isScalar] at parts
    cases parts
  rw [literalOutcome, if_neg other]

theorem enumerationOutcome_of_not_isScalar (e : Enumeration) {v : Value}
    (parts : v.isScalar = false)
    (p : Path) : enumerationOutcome e v p = .fail (e.mismatch p v) := by
  have other : ¬ e.has v = true := by
    intro has
    obtain ⟨member, there, equal⟩ := List.any_eq_true.mp has
    obtain ⟨c, _, rfl⟩ := List.mem_map.mp there
    rw [← isScalar_eq_of_equal equal, c.isScalar] at parts
    cases parts
  rw [enumerationOutcome, if_neg other]

theorem numberOutcome_isFinite {rules : NumberRules} {v : Value} {p : Path} {x : Binary64}
    (h : numberOutcome rules v p = .success x) : x.isFinite = true := by
  obtain rfl := numberOutcome_success h
  by_contra infinite
  simp [numberOutcome, Value.number?, infinite, Outcome.fail] at h

theorem literalOutcome_equal {l : Literal} {v w : Value} {p : Path}
    (h : literalOutcome l v p = .success w) : w.equal l.constant.value = true := by
  obtain rfl := literalOutcome_success h
  by_contra other
  simp [literalOutcome, other, Outcome.fail] at h

theorem enumerationOutcome_equal {e : Enumeration} {v w : Value} {p : Path}
    (h : enumerationOutcome e v p = .success w) : ∃ c ∈ e.members, c.value.equal w = true := by
  obtain rfl := enumerationOutcome_success h
  have has : e.has v = true := by
    by_contra other
    simp [enumerationOutcome, other, Outcome.fail] at h
  obtain ⟨member, found, equal⟩ := List.any_eq_true.mp has
  obtain ⟨c, there, rfl⟩ := List.mem_map.mp found
  exact ⟨c, there, equal⟩

/-! ## Lists -/

theorem lengthRules_issues_anywhere {rules : LengthRules} {n : Nat} {p : Path}
    (h : rules.issues p n = []) (q : Path) : rules.issues q n = [] := by
  have moved := fun r => (lengthRules_issues_related (m := .prepend r) rules n .root).length_eq
  have place : ∀ r, (Shift.prepend r).path .root = r := Path.append_root
  have same : (rules.issues q n).length = (rules.issues p n).length := by
    rw [← place q, ← place p, ← moved q, ← moved p]
  rw [h, List.length_nil] at same
  exact List.length_eq_zero_iff.mp same

theorem itemsFrom_canReturn {item : Validator σ α} {p : Path} {i : Nat} {items : List Value}
    {as : List α} (h : List.Forall₂ CanReturn (itemsFrom item p i items) as) :
    List.Forall₂ item.CanAnswer items as := by
  induction items generalizing i as with
  | nil =>
    cases h
    exact .nil
  | cons v rest ih =>
    cases h with
    | cons first others => exact .cons ⟨_, first⟩ (ih others)

theorem itemsFrom_returns {exact : Prop} {item : Validator σ α} {items : List Value} {as : List α}
    (h : List.Forall₂ (item.Returns exact) items as) (p : Path) (i : Nat) :
    List.Forall₂ (Run.Returns exact) (itemsFrom item p i items) as := by
  induction h generalizing i with
  | nil => exact .nil
  | cons first _ ih => exact .cons (first _) (ih (i + 1))

theorem list_canAnswer {rules : LengthRules} {item : Validator σ α} {v : Value} {as : List α}
    (h : (list rules item).CanAnswer v as) :
    ∃ items, v = .list items ∧ (∀ p, rules.issues p items.length = []) ∧
      List.Forall₂ item.CanAnswer items as := by
  obtain ⟨p, h⟩ := h
  cases v with
  | list items =>
    obtain ⟨fitting, parts⟩ := gather_canReturn h
    exact ⟨items, rfl, lengthRules_issues_anywhere fitting, itemsFrom_canReturn parts⟩
  | absent | null | bool | number | text | object | date => obtain ⟨_, ⟨⟩⟩ := h

theorem list_returns {exact : Prop} {rules : LengthRules} {item : Validator σ α}
    {items : List Value} {as : List α} (fitting : ∀ p, rules.issues p items.length = [])
    (h : List.Forall₂ (item.Returns exact) items as) :
    (list rules item).Returns exact (.list items) as := by
  intro p
  have run : list rules item (.list items) p =
      gather (rules.issues p items.length) (itemsFrom item p 0 items) := rfl
  rw [run, fitting p]
  exact gather_returns (itemsFrom_returns h p 0)

/-- The relation of the positions of a tuple, from one on, to outputs. -/
inductive PositionsAnswer (R : Validator σ α → Value → α → Prop) (v : Value) :
    Nat → List (Validator σ α) → List α → Prop
  | nil (i : Nat) : PositionsAnswer R v i [] []
  | cons {i : Nat} {w : Validator σ α} {ws : List (Validator σ α)} {a : α} {as : List α}
    (first : R w (v.item i) a) (rest : PositionsAnswer R v (i + 1) ws as) :
    PositionsAnswer R v i (w :: ws) (a :: as)

theorem PositionsAnswer.exists_of_mem {R : Validator σ α → Value → α → Prop} {v : Value} {i : Nat}
    {ws : List (Validator σ α)} {as : List α} {a : α} (h : PositionsAnswer R v i ws as)
    (member : a ∈ as) : ∃ w ∈ ws, ∃ j, R w (v.item j) a := by
  induction h with
  | nil => cases member
  | @cons i w ws _ _ first _ ih =>
    rcases List.mem_cons.mp member with rfl | later
    · exact ⟨w, List.mem_cons_self, i, first⟩
    · obtain ⟨x, there, j, found⟩ := ih later
      exact ⟨x, List.mem_cons_of_mem _ there, j, found⟩

theorem positionsFrom_canReturn {ws : List (Validator σ α)} {v : Value} {p : Path} {i : Nat}
    {as : List α} (h : List.Forall₂ CanReturn (positionsFrom v p i ws) as) :
    PositionsAnswer CanAnswer v i ws as := by
  induction ws generalizing i as with
  | nil =>
    cases h
    exact .nil i
  | cons w rest ih =>
    cases h with
    | cons first others => exact .cons ⟨_, first⟩ (ih others)

theorem positionsFrom_returns {exact : Prop} {ws : List (Validator σ α)} {v : Value} {i : Nat}
    {as : List α} (h : PositionsAnswer (Returns exact) v i ws as) (p : Path) :
    List.Forall₂ (Run.Returns exact) (positionsFrom v p i ws) as := by
  induction h with
  | nil => exact .nil
  | cons first _ ih => exact .cons (first _) ih

theorem tuple_canAnswer {kindMessage : Option String} {ws : List (Validator σ α)} {v : Value}
    {as : List α} (h : (tuple kindMessage ws).CanAnswer v as) :
    PositionsAnswer CanAnswer v 0 ws as := by
  obtain ⟨p, h⟩ := h
  cases v with
  | list items => exact positionsFrom_canReturn (gather_canReturn h).2
  | absent | null | bool | number | text | object | date => obtain ⟨_, ⟨⟩⟩ := h

theorem tuple_returns {exact : Prop} (kindMessage : Option String) {ws : List (Validator σ α)}
    {items : List Value} {as : List α} (h : PositionsAnswer (Returns exact) (.list items) 0 ws as) :
    (tuple kindMessage ws).Returns exact (.list items) as := by
  intro p
  exact gather_returns (positionsFrom_returns h p)

/-! ## Objects -/

theorem field_canReturn {v : Value} {p : Path} {name : String} {w : Validator σ Value}
    {e : String × Value} (h : (field v p name w).CanReturn e) :
    e.1 = name ∧ w.CanAnswer (v.get name) e.2 := by
  obtain ⟨a, found, rfl⟩ := canReturn_map_iff.mp h
  exact ⟨rfl, _, found⟩

/-- The relation of the entries that a shape does not declare to what is kept of them. -/
inductive UnknownAnswer (R : Validator σ Value → Value → Value → Prop) :
    UnknownKeys (Validator σ Value) → Entries Value → Entries Value → Prop
  | strip (entries : Entries Value) : UnknownAnswer R .strip entries []
  | allow (entries : Entries Value) : UnknownAnswer R .allow entries entries
  | deny : UnknownAnswer R .deny [] []
  | validate {w : Validator σ Value} {entries kept : Entries Value}
    (h : List.Forall₂ (fun e k => k.1 = e.1 ∧ R w e.2 k.2) entries kept) :
    UnknownAnswer R (.validate w) entries kept

theorem unknownEntries_canReturn {unknown : UnknownKeys (Validator σ Value)} {p : Path}
    {entries kept : Entries Value}
    (h : List.Forall₂ CanReturn (entries.flatMap (unknownEntry unknown p)) kept) :
    UnknownAnswer CanAnswer unknown entries kept := by
  cases unknown with
  | strip =>
    have none : entries.flatMap (unknownEntry (.strip : UnknownKeys (Validator σ Value)) p) = [] :=
      List.flatMap_eq_nil_iff.mpr fun _ _ => rfl
    rw [none] at h
    cases h
    exact .strip entries
  | allow =>
    have same : kept = entries := by
      induction entries generalizing kept with
      | nil =>
        cases h
        rfl
      | cons e rest ih =>
        cases h with
        | cons first others =>
          obtain ⟨_, ⟨⟩⟩ := first
          rw [ih others]
    rw [same]
    exact .allow entries
  | deny =>
    cases entries with
    | nil =>
      cases h
      exact .deny
    | cons e rest =>
      cases h with
      | cons first _ => obtain ⟨_, ⟨⟩⟩ := first
  | validate w =>
    refine .validate ?_
    induction entries generalizing kept with
    | nil =>
      cases h
      exact .nil
    | cons e rest ih =>
      cases h with
      | cons first others =>
        obtain ⟨a, found, rfl⟩ := canReturn_map_iff.mp first
        exact .cons ⟨rfl, _, found⟩ (ih others)

theorem forall₂_flatMap_self {R : β → α → Prop} {f : α → List β} {as : List α}
    (h : ∀ a ∈ as, List.Forall₂ R (f a) [a]) : List.Forall₂ R (as.flatMap f) as := by
  induction as with
  | nil => exact .nil
  | cons a rest ih =>
    obtain ⟨first, others⟩ := List.forall_mem_cons.mp h
    rw [List.flatMap_cons]
    exact List.rel_append first (ih others)

theorem unknownEntries_returns {exact : Prop} {unknown : UnknownKeys (Validator σ Value)}
    {kept : Entries Value} (h : UnknownAnswer (Returns exact) unknown kept kept) (p : Path) :
    List.Forall₂ (Run.Returns exact) (kept.flatMap (unknownEntry unknown p)) kept := by
  cases h with
  | strip => exact .nil
  | allow =>
    refine forall₂_flatMap_self fun e _ => .cons ?_ .nil
    exact fun _ => ⟨e, rfl, fun _ => rfl⟩
  | deny => exact .nil
  | validate h =>
    refine forall₂_flatMap_self fun e he => .cons ?_ .nil
    have answer := (List.forall₂_same.mp h e he).2
    exact (answer (p.field e.1)).map fun v => (e.1, v)

theorem keys_eq_of_forall₂ {γ δ : Type} {R : String × γ → String × δ → Prop}
    {entries : Entries γ} {entries' : Entries δ}
    (h : List.Forall₂ (fun e e' => e'.1 = e.1 ∧ R e e') entries entries') :
    Entries.keys entries' = Entries.keys entries := by
  induction h with
  | nil => rfl
  | cons first _ ih =>
    simp only [Entries.keys, List.map_cons] at ih ⊢
    rw [first.1, ih]

theorem UnknownAnswer.keys_sublist {R : Validator σ Value → Value → Value → Prop}
    {unknown : UnknownKeys (Validator σ Value)} {entries kept : Entries Value}
    (h : UnknownAnswer R unknown entries kept) :
    (Entries.keys kept).Sublist (Entries.keys entries) := by
  cases h with
  | strip => exact List.nil_sublist _
  | allow | deny => exact .refl _
  | validate h => rw [keys_eq_of_forall₂ h]

theorem object_canAnswer {shape : Shape (Validator σ Value)} {v : Value} {out : Entries Value}
    (h : (object shape).CanAnswer v out) :
    ∃ entries declared others, v = .object entries ∧ out = Value.present declared ++ others ∧
      List.Forall₂ (fun f e => e.1 = f.1 ∧ f.2.CanAnswer (v.get f.1) e.2) shape.fields declared ∧
      UnknownAnswer CanAnswer shape.unknown (undeclared shape.fields entries) others := by
  obtain ⟨p, s, ran⟩ := h
  cases v with
  | object entries =>
    obtain ⟨none, rfl⟩ := settle_eq_success ran
    obtain ⟨noneDeclared, noneUnknown⟩ := List.append_eq_nil_iff.mp none
    refine ⟨entries, _, _, rfl, rfl, ?_,
      unknownEntries_canReturn (canReturn_of_sequence noneUnknown)⟩
    have fields := canReturn_of_sequence noneDeclared
    rw [List.forall₂_map_left_iff] at fields
    exact fields.imp fun f e found => field_canReturn found
  | absent | null | bool | number | text | list | date => cases ran

theorem object_returns {exact : Prop} {shape : Shape (Validator σ Value)}
    {entries declared : Entries Value}
    (fields : List.Forall₂
      (fun f e => e.1 = f.1 ∧ f.2.Returns exact ((Value.object entries).get f.1) e.2)
      shape.fields declared)
    (unknown : UnknownAnswer (Returns exact) shape.unknown (undeclared shape.fields entries)
      (undeclared shape.fields entries)) :
    (object shape).Returns exact (.object entries)
      (Value.present declared ++ undeclared shape.fields entries) := by
  intro p s
  have eachField : List.Forall₂ (Run.Returns exact)
      (shape.fields.map fun f => field (.object entries) p f.1 f.2) declared := by
    rw [List.forall₂_map_left_iff]
    refine fields.imp fun f e answer => ?_
    obtain ⟨name, value⟩ := e
    obtain ⟨rfl, found⟩ := answer
    exact (found (p.field f.1)).map fun v => (f.1, v)
  obtain ⟨bs, ranFields, sameFields⟩ := returns_of_sequence eachField s
  obtain ⟨cs, ranUnknown, sameUnknown⟩ := returns_of_sequence (unknownEntries_returns unknown p)
    (Run.sequence (shape.fields.map fun f => field (.object entries) p f.1 f.2) s).state
  refine ⟨Value.present bs ++ cs, ?_, fun e => by rw [sameFields e, sameUnknown e]⟩
  have ran : (object shape (.object entries) p s).result =
      settle (Value.present (outputs (bs.map success)) ++ outputs (cs.map success))
        (allIssues (bs.map success) ++ allIssues (cs.map success)) := by
    rw [← ranFields, ← ranUnknown]
    rfl
  rw [ran]
  simp only [outputs_map_success, allIssues_map_success]
  rfl

/-! ## Records -/

def RecordEntry.Answers (e : RecordEntry α) (out : String × α) : Prop :=
  e.key = .success out.1 ∧ e.value = .success out.2

theorem assemble_of_answers {es : List (RecordEntry α)} {out : Entries α}
    (h : List.Forall₂ RecordEntry.Answers es out) {done : Entries α}
    (distinct : (Entries.keys (done ++ out)).Nodup) : assemble done es = (done ++ out, []) := by
  have own : accepted es = out ∧ es.flatMap RecordEntry.issues = [] := by
    clear distinct
    induction h with
    | nil => exact ⟨rfl, rfl⟩
    | cons first _ ih =>
      have some := accepted?_eq_some_iff.mpr first
      rw [accepted_cons_of_some _ some, List.flatMap_cons, issues_of_accepted some, ih.1, ih.2]
      exact ⟨rfl, rfl⟩
  obtain ⟨rfl, none⟩ := own
  rw [assemble_of_distinct _ es distinct, none]

/-- Entries that assemble without issues have answered with a key and a value each. -/
theorem answers_of_assemble {Q : RecordEntry α → β → Prop} {es : List (RecordEntry α)}
    {bs : List β} (h : List.Forall₂ Q es bs) (none : (assemble [] es).2 = []) :
    (Entries.keys (assemble [] es).1).Nodup ∧
      List.Forall₂ (fun b o => ∃ e, Q e b ∧ RecordEntry.Answers e o) bs (assemble [] es).1 := by
  obtain ⟨assembled, answers⟩ := assemble_of_no_issues none
  refine ⟨nodup_keys_assemble es List.nodup_nil, ?_⟩
  rw [assembled, List.nil_append]
  refine forall₂_comp h.flip answers fun b e out related found => ?_
  exact ⟨e, related, accepted?_eq_some_iff.mp found⟩

theorem record_canAnswer {kindMessage : Option String} {key : Validator σ String}
    {value : Validator σ α} {v : Value} {out : Entries α}
    (h : (record kindMessage key value).CanAnswer v out) :
    ∃ entries, v = .object entries ∧ (Entries.keys out).Nodup ∧
      List.Forall₂ (fun e o => key.CanAnswer (.text e.1) o.1 ∧ value.CanAnswer e.2 o.2)
        entries out := by
  obtain ⟨p, s, ran⟩ := h
  cases v with
  | object entries =>
    obtain ⟨none, assembled⟩ := settle_eq_success ran
    have answers : List.Forall₂
        (fun (answer : RecordEntry α) e =>
          (∀ k, answer.key = .success k → key.CanAnswer (.text e.1) k) ∧
            ∀ a, answer.value = .success a → value.CanAnswer e.2 a)
        (Run.sequence (entries.map (recordEntry key value p)) s).result entries := by
      refine results_of_sequence ?_ s
      rw [List.forall₂_map_left_iff]
      exact List.forall₂_same.mpr fun e _ t => ⟨fun k hk => ⟨_, _, hk⟩, fun a ha => ⟨_, _, ha⟩⟩
    obtain ⟨distinct, found⟩ := answers_of_assemble answers none
    rw [assembled] at distinct found
    refine ⟨entries, rfl, distinct, found.imp fun e o answer => ?_⟩
    obtain ⟨answer, ⟨keys, values⟩, keyAnswer, valueAnswer⟩ := answer
    exact ⟨keys _ keyAnswer, values _ valueAnswer⟩
  | absent | null | bool | number | text | list | date => cases ran

theorem RecordEntry.Answers.all {exact : Prop} {es : List (RecordEntry α)} {out : Entries α}
    (h : List.Forall₂ (fun e o => e.key = .success o.1 ∧ e.value.Returns exact o.2) es out) :
    ∃ bs, List.Forall₂ RecordEntry.Answers es bs ∧ Entries.keys bs = Entries.keys out ∧
      (exact → bs = out) := by
  induction h with
  | nil => exact ⟨[], .nil, rfl, fun _ => rfl⟩
  | @cons e o _ _ first _ ih =>
    obtain ⟨key, b, value, same⟩ := first
    obtain ⟨bs, others, keys, rest⟩ := ih
    refine ⟨(o.1, b) :: bs, .cons ⟨key, value⟩ others, ?_, fun e => by rw [same e, rest e]⟩
    simp only [Entries.keys, List.map_cons] at keys ⊢
    rw [keys]

theorem record_returns {exact : Prop} (kindMessage : Option String) {key : Validator σ String}
    {value : Validator σ α} {entries : Entries Value} {out : Entries α}
    (distinct : (Entries.keys out).Nodup)
    (h : List.Forall₂
      (fun e o => key.Returns True (.text e.1) o.1 ∧ value.Returns exact e.2 o.2) entries out) :
    (record kindMessage key value).Returns exact (.object entries) out := by
  intro p s
  have ran : List.Forall₂
      (fun (answer : RecordEntry α) o =>
        answer.key = .success o.1 ∧ answer.value.Returns exact o.2)
      (Run.sequence (entries.map (recordEntry key value p)) s).result out := by
    refine results_of_sequence ?_ s
    rw [List.forall₂_map_left_iff]
    refine h.imp fun e o answer t => ?_
    obtain ⟨k, found, same⟩ := answer.1 (p.field e.1) t
    rw [same trivial] at found
    exact ⟨found, answer.2 (p.field e.1) _⟩
  obtain ⟨bs, answers, keys, same⟩ := RecordEntry.Answers.all ran
  rw [← keys] at distinct
  have assembled := assemble_of_answers answers (show (Entries.keys ([] ++ bs)).Nodup from distinct)
  refine ⟨bs, ?_, same⟩
  show settle (assemble [] _).1 (assemble [] _).2 = _
  rw [assembled]
  rfl

/-! ## Unions -/

theorem attempt_accepted {v : Value} {p : Path} {i j : Nat} {ws : List (Validator σ α)} {a : α}
    {s : σ} (h : (attempt v p i ws s).result = .accepted j a) : ∃ w ∈ ws, w.CanAnswer v a := by
  induction ws generalizing i s with
  | nil => cases h
  | cons w rest ih =>
    rw [attempt, bind_apply] at h
    cases first : (w v p s).result with
    | success b =>
      rw [first] at h
      cases h
      exact ⟨w, List.mem_cons_self, p, s, first⟩
    | failure es =>
      rw [first] at h
      simp only [bind_apply] at h
      cases later : (attempt v p (i + 1) rest (w v p s).state).result with
      | accepted k b =>
        rw [later] at h
        cases h
        obtain ⟨x, member, found⟩ := ih later
        exact ⟨x, List.mem_cons_of_mem _ member, found⟩
      | rejected issues =>
        rw [later] at h
        cases h

theorem attempt_accepts {v : Value} {p : Path} {ws : List (Validator σ α)} {w : Validator σ α}
    {a : α} (member : w ∈ ws) (h : w.Returns False v a) (i : Nat) (s : σ) :
    ∃ j b, (attempt v p i ws s).result = .accepted j b := by
  induction ws generalizing i s with
  | nil => cases member
  | cons x rest ih =>
    rw [attempt, bind_apply]
    cases first : (x v p s).result with
    | success b => exact ⟨i, b, rfl⟩
    | failure es =>
      rcases List.mem_cons.mp member with rfl | later
      · obtain ⟨b, accepted, _⟩ := h p s
        rw [first] at accepted
        cases accepted
      · obtain ⟨j, b, found⟩ := ih later (i + 1) (x v p s).state
        simp only [bind_apply]
        rw [found]
        exact ⟨j, b, rfl⟩

theorem union_canAnswer {message : Option String} {ws : List (Validator σ α)} {v : Value} {a : α}
    (h : (union message ws).CanAnswer v a) : ∃ w ∈ ws, w.CanAnswer v a := by
  obtain ⟨p, s, ran⟩ := h
  rw [union, bind_apply] at ran
  cases attempted : (attempt v p 0 ws s).result with
  | accepted j b =>
    rw [attempted] at ran
    cases ran
    exact attempt_accepted attempted
  | rejected issues =>
    rw [attempted] at ran
    cases ran

theorem union_returns {message : Option String} {ws : List (Validator σ α)} {w : Validator σ α}
    (member : w ∈ ws) {v : Value} {a : α} (h : w.Returns False v a) :
    (union message ws).Returns False v a := by
  intro p s
  obtain ⟨j, b, attempted⟩ := attempt_accepts (p := p) member h 0 s
  rw [union, bind_apply, attempted]
  exact ⟨b, rfl, False.elim⟩

/-! ## Intersections -/

theorem intersection_canAnswer {kindMessage : Option String} {ws : List (Validator σ (Entries α))}
    {v : Value} {out : Entries α} (h : (intersection kindMessage ws).CanAnswer v out) :
    ∃ outs, out = mergeAll outs ∧ List.Forall₂ (fun w o => w.CanAnswer v o) ws outs := by
  obtain ⟨p, s, ran⟩ := h
  cases v with
  | object entries =>
    obtain ⟨none, rfl⟩ := settle_eq_success ran
    have answers := canReturn_of_sequence none
    rw [List.forall₂_map_left_iff] at answers
    exact ⟨_, rfl, answers.imp fun w o found => ⟨p, found⟩⟩
  | absent | null | bool | number | text | list | date => cases ran

/-- Every entry of the merged map is an entry of one of the maps. -/
theorem mem_of_mem_mergeAll {outs : List (Entries α)} {e : String × α} (h : e ∈ mergeAll outs) :
    ∃ o ∈ outs, e ∈ o := by
  have general : ∀ m : Entries α, e ∈ outs.foldl Entries.merge m → e ∈ m ∨ ∃ o ∈ outs, e ∈ o := by
    clear h
    induction outs with
    | nil => exact fun m h => .inl h
    | cons o rest ih =>
      intro m h
      rcases ih _ h with merged | ⟨x, later, member⟩
      · rcases Entries.mem_of_mem_merge merged with before | own
        · exact .inl before
        · exact .inr ⟨o, List.mem_cons_self, own⟩
      · exact .inr ⟨x, List.mem_cons_of_mem _ later, member⟩
  rcases general [] h with absurdity | found
  · cases absurdity
  · exact found

/-! ## Modifiers -/

theorem map_canAnswer {inner : Validator σ α} {f : α → β} {v : Value} {b : β}
    (h : (inner.map f).CanAnswer v b) : ∃ a, inner.CanAnswer v a ∧ f a = b := by
  obtain ⟨p, h⟩ := h
  obtain ⟨a, found, same⟩ := canReturn_map_iff.mp h
  exact ⟨a, ⟨p, found⟩, same⟩

theorem Returns.map {exact : Prop} {inner : Validator σ α} {v : Value} {a : α}
    (h : inner.Returns exact v a) (f : α → β) : (inner.map f).Returns exact v (f a) := by
  intro p
  exact (h p).map f

theorem nullable_canAnswer {inner : Validator σ Value} {v a : Value}
    (h : inner.nullable.CanAnswer v a) : a = .null ∨ inner.CanAnswer v a := by
  obtain ⟨p, s, ran⟩ := h
  rw [nullable] at ran
  by_cases null : v.isNull
  · simp only [null, if_true] at ran
    cases ran
    exact .inl rfl
  · simp only [null] at ran
    exact .inr ⟨p, s, ran⟩

theorem nullable_returns {exact : Prop} {inner : Validator σ Value} {v : Value}
    (h : v ≠ .null → inner.Returns exact v v) : inner.nullable.Returns exact v v := by
  intro p s
  rw [nullable]
  by_cases null : v.isNull
  · simp only [null, if_true]
    exact ⟨.null, rfl, fun _ => ((Value.isNull_iff v).mp null).symm⟩
  · simp only [null]
    exact h (fun e => null ((Value.isNull_iff v).mpr e)) p s

theorem optional_canAnswer {inner : Validator σ Value} {v a : Value}
    (h : inner.optional.CanAnswer v a) :
    v = .absent ∧ a = .absent ∨ v ≠ .absent ∧ inner.CanAnswer v a := by
  obtain ⟨p, s, ran⟩ := h
  rw [optional] at ran
  by_cases absent : v.isAbsent
  · simp only [absent, if_true] at ran
    cases ran
    exact .inl ⟨(Value.isAbsent_iff v).mp absent, rfl⟩
  · simp only [absent] at ran
    exact .inr ⟨fun e => absent ((Value.isAbsent_iff v).mpr e), p, s, ran⟩

theorem optional_returns {exact : Prop} {inner : Validator σ Value} {v : Value}
    (h : v ≠ .absent → inner.Returns exact v v) : inner.optional.Returns exact v v := by
  intro p s
  rw [optional]
  by_cases absent : v.isAbsent
  · simp only [absent, if_true]
    exact ⟨.absent, rfl, fun _ => ((Value.isAbsent_iff v).mp absent).symm⟩
  · simp only [absent]
    exact h (fun e => absent ((Value.isAbsent_iff v).mpr e)) p s

theorem withDefault_canAnswer {fallback : StateM σ α} {inner : Validator σ α} {v : Value} {a : α}
    (h : (inner.withDefault fallback).CanAnswer v a) :
    (v = .absent ∧ ∃ s, a = (fallback.run s).1) ∨ v ≠ .absent ∧ inner.CanAnswer v a := by
  obtain ⟨p, s, ran⟩ := h
  rw [withDefault] at ran
  by_cases absent : v.isAbsent
  · simp only [absent, if_true] at ran
    cases ran
    exact .inl ⟨(Value.isAbsent_iff v).mp absent, s, rfl⟩
  · simp only [absent] at ran
    exact .inr ⟨fun e => absent ((Value.isAbsent_iff v).mpr e), p, s, ran⟩

theorem withDefault_returns {exact : Prop} (fallback : StateM σ α) {inner : Validator σ α}
    {v : Value} {a : α} (there : v ≠ .absent) (h : inner.Returns exact v a) :
    (inner.withDefault fallback).Returns exact v a := by
  intro p s
  have given : ¬ v.isAbsent = true := fun e => there ((Value.isAbsent_iff v).mp e)
  rw [withDefault, if_neg given]
  exact h p s

theorem withDefault_returns_absent {exact : Prop} {fallback : StateM σ α} (inner : Validator σ α)
    {a : α} (h : ∀ s, (fallback.run s).1 = a) :
    (inner.withDefault fallback).Returns exact .absent a := by
  intro p s
  exact ⟨(fallback.run s).1, rfl, fun _ => h s⟩

theorem refine_canAnswer {test : α → StateM σ Bool} {message code : String}
    {inner : Validator σ α} {v : Value} {a : α}
    (h : (inner.refine test message code).CanAnswer v a) :
    inner.CanAnswer v a ∧ ∃ s, ((test a).run s).1 = true := by
  obtain ⟨p, s, ran⟩ := h
  rw [refine_result] at ran
  cases first : (inner v p s).result with
  | failure es =>
    rw [first] at ran
    cases ran
  | success b =>
    rw [first, Outcome.bind] at ran
    by_cases holds : ((test b).run (inner v p s).state).1 = true
    · rw [if_pos holds] at ran
      cases ran
      exact ⟨⟨p, s, first⟩, _, holds⟩
    · rw [if_neg holds] at ran
      cases ran

theorem refine_returns {exact : Prop} {test : α → StateM σ Bool} {message code : String}
    {inner : Validator σ α} {v : Value} {a : α} (h : inner.Returns True v a)
    (holds : ∀ s, ((test a).run s).1 = true) :
    (inner.refine test message code).Returns exact v a := by
  intro p s
  obtain ⟨b, first, same⟩ := h p s
  rw [same trivial] at first
  refine ⟨a, ?_, fun _ => rfl⟩
  rw [refine_result, first, Outcome.bind, if_pos (holds (inner v p s).state)]

theorem coerce_canAnswer {c : Coercion} {inner : Validator σ α} {v : Value} {a : α}
    (h : (inner.coerce c).CanAnswer v a) : inner.CanAnswer (c.apply v) a := by
  obtain ⟨p, s, ran⟩ := h
  rw [coerce] at ran
  rw [Coercion.apply]
  cases converted : c.convert? v with
  | none =>
    rw [converted] at ran
    exact ⟨p, s, ran⟩
  | some w =>
    rw [converted] at ran
    exact ⟨p, s, ran⟩

theorem coerce_returns {exact : Prop} {c : Coercion} {inner : Validator σ α} {v : Value} {a : α}
    (left : c.convert? v = none) (h : inner.Returns exact v a) :
    (inner.coerce c).Returns exact v a := by
  intro p
  rw [coerce, left]
  exact h p

end Validator

end Conform
