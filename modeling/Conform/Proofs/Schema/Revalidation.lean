import Conform.Proofs.Schema.Structure
import Conform.Proofs.Validator.Revalidation
import Conform.Schema.Build
import Conform.Schema.Parse

/-!
# What a schema has accepted, it accepts again

A stable schema has no step that turns outputs into other ones.  Its outputs are accepted when they
are validated again, and without a union among its parts they come back as they are: coerced values
need no more coercion, a field that was left out is read as absent again, what becomes of undeclared
keys is the same the second time, and keys of records do not change.
-/

set_option autoImplicit false

namespace Conform

namespace Schema

open Validator

variable {σ : Type} {τ : OutputType}

def UnionFree (s : Schema σ τ) : Prop :=
  s.Every fun _ t => match t with
    | union .. => False
    | _ => True

/-- The output is there, in its objects as well, and the schema answers with it when it is given
it. -/
def Unchanged (s : Schema σ τ) (a : Output τ) : Prop :=
  Output.view τ a ≠ .absent ∧ (Output.view τ a).NoAbsentEntries ∧
    ∀ p t, (s.validate (Output.view τ a) p t).result = .success a

/-- The condition of stability on a schema apart from the schemas within it. -/
def StableStep : (τ : OutputType) → Schema σ τ → Prop
  | _, custom .. | _, intersection .. | _, transform .. | _, tryMap .. | _, chain .. => False
  | _, object shape => (Entries.keys shape.fields).Nodup
  | τ, withDefault fallback inner =>
    (∀ t, Output.view τ (fallback.run t).1 = .absent) ∨ ∀ t, inner.Unchanged (fallback.run t).1
  | τ, refine test _ _ inner =>
    (∃ holds : Output τ → Bool, ∀ a t, ((test a).run t).1 = holds a) ∧ inner.UnionFree
  | _, coerce c inner => Coercion.forKind? inner.kind = some c
  | _, _ => True

/-- Schemas without steps that change values, whose tests look at outputs alone, and whose fallbacks
are always absent or always accepted unchanged. -/
def Stable (s : Schema σ τ) : Prop := s.Every StableStep

/-! ## What stable schemas answer -/

theorem erase_eq_view {a : Output τ} (h : (Output.view τ a).NoAbsentEntries) :
    Output.erase τ a = Output.view τ a := by
  cases τ with
  | map =>
    exact congrArg Value.object (Value.present_eq_self (Value.everyObject_object_iff a |>.mp h).1)
  | text | number | boolean | date | list | value => rfl

theorem view_injective (τ : OutputType) : Function.Injective (Output.view τ) := by
  intro a b same
  cases τ with
  | value => exact same
  | text | number | boolean | date | list | map =>
    cases same
    rfl

theorem convert?_eq_some {c : Coercion} {v w : Value} (h : c.convert? v = some w) :
    w ≠ .absent ∧ w.NoAbsentEntries := by
  cases c with
  | toText | toNumber | toBoolean | toDate =>
    obtain ⟨x, _, rfl⟩ := Option.map_eq_some_iff.mp h
    exact ⟨by simp, trivial⟩

theorem apply_ne_absent (c : Coercion) {v : Value} (h : v ≠ .absent) : c.apply v ≠ .absent := by
  rw [Coercion.apply]
  cases converted : c.convert? v with
  | none => exact h
  | some w => exact (convert?_eq_some converted).1

theorem apply_noAbsentEntries (c : Coercion) {v : Value} (h : v.NoAbsentEntries) :
    (c.apply v).NoAbsentEntries := by
  rw [Coercion.apply]
  cases converted : c.convert? v with
  | none => exact h
  | some w => exact (convert?_eq_some converted).2

theorem Stable.absent_of_answer {s : Schema σ τ} (h : s.Stable) :
    ∀ v a, s.validator.CanAnswer v a → Output.view τ a = .absent → v = .absent := by
  induction s using parts_induction with
  | text | number | boolean | date | list | tuple | object | record =>
    intro v a _ absent
    cases absent
  | custom | transform | tryMap | chain => exact h.self.elim
  | intersection => exact h.self.elim
  | literal l =>
    intro v a found absent
    obtain ⟨p, answer⟩ := found.ofOutcome
    exact (literalOutcome_success answer).trans absent
  | enumeration e =>
    intro v a found absent
    obtain ⟨p, answer⟩ := found.ofOutcome
    exact (enumerationOutcome_success answer).trans absent
  | anything =>
    intro v a found absent
    obtain ⟨p, answer⟩ := found.ofOutcome
    cases answer
    exact absent
  | union message alternatives ih =>
    intro v a found absent
    rw [validator_union] at found
    obtain ⟨w, member, answer⟩ := union_canAnswer found
    obtain ⟨s, there, rfl⟩ := List.mem_map.mp member
    exact ih s there ((every_union_iff.mp h).2 s there) v a answer absent
  | erased τ inner ih =>
    intro v a found absent
    obtain ⟨b, answer, rfl⟩ := map_canAnswer found
    refine ih h.2 v b answer ?_
    cases τ with
    | map => cases absent
    | text | number | boolean | date | list | value => exact absent
  | nullable inner ih =>
    intro v a found absent
    rcases nullable_canAnswer found with null | answer
    · rw [null] at absent
      cases absent
    · exact ih h.2 v a answer absent
  | optional inner ih =>
    intro v a found absent
    rcases optional_canAnswer found with ⟨given, _⟩ | ⟨_, answer⟩
    · exact given
    · exact ih h.2 v a answer absent
  | withDefault τ fallback inner ih =>
    intro v a found absent
    rcases withDefault_canAnswer found with ⟨given, _⟩ | ⟨_, answer⟩
    · exact given
    · exact ih h.2 v a answer absent
  | refine τ test message code inner ih =>
    intro v a found absent
    exact ih h.2 v a (refine_canAnswer found).1 absent
  | coerce τ c inner ih =>
    intro v a found absent
    have converted := ih h.2 (c.apply v) a (coerce_canAnswer found) absent
    by_contra given
    exact apply_ne_absent c given converted

theorem unknown_present {unknown : UnknownKeys (Schema σ .value)}
    {entries kept : Entries Value} (h : unknown.Holds Stable)
    (found : UnknownAnswer CanAnswer (unknown.map validator) entries kept)
    (whole : ∀ e ∈ entries, e.2 ≠ .absent) : ∀ e ∈ kept, e.2 ≠ .absent := by
  intro k member absent
  cases unknown with
  | strip | deny =>
    cases found
    cases member
  | allow =>
    cases found
    exact whole k member absent
  | validate s =>
    cases found with
    | validate answers =>
      obtain ⟨e, there, _, answer⟩ := exists_of_mem_right answers member
      exact whole e there (Stable.absent_of_answer h e.2 k.2 answer absent)

/-- No map that a stable schema answers with has an absent entry, so nothing is left out of it. -/
theorem Stable.erase_answer {s : Schema σ τ} (h : s.Stable) :
    ∀ v a, v.NoAbsentEntries → s.validator.CanAnswer v a →
      Output.erase τ a = Output.view τ a := by
  induction s using parts_induction with
  | text | number | boolean | date | list | tuple | literal | enumeration | anything | union
  | erased | nullable | optional =>
    intro v a _ _
    rfl
  | custom | transform | tryMap | chain => exact h.self.elim
  | intersection => exact h.self.elim
  | object shape =>
    intro v out whole found
    obtain ⟨_, _, unknown⟩ := every_object_iff.mp h
    rw [validator_object] at found
    obtain ⟨entries, declared, others, rfl, rfl, _, kept⟩ := object_canAnswer found
    have given := ((Value.everyObject_object_iff entries).mp whole).1
    refine congrArg Value.object (Value.present_eq_self fun e member => ?_)
    rcases List.mem_append.mp member with inDeclared | inOthers
    · have present := (List.mem_filter.mp inDeclared).2
      intro absent
      simp [absent, Value.isAbsent] at present
    · exact unknown_present unknown kept (fun e there => given e (List.mem_filter.mp there).1) e
        inOthers
  | record kindMessage key value =>
    intro v out whole found
    obtain ⟨entries, rfl, _, answers⟩ := record_canAnswer found
    have given := ((Value.everyObject_object_iff entries).mp whole).1
    refine congrArg Value.object (Value.present_eq_self fun o member absent => ?_)
    obtain ⟨e, there, _, answer⟩ := exists_of_mem_right answers member
    exact given e there (Stable.absent_of_answer h.2.2 e.2 o.2 answer absent)
  | withDefault τ fallback inner ih =>
    intro v a whole found
    rcases withDefault_canAnswer found with ⟨_, t, rfl⟩ | ⟨_, answer⟩
    · refine erase_eq_view ?_
      rcases h.1 with absent | unchanged
      · rw [absent t]
        trivial
      · exact (unchanged t).2.1
    · exact ih h.2 v a whole answer
  | refine τ test message code inner ih =>
    intro v a whole found
    exact ih h.2 v a whole (refine_canAnswer found).1
  | coerce τ c inner ih =>
    intro v a whole found
    exact ih h.2 (c.apply v) a (apply_noAbsentEntries c whole) (coerce_canAnswer found)

/-- The output of a schema of a coercible kind is a fixed point of the coercion. -/
theorem Stable.convert?_answer {s : Schema σ τ} (h : s.Stable) {c : Coercion} :
    Coercion.forKind? s.kind = some c →
      ∀ v a, s.validator.CanAnswer v a → c.convert? (Output.view τ a) = none := by
  induction s using parts_induction with
  | text | number | boolean | date =>
    intro kind v a _
    cases kind
    rfl
  | literal | enumeration | anything | list | tuple | object | record | union | intersection =>
    intro kind
    cases kind
  | custom | transform | tryMap | chain => exact h.self.elim
  | erased τ inner ih =>
    intro kind v a found
    obtain ⟨b, answer, rfl⟩ := map_canAnswer found
    have left := ih h.2 kind v b answer
    cases τ with
    | map => cases c <;> rfl
    | text | number | boolean | date | list | value => exact left
  | nullable inner ih =>
    intro kind v a found
    rcases nullable_canAnswer found with rfl | answer
    · cases c <;> rfl
    · exact ih h.2 kind v a answer
  | optional inner ih =>
    intro kind v a found
    rcases optional_canAnswer found with ⟨_, rfl⟩ | ⟨_, answer⟩
    · cases c <;> rfl
    · exact ih h.2 kind v a answer
  | withDefault τ fallback inner ih =>
    intro kind v a found
    rcases withDefault_canAnswer found with ⟨_, t, rfl⟩ | ⟨_, answer⟩
    · rcases h.1 with absent | unchanged
      · rw [absent t]
        cases c <;> rfl
      · exact ih h.2 kind _ _ ⟨.root, t, (unchanged t).2.2 .root t⟩
    · exact ih h.2 kind v a answer
  | refine τ test message code inner ih =>
    intro kind v a found
    exact ih h.2 kind v a (refine_canAnswer found).1
  | coerce τ c' inner ih =>
    intro kind v a found
    exact ih h.2 kind (c'.apply v) a (coerce_canAnswer found)

/-- No union answers with texts, so there is none in a schema for keys. -/
theorem Stable.unionFree_of_text {s : Schema σ τ} (h : s.Stable) : τ = .text → s.UnionFree := by
  induction s using parts_induction with
  | text => exact fun _ => trivial
  | number | boolean | date | literal | enumeration | anything | list | tuple | object | record
  | union | intersection | erased | nullable | optional =>
    intro text
    cases text
  | custom | transform | tryMap | chain => exact h.self.elim
  | withDefault τ fallback inner ih => exact fun text => ⟨trivial, ih h.2 text⟩
  | refine τ test message code inner ih => exact fun text => ⟨trivial, ih h.2 text⟩
  | coerce τ c inner ih => exact fun text => ⟨trivial, ih h.2 text⟩

/-! ## Validating again -/

theorem Stable.revalidates {exact : Prop} {s : Schema σ τ} (h : s.Stable)
    (unionFree : exact → s.UnionFree) :
    s.validator.Revalidates exact (Output.view τ) := by
  induction s using parts_induction generalizing exact with
  | text rules =>
    exact ofOutcome_revalidates (fun m => textOutcome_like rules) fun _ _ _ => textOutcome_success
  | number rules =>
    exact ofOutcome_revalidates (fun m => numberOutcome_like rules) fun _ _ _ =>
      numberOutcome_success
  | boolean kindMessage =>
    exact ofOutcome_revalidates (fun m => booleanOutcome_like kindMessage) fun _ _ _ =>
      booleanOutcome_success
  | date rules =>
    exact ofOutcome_revalidates (fun m => dateOutcome_like rules) fun _ _ _ => dateOutcome_success
  | literal l =>
    exact ofOutcome_revalidates (fun m => literalOutcome_like l) fun _ _ _ => literalOutcome_success
  | enumeration e =>
    exact ofOutcome_revalidates (fun m => enumerationOutcome_like e) fun _ _ _ =>
      enumerationOutcome_success
  | anything =>
    refine ofOutcome_revalidates (fun m v _ => .success v) fun v _ a same => ?_
    cases same
    rfl
  | custom | transform | tryMap | chain => exact h.self.elim
  | intersection => exact h.self.elim
  | list rules item ih => exact list_revalidates rules (ih h.2 fun e => (unionFree e).2)
  | tuple kindMessage positions ih =>
    rw [validator_tuple]
    refine tuple_revalidates kindMessage fun w member => ?_
    obtain ⟨s, there, rfl⟩ := List.mem_map.mp member
    exact ih s there ((every_tuple_iff.mp h).2 s there) fun e =>
      (every_tuple_iff.mp (unionFree e)).2 s there
  | object shape fields unknown =>
    obtain ⟨distinct, stableFields, stableUnknown⟩ := every_object_iff.mp h
    have freeParts := fun e => (every_object_iff.mp (unionFree e)).2
    rw [validator_object]
    refine object_revalidates ?_ ?_ ?_
    · rw [keys_shapeValidators]
      exact distinct
    · intro f member
      obtain ⟨g, there, rfl⟩ := List.mem_map.mp member
      exact fields g there (stableFields g there) fun e => (freeParts e).1 g there
    · rw [shapeValidators]
      cases kept : shape.unknown with
      | strip | allow | deny => trivial
      | validate s =>
        rw [kept] at unknown stableUnknown freeParts
        exact unknown stableUnknown fun e => (freeParts e).2
  | record kindMessage key value keys values =>
    refine record_revalidates kindMessage ?_ (values h.2.2 fun e => (unionFree e).2.2)
    exact keys h.2.1 fun _ => Stable.unionFree_of_text h.2.1 rfl
  | union message alternatives ih =>
    intro v a whole found
    obtain rfl : exact = False := eq_false fun e => (unionFree e).self
    rw [validator_union] at found ⊢
    obtain ⟨w, member, answer⟩ := union_canAnswer found
    obtain ⟨s, there, rfl⟩ := List.mem_map.mp member
    exact union_returns member
      (ih s there ((every_union_iff.mp h).2 s there) False.elim v a whole answer)
  | erased τ inner ih =>
    intro v a whole found
    obtain ⟨b, answer, rfl⟩ := map_canAnswer found
    have same := Stable.erase_answer h.2 v b whole answer
    have again := ih h.2 (fun e => (unionFree e).2) v b whole answer
    rw [← same] at again
    exact again.map (Output.erase τ)
  | nullable inner ih =>
    intro v a whole found
    refine nullable_returns fun notNull => ?_
    rcases nullable_canAnswer found with null | answer
    · exact absurd null notNull
    · exact ih h.2 (fun e => (unionFree e).2) v a whole answer
  | optional inner ih =>
    intro v a whole found
    refine optional_returns fun there => ?_
    rcases optional_canAnswer found with ⟨_, absent⟩ | ⟨_, answer⟩
    · exact absurd absent there
    · exact ih h.2 (fun e => (unionFree e).2) v a whole answer
  | withDefault τ fallback inner ih =>
    intro v a whole found
    rcases withDefault_canAnswer found with ⟨_, t, rfl⟩ | ⟨given, answer⟩
    · rcases h.1 with absent | unchanged
      · rw [absent t]
        refine withDefault_returns_absent inner.validator fun s => view_injective τ ?_
        rw [absent s, absent t]
      · refine withDefault_returns fallback (unchanged t).1 fun p s => ?_
        exact ⟨_, (unchanged t).2.2 p s, fun _ => rfl⟩
    · have there : Output.view τ a ≠ .absent := fun e =>
        given (Stable.absent_of_answer h.2 v a answer e)
      exact withDefault_returns fallback there (ih h.2 (fun e => (unionFree e).2) v a whole answer)
  | refine τ test message code inner ih =>
    intro v a whole found
    obtain ⟨⟨holds, same⟩, free⟩ := h.1
    obtain ⟨answer, t, passed⟩ := refine_canAnswer found
    refine refine_returns (ih h.2 (fun _ => free) v a whole answer) fun s => ?_
    rw [same, ← same a t]
    exact passed
  | coerce τ c inner ih =>
    intro v a whole found
    have answer := coerce_canAnswer found
    have left := Stable.convert?_answer h.2 h.1 _ a answer
    exact coerce_returns left
      (ih h.2 (fun e => (unionFree e).2) _ a (apply_noAbsentEntries c whole) answer)

/-- The output of a stable schema for a value without absent entries is accepted, wherever it is
validated and from whatever state; without unions the output of that is the same one. -/
theorem validateErased_again (s : Schema σ τ) (stable : s.Stable) (v : Value)
    (whole : v.NoAbsentEntries) (p q : Path) (t u : σ) (w : Value)
    (accepted : (s.validateErased v p t).result = .success w) :
    (∃ w', (s.validateErased w q u).result = .success w') ∧
      (s.UnionFree → (s.validateErased w q u).result = .success w) := by
  have stableErased : s.erased.Stable := ⟨trivial, stable⟩
  have free : s.UnionFree → s.erased.UnionFree := fun e => ⟨trivial, e⟩
  obtain ⟨w', again, same⟩ := stableErased.revalidates free v w whole ⟨p, t, accepted⟩ q u
  refine ⟨⟨w', again⟩, fun e => ?_⟩
  exact again.trans (congrArg Outcome.success (same e))

/-- A coerced field, one that may be left out, one with a requirement and one with a fallback;
tuples under other keys. -/
def server : Schema Unit .map :=
  .object ⟨[("port", .erased asText), ("nick", .optional (.erased (.text .empty))),
      ("name", .erased (.refine (fun (s : String) => pure (s != "")) "empty" refinementCode
        (.text .empty))),
      ("flags", .erased (.withDefault (pure [("a", .bool true)])
        (.record none (.text .empty) (.erased (.boolean none)))))],
    .validate (.nullable (.erased (.tuple none [.optional .anything]))), none⟩

def serverOutput : Value :=
  .object [("port", .text "true"), ("name", .text "x"), ("flags", .object [("a", .bool true)]),
    ("extra", .list [.absent])]

theorem server_validateErased_again :
    server.Stable ∧ server.UnionFree ∧
      (server.validateErased serverOutput .root ()).result = .success serverOutput := by
  have fallback :
      (record none (.text .empty) (.erased (.boolean none)) : Schema Unit .map).Unchanged
        [("a", .bool true)] := by
    refine ⟨nofun, ?_, fun _ _ => rfl⟩
    simp [Output.view, Value.NoAbsentEntries, Value.EveryObject, Value.EveryEntry]
  have stable : server.Stable := by
    refine every_object_iff.mpr ⟨by simp [StableStep, Entries.keys], ?_, ?_⟩
    · simp only [List.forall_mem_cons, List.not_mem_nil, false_implies, implies_true, and_true]
      refine ⟨⟨trivial, rfl, trivial⟩, ⟨trivial, trivial, trivial⟩, ?_, ?_⟩
      · exact ⟨trivial, ⟨⟨fun (s : String) => s != "", fun _ _ => rfl⟩, trivial⟩, trivial⟩
      · exact ⟨trivial, .inr fun _ => fallback, trivial, trivial, trivial, trivial⟩
    · simp [UnknownKeys.Holds, Every, EveryAmong, StableStep]
  have free : server.UnionFree := by
    simp [UnionFree, server, Every, EveryField, EveryAmong, EveryUnknown, asText]
  have whole : (Value.object [("extra", .list []), ("name", .text "x"),
      ("port", .bool true)]).NoAbsentEntries := by
    simp [Value.NoAbsentEntries, Value.EveryObject, Value.EveryEntry, Value.EveryItem]
  refine ⟨stable, free, ?_⟩
  exact (validateErased_again server stable _ whole .root .root () () serverOutput rfl).2 free

end Schema

end Conform
