import Conform.Proofs.Schema.Intersections
import Conform.Proofs.Schema.Steadiness
import Conform.Proofs.Value.Reordering
import Conform.Schema.Build
import Conform.Schema.Shape

/-!
# Extending a shape and intersecting with it

An intersection of two objects that have no field in common runs like one object with the fields of
the first and then those of the second.  Extending a shape comes to the same fields as leaving out
what the extension declares and adding the extension, but a field that is declared anew keeps its
place.  So an extension and an intersection differ in the order of the fields at most, and where the
fields keep no state this shows in the order of keys and issues alone.
-/

set_option autoImplicit false

namespace Conform.Schema

open Outcome Validator

variable {σ : Type}

/-! ## Two objects without a common field -/

theorem strip_run (fields : List (String × Schema σ .value)) (kindMessage : Option String)
    (entries : Entries Value) (p : Path) :
    (object ⟨fields, .strip, kindMessage⟩).validate (.object entries) p = do
      return collected
        (← Run.sequence ((declaredParts fields (.object entries)).map (Part.entry p))) := by
  rw [object_run]
  simp only [otherRuns, Run.sequence, pure_bind, assembled_nil]

/-- Fields that all accept answer under the declared names. -/
theorem keys_fieldAnswers {fields : List (String × Schema σ .value)} {entries : Entries Value}
    {p : Path} {s : σ} (none : allIssues (fieldAnswers fields entries p s) = []) :
    Entries.keys (outputs (fieldAnswers fields entries p s)) = Entries.keys fields := by
  have accepted := (accepted_iff p (declaredParts fields (.object entries)) s _ _).mpr
    ⟨eq_map_success none, rfl⟩
  exact accepted.keys.trans (declaredParts_keys fields _)

/-- Maps without a common key come one after the other. -/
theorem mergeAll_pair {α : Type} {m other : Entries α} (distinct : m.keys.Nodup)
    (distinct' : other.keys.Nodup) (apart : ∀ key ∈ other.keys, key ∉ m.keys) :
    mergeAll [m, other] = m ++ other := by
  have own : Entries.merge [] m = m := Entries.merge_eq_append distinct fun _ _ => List.not_mem_nil
  rw [mergeAll, List.foldl_cons, List.foldl_cons, List.foldl_nil, own,
    Entries.merge_eq_append distinct' apart]

theorem mergeAnswers_collected {first second : List (Outcome (String × Value))}
    (accepted : allIssues first = [] → allIssues second = [] →
      (Entries.keys (outputs first)).Nodup ∧ (Entries.keys (outputs second)).Nodup ∧
        ∀ key ∈ Entries.keys (outputs second), key ∉ Entries.keys (outputs first)) :
    mergeAnswers [collected first, collected second] = collected (first ++ second) := by
  have issues : allIssues [collected first, collected second] = allIssues (first ++ second) := by
    rw [allIssues_append, allIssues_cons, allIssues_cons, collected_issues, collected_issues]
    exact congrArg _ (List.append_nil _)
  by_cases none : allIssues (first ++ second) = []
  · -- Both accept, and their maps have no key in common.
    rw [allIssues_append, List.append_eq_nil_iff] at none
    obtain ⟨distinct, distinct', apart⟩ := accepted none.1 none.2
    have inFirst := Value.keys_present_sublist (outputs first)
    have inSecond := Value.keys_present_sublist (outputs second)
    have merged := mergeAll_pair (distinct.sublist inFirst) (distinct'.sublist inSecond)
      fun key there before => apart key (inSecond.subset there) (inFirst.subset before)
    have own : collected first = .success (Value.present (outputs first)) := by
      rw [collected, none.1, settle_nil]
    have other : collected second = .success (Value.present (outputs second)) := by
      rw [collected, none.2, settle_nil]
    have whole : collected (first ++ second) =
        .success (Value.present (outputs first) ++ Value.present (outputs second)) := by
      rw [collected, allIssues_append, none.1, none.2, List.append_nil, settle_nil, outputs_append,
        Value.present_append]
    rw [own, other, whole, ← merged]
    exact mergeAnswers_success [_, _]
  · rw [mergeAnswers, issues, collected]
    exact settle_of_issues _ _ none

/-- Where the fields have no name in common, an intersection runs like one object with all of
them. -/
theorem intersection_run_of_apart {fields others : List (String × Schema σ .value)}
    (distinct : (Entries.keys fields).Nodup) (distinct' : (Entries.keys others).Nodup)
    (apart : ∀ name ∈ Entries.keys others, name ∉ Entries.keys fields)
    (kindMessage message message' message'' : Option String) (entries : Entries Value) (p : Path) :
    (intersection kindMessage [object ⟨fields, .strip, message⟩,
        object ⟨others, .strip, message'⟩]).validate (.object entries) p =
      (object ⟨fields ++ others, .strip, message''⟩).validate (.object entries) p := by
  have parts : declaredParts (fields ++ others) (.object entries) =
      declaredParts fields (.object entries) ++ declaredParts others (.object entries) :=
    List.map_append
  rw [intersection_run, strip_run, parts, List.map_append, Run.sequence_append]
  simp only [List.map_cons, List.map_nil, Run.sequence, strip_run, bind_assoc, pure_bind]
  funext s
  simp only [Run.bind_apply, Run.pure_apply]
  congr 1
  refine mergeAnswers_collected fun none none' => ?_
  have own := keys_fieldAnswers none
  have other := keys_fieldAnswers none'
  exact ⟨own ▸ distinct, other ▸ distinct', fun key => own ▸ other ▸ apart key⟩

theorem keys_of_strip {fields : List (String × Schema σ .value)} {kindMessage : Option String}
    {entries out : Entries Value} {p : Path} {s : σ}
    (accepted : ((object ⟨fields, .strip, kindMessage⟩).validate (.object entries) p s).result =
      .success out) : (Entries.keys out).Sublist (Entries.keys fields) := by
  rw [strip_result, assembled_nil] at accepted
  obtain ⟨none, rfl⟩ := settle_eq_success accepted
  rw [← keys_fieldAnswers none]
  exact Value.keys_present_sublist _

/-! ## Fields in another order -/

theorem success_iff_of_issues_perm {α : Type} {o o' : Outcome α} (same : o.issues.Perm o'.issues) :
    (∃ a, o = .success a) ↔ ∃ a, o' = .success a := by
  rw [← issues_eq_nil_iff, ← issues_eq_nil_iff]
  constructor
  · intro none
    exact List.nil_perm.mp (none ▸ same)
  · intro none
    exact List.perm_nil.mp (none ▸ same)

theorem collected_issues_perm {answers answers' : List (Outcome (String × Value))}
    (order : answers.Perm answers') :
    (collected answers).issues.Perm (collected answers').issues := by
  rw [collected_issues, collected_issues]
  exact order.flatMap_right _

theorem collected_output_perm {answers answers' : List (Outcome (String × Value))}
    (order : answers.Perm answers') {out out' : Entries Value}
    (accepted : collected answers = .success out) (accepted' : collected answers' = .success out') :
    out.Perm out' := by
  obtain ⟨_, rfl⟩ := settle_eq_success accepted
  obtain ⟨_, rfl⟩ := settle_eq_success accepted'
  exact (order.filterMap _).filter _

/-! ## Extensions -/

/-- Leaving out what the extension declares leaves no name in common with it. -/
theorem intersection_run_of_without {fields others : List (String × Schema σ .value)}
    (distinct : (Entries.keys fields).Nodup) (distinct' : (Entries.keys others).Nodup)
    (kindMessage message message' message'' : Option String) (entries : Entries Value) (p : Path) :
    (intersection kindMessage
        [object ⟨Entries.without fields (Entries.keys others), .strip, message⟩,
          object ⟨others, .strip, message'⟩]).validate (.object entries) p =
      (object ⟨Entries.without fields (Entries.keys others) ++ others, .strip,
        message''⟩).validate (.object entries) p := by
  refine intersection_run_of_apart (distinct.sublist (List.filter_sublist.map _)) distinct' ?_
    kindMessage message message' message'' entries p
  intro name declared kept
  obtain ⟨f, there, rfl⟩ := List.mem_map.mp kept
  have outside := (List.mem_filter.mp there).2
  simp [declared] at outside

/-- Where two shapes declare no name in common, extending one by the other runs like an
intersection: they come to the same outcome, key by key and issue by issue, and to the same state
and events.  Where the extension declares names anew, the two accept the same objects with the same
maps, and otherwise report the same issues in some order, as long as no field answers by what ran
before it. -/
theorem extend_agrees_with_intersection (shape other : Shape (Schema σ .value))
    (strip : shape.unknown = .strip) (strip' : other.unknown = .strip)
    (distinct : shape.names.Nodup) (distinct' : other.names.Nodup) (message : Option String)
    (entries : Entries Value) (p : Path) :
    ((∀ name ∈ other.names, name ∉ shape.names) →
      (object (shape.extend other)).validate (.object entries) p =
        (intersection message [object (shape.without other.names), object other]).validate
          (.object entries) p) ∧
    ((∀ f ∈ (shape.extend other).fields,
        (f.2.validate (Value.get (.object entries) f.1) (p.field f.1)).Steady) →
      ∀ (s t : σ) (extended merged : Outcome (Entries Value)),
        ((object (shape.extend other)).validate (.object entries) p s).result = extended →
        ((intersection message [object (shape.without other.names), object other]).validate
          (.object entries) p t).result = merged →
        ((∃ out, extended = .success out) ↔ ∃ out, merged = .success out) ∧
        (∀ out out', extended = .success out → merged = .success out' →
          out.Perm out' ∧ ∀ key, Entries.get? out key = Entries.get? out' key) ∧
        extended.issues.Perm merged.issues) := by
  obtain ⟨fields, unknown, kindMessage⟩ := shape
  obtain ⟨others, unknown', kindMessage'⟩ := other
  dsimp only at strip strip'
  subst strip strip'
  let kept := Entries.without fields (Entries.keys others)
  have asObject := intersection_run_of_without distinct distinct' message kindMessage kindMessage'
    kindMessage entries p
  constructor
  · intro disjoint
    -- Nothing is left out, and nothing takes an earlier place.
    have all : kept = fields :=
      Entries.without_eq_self fun key declared again => disjoint key again declared
    have inOrder : Entries.merge fields others = kept ++ others := by
      rw [all, Entries.merge_eq_append distinct' disjoint]
    refine Eq.trans ?_ asObject.symm
    rw [← inOrder]
    rfl
  · intro steady s t extended merged ofExtension ofIntersection
    -- Both are one object with the same fields in two orders.
    have order : (Entries.merge fields others).Perm (kept ++ others) :=
      Entries.merge_perm distinct distinct'
    have answers := order.map (fieldAnswer (.object entries) p s)
    have extendedAs : extended = collected ((Entries.merge fields others).map
        (fieldAnswer (.object entries) p s)) :=
      ofExtension.symm.trans (strip_result_of_steady steady kindMessage s s)
    have mergedAs :
        merged = collected ((kept ++ others).map (fieldAnswer (.object entries) p s)) := by
      rw [← ofIntersection]
      refine (congrArg (fun run => (run t).result) asObject).trans ?_
      exact strip_result_of_steady (fun f declared => steady f (order.mem_iff.mpr declared))
        kindMessage t s
    have issues : extended.issues.Perm merged.issues := by
      rw [extendedAs, mergedAs]
      exact collected_issues_perm answers
    refine ⟨success_iff_of_issues_perm issues, fun out out' accepted accepted' => ?_, issues⟩
    have outputs := collected_output_perm answers (extendedAs.symm.trans accepted)
      (mergedAs.symm.trans accepted')
    have keys : (Entries.keys out).Nodup :=
      (Entries.nodup_keys_merge others distinct).sublist
        (keys_of_strip (ofExtension.trans accepted))
    exact ⟨outputs, Entries.get?_eq_of_perm keys outputs⟩

/-- A port, and a host that is the own one unless another is named. -/
def gateway : Shape (Schema Unit .value) :=
  ⟨[("port", .erased (.number .empty)),
    ("host", .erased (.withDefault (pure "local") (.text .empty)))],
    .strip, none⟩

/-- A user, and a port that is a text. -/
def login : Shape (Schema Unit .value) :=
  ⟨[("user", .erased (.text .empty)), ("port", .erased (.text .empty))], .strip, none⟩

def account : Shape (Schema Unit .value) := ⟨[("user", .erased (.text .empty))], .strip, none⟩

def request : Entries Value := [("user", .text "ann"), ("port", .text "ssh")]

def session : Entries Value :=
  [("port", .text "ssh"), ("host", .text "local"), ("user", .text "ann")]

theorem gateway_extend_agrees_with_intersection :
    ((object (gateway.extend login)).validate (.object request) .root ()).result =
      .success session ∧
      (∃ out, ((intersection none [object (gateway.without login.names), object login]).validate
          (.object request) .root ()).result = .success out ∧ session.Perm out ∧
        Entries.get? out "port" = some (.text "ssh")) ∧
      (object (gateway.extend account)).validate (.object request) .root =
        (intersection none [object (gateway.without account.names), object account]).validate
          (.object request) .root := by
  obtain ⟨_, anew⟩ := extend_agrees_with_intersection gateway login rfl rfl (by decide) (by decide)
    none request .root
  obtain ⟨disjoint, _⟩ := extend_agrees_with_intersection gateway account rfl rfl (by decide)
    (by decide) none request .root
  have stateFree : ∀ f ∈ (gateway.extend login).fields, f.2.StateFree := by
    intro f declared
    rcases Entries.mem_of_mem_merge declared with own | added
    · simp only [gateway, List.mem_cons, List.not_mem_nil, or_false] at own
      rcases own with rfl | rfl
      · exact ⟨trivial, trivial⟩
      · exact ⟨trivial, ⟨_, fun _ => rfl⟩, trivial⟩
    · simp only [login, List.mem_cons, List.not_mem_nil, or_false] at added
      rcases added with rfl | rfl
      · exact ⟨trivial, trivial⟩
      · exact ⟨trivial, trivial⟩
  have extended : ((object (gateway.extend login)).validate (.object request) .root ()).result =
    .success session := rfl
  obtain ⟨accepts, outputs, _⟩ :=
    anew (fun f declared => (stateFree f declared).steady _ _) () () _ _
    extended rfl
  obtain ⟨out, accepted⟩ := accepts.mp ⟨session, rfl⟩
  obtain ⟨order, values⟩ := outputs session out rfl accepted
  exact ⟨extended, ⟨out, accepted, order, (values "port").symm⟩, disjoint (by decide)⟩

/-- The first one who asks gets a ticket that says so. -/
def ticket : Schema Nat .text :=
  .withDefault (modifyGet fun n => (if n = 0 then "first" else "later", n + 1)) (.text .empty)

/-- Two tickets, and the second one has to be the first. -/
def tickets : Shape (Schema Nat .value) :=
  ⟨[("x", .erased ticket),
    ("y", .erased (.refine (fun (s : String) => pure (s == "first")) "not the first" refinementCode
      ticket))], .strip, none⟩

def anotherTicket : Shape (Schema Nat .value) := ⟨[("x", .erased ticket)], .strip, none⟩

/-- Fields that share a state can tell in which order they run. -/
theorem extend_differs_from_intersection :
    (∃ e, ((object (tickets.extend anotherTicket)).validate (.object []) .root 0).result = .fail e ∧
      e.path = ⟨[.field "y"]⟩ ∧ e.message = "not the first") ∧
    ((intersection none [object (tickets.without anotherTicket.names),
        object anotherTicket]).validate (.object []) .root 0).result =
      .success [("y", .text "first"), ("x", .text "later")] :=
  ⟨⟨_, rfl, rfl, rfl⟩, rfl⟩

end Conform.Schema
