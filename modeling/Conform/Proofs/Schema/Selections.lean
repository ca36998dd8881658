import Conform.Proofs.Schema.PathTranslation
import Conform.Proofs.Schema.Steadiness
import Conform.Schema.Shape

/-!
# Picking fields and leaving them out

Every issue of an object whose other keys are stripped comes from one of its fields, and its path
leads into that field, however deep the issue is.  So picking some of the fields and leaving them
out divides the issues, and the output, between the two shapes.
-/

set_option autoImplicit false

namespace Conform

/-- Seen from the first path, the other one leads into a field with one of the names. -/
def Path.LeadsInto (p : Path) (names : List String) (q : Path) : Prop :=
  ∃ name ∈ names, (p.field name).segments <+: q.segments

instance (p : Path) (names : List String) (q : Path) : Decidable (p.LeadsInto names q) :=
  inferInstanceAs (Decidable (∃ name ∈ names, (p.field name).segments <+: q.segments))

theorem Path.leadsInto_below (p r : Path) (name : String) (names : List String) :
    p.LeadsInto names (p.field name ++ r) ↔ name ∈ names := by
  constructor
  · rintro ⟨other, member, leads⟩
    rw [segments_append, field, field, push, push, List.append_assoc,
      List.prefix_append_right_inj] at leads
    obtain ⟨same, _⟩ := List.cons_prefix_cons.mp leads
    rwa [← Segment.field.inj same]
  · intro member
    exact ⟨name, member, List.prefix_append _ _⟩

namespace Schema

open Outcome Validator

variable {σ : Type}

/-! ## Answers of some of the fields -/

section Selected

variable {α β : Type} (keep : String → Bool) {answer : String × β → Outcome (String × α)}
  {fields : List (String × β)}

theorem allIssues_selected {kept : Issue → Bool}
    (own : ∀ f ∈ fields, ∀ e ∈ (answer f).issues, kept e = keep f.1) :
    allIssues ((fields.filter fun f => keep f.1).map answer) =
      (allIssues (fields.map answer)).filter kept := by
  induction fields with
  | nil => rfl
  | cons f rest ih =>
    obtain ⟨first, others⟩ := List.forall_mem_cons.mp own
    rw [List.map_cons, allIssues_cons, List.filter_append, ← ih others]
    by_cases selected : keep f.1 = true
    · have all : (answer f).issues.filter kept = (answer f).issues :=
        List.filter_eq_self.mpr fun e member => (first e member).trans selected
      rw [List.filter_cons, if_pos selected, List.map_cons, allIssues_cons, all]
    · have none : (answer f).issues.filter kept = [] := by
        refine List.filter_eq_nil_iff.mpr fun e member => ?_
        rw [first e member]
        exact selected
      rw [List.filter_cons, if_neg selected, none, List.nil_append]

theorem outputs_selected (own : ∀ f ∈ fields, ∀ e, answer f = .success e → e.1 = f.1) :
    outputs ((fields.filter fun f => keep f.1).map answer) =
      (outputs (fields.map answer)).filter fun e => keep e.1 := by
  induction fields with
  | nil => rfl
  | cons f rest ih =>
    obtain ⟨first, others⟩ := List.forall_mem_cons.mp own
    have later := ih others
    rw [List.map_cons]
    by_cases selected : keep f.1 = true
    · rw [List.filter_cons, if_pos selected, List.map_cons]
      cases answered : answer f with
      | failure es => rw [outputs_failure_cons, outputs_failure_cons, later]
      | success e =>
        have key : keep e.1 = true := by rwa [first e answered]
        rw [outputs_success_cons, outputs_success_cons, List.filter_cons, if_pos key, later]
    · rw [List.filter_cons, if_neg selected, later]
      cases answered : answer f with
      | failure es => rw [outputs_failure_cons]
      | success e =>
        have key : ¬ keep e.1 = true := by rwa [first e answered]
        rw [outputs_success_cons, List.filter_cons, if_neg key]

end Selected

/-! ## Objects with some of the fields -/

variable {fields : List (String × Schema σ .value)} {entries : Entries Value} {p : Path}
  (kindMessage : Option String)

theorem strip_result_of_stateFree (stateFree : ∀ f ∈ fields, f.2.StateFree) (s t : σ) :
    ((object ⟨fields, .strip, kindMessage⟩).validate (.object entries) p s).result =
      collected (fields.map (fieldAnswer (.object entries) p t)) :=
  strip_result_of_steady (fun f declared => (stateFree f declared).steady _ _) kindMessage s t

/-- However deep an issue is, it is below a field. -/
theorem below_of_fieldAnswer {f : String × Schema σ .value} (stateFree : f.2.StateFree) {v : Value}
    {s : σ} {e : Issue} (member : e ∈ (fieldAnswer v p s f).issues) :
    ∃ r, e.path = p.field f.1 ++ r := by
  rw [fieldAnswer, underKey, issues_map] at member
  exact stateFree.builtIn.issue_extends e member

theorem strip_issue_leadsInto (stateFree : ∀ f ∈ fields, f.2.StateFree) (s : σ) :
    ∀ e ∈ ((object ⟨fields, .strip, kindMessage⟩).validate (.object entries) p s).result.issues,
      p.LeadsInto (Entries.keys fields) e.path := by
  intro e member
  rw [strip_result_of_stateFree kindMessage stateFree s s, collected_issues] at member
  obtain ⟨answer, answered, own⟩ := List.mem_flatMap.mp member
  obtain ⟨f, declared, rfl⟩ := List.mem_map.mp answered
  obtain ⟨r, place⟩ := below_of_fieldAnswer (stateFree f declared) own
  rw [place]
  exact (p.leadsInto_below r f.1 _).mpr (List.mem_map_of_mem declared)

variable (keep : String → Bool)

theorem selected_issues (stateFree : ∀ f ∈ fields, f.2.StateFree) {kept : Issue → Bool}
    (below : ∀ (name : String) (r : Path) (e : Issue), e.path = p.field name ++ r →
      kept e = keep name) (s t : σ) :
    ((object ⟨fields.filter fun f => keep f.1, .strip, kindMessage⟩).validate
        (.object entries) p t).result.issues =
      ((object ⟨fields, .strip, kindMessage⟩).validate (.object entries) p s).result.issues.filter
        kept := by
  have chosenFree : ∀ f ∈ fields.filter fun f => keep f.1, f.2.StateFree :=
    fun f chosen => stateFree f (List.mem_of_mem_filter chosen)
  rw [strip_result_of_stateFree kindMessage stateFree s s,
    strip_result_of_stateFree kindMessage chosenFree t s, collected_issues, collected_issues]
  refine allIssues_selected keep fun f declared e member => ?_
  obtain ⟨r, place⟩ := below_of_fieldAnswer (stateFree f declared) member
  exact below f.1 r e place

theorem selected_output (stateFree : ∀ f ∈ fields, f.2.StateFree) {s : σ} {out : Entries Value}
    (accepted : ((object ⟨fields, .strip, kindMessage⟩).validate (.object entries) p s).result =
      .success out) (t : σ) :
    ((object ⟨fields.filter fun f => keep f.1, .strip, kindMessage⟩).validate
        (.object entries) p t).result = .success (out.filter fun e => keep e.1) := by
  have chosenFree : ∀ f ∈ fields.filter fun f => keep f.1, f.2.StateFree :=
    fun f chosen => stateFree f (List.mem_of_mem_filter chosen)
  rw [strip_result_of_stateFree kindMessage stateFree s s] at accepted
  obtain ⟨none, rfl⟩ := settle_eq_success accepted
  have noneChosen : allIssues ((fields.filter fun f => keep f.1).map
      (fieldAnswer (.object entries) p s)) = [] := by
    rw [allIssues, List.flatMap_map, List.flatMap_eq_nil_iff] at none ⊢
    exact fun f chosen => none f (List.mem_of_mem_filter chosen)
  rw [strip_result_of_stateFree kindMessage chosenFree t s, collected, noneChosen, settle_nil,
    outputs_selected keep fun f _ e => key_of_fieldAnswer, Value.present, Value.present,
    List.filter_comm]

/-- Of an object with the fields of the given names and one with the others, each has the issues of
the whole that lead into a field of its own, in their order, and every issue of the whole leads into
some field.  The whole succeeds when both do, and each answers with its part of the output. -/
theorem pick_and_without_split (shape : Shape (Schema σ .value)) (strip : shape.unknown = .strip)
    (stateFree : ∀ f ∈ shape.fields, f.2.StateFree) (names : List String) (entries : Entries Value)
    (p : Path) (s t u : σ) (whole picked rest : Outcome (Entries Value))
    (ofWhole : ((object shape).validate (.object entries) p s).result = whole)
    (ofPicked : ((object (shape.pick names)).validate (.object entries) p t).result = picked)
    (ofRest : ((object (shape.without names)).validate (.object entries) p u).result = rest) :
    picked.issues = whole.issues.filter (fun e => p.LeadsInto names e.path) ∧
    rest.issues = whole.issues.filter (fun e => ¬ p.LeadsInto names e.path) ∧
    (∀ e ∈ whole.issues, p.LeadsInto shape.names e.path) ∧
    ((∃ out, whole = .success out) ↔
      (∃ out, picked = .success out) ∧ ∃ out, rest = .success out) ∧
    ∀ out, whole = .success out →
      picked = .success (Entries.restrict out names) ∧
        rest = .success (Entries.without out names) := by
  obtain ⟨fields, unknown, kindMessage⟩ := shape
  dsimp only at strip stateFree
  subst strip
  have inNames : ∀ (name : String) (r : Path) (e : Issue), e.path = p.field name ++ r →
      decide (p.LeadsInto names e.path) = names.contains name := by
    intro name r e place
    rw [place, List.contains_eq_mem, decide_eq_decide]
    exact p.leadsInto_below r name names
  have outOfNames : ∀ (name : String) (r : Path) (e : Issue), e.path = p.field name ++ r →
      decide (¬ p.LeadsInto names e.path) = !names.contains name := by
    intro name r e place
    rw [decide_not, inNames name r e place]
  have pickedIssues : picked.issues = whole.issues.filter (fun e => p.LeadsInto names e.path) := by
    rw [← ofWhole, ← ofPicked]
    exact selected_issues kindMessage names.contains stateFree inNames s t
  have restIssues : rest.issues = whole.issues.filter (fun e => ¬ p.LeadsInto names e.path) := by
    rw [← ofWhole, ← ofRest]
    exact selected_issues kindMessage (!names.contains ·) stateFree outOfNames s u
  have outputs : ∀ out, whole = .success out →
      picked = .success (Entries.restrict out names) ∧
        rest = .success (Entries.without out names) := by
    rintro out accepted
    rw [← ofWhole] at accepted
    rw [← ofPicked, ← ofRest]
    exact ⟨selected_output kindMessage names.contains stateFree accepted t,
      selected_output kindMessage (!names.contains ·) stateFree accepted u⟩
  refine ⟨pickedIssues, restIssues, ?_, ⟨?_, ?_⟩, outputs⟩
  · rw [← ofWhole]
    exact strip_issue_leadsInto kindMessage stateFree s
  · rintro ⟨out, accepted⟩
    obtain ⟨inPicked, inRest⟩ := outputs out accepted
    exact ⟨⟨_, inPicked⟩, _, inRest⟩
  · rintro ⟨inPicked, inRest⟩
    rw [← issues_eq_nil_iff] at inPicked inRest ⊢
    rw [pickedIssues, List.filter_eq_nil_iff] at inPicked
    rw [restIssues, List.filter_eq_nil_iff] at inRest
    -- An issue of the whole would be one of the two parts.
    refine List.eq_nil_iff_forall_not_mem.mpr fun e member => ?_
    by_cases leads : p.LeadsInto names e.path
    · exact inPicked e member (decide_eq_true leads)
    · exact inRest e member (decide_eq_true leads)

/-- A booking with a name, a note that is not blank, and somebody who pays. -/
def booking : Shape (Schema Unit .value) :=
  ⟨[("name", .erased (.text (Rules.empty.require (.minLength 1)))),
    ("note", .erased (@tryMap Unit .text .text (fun s =>
      pure (if s = "" then .fail (.plain (Path.root.field "text") "empty") else .success s))
      (.text .empty))),
    ("payer", .union none [.erased (.number .empty), .erased (.text .empty)])], .strip, none⟩

def draft : Entries Value := [("payer", .null), ("note", .text ""), ("name", .text "")]

def booked : Entries Value :=
  [("payer", .number .zero), ("note", .text "late"), ("name", .text "Ann")]

theorem booking_pick_and_without_split :
    (∀ f ∈ booking.fields, f.2.StateFree) ∧
      ((object (booking.pick ["note", "seat"])).validate (.object draft) ⟨[.field "up"]⟩
        ()).result.issues.map Issue.path = [⟨[.field "up", .field "note", .field "text"]⟩] ∧
      ((object (booking.without ["note", "seat"])).validate (.object draft) ⟨[.field "up"]⟩
        ()).result.issues.map Issue.path =
          [⟨[.field "up", .field "name"]⟩, ⟨[.field "up", .field "payer"]⟩,
            ⟨[.field "up", .field "payer"]⟩] ∧
      ((object (booking.without ["note", "seat"])).validate (.object booked) .root ()).result =
        .success [("name", .text "Ann"), ("payer", .number .zero)] := by
  have stateFree : ∀ f ∈ booking.fields, f.2.StateFree := by
    simp only [booking, List.forall_mem_cons, List.not_mem_nil, false_implies, implies_true,
      and_true]
    refine ⟨⟨trivial, trivial⟩, ⟨trivial, ?_, trivial⟩, trivial, ?_⟩
    · exact ⟨_, fun _ _ => rfl⟩
    · exact ⟨⟨trivial, trivial⟩, ⟨trivial, trivial⟩, trivial⟩
  obtain ⟨picked, rest, _⟩ := pick_and_without_split booking rfl stateFree ["note", "seat"] draft
    ⟨[.field "up"]⟩ () () () _ _ _ rfl rfl rfl
  obtain ⟨_, _, _, _, outputs⟩ :=
    pick_and_without_split booking rfl stateFree ["note", "seat"] booked
    .root () () () _ _ _ rfl rfl rfl
  refine ⟨stateFree, ?_, ?_, (outputs _ rfl).2⟩
  · rw [picked]
    rfl
  · rw [rest]
    rfl

end Schema

end Conform
