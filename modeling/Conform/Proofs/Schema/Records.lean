import Conform.Proofs.Validator.Success
import Conform.Schema.Build
import Conform.Schema.Parse

/-!
# Records, entry by entry

What a record makes of an object is told by what its two schemas answer for each entry.  When they
accept every entry, and no two with one key, the output has the entries as they were answered, none
lost and none twice.  Otherwise the issues are, in the order of the input, those of the entries that
are rejected and a duplicate for each accepted one whose key an accepted one before it has.

An entry whose value is rejected has no part in this: two entries with one key, of which only one
has a value that is accepted, fail without a duplicate.
-/

set_option autoImplicit false

namespace Conform

namespace Validator

variable {α : Type}

theorem answers_accepted {es : List (RecordEntry α)} (h : ∀ e ∈ es, ∃ out, e.Answers out) :
    List.Forall₂ RecordEntry.Answers es (accepted es) := by
  induction es with
  | nil => exact .nil
  | cons e rest ih =>
    obtain ⟨⟨out, first⟩, others⟩ := List.forall_mem_cons.mp h
    rw [accepted_cons_of_some rest (accepted?_eq_some_iff.mpr first)]
    exact .cons first (ih others)

theorem answers_of_settled {es : List (RecordEntry α)} {out : Entries α}
    (settled : Outcome.settle (assemble [] es).1 (assemble [] es).2 = .success out) :
    List.Forall₂ RecordEntry.Answers es out ∧ out = accepted es := by
  obtain ⟨none, rfl⟩ := Outcome.settle_eq_success settled
  obtain ⟨assembled, answers⟩ := assemble_of_no_issues none
  rw [List.nil_append] at assembled
  rw [assembled]
  exact ⟨answers.imp fun _ _ => accepted?_eq_some_iff.mp, rfl⟩

/-- The keys of the output are those answered for the entries, position by position. -/
theorem keys_of_answers {es : List (RecordEntry α)} {out : Entries α}
    (h : List.Forall₂ RecordEntry.Answers es out) {i : Nat} {e : RecordEntry α} {key : String}
    (there : es[i]? = some e) (ofKey : e.key = .success key) :
    (Entries.keys out)[i]? = some key := by
  induction h generalizing i with
  | nil => cases there
  | cons first _ ih =>
    cases i with
    | zero =>
      cases there
      rw [first.1] at ofKey
      cases ofKey
      rfl
    | succ i => exact ih there

/-- A record succeeds when all its entries are accepted, with keys that differ. -/
theorem settled_iff (es : List (RecordEntry α)) :
    (∃ out, Outcome.settle (assemble [] es).1 (assemble [] es).2 = .success out) ↔
      (∀ e ∈ es, ∃ out, e.Answers out) ∧ (Entries.keys (accepted es)).Nodup := by
  constructor
  · rintro ⟨out, settled⟩
    obtain ⟨answers, rfl⟩ := answers_of_settled settled
    obtain ⟨_, assembled⟩ := Outcome.settle_eq_success settled
    refine ⟨fun e member => ?_, ?_⟩
    · obtain ⟨o, _, answer⟩ := exists_of_mem_right answers.flip member
      exact ⟨o, answer⟩
    · rw [← assembled]
      exact nodup_keys_assemble es List.nodup_nil
  · rintro ⟨answered, distinct⟩
    have assembled : assemble [] es = ([] ++ accepted es, []) :=
      assemble_of_answers (answers_accepted answered) distinct
    rw [assembled]
    exact ⟨_, Outcome.settle_nil _⟩

end Validator

namespace Schema

open Validator

variable {σ : Type}

/-- What the schemas for keys and values answer for the entries of an object, one entry after
another, each at the key that the input has. -/
def entryAnswers (key : Schema σ .text) (value : Schema σ .value) (p : Path) :
    Entries Value → σ → List (RecordEntry Value)
  | [], _ => []
  | (name, v) :: rest, s =>
    let ofKey := key.validate (.text name) (p.field name) s
    let ofValue := value.validate v (p.field name) ofKey.state
    ⟨p.field name, ofKey.result, ofValue.result⟩ :: entryAnswers key value p rest ofValue.state

variable (kindMessage : Option String) (key : Schema σ .text) (value : Schema σ .value)
  (entries : Entries Value) (p : Path) (s : σ)

theorem entryAnswers_path :
    (entryAnswers key value p entries s).map RecordEntry.path =
      entries.map fun e => p.field e.1 := by
  induction entries generalizing s with
  | nil => rfl
  | cons e rest ih => exact congrArg (p.field e.1 :: ·) (ih _)

theorem sequence_recordEntry :
    (Run.sequence (entries.map (recordEntry key.validator value.validator p)) s).result =
      entryAnswers key value p entries s := by
  induction entries generalizing s with
  | nil => rfl
  | cons e rest ih =>
    rw [List.map_cons, Run.sequence, Run.bind_apply, Run.bind_apply]
    exact congrArg (_ :: ·) (ih _)

theorem record_result :
    ((record kindMessage key value).validate (.object entries) p s).result =
      .settle (assemble [] (entryAnswers key value p entries s)).1
        (assemble [] (entryAnswers key value p entries s)).2 := by
  rw [← sequence_recordEntry]
  rfl

theorem record_issues :
    ((record kindMessage key value).validate (.object entries) p s).result.issues =
      (entryAnswers key value p entries s).zipIdx.flatMap fun x =>
        contribution ((entryAnswers key value p entries s).take x.2) x.1 := by
  rw [record_result, Outcome.issues_settle, assemble_issues]

/-- A record succeeds when every key and every value is accepted and no two entries have one key,
and then its output has what was answered for each entry, in their order.  Its issues are what the
entries add to those before them: the issues of the key and of the value, or a duplicate where an
accepted entry has the key of an accepted one before it. -/
theorem record_keeps_entries {answers : List (RecordEntry Value)} {o : Outcome (Entries Value)}
    (answered : entryAnswers key value p entries s = answers)
    (ran : ((record kindMessage key value).validate (.object entries) p s).result = o) :
    answers.map RecordEntry.path = entries.map (fun e => p.field e.1) ∧
      ((∃ out, o = .success out) ↔
        (∀ a ∈ answers, (∃ k, a.key = .success k) ∧ ∃ v, a.value = .success v) ∧
          (Entries.keys (accepted answers)).Nodup) ∧
      (∀ out, o = .success out →
        List.Forall₂ (fun a e => a.key = .success e.1 ∧ a.value = .success e.2) answers out) ∧
      o.issues = answers.zipIdx.flatMap fun x => contribution (answers.take x.2) x.1 := by
  subst answered ran
  refine ⟨entryAnswers_path key value entries p s, ?_, ?_,
    record_issues kindMessage key value entries p s⟩
  · rw [record_result, settled_iff]
    refine and_congr_left fun _ => forall₂_congr fun a _ => ?_
    constructor
    · rintro ⟨out, ofKey, ofValue⟩
      exact ⟨⟨out.1, ofKey⟩, out.2, ofValue⟩
    · rintro ⟨⟨k, ofKey⟩, v, ofValue⟩
      exact ⟨(k, v), ofKey, ofValue⟩
  · intro out succeeded
    rw [record_result] at succeeded
    exact (answers_of_settled succeeded).1

/-- Names that are not empty; two of them are for one host. -/
def hostName : Schema Unit .text :=
  .refine (fun (s : String) => pure (s != "")) "empty" refinementCode
    (.chain [fun s => pure (if s = "Host" then "host" else s)] (.text .empty))

def weight : Schema Unit .value := .erased (.number .empty)

/-- The key and the value of the second entry are both rejected; the third one has the key of the
first. -/
def weights : Entries Value := [("Host", .number .zero), ("", .null), ("host", .number .zero)]

def emptyName : Issue := ⟨⟨[.field ""]⟩, "empty", "refinement", none, none⟩

def nullWeight : Issue :=
  ⟨⟨[.field ""]⟩, "Expecting type 'number'. Got type 'null'.", "invalid_type", some "number",
    some "null"⟩

def secondHost : Issue :=
  ⟨⟨[.field "host"]⟩, "Duplicate key 'host' after key validation.", "duplicate_key", none, none⟩

def weightAnswers : List (RecordEntry Value) :=
  [⟨⟨[.field "Host"]⟩, .success "host", .success (.number .zero)⟩,
    ⟨⟨[.field ""]⟩, .fail emptyName, .fail nullWeight⟩,
    ⟨⟨[.field "host"]⟩, .success "host", .success (.number .zero)⟩]

theorem weights_record_keeps_entries :
    entryAnswers hostName weight .root weights () = weightAnswers ∧
      (∀ out, ((record none hostName weight).validate (.object weights) .root ()).result ≠
        .success out) ∧
      ((record none hostName weight).validate (.object weights) .root ()).result.issues =
        [emptyName, nullWeight, secondHost] := by
  have answered : entryAnswers hostName weight .root weights () = weightAnswers := rfl
  obtain ⟨_, succeeds, _, issues⟩ :=
    record_keeps_entries none hostName weight weights .root () answered rfl
  refine ⟨answered, fun out succeeded => ?_, issues⟩
  have distinct := (succeeds.mp ⟨out, succeeded⟩).2
  revert distinct
  decide

/-- Two entries with one key make a record fail.  If both values are accepted as well, the later
entry is reported as a duplicate, at the key that the input has. -/
theorem record_reports_duplicate {answers : List (RecordEntry Value)} {o : Outcome (Entries Value)}
    (answered : entryAnswers key value p entries s = answers)
    (ran : ((record kindMessage key value).validate (.object entries) p s).result = o)
    {i j : Nat} (before : i < j) {a b : RecordEntry Value} (earlier : answers[i]? = some a)
    (later : answers[j]? = some b) {k : String} (ofEarlier : a.key = .success k)
    (ofLater : b.key = .success k) :
    (∀ out, o ≠ .success out) ∧
      ∀ v w name u, a.value = .success v → b.value = .success w → entries[j]? = some (name, u) →
        duplicateKey (p.field name) k ∈ o.issues := by
  subst answered ran
  refine ⟨fun out succeeded => ?_, fun v w name u ofValue ofOther there => ?_⟩
  · rw [record_result] at succeeded
    obtain ⟨answers, rfl⟩ := answers_of_settled succeeded
    -- With both entries answered, the output has the key at two positions.
    have distinct := ((settled_iff _).mp ⟨_, succeeded⟩).2
    have first := keys_of_answers answers earlier ofEarlier
    have second := keys_of_answers answers later ofLater
    have inside := (List.getElem?_eq_some_iff.mp first).1
    exact Nat.ne_of_lt before ((List.getElem?_inj inside distinct).mp (first.trans second.symm))
  · have taken : k ∈ Entries.keys (accepted ((entryAnswers key value p entries s).take j)) := by
      have there := List.mem_of_getElem? ((List.getElem?_take_of_lt before).trans earlier)
      have accepted := accepted?_eq_some_iff.mpr ⟨ofEarlier, ofValue⟩
      exact List.mem_map_of_mem (List.mem_filterMap.mpr ⟨a, there, accepted⟩)
    have place : b.path = p.field name := by
      have paths := congrArg (·[j]?) (entryAnswers_path key value entries p s)
      simpa [later, there] using paths
    rw [record_issues, List.mem_flatMap]
    refine ⟨(b, j), List.mem_zipIdx_iff_getElem?.mpr later, ?_⟩
    rw [contribution_of_duplicate (accepted?_eq_some_iff.mpr ⟨ofLater, ofOther⟩) taken, place]
    exact List.mem_singleton_self _

/-- The value of the second entry is rejected; the third one has the key of the first. -/
def ports : Entries Value := [("Host", .number .zero), ("port", .text "x"), ("host", .number .zero)]

theorem ports_record_reports_duplicate :
    (∀ out, ((record none hostName weight).validate (.object ports) .root ()).result ≠
        .success out) ∧
      secondHost ∈ ((record none hostName weight).validate (.object ports) .root
        ()).result.issues := by
  obtain ⟨fails, reported⟩ := record_reports_duplicate none hostName weight ports .root () rfl rfl
    (i := 0) (j := 2) (by decide) rfl rfl rfl rfl
  have same : secondHost = duplicateKey (Path.root.field "host") "host" := by decide
  rw [same]
  exact ⟨fails, reported _ _ _ _ rfl rfl rfl⟩

/-- Both keys are accepted as `host`, but the value of the first entry is rejected, and the second
entry is not reported. -/
theorem record_hides_duplicate :
    (hostName.validate (.text "Host") ⟨[.field "Host"]⟩ ()).result = .success "host" ∧
      (hostName.validate (.text "host") ⟨[.field "host"]⟩ ()).result = .success "host" ∧
      ((record none hostName weight).validate
          (.object [("Host", .text "x"), ("host", .number .zero)]) .root ()).result.issues =
        [⟨⟨[.field "Host"]⟩, "Expecting type 'number'. Got type 'string'.", "invalid_type",
          some "number", some "string"⟩] :=
  ⟨rfl, rfl, rfl⟩

end Schema

end Conform
