import Conform.Pattern.Reader
import Conform.Proofs.Issue.Lists
import Conform.Proofs.Number.Order
import Conform.Proofs.Rules.Calls
import Conform.Schema.Parse
import Mathlib.Data.Prod.Lex

/-!
# Constraints on texts, numbers and dates

The three kinds of schemas with rules treat them alike.  Which calls built the rules decides what is
reported: one issue for every requirement that an input does not meet, in the order of the calls,
and nothing but the kind where a value is of another one.  What a check asks is said in terms of
lengths, of real numbers, of the order of time, and of what a compiled pattern answers; all of it
holds for any compiler of patterns.
-/

set_option autoImplicit false

namespace Conform

/-! ## What is reported -/

/-- How the values of a kind are checked, and what is said about a violation. -/
structure Checking (κ α : Type) where
  kind : String
  value : α → Value
  /-- Is an input checked at all? -/
  admits : α → Bool
  /-- What a check asks of an input. -/
  Meets : α → κ → Prop
  holds : α → κ → Bool
  holds_iff : ∀ input check, holds input check = true ↔ Meets input check
  code : κ → String
  expected : κ → String
  got : α → κ → String
  message : α → κ → String

namespace Checking

variable {κ α : Type} (k : Checking κ α)

def violation? (check : κ) (input : α) : Option Violation :=
  if k.holds input check then none
  else some ⟨k.code check, k.expected check, k.got input check, k.message input check⟩

/-- The issue of a requirement that an input does not meet. -/
def report (path : Path) (input : α) (r : Requirement κ) : Option Issue :=
  if k.holds input r.check then none
  else some {
    path := path
    message := r.message.getD (k.message input r.check)
    code := k.code r.check
    expected := some (k.expected r.check)
    got := some (k.got input r.check) }

theorem report_eq_none_iff (path : Path) (input : α) (r : Requirement κ) :
    k.report path input r = none ↔ k.Meets input r.check := by
  rw [report, ← k.holds_iff]
  split
  · next holds => exact ⟨fun _ => holds, fun _ => rfl⟩
  · next violated => exact ⟨nofun, fun holds => absurd holds violated⟩

theorem issues_eq (rules : Rules κ) (path : Path) (input : α) :
    rules.issues k.violation? path input = rules.requirements.filterMap (k.report path input) := by
  apply List.filterMap_congr
  intro r _
  rw [violation?, report]
  split <;> rfl

/-- No requirement of a row of calls is violated when the input meets every check among them. -/
theorem reports_eq_nil_iff (path : Path) (input : α) (calls : List (Rules.Call κ)) :
    (Rules.demanded calls).filterMap (k.report path input) = [] ↔
      ∀ check ∈ calls.filterMap Rules.Call.check?, k.Meets input check := by
  rw [← Rules.check_demanded, List.forall_mem_map, List.filterMap_eq_nil_iff]
  exact forall₂_congr fun r _ => k.report_eq_none_iff path input r

/-- What a row of calls says about validations at a path.  An input is reported for every
requirement that it does not meet, in order, and is the output when there is none; a value of
another kind is reported once, whatever is required. -/
structure Follows (calls : List (Rules.Call κ)) (path : Path) (validate : Value → Outcome α) :
    Prop where
  issues : ∀ input, k.admits input = true →
    (validate (k.value input)).issues = (Rules.demanded calls).filterMap (k.report path input)
  success_iff : ∀ input, k.admits input = true → ∀ output,
    validate (k.value input) = .success output ↔
      output = input ∧ ∀ check ∈ calls.filterMap Rules.Call.check?, k.Meets input check
  wrongKind : ∀ v, (∀ input, v ≠ k.value input) →
    validate v = .fail (.wrongKind path k.kind v (leadingMessage Rules.Call.text? calls))

variable {k}

theorem follows_of_settle {calls : List (Rules.Call κ)} {path : Path} {validate : Value → Outcome α}
    (checked : ∀ input, k.admits input = true → validate (k.value input) =
      .settle input ((Rules.build calls).issues k.violation? path input))
    (rejected : ∀ v, (∀ input, v ≠ k.value input) →
      validate v = .fail (.wrongKind path k.kind v (Rules.build calls).kindMessage)) :
    k.Follows calls path validate where
  issues input admitted := by
    rw [checked input admitted, Outcome.issues_settle, issues_eq, Rules.build_eq]
  success_iff input admitted output := by
    rw [checked input admitted, Outcome.settle_eq_success_iff, issues_eq, Rules.build_eq,
      reports_eq_nil_iff, and_comm, eq_comm]
  wrongKind v other := by
    rw [rejected v other, Rules.build_eq]

end Checking

/-! ## Texts -/

namespace TextCheck

def Meets (s : String) : TextCheck → Prop
  | minLength n => n ≤ s.length
  | maxLength n => s.length ≤ n
  | pattern _ occursIn => occursIn s = true

theorem holds_iff (s : String) (c : TextCheck) : c.holds s = true ↔ c.Meets s := by
  cases c with
  | minLength n => exact decide_eq_true_iff
  | maxLength n => exact decide_eq_true_iff
  | pattern written occursIn => exact Iff.rfl

def checking : Checking TextCheck String where
  kind := "string"
  value := .text
  admits _ := true
  Meets := Meets
  holds := holds
  holds_iff := holds_iff
  code := code
  expected := expected
  got := got
  message := message

end TextCheck

inductive TextCall where
  | minLength (n : Nat)
  | maxLength (n : Nat)
  | nonEmpty
  | pattern (written : String)
  | message (text : String)

namespace TextCall

def apply (compile : PatternCompiler) (rules : TextRules) : TextCall → Except BuildFault TextRules
  | minLength n => .ok (rules.minLength n)
  | maxLength n => .ok (rules.maxLength n)
  | nonEmpty => .ok rules.nonEmpty
  | pattern written => rules.matching compile written
  | message text => .ok (rules.message text)

/-- What a call adds to rules; a pattern that does not compile adds nothing. -/
def step? (compile : PatternCompiler) : TextCall → Option (Rules.Call TextCheck)
  | minLength n => some (.require (.minLength n))
  | maxLength n => some (.require (.maxLength n))
  | nonEmpty => some (.require (.minLength 1))
  | pattern written =>
    match compile written with
    | .ok occursIn => some (.require (.pattern written occursIn))
    | .error _ => none
  | message text => some (.message text)

theorem apply_cases (compile : PatternCompiler) (call : TextCall) (rules : TextRules) :
    (∃ step, call.step? compile = some step ∧ call.apply compile rules = .ok (step.apply rules)) ∨
      ∃ written reason, call = .pattern written ∧ compile written = .error reason ∧
        call.apply compile rules = .error (.patternUnreadable reason) := by
  cases call with
  | pattern written =>
    rw [step?, apply, TextRules.matching]
    cases compiled : compile written with
    | ok occursIn => exact .inl ⟨_, rfl, rfl⟩
    | error reason => exact .inr ⟨written, reason, rfl, compiled, rfl⟩
  | minLength | maxLength | nonEmpty | message => exact .inl ⟨_, rfl, rfl⟩

end TextCall

namespace TextRules

variable (compile : PatternCompiler)

def after (rules : TextRules) (calls : List TextCall) : Except BuildFault TextRules :=
  calls.foldlM (TextCall.apply compile) rules

/-- The rules that a row of calls builds, unless one of its patterns does not compile. -/
def build (calls : List TextCall) : Except BuildFault TextRules := after compile .empty calls

theorem after_cases (calls : List TextCall) (rules : TextRules) :
    (∃ steps, calls.map (TextCall.step? compile) = steps.map some ∧
      after compile rules calls = .ok (Rules.after rules steps)) ∨
    ∃ written reason, .pattern written ∈ calls ∧ compile written = .error reason ∧
      after compile rules calls = .error (.patternUnreadable reason) := by
  induction calls generalizing rules with
  | nil => exact .inl ⟨[], rfl, rfl⟩
  | cons call rest ih =>
    have unfolded : after compile rules (call :: rest) =
        call.apply compile rules >>= fun next => after compile next rest :=
      List.foldlM_cons
    rcases call.apply_cases compile rules with
      ⟨step, stepped, applied⟩ | ⟨written, reason, rfl, failed, refused⟩
    · have next : after compile rules (call :: rest) = after compile (step.apply rules) rest := by
        rw [unfolded, applied]
        rfl
      rw [next]
      rcases ih (step.apply rules) with ⟨steps, read, built⟩ | ⟨written, reason, member, refused⟩
      · refine .inl ⟨step :: steps, ?_, built⟩
        rw [List.map_cons, stepped, read, List.map_cons]
      · exact .inr ⟨written, reason, List.mem_cons_of_mem _ member, refused⟩
    · refine .inr ⟨written, reason, List.mem_cons_self, failed, ?_⟩
      rw [unfolded, refused]
      rfl

end TextRules

/-! ## Numbers -/

namespace NumberCheck

def Meets (x : Binary64) : NumberCheck → Prop
  | min bound => bound.AtMost x
  | max bound => x.AtMost bound
  | positive => ∃ v, x.value? = some v ∧ 0 < v
  | nonNegative => ∃ v, x.value? = some v ∧ 0 ≤ v
  | negative => ∃ v, x.value? = some v ∧ v < 0
  | integer => ∃ n : Int, x.value? = some ((n : ℝ) : EReal)

theorem holds_iff (x : Binary64) (c : NumberCheck) : c.holds x = true ↔ c.Meets x := by
  cases c with
  | min bound => exact bound.lessOrEqual_iff x
  | max bound => exact x.lessOrEqual_iff bound
  | positive => simp [holds, Meets, Binary64.less_iff, Binary64.Below, Binary64.value?_zero]
  | nonNegative =>
    simp [holds, Meets, Binary64.lessOrEqual_iff, Binary64.AtMost, Binary64.value?_zero]
  | negative => simp [holds, Meets, Binary64.less_iff, Binary64.Below, Binary64.value?_zero]
  | integer => exact x.isWhole_iff

def checking : Checking NumberCheck Binary64 where
  kind := "number"
  value := .number
  admits := Binary64.isFinite
  Meets := Meets
  holds := holds
  holds_iff := holds_iff
  code := code
  expected := expected
  got x _ := x.display
  message := message

end NumberCheck

inductive NumberCall where
  | one (call : Rules.Call NumberCheck)
  | range (low high : Binary64)

namespace NumberCall

def apply (rules : NumberRules) : NumberCall → NumberRules
  | one call => call.apply rules
  | range low high => rules.range low high

/-- A range is a least number, and then a greatest. -/
def steps : NumberCall → List (Rules.Call NumberCheck)
  | one call => [call]
  | range low high => [.require (.min low), .require (.max high)]

theorem apply_eq_after (rules : NumberRules) (call : NumberCall) :
    call.apply rules = Rules.after rules call.steps := by
  cases call <;> rfl

end NumberCall

namespace NumberRules

def build (calls : List NumberCall) : NumberRules := calls.foldl NumberCall.apply .empty

theorem build_eq (calls : List NumberCall) :
    build calls = Rules.build (calls.flatMap NumberCall.steps) := by
  have same : NumberCall.apply = fun rules call => Rules.after rules call.steps :=
    funext₂ NumberCall.apply_eq_after
  rw [build, same, Rules.build, Rules.after, List.foldl_flatMap]
  rfl

end NumberRules

/-! ## Dates -/

/-- By the second, and then by the nanoseconds since. -/
def Instant.AtMost (t u : Instant) : Prop :=
  toLex (t.seconds, t.nanos) ≤ toLex (u.seconds, u.nanos)

theorem Instant.lessOrEqual_iff (t u : Instant) : t.lessOrEqual u = true ↔ t.AtMost u := by
  rw [lessOrEqual, AtMost, Prod.Lex.toLex_le_toLex]
  simp only [less, Bool.not_eq_true', Bool.or_eq_false_iff, Bool.and_eq_false_iff,
    decide_eq_false_iff_not, beq_eq_false_iff_ne]
  omega

namespace DateCheck

def Meets (t : Instant) : DateCheck → Prop
  | min bound => bound.AtMost t
  | max bound => t.AtMost bound

theorem holds_iff (t : Instant) (c : DateCheck) : c.holds t = true ↔ c.Meets t := by
  cases c with
  | min bound => exact bound.lessOrEqual_iff t
  | max bound => exact t.lessOrEqual_iff bound

def checking : Checking DateCheck Instant where
  kind := "date"
  value := .date
  admits _ := true
  Meets := Meets
  holds := holds
  holds_iff := holds_iff
  code := code
  expected := expected
  got t _ := Timestamp.write t
  message := message

end DateCheck

/-! ## Validations -/

namespace Schema

variable {σ : Type}

theorem text_follows (calls : List (Rules.Call TextCheck)) (p : Path) (s : σ) :
    TextCheck.checking.Follows calls p fun v =>
      ((Schema.text (Rules.build calls)).validate v p s).result := by
  apply Checking.follows_of_settle
  · intro text _
    rfl
  · intro v other
    cases v with
    | text text => exact absurd rfl (other text)
    | _ => rfl

theorem number_follows (calls : List (Rules.Call NumberCheck)) (p : Path) (s : σ) :
    NumberCheck.checking.Follows calls p fun v =>
      ((Schema.number (Rules.build calls)).validate v p s).result := by
  apply Checking.follows_of_settle
  · intro x finite
    exact if_pos finite
  · intro v other
    cases v with
    | number x => exact absurd rfl (other x)
    | _ => rfl

theorem date_follows (calls : List (Rules.Call DateCheck)) (p : Path) (s : σ) :
    DateCheck.checking.Follows calls p fun v =>
      ((Schema.date (Rules.build calls)).validate v p s).result := by
  apply Checking.follows_of_settle
  · intro t _
    rfl
  · intro v other
    cases v with
    | date t => exact absurd rfl (other t)
    | _ => rfl

/-- Every row of calls builds rules, or has a pattern that does not compile and is refused.  The
rules demand what the calls require, in order, each with the last of the messages right after it,
and report what is not met in that order.  A number that is not finite is reported once, like a
value of another kind. -/
theorem constraints_follow_calls (compile : PatternCompiler) (p : Path) (s : σ) :
    (∀ calls : List TextCall,
      (∃ steps rules, calls.map (TextCall.step? compile) = steps.map some ∧
        TextRules.build compile calls = .ok rules ∧
        TextCheck.checking.Follows steps p fun v => ((Schema.text rules).validate v p s).result) ∨
      ∃ written reason, .pattern written ∈ calls ∧ compile written = .error reason ∧
        TextRules.build compile calls = .error (.patternUnreadable reason)) ∧
    (∀ calls : List NumberCall,
      (NumberCheck.checking.Follows (calls.flatMap NumberCall.steps) p fun v =>
        ((Schema.number (NumberRules.build calls)).validate v p s).result) ∧
      ∀ x : Binary64, x.isFinite = false →
        ((Schema.number (NumberRules.build calls)).validate (.number x) p s).result = .fail {
          path := p
          message := (leadingMessage Rules.Call.text? (calls.flatMap NumberCall.steps)).getD
            "Expecting value to be a finite 'number'."
          code := "not_finite"
          expected := some "finite number"
          got := some x.display }) ∧
    ∀ calls : List (Rules.Call DateCheck),
      DateCheck.checking.Follows calls p fun v =>
        ((Schema.date (Rules.build calls)).validate v p s).result := by
  refine ⟨?_, ?_, fun calls => date_follows calls p s⟩
  · intro calls
    rcases TextRules.after_cases compile calls .empty with ⟨steps, read, built⟩ | refused
    · exact .inl ⟨steps, _, read, built, text_follows steps p s⟩
    · exact .inr refused
  · intro calls
    rw [NumberRules.build_eq]
    refine ⟨number_follows _ p s, ?_⟩
    intro x infinite
    have rejected : ((Schema.number (Rules.build (calls.flatMap NumberCall.steps))).validate
        (.number x) p s).result = .fail (Validator.notFinite (Rules.build _) p x) :=
      if_neg (by rw [infinite]; nofun)
    rw [rejected, Rules.build_eq]
    rfl

/-- The checks of texts, each of them once with a message of its own and once without. -/
def nameCalls : List TextCall :=
  [.message "a text", .message "a name", .minLength 3, .pattern "^a", .maxLength 1, .nonEmpty,
    .minLength 3, .message "three letters", .pattern "^a", .message "an a",
    .message "an a first", .maxLength 1, .message "one letter"]

def threeQuarters (negative : Bool) : Binary64 :=
  .finite negative ⟨3 <<< 51, 1021, by decide, by decide, .inr (by decide)⟩

def markCalls : List NumberCall :=
  [.one (.message "a mark"), .one (.require .positive), .one (.require .nonNegative),
    .range (.ofInt 1) .zero, .one (.message "not more"), .one (.require .negative),
    .one (.message "less than nothing"), .one (.require .integer), .one (.require .positive)]

def secondDay : Instant := ⟨86400, 5000000, by decide, by decide, by decide, by decide⟩

def thirdDay : Instant := ⟨172800, 5000000, by decide, by decide, by decide, by decide⟩

def startCalls : List (Rules.Call DateCheck) :=
  [.message "a start", .require (.min thirdDay), .require (.max secondDay), .message "no later"]

def nameIssues : List Issue :=
  [⟨.root, "Expecting length to be at least 3. Got 2.", "min_length", some "at least 3 characters",
      some "2 characters"⟩,
    ⟨.root, "Expecting string to match pattern '^a'.", "pattern", some "string matching '^a'",
      some "bc"⟩,
    ⟨.root, "Expecting length to be at most 1. Got 2.", "max_length", some "at most 1 characters",
      some "2 characters"⟩,
    ⟨.root, "three letters", "min_length", some "at least 3 characters", some "2 characters"⟩,
    ⟨.root, "an a first", "pattern", some "string matching '^a'", some "bc"⟩,
    ⟨.root, "one letter", "max_length", some "at most 1 characters", some "2 characters"⟩]

def aboveIssues : List Issue :=
  [⟨.root, "Expecting value to be at least 1. Got 0.75.", "min_value", some "at least 1",
      some "0.75"⟩,
    ⟨.root, "not more", "max_value", some "at most 0", some "0.75"⟩,
    ⟨.root, "less than nothing", "negative", some "negative", some "0.75"⟩,
    ⟨.root, "Expecting value to be an integer. Got 0.75.", "integer", some "an integer",
      some "0.75"⟩]

def belowIssues : List Issue :=
  [⟨.root, "Expecting value to be positive. Got -0.75.", "positive", some "positive", some "-0.75"⟩,
    ⟨.root, "Expecting value to be non-negative. Got -0.75.", "non_negative", some "non-negative",
      some "-0.75"⟩,
    ⟨.root, "Expecting value to be at least 1. Got -0.75.", "min_value", some "at least 1",
      some "-0.75"⟩,
    ⟨.root, "Expecting value to be an integer. Got -0.75.", "integer", some "an integer",
      some "-0.75"⟩,
    ⟨.root, "Expecting value to be positive. Got -0.75.", "positive", some "positive",
    some "-0.75"⟩]

/-- Requirements that no input meets are reported side by side, a repeated one once more. -/
theorem name_and_mark_follow_calls :
    (∃ rules, TextRules.build Pattern.compile nameCalls = .ok rules ∧
      ((text rules).validate (.text "bc") .root ()).result.issues = nameIssues ∧
      ((text rules).validate .null .root ()).result =
        .fail ⟨.root, "a name", "invalid_type", some "string", some "null"⟩) ∧
    ((number (NumberRules.build markCalls)).validate (.number (threeQuarters false)) .root
      ()).result.issues = aboveIssues ∧
    ((number (NumberRules.build markCalls)).validate (.number (threeQuarters true)) .root
      ()).result.issues = belowIssues ∧
    ((number (NumberRules.build markCalls)).validate (.number .nan) .root ()).result =
      .fail ⟨.root, "a mark", "not_finite", some "finite number", some "NaN"⟩ ∧
    ((date (Rules.build startCalls)).validate (.date thirdDay) .root ()).result.issues =
      [⟨.root, "no later", "max_value", some "at or before 1970-01-02T00:00:00.005Z",
        some "1970-01-03T00:00:00.005Z"⟩] ∧
    ((date (Rules.build startCalls)).validate (.date secondDay) .root ()).result.issues =
      [⟨.root, "Expecting date to be at or after 1970-01-03T00:00:00.005Z. Got "
          ++ "1970-01-02T00:00:00.005Z.", "min_value", some "at or after 1970-01-03T00:00:00.005Z",
        some "1970-01-02T00:00:00.005Z"⟩] := by
  obtain ⟨texts, numbers, dates⟩ := constraints_follow_calls Pattern.compile .root ()
  obtain ⟨checked, rejected⟩ := numbers markCalls
  refine ⟨?_, ?_, ?_, ?_, ?_, ?_⟩
  · rcases texts nameCalls with ⟨steps, rules, read, built, follows⟩ | ⟨_, _, member, failed, _⟩
    · obtain rfl : nameCalls.filterMap (TextCall.step? Pattern.compile) = steps := by
        simpa [List.filterMap_map, Function.comp_def] using congrArg (List.filterMap id) read
      refine ⟨rules, built, ?_, follows.wrongKind .null nofun |>.trans ?_⟩
      · exact (follows.issues "bc" rfl).trans (by decide +kernel)
      · have named : leadingMessage Rules.Call.text?
            (nameCalls.filterMap (TextCall.step? Pattern.compile)) = some "a name" := by
          decide +kernel
        rw [named]
        rfl
    · obtain rfl : _ = "^a" := by simpa [nameCalls] using member
      have readable : (Pattern.compile "^a").isOk = true := by decide +kernel
      rw [failed] at readable
      cases readable
  · exact (checked.issues (threeQuarters false) rfl).trans (by decide +kernel)
  · exact (checked.issues (threeQuarters true) rfl).trans (by decide +kernel)
  · rw [rejected .nan rfl]
    rfl
  · exact ((dates startCalls).issues thirdDay rfl).trans (by decide +kernel)
  · exact ((dates startCalls).issues secondDay rfl).trans (by decide +kernel)

end Schema

end Conform
