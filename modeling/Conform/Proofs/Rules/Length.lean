import Conform.Proofs.Rules.Calls
import Conform.Rules.Length

/-!
# Building rules for the length of lists

Rules are built by calls that set a bound or a message.  Of either side the bound that counts is the
last one that was set; its message is the last of those that follow before any other bound is set.
The messages before the first bound are for values that are no lists.
-/

set_option autoImplicit false

namespace Conform

/-! ## Calls -/

inductive LengthCall where
  | minLength (n : Nat)
  | maxLength (n : Nat)
  | nonEmpty
  | message (text : String)

namespace LengthRules

/-- The bound of a side. -/
def bound (rules : LengthRules) : LengthSide → Option LengthBound
  | .least => rules.least
  | .greatest => rules.greatest

def withBound (rules : LengthRules) : LengthSide → Nat → LengthRules
  | .least, n => rules.minLength n
  | .greatest, n => rules.maxLength n

end LengthRules

namespace LengthCall

def apply (rules : LengthRules) : LengthCall → LengthRules
  | minLength n => rules.minLength n
  | maxLength n => rules.maxLength n
  | nonEmpty => rules.nonEmpty
  | message text => rules.message text

/-- The bound that a call sets; a list that is not empty has at least one item. -/
def bound? : LengthCall → Option (LengthSide × Nat)
  | minLength n => some (.least, n)
  | maxLength n => some (.greatest, n)
  | nonEmpty => some (.least, 1)
  | message _ => none

def text? : LengthCall → Option String
  | message text => some text
  | _ => none

def Sets (call : LengthCall) (side : LengthSide) : Prop := ∃ n, call.bound? = some (side, n)

theorem text?_message (text : String) : (message text).text? = some text := rfl

theorem message_or_bound (call : LengthCall) :
    (∃ text, call = message text) ∨
      ∃ side n, call.bound? = some (side, n) ∧ call.text? = none ∧
        ∀ rules, call.apply rules = rules.withBound side n := by
  cases call with
  | message text => exact .inl ⟨text, rfl⟩
  | minLength | nonEmpty => exact .inr ⟨.least, _, rfl, rfl, fun _ => rfl⟩
  | maxLength => exact .inr ⟨.greatest, _, rfl, rfl, fun _ => rfl⟩

end LengthCall

namespace LengthRules

/-! ## One call -/

section Call

variable (rules : LengthRules)

theorem bound_withBound (side : LengthSide) (n : Nat) :
    (rules.withBound side n).bound side = some ⟨n, none⟩ := by
  cases side <;> rfl

theorem bound_withBound_of_ne {side other : LengthSide} (apart : other ≠ side) (n : Nat) :
    (rules.withBound other n).bound side = rules.bound side := by
  cases other <;> cases side <;> first | rfl | exact absurd rfl apart

theorem latest_withBound (side : LengthSide) (n : Nat) :
    (rules.withBound side n).latest = some side := by
  cases side <;> rfl

theorem kindMessage_withBound (side : LengthSide) (n : Nat) :
    (rules.withBound side n).kindMessage = rules.kindMessage := by
  cases side <;> rfl

theorem latest_message (text : String) : (rules.message text).latest = rules.latest := by
  rw [message]
  split <;> rfl

theorem kindMessage_message (text : String) :
    (rules.message text).kindMessage =
      if rules.latest = none then some text else rules.kindMessage := by
  obtain ⟨kindMessage, least, greatest, latest⟩ := rules
  cases latest with
  | none => rfl
  | some side => cases side <;> rfl

theorem bound_message (text : String) (side : LengthSide) :
    (rules.message text).bound side =
      if rules.latest = some side then
        (rules.bound side).map fun b => { b with message := some text }
      else rules.bound side := by
  obtain ⟨kindMessage, least, greatest, latest⟩ := rules
  cases latest with
  | none => cases side <;> rfl
  | some last => cases last <;> cases side <;> rfl

end Call

/-! ## Calls one after another -/

def after (rules : LengthRules) (calls : List LengthCall) : LengthRules :=
  calls.foldl LengthCall.apply rules

theorem kindMessage_after (calls : List LengthCall) (rules : LengthRules) :
    (rules.after calls).kindMessage =
      if rules.latest = none then
        (leadingMessage LengthCall.text? calls).or rules.kindMessage
      else rules.kindMessage := by
  -- The rules are any, since the first message is already in those that the other calls meet.
  induction calls generalizing rules with
  | nil => split <;> rfl
  | cons call rest ih =>
    have step : rules.after (call :: rest) = (call.apply rules).after rest := rfl
    rw [step, ih]
    rcases call.message_or_bound with ⟨text, rfl⟩ | ⟨side, n, _, silent, same⟩
    · rw [LengthCall.apply, latest_message, kindMessage_message,
        leadingMessage_cons_of_some (LengthCall.text?_message text), Option.or_assoc,
        Option.some_or]
      split <;> rfl
    · rw [same, latest_withBound, kindMessage_withBound, leadingMessage_cons_of_none silent]
      simp

/-- Calls that do not set a bound again only change its message, and only if it was set last. -/
theorem bound_after_of_not_sets {side : LengthSide} {calls : List LengthCall}
    (kept : ∀ call ∈ calls, ¬ call.Sets side) (rules : LengthRules) :
    (rules.after calls).bound side =
      if rules.latest = some side then
        (rules.bound side).map fun b =>
          { b with message := (leadingMessage LengthCall.text? calls).or b.message }
      else rules.bound side := by
  induction calls generalizing rules with
  | nil =>
    split
    · exact Option.map_id'.symm
    · rfl
  | cons call rest ih =>
    obtain ⟨own, others⟩ := List.forall_mem_cons.mp kept
    have step : rules.after (call :: rest) = (call.apply rules).after rest := rfl
    rw [step, ih others]
    rcases call.message_or_bound with ⟨text, rfl⟩ | ⟨other, n, set, silent, same⟩
    · rw [LengthCall.apply, latest_message, bound_message,
        leadingMessage_cons_of_some (LengthCall.text?_message text)]
      split
      · rw [Option.map_map]
        simp [Function.comp_def]
      · rfl
    · have apart : other ≠ side := by
        rintro rfl
        exact own ⟨n, set⟩
      rw [same, latest_withBound, if_neg (by simpa using apart), bound_withBound_of_ne _ apart,
        leadingMessage_cons_of_none silent]
      simp

/-- A bound that is the last of its side in a row of calls, and the last of the messages right after
it. -/
def LastBound (calls : List LengthCall) (side : LengthSide) (b : LengthBound) : Prop :=
  ∃ before call later, calls = before ++ call :: later ∧ call.bound? = some (side, b.length) ∧
    (∀ c ∈ later, ¬ c.Sets side) ∧ b.message = leadingMessage LengthCall.text? later

theorem exists_lastBound {calls : List LengthCall} {side : LengthSide}
    (set : ∃ call ∈ calls, call.Sets side) : ∃ b, LastBound calls side b := by
  induction calls with
  | nil =>
    obtain ⟨_, member, _⟩ := set
    cases member
  | cons call rest ih =>
    by_cases again : ∃ c ∈ rest, c.Sets side
    · obtain ⟨b, before, c, later, split, found⟩ := ih again
      exact ⟨b, call :: before, c, later, congrArg (call :: ·) split, found⟩
    · obtain ⟨c, member, n, found⟩ := set
      rcases List.mem_cons.mp member with rfl | there
      · exact ⟨⟨n, _⟩, [], c, rest, rfl, found, fun c there sets => again ⟨c, there, sets⟩, rfl⟩
      · exact absurd ⟨c, there, n, found⟩ again

theorem bound_of_lastBound {calls : List LengthCall} {side : LengthSide} {b : LengthBound}
    (last : LastBound calls side b) (rules : LengthRules) :
    (rules.after calls).bound side = some b := by
  obtain ⟨before, call, later, rfl, set, kept, message⟩ := last
  have steps : rules.after (before ++ call :: later) =
      (call.apply (rules.after before)).after later := List.foldl_append
  rcases call.message_or_bound with ⟨text, rfl⟩ | ⟨other, n, found, _, same⟩
  · cases set
  · -- The call sets the bound anew, so the calls before it do not matter.
    obtain ⟨rfl, rfl⟩ : other = side ∧ n = b.length := by
      simpa using found.symm.trans set
    rw [steps, same, bound_after_of_not_sets kept, latest_withBound, if_pos rfl, bound_withBound,
      Option.map_some, Option.or_none, ← message]

/-- The rules that a row of calls builds. -/
def build (calls : List LengthCall) : LengthRules := empty.after calls

theorem bound_build_iff (calls : List LengthCall) (side : LengthSide) (b : LengthBound) :
    (build calls).bound side = some b ↔ LastBound calls side b := by
  constructor
  · intro found
    by_cases set : ∃ call ∈ calls, call.Sets side
    · obtain ⟨last, isLast⟩ := exists_lastBound set
      have same := (bound_of_lastBound isLast empty).symm.trans found
      obtain rfl := Option.some.inj same
      exact isLast
    · have none : (build calls).bound side = none := by
        rw [build, bound_after_of_not_sets fun c member sets => set ⟨c, member, sets⟩]
        cases side <;> rfl
      rw [none] at found
      cases found
  · intro last
    exact bound_of_lastBound last empty

theorem kindMessage_build (calls : List LengthCall) :
    (build calls).kindMessage = leadingMessage LengthCall.text? calls := by
  rw [build, kindMessage_after]
  exact Option.or_none

/-! ## No message is lost -/

/-- The bound that was set last, if any was, is there. -/
def Marked (rules : LengthRules) : Prop :=
  ∀ side, rules.latest = some side → ∃ b, rules.bound side = some b

theorem Marked.apply {rules : LengthRules} (h : rules.Marked) (call : LengthCall) :
    (call.apply rules).Marked := by
  intro side last
  rcases call.message_or_bound with ⟨text, rfl⟩ | ⟨other, n, _, _, same⟩
  · rw [LengthCall.apply, latest_message] at last
    obtain ⟨b, found⟩ := h side last
    rw [LengthCall.apply, bound_message, if_pos last, found]
    exact ⟨_, rfl⟩
  · rw [same, latest_withBound] at last
    obtain rfl := Option.some.inj last
    exact ⟨_, by rw [same, bound_withBound]⟩

theorem Marked.after {rules : LengthRules} (h : rules.Marked) (calls : List LengthCall) :
    (rules.after calls).Marked := by
  induction calls generalizing rules with
  | nil => exact h
  | cons call rest ih => exact ih (h.apply call)

theorem marked_build (calls : List LengthCall) : (build calls).Marked := by
  have start : empty.Marked := by
    intro side last
    cases last
  exact start.after calls

/-- The message that rules would show for a violation of the bound that was set last, or else for a
value of a wrong kind. -/
def latestMessage (rules : LengthRules) : Option String :=
  match rules.latest with
  | none => rules.kindMessage
  | some side => (rules.bound side).bind LengthBound.message

theorem Marked.latestMessage {rules : LengthRules} (h : rules.Marked) (text : String) :
    (rules.message text).latestMessage = some text := by
  rw [LengthRules.latestMessage, latest_message]
  cases last : rules.latest with
  | none =>
    show (rules.message text).kindMessage = some text
    rw [kindMessage_message, if_pos last]
  | some side =>
    obtain ⟨b, found⟩ := h side last
    show ((rules.message text).bound side).bind LengthBound.message = some text
    rw [bound_message, if_pos last, found]
    rfl

end LengthRules

/-! ## What the bounds report -/

namespace LengthSide

/-- Does a length lie beyond a bound of the side? -/
def violated (side : LengthSide) (bound length : Nat) : Bool :=
  match side with
  | .least => decide (length < bound)
  | .greatest => decide (bound < length)

def issue (side : LengthSide) (path : Path) (b : LengthBound) (length : Nat) : Issue :=
  match side with
  | .least => LengthRules.issue "at least" "min_items" path b length
  | .greatest => LengthRules.issue "at most" "max_items" path b length

end LengthSide

namespace LengthRules

/-- The issue of a side with a bound that a length violates. -/
def report (rules : LengthRules) (path : Path) (length : Nat) (side : LengthSide) : List Issue :=
  match rules.bound side with
  | some b => if side.violated b.length length then [side.issue path b length] else []
  | none => []

theorem issues_eq_report (rules : LengthRules) (path : Path) (length : Nat) :
    rules.issues path length =
      rules.report path length .least ++ rules.report path length .greatest := by
  obtain ⟨kindMessage, least, greatest, latest⟩ := rules
  cases least <;> cases greatest <;>
    simp [issues, report, bound, LengthSide.violated, LengthSide.issue]

theorem report_eq_nil_iff (rules : LengthRules) (path : Path) (length : Nat) (side : LengthSide) :
    rules.report path length side = [] ↔
      ∀ b, rules.bound side = some b → side.violated b.length length = false := by
  rw [report]
  cases rules.bound side with
  | none => exact ⟨nofun, fun _ => rfl⟩
  | some b => simp

end LengthRules

end Conform
