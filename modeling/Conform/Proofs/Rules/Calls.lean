import Conform.Rules.Basic

/-!
# Building rules

Rules are built by calls that add a requirement or set a message.  Every call of the first sort
leaves a requirement, whether there is another with the same check or not, and its message is the
last of those that follow before the next requirement.  The messages before the first requirement
are for values of a wrong kind.
-/

set_option autoImplicit false

namespace Conform

/-! ## Messages in a row of calls -/

section Messages

variable {κ : Type} (text? : κ → Option String)

/-- The last of the messages with which a row of calls begins. -/
def leadingMessage (calls : List κ) : Option String :=
  ((calls.takeWhile fun c => (text? c).isSome).filterMap text?).getLast?

variable {text?}

theorem leadingMessage_cons_of_some {c : κ} {text : String} (h : text? c = some text)
    (rest : List κ) :
    leadingMessage text? (c :: rest) = (leadingMessage text? rest).or (some text) := by
  rw [leadingMessage, List.takeWhile_cons, h, Option.isSome_some, if_pos rfl,
    List.filterMap_cons_some h, List.getLast?_cons, leadingMessage]
  cases (rest.takeWhile fun c => (text? c).isSome).filterMap text? |>.getLast? <;> rfl

theorem leadingMessage_cons_of_none {c : κ} (h : text? c = none) (rest : List κ) :
    leadingMessage text? (c :: rest) = none := by
  rw [leadingMessage, List.takeWhile_cons, h]
  rfl

end Messages

namespace Rules

variable {κ : Type}

/-! ## Calls -/

inductive Call (κ : Type) where
  | require (check : κ)
  | message (text : String)

namespace Call

def apply (rules : Rules κ) : Call κ → Rules κ
  | require check => rules.require check
  | message text => rules.message text

def check? : Call κ → Option κ
  | require check => some check
  | message _ => none

def text? : Call κ → Option String
  | require _ => none
  | message text => some text

theorem text?_message (text : String) : (message text : Call κ).text? = some text := rfl

end Call

def after (rules : Rules κ) (calls : List (Call κ)) : Rules κ := calls.foldl Call.apply rules

/-- The rules that a row of calls builds. -/
def build (calls : List (Call κ)) : Rules κ := empty.after calls

/-- The requirements that calls demand, each with the last of the messages right after it. -/
def demanded : List (Call κ) → List (Requirement κ)
  | [] => []
  | .require check :: rest => ⟨check, leadingMessage Call.text? rest⟩ :: demanded rest
  | .message _ :: rest => demanded rest

theorem check_demanded (calls : List (Call κ)) :
    (demanded calls).map Requirement.check = calls.filterMap Call.check? := by
  induction calls with
  | nil => rfl
  | cons call rest ih =>
    cases call with
    | require check => exact congrArg (check :: ·) ih
    | message text => exact ih

/-! ## What calls build -/

theorem leadingMessage_require (check : κ) (rest : List (Call κ)) :
    leadingMessage Call.text? (.require check :: rest) = none :=
  leadingMessage_cons_of_none rfl rest

theorem leadingMessage_message (text : String) (rest : List (Call κ)) :
    leadingMessage Call.text? (.message text :: rest) =
      (leadingMessage Call.text? rest).or (some text) :=
  leadingMessage_cons_of_some (Call.text?_message text) rest

theorem messageLast_append (text : String) (rs : List (Requirement κ)) (r : Requirement κ) :
    messageLast text (rs ++ [r]) = rs ++ [{ r with message := some text }] := by
  induction rs with
  | nil => rfl
  | cons first rest ih =>
    -- There is a requirement after the first, so the first keeps its message.
    have passed : messageLast text (first :: (rest ++ [r])) =
        first :: messageLast text (rest ++ [r]) := by
      cases rest <;> rfl
    rw [List.cons_append, passed, ih, List.cons_append]

/-- With a last requirement in place, the messages up to the next one are for it. -/
theorem after_of_last (kindMessage : Option String) (rs : List (Requirement κ)) (check : κ)
    (message : Option String) (calls : List (Call κ)) :
    (⟨kindMessage, rs ++ [⟨check, message⟩]⟩ : Rules κ).after calls =
      ⟨kindMessage,
        rs ++ ⟨check, (leadingMessage Call.text? calls).or message⟩ :: demanded calls⟩ := by
  induction calls generalizing rs check message with
  | nil => rfl
  | cons call rest ih =>
    cases call with
    | require next =>
      have step : (⟨kindMessage, rs ++ [⟨check, message⟩]⟩ : Rules κ).after
            (.require next :: rest) =
          (⟨kindMessage, (rs ++ [⟨check, message⟩]) ++ [⟨next, none⟩]⟩ : Rules κ).after rest :=
        rfl
      rw [step, ih, leadingMessage_require, demanded]
      simp
    | message text =>
      have step : (⟨kindMessage, rs ++ [⟨check, message⟩]⟩ : Rules κ).after
            (.message text :: rest) =
          (⟨kindMessage, rs ++ [⟨check, some text⟩]⟩ : Rules κ).after rest := by
        simp [after, Call.apply, Rules.message, messageLast_append]
      rw [step, ih, leadingMessage_message, demanded]
      simp

theorem after_of_empty (kindMessage : Option String) (calls : List (Call κ)) :
    (⟨kindMessage, []⟩ : Rules κ).after calls =
      ⟨(leadingMessage Call.text? calls).or kindMessage, demanded calls⟩ := by
  induction calls generalizing kindMessage with
  | nil => rfl
  | cons call rest ih =>
    cases call with
    | require check =>
      have step : (⟨kindMessage, []⟩ : Rules κ).after (.require check :: rest) =
          (⟨kindMessage, [] ++ [⟨check, none⟩]⟩ : Rules κ).after rest := rfl
      rw [step, after_of_last, leadingMessage_require, demanded]
      simp
    | message text =>
      have step : (⟨kindMessage, []⟩ : Rules κ).after (.message text :: rest) =
          (⟨some text, []⟩ : Rules κ).after rest := rfl
      rw [step, ih, leadingMessage_message, demanded]
      simp

theorem build_eq (calls : List (Call κ)) :
    build calls = ⟨leadingMessage Call.text? calls, demanded calls⟩ := by
  rw [build, empty, after_of_empty, Option.or_none]

end Rules

end Conform
