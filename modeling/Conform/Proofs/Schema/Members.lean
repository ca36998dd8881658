import Conform.Schema.Members

/-!
# The members that calls leave

However the calls that add a member and those that set a message are mixed, the members are those
that were there and then the added ones in the order of their calls, and the message is the last
one.
-/

set_option autoImplicit false

namespace Conform.Members

variable {α : Type}

inductive Call (α : Type) where
  | add (member : α)
  | message (text : String)

namespace Call

def apply (m : Members α) : Call α → Members α
  | add member => m.add member
  | message text => m.withMessage text

def member? : Call α → Option α
  | add member => some member
  | message _ => none

def text? : Call α → Option String
  | add _ => none
  | message text => some text

end Call

def after (m : Members α) (calls : List (Call α)) : Members α := calls.foldl Call.apply m

/-- The last message that is set, if one is. -/
def lastMessage (calls : List (Call α)) : Option String := (calls.filterMap Call.text?).getLast?

theorem after_eq (m : Members α) (calls : List (Call α)) :
    m.after calls =
      ⟨m.members ++ calls.filterMap Call.member?, (lastMessage calls).or m.message⟩ := by
  induction calls generalizing m with
  | nil =>
    rw [after, List.foldl_nil, List.filterMap_nil, List.append_nil]
    rfl
  | cons call rest ih =>
    have step : m.after (call :: rest) = (call.apply m).after rest := rfl
    rw [step, ih]
    cases call with
    | add member =>
      simp only [Call.apply, add, List.append_assoc, lastMessage, List.filterMap_cons, Call.member?,
        Call.text?, List.singleton_append]
    | message text =>
      simp only [Call.apply, withMessage, lastMessage, List.filterMap_cons, Call.member?,
        Call.text?, List.getLast?_cons, Option.some_or, mk.injEq, true_and]
      cases (rest.filterMap Call.text?).getLast? <;> rfl

variable {σ : Type}

/-- What a tuple, a union and an intersection are made of, whatever calls built them. -/
theorem schemas_after (first : List (Schema σ .value)) (calls : List (Call (Schema σ .value)))
    (components : List (Call (Schema σ .map))) :
    ((ofList first).after calls).tuple =
        .tuple (lastMessage calls) (first ++ calls.filterMap Call.member?) ∧
      ((ofList first).after calls).union =
        .union (lastMessage calls) (first ++ calls.filterMap Call.member?) ∧
      (empty.after components).intersection =
        .intersection (lastMessage components) (components.filterMap Call.member?) := by
  simp only [after_eq, ofList, empty, tuple, union, intersection, Option.or_none, List.nil_append,
    and_self]

end Conform.Members
