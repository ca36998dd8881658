import Conform.Issue

/-!
# Rules for the length of lists

A list has at most one least and one greatest length; setting a bound again replaces it together
with its message.  A message belongs to the bound that was set last.
-/

set_option autoImplicit false

namespace Conform

/-- A length, and the message that replaces the usual one. -/
structure LengthBound where
  length : Nat
  message : Option String

inductive LengthSide where
  | least
  | greatest
deriving DecidableEq

structure LengthRules where
  kindMessage : Option String
  least : Option LengthBound
  greatest : Option LengthBound
  /-- The bound that was set last. -/
  latest : Option LengthSide

namespace LengthRules

def empty : LengthRules := ⟨none, none, none, none⟩

def minLength (rules : LengthRules) (n : Nat) : LengthRules :=
  { rules with least := some ⟨n, none⟩, latest := some .least }

def maxLength (rules : LengthRules) (n : Nat) : LengthRules :=
  { rules with greatest := some ⟨n, none⟩, latest := some .greatest }

def nonEmpty (rules : LengthRules) : LengthRules := rules.minLength 1

/-- Sets the message of the bound that was set last, or the one for values of a wrong kind. -/
def message (rules : LengthRules) (message : String) : LengthRules :=
  match rules.latest with
  | some .least =>
    { rules with least := rules.least.map fun b => { b with message := some message } }
  | some .greatest =>
    { rules with greatest := rules.greatest.map fun b => { b with message := some message } }
  | none => { rules with kindMessage := some message }

/-- The issue of a bound that a length violates; `words` are those for the side of the bound. -/
def issue (words code : String) (path : Path) (b : LengthBound) (length : Nat) : Issue where
  path := path
  message := b.message.getD
    ("Expecting " ++ words ++ " " ++ toString b.length ++ " items. Got " ++ toString length ++ ".")
  code := code
  expected := some (words ++ " " ++ toString b.length ++ " items")
  got := some (toString length ++ " items")

/-- The issues of the violated bounds, the least length first. -/
def issues (rules : LengthRules) (path : Path) (length : Nat) : List Issue :=
  (match rules.least with
    | some b => if length < b.length then [issue "at least" "min_items" path b length] else []
    | none => [])
  ++ (match rules.greatest with
    | some b => if b.length < length then [issue "at most" "max_items" path b length] else []
    | none => [])

end LengthRules

end Conform
