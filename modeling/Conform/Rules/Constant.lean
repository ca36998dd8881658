import Conform.Fault
import Conform.Issue

/-!
# Constants

A constant is a scalar that equals itself.  A literal is one constant, an enumeration is a list of
constants that is not empty; a value conforms when it equals one of them.
-/

set_option autoImplicit false

namespace Conform

structure Constant where
  value : Value
  isScalar : value.isScalar = true
  notNaN : value.isNaN = false

namespace Constant

def of? (v : Value) : Option Constant :=
  if h : v.isScalar = true ∧ v.isNaN = false then some ⟨v, h.1, h.2⟩ else none

end Constant

structure Literal where
  constant : Constant
  message : Option String

namespace Literal

def of (v : Value) : Except BuildFault Literal :=
  match Constant.of? v with
  | some c => .ok ⟨c, none⟩
  | none => .error (if v.isScalar then .literalNaN else .literalNotScalar v.kindName)

def mismatch (l : Literal) (path : Path) (v : Value) : Issue where
  path := path
  message := l.message.getD
    ("Expecting literal '" ++ l.constant.value.display ++ "'. Got '" ++ v.display ++ "'.")
  code := "invalid_literal"
  expected := some l.constant.value.display
  got := some v.display

end Literal

structure Enumeration where
  members : List Constant
  nonempty : members ≠ []
  message : Option String

namespace Enumeration

def membersFrom (position : Nat) : List Value → Except BuildFault (List Constant)
  | [] => .ok []
  | v :: rest =>
    match Constant.of? v with
    | some c => (membersFrom (position + 1) rest).map (c :: ·)
    | none => .error (.memberNotScalar position v.kindName)

def of (values : List Value) : Except BuildFault Enumeration := do
  let members ← membersFrom 0 values
  if h : members = [] then .error .enumerationEmpty else .ok ⟨members, h, none⟩

def values (e : Enumeration) : List Value := e.members.map Constant.value

def has (e : Enumeration) (v : Value) : Bool := e.values.any fun member => member.equal v

def display (e : Enumeration) : String := ", ".intercalate (e.values.map Value.display)

def mismatch (e : Enumeration) (path : Path) (v : Value) : Issue where
  path := path
  message := e.message.getD
    ("Expecting value to be one of '" ++ e.display ++ "'. Got '" ++ v.display ++ "'.")
  code := "invalid_enum"
  expected := some ("one of " ++ e.display)
  got := some v.display

end Enumeration

end Conform
