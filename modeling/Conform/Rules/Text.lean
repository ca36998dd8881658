import Conform.Fault
import Conform.Rules.Basic

/-!
# Rules for texts

Lengths count characters.  A pattern may occur anywhere in the text.  Which written patterns there
are and where they occur is for their compiler to say, and every definition here is for any one.
-/

set_option autoImplicit false

namespace Conform

/-- Makes of a written pattern the test of whether it occurs in a text, or says why it cannot. -/
abbrev PatternCompiler := String → Except String (String → Bool)

inductive TextCheck where
  | minLength (length : Nat)
  | maxLength (length : Nat)
  | pattern (written : String) (occursIn : String → Bool)

namespace TextCheck

def holds (s : String) : TextCheck → Bool
  | minLength n => decide (n ≤ s.length)
  | maxLength n => decide (s.length ≤ n)
  | pattern _ occursIn => occursIn s

def code : TextCheck → String
  | minLength _ => "min_length"
  | maxLength _ => "max_length"
  | pattern .. => "pattern"

def expected : TextCheck → String
  | minLength n => "at least " ++ toString n ++ " characters"
  | maxLength n => "at most " ++ toString n ++ " characters"
  | pattern written _ => "string matching '" ++ written ++ "'"

def got (s : String) : TextCheck → String
  | pattern .. => s
  | _ => toString s.length ++ " characters"

def message (s : String) : TextCheck → String
  | minLength n =>
    "Expecting length to be at least " ++ toString n ++ ". Got " ++ toString s.length ++ "."
  | maxLength n =>
    "Expecting length to be at most " ++ toString n ++ ". Got " ++ toString s.length ++ "."
  | pattern written _ => "Expecting string to match pattern '" ++ written ++ "'."

def violation? (c : TextCheck) (s : String) : Option Violation :=
  if c.holds s then none else some ⟨c.code, c.expected, c.got s, c.message s⟩

end TextCheck

abbrev TextRules := Rules TextCheck

namespace TextRules

def minLength (rules : TextRules) (n : Nat) : TextRules := rules.require (.minLength n)

def maxLength (rules : TextRules) (n : Nat) : TextRules := rules.require (.maxLength n)

def nonEmpty (rules : TextRules) : TextRules := rules.minLength 1

/-- Requires an occurrence of a written pattern, which has to compile. -/
def matching (compile : PatternCompiler) (rules : TextRules) (written : String) :
    Except BuildFault TextRules :=
  match compile written with
  | .ok occursIn => .ok (rules.require (.pattern written occursIn))
  | .error reason => .error (.patternUnreadable reason)

end TextRules

end Conform
