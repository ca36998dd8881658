import Conform.Pattern.CharClass

/-!
# Patterns

A pattern describes parts of a text.  What a part may be depends on the characters next to it,
because an assertion holds of a boundary: `before` and `after` are the characters on its two sides,
or nothing at the ends of the text.  `Pattern.Matches` is the meaning of a pattern.
-/

set_option autoImplicit false

namespace Conform

/-- A condition on a boundary between two characters. -/
inductive Assertion where
  | textStart
  | textEnd
  | lineStart
  | lineEnd
  | wordBoundary
  | wordInterior
deriving DecidableEq

namespace Assertion

/-- Is there a word character on this side of the boundary? -/
def touchesWord : Option Char → Bool
  | some c => Unicode.isWord c
  | none => false

def holds (before after : Option Char) : Assertion → Bool
  | textStart => before.isNone
  | textEnd => after.isNone
  | lineStart => before.isNone || before == some '\n'
  | lineEnd => after.isNone || after == some '\n'
  | wordBoundary => touchesWord before != touchesWord after
  | wordInterior => touchesWord before == touchesWord after

end Assertion

inductive Pattern where
  | empty
  | char (c : CharClass)
  | assert (a : Assertion)
  | seq (p q : Pattern)
  | alt (p q : Pattern)
  | star (p : Pattern)
deriving DecidableEq

namespace Pattern

/-- The pattern matches the text between `before` and `after`. -/
inductive Matches : (before : Option Char) → Pattern → List Char → (after : Option Char) → Prop
  | empty {before after} : Matches before empty [] after
  | char {before after k c} : k.contains c = true → Matches before (char k) [c] after
  | assert {before after a} : a.holds before after = true → Matches before (assert a) [] after
  | seq {before after p q s t} :
      Matches before p s (t.head?.or after) → Matches (s.getLast?.or before) q t after →
      Matches before (seq p q) (s ++ t) after
  | altLeft {before after p q s} : Matches before p s after → Matches before (alt p q) s after
  | altRight {before after p q s} : Matches before q s after → Matches before (alt p q) s after
  | starNil {before after p} : Matches before (star p) [] after
  | starCons {before after p s t} :
      Matches before p s (t.head?.or after) → Matches (s.getLast?.or before) (star p) t after →
      Matches before (star p) (s ++ t) after

def OccursIn (p : Pattern) (text : List Char) : Prop :=
  ∃ left part right, text = left ++ part ++ right ∧ Matches left.getLast? p part right.head?

/-! ## Building patterns -/

def sequence : List Pattern → Pattern
  | [] => empty
  | [p] => p
  | p :: rest => seq p (sequence rest)

/-- One of them; nothing stands for the empty list. -/
def choice : List Pattern → Pattern
  | [] => char .nothing
  | [p] => p
  | p :: rest => alt p (choice rest)

def optional (p : Pattern) : Pattern := alt p empty

def plus (p : Pattern) : Pattern := seq p (star p)

def times (p : Pattern) : Nat → Pattern
  | 0 => empty
  | 1 => p
  | n + 1 => seq p (p.times n)

def upTo (p : Pattern) : Nat → Pattern
  | 0 => empty
  | 1 => p.optional
  | n + 1 => optional (seq p (p.upTo n))

/-- At least `low` times, and at most `high` times if there is such a bound. -/
def repeated (p : Pattern) (low : Nat) : (high : Option Nat) → Pattern
  | some high => if high ≤ low then p.times low else if low = 0 then p.upTo high
      else seq (p.times low) (p.upTo (high - low))
  | none => if low = 0 then star p else seq (p.times low) (star p)

def literal (c : Char) : Pattern := char (.single c)

end Pattern

end Conform
