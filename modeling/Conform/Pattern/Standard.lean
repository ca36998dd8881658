import Conform.Pattern.Basic

/-!
# Patterns of common texts

Both patterns are anchored, so they describe whole texts.
-/

set_option autoImplicit false

namespace Conform.Pattern

def asciiLetter : CharClass := .ofRanges [('a', 'z'), ('A', 'Z')]

def asciiAlphanumeric : CharClass := .ofRanges [('a', 'z'), ('A', 'Z'), ('0', '9')]

def hexDigit : CharClass := .ofRanges [('0', '9'), ('a', 'f'), ('A', 'F')]

/-- The whole text. -/
def anchored (p : Pattern) : Pattern := seq (assert .textStart) (seq p (assert .textEnd))

def mailNameChar : CharClass :=
  .union asciiAlphanumeric
    (.ofRanges [('.', '.'), ('_', '_'), ('%', '%'), ('+', '+'), ('-', '-')])

def mailHostChar : CharClass := .union asciiAlphanumeric (.ofRanges [('.', '.'), ('-', '-')])

/-- A name, `@`, a host, a dot, and two letters or more. -/
def email : Pattern :=
  anchored (sequence
    [plus (char mailNameChar), literal '@', plus (char mailHostChar), literal '.',
      repeated (char asciiLetter) 2 none])

/-- Hexadecimal digits in groups of 8, 4, 4, 4 and 12, with hyphens between the groups. -/
def uuid : Pattern :=
  let digits (n : Nat) : Pattern := times (char hexDigit) n
  anchored (sequence
    [digits 8, literal '-', digits 4, literal '-', digits 4, literal '-', digits 4, literal '-',
      digits 12])

end Conform.Pattern
