import Conform.Unicode.CaseFolding
import Conform.Unicode.Digit
import Conform.Unicode.WhiteSpace
import Conform.Unicode.Word

/-!
# Classes of characters

A class is an expression over ranges of code points and the classes of digits, white space and word
characters; `contains` says what it means.
-/

set_option autoImplicit false

namespace Conform

inductive CharClass where
  | nothing
  | range (low high : Char)
  | digit
  | space
  | word
  | union (a b : CharClass)
  | inter (a b : CharClass)
  | complement (a : CharClass)
  /-- The characters that differ from a member in case alone, the members included. -/
  | caseless (a : CharClass)
deriving DecidableEq

namespace CharClass

def contains : CharClass → Char → Bool
  | nothing, _ => false
  | range low high, c => decide (low.toNat ≤ c.toNat) && decide (c.toNat ≤ high.toNat)
  | digit, c => Unicode.isDigit c
  | space, c => Unicode.isWhiteSpace c
  | word, c => Unicode.isWord c
  | union a b, c => a.contains c || b.contains c
  | inter a b, c => a.contains c && b.contains c
  | complement a, c => !a.contains c
  | caseless a, c => a.contains c || (Unicode.caseVariants c.toNat).any fun n =>
    a.contains (.ofNat n)

def single (c : Char) : CharClass := range c c

def all : CharClass := complement nothing

def ofRanges (ranges : List (Char × Char)) : CharClass :=
  ranges.foldr (fun r rest => union (range r.1 r.2) rest) nothing

def difference (a b : CharClass) : CharClass := inter a (complement b)

def symmetricDifference (a b : CharClass) : CharClass :=
  difference (union a b) (inter a b)

/-- The class read without regard to case: every range takes in its case variants, before any
complement is formed. -/
def ignoringCase : CharClass → CharClass
  | nothing => nothing
  | range low high => caseless (range low high)
  | digit => digit
  | space => space
  | word => word
  | union a b => union a.ignoringCase b.ignoringCase
  | inter a b => inter a.ignoringCase b.ignoringCase
  | complement a => complement a.ignoringCase
  | caseless a => caseless a

end CharClass

end Conform
