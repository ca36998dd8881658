import Conform.Pattern.Basic

/-!
# Searching a text for a pattern

A pattern is followed through a text one character at a time.  `advance` gives the patterns that are
left after a character, and a list of such patterns without repetitions is all that a search has to
keep; the list stays short, because what is left of a pattern is made of parts of it.
-/

set_option autoImplicit false

namespace Conform.Pattern

/-- Does the pattern match the empty part at this boundary? -/
def matchesEmpty (before after : Option Char) : Pattern → Bool
  | empty => true
  | char _ => false
  | assert a => a.holds before after
  | seq p q => p.matchesEmpty before after && q.matchesEmpty before after
  | alt p q => p.matchesEmpty before after || q.matchesEmpty before after
  | star _ => true

/-- What is left of `p`, and then `q`. -/
def followedBy (p q : Pattern) : Pattern :=
  match p with
  | empty => q
  | p => seq p q

/-- The patterns that may match what follows `c` when this pattern matches from `c` on. -/
def advance (before : Option Char) (c : Char) : Pattern → List Pattern
  | empty => []
  | char k => if k.contains c then [empty] else []
  | assert _ => []
  | seq p q =>
    (p.advance before c).map (·.followedBy q)
      ++ if p.matchesEmpty before (some c) then q.advance before c else []
  | alt p q => p.advance before c ++ q.advance before c
  | star p => (p.advance before c).map (·.followedBy (star p))

def distinct : List Pattern → List Pattern
  | [] => []
  | p :: rest => if p ∈ rest then distinct rest else p :: distinct rest

/-- Does a match end at the current boundary or later, when one of `active` is what is left of a
match that has begun, or a match of `p` begins? -/
def searchFrom (p : Pattern) : (before : Option Char) → (active : List Pattern) → List Char → Bool
  | before, active, [] => (p :: active).any (matchesEmpty before none)
  | before, active, c :: rest =>
    (p :: active).any (matchesEmpty before (some c))
      || searchFrom p (some c) (distinct ((p :: active).flatMap (advance before c))) rest

def occursIn (p : Pattern) (text : String) : Bool := p.searchFrom none [] text.toList

end Conform.Pattern
