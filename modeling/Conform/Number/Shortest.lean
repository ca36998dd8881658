import Conform.Number.Decimal

/-!
# The shortest decimal that reads back

The multiples of `10 ^ e` form a grid.  Of a magnitude's two neighbours on a grid, the ones that
read back are those nearest to no other magnitude.  Going from coarse grids to fine ones, the first
grid with such a neighbour gives the fewest digits; of two such neighbours the nearer one is taken,
and a `Tie` says which of two equally near ones.
-/

set_option autoImplicit false

namespace Conform

/-- Which of two equally near neighbours is taken. -/
inductive Tie where
  | upper
  | even
deriving DecidableEq

namespace Magnitude

def readsBack (x : Magnitude) (d : Decimal) : Bool := decide (d.magnitude? = some x)

/-- The magnitude divided by `10 ^ exponent`, as a quotient of natural numbers. -/
def onGrid (x : Magnitude) (exponent : Int) : Nat × Nat :=
  if 0 ≤ exponent then (x.units, unitsPerOne * Nat.pow 10 exponent.toNat)
  else (x.units * Nat.pow 10 (-exponent).toNat, unitsPerOne)

/-- Is the neighbour above taken when both neighbours read back? -/
def prefersUpper (tie : Tie) (num den : Nat) : Bool :=
  let twice := 2 * (num % den)
  if twice < den then false
  else if den < twice then true
  else match tie with
    | .upper => true
    | .even => num / den % 2 == 1

/-- The neighbour on the grid of `10 ^ exponent` that reads back, if there is one. -/
def neighbour? (x : Magnitude) (tie : Tie) (exponent : Int) : Option Decimal :=
  let (num, den) := x.onGrid exponent
  let lower : Decimal := ⟨num / den, exponent⟩
  let upper : Decimal := ⟨num / den + 1, exponent⟩
  match x.readsBack lower, x.readsBack upper with
  | true, true => some (if prefersUpper tie num den then upper else lower)
  | true, false => some lower
  | false, true => some upper
  | false, false => none

/-- The first neighbour that reads back on `grids` grids, the exact decimal if there is none. -/
def firstNeighbour (x : Magnitude) (tie : Tie) : (grids : Nat) → (exponent : Int) → Decimal
  | 0, _ => x.toDecimal
  | grids + 1, exponent =>
    match x.neighbour? tie exponent with
    | some d => d
    | none => x.firstNeighbour tie grids (exponent - 1)

/-- An exponent whose power of ten is above the magnitude: `30103 / 100000` is just above the
decimal logarithm of two. -/
def coarsest (x : Magnitude) : Int :=
  ((x.units.log2 : Int) - 1073) * 30103 / 100000 + 1

/-- The shortest decimal that reads back.  Seventeen digits always do. -/
def shortest (x : Magnitude) (tie : Tie) : Decimal :=
  if x.units = 0 then ⟨0, 0⟩ else x.firstNeighbour tie 20 x.coarsest

end Magnitude

end Conform
