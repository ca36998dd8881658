/-!
# Rounding a quotient to a fixed number of bits

A quotient of natural numbers is rounded to the nearest number of the form
`significand * 2 ^ exponent` whose significand has at most `bits` bits, a half going to the even
significand.  The exponent is the least one that leaves so few bits, so two quotients of one value
have one rounding.
-/

set_option autoImplicit false

namespace Conform

/-- The natural number nearest to `num / den`; a half goes to the even neighbour. -/
def divNearest (num den : Nat) : Nat :=
  let quotient := num / den
  let twice := 2 * (num % den)
  if twice < den then quotient
  else if den < twice then quotient + 1
  else quotient + quotient % 2

/-- How many of the low bits of `n` have to go so that `bits` of them are left. -/
def excessBits (bits n : Nat) : Nat :=
  n.log2 + 1 - bits

/-- The significand and the exponent nearest to `num / den`.  A significand that rounds up to
`2 ^ bits` moves to the next exponent. -/
def roundQuotient (bits num den : Nat) : Nat × Nat :=
  let exponent := excessBits bits (num / den)
  let significand := divNearest num (den <<< exponent)
  if significand = 1 <<< bits then (1 <<< (bits - 1), exponent + 1) else (significand, exponent)

end Conform
