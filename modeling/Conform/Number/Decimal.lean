import Conform.Number.Binary64

/-!
# Decimals

A decimal is a row of digits and the power of ten of its last digit.  It has a nearest binary64
magnitude; every magnitude is a decimal exactly, because a unit is `5 ^ 1074 * 10 ^ (-1074)`.
-/

set_option autoImplicit false

namespace Conform

/-- The value `digits * 10 ^ exponent`. -/
structure Decimal where
  digits : Nat
  exponent : Int
deriving DecidableEq

namespace Decimal

/-- From this power of ten on every nonzero decimal is beyond the largest magnitude, and below its
opposite every decimal is nearest to zero. -/
def exponentLimit : Nat := 400

def quotient (d : Decimal) : Nat × Nat :=
  if 0 ≤ d.exponent then (d.digits * Nat.pow 10 d.exponent.toNat, 1)
  else (d.digits, Nat.pow 10 (-d.exponent).toNat)

/-- The magnitude nearest to the decimal, or nothing beyond the largest one.  The two limits only
save the computation of huge powers of ten. -/
def magnitude? (d : Decimal) : Option Magnitude :=
  if d.digits = 0 then some .zero
  else if exponentLimit < d.exponent then none
  else if d.exponent < -((d.digits.log2 + exponentLimit : Nat) : Int) then some .zero
  else Magnitude.nearest? (d.quotient.1 * Magnitude.unitsPerOne) d.quotient.2

/-- The binary64 number nearest to the decimal, an infinity where the magnitudes end. -/
def toBinary64 (negative : Bool) (d : Decimal) : Binary64 :=
  match d.magnitude? with
  | some x => .finite negative x
  | none => .infinity negative

/-- The number of units in the least positive number of single precision, `2 ^ (-149)`. -/
def singleUnit : Nat := 1 <<< 925

def toSingle (negative : Bool) (d : Decimal) : Binary64 :=
  if d.digits = 0 then .finite negative .zero
  else if exponentLimit < d.exponent then .infinity negative
  else if d.exponent < -((d.digits.log2 + exponentLimit : Nat) : Int) then .finite negative .zero
  else
    let (significand, exponent) := roundQuotient 24 (d.quotient.1 <<< 149) d.quotient.2
    if 253 < exponent then .infinity negative
    else .ofUnits negative (significand <<< exponent * singleUnit) 1

end Decimal

def Magnitude.toDecimal (x : Magnitude) : Decimal := ⟨x.units * Nat.pow 5 1074, -1074⟩

end Conform
