import Conform.Number.Rounding

/-!
# Binary64 numbers

A finite binary64 number is a sign and a magnitude.  A magnitude counts units of `2 ^ (-1074)`,
the least positive binary64 number, as `significand * 2 ^ exponent`; the bounds in its type leave
one such form for every magnitude, so equal magnitudes are equal structures.

Order and arithmetic go through the number of units, which is exact; an operation computes its
exact result and rounds it once.  Equality of the structure tells `-0` from `0` and has a single
`nan`; numeric equality is `Binary64.equal`.
-/

set_option autoImplicit false

namespace Conform

structure Magnitude where
  significand : Nat
  exponent : Nat
  significand_lt : significand < 1 <<< 53
  exponent_le : exponent ≤ 2045
  normal : exponent = 0 ∨ 1 <<< 52 ≤ significand
deriving DecidableEq

namespace Magnitude

def unitsPerOne : Nat := 1 <<< 1074

def units (x : Magnitude) : Nat := x.significand <<< x.exponent

def zero : Magnitude := ⟨0, 0, by decide, by decide, .inl rfl⟩

/-- The magnitude of a significand and an exponent in normal form. -/
def ofParts? (significand exponent : Nat) : Option Magnitude :=
  if h : significand < 1 <<< 53 ∧ exponent ≤ 2045 ∧ (exponent = 0 ∨ 1 <<< 52 ≤ significand) then
    some ⟨significand, exponent, h.1, h.2.1, h.2.2⟩
  else none

/-- The magnitude nearest to `num / den` units, or nothing beyond the largest one. -/
def nearest? (num den : Nat) : Option Magnitude :=
  let (significand, exponent) := roundQuotient 53 num den
  ofParts? significand exponent

def floor (x : Magnitude) : Nat := x.units / unitsPerOne

def isWhole (x : Magnitude) : Bool := x.units % unitsPerOne == 0

end Magnitude

/-- A binary64 number.  The payload of a `nan` is not kept. -/
inductive Binary64 where
  | nan
  | infinity (negative : Bool)
  | finite (negative : Bool) (magnitude : Magnitude)
deriving DecidableEq

namespace Binary64

def zero : Binary64 := .finite false .zero

instance : Inhabited Binary64 := ⟨zero⟩

def isNaN : Binary64 → Bool
  | .nan => true
  | _ => false

def isFinite : Binary64 → Bool
  | .finite .. => true
  | _ => false

def signedUnits (negative : Bool) (x : Magnitude) : Int :=
  if negative then -(x.units : Int) else x.units

/-! ## Order -/

/-- Numeric equality: a `nan` equals nothing, and the two zeros are equal. -/
def equal : Binary64 → Binary64 → Bool
  | .infinity s, .infinity t => s == t
  | .finite s x, .finite t y => signedUnits s x == signedUnits t y
  | _, _ => false

/-- Numeric order; it holds of no pair with a `nan` in it. -/
def less : Binary64 → Binary64 → Bool
  | .infinity s, .infinity t => s && !t
  | .infinity s, .finite _ _ => s
  | .finite _ _, .infinity t => !t
  | .finite s x, .finite t y => decide (signedUnits s x < signedUnits t y)
  | _, _ => false

def lessOrEqual (a b : Binary64) : Bool := less a b || equal a b

/-- The greater of two numbers, the second of two equal ones; a `nan` gives way to the other. -/
def larger (a b : Binary64) : Binary64 :=
  if b.isNaN || less b a then a else b

/-- The lesser of two numbers, the second of two equal ones; a `nan` gives way to the other. -/
def smaller (a b : Binary64) : Binary64 :=
  if b.isNaN || less a b then a else b

/-- The number raised to `low` and then lowered to `high`. -/
def clamp (a low high : Binary64) : Binary64 :=
  smaller (larger a low) high

/-! ## Arithmetic -/

/-- The number nearest to `num / den` units, an infinity where the magnitudes end. -/
def ofUnits (negative : Bool) (num den : Nat) : Binary64 :=
  match Magnitude.nearest? num den with
  | some x => .finite negative x
  | none => .infinity negative

def ofInt (n : Int) : Binary64 :=
  ofUnits (decide (n < 0)) (n.natAbs * Magnitude.unitsPerOne) 1

def ofNat (n : Nat) : Binary64 := ofInt n

def neg : Binary64 → Binary64
  | .nan => .nan
  | .infinity s => .infinity (!s)
  | .finite s x => .finite (!s) x

/-- The rounded sum.  An exact zero is negative only when both numbers are. -/
def add : Binary64 → Binary64 → Binary64
  | .nan, _ => .nan
  | _, .nan => .nan
  | .infinity s, .infinity t => if s == t then .infinity s else .nan
  | .infinity s, .finite _ _ => .infinity s
  | .finite _ _, .infinity t => .infinity t
  | .finite s x, .finite t y =>
    let sum := signedUnits s x + signedUnits t y
    if sum = 0 then .finite (s && t) .zero else ofUnits (decide (sum < 0)) sum.natAbs 1

def mul : Binary64 → Binary64 → Binary64
  | .nan, _ => .nan
  | _, .nan => .nan
  | .infinity s, .infinity t => .infinity (s != t)
  | .infinity s, .finite t y => if y.units = 0 then .nan else .infinity (s != t)
  | .finite s x, .infinity t => if x.units = 0 then .nan else .infinity (s != t)
  | .finite s x, .finite t y => ofUnits (s != t) (x.units * y.units) Magnitude.unitsPerOne

def div : Binary64 → Binary64 → Binary64
  | .nan, _ => .nan
  | _, .nan => .nan
  | .infinity _, .infinity _ => .nan
  | .infinity s, .finite t _ => .infinity (s != t)
  | .finite s _, .infinity t => .finite (s != t) .zero
  | .finite s x, .finite t y =>
    if y.units = 0 then
      if x.units = 0 then .nan else .infinity (s != t)
    else ofUnits (s != t) (x.units * Magnitude.unitsPerOne) y.units

/-! ## Whole numbers -/

/-- No fractional part; false of a `nan` and of the infinities. -/
def isWhole : Binary64 → Bool
  | .finite _ x => x.isWhole
  | _ => false

/-- The whole number next to a finite number on the side of zero. -/
def truncate? : Binary64 → Option Int
  | .finite s x => some (if s then -(x.floor : Int) else x.floor)
  | _ => none

/-- Below this magnitude every whole number is a binary64 number. -/
def wholeLimit : Nat := 1 <<< 53

/-- The integer that a whole number of magnitude below `2 ^ 53` stands for. -/
def smallWhole? : Binary64 → Option Int
  | .finite s x =>
    if x.isWhole && decide (x.floor < wholeLimit) then
      some (if s then -(x.floor : Int) else x.floor)
    else none
  | _ => none

/-- Told apart from `0` by its sign alone. -/
def isNegativeZero : Binary64 → Bool
  | .finite s x => s && x.units == 0
  | _ => false

end Binary64

end Conform
