import Conform.Number.Shortest

/-!
# How numbers are written

A style fixes what the shortest digits leave open: which values are written positionally, the mark
of a whole number, which way ties go, the words for the values that are not finite.  There are two:
`NumberStyle.display` for texts and messages, `NumberStyle.json` for JSON.
-/

set_option autoImplicit false

namespace Conform

structure NumberStyle where
  tie : Tie
  /-- The positions of the decimal point, counted from the first digit, that are written
  positionally; every position when there is no range. -/
  positional : Option (Int × Int)
  /-- Written after a whole number in positional form. -/
  wholeMark : String
  nan : String
  infinity : String

namespace NumberStyle

/-- Always positional, whole numbers without a point. -/
def display : NumberStyle where
  tie := .upper
  positional := none
  wholeMark := ""
  nan := "NaN"
  infinity := "Infinity"

/-- Positional from `1e-5` up to `1e16`, where a whole number keeps `.0`; beyond it scientific. -/
def json : NumberStyle where
  tie := .even
  positional := some (-4, 16)
  wholeMark := ".0"
  nan := "NaN"
  infinity := "inf"

/-- The digits with the decimal point at `point`, counted from the first digit. -/
def writePositional (style : NumberStyle) (digits : List Char) (point : Int) : String :=
  if point ≤ 0 then
    "0." ++ String.ofList (List.replicate (-point).toNat '0' ++ digits)
  else
    let whole := digits.take point.toNat
    let zeros := List.replicate (point.toNat - digits.length) '0'
    let fraction := digits.drop point.toNat
    if fraction.isEmpty then String.ofList (whole ++ zeros) ++ style.wholeMark
    else String.ofList whole ++ "." ++ String.ofList fraction

/-- One digit before the point, and the exponent with its sign. -/
def writeScientific (digits : List Char) (point : Int) : String :=
  let fraction := digits.drop 1
  let exponent := point - 1
  String.ofList (digits.take 1)
    ++ (if fraction.isEmpty then "" else "." ++ String.ofList fraction)
    ++ (if exponent < 0 then "e-" else "e+") ++ toString exponent.natAbs

def writeDecimal (style : NumberStyle) (d : Decimal) : String :=
  let digits := Nat.toDigits 10 d.digits
  let point := (digits.length : Int) + d.exponent
  match style.positional with
  | none => style.writePositional digits point
  | some (low, high) =>
    if low ≤ point ∧ point ≤ high then style.writePositional digits point
    else writeScientific digits point

def write (style : NumberStyle) : Binary64 → String
  | .nan => style.nan
  | .infinity s => (if s then "-" else "") ++ style.infinity
  | .finite s x => (if s then "-" else "") ++ style.writeDecimal (x.shortest style.tie)

end NumberStyle

/-- The text of a number in displays and messages. -/
def Binary64.display (x : Binary64) : String := NumberStyle.display.write x

end Conform
