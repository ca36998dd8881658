import Conform.Json.Basic
import Conform.Number.Decimal
import Conform.Text.Digits

/-!
# Numbers of JSON documents

A number without a point and without an exponent is an integer as long as 64 bits hold it.  The
digits of any other number go into a significand of 64 bits until one does not fit; the digits after
it only count as powers of ten.  The significand is then scaled by a power of ten in binary64
arithmetic, which is not always the nearest binary64 number to the text.
-/

set_option autoImplicit false

namespace Conform.Json

structure Written where
  negative : Bool
  whole : List Char
  fraction : List Char
  exponent : Option Int

/-- The first number that 64 bits do not hold. -/
def wordLimit : Nat := 1 <<< 64

/-- Appends digits to a significand until one does not fit, and counts the ones that did. -/
def absorb (significand : Nat) : List Char → Nat × Nat
  | [] => (significand, 0)
  | c :: rest =>
    let next := 10 * significand + Text.digitValue c
    if next < wordLimit then
      let (result, count) := absorb next rest
      (result, count + 1)
    else (significand, 0)

def powerOfTen (n : Nat) : Binary64 := (Decimal.mk 1 n).toBinary64 false

/-- The greatest power of ten that is a finite binary64 number. -/
def maxPower : Nat := 308

/-- A significand times a power of ten, or nothing beyond the finite numbers.  A division by two
greatest powers of ten leaves nothing of a significand of 64 bits. -/
def scale? (significand : Nat) (exponent : Int) : Option Binary64 :=
  let x := Binary64.ofNat significand
  if 0 ≤ exponent then
    if significand = 0 then some x
    else if maxPower < exponent then none
    else
      let y := x.mul (powerOfTen exponent.toNat)
      if y.isFinite then some y else none
  else if -(maxPower : Int) ≤ exponent then some (x.div (powerOfTen (-exponent).toNat))
  else
    let y := x.div (powerOfTen maxPower)
    if -(2 * maxPower : Int) ≤ exponent then
      some (y.div (powerOfTen (-(exponent + maxPower)).toNat))
    else some .zero

namespace Written

def sign (w : Written) (x : Binary64) : Binary64 := if w.negative then x.neg else x

/-- The integer, if the number is one that 64 bits hold; the negative zero is not. -/
def integer? (w : Written) : Option Int :=
  let n := Text.digitsValue w.whole
  if !w.fraction.isEmpty || w.exponent.isSome then none
  else if w.negative then if 0 < n ∧ n ≤ 1 <<< 63 then some (-n) else none
  else if n < wordLimit then some n else none

def float? (w : Written) : Option Binary64 :=
  let (significand, wholeCount) := absorb 0 w.whole
  let (significand, fractionCount) := absorb significand w.fraction
  let exponent : Int :=
    (w.whole.length - wholeCount : Nat) - (fractionCount : Int) + w.exponent.getD 0
  (scale? significand exponent).map w.sign

def json? (w : Written) : Option Json :=
  match w.integer? with
  | some n => some (.integer n)
  | none => w.float?.map .float

end Written

/-- The digits of a whole part and what follows it: a zero stands alone. -/
def readWhole? : List Char → Option (List Char × List Char)
  | '0' :: rest => if (rest.head?.map Char.isDigit).getD false then none else some (['0'], rest)
  | text =>
    let digits := text.takeWhile Char.isDigit
    if digits.isEmpty then none else some (digits, text.dropWhile Char.isDigit)

def readFraction? : List Char → Option (List Char × List Char)
  | '.' :: rest =>
    let digits := rest.takeWhile Char.isDigit
    if digits.isEmpty then none else some (digits, rest.dropWhile Char.isDigit)
  | rest => some ([], rest)

/-- The digits of an exponent after its letter. -/
def readExponentDigits? (text : List Char) : Option (Option Int × List Char) :=
  let (negative, text) := match text with
    | '-' :: rest => (true, rest)
    | '+' :: rest => (false, rest)
    | rest => (false, rest)
  let digits := text.takeWhile Char.isDigit
  if digits.isEmpty then none
  else
    let n : Int := Text.digitsValue digits
    some (some (if negative then -n else n), text.dropWhile Char.isDigit)

def readExponent? : List Char → Option (Option Int × List Char)
  | 'e' :: rest => readExponentDigits? rest
  | 'E' :: rest => readExponentDigits? rest
  | rest => some (none, rest)

def readNumber? (text : List Char) : Option (Json × List Char) := do
  let (negative, text) := match text with
    | '-' :: rest => (true, rest)
    | rest => (false, rest)
  let (whole, text) ← readWhole? text
  let (fraction, text) ← readFraction? text
  let (exponent, text) ← readExponent? text
  (Written.json? ⟨negative, whole, fraction, exponent⟩).map (·, text)

end Conform.Json
