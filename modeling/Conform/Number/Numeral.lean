import Conform.Number.Decimal
import Conform.Text.Digits

/-!
# Numerals

What the text of a number says before it is rounded.  The grammar: an optional sign, then
`inf`, `infinity` or `nan` in any case of ASCII, or decimal digits with an optional point (digits
on at least one side of it) and an optional exponent.  Nothing else is a numeral, blanks included.
-/

set_option autoImplicit false

namespace Conform

inductive Numeral where
  | nan
  | infinity (negative : Bool)
  | decimal (negative : Bool) (value : Decimal)
deriving DecidableEq

namespace Numeral

/-- An optional sign; is it a minus? -/
def readSign : List Char → Bool × List Char
  | '-' :: rest => (true, rest)
  | '+' :: rest => (false, rest)
  | rest => (false, rest)

def readInteger? (text : List Char) : Option Int :=
  let (negative, digits) := readSign text
  if digits.isEmpty || !digits.all Char.isDigit then none
  else some (if negative then -(Text.digitsValue digits : Int) else Text.digitsValue digits)

/-- What follows the digits before the point and the point with the digits after it. -/
def readTail? : List Char → Option Int
  | [] => some 0
  | 'e' :: rest => readInteger? rest
  | 'E' :: rest => readInteger? rest
  | _ => none

def readDecimal? (text : List Char) : Option Decimal :=
  let whole := text.takeWhile Char.isDigit
  let afterWhole := text.dropWhile Char.isDigit
  let (fraction, rest) := match afterWhole with
    | '.' :: tail => (tail.takeWhile Char.isDigit, tail.dropWhile Char.isDigit)
    | tail => ([], tail)
  if whole.isEmpty && fraction.isEmpty then none
  else (readTail? rest).map fun exponent =>
    ⟨Text.digitsValue (whole ++ fraction), exponent - fraction.length⟩

def read? (text : String) : Option Numeral :=
  let (negative, body) := readSign text.toList
  let word := String.ofList (body.map Char.toLower)
  if word = "inf" ∨ word = "infinity" then some (.infinity negative)
  else if word = "nan" then some .nan
  else (readDecimal? body).map (.decimal negative)

def toBinary64 : Numeral → Binary64
  | .nan => .nan
  | .infinity s => .infinity s
  | .decimal s d => d.toBinary64 s

def toSingle : Numeral → Binary64
  | .nan => .nan
  | .infinity s => .infinity s
  | .decimal s d => d.toSingle s

end Numeral

/-- The number nearest to what the text says, if it is a numeral. -/
def Binary64.read? (text : String) : Option Binary64 :=
  (Numeral.read? text).map Numeral.toBinary64

end Conform
