import Conform.Calendar.Instant
import Conform.Text.Blank
import Conform.Text.Digits

/-!
# Plain dates

A plain date is written year, month and day with hyphens between them, and stands for midnight in
UTC.  White space may precede each number.  A month or a day has one or two digits; a year has up to
four, or any number of them after a sign.
-/

set_option autoImplicit false

namespace Conform.PlainDate

/-- A number of at most so many digits, the longest that there is, and what follows it. -/
def readNumber? (width : Nat) (text : List Char) : Option (Nat × List Char) :=
  let digits := (text.take width).takeWhile Char.isDigit
  if digits.isEmpty then none else some (Text.digitsValue digits, text.drop digits.length)

def readYear? (text : List Char) : Option (Int × List Char) :=
  match Text.trimLeft text with
  | '-' :: rest => (readNumber? rest.length rest).map fun (n, rest) => (-(n : Int), rest)
  | '+' :: rest => (readNumber? rest.length rest).map fun (n, rest) => ((n : Int), rest)
  | rest => (readNumber? 4 rest).map fun (n, rest) => ((n : Int), rest)

/-- A hyphen, a month or a day, and what follows it. -/
def readPart? : List Char → Option (Nat × List Char)
  | '-' :: rest => readNumber? 2 (Text.trimLeft rest)
  | _ => none

def read? (text : String) : Option Instant := do
  let (year, rest) ← readYear? text.toList
  let (month, rest) ← readPart? rest
  let (day, rest) ← readPart? rest
  if rest.isEmpty ∧ (Date.mk year month day).isValid then Instant.midnight? ⟨year, month, day⟩
  else none

end Conform.PlainDate
