import Conform.Calendar.PlainDate
import Conform.Kind
import Conform.Number.Numeral
import Conform.Text.Blank
import Conform.Text.Search
import Conform.Value.Basic

/-!
# Coercions

A coercion converts a value to the kind that a schema expects, where it knows how.  A value that it
cannot convert is left to the schema as it is, except that a text that is no numeral becomes a
`nan`, which no schema of numbers accepts.
-/

set_option autoImplicit false

namespace Conform

inductive Coercion where
  | toText
  | toNumber
  | toBoolean
  | toDate
deriving DecidableEq

namespace Coercion

/-- The coercion to the values of a kind. -/
def forKind? : Kind → Option Coercion
  | .text => some toText
  | .number => some toNumber
  | .boolean => some toBoolean
  | .date => some toDate
  | _ => none

def name : Coercion → String
  | toText => "ToString"
  | toNumber => "ToNumber"
  | toBoolean => "ToBoolean"
  | toDate => "ToDate"

def text? : Value → Option String
  | .number x => some x.display
  | .bool b => some (if b then "true" else "false")
  | .date t => some (Timestamp.write t)
  | _ => none

/-- The number of a text, of a truth value, or of a date in milliseconds. -/
def number? : Value → Option Binary64
  | .text s => some ((Binary64.read? (Text.trim s)).getD .nan)
  | .bool b => some (.ofNat (if b then 1 else 0))
  | .date t => some (.ofInt t.epochMillis)
  | _ => none

/-- The truth value of a word, in any case of ASCII. -/
def booleanOfWord? (word : String) : Option Bool :=
  if ["true", "yes", "on"].contains (Text.lowerAscii word) then some true
  else if ["false", "no", "off"].contains (Text.lowerAscii word) then some false
  else none

def boolean? : Value → Option Bool
  | .text s => booleanOfWord? (Text.trim s)
  | .number x =>
    if x.equal (.ofNat 1) then some true else if x.equal .zero then some false else none
  | _ => none

/-- The date of a text, or of a number of milliseconds, the fraction cut off. -/
def date? : Value → Option Instant
  | .text s =>
    match Timestamp.read? (Text.trim s) with
    | some t => some t
    | none => PlainDate.read? (Text.trim s)
  | .number x => x.truncate?.bind Instant.ofEpochMillis?
  | _ => none

def convert? : Coercion → Value → Option Value
  | toText, v => (text? v).map .text
  | toNumber, v => (number? v).map .number
  | toBoolean, v => (boolean? v).map .bool
  | toDate, v => (date? v).map .date

def apply (c : Coercion) (v : Value) : Value := (c.convert? v).getD v

end Coercion

end Conform
