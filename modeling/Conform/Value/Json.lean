import Conform.Json.Basic
import Conform.Value.Basic

/-!
# Values and JSON

A value becomes a document when no number in it that is kept is infinite or a `nan`.  Absent entries
of objects are left out, absent items become `null`, and dates become their timestamps.  A whole
number of magnitude below `2 ^ 53` becomes an integer.
-/

set_option autoImplicit false

namespace Conform

/-- The number that JSON has no text for. -/
structure NonFiniteNumber where
  number : Binary64
deriving DecidableEq

def NonFiniteNumber.message (e : NonFiniteNumber) : String :=
  "number " ++ NumberStyle.json.write e.number ++ " has no JSON representation"

namespace Value

def numberToJson (x : Binary64) : Except NonFiniteNumber Json :=
  match x.smallWhole? with
  | some n => .ok (.integer n)
  | none => if x.isFinite then .ok (.float x) else .error ⟨x⟩

mutual
/-- The document of a value, or the first number that has none. -/
def toJson : Value → Except NonFiniteNumber Json
  | absent => .ok .null
  | null => .ok .null
  | bool b => .ok (.bool b)
  | number x => numberToJson x
  | text s => .ok (.string s)
  | list items => (itemsToJson items).map .array
  | object entries => (entriesToJson entries).map .object
  | date t => .ok (.string (Timestamp.write t))

def itemsToJson : List Value → Except NonFiniteNumber (List Json)
  | [] => .ok []
  | v :: rest => do
    let j ← toJson v
    return j :: (← itemsToJson rest)

def entriesToJson : List (String × Value) → Except NonFiniteNumber (List (String × Json))
  | [] => .ok []
  | (key, v) :: rest =>
    if v.isAbsent then entriesToJson rest
    else do
      let j ← toJson v
      return (key, j) :: (← entriesToJson rest)
end

mutual
def ofJson : Json → Value
  | .null => null
  | .bool b => bool b
  | .integer n => number (.ofInt n)
  | .float x => number x
  | .string s => text s
  | .array items => list (ofJsonItems items)
  | .object entries => object (ofJsonEntries entries)

def ofJsonItems : List Json → List Value
  | [] => []
  | j :: rest => ofJson j :: ofJsonItems rest

def ofJsonEntries : List (String × Json) → List (String × Value)
  | [] => []
  | (key, j) :: rest => (key, ofJson j) :: ofJsonEntries rest
end

end Value

end Conform
