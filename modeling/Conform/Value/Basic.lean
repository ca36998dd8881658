import Conform.Calendar.Timestamp
import Conform.Entries
import Conform.Number.Style

/-!
# Values

A value is what a schema is applied to, and what it answers with.  `absent` is the value of
something that is not there, and differs from `null`, which is there.  The keys of an object are in
order of insertion.
-/

set_option autoImplicit false

namespace Conform

inductive Value where
  | absent
  | null
  | bool (b : Bool)
  | number (x : Binary64)
  | text (s : String)
  | list (items : List Value)
  | object (entries : List (String × Value))
  | date (t : Instant)

namespace Value

instance : Inhabited Value := ⟨absent⟩

def kindName : Value → String
  | absent => "undefined"
  | null => "null"
  | bool _ => "boolean"
  | number _ => "number"
  | text _ => "string"
  | list _ => "array"
  | object _ => "object"
  | date _ => "date"

def isAbsent : Value → Bool
  | absent => true
  | _ => false

def isNull : Value → Bool
  | null => true
  | _ => false

/-- Texts, numbers, booleans and null. -/
def isScalar : Value → Bool
  | null | bool _ | number _ | text _ => true
  | _ => false

def isNaN : Value → Bool
  | number x => x.isNaN
  | _ => false

def bool? : Value → Option Bool
  | bool b => some b
  | _ => none

def number? : Value → Option Binary64
  | number x => some x
  | _ => none

def text? : Value → Option String
  | text s => some s
  | _ => none

def list? : Value → Option (List Value)
  | list items => some items
  | _ => none

def object? : Value → Option (Entries Value)
  | object entries => some entries
  | _ => none

def date? : Value → Option Instant
  | date t => some t
  | _ => none

/-! ## Parts of a value -/

/-- The value under a key; `absent` for a missing key and for anything but an object. -/
def get (v : Value) (key : String) : Value :=
  match v with
  | object entries => (Entries.get? entries key).getD absent
  | _ => absent

/-- The value at a position; `absent` past the end and for anything but a list. -/
def item (v : Value) (index : Nat) : Value :=
  match v with
  | list items => items[index]?.getD absent
  | _ => absent

def present (entries : Entries Value) : Entries Value := entries.filter fun e => !e.2.isAbsent

/-- The characters of a text, the items of a list, the entries of an object, or else 0. -/
def length : Value → Nat
  | text s => s.length
  | list items => items.length
  | object entries => entries.length
  | _ => 0

/-! ## Equality -/

mutual
/-- Equality of values: numbers by numeric equality, so that a `nan` differs from itself, and
objects without regard to the order of their keys. -/
def equal : Value → Value → Bool
  | absent, absent => true
  | null, null => true
  | bool a, bool b => a == b
  | number x, number y => x.equal y
  | text s, text t => s == t
  | list xs, list ys => equalItems xs ys
  | object es, object fs => es.length == fs.length && equalEntries es fs
  | date t, date u => decide (t = u)
  | _, _ => false

def equalItems : List Value → List Value → Bool
  | [], [] => true
  | x :: xs, y :: ys => equal x y && equalItems xs ys
  | _, _ => false

/-- Does every entry have an equal value under its key in the map? -/
def equalEntries : List (String × Value) → Entries Value → Bool
  | [], _ => true
  | (key, x) :: rest, m =>
    (match m.get? key with
      | some y => equal x y
      | none => false)
      && equalEntries rest m
end

/-! ## Display -/

mutual
/-- The text that shows a value; a text shows itself. -/
def display : Value → String
  | absent => "undefined"
  | null => "null"
  | bool b => if b then "true" else "false"
  | number x => x.display
  | text s => s
  | list items => "[" ++ ", ".intercalate (displayItems items) ++ "]"
  | object entries => "\x7b" ++ ", ".intercalate (displayEntries entries) ++ "\x7d"
  | date t => Timestamp.write t

def displayItems : List Value → List String
  | [] => []
  | v :: rest => display v :: displayItems rest

def displayEntries : List (String × Value) → List String
  | [] => []
  | (key, v) :: rest => (key ++ ": " ++ display v) :: displayEntries rest
end

end Value

end Conform
