import Conform.Value.Edit

/-!
# Outputs

The output of a schema has one of seven types.  Every output can be seen as a value as it is;
erasing the type makes a value of it too, but leaves out the absent entries of a map.
-/

set_option autoImplicit false

namespace Conform

inductive OutputType where
  | text
  | number
  | boolean
  | date
  | list
  | map
  | value
deriving DecidableEq

@[reducible] def Output : OutputType → Type
  | .text => String
  | .number => Binary64
  | .boolean => Bool
  | .date => Instant
  | .list => List Value
  | .map => Entries Value
  | .value => Value

namespace Output

/-- The output as it is. -/
def view : (τ : OutputType) → Output τ → Value
  | .text, s => .text s
  | .number, x => .number x
  | .boolean, b => .bool b
  | .date, t => .date t
  | .list, items => .list items
  | .map, entries => .object entries
  | .value, v => v

/-- The output as a part of another value. -/
def erase : (τ : OutputType) → Output τ → Value
  | .map, entries => .object (Value.present entries)
  | τ, a => view τ a

end Output

/-- Applies an edit to an output of any type; no edit changes a date. -/
def Edit.onOutput (e : Edit) : (τ : OutputType) → Output τ → Output τ
  | .text, s => e.onText s
  | .number, x => e.onNumber x
  | .boolean, b => e.onBoolean b
  | .date, t => t
  | .list, items => e.onList items
  | .map, m => e.onMap m
  | .value, v => e.onValue v

end Conform
