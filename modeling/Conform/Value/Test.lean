import Conform.Text.Search
import Conform.Value.Basic

/-!
# Tests

A test is a condition on values.  Conditions on numbers and texts hold of no value of another kind;
a field that is no number counts as zero.
-/

set_option autoImplicit false

namespace Conform

inductive ValueTest where
  | always
  | never
  | equals (v : Value)
  | above (x : Binary64)
  | contains (part : String)
  | minLength (n : Nat)
  | fieldsEqual (a b : String)
  | fieldsOrdered (a b : String)
  | product (a b c : String)

namespace ValueTest

def numberField (v : Value) (key : String) : Binary64 := (v.get key).number?.getD .zero

def holds (v : Value) : ValueTest → Bool
  | always => true
  | never => false
  | equals w => v.equal w
  | above x => (v.number?.map fun y => x.less y).getD false
  | contains part => (v.text?.map fun s => Text.contains s part).getD false
  | minLength n => decide (n ≤ v.length)
  | fieldsEqual a b => (v.get a).equal (v.get b)
  | fieldsOrdered a b => (numberField v a).lessOrEqual (numberField v b)
  | product a b c => ((numberField v a).mul (numberField v b)).equal (numberField v c)

end ValueTest

end Conform
