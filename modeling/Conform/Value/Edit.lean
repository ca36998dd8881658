import Conform.Text.Blank
import Conform.Text.Search
import Conform.Value.Basic

/-!
# Edits

An edit changes values of one kind and keeps their kind; it leaves all others as they are.
-/

set_option autoImplicit false

namespace Conform

inductive TextEdit where
  | trim
  | upperAscii
  | lowerAscii
  | append (suffix : String)
  | replace (part replacement : String)

inductive NumberEdit where
  | add (x : Binary64)
  | mul (x : Binary64)

inductive ListEdit where
  | reverse
  | push (v : Value)

inductive MapEdit where
  | set (key : String) (v : Value)
  | remove (key : String)

inductive Edit where
  | text (e : TextEdit)
  | number (e : NumberEdit)
  | not
  | list (e : ListEdit)
  | map (e : MapEdit)

def TextEdit.apply (s : String) : TextEdit → String
  | trim => Text.trim s
  | upperAscii => Text.upperAscii s
  | lowerAscii => Text.lowerAscii s
  | append suffix => s ++ suffix
  | replace part replacement => Text.replaceAll s part replacement

def NumberEdit.apply (x : Binary64) : NumberEdit → Binary64
  | add y => x.add y
  | mul y => x.mul y

def ListEdit.apply (items : List Value) : ListEdit → List Value
  | reverse => items.reverse
  | push v => items ++ [v]

def MapEdit.apply (m : Entries Value) : MapEdit → Entries Value
  | set key v => m.insert key v
  | remove key => m.erase key

namespace Edit

def onText : Edit → String → String
  | text e, s => e.apply s
  | _, s => s

def onNumber : Edit → Binary64 → Binary64
  | number e, x => e.apply x
  | _, x => x

def onBoolean : Edit → Bool → Bool
  | not, b => !b
  | _, b => b

def onList : Edit → List Value → List Value
  | list e, items => e.apply items
  | _, items => items

def onMap : Edit → Entries Value → Entries Value
  | map e, m => e.apply m
  | _, m => m

def onValue (e : Edit) : Value → Value
  | .text s => .text (e.onText s)
  | .number x => .number (e.onNumber x)
  | .bool b => .bool (e.onBoolean b)
  | .list items => .list (e.onList items)
  | .object entries => .object (e.onMap entries)
  | v => v

end Edit

inductive Derivation where
  | length
  | text
  | kind
  | wrap
  | constant (v : Value)
  | get (key : String)
  | item (position : Nat)
  | edit (e : Edit)

def Derivation.apply (v : Value) : Derivation → Value
  | length => .number (.ofNat v.length)
  | text => .text v.display
  | kind => .text v.kindName
  | wrap => .list [v]
  | constant w => w
  | get key => v.get key
  | item position => v.item position
  | edit e => e.onValue v

end Conform
