/-!
# Kinds of schemas
-/

set_option autoImplicit false

namespace Conform

inductive Kind where
  | text
  | number
  | boolean
  | date
  | constant
  | enumeration
  | anything
  | object
  | record
  | list
  | tuple
  | union
  | intersection
deriving DecidableEq

namespace Kind

def all : List Kind :=
  [text, number, boolean, date, constant, enumeration, anything, object, record, list, tuple, union,
    intersection]

def name : Kind → String
  | text => "string"
  | number => "number"
  | boolean => "boolean"
  | date => "date"
  | constant => "literal"
  | enumeration => "enum"
  | anything => "any"
  | object => "object"
  | record => "record"
  | list => "array"
  | tuple => "tuple"
  | union => "union"
  | intersection => "intersection"

def ofName? (name : String) : Option Kind := all.find? fun k => k.name == name

end Kind

end Conform
