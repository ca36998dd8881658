import Conform.Value.Basic

/-!
# Presence

Something may be absent, which is not the same as being null.  An option makes null of nothing, a
presence makes an absent value of it, and the absent entries of a map are left out.
-/

set_option autoImplicit false

namespace Conform

inductive Presence (α : Type) where
  | absent
  | present (a : α)

namespace Presence

variable {α : Type}

instance : Inhabited (Presence α) := ⟨absent⟩

def isAbsent : Presence α → Bool
  | absent => true
  | present _ => false

def isPresent : Presence α → Bool
  | absent => false
  | present _ => true

def toOption : Presence α → Option α
  | absent => none
  | present a => some a

end Presence

namespace Value

variable {α : Type}

def ofOption (f : α → Value) : Option α → Value
  | none => null
  | some a => f a

def ofPresence (f : α → Value) : Presence α → Value
  | .absent => absent
  | .present a => f a

def ofList (f : α → Value) (items : List α) : Value := list (items.map f)

/-- The entries that do not become absent values. -/
def ofEntries (f : α → Value) (entries : Entries α) : Value :=
  object (present (Entries.mapValues f entries))

end Value

end Conform
