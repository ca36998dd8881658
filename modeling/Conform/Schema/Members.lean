import Conform.Schema.Basic

/-!
# Members

A tuple, a union and an intersection are built from members by calls: one more member comes last,
and a message replaces the one before it.  The members of tuples and unions may have outputs of any
type, which are erased; those of an intersection have maps, which are merged as they are.
-/

set_option autoImplicit false

namespace Conform

structure Members (α : Type) where
  members : List α
  message : Option String

namespace Members

variable {α : Type}

/-- Some members to begin with. -/
def ofList (members : List α) : Members α := ⟨members, none⟩

def empty : Members α := ofList []

def add (m : Members α) (member : α) : Members α := { m with members := m.members ++ [member] }

def withMessage (m : Members α) (message : String) : Members α := { m with message := some message }

variable {σ : Type} {τ : OutputType}

/-- Adds a member of any output. -/
def addErased (m : Members (Schema σ .value)) (member : Schema σ τ) : Members (Schema σ .value) :=
  m.add member.erased

def tuple (m : Members (Schema σ .value)) : Schema σ .list := .tuple m.message m.members

def union (m : Members (Schema σ .value)) : Schema σ .value := .union m.message m.members

def intersection (m : Members (Schema σ .map)) : Schema σ .map := .intersection m.message m.members

end Members

end Conform
