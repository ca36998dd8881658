/-!
# Paths

A path leads from a value to one of its parts, through keys of objects and positions of lists.  Its
text writes a key after a dot, except at the start, and a position in brackets.
-/

set_option autoImplicit false

namespace Conform

inductive Segment where
  | field (name : String)
  | index (position : Nat)
deriving DecidableEq

def Segment.display : Segment → String
  | field name => name
  | index position => toString position

structure Path where
  segments : List Segment
deriving DecidableEq

namespace Path

def root : Path := ⟨[]⟩

instance : Append Path := ⟨fun p q => ⟨p.segments ++ q.segments⟩⟩

def push (p : Path) (s : Segment) : Path := ⟨p.segments ++ [s]⟩

def field (p : Path) (name : String) : Path := p.push (.field name)

def index (p : Path) (position : Nat) : Path := p.push (.index position)

def isRoot (p : Path) : Bool := p.segments.isEmpty

def length (p : Path) : Nat := p.segments.length

def last? (p : Path) : Option Segment := p.segments.getLast?

/-- The path without its last segment; the root has none. -/
def parent? (p : Path) : Option Path := if p.isRoot then none else some ⟨p.segments.dropLast⟩

def strings (p : Path) : List String := p.segments.map Segment.display

/-- The text of the segments that follow another one. -/
def displayFurther : List Segment → String
  | [] => ""
  | .field name :: rest => "." ++ name ++ displayFurther rest
  | .index position :: rest => "[" ++ toString position ++ "]" ++ displayFurther rest

def display (p : Path) : String :=
  match p.segments with
  | .field name :: rest => name ++ displayFurther rest
  | segments => displayFurther segments

/-! ## Appending -/

theorem segments_append (p q : Path) : (p ++ q).segments = p.segments ++ q.segments := rfl

theorem append_root (p : Path) : p ++ root = p := by
  obtain ⟨segments⟩ := p
  exact congrArg Path.mk (List.append_nil segments)

theorem append_assoc (p q r : Path) : p ++ q ++ r = p ++ (q ++ r) :=
  congrArg Path.mk (List.append_assoc p.segments q.segments r.segments)

theorem append_push (p q : Path) (s : Segment) : p ++ q.push s = (p ++ q).push s :=
  congrArg Path.mk (List.append_assoc p.segments q.segments [s]).symm

/-- The first segment after a path can be counted as its last one. -/
theorem append_cons (p : Path) (s : Segment) (rest : List Segment) :
    p ++ ⟨s :: rest⟩ = p.push s ++ ⟨rest⟩ :=
  congrArg Path.mk (List.append_cons p.segments s rest)

end Path

end Conform
