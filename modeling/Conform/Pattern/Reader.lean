import Conform.Pattern.Search
import Conform.Pattern.Token

/-!
# Reading written patterns

The tokens of a pattern are put together from left to right.  A level holds what an open group has
so far; a bar ends an alternative, and the closing parenthesis makes one pattern of the level and
hands it to the level around it.  A flag holds from its setting to the end of the group.

The reader knows a part of the written patterns: no general categories of characters, no verbose
mode and no half boundaries of words; and it sets no limit to their size or depth.  What it refuses
is a pattern that it cannot read, which need not be one that is wrong.
-/

set_option autoImplicit false

namespace Conform.Pattern

/-- The flags in force. -/
structure Flags where
  ignoreCase : Bool
  multiLine : Bool
  dotAll : Bool

namespace Flags

def initial : Flags := ⟨false, false, false⟩

def set (flags : Flags) : Option Flag × Bool → Flags
  | (none, _) => flags
  | (some .ignoreCase, on) => { flags with ignoreCase := on }
  | (some .multiLine, on) => { flags with multiLine := on }
  | (some .dotAll, on) => { flags with dotAll := on }

def apply (flags : Flags) (changes : FlagChanges) : Flags := changes.foldl set flags

def charClass (flags : Flags) (c : CharClass) : Pattern :=
  .char (if flags.ignoreCase then c.ignoringCase else c)

def anyChar (flags : Flags) : Pattern :=
  .char (if flags.dotAll then .all else .complement (.single '\n'))

def caret (flags : Flags) : Pattern := .assert (if flags.multiLine then .lineStart else .textStart)

def dollar (flags : Flags) : Pattern := .assert (if flags.multiLine then .lineEnd else .textEnd)

end Flags

/-- What an open group has so far: its flags, its ended alternatives and the items of the current
one, both with the last one first.  A flag setting is an item without a pattern. -/
structure Level where
  flags : Flags
  alternatives : List Pattern
  items : List (Option Pattern)

namespace Level

def start (flags : Flags) : Level := ⟨flags, [], []⟩

def add (level : Level) (p : Pattern) : Level := { level with items := some p :: level.items }

/-- The items of the current alternative, one after the other. -/
def alternative (level : Level) : Pattern := sequence (level.items.reverse.filterMap id)

def endAlternative (level : Level) : Level :=
  ⟨level.flags, level.alternative :: level.alternatives, []⟩

def close (level : Level) : Pattern := choice level.endAlternative.alternatives.reverse

def repeatLast? (level : Level) (low : Nat) (high : Option Nat) : Option Level :=
  match level.items with
  | some p :: items => some { level with items := some (p.repeated low high) :: items }
  | _ => none

end Level

/-- The open groups, the innermost one first, and the names that groups have been given. -/
structure Reading where
  inner : Level
  outer : List Level
  names : List String

namespace Reading

def start : Reading := ⟨.start .initial, [], []⟩

def add (r : Reading) (p : Pattern) : Reading := { r with inner := r.inner.add p }

def openGroup (r : Reading) (flags : Flags) : Reading :=
  { r with inner := .start flags, outer := r.inner :: r.outer }

/-- Takes the next token, unless it has no place there: a repetition of nothing, a parenthesis that
closes no group, a name given twice. -/
def take? (r : Reading) : Token → Option Reading
  | .literal c => some (r.add (r.inner.flags.charClass (.single c)))
  | .anyChar => some (r.add r.inner.flags.anyChar)
  | .charClass c => some (r.add (r.inner.flags.charClass c))
  | .assertion a => some (r.add (.assert a))
  | .caret => some (r.add r.inner.flags.caret)
  | .dollar => some (r.add r.inner.flags.dollar)
  | .bar => some { r with inner := r.inner.endAlternative }
  | .openGroup .plain => some (r.openGroup r.inner.flags)
  | .openGroup (.named name) =>
    if name ∈ r.names then none
    else some { r.openGroup r.inner.flags with names := name :: r.names }
  | .openGroup (.flagged changes) => some (r.openGroup (r.inner.flags.apply changes))
  | .closeGroup =>
    match r.outer with
    | [] => none
    | level :: outer => some { r with inner := level.add r.inner.close, outer := outer }
  | .setFlags changes =>
    some { r with inner :=
      { r.inner with flags := r.inner.flags.apply changes, items := none :: r.inner.items } }
  | .repetition low high =>
    (r.inner.repeatLast? low high).map fun level => { r with inner := level }

def finish? (r : Reading) : Option Pattern := if r.outer.isEmpty then some r.inner.close else none

end Reading

/-- The pattern that is written, if it is one of those that can be read here. -/
def read? (text : String) : Option Pattern := do
  let tokens ← Token.readAll? text.toList
  (← tokens.foldlM Reading.take? Reading.start).finish?

/-- Compiles the patterns that can be read here. -/
def compile (written : String) : Except String (String → Bool) :=
  match read? written with
  | some p => .ok p.occursIn
  | none => .error written

end Conform.Pattern
