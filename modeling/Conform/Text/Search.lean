/-!
# Parts of a text

Occurrences are looked for from left to right, and a replaced occurrence does not overlap the next.
The empty text occurs at every boundary, before the first character and after the last one included.
-/

set_option autoImplicit false

namespace Conform.Text

/-- What follows `part` at the start of the text, if the text starts with it. -/
def stripStart? : (part text : List Char) → Option (List Char)
  | [], text => some text
  | _ :: _, [] => none
  | c :: part, d :: text => if c = d then stripStart? part text else none

def occursIn (part : List Char) : List Char → Bool
  | [] => part.isEmpty
  | c :: text => (stripStart? part (c :: text)).isSome || occursIn part text

def contains (text part : String) : Bool := occursIn part.toList text.toList

/-- The text with `by` at every boundary. -/
def intersperse (replacement : List Char) : List Char → List Char
  | [] => replacement
  | c :: text => replacement ++ c :: intersperse replacement text

/-- The text with every occurrence of a nonempty `part` replaced.  The first argument counts the
characters of an occurrence that are still to be left out. -/
def replaceFrom (part replacement : List Char) : (skip : Nat) → List Char → List Char
  | _, [] => []
  | skip + 1, _ :: text => replaceFrom part replacement skip text
  | 0, c :: text =>
    if (stripStart? part (c :: text)).isSome then
      replacement ++ replaceFrom part replacement (part.length - 1) text
    else c :: replaceFrom part replacement 0 text

def replaceAll (text part replacement : String) : String :=
  if part.isEmpty then String.ofList (intersperse replacement.toList text.toList)
  else String.ofList (replaceFrom part.toList replacement.toList 0 text.toList)

def upperAscii (text : String) : String := text.map Char.toUpper

def lowerAscii (text : String) : String := text.map Char.toLower

end Conform.Text
