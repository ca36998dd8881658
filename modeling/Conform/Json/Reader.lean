import Conform.Entries
import Conform.Json.Number

/-!
# Reading JSON documents

Reading is strict: no blanks but the four of the grammar, no unpaired surrogate escapes, no text
after the document, and no more than 127 open arrays and objects.  A key that is written again keeps
its first place and gets the last value.
-/

set_option autoImplicit false

namespace Conform.Json

def isBlank (c : Char) : Bool := c == ' ' || c == '\n' || c == '\t' || c == '\r'

def skipBlanks (text : List Char) : List Char := text.dropWhile isBlank

/-! ## Strings -/

def hexUnit? (a b c d : Char) : Option Nat := Text.readHex? [a, b, c, d]

def isHighSurrogate (n : Nat) : Bool := decide (0xd800 ≤ n) && decide (n < 0xdc00)

def isLowSurrogate (n : Nat) : Bool := decide (0xdc00 ≤ n) && decide (n < 0xe000)

def pairChar (high low : Nat) : Char := .ofNat (0x10000 + (high - 0xd800) * 0x400 + (low - 0xdc00))

/-- The character after a backslash that is not `u`. -/
def shortEscape? : Char → Option Char
  | '\x22' => some '\x22'
  | '\\' => some '\\'
  | '/' => some '/'
  | 'b' => some '\x08'
  | 'f' => some '\x0c'
  | 'n' => some '\n'
  | 'r' => some '\r'
  | 't' => some '\t'
  | _ => none

/-- Reads a string after its opening quote; `done` has the characters before, the last one first. -/
def readStringFrom? (done : List Char) : List Char → Option (String × List Char)
  | [] => none
  | '\x22' :: rest => some (String.ofList done.reverse, rest)
  | '\\' :: 'u' :: a :: b :: c :: d :: '\\' :: 'u' :: e :: f :: g :: h :: rest =>
    match hexUnit? a b c d with
    | none => none
    | some unit =>
      if isHighSurrogate unit then
        match hexUnit? e f g h with
        | none => none
        | some low =>
          if isLowSurrogate low then readStringFrom? (pairChar unit low :: done) rest else none
      else if isLowSurrogate unit then none
      else readStringFrom? (.ofNat unit :: done) ('\\' :: 'u' :: e :: f :: g :: h :: rest)
  | '\\' :: 'u' :: a :: b :: c :: d :: rest =>
    match hexUnit? a b c d with
    | none => none
    | some unit =>
      if isHighSurrogate unit || isLowSurrogate unit then none
      else readStringFrom? (.ofNat unit :: done) rest
  | '\\' :: c :: rest =>
    match shortEscape? c with
    | some c => readStringFrom? (c :: done) rest
    | none => none
  | c :: rest => if c.toNat < 0x20 || c == '\\' then none else readStringFrom? (c :: done) rest

/-! ## Documents -/

/-- Reads items with commas between them, up to a closing character. -/
def readItems? {α : Type} (item : List Char → Option (α × List Char)) (close : Char)
    (text : List Char) : Option (List α × List Char) :=
  match item text with
  | none => none
  | some (a, rest) =>
    match skipBlanks rest with
    | [] => none
    | c :: after =>
      if c = close then some ([a], after)
      else if c = ',' ∧ after.length < text.length then
        (readItems? item close after).map fun (items, rest) => (a :: items, rest)
      else none
termination_by text.length

def readEnclosed? {α : Type} (item : List Char → Option (α × List Char)) (close : Char)
    (text : List Char) : Option (List α × List Char) :=
  match skipBlanks text with
  | [] => none
  | c :: rest => if c = close then some ([], rest) else readItems? item close (c :: rest)

def readMember? (document : List Char → Option (Json × List Char)) (text : List Char) :
    Option ((String × Json) × List Char) :=
  match skipBlanks text with
  | '\x22' :: rest => do
    let (key, rest) ← readStringFrom? [] rest
    match skipBlanks rest with
    | ':' :: rest => (document rest).map fun (j, rest) => ((key, j), rest)
    | _ => none
  | _ => none

/-- Reads a document with at most `depth` open arrays and objects. -/
def readDocument? : (depth : Nat) → List Char → Option (Json × List Char)
  | depth, text =>
    match skipBlanks text with
    | [] => none
    | 'n' :: 'u' :: 'l' :: 'l' :: rest => some (.null, rest)
    | 't' :: 'r' :: 'u' :: 'e' :: rest => some (.bool true, rest)
    | 'f' :: 'a' :: 'l' :: 's' :: 'e' :: rest => some (.bool false, rest)
    | '\x22' :: rest => (readStringFrom? [] rest).map fun (s, rest) => (.string s, rest)
    | '[' :: rest =>
      match depth with
      | 0 => none
      | depth + 1 =>
        (readEnclosed? (readDocument? depth) ']' rest).map fun (items, rest) => (.array items, rest)
    | '{' :: rest =>
      match depth with
      | 0 => none
      | depth + 1 =>
        (readEnclosed? (readMember? (readDocument? depth)) '}' rest).map fun (entries, rest) =>
          (.object (Entries.ofList entries), rest)
    | rest => readNumber? rest

/-- The greatest number of open arrays and objects. -/
def maxDepth : Nat := 127

def read? (text : String) : Option Json :=
  match readDocument? maxDepth text.toList with
  | some (j, rest) => if (skipBlanks rest).isEmpty then some j else none
  | none => none

end Conform.Json
