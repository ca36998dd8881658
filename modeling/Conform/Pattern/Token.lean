import Conform.Pattern.Basic
import Conform.Text.Digits

/-!
# Tokens of written patterns

A written pattern is a row of tokens: single characters, classes, assertions, bars, the two
parentheses of a group, repetitions and flag settings.  `Token.readAll?` splits the text, and finds
every fault that does not depend on how the groups nest.
-/

set_option autoImplicit false

namespace Conform.Pattern

/-- The flags that a pattern can set: case is ignored, `^` and `$` also hold at line breaks, `.`
also stands for a line break. -/
inductive Flag where
  | ignoreCase
  | multiLine
  | dotAll
deriving DecidableEq

/-- Flags to be set and to be cleared; nothing stands for a flag that changes no match. -/
abbrev FlagChanges := List (Option Flag × Bool)

inductive GroupHead where
  | plain
  | named (name : String)
  | flagged (changes : FlagChanges)

inductive Token where
  | literal (c : Char)
  | anyChar
  | charClass (c : CharClass)
  | assertion (a : Assertion)
  | caret
  | dollar
  | bar
  | openGroup (head : GroupHead)
  | closeGroup
  | setFlags (changes : FlagChanges)
  | repetition (low : Nat) (high : Option Nat)

/-! ## Escapes -/

/-- What a backslash and the characters after it stand for. -/
inductive Escape where
  | literal (c : Char)
  | charClass (c : CharClass)
  | assertion (a : Assertion)

namespace Escape

/-- The characters with a meaning of their own, and the other punctuation of ASCII, may be escaped;
`<` and `>` may not. -/
def isEscapable (c : Char) : Bool :=
  decide (c.toNat < 128) && !c.isAlphanum && c != '<' && c != '>'

def hexChar? (digits : List Char) : Option Char := do
  let n ← Text.readHex? digits
  if digits.isEmpty then none
  else if n < 0x110000 ∧ ¬(0xd800 ≤ n ∧ n < 0xe000) then some (.ofNat n) else none

/-- The digits of a hexadecimal escape: `width` of them, or any number between braces. -/
def readHex? (width : Nat) : List Char → Option (Escape × List Char)
  | '{' :: rest =>
    match rest.dropWhile (· != '}') with
    | _ :: after => (hexChar? (rest.takeWhile (· != '}'))).map fun c => (literal c, after)
    | [] => none
  | rest =>
    if (rest.take width).length = width then
      (hexChar? (rest.take width)).map fun c => (literal c, rest.drop width)
    else none

def read? : List Char → Option (Escape × List Char)
  | [] => none
  | 'd' :: rest => some (charClass .digit, rest)
  | 'D' :: rest => some (charClass (.complement .digit), rest)
  | 's' :: rest => some (charClass .space, rest)
  | 'S' :: rest => some (charClass (.complement .space), rest)
  | 'w' :: rest => some (charClass .word, rest)
  | 'W' :: rest => some (charClass (.complement .word), rest)
  | 'A' :: rest => some (assertion .textStart, rest)
  | 'z' :: rest => some (assertion .textEnd, rest)
  | 'b' :: rest => some (assertion .wordBoundary, rest)
  | 'B' :: rest => some (assertion .wordInterior, rest)
  | 'a' :: rest => some (literal '\x07', rest)
  | 'f' :: rest => some (literal '\x0c', rest)
  | 't' :: rest => some (literal '\t', rest)
  | 'n' :: rest => some (literal '\n', rest)
  | 'r' :: rest => some (literal '\r', rest)
  | 'v' :: rest => some (literal '\x0b', rest)
  | 'x' :: rest => readHex? 2 rest
  | 'u' :: rest => readHex? 4 rest
  | 'U' :: rest => readHex? 8 rest
  | c :: rest => if isEscapable c then some (literal c, rest) else none

end Escape

/-! ## Bracketed classes -/

/-- The classes that have names within brackets, as `[:alpha:]`. -/
def namedClass? : String → Option CharClass
  | "alnum" => some (.ofRanges [('0', '9'), ('A', 'Z'), ('a', 'z')])
  | "alpha" => some (.ofRanges [('A', 'Z'), ('a', 'z')])
  | "ascii" => some (.range '\x00' '\x7f')
  | "blank" => some (.ofRanges [('\t', '\t'), (' ', ' ')])
  | "cntrl" => some (.ofRanges [('\x00', '\x1f'), ('\x7f', '\x7f')])
  | "digit" => some (.range '0' '9')
  | "graph" => some (.range '!' '~')
  | "lower" => some (.range 'a' 'z')
  | "print" => some (.range ' ' '~')
  | "punct" => some (.ofRanges [('!', '/'), (':', '@'), ('[', '\x60'), ('{', '~')])
  | "space" => some (.ofRanges [('\t', '\r'), (' ', ' ')])
  | "upper" => some (.range 'A' 'Z')
  | "word" => some (.ofRanges [('0', '9'), ('A', 'Z'), ('_', '_'), ('a', 'z')])
  | "xdigit" => some (.ofRanges [('0', '9'), ('A', 'F'), ('a', 'f')])
  | _ => none

/-- An open bracket: is the class negated, what the operators so far do with the operand that is
being read, and that operand. -/
structure Bracket where
  negated : Bool
  applied : CharClass → CharClass
  operand : CharClass

namespace Bracket

def start (negated : Bool) : Bracket := ⟨negated, id, .nothing⟩

def add (b : Bracket) (c : CharClass) : Bracket := { b with operand := .union b.operand c }

/-- Ends an operand at an operator; operators apply from left to right. -/
def operator (b : Bracket) (op : CharClass → CharClass → CharClass) : Bracket :=
  ⟨b.negated, op (b.applied b.operand), .nothing⟩

def close (b : Bracket) : CharClass :=
  let c := b.applied b.operand
  if b.negated then .complement c else c

/-- Reads what follows an opening bracket up to the first item.  Hyphens there, and a closing
bracket that is the first character, stand for themselves. -/
def readStart (text : List Char) : Bracket × List Char :=
  let (negated, text) := match text with
    | '^' :: rest => (true, rest)
    | rest => (false, rest)
  let hyphens := text.takeWhile (· == '-')
  let rest := text.dropWhile (· == '-')
  if hyphens.isEmpty then
    match rest with
    | ']' :: rest => ((start negated).add (.single ']'), rest)
    | rest => (start negated, rest)
  else ((start negated).add (.single '-'), rest)

def readItem? : List Char → Option (Escape × List Char)
  | [] => none
  | '\\' :: rest => Escape.read? rest
  | c :: rest => some (.literal c, rest)

/-- Reads a character, a class or a range.  A hyphen before the closing bracket or before another
hyphen makes no range. -/
def readRange? (text : List Char) : Option (CharClass × List Char) := do
  let (item, rest) ← readItem? text
  match rest with
  | '-' :: next :: after =>
    if next = ']' ∨ next = '-' then finish item rest
    else
      let (last, rest) ← readItem? (next :: after)
      match item, last with
      | .literal low, .literal high => if low ≤ high then some (.range low high, rest) else none
      | _, _ => none
  | ['-'] => none
  | _ => finish item rest
where
  finish : Escape → List Char → Option (CharClass × List Char)
    | .literal c, rest => some (.single c, rest)
    | .charClass c, rest => some (c, rest)
    | .assertion _, _ => none

/-- Reads a class with a name, after its opening bracket. -/
def readNamed? : List Char → Option (CharClass × List Char)
  | ':' :: text =>
    let (negated, text) := match text with
      | '^' :: rest => (true, rest)
      | rest => (false, rest)
    match text.dropWhile (· != ':') with
    | ':' :: ']' :: rest =>
      (namedClass? (String.ofList (text.takeWhile (· != ':')))).map fun c =>
        (if negated then .complement c else c, rest)
    | _ => none
  | _ => none

/-- Reads a class up to the bracket that closes it, from within the given open brackets, the
innermost one first. -/
def read? (inner : Bracket) (outer : List Bracket) (text : List Char) :
    Option (CharClass × List Char) :=
  match text with
  | [] => none
  | ']' :: rest =>
    match outer with
    | [] => some (inner.close, rest)
    | next :: outer => read? (next.add inner.close) outer rest
  | '[' :: rest =>
    match readNamed? rest with
    | some (c, after) =>
      if after.length ≤ rest.length then read? (inner.add c) outer after else none
    | none =>
      let (bracket, after) := readStart rest
      if after.length ≤ rest.length then read? bracket (inner :: outer) after else none
  | '&' :: '&' :: rest => read? (inner.operator .inter) outer rest
  | '-' :: '-' :: rest => read? (inner.operator .difference) outer rest
  | '~' :: '~' :: rest => read? (inner.operator .symmetricDifference) outer rest
  | c :: rest =>
    match readRange? (c :: rest) with
    | some (item, after) =>
      if after.length ≤ rest.length then read? (inner.add item) outer after else none
    | none => none
termination_by text.length
decreasing_by all_goals (simp only [List.length_cons] at *; omega)

end Bracket

namespace Token

/-! ## Repetitions -/

/-- The number of a counted repetition, blanks around it left out. -/
def readCount? (text : List Char) : Option Nat :=
  let digits := ((text.dropWhile Char.isWhitespace).reverse.dropWhile Char.isWhitespace).reverse
  if digits.isEmpty || !digits.all Char.isDigit then none else some (Text.digitsValue digits)

/-- The bounds between the braces of a counted repetition. -/
def readBounds? (text : List Char) : Option (Nat × Option Nat) :=
  match text.dropWhile (· != ',') with
  | [] => (readCount? text).map fun n => (n, some n)
  | _ :: upper => do
    let low ← readCount? (text.takeWhile (· != ','))
    if upper.all Char.isWhitespace then some (low, none)
    else
      let high ← readCount? upper
      if low ≤ high then some (low, some high) else none

/-- A question mark after a repetition prefers fewer rounds, which changes no answer. -/
def skipLazyMark : List Char → List Char
  | '?' :: rest => rest
  | rest => rest

/-! ## Groups -/

def flag? : Char → Option (Option Flag)
  | 'i' => some (some .ignoreCase)
  | 'm' => some (some .multiLine)
  | 's' => some (some .dotAll)
  | 'U' => some none
  | 'u' => some none
  | _ => none

/-- The letters of a flag setting, each once; the ones after a hyphen are cleared. -/
def readFlags? (letters : List Char) : Option FlagChanges :=
  let on := letters.takeWhile (· != '-')
  let off := letters.dropWhile (· != '-')
  if off = ['-'] ∨ (off.drop 1).contains '-' ∨ off.contains 'u' ∨
      ¬(on ++ off.drop 1).Nodup then none
  else do
    let set ← on.mapM flag?
    let clear ← (off.drop 1).mapM flag?
    some (set.map (·, true) ++ clear.map (·, false))

/-- The name of a group: letters, digits, `_`, `.`, `[` and `]`, a letter or `_` first. -/
def isName : List Char → Bool
  | [] => false
  | c :: rest =>
    (c == '_' || (Unicode.isWord c && !Unicode.isDigit c)) &&
      rest.all fun c => c == '.' || c == '[' || c == ']' || Unicode.isWord c

def readName? (text : List Char) : Option (Token × List Char) :=
  let name := text.takeWhile (· != '>')
  match text.dropWhile (· != '>') with
  | _ :: rest => if isName name then some (.openGroup (.named (String.ofList name)), rest) else none
  | [] => none

def readGroup? : List Char → Option (Token × List Char)
  | '?' :: 'P' :: '<' :: rest => readName? rest
  | '?' :: '<' :: rest => readName? rest
  | '?' :: rest =>
    let isLetter (c : Char) : Bool := c != ':' && c != ')'
    let letters := rest.takeWhile isLetter
    match rest.dropWhile isLetter with
    | ':' :: rest => (readFlags? letters).map fun changes => (.openGroup (.flagged changes), rest)
    | ')' :: rest =>
      if letters.isEmpty then none
      else (readFlags? letters).map fun changes => (.setFlags changes, rest)
    | _ => none
  | rest => some (.openGroup .plain, rest)

/-! ## Rows of tokens -/

def read? : List Char → Option (Token × List Char)
  | [] => none
  | '.' :: rest => some (.anyChar, rest)
  | '^' :: rest => some (.caret, rest)
  | '$' :: rest => some (.dollar, rest)
  | '|' :: rest => some (.bar, rest)
  | ')' :: rest => some (.closeGroup, rest)
  | '(' :: rest => readGroup? rest
  | '*' :: rest => some (.repetition 0 none, skipLazyMark rest)
  | '+' :: rest => some (.repetition 1 none, skipLazyMark rest)
  | '?' :: rest => some (.repetition 0 (some 1), skipLazyMark rest)
  | '{' :: rest =>
    match rest.dropWhile (· != '}') with
    | [] => none
    | _ :: after => (readBounds? (rest.takeWhile (· != '}'))).map fun (low, high) =>
        (.repetition low high, skipLazyMark after)
  | '[' :: rest =>
    let (bracket, rest) := Bracket.readStart rest
    (Bracket.read? bracket [] rest).map fun (c, rest) => (.charClass c, rest)
  | '\\' :: rest => (Escape.read? rest).map fun
    | (.literal c, rest) => (.literal c, rest)
    | (.charClass c, rest) => (.charClass c, rest)
    | (.assertion a, rest) => (.assertion a, rest)
  | c :: rest => some (.literal c, rest)

def readAll? (text : List Char) : Option (List Token) :=
  match text with
  | [] => some []
  | c :: rest =>
    match read? (c :: rest) with
    | some (token, after) =>
      if after.length ≤ rest.length then (readAll? after).map (token :: ·) else none
    | none => none
termination_by text.length
decreasing_by simp only [List.length_cons]; omega

end Token

end Conform.Pattern
