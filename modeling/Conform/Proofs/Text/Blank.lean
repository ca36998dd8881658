import Conform.Proofs.Text.Digits
import Conform.Text.Blank
import Mathlib.Data.List.TakeWhile

/-!
# Trimming a text without blanks

Trimming takes away the blanks around a text, and nothing else when there are none inside.
-/

set_option autoImplicit false

namespace Conform.Text

def AllBlank (text : List Char) : Prop := ∀ c ∈ text, Unicode.isWhiteSpace c = true

def NoBlanks (text : List Char) : Prop := ∀ c ∈ text, Unicode.isWhiteSpace c = false

instance (text : List Char) : Decidable (AllBlank text) := List.decidableBAll _ text

instance (text : List Char) : Decidable (NoBlanks text) := List.decidableBAll _ text

theorem NoBlanks.append {text other : List Char} (h : NoBlanks text) (h' : NoBlanks other) :
    NoBlanks (text ++ other) := by
  intro c member
  exact (List.mem_append.mp member).elim (h c) (h' c)

theorem isWhiteSpace_of_isDigit {c : Char} (h : c.isDigit = true) :
    Unicode.isWhiteSpace c = false := by
  have range := toNat_of_isDigit h
  have first : ¬ c.toNat ≤ 13 ∧ ¬ c.toNat ≤ 32 ∧ c.toNat < 133 := by omega
  simp [Unicode.isWhiteSpace, Unicode.inRanges, Unicode.whiteSpaceRanges, first]

theorem AllDigits.noBlanks {digits : List Char} (h : AllDigits digits) : NoBlanks digits :=
  fun c member => isWhiteSpace_of_isDigit (h c member)

theorem trimLeft_blanks_append {blanks : List Char} (h : AllBlank blanks) (text : List Char) :
    trimLeft (blanks ++ text) = trimLeft text := List.dropWhile_append_of_pos h

theorem trimLeft_cons {c : Char} (h : Unicode.isWhiteSpace c = false) (rest : List Char) :
    trimLeft (c :: rest) = c :: rest := List.dropWhile_cons_of_neg (by simp [h])

theorem trimChars_between {before text after : List Char} (blankBefore : AllBlank before)
    (h : NoBlanks text) (blankAfter : AllBlank after) :
    trimChars (before ++ text ++ after) = text := by
  have blankReversed : AllBlank after.reverse := fun c member =>
    blankAfter c (List.mem_reverse.mp member)
  have reversed : trimLeft text.reverse = text.reverse := by
    cases found : text.reverse with
    | nil => rfl
    | cons c rest =>
      exact trimLeft_cons (h c (List.mem_reverse.mp (found ▸ List.mem_cons_self))) rest
  cases text with
  | nil =>
    have none : trimLeft after = [] := List.dropWhile_eq_nil_iff.mpr blankAfter
    rw [trimChars, List.append_nil, trimLeft_blanks_append blankBefore, none]
    rfl
  | cons c rest =>
    rw [trimChars, List.append_assoc, trimLeft_blanks_append blankBefore, List.cons_append,
      trimLeft_cons (h c List.mem_cons_self), ← List.cons_append, List.reverse_append,
      trimLeft_blanks_append blankReversed, reversed, List.reverse_reverse]

/-- The white space around a text without blanks is what trimming takes away. -/
theorem trim_between {before text after : String} (blankBefore : AllBlank before.toList)
    (h : NoBlanks text.toList) (blankAfter : AllBlank after.toList) :
    trim (before ++ text ++ after) = text := by
  rw [trim, String.toList_append, String.toList_append, trimChars_between blankBefore h blankAfter,
    String.ofList_toList]

theorem trim_eq_self {text : String} (h : NoBlanks text.toList) : trim text = text := by
  have none : Text.AllBlank [] := nofun
  have alone := trimChars_between none h none
  rw [List.nil_append, List.append_nil] at alone
  rw [trim, alone, String.ofList_toList]

end Conform.Text
