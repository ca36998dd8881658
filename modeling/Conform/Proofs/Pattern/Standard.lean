import Conform.Pattern.Reader
import Conform.Proofs.Pattern.Language
import Conform.Proofs.Text.Blank
import Mathlib.Algebra.BigOperators.Group.List.Basic

/-!
# What the standard patterns describe

Both patterns are rows of simpler ones between the ends of the text, and so are the patterns that
their written forms are read as.  The row of a uuid has a class for every position.  The row of a
mail address does not say which dot ends the name of the host, but the letters at the end have no
dots, so it is the last one.
-/

set_option autoImplicit false

open scoped Computability

namespace Conform

namespace CharClass

/-! ## Classes of characters -/

theorem contains_range_iff {low high c : Char} :
    (range low high).contains c = true ↔ low ≤ c ∧ c ≤ high := by
  rw [contains, Bool.and_eq_true, decide_eq_true_iff, decide_eq_true_iff]
  exact Iff.rfl

theorem contains_single_iff {c d : Char} : (single d).contains c = true ↔ c = d := by
  rw [single, contains_range_iff]
  constructor
  · intro h
    exact Char.le_antisymm h.2 h.1
  · rintro rfl
    exact ⟨Char.le_refl _, Char.le_refl _⟩

theorem contains_union_iff {a b : CharClass} {c : Char} :
    (union a b).contains c = true ↔ a.contains c = true ∨ b.contains c = true :=
  Bool.or_eq_true_iff

theorem contains_ofRanges_iff {ranges : List (Char × Char)} {c : Char} :
    (ofRanges ranges).contains c = true ↔ ∃ r ∈ ranges, r.1 ≤ c ∧ c ≤ r.2 := by
  induction ranges with
  | nil => simp [ofRanges, contains]
  | cons r rest ih =>
    have step : ofRanges (r :: rest) = union (range r.1 r.2) (ofRanges rest) := rfl
    rw [step, contains_union_iff, contains_range_iff, ih]
    simp

/-- The class that is read from ranges in brackets. -/
def inBrackets (ranges : List (Char × Char)) : CharClass :=
  ranges.foldl (fun k r => union k (range r.1 r.2)) nothing

theorem contains_inBrackets_iff {ranges : List (Char × Char)} {c : Char} :
    (inBrackets ranges).contains c = true ↔ ∃ r ∈ ranges, r.1 ≤ c ∧ c ≤ r.2 := by
  have more : ∀ k : CharClass,
      (ranges.foldl (fun k r => union k (range r.1 r.2)) k).contains c = true ↔
        k.contains c = true ∨ ∃ r ∈ ranges, r.1 ≤ c ∧ c ≤ r.2 := by
    induction ranges with
    | nil => simp
    | cons r rest ih =>
      intro k
      rw [List.foldl_cons, ih, contains_union_iff, contains_range_iff, or_assoc]
      simp
  rw [inBrackets, more]
  simp [contains]

theorem isDigit_iff {c : Char} : c.isDigit = true ↔ '0' ≤ c ∧ c ≤ '9' := by
  have range : c.isDigit = (range '0' '9').contains c := rfl
  rw [range, contains_range_iff]

theorem isAlpha_iff {c : Char} : c.isAlpha = true ↔ ('A' ≤ c ∧ c ≤ 'Z') ∨ ('a' ≤ c ∧ c ≤ 'z') := by
  have ranges : c.isAlpha = (decide ('A' ≤ c ∧ c ≤ 'Z') || (range 'a' 'z').contains c) := rfl
  rw [ranges, Bool.or_eq_true, decide_eq_true_iff, contains_range_iff]

theorem isAlphanum_iff {c : Char} : c.isAlphanum = true ↔ c.isAlpha = true ∨ c.isDigit = true :=
  Bool.or_eq_true_iff

end CharClass

namespace Pattern

open CharClass

/-- A hexadecimal digit, in either case. -/
def IsHexDigit (c : Char) : Prop :=
  c.isDigit = true ∨ ('a' ≤ c ∧ c ≤ 'f') ∨ ('A' ≤ c ∧ c ≤ 'F')

/-- A character of the name before the `@`. -/
def IsNameChar (c : Char) : Prop := c.isAlphanum = true ∨ c ∈ ['.', '_', '%', '+', '-']

/-- A character of the host after it. -/
def IsHostChar (c : Char) : Prop := c.isAlphanum = true ∨ c ∈ ['.', '-']

theorem hexDigit_contains_iff {c : Char} : hexDigit.contains c = true ↔ IsHexDigit c := by
  simp [hexDigit, contains_ofRanges_iff, IsHexDigit, isDigit_iff]

theorem asciiLetter_contains_iff {c : Char} : asciiLetter.contains c = true ↔ c.isAlpha = true := by
  simp [asciiLetter, contains_ofRanges_iff, isAlpha_iff, or_comm]

theorem asciiAlphanumeric_contains_iff {c : Char} :
    asciiAlphanumeric.contains c = true ↔ c.isAlphanum = true := by
  have digits : asciiAlphanumeric.contains c = true ↔
      asciiLetter.contains c = true ∨ '0' ≤ c ∧ c ≤ '9' := by
    simp [asciiAlphanumeric, asciiLetter, contains_ofRanges_iff, or_assoc]
  rw [digits, asciiLetter_contains_iff, isAlphanum_iff, isDigit_iff]

/-- Ranges of one character each. -/
theorem contains_singles_iff (members : List Char) {c : Char} :
    (ofRanges (members.map fun d => (d, d))).contains c = true ↔ c ∈ members := by
  rw [contains_ofRanges_iff]
  constructor
  · intro h
    obtain ⟨_, member, low, high⟩ := h
    obtain ⟨d, found, rfl⟩ := List.mem_map.mp member
    rw [Char.le_antisymm high low]
    exact found
  · intro member
    exact ⟨(c, c), List.mem_map.mpr ⟨c, member, rfl⟩, Char.le_refl c, Char.le_refl c⟩

theorem mailNameChar_contains_iff {c : Char} :
    mailNameChar.contains c = true ↔ IsNameChar c := by
  rw [mailNameChar, contains_union_iff, asciiAlphanumeric_contains_iff]
  exact or_congr_right (contains_singles_iff ['.', '_', '%', '+', '-'])

theorem mailHostChar_contains_iff {c : Char} :
    mailHostChar.contains c = true ↔ IsHostChar c := by
  rw [mailHostChar, contains_union_iff, asciiAlphanumeric_contains_iff]
  exact or_congr_right (contains_singles_iff ['.', '-'])

/-! ## Uuids -/

/-- 36 characters, hyphens at four positions and hexadecimal digits at the others. -/
def IsUuid (text : List Char) : Prop :=
  text.length = 36 ∧
    ∀ i c, text[i]? = some c → if i ∈ [8, 13, 18, 23] then c = '-' else IsHexDigit c

/-- The row of a uuid, with a class for the digits. -/
def uuidRow (k : CharClass) : List Pattern :=
  [times (char k) 8, literal '-', times (char k) 4, literal '-', times (char k) 4, literal '-',
    times (char k) 4, literal '-', times (char k) 12]

def uuidLanguages (k : CharClass) : List (Language Char) :=
  [ofClass k ^ 8, ofClass (single '-'), ofClass k ^ 4, ofClass (single '-'), ofClass k ^ 4,
    ofClass (single '-'), ofClass k ^ 4, ofClass (single '-'), ofClass k ^ 12]

theorem uuidRow_describes (k : CharClass) :
    List.Forall₂ Describes (uuidRow k) (uuidLanguages k) := by
  have digits := (describes_char k).times
  have hyphen := describes_char (single '-')
  exact .cons (digits 8) (.cons hyphen (.cons (digits 4) (.cons hyphen (.cons (digits 4)
    (.cons hyphen (.cons (digits 4) (.cons hyphen (.cons (digits 12) .nil))))))))

/-- The class at every position. -/
def uuidClasses (k : CharClass) : List CharClass :=
  List.replicate 8 k ++ [single '-'] ++ List.replicate 4 k ++ [single '-'] ++ List.replicate 4 k ++
    [single '-'] ++ List.replicate 4 k ++ [single '-'] ++ List.replicate 12 k

theorem prod_uuidLanguages (k : CharClass) :
    (uuidLanguages k).prod = ((uuidClasses k).map ofClass).prod := by
  simp only [uuidLanguages, uuidClasses, List.map_append, List.map_replicate, List.map_cons,
    List.map_nil, List.prod_append, List.prod_replicate, List.prod_cons, List.prod_nil, mul_one,
    mul_assoc]

/-- The class of the characters at a position. -/
def uuidClassAt (i : Nat) : CharClass := if i ∈ [8, 13, 18, 23] then single '-' else hexDigit

theorem uuidClasses_eq : uuidClasses hexDigit = (List.range 36).map uuidClassAt := by
  decide

theorem uuidClassAt_contains_iff {i : Nat} {c : Char} :
    (uuidClassAt i).contains c = true ↔ if i ∈ [8, 13, 18, 23] then c = '-' else IsHexDigit c := by
  rw [uuidClassAt]
  split
  · exact contains_single_iff
  · exact hexDigit_contains_iff

theorem mem_uuidLanguages_iff (text : List Char) :
    text ∈ (uuidLanguages hexDigit).prod ↔ IsUuid text := by
  rw [prod_uuidLanguages, mem_prod_ofClass_iff, uuidClasses_eq, List.forall₂_iff_get]
  simp only [List.length_map, List.length_range, List.get_eq_getElem, List.getElem_map,
    List.getElem_range, uuidClassAt_contains_iff]
  refine and_congr_right fun size => ?_
  constructor
  · intro each i c found
    obtain ⟨inside, rfl⟩ := List.getElem?_eq_some_iff.mp found
    exact each i inside (size ▸ inside)
  · intro each i inside _
    exact each i _ (List.getElem?_eq_getElem inside)

/-! ## Mail addresses -/

/-- Characters of hosts, something before the last dot, and two letters or more after it. -/
def IsHost (text : List Char) : Prop :=
  (∀ c ∈ text, IsHostChar c) ∧
    ∃ label top, text = label ++ '.' :: top ∧ '.' ∉ top ∧ label ≠ [] ∧ 2 ≤ top.length ∧
      ∀ c ∈ top, c.isAlpha = true

/-- One `@`, with a name before it and a host after it. -/
def IsAddress (text : List Char) : Prop :=
  text.count '@' = 1 ∧
    ∃ name host, text = name ++ '@' :: host ∧ name ≠ [] ∧ (∀ c ∈ name, IsNameChar c) ∧ IsHost host

/-- The row of a mail address, with the classes of its three parts. -/
def addressRow (name label top : CharClass) : List Pattern :=
  [plus (char name), literal '@', plus (char label), literal '.', repeated (char top) 2 none]

def addressLanguages (name label top : CharClass) : List (Language Char) :=
  [ofClass name ^ 1 * (ofClass name)∗, ofClass (single '@'), ofClass label ^ 1 * (ofClass label)∗,
    ofClass (single '.'), ofClass top ^ 2 * (ofClass top)∗]

theorem addressRow_describes (name label top : CharClass) :
    List.Forall₂ Describes (addressRow name label top) (addressLanguages name label top) := by
  have atLeast : ∀ (k : CharClass) (n : Nat),
      (seq (times (char k) n) (star (char k))).Describes (ofClass k ^ n * (ofClass k)∗) := by
    intro k n
    exact ((describes_char k).times n).seq (describes_char k).star
  exact .cons (atLeast name 1) (.cons (describes_char _) (.cons (atLeast label 1)
    (.cons (describes_char _) (.cons (atLeast top 2) .nil))))

theorem mem_addressLanguages_iff {name label top : CharClass} (text : List Char) :
    text ∈ (addressLanguages name label top).prod ↔
      ∃ n h t, text = n ++ '@' :: (h ++ '.' :: t) ∧
        (1 ≤ n.length ∧ ∀ c ∈ n, name.contains c = true) ∧
        (1 ≤ h.length ∧ ∀ c ∈ h, label.contains c = true) ∧
        (2 ≤ t.length ∧ ∀ c ∈ t, top.contains c = true) := by
  simp only [addressLanguages, List.prod_cons, List.prod_nil, mul_one]
  constructor
  · intro member
    obtain ⟨n, first, _, fromSign, rfl⟩ := Language.mem_mul.mp member
    obtain ⟨_, _, rfl, atSign, afterSign⟩ := mem_ofClass_mul_iff.mp fromSign
    obtain ⟨h, second, _, fromDot, rfl⟩ := Language.mem_mul.mp afterSign
    obtain ⟨_, t, rfl, dot, third⟩ := mem_ofClass_mul_iff.mp fromDot
    obtain rfl := contains_single_iff.mp atSign
    obtain rfl := contains_single_iff.mp dot
    exact ⟨n, h, t, rfl, (mem_pow_mul_kstar_iff 1).mp first, (mem_pow_mul_kstar_iff 1).mp second,
      (mem_pow_mul_kstar_iff 2).mp third⟩
  · intro parts
    obtain ⟨n, h, t, rfl, first, second, third⟩ := parts
    have dot := mem_ofClass_mul_iff.mpr ⟨'.', t, rfl, contains_single_iff.mpr rfl,
      (mem_pow_mul_kstar_iff 2).mpr third⟩
    have host := Language.append_mem_mul ((mem_pow_mul_kstar_iff 1).mpr second) dot
    have atSign := mem_ofClass_mul_iff.mpr ⟨'@', _, rfl, contains_single_iff.mpr rfl, host⟩
    exact Language.append_mem_mul ((mem_pow_mul_kstar_iff 1).mpr first) atSign

theorem isHostChar_of_isAlpha {c : Char} (h : c.isAlpha = true) : IsHostChar c := by
  exact .inl (isAlphanum_iff.mpr (.inl h))

theorem not_mem_of_forall {P : Char → Prop} {text : List Char} {c : Char} (all : ∀ d ∈ text, P d)
    (none : ¬ P c) : c ∉ text := fun member => none (all c member)

/-- Neither part has another `@`, and the last one has no dot. -/
theorem isAddress_of_parts {n h t : List Char} (name : ∀ c ∈ n, IsNameChar c) (named : n ≠ [])
    (label : ∀ c ∈ h, IsHostChar c) (labelled : h ≠ []) (top : ∀ c ∈ t, c.isAlpha = true)
    (enough : 2 ≤ t.length) : IsAddress (n ++ '@' :: (h ++ '.' :: t)) := by
  have host : ∀ c ∈ h ++ '.' :: t, IsHostChar c := by
    intro c member
    rcases List.mem_append.mp member with first | later
    · exact label c first
    · rcases List.mem_cons.mp later with rfl | last
      · exact .inr (by decide)
      · exact isHostChar_of_isAlpha (top c last)
  have before : '@' ∉ n := not_mem_of_forall name (by simp [IsNameChar])
  have after : '@' ∉ h ++ '.' :: t := not_mem_of_forall host (by simp [IsHostChar])
  have noDot : '.' ∉ t := not_mem_of_forall top (by decide)
  refine ⟨?_, n, _, rfl, named, name, host, h, t, rfl, noDot, labelled, enough, top⟩
  rw [List.count_append, List.count_cons_self, List.count_eq_zero.mpr before,
    List.count_eq_zero.mpr after]

theorem mem_addressLanguages_mail_iff (text : List Char) :
    text ∈ (addressLanguages mailNameChar mailHostChar asciiLetter).prod ↔ IsAddress text := by
  rw [mem_addressLanguages_iff]
  simp only [mailNameChar_contains_iff, mailHostChar_contains_iff, asciiLetter_contains_iff]
  constructor
  · intro parts
    obtain ⟨n, h, t, rfl, ⟨named, name⟩, ⟨labelled, label⟩, enough, top⟩ := parts
    exact isAddress_of_parts name (List.ne_nil_of_length_pos named) label
      (List.ne_nil_of_length_pos labelled) top enough
  · intro address
    obtain ⟨_, n, _, rfl, named, name, host, h, t, rfl, _, labelled, enough, top⟩ := address
    exact ⟨n, h, t, rfl, ⟨List.length_pos_iff.mpr named, name⟩,
      ⟨List.length_pos_iff.mpr labelled, fun c member => host c (List.mem_append_left _ member)⟩,
      enough, top⟩

/-! ## Characters that can be seen -/

/-- A character of ASCII that is neither white space nor a control. -/
def IsGraphic (c : Char) : Prop := 33 ≤ c.toNat ∧ c.toNat ≤ 126

theorem IsGraphic.isWhiteSpace {c : Char} (h : IsGraphic c) : Unicode.isWhiteSpace c = false := by
  obtain ⟨low, high⟩ := h
  have first : ¬ c.toNat ≤ 13 ∧ ¬ c.toNat ≤ 32 ∧ c.toNat < 133 := by omega
  simp [Unicode.isWhiteSpace, Unicode.inRanges, Unicode.whiteSpaceRanges, first]

theorem isGraphic_of_isAlphanum {c : Char} (h : c.isAlphanum = true) : IsGraphic c := by
  simp [isAlphanum_iff, isAlpha_iff, isDigit_iff, Char.le_def, UInt32.le_iff_toNat_le] at h
  constructor <;> omega

theorem IsHexDigit.isGraphic {c : Char} (h : IsHexDigit c) : IsGraphic c := by
  simp [IsHexDigit, isDigit_iff, Char.le_def, UInt32.le_iff_toNat_le] at h
  constructor <;> omega

theorem IsUuid.isGraphic {text : List Char} (h : IsUuid text) : ∀ c ∈ text, IsGraphic c := by
  intro c member
  obtain ⟨i, found⟩ := List.mem_iff_getElem?.mp member
  have allowed := h.2 i c found
  split at allowed
  · rw [allowed]
    exact ⟨by decide, by decide⟩
  · exact allowed.isGraphic

theorem isGraphic_of_mem {members : List Char} {c : Char} (member : c ∈ members)
    (graphic : members.all fun c => 33 ≤ c.toNat && c.toNat ≤ 126) : IsGraphic c := by
  simpa [IsGraphic] using List.all_eq_true.mp graphic c member

theorem IsAddress.isGraphic {text : List Char} (h : IsAddress text) : ∀ c ∈ text, IsGraphic c := by
  obtain ⟨_, name, host, rfl, _, named, hosted, _⟩ := h
  intro c member
  rcases List.mem_append.mp member with first | later
  · rcases named c first with alphanumeric | other
    · exact isGraphic_of_isAlphanum alphanumeric
    · exact isGraphic_of_mem other (by decide)
  · rcases List.mem_cons.mp later with rfl | last
    · exact ⟨by decide, by decide⟩
    · rcases hosted c last with alphanumeric | other
      · exact isGraphic_of_isAlphanum alphanumeric
      · exact isGraphic_of_mem other (by decide)

/-! ## The patterns and their written forms -/

theorem occursIn_uuid_iff (text : String) : uuid.occursIn text = true ↔ IsUuid text.toList :=
  (occursIn_anchored_iff (Describes.sequence (uuidRow_describes hexDigit)) text).trans
    (mem_uuidLanguages_iff text.toList)

theorem occursIn_email_iff (text : String) : email.occursIn text = true ↔ IsAddress text.toList :=
  (occursIn_anchored_iff (Describes.sequence (addressRow_describes _ _ _)) text).trans
    (mem_addressLanguages_mail_iff text.toList)

/-- Only the members of a class count. -/
theorem ofClass_congr {k k' : CharClass} (h : ∀ c, k.contains c = true ↔ k'.contains c = true) :
    ofClass k = ofClass k' :=
  Language.ext fun _ => exists_congr fun c => and_congr_left fun _ => h c

def uuidWritten : String :=
  "^[0-9a-fA-F]\x7b8\x7d-[0-9a-fA-F]\x7b4\x7d-[0-9a-fA-F]\x7b4\x7d-[0-9a-fA-F]\x7b4\x7d" ++
    "-[0-9a-fA-F]\x7b12\x7d$"

def emailWritten : String := "^[a-zA-Z0-9._%+-]+@[a-zA-Z0-9.-]+\\.[a-zA-Z]\x7b2,\x7d$"

theorem exists_read?_uuidWritten :
    ∃ p, read? uuidWritten = some p ∧ ∀ text, p.occursIn text = true ↔ IsUuid text.toList := by
  have read : read? uuidWritten =
      some (sequence (assert .textStart ::
        (uuidRow (inBrackets [('0', '9'), ('a', 'f'), ('A', 'F')]) ++ [assert .textEnd]))) := by
    decide +kernel
  refine ⟨_, read, fun text => ?_⟩
  have digits : ofClass (inBrackets [('0', '9'), ('a', 'f'), ('A', 'F')]) = ofClass hexDigit :=
    ofClass_congr fun c => contains_inBrackets_iff.trans contains_ofRanges_iff.symm
  rw [occursIn_between_iff (uuidRow_describes _), uuidLanguages, digits]
  exact mem_uuidLanguages_iff text.toList

theorem exists_read?_emailWritten :
    ∃ p, read? emailWritten = some p ∧ ∀ text, p.occursIn text = true ↔ IsAddress text.toList := by
  have read : read? emailWritten =
      some (sequence (assert .textStart ::
        (addressRow
          (inBrackets [('a', 'z'), ('A', 'Z'), ('0', '9'), ('.', '.'), ('_', '_'), ('%', '%'),
            ('+', '+'), ('-', '-')])
          (inBrackets [('a', 'z'), ('A', 'Z'), ('0', '9'), ('.', '.'), ('-', '-')])
          (inBrackets [('a', 'z'), ('A', 'Z')]) ++ [assert .textEnd]))) := by
    decide +kernel
  refine ⟨_, read, fun text => ?_⟩
  have name : ofClass (inBrackets [('a', 'z'), ('A', 'Z'), ('0', '9'), ('.', '.'), ('_', '_'),
      ('%', '%'), ('+', '+'), ('-', '-')]) = ofClass mailNameChar :=
    ofClass_congr fun c => by
      simp [mailNameChar, asciiAlphanumeric, contains_inBrackets_iff, contains_union_iff,
        contains_ofRanges_iff, or_assoc]
  have label : ofClass (inBrackets [('a', 'z'), ('A', 'Z'), ('0', '9'), ('.', '.'), ('-', '-')]) =
      ofClass mailHostChar :=
    ofClass_congr fun c => by
      simp [mailHostChar, asciiAlphanumeric, contains_inBrackets_iff, contains_union_iff,
        contains_ofRanges_iff, or_assoc]
  have top : ofClass (inBrackets [('a', 'z'), ('A', 'Z')]) = ofClass asciiLetter :=
    ofClass_congr fun c => contains_inBrackets_iff.trans contains_ofRanges_iff.symm
  rw [occursIn_between_iff (addressRow_describes _ _ _), addressLanguages, name, label, top]
  exact mem_addressLanguages_mail_iff text.toList

end Pattern

end Conform
