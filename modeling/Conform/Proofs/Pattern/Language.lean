import Conform.Pattern.Meaning
import Conform.Pattern.Standard
import Mathlib.Computability.Language

/-!
# The language of a pattern

A pattern without assertions matches the same parts wherever they stand, so it describes a language:
sequences are products, and repetitions are powers and closures.  A pattern between the assertions
of both ends of the text occurs in a text exactly when the whole text is in its language.
-/

set_option autoImplicit false

open scoped Computability

namespace Conform.Pattern

/-- Wherever they stand, the parts that the pattern matches are those of the language. -/
def Describes (p : Pattern) (l : Language Char) : Prop :=
  ∀ before s after, Matches before p s after ↔ s ∈ l

/-- The same, but only before the end of the text. -/
def DescribesEnd (p : Pattern) (l : Language Char) : Prop :=
  ∀ before s after, Matches before p s after ↔ s ∈ l ∧ after = none

/-- One character of the class. -/
def ofClass (k : CharClass) : Language Char := {s | ∃ c, k.contains c = true ∧ s = [c]}

variable {p q : Pattern} {l m : Language Char}

/-! ## Patterns and their languages -/

theorem matches_seq_iff {before after : Option Char} {s : List Char} :
    Matches before (seq p q) s after ↔
      ∃ t u, t ++ u = s ∧ Matches before p t (u.head?.or after) ∧
        Matches (t.getLast?.or before) q u after := by
  constructor
  · intro h
    cases h with
    | seq hp hq => exact ⟨_, _, rfl, hp, hq⟩
  · rintro ⟨t, u, rfl, hp, hq⟩
    exact .seq hp hq

theorem describes_empty : empty.Describes 1 := by
  intro before s after
  rw [Language.mem_one]
  constructor
  · intro h
    cases h
    rfl
  · rintro rfl
    exact .empty

theorem describes_char (k : CharClass) : (char k).Describes (ofClass k) := by
  intro before s after
  constructor
  · intro h
    cases h with
    | char member => exact ⟨_, member, rfl⟩
  · rintro ⟨c, member, rfl⟩
    exact .char member

theorem Describes.seq (h : p.Describes l) (h' : q.Describes m) : (seq p q).Describes (l * m) := by
  intro before s after
  rw [matches_seq_iff, Language.mem_mul]
  constructor
  · rintro ⟨t, u, whole, hp, hq⟩
    exact ⟨t, (h _ _ _).mp hp, u, (h' _ _ _).mp hq, whole⟩
  · rintro ⟨t, ht, u, hu, whole⟩
    exact ⟨t, u, whole, (h _ _ _).mpr ht, (h' _ _ _).mpr hu⟩

theorem Describes.star (h : p.Describes l) : (star p).Describes l∗ := by
  intro before s after
  constructor
  · intro rounds
    generalize repetition : Pattern.star p = r at rounds
    induction rounds with
    | empty | char _ | assert _ | seq _ _ | altLeft _ | altRight _ => cases repetition
    | starNil => exact Language.nil_mem_kstar l
    | starCons first _ _ ih =>
      cases repetition
      have rounds := Language.append_mem_mul ((h _ _ _).mp first) (ih rfl)
      exact Set.mem_of_mem_of_subset rounds (mul_kstar_le_kstar : l * l∗ ≤ l∗)
  · intro member
    obtain ⟨rounds, rfl, each⟩ := Language.mem_kstar.mp member
    clear member
    induction rounds generalizing before with
    | nil => exact .starNil
    | cons t rest ih =>
      obtain ⟨first, later⟩ := List.forall_mem_cons.mp each
      exact .starCons ((h _ _ _).mpr first) (ih _ later)

theorem Describes.times (h : p.Describes l) (n : Nat) : (p.times n).Describes (l ^ n) := by
  induction n using Pattern.times.induct with
  | case1 =>
    rw [pow_zero]
    exact describes_empty
  | case2 =>
    rw [pow_one]
    exact h
  | case3 n positive ih =>
    rw [Pattern.times, pow_succ']
    · exact h.seq ih
    · exact positive

theorem Describes.sequence {ps : List Pattern} {ls : List (Language Char)}
    (h : List.Forall₂ Describes ps ls) : (sequence ps).Describes ls.prod := by
  induction h with
  | nil => exact describes_empty
  | @cons p l ps ls first rest ih =>
    cases rest with
    | nil =>
      rw [List.prod_singleton]
      exact first
    | cons second more =>
      rw [List.prod_cons]
      exact first.seq ih

/-! ## Whole texts -/

theorem describesEnd_textEnd : (assert .textEnd).DescribesEnd 1 := by
  intro before s after
  rw [Language.mem_one]
  constructor
  · intro h
    cases h with
    | assert ends => exact ⟨rfl, Option.isNone_iff_eq_none.mp ends⟩
  · rintro ⟨rfl, rfl⟩
    exact .assert rfl

theorem Describes.seq_end (h : p.Describes l) (h' : q.DescribesEnd m) :
    (Pattern.seq p q).DescribesEnd (l * m) := by
  intro before s after
  rw [matches_seq_iff, Language.mem_mul]
  constructor
  · rintro ⟨t, u, whole, hp, hq⟩
    obtain ⟨hu, ends⟩ := (h' _ _ _).mp hq
    exact ⟨⟨t, (h _ _ _).mp hp, u, hu, whole⟩, ends⟩
  · rintro ⟨⟨t, ht, u, hu, whole⟩, ends⟩
    exact ⟨t, u, whole, (h _ _ _).mpr ht, (h' _ _ _).mpr ⟨hu, ends⟩⟩

/-- A pattern that starts at the start of the text and stops at its end takes in all of it. -/
theorem occursIn_iff_of_describesEnd (h : p.DescribesEnd l) (text : String) :
    (seq (assert .textStart) p).occursIn text = true ↔ text.toList ∈ l := by
  rw [occursIn_iff]
  constructor
  · rintro ⟨left, part, right, whole, found⟩
    obtain ⟨t, u, rfl, starts, rest⟩ := matches_seq_iff.mp found
    cases starts with
    | assert starts =>
      obtain ⟨member, ends⟩ := (h _ _ _).mp rest
      obtain rfl : left = [] := List.getLast?_eq_none_iff.mp (Option.isNone_iff_eq_none.mp starts)
      obtain rfl : right = [] := List.head?_eq_none_iff.mp ends
      rw [whole, List.append_nil]
      exact member
  · intro member
    refine ⟨[], text.toList, [], (List.append_nil _).symm, ?_⟩
    exact matches_seq_iff.mpr
      ⟨[], text.toList, rfl, .assert rfl, (h _ _ _).mpr ⟨member, rfl⟩⟩

theorem Describes.sequence_end {ps : List Pattern} {ls : List (Language Char)}
    (h : List.Forall₂ Describes ps ls) :
    (Pattern.sequence (ps ++ [assert .textEnd])).DescribesEnd ls.prod := by
  induction h with
  | nil => exact describesEnd_textEnd
  | @cons p l ps ls first _ ih =>
    have step : Pattern.sequence (p :: ps ++ [assert .textEnd]) =
        Pattern.seq p (Pattern.sequence (ps ++ [assert .textEnd])) := by
      cases ps <;> rfl
    rw [step, List.prod_cons]
    exact first.seq_end ih

/-- A row of patterns that is written between the two assertions. -/
theorem occursIn_between_iff {ps : List Pattern} {ls : List (Language Char)}
    (h : List.Forall₂ Describes ps ls) (text : String) :
    (sequence (assert .textStart :: (ps ++ [assert .textEnd]))).occursIn text = true ↔
      text.toList ∈ ls.prod := by
  have step : sequence (assert .textStart :: (ps ++ [assert .textEnd])) =
      seq (assert .textStart) (sequence (ps ++ [assert .textEnd])) := by
    cases ps <;> rfl
  rw [step]
  exact occursIn_iff_of_describesEnd (Describes.sequence_end h) text

theorem occursIn_anchored_iff (h : p.Describes l) (text : String) :
    (anchored p).occursIn text = true ↔ text.toList ∈ l := by
  have ends := h.seq_end describesEnd_textEnd
  rw [mul_one] at ends
  exact occursIn_iff_of_describesEnd ends text

/-! ## Rows of characters -/

section Rows

variable {k : CharClass} {s : List Char}

theorem mem_ofClass_mul_iff :
    s ∈ ofClass k * l ↔ ∃ c t, s = c :: t ∧ k.contains c = true ∧ t ∈ l := by
  rw [Language.mem_mul]
  constructor
  · rintro ⟨_, ⟨c, member, rfl⟩, t, rest, rfl⟩
    exact ⟨c, t, rfl, member, rest⟩
  · rintro ⟨c, t, rfl, member, rest⟩
    exact ⟨[c], ⟨c, member, rfl⟩, t, rest, rfl⟩

/-- Character by character, each of the class at its position. -/
theorem mem_prod_ofClass_iff (ks : List CharClass) (s : List Char) :
    s ∈ (ks.map ofClass).prod ↔ List.Forall₂ (fun c k => k.contains c = true) s ks := by
  induction ks generalizing s with
  | nil =>
    rw [List.map_nil, List.prod_nil, Language.mem_one, List.forall₂_nil_right_iff]
  | cons k rest ih =>
    rw [List.map_cons, List.prod_cons, mem_ofClass_mul_iff, List.forall₂_cons_right_iff]
    constructor
    · rintro ⟨c, t, rfl, member, later⟩
      exact ⟨c, t, member, (ih t).mp later, rfl⟩
    · rintro ⟨c, t, member, later, rfl⟩
      exact ⟨c, t, rfl, member, (ih t).mpr later⟩

theorem mem_ofClass_pow_iff (n : Nat) :
    s ∈ ofClass k ^ n ↔ s.length = n ∧ ∀ c ∈ s, k.contains c = true := by
  induction n generalizing s with
  | zero =>
    rw [pow_zero, Language.mem_one, List.length_eq_zero_iff]
    refine ⟨?_, And.left⟩
    rintro rfl
    exact ⟨rfl, nofun⟩
  | succ n ih =>
    rw [pow_succ', mem_ofClass_mul_iff]
    constructor
    · rintro ⟨c, t, rfl, member, rest⟩
      obtain ⟨length, each⟩ := ih.mp rest
      exact ⟨congrArg (· + 1) length, List.forall_mem_cons.mpr ⟨member, each⟩⟩
    · rintro ⟨length, each⟩
      obtain ⟨c, t, rfl⟩ := List.exists_cons_of_length_eq_add_one length
      obtain ⟨member, rest⟩ := List.forall_mem_cons.mp each
      exact ⟨c, t, rfl, member, ih.mpr ⟨Nat.succ.inj length, rest⟩⟩

theorem mem_ofClass_kstar_iff : s ∈ (ofClass k)∗ ↔ ∀ c ∈ s, k.contains c = true := by
  rw [Language.kstar_eq_iSup_pow, Language.mem_iSup]
  constructor
  · rintro ⟨n, member⟩
    exact ((mem_ofClass_pow_iff n).mp member).2
  · intro each
    exact ⟨s.length, (mem_ofClass_pow_iff _).mpr ⟨rfl, each⟩⟩

/-- At least so many characters of a class. -/
theorem mem_pow_mul_kstar_iff (n : Nat) :
    s ∈ ofClass k ^ n * (ofClass k)∗ ↔ n ≤ s.length ∧ ∀ c ∈ s, k.contains c = true := by
  rw [Language.mem_mul]
  constructor
  · rintro ⟨t, first, u, rest, rfl⟩
    obtain ⟨length, each⟩ := (mem_ofClass_pow_iff n).mp first
    have later := mem_ofClass_kstar_iff.mp rest
    refine ⟨?_, fun c member => (List.mem_append.mp member).elim (each c) (later c)⟩
    rw [List.length_append, length]
    omega
  · rintro ⟨enough, each⟩
    refine ⟨s.take n, (mem_ofClass_pow_iff n).mpr ⟨?_, ?_⟩, s.drop n, mem_ofClass_kstar_iff.mpr ?_,
      List.take_append_drop n s⟩
    · rw [List.length_take]
      omega
    · exact fun c member => each c (List.mem_of_mem_take member)
    · exact fun c member => each c (List.mem_of_mem_drop member)

end Rows

end Conform.Pattern
