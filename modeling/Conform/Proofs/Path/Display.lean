import Conform.Path
import Conform.Proofs.Text.Digits

/-!
# The text of a path tells the path

A segment that follows another one begins with a dot or an opening bracket.  Names with neither end
where the next segment begins, and digits end at the closing bracket, so a text can be taken apart
in one way only.
-/

set_option autoImplicit false

namespace Conform

namespace Segment

/-- Does a segment that follows another one begin with this character? -/
def isMark (c : Char) : Bool := c == '.' || c == '['

/-- A name without marks, which is not empty; positions are told by their digits. -/
def Plain : Segment → Prop
  | field name => name ≠ "" ∧ ∀ c ∈ name.toList, isMark c = false
  | index _ => True

instance : (s : Segment) → Decidable s.Plain
  -- By the characters of the name, and not by all characters there are.
  | field _ => @instDecidableAnd _ _ inferInstance (List.decidableBAll _ _)
  | index _ => inferInstanceAs (Decidable True)

/-- The characters of a segment that follows another one. -/
def written : Segment → List Char
  | field name => '.' :: name.toList
  | index position => '[' :: (Nat.toDigits 10 position ++ [']'])

/-! ## Taking a text apart -/

theorem Plain.unmarked {name : String} (plain : (field name).Plain) :
    ∀ c ∈ name.toList, (!isMark c) = true :=
  fun c member => congrArg not (plain.2 c member)

/-- No mark comes before the next segment. -/
def Ends (rest : List Char) : Prop := rest.takeWhile (fun c => !isMark c) = []

theorem written_append_inj {s t : Segment} {rest further : List Char} (plain : s.Plain)
    (plain' : t.Plain) (ends : Ends rest) (ends' : Ends further)
    (same : s.written ++ rest = t.written ++ further) : s = t ∧ rest = further := by
  cases s with
  | field name =>
    cases t with
    | field other =>
      obtain ⟨names, rests⟩ :=
        Text.row_append_inj plain.unmarked plain'.unmarked ends ends' (List.cons.inj same).2
      exact ⟨congrArg field (String.toList_inj.mp names), rests⟩
    | index n => exact absurd (List.cons.inj same).1 (by decide)
  | index m =>
    cases t with
    | field other => exact absurd (List.cons.inj same).1 (by decide)
    | index n =>
      have bracket : ∀ text, (']' :: text).takeWhile Char.isDigit = [] := fun _ => rfl
      have inside : Nat.toDigits 10 m ++ ']' :: rest = Nat.toDigits 10 n ++ ']' :: further := by
        simpa [written] using same
      obtain ⟨digits, rests⟩ := Text.row_append_inj (Text.allDigits_toDigits m)
        (Text.allDigits_toDigits n) (bracket _) (bracket _) inside
      exact ⟨congrArg index (Text.toDigits_inj digits), (List.cons.inj rests).2⟩

/-! ## Rows of segments -/

theorem ends_flatMap_written (segments : List Segment) : Ends (segments.flatMap written) := by
  cases segments with
  | nil => rfl
  | cons s rest => cases s <;> rfl

theorem flatMap_written_inj {segments others : List Segment} (plain : ∀ s ∈ segments, s.Plain)
    (plain' : ∀ s ∈ others, s.Plain)
    (same : segments.flatMap written = others.flatMap written) : segments = others := by
  induction segments generalizing others with
  | nil =>
    cases others with
    | nil => rfl
    | cons t more => cases t <;> cases same
  | cons s rest ih =>
    cases others with
    | nil => cases s <;> cases same
    | cons t more =>
      rw [List.forall_mem_cons] at plain plain'
      rw [List.flatMap_cons, List.flatMap_cons] at same
      obtain ⟨rfl, later⟩ := written_append_inj plain.1 plain'.1 (ends_flatMap_written rest)
        (ends_flatMap_written more) same
      rw [ih plain.2 plain'.2 later]

end Segment

namespace Path

open Segment

theorem toList_displayFurther (segments : List Segment) :
    (displayFurther segments).toList = segments.flatMap written := by
  induction segments with
  | nil => rfl
  | cons s rest ih =>
    cases s with
    | field name => simp [displayFurther, written, ih]
    | index position => simp [displayFurther, written, ih, Nat.toString_eq_repr]

/-- Only a name at the start is written without a mark. -/
theorem toList_display (p : Path) :
    p.display.toList = p.segments.flatMap written ∨
      ∃ name rest, p.segments = .field name :: rest ∧
        p.display.toList = name.toList ++ rest.flatMap written := by
  obtain ⟨segments⟩ := p
  cases segments with
  | nil => exact .inl rfl
  | cons s rest =>
    cases s with
    | field name =>
      refine .inr ⟨name, rest, rfl, ?_⟩
      rw [← toList_displayFurther]
      exact String.toList_append
    | index position => exact .inl (toList_displayFurther (.index position :: rest))

/-- A name does not begin like a segment that follows another one. -/
theorem not_ends_of_plain {name : String} (plain : (Segment.field name).Plain) (rest : List Char) :
    ¬ Ends (name.toList ++ rest) := by
  intro ends
  rw [Ends, List.takeWhile_append_of_pos plain.unmarked] at ends
  exact plain.1 (String.toList_eq_nil_iff.mp (List.append_eq_nil_iff.mp ends).1)

def PlainNames (p : Path) : Prop := ∀ s ∈ p.segments, s.Plain

instance (p : Path) : Decidable p.PlainNames :=
  inferInstanceAs (Decidable (∀ s ∈ p.segments, s.Plain))

/-- Paths whose names are not empty and have neither dots nor opening brackets have the same text
only if they are the same, segment by segment. -/
theorem display_eq_iff_of_plain {p q : Path} (plain : p.PlainNames) (plain' : q.PlainNames) :
    p.display = q.display ↔ p = q := by
  refine ⟨fun same => ?_, congrArg display⟩
  have texts := congrArg String.toList same
  obtain ⟨segments⟩ := p
  obtain ⟨others⟩ := q
  rcases toList_display ⟨segments⟩ with first | ⟨name, rest, rfl, first⟩ <;>
    rcases toList_display ⟨others⟩ with second | ⟨other, more, rfl, second⟩ <;>
    rw [first, second] at texts
  · exact congrArg Path.mk (flatMap_written_inj plain plain' texts)
  · refine absurd ?_ (not_ends_of_plain (plain' _ List.mem_cons_self) (more.flatMap written))
    rw [← texts]
    exact ends_flatMap_written segments
  · refine absurd ?_ (not_ends_of_plain (plain _ List.mem_cons_self) (rest.flatMap written))
    rw [texts]
    exact ends_flatMap_written others
  · obtain ⟨own, later⟩ := List.forall_mem_cons.mp plain
    obtain ⟨own', later'⟩ := List.forall_mem_cons.mp plain'
    obtain ⟨names, rests⟩ := Text.row_append_inj own.unmarked own'.unmarked
      (ends_flatMap_written rest) (ends_flatMap_written more) texts
    rw [String.toList_inj.mp names, flatMap_written_inj later later' rests]

def cores : Path := (root.field "rocket").field "cores]"

/-- A name that is made of digits is not taken for a position. -/
theorem display_cores :
    ((cores.field "2").index 10).PlainNames ∧ ((cores.index 2).index 10).PlainNames ∧
      ((cores.field "2").index 10).display ≠ ((cores.index 2).index 10).display := by
  have plain : ((cores.field "2").index 10).PlainNames := by decide
  have plain' : ((cores.index 2).index 10).PlainNames := by decide
  refine ⟨plain, plain', fun same => ?_⟩
  have segments := congrArg Path.segments ((display_eq_iff_of_plain plain plain').mp same)
  exact absurd segments (by decide)

/-- A dot in a name is not told from the dot before a name. -/
example : (root.field "a.b").display = ((root.field "a").field "b").display := rfl

end Path

end Conform
