import Conform.Pattern.Search

/-!
# A search finds what a pattern means

`matchesEmpty` and `advance` are the two halves of `Matches`: the empty part, and a part with a
first character (`matchesEmpty_iff`, `advance_iff`).  Hence a search answers whether some part of
the text matches (`occursIn_iff`).
-/

set_option autoImplicit false

namespace Conform.Pattern

/-! ## Empty parts -/

theorem matches_seq_nil_iff {before after : Option Char} {p q : Pattern} :
    Matches before (seq p q) [] after ↔ Matches before p [] after ∧ Matches before q [] after := by
  constructor
  · intro h
    generalize hs : ([] : List Char) = s at h
    cases h with
    | @seq _ _ _ _ s t hp hq =>
      obtain ⟨rfl, rfl⟩ := List.append_eq_nil_iff.mp hs.symm
      exact ⟨hp, hq⟩
  · intro h
    exact @Matches.seq before after p q [] [] h.1 h.2

theorem matchesEmpty_iff {before after : Option Char} (p : Pattern) :
    p.matchesEmpty before after = true ↔ Matches before p [] after := by
  induction p with
  | empty => exact ⟨fun _ => .empty, fun _ => rfl⟩
  | char k =>
    constructor
    · intro h
      cases h
    · intro h
      cases h
  | assert a =>
    constructor
    · intro h
      exact .assert h
    · intro h
      cases h with
      | assert h => exact h
  | seq p q ihp ihq =>
    rw [matches_seq_nil_iff, ← ihp, ← ihq]
    exact Bool.and_eq_true_iff
  | alt p q ihp ihq =>
    simp only [matchesEmpty, Bool.or_eq_true, ihp, ihq]
    constructor
    · intro h
      cases h with
      | inl h => exact .altLeft h
      | inr h => exact .altRight h
    · intro h
      cases h with
      | altLeft h => exact .inl h
      | altRight h => exact .inr h
  | star p ih => exact ⟨fun _ => .starNil, fun _ => rfl⟩

/-! ## Parts with a first character -/

/-- The last character of a part that begins with `c`, or what stands before it. -/
theorem getLast?_cons_or (c : Char) (s : List Char) (before : Option Char) :
    (c :: s).getLast?.or before = s.getLast?.or (some c) := by
  cases s with
  | nil => rfl
  | cons d t => simp [List.getLast?_cons]

theorem followedBy_iff {before after : Option Char} (p q : Pattern) (s : List Char) :
    Matches before (p.followedBy q) s after ↔ Matches before (seq p q) s after := by
  cases p with
  | empty =>
    constructor
    · intro h
      exact @Matches.seq before after empty q [] s .empty h
    · intro h
      cases h with
      | seq hp hq =>
        cases hp
        exact hq
  | char k => exact Iff.rfl
  | assert a => exact Iff.rfl
  | seq p r => exact Iff.rfl
  | alt p r => exact Iff.rfl
  | star p => exact Iff.rfl

/-- A part with a first character that matches a sequence begins either in its first pattern or,
when that one matches the empty part, in its second. -/
theorem matches_seq_cons_iff {before after : Option Char} {p q : Pattern} {c : Char}
    {s : List Char} :
    Matches before (seq p q) (c :: s) after ↔
      (∃ t u, s = t ++ u ∧ Matches before p (c :: t) (u.head?.or after) ∧
        Matches (t.getLast?.or (some c)) q u after) ∨
      (Matches before p [] (some c) ∧ Matches before q (c :: s) after) := by
  constructor
  · intro h
    generalize hs : c :: s = whole at h
    cases h with
    | @seq _ _ _ _ t u hp hq =>
      cases t with
      | nil =>
        rw [List.nil_append] at hs
        subst hs
        exact .inr ⟨hp, hq⟩
      | cons d t =>
        rw [List.cons_append] at hs
        cases hs
        rw [getLast?_cons_or] at hq
        exact .inl ⟨t, u, rfl, hp, hq⟩
  · intro h
    cases h with
    | inl h =>
      obtain ⟨t, u, rfl, hp, hq⟩ := h
      rw [← List.cons_append]
      refine .seq hp ?_
      rw [getLast?_cons_or]
      exact hq
    | inr h => exact @Matches.seq before after p q [] (c :: s) h.1 h.2

/-- A round of a repetition that matches the empty part can be left out. -/
theorem matches_star_cons_iff {before after : Option Char} {p : Pattern} {c : Char}
    {s : List Char} :
    Matches before (star p) (c :: s) after ↔
      ∃ t u, s = t ++ u ∧ Matches before p (c :: t) (u.head?.or after) ∧
        Matches (t.getLast?.or (some c)) (star p) u after := by
  constructor
  · intro h
    generalize hs : c :: s = whole at h
    generalize hq : star p = q at h
    induction h with
    | empty => cases hq
    | char _ => cases hq
    | assert _ => cases hq
    | seq _ _ _ _ => cases hq
    | altLeft _ _ => cases hq
    | altRight _ _ => cases hq
    | starNil => cases hs
    | @starCons _ _ _ t u hp hu _ ihu =>
      cases hq
      cases t with
      | nil => exact ihu hs rfl
      | cons d t =>
        rw [List.cons_append] at hs
        cases hs
        rw [getLast?_cons_or] at hu
        exact ⟨t, u, rfl, hp, hu⟩
  · intro h
    obtain ⟨t, u, rfl, hp, hu⟩ := h
    rw [← List.cons_append]
    refine .starCons hp ?_
    rw [getLast?_cons_or]
    exact hu

/-- The parts of a text that begin with `c` and match a pattern, and what `followedBy` leaves of
them. -/
theorem exists_followedBy_iff {before after : Option Char} {p q : Pattern} {c : Char}
    {s : List Char}
    (ih : ∀ (s : List Char) (after : Option Char),
      (∃ r ∈ p.advance before c, Matches (some c) r s after) ↔ Matches before p (c :: s) after) :
    (∃ r ∈ (p.advance before c).map (·.followedBy q), Matches (some c) r s after) ↔
      ∃ t u, s = t ++ u ∧ Matches before p (c :: t) (u.head?.or after) ∧
        Matches (t.getLast?.or (some c)) q u after := by
  constructor
  · intro h
    obtain ⟨r, hr, hm⟩ := h
    obtain ⟨r', hr', rfl⟩ := List.mem_map.mp hr
    cases (followedBy_iff r' q s).mp hm with
    | @seq _ _ _ _ t u hp hq => exact ⟨t, u, rfl, (ih t _).mp ⟨r', hr', hp⟩, hq⟩
  · intro h
    obtain ⟨t, u, rfl, hp, hq⟩ := h
    obtain ⟨r, hr, hm⟩ := (ih t _).mpr hp
    exact ⟨r.followedBy q, List.mem_map.mpr ⟨r, hr, rfl⟩, (followedBy_iff r q _).mpr (.seq hm hq)⟩

theorem advance_iff {before : Option Char} {c : Char} (p : Pattern) :
    ∀ (s : List Char) (after : Option Char),
      (∃ r ∈ p.advance before c, Matches (some c) r s after) ↔ Matches before p (c :: s) after := by
  induction p with
  | empty =>
    intro s after
    constructor
    · intro h
      obtain ⟨r, hr, _⟩ := h
      cases hr
    · intro h
      cases h
  | char k =>
    intro s after
    by_cases hk : k.contains c = true
    · simp only [advance, if_pos hk, List.mem_singleton, exists_eq_left]
      constructor
      · intro h
        cases h
        exact .char hk
      · intro h
        cases h
        exact .empty
    · simp only [advance, if_neg hk]
      constructor
      · intro h
        obtain ⟨r, hr, _⟩ := h
        cases hr
      · intro h
        cases h with
        | char h => exact absurd h hk
  | assert a =>
    intro s after
    constructor
    · intro h
      obtain ⟨r, hr, _⟩ := h
      cases hr
    · intro h
      cases h
  | seq p q ihp ihq =>
    intro s after
    rw [matches_seq_cons_iff, ← exists_followedBy_iff ihp, ← ihq s after, ← matchesEmpty_iff]
    simp only [advance, List.mem_append, or_and_right, exists_or]
    by_cases he : p.matchesEmpty before (some c) = true
    · simp only [he, if_true, true_and]
    · simp only [he, Bool.false_eq_true, if_false, List.not_mem_nil, false_and, exists_false]
  | alt p q ihp ihq =>
    intro s after
    simp only [advance, List.mem_append, or_and_right, exists_or, ihp s after, ihq s after]
    constructor
    · intro h
      cases h with
      | inl h => exact .altLeft h
      | inr h => exact .altRight h
    · intro h
      cases h with
      | altLeft h => exact .inl h
      | altRight h => exact .inr h
  | star p ih =>
    intro s after
    rw [matches_star_cons_iff, ← exists_followedBy_iff ih]
    exact Iff.rfl

/-! ## Searching -/

theorem mem_distinct_iff (p : Pattern) (ps : List Pattern) : p ∈ distinct ps ↔ p ∈ ps := by
  induction ps with
  | nil => exact Iff.rfl
  | cons q rest ih =>
    by_cases hq : q ∈ rest
    · simp only [distinct, if_pos hq, ih, List.mem_cons]
      constructor
      · exact .inr
      · intro h
        cases h with
        | inl h => exact h ▸ hq
        | inr h => exact h
    · simp only [distinct, if_neg hq, List.mem_cons, ih]

/-- A part from the current boundary on matches one of the active patterns, or some later part
matches `p`. -/
def Found (p : Pattern) (before : Option Char) (active : List Pattern) (text : List Char) : Prop :=
  (∃ q ∈ active, ∃ part right, text = part ++ right ∧ Matches before q part right.head?) ∨
    ∃ left part right, text = left ++ part ++ right ∧
      Matches (left.getLast?.or before) p part right.head?

/-- What is found in the empty text matches its empty part. -/
theorem found_nil_iff (p : Pattern) (before : Option Char) (active : List Pattern) :
    Found p before active [] ↔ ∃ q ∈ p :: active, Matches before q [] none := by
  constructor
  · intro h
    cases h with
    | inl h =>
      obtain ⟨q, hq, part, right, hs, hm⟩ := h
      obtain ⟨rfl, rfl⟩ := List.append_eq_nil_iff.mp hs.symm
      exact ⟨q, List.mem_cons_of_mem p hq, hm⟩
    | inr h =>
      obtain ⟨left, part, right, hs, hm⟩ := h
      obtain ⟨hlp, rfl⟩ := List.append_eq_nil_iff.mp hs.symm
      obtain ⟨rfl, rfl⟩ := List.append_eq_nil_iff.mp hlp
      exact ⟨p, List.mem_cons_self, hm⟩
  · intro h
    obtain ⟨q, hq, hm⟩ := h
    cases List.mem_cons.mp hq with
    | inl hq => exact .inr ⟨[], [], [], rfl, hq ▸ hm⟩
    | inr hq => exact .inl ⟨q, hq, [], [], rfl, hm⟩

/-- What is found in a text either matches the empty part at its start, or goes on after its first
character. -/
theorem found_cons_iff (p : Pattern) (before : Option Char) (active : List Pattern) (c : Char)
    (rest : List Char) :
    Found p before active (c :: rest) ↔
      (∃ q ∈ p :: active, Matches before q [] (some c)) ∨
        Found p (some c) ((p :: active).flatMap (advance before c)) rest := by
  constructor
  · intro h
    have begins : ∀ q ∈ p :: active, ∀ part right, c :: rest = part ++ right →
        Matches before q part right.head? →
        (∃ q ∈ p :: active, Matches before q [] (some c)) ∨
          Found p (some c) ((p :: active).flatMap (advance before c)) rest := by
      intro q hq part right hs hm
      cases part with
      | nil =>
        rw [List.nil_append] at hs
        subst hs
        exact .inl ⟨q, hq, hm⟩
      | cons d part =>
        rw [List.cons_append] at hs
        cases hs
        obtain ⟨r, hr, hm⟩ := (advance_iff q part _).mpr hm
        exact .inr (.inl ⟨r, List.mem_flatMap.mpr ⟨q, hq, hr⟩, part, right, rfl, hm⟩)
    cases h with
    | inl h =>
      obtain ⟨q, hq, part, right, hs, hm⟩ := h
      exact begins q (List.mem_cons_of_mem p hq) part right hs hm
    | inr h =>
      obtain ⟨left, part, right, hs, hm⟩ := h
      cases left with
      | nil => exact begins p List.mem_cons_self part right hs hm
      | cons d left =>
        rw [List.cons_append, List.cons_append] at hs
        cases hs
        rw [getLast?_cons_or] at hm
        exact .inr (.inr ⟨left, part, right, rfl, hm⟩)
  · intro h
    have starts : ∀ q ∈ p :: active, ∀ part right, c :: rest = part ++ right →
        Matches before q part right.head? → Found p before active (c :: rest) := by
      intro q hq part right hs hm
      cases List.mem_cons.mp hq with
      | inl hq => exact .inr ⟨[], part, right, hs, hq ▸ hm⟩
      | inr hq => exact .inl ⟨q, hq, part, right, hs, hm⟩
    cases h with
    | inl h =>
      obtain ⟨q, hq, hm⟩ := h
      exact starts q hq [] (c :: rest) rfl hm
    | inr h =>
      cases h with
      | inl h =>
        obtain ⟨r, hr, part, right, rfl, hm⟩ := h
        obtain ⟨q, hq, hr⟩ := List.mem_flatMap.mp hr
        exact starts q hq (c :: part) right rfl ((advance_iff q part _).mp ⟨r, hr, hm⟩)
      | inr h =>
        obtain ⟨left, part, right, rfl, hm⟩ := h
        refine .inr ⟨c :: left, part, right, rfl, ?_⟩
        rw [getLast?_cons_or]
        exact hm

theorem any_matchesEmpty_iff (before after : Option Char) (ps : List Pattern) :
    ps.any (matchesEmpty before after) = true ↔ ∃ q ∈ ps, Matches before q [] after := by
  simp only [List.any_eq_true, matchesEmpty_iff]

/-- Only the members of the list of active patterns matter. -/
theorem found_distinct_iff (p : Pattern) (before : Option Char) (active : List Pattern)
    (text : List Char) :
    Found p before (distinct active) text ↔ Found p before active text := by
  simp only [Found, mem_distinct_iff]

theorem searchFrom_iff (p : Pattern) (text : List Char) :
    ∀ (before : Option Char) (active : List Pattern),
      p.searchFrom before active text = true ↔ Found p before active text := by
  induction text with
  | nil =>
    intro before active
    rw [found_nil_iff, ← any_matchesEmpty_iff]
    exact Iff.rfl
  | cons c rest ih =>
    intro before active
    rw [found_cons_iff, ← any_matchesEmpty_iff, ← found_distinct_iff, ← ih]
    exact Bool.or_eq_true_iff

theorem occursIn_iff (p : Pattern) (text : String) :
    p.occursIn text = true ↔ p.OccursIn text.toList := by
  unfold occursIn
  rw [searchFrom_iff]
  constructor
  · intro h
    cases h with
    | inl h =>
      obtain ⟨q, hq, _⟩ := h
      cases hq
    | inr h =>
      obtain ⟨left, part, right, hs, hm⟩ := h
      rw [Option.or_none] at hm
      exact ⟨left, part, right, hs, hm⟩
  · intro h
    obtain ⟨left, part, right, hs, hm⟩ := h
    refine .inr ⟨left, part, right, hs, ?_⟩
    rw [Option.or_none]
    exact hm

end Conform.Pattern
