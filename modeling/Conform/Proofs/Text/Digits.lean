import Conform.Text.Digits
import Mathlib.Algebra.Order.Group.Nat
import Mathlib.Data.List.TakeWhile

/-!
# Reading the digits that were written

The decimal digits of a number stand for that number, with or without zeros in front; zeros behind
them multiply it by powers of ten.  A number has one numeral of a given least width.
-/

set_option autoImplicit false

namespace Conform.Text

/-! ## What digits stand for -/

theorem digitsValue_eq (digits : List Char) :
    digitsValue digits = Nat.ofDigitChars 10 digits 0 := rfl

theorem digitsValue_toDigits (n : Nat) : digitsValue (Nat.toDigits 10 n) = n :=
  Nat.ofDigitChars_ten_toDigits

theorem toDigits_inj {m n : Nat} (same : Nat.toDigits 10 m = Nat.toDigits 10 n) : m = n := by
  rw [← digitsValue_toDigits m, ← digitsValue_toDigits n, same]

theorem digitsValue_zeros_append (count : Nat) (digits : List Char) :
    digitsValue (List.replicate count '0' ++ digits) = digitsValue digits := by
  rw [digitsValue_eq, Nat.ofDigitChars_append, Nat.ofDigitChars_replicate_zero, Nat.mul_zero,
    digitsValue_eq]

theorem digitsValue_append_zeros (digits : List Char) (count : Nat) :
    digitsValue (digits ++ List.replicate count '0') = digitsValue digits * 10 ^ count := by
  rw [digitsValue_eq, Nat.ofDigitChars_append, Nat.ofDigitChars_replicate_zero, Nat.mul_comm,
    digitsValue_eq]

theorem digitsValue_padded (width n : Nat) : digitsValue (padded width n) = n := by
  rw [padded, digitsValue_zeros_append, digitsValue_toDigits]

/-! ## Rows of digits -/

theorem toNat_of_isDigit {c : Char} (h : c.isDigit = true) : 48 ≤ c.toNat ∧ c.toNat ≤ 57 := by
  simpa [Char.isDigit, UInt32.le_iff_toNat_le] using h

def AllDigits (text : List Char) : Prop := ∀ c ∈ text, c.isDigit = true

theorem allDigits_toDigits (n : Nat) : AllDigits (Nat.toDigits 10 n) := fun _ member =>
  Nat.isDigit_of_mem_toDigits (by decide) (by decide) member

theorem allDigits_zeros (count : Nat) : AllDigits (List.replicate count '0') := by
  intro c member
  rw [List.eq_of_mem_replicate member]
  rfl

theorem AllDigits.append {digits others : List Char} (h : AllDigits digits)
    (h' : AllDigits others) : AllDigits (digits ++ others) := by
  intro c member
  exact (List.mem_append.mp member).elim (h c) (h' c)

theorem allDigits_padded (width n : Nat) : AllDigits (padded width n) :=
  (allDigits_zeros _).append (allDigits_toDigits n)

theorem length_padded_eq_max (width n : Nat) :
    (padded width n).length = max width (Nat.toDigits 10 n).length := by
  rw [padded, List.length_append, List.length_replicate]
  omega

theorem length_padded {width n : Nat} (pos : 0 < width) (short : n < 10 ^ width) :
    (padded width n).length = width := by
  rw [length_padded_eq_max]
  exact Nat.max_eq_left ((Nat.length_toDigits_le_iff (by decide) pos).mpr short)

theorem padded_ne_nil (width n : Nat) : padded width n ≠ [] :=
  List.append_ne_nil_of_right_ne_nil _ Nat.toDigits_ne_nil

/-- Two rows of characters of one sort are the same when what follows them begins with another sort
and the whole is the same. -/
theorem row_append_inj {sort : Char → Bool} {row other rest further : List Char}
    (own : ∀ c ∈ row, sort c = true) (own' : ∀ c ∈ other, sort c = true)
    (ends : rest.takeWhile sort = []) (ends' : further.takeWhile sort = [])
    (same : row ++ rest = other ++ further) : row = other ∧ rest = further := by
  have rows := congrArg (List.takeWhile sort) same
  rw [List.takeWhile_append_of_pos own, List.takeWhile_append_of_pos own', ends, ends',
    List.append_nil, List.append_nil] at rows
  subst rows
  exact ⟨rfl, List.append_cancel_left same⟩

/-! ## Numerals -/

theorem digitsValue_cons (c : Char) (rest : List Char) :
    digitsValue (c :: rest) = 10 ^ rest.length * digitValue c + digitsValue rest := by
  rw [digitsValue_eq, Nat.ofDigitChars_cons, Nat.ofDigitChars_eq_ofDigitChars_zero, Nat.mul_zero,
    Nat.zero_add, digitsValue_eq]
  rfl

theorem digitsValue_lt {row : List Char} (h : AllDigits row) :
    digitsValue row < 10 ^ row.length := by
  induction row with
  | nil => exact Nat.one_pos
  | cons c rest ih =>
    obtain ⟨first, others⟩ := List.forall_mem_cons.mp h
    have digit : digitValue c ≤ 9 := by
      have := toNat_of_isDigit first
      rw [digitValue, show '0'.toNat = 48 from rfl]
      omega
    have later := ih others
    have bound := Nat.mul_le_mul_left (10 ^ rest.length) digit
    rw [digitsValue_cons, List.length_cons, Nat.pow_succ]
    omega

theorem digitsValue_inj {row other : List Char} (h : AllDigits row) (h' : AllDigits other)
    (lengths : row.length = other.length) (values : digitsValue row = digitsValue other) :
    row = other := by
  induction row generalizing other with
  | nil => exact (List.eq_nil_of_length_eq_zero lengths.symm).symm
  | cons c rest ih =>
    obtain ⟨d, further, rfl⟩ := List.exists_cons_of_length_eq_add_one lengths.symm
    obtain ⟨first, others⟩ := List.forall_mem_cons.mp h
    obtain ⟨first', others'⟩ := List.forall_mem_cons.mp h'
    have lengths : rest.length = further.length := Nat.succ.inj lengths
    have low := digitsValue_lt others
    have low' := digitsValue_lt others'
    rw [digitsValue_cons, digitsValue_cons, lengths] at values
    rw [lengths] at low
    have pos : 0 < 10 ^ further.length := Nat.pow_pos (by decide)
    have leading := congrArg (· / 10 ^ further.length) values
    simp only [Nat.mul_add_div pos, Nat.div_eq_of_lt low, Nat.div_eq_of_lt low', Nat.add_zero]
      at leading
    rw [leading] at values
    have same : c = d := by
      have := toNat_of_isDigit first
      have := toNat_of_isDigit first'
      rw [digitValue, digitValue, show '0'.toNat = 48 from rfl] at leading
      exact Char.toNat_inj.mp (by omega)
    rw [same, ih others others' lengths (Nat.add_left_cancel values)]

/-- A row of digits that stands for the number, with zeros in front only up to the width. -/
structure IsNumeral (width n : Nat) (row : List Char) : Prop where
  digits : ∀ c ∈ row, c.isDigit = true
  value : Nat.ofDigitChars 10 row 0 = n
  long : width ≤ row.length
  needed : width < row.length → 10 ^ (row.length - 1) ≤ n

theorem isNumeral_padded {width : Nat} (pos : 0 < width) (n : Nat) :
    IsNumeral width n (padded width n) where
  digits := allDigits_padded width n
  value := digitsValue_padded width n
  long := by
    rw [length_padded_eq_max]
    exact Nat.le_max_left _ _
  needed longer := by
    by_contra less
    have fits := (Nat.length_toDigits_le_iff (by decide) (by omega)).mpr (Nat.lt_of_not_le less)
    rw [length_padded_eq_max] at longer fits
    omega

theorem IsNumeral.lt {width n : Nat} {row : List Char} (h : IsNumeral width n row) :
    n < 10 ^ row.length := by
  rw [← h.value]
  exact digitsValue_lt h.digits

theorem IsNumeral.length_le {width n : Nat} {row other : List Char} (h : IsNumeral width n row)
    (h' : IsNumeral width n other) : row.length ≤ other.length := by
  by_contra longer
  have needed := h.needed (by have := h'.long; omega)
  have := (Nat.pow_lt_pow_iff_right (by decide)).mp (Nat.lt_of_le_of_lt needed h'.lt)
  omega

theorem IsNumeral.unique {width n : Nat} {row other : List Char} (h : IsNumeral width n row)
    (h' : IsNumeral width n other) : row = other :=
  digitsValue_inj h.digits h'.digits (Nat.le_antisymm (h.length_le h') (h'.length_le h))
    (h.value.trans h'.value.symm)

theorem isNumeral_iff {width n : Nat} {row : List Char} (pos : 0 < width) :
    IsNumeral width n row ↔ row = padded width n := by
  constructor
  · intro h
    exact h.unique (isNumeral_padded pos n)
  · rintro rfl
    exact isNumeral_padded pos n

/-! ## Reading -/

theorem readDigits?_append {digits : List Char} (h : AllDigits digits) (rest : List Char) :
    readDigits? digits.length (digits ++ rest) = some (digitsValue digits, rest) := by
  have all : digits.all Char.isDigit = true := List.all_eq_true.mpr h
  simp [readDigits?, all]

theorem readDigits?_padded (width : Nat) {n : Nat} (pos : 0 < width) (short : n < 10 ^ width)
    (rest : List Char) : readDigits? width (padded width n ++ rest) = some (n, rest) := by
  have read := readDigits?_append (allDigits_padded width n) rest
  rw [length_padded pos short, digitsValue_padded] at read
  exact read

theorem takeWhile_digits_append {digits : List Char} (h : AllDigits digits) (rest : List Char)
    (ends : rest.takeWhile Char.isDigit = []) :
    (digits ++ rest).takeWhile Char.isDigit = digits := by
  rw [List.takeWhile_append_of_pos h, ends, List.append_nil]

theorem dropWhile_digits_append {digits : List Char} (h : AllDigits digits) (rest : List Char)
    (ends : rest.dropWhile Char.isDigit = rest) :
    (digits ++ rest).dropWhile Char.isDigit = rest := by
  rw [List.dropWhile_append_of_pos h, ends]

end Conform.Text
