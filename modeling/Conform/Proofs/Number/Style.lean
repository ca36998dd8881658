import Conform.Number.Numeral
import Conform.Number.Style
import Conform.Proofs.Number.Shortest
import Conform.Proofs.Text.Blank
import Conform.Proofs.Text.Digits

/-!
# Displayed numbers read back

The display of a number writes its shortest decimal out in full: digits with zeros behind them, or
with a point among them or in front.  In both forms the numeral that is read stands for the same
magnitude, and the sign and the words for what is not finite are read too.  So reading gives the
number back, whatever it is.
-/

set_option autoImplicit false

namespace Conform

open Text

/-! ## Decimals written out -/

namespace NumberStyle

variable {digits : List Char} {point : Int}

/-- All digits stand behind the point. -/
theorem writePositional_below (below : point ≤ 0) :
    (display.writePositional digits point).toList =
      ['0'] ++ '.' :: (List.replicate (-point).toNat '0' ++ digits) := by
  simp [writePositional, below]

/-- All digits stand before the point, which is left out. -/
theorem writePositional_whole (above : 0 < point) (within : digits.length ≤ point.toNat) :
    (display.writePositional digits point).toList =
      digits ++ List.replicate (point.toNat - digits.length) '0' := by
  have none : digits.drop point.toNat = [] := List.drop_eq_nil_iff.mpr within
  simp [writePositional, if_neg (Int.not_le.mpr above), none,
    List.take_of_length_le within, display]

/-- The point stands among the digits. -/
theorem writePositional_inside (above : 0 < point) (inside : point.toNat < digits.length) :
    (display.writePositional digits point).toList =
      digits.take point.toNat ++ '.' :: digits.drop point.toNat := by
  have nonempty : digits.drop point.toNat ≠ [] := by
    rw [ne_eq, List.drop_eq_nil_iff]
    omega
  simp [writePositional, if_neg (Int.not_le.mpr above), nonempty]

end NumberStyle

/-- The two forms of a decimal without an exponent. -/
inductive Decimal.WrittenOut (d : Decimal) : List Char → Prop
  | whole (zeros : Nat) (scale : d.exponent = zeros) :
    WrittenOut d (Nat.toDigits 10 d.digits ++ List.replicate zeros '0')
  | point {whole fraction : List Char} (nonempty : whole ≠ []) (digits : AllDigits whole)
    (digits' : AllDigits fraction) (value : digitsValue (whole ++ fraction) = d.digits)
    (scale : d.exponent = -(fraction.length : Int)) : WrittenOut d (whole ++ '.' :: fraction)

theorem writtenOut_display (d : Decimal) :
    d.WrittenOut (NumberStyle.display.writeDecimal d).toList := by
  have value := digitsValue_toDigits d.digits
  have length : 0 < (Nat.toDigits 10 d.digits).length := Nat.length_toDigits_pos
  have digits := allDigits_toDigits d.digits
  generalize point : ((Nat.toDigits 10 d.digits).length : Int) + d.exponent = position
  have written : NumberStyle.display.writeDecimal d =
      NumberStyle.display.writePositional (Nat.toDigits 10 d.digits) position := by
    rw [← point]
    rfl
  rw [written]
  by_cases below : position ≤ 0
  · rw [NumberStyle.writePositional_below below]
    refine .point (List.cons_ne_nil _ _) (allDigits_zeros 1)
      ((allDigits_zeros _).append digits) ?_ ?_
    · exact (digitsValue_zeros_append 1 _).trans ((digitsValue_zeros_append _ _).trans value)
    · rw [List.length_append, List.length_replicate]
      omega
  · have above : 0 < position := Int.not_le.mp below
    by_cases within : (Nat.toDigits 10 d.digits).length ≤ position.toNat
    · rw [NumberStyle.writePositional_whole above within]
      exact .whole _ (by omega)
    · rw [NumberStyle.writePositional_inside above (Nat.not_le.mp within)]
      refine .point ?_ (fun c member => digits c (List.mem_of_mem_take member))
        (fun c member => digits c (List.mem_of_mem_drop member)) ?_ ?_
      · rw [ne_eq, List.take_eq_nil_iff, not_or]
        exact ⟨by omega, List.ne_nil_of_length_pos length⟩
      · rw [List.take_append_drop, value]
      · rw [List.length_drop]
        omega

/-! ## Numerals without an exponent -/

namespace Numeral

theorem readDecimal?_digits {digits : List Char} (h : AllDigits digits) (nonempty : digits ≠ []) :
    readDecimal? digits = some ⟨digitsValue digits, 0⟩ := by
  have taken := takeWhile_digits_append h [] rfl
  have dropped := dropWhile_digits_append h [] rfl
  rw [List.append_nil] at taken dropped
  simp [readDecimal?, taken, dropped, nonempty, readTail?]

theorem readDecimal?_point {whole fraction : List Char} (h : AllDigits whole)
    (h' : AllDigits fraction) (nonempty : whole ≠ []) :
    readDecimal? (whole ++ '.' :: fraction) =
      some ⟨digitsValue (whole ++ fraction), -(fraction.length : Int)⟩ := by
  have taken := takeWhile_digits_append h ('.' :: fraction) rfl
  have dropped := dropWhile_digits_append h ('.' :: fraction) rfl
  have taken' := takeWhile_digits_append h' [] rfl
  have dropped' := dropWhile_digits_append h' [] rfl
  rw [List.append_nil] at taken' dropped'
  simp [readDecimal?, taken, dropped, taken', dropped', nonempty, readTail?]

theorem toLower_of_isDigit {c : Char} (h : c.isDigit = true) : c.toLower = c := by
  have range := toNat_of_isDigit h
  have notUpper : ¬ (c.val ≥ 'A'.val ∧ c.val ≤ 'Z'.val) := by
    rintro ⟨above, _⟩
    have letter : 65 ≤ c.toNat := UInt32.le_iff_toNat_le.mp above
    omega
  exact dif_neg notUpper

/-- A text that begins with a digit, after its sign, is none of the words. -/
theorem read?_of_digit {text : String} {negative : Bool} {c : Char} {rest : List Char}
    (written : text.toList = (if negative then ['-'] else []) ++ c :: rest)
    (digit : c.isDigit = true) :
    read? text = (readDecimal? (c :: rest)).map (.decimal negative) := by
  have sign : readSign text.toList = (negative, c :: rest) := by
    rw [written]
    cases negative with
    | true => rfl
    | false =>
      have notMinus : c ≠ '-' := by
        rintro rfl
        cases digit
      have notPlus : c ≠ '+' := by
        rintro rfl
        cases digit
      simp [readSign, notMinus, notPlus]
  have noWord : ∀ word : String, word.toList.head?.any Char.isDigit = false →
      String.ofList ((c :: rest).map Char.toLower) ≠ word := by
    rintro word first rfl
    rw [String.toList_ofList, List.map_cons, toLower_of_isDigit digit] at first
    have none : c.isDigit = false := first
    rw [digit] at none
    cases none
  simp only [read?, sign]
  rw [if_neg, if_neg]
  · exact noWord "nan" (by decide)
  · rintro (inf | infinity)
    · exact noWord "inf" (by decide) inf
    · exact noWord "infinity" (by decide) infinity

end Numeral

/-! ## Reading displays -/

namespace Decimal.WrittenOut

variable {d : Decimal} {text : List Char}

theorem exists_digit (h : d.WrittenOut text) : ∃ c rest, text = c :: rest ∧ c.isDigit = true := by
  cases h with
  | whole zeros scale =>
    have digits := allDigits_toDigits d.digits
    cases found : Nat.toDigits 10 d.digits with
    | nil => exact absurd found Nat.toDigits_ne_nil
    | cons c rest => exact ⟨c, _, rfl, digits c (found ▸ List.mem_cons_self)⟩
  | @point whole fraction nonempty digits digits' value scale =>
    cases whole with
    | nil => exact absurd rfl nonempty
    | cons c rest => exact ⟨c, _, rfl, digits c List.mem_cons_self⟩

theorem noBlanks (h : d.WrittenOut text) : NoBlanks text := by
  cases h with
  | whole zeros scale => exact ((allDigits_toDigits _).append (allDigits_zeros zeros)).noBlanks
  | point nonempty digits digits' value scale =>
    intro c member
    rcases List.mem_append.mp member with before | after
    · exact digits.noBlanks c before
    · rcases List.mem_cons.mp after with rfl | behind
      · rfl
      · exact digits'.noBlanks c behind

/-- The numeral that is read may have zeros behind the digits in the place of an exponent. -/
theorem reads_magnitude (h : d.WrittenOut text) {x : Magnitude}
    (magnitude : d.magnitude? = some x) :
    ∃ e, Numeral.readDecimal? text = some e ∧ e.magnitude? = some x := by
  cases h with
  | whole zeros scale =>
    have all := (allDigits_toDigits d.digits).append (allDigits_zeros zeros)
    refine ⟨_, Numeral.readDecimal?_digits all (by simp), ?_⟩
    rw [digitsValue_append_zeros, digitsValue_toDigits]
    refine Magnitude.magnitude?_zeros ?_
    rw [← scale]
    exact magnitude
  | point nonempty digits digits' value scale =>
    refine ⟨_, Numeral.readDecimal?_point digits digits' nonempty, ?_⟩
    rw [value, ← scale]
    exact magnitude

end Decimal.WrittenOut

namespace Binary64

theorem toList_display_finite (negative : Bool) (x : Magnitude) :
    (finite negative x).display.toList = (if negative then ['-'] else []) ++
      (NumberStyle.display.writeDecimal (x.shortest .upper)).toList := by
  cases negative <;> simp [display, NumberStyle.write, NumberStyle.display]

/-- The display of a number is a numeral for that number. -/
theorem read?_display (x : Binary64) : read? x.display = some x := by
  cases x with
  | nan => rfl
  | infinity negative => cases negative <;> rfl
  | finite negative x =>
    have written := writtenOut_display (x.shortest .upper)
    obtain ⟨e, decimal, magnitude⟩ := written.reads_magnitude (x.magnitude?_shortest .upper)
    obtain ⟨c, rest, first, digit⟩ := written.exists_digit
    have text := toList_display_finite negative x
    rw [first] at decimal text
    rw [read?, Numeral.read?_of_digit text digit, decimal]
    show some (Decimal.toBinary64 negative e) = _
    rw [Decimal.toBinary64, magnitude]

theorem noBlanks_display (x : Binary64) : NoBlanks x.display.toList := by
  cases x with
  | nan => decide
  | infinity negative => cases negative <;> decide
  | finite negative x =>
    have sign : NoBlanks (if negative then ['-'] else []) := by cases negative <;> decide
    rw [toList_display_finite]
    exact sign.append (writtenOut_display _).noBlanks

end Binary64

end Conform
