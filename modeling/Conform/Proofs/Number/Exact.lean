import Conform.Number.Binary64
import Mathlib.Algebra.Group.Nat.Defs
import Mathlib.Data.Nat.Log

/-!
# Exact numbers

Rounding leaves a number of units alone that is a magnitude already.  So a small whole number comes
back from the integer that it stands for, with its sign unless it is zero.
-/

set_option autoImplicit false

namespace Conform

theorem excessBits_shiftLeft {bits significand exponent : Nat} (low : significand < 2 ^ (bits + 1))
    (normal : exponent = 0 ∨ 2 ^ bits ≤ significand) :
    excessBits (bits + 1) (significand <<< exponent) = exponent := by
  rw [excessBits, Nat.shiftLeft_eq]
  rcases normal with rfl | high
  · have short : significand.log2 < bits + 1 := by
      by_cases zero : significand = 0
      · simp [zero]
      · exact (Nat.log2_lt zero).mpr low
    rw [Nat.pow_zero, Nat.mul_one]
    omega
  · have positive : 0 < 2 ^ bits := Nat.two_pow_pos bits
    have nonzero : significand * 2 ^ exponent ≠ 0 :=
      Nat.mul_ne_zero (by omega) (Nat.two_pow_pos exponent).ne'
    have bitLength : (significand * 2 ^ exponent).log2 = bits + exponent := by
      refine (Nat.log2_eq_iff nonzero).mpr ⟨?_, ?_⟩
      · rw [Nat.pow_add]
        exact Nat.mul_le_mul_right _ high
      · rw [show bits + exponent + 1 = bits + 1 + exponent by omega, Nat.pow_add]
        exact Nat.mul_lt_mul_of_pos_right low (Nat.two_pow_pos exponent)
    omega

theorem divNearest_shiftLeft (significand exponent : Nat) :
    divNearest (significand <<< exponent) (1 <<< exponent) = significand := by
  have positive : 0 < 2 ^ exponent := Nat.two_pow_pos exponent
  simp [divNearest, Nat.shiftLeft_eq, Nat.mul_div_cancel _ positive]

namespace Magnitude

theorem nearest?_units (x : Magnitude) : nearest? x.units 1 = some x := by
  obtain ⟨significand, exponent, low, bound, normal⟩ := x
  have limit : (1 : Nat) <<< 53 = 2 ^ (52 + 1) := Nat.one_shiftLeft _
  have least : (1 : Nat) <<< 52 = 2 ^ 52 := Nat.one_shiftLeft _
  have bits : excessBits 53 (significand <<< exponent) = exponent :=
    excessBits_shiftLeft (limit ▸ low) (least ▸ normal)
  have rounded : roundQuotient 53 (significand <<< exponent) 1 = (significand, exponent) := by
    simp only [roundQuotient, Nat.div_one, bits, divNearest_shiftLeft]
    exact if_neg low.ne
  rw [nearest?, units, rounded]
  exact dif_pos ⟨low, bound, normal⟩

theorem eq_zero_of_units {x : Magnitude} (h : x.units = 0) : x = zero := by
  have none := nearest?_units zero
  have same := nearest?_units x
  rw [h] at same
  exact Option.some.inj (same.symm.trans none)

/-- Every whole number below `2 ^ 53` is a magnitude. -/
theorem exists_units_eq {n : Nat} (small : n < 2 ^ 53) :
    ∃ x : Magnitude, x.units = n * unitsPerOne := by
  by_cases none : n = 0
  · exact ⟨zero, by simp [units, zero, none]⟩
  · have bits : n.log2 < 53 := (Nat.log2_lt none).mpr small
    have spread : 2 ^ n.log2 * 2 ^ (52 - n.log2) = 2 ^ 52 := by
      rw [← Nat.pow_add]
      congr 1
      omega
    have low : n <<< (52 - n.log2) < 1 <<< 53 := by
      have above : n < 2 ^ n.log2 * 2 := Nat.lt_log2_self
      have scaled := Nat.mul_lt_mul_of_pos_right above (Nat.two_pow_pos (52 - n.log2))
      rw [Nat.shiftLeft_eq, Nat.shiftLeft_eq]
      rw [Nat.mul_right_comm, spread] at scaled
      omega
    have normal : 1 <<< 52 ≤ n <<< (52 - n.log2) := by
      have scaled := Nat.mul_le_mul_right (2 ^ (52 - n.log2)) (Nat.log2_self_le none)
      rw [Nat.shiftLeft_eq, Nat.shiftLeft_eq]
      omega
    refine ⟨⟨n <<< (52 - n.log2), 1022 + n.log2, low, by omega, .inr normal⟩, ?_⟩
    show n <<< (52 - n.log2) <<< (1022 + n.log2) = n * 1 <<< 1074
    rw [← Nat.shiftLeft_add, Nat.shiftLeft_eq, Nat.one_shiftLeft]
    congr 2
    omega

theorem floor_mul_unitsPerOne {x : Magnitude} (h : x.isWhole = true) :
    x.floor * unitsPerOne = x.units := by
  have whole : x.units % unitsPerOne = 0 := by simpa [isWhole] using h
  exact Nat.div_mul_cancel (Nat.dvd_of_mod_eq_zero whole)

end Magnitude

namespace Binary64

/-- The number, or `0` in the place of `-0`. -/
def withoutNegativeZero (x : Binary64) : Binary64 := if x.isNegativeZero then zero else x

theorem isFinite_of_smallWhole? {x : Binary64} {n : Int} (h : x.smallWhole? = some n) :
    x.isFinite = true := by
  cases x with
  | nan | infinity => cases h
  | finite => rfl

theorem ofUnits_units (negative : Bool) (m : Magnitude) :
    ofUnits negative m.units 1 = finite negative m := by
  have exact := Magnitude.nearest?_units m
  unfold ofUnits
  -- Reducing the match would round the units.
  generalize Magnitude.nearest? m.units 1 = rounded at exact
  subst exact
  rfl

theorem ofInt_floor {m : Magnitude} (negative : Bool) (h : m.isWhole = true) :
    ofInt (if negative then -(m.floor : Int) else m.floor) =
      (finite negative m).withoutNegativeZero := by
  have units := Magnitude.floor_mul_unitsPerOne h
  have size : (if negative then -(m.floor : Int) else m.floor).natAbs = m.floor := by
    cases negative <;> simp
  rw [ofInt, size, units, ofUnits_units, withoutNegativeZero]
  by_cases none : m.units = 0
  · obtain rfl := Magnitude.eq_zero_of_units none
    cases negative <;> rfl
  · have positive : 0 < m.floor := by
      by_contra small
      rw [Nat.eq_zero_of_not_pos small, Nat.zero_mul] at units
      exact none units.symm
    cases negative with
    | false => simp [isNegativeZero]
    | true => simpa [isNegativeZero, none] using positive

/-- The integer of a small whole number is that number again, but for the sign of zero. -/
theorem ofInt_of_smallWhole? {x : Binary64} {n : Int} (h : x.smallWhole? = some n) :
    ofInt n = x.withoutNegativeZero := by
  cases x with
  | nan | infinity => cases h
  | finite negative m =>
    by_cases small : (m.isWhole && decide (m.floor < wholeLimit)) = true
    · rw [smallWhole?, if_pos small] at h
      rw [← Option.some.inj h]
      exact ofInt_floor negative (Bool.and_eq_true_iff.mp small).1
    · rw [smallWhole?, if_neg small] at h
      cases h

/-- A whole number below `2 ^ 53` is converted without rounding. -/
theorem smallWhole?_ofInt {n : Int} (small : n.natAbs < 2 ^ 53) :
    (ofInt n).smallWhole? = some n := by
  obtain ⟨x, units⟩ := Magnitude.exists_units_eq small
  have whole : x.isWhole = true := by simp [Magnitude.isWhole, units]
  have floor : x.floor = n.natAbs := by
    rw [Magnitude.floor, units]
    exact Nat.mul_div_cancel _ (by decide)
  have limit : wholeLimit = 2 ^ 53 := Nat.one_shiftLeft _
  have fits : (x.isWhole && decide (x.floor < wholeLimit)) = true := by
    rw [whole, floor, limit]
    simpa using small
  rw [ofInt, ← units, ofUnits_units, smallWhole?, if_pos fits, floor]
  congr 1
  by_cases negative : n < 0
  · rw [if_pos (decide_eq_true negative)]
    omega
  · rw [if_neg fun yes => negative (of_decide_eq_true yes)]
    omega

theorem truncate?_of_smallWhole? {x : Binary64} {n : Int} (h : x.smallWhole? = some n) :
    x.truncate? = some n := by
  cases x with
  | nan | infinity => cases h
  | finite negative m =>
    rw [smallWhole?] at h
    split at h
    · exact h
    · cases h

theorem smallWhole?_of_isNegativeZero {x : Binary64} (h : x.isNegativeZero = true) :
    x.smallWhole? = some 0 := by
  cases x with
  | nan | infinity => cases h
  | finite negative m =>
    simp only [isNegativeZero, Bool.and_eq_true, beq_iff_eq] at h
    obtain rfl := Magnitude.eq_zero_of_units h.2
    cases negative <;> rfl

theorem withoutNegativeZero_of_not_smallWhole {x : Binary64} (h : x.smallWhole? = none) :
    x.withoutNegativeZero = x := by
  refine if_neg fun negativeZero => ?_
  rw [smallWhole?_of_isNegativeZero negativeZero] at h
  cases h

theorem smallWhole?_withoutNegativeZero (x : Binary64) :
    x.withoutNegativeZero.smallWhole? = x.smallWhole? := by
  rw [withoutNegativeZero]
  by_cases negativeZero : x.isNegativeZero = true
  · rw [if_pos negativeZero, smallWhole?_of_isNegativeZero negativeZero]
    rfl
  · rw [if_neg negativeZero]

end Binary64

end Conform
