import Conform.Number.Shortest
import Conform.Proofs.Number.Exact

/-!
# Shortest decimals read back

The magnitude nearest to the shortest decimal of a magnitude is that magnitude: on every grid only a
neighbour that reads back is taken, and the exact decimal, which is taken when there is none, is
rounded to itself.
-/

set_option autoImplicit false

namespace Conform

/-! ## Quotients in other terms -/

theorem divNearest_mul_right (num den : Nat) {k : Nat} (pos : 0 < k) :
    divNearest (num * k) (den * k) = divNearest num den := by
  have less : ∀ a b : Nat, a * k < b * k ↔ a < b := fun a b => Nat.mul_lt_mul_right pos
  have twice : 2 * (num * k % (den * k)) = 2 * (num % den) * k := by
    rw [Nat.mul_mod_mul_right, Nat.mul_assoc]
  simp only [divNearest, twice, less, Nat.mul_div_mul_right num den pos]

theorem roundQuotient_mul_right (bits num den : Nat) {k : Nat} (pos : 0 < k) :
    roundQuotient bits (num * k) (den * k) = roundQuotient bits num den := by
  have shifted : ∀ e : Nat, (den * k) <<< e = den <<< e * k := by
    intro e
    rw [Nat.shiftLeft_eq, Nat.shiftLeft_eq, Nat.mul_right_comm]
  simp only [roundQuotient, Nat.mul_div_mul_right num den pos, shifted,
    divNearest_mul_right _ _ pos]

namespace Magnitude

theorem nearest?_mul_right (num den : Nat) {k : Nat} (pos : 0 < k) :
    nearest? (num * k) (den * k) = nearest? num den := by
  simp only [nearest?, roundQuotient_mul_right 53 num den pos]

/-! ## Exact decimals -/

theorem magnitude?_zero (exponent : Int) : Decimal.magnitude? ⟨0, exponent⟩ = some .zero :=
  if_pos rfl

theorem le_log2_mul_pow_five {a : Nat} (some : a ≠ 0) (n : Nat) : n ≤ (a * 5 ^ n).log2 := by
  have positive : a * 5 ^ n ≠ 0 := Nat.mul_ne_zero some (Nat.pow_pos (by decide)).ne'
  refine (Nat.le_log2 positive).mpr ?_
  calc 2 ^ n ≤ 5 ^ n := Nat.pow_le_pow_left (by decide) n
    _ ≤ a * 5 ^ n := Nat.le_mul_of_pos_left _ (Nat.pos_of_ne_zero some)

/-- A magnitude is a decimal because the number of units in one is a power of two.  The power stays
a variable, so that nothing computes it. -/
theorem magnitude?_exact (x : Magnitude) {n : Nat} (units : unitsPerOne = 2 ^ n) (pos : 0 < n) :
    Decimal.magnitude? ⟨x.units * Nat.pow 5 n, -(n : Int)⟩ = some x := by
  rw [Nat.pow_eq]
  by_cases none : x.units = 0
  · rw [none, Nat.zero_mul, eq_zero_of_units none, magnitude?_zero]
  · have positive : x.units * 5 ^ n ≠ 0 := Nat.mul_ne_zero none (Nat.pow_pos (by decide)).ne'
    have bits := le_log2_mul_pow_five none n
    have notBeyond : ¬ ((Decimal.exponentLimit : Nat) : Int) < -(n : Int) := by omega
    have notTiny :
        ¬ -(n : Int) < -(((x.units * 5 ^ n).log2 + Decimal.exponentLimit : Nat) : Int) := by
      omega
    have negative : ¬ 0 ≤ -(n : Int) := by omega
    have scaled : x.units * 5 ^ n * unitsPerOne = x.units * 10 ^ n := by
      rw [units, Nat.mul_assoc, ← Nat.mul_pow]
    have exact := nearest?_mul_right x.units 1 (k := 10 ^ n) (Nat.pow_pos (by decide))
    rw [Nat.one_mul, nearest?_units] at exact
    simp only [Decimal.magnitude?, Decimal.quotient, if_neg positive, if_neg notBeyond,
      if_neg notTiny, if_neg negative, Int.neg_neg, Int.toNat_natCast, Nat.pow_eq, scaled, exact]

theorem magnitude?_toDecimal (x : Magnitude) : x.toDecimal.magnitude? = some x := by
  have units : unitsPerOne = 2 ^ 1074 := by rw [← Nat.one_shiftLeft, unitsPerOne]
  have pos : 0 < 1074 := by decide
  have exponent : (-1074 : Int) = -((1074 : Nat) : Int) := rfl
  rw [toDecimal, exponent]
  generalize 1074 = n at units pos ⊢
  exact magnitude?_exact x units pos

/-- Zeros may take the place of an exponent. -/
theorem magnitude?_zeros {n zeros : Nat} {x : Magnitude}
    (h : Decimal.magnitude? ⟨n, zeros⟩ = some x) :
      Decimal.magnitude? ⟨n * 10 ^ zeros, 0⟩ = some x := by
  by_cases none : n = 0
  · rw [none, magnitude?_zero] at h
    rw [none, Nat.zero_mul, magnitude?_zero, h]
  · have positive : n * 10 ^ zeros ≠ 0 := Nat.mul_ne_zero none (Nat.pow_pos (by decide)).ne'
    by_cases beyond : ((Decimal.exponentLimit : Nat) : Int) < zeros
    · simp [Decimal.magnitude?, none, beyond] at h
    · have notBeyond : ¬ ((Decimal.exponentLimit : Nat) : Int) < 0 := by omega
      have notTiny : ∀ bits : Nat,
          ¬ (zeros : Int) < -((bits + Decimal.exponentLimit : Nat) : Int) := by
        omega
      have notTiny' : ∀ bits : Nat,
          ¬ (0 : Int) < -((bits + Decimal.exponentLimit : Nat) : Int) := by
        omega
      have large : 0 ≤ (zeros : Int) := Int.natCast_nonneg zeros
      simp only [Decimal.magnitude?, Decimal.quotient, if_neg none, if_neg beyond,
        if_neg (notTiny _), if_pos large, Int.toNat_natCast, Nat.pow_eq] at h
      simp only [Decimal.magnitude?, Decimal.quotient, if_neg positive, if_neg notBeyond,
        if_neg (notTiny' _), if_pos le_rfl, Int.toNat_zero, Nat.pow_eq, Nat.pow_zero,
        Nat.mul_one, h]

/-! ## Shortest decimals -/

theorem magnitude?_of_neighbour? {x : Magnitude} {tie : Tie} {exponent : Int} {d : Decimal}
    (h : x.neighbour? tie exponent = some d) : d.magnitude? = some x := by
  simp only [neighbour?] at h
  split at h
  · next lower upper =>
    cases h
    split
    · exact of_decide_eq_true upper
    · exact of_decide_eq_true lower
  · next lower _ =>
    cases h
    exact of_decide_eq_true lower
  · next _ upper =>
    cases h
    exact of_decide_eq_true upper
  · cases h

theorem magnitude?_firstNeighbour (x : Magnitude) (tie : Tie) (grids : Nat) (exponent : Int) :
    (x.firstNeighbour tie grids exponent).magnitude? = some x := by
  induction grids generalizing exponent with
  | zero => exact magnitude?_toDecimal x
  | succ grids ih =>
    rw [firstNeighbour]
    split
    · next d found => exact magnitude?_of_neighbour? found
    · exact ih (exponent - 1)

theorem magnitude?_shortest (x : Magnitude) (tie : Tie) : (x.shortest tie).magnitude? = some x := by
  rw [shortest]
  split
  · next none => rw [eq_zero_of_units none, magnitude?_zero]
  · exact magnitude?_firstNeighbour x tie 20 x.coarsest

end Magnitude

end Conform
