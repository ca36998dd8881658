import Conform.Number.Binary64
import Mathlib.Data.EReal.Basic

/-!
# The order of binary64 numbers

A binary64 number stands for an extended real number, and numbers compare like what they stand for.
A `nan` stands for nothing and compares with nothing.
-/

set_option autoImplicit false

namespace Conform

open Magnitude (unitsPerOne)

namespace Binary64

/-- What a number stands for. -/
noncomputable def value? : Binary64 → Option EReal
  | nan => none
  | infinity negative => some (if negative then ⊥ else ⊤)
  | finite negative x => some ((signedUnits negative x / unitsPerOne : ℝ) : EReal)

def Below (a b : Binary64) : Prop := ∃ u v, a.value? = some u ∧ b.value? = some v ∧ u < v

def AtMost (a b : Binary64) : Prop := ∃ u v, a.value? = some u ∧ b.value? = some v ∧ u ≤ v

theorem unitsPerOne_pos : (0 : ℝ) < unitsPerOne := Nat.cast_pos.mpr (by decide)

theorem quotient_lt_iff (m n : Int) :
    (m / unitsPerOne : ℝ) < n / unitsPerOne ↔ m < n := by
  rw [div_lt_div_iff_of_pos_right unitsPerOne_pos, Int.cast_lt]

theorem quotient_inj (m n : Int) : (m / unitsPerOne : ℝ) = n / unitsPerOne ↔ m = n := by
  rw [div_left_inj' unitsPerOne_pos.ne', Int.cast_inj]

theorem less_iff (a b : Binary64) : less a b = true ↔ a.Below b := by
  cases a with
  | nan => simp [less, Below, value?]
  | infinity s =>
    cases b with
    | nan => simp [less, Below, value?]
    | infinity t => cases s <;> cases t <;> simp [less, Below, value?]
    | finite t y => cases s <;> simp [less, Below, value?, EReal.bot_lt_coe]
  | finite s x =>
    cases b with
    | nan => simp [less, Below, value?]
    | infinity t => cases t <;> simp [less, Below, value?, EReal.coe_lt_top]
    | finite t y => simp [less, Below, value?, quotient_lt_iff]

theorem equal_iff (a b : Binary64) :
    equal a b = true ↔ ∃ v, a.value? = some v ∧ b.value? = some v := by
  cases a with
  | nan => simp [equal, value?]
  | infinity s =>
    cases b with
    | nan => simp [equal, value?]
    | infinity t => cases s <;> cases t <;> simp [equal, value?]
    | finite t y => cases s <;> simp [equal, value?]
  | finite s x =>
    cases b with
    | nan => simp [equal, value?]
    | infinity t => cases t <;> simp [equal, value?]
    | finite t y =>
      have same : equal (finite s x) (finite t y) = true ↔ signedUnits t y = signedUnits s x :=
        beq_iff_eq.trans eq_comm
      simp [same, value?, quotient_inj]

theorem lessOrEqual_iff (a b : Binary64) : lessOrEqual a b = true ↔ a.AtMost b := by
  rw [lessOrEqual, Bool.or_eq_true, less_iff, equal_iff]
  constructor
  · intro compared
    rcases compared with ⟨u, v, ofA, ofB, less⟩ | ⟨v, ofA, ofB⟩
    · exact ⟨u, v, ofA, ofB, less.le⟩
    · exact ⟨v, v, ofA, ofB, le_rfl⟩
  · intro compared
    obtain ⟨u, v, ofA, ofB, atMost⟩ := compared
    rcases atMost.lt_or_eq with less | rfl
    · exact .inl ⟨u, v, ofA, ofB, less⟩
    · exact .inr ⟨u, ofA, ofB⟩

theorem value?_zero : zero.value? = some 0 := by
  simp [zero, value?, signedUnits, Magnitude.zero, Magnitude.units]

/-- The whole numbers are the integers among what numbers stand for. -/
theorem isWhole_iff (a : Binary64) :
    a.isWhole = true ↔ ∃ n : Int, a.value? = some ((n : ℝ) : EReal) := by
  cases a with
  | nan => simp [isWhole, value?]
  | infinity s => cases s <;> simp [isWhole, value?]
  | finite s x =>
    have divides : x.isWhole = true ↔ (unitsPerOne : Int) ∣ signedUnits s x := by
      rw [Magnitude.isWhole, beq_iff_eq, ← Nat.dvd_iff_mod_eq_zero, ← Int.natCast_dvd_natCast,
        signedUnits]
      split
      · exact Int.dvd_neg.symm
      · exact Iff.rfl
    have cancel : ∀ n : Int, (signedUnits s x / unitsPerOne : ℝ) = n ↔
        signedUnits s x = unitsPerOne * n := by
      intro n
      rw [div_eq_iff unitsPerOne_pos.ne', mul_comm]
      exact_mod_cast Iff.rfl
    simp only [isWhole, divides, value?, Option.some_inj, EReal.coe_eq_coe_iff, cancel]
    exact Iff.rfl

end Binary64

end Conform
