import Exg.Common.Decimal
import Exg.Support.TruncatedAverage
import Mathlib.Data.Rat.Cast.Order
import Mathlib.Algebra.Order.Field.Rat

/-!
# The numbers that decimals stand for

A sum of decimals is exact.  A product or a quotient is cut off toward zero, and less than a
unit away from the exact one.
-/

namespace Exg

open Support

namespace Decimal128

/-- The number that a decimal stands for. -/
def toRat (value : Decimal128) : ℚ := value.raw / 10 ^ 18

/-- The distance of two neighbouring decimals. -/
def unit : ℚ := 1 / 10 ^ 18

theorem unit_pos : 0 < unit := by norm_num [unit]

variable {left right : Decimal128}

@[simp]
theorem toRat_zero : toRat 0 = 0 := by
  simp [toRat]

@[simp]
theorem toRat_add (left right : Decimal128) : (left + right).toRat = left.toRat + right.toRat := by
  simp [toRat, add_div]

@[simp]
theorem toRat_sub (left right : Decimal128) : (left - right).toRat = left.toRat - right.toRat := by
  simp [toRat, sub_div]

@[simp]
theorem toRat_le_iff : left.toRat ≤ right.toRat ↔ left ≤ right := by
  rw [toRat, toRat, div_le_div_iff_of_pos_right (by norm_num), Int.cast_le, le_iff_raw]

private theorem toRat_lt_iff : left.toRat < right.toRat ↔ left < right := by
  rw [toRat, toRat, div_lt_div_iff_of_pos_right (by norm_num), Int.cast_lt, lt_iff_raw]

theorem toRat_eq_zero : left.toRat = 0 ↔ left = 0 := by
  simp [toRat, ← raw_injective.eq_iff]

theorem toRat_nonneg (nonneg : 0 ≤ left) : 0 ≤ left.toRat :=
  toRat_zero ▸ toRat_le_iff.2 nonneg

theorem toRat_pos (positive : 0 < left) : 0 < left.toRat :=
  toRat_zero ▸ toRat_lt_iff.2 positive

/-- A product of nonnegative decimals is the exact one with less than a unit cut off. -/
theorem truncates_mul (leftNonneg : 0 ≤ left) (rightNonneg : 0 ≤ right) :
    Truncates unit (left.toRat * right.toRat) (left * right).toRat := by
  have product : 0 ≤ left.raw * right.raw := Int.mul_nonneg leftNonneg rightNonneg
  have quotient : (left * right).raw = left.raw * right.raw / 1000000000000000000 :=
    Int.tdiv_eq_ediv_of_nonneg product
  have lower : (left * right).raw * 1000000000000000000 ≤ left.raw * right.raw := by
    rw [quotient]
    exact Int.ediv_mul_le _ (by decide)
  have upper : left.raw * right.raw < ((left * right).raw + 1) * 1000000000000000000 := by
    rw [quotient]
    exact Int.lt_ediv_add_one_mul_self _ (by decide)
  have lowerRat : ((left * right).raw : ℚ) * 1000000000000000000 ≤ left.raw * right.raw := by
    exact_mod_cast lower
  have upperRat : (left.raw : ℚ) * right.raw < ((left * right).raw + 1) * 1000000000000000000 := by
    exact_mod_cast upper
  constructor
  · rw [toRat, toRat, toRat, div_mul_div_comm, div_le_div_iff₀ (by norm_num) (by norm_num)]
    linarith
  · rw [toRat, toRat, toRat, unit, div_mul_div_comm, ← add_div,
      div_lt_div_iff₀ (by norm_num) (by norm_num)]
    linarith

@[simp]
theorem zero_product (value : Decimal128) : 0 * value = 0 := by
  apply raw_injective
  change (0 * value.raw).tdiv scale = 0
  rw [Int.zero_mul, Int.zero_tdiv]

theorem product_comm (left right : Decimal128) : left * right = right * left :=
  raw_injective (congrArg (fun product => product.tdiv scale) (Int.mul_comm left.raw right.raw))

theorem one_product (value : Decimal128) : one * value = value :=
  raw_injective (Int.mul_tdiv_cancel_left value.raw (by decide))

/-- Products with a factor that is not negative keep the order, and with one that is not positive
turn it round. -/
theorem product_le_product {factor : Decimal128} (nonneg : 0 ≤ factor) (le : left ≤ right) :
    left * factor ≤ right * factor :=
  Int.tdiv_le_tdiv (by decide) (Int.mul_le_mul_of_nonneg_right le nonneg)

theorem product_le_product_of_nonpos {factor : Decimal128} (nonpos : factor ≤ 0)
    (le : left ≤ right) : right * factor ≤ left * factor :=
  Int.tdiv_le_tdiv (by decide) (Int.mul_le_mul_of_nonpos_right le nonpos)

theorem product_nonneg (leftNonneg : 0 ≤ left) (rightNonneg : 0 ≤ right) : 0 ≤ left * right :=
  Int.tdiv_nonneg (Int.mul_nonneg leftNonneg rightNonneg) (by decide)

theorem quotient_nonneg (leftNonneg : 0 ≤ left) (rightPos : 0 < right) : 0 ≤ left / right :=
  Int.tdiv_nonneg (Int.mul_nonneg leftNonneg (by decide)) (lt_iff_raw.1 rightPos).le

/-- A quotient of nonnegative decimals is the exact one with less than a unit cut off. -/
theorem truncates_div (leftNonneg : 0 ≤ left) (rightPos : 0 < right) :
    Truncates unit (left.toRat / right.toRat) (left / right).toRat := by
  have scaled : 0 ≤ left.raw * scale := Int.mul_nonneg leftNonneg (by decide)
  have divisor : 0 < right.raw := rightPos
  have quotient : (left / right).raw = left.raw * scale / right.raw :=
    Int.tdiv_eq_ediv_of_nonneg scaled
  have lower : (left / right).raw * right.raw ≤ left.raw * 1000000000000000000 := by
    rw [quotient]
    exact Int.ediv_mul_le _ divisor.ne'
  have upper : left.raw * 1000000000000000000 < ((left / right).raw + 1) * right.raw := by
    rw [quotient]
    exact Int.lt_ediv_add_one_mul_self _ divisor
  have lowerRat : ((left / right).raw : ℚ) * right.raw ≤ left.raw * 1000000000000000000 := by
    exact_mod_cast lower
  have upperRat : (left.raw : ℚ) * 1000000000000000000 < ((left / right).raw + 1) * right.raw := by
    exact_mod_cast upper
  have divisorRat : (0 : ℚ) < right.raw := by exact_mod_cast divisor
  have exactly : left.toRat / right.toRat = left.raw / right.raw :=
    div_div_div_cancel_right₀ (by norm_num) _ _
  constructor
  · rw [exactly, toRat, div_le_div_iff₀ (by norm_num) divisorRat]
    linarith
  · rw [exactly, toRat, unit, ← add_div, div_lt_div_iff₀ divisorRat (by norm_num)]
    linarith

/-- What fits into a quotient fits, times the divisor, into the dividend. -/
theorem mul_le_of_le_div {quantity : Decimal128} (leftNonneg : 0 ≤ left) (rightPos : 0 < right)
    (quantityNonneg : 0 ≤ quantity) (within : quantity ≤ left / right) :
    quantity * right ≤ left := by
  have rightRat := toRat_pos rightPos
  have quotient := (truncates_div leftNonneg rightPos).le
  have product := (truncates_mul quantityNonneg rightPos.le).le
  have share := toRat_le_iff.2 within
  rw [← toRat_le_iff]
  calc (quantity * right).toRat ≤ quantity.toRat * right.toRat := product
    _ ≤ left.toRat / right.toRat * right.toRat :=
        mul_le_mul_of_nonneg_right (share.trans quotient) rightRat.le
    _ = left.toRat := div_mul_cancel₀ _ rightRat.ne'

/-- A truncated quotient of integers is less than one away from the exact one. -/
theorem abs_tdiv_sub_lt (dividend : Int) {divisor : Int} (nonzero : divisor ≠ 0) :
    |((dividend.tdiv divisor : Int) : ℚ) - dividend / divisor| < 1 := by
  have divisorRat : (divisor : ℚ) ≠ 0 := by exact_mod_cast nonzero
  have split : (divisor : ℚ) * (dividend.tdiv divisor : Int) + (dividend.tmod divisor : Int) =
      dividend := by
    exact_mod_cast Int.mul_tdiv_add_tmod dividend divisor
  have error : ((dividend.tdiv divisor : Int) : ℚ) - dividend / divisor =
      -((dividend.tmod divisor : Int) : ℚ) / divisor := by
    field_simp
    linarith
  have remainder : |dividend.tmod divisor| < |divisor| := by
    rw [Int.abs_eq_natAbs, Int.abs_eq_natAbs, Int.natAbs_tmod]
    exact_mod_cast Nat.mod_lt _ (Int.natAbs_pos.2 nonzero)
  rw [error, abs_div, abs_neg, div_lt_one (abs_pos.2 divisorRat)]
  exact_mod_cast remainder

/-- A product is less than a unit away from the exact one. -/
theorem abs_mul_sub_lt (left right : Decimal128) :
    |(left * right).toRat - left.toRat * right.toRat| < unit := by
  have truncated : |((left * right).raw : ℚ) - (left.raw * right.raw : Int) / scale| < 1 :=
    abs_tdiv_sub_lt (left.raw * right.raw) (by decide)
  have scaled : (left * right).toRat - left.toRat * right.toRat =
      ((left * right).raw - (left.raw * right.raw : Int) / scale) * unit := by
    rw [toRat, toRat, toRat, unit, scale]
    push_cast
    ring
  rw [scaled, abs_mul, abs_of_pos unit_pos]
  exact (mul_lt_iff_lt_one_left unit_pos).2 truncated

/-- A quotient is less than a unit away from the exact one. -/
theorem abs_div_sub_lt (left : Decimal128) {right : Decimal128} (nonzero : right.raw ≠ 0) :
    |(left / right).toRat - left.toRat / right.toRat| < unit := by
  have truncated : |((left / right).raw : ℚ) - (left.raw * scale : Int) / right.raw| < 1 :=
    abs_tdiv_sub_lt (left.raw * scale) nonzero
  have divisorRat : (right.raw : ℚ) ≠ 0 := by exact_mod_cast nonzero
  have scaled : (left / right).toRat - left.toRat / right.toRat =
      ((left / right).raw - (left.raw * scale : Int) / right.raw) * unit := by
    rw [toRat, toRat, toRat, unit, scale]
    push_cast
    field_simp
    ring
  rw [scaled, abs_mul, abs_of_pos unit_pos]
  exact (mul_lt_iff_lt_one_left unit_pos).2 truncated

/-- A product with an error in one factor carries that error on and adds one of its own. -/
theorem abs_mul_sub_le (left right : Decimal128) (exact : ℚ) :
    |(left * right).toRat - exact * right.toRat| ≤
      |left.toRat - exact| * |right.toRat| + unit := by
  have rounding := abs_mul_sub_lt left right
  have carried : |left.toRat * right.toRat - exact * right.toRat| =
      |left.toRat - exact| * |right.toRat| := by
    rw [← abs_mul, sub_mul]
  have triangle := abs_sub_le (left * right).toRat (left.toRat * right.toRat)
    (exact * right.toRat)
  linarith

theorem abs_div_sub_le (left : Decimal128) {right : Decimal128} (positive : 0 < right)
    (exact : ℚ) :
    |(left / right).toRat - exact / right.toRat| ≤ |left.toRat - exact| / right.toRat + unit := by
  have rounding := abs_div_sub_lt left (lt_iff_raw.1 positive).ne'
  have carried : |left.toRat / right.toRat - exact / right.toRat| =
      |left.toRat - exact| / right.toRat := by
    rw [← sub_div, abs_div, abs_of_pos (toRat_pos positive)]
  have triangle := abs_sub_le (left / right).toRat (left.toRat / right.toRat)
    (exact / right.toRat)
  linarith

theorem exists_div_error (left : Decimal128) {right : Decimal128} (positive : 0 < right) :
    ∃ error, (left / right).toRat = left.toRat / right.toRat + error ∧ |error| ≤ unit :=
  ⟨_, (add_sub_cancel _ _).symm, (abs_div_sub_lt left (lt_iff_raw.1 positive).ne').le⟩

@[simp]
theorem toRat_one : one.toRat = 1 := by
  norm_num [toRat, one, scale]

end Decimal128

end Exg
