import Mathlib.Algebra.Order.Field.Basic
import Mathlib.Tactic.FieldSimp
import Mathlib.Tactic.Linarith
import Mathlib.Tactic.Ring

/-!
# Averages under truncation

A volume-weighted average that is kept by truncating two products and their quotient stays
below the exact one, and each step adds at most the truncations to the distance.
-/

namespace Support

variable {K : Type*} [Field K] [LinearOrder K] [IsStrictOrderedRing K]

/-- A number with less than a unit cut off. -/
structure Truncates (unit exactly result : K) : Prop where
  le : result ≤ exactly
  lt : exactly < result + unit

section Step

variable {unit size quantity price average entry oldNotional newNotional next : K}

/-- The exact average after a quantity is added. -/
def averaged (size average quantity price : K) : K :=
  (size * average + quantity * price) / (size + quantity)

/-- The stored average stays below the exact one. -/
theorem next_le_averaged (held : 0 ≤ size) (added : 0 < quantity)
    (old : Truncates unit (size * entry) oldNotional)
    (new : Truncates unit (quantity * price) newNotional)
    (mean : Truncates unit ((oldNotional + newNotional) / (size + quantity)) next)
    (below : entry ≤ average) : next ≤ averaged size average quantity price := by
  have positive : 0 < size + quantity := add_pos_of_nonneg_of_pos held added
  calc next ≤ (oldNotional + newNotional) / (size + quantity) := mean.le
    _ ≤ (size * average + quantity * price) / (size + quantity) := by
        apply div_le_div_of_nonneg_right _ positive.le
        exact add_le_add (old.le.trans (mul_le_mul_of_nonneg_left below held)) new.le

/-- The distance grows by less than one unit for the quotient and, shared out over the new size,
one for each product. -/
theorem averaged_sub_next_lt (held : 0 ≤ size) (added : 0 < quantity)
    (old : Truncates unit (size * entry) oldNotional)
    (new : Truncates unit (quantity * price) newNotional)
    (mean : Truncates unit ((oldNotional + newNotional) / (size + quantity)) next)
    (below : entry ≤ average) :
    averaged size average quantity price - next <
      average - entry + (1 + 2 / (size + quantity)) * unit := by
  have positive : 0 < size + quantity := add_pos_of_nonneg_of_pos held added
  have share : size * (average - entry) / (size + quantity) ≤ average - entry := by
    rw [div_le_iff₀ positive, mul_comm]
    exact mul_le_mul_of_nonneg_left (le_add_of_nonneg_right added.le) (sub_nonneg.2 below)
  have products : size * average + quantity * price - (oldNotional + newNotional) ≤
      size * (average - entry) + 2 * unit := by
    have first := old.lt
    have second := new.lt
    linarith
  have split : averaged size average quantity price -
      (oldNotional + newNotional) / (size + quantity) ≤
        size * (average - entry) / (size + quantity) + 2 * unit / (size + quantity) := by
    rw [averaged, ← sub_div, ← add_div]
    exact div_le_div_of_nonneg_right products positive.le
  have rest : 2 * unit / (size + quantity) = 2 / (size + quantity) * unit := by ring
  have last := mean.lt
  linarith

end Step

end Support
