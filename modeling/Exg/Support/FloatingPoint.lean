import Mathlib.Data.Int.Log
import Mathlib.Data.Rat.Floor
import Mathlib.Algebra.Order.Field.Power
import Mathlib.Algebra.Order.Ring.Int
import Mathlib.Tactic.Linarith
import Mathlib.Tactic.Positivity

/-!
# Rounding to binary floating point

A number is rounded to the nearest multiple of the unit of its last place, and to the even one
of two that are equally near.  The unit follows the size of the number down to the one of the
subnormal numbers.  Rounding keeps the order of numbers, and it takes only numbers of at most
half the least unit to zero.
-/

namespace Support

/-- The nearest integer, and the even one of two. -/
def nearestEven (number : ℚ) : ℤ :=
  if Int.fract number < 1 / 2 ∨ (Int.fract number = 1 / 2 ∧ Even ⌊number⌋) then ⌊number⌋
  else ⌊number⌋ + 1

section NearestEven

variable {number small large : ℚ}

theorem floor_le_nearestEven (number : ℚ) : ⌊number⌋ ≤ nearestEven number := by
  unfold nearestEven
  split
  · exact le_rfl
  · exact (lt_add_one _).le

theorem nearestEven_le_floor_add_one (number : ℚ) : nearestEven number ≤ ⌊number⌋ + 1 := by
  unfold nearestEven
  split
  · exact (lt_add_one _).le
  · exact le_rfl

theorem nearestEven_intCast (number : ℤ) : nearestEven number = number := by
  simp [nearestEven]

theorem nearestEven_mono (le : small ≤ large) : nearestEven small ≤ nearestEven large := by
  rcases (Int.floor_le_floor le).lt_or_eq with below | same
  · calc nearestEven small ≤ ⌊small⌋ + 1 := nearestEven_le_floor_add_one small
      _ ≤ ⌊large⌋ := below
      _ ≤ nearestEven large := floor_le_nearestEven large
  · by_cases down : Int.fract large < 1 / 2 ∨ (Int.fract large = 1 / 2 ∧ Even ⌊large⌋)
    · -- the smaller number is rounded down as well: its fraction is no larger
      have fract : Int.fract small ≤ Int.fract large := by
        rw [Int.fract, Int.fract, same]
        exact sub_le_sub_right le _
      have smallDown : Int.fract small < 1 / 2 ∨ (Int.fract small = 1 / 2 ∧ Even ⌊small⌋) := by
        rcases down with below | ⟨half, even⟩
        · exact Or.inl (fract.trans_lt below)
        · rw [same]
          exact (fract.trans half.le).lt_or_eq.imp_right fun equal => ⟨equal, even⟩
      rw [nearestEven, if_pos smallDown, same]
      exact floor_le_nearestEven large
    · have up : nearestEven large = ⌊large⌋ + 1 := if_neg down
      rw [up, ← same]
      exact nearestEven_le_floor_add_one small

/-- Only what is above one half is rounded to a positive integer. -/
theorem nearestEven_pos_iff : 0 < nearestEven number ↔ 1 / 2 < number := by
  constructor
  · intro positive
    by_contra small
    have half : nearestEven (1 / 2) = 0 := by
      have floor : ⌊(1 / 2 : ℚ)⌋ = 0 := by norm_num
      have fract : Int.fract (1 / 2 : ℚ) = 1 / 2 := by
        rw [Int.fract, floor, Int.cast_zero, sub_zero]
      rw [nearestEven, floor, if_pos (Or.inr ⟨fract, Even.zero⟩)]
    have atMost := nearestEven_mono (not_lt.1 small)
    rw [half] at atMost
    exact atMost.not_gt positive
  · intro above
    by_cases one : 1 ≤ number
    · have unit : nearestEven 1 = 1 := nearestEven_intCast 1
      have atLeast := nearestEven_mono one
      rwa [unit] at atLeast
    · have floor : ⌊number⌋ = 0 := Int.floor_eq_zero_iff.2 ⟨by linarith, not_le.1 one⟩
      have fract : Int.fract number = number := by rw [Int.fract, floor, Int.cast_zero, sub_zero]
      have up : ¬(Int.fract number < 1 / 2 ∨ (Int.fract number = 1 / 2 ∧ Even ⌊number⌋)) := by
        rw [fract]
        rintro (below | ⟨same, -⟩)
        · exact absurd below above.not_gt
        · exact absurd same above.ne'
      rw [nearestEven, if_neg up, floor]
      decide

end NearestEven

/-! ## Formats -/

/-- How many bits stand after the leading one, the exponent of the unit of the subnormal numbers,
and the least exponent that is too large. -/
structure FloatFormat where
  fractionBits : ℕ
  leastExponent : ℤ
  overflowExponent : ℤ

def binary64 : FloatFormat where
  fractionBits := 52
  leastExponent := -1074
  overflowExponent := 1024

namespace FloatFormat

variable (format : FloatFormat)

/-- The exponent of the unit of the last place of a number. -/
def unitExponent (number : ℚ) : ℤ :=
  max (Int.log 2 number - format.fractionBits) format.leastExponent

/-- The nearest multiple of the unit of the last place. -/
def nearest (number : ℚ) : ℚ :=
  nearestEven (number / 2 ^ format.unitExponent number) * 2 ^ format.unitExponent number

section Nearest

variable {format} {number small large : ℚ} {exponent : ℤ}

theorem unit_pos (exponent : ℤ) : (0 : ℚ) < 2 ^ exponent := zpow_pos (by norm_num) exponent

/-- A power is a whole number of the units of smaller powers. -/
theorem exists_units {unit : ℤ} (le : unit ≤ exponent) :
    ∃ count : ℤ, (2 : ℚ) ^ exponent / 2 ^ unit = count := by
  obtain ⟨difference, rfl⟩ := Int.le.dest le
  refine ⟨2 ^ difference, ?_⟩
  rw [← zpow_sub₀ (by norm_num : (2 : ℚ) ≠ 0), add_sub_cancel_left, zpow_natCast]
  norm_cast

theorem nearest_le_power (unit : format.unitExponent number ≤ exponent)
    (le : number ≤ 2 ^ exponent) : format.nearest number ≤ 2 ^ exponent := by
  have positive := unit_pos (format.unitExponent number)
  obtain ⟨count, whole⟩ := exists_units unit
  have bound := nearestEven_mono (div_le_div_of_nonneg_right le positive.le)
  rw [whole, nearestEven_intCast] at bound
  rw [nearest, ← le_div_iff₀ positive, whole]
  exact_mod_cast bound

theorem power_le_nearest (unit : format.unitExponent number ≤ exponent)
    (le : 2 ^ exponent ≤ number) : 2 ^ exponent ≤ format.nearest number := by
  have positive := unit_pos (format.unitExponent number)
  obtain ⟨count, whole⟩ := exists_units unit
  have bound := nearestEven_mono (div_le_div_of_nonneg_right le positive.le)
  rw [whole, nearestEven_intCast] at bound
  rw [nearest, ← div_le_iff₀ positive, whole]
  exact_mod_cast bound

theorem nearest_nonneg (nonneg : 0 ≤ number) : 0 ≤ format.nearest number := by
  have positive := unit_pos (format.unitExponent number)
  have bound := nearestEven_mono (div_nonneg nonneg positive.le)
  have zero : nearestEven 0 = 0 := nearestEven_intCast 0
  rw [zero] at bound
  exact mul_nonneg (by exact_mod_cast bound) positive.le

theorem nearest_zero : format.nearest 0 = 0 := by
  have zero : nearestEven 0 = 0 := nearestEven_intCast 0
  rw [nearest, zero_div, zero, Int.cast_zero, zero_mul]

/-- Rounding keeps the order: a number with a larger unit lies above a power that both numbers
are rounded to their side of. -/
theorem nearest_mono (nonneg : 0 ≤ small) (le : small ≤ large) :
    format.nearest small ≤ format.nearest large := by
  rcases nonneg.eq_or_lt with rfl | positive
  · rw [nearest_zero]
    exact nearest_nonneg le
  · have logs : Int.log 2 small ≤ Int.log 2 large := Int.log_mono_right positive le
    by_cases same : format.unitExponent small = format.unitExponent large
    · have unit := unit_pos (format.unitExponent large)
      have rounded := nearestEven_mono (div_le_div_of_nonneg_right le unit.le)
      rw [nearest, nearest, same]
      exact mul_le_mul_of_nonneg_right (by exact_mod_cast rounded) unit.le
    · have different := same
      simp only [unitExponent] at different
      have smallUnit : format.unitExponent small ≤ Int.log 2 large := by
        rw [unitExponent]
        omega
      have largeUnit : format.unitExponent large ≤ Int.log 2 large := by
        rw [unitExponent]
        omega
      have below : small ≤ 2 ^ Int.log 2 large := by
        have upper := Int.lt_zpow_succ_log_self (b := 2) (by norm_num) small
        have exponents : (2 : ℚ) ^ (Int.log 2 small + 1) ≤ 2 ^ Int.log 2 large :=
          zpow_le_zpow_right₀ (by norm_num) (by omega)
        exact upper.le.trans exponents
      have above : (2 : ℚ) ^ Int.log 2 large ≤ large :=
        Int.zpow_log_le_self (b := 2) (by norm_num) (positive.trans_le le)
      exact (nearest_le_power smallUnit below).trans (power_le_nearest largeUnit above)

/-- Only what is above half the least unit is not rounded to zero. -/
theorem nearest_pos_iff (nonneg : 0 ≤ number) :
    0 < format.nearest number ↔ 2 ^ (format.leastExponent - 1) < number := by
  have unit := unit_pos (format.unitExponent number)
  have half : ∀ exponent : ℤ, (2 : ℚ) ^ (exponent - 1) = 1 / 2 * 2 ^ exponent := by
    intro exponent
    rw [zpow_sub_one₀ (by norm_num)]
    ring
  rw [nearest, mul_pos_iff_of_pos_right unit, Int.cast_pos, nearestEven_pos_iff,
    lt_div_iff₀ unit, ← half]
  by_cases least : format.unitExponent number = format.leastExponent
  · rw [least]
  · rcases nonneg.eq_or_lt with rfl | positive
    · exact iff_of_false (unit_pos _).not_gt (unit_pos _).not_gt
    · have power : (2 : ℚ) ^ Int.log 2 number ≤ number :=
        Int.zpow_log_le_self (b := 2) (by norm_num) positive
      have above : ∀ exponent : ℤ, exponent < Int.log 2 number → (2 : ℚ) ^ exponent < number :=
        fun exponent smaller => (zpow_lt_zpow_right₀ (by norm_num) smaller).trans_le power
      simp only [unitExponent] at least ⊢
      exact iff_of_true (above _ (by omega)) (above _ (by omega))

end Nearest

/-! ## Numbers of a format -/

/-- A magnitude with its sign. -/
def withSign (negative : Bool) (magnitude : ℚ) : ℚ := if negative then -magnitude else magnitude

@[simp] theorem withSign_false (magnitude : ℚ) : withSign false magnitude = magnitude := rfl

@[simp] theorem withSign_true (magnitude : ℚ) : withSign true magnitude = -magnitude := rfl

/-- A number of a format.  The power at which numbers overflow stands for infinity, as it does in
the encoding; two numbers compare by their values, and so do the two zeros. -/
structure Number where
  negative : Bool
  magnitude : ℚ
  nonneg : 0 ≤ magnitude
  atMost : magnitude ≤ 2 ^ format.overflowExponent
  deriving DecidableEq

/-- The number of a format that is nearest to a sign and a magnitude. -/
def round (negative : Bool) (magnitude : ℚ) : format.Number where
  negative := negative
  magnitude := min (format.nearest |magnitude|) (2 ^ format.overflowExponent)
  nonneg := le_min (nearest_nonneg (abs_nonneg magnitude)) (unit_pos _).le
  atMost := min_le_right _ _

namespace Number

variable {format}

def value (number : format.Number) : ℚ := withSign number.negative number.magnitude

instance : Preorder format.Number := Preorder.lift value

instance : DecidableLE format.Number :=
  fun left right => inferInstanceAs (Decidable (left.value ≤ right.value))

instance : DecidableLT format.Number :=
  fun left right => inferInstanceAs (Decidable (left.value < right.value))

def zero : format.Number := ⟨false, 0, le_rfl, (unit_pos _).le⟩

instance : Zero format.Number := ⟨zero⟩

theorem le_iff {left right : format.Number} : left ≤ right ↔ left.value ≤ right.value := Iff.rfl

theorem lt_iff {left right : format.Number} : left < right ↔ left.value < right.value := Iff.rfl

theorem not_le {left right : format.Number} : ¬left ≤ right ↔ right < left := Rat.not_le

theorem not_lt {left right : format.Number} : ¬left < right ↔ right ≤ left := Rat.not_lt

@[simp] theorem value_zero : (0 : format.Number).value = 0 := rfl

@[simp] theorem value_round (negative : Bool) (magnitude : ℚ) :
    (format.round negative magnitude).value =
      withSign negative (format.round negative magnitude).magnitude := rfl

end Number

section Round

variable {negative : Bool} {magnitude : ℚ}

/-- The magnitude that a nonnegative number is rounded to. -/
theorem magnitude_round (negative : Bool) (nonneg : 0 ≤ magnitude) :
    (format.round negative magnitude).magnitude =
      min (format.nearest magnitude) (2 ^ format.overflowExponent) :=
  congrArg (fun number => min (format.nearest number) _) (abs_of_nonneg nonneg)

theorem magnitude_round_pos_iff (negative : Bool) (nonneg : 0 ≤ magnitude) :
    0 < (format.round negative magnitude).magnitude ↔
      2 ^ (format.leastExponent - 1) < magnitude := by
  rw [magnitude_round format negative nonneg, lt_min_iff, and_iff_left (unit_pos _),
    nearest_pos_iff nonneg]

variable {format}

theorem round_pos_iff (nonneg : 0 ≤ magnitude) :
    0 < format.round negative magnitude ↔
      negative = false ∧ 2 ^ (format.leastExponent - 1) < magnitude := by
  rw [Number.lt_iff, Number.value_zero, Number.value_round,
    ← magnitude_round_pos_iff format negative nonneg]
  cases negative with
  | false => exact (and_iff_right rfl).symm
  | true =>
      refine iff_of_false ?_ fun both => Bool.noConfusion both.1
      exact (neg_nonpos.2 (format.round true magnitude).nonneg).not_gt

theorem round_neg_iff (nonneg : 0 ≤ magnitude) :
    format.round negative magnitude < 0 ↔
      negative = true ∧ 2 ^ (format.leastExponent - 1) < magnitude := by
  rw [Number.lt_iff, Number.value_zero, Number.value_round,
    ← magnitude_round_pos_iff format negative nonneg]
  cases negative with
  | false =>
      refine iff_of_false ?_ fun both => Bool.noConfusion both.1
      exact (format.round false magnitude).nonneg.not_gt
  | true => exact neg_neg_iff_pos.trans (and_iff_right rfl).symm

/-- Rounding keeps the order of numbers with signs. -/
theorem round_mono {minus : Bool} {other : ℚ} (nonneg : 0 ≤ magnitude) (otherNonneg : 0 ≤ other)
    (le : withSign negative magnitude ≤ withSign minus other) :
    format.round negative magnitude ≤ format.round minus other := by
  have left := magnitude_round format negative nonneg
  have right := magnitude_round format minus otherNonneg
  have leftNonneg := (format.round negative magnitude).nonneg
  have rightNonneg := (format.round minus other).nonneg
  rw [Number.le_iff, Number.value_round, Number.value_round]
  generalize (format.round negative magnitude).magnitude = rounded at left leftNonneg ⊢
  generalize (format.round minus other).magnitude = otherRounded at right rightNonneg ⊢
  cases negative with
  | false =>
      rw [withSign_false] at le ⊢
      cases minus with
      | false =>
          rw [withSign_false] at le ⊢
          rw [left, right]
          exact min_le_min_right _ (nearest_mono nonneg le)
      | true =>
          -- a number is at most the opposite of another only if both are zero
          rw [withSign_true] at le ⊢
          have zero : magnitude = 0 := by linarith
          have otherZero : other = 0 := by linarith
          rw [zero, nearest_zero, min_eq_left (unit_pos _).le] at left
          rw [otherZero, nearest_zero, min_eq_left (unit_pos _).le] at right
          rw [left, right, neg_zero]
  | true =>
      rw [withSign_true] at le ⊢
      cases minus with
      | false => exact (neg_nonpos.2 leftNonneg).trans rightNonneg
      | true =>
          rw [withSign_true, neg_le_neg_iff] at le ⊢
          rw [left, right]
          exact min_le_min_right _ (nearest_mono otherNonneg le)

/-- Numbers that are in order after rounding were in order before. -/
theorem lt_of_round_lt {minus : Bool} {other : ℚ} (nonneg : 0 ≤ magnitude)
    (otherNonneg : 0 ≤ other) (lt : format.round negative magnitude < format.round minus other) :
    withSign negative magnitude < withSign minus other := by
  by_contra reversed
  exact Number.not_le.2 lt (round_mono otherNonneg nonneg (not_lt.1 reversed))

end Round

end FloatFormat
end Support
