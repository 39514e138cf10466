import Exg.Common.Decimal
import Exg.Support.WideArithmetic
import Mathlib.Data.Int.Order.Basic
import Mathlib.Tactic.NormNum

/-!
# Checked multiplication and division

`checked_mul` and `checked_div` compute in `i128` where the product fits, and else multiply
into two words and divide by binary long division.  Both ways give the exact quotient,
truncated toward zero, or nothing where that leaves the range, and neither panics.
-/

namespace Exg

open Support

/-! ## Machine integers -/

/-- A word of the source's `u128`. -/
abbrev U128 := BitVec 128

/-- Overflow panics with overflow checks on; the division by zero panics always. -/
inductive ArithmeticPanic where
  | overflow
  | divisionByZero
  deriving DecidableEq, Repr

namespace I128

def minValue : Int := -170141183460469231731687303715884105728

def maxValue : Int := 170141183460469231731687303715884105727

/-- The value is one of the source's `i128`. -/
def Fits (value : Int) : Prop := minValue ≤ value ∧ value ≤ maxValue

instance : DecidablePred Fits := fun value =>
  inferInstanceAs (Decidable (minValue ≤ value ∧ value ≤ maxValue))

/-- A result that has to fit. -/
def checked (value : Int) : Option Int := if Fits value then some value else none

def checkedMul (left right : Int) : Option Int := checked (left * right)

def checkedAdd (left right : Int) : Option Int := checked (left + right)

/-- Division truncates toward zero. -/
def div (left right : Int) : Except ArithmeticPanic Int :=
  if right = 0 then .error .divisionByZero
  else if Fits (left.tdiv right) then .ok (left.tdiv right)
  else .error .overflow

def neg (value : Int) : Except ArithmeticPanic Int :=
  if Fits (-value) then .ok (-value) else .error .overflow

def unsignedAbs (value : Int) : U128 := BitVec.ofNat 128 value.natAbs

end I128

namespace U128

def lowHalf (word : U128) : U128 := word &&& 0xFFFFFFFFFFFFFFFF

def highHalf (word : U128) : U128 := word >>> 64

def mul (left right : U128) : Except ArithmeticPanic U128 :=
  if left.toNat * right.toNat < 2 ^ 128 then .ok (left * right) else .error .overflow

end U128

/-! ## The wide path -/

/-- The high and the low word of a product, from the products of the halves. -/
def sumHalves (ll lh hl hh : U128) : U128 × U128 :=
  -- the sum of the middle products may not fit in a word
  let midSum := lh + hl
  let midCarry : U128 := if midSum < lh then 1 else 0
  let lo := ll + (midSum <<< 64)
  let carryFromLo : U128 := if lo < ll then 1 else 0
  let hi := hh + (midSum >>> 64) + (midCarry <<< 64) + carryFromLo
  (hi, lo)

/-- Full 128×128 → 256-bit unsigned multiply.  Returns the high and the low word. -/
def mulU128 (a b : U128) : Except ArithmeticPanic (U128 × U128) := do
  let aLo := U128.lowHalf a
  let aHi := U128.highHalf a
  let bLo := U128.lowHalf b
  let bHi := U128.highHalf b
  let ll ← U128.mul aLo bLo
  let lh ← U128.mul aLo bHi
  let hl ← U128.mul aHi bLo
  let hh ← U128.mul aHi bHi
  .ok (sumHalves ll lh hl hh)

/-- The loop of the division, with `i` bits of `lo` still to be brought into the remainder. -/
def divisionLoop (lo d : U128) : Nat → U128 → U128 → U128
  | 0, _, quot => quot
  | i + 1, rem, quot =>
      let bit := (lo >>> i) &&& 1
      -- the remainder times two may not fit in a word
      let overflow := (1 : U128) <<< 127 ≤ rem
      let shifted := (rem <<< 1) ||| bit
      if overflow ∨ d ≤ shifted then
        divisionLoop lo d i (shifted - d) (quot ||| ((1 : U128) <<< i))
      else
        divisionLoop lo d i shifted quot

/-- 256-bit by 128-bit unsigned division.  A quotient that does not fit in a word is given as
the greatest word. -/
def divU256ByU128 (hi lo d : U128) : Except ArithmeticPanic U128 :=
  if d = 0 then .error .divisionByZero
  else if hi = 0 then .ok (lo / d)
  else if d ≤ hi then .ok (BitVec.allOnes 128)
  else .ok (divisionLoop lo d 128 hi 0)

/-- `i128::MAX as u128`. -/
def maxMagnitude : U128 := BitVec.ofInt 128 I128.maxValue

/-- Put the sign back on a quotient that has to fit in `i128`. -/
def signedQuotient (neg : Bool) (quot : U128) : Except ArithmeticPanic (Option Decimal128) :=
  if neg then
    if maxMagnitude + 1 < quot then .ok none
    else if quot = maxMagnitude + 1 then .ok (some ⟨I128.minValue⟩)
    else (I128.neg quot.toInt).map fun raw => some ⟨raw⟩
  else
    if maxMagnitude < quot then .ok none
    else .ok (some ⟨quot.toInt⟩)

/-- Compute `(a * b) / d` without intermediate overflow. -/
def wideMulDiv (a b d : Int) : Except ArithmeticPanic (Option Decimal128) := do
  let neg := decide (a < 0) ^^ decide (b < 0) ^^ decide (d < 0)
  let product ← mulU128 (I128.unsignedAbs a) (I128.unsignedAbs b)
  let quot ← divU256ByU128 product.1 product.2 (I128.unsignedAbs d)
  signedQuotient neg quot

namespace Decimal128

/-- The raw value is one of the source's `i128`. -/
def InRange (value : Decimal128) : Prop := I128.Fits value.raw

instance : DecidablePred InRange := fun value => inferInstanceAs (Decidable (I128.Fits value.raw))

/-- Checked multiplication: in `i128` where the product fits, else the wide path. -/
def checkedMul (left right : Decimal128) : Except ArithmeticPanic (Option Decimal128) :=
  match I128.checkedMul left.raw right.raw with
  | some prod => (I128.div prod scale).map fun raw => some ⟨raw⟩
  | none => wideMulDiv left.raw right.raw scale

/-- Checked division.  Returns nothing on division by zero or overflow. -/
def checkedDiv (left right : Decimal128) : Except ArithmeticPanic (Option Decimal128) :=
  if right.raw = 0 then .ok none
  else
    match I128.checkedMul left.raw scale with
    | some scaled => (I128.div scaled right.raw).map fun raw => some ⟨raw⟩
    | none => wideMulDiv left.raw scale right.raw

end Decimal128

/-! ## The product of two words -/

namespace U128

/-- The product of two halves does not overflow. -/
theorem mul_halves {left right : U128} (leftHalf : left.toNat < 2 ^ 64)
    (rightHalf : right.toNat < 2 ^ 64) :
    mul left right = .ok (left * right) ∧
      (left * right).toNat = left.toNat * right.toNat := by
  have fits : left.toNat * right.toNat < 2 ^ 128 := mul_half_lt leftHalf rightHalf
  exact ⟨if_pos fits, by rw [BitVec.toNat_mul, Nat.mod_eq_of_lt fits]⟩

private theorem toNat_lowHalf (word : U128) : (lowHalf word).toNat = word.toNat % 2 ^ 64 := by
  rw [lowHalf, BitVec.toNat_and]
  exact Nat.and_two_pow_sub_one_eq_mod word.toNat 64

private theorem toNat_highHalf (word : U128) : (highHalf word).toNat = word.toNat / 2 ^ 64 := by
  rw [highHalf, BitVec.toNat_ushiftRight, Nat.shiftRight_eq_div_pow]

private theorem lowHalf_lt (word : U128) : (lowHalf word).toNat < 2 ^ 64 := by
  rw [toNat_lowHalf]
  omega

private theorem highHalf_lt (word : U128) : (highHalf word).toNat < 2 ^ 64 := by
  have := word.isLt
  rw [toNat_highHalf]
  omega

private theorem halves (word : U128) :
    (highHalf word).toNat * 2 ^ 64 + (lowHalf word).toNat = word.toNat := by
  rw [toNat_highHalf, toNat_lowHalf]
  omega

private theorem toNat_flag {condition other : Prop} [Decidable condition] [Decidable other]
    (same : condition ↔ other) :
    (if condition then (1 : U128) else 0).toNat = if other then 1 else 0 := by
  by_cases holds : condition
  · rw [if_pos holds, if_pos (same.1 holds)]
    rfl
  · rw [if_neg holds, if_neg (same.not.1 holds)]
    rfl

end U128

section SumHalves

variable {ll lh hl hh : U128} {aHi aLo bHi bLo : Nat}

/-- The words are put together as in the schoolbook product. -/
theorem sumHalves_words (llSame : ll.toNat = aLo * bLo) (lhSame : lh.toNat = aLo * bHi)
    (hlSame : hl.toNat = aHi * bLo) (hhSame : hh.toNat = aHi * bHi)
    (small : highWord (2 ^ 64) aHi aLo bHi bLo < 2 ^ 128) :
    (sumHalves ll lh hl hh).1.toNat = highWord (2 ^ 64) aHi aLo bHi bLo ∧
      (sumHalves ll lh hl hh).2.toNat = lowWord (2 ^ 64) aHi aLo bHi bLo := by
  have mid : (lh + hl).toNat = middle (2 ^ 64) aHi aLo bHi bLo := by
    rw [BitVec.toNat_add, lhSame, hlSame]
    rfl
  have midFlag : (if lh + hl < lh then (1 : U128) else 0).toNat =
      middleCarry (2 ^ 64) aHi aLo bHi bLo := by
    apply U128.toNat_flag
    rw [BitVec.lt_def, mid, lhSame]
  have low : (ll + (lh + hl) <<< 64).toNat = lowWord (2 ^ 64) aHi aLo bHi bLo := by
    rw [BitVec.toNat_add, BitVec.toNat_shiftLeft, Nat.shiftLeft_eq, mid, llSame]
    rfl
  have lowFlag : (if ll + (lh + hl) <<< 64 < ll then (1 : U128) else 0).toNat =
      lowCarry (2 ^ 64) aHi aLo bHi bLo := by
    apply U128.toNat_flag
    rw [BitVec.lt_def, low, llSame]
  refine ⟨?_, low⟩
  rw [highWord] at small ⊢
  simp only [sumHalves, BitVec.toNat_add, BitVec.toNat_ushiftRight, BitVec.toNat_shiftLeft,
    Nat.shiftRight_eq_div_pow, Nat.shiftLeft_eq, midFlag, lowFlag, hhSame]
  rw [← BitVec.toNat_add, mid]
  omega

end SumHalves

/-- The two words of the product hold the product. -/
theorem mulU128_ok (a b : U128) :
    ∃ product, mulU128 a b = .ok product ∧
      product.1.toNat * 2 ^ 128 + product.2.toNat = a.toNat * b.toNat := by
  have ll := U128.mul_halves (U128.lowHalf_lt a) (U128.lowHalf_lt b)
  have lh := U128.mul_halves (U128.lowHalf_lt a) (U128.highHalf_lt b)
  have hl := U128.mul_halves (U128.highHalf_lt a) (U128.lowHalf_lt b)
  have hh := U128.mul_halves (U128.highHalf_lt a) (U128.highHalf_lt b)
  have computed : mulU128 a b = .ok (sumHalves (U128.lowHalf a * U128.lowHalf b)
      (U128.lowHalf a * U128.highHalf b) (U128.highHalf a * U128.lowHalf b)
      (U128.highHalf a * U128.highHalf b)) := by
    simp only [mulU128, ll.1, lh.1, hl.1, hh.1]
    rfl
  have whole := schoolbook_exact (U128.highHalf_lt a) (U128.lowHalf_lt a) (U128.highHalf_lt b)
    (U128.lowHalf_lt b)
  rw [U128.halves, U128.halves] at whole
  have product : a.toNat * b.toNat < 2 ^ 128 * 2 ^ 128 := Nat.mul_lt_mul'' a.isLt b.isLt
  have words := sumHalves_words ll.2 lh.2 hl.2 hh.2 (by omega)
  refine ⟨_, computed, ?_⟩
  rw [words.1, words.2]
  exact whole

/-! ## The division by a word -/

section Division

variable {lo d rem quot : U128} {i : Nat}

private theorem toNat_bit (lo : U128) (i : Nat) :
    ((lo >>> i) &&& 1).toNat = lo.toNat / 2 ^ i % 2 := by
  rw [BitVec.toNat_and, BitVec.toNat_ushiftRight, Nat.shiftRight_eq_div_pow]
  exact Nat.and_one_is_mod _

/-- The shifted remainder, wrapped to a word. -/
theorem toNat_shifted (rem : U128) {bit : U128} (binary : bit.toNat < 2) :
    ((rem <<< 1) ||| bit).toNat = (2 * rem.toNat + bit.toNat) % 2 ^ 128 := by
  have even : rem.toNat * 2 ^ 1 % 2 ^ 128 = 2 ^ 1 * (rem.toNat % 2 ^ 127) := by omega
  rw [BitVec.toNat_or, BitVec.toNat_shiftLeft, Nat.shiftLeft_eq, even,
    ← Nat.two_pow_add_eq_or_of_lt binary]
  omega

/-- The divisor is taken off exactly where it is at most the shifted remainder. -/
theorem taken_iff {bit : U128} (binary : bit.toNat < 2) :
    (1 : U128) <<< 127 ≤ rem ∨ d ≤ (rem <<< 1) ||| bit ↔ d.toNat ≤ 2 * rem.toNat + bit.toNat := by
  have dWord := d.isLt
  have half : ((1 : U128) <<< 127).toNat = 2 ^ 127 := by decide
  rw [BitVec.le_def, BitVec.le_def, toNat_shifted rem binary, half]
  omega

/-- Setting a bit that is still clear adds it. -/
theorem toNat_setBit (below : i < 128) (clear : 2 ^ (i + 1) ∣ quot.toNat) :
    (quot ||| ((1 : U128) <<< i)).toNat = quot.toNat + 2 ^ i := by
  obtain ⟨high, same⟩ := clear
  have one : ((1 : U128) <<< i).toNat = 2 ^ i := by
    rw [BitVec.toNat_shiftLeft, Nat.shiftLeft_eq]
    exact (congrArg (· % 2 ^ 128) (one_mul (2 ^ i))).trans
      (Nat.mod_eq_of_lt (Nat.pow_lt_pow_right one_lt_two below))
  rw [BitVec.toNat_or, one, same]
  exact (Nat.two_pow_add_eq_or_of_lt (Nat.pow_lt_pow_right one_lt_two (Nat.lt_succ_self i))
    high).symm

/-- The loop computes what long division of numbers does. -/
theorem divisionLoop_toNat (below : i ≤ 128) (small : rem.toNat < d.toNat)
    (clear : 2 ^ i ∣ quot.toNat) :
    (divisionLoop lo d i rem quot).toNat =
      longDivision d.toNat lo.toNat i rem.toNat quot.toNat := by
  induction i generalizing rem quot with
  | zero => rfl
  | succ i inductionHypothesis =>
      have binary : ((lo >>> i) &&& 1).toNat < 2 := by
        rw [toNat_bit]
        exact Nat.mod_lt _ two_pos
      have dWord := d.isLt
      rw [divisionLoop, longDivision, ← toNat_bit]
      by_cases taken : d.toNat ≤ 2 * rem.toNat + ((lo >>> i) &&& 1).toNat
      · have difference : ((rem <<< 1 ||| lo >>> i &&& 1) - d).toNat =
            2 * rem.toNat + ((lo >>> i) &&& 1).toNat - d.toNat := by
          rw [BitVec.toNat_sub, toNat_shifted rem binary]
          omega
        rw [if_pos ((taken_iff binary).2 taken), if_pos taken,
          inductionHypothesis (by omega) (by omega), difference,
          toNat_setBit below clear]
        rw [toNat_setBit below clear]
        exact Nat.dvd_add ((pow_dvd_pow 2 (Nat.le_succ i)).trans clear) (dvd_refl _)
      · have doubled : (rem <<< 1 ||| lo >>> i &&& 1).toNat =
            2 * rem.toNat + ((lo >>> i) &&& 1).toNat := by
          rw [toNat_shifted rem binary]
          omega
        rw [if_neg ((taken_iff binary).not.2 taken), if_neg taken,
          inductionHypothesis (by omega) (by omega)
            ((pow_dvd_pow 2 (Nat.le_succ i)).trans clear), doubled]

/-- The quotient of the two words by a third, or the greatest word. -/
theorem divU256ByU128_ok (hi lo : U128) (nonzero : d ≠ 0) :
    ∃ quot, divU256ByU128 hi lo d = .ok quot ∧
      quot.toNat = min ((hi.toNat * 2 ^ 128 + lo.toNat) / d.toNat) (2 ^ 128 - 1) := by
  have positive : 0 < d.toNat := by
    rw [Nat.pos_iff_ne_zero]
    exact fun zero => nonzero (BitVec.eq_of_toNat_eq zero)
  have loWord := lo.isLt
  rw [divU256ByU128, if_neg nonzero]
  by_cases single : hi = 0
  · refine ⟨lo / d, if_pos single, ?_⟩
    have bound := Nat.div_le_self lo.toNat d.toNat
    rw [BitVec.toNat_udiv, single]
    simp
    omega
  · rw [if_neg single]
    by_cases huge : d ≤ hi
    · refine ⟨BitVec.allOnes 128, if_pos huge, ?_⟩
      have least : d.toNat * 2 ^ 128 ≤ hi.toNat * 2 ^ 128 + lo.toNat :=
        (Nat.mul_le_mul_right _ (BitVec.le_def.1 huge)).trans (Nat.le_add_right _ _)
      have many : 2 ^ 128 ≤ (hi.toNat * 2 ^ 128 + lo.toNat) / d.toNat := by
        rw [Nat.le_div_iff_mul_le positive, mul_comm]
        exact least
      rw [min_eq_right (by omega), BitVec.toNat_allOnes]
    · refine ⟨divisionLoop lo d 128 hi 0, if_neg huge, ?_⟩
      have small : hi.toNat < d.toNat := by
        rw [BitVec.le_def] at huge
        omega
      have few := remaining_quotient_lt lo.toNat 128 small
      rw [divisionLoop_toNat le_rfl small (Nat.dvd_zero _), longDivision_eq _ _ _ small,
        Nat.mod_eq_of_lt loWord]
      rw [Nat.mod_eq_of_lt loWord] at few
      rw [min_eq_left (Nat.le_sub_one_of_lt few)]
      exact Nat.zero_add _

end Division

/-! ## The two paths -/

namespace I128

theorem minValue_eq : minValue = -2 ^ 127 := by decide

theorem fits_iff {value : Int} : Fits value ↔ -2 ^ 127 ≤ value ∧ value < 2 ^ 127 := by
  have maximum : maxValue = 2 ^ 127 - 1 := by decide
  rw [Fits, minValue_eq, maximum]
  omega

private theorem natAbs_lt {value : Int} (fits : Fits value) : value.natAbs < 2 ^ 128 := by
  rw [fits_iff] at fits
  omega

private theorem toNat_unsignedAbs {value : Int} (fits : Fits value) :
    (unsignedAbs value).toNat = value.natAbs := by
  rw [unsignedAbs, BitVec.toNat_ofNat, Nat.mod_eq_of_lt (natAbs_lt fits)]

private theorem unsignedAbs_ne_zero {value : Int} (fits : Fits value) (nonzero : value ≠ 0) :
    unsignedAbs value ≠ 0 := by
  intro zero
  have same := toNat_unsignedAbs fits
  rw [zero] at same
  exact nonzero (Int.natAbs_eq_zero.1 same.symm)

/-- A number by its sign and its magnitude. -/
def signed (negative : Bool) (magnitude : Nat) : Int :=
  if negative then -(magnitude : Int) else magnitude

theorem signed_natAbs (value : Int) : signed (decide (value < 0)) value.natAbs = value := by
  by_cases negative : value < 0
  · simp only [signed, negative, decide_true, if_true]
    omega
  · simp only [signed, negative, decide_false, Bool.false_eq_true, if_false]
    omega

/-- A truncated quotient is the quotient of the magnitudes with the sign of all three. -/
theorem signed_tdiv (aSign bSign dSign : Bool) (a b d : Nat) :
    (signed aSign a * signed bSign b).tdiv (signed dSign d) =
      signed (aSign ^^ bSign ^^ dSign) (a * b / d) := by
  have exactly : ((a : Int) * b).tdiv d = ((a * b / d : Nat) : Int) := by
    rw [← Int.natCast_mul, ← Int.ofNat_tdiv]
  cases aSign <;> cases bSign <;> cases dSign <;>
    simp only [signed, if_true, Bool.false_eq_true, if_false, Int.neg_mul, Int.mul_neg,
      Int.neg_neg, Int.neg_tdiv, Int.tdiv_neg, exactly, Bool.xor_true, Bool.xor_false,
      Bool.not_true, Bool.not_false]

end I128

/-- A quotient given in one word gets its sign back, or is out of range. -/
theorem signedQuotient_ok (neg : Bool) {quot : U128} {magnitude : Nat}
    (same : quot.toNat = min magnitude (2 ^ 128 - 1)) :
    signedQuotient neg quot =
      .ok ((I128.checked (I128.signed neg magnitude)).map Decimal128.mk) := by
  have greatest : maxMagnitude.toNat = 2 ^ 127 - 1 := by decide
  have least : (maxMagnitude + 1).toNat = 2 ^ 127 := by decide
  have cast : quot.toNat < 2 ^ 127 → quot.toInt = magnitude := by
    intro small
    rw [BitVec.toInt_eq_toNat_of_lt (by omega)]
    omega
  cases neg with
  | true =>
      have above : maxMagnitude + 1 < quot ↔ 2 ^ 127 < magnitude := by
        rw [BitVec.lt_def, least]
        omega
      have exactly : quot = maxMagnitude + 1 ↔ magnitude = 2 ^ 127 := by
        rw [← BitVec.toNat_inj, least]
        omega
      have range : I128.Fits (-(magnitude : Int)) ↔ ¬2 ^ 127 < magnitude := by
        rw [I128.fits_iff]
        omega
      simp only [signedQuotient, I128.signed, if_true, I128.checked, range, above, exactly]
      by_cases huge : 2 ^ 127 < magnitude
      · rw [if_pos huge, if_neg (not_not.2 huge)]
        rfl
      · rw [if_neg huge, if_pos huge]
        by_cases extreme : magnitude = 2 ^ 127
        · rw [if_pos extreme, extreme]
          rfl
        · rw [if_neg extreme, cast (by omega), I128.neg, if_pos (range.2 huge)]
          rfl
  | false =>
      have above : maxMagnitude < quot ↔ 2 ^ 127 ≤ magnitude := by
        rw [BitVec.lt_def, greatest]
        omega
      have range : I128.Fits (magnitude : Int) ↔ ¬2 ^ 127 ≤ magnitude := by
        rw [I128.fits_iff]
        omega
      simp only [signedQuotient, I128.signed, Bool.false_eq_true, if_false, I128.checked, range,
        above]
      by_cases huge : 2 ^ 127 ≤ magnitude
      · rw [if_pos huge, if_neg (not_not.2 huge)]
        rfl
      · rw [if_neg huge, if_pos huge, cast (by omega)]
        rfl

/-- The wide path gives the exact quotient, truncated toward zero, where that fits. -/
theorem wideMulDiv_ok {a b d : Int} (aFits : I128.Fits a) (bFits : I128.Fits b)
    (dFits : I128.Fits d) (nonzero : d ≠ 0) :
    wideMulDiv a b d = .ok ((I128.checked ((a * b).tdiv d)).map Decimal128.mk) := by
  obtain ⟨product, multiplied, whole⟩ := mulU128_ok (I128.unsignedAbs a) (I128.unsignedAbs b)
  obtain ⟨quot, divided, same⟩ := divU256ByU128_ok product.1 product.2
    (I128.unsignedAbs_ne_zero dFits nonzero)
  rw [whole, I128.toNat_unsignedAbs aFits, I128.toNat_unsignedAbs bFits,
    I128.toNat_unsignedAbs dFits] at same
  have exactly := I128.signed_tdiv (decide (a < 0)) (decide (b < 0)) (decide (d < 0)) a.natAbs
    b.natAbs d.natAbs
  rw [I128.signed_natAbs, I128.signed_natAbs, I128.signed_natAbs] at exactly
  rw [exactly, ← signedQuotient_ok _ same, wideMulDiv, multiplied]
  exact congrArg (fun quotient => quotient >>= signedQuotient _) divided

/-! ## Exactness -/

namespace I128

theorem fits_of_natAbs_lt {value : Int} (small : value.natAbs < 2 ^ 127) : Fits value := by
  rw [fits_iff]
  omega

/-- A division that is not by zero and whose quotient fits does not panic. -/
theorem div_ok {left right : Int} (nonzero : right ≠ 0) (fits : Fits (left.tdiv right)) :
    div left right = .ok (left.tdiv right) := by
  rw [div, if_neg nonzero, if_pos fits]

/-- Scaling down a number that fits gives one that fits. -/
theorem fits_tdiv_scale {value : Int} (fits : Fits value) :
    Fits (value.tdiv Decimal128.scale) := by
  apply fits_of_natAbs_lt
  have bound := natAbs_lt fits
  have quotient : (value.tdiv Decimal128.scale).natAbs = value.natAbs / 1000000000000000000 :=
    Int.natAbs_tdiv value Decimal128.scale
  omega

/-- A number that has been scaled up is not the least one, so its quotients fit. -/
theorem fits_scaled_tdiv {value divisor : Int} (fits : Fits (value * Decimal128.scale)) :
    Fits ((value * Decimal128.scale).tdiv divisor) := by
  apply fits_of_natAbs_lt
  have quotient := Int.natAbs_tdiv_le_natAbs (value * Decimal128.scale) divisor
  rw [fits_iff] at fits
  rw [Decimal128.scale] at fits quotient ⊢
  omega

end I128

namespace Decimal128

variable {a b : Decimal128}

/-- Multiplication is exact on both paths. -/
theorem checkedMul_ok (aInRange : a.InRange) (bInRange : b.InRange) :
    checkedMul a b =
      .ok ((I128.checked ((a.raw * b.raw).tdiv scale)).map Decimal128.mk) := by
  by_cases fits : I128.Fits (a.raw * b.raw)
  · have quotient := I128.fits_tdiv_scale fits
    rw [checkedMul, I128.checkedMul, I128.checked, if_pos fits, I128.checked, if_pos quotient]
    simp only
    rw [I128.div_ok (by decide) quotient]
    rfl
  · rw [checkedMul, I128.checkedMul, I128.checked, if_neg fits]
    exact wideMulDiv_ok aInRange bInRange (by decide) (by decide)

/-- Division is exact on both paths. -/
theorem checkedDiv_ok (aInRange : a.InRange) (bInRange : b.InRange) (nonzero : b.raw ≠ 0) :
    checkedDiv a b =
      .ok ((I128.checked ((a.raw * scale).tdiv b.raw)).map Decimal128.mk) := by
  by_cases fits : I128.Fits (a.raw * scale)
  · have quotient : I128.Fits ((a.raw * scale).tdiv b.raw) := I128.fits_scaled_tdiv fits
    rw [checkedDiv, if_neg nonzero, I128.checkedMul, I128.checked, if_pos fits, I128.checked,
      if_pos quotient]
    simp only
    rw [I128.div_ok nonzero quotient]
    rfl
  · rw [checkedDiv, if_neg nonzero, I128.checkedMul, I128.checked, if_neg fits]
    exact wideMulDiv_ok aInRange (by decide) bInRange nonzero

/-- The unbounded product is what `checked_mul` returns wherever it is in range. -/
theorem checkedMul_eq (aInRange : a.InRange) (bInRange : b.InRange) :
    checkedMul a b = .ok (if (a * b).InRange then some (a * b) else none) := by
  rw [checkedMul_ok aInRange bInRange, I128.checked]
  by_cases fits : I128.Fits ((a.raw * b.raw).tdiv scale)
  · rw [if_pos fits]
    exact congrArg Except.ok (if_pos fits).symm
  · rw [if_neg fits]
    exact congrArg Except.ok (if_neg fits).symm

/-- The unbounded quotient is what `checked_div` returns wherever it is in range. -/
theorem checkedDiv_eq (aInRange : a.InRange) (bInRange : b.InRange) :
    checkedDiv a b = .ok (if b.raw ≠ 0 ∧ (a / b).InRange then some (a / b) else none) := by
  by_cases zero : b.raw = 0
  · rw [checkedDiv, if_pos zero, if_neg fun both => both.1 zero]
  · rw [checkedDiv_ok aInRange bInRange zero, I128.checked]
    by_cases fits : I128.Fits ((a.raw * scale).tdiv b.raw)
    · rw [if_pos fits]
      exact congrArg Except.ok (if_pos ⟨zero, fits⟩).symm
    · rw [if_neg fits]
      exact congrArg Except.ok (if_neg fun both => fits both.2).symm

/-- For all operands, `checked_mul` and `checked_div` return the exact result, truncated toward
zero, where it fits and nothing where it does not, without a panic; and where the `i128` path is
taken, the wide path would have given the same. -/
theorem checked_mul_div_exact (aInRange : a.InRange) (bInRange : b.InRange) :
    checkedMul a b =
        .ok (if I128.Fits ((a.raw * b.raw).tdiv scale) then
          some ⟨(a.raw * b.raw).tdiv scale⟩ else none) ∧
      checkedDiv a b =
        .ok (if b.raw ≠ 0 ∧ I128.Fits ((a.raw * scale).tdiv b.raw) then
          some ⟨(a.raw * scale).tdiv b.raw⟩ else none) ∧
      (I128.Fits (a.raw * b.raw) →
        checkedMul a b = wideMulDiv a.raw b.raw scale) ∧
      (b.raw ≠ 0 → I128.Fits (a.raw * scale) →
        checkedDiv a b = wideMulDiv a.raw scale b.raw) := by
  refine ⟨checkedMul_eq aInRange bInRange, checkedDiv_eq aInRange bInRange, fun _ => ?_,
    fun nonzero _ => ?_⟩
  · rw [checkedMul_ok aInRange bInRange]
    exact (wideMulDiv_ok aInRange bInRange (by decide) (by decide)).symm
  · rw [checkedDiv_ok aInRange bInRange nonzero]
    exact (wideMulDiv_ok aInRange (by decide) bInRange nonzero).symm

/-- The greatest decimal times minus itself does not fit, and divided by it is minus one. -/
theorem checked_mul_div_exact_greatest :
    checkedMul maxValue (-maxValue) = .ok none ∧
      checkedDiv maxValue (-maxValue) = .ok (some (-one)) := by
  have greatest : maxValue.InRange := by decide
  have opposite : (-maxValue).InRange := by decide
  obtain ⟨product, quotient, -, -⟩ := checked_mul_div_exact greatest opposite
  exact ⟨product.trans (by decide +kernel), quotient.trans (by decide +kernel)⟩

end Decimal128

end Exg
