import Mathlib.Tactic.Ring
import Mathlib.Data.Nat.ModEq

/-!
# Wide arithmetic from words

A word is a number below `base * base`, in two halves below `base`.  The product of two words
is put together from the four products of their halves, with one carry out of the middle and
one out of the low word.  Binary long division brings the bits of a low word into the
remainder one at a time.
-/

namespace Support

/-! ## Carries -/

/-- A sum of two words has wrapped exactly when it is less than one of them. -/
theorem wrapped_add_carry {word left right : Nat} (leftWord : left < word)
    (rightWord : right < word) :
    (left + right) % word + word * (if (left + right) % word < left then 1 else 0) =
      left + right := by
  by_cases fits : left + right < word
  · rw [Nat.mod_eq_of_lt fits, if_neg (by omega)]
    omega
  · have wrapped : (left + right) % word = left + right - word := by
      rw [Nat.mod_eq_sub_mod (by omega), Nat.mod_eq_of_lt (by omega)]
    rw [wrapped, if_pos (by omega)]
    omega

/-! ## Products -/

section Schoolbook

variable (base leftHigh leftLow rightHigh rightLow : Nat)

/-- The two cross products of the halves, wrapped to a word. -/
def middle : Nat := (leftLow * rightHigh + leftHigh * rightLow) % (base * base)

def middleCarry : Nat :=
  if middle base leftHigh leftLow rightHigh rightLow < leftLow * rightHigh then 1 else 0

/-- The low word of the product. -/
def lowWord : Nat :=
  (leftLow * rightLow + middle base leftHigh leftLow rightHigh rightLow * base % (base * base)) %
    (base * base)

def lowCarry : Nat :=
  if lowWord base leftHigh leftLow rightHigh rightLow < leftLow * rightLow then 1 else 0

/-- The high word of the product. -/
def highWord : Nat :=
  leftHigh * rightHigh + middle base leftHigh leftLow rightHigh rightLow / base +
    middleCarry base leftHigh leftLow rightHigh rightLow * base +
    lowCarry base leftHigh leftLow rightHigh rightLow

variable {base leftHigh leftLow rightHigh rightLow}

/-- The product of two halves is a word. -/
theorem mul_half_lt {left right : Nat} (leftHalf : left < base) (rightHalf : right < base) :
    left * right < base * base :=
  Nat.mul_lt_mul'' leftHalf rightHalf

/-- The two words of a schoolbook product hold the product. -/
theorem schoolbook_exact (leftHighHalf : leftHigh < base) (leftLowHalf : leftLow < base)
    (rightHighHalf : rightHigh < base) (rightLowHalf : rightLow < base) :
    highWord base leftHigh leftLow rightHigh rightLow * (base * base) +
        lowWord base leftHigh leftLow rightHigh rightLow =
      (leftHigh * base + leftLow) * (rightHigh * base + rightLow) := by
  have across : middle base leftHigh leftLow rightHigh rightLow +
      base * base * middleCarry base leftHigh leftLow rightHigh rightLow =
        leftLow * rightHigh + leftHigh * rightLow :=
    wrapped_add_carry (mul_half_lt leftLowHalf rightHighHalf)
      (mul_half_lt leftHighHalf rightLowHalf)
  have shifted : middle base leftHigh leftLow rightHigh rightLow * base % (base * base) =
      middle base leftHigh leftLow rightHigh rightLow % base * base :=
    Nat.mul_mod_mul_right base _ base
  have low : lowWord base leftHigh leftLow rightHigh rightLow +
      base * base * lowCarry base leftHigh leftLow rightHigh rightLow =
        leftLow * rightLow +
          middle base leftHigh leftLow rightHigh rightLow * base % (base * base) :=
    wrapped_add_carry (mul_half_lt leftLowHalf rightLowHalf)
      (Nat.mod_lt _ (Nat.mul_pos (by omega) (by omega)))
  have parts := Nat.div_add_mod (middle base leftHigh leftLow rightHigh rightLow) base
  rw [shifted] at low
  rw [highWord]
  generalize middle base leftHigh leftLow rightHigh rightLow = mid at *
  generalize middleCarry base leftHigh leftLow rightHigh rightLow = midCarry at *
  generalize lowCarry base leftHigh leftLow rightHigh rightLow = carry at *
  generalize lowWord base leftHigh leftLow rightHigh rightLow = lo at *
  generalize mid / base = midHigh at *
  generalize mid % base = midLow at *
  calc (leftHigh * rightHigh + midHigh + midCarry * base + carry) * (base * base) + lo
      = leftHigh * rightHigh * (base * base) + midHigh * (base * base) +
          base * base * midCarry * base + (lo + base * base * carry) := by ring
    _ = leftHigh * rightHigh * (base * base) +
          (base * midHigh + midLow + base * base * midCarry) * base + leftLow * rightLow := by
        rw [low]
        ring
    _ = leftHigh * rightHigh * (base * base) +
          (leftLow * rightHigh + leftHigh * rightLow) * base + leftLow * rightLow := by
        rw [parts, across]
    _ = (leftHigh * base + leftLow) * (rightHigh * base + rightLow) := by ring

end Schoolbook

/-! ## Long division -/

/-- Binary long division.  The bits of `low` below `position` are still to be brought into the
remainder. -/
def longDivision (divisor low : Nat) : Nat → Nat → Nat → Nat
  | 0, _, quotient => quotient
  | position + 1, remainder, quotient =>
      let shifted := 2 * remainder + low / 2 ^ position % 2
      if divisor ≤ shifted then
        longDivision divisor low position (shifted - divisor) (quotient + 2 ^ position)
      else
        longDivision divisor low position shifted quotient

/-- One more bit of the dividend. -/
theorem bring_in (remainder low position : Nat) :
    remainder * 2 ^ (position + 1) + low % 2 ^ (position + 1) =
      (2 * remainder + low / 2 ^ position % 2) * 2 ^ position + low % 2 ^ position := by
  rw [Nat.mod_pow_succ]
  ring

/-- Long division adds the quotient of what is left of the dividend. -/
theorem longDivision_eq {divisor : Nat} (low position : Nat) {remainder : Nat} (quotient : Nat)
    (small : remainder < divisor) :
    longDivision divisor low position remainder quotient =
      quotient + (remainder * 2 ^ position + low % 2 ^ position) / divisor := by
  induction position generalizing remainder quotient with
  | zero => simp [longDivision, Nat.mod_one, Nat.div_eq_of_lt small]
  | succ position inductionHypothesis =>
      rw [longDivision, bring_in]
      have bit : low / 2 ^ position % 2 < 2 := Nat.mod_lt _ (by omega)
      have bound : 2 * remainder + low / 2 ^ position % 2 < 2 * divisor := by omega
      generalize 2 * remainder + low / 2 ^ position % 2 = shifted at bound ⊢
      by_cases taken : divisor ≤ shifted
      · rw [if_pos taken, inductionHypothesis (quotient + 2 ^ position) (by omega)]
        have rest : shifted * 2 ^ position + low % 2 ^ position =
            (shifted - divisor) * 2 ^ position + low % 2 ^ position + divisor * 2 ^ position := by
          rw [Nat.sub_mul]
          have : divisor * 2 ^ position ≤ shifted * 2 ^ position := Nat.mul_le_mul_right _ taken
          omega
        rw [rest, Nat.add_mul_div_left _ _ (by omega : 0 < divisor)]
        omega
      · rw [if_neg taken, inductionHypothesis quotient (by omega)]

/-- The bits of the quotient that are still to come fit below the position. -/
theorem remaining_quotient_lt {divisor remainder : Nat} (low position : Nat)
    (small : remainder < divisor) :
    (remainder * 2 ^ position + low % 2 ^ position) / divisor < 2 ^ position := by
  have bit : low % 2 ^ position < 2 ^ position := Nat.mod_lt _ (Nat.two_pow_pos position)
  apply Nat.div_lt_of_lt_mul
  calc remainder * 2 ^ position + low % 2 ^ position
      < remainder * 2 ^ position + 2 ^ position := Nat.add_lt_add_left bit _
    _ = (remainder + 1) * 2 ^ position := by ring
    _ ≤ divisor * 2 ^ position := Nat.mul_le_mul_right _ small

end Support
