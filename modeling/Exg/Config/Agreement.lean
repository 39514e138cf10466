import Exg.Config.Validation

/-!
# Validation against the parser of decimals

Validation accepts the numerals that the parser of decimals is written for, but it looks at their
doubles.  A double has neither the bounds of a decimal nor its last place: a numeral that a
decimal cannot hold is accepted, and so is one that is positive as a double and zero as a
decimal.
-/

namespace Exg

open Support Decimal128

/-- The parser takes what validation accepts, and agrees with it on the sign. -/
structure AgreesWithParser (value : String) : Prop where
  accepted : ∀ field number, parseDecimal field value = .ok number →
    ∃ decimal, fromStr value = .parsed decimal
  positive : ∀ field, requirePositive field value = .ok () →
    ∃ decimal, fromStr value = .parsed decimal ∧ 0 < decimal
  nonNegative : ∀ field, requireNonNegative field value = .ok () →
    ∃ decimal, fromStr value = .parsed decimal ∧ 0 ≤ decimal

/-- The number fits a decimal, and without a minus it does not lie between half the least double
and one unit of a decimal's last place. -/
structure HeldByDecimal (negative : Bool) (magnitude : ℚ) : Prop where
  inRange : magnitude * 10 ^ 18 < 2 ^ 127
  notLost : negative = false → 2 ^ (-1075 : Int) < magnitude → 1 ≤ magnitude * 10 ^ 18

/-- Half the least double is far below the last place of a decimal. -/
theorem halfLeast_lt : (2 : ℚ) ^ (-1075 : Int) < 1 / 10 ^ 19 := by
  have power : (2 : ℚ) ^ (-1075 : Int) < 2 ^ (-64 : Int) :=
    zpow_lt_zpow_right₀ (by norm_num) (by norm_num)
  exact power.trans (by norm_num)

section Numerals

variable {value : String} {negative : Bool} {whole fraction : List Char} {decimal : Decimal128}

/-- A numeral is parsed as its digits, if they fit. -/
theorem fromStr_numeral_iff (numeral : IsNumeral (trim value.toList) negative whole fraction) :
    fromStr value = .parsed decimal ↔
      rawMagnitude whole fraction < 2 ^ 127 ∧
        decimal = ⟨I128.signed negative (rawMagnitude whole fraction)⟩ := by
  obtain ⟨body, stripped, parts⟩ := numeral.parts
  have filled := numeral.body_ne_nil parts
  have wholeDigits := numeral.wholeDigits
  have fractionDigits := numeral.fractionDigits
  have parsed := fromStr_parsed stripped filled
  have outside := fromStr_outOfRange stripped filled
  rw [parts] at parsed outside
  by_cases fits : rawMagnitude whole fraction < 2 ^ 127
  · rw [parsed wholeDigits fractionDigits fits, and_iff_right fits, ParseOutcome.parsed.injEq,
      eq_comm]
  · obtain ⟨error, rejected⟩ := outside wholeDigits fractionDigits fits
    rw [rejected]
    exact iff_of_false (fun same => by cases same) fun both => fits both.1

theorem magnitude_nonneg (whole fraction : List Char) : 0 ≤ denoted false whole fraction := by
  have sum : denoted false whole fraction =
      decimalValue whole + decimalValue fraction / 10 ^ fraction.length := rfl
  rw [sum]
  positivity

private theorem rawMagnitude_lt_iff :
    rawMagnitude whole fraction < 2 ^ 127 ↔ denoted false whole fraction * 10 ^ 18 < 2 ^ 127 := by
  have floor : ⌊denoted false whole fraction * 10 ^ 18⌋ = (rawMagnitude whole fraction : Int) :=
    floor_magnitude whole fraction
  rw [← Nat.cast_lt (α := Int), ← floor, Int.floor_lt]
  norm_num

private theorem rawMagnitude_pos_iff :
    0 < rawMagnitude whole fraction ↔ 1 ≤ denoted false whole fraction * 10 ^ 18 := by
  have floor : ⌊denoted false whole fraction * 10 ^ 18⌋ = (rawMagnitude whole fraction : Int) :=
    floor_magnitude whole fraction
  rw [← Nat.cast_lt (α := Int), ← floor, Nat.cast_zero, Int.floor_pos]

private theorem readsAs_of_numeral
    (numeral : IsNumeral (trim value.toList) negative whole fraction) :
    ReadsAs value (binary64.round negative (denoted false whole fraction)) :=
  ⟨negative, whole, fraction, numeral, rfl⟩

/-- Validation and the parser agree on the sign of a numeral that a decimal holds. -/
theorem agrees_of_held (numeral : IsNumeral (trim value.toList) negative whole fraction)
    (held : HeldByDecimal negative (denoted false whole fraction)) :
    ∃ decimal, fromStr value = .parsed decimal ∧
      (0 < binary64.round negative (denoted false whole fraction) → 0 < decimal) ∧
      (0 ≤ binary64.round negative (denoted false whole fraction) → 0 ≤ decimal) := by
  have nonneg := magnitude_nonneg whole fraction
  have parsed := (fromStr_numeral_iff numeral).2 ⟨rawMagnitude_lt_iff.2 held.inRange, rfl⟩
  refine ⟨_, parsed, fun positive => ?_, fun atLeast => ?_⟩
  · obtain ⟨rfl, above⟩ := (FloatFormat.round_pos_iff nonneg).1 positive
    exact lt_iff_raw.2 (Int.natCast_pos.2 (rawMagnitude_pos_iff.2 (held.notLost rfl above)))
  · cases negative with
    | false => exact le_iff_raw.2 (Int.natCast_nonneg _)
    | true =>
        -- a negative number that is not below zero as a double has no digits that are kept
        have small : ¬2 ^ (-1075 : Int) < denoted false whole fraction := fun above =>
          FloatFormat.Number.not_lt.2 atLeast ((FloatFormat.round_neg_iff nonneg).2 ⟨rfl, above⟩)
        have none : rawMagnitude whole fraction = 0 := by
          by_contra some
          have digits := rawMagnitude_pos_iff.1 (Nat.pos_of_ne_zero some)
          have unit : 1 / 10 ^ 18 ≤ denoted false whole fraction :=
            (div_le_iff₀ (by positivity)).2 digits
          exact small ((halfLeast_lt.trans (by norm_num)).trans_le unit)
        rw [none]
        exact le_refl (0 : Decimal128)

end Numerals

/-- Validation agrees with the parser exactly on the numerals that a decimal holds. -/
theorem config_agrees_iff (value : String) :
    AgreesWithParser value ↔
      ∀ negative whole fraction, IsNumeral (trim value.toList) negative whole fraction →
        HeldByDecimal negative (denoted false whole fraction) := by
  constructor
  · intro agrees negative whole fraction numeral
    have nonneg := magnitude_nonneg whole fraction
    have reads := readsAs_of_numeral numeral
    constructor
    · obtain ⟨decimal, parsed⟩ := agrees.accepted "" _ (parseDecimal_ok_iff.2 reads)
      exact rawMagnitude_lt_iff.1 ((fromStr_numeral_iff numeral).1 parsed).1
    · intro unsigned above
      have positive : 0 < binary64.round negative (denoted false whole fraction) :=
        (FloatFormat.round_pos_iff nonneg).2 ⟨unsigned, above⟩
      obtain ⟨decimal, parsed, gained⟩ :=
        agrees.positive "" (requirePositive_ok_iff.2 ⟨_, reads, positive⟩)
      obtain ⟨-, rfl⟩ := (fromStr_numeral_iff numeral).1 parsed
      rw [unsigned, lt_iff_raw] at gained
      exact rawMagnitude_pos_iff.1 (Int.natCast_pos.1 gained)
  · intro held
    constructor
    · intro field number accepted
      obtain ⟨negative, whole, fraction, numeral, -⟩ := parseDecimal_ok_iff.1 accepted
      obtain ⟨decimal, parsed, -⟩ := agrees_of_held numeral (held _ _ _ numeral)
      exact ⟨decimal, parsed⟩
    · intro field accepted
      obtain ⟨number, ⟨negative, whole, fraction, numeral, rfl⟩, positive⟩ :=
        requirePositive_ok_iff.1 accepted
      obtain ⟨decimal, parsed, gained, -⟩ := agrees_of_held numeral (held _ _ _ numeral)
      exact ⟨decimal, parsed, gained positive⟩
    · intro field accepted
      obtain ⟨number, ⟨negative, whole, fraction, numeral, rfl⟩, atLeast⟩ :=
        requireNonNegative_ok_iff.1 accepted
      obtain ⟨decimal, parsed, -, kept⟩ := agrees_of_held numeral (held _ _ _ numeral)
      exact ⟨decimal, parsed, kept atLeast⟩

/-- A tick of a tenth of the last place is accepted as positive and parsed as zero, and a number
of twenty-two digits is accepted and does not parse. -/
theorem config_disagrees :
    requirePositive "tick_size" "0.0000000000000000001" = .ok () ∧
      fromStr "0.0000000000000000001" = .parsed 0 ∧
      ¬AgreesWithParser "0.0000000000000000001" ∧
      (∃ number, parseDecimal "tick_size" "1000000000000000000000" = .ok number) ∧
      fromStr "1000000000000000000000" = .rejected "value out of range" ∧
      ¬AgreesWithParser "1000000000000000000000" := by
  have tinyParts : stripSign (trim "0.0000000000000000001".toList) =
      some (false, "0.0000000000000000001".toList) := by decide +kernel
  have hugeParts : stripSign (trim "1000000000000000000000".toList) =
      some (false, "1000000000000000000000".toList) := by decide +kernel
  have tiny : IsNumeral (trim "0.0000000000000000001".toList) false ['0']
      "0000000000000000001".toList := (isNumeral_iff tinyParts).2 (by decide +kernel)
  have huge : IsNumeral (trim "1000000000000000000000".toList) false
      "1000000000000000000000".toList [] := (isNumeral_iff hugeParts).2 (by decide +kernel)
  have tinyParsed : fromStr "0.0000000000000000001" = .parsed 0 := by decide +kernel
  have hugeParsed : fromStr "1000000000000000000000" = .rejected "value out of range" := by
    decide +kernel
  have positive : (0 : F64) < binary64.round false
      (denoted false ['0'] "0000000000000000001".toList) := by
    have digits : denoted false ['0'] "0000000000000000001".toList = 1 / 10 ^ 19 := by
      have one : decimalValue "0000000000000000001".toList = 1 := by decide +kernel
      have zero : decimalValue ['0'] = 0 := by decide +kernel
      have places : "0000000000000000001".toList.length = 19 := by decide +kernel
      simp only [denoted, one, zero, places, Bool.false_eq_true, if_false, Nat.cast_zero,
        Nat.cast_one, zero_add]
    refine (FloatFormat.round_pos_iff (magnitude_nonneg _ _)).2 ⟨rfl, ?_⟩
    rw [digits]
    exact halfLeast_lt
  have accepted : requirePositive "tick_size" "0.0000000000000000001" = .ok () :=
    requirePositive_ok_iff.2 ⟨_, readsAs_of_numeral tiny, positive⟩
  have acceptedHuge : parseDecimal "tick_size" "1000000000000000000000" = .ok _ :=
    parseDecimal_ok_iff.2 (readsAs_of_numeral huge)
  refine ⟨accepted, tinyParsed, fun agrees => ?_, ⟨_, acceptedHuge⟩, hugeParsed, fun agrees => ?_⟩
  · obtain ⟨decimal, parsed, gained⟩ := agrees.positive _ accepted
    rw [tinyParsed] at parsed
    cases parsed
    exact gained.false
  · obtain ⟨decimal, parsed⟩ := agrees.accepted _ _ acceptedHuge
    rw [hugeParsed] at parsed
    cases parsed

end Exg
