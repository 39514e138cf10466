import Exg.Common.DecimalValue
import Exg.Risk.Margin

/-!
# The liquidation price

At the liquidation price the equity of a position should be its maintenance margin.  Clearing
records the funding that a user has paid as positive, and takes it from the equity; the formula
moves the price as if the user had received it.  Except for rounding the equity is therefore off
by twice the funding.
-/

namespace Exg

open Decimal128

/-- How far the equity is from the maintenance margin at the liquidation price. -/
def marginGap (entryPrice leverage mmr : Decimal128) (side : PositionSide)
    (size accumulatedFunding : Decimal128) : Decimal128 :=
  let notional := size * entryPrice
  let markPrice :=
    calcLiquidationPrice entryPrice leverage mmr side size accumulatedFunding
  calcInitialMargin notional leverage + calcUnrealizedPnl entryPrice markPrice size side -
    accumulatedFunding - notional * mmr

/-! ## The formulas without rounding -/

def exactLiquidationPrice (entryPrice leverage mmr : ℚ) (side : PositionSide)
    (size accumulatedFunding : ℚ) : ℚ :=
  match side with
  | .long | .both => entryPrice * (1 - 1 / leverage + mmr) - accumulatedFunding / size
  | .short => entryPrice * (1 + 1 / leverage - mmr) + accumulatedFunding / size

def exactUnrealizedPnl (entryPrice markPrice size : ℚ) (side : PositionSide) : ℚ :=
  match side with
  | .long | .both => (markPrice - entryPrice) * size
  | .short => (entryPrice - markPrice) * size

def exactMarginGap (entryPrice leverage mmr : ℚ) (side : PositionSide)
    (size accumulatedFunding : ℚ) : ℚ :=
  let markPrice :=
    exactLiquidationPrice entryPrice leverage mmr side size accumulatedFunding
  size * entryPrice / leverage + exactUnrealizedPnl entryPrice markPrice size side -
    accumulatedFunding - size * entryPrice * mmr

private theorem exactMarginGap_eq {entryPrice leverage mmr size : ℚ} (sizeNonzero : size ≠ 0)
    (side : PositionSide) (accumulatedFunding : ℚ) :
    exactMarginGap entryPrice leverage mmr side size accumulatedFunding =
      -2 * accumulatedFunding := by
  cases side <;>
    simp only [exactMarginGap, exactLiquidationPrice, exactUnrealizedPnl] <;>
    field_simp <;>
    ring

/-! ## Rounding -/

/-- The most that the roundings of the fixed-point operations add up to. -/
def roundingBound (entryPrice leverage mmr size : Decimal128) : ℚ :=
  (entryPrice.toRat * size.toRat + 2 * size.toRat + 1 / leverage.toRat + |mmr.toRat| + 3) * unit

section Gap

variable {entryPrice leverage size : Decimal128} (mmr : Decimal128)

private theorem abs_notional_sub_le (size entryPrice : Decimal128) :
    |(size * entryPrice).toRat - size.toRat * entryPrice.toRat| ≤ unit := by
  have rounding := abs_mul_sub_le size entryPrice size.toRat
  rwa [sub_self, abs_zero, zero_mul, zero_add] at rounding

private theorem abs_calcInitialMargin_sub_le (leveragePos : 0 < leverage)
    (size entryPrice : Decimal128) :
    |(calcInitialMargin (size * entryPrice) leverage).toRat -
        size.toRat * entryPrice.toRat / leverage.toRat| ≤ (1 / leverage.toRat + 1) * unit := by
  have leverageRat := toRat_pos leveragePos
  have carried := div_le_div_of_nonneg_right (abs_notional_sub_le size entryPrice) leverageRat.le
  have rounding := abs_div_sub_le (size * entryPrice) leveragePos (size.toRat * entryPrice.toRat)
  calc |(calcInitialMargin (size * entryPrice) leverage).toRat -
        size.toRat * entryPrice.toRat / leverage.toRat|
      ≤ unit / leverage.toRat + unit := rounding.trans (add_le_add_left carried unit)
    _ = (1 / leverage.toRat + 1) * unit := by ring

private theorem abs_maintenance_sub_le (size entryPrice : Decimal128) :
    |(size * entryPrice * mmr).toRat - size.toRat * entryPrice.toRat * mmr.toRat| ≤
      (|mmr.toRat| + 1) * unit := by
  have carried := mul_le_mul_of_nonneg_right (abs_notional_sub_le size entryPrice)
    (abs_nonneg mmr.toRat)
  have rounding := abs_mul_sub_le (size * entryPrice) mmr (size.toRat * entryPrice.toRat)
  linarith

/-- The liquidation price is off by the roundings of two quotients and a product. -/
theorem abs_calcLiquidationPrice_sub_le (entryPos : 0 < entryPrice) (leveragePos : 0 < leverage)
    (sizePos : 0 < size) (side : PositionSide) (accumulatedFunding : Decimal128) :
    |(calcLiquidationPrice entryPrice leverage mmr side size accumulatedFunding).toRat -
        exactLiquidationPrice entryPrice.toRat leverage.toRat mmr.toRat side size.toRat
          accumulatedFunding.toRat| ≤ (entryPrice.toRat + 2) * unit := by
  obtain ⟨inverse, invLeverage, inverseLe⟩ := exists_div_error one leveragePos
  obtain ⟨funding, fundingPerUnit, fundingLe⟩ := exists_div_error accumulatedFunding sizePos
  have carried : |inverse| * entryPrice.toRat ≤ unit * entryPrice.toRat :=
    mul_le_mul_of_nonneg_right inverseLe (toRat_pos entryPos).le
  have factored (factor : Decimal128) (exact : ℚ)
      (near : |factor.toRat - exact| = |inverse|) :
      |(entryPrice * factor).toRat - entryPrice.toRat * exact| ≤
        (entryPrice.toRat + 1) * unit := by
    have rounding := abs_mul_sub_le factor entryPrice exact
    rw [near, abs_of_pos (toRat_pos entryPos), product_comm, mul_comm exact] at rounding
    linarith
  have long : |(entryPrice * (one - one / leverage + mmr)).toRat -
      entryPrice.toRat * (1 - 1 / leverage.toRat + mmr.toRat)| ≤ (entryPrice.toRat + 1) * unit := by
    apply factored
    rw [toRat_add, toRat_sub, invLeverage, toRat_one, ← abs_neg inverse]
    congr 1
    ring
  have short : |(entryPrice * (one + one / leverage - mmr)).toRat -
      entryPrice.toRat * (1 + 1 / leverage.toRat - mmr.toRat)| ≤ (entryPrice.toRat + 1) * unit := by
    apply factored
    rw [toRat_sub, toRat_add, invLeverage, toRat_one]
    congr 1
    ring
  rw [abs_le] at long short fundingLe ⊢
  cases side <;>
    simp only [calcLiquidationPrice, exactLiquidationPrice, toRat_sub, toRat_add,
      fundingPerUnit] <;>
    constructor <;>
    linarith

/-- An error of the mark price is carried on to the profit. -/
theorem abs_calcUnrealizedPnl_sub_le (sizePos : 0 < size) (side : PositionSide)
    (entryPrice markPrice : Decimal128) (exactPrice : ℚ) :
    |(calcUnrealizedPnl entryPrice markPrice size side).toRat -
        exactUnrealizedPnl entryPrice.toRat exactPrice size.toRat side| ≤
      |markPrice.toRat - exactPrice| * size.toRat + unit := by
  have long := abs_mul_sub_le (markPrice - entryPrice) size (exactPrice - entryPrice.toRat)
  have short := abs_mul_sub_le (entryPrice - markPrice) size (entryPrice.toRat - exactPrice)
  rw [abs_of_pos (toRat_pos sizePos), toRat_sub] at long short
  rw [sub_sub_sub_cancel_right] at long
  rw [sub_sub_sub_cancel_left, abs_sub_comm exactPrice] at short
  cases side with
  | long => exact long
  | short => exact short
  | both => exact long

/-- The fixed-point formulas are as far from the exact ones as their roundings allow. -/
theorem abs_marginGap_sub_le (entryPos : 0 < entryPrice) (leveragePos : 0 < leverage)
    (sizePos : 0 < size) (side : PositionSide) (accumulatedFunding : Decimal128) :
    |(marginGap entryPrice leverage mmr side size accumulatedFunding).toRat -
        exactMarginGap entryPrice.toRat leverage.toRat mmr.toRat side size.toRat
          accumulatedFunding.toRat| ≤ roundingBound entryPrice leverage mmr size := by
  have initial := abs_calcInitialMargin_sub_le leveragePos size entryPrice
  have maintenance := abs_maintenance_sub_le mmr size entryPrice
  have price := abs_calcLiquidationPrice_sub_le mmr entryPos leveragePos sizePos side
    accumulatedFunding
  have profit := (abs_calcUnrealizedPnl_sub_le sizePos side entryPrice _ _).trans
    (add_le_add_left (mul_le_mul_of_nonneg_right price (toRat_pos sizePos).le) unit)
  rw [abs_le] at initial maintenance profit ⊢
  simp only [marginGap, exactMarginGap, roundingBound, toRat_sub, toRat_add]
  constructor <;>
    linarith

/-- The equity is the maintenance margin at the liquidation price, up to rounding: without
rounding it is so exactly, and the fixed-point formulas are off by their roundings only. -/
def MeetsMaintenance (entryPrice leverage mmr : Decimal128) (side : PositionSide)
    (size accumulatedFunding : Decimal128) : Prop :=
  exactMarginGap entryPrice.toRat leverage.toRat mmr.toRat side size.toRat
      accumulatedFunding.toRat = 0 ∧
    |(marginGap entryPrice leverage mmr side size accumulatedFunding).toRat| ≤
      roundingBound entryPrice leverage mmr size

/-- The equity meets the maintenance margin exactly where no funding has accumulated.  Else the
gap is twice the funding, so that it can be put down to rounding only where the funding can. -/
theorem meetsMaintenance_iff (entryPos : 0 < entryPrice) (leveragePos : 0 < leverage)
    (sizePos : 0 < size) (side : PositionSide) (accumulatedFunding : Decimal128) :
    (MeetsMaintenance entryPrice leverage mmr side size accumulatedFunding ↔
        accumulatedFunding = 0) ∧
      (|(marginGap entryPrice leverage mmr side size accumulatedFunding).toRat| ≤
          roundingBound entryPrice leverage mmr size →
        |accumulatedFunding.toRat| ≤ roundingBound entryPrice leverage mmr size) := by
  have rounding := abs_marginGap_sub_le mmr entryPos leveragePos sizePos side accumulatedFunding
  rw [exactMarginGap_eq (toRat_pos sizePos).ne'] at rounding
  rw [MeetsMaintenance, exactMarginGap_eq (toRat_pos sizePos).ne']
  refine ⟨⟨fun meets => ?_, fun none => ?_⟩, fun small => ?_⟩
  · have zero : accumulatedFunding.toRat = 0 := by linarith [meets.1]
    exact toRat_eq_zero.1 zero
  · rw [none, toRat_zero, mul_zero] at rounding ⊢
    rw [sub_zero] at rounding
    exact ⟨rfl, rounding⟩
  · rw [abs_le] at rounding small ⊢
    constructor <;> linarith

end Gap

/-- A long position that has paid 100 in funding is liquidated 200 too late. -/
theorem liquidationPrice_funding :
    calcLiquidationPrice (ofInt 50000) (ofInt 20) ⟨4000000000000000⟩ .long (ofInt 2)
        (ofInt 100) = ofInt 47650 ∧
      marginGap (ofInt 50000) (ofInt 20) ⟨4000000000000000⟩ .long (ofInt 2) (ofInt 100) =
        ofInt (-200) ∧
      ¬|(marginGap (ofInt 50000) (ofInt 20) ⟨4000000000000000⟩ .long (ofInt 2)
          (ofInt 100)).toRat| ≤
        roundingBound (ofInt 50000) (ofInt 20) ⟨4000000000000000⟩ (ofInt 2) := by
  have gap : marginGap (ofInt 50000) (ofInt 20) ⟨4000000000000000⟩ .long (ofInt 2) (ofInt 100) =
      ofInt (-200) := by decide
  refine ⟨by decide, gap, ?_⟩
  rw [gap]
  norm_num [roundingBound, toRat, ofInt, scale, unit, abs_of_neg, abs_of_pos]

theorem meetsMaintenance_iff_short :
    (MeetsMaintenance (ofInt 50000) (ofInt 20) ⟨4000000000000000⟩ .short (ofInt 2) 0 ↔
        (0 : Decimal128) = 0) ∧
      (|(marginGap (ofInt 50000) (ofInt 20) ⟨4000000000000000⟩ .short (ofInt 2) 0).toRat| ≤
          roundingBound (ofInt 50000) (ofInt 20) ⟨4000000000000000⟩ (ofInt 2) →
        |(0 : Decimal128).toRat| ≤
          roundingBound (ofInt 50000) (ofInt 20) ⟨4000000000000000⟩ (ofInt 2)) :=
  meetsMaintenance_iff _ (by decide) (by decide) (by decide) .short 0

end Exg
