import Exg.Common.DecimalValue
import Exg.Common.Operators
import Exg.Risk.Margin

/-!
# Margins, with their panics

A tier's formula is a product and a difference, and either may leave the range of decimals.  As
both are monotone in the notional, they stay in range over a whole tier if they do at its ends.
The margin ratio adds up the margins of a user's positions and divides by the equity, however
small that is.
-/

namespace Exg

open Support Decimal128

namespace MarginTier

def margin? (tier : MarginTier) (notional : Decimal128) : Option Decimal128 := do
  let product ← notional.mul? tier.maintenanceMarginRate
  product.sub? tier.maintenanceAmount

/-- The product and the difference are in range. -/
structure MarginFits (tier : MarginTier) (notional : Decimal128) : Prop where
  product : (notional * tier.maintenanceMarginRate).InRange
  margin : (tier.margin notional).InRange

variable {tier : MarginTier} {notional low high : Decimal128}

private theorem computes_margin (inRange : notional.InRange)
    (rateInRange : tier.maintenanceMarginRate.InRange) :
    Computes (tier.margin? notional) (tier.MarginFits notional) (tier.margin notional) := by
  have product := computes_mul inRange rateInRange
  have difference := computes_sub (notional * tier.maintenanceMarginRate) tier.maintenanceAmount
  refine (product.bind fun _ => difference).congr ⟨fun fits => ?_, fun fits => ?_⟩
  · exact ⟨fits.1, fits.2⟩
  · exact ⟨fits.product, fits.margin⟩

/-- Between two notionals at which a tier's formula stays in range, it stays in range. -/
theorem MarginFits.between (lowFits : tier.MarginFits low) (highFits : tier.MarginFits high)
    (lower : low ≤ notional) (upper : notional ≤ high) : tier.MarginFits notional := by
  rcases le_total 0 tier.maintenanceMarginRate with nonneg | nonpos
  · have fromLow := product_le_product nonneg lower
    have toHigh := product_le_product nonneg upper
    exact ⟨lowFits.product.between highFits.product fromLow toHigh,
      lowFits.margin.between highFits.margin (sub_le_sub_right fromLow _)
        (sub_le_sub_right toHigh _)⟩
  · have fromHigh := product_le_product_of_nonpos nonpos upper
    have toLow := product_le_product_of_nonpos nonpos lower
    exact ⟨highFits.product.between lowFits.product fromHigh toLow,
      highFits.margin.between lowFits.margin (sub_le_sub_right fromHigh _)
        (sub_le_sub_right toLow _)⟩

end MarginTier

def calcMaintenanceMargin? (notional : Decimal128) (tiers : List MarginTier) :
    Option Decimal128 :=
  match chooseTier notional tiers with
  | some tier => tier.margin? notional
  | none => some 0

/-- The formula of the tier that is used stays in range. -/
def MaintenanceFits (notional : Decimal128) (tiers : List MarginTier) : Prop :=
  ∀ tier, chooseTier notional tiers = some tier → tier.MarginFits notional

variable {notional : Decimal128} {tiers : List MarginTier} {tier : MarginTier}

private theorem mem_of_chooseTier (chosen : chooseTier notional tiers = some tier) :
    tier ∈ tiers := by
  unfold chooseTier at chosen
  split at chosen
  · rename_i found
    cases chosen
    exact List.mem_of_find?_eq_some found
  · obtain ⟨isLast, -⟩ := Option.filter_eq_some_iff.1 chosen
    exact List.mem_of_getLast? isLast

theorem computes_maintenanceMargin (inRange : notional.InRange)
    (rates : ∀ tier ∈ tiers, tier.maintenanceMarginRate.InRange) :
    Computes (calcMaintenanceMargin? notional tiers) (MaintenanceFits notional tiers)
      (calcMaintenanceMargin notional tiers) := by
  unfold calcMaintenanceMargin? calcMaintenanceMargin MaintenanceFits
  cases chosen : chooseTier notional tiers with
  | none => exact (Computes.pure 0).congr (by simp)
  | some tier =>
      refine (MarginTier.computes_margin inRange (rates tier (mem_of_chooseTier chosen))).congr ?_
      simp

/-! ## Rates of at most one -/

/-- A share of a value lies between zero and the value. -/
theorem inRange_share {value rate : Decimal128} (inRange : value.InRange) (nonneg : 0 ≤ rate)
    (atMost : rate ≤ one) : (value * rate).InRange := by
  rw [product_comm]
  rcases le_total 0 value with valueNonneg | valueNonpos
  · have lower := product_le_product valueNonneg nonneg
    have upper := product_le_product valueNonneg atMost
    rw [zero_product] at lower
    rw [one_product] at upper
    exact inRange.of_le lower upper
  · have lower := product_le_product_of_nonpos valueNonpos atMost
    have upper := product_le_product_of_nonpos valueNonpos nonneg
    rw [one_product] at lower
    rw [zero_product] at upper
    exact inRange.between inRange_zero lower upper

/-- With a rate between zero and one, the product of a tier's formula never leaves the range. -/
theorem maintenanceFits_iff {notional : Decimal128} {tiers : List MarginTier}
    (inRange : notional.InRange) (rates : ∀ tier ∈ tiers,
      0 ≤ tier.maintenanceMarginRate ∧ tier.maintenanceMarginRate ≤ one) :
    MaintenanceFits notional tiers ↔ (calcMaintenanceMargin notional tiers).InRange := by
  unfold MaintenanceFits calcMaintenanceMargin
  cases chosen : chooseTier notional tiers with
  | none => exact iff_of_true (by simp) inRange_zero
  | some tier =>
      obtain ⟨nonneg, atMost⟩ := rates tier (mem_of_chooseTier chosen)
      constructor
      · exact fun fits => (fits tier rfl).margin
      · intro within other same
        cases same
        exact ⟨inRange_share inRange nonneg atMost, within⟩

/-! ## Unrealized profits and margin ratios -/

/-- What a position gains for each unit of its size. -/
def priceGain (entryPrice markPrice : Decimal128) : PositionSide → Decimal128
  | .long | .both => markPrice - entryPrice
  | .short => entryPrice - markPrice

def calcUnrealizedPnl? (entryPrice markPrice size : Decimal128) (side : PositionSide) :
    Option Decimal128 :=
  match side with
  | .long | .both => do
      let gain ← markPrice.sub? entryPrice
      gain.mul? size
  | .short => do
      let gain ← entryPrice.sub? markPrice
      gain.mul? size

theorem computes_unrealizedPnl {entryPrice markPrice size : Decimal128} {side : PositionSide}
    (inRange : size.InRange) :
    Computes (calcUnrealizedPnl? entryPrice markPrice size side)
      ((priceGain entryPrice markPrice side).InRange ∧
        (calcUnrealizedPnl entryPrice markPrice size side).InRange)
      (calcUnrealizedPnl entryPrice markPrice size side) := by
  cases side with
  | long => exact (computes_sub markPrice entryPrice).bind fun gain => computes_mul gain inRange
  | short => exact (computes_sub entryPrice markPrice).bind fun gain => computes_mul gain inRange
  | both => exact (computes_sub markPrice entryPrice).bind fun gain => computes_mul gain inRange

def maintenanceMargin? (tiers : List MarginTier) (p : Position) : Option Decimal128 := do
  let notional ← p.size.mul? p.entryPrice
  calcMaintenanceMargin? notional tiers

def calcMarginRatio? (positions : List Position) (walletBalance : Decimal128)
    (tiers : List MarginTier) : Option Decimal128 := do
  let totalUnrealizedPnl ← sum? (positions.map Position.unrealizedPnl)
  let equity ← walletBalance.add? totalUnrealizedPnl
  if equity.isPositive then do
    let margins ← positions.mapM (maintenanceMargin? tiers)
    let totalMaintenanceMargin ← sum? margins
    totalMaintenanceMargin.div? equity
  else some maxValue

/-- The margins and their partial sums are in range, and the total is not so large against the
equity that the quotient is not. -/
structure RatioFits (positions : List Position) (walletBalance : Decimal128)
    (tiers : List MarginTier) : Prop where
  margins : ∀ p ∈ positions, (maintenanceMargin tiers p).InRange
  sums : ∀ part, part <+: positions.map (maintenanceMargin tiers) → part.sum.InRange
  below : (totalMaintenanceMargin positions tiers).raw * scale <
    2 ^ 127 * (equity positions walletBalance).raw
  above : -((2 ^ 127 + 1) * (equity positions walletBalance).raw) <
    (totalMaintenanceMargin positions tiers).raw * scale

section Quotient

variable {dividend divisor : Int} (bound : Int)

theorem le_tdiv_iff_of_nonneg (positive : 0 < divisor) (nonneg : 0 ≤ dividend) :
    bound ≤ dividend.tdiv divisor ↔ bound * divisor ≤ dividend := by
  rw [Int.tdiv_eq_ediv_of_nonneg nonneg]
  exact Int.le_ediv_iff_mul_le positive

/-- A negative quotient is rounded up. -/
theorem le_tdiv_iff_of_neg (positive : 0 < divisor) (negative : dividend < 0) :
    bound ≤ dividend.tdiv divisor ↔ (bound - 1) * divisor < dividend := by
  have opposite : dividend.tdiv divisor = -(-dividend / divisor) := by
    rw [← Int.tdiv_eq_ediv_of_nonneg (neg_nonneg.2 negative.le), Int.neg_tdiv, neg_neg]
  have quotient := Int.ediv_lt_iff_lt_mul (a := -dividend) (b := 1 - bound) positive
  have product : (1 - bound) * divisor = -((bound - 1) * divisor) := by ring
  rw [product] at quotient
  rw [opposite]
  constructor
  · intro atLeast
    have small := quotient.1 (by omega)
    omega
  · intro above
    have small := quotient.2 (by omega)
    omega

/-- A quotient is in range if the dividend is not too large against the divisor. -/
theorem inRange_quotient_iff {total worth : Decimal128} (positive : 0 < worth) :
    (total / worth).InRange ↔
      total.raw * scale < 2 ^ 127 * worth.raw ∧
        -((2 ^ 127 + 1) * worth.raw) < total.raw * scale := by
  have divisor : 0 < worth.raw := positive
  have quotient : (total / worth).raw = (total.raw * scale).tdiv worth.raw := rfl
  rw [InRange, I128.fits_iff, quotient]
  generalize total.raw * scale = dividend
  rw [← not_le]
  rcases lt_or_ge dividend 0 with negative | nonneg
  · rw [le_tdiv_iff_of_neg _ divisor negative, le_tdiv_iff_of_neg _ divisor negative]
    omega
  · rw [le_tdiv_iff_of_nonneg _ divisor nonneg, le_tdiv_iff_of_nonneg _ divisor nonneg]
    omega

end Quotient

/-! ## The margin ratio -/

/-- The values of a position are decimals, and so is its notional at entry. -/
structure PositionInRange (p : Position) : Prop where
  size : p.size.InRange
  entryPrice : p.entryPrice.InRange
  notional : (p.size * p.entryPrice).InRange

section Ratio

variable {positions : List Position} {p : Position} {walletBalance : Decimal128}
  {tiers : List MarginTier}

private theorem computes_positionMargin (inRange : PositionInRange p) (rates : ∀ tier ∈ tiers,
      0 ≤ tier.maintenanceMarginRate ∧ tier.maintenanceMarginRate ≤ one) :
    Computes (maintenanceMargin? tiers p) (maintenanceMargin tiers p).InRange
      (maintenanceMargin tiers p) := by
  have oneInRange : one.InRange := by decide
  have ratesInRange : ∀ tier ∈ tiers, tier.maintenanceMarginRate.InRange := fun tier member =>
    oneInRange.of_le (rates tier member).1 (rates tier member).2
  have notional := computes_mul inRange.size inRange.entryPrice
  refine (notional.bind fun within => computes_maintenanceMargin within ratesInRange).congr ?_
  rw [and_iff_right inRange.notional]
  exact maintenanceFits_iff inRange.notional rates

private theorem computes_sumOf (values : List Decimal128) :
    Computes (sum? values) (∀ part, part <+: values → part.sum.InRange) values.sum := by
  have sums : Computes (sum? values) _ _ := computes_partialSums inRange_zero
  simp only [zero_add] at sums
  exact sums

/-- The ratio is computed unless the margins of a user with positive equity do not fit. -/
theorem computes_marginRatio (inRange : ∀ p ∈ positions, PositionInRange p)
    (pnlSums : ∀ part, part <+: positions.map Position.unrealizedPnl → part.sum.InRange)
    (equityInRange : (equity positions walletBalance).InRange) (rates : ∀ tier ∈ tiers,
      0 ≤ tier.maintenanceMarginRate ∧ tier.maintenanceMarginRate ≤ one) :
    Computes (calcMarginRatio? positions walletBalance tiers)
      (0 < equity positions walletBalance → RatioFits positions walletBalance tiers)
      (calcMarginRatio positions walletBalance tiers) := by
  have pnl := (computes_sumOf _).eq_some pnlSums
  have worth := (computes_add walletBalance _).eq_some equityInRange
  have margins := Computes.mapM fun p member => computes_positionMargin (inRange p member) rates
  have ratio : calcMarginRatio? positions walletBalance tiers =
      if (equity positions walletBalance).isPositive then do
        let margins ← positions.mapM (maintenanceMargin? tiers)
        let totalMaintenanceMargin ← sum? margins
        totalMaintenanceMargin.div? (equity positions walletBalance)
      else some maxValue := by
    rw [calcMarginRatio?, pnl, Option.bind_eq_bind, Option.bind_some, worth, Option.bind_eq_bind,
      Option.bind_some]
    rfl
  rw [ratio, calcMarginRatio]
  by_cases positive : 0 < equity positions walletBalance
  · rw [if_pos (isPositive_iff.2 positive), if_pos (isPositive_iff.2 positive)]
    have quotient := fun total : (totalMaintenanceMargin positions tiers).InRange =>
      computes_div total equityInRange
    refine (margins.bind fun _ => (computes_sumOf _).bind fun sums =>
      quotient (sums _ (List.prefix_refl _))).congr ?_
    have nonzero : (equity positions walletBalance).raw ≠ 0 := (lt_iff_raw.1 positive).ne'
    rw [and_iff_right nonzero]
    constructor
    · rintro ⟨each, sums, quotient⟩ _
      obtain ⟨below, above⟩ := (inRange_quotient_iff positive).1 quotient
      exact ⟨each, sums, below, above⟩
    · intro fits
      have found := fits positive
      exact ⟨found.margins, found.sums,
        (inRange_quotient_iff positive).2 ⟨found.below, found.above⟩⟩
  · rw [if_neg fun isPositive => positive (isPositive_iff.1 isPositive),
      if_neg fun isPositive => positive (isPositive_iff.1 isPositive)]
    exact (Computes.pure maxValue).congr (iff_of_true trivial fun found => absurd found positive)

end Ratio

end Exg
