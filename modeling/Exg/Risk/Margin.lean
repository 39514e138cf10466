import Exg.Clearing.Service

/-!
# Margins

The risk engine's formulas for the margins of a position and for the price at which it is
liquidated.  The profit formula is the one that clearing uses.
-/

namespace Exg

structure MarginTier where
  notionalFloor : Decimal128
  notionalCap : Decimal128
  maintenanceMarginRate : Decimal128
  /-- Cumulative adjustment, so that the maintenance margin is the notional times the rate
  minus this amount. -/
  maintenanceAmount : Decimal128
  deriving DecidableEq, Repr

namespace MarginTier

/-- Whether a notional lies in the tier. -/
def Covers (tier : MarginTier) (notional : Decimal128) : Prop :=
  tier.notionalFloor ≤ notional ∧ notional < tier.notionalCap

instance (tier : MarginTier) (notional : Decimal128) : Decidable (tier.Covers notional) :=
  inferInstanceAs (Decidable (_ ∧ _))

/-- What a tier asks for a notional. -/
def margin (tier : MarginTier) (notional : Decimal128) : Decimal128 :=
  notional * tier.maintenanceMarginRate - tier.maintenanceAmount

end MarginTier

def calcInitialMargin (notional leverage : Decimal128) : Decimal128 := notional / leverage

/-- The tier whose formula is used: the first that covers the notional, else the last one if
the notional is not below it. -/
def chooseTier (notional : Decimal128) (tiers : List MarginTier) : Option MarginTier :=
  match tiers.find? fun tier => tier.Covers notional with
  | some tier => some tier
  | none => tiers.getLast?.filter fun tier => tier.notionalFloor ≤ notional

/-- Maintenance margin by a schedule of tiers. -/
def calcMaintenanceMargin (notional : Decimal128) (tiers : List MarginTier) : Decimal128 :=
  match chooseTier notional tiers with
  | some tier => tier.margin notional
  | none => 0

/-- The maintenance margin of a position, by its notional at entry. -/
def maintenanceMargin (tiers : List MarginTier) (p : Position) : Decimal128 :=
  calcMaintenanceMargin (p.size * p.entryPrice) tiers

def totalMaintenanceMargin (positions : List Position) (tiers : List MarginTier) : Decimal128 :=
  (positions.map (maintenanceMargin tiers)).sum

def equity (positions : List Position) (walletBalance : Decimal128) : Decimal128 :=
  walletBalance + (positions.map Position.unrealizedPnl).sum

/-- Margin ratio: the largest decimal if equity is zero or negative. -/
def calcMarginRatio (positions : List Position) (walletBalance : Decimal128)
    (tiers : List MarginTier) : Decimal128 :=
  if (equity positions walletBalance).isPositive then
    totalMaintenanceMargin positions tiers / equity positions walletBalance
  else Decimal128.maxValue

/-- Liquidation price calculation. -/
def calcLiquidationPrice (entryPrice leverage mmr : Decimal128) (side : PositionSide)
    (size accumulatedFunding : Decimal128) : Decimal128 :=
  let invLeverage := Decimal128.one / leverage
  let fundingPerUnit := accumulatedFunding / size
  match side with
  | .long => entryPrice * (Decimal128.one - invLeverage + mmr) - fundingPerUnit
  | .short => entryPrice * (Decimal128.one + invLeverage - mmr) + fundingPerUnit
  | .both => entryPrice * (Decimal128.one - invLeverage + mmr) - fundingPerUnit

end Exg
