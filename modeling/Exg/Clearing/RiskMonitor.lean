import Exg.Risk.CheckedMargin
import Exg.Support.Grouping

/-!
# The risk monitor

A scan marks the positions, groups them by user and requests liquidations where a user's margin
ratio reaches a threshold.  It follows the user's equity and maintenance margin exactly, unless
a number on the way leaves the range of decimals.  The ratio does so when a user's equity is
positive and small enough against the margin, and then the scan ends for all users.
-/

namespace Exg

open Support Decimal128

/-- A request to liquidate a user's position. -/
structure LiquidationRequest where
  userId : UserId
  symbol : SymbolId
  side : Side
  quantity : Decimal128
  deriving DecidableEq, Repr

/-- Result of a risk scan containing actions to take. -/
structure RiskMonitorResult where
  cancelAllUsers : List (UserId × SymbolId)
  liquidationOrders : List LiquidationRequest
  deriving DecidableEq, Repr

/-- The actions for one user after the other. -/
def RiskMonitorResult.combined (results : List RiskMonitorResult) : RiskMonitorResult where
  cancelAllUsers := results.flatMap cancelAllUsers
  liquidationOrders := results.flatMap liquidationOrders

structure RiskMonitor where
  marginCallThreshold : Decimal128
  liquidationThreshold : Decimal128

/-- The arguments of a scan. -/
structure ScanInputs where
  positions : List Position
  walletBalances : List (UserId × Decimal128)
  markPrices : List (SymbolId × Decimal128)
  tiers : List MarginTier

/-- The order in which the map of users is visited. -/
structure UserOrder where
  visit : List (UserId × List Position) → List (UserId × List Position)
  perm : ∀ groups, (visit groups).Perm groups

namespace UserOrder

def stored : UserOrder := ⟨id, fun groups => List.Perm.refl groups⟩

/-- The positions grouped by user, as they are visited. -/
def userPositions (order : UserOrder) (positions : List Position) :
    List (UserId × List Position) :=
  order.visit (groupBy compare Position.userId positions).toList

end UserOrder

namespace ScanInputs

variable (inputs : ScanInputs)

def priceMap : Std.ExtTreeMap SymbolId Decimal128 := collectMap compare inputs.markPrices

def walletBalance (user : UserId) : Decimal128 :=
  (collectMap compare inputs.walletBalances).getD user 0

end ScanInputs

namespace Position

def closingSide (p : Position) : Side :=
  match p.side with
  | .long | .both => .sell
  | .short => .buy

def liquidation (userId : UserId) (p : Position) : LiquidationRequest where
  userId := userId
  symbol := p.symbol
  side := p.closingSide
  quantity := p.size

/-- A position with the profit at the mark price of its symbol, if there is one. -/
def marked (priceMap : Std.ExtTreeMap SymbolId Decimal128) (p : Position) : Position :=
  match priceMap[p.symbol]? with
  | some mark => { p with unrealizedPnl := calcUnrealizedPnl p.entryPrice mark p.size p.side }
  | none => p

def marked? (priceMap : Std.ExtTreeMap SymbolId Decimal128) (p : Position) : Option Position :=
  match priceMap[p.symbol]? with
  | some mark => do
      let unrealizedPnl ← calcUnrealizedPnl? p.entryPrice mark p.size p.side
      some { p with unrealizedPnl }
  | none => some p

end Position

namespace RiskMonitor

variable (monitor : RiskMonitor)

/-- What is requested for a user with a margin ratio. -/
def requests (ratio : Decimal128) (user : UserId × List Position) : RiskMonitorResult :=
  if monitor.liquidationThreshold ≤ ratio then
    { cancelAllUsers := user.2.map fun p => (user.1, p.symbol)
      liquidationOrders := user.2.map (Position.liquidation user.1) }
  else if monitor.marginCallThreshold ≤ ratio then
    { cancelAllUsers := user.2.map fun p => (user.1, p.symbol)
      liquidationOrders := [] }
  else { cancelAllUsers := [], liquidationOrders := [] }

def scanUser? (inputs : ScanInputs) (user : UserId × List Position) :
    Option RiskMonitorResult := do
  let ratio ← calcMarginRatio? user.2 (inputs.walletBalance user.1) inputs.tiers
  some (monitor.requests ratio user)

/-- Scan all positions against current mark prices and account balances. -/
def scanPositions? (order : UserOrder) (inputs : ScanInputs) : Option RiskMonitorResult := do
  let positions ← inputs.positions.mapM (Position.marked? inputs.priceMap)
  let results ← (order.userPositions positions).mapM (monitor.scanUser? inputs)
  some (RiskMonitorResult.combined results)

end RiskMonitor

/-! ## The scan without panics, and its users -/

namespace ScanInputs

variable (inputs : ScanInputs)

def markedPositions : List Position := inputs.positions.map (Position.marked inputs.priceMap)

/-- The marked positions of a user. -/
def positionsOf (user : UserId) : List Position :=
  itemsOf Position.userId inputs.markedPositions user

def userEquity (user : UserId) : Decimal128 :=
  equity (inputs.positionsOf user) (inputs.walletBalance user)

def userMaintenance (user : UserId) : Decimal128 :=
  totalMaintenanceMargin (inputs.positionsOf user) inputs.tiers

def userRatio (user : UserId) : Decimal128 :=
  calcMarginRatio (inputs.positionsOf user) (inputs.walletBalance user) inputs.tiers

/-- The requests that close every position of a user. -/
def closingOrders (user : UserId) : List LiquidationRequest :=
  (itemsOf Position.userId inputs.positions user).map (Position.liquidation user)

/-- Positions of at most 10^12, at most 1000 for each user, and balances of at most 10^15. -/
structure WithinLimits : Prop where
  decimals : ∀ p ∈ inputs.positions, p.size.InRange ∧ p.entryPrice.InRange
  notional : ∀ p ∈ inputs.positions, |p.size * p.entryPrice| ≤ ofInt (10 ^ 12)
  pnl : ∀ p ∈ inputs.positions, |(p.marked inputs.priceMap).unrealizedPnl| ≤ ofInt (10 ^ 12)
  few : ∀ user, (itemsOf Position.userId inputs.positions user).length ≤ 1000
  balances : ∀ entry ∈ inputs.walletBalances, |entry.2| ≤ ofInt (10 ^ 15)
  rates : ∀ tier ∈ inputs.tiers,
    0 ≤ tier.maintenanceMarginRate ∧ tier.maintenanceMarginRate ≤ one

end ScanInputs

namespace RiskMonitor

def scanUser (monitor : RiskMonitor) (inputs : ScanInputs) (user : UserId × List Position) :
    RiskMonitorResult :=
  monitor.requests (calcMarginRatio user.2 (inputs.walletBalance user.1) inputs.tiers) user

/-- What the scan requests if nothing leaves the range of decimals. -/
def scanPositions (monitor : RiskMonitor) (order : UserOrder) (inputs : ScanInputs) :
    RiskMonitorResult :=
  RiskMonitorResult.combined
    ((order.userPositions inputs.markedPositions).map (monitor.scanUser inputs))

end RiskMonitor

namespace Position

variable {priceMap : Std.ExtTreeMap SymbolId Decimal128} {p : Position}

/-- Marking changes nothing but the profit. -/
theorem marked_eq (p : Position) :
    p.marked priceMap = { p with unrealizedPnl := (p.marked priceMap).unrealizedPnl } := by
  unfold marked
  split
  · rfl
  · rfl

@[simp]
theorem userId_marked (p : Position) : (p.marked priceMap).userId = p.userId := by
  rw [marked_eq]

@[simp]
theorem size_marked (p : Position) : (p.marked priceMap).size = p.size := by
  rw [marked_eq]

@[simp]
theorem entryPrice_marked (p : Position) : (p.marked priceMap).entryPrice = p.entryPrice := by
  rw [marked_eq]

@[simp]
theorem liquidation_marked (user : UserId) (p : Position) :
    (p.marked priceMap).liquidation user = p.liquidation user := by
  rw [marked_eq]
  rfl

/-- A position is marked if the difference to its mark price is in range. -/
theorem computes_marked (size : p.size.InRange) (pnl : (p.marked priceMap).unrealizedPnl.InRange) :
    Computes (p.marked? priceMap)
      (∀ mark, priceMap[p.symbol]? = some mark → (priceGain p.entryPrice mark p.side).InRange)
      (p.marked priceMap) := by
  unfold marked? marked at *
  cases found : priceMap[p.symbol]? with
  | none => exact (Computes.pure p).congr (by simp)
  | some mark =>
      simp only [found] at pnl
      refine ((computes_unrealizedPnl size).bind_some fun unrealizedPnl =>
        { p with unrealizedPnl }).congr ?_
      rw [and_iff_left pnl]
      simp

end Position

/-! ## What the limits are for -/

namespace Decimal128

private theorem inRange_of_abs_le {value bound : Decimal128} (boundInRange : bound.InRange)
    (atMost : |value| ≤ bound) : value.InRange := by
  obtain ⟨lower, upper⟩ := abs_le.1 atMost
  have highest := (I128.fits_iff.1 boundInRange).2
  rw [le_iff_raw, raw_neg] at lower
  rw [le_iff_raw] at upper
  exact I128.fits_iff.2 (by omega)

/-- A sum of so many values of limited size. -/
theorem abs_sum_le {values : List Decimal128} {bound : Decimal128}
    (each : ∀ value ∈ values, |value| ≤ bound) : |values.sum| ≤ values.length • bound := by
  have upper := List.sum_le_card_nsmul values bound fun value member =>
    (abs_le.1 (each value member)).2
  have lower := List.card_nsmul_le_sum values (-bound) fun value member =>
    (abs_le.1 (each value member)).1
  rw [neg_nsmul] at lower
  exact abs_le.2 ⟨lower, upper⟩

end Decimal128

namespace ScanInputs

variable {inputs : ScanInputs} {user : UserId}

private theorem positionsOf_eq (inputs : ScanInputs) (user : UserId) :
    inputs.positionsOf user =
      (itemsOf Position.userId inputs.positions user).map (Position.marked inputs.priceMap) := by
  rw [positionsOf, markedPositions, itemsOf, itemsOf, List.filter_map]
  congr 1
  apply List.filter_congr
  intro p _
  simp

private theorem mem_positionsOf {p : Position} (member : p ∈ inputs.positionsOf user) :
    ∃ stored ∈ inputs.positions, stored.marked inputs.priceMap = p := by
  rw [positionsOf_eq] at member
  obtain ⟨stored, inUser, rfl⟩ := List.mem_map.1 member
  exact ⟨stored, (List.mem_filter.1 inUser).1, rfl⟩

private theorem WithinLimits.positionInRange (limits : inputs.WithinLimits) {p : Position}
    (member : p ∈ inputs.positionsOf user) : PositionInRange p := by
  obtain ⟨stored, inPositions, rfl⟩ := mem_positionsOf member
  obtain ⟨size, entryPrice⟩ := limits.decimals stored inPositions
  constructor
  · rwa [Position.size_marked]
  · rwa [Position.entryPrice_marked]
  · rw [Position.size_marked, Position.entryPrice_marked]
    exact inRange_of_abs_le (by decide) (limits.notional stored inPositions)

/-- The profits of a user's positions add up to at most 10^15, on the way as well. -/
theorem WithinLimits.pnlSums (limits : inputs.WithinLimits) {part : List Decimal128}
    (isPrefix : part <+: (inputs.positionsOf user).map Position.unrealizedPnl) :
    |part.sum| ≤ ofInt (10 ^ 15) := by
  have each : ∀ value ∈ part, |value| ≤ ofInt (10 ^ 12) := by
    intro value member
    obtain ⟨p, inUser, rfl⟩ := List.mem_map.1 (isPrefix.subset member)
    obtain ⟨stored, inPositions, rfl⟩ := mem_positionsOf inUser
    exact limits.pnl stored inPositions
  have few : part.length ≤ 1000 := by
    have shorter := isPrefix.length_le
    rw [List.length_map, positionsOf_eq, List.length_map] at shorter
    exact shorter.trans (limits.few user)
  have nonneg : (0 : Decimal128) ≤ ofInt (10 ^ 12) := by decide
  have thousand : 1000 • ofInt (10 ^ 12) = ofInt (10 ^ 15) := by decide
  calc |part.sum| ≤ part.length • ofInt (10 ^ 12) := abs_sum_le each
    _ ≤ 1000 • ofInt (10 ^ 12) := nsmul_le_nsmul_left nonneg few
    _ = ofInt (10 ^ 15) := thousand

private theorem WithinLimits.walletBalance_le (limits : inputs.WithinLimits) (user : UserId) :
    |inputs.walletBalance user| ≤ ofInt (10 ^ 15) := by
  rw [walletBalance, Std.ExtTreeMap.getD_eq_getD_getElem?]
  cases found : (collectMap compare inputs.walletBalances)[user]? with
  | none => decide
  | some balance => exact limits.balances _ (mem_of_collectMap found)

theorem WithinLimits.equityInRange (limits : inputs.WithinLimits) (user : UserId) :
    (equity (inputs.positionsOf user) (inputs.walletBalance user)).InRange := by
  have pnl : |((inputs.positionsOf user).map Position.unrealizedPnl).sum| ≤ ofInt (10 ^ 15) :=
    limits.pnlSums (List.prefix_refl _)
  have total := (abs_add_le (inputs.walletBalance user) _).trans
    (add_le_add (limits.walletBalance_le user) pnl)
  exact inRange_of_abs_le (by decide) total

end ScanInputs

/-! ## The scan -/

namespace RiskMonitor

variable {monitor : RiskMonitor} {order : UserOrder} {inputs : ScanInputs}

/-- The differences to the mark prices are in range, and so is all that leads to the ratio of a
user with positive equity. -/
structure ScanFits (inputs : ScanInputs) : Prop where
  marks : ∀ p ∈ inputs.positions, ∀ mark, inputs.priceMap[p.symbol]? = some mark →
    (priceGain p.entryPrice mark p.side).InRange
  ratios : ∀ user ∈ inputs.positions.map Position.userId, 0 < inputs.userEquity user →
    RatioFits (inputs.positionsOf user) (inputs.walletBalance user) inputs.tiers

private theorem mem_userPositions {group : UserId × List Position} :
    group ∈ order.userPositions inputs.markedPositions ↔
      group.2 = inputs.positionsOf group.1 ∧ inputs.positionsOf group.1 ≠ [] := by
  rw [UserOrder.userPositions, (order.perm _).mem_iff, mem_groups_iff]
  rfl

private theorem mem_users_iff {user : UserId} :
    user ∈ inputs.positions.map Position.userId ↔ inputs.positionsOf user ≠ [] := by
  rw [ScanInputs.positionsOf_eq, ne_eq, List.map_eq_nil_iff, itemsOf, List.filter_eq_nil_iff]
  simp

private theorem closingOrders_eq_nil {user : UserId}
    (absent : user ∉ inputs.positions.map Position.userId) : inputs.closingOrders user = [] := by
  have none : itemsOf Position.userId inputs.positions user = [] := by
    rw [mem_users_iff, not_not, ScanInputs.positionsOf_eq] at absent
    exact List.map_eq_nil_iff.1 absent
  rw [ScanInputs.closingOrders, none, List.map_nil]

private theorem closingOrders_ne_nil {user : UserId}
    (found : user ∈ inputs.positions.map Position.userId) : inputs.closingOrders user ≠ [] := by
  intro none
  have empty : itemsOf Position.userId inputs.positions user = [] := List.map_eq_nil_iff.1 none
  rw [mem_users_iff, ScanInputs.positionsOf_eq, empty] at found
  exact found rfl

private theorem computes_scanUser (limits : inputs.WithinLimits) (user : UserId) :
    Computes (monitor.scanUser? inputs (user, inputs.positionsOf user))
      (0 < inputs.userEquity user →
        RatioFits (inputs.positionsOf user) (inputs.walletBalance user) inputs.tiers)
      (monitor.scanUser inputs (user, inputs.positionsOf user)) := by
  have pnlSums : ∀ part, part <+: (inputs.positionsOf user).map Position.unrealizedPnl →
      part.sum.InRange := fun part isPrefix =>
    inRange_of_abs_le (by decide) (limits.pnlSums isPrefix)
  have ratio := computes_marginRatio (fun p member => limits.positionInRange member) pnlSums
    (limits.equityInRange user) limits.rates
  exact ratio.bind_some fun ratio => monitor.requests ratio (user, inputs.positionsOf user)

/-- The scan has a result exactly where nothing leaves the range of decimals. -/
theorem computes_scan (limits : inputs.WithinLimits) :
    Computes (monitor.scanPositions? order inputs) (ScanFits inputs)
      (monitor.scanPositions order inputs) := by
  have marks := Computes.mapM fun p member => Position.computes_marked (limits.decimals p member).1
    (inRange_of_abs_le (by decide) (limits.pnl p member))
  have each : ∀ group ∈ order.userPositions inputs.markedPositions,
      Computes (monitor.scanUser? inputs group)
        (0 < inputs.userEquity group.1 → RatioFits (inputs.positionsOf group.1)
          (inputs.walletBalance group.1) inputs.tiers)
        (monitor.scanUser inputs group) := by
    intro group member
    obtain ⟨user, positions⟩ := group
    obtain rfl : positions = inputs.positionsOf user := (mem_userPositions.1 member).1
    exact computes_scanUser limits user
  refine (marks.bind fun _ =>
    (Computes.mapM each).bind_some RiskMonitorResult.combined).congr ?_
  constructor
  · rintro ⟨marksFit, ratiosFit⟩
    refine ⟨marksFit, fun user found => ?_⟩
    exact ratiosFit (user, inputs.positionsOf user)
      (mem_userPositions.2 ⟨rfl, mem_users_iff.1 found⟩)
  · intro fits
    refine ⟨fits.marks, fun group member => ?_⟩
    exact fits.ratios group.1 (mem_users_iff.2 (mem_userPositions.1 member).2)

/-- What the scan requests for one user. -/
theorem liquidations_scan (monitor : RiskMonitor) (order : UserOrder) (inputs : ScanInputs)
    (user : UserId) :
    itemsOf LiquidationRequest.userId (monitor.scanPositions order inputs).liquidationOrders user =
      if monitor.liquidationThreshold ≤ inputs.userRatio user then inputs.closingOrders user
      else [] := by
  have requested : ∀ group : UserId × List Position,
      (monitor.scanUser inputs group).liquidationOrders =
        if monitor.liquidationThreshold ≤
            calcMarginRatio group.2 (inputs.walletBalance group.1) inputs.tiers then
          group.2.map (Position.liquidation group.1)
        else [] := by
    intro group
    rw [scanUser, requests]
    split
    · rfl
    · split
      · rfl
      · rfl
  have liquidations : (monitor.scanPositions order inputs).liquidationOrders =
      (order.userPositions inputs.markedPositions).flatMap fun group =>
        (monitor.scanUser inputs group).liquidationOrders := List.flatMap_map _ _ _
  have closing : (inputs.positionsOf user).map (Position.liquidation user) =
      inputs.closingOrders user := by
    rw [ScanInputs.positionsOf_eq, List.map_map]
    exact List.map_congr_left fun p _ => Position.liquidation_marked user p
  rw [liquidations, UserOrder.userPositions, itemsOf_groups (order.perm _), requested, ← closing]
  · rfl
  · intro group out member
    rw [requested] at member
    split at member
    · obtain ⟨p, -, rfl⟩ := List.mem_map.1 member
      rfl
    · cases member
  · intro wanted
    rw [requested]
    split
    · rfl
    · rfl

/-! ## Where the scan is exact -/

/-- The equity is not positive, or the maintenance margin reaches the threshold times the
equity. -/
def AtRisk (monitor : RiskMonitor) (inputs : ScanInputs) (user : UserId) : Prop :=
  inputs.userEquity user ≤ 0 ∨
    monitor.liquidationThreshold.toRat * (inputs.userEquity user).toRat ≤
      (inputs.userMaintenance user).toRat

/-- The scan requests the liquidation of all positions of the users at risk, and of no others. -/
structure LiquidatesExactly (monitor : RiskMonitor) (inputs : ScanInputs)
    (result : RiskMonitorResult) : Prop where
  atRisk : ∀ user, monitor.AtRisk inputs user →
    itemsOf LiquidationRequest.userId result.liquidationOrders user = inputs.closingOrders user
  spared : ∀ user, ¬monitor.AtRisk inputs user →
    itemsOf LiquidationRequest.userId result.liquidationOrders user = []

/-- A negative margin lies below the threshold by less than the ratio is rounded. -/
def RoundedUp (threshold total worth : Decimal128) : Prop :=
  total < 0 ∧ (threshold.raw - 1) * worth.raw < total.raw * scale ∧
    total.raw * scale < threshold.raw * worth.raw

private theorem scaled_le_iff (threshold total worth : Decimal128) :
    threshold.toRat * worth.toRat ≤ total.toRat ↔
      threshold.raw * worth.raw ≤ total.raw * scale := by
  have unit : (scale : ℚ) = 10 ^ 18 := by norm_num [scale]
  rw [toRat, toRat, toRat, div_mul_div_comm, div_le_div_iff₀ (by norm_num) (by norm_num),
    ← mul_assoc, mul_le_mul_iff_of_pos_right (by norm_num), ← unit]
  exact_mod_cast Iff.rfl

/-- The truncated ratio reaches the threshold where the exact one does, unless it is rounded up
to it. -/
theorem exact_iff {threshold total worth : Decimal128} (positive : 0 < worth) :
    (threshold ≤ total / worth ↔ threshold.toRat * worth.toRat ≤ total.toRat) ↔
      ¬RoundedUp threshold total worth := by
  have divisor : 0 < worth.raw := positive
  have quotient : threshold ≤ total / worth ↔
      threshold.raw ≤ (total.raw * scale).tdiv worth.raw := Iff.rfl
  rw [scaled_le_iff, quotient, RoundedUp]
  rcases lt_or_ge total 0 with negative | nonneg
  · have below : total.raw * scale < 0 := Int.mul_neg_of_neg_of_pos negative (by decide)
    rw [le_tdiv_iff_of_neg _ divisor below, and_iff_right negative, sub_mul, one_mul]
    generalize threshold.raw * worth.raw = product
    omega
  · rw [le_tdiv_iff_of_nonneg _ divisor (Int.mul_nonneg nonneg (by decide))]
    exact iff_of_true Iff.rfl fun rounded => nonneg.not_gt rounded.1

/-- Without positive equity the ratio is the largest decimal, and reaches every threshold. -/
theorem ratio_reaches_of_nonpos {user : UserId} (inRange : monitor.liquidationThreshold.InRange)
    (nonpos : inputs.userEquity user ≤ 0) :
    monitor.liquidationThreshold ≤ inputs.userRatio user := by
  have ratio : inputs.userRatio user = maxValue := by
    rw [ScanInputs.userRatio, calcMarginRatio]
    exact if_neg fun positive => nonpos.not_gt (isPositive_iff.1 positive)
  rw [ratio]
  exact le_iff_raw.2 inRange.2

private theorem ratio_of_pos {user : UserId} (positive : 0 < inputs.userEquity user) :
    inputs.userRatio user = inputs.userMaintenance user / inputs.userEquity user := by
  rw [ScanInputs.userRatio, calcMarginRatio]
  exact if_pos (isPositive_iff.2 positive)

/-- The ratio reaches the threshold exactly for the users at risk, unless it is rounded up. -/
theorem reaches_iff_atRisk {user : UserId} (inRange : monitor.liquidationThreshold.InRange) :
    (monitor.liquidationThreshold ≤ inputs.userRatio user ↔ monitor.AtRisk inputs user) ↔
      (0 < inputs.userEquity user → ¬RoundedUp monitor.liquidationThreshold
        (inputs.userMaintenance user) (inputs.userEquity user)) := by
  by_cases positive : 0 < inputs.userEquity user
  · have solvent : ¬inputs.userEquity user ≤ 0 := not_le.2 positive
    rw [ratio_of_pos positive, AtRisk, or_iff_right solvent, exact_iff positive]
    exact ⟨fun exactly _ => exactly, fun exactly => exactly positive⟩
  · have nonpos := not_lt.1 positive
    exact iff_of_true (iff_of_true (ratio_reaches_of_nonpos inRange nonpos) (Or.inl nonpos))
      fun found => absurd found positive

/-- The scan does not panic and is exact if and only if nothing leaves the range of decimals and no
negative ratio is rounded up to the threshold. -/
theorem risk_scan_iff (order : UserOrder) (limits : inputs.WithinLimits)
    (inRange : monitor.liquidationThreshold.InRange) :
    (∃ result, monitor.scanPositions? order inputs = some result ∧
        LiquidatesExactly monitor inputs result) ↔
      ScanFits inputs ∧
        ∀ user ∈ inputs.positions.map Position.userId, 0 < inputs.userEquity user →
          ¬RoundedUp monitor.liquidationThreshold (inputs.userMaintenance user)
            (inputs.userEquity user) := by
  have computes : Computes (monitor.scanPositions? order inputs) _ _ := computes_scan limits
  have requested := liquidations_scan monitor order inputs
  constructor
  · rintro ⟨result, scanned, exactly⟩
    obtain ⟨fits, rfl⟩ := (computes result).1 scanned
    refine ⟨fits, fun user found => (reaches_iff_atRisk inRange).1 ?_⟩
    have someOrder := closingOrders_ne_nil found
    constructor
    · intro reaches
      by_contra spared
      have orders := exactly.spared user spared
      rw [requested, if_pos reaches] at orders
      exact someOrder orders
    · intro risk
      by_contra below
      have orders := exactly.atRisk user risk
      rw [requested, if_neg below] at orders
      exact someOrder orders.symm
  · rintro ⟨fits, unrounded⟩
    refine ⟨_, computes.eq_some fits, fun user risk => ?_, fun user spared => ?_⟩
    · rw [requested]
      by_cases found : user ∈ inputs.positions.map Position.userId
      · exact if_pos (((reaches_iff_atRisk inRange).2 (unrounded user found)).2 risk)
      · rw [closingOrders_eq_nil found, ite_self]
    · rw [requested]
      by_cases found : user ∈ inputs.positions.map Position.userId
      · exact if_neg fun reaches =>
          spared (((reaches_iff_atRisk inRange).2 (unrounded user found)).1 reaches)
      · rw [closingOrders_eq_nil found, ite_self]

/-! ## A tiny equity -/

/-- One long position of size one, at an entry price and a mark price. -/
def onePosition (entryPrice markPrice walletBalance : Decimal128) : ScanInputs where
  positions := [{
    userId := 1
    symbol := 1
    side := .long
    size := one
    entryPrice := entryPrice
    leverage := ofInt 10
    margin := 0
    unrealizedPnl := 0
    accumulatedFunding := 0
    marginMode := .cross }]
  walletBalances := [(1, walletBalance)]
  markPrices := [(1, markPrice)]
  tiers := [⟨0, ofInt 100000000, ⟨4000000000000000⟩, 0⟩]

def plainMonitor : RiskMonitor where
  marginCallThreshold := ⟨800000000000000000⟩
  liquidationThreshold := one

/-- An equity of one unit of the last place, against a margin of 4000. -/
def tinyEquity : ScanInputs := onePosition (ofInt 1000000) (ofInt 1000000) ⟨1⟩

/-- An equity of 100, against a margin of 200. -/
def thinEquity : ScanInputs := onePosition (ofInt 50000) (ofInt 40000) (ofInt 10100)

theorem scan_panics :
    tinyEquity.WithinLimits ∧
      plainMonitor.scanPositions? UserOrder.stored tinyEquity = none := by
  refine ⟨?_, by decide +kernel⟩
  constructor
  · decide +kernel
  · decide +kernel
  · decide +kernel
  · exact fun user => (List.length_filter_le _ _).trans (by decide)
  · decide +kernel
  · decide +kernel

theorem risk_scan_iff_thin :
    thinEquity.WithinLimits ∧ ∃ result,
      plainMonitor.scanPositions? UserOrder.stored thinEquity = some result ∧
        LiquidatesExactly plainMonitor thinEquity result := by
  have limits : thinEquity.WithinLimits := by
    constructor
    · decide +kernel
    · decide +kernel
    · decide +kernel
    · exact fun user => (List.length_filter_le _ _).trans (by decide)
    · decide +kernel
    · decide +kernel
  have scanned : (plainMonitor.scanPositions? UserOrder.stored thinEquity).isSome := by
    decide +kernel
  have fits := (computes_scan limits).domain_of_isSome scanned
  refine ⟨limits, (risk_scan_iff UserOrder.stored limits (by decide)).2 ⟨fits, ?_⟩⟩
  intro user found _ rounded
  rw [List.mem_singleton.1 found] at rounded
  exact absurd rounded.1 (by decide +kernel)

end RiskMonitor

end Exg
