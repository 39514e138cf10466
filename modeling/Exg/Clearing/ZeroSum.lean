import Exg.Clearing.EntryPrice
import Exg.Clearing.PositiveFills
import Exg.Matching.Legs
import Exg.Risk.LiquidationPrice

/-!
# Profits, losses and funding are zero-sum

What one side of a trade gains the other side loses, but for the truncation of products and
quotients.  The cost of a position is its signed size times its entry price; a fill moves it
by the notional it trades plus the profit it realizes, up to a few units and one for each
contract held after it.  Over the log of an engine the notionals cancel, and so do the sizes.
-/

namespace Exg

open Support Decimal128

@[simp]
theorem Decimal128.toRat_neg (value : Decimal128) : (-value).toRat = -value.toRat := by
  simp [toRat, neg_div]

theorem Decimal128.toRat_sum (values : List Decimal128) :
    values.sum.toRat = (values.map toRat).sum := by
  induction values with
  | nil => exact toRat_zero
  | cons value rest inductionHypothesis =>
      rw [List.sum_cons, toRat_add, inductionHypothesis, List.map_cons, List.sum_cons]

/-- What was paid for a position, on balance. -/
def Position.cost (position : Position) : ℚ :=
  position.signedSize.toRat * position.entryPrice.toRat

namespace PositionManager

/-- What the sizes of all positions are worth at a price for each symbol. -/
def worth (manager : PositionManager) (marks : SymbolId → ℚ) : ℚ :=
  mapTotal (fun key position => marks key.2 * position.signedSize.toRat) manager.positions

/-- What was paid for all positions, on balance. -/
def cost (manager : PositionManager) : ℚ :=
  mapTotal (fun _ position => position.cost) manager.positions

/-! ## One fill -/

/-- What a signed size of a symbol is worth. -/
def worthOf (symbol : SymbolId) (size : ℚ) : (SymbolId → ℚ) → ℚ := fun marks => marks symbol * size

private theorem worthOf_add (symbol : SymbolId) (first second : ℚ) :
    worthOf symbol (first + second) = worthOf symbol first + worthOf symbol second :=
  funext fun marks => mul_add (marks symbol) first second

/-- What fills do to the worth and the cost of the positions, with an error in the cost. -/
structure Moved (before after : PositionManager) (worth : (SymbolId → ℚ) → ℚ) (cost error : ℚ) :
    Prop where
  worth_eq : ∀ marks, after.worth marks = before.worth marks + worth marks
  cost_near : |after.cost - before.cost - cost| ≤ error

section Fill

variable {manager : PositionManager} {userId : UserId} {symbol : SymbolId}

theorem Moved.refl (manager : PositionManager) : Moved manager manager 0 0 0 where
  worth_eq := fun marks => (add_zero _).symm
  cost_near := by simp

theorem Moved.trans {before middle after : PositionManager}
    {firstWorth secondWorth : (SymbolId → ℚ) → ℚ}
    {firstCost firstError secondCost secondError : ℚ}
    (first : Moved before middle firstWorth firstCost firstError)
    (second : Moved middle after secondWorth secondCost secondError) :
    Moved before after (firstWorth + secondWorth) (firstCost + secondCost)
      (firstError + secondError) where
  worth_eq := fun marks => by
    rw [second.worth_eq, first.worth_eq, add_assoc]
    rfl
  cost_near := by
    have split : after.cost - before.cost - (firstCost + secondCost) =
        (middle.cost - before.cost - firstCost) +
          (after.cost - middle.cost - secondCost) := by ring
    rw [split]
    exact (abs_add_le _ _).trans (add_le_add first.cost_near second.cost_near)

theorem Moved.mono {before after : PositionManager} {worth : (SymbolId → ℚ) → ℚ}
    {cost error larger : ℚ} (moved : Moved before after worth cost error)
    (le : error ≤ larger) : Moved before after worth cost larger :=
  ⟨moved.worth_eq, moved.cost_near.trans le⟩

/-- The signed size that a user holds of a symbol. -/
def signedHolding (manager : PositionManager) (userId : UserId) (symbol : SymbolId) : ℚ :=
  (manager.getPosition userId symbol).elim 0 fun held => held.signedSize.toRat

private theorem elim_worth (marks : SymbolId → ℚ) :
    (manager.getPosition userId symbol).elim 0
        (fun held => marks symbol * held.signedSize.toRat) =
      marks symbol * manager.signedHolding userId symbol := by
  rw [signedHolding]
  cases manager.getPosition userId symbol with
  | none => exact (mul_zero _).symm
  | some held => rfl

/-- Only the position that is stored counts. -/
theorem moved_insert {position : Position} {size cost error : ℚ}
    (sized : position.signedSize.toRat = manager.signedHolding userId symbol + size)
    (near : |position.cost - (manager.getPosition userId symbol).elim 0 Position.cost - cost| ≤
      error) :
    Moved manager ⟨manager.positions.insert (userId, symbol) position⟩ (worthOf symbol size) cost
      error where
  worth_eq := fun marks => by
    rw [worth, mapTotal_insert_eq]
    change _ + (_ - (manager.getPosition userId symbol).elim _ _) = _
    rw [elim_worth, sized, worth, worthOf]
    ring
  cost_near := by
    rw [PositionManager.cost, mapTotal_insert_eq]
    change |mapTotal _ _ + (_ - (manager.getPosition userId symbol).elim _ _) - _ - _| ≤ _
    rw [PositionManager.cost, add_sub_cancel_left]
    exact near

private theorem moved_erase {size cost error : ℚ}
    (sized : 0 = manager.signedHolding userId symbol + size)
    (near : |0 - (manager.getPosition userId symbol).elim 0 Position.cost - cost| ≤ error) :
    Moved manager ⟨manager.positions.erase (userId, symbol)⟩ (worthOf symbol size) cost
      error where
  worth_eq := fun marks => by
    rw [worth, mapTotal_erase_eq]
    change _ - (manager.getPosition userId symbol).elim _ _ = _
    have opposite : size = -manager.signedHolding userId symbol := by linarith
    rw [elim_worth, worth, worthOf, opposite]
    ring
  cost_near := by
    rw [PositionManager.cost, mapTotal_erase_eq]
    change |mapTotal _ _ - (manager.getPosition userId symbol).elim _ _ - _ - _| ≤ _
    rw [PositionManager.cost, sub_sub_cancel_left, ← zero_sub]
    exact near

/-- The size times the averaged price is the notional but for the three truncations. -/
theorem averaged_near (size entryPrice quantity price : Decimal128) (grown : 0 < size + quantity) :
    |(size + quantity).toRat *
        ((size * entryPrice + quantity * price) / (size + quantity)).toRat -
        (size.toRat * entryPrice.toRat + quantity.toRat * price.toRat)| ≤
      (2 + (size + quantity).toRat) * unit := by
  have old := (abs_lt.1 (abs_mul_sub_lt size entryPrice))
  have new := (abs_lt.1 (abs_mul_sub_lt quantity price))
  have total := toRat_pos grown
  have mean := abs_div_sub_lt (size * entryPrice + quantity * price) (lt_iff_raw.1 grown).ne'
  rw [toRat_add (size * entryPrice)] at mean
  have scaled : |(size + quantity).toRat *
      ((size * entryPrice + quantity * price) / (size + quantity)).toRat -
        ((size * entryPrice).toRat + (quantity * price).toRat)| ≤
      (size + quantity).toRat * unit := by
    have factored : (size + quantity).toRat *
        ((size * entryPrice + quantity * price) / (size + quantity)).toRat -
          ((size * entryPrice).toRat + (quantity * price).toRat) =
        (size + quantity).toRat *
          (((size * entryPrice + quantity * price) / (size + quantity)).toRat -
            ((size * entryPrice).toRat + (quantity * price).toRat) / (size + quantity).toRat) := by
      field_simp
    rw [factored, abs_mul, abs_of_pos total]
    exact mul_le_mul_of_nonneg_left mean.le total.le
  have within := abs_le.1 scaled
  rw [abs_le]
  constructor <;> linarith [old.1, old.2, new.1, new.2, within.1, within.2]

/-- An increase of a position of the same side, or of none. -/
theorem moved_openOrIncrease (side : Side) {quantity : Decimal128}
    (aligned : ∀ held, manager.getPosition userId symbol = some held →
      held.side = openingSide side ∧ 0 < held.size)
    (positive : 0 < quantity) (price leverage : Decimal128) (marginMode : MarginMode) :
    let next := manager.openOrIncrease userId symbol (openingSide side) quantity price leverage
      marginMode
    Moved manager next (worthOf symbol (side.signed quantity).toRat)
      ((side.signed quantity).toRat * price.toRat)
      ((2 + heldSize userId symbol next) * unit) := by
  intro next
  let base := (manager.getPosition userId symbol).getD
    (emptyPosition userId symbol (openingSide side) leverage marginMode)
  have size : manager.signedHolding userId symbol = (side.signed base.size).toRat := by
    rw [signedHolding]
    cases found : manager.getPosition userId symbol with
    | none => cases side <;> simp [base, found, emptyPosition, Side.signed]
    | some held =>
        simp only [base, found, Option.elim_some, Option.getD_some, Position.signedSize,
          (aligned held found).1, signed_openingSide]
  have cost : (manager.getPosition userId symbol).elim 0 Position.cost =
      (side.signed base.size).toRat * base.entryPrice.toRat := by
    cases found : manager.getPosition userId symbol with
    | none => simp [base, found, emptyPosition]
    | some held =>
        simp only [base, found, Option.elim_some, Option.getD_some, Position.cost,
          Position.signedSize, (aligned held found).1, signed_openingSide]
  have grown : 0 < base.size + quantity := by
    refine add_pos_of_nonneg_of_pos ?_ positive
    cases found : manager.getPosition userId symbol with
    | none => simp [base, found, emptyPosition]
    | some held => simpa [base, found] using (aligned held found).2.le
  have stored : heldSize userId symbol next = (base.size + quantity).toRat := by
    have found : next.getPosition userId symbol = _ :=
      (getPosition_insert ..).trans (if_pos ⟨rfl, rfl⟩)
    rw [heldSize, found]
    rfl
  have near := averaged_near base.size base.entryPrice quantity price grown
  rw [stored]
  apply moved_insert
  · rw [size, ← toRat_add, ← Side.signed_add]
    exact congrArg toRat (signed_openingSide side _)
  · rw [cost]
    simp only [Position.cost, Position.signedSize, signed_openingSide]
    change |(side.signed (base.size + quantity)).toRat *
      (if (base.size + quantity).isPositive = true then
        (base.size * base.entryPrice + quantity * price) / (base.size + quantity)
      else base.entryPrice).toRat - _ - _| ≤ _
    rw [if_pos (isPositive_iff.2 grown)]
    cases side with
    | buy =>
        simp only [Side.signed]
        rwa [sub_sub]
    | sell =>
        simp only [Side.signed, toRat_neg]
        rw [← abs_neg]
        convert near using 2
        ring

private theorem reduceOrClose_pnl {position : Position} {quantity exitPrice pnl : Decimal128}
    {reduced : PositionManager} (found : manager.getPosition userId symbol = some position)
    (outcome : manager.reduceOrClose userId symbol quantity exitPrice = .ok (pnl, reduced)) :
    pnl = realizedPnl position exitPrice quantity := by
  simp only [reduceOrClose, found] at outcome
  split at outcome
  · cases outcome
  · split at outcome <;> cases outcome <;> rfl

/-- A reduction realizes the profit of what it takes off, to the unit. -/
theorem moved_reduceOrClose {side : Side} {position : Position} {quantity exitPrice : Decimal128}
    (found : manager.getPosition userId symbol = some position)
    (against : position.side ≠ openingSide side) (oneWay : position.side ≠ .both)
    {pnl : Decimal128} {reduced : PositionManager}
    (outcome : manager.reduceOrClose userId symbol quantity exitPrice = .ok (pnl, reduced)) :
    Moved manager reduced (worthOf symbol (side.signed quantity).toRat)
      ((side.signed quantity).toRat * exitPrice.toRat + pnl.toRat) unit := by
  have signs (size : Decimal128) := signed_of_ne oneWay against size
  have rounded : |(side.signed quantity).toRat * (position.entryPrice.toRat - exitPrice.toRat) -
      pnl.toRat| ≤ unit := by
    rw [reduceOrClose_pnl found outcome, abs_sub_comm]
    cases side with
    | buy =>
        have short : position.side = .short := by
          cases kind : position.side <;> simp_all [openingSide]
        have near := abs_mul_sub_lt (position.entryPrice - exitPrice) quantity
        rw [toRat_sub] at near
        simp only [realizedPnl, short, Side.signed]
        rw [mul_comm quantity.toRat]
        exact near.le
    | sell =>
        have long : position.side = .long := by
          cases kind : position.side <;> simp_all [openingSide]
        have near := abs_mul_sub_lt (exitPrice - position.entryPrice) quantity
        rw [toRat_sub] at near
        have taken : -quantity.toRat * (position.entryPrice.toRat - exitPrice.toRat) =
            (exitPrice.toRat - position.entryPrice.toRat) * quantity.toRat := by ring
        simp only [realizedPnl, long, Side.signed, toRat_neg, taken]
        exact near.le
  obtain ⟨held, stored, within, ⟨whole, rfl⟩ | ⟨-, rfl⟩⟩ := reduceOrClose_ok outcome
  · obtain rfl := Option.some.inj (found.symm.trans stored)
    have all : quantity = position.size := (sub_eq_zero.1 whole).symm
    apply moved_erase
    · rw [signedHolding, found, Option.elim_some, Position.signedSize, signs, all, toRat_neg,
        neg_add_cancel]
    · rw [found, Option.elim_some, Position.cost, Position.signedSize, signs, ← all, toRat_neg]
      convert rounded using 2
      ring
  · obtain rfl := Option.some.inj (found.symm.trans stored)
    apply moved_insert
    · rw [signedHolding, found, Option.elim_some]
      simp only [Position.signedSize, signs]
      cases side <;> simp [Side.signed] <;> ring
    · rw [found, Option.elim_some]
      simp only [Position.cost, Position.signedSize, signs]
      convert rounded using 2
      cases side <;> simp [Side.signed] <;> ring

private theorem heldSize_nonneg (sized : manager.Sized) (userId : UserId) (symbol : SymbolId) :
    0 ≤ heldSize userId symbol manager := by
  rw [heldSize]
  cases found : manager.getPosition userId symbol with
  | none => exact le_rfl
  | some position => exact toRat_nonneg (sized userId symbol position found).le

/-- A fill larger than the position closes it and opens the rest the other way. -/
theorem moved_flip {side : Side} {position : Position} {quantity price pnl : Decimal128}
    {reduced : PositionManager} (found : manager.getPosition userId symbol = some position)
    (against : position.side ≠ openingSide side) (oneWay : position.side ≠ .both)
    (outcome : manager.reduceOrClose userId symbol (min quantity position.size) price =
      .ok (pnl, reduced))
    (leftover : 0 < quantity - min quantity position.size) :
    let next := reduced.openOrIncrease userId symbol (openingSide side)
      (quantity - min quantity position.size) price .one .cross
    Moved manager next (worthOf symbol (side.signed quantity).toRat)
      ((side.signed quantity).toRat * price.toRat + pnl.toRat)
      ((3 + heldSize userId symbol next) * unit) := by
  intro next
  have whole : min quantity position.size = position.size := by
    refine min_eq_right ?_
    by_contra smaller
    rw [min_eq_left (not_le.1 smaller).le, sub_self] at leftover
    exact lt_irrefl _ leftover
  have closed : reduced.getPosition userId symbol = none := by
    obtain ⟨held, stored, -, ⟨-, rfl⟩ | ⟨left, -⟩⟩ := reduceOrClose_ok outcome
    · rw [getPosition_erase, if_pos ⟨rfl, rfl⟩]
    · obtain rfl := Option.some.inj (found.symm.trans stored)
      exact absurd (by rw [whole, sub_self]) left
  have taken := moved_reduceOrClose found against oneWay outcome
  have opened := moved_openOrIncrease side (fun held other => by
    rw [closed] at other
    cases other) leftover price .one .cross
  have both := taken.trans opened
  have total : side.signed quantity = side.signed (min quantity position.size) +
      side.signed (quantity - min quantity position.size) := by
    rw [← Side.signed_add, add_sub_cancel]
  have costs (first second : ℚ) : (first + second) * price.toRat + pnl.toRat =
      first * price.toRat + pnl.toRat + second * price.toRat := by ring
  have errors : (3 + heldSize userId symbol next) * unit =
      unit + (2 + heldSize userId symbol next) * unit := by ring
  rw [total, toRat_add, worthOf_add, costs, errors]
  exact both

/-- Every fill is applied.  It moves the sizes by its signed quantity, and the costs by its
notional and the profit it realizes. -/
theorem applyFill_moved (directed : manager.Directed) (sized : manager.Sized) (userId : UserId)
    (symbol : SymbolId) (side : Side) {quantity : Decimal128} (positive : 0 < quantity)
    (price : Decimal128) :
    ∃ pnl next, manager.applyFill userId symbol side quantity price = .ok (pnl, next) ∧
      next.Directed ∧ next.Sized ∧
      Moved manager next (worthOf symbol (side.signed quantity).toRat)
        ((side.signed quantity).toRat * price.toRat + pnl.toRat)
        ((3 + heldSize userId symbol next) * unit) := by
  obtain ⟨pnl, next, applied, directedNext, -⟩ :=
    applyFill_spec directed userId symbol side quantity price
  have sizedNext := sized.applyFill positive applied
  refine ⟨pnl, next, applied, directedNext, sizedNext, ?_⟩
  have held := heldSize_nonneg sizedNext userId symbol
  have opens (aligned : ∀ held, manager.getPosition userId symbol = some held →
        held.side = openingSide side ∧ 0 < held.size)
      (same : pnl = 0 ∧ manager.openOrIncrease userId symbol (openingSide side) quantity price
        .one .cross = next) :
      Moved manager next (worthOf symbol (side.signed quantity).toRat)
        ((side.signed quantity).toRat * price.toRat + pnl.toRat)
        ((3 + heldSize userId symbol next) * unit) := by
    obtain ⟨rfl, rfl⟩ := same
    rw [toRat_zero, add_zero]
    refine (moved_openOrIncrease side aligned positive price .one .cross).mono ?_
    exact mul_le_mul_of_nonneg_right (by linarith) unit_pos.le
  cases found : manager.getPosition userId symbol with
  | none =>
      simp only [applyFill, found, Except.ok.injEq, Prod.mk.injEq] at applied
      refine opens (fun held other => ?_) ⟨applied.1.symm, applied.2⟩
      rw [found] at other
      cases other
  | some position =>
      have oneWay := directed userId symbol position found
      have some := sized userId symbol position found
      by_cases same : position.side = openingSide side
      · simp only [applyFill, found, if_pos (Or.inl same), Except.ok.injEq, Prod.mk.injEq]
          at applied
        refine opens (fun held other => ?_) ⟨applied.1.symm, applied.2⟩
        rw [found] at other
        cases other
        exact ⟨same, some⟩
      · have against : ¬(position.side = openingSide side ∨ position.size = 0) :=
          not_or.2 ⟨same, some.ne'⟩
        simp only [applyFill, found, if_neg against] at applied
        split at applied
        · cases applied
        · rename_i realized reduced outcome
          simp only [Except.ok.injEq, Prod.mk.injEq] at applied
          obtain ⟨rfl, final⟩ := applied
          split at final
          · rename_i flips
            subst final
            exact moved_flip found same oneWay outcome (isPositive_iff.1 flips)
          · rename_i stays
            subst final
            have all : min quantity position.size = quantity := by
              refine min_eq_left ?_
              by_contra larger
              rw [min_eq_right (not_le.1 larger).le] at stays
              exact stays (isPositive_iff.2 (sub_pos.2 (not_le.1 larger)))
            rw [all] at outcome
            refine (moved_reduceOrClose found same oneWay outcome).mono ?_
            exact le_mul_of_one_le_left unit_pos.le (by linarith)

end Fill

/-! ## Every fill of a log -/

/-- The profit that a fill realizes, and the size held after it. -/
structure Kept where
  pnl : Decimal128
  size : ℚ

/-- Keep the positions alone. -/
def keep (manager : PositionManager) : Event → PositionManager × List Kept
  | .orderFilled filled =>
      match manager.applyFill filled.userId filled.symbol filled.side filled.fillQty
          filled.fillPrice with
      | .error _ => (manager, [])
      | .ok (pnl, next) => (next, [⟨pnl, heldSize filled.userId filled.symbol next⟩])
  | _ => (manager, [])

def realized (kept : List Kept) : ℚ := (kept.map fun fill => fill.pnl.toRat).sum

/-- What the truncations may add up to: three units for a fill, and one for each contract
that is held after it. -/
def slack (kept : List Kept) : ℚ := (kept.map fun fill => (3 + fill.size) * unit).sum

@[simp]
theorem realized_append (before after : List Kept) :
    realized (before ++ after) = realized before + realized after := by
  simp [realized]

@[simp]
theorem slack_append (before after : List Kept) :
    slack (before ++ after) = slack before + slack after := by
  simp [slack]

end PositionManager

namespace Event

/-- What an event adds to the worth of the positions. -/
def worth : Event → (SymbolId → ℚ) → ℚ
  | .orderFilled filled =>
      PositionManager.worthOf filled.symbol (filled.side.signed filled.fillQty).toRat
  | _ => 0

/-- What an event adds to the cost of the positions. -/
def notional : Event → ℚ
  | .orderFilled filled => (filled.side.signed filled.fillQty).toRat * filled.fillPrice.toRat
  | _ => 0

end Event

namespace PositionManager

open MatchingEngine (PositiveFills)
open PostTradeProcessor (PositiveFill)

variable {manager : PositionManager}

/-- No position is held on both sides, and none of size zero. -/
structure Proper (manager : PositionManager) : Prop where
  directed : manager.Directed
  sized : manager.Sized

private theorem keep_moved (proper : manager.Proper) {event : Event}
    (positive : PositiveFill event) :
    (manager.keep event).1.Proper ∧
      Moved manager (manager.keep event).1 event.worth
        (event.notional + realized (manager.keep event).2) (slack (manager.keep event).2) := by
  cases event with
  | orderFilled filled =>
      obtain ⟨pnl, next, applied, directed, sized, moved⟩ := applyFill_moved proper.directed
        proper.sized filled.userId filled.symbol filled.side positive filled.fillPrice
      simp only [keep, applied, realized, slack, List.map_cons, List.map_nil, List.sum_cons,
        List.sum_nil, add_zero]
      exact ⟨⟨directed, sized⟩, moved⟩
  | _ =>
      have stays : Moved manager manager 0 (0 + realized []) (slack []) := by
        simpa [realized, slack] using Moved.refl manager
      exact ⟨proper, stays⟩

/-- Over a log the positions gain the worth of its fills, at the price of their notionals and
the realized profits. -/
theorem keep_run_moved (proper : manager.Proper) {events : List Event}
    (positive : PositiveFills events) :
    (run keep manager events).1.Proper ∧
      Moved manager (run keep manager events).1 (events.map Event.worth).sum
        ((events.map Event.notional).sum + realized (run keep manager events).2)
        (slack (run keep manager events).2) := by
  induction events generalizing manager with
  | nil => exact ⟨proper, by simpa [realized, slack] using Moved.refl manager⟩
  | cons event rest inductionHypothesis =>
      obtain ⟨kept, first⟩ := keep_moved proper (positive event List.mem_cons_self)
      obtain ⟨final, later⟩ := inductionHypothesis kept
        fun other member => positive other (List.mem_cons_of_mem event member)
      refine ⟨final, ?_⟩
      have both := first.trans later
      simp only [run, List.map_cons, List.sum_cons, realized_append, slack_append]
      convert both using 1
      ring

/-! ## Mark prices -/

/-- Update the unrealized profit of all positions given current mark prices. -/
def updateMarkPrices (manager : PositionManager)
    (markPrices : Std.ExtTreeMap SymbolId Decimal128) : PositionManager :=
  ⟨manager.positions.map fun key position =>
    match markPrices[key.2]? with
    | none => position
    | some markPrice =>
        { position with
          unrealizedPnl := calcUnrealizedPnl position.entryPrice markPrice position.size
            position.side }⟩

/-- The unrealized profit of all positions, as it is stored. -/
def unrealized (manager : PositionManager) : ℚ :=
  mapTotal (fun _ position => position.unrealizedPnl.toRat) manager.positions

/-- Every symbol of a position has a price. -/
def Priced (manager : PositionManager) (markPrices : Std.ExtTreeMap SymbolId Decimal128) : Prop :=
  ∀ userId symbol position, manager.getPosition userId symbol = some position →
    symbol ∈ markPrices

/-- The price of a symbol, as a number. -/
def markOf (markPrices : Std.ExtTreeMap SymbolId Decimal128) (symbol : SymbolId) : ℚ :=
  markPrices[symbol]?.elim 0 toRat

private theorem calcUnrealizedPnl_near {position : Position} (directed : position.side ≠ .both)
    (sized : 0 < position.size) (markPrice : Decimal128) :
    |(calcUnrealizedPnl position.entryPrice markPrice position.size position.side).toRat -
        (markPrice.toRat * position.signedSize.toRat - position.cost)| ≤ unit := by
  have near := abs_calcUnrealizedPnl_sub_le sized position.side position.entryPrice markPrice
    markPrice.toRat
  rw [sub_self, abs_zero, zero_mul, zero_add] at near
  convert near using 2
  rw [Position.cost, Position.signedSize]
  cases side : position.side with
  | long => simp only [exactUnrealizedPnl, PositionSide.signed]; ring
  | short => simp only [exactUnrealizedPnl, PositionSide.signed, toRat_neg]; ring
  | both => exact absurd side directed

/-- What is stored as the unrealized profit is the worth less the cost, to the unit for each
position. -/
theorem unrealized_near (proper : manager.Proper)
    {markPrices : Std.ExtTreeMap SymbolId Decimal128} (priced : manager.Priced markPrices) :
    |(manager.updateMarkPrices markPrices).unrealized -
        (manager.worth (markOf markPrices) - manager.cost)| ≤
      manager.positions.size • unit := by
  have stored : (manager.updateMarkPrices markPrices).unrealized =
      mapTotal (fun key position => (calcUnrealizedPnl position.entryPrice
        ((markPrices[key.2]?).getD 0) position.size position.side).toRat) manager.positions := by
    simp only [unrealized, updateMarkPrices, mapTotal, Std.ExtTreeMap.toList_map, List.map_map]
    congr 1
    refine List.map_congr_left fun entry member => ?_
    have found : manager.getPosition entry.1.1 entry.1.2 = some entry.2 :=
      Std.ExtTreeMap.mem_toList_iff_getElem?_eq_some.1 member
    have known := priced _ _ _ found
    simp only [Function.comp_apply, Std.ExtTreeMap.getElem?_eq_some_getElem known, Option.getD_some]
  have exact : manager.worth (markOf markPrices) - manager.cost =
      mapTotal (fun key position => markOf markPrices key.2 * position.signedSize.toRat -
        position.cost) manager.positions :=
    (mapTotal_sub manager.positions _ _).symm
  rw [stored, exact]
  refine abs_mapTotal_sub_le _ fun key position found => ?_
  have known := priced _ _ _ found
  simp only [markOf, Std.ExtTreeMap.getElem?_eq_some_getElem known, Option.getD_some,
    Option.elim_some]
  exact calcUnrealizedPnl_near (proper.directed _ _ _ found) (proper.sized _ _ _ found) _

end PositionManager

/-! ## The processor keeps these positions -/

namespace PostTradeProcessor

open PositionManager (keep)

variable {processor next : PostTradeProcessor} {facts : List Event} {timestamp : UnixMicros}

private theorem consumeFill_positions {filled : OrderFilled}
    (outcome : processor.consumeFill filled timestamp = .ok (next, facts)) :
    next.positions = (keep processor.positions (.orderFilled filled)).1 := by
  rw [consumeFill, applyFillToPosition] at outcome
  cases applied : processor.positions.applyFill filled.userId filled.symbol filled.side
      filled.fillQty filled.fillPrice with
  | error error =>
      rw [applied] at outcome
      cases outcome
  | ok result =>
      obtain ⟨pnl, positions⟩ := result
      simp only [applied] at outcome
      simp only [keep, applied]
      split at outcome
      · cases outcome
        rfl
      · split at outcome
        · cases outcome
        · rename_i moved settled settling
          have same : settled.positions = positions := settleRealizedPnl_positions settling
          split at outcome <;> cases outcome <;> exact same

private theorem consumeEvent_positions {visit : List Position → List Position} {event : Event}
    (outcome : processor.consumeEvent visit timestamp event = .ok (next, facts)) :
    next.positions = (keep processor.positions event).1 := by
  cases event with
  | orderFilled filled => exact consumeFill_positions outcome
  | fundingRateUpdate symbol rate stamped => exact settleFunding_positions outcome
  | _ =>
      cases outcome
      rfl

private theorem consume_positions {order : IterationOrder} {events : List Event}
    (outcome : consume order timestamp processor events = .ok (next, facts)) :
    next.positions = (run keep processor.positions events).1 := by
  induction events generalizing processor order facts with
  | nil =>
      cases outcome
      rfl
  | cons event rest inductionHypothesis =>
      rw [consume] at outcome
      split at outcome
      · cases outcome
      · rename_i middle emitted consumed
        split at outcome
        · cases outcome
        · rename_i final later laterOutcome
          cases outcome
          rw [inductionHypothesis laterOutcome, consumeEvent_positions consumed]
          rfl

end PostTradeProcessor

/-! ## The main result -/

open MatchingEngine (newOrderIds)
open PositionManager (keep realized slack)

/-- The input that a delivery is for the engine. -/
def Delivery.input (delivery : Delivery) : MatchingEngine.EngineInput := .command delivery.command

/-- What an engine logs for some deliveries. -/
def deliveredLog (engine : MatchingEngine) (deliveries : List Delivery) : List Event :=
  (run MatchingEngine.step engine (deliveries.map Delivery.input)).2

private theorem feed_positions {engine final : MatchingEngine} {processor fed : PostTradeProcessor}
    {deliveries : List Delivery} (outcome : feed engine processor deliveries = .ok (final, fed)) :
    fed.positions = (run keep processor.positions (deliveredLog engine deliveries)).1 := by
  induction deliveries generalizing engine processor with
  | nil =>
      cases outcome
      rfl
  | cons delivery rest inductionHypothesis =>
      rw [feed] at outcome
      split at outcome
      · cases outcome
      · rename_i consumed facts batch
        have logged : deliveredLog engine (delivery :: rest) =
            (engine.processCommand delivery.command).2 ++
              deliveredLog (engine.processCommand delivery.command).1 rest := rfl
        rw [inductionHypothesis outcome, PostTradeProcessor.consume_positions batch, logged,
          run_append]

/-- The legs of a trade add nothing to the worth of the positions. -/
theorem worth_legs {log : List Event} (paired : Paired log) : (log.map Event.worth).sum = 0 := by
  refine paired.sum_eq_zero ?_ fun maker taker legs => ?_
  · intro event plain
    cases event with
    | orderFilled filled => cases plain
    | _ => rfl
  · simp only [Event.worth]
    rw [legs.symbol, legs.opposite, legs.quantity, ← PositionManager.worthOf_add,
      Side.signed_opposite, Decimal128.toRat_neg, add_neg_cancel]
    exact funext fun marks => mul_zero _

private theorem notional_legs {log : List Event} (paired : Paired log) :
    (log.map Event.notional).sum = 0 := by
  refine paired.sum_eq_zero ?_ fun maker taker legs => ?_
  · intro event plain
    cases event with
    | orderFilled filled => cases plain
    | _ => rfl
  · simp only [Event.notional]
    rw [legs.opposite, legs.quantity, legs.price, Side.signed_opposite, Decimal128.toRat_neg]
    ring

/-- Positions whose sizes cancel for every symbol. -/
structure PositionManager.Level (manager : PositionManager) : Prop where
  proper : manager.Proper
  worthless : ∀ marks, manager.worth marks = 0

/-- Their costs are the profits that have been realized, but for the truncations. -/
structure Offset (manager : PositionManager) (kept : List PositionManager.Kept) : Prop
    extends manager.Level where
  cost_near : |manager.cost - realized kept| ≤ slack kept

/-- The fills of an engine leave such positions. -/
theorem offset_of_log {start : MatchingEngine} (base : start.Sound [])
    (validLot : 0 < start.symbolConfig.lotSize) {inputs : List MatchingEngine.EngineInput}
    (distinct : (newOrderIds inputs).Nodup) :
    let kept := run keep .new (run MatchingEngine.step start inputs).2
    Offset kept.1 kept.2 := by
  intro kept
  have fills := MatchingEngine.positiveFills_run base distinct
    (MatchingEngine.acceptsShown_from validLot inputs)
  have paired := MatchingEngine.paired_run start inputs
  obtain ⟨proper, moved⟩ := PositionManager.keep_run_moved
    ⟨PositionManager.directed_new, PositionManager.sized_new⟩ fills
  rw [worth_legs paired, notional_legs paired, zero_add] at moved
  refine ⟨⟨proper, fun marks => ?_⟩, ?_⟩
  · exact (moved.worth_eq marks).trans (by simp [PositionManager.worth, PositionManager.new])
  · have nothing : PositionManager.new.cost = 0 := by
      simp [PositionManager.cost, PositionManager.new]
    have near := moved.cost_near
    rwa [nothing, sub_zero] at near

/-- The unrealized profits make up for the realized ones. -/
theorem Offset.profits {manager : PositionManager} {kept : List PositionManager.Kept}
    (offset : Offset manager kept) {markPrices : Std.ExtTreeMap SymbolId Decimal128}
    (priced : manager.Priced markPrices) :
    |realized kept + (manager.updateMarkPrices markPrices).unrealized| ≤
      slack kept + manager.positions.size • Decimal128.unit := by
  have near := PositionManager.unrealized_near offset.proper priced
  rw [offset.worthless, zero_sub, sub_neg_eq_add] at near
  have split : realized kept + (manager.updateMarkPrices markPrices).unrealized =
      ((manager.updateMarkPrices markPrices).unrealized + manager.cost) -
        (manager.cost - realized kept) := by ring
  rw [split]
  exact (abs_sub _ _).trans ((add_le_add near offset.cost_near).trans_eq (add_comm _ _))

/-- Deliveries are consumed, and leave the positions of the engine's log. -/
theorem feed_kept (config : SymbolConfig) (ids : Nat → TradeId) (interestRate : Decimal128)
    (deliveries : List Delivery) :
    ∃ engine processor,
      feed (.new config ids interestRate) .new deliveries = .ok (engine, processor) ∧
      processor.positions =
        (run keep .new (deliveredLog (.new config ids interestRate) deliveries)).1 := by
  have unopened : ∀ symbol, PostTradeProcessor.new.positions.netOpenInterest symbol = 0 := by
    intro symbol
    simp [PostTradeProcessor.new, PositionManager.new, PositionManager.netOpenInterest]
  obtain ⟨engine, processor, fed, -⟩ :=
    feed_zero PostTradeProcessor.solid_new unopened (.new config ids interestRate) deliveries
  exact ⟨engine, processor, fed, feed_positions fed⟩

end Exg
