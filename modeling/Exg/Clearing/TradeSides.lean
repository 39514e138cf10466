import Exg.Clearing.TidyPositions

/-!
# The two sides of a trade

What a side does to its user's position: it opens or increases one of its own direction, and
reduces, closes or turns one of the other.  From this follows when the two sides of a trade of a
user with themselves cancel out.
-/

namespace Exg

open Support

namespace PositionManager

variable {manager : PositionManager} {userId : UserId} {symbol : SymbolId}

/-! ## The position that a stage changes -/

/-- A reduction by something changes the position. -/
theorem getPosition_afterReduction_ne {position : Position}
    (found : manager.getPosition userId symbol = some position) {quantity : Decimal128}
    (within : quantity ≤ position.size) (nonzero : quantity ≠ 0) (price : Decimal128) :
    (manager.afterReduction userId symbol quantity price).getPosition userId symbol ≠
      some position := by
  rw [getPosition_afterReduction found within]
  split
  · exact (Option.some_ne_none position).symm
  · intro same
    have sizes := congrArg Position.size (Option.some.inj same)
    exact nonzero (sub_eq_self.1 sizes)

theorem getPosition_openOrIncrease (manager : PositionManager) (userId : UserId)
    (symbol : SymbolId) (side : PositionSide) (quantity price leverage : Decimal128)
    (marginMode : MarginMode) :
    ∃ position, (manager.openOrIncrease userId symbol side quantity price leverage
        marginMode).getPosition userId symbol = some position ∧
      position.side = side ∧
      position.size = (manager.getPosition userId symbol).elim 0 Position.size + quantity := by
  rw [openOrIncrease]
  simp only [getPosition_insert, true_and, if_true]
  refine ⟨_, rfl, rfl, ?_⟩
  cases manager.getPosition userId symbol <;> rfl

theorem getPosition_openOrIncrease_of_ne {other : UserId} {otherSymbol : SymbolId}
    (apart : ¬(userId = other ∧ symbol = otherSymbol)) (side : PositionSide)
    (quantity price leverage : Decimal128) (marginMode : MarginMode) :
    (manager.openOrIncrease userId symbol side quantity price leverage marginMode).getPosition
      other otherSymbol = manager.getPosition other otherSymbol := by
  rw [openOrIncrease, getPosition_insert, if_neg apart]

theorem getPosition_recordFunding_of_ne {other : UserId} {otherSymbol : SymbolId}
    (apart : ¬(userId = other ∧ symbol = otherSymbol)) (payment : Decimal128) (ledger : Ledger) :
    (ClearingService.recordFunding userId symbol payment ledger manager).getPosition other
      otherSymbol = manager.getPosition other otherSymbol := by
  rw [ClearingService.recordFunding]
  split
  · rfl
  · rw [getPosition_insert, if_neg apart]

theorem getPosition_recordFunding_ne {position : Position}
    (found : manager.getPosition userId symbol = some position) {payment : Decimal128}
    (nonzero : payment ≠ 0) (ledger : Ledger) :
    (ClearingService.recordFunding userId symbol payment ledger manager).getPosition userId
      symbol ≠ some position := by
  simp only [ClearingService.recordFunding, found, getPosition_insert, true_and, if_true]
  intro same
  have funded := congrArg Position.accumulatedFunding (Option.some.inj same)
  exact nonzero (add_eq_left.1 funded)

end PositionManager

/-! ## Sides of a trade -/

namespace PositionManager

/-- The user holds a position that the side closes. -/
def Opposed (manager : PositionManager) (side : TradeSide) : Prop :=
  ∃ position, manager.getPosition side.userId side.symbol = some position ∧
    position.side = side.intendedSide.opposite

variable {manager : PositionManager} {side : TradeSide}

private theorem split_of_free (free : ¬manager.Opposed side) :
    manager.split side = (0, side.qty) := by
  rw [split, TradeSide.split.eq_def]
  cases found : manager.getPosition side.userId side.symbol with
  | none => rfl
  | some position =>
      have same : ¬position.side = side.intendedSide.opposite :=
        fun against => free ⟨position, found, against⟩
      simp only [if_neg same]

private theorem split_of_opposed {position : Position}
    (found : manager.getPosition side.userId side.symbol = some position)
    (against : position.side = side.intendedSide.opposite) :
    manager.split side = (min side.qty position.size, side.qty - min side.qty position.size) := by
  simp only [split, TradeSide.split, found, if_pos against]

theorem sideStages_of_free (free : ¬manager.Opposed side) (positive : 0 < side.qty) :
    manager.sideStages side = [.opening side 0 side.qty] ∧
      manager.takeSide side = manager.openOrIncrease side.userId side.symbol side.intendedSide
        side.qty side.price side.leverage side.marginMode := by
  have nothing : ¬(0 : Decimal128).isPositive := by decide
  rw [sideStages, closeStages, openStages, takeSide, split_of_free free]
  simp only [if_neg nothing, if_pos (Decimal128.isPositive_iff.2 positive), List.nil_append,
    true_and]

/-- A side with nothing to trade does nothing. -/
theorem sideStages_of_nonpos (tidy : manager.Tidy) {side : TradeSide} (nonpos : side.qty ≤ 0) :
    manager.sideStages side = [] ∧ manager.takeSide side = manager := by
  have closes : ¬(manager.split side).1.isPositive ∧ ¬(manager.split side).2.isPositive := by
    simp only [Decimal128.isPositive_iff, not_lt]
    by_cases opposed : manager.Opposed side
    · obtain ⟨position, found, against⟩ := opposed
      have small : side.qty ≤ position.size :=
        nonpos.trans (tidy.positive _ _ _ found).le
      rw [split_of_opposed found against, min_eq_left small, sub_self]
      exact ⟨nonpos, le_rfl⟩
    · rw [split_of_free opposed]
      exact ⟨le_rfl, nonpos⟩
  rw [sideStages, closeStages, openStages, takeSide]
  simp only [if_neg closes.1, if_neg closes.2, List.append_nil, true_and]

/-- A side starts by closing what it closes. -/
theorem sideStages_of_opposed (tidy : manager.Tidy) {position : Position}
    (found : manager.getPosition side.userId side.symbol = some position)
    (against : position.side = side.intendedSide.opposite) (positive : 0 < side.qty) :
    manager.sideStages side =
      .reduction manager side.userId side.symbol (min side.qty position.size) side.price
          (side.closeFee (min side.qty position.size)) side.closeKey side.timestamp ::
        manager.openStages side := by
  have closes : (min side.qty position.size).isPositive :=
    Decimal128.isPositive_iff.2 (lt_min positive (tidy.positive _ _ _ found))
  rw [sideStages, closeStages, split_of_opposed found against]
  simp only [if_pos closes, List.singleton_append]

/-- A position that is at least as large as the side is reduced by the side, and no more. -/
theorem sideStages_of_covered (tidy : manager.Tidy) {position : Position}
    (found : manager.getPosition side.userId side.symbol = some position)
    (against : position.side = side.intendedSide.opposite) (positive : 0 < side.qty)
    (covered : side.qty ≤ position.size) :
    manager.sideStages side =
        [.reduction manager side.userId side.symbol side.qty side.price
          (side.closeFee side.qty) side.closeKey side.timestamp] ∧
      manager.takeSide side =
        manager.afterReduction side.userId side.symbol side.qty side.price := by
  have nothing : ¬(0 : Decimal128).isPositive := by decide
  have quantities : manager.split side = (side.qty, 0) := by
    rw [split_of_opposed found against, min_eq_left covered, sub_self]
  rw [sideStages_of_opposed tidy found against positive, openStages, takeSide, quantities,
    min_eq_left covered]
  simp only [if_neg nothing, if_pos (Decimal128.isPositive_iff.2 positive), true_and]

theorem Tidy.takeSide (tidy : manager.Tidy) (side : TradeSide) : (manager.takeSide side).Tidy := by
  have closed : (if (manager.split side).1.isPositive then
      manager.afterReduction side.userId side.symbol (manager.split side).1 side.price
      else manager).Tidy := by
    split
    · exact tidy.afterReduction _ _
    · exact tidy
  rw [PositionManager.takeSide]
  split
  · rename_i opens
    exact closed.openOrIncrease _ (Decimal128.isPositive_iff.1 opens) _ _ _
  · exact closed

end PositionManager

/-! ## Trades with oneself -/

namespace TradeSide

/-- The position that opening a quantity leaves. -/
def opened (side : TradeSide) (quantity : Decimal128) (held : Option Position) : Position :=
  let position := held.getD (PositionManager.emptyPosition side.userId side.symbol
    side.intendedSide side.leverage side.marginMode)
  { position with
    entryPrice :=
      if (position.size + quantity).isPositive then
        (position.size * position.entryPrice + quantity * side.price) / (position.size + quantity)
      else position.entryPrice
    size := position.size + quantity
    side := side.intendedSide
    leverage := side.leverage
    margin := position.margin + quantity * side.price / side.leverage }

end TradeSide

namespace TradeInfo

/-- When the two sides of a trade with oneself cancel out.  Without a position the seller's side
closes what the buyer's has opened.  A long position is increased and reduced again, a short one
the other way round, and entry price and margin come out as they were.  A short position that the
trade closes is the one that the seller's side opens. -/
def Cancels (trade : TradeInfo) : Option Position → Prop
  | none => True
  | some position =>
      match position.side with
      | .long =>
          let margin := position.margin + trade.qty * trade.price / trade.buyerLeverage
          position.leverage = trade.buyerLeverage ∧
            position.entryPrice =
              (position.size * position.entryPrice + trade.qty * trade.price) /
                (position.size + trade.qty) ∧
            position.margin = margin - margin * trade.qty / (position.size + trade.qty)
      | .short =>
          if trade.qty < position.size then
            position.leverage = trade.sellerLeverage ∧
              position.entryPrice =
                ((position.size - trade.qty) * position.entryPrice + trade.qty * trade.price) /
                  position.size ∧
              position.margin = position.margin - position.margin * trade.qty / position.size +
                trade.qty * trade.price / trade.sellerLeverage
          else
            position = trade.sellerSide.opened position.size none
      | .both => False

end TradeInfo

namespace PositionManager

variable {manager : PositionManager} {side : TradeSide}

private theorem ext_getPosition {first second : PositionManager}
    (same : ∀ userId symbol, first.getPosition userId symbol = second.getPosition userId symbol) :
    first = second := by
  have positions : first.positions = second.positions :=
    Std.ExtTreeMap.ext_getElem? fun key => same key.1 key.2
  cases first
  cases second
  exact congrArg PositionManager.mk positions

/-- A side changes no position but its own. -/
theorem getPosition_takeSide_of_ne {userId : UserId} {symbol : SymbolId}
    (apart : ¬(side.userId = userId ∧ side.symbol = symbol)) :
    (manager.takeSide side).getPosition userId symbol = manager.getPosition userId symbol := by
  have closed : (if (manager.split side).1.isPositive then
      manager.afterReduction side.userId side.symbol (manager.split side).1 side.price
      else manager).getPosition userId symbol = manager.getPosition userId symbol := by
    split
    · exact getPosition_afterReduction_of_ne apart _ _
    · rfl
  rw [takeSide]
  split
  · rw [getPosition_openOrIncrease_of_ne apart]
    exact closed
  · exact closed

private theorem getPosition_opened (manager : PositionManager) (side : TradeSide)
    (quantity : Decimal128) :
    (manager.openOrIncrease side.userId side.symbol side.intendedSide quantity side.price
        side.leverage side.marginMode).getPosition side.userId side.symbol =
      some (side.opened quantity (manager.getPosition side.userId side.symbol)) := by
  rw [openOrIncrease, getPosition_insert, if_pos ⟨rfl, rfl⟩]
  rfl

/-- A side with nothing to close opens. -/
theorem getPosition_takeSide_of_free (free : ¬manager.Opposed side) (positive : 0 < side.qty) :
    (manager.takeSide side).getPosition side.userId side.symbol =
      some (side.opened side.qty (manager.getPosition side.userId side.symbol)) := by
  rw [(sideStages_of_free free positive).2, getPosition_opened]

/-- A side that is covered by an opposite position reduces or closes it. -/
theorem getPosition_takeSide_of_covered (tidy : manager.Tidy) {position : Position}
    (found : manager.getPosition side.userId side.symbol = some position)
    (against : position.side = side.intendedSide.opposite) (positive : 0 < side.qty)
    (covered : side.qty ≤ position.size) :
    (manager.takeSide side).getPosition side.userId side.symbol =
      if position.size - side.qty = 0 then none
      else some { position with
        size := position.size - side.qty
        margin := position.margin - position.margin * side.qty / position.size } := by
  rw [(sideStages_of_covered tidy found against positive covered).2,
    getPosition_afterReduction found covered]

/-- A side that is larger than an opposite position closes it and opens the rest. -/
theorem getPosition_takeSide_of_turned (tidy : manager.Tidy) {position : Position}
    (found : manager.getPosition side.userId side.symbol = some position)
    (against : position.side = side.intendedSide.opposite) (larger : position.size < side.qty) :
    (manager.takeSide side).getPosition side.userId side.symbol =
      some (side.opened (side.qty - position.size) none) := by
  have closes := Decimal128.isPositive_iff.2 (tidy.positive _ _ _ found)
  have opens := Decimal128.isPositive_iff.2 (sub_pos.2 larger)
  have closed : (manager.afterReduction side.userId side.symbol position.size
      side.price).getPosition side.userId side.symbol = none := by
    rw [getPosition_afterReduction found le_rfl, if_pos (sub_self _)]
  rw [takeSide, split_of_opposed found against, min_eq_right larger.le]
  simp only [if_pos closes, if_pos opens]
  rw [getPosition_opened, closed]

section Own

variable {trade : TradeInfo}

private theorem buyers_position (self : trade.buyerUserId = trade.sellerUserId) :
    manager.getPosition trade.buyerSide.userId trade.buyerSide.symbol =
      manager.getPosition trade.sellerUserId trade.symbol :=
  congrArg (fun user => manager.getPosition user trade.symbol) self

/-- A trade with oneself is undone if it leaves its user's position. -/
theorem undone_iff_position (self : trade.buyerUserId = trade.sellerUserId) :
    (manager.takeSide trade.buyerSide).takeSide trade.sellerSide = manager ↔
      ((manager.takeSide trade.buyerSide).takeSide trade.sellerSide).getPosition
        trade.sellerUserId trade.symbol = manager.getPosition trade.sellerUserId trade.symbol := by
  refine ⟨fun same => by rw [same], fun same => ext_getPosition fun userId symbol => ?_⟩
  by_cases own : trade.sellerUserId = userId ∧ trade.symbol = symbol
  · rw [← own.1, ← own.2]
    exact same
  · have buyers : ¬(trade.buyerSide.userId = userId ∧ trade.buyerSide.symbol = symbol) :=
      fun bought => own ⟨self.symm.trans bought.1, bought.2⟩
    rw [getPosition_takeSide_of_ne own, getPosition_takeSide_of_ne buyers]

/-- Without a short position the buyer's side opens, and the seller's reduces what it leaves. -/
theorem getPosition_self_of_free (tidy : manager.Tidy) (positive : 0 < trade.qty)
    (self : trade.buyerUserId = trade.sellerUserId)
    (free : ¬manager.Opposed trade.buyerSide) :
    let grown := trade.buyerSide.opened trade.qty
      (manager.getPosition trade.sellerUserId trade.symbol)
    ((manager.takeSide trade.buyerSide).takeSide trade.sellerSide).getPosition
        trade.sellerUserId trade.symbol =
      if grown.size - trade.qty = 0 then none
      else some { grown with
        size := grown.size - trade.qty
        margin := grown.margin - grown.margin * trade.qty / grown.size } := by
  have bought := getPosition_takeSide_of_free free positive
  change (manager.takeSide trade.buyerSide).getPosition trade.buyerUserId trade.symbol =
    some (trade.buyerSide.opened trade.qty
      (manager.getPosition trade.buyerUserId trade.symbol)) at bought
  rw [self] at bought
  refine getPosition_takeSide_of_covered (tidy.takeSide _) bought rfl positive ?_
  change trade.qty ≤ ((manager.getPosition trade.sellerUserId trade.symbol).getD _).size + trade.qty
  apply le_add_of_nonneg_left
  cases held : manager.getPosition trade.sellerUserId trade.symbol with
  | none => exact le_rfl
  | some position => exact (tidy.positive _ _ _ held).le

/-- A short position that is larger than the trade is reduced, and increased again. -/
theorem getPosition_self_of_short (tidy : manager.Tidy) (positive : 0 < trade.qty)
    (self : trade.buyerUserId = trade.sellerUserId) {position : Position}
    (held : manager.getPosition trade.sellerUserId trade.symbol = some position)
    (short : position.side = .short) (smaller : trade.qty < position.size) :
    ((manager.takeSide trade.buyerSide).takeSide trade.sellerSide).getPosition
        trade.sellerUserId trade.symbol =
      some (trade.sellerSide.opened trade.qty (some { position with
        size := position.size - trade.qty
        margin := position.margin - position.margin * trade.qty / position.size })) := by
  have bought := getPosition_takeSide_of_covered tidy
    ((buyers_position self).trans held) short positive smaller.le
  have left : position.size - trade.buyerSide.qty ≠ 0 := (sub_pos.2 smaller).ne'
  rw [if_neg left] at bought
  change (manager.takeSide trade.buyerSide).getPosition trade.buyerUserId trade.symbol =
    _ at bought
  rw [self] at bought
  have free : ¬(manager.takeSide trade.buyerSide).Opposed trade.sellerSide := by
    rintro ⟨other, found, against⟩
    obtain rfl := Option.some.inj (bought.symm.trans found)
    rw [short] at against
    cases against
  have sold := getPosition_takeSide_of_free free positive
  exact sold.trans (congrArg (fun held => some (trade.sellerSide.opened trade.qty held)) bought)

/-- A short position that the trade covers is closed, and the seller's side opens one of its
size. -/
theorem getPosition_self_of_closed (tidy : manager.Tidy) (positive : 0 < trade.qty)
    (self : trade.buyerUserId = trade.sellerUserId) {position : Position}
    (held : manager.getPosition trade.sellerUserId trade.symbol = some position)
    (short : position.side = .short) (covered : position.size ≤ trade.qty) :
    ((manager.takeSide trade.buyerSide).takeSide trade.sellerSide).getPosition
        trade.sellerUserId trade.symbol =
      some (trade.sellerSide.opened position.size none) := by
  have heldByBuyer : manager.getPosition trade.buyerSide.userId trade.buyerSide.symbol =
      some position := (buyers_position self).trans held
  have sizePos := tidy.positive _ _ _ held
  rcases covered.eq_or_lt with same | larger
  · have bought := getPosition_takeSide_of_covered tidy heldByBuyer short positive same.ge
    have nothing : position.size - trade.buyerSide.qty = 0 := sub_eq_zero.2 same
    rw [if_pos nothing] at bought
    change (manager.takeSide trade.buyerSide).getPosition trade.buyerUserId trade.symbol =
      _ at bought
    rw [self] at bought
    have free : ¬(manager.takeSide trade.buyerSide).Opposed trade.sellerSide := by
      rintro ⟨other, found, -⟩
      cases bought.symm.trans found
    have sold := getPosition_takeSide_of_free free positive
    rw [same]
    exact sold.trans (congrArg (fun held => some (trade.sellerSide.opened trade.qty held)) bought)
  · have bought := getPosition_takeSide_of_turned tidy heldByBuyer short larger
    change (manager.takeSide trade.buyerSide).getPosition trade.buyerUserId trade.symbol =
      some (trade.buyerSide.opened (trade.qty - position.size) none) at bought
    rw [self] at bought
    have size : (trade.buyerSide.opened (trade.qty - position.size) none).size =
        trade.qty - position.size := zero_add _
    have smaller : trade.qty - position.size < trade.sellerSide.qty := sub_lt_self _ sizePos
    have sold := getPosition_takeSide_of_turned (tidy.takeSide _) bought rfl
      (by rw [size]; exact smaller)
    rw [size] at sold
    exact sold.trans (congrArg (fun quantity => some (trade.sellerSide.opened quantity none))
      (sub_sub_cancel trade.qty position.size))

/-- The two sides of a trade with oneself undo each other exactly when they cancel out. -/
theorem undone_iff (tidy : manager.Tidy) (positive : 0 < trade.qty)
    (self : trade.buyerUserId = trade.sellerUserId) :
    (manager.takeSide trade.buyerSide).takeSide trade.sellerSide = manager ↔
      trade.Cancels (manager.getPosition trade.buyerUserId trade.symbol) := by
  rw [undone_iff_position self, self]
  cases held : manager.getPosition trade.sellerUserId trade.symbol with
  | none =>
      have free : ¬manager.Opposed trade.buyerSide := by
        rintro ⟨position, found, -⟩
        rw [buyers_position self, held] at found
        cases found
      rw [getPosition_self_of_free tidy positive self free, held]
      exact iff_of_true (if_pos (add_sub_cancel_right 0 trade.qty)) trivial
  | some position =>
      have sizePos := tidy.positive _ _ _ held
      have free (other : position.side ≠ .short) : ¬manager.Opposed trade.buyerSide := by
        rintro ⟨found, holds, against⟩
        rw [buyers_position self, held] at holds
        cases holds
        exact other against
      cases side : position.side with
      | long =>
          rw [getPosition_self_of_free tidy positive self (free (by simp [side])), held,
            TradeInfo.Cancels, side]
          have size : (trade.buyerSide.opened trade.qty (some position)).size - trade.qty =
              position.size := add_sub_cancel_right _ _
          have grows : (position.size + trade.qty).isPositive :=
            Decimal128.isPositive_iff.2 (add_pos sizePos positive)
          have price : (trade.buyerSide.opened trade.qty (some position)).entryPrice =
              (position.size * position.entryPrice + trade.qty * trade.price) /
                (position.size + trade.qty) := if_pos grows
          simp only
          rw [size, if_neg sizePos.ne', Option.some.injEq, eq_comm]
          constructor
          · intro same
            exact ⟨congrArg Position.leverage same, (congrArg Position.entryPrice same).trans price,
              congrArg Position.margin same⟩
          · rintro ⟨leverage, entryPrice, margin⟩
            rw [← price] at entryPrice
            cases position
            rw [Position.mk.injEq]
            exact ⟨rfl, rfl, side, rfl, entryPrice, leverage, margin, rfl, rfl, rfl⟩
      | short =>
          rw [TradeInfo.Cancels, side]
          by_cases smaller : trade.qty < position.size
          · rw [getPosition_self_of_short tidy positive self held side smaller, Option.some.injEq,
              eq_comm, if_pos smaller]
            have size : position.size - trade.qty + trade.qty = position.size :=
              sub_add_cancel _ _
            have price : (trade.sellerSide.opened trade.qty (some { position with
                size := position.size - trade.qty
                margin := position.margin - position.margin * trade.qty /
                  position.size })).entryPrice =
                ((position.size - trade.qty) * position.entryPrice + trade.qty * trade.price) /
                  position.size := by
              rw [TradeSide.opened]
              simp only [Option.getD_some, size, if_pos (Decimal128.isPositive_iff.2 sizePos)]
              rfl
            constructor
            · intro same
              exact ⟨congrArg Position.leverage same,
                (congrArg Position.entryPrice same).trans price, congrArg Position.margin same⟩
            · rintro ⟨leverage, entryPrice, margin⟩
              rw [← price] at entryPrice
              cases position
              rw [Position.mk.injEq]
              exact ⟨rfl, rfl, side, size.symm, entryPrice, leverage, margin, rfl, rfl, rfl⟩
          · rw [getPosition_self_of_closed tidy positive self held side (not_lt.1 smaller),
              Option.some.injEq, eq_comm, if_neg smaller]
      | both =>
          rw [getPosition_self_of_free tidy positive self (free (by simp [side])), held,
            TradeInfo.Cancels, side]
          refine iff_of_false (fun same => ?_) id
          split at same
          · cases same
          · have turned := congrArg Position.side (Option.some.inj same)
            rw [side] at turned
            cases turned

end Own

end PositionManager
end Exg
