import Exg.Matching.Engine

/-!
# Replaying the log into an engine

`apply_event` maps a record back onto the engine without matching: what a match did is in
the fills that follow.  Replay is not idempotent; records are applied in log order.
-/

namespace Exg

open Support

/-- Why a record does not apply. -/
inductive ApplyError where
  /-- event references unknown order_id -/
  | unknownOrder (orderId : OrderId)
  /-- OrderAccepted for order_id already present in book -/
  | duplicateOrder (orderId : OrderId)
  /-- OrderFilled fill_qty exceeds existing remaining -/
  | overFill (got remaining : Decimal128)
  /-- event variant unexpected during replay -/
  | unexpectedVariant (variant : String)
  deriving DecidableEq, Repr

/-- The order that an acceptance stands for. -/
def rebuiltOrder (accepted : OrderAccepted) : BookOrder where
  orderId := accepted.orderId
  userId := accepted.userId
  symbol := accepted.symbol
  side := accepted.side
  price := accepted.price
  remainingQty := accepted.visibleQuantity.getD accepted.quantity
  originalQty := accepted.quantity
  orderType := accepted.orderType
  timeInForce := accepted.timeInForce
  isReduceOnly := accepted.reduceOnly
  timestamp := accepted.timestamp
  visibleQty := accepted.visibleQuantity
  hiddenQty := accepted.visibleQuantity.elim 0 fun visible => accepted.quantity - visible
  trailingDelta := accepted.trailingDelta
  trailingPeakPrice := accepted.trailingPeakPrice
  expireTime := defaultExpiry accepted.timeInForce accepted.timestamp
  clientOrderId := accepted.clientOrderId
  stopPrice := accepted.stopPrice

namespace MatchingEngine

/-- The `OrderAccepted` arm. -/
def applyAccepted (engine : MatchingEngine) (accepted : OrderAccepted) :
    Except ApplyError MatchingEngine :=
  if (engine.orderbook.getOrder accepted.orderId).isSome then
    .error (.duplicateOrder accepted.orderId)
  else
    let order := rebuiltOrder accepted
    let observed := { engine with
      replaySeenOrderIds := accepted.orderId :: engine.replaySeenOrderIds
      expiryHeap := order.expireTime.elim engine.expiryHeap fun expire =>
        pushExpiry (expire, accepted.orderId) engine.expiryHeap }
    if accepted.orderType.isConditional then
      .ok { observed with stopOrders := engine.stopOrders ++ [order] }
    else
      .ok { observed with orderbook := engine.orderbook.insertOrder order }

/-- The `OrderCanceled` arm. -/
def applyCanceled (engine : MatchingEngine) (orderId : OrderId) :
    Except ApplyError MatchingEngine :=
  if (engine.orderbook.getOrder orderId).isSome then
    .ok { engine with orderbook := engine.orderbook.removeOrder orderId }
  else if engine.stopOrders.any fun stop => stop.orderId = orderId then
    .ok { engine with stopOrders := engine.stopOrders.eraseP fun stop => stop.orderId = orderId }
  else
    .error (.unknownOrder orderId)

/-- The `OrderFilled` arm. -/
def applyFilled (engine : MatchingEngine) (filled : OrderFilled) :
    Except ApplyError MatchingEngine :=
  match engine.orderbook.getOrder filled.orderId with
  | some existing =>
      -- the order rests in the book
      if existing.remainingQty < filled.fillQty then
        .error (.overFill filled.fillQty existing.remainingQty)
      else if filled.remainingQty.isZero then
        .ok { engine with orderbook := engine.orderbook.removeOrder filled.orderId }
      else
        .ok { engine with
          orderbook := engine.orderbook.updateQty filled.orderId filled.remainingQty }
  | none =>
      match engine.stopOrders.find? fun stop => stop.orderId = filled.orderId with
      | some order =>
          -- a conditional order that a mark price update has triggered
          let removed :=
            swapRemoveFirst (fun stop => stop.orderId = filled.orderId) engine.stopOrders
          if order.remainingQty < filled.fillQty then
            .error (.overFill filled.fillQty order.remainingQty)
          else
            let promoted := convertTriggered order
            if !filled.remainingQty.isZero && promoted.orderType.isLimit then
              .ok { engine with
                stopOrders := removed
                orderbook := engine.orderbook.insertOrder
                  (promoted.withRemaining filled.remainingQty) }
            else
              .ok { engine with stopOrders := removed }
      | none =>
          -- a later leg of a sweep whose first leg has settled the order
          if filled.orderId ∈ engine.replaySeenOrderIds then
            .ok engine
          else
            .error (.unknownOrder filled.orderId)

/-- Apply a historical event to the engine state during WAL replay. -/
def applyEvent (engine : MatchingEngine) : Event → Except ApplyError MatchingEngine
  | .orderAccepted accepted => engine.applyAccepted accepted
  | .orderCanceled orderId _ _ _ _ => engine.applyCanceled orderId
  | .orderFilled filled => engine.applyFilled filled
  | .markPriceUpdate _ markPrice indexPrice _ =>
      .ok (engine.applyMarkIndexPassive markPrice indexPrice)
  | .fundingRateUpdate _ fundingRate _ => .ok { engine with lastFundingRate := fundingRate }
  | .liquidationOrder .. => .error (.unexpectedVariant "LiquidationOrder")
  | .orderRejected .. | .tradeExecuted .. | .adminCredited .. | .realizedPnl ..
  | .fundingSettled .. => .ok engine

/-! ## What a record does -/

variable {engine next : MatchingEngine}

@[simp]
theorem rebuiltOrder_orderId (accepted : OrderAccepted) :
    (rebuiltOrder accepted).orderId = accepted.orderId := rfl

/-- The engine once an acceptance has been observed. -/
def observed (engine : MatchingEngine) (accepted : OrderAccepted) : MatchingEngine :=
  { engine with
    replaySeenOrderIds := accepted.orderId :: engine.replaySeenOrderIds
    expiryHeap := (rebuiltOrder accepted).expireTime.elim engine.expiryHeap fun expire =>
      pushExpiry (expire, accepted.orderId) engine.expiryHeap }

theorem applyAccepted_cases {accepted : OrderAccepted}
    (applied : engine.applyAccepted accepted = .ok next) :
    engine.orderbook.getOrder accepted.orderId = none ∧
      ((accepted.orderType.isConditional = true ∧
          next = { engine.observed accepted with
            stopOrders := engine.stopOrders ++ [rebuiltOrder accepted] }) ∨
        (accepted.orderType.isConditional = false ∧
          next = { engine.observed accepted with
            orderbook := engine.orderbook.insertOrder (rebuiltOrder accepted) })) := by
  rw [applyAccepted] at applied
  split at applied
  · cases applied
  · rename_i absent
    refine ⟨by simpa using absent, ?_⟩
    simp only at applied
    split at applied
    · rename_i conditional
      exact Or.inl ⟨conditional, (Except.ok.inj applied).symm⟩
    · rename_i unconditional
      exact Or.inr ⟨by simpa using unconditional, (Except.ok.inj applied).symm⟩

theorem applyAccepted_resting {accepted : OrderAccepted}
    (missing : engine.orderbook.getOrder accepted.orderId = none)
    (unconditional : accepted.orderType.isConditional = false) :
    engine.applyAccepted accepted = .ok { engine.observed accepted with
      orderbook := engine.orderbook.insertOrder (rebuiltOrder accepted) } := by
  simp [applyAccepted, missing, unconditional, observed]

theorem applyAccepted_waiting {accepted : OrderAccepted}
    (missing : engine.orderbook.getOrder accepted.orderId = none)
    (conditional : accepted.orderType.isConditional = true) :
    engine.applyAccepted accepted = .ok { engine.observed accepted with
      stopOrders := engine.stopOrders ++ [rebuiltOrder accepted] } := by
  simp [applyAccepted, missing, conditional, observed]

theorem applyCanceled_resting {orderId : OrderId} {order : BookOrder}
    (found : engine.orderbook.getOrder orderId = some order) :
    engine.applyCanceled orderId =
      .ok { engine with orderbook := engine.orderbook.removeOrder orderId } := by
  simp [applyCanceled, found]

theorem applyCanceled_waiting {orderId : OrderId}
    (missing : engine.orderbook.getOrder orderId = none) {stop : BookOrder}
    (member : stop ∈ engine.stopOrders) (same : stop.orderId = orderId) :
    engine.applyCanceled orderId = .ok { engine with
      stopOrders := engine.stopOrders.eraseP fun stop => stop.orderId = orderId } := by
  have waits : (engine.stopOrders.any fun stop => stop.orderId = orderId) = true :=
    List.any_eq_true.2 ⟨stop, member, by simpa using same⟩
  simp only [applyCanceled, missing, Option.isSome_none, Bool.false_eq_true, if_false, waits,
    if_true]

theorem applyCanceled_missing {orderId : OrderId}
    (missing : engine.orderbook.getOrder orderId = none)
    (applied : engine.applyCanceled orderId = .ok next) :
    next = { engine with
      stopOrders := engine.stopOrders.eraseP fun stop => stop.orderId = orderId } := by
  rw [applyCanceled, missing, if_neg (by simp)] at applied
  split at applied
  · exact (Except.ok.inj applied).symm
  · cases applied

/-- A fill of a resting order is what the matcher does to a maker. -/
theorem applyFilled_resting {filled : OrderFilled} {existing : BookOrder}
    (found : engine.orderbook.getOrder filled.orderId = some existing)
    (fits : filled.fillQty ≤ existing.remainingQty) :
    engine.applyFilled filled = .ok { engine with
      orderbook := engine.orderbook.takeFrom filled.orderId filled.remainingQty } := by
  simp only [applyFilled, found, if_neg (not_lt.2 fits), OrderBook.takeFrom]
  split <;> rfl

theorem applyFilled_fits {filled : OrderFilled} {existing : BookOrder}
    (found : engine.orderbook.getOrder filled.orderId = some existing)
    (applied : engine.applyFilled filled = .ok next) :
    filled.fillQty ≤ existing.remainingQty := by
  by_contra tooMuch
  simp only [applyFilled, found, if_pos (not_le.1 tooMuch)] at applied
  cases applied

/-- What a fill makes of a triggered order. -/
def promote (engine : MatchingEngine) (order : BookOrder) (remaining : Decimal128) :
    MatchingEngine :=
  let removed := { engine with
    stopOrders := swapRemoveFirst (fun stop => stop.orderId = order.orderId) engine.stopOrders }
  if remaining ≠ 0 ∧ (convertTriggered order).orderType.isLimit = true then
    { removed with
      orderbook := engine.orderbook.insertOrder ((convertTriggered order).withRemaining remaining) }
  else
    removed

theorem applyFilled_waiting {filled : OrderFilled} {order : BookOrder}
    (missing : engine.orderbook.getOrder filled.orderId = none)
    (waiting : (engine.stopOrders.find? fun stop => stop.orderId = filled.orderId) = some order)
    (fits : filled.fillQty ≤ order.remainingQty) :
    engine.applyFilled filled = .ok (engine.promote order filled.remainingQty) := by
  have keyed : order.orderId = filled.orderId := by simpa using List.find?_some waiting
  simp only [applyFilled, missing, waiting, if_neg (not_lt.2 fits), promote, keyed,
    Bool.and_eq_true, Bool.not_eq_true', Decimal128.isZero, decide_eq_false_iff_not]
  split <;> rfl

theorem applyFilled_waiting_fits {filled : OrderFilled} {order : BookOrder}
    (missing : engine.orderbook.getOrder filled.orderId = none)
    (waiting : (engine.stopOrders.find? fun stop => stop.orderId = filled.orderId) = some order)
    (applied : engine.applyFilled filled = .ok next) : filled.fillQty ≤ order.remainingQty := by
  by_contra tooMuch
  simp only [applyFilled, missing, waiting, if_pos (not_le.1 tooMuch)] at applied
  cases applied

theorem applyFilled_settled {filled : OrderFilled}
    (missing : engine.orderbook.getOrder filled.orderId = none)
    (notWaiting : filled.orderId ∉ engine.stopOrders.map BookOrder.orderId)
    (seen : filled.orderId ∈ engine.replaySeenOrderIds) :
    engine.applyFilled filled = .ok engine := by
  have nowhere : (engine.stopOrders.find? fun stop => stop.orderId = filled.orderId) = none := by
    simpa [List.find?_eq_none] using notWaiting
  simp only [applyFilled, missing, nowhere, if_pos seen]

theorem applyFilled_settled_eq {filled : OrderFilled}
    (missing : engine.orderbook.getOrder filled.orderId = none)
    (notWaiting : filled.orderId ∉ engine.stopOrders.map BookOrder.orderId)
    (applied : engine.applyFilled filled = .ok next) : next = engine := by
  have nowhere : (engine.stopOrders.find? fun stop => stop.orderId = filled.orderId) = none := by
    simpa [List.find?_eq_none] using notWaiting
  simp only [applyFilled, missing, nowhere] at applied
  split at applied
  · exact (Except.ok.inj applied).symm
  · cases applied

end MatchingEngine
end Exg
