import Exg.Matching.BookOperations
import Exg.Matching.CheckedBook

/-!
# The engine, with its panics

New, cancel and amend commands as the engine processes them when every operator may panic.  An
`unwrap` of nothing is a panic as well.  The other commands do not come from the gateway's
converters and are left out.
-/

namespace Exg

open Support

/-! ## Orders built from a command -/

def icebergAccepted? (config : SymbolConfig) (order : NewOrder) : Option Bool :=
  if order.orderType = .iceberg then
    match order.visibleQuantity with
    | none => some false
    | some _ => (config.lotSize.mul? (.ofInt 10)).map fun _ => icebergAccepted config order
  else
    some true

def splitQuantity? (order : NewOrder) : Option (Decimal128 × Decimal128) :=
  if order.orderType = .iceberg then do
    let shown ← order.visibleQuantity
    let visible := min shown order.quantity
    let hidden ← order.quantity.sub? visible
    some (visible, hidden)
  else
    some (order.quantity, 0)

def defaultExpiry? (timeInForce : TimeInForce) (timestamp : UnixMicros) :
    Option (Option UnixMicros) :=
  if timeInForce = .gtd then
    (addWord? timestamp twentyFourHoursMicros).map some
  else
    some none

def newBookOrder? (markPrice : Decimal128) (order : NewOrder) (price : Decimal128) :
    Option BookOrder := do
  let parts ← splitQuantity? order
  let expireTime ← defaultExpiry? order.timeInForce order.timestamp
  some { newBookOrder markPrice order price with
    remainingQty := parts.1
    hiddenQty := parts.2
    expireTime := expireTime }

/-! ## Fill events -/

def fillEvents? (config : SymbolConfig) (book : OrderBook) (symbol : SymbolId)
    (timestamp : UnixMicros) (taker : BookOrder) (tradeId : TradeId) (fill : Fill) :
    Option (List Event) := do
  let notional ← fill.price.mul? fill.quantity
  let _ ← notional.mul? config.makerFee
  let _ ← notional.mul? config.takerFee
  some (fillEvents config book symbol timestamp taker tradeId fill)

def emitFillEvents? (config : SymbolConfig) (book : OrderBook) (symbol : SymbolId)
    (timestamp : UnixMicros) (taker : BookOrder) :
    TradeIdGen → List Fill → Option (TradeIdGen × List Event)
  | gen, [] => some (gen, [])
  | gen, fill :: rest => do
      let events ← fillEvents? config book symbol timestamp taker gen.nextId.1 fill
      let later ← emitFillEvents? config book symbol timestamp taker gen.nextId.2 rest
      some (later.1, events ++ later.2)

namespace MatchingEngine

def absorb? (engine : MatchingEngine) (result : MatchResult) (symbol : SymbolId)
    (timestamp : UnixMicros) : Option (MatchingEngine × List Event) := do
  let emitted ← emitFillEvents? engine.symbolConfig result.book symbol timestamp result.taker
    engine.tradeIdGen result.fills
  some ({ engine with orderbook := result.book, tradeIdGen := emitted.1 }, emitted.2)

/-! ## New orders -/

def refillIceberg? (timestamp : UnixMicros) (order : BookOrder) : Option BookOrder :=
  if order.orderType = .iceberg ∧ order.remainingQty = 0 ∧ order.hiddenQty ≠ 0 then do
    let refill := min (order.visibleQty.getD order.originalQty) order.hiddenQty
    let hidden ← order.hiddenQty.sub? refill
    some { order with
      hiddenQty := hidden
      remainingQty := refill
      timestamp := timestamp }
  else
    some order

def restOnBook? (engine : MatchingEngine) (order : BookOrder) : Option MatchingEngine := do
  let book ← engine.orderbook.insertOrder? order
  some { engine with
    orderbook := book
    expiryHeap := order.expireTime.elim engine.expiryHeap fun expire =>
      pushExpiry (expire, order.orderId) engine.expiryHeap }

def placeRemaining? (engine : MatchingEngine) (order : BookOrder) (timestamp : UnixMicros) :
    Option (MatchingEngine × List Event) :=
  if order.remainingQty.isZero then
    some (engine, [])
  else
    let canceled : Event :=
      .orderCanceled order.orderId order.userId order.symbol order.remainingQty timestamp
    match order.timeInForce with
    | .ioc | .fok => some (engine, [canceled])
    | .gtc | .gtd | .postOnly =>
        if order.orderType.isLimit || order.orderType = .iceberg then
          (engine.restOnBook? order).map fun rested => (rested, [])
        else
          some (engine, [canceled])

def matchNewOrder? (engine : MatchingEngine) (order : BookOrder) (timestamp : UnixMicros) :
    Option (MatchingEngine × List Event) := do
  let result ← matchOrder? engine.orderbook order
  if result.rejected then
    some ({ engine with orderbook := result.book },
      [.orderRejected order.orderId order.userId (refusal order.timeInForce) timestamp])
  else do
    let absorbed ← engine.absorb? result order.symbol timestamp
    let refilled ← refillIceberg? timestamp result.taker
    let placed ← absorbed.1.placeRemaining? refilled timestamp
    some (placed.1,
      .orderAccepted (acceptedOf order order.symbol timestamp) :: absorbed.2 ++ placed.2)

/-- Build an order that passed the checks, and let it wait or match it. -/
def acceptNewOrder? (engine : MatchingEngine) (order : NewOrder) (price : Decimal128) :
    Option (MatchingEngine × List Event) := do
  let bookOrder ← newBookOrder? engine.markPrice order price
  if order.orderType.isConditional then
    some ({ engine with stopOrders := engine.stopOrders ++ [bookOrder] },
      [.orderAccepted (acceptedOf bookOrder order.symbol order.timestamp)])
  else
    engine.matchNewOrder? bookOrder order.timestamp

def handleNewOrder? (engine : MatchingEngine) (order : NewOrder) :
    Option (MatchingEngine × List Event) :=
  let rejected (reason : RejectReason) : MatchingEngine × List Event :=
    (engine, [.orderRejected order.orderId order.userId reason order.timestamp])
  if order.quantity.isZero || order.quantity.isNegative then
    some (rejected .invalidOrder)
  else if (engine.orderbook.getOrder order.orderId).isSome then
    some (rejected .duplicateOrder)
  else
    match effectivePrice order with
    | none => some (rejected .invalidOrder)
    | some price => do
        let accepted ← icebergAccepted? engine.symbolConfig order
        if accepted then
          engine.acceptNewOrder? order price
        else
          some (rejected .invalidOrder)

/-! ## Cancel and amend -/

def handleCancelOrder? (engine : MatchingEngine) (orderId : OrderId) (userId : UserId)
    (timestamp : UnixMicros) : Option (MatchingEngine × List Event) :=
  match engine.orderbook.getOrder orderId with
  -- an order that waits for its trigger is found and removed without arithmetic
  | none => some (engine.handleCancelOrder orderId userId timestamp)
  | some order => do
      let removed ← engine.orderbook.removeOrder? orderId
      if order.userId ≠ userId then do
        let restored ← removed.insertOrder? order
        some ({ engine with orderbook := restored },
          [.orderRejected orderId userId .orderNotFound timestamp])
      else
        some ({ engine with orderbook := removed },
          [.orderCanceled orderId userId order.symbol order.remainingQty timestamp])

def reinsertAmended? (engine : MatchingEngine) (amend : AmendOrder) :
    Option (MatchingEngine × List Event) := do
  let old ← engine.orderbook.getOrder amend.orderId
  let removed ← engine.orderbook.removeOrder? amend.orderId
  let canceled : Event :=
    .orderCanceled amend.orderId amend.userId amend.symbol old.remainingQty amend.timestamp
  let rejected (reason : RejectReason) : Event :=
    .orderRejected amend.orderId amend.userId reason amend.timestamp
  let amended := amendedOrder old amend
  if amended.remainingQty.isZero || amended.remainingQty.isNegative ||
      amended.price.isZero || amended.price.isNegative then
    some ({ engine with orderbook := removed }, [canceled, rejected .invalidOrder])
  else do
    let result ← matchOrder? removed amended
    if result.rejected then
      some ({ engine with orderbook := result.book },
        [canceled, rejected (refusal old.timeInForce)])
    else do
      let absorbed ← engine.absorb? result amend.symbol amend.timestamp
      let events := canceled ::
        .orderAccepted (acceptedOf result.taker amend.symbol amend.timestamp) :: absorbed.2
      if result.taker.remainingQty.isZero || !result.taker.orderType.isLimit then
        some (absorbed.1, events)
      else do
        let rested ← absorbed.1.orderbook.insertOrder? result.taker
        some ({ absorbed.1 with orderbook := rested }, events)

def handleAmendOrder? (engine : MatchingEngine) (amend : AmendOrder) :
    Option (MatchingEngine × List Event) :=
  let rejected (reason : RejectReason) : MatchingEngine × List Event :=
    (engine, [.orderRejected amend.orderId amend.userId reason amend.timestamp])
  match engine.orderbook.getOrder amend.orderId with
  | none => some (rejected .orderNotFound)
  | some existing =>
      if existing.userId ≠ amend.userId then
        some (rejected .orderNotFound)
      else if losesPriority existing amend then
        engine.reinsertAmended? amend
      else
        match amend.newQuantity.filter (· < existing.remainingQty) with
        | some newQuantity =>
            if newQuantity.isZero || newQuantity.isNegative then
              some (rejected .invalidOrder)
            else do
              let book ← engine.orderbook.updateQty? amend.orderId newQuantity
              let updated ← book.getOrder amend.orderId
              some ({ engine with orderbook := book },
                [.orderAccepted (acceptedOf updated amend.symbol amend.timestamp)])
        | none =>
            some (engine, [.orderAccepted (acceptedOf existing amend.symbol amend.timestamp)])

/-- The commands that the gateway's converters produce. -/
inductive GatewayCommand where
  | newOrder (order : NewOrder)
  | cancelOrder (orderId : OrderId) (userId : UserId) (symbol : SymbolId)
      (timestamp : UnixMicros)
  | amendOrder (amend : AmendOrder)
  deriving DecidableEq, Repr

def GatewayCommand.toCommand : GatewayCommand → Command
  | .newOrder order => .newOrder order
  | .cancelOrder orderId userId symbol timestamp => .cancelOrder orderId userId symbol timestamp
  | .amendOrder amend => .amendOrder amend

/-- `process_command`; nothing is the outcome of a panic. -/
def processCommand? (engine : MatchingEngine) (command : GatewayCommand) :
    Option (MatchingEngine × List Event) := do
  let sequence ← addWord? engine.sequence 1
  let engine := { engine with sequence := sequence }
  match command with
  | .newOrder order => engine.handleNewOrder? order
  | .cancelOrder orderId userId _ timestamp => engine.handleCancelOrder? orderId userId timestamp
  | .amendOrder amend => engine.handleAmendOrder? amend

/-- The same command without panics. -/
def processGateway (engine : MatchingEngine) (command : GatewayCommand) :
    MatchingEngine × List Event :=
  engine.processCommand command.toCommand

end MatchingEngine
end Exg
