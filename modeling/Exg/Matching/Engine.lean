import Exg.Matching.Matcher
import Exg.Protocol
import Exg.Support.SwapScan

/-!
# The matching engine

Every handler takes the engine and returns it together with the events it emits.  Two
things the source reads from outside are parameters: the ids the trade id generator will
issue (they come from the clock) and the engine's configuration.  The expiry heap is kept
as the list in which it would be popped.
-/

namespace Exg

open Support

/-- What the engine reads of the symbol's configuration. -/
structure SymbolConfig where
  symbol : SymbolId
  lotSize : Decimal128
  makerFee : Decimal128
  takerFee : Decimal128
  deriving DecidableEq, Repr

/-- The trade ids that will be issued, and how many have been. -/
structure TradeIdGen where
  ids : Nat → TradeId
  issued : Nat

namespace TradeIdGen

def nextId (gen : TradeIdGen) : TradeId × TradeIdGen :=
  (gen.ids gen.issued, { gen with issued := gen.issued + 1 })

end TradeIdGen

/-- The main matching engine for a single symbol. -/
structure MatchingEngine where
  orderbook : OrderBook
  symbolConfig : SymbolConfig
  markPrice : Decimal128
  indexPrice : Decimal128
  /-- Conditional orders waiting for trigger (stop/take-profit/trailing). -/
  stopOrders : List BookOrder
  /-- GTD expiry tracking, in (expire time, order id) order. -/
  expiryHeap : List (UnixMicros × OrderId)
  tradeIdGen : TradeIdGen
  sequence : Nat
  interestRate : Decimal128
  lastFundingRate : Decimal128
  /-- Replay only: order ids observed during the current replay. -/
  replaySeenOrderIds : List OrderId

/-- Push onto the expiry heap. -/
def pushExpiry (entry : UnixMicros × OrderId) :
    List (UnixMicros × OrderId) → List (UnixMicros × OrderId)
  | [] => [entry]
  | head :: tail =>
      if entry.1 < head.1 ∨ (entry.1 = head.1 ∧ entry.2 ≤ head.2) then
        entry :: head :: tail
      else
        head :: pushExpiry entry tail

/-! ## Orders and events built from a command -/

/-- The limit price of limit types, a sentinel for market types. -/
def effectivePrice (order : NewOrder) : Option Decimal128 :=
  match order.orderType with
  | .limit | .stopLimit | .takeProfitLimit | .iceberg =>
      order.price.filter Decimal128.isPositive
  | .market | .stopMarket | .takeProfitMarket | .trailingStop =>
      match order.side with
      | .buy => some .maxValue
      | .sell => some 0

/-- An iceberg order must show at least ten lots. -/
def icebergAccepted (config : SymbolConfig) (order : NewOrder) : Bool :=
  if order.orderType = .iceberg then
    order.visibleQuantity.any fun visible => decide (config.lotSize * .ofInt 10 ≤ visible)
  else
    true

/-- The part of an order that is shown, and the part that is hidden. -/
def splitQuantity (order : NewOrder) : Decimal128 × Decimal128 :=
  if order.orderType = .iceberg then
    let visible := min (order.visibleQuantity.getD order.quantity) order.quantity
    (visible, order.quantity - visible)
  else
    (order.quantity, 0)

/-- The default GTD lifetime. -/
def twentyFourHoursMicros : Nat := 24 * 3600 * 1000000

def defaultExpiry (timeInForce : TimeInForce) (timestamp : UnixMicros) : Option UnixMicros :=
  if timeInForce = .gtd then some (timestamp + twentyFourHoursMicros) else none

def newBookOrder (markPrice : Decimal128) (order : NewOrder) (price : Decimal128) : BookOrder where
  orderId := order.orderId
  userId := order.userId
  symbol := order.symbol
  side := order.side
  price := price
  remainingQty := (splitQuantity order).1
  originalQty := order.quantity
  orderType := order.orderType
  timeInForce := order.timeInForce
  isReduceOnly := order.reduceOnly
  timestamp := order.timestamp
  visibleQty := order.visibleQuantity
  hiddenQty := (splitQuantity order).2
  trailingDelta := order.trailingDelta
  trailingPeakPrice := if order.trailingDelta.isSome then some markPrice else none
  expireTime := defaultExpiry order.timeInForce order.timestamp
  clientOrderId := order.clientOrderId
  stopPrice := order.stopPrice

/-- `OrderAccepted` for an order as it stands.  The source writes this record five times;
for a new order its fields are those of the order just built. -/
def acceptedOf (order : BookOrder) (symbol : SymbolId) (timestamp : UnixMicros) :
    OrderAccepted where
  orderId := order.orderId
  userId := order.userId
  symbol := symbol
  clientOrderId := order.clientOrderId
  timestamp := timestamp
  side := order.side
  orderType := order.orderType
  timeInForce := order.timeInForce
  price := order.price
  quantity := order.originalQty
  stopPrice := order.stopPrice
  reduceOnly := order.isReduceOnly
  visibleQuantity := order.visibleQty
  trailingDelta := order.trailingDelta
  trailingPeakPrice := order.trailingPeakPrice

/-- The reason of a refused match. -/
def refusal (timeInForce : TimeInForce) : RejectReason :=
  if timeInForce = .postOnly then .postOnlyWouldTake else .fokNotFillable

/-! ## Fill events -/

/-- The maker leg, the taker leg and the trade of one fill.  The remaining quantities are
those of the book and the taker after the whole match. -/
def fillEvents (config : SymbolConfig) (book : OrderBook) (symbol : SymbolId)
    (timestamp : UnixMicros) (taker : BookOrder) (tradeId : TradeId) (fill : Fill) : List Event :=
  let notional := fill.price * fill.quantity
  let makerFee := notional * config.makerFee
  let takerFee := notional * config.takerFee
  let buying := fill.takerSide = .buy
  [.orderFilled
    { orderId := fill.makerOrderId
      tradeId := tradeId
      userId := fill.makerUserId
      symbol := symbol
      side := fill.takerSide.opposite
      fillPrice := fill.price
      fillQty := fill.quantity
      isMaker := true
      remainingQty := (book.getOrder fill.makerOrderId).elim 0 BookOrder.remainingQty
      timestamp := timestamp },
   .orderFilled
    { orderId := fill.takerOrderId
      tradeId := tradeId
      userId := fill.takerUserId
      symbol := symbol
      side := fill.takerSide
      fillPrice := fill.price
      fillQty := fill.quantity
      isMaker := false
      remainingQty := taker.remainingQty
      timestamp := timestamp },
   .tradeExecuted
    { tradeId := tradeId
      symbol := symbol
      price := fill.price
      qty := fill.quantity
      buyerOrderId := if buying then fill.takerOrderId else fill.makerOrderId
      sellerOrderId := if buying then fill.makerOrderId else fill.takerOrderId
      buyerUserId := if buying then fill.takerUserId else fill.makerUserId
      sellerUserId := if buying then fill.makerUserId else fill.takerUserId
      buyerFee := if buying then takerFee else makerFee
      sellerFee := if buying then makerFee else takerFee
      timestamp := timestamp }]

/-- Emit fill and trade events from fills. -/
def emitFillEvents (config : SymbolConfig) (book : OrderBook) (symbol : SymbolId)
    (timestamp : UnixMicros) (taker : BookOrder) :
    TradeIdGen → List Fill → TradeIdGen × List Event
  | gen, [] => (gen, [])
  | gen, fill :: rest =>
      let later := emitFillEvents config book symbol timestamp taker gen.nextId.2 rest
      (later.1, fillEvents config book symbol timestamp taker gen.nextId.1 fill ++ later.2)

namespace MatchingEngine

def new (config : SymbolConfig) (ids : Nat → TradeId) (interestRate : Decimal128) :
    MatchingEngine where
  orderbook := .new config.symbol
  symbolConfig := config
  markPrice := 0
  indexPrice := 0
  stopOrders := []
  expiryHeap := []
  tradeIdGen := ⟨ids, 0⟩
  sequence := 0
  interestRate := interestRate
  lastFundingRate := 0
  replaySeenOrderIds := []

/-- Take over the book a match has left and emit the match's fill events. -/
def absorb (engine : MatchingEngine) (result : MatchResult) (symbol : SymbolId)
    (timestamp : UnixMicros) : MatchingEngine × List Event :=
  let emitted := emitFillEvents engine.symbolConfig result.book symbol timestamp result.taker
    engine.tradeIdGen result.fills
  ({ engine with orderbook := result.book, tradeIdGen := emitted.1 }, emitted.2)

/-! ## New orders -/

/-- Show the next slice of an iceberg order whose visible part was filled. -/
def refillIceberg (timestamp : UnixMicros) (order : BookOrder) : BookOrder :=
  if order.orderType = .iceberg ∧ order.remainingQty = 0 ∧ order.hiddenQty ≠ 0 then
    let refill := min (order.visibleQty.getD order.originalQty) order.hiddenQty
    { order with
      hiddenQty := order.hiddenQty - refill
      remainingQty := refill
      timestamp := timestamp }
  else
    order

/-- Rest an order on the book. -/
def restOnBook (engine : MatchingEngine) (order : BookOrder) : MatchingEngine :=
  { engine with
    orderbook := engine.orderbook.insertOrder order
    expiryHeap := order.expireTime.elim engine.expiryHeap fun expire =>
      pushExpiry (expire, order.orderId) engine.expiryHeap }

/-- Place what is left of a new order. -/
def placeRemaining (engine : MatchingEngine) (order : BookOrder) (timestamp : UnixMicros) :
    MatchingEngine × List Event :=
  if order.remainingQty.isZero then
    (engine, [])
  else
    let canceled : Event :=
      .orderCanceled order.orderId order.userId order.symbol order.remainingQty timestamp
    match order.timeInForce with
    | .ioc | .fok => (engine, [canceled])
    | .gtc | .gtd | .postOnly =>
        if order.orderType.isLimit || order.orderType = .iceberg then
          (engine.restOnBook order, [])
        else
          (engine, [canceled])

/-- The second half of `handle_new_order`: match, emit, refill and place. -/
def matchNewOrder (engine : MatchingEngine) (order : BookOrder) (timestamp : UnixMicros) :
    MatchingEngine × List Event :=
  let result := matchOrder engine.orderbook order
  if result.rejected then
    ({ engine with orderbook := result.book },
      [.orderRejected order.orderId order.userId (refusal order.timeInForce) timestamp])
  else
    let absorbed := engine.absorb result order.symbol timestamp
    let placed := absorbed.1.placeRemaining (refillIceberg timestamp result.taker) timestamp
    (placed.1, .orderAccepted (acceptedOf order order.symbol timestamp) :: absorbed.2 ++ placed.2)

/-- Process NewOrder command. -/
def handleNewOrder (engine : MatchingEngine) (order : NewOrder) : MatchingEngine × List Event :=
  let rejected (reason : RejectReason) : MatchingEngine × List Event :=
    (engine, [.orderRejected order.orderId order.userId reason order.timestamp])
  if order.quantity.isZero || order.quantity.isNegative then
    rejected .invalidOrder
  else if (engine.orderbook.getOrder order.orderId).isSome then
    rejected .duplicateOrder
  else
    match effectivePrice order with
    | none => rejected .invalidOrder
    | some price =>
        if icebergAccepted engine.symbolConfig order then
          let bookOrder := newBookOrder engine.markPrice order price
          if order.orderType.isConditional then
            ({ engine with stopOrders := engine.stopOrders ++ [bookOrder] },
              [.orderAccepted (acceptedOf bookOrder order.symbol order.timestamp)])
          else
            engine.matchNewOrder bookOrder order.timestamp
        else
          rejected .invalidOrder

/-! ## Cancel, amend, cancel all -/

/-- Process CancelOrder command.  An order of another user is taken out and put back. -/
def handleCancelOrder (engine : MatchingEngine) (orderId : OrderId) (userId : UserId)
    (timestamp : UnixMicros) : MatchingEngine × List Event :=
  let rejected : List Event := [.orderRejected orderId userId .orderNotFound timestamp]
  let canceled (order : BookOrder) : List Event :=
    [.orderCanceled orderId userId order.symbol order.remainingQty timestamp]
  match engine.orderbook.getOrder orderId with
  | some order =>
      let removed := engine.orderbook.removeOrder orderId
      if order.userId ≠ userId then
        ({ engine with orderbook := removed.insertOrder order }, rejected)
      else
        ({ engine with orderbook := removed }, canceled order)
  | none =>
      match engine.stopOrders.find? fun stop => stop.orderId = orderId with
      | some order =>
          let removed := engine.stopOrders.eraseP fun stop => stop.orderId = orderId
          if order.userId ≠ userId then
            ({ engine with stopOrders := removed ++ [order] }, rejected)
          else
            ({ engine with stopOrders := removed }, canceled order)
      | none => (engine, rejected)

/-- An order with the price and quantity an amendment gives it. -/
def amendedOrder (order : BookOrder) (amend : AmendOrder) : BookOrder :=
  { order with
    price := amend.newPrice.getD order.price
    remainingQty := amend.newQuantity.getD order.remainingQty
    originalQty := amend.newQuantity.getD order.remainingQty
    timestamp := amend.timestamp }

/-- Whether an amendment moves the price or raises the quantity. -/
def losesPriority (order : BookOrder) (amend : AmendOrder) : Bool :=
  amend.newPrice.any (fun price => decide (price ≠ order.price)) ||
    amend.newQuantity.any (fun quantity => decide (order.remainingQty < quantity))

/-- Cancel and re-insert. -/
def reinsertAmended (engine : MatchingEngine) (old : BookOrder) (amend : AmendOrder) :
    MatchingEngine × List Event :=
  let removed := engine.orderbook.removeOrder amend.orderId
  let canceled : Event :=
    .orderCanceled amend.orderId amend.userId amend.symbol old.remainingQty amend.timestamp
  let rejected (reason : RejectReason) : Event :=
    .orderRejected amend.orderId amend.userId reason amend.timestamp
  let amended := amendedOrder old amend
  if amended.remainingQty.isZero || amended.remainingQty.isNegative ||
      amended.price.isZero || amended.price.isNegative then
    ({ engine with orderbook := removed }, [canceled, rejected .invalidOrder])
  else
    let result := matchOrder removed amended
    if result.rejected then
      ({ engine with orderbook := result.book }, [canceled, rejected (refusal old.timeInForce)])
    else
      let absorbed := engine.absorb result amend.symbol amend.timestamp
      let events := canceled ::
        .orderAccepted (acceptedOf result.taker amend.symbol amend.timestamp) :: absorbed.2
      if result.taker.remainingQty.isZero || !result.taker.orderType.isLimit then
        (absorbed.1, events)
      else
        ({ absorbed.1 with orderbook := absorbed.1.orderbook.insertOrder result.taker }, events)

/-- Process AmendOrder command. -/
def handleAmendOrder (engine : MatchingEngine) (amend : AmendOrder) :
    MatchingEngine × List Event :=
  let rejected (reason : RejectReason) : MatchingEngine × List Event :=
    (engine, [.orderRejected amend.orderId amend.userId reason amend.timestamp])
  match engine.orderbook.getOrder amend.orderId with
  | none => rejected .orderNotFound
  | some existing =>
      if existing.userId ≠ amend.userId then
        rejected .orderNotFound
      else if losesPriority existing amend then
        engine.reinsertAmended existing amend
      else
        match amend.newQuantity.filter (· < existing.remainingQty) with
        | some newQuantity =>
            -- quantity decrease only: in-place modify (keeps time priority)
            if newQuantity.isZero || newQuantity.isNegative then
              rejected .invalidOrder
            else
              ({ engine with
                  orderbook := engine.orderbook.updateQty amend.orderId newQuantity },
                [.orderAccepted (acceptedOf existing amend.symbol amend.timestamp)])
        | none =>
            (engine, [.orderAccepted (acceptedOf existing amend.symbol amend.timestamp)])

/-- Process CancelAllOrders command. -/
def handleCancelAll (engine : MatchingEngine) (userId : UserId) (symbol : SymbolId)
    (timestamp : UnixMicros) : MatchingEngine × List Event :=
  let canceled (order : BookOrder) : Event :=
    .orderCanceled order.orderId userId symbol order.remainingQty timestamp
  let fromBook := engine.orderbook.cancelAllUserOrders userId
  let fromStops := swapScan
    (fun stop => decide (stop.userId = userId) && decide (stop.symbol = symbol)) engine.stopOrders
  ({ engine with orderbook := fromBook.1, stopOrders := fromStops.2 },
    fromBook.2.map canceled ++ fromStops.1.map canceled)

/-! ## Mark price, stops and funding -/

/-- Update the trailing peak price of one order. -/
def updateTrailingPeak (markPrice : Decimal128) (order : BookOrder) : BookOrder :=
  if order.orderType = .trailingStop then
    match order.side with
    | .sell => { order with trailingPeakPrice := order.trailingPeakPrice.map (max markPrice) }
    | .buy => { order with trailingPeakPrice := order.trailingPeakPrice.map (min markPrice) }
  else
    order

/-- Passive: set mark/index price and reconstruct trailing-peak state. -/
def applyMarkIndexPassive (engine : MatchingEngine) (mark index : Decimal128) : MatchingEngine :=
  { engine with
    markPrice := mark
    indexPrice := index
    stopOrders := engine.stopOrders.map (updateTrailingPeak mark) }

/-- Whether a waiting order is triggered at a mark price. -/
def shouldTrigger (mark : Decimal128) (order : BookOrder) : Bool :=
  match order.orderType with
  | .stopMarket | .stopLimit =>
      match order.side with
      | .buy => decide (order.stopPrice.getD 0 ≤ mark)
      | .sell => decide (mark ≤ order.stopPrice.getD 0)
  | .takeProfitMarket | .takeProfitLimit =>
      match order.side with
      | .buy => decide (mark ≤ order.stopPrice.getD 0)
      | .sell => decide (order.stopPrice.getD 0 ≤ mark)
  | .trailingStop =>
      match order.trailingDelta, order.trailingPeakPrice, order.side with
      | some delta, some peak, .sell => decide (mark ≤ peak - delta)
      | some delta, some peak, .buy => decide (peak + delta ≤ mark)
      | _, _, _ => false
  | .limit | .market | .iceberg => false

/-- The order a triggered one is matched as. -/
def convertTriggered (order : BookOrder) : BookOrder :=
  match order.orderType with
  | .stopMarket | .takeProfitMarket | .trailingStop =>
      { order with
        orderType := .market
        price := match order.side with
          | .buy => .maxValue
          | .sell => 0 }
  | .stopLimit | .takeProfitLimit => { order with orderType := .limit }
  | .limit | .market | .iceberg => order

/-- Run one triggered order through the matcher. -/
def triggerOne (engine : MatchingEngine) (order : BookOrder) (timestamp : UnixMicros) :
    MatchingEngine × List Event :=
  let result := matchOrder engine.orderbook (convertTriggered order)
  if result.rejected then
    ({ engine with orderbook := result.book }, [])
  else
    let absorbed := engine.absorb result result.taker.symbol timestamp
    if result.taker.remainingQty.isZero || !result.taker.orderType.isLimit then
      absorbed
    else
      ({ absorbed.1 with orderbook := absorbed.1.orderbook.insertOrder result.taker }, absorbed.2)

def triggerAll (timestamp : UnixMicros) :
    MatchingEngine → List BookOrder → MatchingEngine × List Event
  | engine, [] => (engine, [])
  | engine, order :: rest =>
      let first := engine.triggerOne order timestamp
      let later := triggerAll timestamp first.1 rest
      (later.1, first.2 ++ later.2)

/-- Active half: check stop triggers and run them through the matcher. -/
def triggerAndMatchStops (engine : MatchingEngine) (timestamp : UnixMicros) :
    MatchingEngine × List Event :=
  let scanned := swapScan (shouldTrigger engine.markPrice) engine.stopOrders
  triggerAll timestamp { engine with stopOrders := scanned.2 } scanned.1

def updateMarkPrice (engine : MatchingEngine) (symbol : SymbolId) (mark index : Decimal128)
    (timestamp : UnixMicros) : MatchingEngine × List Event :=
  let triggered := (engine.applyMarkIndexPassive mark index).triggerAndMatchStops timestamp
  (triggered.1, .markPriceUpdate symbol mark index timestamp :: triggered.2)

/-- Funding rate = clamp(premium_index + interest_rate, -0.75%, +0.75%). -/
def calcFundingRate (premiumIndex interestRate : Decimal128) : Decimal128 :=
  min (max (premiumIndex + interestRate) ⟨-7500000000000000⟩) ⟨7500000000000000⟩

/-- Compute the funding rate from the instantaneous premium. -/
def computeFunding (engine : MatchingEngine) (symbol : SymbolId) (timestamp : UnixMicros) :
    MatchingEngine × List Event :=
  let premium :=
    if engine.indexPrice.isZero then
      0
    else
      (engine.markPrice - engine.indexPrice) / engine.indexPrice
  let rate := calcFundingRate premium engine.interestRate
  ({ engine with lastFundingRate := rate }, [.fundingRateUpdate symbol rate timestamp])

/-! ## Expiry -/

/-- Pop every due entry and cancel the order of its id, if one is on the book. -/
def expireEntries (now : UnixMicros) (book : OrderBook) :
    List (UnixMicros × OrderId) → OrderBook × List (UnixMicros × OrderId) × List Event
  | [] => (book, [], [])
  | entry :: rest =>
      if now < entry.1 then
        (book, entry :: rest, [])
      else
        match book.getOrder entry.2 with
        | none => expireEntries now book rest
        | some order =>
            let later := expireEntries now (book.removeOrder entry.2) rest
            (later.1, later.2.1,
              .orderCanceled entry.2 order.userId order.symbol order.remainingQty now ::
                later.2.2)

/-- Check and expire GTD orders. -/
def checkExpirations (engine : MatchingEngine) (now : UnixMicros) : MatchingEngine × List Event :=
  let expired := expireEntries now engine.orderbook engine.expiryHeap
  ({ engine with orderbook := expired.1, expiryHeap := expired.2.1 }, expired.2.2)

/-! ## Commands and sweeps -/

/-- Process a single command. Returns generated events. -/
def processCommand (engine : MatchingEngine) (command : Command) : MatchingEngine × List Event :=
  let engine := { engine with sequence := engine.sequence + 1 }
  match command with
  | .newOrder order => engine.handleNewOrder order
  | .cancelOrder orderId userId _ timestamp => engine.handleCancelOrder orderId userId timestamp
  | .amendOrder amend => engine.handleAmendOrder amend
  | .cancelAllOrders userId symbol timestamp => engine.handleCancelAll userId symbol timestamp
  | .updateMarkPrice symbol mark index timestamp =>
      engine.updateMarkPrice symbol mark index timestamp
  | .computeFunding symbol timestamp => engine.computeFunding symbol timestamp
  | .adminCredit .. => (engine, [])

/-- What drives an engine: commands from the ring buffer, and the expiry sweeper. -/
inductive EngineInput where
  | command (command : Command)
  | expirySweep (now : UnixMicros)
  deriving DecidableEq, Repr

def step (engine : MatchingEngine) : EngineInput → MatchingEngine × List Event
  | .command command => engine.processCommand command
  | .expirySweep now => engine.checkExpirations now

/-! ## Sample inputs -/

/-- A limit order as the gateway builds it. -/
def gatewayOrder (orderId : OrderId) (userId : UserId) (side : Side) (price quantity : Int) :
    NewOrder where
  orderId := orderId
  userId := userId
  symbol := 1
  side := side
  orderType := .limit
  timeInForce := .gtc
  price := some (.ofInt price)
  quantity := .ofInt quantity
  stopPrice := none
  trailingDelta := none
  visibleQuantity := none
  reduceOnly := false
  marginMode := .cross
  leverage := none
  clientOrderId := none
  timestamp := 0

/-- Zero fees and a unit lot. -/
def plainConfig : SymbolConfig where
  symbol := 1
  lotSize := .ofInt 1
  makerFee := 0
  takerFee := 0

end MatchingEngine
end Exg
