import Exg.Matching.CheckedEngine

/-!
# Every command of the engine, with its panics

The commands that do not come from the gateway's converters, and the sweep of expired orders, as
the engine processes them when every operator may panic.  Where a step has a result, it is the
result of exact numbers (`agrees_step`).
-/

namespace Exg

open Support

namespace MatchingEngine

/-! ## Cancel all -/

def handleCancelAll? (engine : MatchingEngine) (userId : UserId) (symbol : SymbolId)
    (timestamp : UnixMicros) : Option (MatchingEngine × List Event) := do
  let canceled (order : BookOrder) : Event :=
    .orderCanceled order.orderId userId symbol order.remainingQty timestamp
  let fromBook ← engine.orderbook.cancelAllUserOrders? userId
  let fromStops := swapScan
    (fun stop => decide (stop.userId = userId) && decide (stop.symbol = symbol)) engine.stopOrders
  some ({ engine with orderbook := fromBook.1, stopOrders := fromStops.2 },
    fromBook.2.map canceled ++ fromStops.1.map canceled)

/-! ## Mark price, stops and funding -/

/-- The check of a waiting order computes only for a trailing stop. -/
def shouldTrigger? (mark : Decimal128) (order : BookOrder) : Option Bool :=
  match order.orderType, order.trailingDelta, order.trailingPeakPrice with
  | .trailingStop, some delta, some peak =>
      match order.side with
      | .sell => (peak.sub? delta).map fun threshold => decide (mark ≤ threshold)
      | .buy => (peak.add? delta).map fun threshold => decide (threshold ≤ mark)
  | _, _, _ => some (shouldTrigger mark order)

/-- The loop looks at each waiting order once. -/
def checkStopTriggersInternal? (engine : MatchingEngine) :
    Option (MatchingEngine × List BookOrder) := do
  let _ ← engine.stopOrders.mapM (shouldTrigger? engine.markPrice)
  let scanned := swapScan (shouldTrigger engine.markPrice) engine.stopOrders
  some ({ engine with stopOrders := scanned.2 }, scanned.1)

def triggerOne? (engine : MatchingEngine) (order : BookOrder) (timestamp : UnixMicros) :
    Option (MatchingEngine × List Event) := do
  let result ← matchOrder? engine.orderbook (convertTriggered order)
  if result.rejected then
    some ({ engine with orderbook := result.book }, [])
  else do
    let absorbed ← engine.absorb? result result.taker.symbol timestamp
    if result.taker.remainingQty.isZero || !result.taker.orderType.isLimit then
      some absorbed
    else do
      let rested ← absorbed.1.orderbook.insertOrder? result.taker
      some ({ absorbed.1 with orderbook := rested }, absorbed.2)

def triggerAll? (timestamp : UnixMicros) :
    MatchingEngine → List BookOrder → Option (MatchingEngine × List Event)
  | engine, [] => some (engine, [])
  | engine, order :: rest => do
      let first ← engine.triggerOne? order timestamp
      let later ← triggerAll? timestamp first.1 rest
      some (later.1, first.2 ++ later.2)

def triggerAndMatchStops? (engine : MatchingEngine) (timestamp : UnixMicros) :
    Option (MatchingEngine × List Event) := do
  let checked ← engine.checkStopTriggersInternal?
  triggerAll? timestamp checked.1 checked.2

def updateMarkPrice? (engine : MatchingEngine) (symbol : SymbolId) (mark index : Decimal128)
    (timestamp : UnixMicros) : Option (MatchingEngine × List Event) :=
  ((engine.applyMarkIndexPassive mark index).triggerAndMatchStops? timestamp).map fun triggered =>
    (triggered.1, .markPriceUpdate symbol mark index timestamp :: triggered.2)

def premium? (engine : MatchingEngine) : Option Decimal128 :=
  if engine.indexPrice.isZero then
    some 0
  else do
    let apart ← engine.markPrice.sub? engine.indexPrice
    apart.div? engine.indexPrice

def computeFunding? (engine : MatchingEngine) (symbol : SymbolId) (timestamp : UnixMicros) :
    Option (MatchingEngine × List Event) := do
  let premium ← engine.premium?
  let _ ← premium.add? engine.interestRate
  some (engine.computeFunding symbol timestamp)

/-! ## Expiry -/

def expireEntries? (now : UnixMicros) (book : OrderBook) : List (UnixMicros × OrderId) →
    Option (OrderBook × List (UnixMicros × OrderId) × List Event)
  | [] => some (book, [], [])
  | entry :: rest =>
      if now < entry.1 then
        some (book, entry :: rest, [])
      else
        match book.getOrder entry.2 with
        | none => expireEntries? now book rest
        | some order => do
            let removed ← book.removeOrder? entry.2
            let later ← expireEntries? now removed rest
            some (later.1, later.2.1,
              .orderCanceled entry.2 order.userId order.symbol order.remainingQty now :: later.2.2)

def checkExpirations? (engine : MatchingEngine) (now : UnixMicros) :
    Option (MatchingEngine × List Event) :=
  (expireEntries? now engine.orderbook engine.expiryHeap).map fun expired =>
    ({ engine with orderbook := expired.1, expiryHeap := expired.2.1 }, expired.2.2)

/-! ## Commands and sweeps -/

/-- `process_command` on any command. -/
def processAnyCommand? (engine : MatchingEngine) (command : Command) :
    Option (MatchingEngine × List Event) := do
  let sequence ← addWord? engine.sequence 1
  let engine := { engine with sequence := sequence }
  match command with
  | .newOrder order => engine.handleNewOrder? order
  | .cancelOrder orderId userId _ timestamp => engine.handleCancelOrder? orderId userId timestamp
  | .amendOrder amend => engine.handleAmendOrder? amend
  | .cancelAllOrders userId symbol timestamp => engine.handleCancelAll? userId symbol timestamp
  | .updateMarkPrice symbol mark index timestamp =>
      engine.updateMarkPrice? symbol mark index timestamp
  | .computeFunding symbol timestamp => engine.computeFunding? symbol timestamp
  | .adminCredit .. => some (engine, [])

/-- `step`; nothing is the outcome of a panic. -/
def step? (engine : MatchingEngine) : EngineInput → Option (MatchingEngine × List Event)
  | .command command => engine.processAnyCommand? command
  | .expirySweep now => engine.checkExpirations? now

/-- The commands of the gateway's converters are processed as before. -/
theorem processAnyCommand?_gateway (engine : MatchingEngine) (command : GatewayCommand) :
    engine.processAnyCommand? command.toCommand = engine.processCommand? command := by
  cases command <;> rfl

end MatchingEngine

/-! ## What the matcher agrees with -/

private theorem OrderBook.agrees_takeFrom (book : OrderBook) (makerId : OrderId)
    (left : Decimal128) :
    Agrees (book.takeFrom? makerId left) (book.takeFrom makerId left) :=
  .ite (agrees_removeOrder book makerId) (agrees_updateQty book makerId left)

private theorem agrees_matchLevel (book : OrderBook) (taker : BookOrder) (makers : List OrderId) :
    Agrees (matchLevel? book taker makers) (matchLevel book taker makers) := by
  induction makers generalizing book taker with
  | nil => exact .pure _
  | cons makerId rest inductionHypothesis =>
      rw [matchLevel?, matchLevel]
      refine .ite (.pure _) ?_
      cases book.getOrder makerId with
      | none => exact inductionHypothesis book taker
      | some maker =>
          refine (Decimal128.computes_sub _ _).agrees.bind ?_
          refine (Decimal128.computes_sub _ _).agrees.bind ?_
          refine (book.agrees_takeFrom makerId _).bind ?_
          exact (inductionHypothesis _ _).bind_some fun later => ({ later with
            fills := fillAgainst taker maker makerId
              (min taker.remainingQty maker.remainingQty) :: later.fills } : Walk)

private theorem agrees_matchPrices (makerSide : Side) (book : OrderBook) (taker : BookOrder)
    (prices : List Decimal128) :
    Agrees (matchPrices? makerSide book taker prices)
      (matchPrices makerSide book taker prices) := by
  induction prices generalizing book taker with
  | nil => exact .pure _
  | cons price rest inductionHypothesis =>
      rw [matchPrices?, matchPrices]
      refine .ite (.pure _) (.ite (.pure _) ?_)
      cases (book.levelList makerSide).find? fun level => level.price = price with
      | none => exact inductionHypothesis book taker
      | some level =>
          exact (agrees_matchLevel book taker level.orders).bind
            ((inductionHypothesis _ _).bind_some fun later =>
              { later with fills := (matchLevel book taker level.orders).fills ++ later.fills })

private theorem agrees_fokAvailable (book : OrderBook) (order : BookOrder) :
    Agrees (fokAvailable? book order) (fokAvailable book order) := by
  refine .ite ?_ (Decimal128.agrees_sum _)
  rw [OrderBook.availableQtyAtPrice?, OrderBook.availableQtyAtPrice, sumWithin?_eq,
    OrderBook.sumWithin_eq_takeWhile]
  exact Decimal128.agrees_sum _

private theorem agrees_matchOrder (book : OrderBook) (order : BookOrder) :
    Agrees (matchOrder? book order) (matchOrder book order) := by
  have against (makerSide : Side) : Agrees (matchAgainst? makerSide book order)
      (matchAgainst makerSide book order) := agrees_matchPrices makerSide book order _
  have short : Agrees (fokShort? book order)
      (decide (order.timeInForce = .fok ∧ fokAvailable book order < order.remainingQty)) := by
    rw [fokShort?]
    split
    · rename_i fok
      simp only [fok, true_and]
      exact (agrees_fokAvailable book order).map fun available =>
        decide (available < order.remainingQty)
    · rename_i other
      simp only [other, false_and, decide_false]
      exact .pure false
  rw [matchOrder?, matchOrder]
  refine .ite (.pure _) (short.bind ?_)
  by_cases refused : order.timeInForce = .fok ∧ fokAvailable book order < order.remainingQty
  · rw [if_pos refused, if_pos (decide_eq_true refused)]
    exact .pure _
  · rw [if_neg refused, if_neg (ne_true_of_eq_false (decide_eq_false refused))]
    cases order.side with
    | buy => exact (against .sell).map fun walk => (⟨walk, false⟩ : MatchResult)
    | sell => exact (against .buy).map fun walk => (⟨walk, false⟩ : MatchResult)

private theorem agrees_emitFillEvents (config : SymbolConfig) (book : OrderBook) (symbol : SymbolId)
    (timestamp : UnixMicros) (taker : BookOrder) (gen : TradeIdGen) (fills : List Fill) :
    Agrees (emitFillEvents? config book symbol timestamp taker gen fills)
      (emitFillEvents config book symbol timestamp taker gen fills) := by
  induction fills generalizing gen with
  | nil => exact .pure _
  | cons fill rest inductionHypothesis =>
      have first : Agrees (fillEvents? config book symbol timestamp taker gen.nextId.1 fill)
          (fillEvents config book symbol timestamp taker gen.nextId.1 fill) :=
        .after fun _ => .after fun _ => .after fun _ => .pure _
      exact first.bind ((inductionHypothesis gen.nextId.2).bind_some fun later =>
        (later.1, fillEvents config book symbol timestamp taker gen.nextId.1 fill ++ later.2))

namespace MatchingEngine

variable (engine : MatchingEngine)

private theorem agrees_absorb (result : MatchResult) (symbol : SymbolId) (timestamp : UnixMicros) :
    Agrees (engine.absorb? result symbol timestamp) (engine.absorb result symbol timestamp) :=
  (agrees_emitFillEvents _ _ _ _ _ _ _).bind_some fun emitted =>
    (({ engine with orderbook := result.book, tradeIdGen := emitted.1 } : MatchingEngine),
      emitted.2)

/-! ## What the commands agree with -/

private theorem agrees_refillIceberg (timestamp : UnixMicros) (order : BookOrder) :
    Agrees (refillIceberg? timestamp order) (refillIceberg timestamp order) :=
  .ite ((Decimal128.computes_sub _ _).agrees.bind_some fun hidden =>
    { order with
      hiddenQty := hidden
      remainingQty := min (order.visibleQty.getD order.originalQty) order.hiddenQty
      timestamp := timestamp }) (.pure order)

private theorem agrees_restOnBook (order : BookOrder) :
    Agrees (engine.restOnBook? order) (engine.restOnBook order) :=
  (OrderBook.agrees_insertOrder _ order).bind_some fun book => ({ engine with
    orderbook := book
    expiryHeap := order.expireTime.elim engine.expiryHeap fun expire =>
      pushExpiry (expire, order.orderId) engine.expiryHeap } : MatchingEngine)

private theorem agrees_placeRemaining (order : BookOrder) (timestamp : UnixMicros) :
    Agrees (engine.placeRemaining? order timestamp) (engine.placeRemaining order timestamp) := by
  have rests : Agrees
      (if order.orderType.isLimit || order.orderType = .iceberg then
        (engine.restOnBook? order).map fun rested => (rested, [])
      else
        some (engine, [Event.orderCanceled order.orderId order.userId order.symbol
          order.remainingQty timestamp]))
      (if order.orderType.isLimit || order.orderType = .iceberg then
        (engine.restOnBook order, [])
      else
        (engine, [Event.orderCanceled order.orderId order.userId order.symbol
          order.remainingQty timestamp])) :=
    .ite ((engine.agrees_restOnBook order).map fun rested => (rested, [])) (.pure _)
  refine .ite (.pure _) ?_
  cases order.timeInForce with
  | ioc => exact .pure _
  | fok => exact .pure _
  | gtc => exact rests
  | gtd => exact rests
  | postOnly => exact rests

private theorem agrees_matchNewOrder (order : BookOrder) (timestamp : UnixMicros) :
    Agrees (engine.matchNewOrder? order timestamp) (engine.matchNewOrder order timestamp) := by
  refine (agrees_matchOrder engine.orderbook order).bind (.ite (.pure _) ?_)
  refine (engine.agrees_absorb _ order.symbol timestamp).bind ?_
  refine (agrees_refillIceberg timestamp _).bind ?_
  exact (agrees_placeRemaining _ _ timestamp).bind_some fun placed => (placed.1,
    .orderAccepted (acceptedOf order order.symbol timestamp) ::
      (engine.absorb (matchOrder engine.orderbook order) order.symbol timestamp).2 ++ placed.2)

/-- An iceberg order that is accepted states what it shows. -/
theorem agrees_splitQuantity (order : NewOrder) :
    Agrees (splitQuantity? order) (splitQuantity order) := by
  refine .ite ?_ (.pure _)
  cases order.visibleQuantity with
  | none => exact .none _
  | some shown =>
      exact (Decimal128.computes_sub _ _).agrees.bind_some fun hidden =>
        (min shown order.quantity, hidden)

private theorem agrees_defaultExpiry (timeInForce : TimeInForce) (timestamp : UnixMicros) :
    Agrees (defaultExpiry? timeInForce timestamp) (defaultExpiry timeInForce timestamp) :=
  .ite ((agrees_addWord _ _).map some) (.pure none)

private theorem agrees_newBookOrder (markPrice : Decimal128) (order : NewOrder)
    (price : Decimal128) :
    Agrees (newBookOrder? markPrice order price) (newBookOrder markPrice order price) := by
  have expiry := agrees_defaultExpiry order.timeInForce order.timestamp
  exact (agrees_splitQuantity order).bind (expiry.bind_some fun expireTime =>
    { newBookOrder markPrice order price with
      remainingQty := (splitQuantity order).1
      hiddenQty := (splitQuantity order).2
      expireTime := expireTime })

private theorem agrees_handleNewOrder (order : NewOrder) :
    Agrees (engine.handleNewOrder? order) (engine.handleNewOrder order) := by
  have accepted : Agrees (icebergAccepted? engine.symbolConfig order)
      (icebergAccepted engine.symbolConfig order) := by
    rw [icebergAccepted?]
    split
    · rename_i iceberg
      cases shown : order.visibleQuantity with
      | none =>
          rw [icebergAccepted, if_pos iceberg, shown]
          exact .pure false
      | some visible =>
          intro result computed
          obtain ⟨_, -, rfl⟩ := Option.map_eq_some_iff.1 computed
          rfl
    · rename_i other
      rw [icebergAccepted, if_neg other]
      exact .pure true
  rw [handleNewOrder?, handleNewOrder]
  refine .ite (.pure _) (.ite (.pure _) ?_)
  cases effectivePrice order with
  | none => exact .pure _
  | some price =>
      refine accepted.bind (.ite ?_ (.pure _))
      refine (agrees_newBookOrder engine.markPrice order price).bind (.ite (.pure _) ?_)
      exact engine.agrees_matchNewOrder _ _

private theorem agrees_handleCancelOrder (orderId : OrderId) (userId : UserId)
    (timestamp : UnixMicros) :
    Agrees (engine.handleCancelOrder? orderId userId timestamp)
      (engine.handleCancelOrder orderId userId timestamp) := by
  rw [handleCancelOrder?]
  cases found : engine.orderbook.getOrder orderId with
  | none => exact .pure _
  | some order =>
      rw [handleCancelOrder, found]
      refine (OrderBook.agrees_removeOrder _ orderId).bind (.ite ?_ (.pure _))
      exact (OrderBook.agrees_insertOrder _ order).bind_some fun restored =>
        (({ engine with orderbook := restored } : MatchingEngine),
          [Event.orderRejected orderId userId .orderNotFound timestamp])

private theorem agrees_reinsertAmended {amend : AmendOrder} {old : BookOrder}
    (found : engine.orderbook.getOrder amend.orderId = some old) :
    Agrees (engine.reinsertAmended? amend) (engine.reinsertAmended old amend) := by
  rw [reinsertAmended?, found]
  refine (OrderBook.agrees_removeOrder _ amend.orderId).bind (.ite (.pure _) ?_)
  refine (agrees_matchOrder _ _).bind (.ite (.pure _) ?_)
  refine (engine.agrees_absorb _ amend.symbol amend.timestamp).bind (.ite (.pure _) ?_)
  exact (OrderBook.agrees_insertOrder _ _).bind (.pure _)

private theorem agrees_handleAmendOrder (amend : AmendOrder) :
    Agrees (engine.handleAmendOrder? amend) (engine.handleAmendOrder amend) := by
  rw [handleAmendOrder?, handleAmendOrder]
  cases found : engine.orderbook.getOrder amend.orderId with
  | none => exact .pure _
  | some existing =>
      refine .ite (.pure _) (.ite (engine.agrees_reinsertAmended found) ?_)
      cases amend.newQuantity.filter (· < existing.remainingQty) with
      | none => exact .pure _
      | some newQuantity =>
          refine .ite (.pure _) ?_
          refine (OrderBook.agrees_updateQty _ amend.orderId newQuantity).bind ?_
          rw [OrderBook.getOrder_updateQty, if_pos rfl, found]
          exact .pure _

private theorem agrees_triggerAll (timestamp : UnixMicros) (orders : List BookOrder) :
    Agrees (triggerAll? timestamp engine orders) (triggerAll timestamp engine orders) := by
  induction orders generalizing engine with
  | nil => exact .pure _
  | cons order rest inductionHypothesis =>
      have first : Agrees (engine.triggerOne? order timestamp)
          (engine.triggerOne order timestamp) := by
        refine (agrees_matchOrder _ _).bind (.ite (.pure _) ?_)
        refine (engine.agrees_absorb _ _ timestamp).bind (.ite (.pure _) ?_)
        exact (OrderBook.agrees_insertOrder _ _).bind (.pure _)
      exact first.bind ((inductionHypothesis _).bind_some fun later =>
        (later.1, (engine.triggerOne order timestamp).2 ++ later.2))

private theorem agrees_updateMarkPrice (symbol : SymbolId) (mark index : Decimal128)
    (timestamp : UnixMicros) :
    Agrees (engine.updateMarkPrice? symbol mark index timestamp)
      (engine.updateMarkPrice symbol mark index timestamp) := by
  have triggers : Agrees
      ((engine.applyMarkIndexPassive mark index).triggerAndMatchStops? timestamp)
      ((engine.applyMarkIndexPassive mark index).triggerAndMatchStops timestamp) :=
    .bind (.after fun _ => .pure _) (agrees_triggerAll _ timestamp _)
  exact triggers.map fun triggered =>
    (triggered.1, .markPriceUpdate symbol mark index timestamp :: triggered.2)

private theorem agrees_expireEntries (now : UnixMicros) (book : OrderBook)
    (entries : List (UnixMicros × OrderId)) :
    Agrees (expireEntries? now book entries) (expireEntries now book entries) := by
  induction entries generalizing book with
  | nil => exact .pure _
  | cons entry rest inductionHypothesis =>
      rw [expireEntries?, expireEntries]
      refine .ite (.pure _) ?_
      cases book.getOrder entry.2 with
      | none => exact inductionHypothesis book
      | some order =>
          exact (OrderBook.agrees_removeOrder book entry.2).bind
            ((inductionHypothesis _).bind_some fun later => (later.1, later.2.1,
              Event.orderCanceled entry.2 order.userId order.symbol order.remainingQty now ::
                later.2.2))

theorem agrees_processCommand (command : Command) :
    Agrees (engine.processAnyCommand? command) (engine.processCommand command) := by
  refine (agrees_addWord engine.sequence 1).bind ?_
  cases command with
  | newOrder order => exact agrees_handleNewOrder _ order
  | cancelOrder orderId userId symbol timestamp =>
      exact agrees_handleCancelOrder _ orderId userId timestamp
  | amendOrder amend => exact agrees_handleAmendOrder _ amend
  | cancelAllOrders userId symbol timestamp =>
      exact .bind (OrderBook.agrees_cancelAllUserOrders _ userId) (.pure _)
  | updateMarkPrice symbol mark index timestamp =>
      exact agrees_updateMarkPrice _ symbol mark index timestamp
  | computeFunding symbol timestamp => exact .after fun _ => .after fun _ => .pure _
  | adminCredit userId amount key timestamp => exact .pure _

theorem agrees_step (input : EngineInput) : Agrees (engine.step? input) (engine.step input) := by
  cases input with
  | command command => exact engine.agrees_processCommand command
  | expirySweep now =>
      exact (agrees_expireEntries now engine.orderbook engine.expiryHeap).map fun expired =>
        (({ engine with orderbook := expired.1, expiryHeap := expired.2.1 } : MatchingEngine),
          expired.2.2)

end MatchingEngine
end Exg
