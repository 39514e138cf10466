import Exg.Matching.Reachable

/-!
# Time in force

A PostOnly order never takes, and neither an immediate order nor a market order stays on
the book.  New orders, amended orders and triggered orders each treat what the match
leaves in their own way; only the pass over the triggered orders does not look at the time
in force.  Nothing here assumes that order ids are distinct or that the book is sound.
-/

namespace Exg

open Support

/-! ## Orders stored on an arbitrary book -/

namespace OrderBook

/-- Every stored order has a property. -/
def Every (property : BookOrder → Prop) (book : OrderBook) : Prop :=
  ∀ orderId order, book.getOrder orderId = some order → property order

variable {property : BookOrder → Prop} {book : OrderBook}

theorem Every.new (symbol : SymbolId) : Every property (OrderBook.new symbol) := by
  intro orderId order found
  simp [getOrder, OrderBook.new] at found

theorem Every.insertOrder (every : book.Every property) {order : BookOrder}
    (holds : property order) : (book.insertOrder order).Every property := by
  intro orderId stored found
  rw [getOrder_insertOrder] at found
  split at found
  · cases found
    exact holds
  · exact every orderId stored found

theorem Every.removeOrder (every : book.Every property) (removedId : OrderId) :
    (book.removeOrder removedId).Every property := by
  intro orderId stored found
  rw [getOrder_removeOrder] at found
  split at found
  · cases found
  · exact every orderId stored found

theorem Every.updateQty (every : book.Every property)
    (kept : ∀ order quantity, property order → property (order.withRemaining quantity))
    (changedId : OrderId) (quantity : Decimal128) :
    (book.updateQty changedId quantity).Every property := by
  intro orderId stored found
  rw [getOrder_updateQty] at found
  split at found
  · obtain ⟨before, earlier, rfl⟩ := Option.map_eq_some_iff.1 found
    exact kept before quantity (every _ before earlier)
  · exact every orderId stored found

theorem Every.cancelOrders (every : book.Every property) (orderIds : List OrderId) :
    (book.cancelOrders orderIds).1.Every property := by
  intro orderId stored found
  rw [getOrder_cancelOrders] at found
  split at found
  · cases found
  · exact every orderId stored found

theorem Every.cancelAllUserOrders (every : book.Every property) (userId : UserId) :
    (book.cancelAllUserOrders userId).1.Every property := by
  rw [OrderBook.cancelAllUserOrders]
  split
  · exact every
  · have unlisted : { book with userOrders := book.userOrders.erase userId }.Every property := every
    exact unlisted.cancelOrders _

end OrderBook

section Walk

variable {property : BookOrder → Prop} {book : OrderBook} {taker : BookOrder}

private theorem every_takeFrom (every : book.Every property)
    (kept : ∀ order quantity, property order → property (order.withRemaining quantity))
    (makerId : OrderId) (left : Decimal128) : (book.takeFrom makerId left).Every property := by
  rw [OrderBook.takeFrom]
  split
  · exact every.removeOrder makerId
  · exact every.updateQty kept makerId left

/-- Matching stores no order that was not stored before, up to what remains of it. -/
theorem every_matchOrder (every : book.Every property)
    (kept : ∀ order quantity, property order → property (order.withRemaining quantity)) :
    (matchOrder book taker).book.Every property :=
  matchOrder_keeps (motive := fun reached => reached.Every property)
    (fun makerId left every => every_takeFrom every kept makerId left) every

end Walk

/-! ## Who takes -/

/-- The taker's leg of a fill. -/
def Event.takerLeg? : Event → Option OrderFilled
  | .orderFilled filled => if filled.isMaker then none else some filled
  | _ => none

def takerLegs (events : List Event) : List OrderFilled := events.filterMap Event.takerLeg?

/-- One order that a step runs through the matcher, with the events emitted for it. -/
structure MatchRun where
  orderId : OrderId
  timeInForce : TimeInForce
  events : List Event

namespace MatchingEngine

/-- The triggered orders in turn. -/
def triggerRuns (timestamp : UnixMicros) : MatchingEngine → List BookOrder → List MatchRun
  | _, [] => []
  | engine, order :: rest =>
      let first := engine.triggerOne order timestamp
      ⟨order.orderId, order.timeInForce, first.2⟩ :: triggerRuns timestamp first.1 rest

/-- The orders a step runs through the matcher: the new order, the amended one, or every
triggered one. -/
def matchRuns (engine : MatchingEngine) : EngineInput → List MatchRun
  | .command (.newOrder order) =>
      [⟨order.orderId, order.timeInForce, (engine.processCommand (.newOrder order)).2⟩]
  | .command (.amendOrder amend) =>
      (engine.orderbook.getOrder amend.orderId).toList.map fun existing =>
        ⟨existing.orderId, existing.timeInForce, (engine.processCommand (.amendOrder amend)).2⟩
  | .command (.updateMarkPrice _ mark index timestamp) =>
      let counted := { engine with sequence := engine.sequence + 1 }
      let passive := counted.applyMarkIndexPassive mark index
      let scanned := swapScan (shouldTrigger mark) passive.stopOrders
      triggerRuns timestamp { passive with stopOrders := scanned.2 } scanned.1
  | _ => []

end MatchingEngine

/-- Whoever takes in a run is the order that was run, and it is not PostOnly. -/
def MatchRun.Takes (matched : MatchRun) : Prop :=
  ∀ leg ∈ takerLegs matched.events,
    leg.orderId = matched.orderId ∧ matched.timeInForce ≠ .postOnly

section TakerLegs

@[simp]
theorem takerLegs_nil : takerLegs [] = [] := rfl

@[simp]
theorem takerLegs_append (first second : List Event) :
    takerLegs (first ++ second) = takerLegs first ++ takerLegs second :=
  List.filterMap_append

@[simp]
theorem takerLegs_cons_orderAccepted (accepted : OrderAccepted) (events : List Event) :
    takerLegs (.orderAccepted accepted :: events) = takerLegs events := rfl

@[simp]
theorem takerLegs_cons_orderRejected (orderId : OrderId) (userId : UserId)
    (reason : RejectReason) (timestamp : UnixMicros) (events : List Event) :
    takerLegs (.orderRejected orderId userId reason timestamp :: events) = takerLegs events := rfl

@[simp]
theorem takerLegs_cons_orderCanceled (orderId : OrderId) (userId : UserId) (symbol : SymbolId)
    (quantity : Decimal128) (timestamp : UnixMicros) (events : List Event) :
    takerLegs (.orderCanceled orderId userId symbol quantity timestamp :: events) =
      takerLegs events := rfl

@[simp]
theorem takerLegs_cons_markPriceUpdate (symbol : SymbolId) (mark index : Decimal128)
    (timestamp : UnixMicros) (events : List Event) :
    takerLegs (.markPriceUpdate symbol mark index timestamp :: events) = takerLegs events := rfl

private theorem takerLegs_eq_nil {events : List Event}
    (canceled : ∀ event ∈ events, event.takerLeg? = none) : takerLegs events = [] :=
  List.filterMap_eq_nil_iff.2 canceled

variable {book : OrderBook} {taker : BookOrder}

private theorem matchLevel_fill_taker (makerIds : List OrderId) :
    ∀ fill ∈ (matchLevel book taker makerIds).fills, fill.takerOrderId = taker.orderId := by
  induction makerIds generalizing book taker with
  | nil => simp [matchLevel]
  | cons makerId rest inductionHypothesis =>
      rw [matchLevel]
      split
      · simp
      · cases book.getOrder makerId with
        | none => exact inductionHypothesis
        | some maker =>
            intro fill member
            rcases List.mem_cons.1 member with rfl | later
            · rfl
            · have sameTaker := inductionHypothesis fill later
              exact sameTaker

private theorem matchPrices_fill_taker {makerSide : Side} (prices : List Decimal128) :
    ∀ fill ∈ (matchPrices makerSide book taker prices).fills,
      fill.takerOrderId = taker.orderId := by
  induction prices generalizing book taker with
  | nil => simp [matchPrices]
  | cons price rest inductionHypothesis =>
      rw [matchPrices]
      split
      · simp
      · split
        · simp
        · split
          · exact inductionHypothesis
          · rename_i level _
            intro fill member
            rcases List.mem_append.1 member with here | later
            · exact matchLevel_fill_taker level.orders fill here
            · obtain ⟨left, changed⟩ : ∃ left, (matchLevel book taker level.orders).taker =
                  taker.withRemaining left := matchLevel_taker level.orders
              have sameTaker := inductionHypothesis fill later
              rwa [changed] at sameTaker

/-- Fills are those of the order that was matched, which then is not PostOnly. -/
theorem matchOrder_fill_taker {fill : Fill} (member : fill ∈ (matchOrder book taker).fills) :
    fill.takerOrderId = taker.orderId ∧ taker.timeInForce ≠ .postOnly := by
  have notPostOnly : taker.timeInForce ≠ .postOnly := by
    intro postOnly
    rw [congrArg Walk.fills (matchOrder_untouched (Or.inr postOnly))] at member
    cases member
  refine ⟨?_, notPostOnly⟩
  rw [matchOrder, if_neg notPostOnly] at member
  split at member
  · cases member
  · cases side : taker.side with
    | buy =>
        rw [side] at member
        exact matchPrices_fill_taker _ fill member
    | sell =>
        rw [side] at member
        exact matchPrices_fill_taker _ fill member

private theorem takerLeg_of_fillEvents {config : SymbolConfig} {symbol : SymbolId}
    {timestamp : UnixMicros} {tradeId : TradeId} {fill : Fill} {leg : OrderFilled}
    (member : leg ∈ takerLegs (fillEvents config book symbol timestamp taker tradeId fill)) :
    leg.orderId = fill.takerOrderId := by
  simp only [fillEvents, takerLegs, Event.takerLeg?, List.filterMap_cons, List.filterMap_nil,
    if_true, Bool.false_eq_true, if_false, List.mem_singleton] at member
  rw [member]

end TakerLegs

namespace MatchingEngine

variable {engine : MatchingEngine}

private theorem takerLegs_absorb {book : OrderBook} {taker : BookOrder} {symbol : SymbolId}
    {timestamp : UnixMicros} {leg : OrderFilled}
    (member : leg ∈ takerLegs (engine.absorb (matchOrder book taker) symbol timestamp).2) :
    leg.orderId = taker.orderId ∧ taker.timeInForce ≠ .postOnly := by
  obtain ⟨event, emitted, isLeg⟩ := List.mem_filterMap.1 member
  obtain ⟨fill, filled, tradeId, inFill⟩ := mem_emitFillEvents emitted
  have ofTaker := matchOrder_fill_taker filled
  have ofFill := takerLeg_of_fillEvents (List.mem_filterMap.2 ⟨event, inFill, isLeg⟩)
  exact ⟨ofFill.trans ofTaker.1, ofTaker.2⟩

private theorem takerLegs_placeRemaining (order : BookOrder) (timestamp : UnixMicros) :
    takerLegs (engine.placeRemaining order timestamp).2 = [] := by
  rcases engine.placeRemaining_cases order timestamp with
    ⟨-, placed⟩ | ⟨-, -, placed⟩ | ⟨-, -, -, -, placed⟩
  · simp [placed]
  · simp [placed]
  · simp [placed]

theorem takerLegs_newOrder {order : NewOrder} {leg : OrderFilled}
    (member : leg ∈ takerLegs (engine.handleNewOrder order).2) :
    leg.orderId = order.orderId ∧ order.timeInForce ≠ .postOnly := by
  rcases engine.handleNewOrder_cases order with
    ⟨reason, same⟩ | ⟨price, -, -, -, -, ⟨-, same⟩ | ⟨-, same⟩⟩
  · simp [same] at member
  · simp [same] at member
  · rw [same] at member
    rcases engine.matchNewOrder_cases (newBookOrder engine.markPrice order price)
        order.timestamp with ⟨-, matched⟩ | ⟨-, matched⟩
    · simp [matched] at member
    · rw [matched] at member
      simp only [List.cons_append, takerLegs_cons_orderAccepted, takerLegs_append,
        takerLegs_placeRemaining, List.append_nil] at member
      exact takerLegs_absorb member

private theorem takerLegs_amendOrder {amend : AmendOrder} {existing : BookOrder}
    (found : engine.orderbook.getOrder amend.orderId = some existing) {leg : OrderFilled}
    (member : leg ∈ takerLegs (engine.handleAmendOrder amend).2) :
    leg.orderId = existing.orderId ∧ existing.timeInForce ≠ .postOnly := by
  rcases engine.handleAmendOrder_cases amend with ⟨reason, -, same⟩ | ⟨order, stored, -, amended⟩
  · simp [same] at member
  · rw [found] at stored
    cases stored
    rcases amended with ⟨-, same⟩ | ⟨-, same⟩ | ⟨-, quantity, -, -, -, same⟩
    · rw [same] at member
      rcases engine.reinsertAmended_cases existing amend with ⟨reason, -, taken⟩ | ⟨-, -, taken⟩
      · simp [taken] at member
      · rw [taken] at member
        simp only [takerLegs_cons_orderCanceled, takerLegs_cons_orderAccepted] at member
        have ofAmended := takerLegs_absorb member
        exact ofAmended
    · simp [same] at member
    · simp [same] at member

private theorem takerLegs_triggerOne {order : BookOrder} {timestamp : UnixMicros}
    {leg : OrderFilled} (member : leg ∈ takerLegs (engine.triggerOne order timestamp).2) :
    leg.orderId = order.orderId ∧ order.timeInForce ≠ .postOnly := by
  have converted := convertTriggered_frame order
  rw [← converted.1, ← converted.2.2.2.2.2.2]
  rcases engine.triggerOne_cases order timestamp with
    ⟨-, same⟩ | ⟨-, -, same⟩ | ⟨-, -, -, same⟩
  · simp [same] at member
  · rw [same] at member
    have ofConverted := takerLegs_absorb member
    exact ofConverted
  · rw [same] at member
    have ofConverted := takerLegs_absorb member
    exact ofConverted

private theorem triggerRuns_takes {pending : List BookOrder} {timestamp : UnixMicros} :
    ∀ matched ∈ triggerRuns timestamp engine pending, matched.Takes := by
  induction pending generalizing engine with
  | nil => simp [triggerRuns]
  | cons order rest inductionHypothesis =>
      intro matched member
      rcases List.mem_cons.1 member with rfl | later
      · exact fun leg taken => takerLegs_triggerOne taken
      · exact inductionHypothesis matched later

private theorem triggerRuns_legs {pending : List BookOrder} {timestamp : UnixMicros} :
    takerLegs (triggerAll timestamp engine pending).2 =
      (triggerRuns timestamp engine pending).flatMap fun matched => takerLegs matched.events := by
  induction pending generalizing engine with
  | nil => rfl
  | cons order rest inductionHypothesis =>
      rw [triggerAll, triggerRuns, List.flatMap_cons, takerLegs_append, inductionHypothesis]

private theorem expireEntries_legs {now : UnixMicros} {book : OrderBook}
    {entries : List (UnixMicros × OrderId)} :
    takerLegs (expireEntries now book entries).2.2 = [] := by
  apply takerLegs_eq_nil
  intro event emitted
  obtain ⟨orderId, order, rfl⟩ := canceled_of_expireEntries emitted
  rfl

/-- Every taker's leg of a step stands in one of its runs. -/
theorem matchRuns_legs (engine : MatchingEngine) (input : EngineInput) :
    takerLegs (engine.step input).2 =
      (engine.matchRuns input).flatMap fun matched => takerLegs matched.events := by
  cases input with
  | expirySweep now => exact expireEntries_legs
  | command issued =>
      let counted : MatchingEngine := { engine with sequence := engine.sequence + 1 }
      cases issued with
      | newOrder order => simp [matchRuns, step]
      | cancelOrder orderId userId symbol timestamp =>
          change takerLegs (counted.handleCancelOrder orderId userId timestamp).2 = []
          rcases counted.handleCancelOrder_cases orderId userId timestamp with
            ⟨-, -, same⟩ | ⟨order, -, -, same⟩ | ⟨order, -, -, same⟩ | ⟨order, -, -, -, same⟩ |
              ⟨order, -, -, -, same⟩ <;>
            simp [same]
      | amendOrder amend =>
          cases found : engine.orderbook.getOrder amend.orderId with
          | some existing => simp [matchRuns, step, found]
          | none => simp [matchRuns, step, found, processCommand, handleAmendOrder]
      | cancelAllOrders userId symbol timestamp =>
          change takerLegs (counted.handleCancelAll userId symbol timestamp).2 = []
          apply takerLegs_eq_nil
          intro event member
          obtain ⟨order, rfl⟩ := counted.canceled_of_handleCancelAll member
          rfl
      | updateMarkPrice symbol mark index timestamp => exact triggerRuns_legs
      | computeFunding symbol timestamp => rfl
      | adminCredit userId amount key timestamp => rfl

/-- Whoever takes is the order that was run through the matcher, and it is not PostOnly. -/
theorem matchRuns_takes (engine : MatchingEngine) (input : EngineInput) :
    ∀ matched ∈ engine.matchRuns input, matched.Takes := by
  cases input with
  | expirySweep now => simp [matchRuns]
  | command issued =>
      cases issued with
      | newOrder order =>
          intro matched member
          rw [matchRuns, List.mem_singleton] at member
          subst member
          exact fun leg taken => takerLegs_newOrder taken
      | amendOrder amend =>
          intro matched member
          obtain ⟨existing, found, rfl⟩ := List.mem_map.1 member
          rw [Option.mem_toList] at found
          have counted : { engine with sequence := engine.sequence + 1 }.orderbook.getOrder
              amend.orderId = some existing := found
          exact fun leg taken => takerLegs_amendOrder counted taken
      | updateMarkPrice symbol mark index timestamp => exact triggerRuns_takes
      | cancelOrder orderId userId symbol timestamp => simp [matchRuns]
      | cancelAllOrders userId symbol timestamp => simp [matchRuns]
      | computeFunding symbol timestamp => simp [matchRuns]
      | adminCredit userId amount key timestamp => simp [matchRuns]

end MatchingEngine

/-! ## What may rest -/

/-- An order that the engine may leave on the book. -/
structure MayRest (order : BookOrder) : Prop where
  notIoc : order.timeInForce ≠ .ioc
  notFok : order.timeInForce ≠ .fok
  kind : order.orderType = .limit ∨ order.orderType = .iceberg

theorem MayRest.withRemaining {order : BookOrder} (quantity : Decimal128)
    (mayRest : MayRest order) : MayRest (order.withRemaining quantity) :=
  ⟨mayRest.notIoc, mayRest.notFok, mayRest.kind⟩

theorem MayRest.refillIceberg {order : BookOrder} (timestamp : UnixMicros)
    (mayRest : MayRest order) : MayRest (MatchingEngine.refillIceberg timestamp order) := by
  refine ⟨?_, ?_, ?_⟩
  · rw [refillIceberg_timeInForce]
    exact mayRest.notIoc
  · rw [refillIceberg_timeInForce]
    exact mayRest.notFok
  · rw [refillIceberg_orderType]
    exact mayRest.kind

namespace MatchingEngine

/-- Only orders that may rest are on the book, and only conditional ones wait. -/
structure TimeInForceKept (engine : MatchingEngine) : Prop where
  resting : engine.orderbook.Every MayRest
  waiting : ∀ stop ∈ engine.stopOrders, stop.orderType.isConditional = true

/-- The match leaves nothing of an immediate order of a limit kind.  This is what the pass
over the triggered orders does not ask before it rests what is left. -/
def UsedUp (engine : MatchingEngine) (order : BookOrder) : Prop :=
  let result := matchOrder engine.orderbook (convertTriggered order)
  order.timeInForce = .ioc ∨ order.timeInForce = .fok → order.orderType.isLimit = true →
    result.rejected = true ∨ result.taker.remainingQty = 0

instance (engine : MatchingEngine) (order : BookOrder) : Decidable (engine.UsedUp order) :=
  inferInstanceAs (Decidable (_ → _ → _))

def TriggersUsedUp (timestamp : UnixMicros) : MatchingEngine → List BookOrder → Prop
  | _, [] => True
  | engine, order :: rest =>
      engine.UsedUp order ∧ TriggersUsedUp timestamp (engine.triggerOne order timestamp).1 rest

instance decidableTriggersUsedUp (timestamp : UnixMicros) :
    ∀ engine pending, Decidable (TriggersUsedUp timestamp engine pending)
  | _, [] => isTrue trivial
  | engine, order :: rest =>
      have : Decidable (TriggersUsedUp timestamp (engine.triggerOne order timestamp).1 rest) :=
        decidableTriggersUsedUp timestamp _ rest
      inferInstanceAs (Decidable (_ ∧ _))

/-- No triggered immediate order of a limit kind is left with something to rest. -/
def LeavesNothing (engine : MatchingEngine) : EngineInput → Prop
  | .command (.updateMarkPrice _ mark index timestamp) =>
      let counted := { engine with sequence := engine.sequence + 1 }
      let passive := counted.applyMarkIndexPassive mark index
      let scanned := swapScan (shouldTrigger mark) passive.stopOrders
      TriggersUsedUp timestamp { passive with stopOrders := scanned.2 } scanned.1
  | _ => True

instance (engine : MatchingEngine) (input : EngineInput) :
    Decidable (engine.LeavesNothing input) := by
  unfold LeavesNothing
  split <;> infer_instance

variable {engine : MatchingEngine}

private theorem timeInForceKept_new (config : SymbolConfig) (ids : Nat → TradeId)
    (interestRate : Decimal128) : (new config ids interestRate).TimeInForceKept where
  resting := OrderBook.Every.new config.symbol
  waiting := by simp [new]

private theorem every_matched (resting : engine.orderbook.Every MayRest) (taker : BookOrder) :
    (matchOrder engine.orderbook taker).book.Every MayRest :=
  every_matchOrder resting fun _ quantity => MayRest.withRemaining quantity

theorem TimeInForceKept.matchNewOrder (kept : engine.TimeInForceKept) {order : BookOrder}
    (unconditional : order.orderType.isConditional = false) (timestamp : UnixMicros) :
    (engine.matchNewOrder order timestamp).1.TimeInForceKept := by
  rcases engine.matchNewOrder_cases order timestamp with ⟨-, same⟩ | ⟨-, same⟩
  · rw [same]
    exact kept
  · rw [same]
    let result := matchOrder engine.orderbook order
    have matched := every_matched kept.resting order
    rcases (engine.absorb result order.symbol timestamp).1.placeRemaining_cases
        (MatchingEngine.refillIceberg timestamp result.taker) timestamp with
      ⟨-, placed⟩ | ⟨-, -, placed⟩ | ⟨-, limited, notIoc, notFok, placed⟩
    · simp only [result] at placed
      simp only [placed]
      exact ⟨matched, kept.waiting⟩
    · simp only [result] at placed
      simp only [placed]
      exact ⟨matched, kept.waiting⟩
    · simp only [result] at placed
      simp only [placed]
      refine ⟨matched.insertOrder ⟨notIoc, notFok, ?_⟩, kept.waiting⟩
      obtain ⟨left, taker⟩ := matchOrder_taker_withRemaining engine.orderbook order
      rw [refillIceberg_orderType, show result.taker.orderType = order.orderType by
        simp only [result, taker]; rfl] at limited
      rw [refillIceberg_orderType, taker]
      change order.orderType = .limit ∨ order.orderType = .iceberg
      revert limited unconditional
      cases order.orderType <;> simp [OrderType.isLimit, OrderType.isConditional]

theorem TimeInForceKept.handleNewOrder (kept : engine.TimeInForceKept) (order : NewOrder) :
    (engine.handleNewOrder order).1.TimeInForceKept := by
  rcases engine.handleNewOrder_cases order with
    ⟨reason, same⟩ | ⟨price, -, -, -, -, ⟨conditional, same⟩ | ⟨unconditional, same⟩⟩
  · rw [same]
    exact kept
  · rw [same]
    refine ⟨kept.resting, fun stop member => ?_⟩
    rcases List.mem_append.1 member with earlier | added
    · exact kept.waiting stop earlier
    · rw [List.mem_singleton.1 added]
      exact conditional
  · rw [same]
    exact kept.matchNewOrder unconditional order.timestamp

theorem TimeInForceKept.handleCancelOrder (kept : engine.TimeInForceKept) (orderId : OrderId)
    (userId : UserId) (timestamp : UnixMicros) :
    (engine.handleCancelOrder orderId userId timestamp).1.TimeInForceKept := by
  rcases engine.handleCancelOrder_cases orderId userId timestamp with
    ⟨-, -, same⟩ | ⟨order, -, -, same⟩ | ⟨order, found, -, same⟩ | ⟨order, -, -, -, same⟩ |
      ⟨order, -, waiting, -, same⟩
  · rw [same]
    exact kept
  · rw [same]
    exact ⟨kept.resting.removeOrder orderId, kept.waiting⟩
  · rw [same]
    have mayRest := kept.resting orderId order found
    exact ⟨(kept.resting.removeOrder orderId).insertOrder mayRest, kept.waiting⟩
  · rw [same]
    exact ⟨kept.resting, fun stop member => kept.waiting stop (List.mem_of_mem_eraseP member)⟩
  · rw [same]
    refine ⟨kept.resting, fun stop member => ?_⟩
    rcases List.mem_append.1 member with earlier | back
    · exact kept.waiting stop (List.mem_of_mem_eraseP earlier)
    · rw [List.mem_singleton.1 back]
      exact kept.waiting order (List.mem_of_find?_eq_some waiting)

/-- An amended order keeps its time in force and its type. -/
theorem TimeInForceKept.reinsertAmended (kept : engine.TimeInForceKept) {old : BookOrder}
    (mayRest : MayRest old) (amend : AmendOrder) :
    (engine.reinsertAmended old amend).1.TimeInForceKept := by
  have removed := kept.resting.removeOrder amend.orderId
  rcases engine.reinsertAmended_cases old amend with ⟨reason, -, same⟩ | ⟨-, -, same⟩
  · rw [same]
    exact ⟨removed, kept.waiting⟩
  · rw [same]
    have matched : (matchOrder (engine.orderbook.removeOrder amend.orderId)
        (amendedOrder old amend)).book.Every MayRest :=
      every_matchOrder removed fun _ quantity => MayRest.withRemaining quantity
    dsimp only
    split
    · exact ⟨matched, kept.waiting⟩
    · refine ⟨matched.insertOrder ?_, kept.waiting⟩
      obtain ⟨left, taker⟩ := matchOrder_taker_withRemaining
        (engine.orderbook.removeOrder amend.orderId) (amendedOrder old amend)
      rw [taker]
      exact ⟨mayRest.notIoc, mayRest.notFok, mayRest.kind⟩

theorem TimeInForceKept.handleAmendOrder (kept : engine.TimeInForceKept) (amend : AmendOrder) :
    (engine.handleAmendOrder amend).1.TimeInForceKept := by
  rcases engine.handleAmendOrder_cases amend with
    ⟨reason, -, same⟩ | ⟨existing, found, -, ⟨-, same⟩ | ⟨-, same⟩ | ⟨-, quantity, -, -, -, same⟩⟩
  · rw [same]
    exact kept
  · rw [same]
    exact kept.reinsertAmended (kept.resting _ existing found) amend
  · rw [same]
    exact kept
  · rw [same]
    have updated := kept.resting.updateQty (fun _ left => MayRest.withRemaining left)
      amend.orderId quantity
    exact ⟨updated, kept.waiting⟩

/-! ## The triggered path -/

/-- A triggered order keeps the law exactly if it is used up. -/
theorem triggerOne_timeInForce_iff (resting : engine.orderbook.Every MayRest) {order : BookOrder}
    (conditional : order.orderType.isConditional = true) (timestamp : UnixMicros) :
    (engine.triggerOne order timestamp).1.orderbook.Every MayRest ↔ engine.UsedUp order := by
  obtain ⟨left, taker⟩ :=
    matchOrder_taker_withRemaining engine.orderbook (convertTriggered order)
  have inForce := (convertTriggered_frame order).2.2.2.2.2.2
  have kind : order.orderType.isLimit = (convertTriggered order).orderType.isLimit ∧
      ((convertTriggered order).orderType.isLimit = true →
        (convertTriggered order).orderType = .limit) := by
    revert conditional
    cases given : order.orderType <;>
      simp [convertTriggered, given, OrderType.isConditional, OrderType.isLimit]
  have matched := every_matched resting (convertTriggered order)
  rcases engine.triggerOne_cases order timestamp with
    ⟨rejected, same⟩ | ⟨-, ends, same⟩ | ⟨admitted, rest, limited, same⟩
  · rw [same]
    exact ⟨fun _ _ _ => Or.inl rejected, fun _ => resting⟩
  · rw [same]
    refine ⟨fun _ _ limited => Or.inr ?_, fun _ => matched⟩
    rcases ends with nothing | market
    · exact nothing
    · rw [taker] at market
      change (convertTriggered order).orderType.isLimit = false at market
      rw [kind.1, market] at limited
      cases limited
  · rw [same]
    rw [taker] at limited
    change (convertTriggered order).orderType.isLimit = true at limited
    constructor
    · intro every
      have stored := every (convertTriggered order).orderId _ (by
        rw [OrderBook.getOrder_insertOrder, if_pos]
        rw [taker]
        rfl)
      rw [taker] at stored
      rintro (ioc | fok) _
      · exact absurd (inForce.trans ioc) stored.notIoc
      · exact absurd (inForce.trans fok) stored.notFok
    · intro usedUp
      refine matched.insertOrder ?_
      rw [taker]
      have inTime : ¬(order.timeInForce = .ioc ∨ order.timeInForce = .fok) := by
        intro immediate
        rcases usedUp immediate (kind.1.trans limited) with rejected | nothing
        · rw [admitted] at rejected
          cases rejected
        · exact rest nothing
      rw [not_or, ← inForce] at inTime
      exact ⟨inTime.1, inTime.2, Or.inl (kind.2 limited)⟩

private theorem triggerAll_timeInForce {pending : List BookOrder} {timestamp : UnixMicros}
    (resting : engine.orderbook.Every MayRest)
    (conditional : ∀ order ∈ pending, order.orderType.isConditional = true)
    (usedUp : TriggersUsedUp timestamp engine pending) :
    (triggerAll timestamp engine pending).1.orderbook.Every MayRest := by
  induction pending generalizing engine with
  | nil => exact resting
  | cons order rest inductionHypothesis =>
      have first := triggerOne_timeInForce_iff resting (conditional order List.mem_cons_self)
        timestamp
      exact inductionHypothesis (first.2 usedUp.1)
        (fun other later => conditional other (List.mem_cons_of_mem order later)) usedUp.2

private theorem every_expireEntries {now : UnixMicros} {book : OrderBook}
    {entries : List (UnixMicros × OrderId)} (resting : book.Every MayRest) :
    (expireEntries now book entries).1.Every MayRest :=
  expireEntries_keeps (motive := fun reached => reached.Every MayRest)
    (fun orderId resting => resting.removeOrder orderId) resting

theorem TimeInForceKept.updateMarkPrice (kept : engine.TimeInForceKept) {symbol : SymbolId}
    {mark index : Decimal128} {timestamp : UnixMicros}
    (leavesNothing : engine.LeavesNothing
      (.command (.updateMarkPrice symbol mark index timestamp))) :
    (engine.step (.command (.updateMarkPrice symbol mark index timestamp))).1.TimeInForceKept := by
  let passive :=
    { engine with sequence := engine.sequence + 1 }.applyMarkIndexPassive mark index
  have waiting : ∀ stop ∈ passive.stopOrders, stop.orderType.isConditional = true := by
    intro stop member
    obtain ⟨before, earlier, rfl⟩ := List.mem_map.1 member
    obtain ⟨peak, same⟩ := updateTrailingPeak_eq mark before
    rw [same]
    exact kept.waiting before earlier
  have scanned := swapScan_perm (shouldTrigger mark) passive.stopOrders
  constructor
  · have conditional : ∀ order ∈ (swapScan (shouldTrigger mark) passive.stopOrders).1,
        order.orderType.isConditional = true := by
      intro order member
      exact waiting order (scanned.subset (List.mem_append_left _ member))
    have passiveRests : { passive with stopOrders :=
        (swapScan (shouldTrigger mark) passive.stopOrders).2 }.orderbook.Every MayRest :=
      kept.resting
    exact triggerAll_timeInForce passiveRests conditional leavesNothing
  · intro stop member
    change stop ∈ (triggerAll timestamp _ _).1.stopOrders at member
    rw [triggerAll_stopOrders] at member
    exact waiting stop (scanned.subset (List.mem_append_right _ member))

/-! ## What the condition says of the book -/

/-- The levels within its limit hold what an immediate-or-cancel order wants. -/
def Offers (engine : MatchingEngine) (order : BookOrder) : Prop :=
  order.timeInForce = .ioc → order.orderType.isLimit = true →
    order.remainingQty ≤ crossingQty engine.orderbook (convertTriggered order)

def TriggersOffered (timestamp : UnixMicros) : MatchingEngine → List BookOrder → Prop
  | _, [] => True
  | engine, order :: rest =>
      engine.Offers order ∧ TriggersOffered timestamp (engine.triggerOne order timestamp).1 rest

/-- Every triggered immediate-or-cancel order finds the whole of what it wants. -/
def OffersEnough (engine : MatchingEngine) : EngineInput → Prop
  | .command (.updateMarkPrice _ mark index timestamp) =>
      let counted := { engine with sequence := engine.sequence + 1 }
      let passive := counted.applyMarkIndexPassive mark index
      let scanned := swapScan (shouldTrigger mark) passive.stopOrders
      TriggersOffered timestamp { passive with stopOrders := scanned.2 } scanned.1
  | _ => True

variable {used : List OrderId} {stops : List BookOrder}

/-- In a sound state, a fill-or-kill order is always used up, and an immediate-or-cancel one
if the levels within its limit hold enough. -/
theorem usedUp_iff (sound : OrdersSound engine.orderbook stops used) {order : BookOrder}
    (waiting : Waiting order) : engine.UsedUp order ↔ engine.Offers order := by
  have frame := convertTriggered_frame order
  have inForce : (convertTriggered order).timeInForce = order.timeInForce :=
    frame.2.2.2.2.2.2
  have quantity : (convertTriggered order).remainingQty = order.remainingQty := frame.2.2.2.1
  have incoming : 0 < (convertTriggered order).remainingQty := by
    rw [quantity]
    exact waiting.remaining_pos
  have refused : (matchOrder engine.orderbook (convertTriggered order)).rejected = true ↔
      Refused engine.orderbook (convertTriggered order) := matchOrder_rejected_iff sound.wellFormed
  constructor
  · intro usedUp ioc limited
    rcases usedUp (Or.inl ioc) limited with rejected | nothing
    · rcases refused.1 rejected with ⟨postOnly, -⟩ | ⟨fok, -⟩
      · rw [inForce, ioc] at postOnly
        cases postOnly
      · rw [inForce, ioc] at fok
        cases fok
    · by_contra short
      rw [← quantity, not_le] at short
      have admitted : (matchOrder engine.orderbook (convertTriggered order)).rejected = false := by
        rw [← Bool.not_eq_true, refused, Refused, inForce, ioc]
        simp
      have left := (taker_left_iff sound.wellFormed sound.positive incoming admitted).2
        (Or.inr short)
      exact left nothing
  · intro enough immediate limited
    cases rejected : (matchOrder engine.orderbook (convertTriggered order)).rejected with
    | true => exact Or.inl rfl
    | false =>
        refine Or.inr (by_contra fun left => ?_)
        rcases (taker_left_iff sound.wellFormed sound.positive incoming rejected).1 left with
          postOnly | short
        · rw [inForce] at postOnly
          rcases immediate with ioc | fok
          · rw [ioc] at postOnly
            cases postOnly
          · rw [fok] at postOnly
            cases postOnly
        · rcases immediate with ioc | fok
          · have covered := enough ioc limited
            rw [quantity] at short
            exact absurd covered (not_le.2 short)
          · have turnedAway := refused.2 (Or.inr ⟨inForce.trans fok, short⟩)
            rw [rejected] at turnedAway
            cases turnedAway

private theorem triggersUsedUp_iff {pending : List BookOrder} {timestamp : UnixMicros}
    (sound : OrdersSound engine.orderbook (pending ++ stops) used) :
    TriggersUsedUp timestamp engine pending ↔ TriggersOffered timestamp engine pending := by
  induction pending generalizing engine with
  | nil => exact Iff.rfl
  | cons order rest inductionHypothesis =>
      have first := usedUp_iff sound (sound.waiting order List.mem_cons_self)
      exact and_congr first (inductionHypothesis (triggerOne_sound sound))

private theorem leavesNothing_iff (sound : engine.Sound used) (input : EngineInput) :
    engine.LeavesNothing input ↔ engine.OffersEnough input := by
  cases input with
  | expirySweep now => exact Iff.rfl
  | command issued =>
      cases issued with
      | updateMarkPrice symbol mark index timestamp =>
          let counted := { engine with sequence := engine.sequence + 1 }
          have passive : (counted.applyMarkIndexPassive mark index).Sound used :=
            Sound.applyMarkIndexPassive sound mark index
          exact triggersUsedUp_iff (OrdersSound.perm passive (swapScan_perm (shouldTrigger mark) _))
      | _ => exact Iff.rfl

/-- In a run with distinct ids, no triggered immediate order leaves anything to rest exactly if
each of them finds the whole of what it wants. -/
theorem leavesNothing_run_iff (config : SymbolConfig) (ids : Nat → TradeId)
    (interestRate : Decimal128) {inputs : List EngineInput}
    (distinct : (newOrderIds inputs).Nodup)
    (shows : StepsMeet step AcceptsShown (new config ids interestRate) inputs) :
    StepsMeet step LeavesNothing (new config ids interestRate) inputs ↔
      StepsMeet step OffersEnough (new config ids interestRate) inputs := by
  have sound : ∀ before input, before ++ [input] <+: inputs →
      (run step (new config ids interestRate) before).1.Sound (newOrderIds before) := by
    intro before input isPrefix
    have earlier := (List.prefix_append before [input]).trans isPrefix
    have fewer : (newOrderIds before).Nodup := distinct.sublist (earlier.sublist.filterMap _)
    exact sound_run (sound_new config ids interestRate) fewer (shows.initial earlier)
  constructor
  · exact fun meets => .of_prefixes fun before input isPrefix =>
      (leavesNothing_iff (sound before input isPrefix) input).1 (meets.of_prefix isPrefix)
  · exact fun meets => .of_prefixes fun before input isPrefix =>
      (leavesNothing_iff (sound before input isPrefix) input).2 (meets.of_prefix isPrefix)

/-! ## Whole runs -/

theorem TimeInForceKept.step (kept : engine.TimeInForceKept) {input : EngineInput}
    (leavesNothing : engine.LeavesNothing input) : (engine.step input).1.TimeInForceKept := by
  cases input with
  | expirySweep now => exact ⟨every_expireEntries kept.resting, kept.waiting⟩
  | command issued =>
      have counted : { engine with sequence := engine.sequence + 1 }.TimeInForceKept :=
        ⟨kept.resting, kept.waiting⟩
      cases issued with
      | newOrder order => exact counted.handleNewOrder order
      | cancelOrder orderId userId symbol timestamp =>
          exact counted.handleCancelOrder orderId userId timestamp
      | amendOrder amend => exact counted.handleAmendOrder amend
      | cancelAllOrders userId symbol timestamp =>
          refine ⟨counted.resting.cancelAllUserOrders userId, fun stop member => ?_⟩
          have kept := List.mem_filter.1 ((swapScan_snd_perm _ _).subset member)
          exact counted.waiting stop kept.1
      | updateMarkPrice symbol mark index timestamp => exact kept.updateMarkPrice leavesNothing
      | computeFunding symbol timestamp => exact ⟨kept.resting, kept.waiting⟩
      | adminCredit userId amount key timestamp => exact counted

/-- The time-in-force law.  In every run, whoever takes is the order that was run through
the matcher, and it is not PostOnly.  While no triggered immediate order leaves anything to
rest, no immediate order and no market order is ever on the book. -/
theorem time_in_force_law (config : SymbolConfig) (ids : Nat → TradeId)
    (interestRate : Decimal128) (inputs : List EngineInput)
    (leavesNothing : StepsMeet step LeavesNothing (new config ids interestRate) inputs) :
    ∀ before input, before ++ [input] <+: inputs →
      let engine := (run step (new config ids interestRate) before).1
      let after := engine.step input
      (takerLegs after.2 =
        (engine.matchRuns input).flatMap fun matched => takerLegs matched.events) ∧
      (∀ matched ∈ engine.matchRuns input, matched.Takes) ∧
      ∀ orderId order, after.1.orderbook.getOrder orderId = some order →
        order.timeInForce ≠ .ioc ∧ order.timeInForce ≠ .fok ∧
          (order.orderType = .limit ∨ order.orderType = .iceberg) := by
  intro before input isPrefix engine after
  refine ⟨matchRuns_legs engine input, matchRuns_takes engine input, ?_⟩
  have kept : engine.TimeInForceKept :=
    (leavesNothing.initial ((List.prefix_append before [input]).trans isPrefix)).run_keeps
      (fun _ _ now holds => holds.step now) (timeInForceKept_new config ids interestRate)
  intro orderId order found
  have mayRest := (kept.step (leavesNothing.of_prefix isPrefix)).resting orderId order found
  exact ⟨mayRest.notIoc, mayRest.notFok, mayRest.kind⟩

/-- A stop-limit order that is immediate or cancel. -/
def immediateStop : NewOrder :=
  { gatewayOrder 1 7 .buy 100 5 with
    orderType := .stopLimit, timeInForce := .ioc, stopPrice := some (.ofInt 100) }

/-- It is triggered when what it wants is offered. -/
def coveredStopInputs : List EngineInput :=
  [.command (.newOrder immediateStop),
    .command (.newOrder (gatewayOrder 2 8 .sell 100 5)),
    .command (.updateMarkPrice 1 (.ofInt 100) (.ofInt 100) 1)]

theorem time_in_force_law_coveredStop :
    let reached := (run step (new plainConfig id 0) coveredStopInputs).1
    ∀ orderId order, reached.orderbook.getOrder orderId = some order →
      order.timeInForce ≠ .ioc := by
  intro reached orderId order found
  have leavesNothing : StepsMeet step LeavesNothing (new plainConfig id 0) coveredStopInputs := by
    decide +kernel
  have law := time_in_force_law plainConfig id 0 coveredStopInputs leavesNothing
    (coveredStopInputs.take 2) coveredStopInputs[2] (List.prefix_refl _)
  exact (law.2.2 orderId order found).1

/-- It is triggered when nothing is offered. -/
def restingStopInputs : List EngineInput :=
  [.command (.newOrder immediateStop),
    .command (.updateMarkPrice 1 (.ofInt 100) (.ofInt 100) 1)]

/-- What is left of it rests on the book, immediate or cancel. -/
theorem time_in_force_broken :
    ¬∀ (config : SymbolConfig) (ids : Nat → TradeId) (interestRate : Decimal128)
      (inputs : List EngineInput),
      ∀ orderId order,
        (run step (new config ids interestRate) inputs).1.orderbook.getOrder orderId =
          some order → order.timeInForce ≠ .ioc := by
  intro law
  have claimed := law plainConfig id 0 restingStopInputs 1
  have stored : ∃ order ∈ (run step (new plainConfig id 0)
      restingStopInputs).1.orderbook.getOrder 1, order.timeInForce = .ioc := by
    decide +kernel
  obtain ⟨order, found, immediate⟩ := stored
  exact claimed order found immediate

end MatchingEngine
end Exg
