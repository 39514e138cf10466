import Exg.Gateway.Conversion
import Exg.Matching.CheckedEngine
import Exg.Matching.Uncrossed

/-!
# Where the engine panics

For each command there is an exact condition on the engine before it: that what a FOK order
counts, what each trade is worth, its two fees and the level an order rests on stay in range.
A run of gateway commands is without a panic if and only if each of them meets it.
-/

namespace Exg

open Support

/-! ## The conditions -/

/-- The fees of a symbol are decimals of the source. -/
structure SymbolConfig.FeesInRange (config : SymbolConfig) : Prop where
  makerFee : config.makerFee.InRange
  takerFee : config.takerFee.InRange

/-- The worth of a trade and the two fees on it. -/
structure TradeFits (config : SymbolConfig) (price quantity : Decimal128) : Prop where
  notional : (price * quantity).InRange
  makerFee : (price * quantity * config.makerFee).InRange
  takerFee : (price * quantity * config.takerFee).InRange

/-- What is left of an admitted order. -/
def leftAfter (book : OrderBook) (order : BookOrder) : Decimal128 :=
  if order.timeInForce = .postOnly then
    order.remainingQty
  else
    order.remainingQty - min order.remainingQty (crossingQty book order)

/-- A FOK order counts what there is, and an admitted one trades with each maker it meets. -/
structure MatchFits (config : SymbolConfig) (book : OrderBook) (order : BookOrder) : Prop where
  counted : order.timeInForce = .fok → (crossingQty book order).InRange
  traded : ¬Refused book order → order.timeInForce ≠ .postOnly →
    ∀ share ∈ greedyShares book order, ∀ maker, book.getOrder share.1 = some maker →
      TradeFits config maker.price share.2

/-- What is left of an admitted order fits on its level. -/
def RestFits (book : OrderBook) (order : BookOrder) : Prop :=
  ¬Refused book order → order.orderType.isLimit = true → leftAfter book order ≠ 0 →
    (book.levelTotal order.side order.price + leftAfter book order).InRange

/-! ## A match leaves the levels of its own side -/

theorem levelTotal_eq {book : OrderBook} (wellFormed : book.WellFormed) (side : Side)
    (price : Decimal128) :
    book.levelTotal side price = ((book.queue side price).map book.remaining).sum := by
  rw [OrderBook.levelTotal, OrderBook.queue]
  cases atLevel : book.level? side price with
  | none => rfl
  | some level => exact (wellFormed.toLevels.agrees atLevel).total_eq

section Matched

variable {book : OrderBook} {taker : BookOrder}

private theorem getOrder_matchOrder_ownSide (wellFormed : book.WellFormed) {orderId : OrderId}
    {order : BookOrder} (found : book.getOrder orderId = some order)
    (ownSide : order.side = taker.side) :
    (matchOrder book taker).book.getOrder orderId = some order := by
  rw [matchOrder_book wellFormed, OrderBook.getOrder_takeOut_of_not_mem, found]
  intro drawn
  obtain ⟨share, member, rfl⟩ := List.mem_map.1 drawn
  obtain ⟨maker, makerFound, opposite, -⟩ := matchShares_stored wellFormed member
  rw [found] at makerFound
  rw [← Option.some.inj makerFound, ownSide] at opposite
  exact Side.ne_opposite taker.side opposite

private theorem levelTotal_matchOrder (wellFormed : book.WellFormed) (price : Decimal128) :
    (matchOrder book taker).book.levelTotal taker.side price =
      book.levelTotal taker.side price := by
  have kept : ∀ orderId ∈ book.queue taker.side price, ∃ order,
      book.getOrder orderId = some order ∧
        (matchOrder book taker).book.getOrder orderId = some order := by
    intro orderId queued
    obtain ⟨order, found, ownSide, -⟩ := wellFormed.toLevels.stored queued
    exact ⟨order, found, getOrder_matchOrder_ownSide wellFormed found ownSide⟩
  have sameQueue : (matchOrder book taker).book.queue taker.side price =
      book.queue taker.side price := by
    rw [matchOrder_book wellFormed, OrderBook.queue_takeOut wellFormed, List.filter_eq_self]
    intro orderId queued
    obtain ⟨order, -, after⟩ := kept orderId queued
    rw [matchOrder_book wellFormed] at after
    rw [after]
    rfl
  rw [levelTotal_eq (wellFormed_matchOrder wellFormed), levelTotal_eq wellFormed, sameQueue]
  refine congrArg List.sum (List.map_congr_left fun orderId queued => ?_)
  obtain ⟨order, found, after⟩ := kept orderId queued
  rw [OrderBook.remaining_of_some found, OrderBook.remaining_of_some after]

private theorem matchOrder_left (wellFormed : book.WellFormed) (positive : AllPositive book)
    (incoming : 0 ≤ taker.remainingQty) (admitted : (matchOrder book taker).rejected = false) :
    (matchOrder book taker).taker.remainingQty = leftAfter book taker := by
  rw [leftAfter]
  split
  · rename_i postOnly
    rw [congrArg Walk.taker (matchOrder_untouched (Or.inr postOnly))]
  · rename_i matched
    rw [congrArg Walk.taker (matchOrder_admitted wellFormed admitted matched), greedyWalk,
      BookOrder.withRemaining_remainingQty, allocated_greedyShares wellFormed positive incoming]

/-- The fills of an admitted order are its shares of the makers. -/
theorem fills_fit_iff (wellFormed : book.WellFormed) {config : SymbolConfig}
    (admitted : (matchOrder book taker).rejected = false) :
    (∀ fill ∈ (matchOrder book taker).fills, TradeFits config fill.price fill.quantity) ↔
      (taker.timeInForce ≠ .postOnly →
        ∀ share ∈ greedyShares book taker, ∀ maker, book.getOrder share.1 = some maker →
          TradeFits config maker.price share.2) := by
  by_cases postOnly : taker.timeInForce = .postOnly
  · rw [congrArg Walk.fills (matchOrder_untouched (Or.inr postOnly))]
    simp [postOnly]
  · rw [congrArg Walk.fills (matchOrder_admitted wellFormed admitted postOnly), greedyWalk,
      imp_iff_right postOnly]
    constructor
    · intro each share drawn maker found
      exact each _ (mem_fillsOf.2 ⟨share, drawn, maker, found, rfl⟩)
    · intro each fill member
      obtain ⟨share, drawn, maker, found, rfl⟩ := mem_fillsOf.1 member
      exact each share drawn maker found

end Matched

/-! ## Emitting the fills -/

section Emit

variable {config : SymbolConfig} {book : OrderBook} {symbol : SymbolId} {timestamp : UnixMicros}
  {taker : BookOrder}

private theorem computes_fillEvents (fees : config.FeesInRange) {fill : Fill}
    (price : fill.price.InRange) (quantity : fill.quantity.InRange) (tradeId : TradeId) :
    Computes (fillEvents? config book symbol timestamp taker tradeId fill)
      (TradeFits config fill.price fill.quantity)
      (fillEvents config book symbol timestamp taker tradeId fill) := by
  refine ((Decimal128.computes_mul price quantity).bind fun notional =>
    (Decimal128.computes_mul notional fees.makerFee).bind fun _ =>
      (Decimal128.computes_mul notional fees.takerFee).bind_some
        fun _ => fillEvents config book symbol timestamp taker tradeId fill).congr ?_
  constructor
  · intro parts
    exact ⟨parts.1, parts.2.1, parts.2.2⟩
  · intro fits
    exact ⟨fits.notional, fits.makerFee, fits.takerFee⟩

private theorem computes_emitFillEvents (fees : config.FeesInRange) {fills : List Fill}
    (inRange : ∀ fill ∈ fills, fill.price.InRange ∧ fill.quantity.InRange) (gen : TradeIdGen) :
    Computes (emitFillEvents? config book symbol timestamp taker gen fills)
      (∀ fill ∈ fills, TradeFits config fill.price fill.quantity)
      (emitFillEvents config book symbol timestamp taker gen fills) := by
  induction fills generalizing gen with
  | nil => exact (Computes.pure _).congr (iff_of_true trivial fun fill member => by cases member)
  | cons fill rest inductionHypothesis =>
      have first := inRange fill List.mem_cons_self
      have others := inductionHypothesis (fun other member =>
        inRange other (List.mem_cons_of_mem fill member)) gen.nextId.2
      rw [List.forall_mem_cons]
      exact (computes_fillEvents fees first.1 first.2 gen.nextId.1).bind fun _ =>
        others.bind_some fun later => (later.1,
          fillEvents config book symbol timestamp taker gen.nextId.1 fill ++ later.2)

/-- What is traded is in range, since it is part of what is on the book. -/
theorem fills_inRange (healthy : book.Healthy) (incoming : 0 ≤ taker.remainingQty) :
    ∀ fill ∈ (matchOrder book taker).fills, fill.price.InRange ∧ fill.quantity.InRange := by
  intro fill member
  rw [matchOrder_fills healthy.wellFormed] at member
  obtain ⟨share, drawn, maker, found, rfl⟩ := mem_fillsOf.1 member
  have bounds := matchShares_bounds healthy.wellFormed healthy.positive incoming drawn
  rw [OrderBook.remaining_of_some found] at bounds
  exact ⟨healthy.priced found,
    (healthy.remaining_inRange found).of_le bounds.1.le bounds.2⟩

end Emit

namespace MatchingEngine

variable {engine : MatchingEngine}

private theorem computes_absorb (fees : engine.symbolConfig.FeesInRange)
    (healthy : engine.orderbook.Healthy) {order : BookOrder} (incoming : 0 ≤ order.remainingQty)
    (symbol : SymbolId) (timestamp : UnixMicros) :
    Computes (engine.absorb? (matchOrder engine.orderbook order) symbol timestamp)
      (∀ fill ∈ (matchOrder engine.orderbook order).fills,
        TradeFits engine.symbolConfig fill.price fill.quantity)
      (engine.absorb (matchOrder engine.orderbook order) symbol timestamp) :=
  (computes_emitFillEvents fees (fills_inRange healthy incoming) engine.tradeIdGen).bind_some
    fun emitted => (({ engine with
      orderbook := (matchOrder engine.orderbook order).book
      tradeIdGen := emitted.1 } : MatchingEngine), emitted.2)

private theorem computes_restOnBook (order : BookOrder) :
    Computes (engine.restOnBook? order)
      (engine.orderbook.levelTotal order.side order.price + order.remainingQty).InRange
      (engine.restOnBook order) :=
  (engine.orderbook.computes_insertOrder order).bind_some fun book => ({ engine with
    orderbook := book
    expiryHeap := order.expireTime.elim engine.expiryHeap fun expire =>
      pushExpiry (expire, order.orderId) engine.expiryHeap } : MatchingEngine)

/-- The times in force of orders that rest. -/
def LetsRest (timeInForce : TimeInForce) : Prop := timeInForce ≠ .ioc ∧ timeInForce ≠ .fok

private theorem computes_placeRemaining (order : BookOrder) (timestamp : UnixMicros) :
    Computes (engine.placeRemaining? order timestamp)
      (LetsRest order.timeInForce → order.orderType.isLimit = true → order.remainingQty ≠ 0 →
        (engine.orderbook.levelTotal order.side order.price + order.remainingQty).InRange)
      (engine.placeRemaining order timestamp) := by
  rw [placeRemaining?, placeRemaining]
  by_cases done : order.remainingQty = 0
  · rw [if_pos (Decimal128.isZero_iff.2 done), if_pos (Decimal128.isZero_iff.2 done)]
    exact (Computes.pure _).congr (iff_of_true trivial fun _ _ left => absurd done left)
  · have left : ¬order.remainingQty.isZero = true := fun zero => done (Decimal128.isZero_iff.1 zero)
    have kind : (order.orderType.isLimit || decide (order.orderType = .iceberg)) =
        order.orderType.isLimit := by
      cases order.orderType <;> rfl
    rw [if_neg left, if_neg left, kind]
    have resting : Computes
        (if order.orderType.isLimit then (engine.restOnBook? order).map fun rested => (rested, [])
          else some (engine, [Event.orderCanceled order.orderId order.userId order.symbol
            order.remainingQty timestamp]))
        (order.orderType.isLimit = true →
          (engine.orderbook.levelTotal order.side order.price + order.remainingQty).InRange)
        (if order.orderType.isLimit then (engine.restOnBook order, [])
          else (engine, [Event.orderCanceled order.orderId order.userId order.symbol
            order.remainingQty timestamp])) := by
      cases limited : order.orderType.isLimit with
      | true =>
          exact ((computes_restOnBook order).map fun rested => (rested, [])).congr
            (imp_iff_right rfl).symm
      | false => exact (Computes.pure _).congr (iff_of_true trivial fun limit => by cases limit)
    cases force : order.timeInForce with
    | ioc => exact (Computes.pure _).congr (iff_of_true trivial fun rests => absurd rfl rests.1)
    | fok => exact (Computes.pure _).congr (iff_of_true trivial fun rests => absurd rfl rests.2)
    | gtc => exact resting.congr (by simp [LetsRest, done])
    | gtd => exact resting.congr (by simp [LetsRest, done])
    | postOnly => exact resting.congr (by simp [LetsRest, done])

/-! ## New orders -/

section Place

variable {order : BookOrder}

/-- An admitted order is matched, but for its quantity, as it came in. -/
theorem matched_taker (healthy : engine.orderbook.Healthy) (incoming : 0 ≤ order.remainingQty)
    (admitted : (matchOrder engine.orderbook order).rejected = false) :
    (matchOrder engine.orderbook order).taker =
      order.withRemaining (leftAfter engine.orderbook order) := by
  rw [matchOrder_taker_eq healthy.wellFormed,
    matchOrder_left healthy.wellFormed healthy.positive incoming admitted]

/-- What the level of an admitted order's rest has to hold. -/
theorem rest_fits_iff (healthy : engine.orderbook.Healthy) (incoming : 0 ≤ order.remainingQty)
    (admitted : (matchOrder engine.orderbook order).rejected = false) :
    ((matchOrder engine.orderbook order).taker.orderType.isLimit = true →
        (matchOrder engine.orderbook order).taker.remainingQty ≠ 0 →
      ((matchOrder engine.orderbook order).book.levelTotal
          (matchOrder engine.orderbook order).taker.side
          (matchOrder engine.orderbook order).taker.price +
        (matchOrder engine.orderbook order).taker.remainingQty).InRange) ↔
      RestFits engine.orderbook order := by
  have notRefused : ¬Refused engine.orderbook order := by
    rw [← matchOrder_rejected_iff healthy.wellFormed, admitted]
    decide
  rw [matched_taker healthy incoming admitted, RestFits, imp_iff_right notRefused]
  simp only [BookOrder.withRemaining_orderType, BookOrder.withRemaining_side,
    BookOrder.withRemaining_price, BookOrder.withRemaining_remainingQty]
  rw [levelTotal_matchOrder healthy.wellFormed]

/-- What fits of an admitted order. -/
theorem matchFits_iff (healthy : engine.orderbook.Healthy) {config : SymbolConfig}
    (admitted : (matchOrder engine.orderbook order).rejected = false) :
    MatchFits config engine.orderbook order ↔
      (order.timeInForce = .fok → (crossingQty engine.orderbook order).InRange) ∧
        ∀ fill ∈ (matchOrder engine.orderbook order).fills,
          TradeFits config fill.price fill.quantity := by
  have notRefused : ¬Refused engine.orderbook order := by
    rw [← matchOrder_rejected_iff healthy.wellFormed, admitted]
    decide
  rw [fills_fit_iff healthy.wellFormed admitted]
  exact ⟨fun fits => ⟨fits.counted, fits.traded notRefused⟩,
    fun parts => ⟨parts.1, fun _ => parts.2⟩⟩

/-- Of a refused order only the count has to fit. -/
theorem matchFits_of_rejected (healthy : engine.orderbook.Healthy) {config : SymbolConfig}
    (rejected : (matchOrder engine.orderbook order).rejected = true) :
    MatchFits config engine.orderbook order ↔
      (order.timeInForce = .fok → (crossingQty engine.orderbook order).InRange) :=
  ⟨MatchFits.counted, fun counted => ⟨counted, fun admitted =>
    absurd ((matchOrder_rejected_iff healthy.wellFormed).1 rejected) admitted⟩⟩

private theorem restFits_of_rejected (healthy : engine.orderbook.Healthy)
    (rejected : (matchOrder engine.orderbook order).rejected = true) :
    RestFits engine.orderbook order :=
  fun admitted => absurd ((matchOrder_rejected_iff healthy.wellFormed).1 rejected) admitted

private theorem computes_refillIceberg (plain : order.orderType ≠ .iceberg)
    (timestamp : UnixMicros) :
    Computes (refillIceberg? timestamp order) True order := by
  rw [refillIceberg?, if_neg fun refills => plain refills.1]
  exact Computes.pure order

/-- Matching an order and going on with what it leaves. -/
theorem computes_matched {α : Type} (fees : engine.symbolConfig.FeesInRange)
    (healthy : engine.orderbook.Healthy) (incoming : 0 ≤ order.remainingQty)
    (inRange : order.remainingQty.InRange) (symbol : SymbolId) (timestamp : UnixMicros)
    {turnedAway : MatchResult → α} {rest? : MatchResult → MatchingEngine × List Event → Option α}
    {restFits : Prop} {final : α}
    (refused : (matchOrder engine.orderbook order).rejected = true → restFits)
    (placed : (matchOrder engine.orderbook order).rejected = false →
      Computes (rest? (matchOrder engine.orderbook order)
        (engine.absorb (matchOrder engine.orderbook order) symbol timestamp)) restFits final) :
    Computes
      (do
        let result ← matchOrder? engine.orderbook order
        if result.rejected then
          some (turnedAway result)
        else do
          let absorbed ← engine.absorb? result symbol timestamp
          rest? result absorbed)
      (MatchFits engine.symbolConfig engine.orderbook order ∧ restFits)
      (if (matchOrder engine.orderbook order).rejected then
        turnedAway (matchOrder engine.orderbook order)
      else
        final) := by
  have matched := computes_matchOrder healthy incoming inRange
  cases outcome : (matchOrder engine.orderbook order).rejected with
  | true =>
      rw [if_pos rfl, matchFits_of_rejected healthy outcome]
      refine (matched.bind fun _ => ?_).congr
        (and_congr_right' (iff_of_true trivial (refused outcome)))
      rw [if_pos outcome]
      exact Computes.pure _
  | false =>
      have absorbed := computes_absorb fees healthy incoming symbol timestamp
      rw [if_neg Bool.false_ne_true, matchFits_iff healthy outcome, and_assoc]
      refine matched.bind fun _ => ?_
      rw [outcome, if_neg Bool.false_ne_true]
      exact absorbed.bind fun _ => placed outcome

private theorem computes_matchNewOrder (fees : engine.symbolConfig.FeesInRange)
    (healthy : engine.orderbook.Healthy) (plain : order.orderType ≠ .iceberg)
    (incoming : 0 ≤ order.remainingQty) (inRange : order.remainingQty.InRange)
    (timestamp : UnixMicros) :
    Computes (engine.matchNewOrder? order timestamp)
      (MatchFits engine.symbolConfig engine.orderbook order ∧
        (LetsRest order.timeInForce → RestFits engine.orderbook order))
      (engine.matchNewOrder order timestamp) := by
  rw [matchNewOrder?, matchNewOrder]
  refine computes_matched fees healthy incoming inRange order.symbol timestamp
    (fun rejected _ => restFits_of_rejected healthy rejected) fun admitted => ?_
  have stillPlain : (matchOrder engine.orderbook order).taker.orderType ≠ .iceberg := by
    rw [matched_taker healthy incoming admitted]
    exact plain
  have placed := ((engine.absorb (matchOrder engine.orderbook order) order.symbol
    timestamp).1.computes_placeRemaining (matchOrder engine.orderbook order).taker
      timestamp).congr (imp_congr_right fun _ => rest_fits_iff healthy incoming admitted)
  rw [matchOrder_taker_timeInForce healthy.wellFormed] at placed
  rw [refillIceberg_of_plain timestamp stillPlain]
  exact ((computes_refillIceberg stillPlain timestamp).bind fun _ =>
    placed.bind_some fun placed => (placed.1,
      Event.orderAccepted (acceptedOf order order.symbol timestamp) ::
        (engine.absorb (matchOrder engine.orderbook order) order.symbol timestamp).2 ++
          placed.2)).congr (and_iff_right trivial)

end Place

/-- An accepted order's expiry is a word, and what it matches and leaves fits. -/
structure AcceptedFits (engine : MatchingEngine) (order : NewOrder) (price : Decimal128) :
    Prop where
  expiry : order.timeInForce = .gtd → order.timestamp + twentyFourHoursMicros < 2 ^ 64
  matched : order.orderType.isConditional = false →
    MatchFits engine.symbolConfig engine.orderbook (newBookOrder engine.markPrice order price)
  rested : order.orderType.isConditional = false → LetsRest order.timeInForce →
    RestFits engine.orderbook (newBookOrder engine.markPrice order price)

/-- A new order that passes the checks fits. -/
def NewOrderFits (engine : MatchingEngine) (order : NewOrder) : Prop :=
  ∀ price, 0 < order.quantity → engine.orderbook.getOrder order.orderId = none →
    effectivePrice order = some price → order.orderType ≠ .iceberg → engine.AcceptedFits order price

section NewOrder

variable {order : NewOrder}

private theorem computes_defaultExpiry (timeInForce : TimeInForce) (timestamp : UnixMicros) :
    Computes (defaultExpiry? timeInForce timestamp)
      (timeInForce = .gtd → timestamp + twentyFourHoursMicros < 2 ^ 64)
      (defaultExpiry timeInForce timestamp) := by
  rw [defaultExpiry?, defaultExpiry]
  by_cases gtd : timeInForce = .gtd
  · rw [if_pos gtd, if_pos gtd, imp_iff_right gtd]
    exact (Computes.guarded (timestamp + twentyFourHoursMicros)).map some
  · rw [if_neg gtd, if_neg gtd]
    exact (Computes.pure _).congr (iff_of_true trivial fun isGtd => absurd isGtd gtd)

private theorem icebergAccepted_iff (config : SymbolConfig)
    (noVisible : order.visibleQuantity = none) :
    icebergAccepted config order = true ↔ order.orderType ≠ .iceberg := by
  rw [icebergAccepted, noVisible]
  by_cases iceberg : order.orderType = .iceberg
  · simp [iceberg]
  · simp [iceberg]

/-- Only a shown part is compared with ten lots. -/
theorem computes_icebergAccepted (config : SymbolConfig)
    (noVisible : order.visibleQuantity = none) :
    Computes (icebergAccepted? config order) True (icebergAccepted config order) := by
  rw [icebergAccepted?, icebergAccepted, noVisible]
  by_cases iceberg : order.orderType = .iceberg
  · rw [if_pos iceberg, if_pos iceberg]
    exact Computes.pure false
  · rw [if_neg iceberg, if_neg iceberg]
    exact Computes.pure true

private theorem computes_newBookOrder (markPrice price : Decimal128)
    (plain : order.orderType ≠ .iceberg) :
    Computes (newBookOrder? markPrice order price)
      (order.timeInForce = .gtd → order.timestamp + twentyFourHoursMicros < 2 ^ 64)
      (newBookOrder markPrice order price) := by
  rw [newBookOrder?, splitQuantity?, if_neg plain]
  have parts := splitQuantity_of_plain plain
  have built := (computes_defaultExpiry order.timeInForce order.timestamp).bind_some
    fun expireTime => ({ newBookOrder markPrice order price with
      remainingQty := order.quantity
      hiddenQty := 0
      expireTime := expireTime } : BookOrder)
  refine built.congr_value fun _ => ?_
  rw [newBookOrder, parts]

private theorem computes_acceptNewOrder (fees : engine.symbolConfig.FeesInRange)
    (healthy : engine.orderbook.Healthy) (plain : order.orderType ≠ .iceberg)
    (positive : 0 < order.quantity) (inRange : order.quantity.InRange) (price : Decimal128) :
    Computes (engine.acceptNewOrder? order price) (engine.AcceptedFits order price)
      (if order.orderType.isConditional then
        ({ engine with
            stopOrders := engine.stopOrders ++ [newBookOrder engine.markPrice order price] },
          [.orderAccepted (acceptedOf (newBookOrder engine.markPrice order price) order.symbol
            order.timestamp)])
      else
        engine.matchNewOrder (newBookOrder engine.markPrice order price) order.timestamp) := by
  have built := computes_newBookOrder engine.markPrice price plain
  have remaining : (newBookOrder engine.markPrice order price).remainingQty = order.quantity := by
    rw [newBookOrder, splitQuantity_of_plain plain]
  rw [acceptNewOrder?]
  cases conditional : order.orderType.isConditional with
  | true =>
      refine (built.bind_some fun bookOrder =>
        (({ engine with stopOrders := engine.stopOrders ++ [bookOrder] } : MatchingEngine),
          [Event.orderAccepted (acceptedOf bookOrder order.symbol order.timestamp)])).congr ?_
      refine ⟨fun expiry => ⟨expiry, ?_, ?_⟩, AcceptedFits.expiry⟩
      · intro unconditional
        rw [conditional] at unconditional
        cases unconditional
      · intro unconditional
        rw [conditional] at unconditional
        cases unconditional
  | false =>
      have matched : Computes (engine.matchNewOrder? (newBookOrder engine.markPrice order price)
          order.timestamp) _ _ :=
        computes_matchNewOrder fees healthy plain (by rw [remaining]; exact positive.le)
          (by rwa [remaining]) order.timestamp
      refine (built.bind fun _ => matched).congr ?_
      exact ⟨fun parts => ⟨parts.1, fun _ => parts.2.1, fun _ => parts.2.2⟩,
        fun fits => ⟨fits.expiry, fits.matched conditional, fits.rested conditional⟩⟩

private theorem computes_handleNewOrder (fees : engine.symbolConfig.FeesInRange)
    (healthy : engine.orderbook.Healthy) (noVisible : order.visibleQuantity = none)
    (inRange : order.quantity.InRange) :
    Computes (engine.handleNewOrder? order) (engine.NewOrderFits order)
      (engine.handleNewOrder order) := by
  rw [handleNewOrder?, handleNewOrder]
  by_cases positive : 0 < order.quantity
  · have valid : ¬(order.quantity.isZero || order.quantity.isNegative) = true := by
      simp [positive.ne', positive.le]
    rw [if_neg valid, if_neg valid]
    cases stored : engine.orderbook.getOrder order.orderId with
    | some other =>
        refine (Computes.pure _).congr (iff_of_true trivial fun price _ missing => ?_)
        rw [stored] at missing
        cases missing
    | none =>
        cases effective : effectivePrice order with
        | none =>
            refine (Computes.pure _).congr (iff_of_true trivial fun price _ _ isPrice => ?_)
            rw [effective] at isPrice
            cases isPrice
        | some price =>
            have shown := computes_icebergAccepted engine.symbolConfig noVisible
            have accepted := icebergAccepted_iff engine.symbolConfig noVisible
            have only : engine.NewOrderFits order ↔
                (order.orderType ≠ .iceberg → engine.AcceptedFits order price) := by
              simp [NewOrderFits, positive, stored, effective]
            simp only [Option.isSome_none, Bool.false_eq_true, if_false]
            rw [only]
            by_cases plain : order.orderType = .iceberg
            · have refused := Bool.eq_false_iff.2 fun isAccepted => accepted.1 isAccepted plain
              rw [refused] at shown ⊢
              refine (shown.bind fun _ => ?_).congr
                ((and_iff_right trivial).trans
                  (iff_of_true trivial fun isPlain => absurd plain isPlain))
              exact Computes.pure _
            · rw [accepted.2 plain] at shown ⊢
              exact (shown.bind fun _ =>
                computes_acceptNewOrder fees healthy plain positive inRange price).congr
                  ((and_iff_right trivial).trans (imp_iff_right plain).symm)
  · have invalid : (order.quantity.isZero || order.quantity.isNegative) = true := by
      simpa [le_iff_eq_or_lt] using not_lt.1 positive
    rw [if_pos invalid, if_pos invalid]
    exact (Computes.pure _).congr (iff_of_true trivial fun price wanted => absurd wanted positive)

end NewOrder

/-! ## Cancel and amend -/

section PutBack

variable {book : OrderBook} {orderId : OrderId} {order : BookOrder}

/-- An order that was taken out fits back on its level. -/
theorem putBack_fits (healthy : book.Healthy) (found : book.getOrder orderId = some order) :
    ((book.removeOrder orderId).levelTotal order.side order.price +
      order.remainingQty).InRange := by
  obtain ⟨level, atLevel⟩ := healthy.exists_level found
  rw [OrderBook.levelTotal, OrderBook.level?_removeOrder found, if_pos ⟨rfl, rfl⟩, atLevel,
    Option.bind_some, OrderBook.droppedLevel]
  split
  · rw [Option.elim_none, zero_add]
    exact healthy.remaining_inRange found
  · rw [Option.elim_some, sub_add_cancel]
    exact healthy.totals atLevel

private theorem healthy_putBack (healthy : book.Healthy)
    (found : book.getOrder orderId = some order) :
    ((book.removeOrder orderId).insertOrder order).Healthy := by
  have keyed := healthy.wellFormed.toLevels.keyed found
  apply (healthy.removeOrder orderId).insertOrder
  · rw [OrderBook.getOrder_removeOrder, if_pos keyed.symm]
  · exact healthy.positive orderId order found
  · exact healthy.priced found
  · exact putBack_fits healthy found

end PutBack

/-- A cancel never panics. -/
theorem computes_handleCancelOrder (healthy : engine.orderbook.Healthy) (orderId : OrderId)
    (userId : UserId) (timestamp : UnixMicros) :
    Computes (engine.handleCancelOrder? orderId userId timestamp) True
      (engine.handleCancelOrder orderId userId timestamp) := by
  rw [handleCancelOrder?]
  cases found : engine.orderbook.getOrder orderId with
  | none => exact Computes.pure _
  | some order =>
      have removed := healthy.computes_removeOrder orderId
      have restored := ((engine.orderbook.removeOrder orderId).computes_insertOrder order).congr
        (iff_true_intro (putBack_fits healthy found))
      rw [handleCancelOrder, found]
      by_cases own : order.userId = userId
      · have kept : ¬order.userId ≠ userId := fun other => other own
        simp only [if_neg kept]
        exact removed.bind_some fun book => (({ engine with orderbook := book } : MatchingEngine),
          [Event.orderCanceled orderId userId order.symbol order.remainingQty timestamp])
      · simp only [if_pos own]
        exact (removed.bind fun _ => restored.bind_some fun book =>
          (({ engine with orderbook := book } : MatchingEngine),
            [Event.orderRejected orderId userId .orderNotFound timestamp])).congr
              (and_iff_left trivial)

/-- What an amendment re-inserts matches and rests within range. -/
def ReinsertFits (engine : MatchingEngine) (old : BookOrder) (amend : AmendOrder) : Prop :=
  MatchFits engine.symbolConfig (engine.orderbook.removeOrder amend.orderId)
      (amendedOrder old amend) ∧
    RestFits (engine.orderbook.removeOrder amend.orderId) (amendedOrder old amend)

/-- A valid amendment that loses the order its priority fits. -/
def AmendFits (engine : MatchingEngine) (amend : AmendOrder) : Prop :=
  ∀ existing, engine.orderbook.getOrder amend.orderId = some existing →
    existing.userId = amend.userId → losesPriority existing amend = true →
      ¬AmendInvalid existing amend → engine.ReinsertFits existing amend

/-- The values an amendment gives are decimals of the source. -/
structure AmendInRange (amend : AmendOrder) : Prop where
  newPrice : ∀ price, amend.newPrice = some price → price.InRange
  newQuantity : ∀ quantity, amend.newQuantity = some quantity → quantity.InRange

section Amend

variable {amend : AmendOrder} {old : BookOrder}

private theorem amended_inRange (inRange : AmendInRange amend) (healthy : engine.orderbook.Healthy)
    {orderId : OrderId} (found : engine.orderbook.getOrder orderId = some old) :
    (amendedOrder old amend).remainingQty.InRange ∧ (amendedOrder old amend).price.InRange := by
  have held := healthy.remaining_inRange found
  have priced := healthy.priced found
  rw [amendedOrder]
  constructor
  · cases quantity : amend.newQuantity with
    | none => exact held
    | some newQuantity => exact inRange.newQuantity newQuantity quantity
  · cases price : amend.newPrice with
    | none => exact priced
    | some newPrice => exact inRange.newPrice newPrice price

private theorem amendInvalid_iff :
    ((amendedOrder old amend).remainingQty.isZero ||
        (amendedOrder old amend).remainingQty.isNegative ||
        (amendedOrder old amend).price.isZero || (amendedOrder old amend).price.isNegative) = true ↔
      AmendInvalid old amend := by
  simp only [Bool.or_eq_true, Decimal128.isZero_iff, Decimal128.isNegative_iff, AmendInvalid,
    le_iff_eq_or_lt, or_assoc]

/-- What is left of an amended order rests if it is a limit order. -/
theorem computes_restAmended (taker : BookOrder) (events : List Event) :
    Computes
      (if taker.remainingQty.isZero || !taker.orderType.isLimit then
        some (engine, events)
      else do
        let rested ← engine.orderbook.insertOrder? taker
        some ({ engine with orderbook := rested }, events))
      (taker.orderType.isLimit = true → taker.remainingQty ≠ 0 →
        (engine.orderbook.levelTotal taker.side taker.price + taker.remainingQty).InRange)
      (if taker.remainingQty.isZero || !taker.orderType.isLimit then
        (engine, events)
      else
        ({ engine with orderbook := engine.orderbook.insertOrder taker }, events)) := by
  by_cases stays : (taker.remainingQty.isZero || !taker.orderType.isLimit) = true
  · rw [if_pos stays, if_pos stays]
    refine (Computes.pure _).congr (iff_of_true trivial fun limited left => ?_)
    simp [limited, left] at stays
  · rw [if_neg stays, if_neg stays]
    simp only [Bool.or_eq_true, Decimal128.isZero_iff, Bool.not_eq_true', not_or,
      Bool.not_eq_false] at stays
    rw [imp_iff_right stays.2, imp_iff_right stays.1]
    exact (engine.orderbook.computes_insertOrder taker).bind_some fun rested =>
      (({ engine with orderbook := rested } : MatchingEngine), events)

private theorem computes_reinsertAmended (fees : engine.symbolConfig.FeesInRange)
    (healthy : engine.orderbook.Healthy) (inRange : AmendInRange amend)
    (found : engine.orderbook.getOrder amend.orderId = some old) :
    Computes (engine.reinsertAmended? amend)
      (¬AmendInvalid old amend → engine.ReinsertFits old amend)
      (engine.reinsertAmended old amend) := by
  have removed := healthy.computes_removeOrder amend.orderId
  have amendedInRange := (amended_inRange inRange healthy found).1
  rw [reinsertAmended?, reinsertAmended, found]
  refine ((Computes.pure old).bind fun _ => removed.bind fun _ => ?_).congr
    ((and_iff_right trivial).trans (and_iff_right trivial))
  by_cases invalid : AmendInvalid old amend
  · rw [if_pos (amendInvalid_iff.2 invalid), if_pos (amendInvalid_iff.2 invalid)]
    exact (Computes.pure _).congr (iff_of_true trivial fun valid => absurd invalid valid)
  · have invalidNot := fun isInvalid => invalid (amendInvalid_iff.1 isInvalid)
    rw [if_neg invalidNot, if_neg invalidNot, imp_iff_right invalid]
    have emptied : ({ engine with orderbook := engine.orderbook.removeOrder amend.orderId } :
        MatchingEngine).orderbook.Healthy := healthy.removeOrder amend.orderId
    have incoming : 0 ≤ (amendedOrder old amend).remainingQty :=
      (not_le.1 fun negative => invalid (Or.inl negative)).le
    have sameFees : ({ engine with orderbook := engine.orderbook.removeOrder amend.orderId } :
        MatchingEngine).symbolConfig.FeesInRange := fees
    refine computes_matched sameFees emptied incoming amendedInRange amend.symbol amend.timestamp
      (fun rejected => restFits_of_rejected emptied rejected) fun admitted => ?_
    exact (computes_restAmended _ _).congr (rest_fits_iff emptied incoming admitted)

/-- A quantity decrease in place never panics. -/
theorem computes_decrease (healthy : engine.orderbook.Healthy) {existing : BookOrder}
    (found : engine.orderbook.getOrder amend.orderId = some existing) {newQuantity : Decimal128}
    (positive : 0 < newQuantity) (less : newQuantity < existing.remainingQty) :
    Computes
      (do
        let book ← engine.orderbook.updateQty? amend.orderId newQuantity
        let updated ← book.getOrder amend.orderId
        some (({ engine with orderbook := book } : MatchingEngine),
          [Event.orderAccepted (acceptedOf updated amend.symbol amend.timestamp)]))
      True
      ({ engine with orderbook := engine.orderbook.updateQty amend.orderId newQuantity },
        [.orderAccepted (acceptedOf existing amend.symbol amend.timestamp)]) := by
  have updated : (engine.orderbook.updateQty amend.orderId newQuantity).getOrder amend.orderId =
      some (existing.withRemaining newQuantity) := by
    rw [OrderBook.getOrder_updateQty, if_pos rfl, found]
    rfl
  exact ((healthy.computes_updateQty found positive.le less.le).bind fun _ =>
    (Computes.of_eq updated).bind_some fun order =>
      (({ engine with
          orderbook := engine.orderbook.updateQty amend.orderId newQuantity } : MatchingEngine),
        [Event.orderAccepted (acceptedOf order amend.symbol amend.timestamp)])).congr
          (and_iff_left trivial)

private theorem computes_handleAmendOrder (fees : engine.symbolConfig.FeesInRange)
    (healthy : engine.orderbook.Healthy) (inRange : AmendInRange amend) :
    Computes (engine.handleAmendOrder? amend) (engine.AmendFits amend)
      (engine.handleAmendOrder amend) := by
  rw [handleAmendOrder?, handleAmendOrder]
  cases found : engine.orderbook.getOrder amend.orderId with
  | none =>
      refine (Computes.pure _).congr (iff_of_true trivial fun existing stored => ?_)
      rw [found] at stored
      cases stored
  | some existing =>
      have only : engine.AmendFits amend ↔
          (existing.userId = amend.userId → losesPriority existing amend = true →
            ¬AmendInvalid existing amend → engine.ReinsertFits existing amend) := by
        simp [AmendFits, found]
      rw [only]
      by_cases own : existing.userId = amend.userId
      · have same : ¬existing.userId ≠ amend.userId := fun other => other own
        simp only [if_neg same]
        rw [imp_iff_right own]
        cases loses : losesPriority existing amend with
        | true =>
            rw [imp_iff_right rfl]
            exact computes_reinsertAmended fees healthy inRange found
        | false =>
            have keeps : ∀ fits : Prop, (True ↔ (false = true → fits)) := fun fits =>
              iff_of_true trivial fun loses => by cases loses
            refine Computes.congr ?_ (keeps _)
            cases fewer : amend.newQuantity.filter (· < existing.remainingQty) with
            | none => exact Computes.pure _
            | some newQuantity =>
                have less : newQuantity < existing.remainingQty := by
                  simpa using (Option.filter_eq_some_iff.1 fewer).2
                by_cases positive : 0 < newQuantity
                · have valid : ¬(newQuantity.isZero || newQuantity.isNegative) = true := by
                    simp [positive.ne', positive.le]
                  simp only [if_neg valid]
                  exact computes_decrease healthy found positive less
                · have invalid : (newQuantity.isZero || newQuantity.isNegative) = true := by
                    simpa [le_iff_eq_or_lt] using not_lt.1 positive
                  simp only [if_pos invalid]
                  exact Computes.pure _
      · simp only [if_pos own]
        exact (Computes.pure _).congr (iff_of_true trivial fun isOwn => absurd isOwn own)

end Amend

/-! ## Commands that fit keep the book healthy -/

section Keeps

variable {order : BookOrder}

private theorem healthy_rested (healthy : engine.orderbook.Healthy)
    (incoming : 0 ≤ order.remainingQty) (inRange : order.remainingQty.InRange)
    (missing : engine.orderbook.getOrder order.orderId = none) (priced : order.price.InRange)
    (admitted : (matchOrder engine.orderbook order).rejected = false)
    (fits : RestFits engine.orderbook order)
    (limited : (matchOrder engine.orderbook order).taker.orderType.isLimit = true)
    (left : (matchOrder engine.orderbook order).taker.remainingQty ≠ 0) :
    ((matchOrder engine.orderbook order).book.insertOrder
      (matchOrder engine.orderbook order).taker).Healthy := by
  have taker := matched_taker healthy incoming admitted
  have nonneg := matchOrder_taker_nonneg healthy.wellFormed incoming
  have room := (rest_fits_iff healthy incoming admitted).2 fits limited left
  apply (healthy_matchOrder healthy incoming inRange).1.insertOrder
  · rw [matchOrder_taker_orderId healthy.wellFormed]
    exact getOrder_matchOrder_of_none healthy.wellFormed missing
  · exact lt_of_le_of_ne nonneg left.symm
  · rw [taker]
    exact priced
  · exact room

private theorem healthy_matchNewOrder (healthy : engine.orderbook.Healthy)
    (plain : order.orderType ≠ .iceberg) (incoming : 0 ≤ order.remainingQty)
    (inRange : order.remainingQty.InRange)
    (missing : engine.orderbook.getOrder order.orderId = none)
    (priced : order.orderType.isLimit = true → order.price.InRange)
    (fits : LetsRest order.timeInForce → RestFits engine.orderbook order)
    (timestamp : UnixMicros) :
    (engine.matchNewOrder order timestamp).1.orderbook.Healthy := by
  have after := (healthy_matchOrder healthy incoming inRange).1
  rcases engine.matchNewOrder_cases order timestamp with ⟨-, unchanged⟩ | ⟨admitted, matched⟩
  · rw [unchanged]
    exact healthy
  · have taker := matched_taker healthy incoming admitted
    have stillPlain : (matchOrder engine.orderbook order).taker.orderType ≠ .iceberg := by
      rw [taker]
      exact plain
    simp only [matched, refillIceberg_of_plain timestamp stillPlain]
    generalize absorbed : engine.absorb (matchOrder engine.orderbook order) order.symbol timestamp =
      result
    have book : result.1.orderbook = (matchOrder engine.orderbook order).book := by
      rw [← absorbed]
      rfl
    rcases result.1.placeRemaining_cases (matchOrder engine.orderbook order).taker timestamp with
      ⟨-, placed⟩ | ⟨-, -, placed⟩ | ⟨left, limited, notIoc, notFok, placed⟩
    · rw [placed, book]
      exact after
    · rw [placed, book]
      exact after
    · rw [placed, restOnBook, book]
      have wasLimited : order.orderType.isLimit = true := by
        rwa [matchOrder_taker_orderType healthy.wellFormed] at limited
      rw [matchOrder_taker_timeInForce healthy.wellFormed] at notIoc notFok
      exact healthy_rested healthy incoming inRange missing (priced wasLimited) admitted
        (fits ⟨notIoc, notFok⟩) limited left

/-- The price of a limit order is the one of its command. -/
theorem limit_price {newOrder : NewOrder} {price : Decimal128}
    (effective : effectivePrice newOrder = some price)
    (limited : newOrder.orderType.isLimit = true) : newOrder.price = some price := by
  cases type : newOrder.orderType <;>
    simp_all [effectivePrice, OrderType.isLimit, Option.filter_eq_some_iff]

private theorem healthy_handleNewOrder {newOrder : NewOrder} (healthy : engine.orderbook.Healthy)
    (noVisible : newOrder.visibleQuantity = none) (inRange : newOrder.quantity.InRange)
    (priced : ∀ price, newOrder.price = some price → price.InRange)
    (fits : engine.NewOrderFits newOrder) :
    (engine.handleNewOrder newOrder).1.orderbook.Healthy := by
  rcases engine.handleNewOrder_cases newOrder with ⟨reason, unchanged⟩ |
    ⟨price, positive, missing, effective, accepted, ⟨-, waiting⟩ | ⟨unconditional, matched⟩⟩
  · rw [unchanged]
    exact healthy
  · rw [waiting]
    exact healthy
  · have plain := plain_of_accepted accepted noVisible
    have orderFits := fits price positive missing effective plain
    have remaining : (newBookOrder engine.markPrice newOrder price).remainingQty =
        newOrder.quantity := by
      rw [newBookOrder, splitQuantity_of_plain plain]
    rw [matched]
    apply healthy_matchNewOrder healthy plain
    · rw [remaining]
      exact positive.le
    · rwa [remaining]
    · exact missing
    · exact fun limited => priced price (limit_price effective limited)
    · exact orderFits.rested unconditional

private theorem healthy_handleCancelOrder (healthy : engine.orderbook.Healthy) (orderId : OrderId)
    (userId : UserId) (timestamp : UnixMicros) :
    (engine.handleCancelOrder orderId userId timestamp).1.orderbook.Healthy := by
  rcases engine.handleCancelOrder_cases orderId userId timestamp with ⟨-, -, done⟩ |
    ⟨order, -, -, done⟩ | ⟨order, found, -, done⟩ | ⟨order, -, -, -, done⟩ | ⟨order, -, -, -, done⟩
  · rw [done]
    exact healthy
  · rw [done]
    exact healthy.removeOrder orderId
  · rw [done]
    exact healthy_putBack healthy found
  · rw [done]
    exact healthy
  · rw [done]
    exact healthy

private theorem healthy_reinsertAmended {amend : AmendOrder} {old : BookOrder}
    (healthy : engine.orderbook.Healthy) (inRange : AmendInRange amend)
    (found : engine.orderbook.getOrder amend.orderId = some old)
    (fits : ¬AmendInvalid old amend → engine.ReinsertFits old amend) :
    (engine.reinsertAmended old amend).1.orderbook.Healthy := by
  have emptied : ({ engine with orderbook := engine.orderbook.removeOrder amend.orderId } :
      MatchingEngine).orderbook.Healthy := healthy.removeOrder amend.orderId
  rcases engine.reinsertAmended_cases old amend with ⟨reason, -, done⟩ | ⟨valid, admitted, done⟩
  · rw [done]
    exact emptied
  · have amended := amended_inRange inRange healthy found
    have incoming : 0 ≤ (amendedOrder old amend).remainingQty :=
      (not_le.1 fun negative => valid (Or.inl negative)).le
    have missing : (engine.orderbook.removeOrder amend.orderId).getOrder
        (amendedOrder old amend).orderId = none := by
      have keyed : old.orderId = amend.orderId := healthy.wellFormed.toLevels.keyed found
      rw [OrderBook.getOrder_removeOrder]
      exact if_pos keyed.symm
    have rested := healthy_rested emptied incoming amended.1 missing amended.2 admitted
      (fits valid).2
    have after := (healthy_matchOrder (healthy.removeOrder amend.orderId) incoming amended.1).1
    rw [done]
    by_cases stays : (matchOrder (engine.orderbook.removeOrder amend.orderId)
        (amendedOrder old amend)).taker.remainingQty = 0 ∨
      (matchOrder (engine.orderbook.removeOrder amend.orderId)
        (amendedOrder old amend)).taker.orderType.isLimit = false
    · simp only [if_pos stays]
      exact after
    · simp only [if_neg stays]
      rw [not_or, Bool.not_eq_false] at stays
      exact rested stays.2 stays.1

private theorem healthy_handleAmendOrder {amend : AmendOrder} (healthy : engine.orderbook.Healthy)
    (inRange : AmendInRange amend) (fits : engine.AmendFits amend) :
    (engine.handleAmendOrder amend).1.orderbook.Healthy := by
  rcases engine.handleAmendOrder_cases amend with ⟨reason, -, done⟩ |
    ⟨existing, found, own, ⟨loses, done⟩ | ⟨-, done⟩ | ⟨-, quantity, -, positive, less, done⟩⟩
  · rw [done]
    exact healthy
  · rw [done]
    exact healthy_reinsertAmended healthy inRange found (fits existing found own loses)
  · rw [done]
    exact healthy
  · rw [done]
    exact healthy.updateQty found positive less.le

end Keeps

/-! ## Runs of gateway commands -/

/-- What the gateway's converters make sure of. -/
def GatewayCommand.InRange : GatewayCommand → Prop
  | .newOrder order => order.visibleQuantity = none ∧ order.quantity.InRange ∧
      ∀ price, order.price = some price → price.InRange
  | .cancelOrder .. => True
  | .amendOrder amend => AmendInRange amend

/-- What a command computes on this engine stays in range. -/
def GatewayCommand.Fits (engine : MatchingEngine) : GatewayCommand → Prop
  | .newOrder order => engine.NewOrderFits order
  | .cancelOrder .. => True
  | .amendOrder amend => engine.AmendFits amend

/-- The commands are counted in a word, and the command fits. -/
def CommandFits (engine : MatchingEngine) (command : GatewayCommand) : Prop :=
  engine.sequence + 1 < 2 ^ 64 ∧ command.Fits engine

/-- The configuration is in range, and the book is healthy. -/
structure Steady (engine : MatchingEngine) : Prop where
  fees : engine.symbolConfig.FeesInRange
  healthy : engine.orderbook.Healthy

/-- Whether a new order fits does not depend on the count of commands. -/
theorem newOrderFits_counted (engine : MatchingEngine) (order : NewOrder) (sequence : Nat) :
    ({ engine with sequence := sequence } : MatchingEngine).NewOrderFits order ↔
      engine.NewOrderFits order := by
  constructor
  · intro fits price positive missing effective plain
    have kept := fits price positive missing effective plain
    exact ⟨kept.expiry, kept.matched, kept.rested⟩
  · intro fits price positive missing effective plain
    have kept := fits price positive missing effective plain
    exact ⟨kept.expiry, kept.matched, kept.rested⟩

private theorem computes_processCommand (steady : engine.Steady) {command : GatewayCommand}
    (inRange : command.InRange) :
    Computes (engine.processCommand? command) (engine.CommandFits command)
      (engine.processGateway command) := by
  rw [processCommand?]
  have counted : ({ engine with sequence := engine.sequence + 1 } : MatchingEngine).Steady :=
    ⟨steady.fees, steady.healthy⟩
  refine (Computes.guarded (engine.sequence + 1)).bind fun _ => ?_
  cases command with
  | newOrder order =>
      exact (computes_handleNewOrder counted.fees counted.healthy inRange.1 inRange.2.1).congr
        (newOrderFits_counted engine order _)
  | cancelOrder orderId userId symbol timestamp =>
      exact computes_handleCancelOrder counted.healthy orderId userId timestamp
  | amendOrder amend => exact computes_handleAmendOrder counted.fees counted.healthy inRange

private theorem steady_processCommand (steady : engine.Steady) {command : GatewayCommand}
    (inRange : command.InRange) (fits : engine.CommandFits command) :
    (engine.processGateway command).1.Steady := by
  constructor
  · have same := (step_touches engine (.command command.toCommand)).symbolConfig
    rw [processGateway]
    rw [step] at same
    rw [same]
    exact steady.fees
  · have counted : ({ engine with sequence := engine.sequence + 1 } :
        MatchingEngine).orderbook.Healthy := steady.healthy
    cases command with
    | newOrder order =>
        exact healthy_handleNewOrder counted inRange.1 inRange.2.1 inRange.2.2
          ((newOrderFits_counted engine order _).2 fits.2)
    | cancelOrder orderId userId symbol timestamp =>
        exact healthy_handleCancelOrder counted orderId userId timestamp
    | amendOrder amend => exact healthy_handleAmendOrder counted inRange fits.2

private theorem inRange_of_converts {command : GatewayCommand}
    (converts : Gateway.Converts command.toCommand) : command.InRange := by
  generalize same : command.toCommand = issued at converts
  cases converts with
  | newOrder converted =>
      obtain ⟨order, rfl, carries⟩ := Gateway.newOrder_of_converted converted
      cases command with
      | newOrder other =>
          cases same
          exact carries
      | cancelOrder => cases same
      | amendOrder => cases same
  | cancelOrder converted =>
      cases converted
      cases command with
      | newOrder => cases same
      | cancelOrder => trivial
      | amendOrder => cases same
  | amendOrder converted =>
      obtain ⟨amend, rfl, prices, quantities⟩ := Gateway.amendOrder_of_converted converted
      cases command with
      | newOrder => cases same
      | cancelOrder => cases same
      | amendOrder other =>
          cases same
          exact ⟨prices, quantities⟩

/-- No run of converted commands from a new engine panics. -/
def NeverPanics : Prop :=
  ∀ (config : SymbolConfig) (ids : Nat → TradeId) (interestRate : Decimal128),
    config.FeesInRange → ∀ commands : List GatewayCommand,
      (∀ command ∈ commands, Gateway.Converts command.toCommand) →
        (runPartial processCommand? (new config ids interestRate) commands).isSome

/-- A run of commands that the gateway has converted is without a panic if and only if every
command fits the engine that it finds. -/
theorem panic_free_iff {config : SymbolConfig} (fees : config.FeesInRange)
    (ids : Nat → TradeId) (interestRate : Decimal128) {commands : List GatewayCommand}
    (converted : ∀ command ∈ commands, Gateway.Converts command.toCommand) :
    (runPartial processCommand? (new config ids interestRate) commands).isSome ↔
      StepsMeet processGateway CommandFits (new config ids interestRate) commands := by
  have start : (new config ids interestRate).Steady :=
    ⟨fees, OrderBook.Healthy.new config.symbol⟩
  have inRange : ∀ command ∈ commands, command.InRange := fun command member =>
    inRange_of_converts (converted command member)
  have each : ∀ (engine : MatchingEngine) (command : GatewayCommand), engine.Steady →
      command.InRange → Computes (engine.processCommand? command) (engine.CommandFits command)
        (engine.processGateway command) :=
    fun _ _ steady holds => computes_processCommand steady holds
  have kept : ∀ (engine : MatchingEngine) (command : GatewayCommand), engine.Steady →
      command.InRange → engine.CommandFits command → (engine.processGateway command).1.Steady :=
    fun _ _ steady holds fits => steady_processCommand steady holds fits
  exact (computes_run each kept start inRange).isSome_iff

/-- A limit order, as it is requested. -/
def limitRequest (side price quantity : String) : Gateway.PlaceOrderRequest where
  side := side
  orderType := "LIMIT"
  timeInForce := none
  quantity := quantity
  price := some price
  stopPrice := none
  reduceOnly := none
  clientOrderId := none

/-- An ask, and a bid that takes a part of it. -/
def smallOrders : List GatewayCommand :=
  [.newOrder (gatewayOrder 1 7 .sell 100 5), .newOrder (gatewayOrder 2 8 .buy 100 3)]

private theorem plainConfig_fees : plainConfig.FeesInRange := ⟨by decide, by decide⟩

theorem panic_free_small :
    StepsMeet processGateway CommandFits (new plainConfig id 0) smallOrders := by
  have converted : ∀ command ∈ smallOrders, Gateway.Converts command.toCommand := by
    have ask : Gateway.toNewOrderCommand (limitRequest "SELL" "100" "5") 7 1 1 0 =
        .returned (.newOrder (gatewayOrder 1 7 .sell 100 5)) := by decide +kernel
    have bid : Gateway.toNewOrderCommand (limitRequest "BUY" "100" "3") 8 1 2 0 =
        .returned (.newOrder (gatewayOrder 2 8 .buy 100 3)) := by decide +kernel
    simp only [smallOrders, List.forall_mem_cons]
    exact ⟨.newOrder ask, .newOrder bid, fun command member => by cases member⟩
  exact (panic_free_iff plainConfig_fees id 0 converted).1 (by decide +kernel)

/-- Two bids of 10^20 at one price. -/
def hugeBids : List GatewayCommand :=
  [.newOrder (gatewayOrder 1 7 .buy 1 100000000000000000000),
    .newOrder (gatewayOrder 2 8 .buy 1 100000000000000000000)]

/-- An ask and a bid of 10^11 at 10^11. -/
def hugeTrade : List GatewayCommand :=
  [.newOrder (gatewayOrder 1 7 .sell 100000000000 100000000000),
    .newOrder (gatewayOrder 2 8 .buy 100000000000 100000000000)]

/-- The total of a level, or the worth of a trade, leaves the range. -/
theorem huge_orders_panic :
    (runPartial processCommand? (new plainConfig id 0) hugeBids).isSome = false ∧
      (runPartial processCommand? (new plainConfig id 0) hugeTrade).isSome = false ∧
      ¬NeverPanics := by
  have level : (runPartial processCommand? (new plainConfig id 0) hugeBids).isSome = false := by
    decide +kernel
  have trade : (runPartial processCommand? (new plainConfig id 0) hugeTrade).isSome = false := by
    decide +kernel
  have converted : ∀ command ∈ hugeBids, Gateway.Converts command.toCommand := by
    have first :
        Gateway.toNewOrderCommand (limitRequest "BUY" "1" "100000000000000000000") 7 1 1 0 =
          .returned (.newOrder (gatewayOrder 1 7 .buy 1 100000000000000000000)) := by
      decide +kernel
    have second :
        Gateway.toNewOrderCommand (limitRequest "BUY" "1" "100000000000000000000") 8 1 2 0 =
          .returned (.newOrder (gatewayOrder 2 8 .buy 1 100000000000000000000)) := by
      decide +kernel
    simp only [hugeBids, List.forall_mem_cons]
    exact ⟨.newOrder first, .newOrder second, fun command member => by cases member⟩
  refine ⟨level, trade, fun never => ?_⟩
  have finished := never plainConfig id 0 plainConfig_fees hugeBids converted
  rw [level] at finished
  cases finished

end MatchingEngine
end Exg
