import Exg.Matching.BookOperations
import Mathlib.Data.List.Sort

/-!
# Snapshots of the engine

A snapshot lists the orders of the book as the hash map yields them and a restored engine
inserts them in that order.  Price levels and the user index come out as the list has them,
so a restored engine behaves like the original exactly if the map happens to yield the
orders of each level and of each user in the order in which they stand there.
-/

namespace Exg

open Support

/-- What a snapshot carries. -/
structure EngineSnapshot where
  symbol : SymbolId
  orders : List BookOrder
  stopOrders : List BookOrder
  markPrice : Decimal128
  indexPrice : Decimal128
  lastFundingRate : Decimal128
  sequence : Nat
  tradeIdCounter : Nat
  expiryEntries : List (UnixMicros × OrderId)

/-- The orders in which the order map and the expiry heap are iterated. -/
structure SnapshotOrder where
  orders : List BookOrder → List BookOrder
  entries : List (UnixMicros × OrderId) → List (UnixMicros × OrderId)
  orders_perm : ∀ stored, (orders stored).Perm stored
  entries_perm : ∀ stored, (entries stored).Perm stored

namespace SnapshotOrder

def stored : SnapshotOrder := ⟨id, id, List.Perm.refl, List.Perm.refl⟩

def reversed : SnapshotOrder :=
  ⟨List.reverse, List.reverse, List.reverse_perm, List.reverse_perm⟩

end SnapshotOrder

/-- All orders on the book; the source visits them in an order of its hash map. -/
def OrderBook.allOrders (book : OrderBook) : List BookOrder := book.orders.toList.map Prod.snd

namespace MatchingEngine

/-- Take a snapshot of the engine state. -/
def takeSnapshot (engine : MatchingEngine) (visit : SnapshotOrder) : EngineSnapshot where
  symbol := engine.orderbook.symbol
  orders := visit.orders engine.orderbook.allOrders
  stopOrders := engine.stopOrders
  markPrice := engine.markPrice
  indexPrice := engine.indexPrice
  lastFundingRate := engine.lastFundingRate
  sequence := engine.sequence
  tradeIdCounter := 0
  expiryEntries := visit.entries engine.expiryHeap

/-- Restore engine from a snapshot. -/
def restoreFromSnapshot (snapshot : EngineSnapshot) (config : SymbolConfig)
    (ids : Nat → TradeId) (interestRate : Decimal128) : MatchingEngine :=
  let engine := new config ids interestRate
  { engine with
    markPrice := snapshot.markPrice
    indexPrice := snapshot.indexPrice
    lastFundingRate := snapshot.lastFundingRate
    sequence := snapshot.sequence
    stopOrders := snapshot.stopOrders
    orderbook := snapshot.orders.foldl OrderBook.insertOrder engine.orderbook
    expiryHeap := snapshot.expiryEntries.foldl (fun heap entry => pushExpiry entry heap)
      engine.expiryHeap }

end MatchingEngine

/-! ## Trade ids -/

/-- An event without its trade id. -/
def Event.anonymous : Event → Event
  | .orderFilled filled => .orderFilled { filled with tradeId := 0 }
  | .tradeExecuted trade => .tradeExecuted { trade with tradeId := 0 }
  | event => event

namespace MatchingEngine

/-- The engine with other trade ids, and other ids seen in a replay. -/
def withIds (engine : MatchingEngine) (gen : TradeIdGen) (seen : List OrderId) :
    MatchingEngine :=
  { engine with tradeIdGen := gen, replaySeenOrderIds := seen }

/-- The second engine is the first up to these ids. -/
def AlikeUpToIds (first second : MatchingEngine) : Prop :=
  ∃ gen seen, second = first.withIds gen seen

/-- The same outcome up to trade ids. -/
def SameOutcome (first second : MatchingEngine × List Event) : Prop :=
  AlikeUpToIds first.1 second.1 ∧ first.2.map Event.anonymous = second.2.map Event.anonymous

variable {engine : MatchingEngine} {gen : TradeIdGen} {seen : List OrderId}

theorem AlikeUpToIds.intro (engine : MatchingEngine) (gen : TradeIdGen) (seen : List OrderId) :
    AlikeUpToIds engine (engine.withIds gen seen) := ⟨gen, seen, rfl⟩

theorem SameOutcome.intro (engine : MatchingEngine) (gen : TradeIdGen) (seen : List OrderId)
    (events : List Event) : SameOutcome (engine, events) (engine.withIds gen seen, events) :=
  ⟨AlikeUpToIds.intro engine gen seen, rfl⟩

private theorem emitFillEvents_anonymous (config : SymbolConfig) (book : OrderBook)
    (symbol : SymbolId)
    (timestamp : UnixMicros) (taker : BookOrder) (fills : List Fill) (first second : TradeIdGen) :
    (emitFillEvents config book symbol timestamp taker first fills).2.map Event.anonymous =
      (emitFillEvents config book symbol timestamp taker second fills).2.map Event.anonymous := by
  induction fills generalizing first second with
  | nil => rfl
  | cons fill rest inductionHypothesis =>
      rw [emitFillEvents, emitFillEvents, List.map_append, List.map_append,
        inductionHypothesis first.nextId.2 second.nextId.2]
      rfl

private theorem absorb_withIds (result : MatchResult) (symbol : SymbolId) (timestamp : UnixMicros) :
    SameOutcome (engine.absorb result symbol timestamp)
      ((engine.withIds gen seen).absorb result symbol timestamp) :=
  ⟨⟨_, _, rfl⟩, emitFillEvents_anonymous _ _ _ _ _ _ _ _⟩

/-- Both sides take the same branch. -/
theorem SameOutcome.ite {condition : Prop} [Decidable condition]
    {first second first' second' : MatchingEngine × List Event}
    (yes : condition → SameOutcome first first') (no : ¬condition → SameOutcome second second') :
    SameOutcome (if condition then first else second)
      (if condition then first' else second') := by
  by_cases holds : condition
  · rw [if_pos holds, if_pos holds]
    exact yes holds
  · rw [if_neg holds, if_neg holds]
    exact no holds

/-- A step after which another one follows. -/
theorem SameOutcome.andThen {first second : MatchingEngine × List Event}
    (same : SameOutcome first second) (next : MatchingEngine → MatchingEngine × List Event)
    (natural : ∀ engine gen seen, SameOutcome (next engine) (next (engine.withIds gen seen))) :
    SameOutcome ((next first.1).1, first.2 ++ (next first.1).2)
      ((next second.1).1, second.2 ++ (next second.1).2) := by
  obtain ⟨⟨gen, seen, alike⟩, events⟩ := same
  have later := natural first.1 gen seen
  rw [← alike] at later
  exact ⟨later.1, by rw [List.map_append, List.map_append, events, later.2]⟩

/-- A step after which the book changes. -/
theorem SameOutcome.thenBook {first second : MatchingEngine × List Event}
    (same : SameOutcome first second) (change : OrderBook → OrderBook) :
    SameOutcome ({ first.1 with orderbook := change first.1.orderbook }, first.2)
      ({ second.1 with orderbook := change second.1.orderbook }, second.2) := by
  obtain ⟨⟨gen, seen, alike⟩, events⟩ := same
  exact ⟨⟨gen, seen, by rw [alike]; rfl⟩, events⟩

theorem SameOutcome.cons {first second : MatchingEngine × List Event}
    (same : SameOutcome first second) (event : Event) :
    SameOutcome (first.1, event :: first.2) (second.1, event :: second.2) :=
  ⟨same.1, congrArg (event.anonymous :: ·) same.2⟩

private theorem placeRemaining_withIds (order : BookOrder) (timestamp : UnixMicros) :
    SameOutcome (engine.placeRemaining order timestamp)
      ((engine.withIds gen seen).placeRemaining order timestamp) := by
  rw [placeRemaining, placeRemaining]
  apply SameOutcome.ite
  · exact fun _ => SameOutcome.intro _ _ _ _
  · intro _
    have rested : SameOutcome
        (if order.orderType.isLimit || order.orderType = .iceberg then
          (engine.restOnBook order, [])
        else
          (engine, [.orderCanceled order.orderId order.userId order.symbol order.remainingQty
            timestamp]))
        (if order.orderType.isLimit || order.orderType = .iceberg then
          ((engine.withIds gen seen).restOnBook order, [])
        else
          (engine.withIds gen seen, [.orderCanceled order.orderId order.userId order.symbol
            order.remainingQty timestamp])) :=
      SameOutcome.ite (fun _ => ⟨⟨gen, seen, rfl⟩, rfl⟩) fun _ => SameOutcome.intro _ _ _ _
    cases order.timeInForce with
    | ioc => exact SameOutcome.intro _ _ _ _
    | fok => exact SameOutcome.intro _ _ _ _
    | gtc => exact rested
    | gtd => exact rested
    | postOnly => exact rested

private theorem matchNewOrder_withIds (order : BookOrder) (timestamp : UnixMicros) :
    SameOutcome (engine.matchNewOrder order timestamp)
      ((engine.withIds gen seen).matchNewOrder order timestamp) := by
  rw [matchNewOrder, matchNewOrder]
  apply SameOutcome.ite
  · exact fun _ => ⟨⟨gen, seen, rfl⟩, rfl⟩
  · intro _
    let result := matchOrder engine.orderbook order
    have matched : SameOutcome (engine.absorb result order.symbol timestamp)
        ((engine.withIds gen seen).absorb result order.symbol timestamp) := absorb_withIds _ _ _
    have placed := matched.andThen
      (fun engine => engine.placeRemaining (refillIceberg timestamp result.taker) timestamp)
      fun _ _ _ => placeRemaining_withIds _ _
    exact placed.cons _

private theorem handleNewOrder_withIds (order : NewOrder) :
    SameOutcome (engine.handleNewOrder order)
      ((engine.withIds gen seen).handleNewOrder order) := by
  rw [handleNewOrder, handleNewOrder]
  apply SameOutcome.ite
  · exact fun _ => SameOutcome.intro _ _ _ _
  · intro _
    apply SameOutcome.ite
    · exact fun _ => SameOutcome.intro _ _ _ _
    · intro _
      cases effectivePrice order with
      | none => exact SameOutcome.intro _ _ _ _
      | some price =>
          apply SameOutcome.ite
          · intro _
            apply SameOutcome.ite
            · exact fun _ => ⟨⟨gen, seen, rfl⟩, rfl⟩
            · exact fun _ => matchNewOrder_withIds _ _
          · exact fun _ => SameOutcome.intro _ _ _ _

private theorem handleCancelOrder_withIds (orderId : OrderId) (userId : UserId)
    (timestamp : UnixMicros) :
    SameOutcome (engine.handleCancelOrder orderId userId timestamp)
      ((engine.withIds gen seen).handleCancelOrder orderId userId timestamp) := by
  rw [handleCancelOrder, handleCancelOrder]
  dsimp only [withIds]
  cases engine.orderbook.getOrder orderId with
  | some order =>
      apply SameOutcome.ite
      · exact fun _ => ⟨⟨gen, seen, rfl⟩, rfl⟩
      · exact fun _ => ⟨⟨gen, seen, rfl⟩, rfl⟩
  | none =>
      cases engine.stopOrders.find? fun stop => stop.orderId = orderId with
      | none => exact SameOutcome.intro _ _ _ _
      | some order =>
          apply SameOutcome.ite
          · exact fun _ => ⟨⟨gen, seen, rfl⟩, rfl⟩
          · exact fun _ => ⟨⟨gen, seen, rfl⟩, rfl⟩

private theorem reinsertAmended_withIds (old : BookOrder) (amend : AmendOrder) :
    SameOutcome (engine.reinsertAmended old amend)
      ((engine.withIds gen seen).reinsertAmended old amend) := by
  rw [reinsertAmended, reinsertAmended]
  apply SameOutcome.ite
  · exact fun _ => ⟨⟨gen, seen, rfl⟩, rfl⟩
  · intro _
    apply SameOutcome.ite
    · exact fun _ => ⟨⟨gen, seen, rfl⟩, rfl⟩
    · intro _
      let result := matchOrder (engine.orderbook.removeOrder amend.orderId)
        (amendedOrder old amend)
      have matched : SameOutcome (engine.absorb result amend.symbol amend.timestamp)
          ((engine.withIds gen seen).absorb result amend.symbol amend.timestamp) :=
        absorb_withIds _ _ _
      have reported := (matched.cons (.orderAccepted (acceptedOf result.taker amend.symbol
        amend.timestamp))).cons (.orderCanceled amend.orderId amend.userId amend.symbol
          old.remainingQty amend.timestamp)
      apply SameOutcome.ite
      · exact fun _ => reported
      · exact fun _ => reported.thenBook fun book => book.insertOrder result.taker

private theorem handleAmendOrder_withIds (amend : AmendOrder) :
    SameOutcome (engine.handleAmendOrder amend)
      ((engine.withIds gen seen).handleAmendOrder amend) := by
  rw [handleAmendOrder, handleAmendOrder]
  dsimp only [withIds]
  cases engine.orderbook.getOrder amend.orderId with
  | none => exact SameOutcome.intro _ _ _ _
  | some existing =>
      apply SameOutcome.ite
      · exact fun _ => SameOutcome.intro _ _ _ _
      · intro _
        apply SameOutcome.ite
        · exact fun _ => reinsertAmended_withIds _ _
        · intro _
          cases amend.newQuantity.filter (· < existing.remainingQty) with
          | none => exact SameOutcome.intro _ _ _ _
          | some quantity =>
              apply SameOutcome.ite
              · exact fun _ => SameOutcome.intro _ _ _ _
              · exact fun _ => ⟨⟨gen, seen, rfl⟩, rfl⟩

private theorem triggerOne_withIds (order : BookOrder) (timestamp : UnixMicros) :
    SameOutcome (engine.triggerOne order timestamp)
      ((engine.withIds gen seen).triggerOne order timestamp) := by
  rw [triggerOne, triggerOne]
  apply SameOutcome.ite
  · exact fun _ => ⟨⟨gen, seen, rfl⟩, rfl⟩
  · intro _
    let result := matchOrder engine.orderbook (convertTriggered order)
    have matched : SameOutcome (engine.absorb result result.taker.symbol timestamp)
        ((engine.withIds gen seen).absorb result result.taker.symbol timestamp) :=
      absorb_withIds _ _ _
    apply SameOutcome.ite
    · exact fun _ => matched
    · exact fun _ => matched.thenBook fun book => book.insertOrder result.taker

private theorem triggerAll_withIds (timestamp : UnixMicros) (pending : List BookOrder) :
    SameOutcome (triggerAll timestamp engine pending)
      (triggerAll timestamp (engine.withIds gen seen) pending) := by
  induction pending generalizing engine gen seen with
  | nil => exact SameOutcome.intro _ _ _ _
  | cons order rest inductionHypothesis =>
      have first : SameOutcome (engine.triggerOne order timestamp)
          ((engine.withIds gen seen).triggerOne order timestamp) := triggerOne_withIds _ _
      exact first.andThen (fun engine => triggerAll timestamp engine rest)
        fun _ _ _ => inductionHypothesis

/-- Trade ids have no influence on anything else. -/
theorem step_withIds (engine : MatchingEngine) (gen : TradeIdGen) (seen : List OrderId)
    (input : EngineInput) :
    SameOutcome (engine.step input) ((engine.withIds gen seen).step input) := by
  cases input with
  | expirySweep now => exact ⟨⟨gen, seen, rfl⟩, rfl⟩
  | command issued =>
      let counted : MatchingEngine := { engine with sequence := engine.sequence + 1 }
      cases issued with
      | newOrder order => exact handleNewOrder_withIds order
      | cancelOrder orderId userId symbol timestamp =>
          exact handleCancelOrder_withIds orderId userId timestamp
      | amendOrder amend => exact handleAmendOrder_withIds amend
      | cancelAllOrders userId symbol timestamp => exact ⟨⟨gen, seen, rfl⟩, rfl⟩
      | updateMarkPrice symbol mark index timestamp =>
          let passive := counted.applyMarkIndexPassive mark index
          let scanned := swapScan (shouldTrigger mark) passive.stopOrders
          have triggered : SameOutcome
              (triggerAll timestamp { passive with stopOrders := scanned.2 } scanned.1)
              (triggerAll timestamp ({ passive with stopOrders := scanned.2 }.withIds gen seen)
                scanned.1) := triggerAll_withIds _ _
          exact triggered.cons _
      | computeFunding symbol timestamp => exact ⟨⟨gen, seen, rfl⟩, rfl⟩
      | adminCredit userId amount key timestamp => exact ⟨⟨gen, seen, rfl⟩, rfl⟩

private theorem run_withIds (engine : MatchingEngine) (gen : TradeIdGen) (seen : List OrderId)
    (inputs : List EngineInput) :
    SameOutcome (run step engine inputs) (run step (engine.withIds gen seen) inputs) := by
  refine run_alike (fun first second input alike => ?_) inputs (AlikeUpToIds.intro engine gen seen)
  obtain ⟨gen', seen', rfl⟩ := alike
  exact step_withIds first gen' seen' input

end MatchingEngine

/-! ## The expiry heap -/

/-- The order in which expiry entries are popped. -/
def DueBefore (first second : UnixMicros × OrderId) : Prop :=
  first.1 < second.1 ∨ (first.1 = second.1 ∧ first.2 ≤ second.2)

instance : DecidableRel DueBefore := fun _ _ => inferInstanceAs (Decidable (_ ∨ _))

instance : Std.Total DueBefore where
  total := by
    intro first second
    simp only [DueBefore, UnixMicros, OrderId]
    omega

instance : IsTrans (UnixMicros × OrderId) DueBefore where
  trans := by
    intro first second third
    simp only [DueBefore, UnixMicros, OrderId]
    omega

instance : Std.Antisymm DueBefore where
  antisymm := by
    intro first second before after
    simp only [DueBefore] at before after
    apply Prod.ext
    · grind
    · grind

theorem pushExpiry_eq (entry : UnixMicros × OrderId) (heap : List (UnixMicros × OrderId)) :
    pushExpiry entry heap = heap.orderedInsert DueBefore entry := by
  induction heap with
  | nil => rfl
  | cons head rest inductionHypothesis =>
      rw [pushExpiry, List.orderedInsert_cons, inductionHypothesis]
      rfl

/-- Pushing the entries in any order gives the heap back. -/
theorem foldl_pushExpiry {heap entries : List (UnixMicros × OrderId)}
    (sorted : heap.Pairwise DueBefore) (perm : entries.Perm heap) :
    entries.foldl (fun heap entry => pushExpiry entry heap) [] = heap := by
  have pushed : entries.foldl (fun heap entry => pushExpiry entry heap) [] =
      entries.reverse.insertionSort DueBefore := by
    rw [List.foldl_eq_foldr_reverse]
    simp only [pushExpiry_eq]
    rfl
  rw [pushed]
  have rearranged := (List.perm_insertionSort DueBefore entries.reverse).trans
    ((List.reverse_perm entries).trans perm)
  exact rearranged.eq_of_pairwise' (List.pairwise_insertionSort DueBefore _) sorted

/-! ## Books given by their contents -/

namespace OrderBook

/-- In a well-formed book, a level is its queue. -/
theorem WellFormed.level_eq {book : OrderBook} (wellFormed : book.WellFormed) (side : Side)
    (price : Decimal128) :
    book.level? side price =
      if book.queue side price = [] then none
      else some ⟨price, ((book.queue side price).map book.remaining).sum,
        book.queue side price⟩ := by
  cases found : book.level? side price with
  | none => simp [queue, found]
  | some level =>
      have agrees := wellFormed.toLevels.agrees found
      rw [queue_of_level found, if_neg agrees.nonempty]
      exact congrArg some (PriceLevel.ext agrees.price_eq agrees.total_eq rfl)

private theorem WellFormed.userOrders_eq {book : OrderBook} (wellFormed : book.WellFormed)
    (userId : UserId) :
    book.userOrders[userId]? =
      if book.getUserOrders userId = [] then none else some (book.getUserOrders userId) := by
  cases found : book.userOrders[userId]? with
  | none => simp [getUserOrders, found]
  | some ids =>
      have nonempty := wellFormed.toUsers.nonempty found
      simp [getUserOrders, found, nonempty]

/-- Two well-formed books with the same orders, queues and user index are the same. -/
theorem WellFormed.ext {first second : OrderBook} (wellFormed : first.WellFormed)
    (wellFormed' : second.WellFormed) (symbol : first.symbol = second.symbol)
    (orders : ∀ orderId, first.getOrder orderId = second.getOrder orderId)
    (queues : ∀ side price, first.queue side price = second.queue side price)
    (users : ∀ userId, first.getUserOrders userId = second.getUserOrders userId) :
    first = second := by
  have remaining : first.remaining = second.remaining := by
    funext orderId
    rw [OrderBook.remaining, OrderBook.remaining, orders]
  have levels : ∀ side price, first.level? side price = second.level? side price := by
    intro side price
    rw [wellFormed.level_eq, wellFormed'.level_eq, queues, remaining]
  have bids : first.bids = second.bids := Std.ExtTreeMap.ext_getElem? (levels .buy)
  have asks : first.asks = second.asks := Std.ExtTreeMap.ext_getElem? (levels .sell)
  have stored : first.orders = second.orders := Std.ExtTreeMap.ext_getElem? orders
  have index : first.userOrders = second.userOrders := by
    apply Std.ExtTreeMap.ext_getElem?
    intro userId
    rw [wellFormed.userOrders_eq, wellFormed'.userOrders_eq, users]
  cases first
  cases second
  subst symbol bids asks stored index
  rfl

/-! ### Inserting a list of orders -/

section InsertAll

variable (book : OrderBook) (orders : List BookOrder)

private theorem queue_insertAll (side : Side) (price : Decimal128) :
    (orders.foldl insertOrder book).queue side price =
      book.queue side price ++
        (orders.filter fun order => order.side = side ∧ order.price = price).map
          BookOrder.orderId := by
  induction orders generalizing book with
  | nil => simp
  | cons order rest inductionHypothesis =>
      rw [List.foldl_cons, inductionHypothesis, queue_insertOrder]
      by_cases here : order.side = side ∧ order.price = price
      · simp [here]
      · simp [here]

private theorem getUserOrders_insertAll (userId : UserId) :
    (orders.foldl insertOrder book).getUserOrders userId =
      book.getUserOrders userId ++
        (orders.filter fun order => order.userId = userId).map BookOrder.orderId := by
  induction orders generalizing book with
  | nil => simp
  | cons order rest inductionHypothesis =>
      have here : (book.insertOrder order).getUserOrders userId =
          if order.userId = userId then book.getUserOrders userId ++ [order.orderId]
          else book.getUserOrders userId := by
        rw [getUserOrders, userOrders_insertOrder]
        split <;> rfl
      rw [List.foldl_cons, inductionHypothesis, here]
      by_cases own : order.userId = userId
      · simp [own]
      · simp [own]

private theorem symbol_insertAll : (orders.foldl insertOrder book).symbol = book.symbol := by
  induction orders generalizing book with
  | nil => rfl
  | cons order rest inductionHypothesis =>
      rw [List.foldl_cons, inductionHypothesis]
      exact symbol_perform book (.insertOrder order)

variable {book orders}

private theorem getOrder_insertAll_of_not_mem {orderId : OrderId}
    (absent : orderId ∉ orders.map BookOrder.orderId) :
    (orders.foldl insertOrder book).getOrder orderId = book.getOrder orderId := by
  induction orders generalizing book with
  | nil => rfl
  | cons order rest inductionHypothesis =>
      rw [List.map_cons, List.mem_cons, not_or] at absent
      rw [List.foldl_cons, inductionHypothesis absent.2, getOrder_insertOrder,
        if_neg (Ne.symm absent.1)]

private theorem getOrder_insertAll_of_mem (distinct : (orders.map BookOrder.orderId).Nodup)
    {order : BookOrder} (member : order ∈ orders) :
    (orders.foldl insertOrder book).getOrder order.orderId = some order := by
  induction orders generalizing book with
  | nil => cases member
  | cons head rest inductionHypothesis =>
      rw [List.map_cons, List.nodup_cons] at distinct
      rw [List.foldl_cons]
      rcases List.mem_cons.1 member with rfl | later
      · rw [getOrder_insertAll_of_not_mem distinct.1, getOrder_insertOrder, if_pos rfl]
      · exact inductionHypothesis distinct.2 later

private theorem WellFormed.insertAll (wellFormed : book.WellFormed)
    (distinct : (orders.map BookOrder.orderId).Nodup)
    (missing : ∀ order ∈ orders, book.getOrder order.orderId = none) :
    (orders.foldl OrderBook.insertOrder book).WellFormed := by
  induction orders generalizing book with
  | nil => exact wellFormed
  | cons head rest inductionHypothesis =>
      rw [List.map_cons, List.nodup_cons] at distinct
      apply inductionHypothesis (wellFormed.insertOrder (missing head List.mem_cons_self))
        distinct.2
      intro order later
      have apart : head.orderId ≠ order.orderId := by
        intro same
        exact distinct.1 (same ▸ List.mem_map_of_mem later)
      rw [getOrder_insertOrder, if_neg apart]
      exact missing order (List.mem_cons_of_mem head later)

end InsertAll

/-! ### The orders a book holds -/

private theorem KeyedById.mem_allOrders {book : OrderBook} (keyed : book.KeyedById)
    {order : BookOrder} :
    order ∈ book.allOrders ↔ book.getOrder order.orderId = some order := by
  rw [allOrders, List.mem_map]
  constructor
  · rintro ⟨⟨orderId, stored⟩, member, rfl⟩
    rw [Std.ExtTreeMap.mem_toList_iff_getElem?_eq_some] at member
    have own : stored.orderId = orderId := keyed orderId stored member
    rw [own]
    exact member
  · intro found
    exact ⟨(order.orderId, order),
      Std.ExtTreeMap.mem_toList_iff_getElem?_eq_some.2 found, rfl⟩

private theorem KeyedById.allOrders_nodup {book : OrderBook} (keyed : book.KeyedById) :
    (book.allOrders.map BookOrder.orderId).Nodup := by
  rw [allOrders, List.map_map]
  have sameKeys : book.orders.toList.map (BookOrder.orderId ∘ Prod.snd) =
      book.orders.toList.map Prod.fst := by
    apply List.map_congr_left
    rintro ⟨orderId, order⟩ member
    rw [Std.ExtTreeMap.mem_toList_iff_getElem?_eq_some] at member
    exact keyed orderId order member
  rw [sameKeys, Std.ExtTreeMap.map_fst_toList_eq_keys]
  exact Std.ExtTreeMap.nodup_keys

/-- The list has the orders of each level and of each user in the order of the book. -/
structure ListedInOrder (book : OrderBook) (orders : List BookOrder) : Prop where
  queues : ∀ side price,
    (orders.filter fun order => order.side = side ∧ order.price = price).map BookOrder.orderId =
      book.queue side price
  users : ∀ userId,
    (orders.filter fun order => order.userId = userId).map BookOrder.orderId =
      book.getUserOrders userId

/-- Inserting the orders of a book again gives the book back exactly if the book is well
formed and the list has them in the order of the book. -/
theorem insertAll_eq_iff {book : OrderBook} (keyed : book.KeyedById) {orders : List BookOrder}
    (perm : orders.Perm book.allOrders) :
    orders.foldl insertOrder (new book.symbol) = book ↔
      book.WellFormed ∧ book.ListedInOrder orders := by
  have distinct : (orders.map BookOrder.orderId).Nodup :=
    (perm.map BookOrder.orderId).nodup_iff.2 keyed.allOrders_nodup
  have rebuilt : (orders.foldl insertOrder (new book.symbol)).WellFormed :=
    (wellFormed_new book.symbol).insertAll distinct fun _ _ => getOrder_new _ _
  constructor
  · intro same
    refine ⟨same ▸ rebuilt, fun side price => ?_, fun userId => ?_⟩
    · have queued := queue_insertAll (new book.symbol) orders side price
      rw [same] at queued
      rw [queued]
      simp [queue]
    · have listed := getUserOrders_insertAll (new book.symbol) orders userId
      rw [same] at listed
      rw [listed]
      simp
  · rintro ⟨wellFormed, inOrder⟩
    refine rebuilt.ext wellFormed (symbol_insertAll _ _) (fun orderId => ?_)
      (fun side price => ?_) (fun userId => ?_)
    · cases found : book.getOrder orderId with
      | some order =>
          have own := keyed orderId order found
          rw [← own] at found ⊢
          have member := perm.mem_iff.2 (keyed.mem_allOrders.2 found)
          exact getOrder_insertAll_of_mem distinct member
      | none =>
          have absent : orderId ∉ orders.map BookOrder.orderId := by
            intro member
            obtain ⟨order, listed, rfl⟩ := List.mem_map.1 member
            rw [keyed.mem_allOrders.1 (perm.mem_iff.1 listed)] at found
            cases found
          rw [getOrder_insertAll_of_not_mem absent, getOrder_new]
    · rw [queue_insertAll, inOrder.queues]
      simp [queue]
    · rw [getUserOrders_insertAll, inOrder.users]
      simp

end OrderBook

/-! ## Restored engines -/

namespace MatchingEngine

/-- What every reachable engine has, whatever ids its orders carry. -/
structure Restorable (engine : MatchingEngine) : Prop where
  keyed : engine.orderbook.KeyedById
  symbol : engine.orderbook.symbol = engine.symbolConfig.symbol
  sorted : engine.expiryHeap.Pairwise DueBefore

private theorem restorable_new (config : SymbolConfig) (ids : Nat → TradeId)
    (interestRate : Decimal128) : (new config ids interestRate).Restorable where
  keyed := OrderBook.keyedById_new config.symbol
  symbol := rfl
  sorted := List.Pairwise.nil

theorem Restorable.step {engine : MatchingEngine} (restorable : engine.Restorable)
    (input : EngineInput) : (engine.step input).1.Restorable := by
  have touches := step_touches engine input
  constructor
  · exact touches.book.keeps (fun _ operation keyed => keyed.perform operation) restorable.keyed
  · have sameSymbol : (engine.step input).1.orderbook.symbol = engine.orderbook.symbol :=
      touches.book.keeps
        (fun book operation same => (OrderBook.symbol_perform book operation).trans same) rfl
    rw [sameSymbol, touches.symbolConfig]
    exact restorable.symbol
  · rcases touches.heap with popped | ⟨entry, pushed⟩
    · exact restorable.sorted.sublist popped.sublist
    · rw [pushed, pushExpiry_eq]
      exact List.Pairwise.orderedInsert entry _ restorable.sorted

theorem restorable_run (config : SymbolConfig) (ids : Nat → TradeId) (interestRate : Decimal128)
    (inputs : List EngineInput) :
    (run step (new config ids interestRate) inputs).1.Restorable := by
  apply run_induction step (motive := fun _ engine _ => engine.Restorable)
  · exact restorable_new config ids interestRate
  · exact fun _ input _ restorable => restorable.step input

/-- The engine restored from a snapshot of this one. -/
def restored (engine : MatchingEngine) (visit : SnapshotOrder) (ids : Nat → TradeId) :
    MatchingEngine :=
  restoreFromSnapshot (engine.takeSnapshot visit) engine.symbolConfig ids engine.interestRate

/-- Whatever comes later, the restored engine emits the same events up to trade ids, and ends
with the same book, waiting orders and prices. -/
def Transparent (engine : MatchingEngine) (visit : SnapshotOrder) (ids : Nat → TradeId) : Prop :=
  ∀ inputs,
    let original := run step engine inputs
    let later := run step (engine.restored visit ids) inputs
    later.2.map Event.anonymous = original.2.map Event.anonymous ∧
      later.1.orderbook = original.1.orderbook ∧
      later.1.stopOrders = original.1.stopOrders ∧
      later.1.markPrice = original.1.markPrice ∧
      later.1.indexPrice = original.1.indexPrice

private theorem Restorable.restored_book {engine : MatchingEngine} (restorable : engine.Restorable)
    (visit : SnapshotOrder) (ids : Nat → TradeId) :
    (engine.restored visit ids).orderbook = engine.orderbook ↔
      engine.orderbook.WellFormed ∧
        engine.orderbook.ListedInOrder (visit.orders engine.orderbook.allOrders) := by
  rw [← OrderBook.insertAll_eq_iff restorable.keyed (visit.orders_perm _), restorable.symbol]
  rfl

/-- A snapshot is transparent exactly if the book is well formed and the hash map yields the
orders of each level and of each user in the order in which they stand there. -/
theorem snapshot_transparent_iff (config : SymbolConfig) (ids : Nat → TradeId)
    (interestRate : Decimal128) (before : List EngineInput) (visit : SnapshotOrder)
    (laterIds : Nat → TradeId) :
    let engine := (run step (new config ids interestRate) before).1
    engine.Transparent visit laterIds ↔
      engine.orderbook.WellFormed ∧
        engine.orderbook.ListedInOrder (visit.orders engine.orderbook.allOrders) := by
  intro engine
  have restorable : engine.Restorable := restorable_run config ids interestRate before
  rw [← restorable.restored_book visit laterIds]
  constructor
  · exact fun transparent => (transparent []).2.1
  · intro sameBook inputs
    have heap : (engine.restored visit laterIds).expiryHeap = engine.expiryHeap :=
      foldl_pushExpiry restorable.sorted (visit.entries_perm engine.expiryHeap)
    have alike : engine.restored visit laterIds = engine.withIds ⟨laterIds, 0⟩ [] := by
      calc engine.restored visit laterIds
          = { engine.withIds ⟨laterIds, 0⟩ [] with
              orderbook := (engine.restored visit laterIds).orderbook
              expiryHeap := (engine.restored visit laterIds).expiryHeap } := rfl
        _ = engine.withIds ⟨laterIds, 0⟩ [] := by
              rw [sameBook, heap]
              rfl
    obtain ⟨⟨gen, seen, final⟩, events⟩ := run_withIds engine ⟨laterIds, 0⟩ [] inputs
    dsimp only
    rw [alike, final]
    exact ⟨events.symm, rfl, rfl, rfl, rfl⟩

/-- Two orders at one price. -/
def oneLevelInputs : List EngineInput :=
  [.command (.newOrder (gatewayOrder 1 7 .buy 100 5)),
    .command (.newOrder (gatewayOrder 2 8 .buy 100 3))]

/-- If the hash map yields the later one first, it stands first in the restored book, and the
next taker meets it first. -/
theorem snapshot_loses_priority :
    ¬∀ (config : SymbolConfig) (ids : Nat → TradeId) (interestRate : Decimal128)
      (before : List EngineInput) (visit : SnapshotOrder) (laterIds : Nat → TradeId),
      (run step (new config ids interestRate) before).1.Transparent visit laterIds := by
  intro transparent
  have claimed := (transparent plainConfig id 0 oneLevelInputs .reversed id
    [.command (.newOrder (gatewayOrder 3 9 .sell 100 3))]).1
  revert claimed
  decide +kernel

end MatchingEngine
end Exg
