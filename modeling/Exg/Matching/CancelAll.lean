import Exg.Matching.IcebergRuns
import Exg.Matching.TimePriority

/-!
# Cancel all

The orders of a user on the book are found through the user index, the waiting ones by a
scan.  Together they are the live orders of the user, and what stays is everybody else's
as it was, down to the queues and the level totals.
-/

namespace Exg

open Support

namespace OrderBook

variable {book : OrderBook}

/-- The part of a queue that other users own. -/
def othersQueue (book : OrderBook) (userId : UserId) (side : Side) (price : Decimal128) :
    List OrderId :=
  (book.queue side price).filter fun orderId =>
    (book.getOrder orderId).any fun order => order.userId ≠ userId

private theorem queue_cancelAll (wellFormed : book.WellFormed) (userId : UserId) (side : Side)
    (price : Decimal128) :
    (book.cancelAllUserOrders userId).1.queue side price = book.othersQueue userId side price := by
  rw [(shrinks_cancelAllUserOrders wellFormed.toLevels userId).queue side price, othersQueue]
  refine List.filter_congr fun orderId _ => ?_
  rw [wellFormed.getOrder_cancelAll, Option.isSome_filter]

/-- What stays of a level: the other users' orders, in their order, with their total. -/
theorem level?_cancelAll (wellFormed : book.WellFormed) (userId : UserId) (side : Side)
    (price : Decimal128) :
    (book.cancelAllUserOrders userId).1.level? side price =
      if book.othersQueue userId side price = [] then
        none
      else
        some
          { price := price
            totalQty := ((book.othersQueue userId side price).map book.remaining).sum
            orders := book.othersQueue userId side price } := by
  have after := (wellFormed.cancelAllUserOrders userId).toLevels
  have queued := queue_cancelAll wellFormed userId side price
  cases found : (book.cancelAllUserOrders userId).1.level? side price with
  | none =>
      have empty : book.othersQueue userId side price = [] := by
        rw [← queued, queue, found]
        rfl
      rw [if_pos empty]
  | some level =>
      have agrees := after.agrees found
      have orders : level.orders = book.othersQueue userId side price := by
        rw [← queued, queue_of_level found]
      have total : level.totalQty =
          ((book.othersQueue userId side price).map book.remaining).sum := by
        rw [agrees.total_eq, orders]
        refine congrArg List.sum (List.map_congr_left fun orderId member => ?_)
        rw [← queued] at member
        obtain ⟨order, kept, -, -⟩ := after.stored member
        rw [remaining_of_some kept, remaining_of_some]
        rw [wellFormed.getOrder_cancelAll] at kept
        exact (Option.filter_eq_some_iff.1 kept).1
      rw [if_neg (orders ▸ agrees.nonempty)]
      exact congrArg some (PriceLevel.ext agrees.price_eq total orders)

end OrderBook

namespace MatchingEngine

variable {engine : MatchingEngine} {used : List OrderId}

/-- An order is live on the book, or while it waits. -/
def Live (engine : MatchingEngine) (order : BookOrder) : Prop :=
  engine.orderbook.getOrder order.orderId = some order ∨ order ∈ engine.stopOrders

/-- The orders that `cancel_all_user_orders` returns. -/
theorem mem_cancelAllUserOrders (wellFormed : engine.orderbook.WellFormed) {userId : UserId}
    {order : BookOrder} :
    order ∈ (engine.orderbook.cancelAllUserOrders userId).2 ↔
      engine.orderbook.getOrder order.orderId = some order ∧ order.userId = userId := by
  rw [wellFormed.cancelAllUserOrders_snd, List.mem_filterMap]
  constructor
  · rintro ⟨orderId, listed, found⟩
    obtain ⟨other, stored, owner⟩ := wellFormed.toUsers.listed.1 listed
    rw [found] at stored
    cases stored
    rw [wellFormed.toLevels.keyed found]
    exact ⟨found, owner⟩
  · rintro ⟨found, owner⟩
    exact ⟨order.orderId, wellFormed.toUsers.listed.2 ⟨order, found, owner⟩, found⟩

/-- The records of a cancel-all: one for each live order of the user. -/
theorem mem_handleCancelAll (wellFormed : engine.orderbook.WellFormed) {symbol : SymbolId}
    (waiting : engine.WaitingFor symbol) {userId : UserId} {timestamp : UnixMicros}
    {event : Event} :
    event ∈ (engine.handleCancelAll userId symbol timestamp).2 ↔
      ∃ order, engine.Live order ∧ order.userId = userId ∧
        event = .orderCanceled order.orderId userId symbol order.remainingQty timestamp := by
  have stops (order : BookOrder) := (swapScan_fst_perm (fun stop : BookOrder =>
    decide (stop.userId = userId) && decide (stop.symbol = symbol))
    engine.stopOrders).mem_iff (a := order)
  rw [handleCancelAll, List.mem_append, List.mem_map, List.mem_map]
  constructor
  · rintro (⟨order, member, rfl⟩ | ⟨order, member, rfl⟩)
    · obtain ⟨found, owner⟩ := (mem_cancelAllUserOrders wellFormed).1 member
      exact ⟨order, Or.inl found, owner, rfl⟩
    · obtain ⟨waits, own⟩ := List.mem_filter.1 ((stops order).1 member)
      rw [Bool.and_eq_true, decide_eq_true_iff] at own
      exact ⟨order, Or.inr waits, own.1, rfl⟩
  · rintro ⟨order, found | waits, owner, rfl⟩
    · exact Or.inl ⟨order, (mem_cancelAllUserOrders wellFormed).2 ⟨found, owner⟩, rfl⟩
    · refine Or.inr ⟨order, (stops order).2 (List.mem_filter.2 ⟨waits, ?_⟩), rfl⟩
      rw [Bool.and_eq_true, decide_eq_true_iff, decide_eq_true_iff]
      exact ⟨owner, waiting order waits⟩

/-- The ids in the records: the book's first, then those of the waiting orders. -/
theorem canceledIds_handleCancelAll (userId : UserId) (symbol : SymbolId)
    (timestamp : UnixMicros) :
    canceledIds (engine.handleCancelAll userId symbol timestamp).2 =
      (engine.orderbook.cancelAllUserOrders userId).2.map BookOrder.orderId ++
        (swapScan (fun stop : BookOrder =>
          decide (stop.userId = userId) && decide (stop.symbol = symbol))
          engine.stopOrders).1.map BookOrder.orderId := by
  rw [handleCancelAll, canceledIds, List.filterMap_append, List.filterMap_map, List.filterMap_map,
    ← List.filterMap_eq_map]
  rfl

/-- No order is canceled twice. -/
theorem canceledIds_handleCancelAll_nodup (placed : engine.AllPlaced used) (userId : UserId)
    (symbol : SymbolId) (timestamp : UnixMicros) :
    (canceledIds (engine.handleCancelAll userId symbol timestamp).2).Nodup := by
  have wellFormed : engine.orderbook.WellFormed := Placed.wellFormed placed
  have stops := swapScan_fst_perm (fun stop : BookOrder =>
    decide (stop.userId = userId) && decide (stop.symbol = symbol)) engine.stopOrders
  rw [canceledIds_handleCancelAll, List.nodup_append]
  refine ⟨?_, ?_, ?_⟩
  · rw [wellFormed.cancelAllUserOrders_snd, List.map_filterMap]
    refine (wellFormed.toUsers.nodup userId).filterMap fun first second orderId here there => ?_
    obtain ⟨order, found, rfl⟩ := Option.map_eq_some_iff.1 here
    obtain ⟨other, stored, same⟩ := Option.map_eq_some_iff.1 there
    rw [← wellFormed.toLevels.keyed found, ← same, wellFormed.toLevels.keyed stored]
  · rw [(stops.map BookOrder.orderId).nodup_iff]
    exact (Placed.nodup placed).sublist (List.filter_sublist.map BookOrder.orderId)
  · rintro orderId onBook _ waiting rfl
    obtain ⟨order, member, rfl⟩ := List.mem_map.1 onBook
    obtain ⟨found, -⟩ := (mem_cancelAllUserOrders wellFormed).1 member
    obtain ⟨stop, taken, sameId⟩ := List.mem_map.1 waiting
    have waits := (List.mem_filter.1 (stops.subset taken)).1
    have missing := Placed.apart placed _ (List.mem_map.2 ⟨stop, waits, sameId⟩)
    rw [found] at missing
    cases missing

/-- The waiting orders that stay. -/
theorem stopOrders_handleCancelAll {symbol : SymbolId} (waiting : engine.WaitingFor symbol)
    (userId : UserId) (timestamp : UnixMicros) :
    (engine.handleCancelAll userId symbol timestamp).1.stopOrders.Perm
      (engine.stopOrders.filter fun stop => stop.userId ≠ userId) := by
  refine (swapScan_snd_perm _ _).trans (List.Perm.of_eq (List.filter_congr fun stop waits => ?_))
  simp [waiting stop waits]

/-- What the inputs of a run must be about: new orders name the engine's symbol. -/
def OnSymbol (only : SymbolId) (input : EngineInput) : Prop :=
  ∀ order, input = .command (.newOrder order) → order.symbol = only

private theorem waitingFor_run (config : SymbolConfig) (ids : Nat → TradeId)
    (interestRate : Decimal128)
    {inputs : List EngineInput} (named : ∀ input ∈ inputs, OnSymbol config.symbol input) :
    (run step (new config ids interestRate) inputs).1.WaitingFor config.symbol := by
  have meet : StepsMeet step (fun _ => OnSymbol config.symbol) (new config ids interestRate)
      inputs := StepsMeet.of_forall fun _ input member => named input member
  have start : (new config ids interestRate).WaitingFor config.symbol := by
    intro stop waits
    cases waits
  exact meet.run_keeps (fun engine input onSymbol (waiting : engine.WaitingFor config.symbol) =>
    waiting.step input onSymbol) start

/-- Cancel-all takes the user's orders, reports each once, and leaves all others as they
were. -/
theorem cancel_all_exact (config : SymbolConfig) (ids : Nat → TradeId)
    (interestRate : Decimal128) (inputs : List EngineInput)
    (distinct : (newOrderIds inputs).Nodup)
    (named : ∀ input ∈ inputs, OnSymbol config.symbol input) (userId : UserId)
    (timestamp : UnixMicros) :
    let engine := (run step (new config ids interestRate) inputs).1
    let outcome := engine.step (.command (.cancelAllOrders userId config.symbol timestamp))
    let after := outcome.1
    ((∀ orderId order, after.orderbook.getOrder orderId = some order → order.userId ≠ userId) ∧
      ∀ stop ∈ after.stopOrders, stop.userId ≠ userId) ∧
    ((canceledIds outcome.2).Nodup ∧
      ∀ event, event ∈ outcome.2 ↔
        ∃ order, engine.Live order ∧ order.userId = userId ∧
          event = .orderCanceled order.orderId userId config.symbol order.remainingQty
            timestamp) ∧
    (∀ orderId, after.orderbook.getOrder orderId =
      (engine.orderbook.getOrder orderId).filter fun order => order.userId ≠ userId) ∧
    (∀ side price,
      after.orderbook.queue side price = engine.orderbook.othersQueue userId side price ∧
      after.orderbook.level? side price =
        if engine.orderbook.othersQueue userId side price = [] then
          none
        else
          some
            { price := price
              totalQty := ((engine.orderbook.othersQueue userId side price).map
                engine.orderbook.remaining).sum
              orders := engine.orderbook.othersQueue userId side price }) ∧
    after.stopOrders.Perm (engine.stopOrders.filter fun stop => stop.userId ≠ userId) := by
  intro engine outcome after
  have placed : engine.AllPlaced (newOrderIds inputs) :=
    placed_run config ids interestRate distinct
  have wellFormed : engine.orderbook.WellFormed := Placed.wellFormed placed
  have waiting : engine.WaitingFor config.symbol := waitingFor_run config ids interestRate named
  let counted : MatchingEngine := { engine with sequence := engine.sequence + 1 }
  have countedPlaced : counted.AllPlaced (newOrderIds inputs) := placed
  have countedWaiting : counted.WaitingFor config.symbol := waiting
  have stored := wellFormed.getOrder_cancelAll userId
  have stops : after.stopOrders.Perm (engine.stopOrders.filter fun stop => stop.userId ≠ userId) :=
    stopOrders_handleCancelAll countedWaiting userId timestamp
  refine ⟨⟨fun orderId order found => ?_, fun stop waits => ?_⟩, ⟨?_, fun event => ?_⟩, stored,
    fun side price => ⟨?_, ?_⟩, stops⟩
  · have kept := (stored orderId).symm.trans found
    simpa using (Option.filter_eq_some_iff.1 kept).2
  · simpa using (List.mem_filter.1 (stops.subset waits)).2
  · exact canceledIds_handleCancelAll_nodup countedPlaced userId config.symbol timestamp
  · exact mem_handleCancelAll wellFormed countedWaiting
  · exact OrderBook.queue_cancelAll wellFormed userId side price
  · exact OrderBook.level?_cancelAll wellFormed userId side price

/-- Two users at one price and a waiting order of each. -/
def mixedUsersInputs : List EngineInput :=
  [.command (.newOrder (gatewayOrder 1 7 .buy 100 5)),
    .command (.newOrder (gatewayOrder 2 8 .buy 100 3)),
    .command (.newOrder { gatewayOrder 3 7 .sell 90 1 with
      orderType := .stopLimit, stopPrice := some (.ofInt (-1)) }),
    .command (.newOrder { gatewayOrder 4 8 .sell 90 1 with
      orderType := .stopLimit, stopPrice := some (.ofInt (-1)) })]

theorem cancel_all_exact_mixedUsers :
    let engine := (run step (new plainConfig id 0) mixedUsersInputs).1
    let outcome := engine.step (.command (.cancelAllOrders 7 1 5))
    .orderCanceled 3 7 1 (.ofInt 1) 5 ∈ outcome.2 ∧
      outcome.1.orderbook.queue .buy (.ofInt 100) = [2] := by
  intro engine outcome
  have named : ∀ input ∈ mixedUsersInputs, OnSymbol plainConfig.symbol input := by
    simp [mixedUsersInputs, OnSymbol, gatewayOrder, plainConfig]
  obtain ⟨-, ⟨-, events⟩, -, queues, -⟩ := cancel_all_exact plainConfig id 0 mixedUsersInputs
    (by decide) named 7 5
  refine ⟨(events _).2 ?_, ?_⟩
  · have waits : engine.stopOrders.any fun stop => stop.orderId = 3 && stop.userId = 7 &&
        stop.remainingQty = .ofInt 1 := by decide +kernel
    obtain ⟨stop, member, own⟩ := List.any_eq_true.1 waits
    simp only [Bool.and_eq_true, decide_eq_true_iff] at own
    obtain ⟨⟨sameId, owner⟩, quantity⟩ := own
    refine ⟨stop, Or.inr member, owner, ?_⟩
    rw [sameId, quantity]
    rfl
  · refine (queues .buy (.ofInt 100)).1.trans ?_
    decide +kernel

end MatchingEngine
end Exg
