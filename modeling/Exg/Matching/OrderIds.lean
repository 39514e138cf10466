import Exg.Matching.Reachable

/-!
# Order ids over the book and the waiting orders

The duplicate check of a new order looks at the book only.  As long as no new order takes
the id of one that waits as a stop, an id is live at most once over both places and the
book stays well formed, whatever ids, quantities and owners the commands carry.
-/

namespace Exg

open Support

/-- The book is well formed and no id occurs twice over the book and the waiting orders. -/
structure IdsUnique (book : OrderBook) (stops : List BookOrder) : Prop where
  wellFormed : book.WellFormed
  stopsNodup : (stops.map BookOrder.orderId).Nodup
  apart : ∀ stop ∈ stops, book.getOrder stop.orderId = none

namespace IdsUnique

variable {book : OrderBook} {stops : List BookOrder}

theorem new (symbol : SymbolId) : IdsUnique (OrderBook.new symbol) [] where
  wellFormed := OrderBook.wellFormed_new symbol
  stopsNodup := List.nodup_nil
  apart := by simp

theorem notWaiting (unique : IdsUnique book stops) {orderId : OrderId} {order : BookOrder}
    (found : book.getOrder orderId = some order) : orderId ∉ stops.map BookOrder.orderId := by
  intro member
  obtain ⟨stop, waits, rfl⟩ := List.mem_map.1 member
  rw [unique.apart stop waits] at found
  cases found

/-- A change of the book that stores no new id. -/
theorem of_book (unique : IdsUnique book stops) {after : OrderBook}
    (wellFormed : after.WellFormed)
    (missing : ∀ orderId, book.getOrder orderId = none → after.getOrder orderId = none) :
    IdsUnique after stops where
  wellFormed := wellFormed
  stopsNodup := unique.stopsNodup
  apart := fun stop waits => missing stop.orderId (unique.apart stop waits)

theorem removeOrder (unique : IdsUnique book stops) (orderId : OrderId) :
    IdsUnique (book.removeOrder orderId) stops := by
  apply unique.of_book (unique.wellFormed.removeOrder orderId)
  intro other missing
  rw [OrderBook.getOrder_removeOrder, missing]
  split <;> rfl

theorem updateQty (unique : IdsUnique book stops) (orderId : OrderId) (quantity : Decimal128) :
    IdsUnique (book.updateQty orderId quantity) stops := by
  apply unique.of_book (unique.wellFormed.updateQty orderId quantity)
  intro other missing
  rw [OrderBook.getOrder_updateQty]
  split
  · rw [missing]
    rfl
  · exact missing

theorem cancelAllUserOrders (unique : IdsUnique book stops) (userId : UserId) :
    IdsUnique (book.cancelAllUserOrders userId).1 stops := by
  apply unique.of_book (unique.wellFormed.cancelAllUserOrders userId)
  intro other missing
  rw [unique.wellFormed.getOrder_cancelAll, missing]
  rfl

theorem matchOrder (unique : IdsUnique book stops) (taker : BookOrder) :
    IdsUnique (matchOrder book taker).book stops := by
  apply unique.of_book
  · rw [matchOrder_book unique.wellFormed]
    exact OrderBook.wellFormed_takeOut unique.wellFormed _
  · intro other missing
    exact MatchingEngine.getOrder_matchOrder_of_none unique.wellFormed missing

theorem insertOrder (unique : IdsUnique book stops) {order : BookOrder}
    (missing : book.getOrder order.orderId = none)
    (apart : order.orderId ∉ stops.map BookOrder.orderId) :
    IdsUnique (book.insertOrder order) stops where
  wellFormed := unique.wellFormed.insertOrder missing
  stopsNodup := unique.stopsNodup
  apart := by
    intro stop waits
    have other : order.orderId ≠ stop.orderId := by
      intro same
      exact apart (List.mem_map.2 ⟨stop, waits, same.symm⟩)
    rw [OrderBook.getOrder_insertOrder, if_neg other, unique.apart stop waits]

theorem perm (unique : IdsUnique book stops) {other : List BookOrder}
    (same : other.Perm stops) : IdsUnique book other where
  wellFormed := unique.wellFormed
  stopsNodup := (same.map BookOrder.orderId).nodup_iff.2 unique.stopsNodup
  apart := fun stop waits => unique.apart stop (same.subset waits)

theorem sublist (unique : IdsUnique book stops) {fewer : List BookOrder}
    (part : fewer.Sublist stops) : IdsUnique book fewer where
  wellFormed := unique.wellFormed
  stopsNodup := unique.stopsNodup.sublist (part.map BookOrder.orderId)
  apart := fun stop waits => unique.apart stop (part.subset waits)

theorem addStop (unique : IdsUnique book stops) {order : BookOrder}
    (missing : book.getOrder order.orderId = none)
    (apart : order.orderId ∉ stops.map BookOrder.orderId) :
    IdsUnique book (stops ++ [order]) where
  wellFormed := unique.wellFormed
  stopsNodup := by
    have ids : (stops ++ [order]).map BookOrder.orderId =
        stops.map BookOrder.orderId ++ [order.orderId] := by simp
    rw [ids, List.nodup_append_comm, List.singleton_append, List.nodup_cons]
    exact ⟨apart, unique.stopsNodup⟩
  apart := by
    intro stop waits
    rcases List.mem_append.1 waits with earlier | added
    · exact unique.apart stop earlier
    · rw [List.mem_singleton.1 added]
      exact missing

theorem sameIds (unique : IdsUnique book stops) {change : BookOrder → BookOrder}
    (kept : ∀ stop, (change stop).orderId = stop.orderId) : IdsUnique book (stops.map change) where
  wellFormed := unique.wellFormed
  stopsNodup := by
    have ids : (stops.map change).map BookOrder.orderId = stops.map BookOrder.orderId := by
      rw [List.map_map]
      exact List.map_congr_left fun stop _ => kept stop
    rw [ids]
    exact unique.stopsNodup
  apart := by
    intro stop waits
    obtain ⟨before, earlier, rfl⟩ := List.mem_map.1 waits
    rw [kept]
    exact unique.apart before earlier

/-- Match an order that is nowhere yet and rest what is left of it. -/
theorem matchAndRest (unique : IdsUnique book stops) {taker resting : BookOrder}
    (sameId : resting.orderId = taker.orderId)
    (missing : book.getOrder taker.orderId = none)
    (apart : taker.orderId ∉ stops.map BookOrder.orderId) :
    IdsUnique ((Exg.matchOrder book taker).book.insertOrder resting) stops := by
  apply (unique.matchOrder taker).insertOrder
  · rw [sameId]
    exact MatchingEngine.getOrder_matchOrder_of_none unique.wellFormed missing
  · rwa [sameId]

end IdsUnique

namespace MatchingEngine

/-- The checks of a new order other than the one for duplicates. -/
def Admissible (engine : MatchingEngine) (order : NewOrder) : Prop :=
  0 < order.quantity ∧ (effectivePrice order).isSome = true ∧
    icebergAccepted engine.symbolConfig order = true

instance (engine : MatchingEngine) (order : NewOrder) : Decidable (engine.Admissible order) :=
  inferInstanceAs (Decidable (_ ∧ _ ∧ _))

/-- A new order that passes those checks does not carry the id of a waiting order. -/
def NewIdNotWaiting (engine : MatchingEngine) : EngineInput → Prop
  | .command (.newOrder order) =>
      engine.Admissible order → order.orderId ∉ engine.stopOrders.map BookOrder.orderId
  | _ => True

instance (engine : MatchingEngine) (input : EngineInput) :
    Decidable (engine.NewIdNotWaiting input) := by
  unfold NewIdNotWaiting
  split <;> infer_instance

/-- Ids are unique over the book and the waiting orders of an engine. -/
def HasUniqueIds (engine : MatchingEngine) : Prop :=
  IdsUnique engine.orderbook engine.stopOrders

variable {engine : MatchingEngine}

theorem HasUniqueIds.matchNewOrder (unique : engine.HasUniqueIds) {order : BookOrder}
    (missing : engine.orderbook.getOrder order.orderId = none)
    (apart : order.orderId ∉ engine.stopOrders.map BookOrder.orderId) (timestamp : UnixMicros) :
    (engine.matchNewOrder order timestamp).1.HasUniqueIds := by
  have matched := IdsUnique.matchOrder unique order
  rcases engine.matchNewOrder_cases order timestamp with ⟨-, same⟩ | ⟨-, same⟩
  · rw [same]
    exact unique
  · rw [same]
    let result := matchOrder engine.orderbook order
    have takerId : result.taker.orderId = order.orderId :=
      matchOrder_taker_orderId unique.wellFormed
    rcases (engine.absorb result order.symbol timestamp).1.placeRemaining_cases
        (refillIceberg timestamp result.taker) timestamp with
      ⟨-, placed⟩ | ⟨-, -, placed⟩ | ⟨-, -, -, -, placed⟩
    · simp only [result] at placed
      simp only [placed]
      exact matched
    · simp only [result] at placed
      simp only [placed]
      exact matched
    · simp only [result] at placed
      simp only [placed]
      apply IdsUnique.matchAndRest unique _ missing apart
      exact (refillIceberg_orderId timestamp result.taker).trans takerId

theorem HasUniqueIds.handleNewOrder (unique : engine.HasUniqueIds) {order : NewOrder}
    (notWaiting : engine.NewIdNotWaiting (.command (.newOrder order))) :
    (engine.handleNewOrder order).1.HasUniqueIds := by
  rcases engine.handleNewOrder_cases order with
    ⟨reason, same⟩ | ⟨price, positive, missing, priced, accepted, ⟨-, same⟩ | ⟨-, same⟩⟩
  · rw [same]
    exact unique
  · rw [same]
    exact IdsUnique.addStop unique missing (notWaiting ⟨positive, by simp [priced], accepted⟩)
  · rw [same]
    exact unique.matchNewOrder missing (notWaiting ⟨positive, by simp [priced], accepted⟩) _

theorem HasUniqueIds.handleCancelOrder (unique : engine.HasUniqueIds) (orderId : OrderId)
    (userId : UserId) (timestamp : UnixMicros) :
    (engine.handleCancelOrder orderId userId timestamp).1.HasUniqueIds := by
  rcases engine.handleCancelOrder_cases orderId userId timestamp with
    ⟨-, -, same⟩ | ⟨order, -, -, same⟩ | ⟨order, found, -, same⟩ | ⟨order, -, -, -, same⟩ |
      ⟨order, -, waiting, -, same⟩
  · rw [same]
    exact unique
  · rw [same]
    exact IdsUnique.removeOrder unique orderId
  · rw [same]
    have keyed := unique.wellFormed.toLevels.keyed found
    have apart := IdsUnique.notWaiting unique found
    rw [← keyed] at apart
    apply (IdsUnique.removeOrder unique orderId).insertOrder _ apart
    rw [keyed, OrderBook.getOrder_removeOrder, if_pos rfl]
  · rw [same]
    exact IdsUnique.sublist unique List.eraseP_sublist
  · rw [same]
    have moved := (List.perm_append_singleton order
      (engine.stopOrders.eraseP fun stop => stop.orderId = orderId)).trans
      (find_cons_eraseP_perm waiting)
    exact IdsUnique.perm unique moved

theorem HasUniqueIds.reinsertAmended (unique : engine.HasUniqueIds) {old : BookOrder}
    {amend : AmendOrder} (found : engine.orderbook.getOrder amend.orderId = some old) :
    (engine.reinsertAmended old amend).1.HasUniqueIds := by
  have removed := IdsUnique.removeOrder unique amend.orderId
  rcases engine.reinsertAmended_cases old amend with ⟨reason, -, same⟩ | ⟨-, -, same⟩
  · rw [same]
    exact removed
  · rw [same]
    dsimp only
    split
    · exact removed.matchOrder (amendedOrder old amend)
    · have keyed : old.orderId = amend.orderId := unique.wellFormed.toLevels.keyed found
      have sameId : (amendedOrder old amend).orderId = amend.orderId := keyed
      apply removed.matchAndRest (matchOrder_taker_orderId removed.wellFormed)
      · rw [sameId, OrderBook.getOrder_removeOrder, if_pos rfl]
      · rw [sameId]
        exact IdsUnique.notWaiting unique found

theorem HasUniqueIds.handleAmendOrder (unique : engine.HasUniqueIds) (amend : AmendOrder) :
    (engine.handleAmendOrder amend).1.HasUniqueIds := by
  rcases engine.handleAmendOrder_cases amend with
    ⟨reason, -, same⟩ | ⟨existing, found, -, ⟨-, same⟩ | ⟨-, same⟩ | ⟨-, quantity, -, -, -, same⟩⟩
  · rw [same]
    exact unique
  · rw [same]
    exact unique.reinsertAmended found
  · rw [same]
    exact unique
  · rw [same]
    exact IdsUnique.updateQty unique amend.orderId quantity

theorem HasUniqueIds.handleCancelAll (unique : engine.HasUniqueIds) (userId : UserId)
    (symbol : SymbolId) (timestamp : UnixMicros) :
    (engine.handleCancelAll userId symbol timestamp).1.HasUniqueIds := by
  have kept := swapScan_snd_perm (fun stop : BookOrder =>
    decide (stop.userId = userId) && decide (stop.symbol = symbol)) engine.stopOrders
  exact ((IdsUnique.cancelAllUserOrders unique userId).sublist List.filter_sublist).perm kept

/-- The order under way leaves the waiting orders, and may enter the book. -/
theorem idsUnique_triggerOne {order : BookOrder} {rest : List BookOrder} {timestamp : UnixMicros}
    (unique : IdsUnique engine.orderbook (order :: rest)) :
    IdsUnique (engine.triggerOne order timestamp).1.orderbook rest := by
  have others := unique.sublist (List.sublist_cons_self order rest)
  have sameId : (convertTriggered order).orderId = order.orderId :=
    (convertTriggered_frame order).1
  rcases engine.triggerOne_cases order timestamp with
    ⟨-, same⟩ | ⟨-, -, same⟩ | ⟨-, -, -, same⟩
  · rw [same]
    exact others
  · rw [same]
    exact others.matchOrder (convertTriggered order)
  · rw [same]
    apply others.matchAndRest (matchOrder_taker_orderId unique.wellFormed)
    · rw [sameId]
      exact unique.apart order List.mem_cons_self
    · rw [sameId]
      exact (List.nodup_cons.1 unique.stopsNodup).1

private theorem idsUnique_triggerAll {pending kept : List BookOrder} {timestamp : UnixMicros}
    (unique : IdsUnique engine.orderbook (pending ++ kept)) :
    IdsUnique (triggerAll timestamp engine pending).1.orderbook kept := by
  induction pending generalizing engine with
  | nil => exact unique
  | cons order rest inductionHypothesis => exact inductionHypothesis (idsUnique_triggerOne unique)

theorem HasUniqueIds.updateMarkPrice (unique : engine.HasUniqueIds) (symbol : SymbolId)
    (mark index : Decimal128) (timestamp : UnixMicros) :
    (engine.updateMarkPrice symbol mark index timestamp).1.HasUniqueIds := by
  let passive := engine.applyMarkIndexPassive mark index
  have peaked : passive.HasUniqueIds :=
    IdsUnique.sameIds unique (updateTrailingPeak_orderId mark)
  have scanned := swapScan_perm (shouldTrigger passive.markPrice) passive.stopOrders
  change IdsUnique (triggerAll timestamp _ _).1.orderbook (triggerAll timestamp _ _).1.stopOrders
  rw [triggerAll_stopOrders]
  exact idsUnique_triggerAll (IdsUnique.perm peaked scanned)

private theorem idsUnique_expireEntries {book : OrderBook} {stops : List BookOrder}
    {now : UnixMicros} {entries : List (UnixMicros × OrderId)} (unique : IdsUnique book stops) :
    IdsUnique (expireEntries now book entries).1 stops :=
  expireEntries_keeps (motive := fun reached => IdsUnique reached stops)
    (fun orderId unique => unique.removeOrder orderId) unique

/-! ## Whole runs -/

theorem HasUniqueIds.step (unique : engine.HasUniqueIds) {input : EngineInput}
    (notWaiting : engine.NewIdNotWaiting input) : (engine.step input).1.HasUniqueIds := by
  cases input with
  | expirySweep now => exact idsUnique_expireEntries unique
  | command issued =>
      have counted : { engine with sequence := engine.sequence + 1 }.HasUniqueIds := unique
      cases issued with
      | newOrder order => exact counted.handleNewOrder notWaiting
      | cancelOrder orderId userId symbol timestamp =>
          exact counted.handleCancelOrder orderId userId timestamp
      | amendOrder amend => exact counted.handleAmendOrder amend
      | cancelAllOrders userId symbol timestamp =>
          exact counted.handleCancelAll userId symbol timestamp
      | updateMarkPrice symbol mark index timestamp =>
          exact counted.updateMarkPrice symbol mark index timestamp
      | computeFunding symbol timestamp => exact counted
      | adminCredit userId amount key timestamp => exact counted

end MatchingEngine
end Exg
