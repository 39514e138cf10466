import Exg.Matching.IcebergRuns
import Exg.Matching.TradeIds
import Exg.OrderService.ActiveOrders

/-!
# The live orders of the engine

The orders on the book and the waiting ones are live.  They are active orders in the sense of
the order service, and the events of the engine say how they change: a cancel takes its order
away, a fill leaves what it reports.
-/

namespace Exg

open Support

def BookOrder.active (order : BookOrder) : ActiveOrder :=
  ⟨order.userId, order.side, order.openQty⟩

/-- The orders on a book and those that wait, by id. -/
def liveAmong (book : OrderBook) (stops : List BookOrder) : ActiveOrders := fun orderId =>
  ((book.getOrder orderId).or (stops.find? fun stop => stop.orderId = orderId)).map
    BookOrder.active

def MatchingEngine.liveOrders (engine : MatchingEngine) : ActiveOrders :=
  liveAmong engine.orderbook engine.stopOrders

section LiveOrders

variable {book next : OrderBook} {stops rest : List BookOrder} {order : BookOrder}
variable {orderId : OrderId}

theorem liveAmong_of_book (found : book.getOrder orderId = some order) :
    liveAmong book stops orderId = some order.active := by
  rw [liveAmong, found]
  rfl

private theorem find_stop_eq_none (absent : orderId ∉ stops.map BookOrder.orderId) :
    (stops.find? fun stop => stop.orderId = orderId) = none := by
  rw [List.find?_eq_none]
  intro stop member same
  exact absent (List.mem_map.2 ⟨stop, member, of_decide_eq_true same⟩)

theorem liveAmong_of_not_waiting (absent : orderId ∉ stops.map BookOrder.orderId) :
    liveAmong book stops orderId = (book.getOrder orderId).map BookOrder.active := by
  rw [liveAmong, find_stop_eq_none absent, Option.or_none]

theorem liveAmong_eq_none (missing : book.getOrder orderId = none)
    (absent : orderId ∉ stops.map BookOrder.orderId) : liveAmong book stops orderId = none := by
  rw [liveAmong_of_not_waiting absent, missing]
  rfl

theorem liveAmong_congr (same : next.getOrder orderId = book.getOrder orderId) :
    liveAmong next stops orderId = liveAmong book stops orderId := by
  rw [liveAmong, liveAmong, same]

/-- A waiting order that is not on the book is live. -/
theorem liveAmong_cons (missing : book.getOrder order.orderId = none) :
    liveAmong book (order :: rest) =
      Function.update (liveAmong book rest) order.orderId (some order.active) := by
  funext other
  by_cases own : other = order.orderId
  · rw [own, Function.update_self, liveAmong, missing]
    simp
  · rw [Function.update_of_ne own, liveAmong, liveAmong, List.find?_cons_of_neg]
    simpa using Ne.symm own

theorem liveAmong_perm (same : stops.Perm rest) (nodup : (stops.map BookOrder.orderId).Nodup) :
    liveAmong book stops = liveAmong book rest := by
  have unique : ∀ list : List BookOrder, (list.map BookOrder.orderId).Nodup →
      ∀ {other stop}, stop ∈ list → stop.orderId = other →
        (list.find? fun stop => stop.orderId = other) = some stop := by
    intro list distinct other stop member own
    obtain ⟨ahead, behind, rfl⟩ := List.append_of_mem member
    rw [List.map_append, List.map_cons, List.nodup_append] at distinct
    rw [List.find?_append, List.find?_cons_of_pos (by simpa using own), Option.or_eq_some_iff]
    right
    refine ⟨?_, rfl⟩
    apply find_stop_eq_none
    intro early
    exact distinct.2.2 other early stop.orderId List.mem_cons_self own.symm
  funext other
  rw [liveAmong, liveAmong]
  congr 2
  cases found : stops.find? fun stop => stop.orderId = other with
  | none =>
      symm
      apply find_stop_eq_none
      intro listed
      obtain ⟨stop, member, own⟩ := List.mem_map.1 ((same.map BookOrder.orderId).symm.subset listed)
      exact List.find?_eq_none.1 found stop member (decide_eq_true own)
  | some stop =>
      have member := same.subset (List.mem_of_find?_eq_some found)
      have own : stop.orderId = other := by simpa using List.find?_some found
      exact (unique rest ((same.map BookOrder.orderId).nodup_iff.1 nodup) member own).symm

theorem liveAmong_mapStops {change : BookOrder → BookOrder}
    (sameId : ∀ stop, (change stop).orderId = stop.orderId)
    (sameActive : ∀ stop, (change stop).active = stop.active) :
    liveAmong book (stops.map change) = liveAmong book stops := by
  funext other
  have keeps : ((fun stop : BookOrder => decide (stop.orderId = other)) ∘ change) =
      fun stop => decide (stop.orderId = other) := by
    funext stop
    simp [sameId]
  rw [liveAmong, liveAmong, List.find?_map, keeps]
  cases book.getOrder other with
  | some order => rfl
  | none =>
      cases stops.find? fun stop => stop.orderId = other with
      | none => rfl
      | some stop => exact congrArg some (sameActive stop)

/-- An order is taken off the book. -/
theorem liveAmong_removed (removed : ∀ other, next.getOrder other =
      if orderId = other then none else book.getOrder other)
    (absent : orderId ∉ stops.map BookOrder.orderId) :
    liveAmong next stops = Function.update (liveAmong book stops) orderId none := by
  funext other
  by_cases own : other = orderId
  · rw [own, Function.update_self]
    exact liveAmong_eq_none ((removed orderId).trans (if_pos rfl)) absent
  · rw [Function.update_of_ne own]
    exact liveAmong_congr ((removed other).trans (if_neg (Ne.symm own)))

/-- An order is put on the book. -/
theorem liveAmong_insertOrder :
    liveAmong (book.insertOrder order) stops =
      Function.update (liveAmong book stops) order.orderId (some order.active) := by
  funext other
  have inserted := book.getOrder_insertOrder order other
  by_cases own : other = order.orderId
  · rw [own, Function.update_self]
    rw [own, if_pos rfl] at inserted
    exact liveAmong_of_book inserted
  · rw [Function.update_of_ne own]
    rw [if_neg (Ne.symm own)] at inserted
    exact liveAmong_congr inserted

end LiveOrders

/-! ## What events say of live orders -/

/-- Fills and trades, with the remaining quantity that is reported for each order. -/
def Reports (report : OrderId → Decimal128) (events : List Event) : Prop :=
  ∀ event ∈ events, (∃ filled, event = .orderFilled filled ∧
    filled.remainingQty = report filled.orderId) ∨ ∃ trade, event = .tradeExecuted trade

/-- After a list of reports an order stands as reported. -/
theorem receive_reports {report : OrderId → Decimal128} {events : List Event}
    (reports : Reports report events) (active : ActiveOrders) (orderId : OrderId) :
    active.receive (events.map .event) orderId =
      if orderId ∈ (legKeys events).map Prod.fst then settle (report orderId) (active orderId)
      else active orderId := by
  induction events generalizing active with
  | nil => rfl
  | cons event rest inductionHypothesis =>
      rw [List.map_cons, ActiveOrders.receive_cons,
        inductionHypothesis fun other member => reports other (List.mem_cons_of_mem event member)]
      rcases reports event List.mem_cons_self with ⟨filled, rfl, told⟩ | ⟨trade, rfl⟩
      · have legs : (legKeys (.orderFilled filled :: rest)).map Prod.fst =
            filled.orderId :: (legKeys rest).map Prod.fst := rfl
        rw [legs, ActiveOrders.step, told]
        by_cases own : orderId = filled.orderId
        · rw [own, Function.update_self, if_pos List.mem_cons_self, settle_settle, ite_self]
        · rw [Function.update_of_ne own]
          simp only [List.mem_cons, own, false_or]
      · rw [legKeys_cons_of_none rfl]
        rfl

/-- Cancels take their orders away, one after another. -/
theorem receive_canceled {orders : List BookOrder} {userId : UserId} {symbol : SymbolId}
    {timestamp : UnixMicros} (book : OrderBook) (stops : List BookOrder)
    (missing : ∀ order ∈ orders, book.getOrder order.orderId = none)
    (nodup : ((orders ++ stops).map BookOrder.orderId).Nodup) :
    (liveAmong book (orders ++ stops)).receive (orders.map fun order =>
        .event (.orderCanceled order.orderId userId symbol order.remainingQty timestamp)) =
      liveAmong book stops := by
  induction orders with
  | nil => rfl
  | cons order rest inductionHypothesis =>
      have gone := missing order List.mem_cons_self
      rw [List.cons_append, List.map_cons, List.nodup_cons] at nodup
      rw [List.cons_append, List.map_cons, ActiveOrders.receive_cons, liveAmong_cons gone,
        ActiveOrders.step, Function.update_idem, ← liveAmong_eq_none gone nodup.1,
        Function.update_eq_self]
      exact inductionHypothesis
        (fun other member => missing other (List.mem_cons_of_mem order member)) nodup.2

theorem receive_cancelOrders {book : OrderBook} {stops : List BookOrder}
    {orderIds : List OrderId} {userId : UserId} {symbol : SymbolId} {timestamp : UnixMicros}
    (wellFormed : book.LevelsWellFormed)
    (apart : ∀ stop ∈ stops, book.getOrder stop.orderId = none) :
    (liveAmong book stops).receive ((book.cancelOrders orderIds).2.map fun order =>
        .event (.orderCanceled order.orderId userId symbol order.remainingQty timestamp)) =
      liveAmong (book.cancelOrders orderIds).1 stops := by
  induction orderIds generalizing book with
  | nil => rfl
  | cons head rest inductionHypothesis =>
      rw [OrderBook.cancelOrders]
      cases found : book.getOrder head with
      | none => exact inductionHypothesis wellFormed apart
      | some order =>
          have notWaiting : head ∉ stops.map BookOrder.orderId := by
            intro waits
            obtain ⟨stop, member, rfl⟩ := List.mem_map.1 waits
            rw [apart stop member] at found
            cases found
          have unlinked := fun other => book.getOrder_unlinkOrder head order other
          have canceled : (liveAmong book stops).step
              (.event (.orderCanceled order.orderId userId symbol order.remainingQty timestamp)) =
                liveAmong (book.unlinkOrder head order) stops := by
            rw [ActiveOrders.step, wellFormed.keyed found]
            exact (liveAmong_removed unlinked notWaiting).symm
          rw [List.map_cons, ActiveOrders.receive_cons, canceled]
          apply inductionHypothesis (wellFormed.unlinkOrder found)
          intro stop member
          rw [unlinked]
          split
          · rfl
          · exact apart stop member

theorem receive_expireEntries {book : OrderBook} {stops : List BookOrder} {now : UnixMicros}
    {entries : List (UnixMicros × OrderId)}
    (apart : ∀ stop ∈ stops, book.getOrder stop.orderId = none) :
    (liveAmong book stops).receive
        ((MatchingEngine.expireEntries now book entries).2.2.map .event) =
      liveAmong (MatchingEngine.expireEntries now book entries).1 stops := by
  induction entries generalizing book with
  | nil => rfl
  | cons entry rest inductionHypothesis =>
      rw [MatchingEngine.expireEntries]
      split
      · rfl
      · cases found : book.getOrder entry.2 with
        | none => exact inductionHypothesis apart
        | some order =>
            have notWaiting : entry.2 ∉ stops.map BookOrder.orderId := by
              intro waits
              obtain ⟨stop, member, same⟩ := List.mem_map.1 waits
              rw [← same, apart stop member] at found
              cases found
            have removed := fun other => book.getOrder_removeOrder entry.2 other
            rw [List.map_cons, ActiveOrders.receive_cons, ActiveOrders.step,
              ← liveAmong_removed removed notWaiting]
            apply inductionHypothesis
            intro stop member
            rw [removed]
            split
            · rfl
            · exact apart stop member

end Exg
