import Exg.Matching.Reachable
import Mathlib.Tactic.Abel

/-!
# What a log says about an order, and what is live of it

For every order id a log has three totals: what was accepted, filled and canceled.  Next
to them stands what is live: the remaining and hidden quantity on the book, or the
quantity of a waiting stop.  `Balanced` is the equation that ties a piece of log to the
live quantity before and after it.
-/

namespace Exg

open Support

namespace Event

def acceptedQtyOf (orderId : OrderId) : Event → Decimal128
  | .orderAccepted accepted => if accepted.orderId = orderId then accepted.quantity else 0
  | _ => 0

def filledQtyOf (orderId : OrderId) : Event → Decimal128
  | .orderFilled filled => if filled.orderId = orderId then filled.fillQty else 0
  | _ => 0

def canceledQtyOf (orderId : OrderId) : Event → Decimal128
  | .orderCanceled canceledId _ _ remainingQty _ =>
      if canceledId = orderId then remainingQty else 0
  | _ => 0

/-- The id of an `OrderAccepted`. -/
def acceptedId? : Event → Option OrderId
  | .orderAccepted accepted => some accepted.orderId
  | _ => none

end Event

def acceptedQty (orderId : OrderId) (log : List Event) : Decimal128 :=
  (log.map (Event.acceptedQtyOf orderId)).sum

def filledQty (orderId : OrderId) (log : List Event) : Decimal128 :=
  (log.map (Event.filledQtyOf orderId)).sum

def canceledQty (orderId : OrderId) (log : List Event) : Decimal128 :=
  (log.map (Event.canceledQtyOf orderId)).sum

def acceptedIds (log : List Event) : List OrderId := log.filterMap Event.acceptedId?

/-- What was accepted and what was live before is what was filled, canceled or is live
after. -/
def Balanced (orderId : OrderId) (before : Decimal128) (events : List Event)
    (after : Decimal128) : Prop :=
  acceptedQty orderId events + before =
    filledQty orderId events + canceledQty orderId events + after

namespace Balanced

variable {orderId : OrderId} {before middle after : Decimal128} {events more : List Event}

theorem refl (orderId : OrderId) (quantity : Decimal128) :
    Balanced orderId quantity [] quantity := by
  simp [Balanced, acceptedQty, filledQty, canceledQty]

theorem append (first : Balanced orderId before events middle)
    (second : Balanced orderId middle more after) :
    Balanced orderId before (events ++ more) after := by
  rw [Balanced] at first second ⊢
  have split : ∀ measure : Event → Decimal128,
      ((events ++ more).map measure).sum = (events.map measure).sum + (more.map measure).sum := by
    simp
  calc acceptedQty orderId (events ++ more) + before
      = acceptedQty orderId more + (acceptedQty orderId events + before) := by
        rw [acceptedQty, split]
        simp only [acceptedQty]
        abel
    _ = filledQty orderId events + canceledQty orderId events +
          (acceptedQty orderId more + middle) := by
        rw [first]
        abel
    _ = filledQty orderId (events ++ more) + canceledQty orderId (events ++ more) + after := by
        rw [second, filledQty, canceledQty, filledQty, canceledQty, filledQty, canceledQty, split,
          split]
        abel

theorem rejected (orderId rejectedId : OrderId) (userId : UserId) (reason : RejectReason)
    (timestamp : UnixMicros) (quantity : Decimal128) :
    Balanced orderId quantity [.orderRejected rejectedId userId reason timestamp] quantity := by
  simp [Balanced, acceptedQty, filledQty, canceledQty, Event.acceptedQtyOf, Event.filledQtyOf,
    Event.canceledQtyOf]

/-- A cancellation reports what is no longer live. -/
theorem canceled {canceledId : OrderId} {userId : UserId} {symbol : SymbolId}
    {remainingQty : Decimal128} {timestamp : UnixMicros}
    (gone : before = (if canceledId = orderId then remainingQty else 0) + after) :
    Balanced orderId before [.orderCanceled canceledId userId symbol remainingQty timestamp]
      after := by
  simp [Balanced, acceptedQty, filledQty, canceledQty, Event.acceptedQtyOf, Event.filledQtyOf,
    Event.canceledQtyOf, gone]

/-- An acceptance makes its quantity live. -/
theorem accepted {accepted : OrderAccepted}
    (live : after = before + if accepted.orderId = orderId then accepted.quantity else 0) :
    Balanced orderId before [.orderAccepted accepted] after := by
  simp only [Balanced, acceptedQty, filledQty, canceledQty, Event.acceptedQtyOf,
    Event.filledQtyOf, Event.canceledQtyOf, List.map_cons, List.map_nil, List.sum_cons,
    List.sum_nil, live]
  abel

end Balanced

/-! ## Live quantities -/

/-- What an order on the book still stands for. -/
def BookOrder.openQty (order : BookOrder) : Decimal128 := order.remainingQty + order.hiddenQty

def bookLive (book : OrderBook) (orderId : OrderId) : Decimal128 :=
  (book.getOrder orderId).elim 0 BookOrder.openQty

def stopLive (stops : List BookOrder) (orderId : OrderId) : Decimal128 :=
  (stops.map fun stop => if stop.orderId = orderId then stop.remainingQty else 0).sum

/-- What is live of an order. -/
def liveQty (engine : MatchingEngine) (orderId : OrderId) : Decimal128 :=
  bookLive engine.orderbook orderId + stopLive engine.stopOrders orderId

section BookLive

variable {book : OrderBook} {orderId : OrderId} {order : BookOrder}

theorem bookLive_of_some (found : book.getOrder orderId = some order) :
    bookLive book orderId = order.openQty := by
  simp [bookLive, found]

private theorem bookLive_of_none (missing : book.getOrder orderId = none) :
    bookLive book orderId = 0 := by
  simp [bookLive, missing]

theorem bookLive_congr {other : OrderBook} (same : other.getOrder orderId = book.getOrder orderId) :
    bookLive other orderId = bookLive book orderId := by
  rw [bookLive, bookLive, same]

theorem bookLive_insertOrder (missing : book.getOrder order.orderId = none) (orderId : OrderId) :
    bookLive (book.insertOrder order) orderId =
      bookLive book orderId + if order.orderId = orderId then order.openQty else 0 := by
  rw [bookLive, OrderBook.getOrder_insertOrder]
  by_cases own : order.orderId = orderId
  · rw [if_pos own, if_pos own, ← own, bookLive_of_none missing, zero_add]
    rfl
  · rw [if_neg own, if_neg own, add_zero]
    rfl

theorem bookLive_removeOrder (removedId : OrderId) (orderId : OrderId) :
    bookLive book orderId =
      (if removedId = orderId then bookLive book removedId else 0) +
        bookLive (book.removeOrder removedId) orderId := by
  rw [bookLive, bookLive, bookLive, OrderBook.getOrder_removeOrder]
  by_cases own : removedId = orderId
  · simp [own]
  · simp [own]

end BookLive

section StopLive

theorem stopLive_cons (stop : BookOrder) (stops : List BookOrder) (orderId : OrderId) :
    stopLive (stop :: stops) orderId =
      (if stop.orderId = orderId then stop.remainingQty else 0) + stopLive stops orderId := by
  simp [stopLive]

theorem stopLive_append (first second : List BookOrder) (orderId : OrderId) :
    stopLive (first ++ second) orderId = stopLive first orderId + stopLive second orderId := by
  simp [stopLive]

theorem stopLive_perm {first second : List BookOrder} (same : first.Perm second)
    (orderId : OrderId) : stopLive first orderId = stopLive second orderId :=
  (same.map _).sum_eq

theorem stopLive_map {change : BookOrder → BookOrder} {stops : List BookOrder}
    (sameId : ∀ stop, (change stop).orderId = stop.orderId)
    (sameQty : ∀ stop, (change stop).remainingQty = stop.remainingQty) (orderId : OrderId) :
    stopLive (stops.map change) orderId = stopLive stops orderId := by
  rw [stopLive, stopLive, List.map_map]
  refine congrArg List.sum (List.map_congr_left fun stop _ => ?_)
  simp [sameId, sameQty]

end StopLive

/-! ## Matching -/

/-- What a list of shares takes from an order. -/
def givenQty (shares : List (OrderId × Decimal128)) (orderId : OrderId) : Decimal128 :=
  (shares.map fun share => if share.1 = orderId then share.2 else 0).sum

section Match

variable {book : OrderBook} {orderId : OrderId} {shares : List (OrderId × Decimal128)}

theorem givenQty_of_not_mem (absent : orderId ∉ shares.map Prod.fst) :
    givenQty shares orderId = 0 := by
  refine List.sum_eq_zero fun quantity member => ?_
  obtain ⟨share, shareMember, rfl⟩ := List.mem_map.1 member
  exact if_neg fun same => absent (List.mem_map.2 ⟨share, shareMember, same⟩)

theorem givenQty_of_mem (nodup : (shares.map Prod.fst).Nodup) {share : OrderId × Decimal128}
    (member : share ∈ shares) : givenQty shares share.1 = share.2 := by
  induction shares with
  | nil => cases member
  | cons head rest inductionHypothesis =>
      rw [List.map_cons, List.nodup_cons] at nodup
      rcases List.mem_cons.1 member with rfl | later
      · have others : givenQty rest share.1 = 0 := givenQty_of_not_mem nodup.1
        rw [givenQty] at others ⊢
        rw [List.map_cons, List.sum_cons, if_pos rfl, others, add_zero]
      · have different : head.1 ≠ share.1 := by
          intro same
          exact nodup.1 (same ▸ List.mem_map_of_mem later)
        have rest := inductionHypothesis nodup.2 later
        rw [givenQty] at rest ⊢
        rw [List.map_cons, List.sum_cons, if_neg different, zero_add, rest]

/-- No maker that gives all it shows hides anything more. -/
def SharesLossless (book : OrderBook) (shares : List (OrderId × Decimal128)) : Prop :=
  ∀ share ∈ shares, ∀ maker, book.getOrder share.1 = some maker →
    maker.remainingQty = share.2 → maker.hiddenQty = 0

/-- Makers lose exactly what they give. -/
theorem bookLive_takeOut (nodup : (shares.map Prod.fst).Nodup)
    (stored : ∀ share ∈ shares, ∃ maker, book.getOrder share.1 = some maker)
    (lossless : SharesLossless book shares) (orderId : OrderId) :
    bookLive book orderId = givenQty shares orderId + bookLive (book.takeOut shares) orderId := by
  by_cases drawn : orderId ∈ shares.map Prod.fst
  · obtain ⟨share, member, rfl⟩ := List.mem_map.1 drawn
    obtain ⟨maker, found⟩ := stored share member
    have after := OrderBook.getOrder_takeOut_of_mem nodup member found
    rw [givenQty_of_mem nodup member, bookLive_of_some found]
    split at after
    · rename_i whole
      rw [bookLive_of_none after, add_zero, BookOrder.openQty,
        lossless share member maker found whole,
        add_zero, whole]
    · rw [bookLive_of_some after]
      simp only [BookOrder.openQty, BookOrder.withRemaining_remainingQty,
        BookOrder.withRemaining_hiddenQty]
      abel
  · rw [givenQty_of_not_mem drawn, zero_add]
    exact bookLive_congr (OrderBook.getOrder_takeOut_of_not_mem drawn).symm

private theorem fillEvents_measures (config : SymbolConfig) (after : OrderBook) (symbol : SymbolId)
    (timestamp : UnixMicros) (taker : BookOrder) (tradeId : TradeId) (fill : Fill)
    (orderId : OrderId) :
    acceptedQty orderId (fillEvents config after symbol timestamp taker tradeId fill) = 0 ∧
      canceledQty orderId (fillEvents config after symbol timestamp taker tradeId fill) = 0 ∧
      filledQty orderId (fillEvents config after symbol timestamp taker tradeId fill) =
        (if fill.makerOrderId = orderId then fill.quantity else 0) +
          if fill.takerOrderId = orderId then fill.quantity else 0 := by
  refine ⟨?_, ?_, ?_⟩ <;>
    simp [acceptedQty, canceledQty, filledQty, fillEvents, Event.acceptedQtyOf,
      Event.canceledQtyOf, Event.filledQtyOf]

/-- The totals of a match: the makers' shares, and all of them for the taker. -/
theorem emitFillEvents_measures (config : SymbolConfig) (after : OrderBook) (symbol : SymbolId)
    (timestamp : UnixMicros) (final taker : BookOrder)
    (stored : ∀ share ∈ shares, ∃ maker, book.getOrder share.1 = some maker) (gen : TradeIdGen)
    (orderId : OrderId) :
    let events :=
      (emitFillEvents config after symbol timestamp final gen (fillsOf book taker shares)).2
    acceptedQty orderId events = 0 ∧ canceledQty orderId events = 0 ∧
      filledQty orderId events =
        givenQty shares orderId + if taker.orderId = orderId then allocated shares else 0 := by
  induction shares generalizing gen with
  | nil => simp [fillsOf, emitFillEvents, acceptedQty, canceledQty, filledQty, givenQty]
  | cons share rest inductionHypothesis =>
      obtain ⟨maker, found⟩ := stored share List.mem_cons_self
      have later := inductionHypothesis
        (fun other member => stored other (List.mem_cons_of_mem share member)) gen.nextId.2
      obtain ⟨shareId, quantity⟩ := share
      obtain ⟨hereAccepted, hereCanceled, hereFilled⟩ := fillEvents_measures config after symbol
        timestamp final gen.nextId.1 (fillAgainst taker maker shareId quantity) orderId
      have hereQty : filledQty orderId (fillEvents config after symbol timestamp final gen.nextId.1
            (fillAgainst taker maker shareId quantity)) =
          (if shareId = orderId then quantity else 0) +
            if taker.orderId = orderId then quantity else 0 := hereFilled
      simp only [fillsOf_cons found, emitFillEvents]
      simp only [acceptedQty, canceledQty, filledQty, List.map_append, List.sum_append]
        at later hereAccepted hereCanceled hereQty ⊢
      refine ⟨?_, ?_, ?_⟩
      · rw [hereAccepted, later.1, add_zero]
      · rw [hereCanceled, later.2.1, add_zero]
      · rw [hereQty, later.2.2, givenQty, givenQty, List.map_cons, List.sum_cons, allocated_cons]
        by_cases own : taker.orderId = orderId
        · simp only [if_pos own]
          abel
        · simp only [if_neg own]
          abel

end Match
end Exg
