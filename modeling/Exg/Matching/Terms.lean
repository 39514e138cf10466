import Exg.Matching.CancelAll
import Exg.Matching.OrderIds
import Exg.Support.Audit

/-!
# What the owner of an order has agreed to

`OrderAccepted` tells the owner, the side and the limit of an order, and the latest one for
an id holds until the next.  Everything later in the log keeps to it: an order is filled for
its owner and on its side, never past its limit, and is canceled in its owner's name.  The
terms are those of the resting and waiting orders throughout, whatever a match, a trigger or
an amendment does to their quantities, their types and their trailing peaks.
-/

namespace Exg

open Support

/-- What an order stands for. -/
structure Terms where
  userId : UserId
  side : Side
  /-- The worst price, for an order that has one. -/
  limit : Option Decimal128
  deriving DecidableEq, Repr

def OrderAccepted.terms (accepted : OrderAccepted) : Terms where
  userId := accepted.userId
  side := accepted.side
  limit := if accepted.orderType.isLimit then some accepted.price else none

def BookOrder.terms (order : BookOrder) : Terms where
  userId := order.userId
  side := order.side
  limit := if order.orderType.isLimit then some order.price else none

/-- A price at or better than a limit. -/
def Side.Suits (side : Side) (limit price : Decimal128) : Prop :=
  match side with
  | .buy => price ≤ limit
  | .sell => limit ≤ price

/-- The terms that are known, by order id. -/
abbrev Agreements := OrderId → Option Terms

/-- An accepted order is known by its terms from then on. -/
def Agreements.note (agreed : Agreements) : Event → Agreements
  | .orderAccepted accepted => Function.update agreed accepted.orderId (some accepted.terms)
  | _ => agreed

/-- A user may trade an order at a price. -/
def Agreements.Allows (agreed : Agreements) (orderId : OrderId) (userId : UserId) (side : Side)
    (price : Decimal128) : Prop :=
  ∃ terms ∈ agreed orderId, terms.userId = userId ∧ terms.side = side ∧
    ∀ limit ∈ terms.limit, side.Suits limit price

/-- What an event may say of orders whose terms are known. -/
def Agreements.Honoured (agreed : Agreements) : Event → Prop
  | .orderFilled filled =>
      agreed.Allows filled.orderId filled.userId filled.side filled.fillPrice
  | .tradeExecuted trade =>
      agreed.Allows trade.buyerOrderId trade.buyerUserId .buy trade.price ∧
        agreed.Allows trade.sellerOrderId trade.sellerUserId .sell trade.price
  | .orderCanceled orderId userId .. => ∃ terms ∈ agreed orderId, terms.userId = userId
  | _ => True

/-- Orders on the book and waiting ones have the terms that are known. -/
structure KeepsTerms (agreed : Agreements) (book : OrderBook) (stops : List BookOrder) : Prop where
  resting : ∀ {orderId order}, book.getOrder orderId = some order →
    agreed orderId = some order.terms
  waiting : ∀ stop ∈ stops, agreed stop.orderId = some stop.terms

@[simp]
theorem BookOrder.terms_withRemaining (order : BookOrder) (left : Decimal128) :
    (order.withRemaining left).terms = order.terms := rfl

@[simp]
theorem acceptedOf_terms (order : BookOrder) (symbol : SymbolId) (timestamp : UnixMicros) :
    (acceptedOf order symbol timestamp).terms = order.terms := rfl

private theorem updateTrailingPeak_terms (mark : Decimal128) (order : BookOrder) :
    (MatchingEngine.updateTrailingPeak mark order).terms = order.terms := by
  obtain ⟨peak, same⟩ := MatchingEngine.updateTrailingPeak_eq mark order
  rw [same]
  rfl

/-- A triggered order has the terms that it was waiting with. -/
theorem convertTriggered_terms (order : BookOrder) :
    (MatchingEngine.convertTriggered order).terms = order.terms := by
  cases kind : order.orderType <;>
    simp [MatchingEngine.convertTriggered, BookOrder.terms, kind, OrderType.isLimit]

private theorem refillIceberg_terms (timestamp : UnixMicros) (order : BookOrder) :
    (MatchingEngine.refillIceberg timestamp order).terms = order.terms := by
  rw [MatchingEngine.refillIceberg]
  split <;> rfl

/-! ## Books and waiting orders that keep the terms -/

namespace KeepsTerms

variable {agreed : Agreements} {book : OrderBook} {stops : List BookOrder}

theorem start (symbol : SymbolId) : KeepsTerms agreed (OrderBook.new symbol) [] where
  resting := by simp
  waiting := by simp

/-- Nothing new is stored. -/
theorem of_book (keeps : KeepsTerms agreed book stops) {after : OrderBook}
    (stored : ∀ orderId order, after.getOrder orderId = some order →
      ∃ before, book.getOrder orderId = some before ∧ order.terms = before.terms) :
    KeepsTerms agreed after stops where
  resting := by
    intro orderId order found
    obtain ⟨before, earlier, same⟩ := stored orderId order found
    rw [same]
    exact keeps.resting earlier
  waiting := keeps.waiting

theorem removeOrder (keeps : KeepsTerms agreed book stops) (orderId : OrderId) :
    KeepsTerms agreed (book.removeOrder orderId) stops := by
  refine keeps.of_book fun other order found => ⟨order, ?_, rfl⟩
  rw [OrderBook.getOrder_removeOrder] at found
  split at found
  · cases found
  · exact found

theorem updateQty (keeps : KeepsTerms agreed book stops) (orderId : OrderId)
    (quantity : Decimal128) : KeepsTerms agreed (book.updateQty orderId quantity) stops := by
  refine keeps.of_book fun other order found => ?_
  rw [OrderBook.getOrder_updateQty] at found
  split at found
  · obtain ⟨before, earlier, rfl⟩ := Option.map_eq_some_iff.1 found
    exact ⟨before, earlier, rfl⟩
  · exact ⟨order, found, rfl⟩

theorem cancelAllUserOrders (keeps : KeepsTerms agreed book stops) (wellFormed : book.WellFormed)
    (userId : UserId) : KeepsTerms agreed (book.cancelAllUserOrders userId).1 stops := by
  refine keeps.of_book fun other order found => ⟨order, ?_, rfl⟩
  rw [wellFormed.getOrder_cancelAll] at found
  exact (Option.filter_eq_some_iff.1 found).1

theorem matchOrder (keeps : KeepsTerms agreed book stops) (wellFormed : book.WellFormed)
    (taker : BookOrder) : KeepsTerms agreed (Exg.matchOrder book taker).book stops := by
  refine keeps.of_book fun other order found => ?_
  rw [matchOrder_book wellFormed] at found
  obtain ⟨before, quantity, earlier, rfl⟩ := OrderBook.getOrder_of_takeOut found
  exact ⟨before, earlier, rfl⟩

theorem insertOrder (keeps : KeepsTerms agreed book stops) {order : BookOrder}
    (known : agreed order.orderId = some order.terms) :
    KeepsTerms agreed (book.insertOrder order) stops where
  resting := by
    intro orderId stored found
    rw [OrderBook.getOrder_insertOrder] at found
    split at found
    · rename_i own
      cases found
      exact own ▸ known
    · exact keeps.resting found
  waiting := keeps.waiting

private theorem of_subset (keeps : KeepsTerms agreed book stops) {fewer : List BookOrder}
    (part : fewer ⊆ stops) : KeepsTerms agreed book fewer where
  resting := keeps.resting
  waiting := fun stop waits => keeps.waiting stop (part waits)

theorem addStop (keeps : KeepsTerms agreed book stops) {order : BookOrder}
    (known : agreed order.orderId = some order.terms) :
    KeepsTerms agreed book (stops ++ [order]) where
  resting := keeps.resting
  waiting := by
    intro stop waits
    rcases List.mem_append.1 waits with earlier | added
    · exact keeps.waiting stop earlier
    · rw [List.mem_singleton.1 added]
      exact known

private theorem updateTrailingPeaks (keeps : KeepsTerms agreed book stops) (mark : Decimal128) :
    KeepsTerms agreed book (stops.map (MatchingEngine.updateTrailingPeak mark)) where
  resting := keeps.resting
  waiting := by
    intro stop waits
    obtain ⟨before, earlier, rfl⟩ := List.mem_map.1 waits
    rw [updateTrailingPeak_terms, MatchingEngine.updateTrailingPeak_orderId]
    exact keeps.waiting before earlier

/-- New terms for an id that is nowhere. -/
theorem agree (keeps : KeepsTerms agreed book stops) {orderId : OrderId}
    (missing : book.getOrder orderId = none) (apart : orderId ∉ stops.map BookOrder.orderId)
    (terms : Option Terms) : KeepsTerms (Function.update agreed orderId terms) book stops where
  resting := by
    intro other order found
    have different : other ≠ orderId := by
      rintro rfl
      rw [missing] at found
      cases found
    rw [Function.update_of_ne different]
    exact keeps.resting found
  waiting := by
    intro stop waits
    have different : stop.orderId ≠ orderId :=
      fun same => apart (List.mem_map.2 ⟨stop, waits, same⟩)
    rw [Function.update_of_ne different]
    exact keeps.waiting stop waits

end KeepsTerms

/-! ## Matches -/

namespace MatchingEngine

variable {engine : MatchingEngine} {agreed : Agreements}

/-- The limit of a taker lets every maker through that it meets. -/
theorem suits_of_not_stops {taker : BookOrder} {price : Decimal128}
    (within : stopsAt taker.side.opposite taker price = false) :
    ∀ limit ∈ taker.terms.limit, taker.side.Suits limit price := by
  intro limit known
  cases limited : taker.orderType.isLimit with
  | false => simp [BookOrder.terms, limited] at known
  | true =>
      have same : taker.price = limit := by simpa [BookOrder.terms, limited] using known
      have inside : OrderBook.beyondLimit taker.side.opposite price taker.price = false := by
        simpa [stopsAt, limited] using within
      rw [same] at inside
      cases side : taker.side <;>
        simpa [side, Side.opposite, OrderBook.beyondLimit, Side.Suits] using inside

/-- An order may be traded at its own price. -/
theorem suits_own (order : BookOrder) :
    ∀ limit ∈ order.terms.limit, order.side.Suits limit order.price := by
  intro limit known
  cases limited : order.orderType.isLimit with
  | false => simp [BookOrder.terms, limited] at known
  | true =>
      have same : order.price = limit := by simpa [BookOrder.terms, limited] using known
      rw [same]
      cases order.side <;> exact le_refl limit

/-- The three events of a fill that both sides allow. -/
theorem honoured_fillEvents {config : SymbolConfig} {book : OrderBook} {symbol : SymbolId}
    {timestamp : UnixMicros} {taker : BookOrder} {tradeId : TradeId} {fill : Fill}
    (makers : agreed.Allows fill.makerOrderId fill.makerUserId fill.takerSide.opposite fill.price)
    (takers : agreed.Allows fill.takerOrderId fill.takerUserId fill.takerSide fill.price)
    {event : Event} (emitted : event ∈ fillEvents config book symbol timestamp taker tradeId fill) :
    agreed.Honoured event ∧ agreed.note event = agreed := by
  obtain ⟨makerOrderId, takerOrderId, makerUserId, takerUserId, price, quantity, takerSide⟩ := fill
  simp only [fillEvents, List.mem_cons, List.not_mem_nil, or_false] at emitted
  rcases emitted with rfl | rfl | rfl
  · exact ⟨makers, rfl⟩
  · exact ⟨takers, rfl⟩
  · cases takerSide with
    | buy => exact ⟨⟨takers, makers⟩, rfl⟩
    | sell => exact ⟨⟨makers, takers⟩, rfl⟩

/-- Both sides allow the fill of a taker against a maker that it meets. -/
theorem allows_fillAgainst {book : OrderBook} {stops : List BookOrder} {taker maker : BookOrder}
    (keeps : KeepsTerms agreed book stops) (known : agreed taker.orderId = some taker.terms)
    {makerId : OrderId} (found : book.getOrder makerId = some maker)
    (against : maker.side = taker.side.opposite)
    (within : stopsAt taker.side.opposite taker maker.price = false) (quantity : Decimal128) :
    let fill := fillAgainst taker maker makerId quantity
    agreed.Allows fill.makerOrderId fill.makerUserId fill.takerSide.opposite fill.price ∧
      agreed.Allows fill.takerOrderId fill.takerUserId fill.takerSide fill.price :=
  ⟨⟨maker.terms, keeps.resting found, rfl, against, against ▸ suits_own maker⟩,
    ⟨taker.terms, known, rfl, rfl, suits_of_not_stops within⟩⟩

/-- What a match emits keeps to the terms, and tells none. -/
theorem honoured_absorb (engine : MatchingEngine) {book : OrderBook} {stops : List BookOrder}
    {taker : BookOrder} (wellFormed : book.WellFormed) (keeps : KeepsTerms agreed book stops)
    (known : agreed taker.orderId = some taker.terms) (symbol : SymbolId)
    (timestamp : UnixMicros) :
    let emitted := (engine.absorb (matchOrder book taker) symbol timestamp).2
    Audited Agreements.note Agreements.Honoured agreed emitted ∧
      emitted.foldl Agreements.note agreed = agreed := by
  intro emitted
  have each : ∀ event ∈ emitted, agreed.Honoured event ∧ agreed.note event = agreed := by
    intro event member
    obtain ⟨fill, filled, tradeId, inside⟩ := mem_emitFillEvents member
    rw [matchOrder_fills wellFormed] at filled
    obtain ⟨share, drawn, maker, found, rfl⟩ := mem_fillsOf.1 filled
    obtain ⟨stored, here, against, within⟩ := matchShares_stored wellFormed drawn
    rw [found] at here
    cases here
    obtain ⟨makers, takers⟩ := allows_fillAgainst keeps known found against within share.2
    exact honoured_fillEvents makers takers inside
  exact audited_of_silent (fun event member => (each event member).2)
    fun event member => (each event member).1

/-- The taker of a match has its terms still. -/
theorem matchOrder_taker_terms (book : OrderBook) (taker : BookOrder) :
    (matchOrder book taker).taker.terms = taker.terms := by
  obtain ⟨left, same⟩ := matchOrder_taker_withRemaining book taker
  rw [same]
  rfl

/-! ## The handlers -/

/-- The events of an outcome keep to the terms, and so do the orders it leaves. -/
def Abides (agreed : Agreements) (outcome : MatchingEngine × List Event) : Prop :=
  Audited Agreements.note Agreements.Honoured agreed outcome.2 ∧
    KeepsTerms (outcome.2.foldl Agreements.note agreed) outcome.1.orderbook outcome.1.stopOrders

private theorem abides_of_silent {outcome : MatchingEngine × List Event}
    (silent : ∀ event ∈ outcome.2, agreed.Honoured event ∧ agreed.note event = agreed)
    (keeps : KeepsTerms agreed outcome.1.orderbook outcome.1.stopOrders) :
    Abides agreed outcome := by
  obtain ⟨audited, same⟩ := audited_of_silent (fun event member => (silent event member).2)
    fun event member => (silent event member).1
  refine ⟨audited, ?_⟩
  rw [same]
  exact keeps

private theorem abides_rejected {after : MatchingEngine} {orderId : OrderId} {userId : UserId}
    {reason : RejectReason} {timestamp : UnixMicros}
    (keeps : KeepsTerms agreed after.orderbook after.stopOrders) :
    Abides agreed (after, [.orderRejected orderId userId reason timestamp]) := by
  refine abides_of_silent (fun event member => ?_) keeps
  rw [List.mem_singleton.1 member]
  exact ⟨trivial, rfl⟩

private theorem abides_canceled {after : MatchingEngine} {orderId : OrderId} {userId : UserId}
    {symbol : SymbolId} {quantity : Decimal128} {timestamp : UnixMicros} {terms : Terms}
    (known : agreed orderId = some terms) (owner : terms.userId = userId)
    (keeps : KeepsTerms agreed after.orderbook after.stopOrders) :
    Abides agreed (after, [.orderCanceled orderId userId symbol quantity timestamp]) := by
  refine abides_of_silent (fun event member => ?_) keeps
  rw [List.mem_singleton.1 member]
  exact ⟨⟨terms, known, owner⟩, rfl⟩

/-- Events that tell no terms stand in front of an outcome. -/
theorem Abides.after {outcome : MatchingEngine × List Event} (abides : Abides agreed outcome)
    {events : List Event} (audited : Audited Agreements.note Agreements.Honoured agreed events)
    (silent : events.foldl Agreements.note agreed = agreed) :
    Abides agreed (outcome.1, events ++ outcome.2) := by
  rw [Abides, audited_append, List.foldl_append, silent]
  exact ⟨⟨audited, abides.1⟩, abides.2⟩

private theorem Abides.afterAccepted {outcome : MatchingEngine × List Event} {order : BookOrder}
    (abides : Abides (Function.update agreed order.orderId (some order.terms)) outcome)
    (symbol : SymbolId) (timestamp : UnixMicros) :
    Abides agreed (outcome.1, .orderAccepted (acceptedOf order symbol timestamp) :: outcome.2) := by
  rw [Abides, audited_cons]
  exact ⟨⟨trivial, abides.1⟩, abides.2⟩

section NewOrder

private theorem abides_placeRemaining {order : BookOrder} {timestamp : UnixMicros}
    (keeps : KeepsTerms agreed engine.orderbook engine.stopOrders)
    (known : agreed order.orderId = some order.terms) :
    Abides agreed (engine.placeRemaining order timestamp) := by
  rcases engine.placeRemaining_cases order timestamp with
    ⟨-, same⟩ | ⟨-, -, same⟩ | ⟨-, -, -, -, same⟩
  · rw [same]
    exact abides_of_silent (by simp) keeps
  · rw [same]
    exact abides_canceled known rfl keeps
  · rw [same]
    exact abides_of_silent (by simp) (keeps.insertOrder known)

private theorem abides_matchNewOrder {order : BookOrder} (unique : engine.HasUniqueIds)
    (keeps : KeepsTerms agreed engine.orderbook engine.stopOrders)
    (missing : engine.orderbook.getOrder order.orderId = none)
    (apart : order.orderId ∉ engine.stopOrders.map BookOrder.orderId) (timestamp : UnixMicros) :
    Abides agreed (engine.matchNewOrder order timestamp) := by
  rcases engine.matchNewOrder_cases order timestamp with ⟨-, same⟩ | ⟨-, same⟩
  · rw [same]
    exact abides_rejected keeps
  · rw [same]
    let told := Function.update agreed order.orderId (some order.terms)
    let result := matchOrder engine.orderbook order
    let left := refillIceberg timestamp result.taker
    have known : told order.orderId = some order.terms := Function.update_self ..
    have others : KeepsTerms told engine.orderbook engine.stopOrders :=
      keeps.agree missing apart _
    obtain ⟨audited, silent⟩ :=
      honoured_absorb engine unique.wellFormed others known order.symbol timestamp
    have sameId : left.orderId = order.orderId :=
      (refillIceberg_orderId timestamp result.taker).trans
        (matchOrder_taker_orderId unique.wellFormed)
    have sameTerms : left.terms = order.terms :=
      (refillIceberg_terms timestamp result.taker).trans
        (matchOrder_taker_terms engine.orderbook order)
    have placed : Abides told
        ((engine.absorb result order.symbol timestamp).1.placeRemaining left timestamp) := by
      apply abides_placeRemaining (others.matchOrder unique.wellFormed order)
      rw [sameId, sameTerms]
      exact known
    exact (placed.after audited silent).afterAccepted order.symbol timestamp

private theorem abides_handleNewOrder {order : NewOrder} (unique : engine.HasUniqueIds)
    (keeps : KeepsTerms agreed engine.orderbook engine.stopOrders)
    (notWaiting : engine.NewIdNotWaiting (.command (.newOrder order))) :
    Abides agreed (engine.handleNewOrder order) := by
  rcases engine.handleNewOrder_cases order with
    ⟨reason, same⟩ | ⟨price, positive, missing, priced, accepted, ⟨-, same⟩ | ⟨-, same⟩⟩
  · rw [same]
    exact abides_rejected keeps
  · rw [same]
    have apart := notWaiting ⟨positive, by simp [priced], accepted⟩
    let waiting := newBookOrder engine.markPrice order price
    have stored : KeepsTerms (Function.update agreed waiting.orderId (some waiting.terms))
        engine.orderbook (engine.stopOrders ++ [waiting]) :=
      (keeps.agree missing apart _).addStop (Function.update_self ..)
    have kept : Abides (Function.update agreed waiting.orderId (some waiting.terms))
        ({ engine with stopOrders := engine.stopOrders ++ [waiting] }, []) :=
      abides_of_silent (by simp) stored
    exact kept.afterAccepted order.symbol order.timestamp
  · rw [same]
    have apart := notWaiting ⟨positive, by simp [priced], accepted⟩
    exact abides_matchNewOrder unique keeps missing apart _

end NewOrder

private theorem abides_handleCancelOrder (unique : engine.HasUniqueIds)
    (keeps : KeepsTerms agreed engine.orderbook engine.stopOrders) (orderId : OrderId)
    (userId : UserId) (timestamp : UnixMicros) :
    Abides agreed (engine.handleCancelOrder orderId userId timestamp) := by
  rcases engine.handleCancelOrder_cases orderId userId timestamp with
    ⟨-, -, same⟩ | ⟨order, found, owner, same⟩ | ⟨order, found, -, same⟩ |
      ⟨order, -, waiting, owner, same⟩ | ⟨order, -, waiting, -, same⟩
  · rw [same]
    exact abides_rejected keeps
  · rw [same]
    exact abides_canceled (keeps.resting found) owner (keeps.removeOrder orderId)
  · rw [same]
    have known := keeps.resting found
    rw [← unique.wellFormed.toLevels.keyed found] at known
    exact abides_rejected ((keeps.removeOrder orderId).insertOrder known)
  · rw [same]
    have known := keeps.waiting order (List.mem_of_find?_eq_some waiting)
    have own : order.orderId = orderId := by simpa using List.find?_some waiting
    rw [own] at known
    exact abides_canceled known owner (keeps.of_subset List.eraseP_subset)
  · rw [same]
    have known := keeps.waiting order (List.mem_of_find?_eq_some waiting)
    exact abides_rejected ((keeps.of_subset List.eraseP_subset).addStop known)

/-! ### Amend -/

section Amend

variable {amend : AmendOrder} {old : BookOrder}

private theorem abides_reinsertAmended (unique : engine.HasUniqueIds)
    (keeps : KeepsTerms agreed engine.orderbook engine.stopOrders)
    (found : engine.orderbook.getOrder amend.orderId = some old)
    (owner : old.userId = amend.userId) : Abides agreed (engine.reinsertAmended old amend) := by
  let removed := engine.orderbook.removeOrder amend.orderId
  let amended := amendedOrder old amend
  let result := matchOrder removed amended
  have canceled : agreed.Honoured (.orderCanceled amend.orderId amend.userId amend.symbol
      old.remainingQty amend.timestamp) := ⟨old.terms, keeps.resting found, owner⟩
  have without : KeepsTerms agreed removed engine.stopOrders := keeps.removeOrder amend.orderId
  rcases engine.reinsertAmended_cases old amend with ⟨reason, -, same⟩ | ⟨-, -, same⟩
  · rw [same]
    refine abides_of_silent (fun event member => ?_) without
    rcases List.mem_cons.1 member with rfl | member
    · exact ⟨canceled, rfl⟩
    · rw [List.mem_singleton.1 member]
      exact ⟨trivial, rfl⟩
  · rw [same]
    have unlinked : IdsUnique removed engine.stopOrders :=
      IdsUnique.removeOrder unique amend.orderId
    have keyed : old.orderId = amend.orderId := unique.wellFormed.toLevels.keyed found
    have sameId : amended.orderId = amend.orderId := keyed
    have takerId : result.taker.orderId = amended.orderId :=
      matchOrder_taker_orderId unlinked.wellFormed
    have takerTerms : result.taker.terms = amended.terms := matchOrder_taker_terms removed amended
    have missing : removed.getOrder result.taker.orderId = none := by
      rw [takerId, sameId, OrderBook.getOrder_removeOrder, if_pos rfl]
    have apart : result.taker.orderId ∉ engine.stopOrders.map BookOrder.orderId := by
      rw [takerId, sameId]
      exact IdsUnique.notWaiting unique found
    let told := Function.update agreed result.taker.orderId (some result.taker.terms)
    have others : KeepsTerms told removed engine.stopOrders := without.agree missing apart _
    have known : told result.taker.orderId = some result.taker.terms := Function.update_self ..
    have takers : told amended.orderId = some amended.terms := by
      rw [← takerId, ← takerTerms]
      exact known
    obtain ⟨audited, silent⟩ := honoured_absorb engine unlinked.wellFormed others takers
      amend.symbol amend.timestamp
    have matched := others.matchOrder unlinked.wellFormed amended
    let absorbed := engine.absorb result amend.symbol amend.timestamp
    let kept :=
      if result.taker.remainingQty = 0 ∨ result.taker.orderType.isLimit = false then
        absorbed.1
      else
        { absorbed.1 with orderbook := result.book.insertOrder result.taker }
    have rested : Abides told (kept, []) := by
      refine abides_of_silent (by simp) ?_
      by_cases done : result.taker.remainingQty = 0 ∨ result.taker.orderType.isLimit = false
      · simp only [kept, if_pos done]
        exact matched
      · simp only [kept, if_neg done]
        exact matched.insertOrder known
    have replaced := (rested.after audited silent).afterAccepted amend.symbol amend.timestamp
    rw [List.append_nil] at replaced
    exact replaced.after (audited_cons.2 ⟨canceled, audited_nil⟩) rfl

private theorem abides_handleAmendOrder (unique : engine.HasUniqueIds)
    (keeps : KeepsTerms agreed engine.orderbook engine.stopOrders) (amend : AmendOrder) :
    Abides agreed (engine.handleAmendOrder amend) := by
  rcases engine.handleAmendOrder_cases amend with
    ⟨reason, -, same⟩ |
      ⟨existing, found, owner, ⟨-, same⟩ | ⟨-, same⟩ | ⟨-, quantity, -, -, -, same⟩⟩
  · rw [same]
    exact abides_rejected keeps
  · rw [same]
    exact abides_reinsertAmended unique keeps found owner
  · rw [same]
    have known := keeps.resting found
    rw [← unique.wellFormed.toLevels.keyed found] at known
    have told : Abides (Function.update agreed existing.orderId (some existing.terms))
        (engine, []) := by
      rw [Function.update_eq_self_iff.2 known.symm]
      exact abides_of_silent (by simp) keeps
    exact told.afterAccepted amend.symbol amend.timestamp
  · rw [same]
    have known := keeps.resting found
    rw [← unique.wellFormed.toLevels.keyed found] at known
    have told : Abides (Function.update agreed existing.orderId (some existing.terms))
        ({ engine with orderbook := engine.orderbook.updateQty amend.orderId quantity }, []) := by
      rw [Function.update_eq_self_iff.2 known.symm]
      exact abides_of_silent (by simp) (keeps.updateQty amend.orderId quantity)
    exact told.afterAccepted amend.symbol amend.timestamp

end Amend

private theorem abides_handleCancelAll (unique : engine.HasUniqueIds)
    (keeps : KeepsTerms agreed engine.orderbook engine.stopOrders) (userId : UserId)
    (symbol : SymbolId) (timestamp : UnixMicros) :
    Abides agreed (engine.handleCancelAll userId symbol timestamp) := by
  let taken := fun stop : BookOrder =>
    decide (stop.userId = userId) && decide (stop.symbol = symbol)
  have scanned := swapScan_perm taken engine.stopOrders
  refine abides_of_silent (fun event member => ?_)
    ((keeps.cancelAllUserOrders unique.wellFormed userId).of_subset fun stop waits =>
      scanned.subset (List.mem_append_right _ waits))
  rcases List.mem_append.1 member with ofBook | ofStops
  · obtain ⟨order, listed, rfl⟩ := List.mem_map.1 ofBook
    obtain ⟨found, owner⟩ := (mem_cancelAllUserOrders unique.wellFormed).1 listed
    exact ⟨⟨order.terms, keeps.resting found, owner⟩, rfl⟩
  · obtain ⟨order, listed, rfl⟩ := List.mem_map.1 ofStops
    have known := keeps.waiting order (scanned.subset (List.mem_append_left _ listed))
    have own := swapScan_taken listed
    simp only [Bool.and_eq_true, decide_eq_true_iff] at own
    exact ⟨⟨order.terms, known, own.1⟩, rfl⟩

/-! ### Mark prices -/

section Triggers

variable {order : BookOrder} {others : List BookOrder}

/-- The order under way trades on the terms that it was waiting with. -/
theorem honoured_triggerOne (unique : IdsUnique engine.orderbook (order :: others))
    (keeps : KeepsTerms agreed engine.orderbook (order :: others)) (timestamp : UnixMicros) :
    let outcome := engine.triggerOne order timestamp
    (Audited Agreements.note Agreements.Honoured agreed outcome.2 ∧
        outcome.2.foldl Agreements.note agreed = agreed) ∧
      KeepsTerms agreed outcome.1.orderbook others := by
  intro outcome
  let taker := convertTriggered order
  have known : agreed taker.orderId = some taker.terms := by
    rw [(convertTriggered_frame order).1, convertTriggered_terms]
    exact keeps.waiting order List.mem_cons_self
  have rest : KeepsTerms agreed engine.orderbook others :=
    keeps.of_subset (List.subset_cons_self order others)
  have matched := rest.matchOrder unique.wellFormed taker
  have emitted := honoured_absorb engine unique.wellFormed rest known
    (matchOrder engine.orderbook taker).taker.symbol timestamp
  rcases engine.triggerOne_cases order timestamp with
    ⟨-, same⟩ | ⟨-, -, same⟩ | ⟨-, -, -, same⟩
  · simp only [outcome, same]
    exact ⟨⟨audited_nil, rfl⟩, rest⟩
  · simp only [outcome, same]
    exact ⟨emitted, matched⟩
  · simp only [outcome, same]
    refine ⟨emitted, matched.insertOrder ?_⟩
    rw [matchOrder_taker_orderId unique.wellFormed, matchOrder_taker_terms]
    exact known

private theorem honoured_triggerAll {pending : List BookOrder}
    (unique : IdsUnique engine.orderbook (pending ++ others))
    (keeps : KeepsTerms agreed engine.orderbook (pending ++ others)) (timestamp : UnixMicros) :
    let outcome := triggerAll timestamp engine pending
    (Audited Agreements.note Agreements.Honoured agreed outcome.2 ∧
        outcome.2.foldl Agreements.note agreed = agreed) ∧
      KeepsTerms agreed outcome.1.orderbook others := by
  induction pending generalizing engine with
  | nil => exact ⟨⟨audited_nil, rfl⟩, keeps⟩
  | cons order rest inductionHypothesis =>
      obtain ⟨⟨first, silent⟩, kept⟩ := honoured_triggerOne unique keeps timestamp
      obtain ⟨⟨later, same⟩, final⟩ := inductionHypothesis (idsUnique_triggerOne unique) kept
      simp only [triggerAll, audited_append, List.foldl_append]
      rw [silent]
      exact ⟨⟨⟨first, later⟩, same⟩, final⟩

end Triggers

private theorem abides_updateMarkPrice (unique : engine.HasUniqueIds)
    (keeps : KeepsTerms agreed engine.orderbook engine.stopOrders) (symbol : SymbolId)
    (mark index : Decimal128) (timestamp : UnixMicros) :
    Abides agreed (engine.updateMarkPrice symbol mark index timestamp) := by
  let passive := engine.applyMarkIndexPassive mark index
  let scanned := swapScan (shouldTrigger passive.markPrice) passive.stopOrders
  have whole := swapScan_perm (shouldTrigger passive.markPrice) passive.stopOrders
  have peaked : passive.HasUniqueIds :=
    IdsUnique.sameIds unique (updateTrailingPeak_orderId mark)
  have terms : KeepsTerms agreed passive.orderbook (scanned.1 ++ scanned.2) :=
    (keeps.updateTrailingPeaks mark).of_subset whole.subset
  let scanning : MatchingEngine := { passive with stopOrders := scanned.2 }
  have unlinked : IdsUnique scanning.orderbook (scanned.1 ++ scanned.2) :=
    IdsUnique.perm peaked whole
  obtain ⟨⟨audited, silent⟩, kept⟩ := honoured_triggerAll unlinked terms timestamp
  have triggered : Abides agreed (triggerAll timestamp scanning scanned.1) := by
    refine ⟨audited, ?_⟩
    rw [silent, triggerAll_stopOrders]
    exact kept
  have first : Audited Agreements.note Agreements.Honoured agreed
      [.markPriceUpdate symbol mark index timestamp] := audited_cons.2 ⟨trivial, audited_nil⟩
  exact triggered.after first rfl

/-! ### Expiry -/

private theorem honoured_expireEntries {book : OrderBook} {stops : List BookOrder}
    {now : UnixMicros}
    {entries : List (UnixMicros × OrderId)} (keeps : KeepsTerms agreed book stops) :
    (∀ event ∈ (expireEntries now book entries).2.2,
        agreed.Honoured event ∧ agreed.note event = agreed) ∧
      KeepsTerms agreed (expireEntries now book entries).1 stops := by
  induction entries generalizing book with
  | nil => exact ⟨by simp [expireEntries], keeps⟩
  | cons entry rest inductionHypothesis =>
      rw [expireEntries]
      split
      · exact ⟨by simp, keeps⟩
      · cases found : book.getOrder entry.2 with
        | none => exact inductionHypothesis keeps
        | some order =>
            obtain ⟨honoured, kept⟩ := inductionHypothesis (keeps.removeOrder entry.2)
            refine ⟨fun event member => ?_, kept⟩
            rcases List.mem_cons.1 member with rfl | later
            · exact ⟨⟨order.terms, keeps.resting found, rfl⟩, rfl⟩
            · exact honoured event later

/-! ## Whole runs -/

/-- What is known after a log. -/
def agreedIn (log : List Event) : Agreements := log.foldl Agreements.note fun _ => none

/-- Live ids are unique, and live orders have the terms that are known. -/
structure OnTerms (engine : MatchingEngine) (agreed : Agreements) : Prop where
  unique : engine.HasUniqueIds
  keeps : KeepsTerms agreed engine.orderbook engine.stopOrders

theorem OnTerms.step {input : EngineInput} (onTerms : OnTerms engine agreed)
    (notWaiting : engine.NewIdNotWaiting input) : Abides agreed (engine.step input) := by
  obtain ⟨unique, keeps⟩ := onTerms
  cases input with
  | expirySweep now =>
      obtain ⟨honoured, kept⟩ := honoured_expireEntries keeps
      exact abides_of_silent honoured kept
  | command issued =>
      have counted : { engine with sequence := engine.sequence + 1 }.HasUniqueIds := unique
      cases issued with
      | newOrder order => exact abides_handleNewOrder counted keeps notWaiting
      | cancelOrder orderId userId symbol timestamp =>
          exact abides_handleCancelOrder counted keeps orderId userId timestamp
      | amendOrder amend => exact abides_handleAmendOrder counted keeps amend
      | cancelAllOrders userId symbol timestamp =>
          exact abides_handleCancelAll counted keeps userId symbol timestamp
      | updateMarkPrice symbol mark index timestamp =>
          exact abides_updateMarkPrice counted keeps symbol mark index timestamp
      | computeFunding symbol timestamp =>
          refine abides_of_silent (fun event member => ?_) keeps
          rw [List.mem_singleton.1 member]
          exact ⟨trivial, rfl⟩
      | adminCredit userId amount key timestamp =>
          exact abides_of_silent (fun event member => absurd member List.not_mem_nil) keeps

/-- In every run in which no admissible new order takes the id of a waiting one, each event
keeps to the terms that the log has told before it. -/
theorem terms_honoured (config : SymbolConfig) (ids : Nat → TradeId) (interestRate : Decimal128)
    (inputs : List EngineInput)
    (notWaiting : StepsMeet step NewIdNotWaiting (new config ids interestRate) inputs)
    (before : List Event) (event : Event) (after : List Event)
    (logged : (run step (new config ids interestRate) inputs).2 = before ++ event :: after) :
    (agreedIn before).Honoured event := by
  have start : OnTerms (new config ids interestRate) fun _ => none :=
    ⟨IdsUnique.new config.symbol, KeepsTerms.start config.symbol⟩
  have audited : Audited Agreements.note Agreements.Honoured (fun _ => none)
      (run step (new config ids interestRate) inputs).2 :=
    (notWaiting.run_audited (fun engine agreed input condition onTerms =>
      have abides := onTerms.step condition
      ⟨abides.1, onTerms.unique.step condition, abides.2⟩) start).1
  exact audited before event after logged

/-- A sale at 100 meets a purchase at 101, and what is left of the sale is amended to 102. -/
def amendedSaleInputs : List EngineInput :=
  [.command (.newOrder (gatewayOrder 1 7 .sell 100 5)),
    .command (.newOrder (gatewayOrder 2 8 .buy 101 3)),
    .command (.amendOrder
      { orderId := 1
        userId := 7
        symbol := 1
        newPrice := some (.ofInt 102)
        newQuantity := none
        timestamp := 1 }),
    .command (.newOrder (gatewayOrder 3 8 .buy 103 2))]

/-- The maker's fill after the amendment. -/
theorem terms_honoured_amendedSale :
    let log := (run step (new plainConfig id 0) amendedSaleInputs).2
    ∃ event after, log.drop 8 = event :: after ∧ (agreedIn (log.take 8)).Honoured event := by
  intro log
  cases later : log.drop 8 with
  | nil =>
      have long : 8 < log.length := by decide +kernel
      exact absurd (List.drop_eq_nil_iff.1 later) (not_le.2 long)
  | cons event after =>
      refine ⟨event, after, rfl, ?_⟩
      refine terms_honoured plainConfig id 0 amendedSaleInputs (by decide +kernel) (log.take 8)
        event after ?_
      rw [← later, List.take_append_drop]

end MatchingEngine
end Exg
