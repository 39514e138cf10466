import Exg.Matching.Reachable
import Exg.Matching.Replay
import Exg.Matching.SameOrders

/-!
# Replaying a sweep

A match is logged as two legs for each fill, every leg with the quantity that is left
after the whole match.  Replay settles a maker by its leg and the taker by its first
one; these lemmas say which book that leaves, beside the book the match has left.
-/

namespace Exg

open Support

/-- A book with one more order at the end of its queue, if there is one. -/
def OrderBook.beside (book : OrderBook) (order : Option BookOrder) : OrderBook :=
  order.elim book book.insertOrder

/-- What replay keeps of a taker after the first leg of a sweep. -/
def settledTaker (order : BookOrder) (left : Decimal128) : Option BookOrder :=
  if left = 0 then none else some (order.withRemaining left)

/-- What replay keeps of an accepted order after the whole sweep. -/
def sweptTaker (order : BookOrder) (left : Decimal128) (shares : List (OrderId × Decimal128)) :
    Option BookOrder :=
  if shares = [] then some order else settledTaker order left

namespace MatchingEngine

/-- Only the book has changed. -/
structure BookOnly (before after : MatchingEngine) : Prop where
  stops : after.stopOrders = before.stopOrders
  markPrice : after.markPrice = before.markPrice
  indexPrice : after.indexPrice = before.indexPrice
  lastFundingRate : after.lastFundingRate = before.lastFundingRate

theorem BookOnly.refl (engine : MatchingEngine) : BookOnly engine engine := ⟨rfl, rfl, rfl, rfl⟩

theorem BookOnly.trans {first second third : MatchingEngine} (left : BookOnly first second)
    (right : BookOnly second third) : BookOnly first third where
  stops := right.stops.trans left.stops
  markPrice := right.markPrice.trans left.markPrice
  indexPrice := right.indexPrice.trans left.indexPrice
  lastFundingRate := right.lastFundingRate.trans left.lastFundingRate

/-! ## The legs of a sweep -/

/-- The two legs of a fill, and the trade that replay skips. -/
theorem fillEvents_legs (config : SymbolConfig) (after : OrderBook) (symbol : SymbolId)
    (timestamp : UnixMicros) (taker : BookOrder) (tradeId : TradeId) (fill : Fill) :
    ∃ makerLeg takerLeg trade,
      fillEvents config after symbol timestamp taker tradeId fill =
        [.orderFilled makerLeg, .orderFilled takerLeg, .tradeExecuted trade] ∧
      (makerLeg.orderId = fill.makerOrderId ∧ makerLeg.fillQty = fill.quantity ∧
        makerLeg.remainingQty = after.remaining fill.makerOrderId) ∧
      takerLeg.orderId = fill.takerOrderId ∧ takerLeg.fillQty = fill.quantity ∧
        takerLeg.remainingQty = taker.remainingQty :=
  ⟨_, _, _, rfl, ⟨rfl, rfl, rfl⟩, rfl, rfl, rfl⟩

section Legs

variable {replayed next : MatchingEngine} {book : OrderBook} {settled : Option BookOrder}
variable {leg : OrderFilled}

private theorem getOrder_beside {orderId : OrderId}
    (other : ∀ order ∈ settled, order.orderId ≠ orderId) :
    (book.beside settled).getOrder orderId = book.getOrder orderId := by
  cases settled with
  | none => rfl
  | some order =>
      change (book.insertOrder order).getOrder orderId = _
      rw [OrderBook.getOrder_insertOrder, if_neg (other order rfl)]

private theorem sameOrders_beside_takeFrom {makerId : OrderId}
    (other : ∀ order ∈ settled, order.orderId ≠ makerId) (left : Decimal128) :
    ((book.takeFrom makerId left).beside settled).SameOrders
      ((book.beside settled).takeFrom makerId left) := by
  cases settled with
  | none => exact OrderBook.SameOrders.refl _
  | some order => exact OrderBook.sameOrders_insert_takeFrom (Ne.symm (other order rfl)) left

/-- The order a leg fills is on the book, and the leg takes from it. -/
theorem restingLeg_applied {order : BookOrder}
    (stored : replayed.orderbook.getOrder leg.orderId = some order)
    (applied : replayed.applyFilled leg = .ok next) :
    BookOnly replayed next ∧
      next.orderbook = replayed.orderbook.takeFrom leg.orderId leg.remainingQty := by
  rw [applyFilled_resting stored (applyFilled_fits stored applied)] at applied
  cases applied
  exact ⟨⟨rfl, rfl, rfl, rfl⟩, rfl⟩

/-- A maker's leg does to the replayed book what the match did to the live one. -/
theorem makerLeg_applied {maker : BookOrder}
    (same : (book.beside settled).SameOrders replayed.orderbook)
    (found : book.getOrder leg.orderId = some maker)
    (other : ∀ order ∈ settled, order.orderId ≠ leg.orderId)
    (applied : replayed.applyFilled leg = .ok next) :
    BookOnly replayed next ∧
      ((book.takeFrom leg.orderId leg.remainingQty).beside settled).SameOrders next.orderbook := by
  have stored : replayed.orderbook.getOrder leg.orderId = some maker := by
    rw [same.getOrder, getOrder_beside other, found]
  obtain ⟨rest, taken⟩ := restingLeg_applied stored applied
  rw [taken]
  exact ⟨rest, (sameOrders_beside_takeFrom other _).trans (same.takeFrom _ _)⟩

/-- A later leg of a taker that the first leg has settled changes nothing. -/
theorem takerLeg_applied
    (same : (book.beside settled).SameOrders replayed.orderbook)
    (missing : book.getOrder leg.orderId = none)
    (notWaiting : leg.orderId ∉ replayed.stopOrders.map BookOrder.orderId)
    (settledHere : ∀ order ∈ settled, order.orderId = leg.orderId ∧
      order.remainingQty = leg.remainingQty ∧ leg.remainingQty ≠ 0)
    (applied : replayed.applyFilled leg = .ok next) :
    BookOnly replayed next ∧ (book.beside settled).SameOrders next.orderbook := by
  cases settled with
  | none =>
      have gone : replayed.orderbook.getOrder leg.orderId = none := by
        rw [same.getOrder]
        exact missing
      rw [applyFilled_settled_eq gone notWaiting applied]
      exact ⟨BookOnly.refl _, same⟩
  | some order =>
      obtain ⟨keyed, sameLeft, left⟩ := settledHere order rfl
      have stored : replayed.orderbook.getOrder leg.orderId = some order := by
        rw [same.getOrder]
        change (book.insertOrder order).getOrder leg.orderId = _
        rw [OrderBook.getOrder_insertOrder, if_pos keyed]
      obtain ⟨rest, taken⟩ := restingLeg_applied stored applied
      have updated : (book.insertOrder (order.withRemaining order.remainingQty)).SameOrders
          ((book.insertOrder order).updateQty order.orderId order.remainingQty) :=
        OrderBook.sameOrders_insert_update order.remainingQty
      rw [BookOrder.withRemaining_self, keyed, sameLeft] at updated
      refine ⟨rest, ?_⟩
      rw [taken, OrderBook.takeFrom, if_neg (by simpa using left)]
      exact updated.trans (same.updateQty _ _)

/-- The first leg of a taker brings it to its final quantity. -/
theorem firstLeg_applied {order : BookOrder}
    (same : (book.insertOrder order).SameOrders replayed.orderbook)
    (wellFormed : book.LevelsWellFormed) (keyed : order.orderId = leg.orderId)
    (missing : book.getOrder leg.orderId = none)
    (applied : replayed.applyFilled leg = .ok next) :
    BookOnly replayed next ∧
      (book.beside (settledTaker order leg.remainingQty)).SameOrders next.orderbook := by
  have stored : replayed.orderbook.getOrder leg.orderId = some order := by
    rw [same.getOrder, OrderBook.getOrder_insertOrder, if_pos keyed]
  obtain ⟨rest, taken⟩ := restingLeg_applied stored applied
  refine ⟨rest, ?_⟩
  rw [taken, settledTaker, OrderBook.takeFrom]
  rw [← keyed] at missing ⊢
  by_cases nothing : leg.remainingQty = 0
  · rw [if_pos nothing, if_pos (by simpa using nothing)]
    exact (OrderBook.sameOrders_insert_remove wellFormed missing).trans (same.removeOrder _)
  · rw [if_neg nothing, if_neg (by simpa using nothing)]
    exact (OrderBook.sameOrders_insert_update leg.remainingQty).trans (same.updateQty _ _)

/-- What promoting a triggered order puts on the book. -/
def promotedTaker (order : BookOrder) (left : Decimal128) : Option BookOrder :=
  if (convertTriggered order).orderType.isLimit = true then
    settledTaker (convertTriggered order) left
  else
    none

/-- The first leg of a triggered order takes it from the waiting orders. -/
theorem triggeredLeg_applied {order : BookOrder}
    (same : book.SameOrders replayed.orderbook) (missing : book.getOrder leg.orderId = none)
    (waiting : (replayed.stopOrders.find? fun stop => stop.orderId = leg.orderId) = some order)
    (applied : replayed.applyFilled leg = .ok next) :
    BookOnly { replayed with
        stopOrders := swapRemoveFirst (fun stop => stop.orderId = order.orderId)
          replayed.stopOrders } next ∧
      (book.beside (promotedTaker order leg.remainingQty)).SameOrders next.orderbook := by
  have gone : replayed.orderbook.getOrder leg.orderId = none := (same.getOrder _).trans missing
  rw [applyFilled_waiting gone waiting (applyFilled_waiting_fits gone waiting applied)] at applied
  cases applied
  rw [promote, promotedTaker, settledTaker]
  by_cases limited : (convertTriggered order).orderType.isLimit = true
  · by_cases nothing : leg.remainingQty = 0
    · simp only [nothing, limited, if_true, ne_eq, not_true_eq_false, false_and, if_false]
      exact ⟨⟨rfl, rfl, rfl, rfl⟩, same⟩
    · simp only [nothing, limited, if_true, ne_eq, not_false_eq_true, and_self, if_false]
      exact ⟨⟨rfl, rfl, rfl, rfl⟩, same.insertOrder _⟩
  · rw [if_neg limited, if_neg fun both => limited both.2]
    exact ⟨⟨rfl, rfl, rfl, rfl⟩, same⟩

end Legs

/-! ## Sweeps -/

/-- Shares of a walk over a book, beside what the walk leaves of their makers. -/
structure Drawn (book after : OrderBook) (takerId : OrderId)
    (shares : List (OrderId × Decimal128)) : Prop where
  nodup : (shares.map Prod.fst).Nodup
  stored : ∀ share ∈ shares, (book.getOrder share.1).isSome
  left : ∀ share ∈ shares, after.remaining share.1 = book.remaining share.1 - share.2
  missing : book.getOrder takerId = none

section Sweep

variable {config : SymbolConfig} {source book after : OrderBook} {symbol : SymbolId}
variable {timestamp : UnixMicros} {taker result order : BookOrder} {gen : TradeIdGen}
variable {replayed final : MatchingEngine} {shares : List (OrderId × Decimal128)}
variable {share : OrderId × Decimal128}

theorem Drawn.other (drawn : Drawn book after taker.orderId shares) (member : share ∈ shares) :
    share.1 ≠ taker.orderId := by
  intro same
  have stored := drawn.stored share member
  rw [same, drawn.missing] at stored
  cases stored

/-- The rest of a walk is a walk over the book that the first share has left. -/
theorem Drawn.tail (drawn : Drawn book after taker.orderId (share :: shares)) :
    Drawn (book.takeFrom share.1 (after.remaining share.1)) after taker.orderId shares := by
  have nodup := drawn.nodup
  rw [List.map_cons, List.nodup_cons] at nodup
  have untouched : ∀ other ∈ shares,
      (book.takeFrom share.1 (after.remaining share.1)).getOrder other.1 =
        book.getOrder other.1 := by
    intro other member
    rw [OrderBook.getOrder_takeFrom, if_neg]
    intro same
    exact nodup.1 (same ▸ List.mem_map_of_mem member)
  refine ⟨nodup.2, ?_, ?_, ?_⟩
  · intro other member
    rw [untouched other member]
    exact drawn.stored other (List.mem_cons_of_mem share member)
  · intro other member
    rw [drawn.left other (List.mem_cons_of_mem share member), OrderBook.remaining,
      OrderBook.remaining, untouched other member]
  · rw [OrderBook.getOrder_takeFrom, if_neg (drawn.other List.mem_cons_self), drawn.missing]

/-- The walk of `matchOrder`. -/
theorem drawn_matchShares (wellFormed : book.WellFormed)
    (missing : book.getOrder taker.orderId = none) :
    Drawn book (matchOrder book taker).book taker.orderId (matchShares book taker) where
  nodup := matchShares_nodup wellFormed
  stored := by
    intro share member
    obtain ⟨maker, found, -⟩ := matchShares_stored wellFormed member
    simp [found]
  left := by
    intro share member
    obtain ⟨maker, found, -⟩ := matchShares_stored wellFormed member
    rw [OrderBook.remaining, matchOrder_book wellFormed, OrderBook.getOrder_takeOut_of_mem
      (matchShares_nodup wellFormed) member found, OrderBook.remaining_of_some found]
    split
    · rename_i exhausted
      simp [exhausted]
    · rfl
  missing := missing

/-- The legs of one share and the sweep that follows. -/
theorem follow_share {maker : BookOrder} (found : source.getOrder share.1 = some maker)
    (followed : follow applyEvent replayed (emitFillEvents config after symbol timestamp result gen
      (fillsOf source taker (share :: shares))).2 = .ok final) :
    ∃ makerLeg takerLeg middle next, replayed.applyFilled makerLeg = .ok middle ∧
      middle.applyFilled takerLeg = .ok next ∧
      (makerLeg.orderId = share.1 ∧ makerLeg.remainingQty = after.remaining share.1) ∧
      (takerLeg.orderId = taker.orderId ∧ takerLeg.remainingQty = result.remainingQty) ∧
      follow applyEvent next (emitFillEvents config after symbol timestamp result gen.nextId.2
        (fillsOf source taker shares)).2 = .ok final := by
  rw [fillsOf_cons found, emitFillEvents] at followed
  obtain ⟨makerLeg, takerLeg, trade, legs, ⟨makerId, -, makerLeft⟩, takerId, -, takerLeft⟩ :=
    fillEvents_legs config after symbol timestamp result gen.nextId.1
      (fillAgainst taker maker share.1 share.2)
  simp only [legs, List.cons_append, List.nil_append] at followed
  obtain ⟨middle, first, following⟩ := follow_cons_ok followed
  obtain ⟨next, second, following⟩ := follow_cons_ok following
  exact ⟨makerLeg, takerLeg, middle, next, first, second, ⟨makerId, makerLeft⟩,
    ⟨takerId, takerLeft⟩, following⟩

/-- The first share of a walk: its maker's leg is taken in, its taker's leg comes next. -/
theorem follow_firstShare {settled : Option BookOrder}
    (drawn : Drawn book after taker.orderId (share :: shares))
    (sourced : (source.getOrder share.1).isSome)
    (own : ∀ order ∈ settled, order.orderId = taker.orderId)
    (same : (book.beside settled).SameOrders replayed.orderbook)
    (followed : follow applyEvent replayed (emitFillEvents config after symbol timestamp result gen
      (fillsOf source taker (share :: shares))).2 = .ok final) :
    ∃ takerLeg middle next, BookOnly replayed middle ∧
      ((book.takeFrom share.1 (after.remaining share.1)).beside settled).SameOrders
        middle.orderbook ∧
      middle.applyFilled takerLeg = .ok next ∧
      (takerLeg.orderId = taker.orderId ∧ takerLeg.remainingQty = result.remainingQty) ∧
      follow applyEvent next (emitFillEvents config after symbol timestamp result gen.nextId.2
        (fillsOf source taker shares)).2 = .ok final := by
  obtain ⟨maker, found⟩ := Option.isSome_iff_exists.1 sourced
  obtain ⟨stored, inBook⟩ := Option.isSome_iff_exists.1 (drawn.stored share List.mem_cons_self)
  obtain ⟨makerLeg, takerLeg, middle, next, first, second, ⟨makerId, makerLeft⟩, takerSide,
    following⟩ := follow_share found followed
  have other : ∀ order ∈ settled, order.orderId ≠ makerLeg.orderId := by
    intro order member
    rw [own order member, makerId]
    exact Ne.symm (drawn.other List.mem_cons_self)
  obtain ⟨restMiddle, sameMiddle⟩ := makerLeg_applied same (by rwa [makerId]) other first
  rw [makerId, makerLeft] at sameMiddle
  exact ⟨takerLeg, middle, next, restMiddle, sameMiddle, second, takerSide, following⟩

private theorem settledTaker_spec (keyed : order.orderId = taker.orderId) {left : Decimal128} :
    ∀ settled ∈ settledTaker order left, settled.orderId = taker.orderId ∧
      settled.remainingQty = left ∧ left ≠ 0 := by
  intro settled member
  rw [settledTaker] at member
  split at member
  · cases member
  · rename_i some
    cases member
    exact ⟨keyed, rfl, some⟩

/-- Once its first leg has settled the taker, a sweep only takes from the makers. -/
theorem follow_settledSweep {settled : Option BookOrder}
    (drawn : Drawn book after taker.orderId shares)
    (sourced : ∀ share ∈ shares, (source.getOrder share.1).isSome)
    (notWaiting : taker.orderId ∉ replayed.stopOrders.map BookOrder.orderId)
    (settledHere : ∀ order ∈ settled, order.orderId = taker.orderId ∧
      order.remainingQty = result.remainingQty ∧ result.remainingQty ≠ 0)
    (same : (book.beside settled).SameOrders replayed.orderbook)
    (followed : follow applyEvent replayed (emitFillEvents config after symbol timestamp result gen
      (fillsOf source taker shares)).2 = .ok final) :
    BookOnly replayed final ∧
      ((book.takeOut shares).beside settled).SameOrders final.orderbook := by
  induction shares generalizing book replayed gen with
  | nil =>
      cases followed
      exact ⟨BookOnly.refl _, same⟩
  | cons share rest inductionHypothesis =>
      obtain ⟨takerLeg, middle, next, restMiddle, sameMiddle, second, ⟨takerId, takerLeft⟩,
        following⟩ := follow_firstShare drawn (sourced share List.mem_cons_self)
          (fun order member => (settledHere order member).1) same followed
      obtain ⟨restNext, sameNext⟩ := takerLeg_applied sameMiddle
        (by rw [takerId]; exact drawn.tail.missing)
        (by rw [restMiddle.stops, takerId]; exact notWaiting)
        (by rw [takerId, takerLeft]; exact settledHere) second
      have both := restMiddle.trans restNext
      obtain ⟨restLast, sameLast⟩ := inductionHypothesis drawn.tail
        (fun later member => sourced later (List.mem_cons_of_mem share member))
        (by rwa [both.stops]) sameNext following
      rw [OrderBook.takeOut, ← drawn.left share List.mem_cons_self]
      exact ⟨both.trans restLast, sameLast⟩

/-- Replaying the sweep of an order that its acceptance has put on the book. -/
theorem follow_acceptedSweep (keyed : order.orderId = taker.orderId)
    (wellFormed : book.WellFormed) (drawn : Drawn book after taker.orderId shares)
    (sourced : ∀ share ∈ shares, (source.getOrder share.1).isSome)
    (notWaiting : taker.orderId ∉ replayed.stopOrders.map BookOrder.orderId)
    (same : (book.insertOrder order).SameOrders replayed.orderbook)
    (followed : follow applyEvent replayed (emitFillEvents config after symbol timestamp result gen
      (fillsOf source taker shares)).2 = .ok final) :
    BookOnly replayed final ∧
      ((book.takeOut shares).beside (sweptTaker order result.remainingQty shares)).SameOrders
        final.orderbook := by
  cases shares with
  | nil =>
      cases followed
      exact ⟨BookOnly.refl _, same⟩
  | cons share rest =>
      have besideOrder : (book.beside (some order)).SameOrders replayed.orderbook := same
      have own : ∀ accepted ∈ some order, accepted.orderId = taker.orderId := by
        intro accepted member
        cases member
        exact keyed
      obtain ⟨takerLeg, middle, next, restMiddle, sameMiddle, second, ⟨takerId, takerLeft⟩,
        following⟩ := follow_firstShare drawn (sourced share List.mem_cons_self) own besideOrder
          followed
      obtain ⟨restNext, sameNext⟩ := firstLeg_applied sameMiddle
        (wellFormed.takeFrom _ _).toLevels (keyed.trans takerId.symm)
        (by rw [takerId]; exact drawn.tail.missing) second
      rw [takerLeft] at sameNext
      have both := restMiddle.trans restNext
      obtain ⟨restLast, sameLast⟩ := follow_settledSweep drawn.tail
        (fun later member => sourced later (List.mem_cons_of_mem share member))
        (by rwa [both.stops]) (settledTaker_spec keyed) sameNext following
      rw [OrderBook.takeOut, ← drawn.left share List.mem_cons_self, sweptTaker, if_neg (by simp)]
      exact ⟨both.trans restLast, sameLast⟩

/-- Replaying the sweep of a triggered order. -/
theorem follow_triggeredSweep
    (sameConverted : (convertTriggered order).orderId = taker.orderId)
    (drawn : Drawn book after taker.orderId shares) (traded : shares ≠ [])
    (sourced : ∀ share ∈ shares, (source.getOrder share.1).isSome)
    (waiting : (replayed.stopOrders.find? fun stop => stop.orderId = taker.orderId) = some order)
    (gone : taker.orderId ∉ (swapRemoveFirst (fun stop => stop.orderId = order.orderId)
      replayed.stopOrders).map BookOrder.orderId)
    (same : book.SameOrders replayed.orderbook)
    (followed : follow applyEvent replayed (emitFillEvents config after symbol timestamp result gen
      (fillsOf source taker shares)).2 = .ok final) :
    BookOnly { replayed with
        stopOrders := swapRemoveFirst (fun stop => stop.orderId = order.orderId)
          replayed.stopOrders } final ∧
      ((book.takeOut shares).beside (promotedTaker order result.remainingQty)).SameOrders
        final.orderbook := by
  obtain ⟨share, rest, rfl⟩ := List.exists_cons_of_ne_nil traded
  have alone : (book.beside none).SameOrders replayed.orderbook := same
  obtain ⟨takerLeg, middle, next, restMiddle, sameMiddle, second, ⟨takerId, takerLeft⟩,
    following⟩ := follow_firstShare drawn (sourced share List.mem_cons_self) (by simp) alone
      followed
  obtain ⟨restNext, sameNext⟩ := triggeredLeg_applied sameMiddle
    (by rw [takerId]; exact drawn.tail.missing) (by rw [restMiddle.stops, takerId]; exact waiting)
    second
  rw [restMiddle.stops] at restNext
  rw [takerLeft] at sameNext
  have settledHere : ∀ settled ∈ promotedTaker order result.remainingQty,
      settled.orderId = taker.orderId ∧ settled.remainingQty = result.remainingQty ∧
        result.remainingQty ≠ 0 := by
    intro settled member
    rw [promotedTaker] at member
    split at member
    · exact settledTaker_spec sameConverted settled member
    · cases member
  obtain ⟨restLast, sameLast⟩ := follow_settledSweep drawn.tail
    (fun later member => sourced later (List.mem_cons_of_mem share member))
    (by rw [restNext.stops]; exact gone) settledHere sameNext following
  rw [OrderBook.takeOut, ← drawn.left share List.mem_cons_self]
  refine ⟨⟨restLast.stops.trans restNext.stops, ?_, ?_, ?_⟩, sameLast⟩
  · exact restLast.markPrice.trans (restNext.markPrice.trans restMiddle.markPrice)
  · exact restLast.indexPrice.trans (restNext.indexPrice.trans restMiddle.indexPrice)
  · exact restLast.lastFundingRate.trans
      (restNext.lastFundingRate.trans restMiddle.lastFundingRate)

/-- What replay keeps of a taker has the taker's id. -/
theorem sweptTaker_orderId {left : Decimal128} :
    ∀ kept ∈ sweptTaker order left shares, kept.orderId = order.orderId := by
  intro kept member
  rw [sweptTaker, settledTaker] at member
  split at member
  · cases member
    rfl
  · split at member
    · cases member
    · cases member
      rfl

/-- Replaying the match of an order that its acceptance has put on the book. -/
theorem follow_acceptedMatch {engine : MatchingEngine} (keyed : order.orderId = taker.orderId)
    (wellFormed : book.WellFormed) (missing : book.getOrder taker.orderId = none)
    (notWaiting : taker.orderId ∉ replayed.stopOrders.map BookOrder.orderId)
    (same : (book.insertOrder order).SameOrders replayed.orderbook)
    (followed : follow applyEvent replayed
      (engine.absorb (matchOrder book taker) symbol timestamp).2 = .ok final) :
    BookOnly replayed final ∧
      ((matchOrder book taker).book.beside (sweptTaker order
        (matchOrder book taker).taker.remainingQty (matchShares book taker))).SameOrders
          final.orderbook := by
  rw [absorb, matchOrder_fills wellFormed] at followed
  have drawn := drawn_matchShares wellFormed missing
  obtain ⟨rest, swept⟩ := follow_acceptedSweep keyed wellFormed drawn drawn.stored notWaiting same
    followed
  rw [← matchOrder_book wellFormed] at swept
  exact ⟨rest, swept⟩

/-- Replaying the cancellation of what a sweep has left, if it has left anything. -/
theorem canceled_beside {kept : Option BookOrder} {orderId : OrderId}
    (wellFormed : book.LevelsWellFormed) (missing : book.getOrder orderId = none)
    (keyed : ∀ order ∈ kept, order.orderId = orderId)
    (notWaiting : orderId ∉ replayed.stopOrders.map BookOrder.orderId)
    (same : (book.beside kept).SameOrders replayed.orderbook)
    (applied : replayed.applyCanceled orderId = .ok final) :
    BookOnly replayed final ∧ book.SameOrders final.orderbook := by
  cases kept with
  | none =>
      have gone : replayed.orderbook.getOrder orderId = none :=
        (same.getOrder orderId).trans missing
      have unchanged : (replayed.stopOrders.eraseP fun stop => stop.orderId = orderId) =
          replayed.stopOrders := by
        refine List.eraseP_of_forall_not fun stop member => ?_
        simpa using fun own => notWaiting (List.mem_map.2 ⟨stop, member, own⟩)
      rw [applyCanceled_missing gone applied]
      exact ⟨⟨unchanged, rfl, rfl, rfl⟩, same⟩
  | some order =>
      have own := keyed order rfl
      have stored : replayed.orderbook.getOrder orderId = some order := by
        rw [same.getOrder]
        change (book.insertOrder order).getOrder orderId = _
        rw [OrderBook.getOrder_insertOrder, if_pos own]
      rw [applyCanceled_resting stored] at applied
      cases applied
      rw [← own] at missing ⊢
      exact ⟨⟨rfl, rfl, rfl, rfl⟩,
        (OrderBook.sameOrders_insert_remove wellFormed missing).trans (same.removeOrder _)⟩

/-- An acceptance puts the rebuilt order on the book. -/
theorem accepted_applied {accepted : OrderAccepted}
    (unconditional : accepted.orderType.isConditional = false)
    (applied : replayed.applyAccepted accepted = .ok final) :
    BookOnly replayed final ∧
      final.orderbook = replayed.orderbook.insertOrder (rebuiltOrder accepted) := by
  obtain ⟨-, ⟨conditional, -⟩ | ⟨-, rfl⟩⟩ := applyAccepted_cases applied
  · rw [unconditional] at conditional
    cases conditional
  · exact ⟨⟨rfl, rfl, rfl, rfl⟩, rfl⟩

/-- Replaying the acceptance of an order and its match. -/
theorem follow_acceptance {engine : MatchingEngine} {accepted : OrderAccepted}
    (unconditional : accepted.orderType.isConditional = false)
    (keyed : accepted.orderId = taker.orderId) (wellFormed : book.WellFormed)
    (missing : book.getOrder taker.orderId = none)
    (notWaiting : taker.orderId ∉ replayed.stopOrders.map BookOrder.orderId)
    (same : book.SameOrders replayed.orderbook)
    (followed : follow applyEvent replayed (.orderAccepted accepted ::
      (engine.absorb (matchOrder book taker) symbol timestamp).2) = .ok final) :
    BookOnly replayed final ∧
      ((matchOrder book taker).book.beside (sweptTaker (rebuiltOrder accepted)
        (matchOrder book taker).taker.remainingQty (matchShares book taker))).SameOrders
          final.orderbook := by
  obtain ⟨placed, accepting, sweeping⟩ := follow_cons_ok followed
  obtain ⟨restPlaced, inserted⟩ := accepted_applied unconditional accepting
  have sameInserted : (book.insertOrder (rebuiltOrder accepted)).SameOrders placed.orderbook := by
    rw [inserted]
    exact same.insertOrder _
  rw [← restPlaced.stops] at notWaiting
  obtain ⟨restSwept, sameSwept⟩ :=
    follow_acceptedMatch keyed wellFormed missing notWaiting sameInserted sweeping
  exact ⟨restPlaced.trans restSwept, sameSwept⟩

/-- A taker that was filled is gone from the replayed book. -/
theorem sweptTaker_of_filled (wellFormed : book.WellFormed) (wanted : taker.remainingQty ≠ 0)
    (filled : (matchOrder book taker).taker.remainingQty = 0) :
    sweptTaker order (matchOrder book taker).taker.remainingQty (matchShares book taker) =
      none := by
  have traded : matchShares book taker ≠ [] := by
    intro untouched
    rw [matchOrder_taker wellFormed, untouched] at filled
    simp [wanted] at filled
  rw [sweptTaker, if_neg traded, settledTaker, if_pos filled]

/-- A taker with something left is kept as it was rebuilt, with what is left. -/
theorem sweptTaker_of_left {left : Decimal128} (some : left ≠ 0)
    (same : order.withRemaining left = result) (whole : shares = [] → order.remainingQty = left) :
    sweptTaker order left shares = .some result := by
  rw [sweptTaker]
  split
  · rename_i untouched
    rw [← same, ← whole untouched, BookOrder.withRemaining_self]
  · rw [settledTaker, if_neg some, same]

/-- A taker that its acceptance tells in full is kept with what is left. -/
theorem sweptTaker_self (wellFormed : book.WellFormed)
    (left : (matchOrder book taker).taker.remainingQty ≠ 0) :
    sweptTaker taker (matchOrder book taker).taker.remainingQty (matchShares book taker) =
      some (matchOrder book taker).taker := by
  apply sweptTaker_of_left left (matchOrder_taker_eq wellFormed).symm
  intro untouched
  exact (matchOrder_taker_untouched wellFormed untouched).symm

end Sweep

end MatchingEngine
end Exg
