import Exg.Matching.Quantities

/-!
# Where an accepted quantity goes

Quantity is lost without an event in a few places only: the hidden part of an iceberg
when its shown part is exhausted as a maker, canceled, expired or refused on amendment;
the hidden part that an immediate order does not get to show; and what a triggered order
leaves when it is refused or is a market order.  `Lossless` says of a state and an input
that none of these branches is taken, and the accounting equation follows for every run
of such steps.
-/

namespace Exg

open Support

/-- The taker wants at least everything shown ahead of and by a maker that hides more. -/
def ExhaustsHidden (book : OrderBook) (taker : BookOrder) : Prop :=
  ∃ ahead makerId behind maker,
    crossing taker.side.opposite book taker = ahead ++ makerId :: behind ∧
      book.getOrder makerId = some maker ∧ maker.hiddenQty ≠ 0 ∧
      (ahead.map book.remaining).sum + maker.remainingQty ≤ taker.remainingQty

/-- A match that takes no maker away before it has shown all it has. -/
def LosslessMatch (book : OrderBook) (taker : BookOrder) : Prop :=
  Refused book taker ∨ taker.timeInForce = .postOnly ∨ ¬ExhaustsHidden book taker

/-- An immediate order hides nothing, or fills its first slice and shows the rest in the
second. -/
def ReportsLeftover (book : OrderBook) (order : NewOrder) (taker : BookOrder) : Prop :=
  order.timeInForce = .ioc ∨ order.timeInForce = .fok →
    (splitQuantity order).2 = 0 ∨
      ((splitQuantity order).1 ≤ crossingQty book taker ∧
        (splitQuantity order).2 ≤ (splitQuantity order).1)

namespace MatchingEngine

/-- Along the pass over the triggered orders: none is refused, and a market order finds
all it wants. -/
def TriggersLossless (timestamp : UnixMicros) : MatchingEngine → List BookOrder → Prop
  | _, [] => True
  | engine, order :: rest =>
      let taker := convertTriggered order
      ¬Refused engine.orderbook taker ∧
        (taker.orderType.isLimit = true ∨
          (taker.timeInForce ≠ .postOnly ∧
            taker.remainingQty ≤ crossingQty engine.orderbook taker)) ∧
        LosslessMatch engine.orderbook taker ∧
        TriggersLossless timestamp (engine.triggerOne order timestamp).1 rest

/-- No branch that loses quantity is taken. -/
def Lossless (engine : MatchingEngine) : EngineInput → Prop
  | .command (.newOrder order) =>
      icebergAccepted engine.symbolConfig order = true →
        ShowsPart order ∧
        ∀ price, effectivePrice order = some price → order.orderType.isConditional = false →
          let taker := newBookOrder engine.markPrice order price
          Refused engine.orderbook taker ∨
            (LosslessMatch engine.orderbook taker ∧
              ReportsLeftover engine.orderbook order taker)
  | .command (.cancelOrder orderId userId _ _) =>
      ∀ order, engine.orderbook.getOrder orderId = some order → order.userId = userId →
        order.hiddenQty = 0
  | .command (.amendOrder amend) =>
      ∀ existing, engine.orderbook.getOrder amend.orderId = some existing →
        existing.userId = amend.userId → losesPriority existing amend = true →
          let removed := engine.orderbook.removeOrder amend.orderId
          let amended := amendedOrder existing amend
          (AmendInvalid existing amend ∨ Refused removed amended → existing.hiddenQty = 0) ∧
            (¬AmendInvalid existing amend → LosslessMatch removed amended)
  | .command (.cancelAllOrders userId _ _) =>
      ∀ orderId order, engine.orderbook.getOrder orderId = some order → order.userId = userId →
        order.hiddenQty = 0
  | .command (.updateMarkPrice _ mark index timestamp) =>
      let counted := { engine with sequence := engine.sequence + 1 }
      let passive := counted.applyMarkIndexPassive mark index
      let scanned := swapScan (shouldTrigger mark) passive.stopOrders
      TriggersLossless timestamp { passive with stopOrders := scanned.2 } scanned.1
  | .command (.computeFunding _ _) => True
  | .command (.adminCredit ..) => True
  | .expirySweep now =>
      ∀ entry ∈ engine.expiryHeap.takeWhile fun entry => decide (entry.1 ≤ now),
        ∀ order, engine.orderbook.getOrder entry.2 = some order → order.hiddenQty = 0

/-- `TriggersLossless`, as far as one order is concerned. -/
def TriggersLosslessFor (orderId : OrderId) (timestamp : UnixMicros) :
    MatchingEngine → List BookOrder → Prop
  | _, [] => True
  | engine, order :: rest =>
      let taker := convertTriggered order
      (order.orderId = orderId → ¬Refused engine.orderbook taker ∧
        (taker.orderType.isLimit = true ∨
          (taker.timeInForce ≠ .postOnly ∧
            taker.remainingQty ≤ crossingQty engine.orderbook taker))) ∧
        LosslessMatch engine.orderbook taker ∧
        TriggersLosslessFor orderId timestamp (engine.triggerOne order timestamp).1 rest

/-- No branch that loses quantity of one order is taken. -/
def LosslessFor (engine : MatchingEngine) (orderId : OrderId) : EngineInput → Prop
  | .command (.newOrder order) =>
      icebergAccepted engine.symbolConfig order = true →
        ShowsPart order ∧
        ∀ price, 0 < order.quantity → engine.orderbook.getOrder order.orderId = none →
          effectivePrice order = some price → order.orderType.isConditional = false →
          let taker := newBookOrder engine.markPrice order price
          Refused engine.orderbook taker ∨
            (LosslessMatch engine.orderbook taker ∧
              (order.orderId = orderId → ReportsLeftover engine.orderbook order taker))
  | .command (.cancelOrder canceledId userId _ _) =>
      canceledId = orderId → ∀ order, engine.orderbook.getOrder orderId = some order →
        order.userId = userId → order.hiddenQty = 0
  | .command (.amendOrder amend) =>
      ∀ existing, engine.orderbook.getOrder amend.orderId = some existing →
        existing.userId = amend.userId → losesPriority existing amend = true →
          let removed := engine.orderbook.removeOrder amend.orderId
          let amended := amendedOrder existing amend
          (amend.orderId = orderId → AmendInvalid existing amend ∨ Refused removed amended →
              existing.hiddenQty = 0) ∧
            (¬AmendInvalid existing amend → LosslessMatch removed amended)
  | .command (.cancelAllOrders userId _ _) =>
      ∀ order, engine.orderbook.getOrder orderId = some order → order.userId = userId →
        order.hiddenQty = 0
  | .command (.updateMarkPrice _ mark index timestamp) =>
      let counted := { engine with sequence := engine.sequence + 1 }
      let passive := counted.applyMarkIndexPassive mark index
      let scanned := swapScan (shouldTrigger mark) passive.stopOrders
      TriggersLosslessFor orderId timestamp { passive with stopOrders := scanned.2 } scanned.1
  | .command (.computeFunding _ _) => True
  | .command (.adminCredit ..) => True
  | .expirySweep now =>
      ∀ entry ∈ engine.expiryHeap.takeWhile fun entry => decide (entry.1 ≤ now),
        entry.2 = orderId → ∀ order, engine.orderbook.getOrder orderId = some order →
          order.hiddenQty = 0

private theorem TriggersLossless.lossless_for {timestamp : UnixMicros} (orderId : OrderId) :
    ∀ {engine : MatchingEngine} {pending : List BookOrder},
      TriggersLossless timestamp engine pending →
        TriggersLosslessFor orderId timestamp engine pending
  | _, [], _ => trivial
  | _, _ :: _, ⟨admitted, whole, losslessMatch, later⟩ =>
      ⟨fun _ => ⟨admitted, whole⟩, losslessMatch, later.lossless_for orderId⟩

/-- A step that loses nothing loses nothing of any order. -/
theorem Lossless.lossless_for {engine : MatchingEngine} {input : EngineInput}
    (lossless : engine.Lossless input) (orderId : OrderId) :
    engine.LosslessFor orderId input := by
  cases input with
  | expirySweep now =>
      intro entry due own order found
      exact lossless entry due order (own ▸ found)
  | command issued =>
      cases issued with
      | newOrder order =>
          intro accepted
          obtain ⟨shows, matched⟩ := lossless accepted
          refine ⟨shows, fun price _ _ priced unconditional => ?_⟩
          rcases matched price priced unconditional with refused | ⟨losslessMatch, reports⟩
          · exact Or.inl refused
          · exact Or.inr ⟨losslessMatch, fun _ => reports⟩
      | cancelOrder canceledId userId symbol timestamp =>
          rintro rfl order found owner
          exact lossless order found owner
      | amendOrder amend =>
          intro existing found owner loses
          obtain ⟨shown, losslessMatch⟩ := lossless existing found owner loses
          exact ⟨fun _ => shown, losslessMatch⟩
      | cancelAllOrders userId symbol timestamp => exact lossless orderId
      | updateMarkPrice symbol mark index timestamp =>
          exact TriggersLossless.lossless_for orderId lossless
      | computeFunding symbol timestamp => trivial
      | adminCredit userId amount key timestamp => trivial

theorem Lossless.acceptsShown {engine : MatchingEngine} {input : EngineInput}
    (lossless : engine.Lossless input) : engine.AcceptsShown input := by
  cases input with
  | expirySweep now => trivial
  | command issued =>
      cases issued with
      | newOrder order => exact fun accepted => (lossless accepted).1
      | _ => trivial

end MatchingEngine

/-! ## The balance of a match -/

section Match

variable {book : OrderBook} {taker : BookOrder}

theorem sharesLossless_of_match (wellFormed : book.WellFormed) (positive : AllPositive book)
    (incoming : 0 ≤ taker.remainingQty) (lossless : LosslessMatch book taker) :
    SharesLossless book (matchShares book taker) := by
  intro share drawn maker found whole
  have greedy := mem_greedyShares_of_matchShares drawn
  rcases lossless with refused | postOnly | shown
  · rw [matchShares_of_rejected ((matchOrder_rejected_iff wellFormed).2 refused)] at drawn
    cases drawn
  · simp [matchShares, postOnly] at drawn
  · by_contra hides
    have exhausted : (share.1, book.remaining share.1) ∈ greedyShares book taker := by
      rw [OrderBook.remaining_of_some found, whole]
      exact greedy
    obtain ⟨ahead, behind, split, fits⟩ := exhausted_fits incoming
      (crossing_positive wellFormed positive) exhausted
    rw [OrderBook.remaining_of_some found] at fits
    exact shown ⟨ahead, share.1, behind, maker, split, found, hides, fits⟩

/-- A quantity that stays live throughout can be added on both sides. -/
theorem Balanced.addLive {orderId : OrderId} {before after : Decimal128} {events : List Event}
    (balanced : Balanced orderId before events after) (more : Decimal128) :
    Balanced orderId (before + more) events (after + more) := by
  rw [Balanced] at balanced ⊢
  rw [← add_assoc, balanced, add_assoc]

/-- What the taker has left and what the makers have left balance the fills. -/
theorem balanced_absorb {engine : MatchingEngine} (wellFormed : engine.orderbook.WellFormed)
    (positive : AllPositive engine.orderbook) (incoming : 0 ≤ taker.remainingQty)
    (lossless : LosslessMatch engine.orderbook taker) (symbol : SymbolId)
    (timestamp : UnixMicros) (orderId : OrderId) :
    let result := matchOrder engine.orderbook taker
    Balanced orderId
      (bookLive engine.orderbook orderId +
        if taker.orderId = orderId then taker.remainingQty else 0)
      (engine.absorb result symbol timestamp).2
      (bookLive result.book orderId +
        if taker.orderId = orderId then result.taker.remainingQty else 0) := by
  intro result
  have stored : ∀ share ∈ matchShares engine.orderbook taker,
      ∃ maker, engine.orderbook.getOrder share.1 = some maker := by
    intro share drawn
    obtain ⟨maker, found, -⟩ := matchShares_stored wellFormed drawn
    exact ⟨maker, found⟩
  have makers := bookLive_takeOut (matchShares_nodup wellFormed) stored
    (sharesLossless_of_match wellFormed positive incoming lossless) orderId
  obtain ⟨accepted, canceled, filled⟩ := emitFillEvents_measures engine.symbolConfig result.book
    symbol timestamp result.taker taker stored engine.tradeIdGen orderId
  rw [← matchOrder_fills wellFormed] at accepted canceled filled
  rw [← matchOrder_book wellFormed] at makers
  rw [Balanced]
  simp only [MatchingEngine.absorb]
  rw [accepted, canceled, filled, makers, matchOrder_taker wellFormed]
  simp only [BookOrder.withRemaining_remainingQty]
  by_cases own : taker.orderId = orderId
  · simp only [if_pos own]
    abel
  · simp only [if_neg own]
    abel

end Match

namespace MatchingEngine

variable {engine : MatchingEngine} {used : List OrderId}

/-! ## New orders -/

section NewOrder

variable {order : NewOrder} {price : Decimal128}

/-- Showing the next slice changes nothing about what an order stands for. -/
theorem refillIceberg_openQty (timestamp : UnixMicros) (order : BookOrder) :
    (refillIceberg timestamp order).openQty = order.openQty := by
  rw [refillIceberg]
  split
  · rename_i refilled
    simp only [BookOrder.openQty, refilled.2.1]
    abel
  · rfl

/-- Nothing is hidden any more when a new order ends with nothing shown. -/
theorem hidden_of_nothing_shown {timestamp : UnixMicros} {order : BookOrder}
    (hidden_nonneg : 0 ≤ order.hiddenQty)
    (plain : order.orderType ≠ .iceberg → order.hiddenQty = 0)
    (shown : order.orderType = .iceberg → 0 < order.visibleQty.getD order.originalQty)
    (nothing : (refillIceberg timestamp order).remainingQty = 0) :
    (refillIceberg timestamp order).hiddenQty = 0 := by
  rw [refillIceberg] at nothing ⊢
  split
  · rename_i refilled
    rw [if_pos refilled] at nothing
    have positive : 0 < min (order.visibleQty.getD order.originalQty) order.hiddenQty :=
      lt_min (shown refilled.1) (lt_of_le_of_ne hidden_nonneg (Ne.symm refilled.2.2))
    exact absurd nothing positive.ne'
  · rename_i unchanged
    rw [if_neg unchanged] at nothing
    by_contra hides
    have iceberg : order.orderType = .iceberg := by
      by_contra other
      exact hides (plain other)
    exact unchanged ⟨iceberg, nothing, hides⟩

/-- An accepted iceberg order has a visible quantity. -/
theorem visible_of_iceberg {config : SymbolConfig} (accepted : icebergAccepted config order = true)
    (iceberg : order.orderType = .iceberg) : ∃ visible, order.visibleQuantity = some visible := by
  rw [icebergAccepted, if_pos iceberg] at accepted
  obtain ⟨visible, shown, -⟩ := (Option.any_eq_true _ _).1 accepted
  exact ⟨visible, shown⟩

/-- A taker that finds at least all it wants ends with nothing. -/
theorem taker_filled {book : OrderBook} {taker : BookOrder} (wellFormed : book.WellFormed)
    (positive : AllPositive book) (incoming : 0 ≤ taker.remainingQty)
    (admitted : (matchOrder book taker).rejected = false)
    (notPostOnly : taker.timeInForce ≠ .postOnly)
    (enough : taker.remainingQty ≤ crossingQty book taker) :
    (matchOrder book taker).taker.remainingQty = 0 := by
  have walk := congrArg Walk.taker (matchOrder_admitted wellFormed admitted notPostOnly)
  have all : allocated (greedyShares book taker) = taker.remainingQty := by
    rw [greedyShares, allocated_eq_min incoming (crossing_positive wellFormed positive)]
    exact min_eq_left enough
  simp only [greedyWalk, all, sub_self] at walk
  rw [walk]
  rfl

/-- A new order whose leftover is canceled has nothing hidden by then. -/
theorem hidden_of_canceled {book : OrderBook} {config : SymbolConfig} {markPrice : Decimal128}
    {timestamp : UnixMicros} (wellFormed : book.WellFormed) (positiveBook : AllPositive book)
    (positive : 0 < order.quantity) (shows : ShowsPart order)
    (accepted : icebergAccepted config order = true)
    (admitted : (matchOrder book (newBookOrder markPrice order price)).rejected = false)
    (reports : ReportsLeftover book order (newBookOrder markPrice order price))
    (discards : order.timeInForce = .ioc ∨ order.timeInForce = .fok ∨
      order.orderType.isLimit = false) :
    (refillIceberg timestamp
      (matchOrder book (newBookOrder markPrice order price)).taker).hiddenQty = 0 := by
  have final : (matchOrder book (newBookOrder markPrice order price)).taker =
      (newBookOrder markPrice order price).withRemaining
        (matchOrder book (newBookOrder markPrice order price)).taker.remainingQty :=
    matchOrder_taker_eq wellFormed
  have hidden : (matchOrder book (newBookOrder markPrice order price)).taker.hiddenQty =
      (splitQuantity order).2 := matchOrder_taker_hiddenQty wellFormed
  by_cases nothing : (splitQuantity order).2 = 0
  · rw [refillIceberg_of_nothing_hidden timestamp (hidden.trans nothing), hidden, nothing]
  · have iceberg : order.orderType = .iceberg := by
      by_contra plain
      rw [splitQuantity_of_plain plain] at nothing
      exact nothing rfl
    have immediate : order.timeInForce = .ioc ∨ order.timeInForce = .fok := by
      rcases discards with ioc | fok | market
      · exact Or.inl ioc
      · exact Or.inr fok
      · rw [iceberg] at market
        cases market
    have notPostOnly : order.timeInForce ≠ .postOnly := by
      rcases immediate with ioc | fok
      · rw [ioc]; decide
      · rw [fok]; decide
    obtain ⟨enough, lastSlice⟩ := (reports immediate).resolve_left nothing
    have incoming : 0 ≤ (newBookOrder markPrice order price).remainingQty :=
      (splitQuantity_bounds positive shows).1.le
    have filled := taker_filled wellFormed positiveBook incoming admitted notPostOnly enough
    obtain ⟨visible, shown⟩ := visible_of_iceberg accepted iceberg
    have slice : (splitQuantity order).1 = min visible order.quantity := by
      simp [splitQuantity, iceberg, shown]
    have fits : (splitQuantity order).2 ≤ visible :=
      lastSlice.trans (slice.trans_le (min_le_left _ _))
    have visibleQty : (matchOrder book (newBookOrder markPrice order price)).taker.visibleQty =
        some visible := by
      rw [final]
      exact shown
    have kind : (matchOrder book (newBookOrder markPrice order price)).taker.orderType =
        .iceberg := by
      rw [final]
      exact iceberg
    rw [refillIceberg, if_pos ⟨kind, filled, by rwa [hidden]⟩]
    simp only [hidden, visibleQty, Option.getD_some, min_eq_right fits, sub_self]

/-- Placing an order makes what it stands for live, or reports it canceled. -/
theorem balanced_placeRemaining (engine : MatchingEngine) (resting : BookOrder)
    (timestamp : UnixMicros) (orderId : OrderId)
    (missing : engine.orderbook.getOrder resting.orderId = none)
    (nothing : resting.remainingQty = 0 → resting.hiddenQty = 0)
    (discarded : resting.orderId = orderId → resting.timeInForce = .ioc ∨
      resting.timeInForce = .fok ∨ resting.orderType.isLimit = false → resting.hiddenQty = 0) :
    Balanced orderId
      (liveQty engine orderId + if resting.orderId = orderId then resting.openQty else 0)
      (engine.placeRemaining resting timestamp).2
      (liveQty (engine.placeRemaining resting timestamp).1 orderId) := by
  rcases engine.placeRemaining_cases resting timestamp with
    ⟨filled, placed⟩ | ⟨-, discards, placed⟩ | ⟨-, -, -, -, placed⟩ <;> rw [placed]
  · have empty : resting.openQty = 0 := by
      rw [BookOrder.openQty, filled, nothing filled, add_zero]
    simpa [empty] using Balanced.refl orderId (liveQty engine orderId)
  · refine Balanced.canceled ?_
    by_cases own : resting.orderId = orderId
    · rw [if_pos own, if_pos own, BookOrder.openQty, discarded own discards, add_zero, add_comm]
    · rw [if_neg own, if_neg own, add_zero, zero_add]
  · have live : liveQty (engine.restOnBook resting) orderId =
        liveQty engine orderId + if resting.orderId = orderId then resting.openQty else 0 := by
      simp only [liveQty, restOnBook, bookLive_insertOrder missing]
      abel
    rw [live]
    exact Balanced.refl orderId _

/-- Matching a new order: its accepted quantity is in the fills, or still to be placed. -/
theorem balanced_matched {taker : BookOrder} (wellFormed : engine.orderbook.WellFormed)
    (positive : AllPositive engine.orderbook) (incoming : 0 ≤ taker.remainingQty)
    (whole : taker.openQty = taker.originalQty)
    (lossless : LosslessMatch engine.orderbook taker) (timestamp : UnixMicros)
    (orderId : OrderId) :
    let result := matchOrder engine.orderbook taker
    let absorbed := engine.absorb result taker.symbol timestamp
    Balanced orderId (liveQty engine orderId)
      (.orderAccepted (acceptedOf taker taker.symbol timestamp) :: absorbed.2)
      (liveQty absorbed.1 orderId +
        if taker.orderId = orderId then result.taker.openQty else 0) := by
  intro result absorbed
  have acceptance : Balanced orderId (liveQty engine orderId)
      [.orderAccepted (acceptedOf taker taker.symbol timestamp)]
      (liveQty engine orderId + if taker.orderId = orderId then taker.originalQty else 0) :=
    Balanced.accepted rfl
  have fills := (balanced_absorb wellFormed positive incoming lossless taker.symbol timestamp
    orderId).addLive (stopLive engine.stopOrders orderId +
      if taker.orderId = orderId then taker.hiddenQty else 0)
  have finalOpen : result.taker.openQty = result.taker.remainingQty + taker.hiddenQty :=
    congrArg (result.taker.remainingQty + ·) (matchOrder_taker_hiddenQty wellFormed)
  refine acceptance.append ?_
  convert fills using 1
  · rw [liveQty, ← whole, BookOrder.openQty]
    by_cases own : taker.orderId = orderId
    · simp only [if_pos own]
      abel
    · simp only [if_neg own]
      abel
  · rw [finalOpen]
    change bookLive result.book orderId + stopLive engine.stopOrders orderId + _ = _
    by_cases own : taker.orderId = orderId
    · simp only [if_pos own]
      abel
    · simp only [if_neg own]
      abel

private theorem balanced_newOrder (sound : engine.Sound used) {orderId : OrderId}
    (lossless : engine.LosslessFor orderId (.command (.newOrder order))) :
    Balanced orderId (liveQty engine orderId) (engine.handleNewOrder order).2
      (liveQty (engine.handleNewOrder order).1 orderId) := by
  rcases engine.handleNewOrder_cases order with
    ⟨reason, same⟩ |
      ⟨price, positive, missing, priced, accepted, ⟨conditional, same⟩ | ⟨unconditional, same⟩⟩
  · rw [same]
    exact Balanced.rejected _ _ _ _ _ _
  · rw [same]
    refine Balanced.accepted ?_
    have plain : order.orderType ≠ .iceberg := by
      intro iceberg
      rw [iceberg] at conditional
      cases conditional
    simp only [liveQty, stopLive_append, stopLive_cons]
    simp [stopLive, newBookOrder, splitQuantity_of_plain plain, acceptedOf, add_assoc]
  · rw [same]
    obtain ⟨shows, matched⟩ := lossless accepted
    have bounds := splitQuantity_bounds positive shows
    let taker := newBookOrder engine.markPrice order price
    have incoming : 0 ≤ taker.remainingQty := bounds.1.le
    rcases engine.matchNewOrder_cases taker order.timestamp with
      ⟨-, outcome⟩ | ⟨admitted, outcome⟩
    · rw [outcome]
      exact Balanced.rejected _ _ _ _ _ _
    · rw [outcome]
      have notRefused : ¬Refused engine.orderbook taker := by
        rw [← matchOrder_rejected_iff sound.wellFormed, admitted]
        decide
      obtain ⟨losslessMatch, reports⟩ :=
        (matched price positive missing priced unconditional).resolve_left notRefused
      let result := matchOrder engine.orderbook taker
      have final : result.taker = taker.withRemaining result.taker.remainingQty :=
        matchOrder_taker_eq sound.wellFormed
      have refilledId : (refillIceberg order.timestamp result.taker).orderId = order.orderId := by
        rw [refillIceberg_orderId, final]
        rfl
      have entered := balanced_matched sound.wellFormed sound.positive incoming
        (splitQuantity_sum order) losslessMatch order.timestamp orderId
      have placing := balanced_placeRemaining
        (engine.absorb result taker.symbol order.timestamp).1
        (refillIceberg order.timestamp result.taker) order.timestamp orderId ?_ ?_ ?_
      · refine entered.append ?_
        rw [refilledId, refillIceberg_openQty] at placing
        exact placing
      · rw [refilledId]
        exact getOrder_matchOrder_of_none sound.wellFormed missing
      · refine hidden_of_nothing_shown ?_ ?_ ?_
        · rw [final]
          exact bounds.2
        · intro plain
          rw [final] at plain ⊢
          change (splitQuantity order).2 = 0
          rw [splitQuantity_of_plain plain]
        · intro iceberg
          rw [final] at iceberg ⊢
          obtain ⟨visible, shown⟩ := visible_of_iceberg accepted iceberg
          change 0 < order.visibleQuantity.getD order.quantity
          rw [shown]
          exact shows iceberg visible shown
      · intro own discards
        rw [refillIceberg_orderType, refillIceberg_timeInForce, final] at discards
        exact hidden_of_canceled sound.wellFormed sound.positive positive shows accepted admitted
          (reports (refilledId.symm.trans own)) discards

end NewOrder

/-! ## Cancel, cancel all and expiry -/

/-- Removing an order that hides nothing accounts for all of it. -/
theorem balanced_removeOrder {book : OrderBook} {removedId : OrderId} {order : BookOrder}
    (found : book.getOrder removedId = some order) {orderId : OrderId}
    (shown : removedId = orderId → order.hiddenQty = 0)
    (userId : UserId) (symbol : SymbolId) (timestamp : UnixMicros) :
    Balanced orderId (bookLive book orderId)
      [.orderCanceled removedId userId symbol order.remainingQty timestamp]
      (bookLive (book.removeOrder removedId) orderId) := by
  refine Balanced.canceled ?_
  rw [bookLive_removeOrder removedId orderId, bookLive_of_some found, BookOrder.openQty]
  by_cases own : removedId = orderId
  · rw [if_pos own, if_pos own, shown own, add_zero]
  · rw [if_neg own, if_neg own]

private theorem balanced_cancelOrder (sound : engine.Sound used) {canceledId : OrderId}
    {userId : UserId} {timestamp : UnixMicros} {orderId : OrderId}
    (lossless : canceledId = orderId → ∀ order, engine.orderbook.getOrder orderId = some order →
      order.userId = userId → order.hiddenQty = 0) :
    Balanced orderId (liveQty engine orderId)
      (engine.handleCancelOrder canceledId userId timestamp).2
      (liveQty (engine.handleCancelOrder canceledId userId timestamp).1 orderId) := by
  rcases engine.handleCancelOrder_cases canceledId userId timestamp with
    ⟨-, -, same⟩ | ⟨order, found, owner, same⟩ | ⟨order, found, -, same⟩ |
      ⟨order, -, waiting, -, same⟩ | ⟨order, -, waiting, -, same⟩
  · rw [same]
    exact Balanced.rejected _ _ _ _ _ _
  · rw [same]
    have shown : canceledId = orderId → order.hiddenQty = 0 := by
      rintro rfl
      exact lossless rfl order found owner
    exact (balanced_removeOrder found shown userId order.symbol timestamp).addLive _
  · rw [same]
    have kept : bookLive ((engine.orderbook.removeOrder canceledId).insertOrder order) orderId =
        bookLive engine.orderbook orderId :=
      bookLive_congr
        (OrderBook.getOrder_putBack (sound.wellFormed.toLevels.keyed found) found orderId)
    simp only [liveQty, kept]
    exact Balanced.rejected _ _ _ _ _ _
  · rw [same]
    have taken := stopLive_perm (find_cons_eraseP_perm waiting) orderId
    have keyed : order.orderId = canceledId := by simpa using List.find?_some waiting
    refine Balanced.canceled ?_
    simp only [liveQty]
    rw [← taken, stopLive_cons, keyed]
    abel
  · rw [same]
    have moved := stopLive_perm ((List.perm_append_singleton order
      (engine.stopOrders.eraseP fun stop => stop.orderId = canceledId)).trans
      (find_cons_eraseP_perm waiting)) orderId
    simp only [liveQty, moved]
    exact Balanced.rejected _ _ _ _ _ _

/-- Canceling a list of waiting orders. -/
theorem balanced_stopsCanceled (stops : List BookOrder) (userId : UserId) (symbol : SymbolId)
    (timestamp : UnixMicros) (after : Decimal128) (orderId : OrderId) :
    Balanced orderId (stopLive stops orderId + after)
      (stops.map fun stop =>
        .orderCanceled stop.orderId userId symbol stop.remainingQty timestamp) after := by
  induction stops with
  | nil => simpa [stopLive] using Balanced.refl orderId after
  | cons stop rest inductionHypothesis =>
      refine (Balanced.canceled ?_).append inductionHypothesis
      rw [stopLive_cons, add_assoc]

/-- Canceling a list of orders on the book that hide nothing. -/
theorem balanced_cancelOrders {book : OrderBook} (wellFormed : book.LevelsWellFormed)
    {orderIds : List OrderId} {orderId : OrderId}
    (shown : orderId ∈ orderIds → ∀ order, book.getOrder orderId = some order →
      order.hiddenQty = 0)
    (userId : UserId) (symbol : SymbolId) (timestamp : UnixMicros) :
    Balanced orderId (bookLive book orderId)
      ((book.cancelOrders orderIds).2.map fun order =>
        .orderCanceled order.orderId userId symbol order.remainingQty timestamp)
      (bookLive (book.cancelOrders orderIds).1 orderId) := by
  induction orderIds generalizing book with
  | nil => exact Balanced.refl orderId _
  | cons head rest inductionHypothesis =>
      cases found : book.getOrder head with
      | none =>
          simpa [OrderBook.cancelOrders, found] using inductionHypothesis wellFormed
            fun member => shown (List.mem_cons_of_mem head member)
      | some order =>
          have here : Balanced orderId (bookLive book orderId)
              [.orderCanceled order.orderId userId symbol order.remainingQty timestamp]
              (bookLive (book.unlinkOrder head order) orderId) := by
            have headShown : head = orderId → order.hiddenQty = 0 := by
              rintro rfl
              exact shown List.mem_cons_self order found
            have removed := balanced_removeOrder found headShown userId symbol timestamp
            have same : (book.unlinkOrder head order).getOrder orderId =
                (book.removeOrder head).getOrder orderId := by
              rw [OrderBook.getOrder_unlinkOrder, OrderBook.getOrder_removeOrder]
            rwa [wellFormed.keyed found, bookLive_congr same]
          have later := inductionHypothesis (wellFormed.unlinkOrder found) (by
            intro member other stored
            rw [OrderBook.getOrder_unlinkOrder] at stored
            split at stored
            · cases stored
            · exact shown (List.mem_cons_of_mem head member) other stored)
          simpa [OrderBook.cancelOrders, found] using here.append later

private theorem balanced_cancelAll (sound : engine.Sound used) {userId : UserId} {symbol : SymbolId}
    {timestamp : UnixMicros} {orderId : OrderId}
    (lossless : engine.LosslessFor orderId
      (.command (.cancelAllOrders userId symbol timestamp))) :
    Balanced orderId (liveQty engine orderId) (engine.handleCancelAll userId symbol timestamp).2
      (liveQty (engine.handleCancelAll userId symbol timestamp).1 orderId) := by
  let matching (stop : BookOrder) : Bool :=
    decide (stop.userId = userId) && decide (stop.symbol = symbol)
  have fromBook : Balanced orderId (bookLive engine.orderbook orderId)
      ((engine.orderbook.cancelAllUserOrders userId).2.map fun order =>
        .orderCanceled order.orderId userId symbol order.remainingQty timestamp)
      (bookLive (engine.orderbook.cancelAllUserOrders userId).1 orderId) := by
    rw [OrderBook.cancelAllUserOrders]
    cases entry : engine.orderbook.userOrders[userId]? with
    | none => exact Balanced.refl orderId _
    | some orderIds =>
        let unlisted : OrderBook :=
          { engine.orderbook with userOrders := engine.orderbook.userOrders.erase userId }
        have levels : unlisted.LevelsWellFormed := sound.wellFormed.toLevels.congr rfl rfl rfl
        refine balanced_cancelOrders levels ?_ userId symbol timestamp
        intro member order found
        have owned : orderId ∈ engine.orderbook.getUserOrders userId := by
          rwa [OrderBook.getUserOrders, entry]
        obtain ⟨other, stored, owner⟩ := sound.wellFormed.toUsers.listed.1 owned
        cases stored.symm.trans found
        exact lossless order stored owner
  have scanned : stopLive engine.stopOrders orderId =
      stopLive (swapScan matching engine.stopOrders).1 orderId +
        stopLive (swapScan matching engine.stopOrders).2 orderId := by
    rw [← stopLive_append, stopLive_perm (swapScan_perm matching engine.stopOrders)]
  have fromStops := balanced_stopsCanceled (swapScan matching engine.stopOrders).1 userId symbol
    timestamp (bookLive (engine.orderbook.cancelAllUserOrders userId).1 orderId +
      stopLive (swapScan matching engine.stopOrders).2 orderId) orderId
  refine (fromBook.addLive (stopLive engine.stopOrders orderId)).append ?_
  convert fromStops using 1
  · rw [scanned]
    abel
  · rfl

/-- Expiry accounts for every order it takes off the book. -/
theorem balanced_expireEntries {book : OrderBook} {now : UnixMicros}
    {entries : List (UnixMicros × OrderId)} {orderId : OrderId}
    (shown : ∀ entry ∈ entries.takeWhile fun entry => decide (entry.1 ≤ now),
      entry.2 = orderId → ∀ order, book.getOrder orderId = some order → order.hiddenQty = 0) :
    Balanced orderId (bookLive book orderId) (expireEntries now book entries).2.2
      (bookLive (expireEntries now book entries).1 orderId) := by
  induction entries generalizing book with
  | nil => exact Balanced.refl orderId _
  | cons entry rest inductionHypothesis =>
      by_cases due : now < entry.1
      · rw [expireEntries, if_pos due]
        exact Balanced.refl orderId _
      · rw [List.takeWhile_cons_of_pos (by simpa using due)] at shown
        rw [expireEntries, if_neg due]
        cases found : book.getOrder entry.2 with
        | none =>
            exact inductionHypothesis fun other member =>
              shown other (List.mem_cons_of_mem entry member)
        | some order =>
            have entryShown : entry.2 = orderId → order.hiddenQty = 0 := by
              rintro rfl
              exact shown entry List.mem_cons_self rfl order found
            have here := balanced_removeOrder found entryShown order.userId order.symbol now
            refine here.append (inductionHypothesis ?_)
            intro other member own kept stored
            rw [OrderBook.getOrder_removeOrder] at stored
            split at stored
            · cases stored
            · exact shown other (List.mem_cons_of_mem entry member) own kept stored

/-! ## Amendments -/

/-- Re-inserting an amended order balances every other order. -/
theorem balanced_reinsertOther (sound : engine.Sound used) {amend : AmendOrder}
    {existing : BookOrder} (found : engine.orderbook.getOrder amend.orderId = some existing)
    (owner : existing.userId = amend.userId) {orderId : OrderId}
    (lossless : engine.LosslessFor orderId (.command (.amendOrder amend)))
    (loses : losesPriority existing amend = true) (own : amend.orderId ≠ orderId) :
    Balanced orderId (liveQty engine orderId) (engine.reinsertAmended existing amend).2
      (liveQty (engine.reinsertAmended existing amend).1 orderId) := by
  let removed := engine.orderbook.removeOrder amend.orderId
  let amended := amendedOrder existing amend
  have storedId := sound.wellFormed.toLevels.keyed found
  have keyed : amended.orderId = amend.orderId := storedId
  have soundRemoved := sound.removeOrder amend.orderId
  have withdrawn : Balanced orderId (liveQty engine orderId)
      [.orderCanceled amend.orderId amend.userId amend.symbol existing.remainingQty amend.timestamp]
      (bookLive removed orderId + stopLive engine.stopOrders orderId) := by
    refine Balanced.canceled ?_
    rw [liveQty, bookLive_removeOrder amend.orderId orderId, if_neg own, if_neg own, zero_add,
      zero_add]
  rcases engine.reinsertAmended_cases existing amend with
    ⟨reason, -, outcome⟩ | ⟨valid, -, outcome⟩
  · rw [outcome]
    exact withdrawn.append (Balanced.rejected _ _ _ _ _ _)
  · rw [outcome]
    have incoming : 0 ≤ amended.remainingQty := by
      rw [AmendInvalid, not_or, not_le] at valid
      exact valid.1.le
    have losslessMatch := (lossless existing found owner loses).2 valid
    have reaccepted : Balanced orderId
        (bookLive removed orderId + stopLive engine.stopOrders orderId)
        [.orderAccepted (acceptedOf (matchOrder removed amended).taker amend.symbol
          amend.timestamp)]
        (bookLive removed orderId + stopLive engine.stopOrders orderId) := by
      refine Balanced.accepted ?_
      rw [matchOrder_taker soundRemoved.wellFormed]
      simp [acceptedOf, keyed, own]
    let engineRemoved : MatchingEngine := { engine with orderbook := removed }
    have wellFormed : engineRemoved.orderbook.WellFormed := soundRemoved.wellFormed
    have absorbed := balanced_absorb wellFormed soundRemoved.positive incoming losslessMatch
      amend.symbol amend.timestamp orderId
    simp only [keyed, if_neg own, add_zero] at absorbed
    have fills := absorbed.addLive (stopLive engine.stopOrders orderId)
    refine withdrawn.append (reaccepted.append ?_)
    dsimp only
    split
    · exact fills
    · have kept : bookLive ((matchOrder removed amended).book.insertOrder
          (matchOrder removed amended).taker) orderId =
          bookLive (matchOrder removed amended).book orderId := by
        refine bookLive_congr ?_
        rw [OrderBook.getOrder_insertOrder, matchOrder_taker soundRemoved.wellFormed]
        exact if_neg (by simpa [keyed] using own)
      simp only [liveQty]
      rw [kept]
      exact fills

/-- An amendment balances every order but its own, and its own unless it is accepted. -/
theorem balanced_amendOrder (sound : engine.Sound used) {amend : AmendOrder} {orderId : OrderId}
    (lossless : engine.LosslessFor orderId (.command (.amendOrder amend))) :
    Balanced orderId (liveQty engine orderId) (engine.handleAmendOrder amend).2
        (liveQty (engine.handleAmendOrder amend).1 orderId) ∨
      (orderId ∈ used ∧ orderId ∈ acceptedIds (engine.handleAmendOrder amend).2) := by
  rcases engine.handleAmendOrder_cases amend with
    ⟨reason, -, same⟩ | ⟨existing, found, owner, rest⟩
  · rw [same]
    exact Or.inl (Balanced.rejected _ _ _ _ _ _)
  · have keyed := sound.wellFormed.toLevels.keyed found
    by_cases own : amend.orderId = orderId
    · subst own
      have known := sound.bookUsed found
      rcases rest with ⟨loses, same⟩ | ⟨-, same⟩ | ⟨-, quantity, -, -, -, same⟩
      · obtain ⟨whenRefused, -⟩ := lossless existing found owner loses
        rcases engine.reinsertAmended_cases existing amend with
          ⟨reason, refused, outcome⟩ | ⟨-, -, outcome⟩
        · refine Or.inl ?_
          have removedWellFormed := sound.wellFormed.removeOrder amend.orderId
          have shown := whenRefused rfl
            (refused.imp_right fun rejected =>
              (matchOrder_rejected_iff removedWellFormed).1 rejected)
          rw [same, outcome]
          exact ((balanced_removeOrder found (fun _ => shown) amend.userId amend.symbol
            amend.timestamp).addLive _).append (Balanced.rejected _ _ _ _ _ _)
        · refine Or.inr ⟨known, ?_⟩
          rw [same, outcome, matchOrder_taker (sound.wellFormed.removeOrder amend.orderId)]
          simp [acceptedIds, Event.acceptedId?, acceptedOf, amendedOrder, keyed]
      · exact Or.inr ⟨known, by simp [same, acceptedIds, Event.acceptedId?, acceptedOf, keyed]⟩
      · exact Or.inr ⟨known, by simp [same, acceptedIds, Event.acceptedId?, acceptedOf, keyed]⟩
    · refine Or.inl ?_
      rcases rest with ⟨loses, same⟩ | ⟨-, same⟩ | ⟨-, quantity, -, -, -, same⟩
      · rw [same]
        exact balanced_reinsertOther sound found owner lossless loses own
      · rw [same]
        exact Balanced.accepted (by simp [acceptedOf, keyed, own])
      · rw [same]
        refine Balanced.accepted ?_
        have kept : bookLive (engine.orderbook.updateQty amend.orderId quantity) orderId =
            bookLive engine.orderbook orderId := by
          refine bookLive_congr ?_
          rw [OrderBook.getOrder_updateQty, if_neg own]
        simp [liveQty, kept, acceptedOf, keyed, own]

/-! ## Triggered orders -/

private theorem balanced_triggerOne {order : BookOrder} {rest : List BookOrder}
    (timestamp : UnixMicros)
    (sound : OrdersSound engine.orderbook (order :: rest) used) {orderId : OrderId}
    (traded : order.orderId = orderId → ¬Refused engine.orderbook (convertTriggered order) ∧
      ((convertTriggered order).orderType.isLimit = true ∨
        ((convertTriggered order).timeInForce ≠ .postOnly ∧
          (convertTriggered order).remainingQty ≤
            crossingQty engine.orderbook (convertTriggered order))))
    (lossless : LosslessMatch engine.orderbook (convertTriggered order)) :
    Balanced orderId
      (bookLive engine.orderbook orderId +
        if order.orderId = orderId then order.remainingQty else 0)
      (engine.triggerOne order timestamp).2
      (bookLive (engine.triggerOne order timestamp).1.orderbook orderId) := by
  let taker := convertTriggered order
  let result := matchOrder engine.orderbook taker
  obtain ⟨sameId, -, -, quantity, hidden, -, -⟩ := convertTriggered_frame order
  have waiting := sound.waiting order List.mem_cons_self
  have incoming : 0 ≤ taker.remainingQty := quantity.ge.trans' waiting.remaining_pos.le
  have final : result.taker = taker.withRemaining result.taker.remainingQty :=
    matchOrder_taker_eq sound.wellFormed
  have fills := balanced_absorb sound.wellFormed sound.positive incoming lossless
    result.taker.symbol timestamp orderId
  rw [show (convertTriggered order).orderId = order.orderId from sameId, quantity] at fills
  rcases engine.triggerOne_cases order timestamp with
    ⟨rejected, same⟩ | ⟨accepted, ends, same⟩ | ⟨-, left, limited, same⟩
  · -- A refused order disappears without an event, so it is another one.
    have other : order.orderId ≠ orderId := fun own =>
      (traded own).1 ((matchOrder_rejected_iff sound.wellFormed).1 rejected)
    rw [same, if_neg other, add_zero]
    exact Balanced.refl orderId _
  · rw [same]
    have nothing : order.orderId = orderId → result.taker.remainingQty = 0 := by
      intro own
      rcases ends with nothing | market
      · exact nothing
      · rcases (traded own).2 with limited | ⟨notPostOnly, enough⟩
        · change result.taker.orderType.isLimit = false at market
          rw [final] at market
          exact absurd (limited.symm.trans market) (by decide)
        · exact taker_filled sound.wellFormed sound.positive incoming accepted notPostOnly enough
    convert fills using 1
    change _ = bookLive result.book orderId + if order.orderId = orderId then
      result.taker.remainingQty else 0
    by_cases own : order.orderId = orderId
    · rw [if_pos own, nothing own, add_zero]
      rfl
    · rw [if_neg own, add_zero]
      rfl
  · rw [same]
    have missing : result.book.getOrder result.taker.orderId = none := by
      rw [final]
      refine getOrder_matchOrder_of_none sound.wellFormed ?_
      change engine.orderbook.getOrder (convertTriggered order).orderId = none
      rw [sameId]
      exact sound.apart order List.mem_cons_self
    have takerOpen : result.taker.openQty = result.taker.remainingQty := by
      rw [BookOrder.openQty, final]
      change _ + (convertTriggered order).hiddenQty = _
      rw [hidden, waiting.hidden_eq, add_zero]
    convert fills using 1
    change bookLive (result.book.insertOrder result.taker) orderId = _
    rw [bookLive_insertOrder missing, takerOpen, show result.taker.orderId = order.orderId by
      rw [final]
      exact sameId]

private theorem balanced_triggerAll {pending kept : List BookOrder} {timestamp : UnixMicros}
    (sound : OrdersSound engine.orderbook (pending ++ kept) used)
    {orderId : OrderId} (lossless : TriggersLosslessFor orderId timestamp engine pending) :
    Balanced orderId (bookLive engine.orderbook orderId + stopLive pending orderId)
      (triggerAll timestamp engine pending).2
      (bookLive (triggerAll timestamp engine pending).1.orderbook orderId) := by
  induction pending generalizing engine with
  | nil =>
      simpa [stopLive, triggerAll] using
        Balanced.refl orderId (bookLive engine.orderbook orderId)
  | cons order rest inductionHypothesis =>
      obtain ⟨traded, losslessMatch, later⟩ := lossless
      have first := balanced_triggerOne timestamp sound traded losslessMatch
      refine Balanced.append ?_ (inductionHypothesis (triggerOne_sound sound) later)
      convert first.addLive (stopLive rest orderId) using 1
      rw [stopLive_cons]
      abel

private theorem updateTrailingPeak_remainingQty (mark : Decimal128) (order : BookOrder) :
    (updateTrailingPeak mark order).remainingQty = order.remainingQty := by
  obtain ⟨peak, same⟩ := updateTrailingPeak_eq mark order
  rw [same]

private theorem balanced_updateMarkPrice (sound : engine.Sound used) {symbol : SymbolId}
    {mark index : Decimal128} {timestamp : UnixMicros} {orderId : OrderId}
    (lossless :
      let passive := engine.applyMarkIndexPassive mark index
      let scanned := swapScan (shouldTrigger mark) passive.stopOrders
      TriggersLosslessFor orderId timestamp { passive with stopOrders := scanned.2 } scanned.1) :
    Balanced orderId (liveQty engine orderId)
      (engine.updateMarkPrice symbol mark index timestamp).2
      (liveQty (engine.updateMarkPrice symbol mark index timestamp).1 orderId) := by
  let passive := engine.applyMarkIndexPassive mark index
  let scanned := swapScan (shouldTrigger mark) passive.stopOrders
  have soundPassive := sound.applyMarkIndexPassive mark index
  have ticked : Balanced orderId (liveQty engine orderId)
      [.markPriceUpdate symbol mark index timestamp]
      (bookLive engine.orderbook orderId + stopLive scanned.1 orderId +
        stopLive scanned.2 orderId) := by
    rw [add_assoc, ← stopLive_append, stopLive_perm (swapScan_perm _ _),
      show passive.stopOrders = engine.stopOrders.map (updateTrailingPeak mark) from rfl,
      stopLive_map (updateTrailingPeak_orderId mark) (updateTrailingPeak_remainingQty mark)]
    simp [Balanced, acceptedQty, filledQty, canceledQty, Event.acceptedQtyOf, Event.filledQtyOf,
      Event.canceledQtyOf, liveQty]
  let scanning : MatchingEngine := { passive with stopOrders := scanned.2 }
  have ready : OrdersSound scanning.orderbook (scanned.1 ++ scanned.2) used :=
    soundPassive.perm (swapScan_perm _ _)
  refine ticked.append ?_
  convert (balanced_triggerAll ready lossless).addLive (stopLive scanned.2 orderId) using 1
  · rfl
  · rfl
  · exact congrArg (bookLive (triggerAll timestamp scanning scanned.1).1.orderbook orderId +
      stopLive · orderId) (triggerAll_stopOrders timestamp scanned.1)

/-! ## The step -/

private theorem balanced_step (sound : engine.Sound used) {input : EngineInput} {orderId : OrderId}
    (lossless : engine.LosslessFor orderId input) :
    Balanced orderId (liveQty engine orderId) (engine.step input).2
        (liveQty (engine.step input).1 orderId) ∨
      (orderId ∈ used ∧ orderId ∈ acceptedIds (engine.step input).2) := by
  cases input with
  | expirySweep now => exact Or.inl ((balanced_expireEntries lossless).addLive _)
  | command issued =>
      have counted : { engine with sequence := engine.sequence + 1 }.Sound used := sound
      cases issued with
      | newOrder order => exact Or.inl (balanced_newOrder counted lossless)
      | cancelOrder canceledId userId symbol timestamp =>
          exact Or.inl (balanced_cancelOrder counted lossless)
      | amendOrder amend => exact balanced_amendOrder counted lossless
      | cancelAllOrders userId symbol timestamp =>
          exact Or.inl (balanced_cancelAll counted lossless)
      | updateMarkPrice symbol mark index timestamp =>
          exact Or.inl (balanced_updateMarkPrice counted lossless)
      | computeFunding symbol timestamp =>
          refine Or.inl ?_
          simp [step, processCommand, computeFunding, Balanced, acceptedQty, filledQty, canceledQty,
            Event.acceptedQtyOf, Event.filledQtyOf, Event.canceledQtyOf, liveQty]
      | adminCredit userId amount key timestamp => exact Or.inl (Balanced.refl orderId _)

/-! ## Which orders are live -/

theorem acceptedIds_append (first second : List Event) :
    acceptedIds (first ++ second) = acceptedIds first ++ acceptedIds second :=
  List.filterMap_append

/-- Only an accepted order becomes live. -/
theorem Sound.step_accepted (sound : engine.Sound used) {input : EngineInput}
    (shows : engine.AcceptsShown input)
    (fresh : ∀ orderId, input.newOrderId? = some orderId → orderId ∉ used) :
    ∃ known, (engine.step input).1.Sound known ∧ known ⊆ used ++ input.newOrderId?.toList ∧
      known ⊆ used ++ acceptedIds (engine.step input).2 := by
  have grown := Sound.step sound shows fresh
  cases introduced : input.newOrderId? with
  | none =>
      rw [introduced] at grown
      refine ⟨_, grown, List.Subset.refl _, ?_⟩
      simp
  | some orderId =>
      cases input with
      | expirySweep now => cases introduced
      | command issued =>
          cases issued with
          | newOrder order =>
              cases introduced
              have counted : { engine with sequence := engine.sequence + 1 }.Sound used := sound
              by_cases accepted :
                  order.orderId ∈ acceptedIds (engine.step (.command (.newOrder order))).2
              · refine ⟨_, grown, List.Subset.refl _, ?_⟩
                exact List.append_subset.2 ⟨List.subset_append_left _ _,
                  List.cons_subset.2 ⟨List.mem_append_right _ accepted, List.nil_subset _⟩⟩
              · refine ⟨used, ?_, List.subset_append_left _ _, List.subset_append_left _ _⟩
                change (MatchingEngine.handleNewOrder _ order).1.Sound used
                change
                  order.orderId ∉ acceptedIds (MatchingEngine.handleNewOrder _ order).2 at accepted
                rcases handleNewOrder_cases
                  { engine with sequence := engine.sequence + 1 } order with
                  ⟨reason, same⟩ | ⟨price, -, -, -, -, ⟨-, same⟩ | ⟨-, same⟩⟩
                · rw [same]
                  exact counted
                · rw [same] at accepted
                  exact absurd (by simp [acceptedIds, Event.acceptedId?, acceptedOf, newBookOrder])
                    accepted
                · rw [same] at accepted ⊢
                  rcases matchNewOrder_cases { engine with sequence := engine.sequence + 1 }
                      (newBookOrder engine.markPrice order price) order.timestamp with
                    ⟨-, outcome⟩ | ⟨-, outcome⟩
                  · rw [outcome]
                    exact counted
                  · rw [outcome] at accepted
                    exact absurd
                      (by simp [acceptedIds, Event.acceptedId?, acceptedOf, newBookOrder]) accepted
          | _ => cases introduced

/-- What holds after every run of lossless steps: each live order was accepted, and the
orders accepted at most once balance. -/
structure Accounted (before : List EngineInput) (engine : MatchingEngine) (log : List Event) :
    Prop where
  known : ∃ known, engine.Sound known ∧ known ⊆ newOrderIds before ∧ known ⊆ acceptedIds log
  balanced : ∀ orderId, (acceptedIds log).count orderId ≤ 1 →
    Balanced orderId 0 log (liveQty engine orderId)

/-- The live orders were introduced by the inputs, and accepted. -/
theorem known_step {before : List EngineInput} {log : List Event}
    (known : ∃ known, engine.Sound known ∧ known ⊆ newOrderIds before ∧ known ⊆ acceptedIds log)
    {input : EngineInput} (shows : engine.AcceptsShown input)
    (fresh : ∀ orderId, input.newOrderId? = some orderId → orderId ∉ newOrderIds before) :
    ∃ known, (engine.step input).1.Sound known ∧ known ⊆ newOrderIds (before ++ [input]) ∧
      known ⊆ acceptedIds (log ++ (engine.step input).2) := by
  obtain ⟨known, sound, introduced, accepted⟩ := known
  have unused : ∀ orderId, input.newOrderId? = some orderId → orderId ∉ known :=
    fun orderId isNew member => fresh orderId isNew (introduced member)
  obtain ⟨more, soundAfter, moreIntroduced, moreAccepted⟩ :=
    Sound.step_accepted sound shows unused
  refine ⟨more, soundAfter, ?_, ?_⟩
  · rw [newOrderIds_concat]
    exact List.Subset.trans moreIntroduced (List.append_subset.2
      ⟨List.subset_append_of_subset_left _ introduced, List.subset_append_right _ _⟩)
  · rw [acceptedIds_append]
    exact List.Subset.trans moreAccepted (List.append_subset.2
      ⟨List.subset_append_of_subset_left _ accepted, List.subset_append_right _ _⟩)

/-- An order accepted at most once balances after the step if it balanced before. -/
theorem balanced_concat {log : List Event} {known : List OrderId} (sound : engine.Sound known)
    (accepted : known ⊆ acceptedIds log) {input : EngineInput} {orderId : OrderId}
    (lossless : engine.LosslessFor orderId input)
    (once : (acceptedIds (log ++ (engine.step input).2)).count orderId ≤ 1)
    (earlier : Balanced orderId 0 log (liveQty engine orderId)) :
    Balanced orderId 0 (log ++ (engine.step input).2) (liveQty (engine.step input).1 orderId) := by
  rw [acceptedIds_append, List.count_append] at once
  rcases balanced_step sound lossless with now | ⟨wasKnown, again⟩
  · exact earlier.append now
  · have first := List.count_pos_iff.2 (accepted wasKnown)
    have second := List.count_pos_iff.2 again
    omega

theorem balanced_new (config : SymbolConfig) (ids : Nat → TradeId) (interestRate : Decimal128)
    (orderId : OrderId) :
    Balanced orderId 0 [] (liveQty (new config ids interestRate) orderId) := by
  have nothing : liveQty (new config ids interestRate) orderId = 0 := by
    simp [liveQty, bookLive, stopLive, new]
  rw [nothing]
  exact Balanced.refl orderId 0

theorem Accounted.step {before : List EngineInput} {log : List Event}
    (accounted : Accounted before engine log) {input : EngineInput}
    (lossless : engine.Lossless input)
    (fresh : ∀ orderId, input.newOrderId? = some orderId → orderId ∉ newOrderIds before) :
    Accounted (before ++ [input]) (engine.step input).1 (log ++ (engine.step input).2) := by
  constructor
  · exact known_step accounted.known lossless.acceptsShown fresh
  · intro orderId once
    obtain ⟨known, sound, -, accepted⟩ := accounted.known
    apply balanced_concat sound accepted (lossless.lossless_for orderId) once
    apply accounted.balanced
    rw [acceptedIds_append, List.count_append] at once
    omega

/-! ## The main result -/

/-- In every run whose steps lose nothing, at every moment the accepted quantity of an
order that was not amended is what was filled, what was canceled and what is live. -/
theorem quantity_accounted (config : SymbolConfig) (ids : Nat → TradeId) (interestRate : Decimal128)
    (inputs : List EngineInput) (distinct : (newOrderIds inputs).Nodup)
    (lossless : StepsMeet step Lossless (new config ids interestRate) inputs) :
    ∀ before, before <+: inputs →
      let reached := run step (new config ids interestRate) before
      ∀ orderId, (acceptedIds reached.2).count orderId = 1 →
        acceptedQty orderId reached.2 =
          filledQty orderId reached.2 + canceledQty orderId reached.2 +
            liveQty reached.1 orderId := by
  intro before isPrefix reached orderId once
  have fewer : (newOrderIds before).Nodup :=
    distinct.sublist (isPrefix.sublist.filterMap EngineInput.newOrderId?)
  have steps := lossless.initial isPrefix
  have accounted : Accounted before reached.1 reached.2 := by
    refine run_induction (motive := Accounted) step (new config ids interestRate) before ?_ ?_
    · refine ⟨⟨[], sound_new config ids interestRate, List.nil_subset _, List.nil_subset _⟩, ?_⟩
      exact fun other _ => balanced_new config ids interestRate other
    · intro earlier input earlierPrefix holds
      exact holds.step (steps.of_prefix earlierPrefix) (fresh_of_nodup fewer earlierPrefix)
  have balanced := accounted.balanced orderId once.le
  rwa [Balanced, add_zero] at balanced

/-- Nothing is lost when no maker within reach hides anything. -/
theorem losslessMatch_of_shown {book : OrderBook} {taker : BookOrder}
    (shown : ∀ makerId ∈ crossing taker.side.opposite book taker,
      ∀ maker ∈ book.getOrder makerId, maker.hiddenQty = 0) : LosslessMatch book taker := by
  refine Or.inr (Or.inr ?_)
  rintro ⟨ahead, makerId, behind, maker, split, found, hides, -⟩
  exact hides (shown makerId (by simp [split]) maker found)

/-- A resting order, a taker that fills part of it, and a cancel of the rest. -/
def partFillInputs : List EngineInput :=
  [.command (.newOrder (gatewayOrder 1 7 .sell 100 5)),
    .command (.newOrder (gatewayOrder 2 8 .buy 100 3)),
    .command (.cancelOrder 1 7 1 0)]

theorem quantity_accounted_partFill :
    let reached := run step (new plainConfig id 0) partFillInputs
    acceptedQty 1 reached.2 =
      filledQty 1 reached.2 + canceledQty 1 reached.2 + liveQty reached.1 1 := by
  have distinct : (newOrderIds partFillInputs).Nodup := by decide
  have lossless : StepsMeet step Lossless (new plainConfig id 0) partFillInputs := by
    have price (orderId userId : Nat) (side : Side) (quantity : Int) :
        effectivePrice (gatewayOrder orderId userId side 100 quantity) = some (.ofInt 100) := rfl
    refine ⟨?_, ?_, ?_, trivial⟩
    · refine fun _ => ⟨by simp [ShowsPart, gatewayOrder], fun found priced _ => Or.inr ⟨?_, ?_⟩⟩
      · cases (price 1 7 .sell 5).symm.trans priced
        exact losslessMatch_of_shown (by decide +kernel)
      · simp [ReportsLeftover, gatewayOrder]
    · refine fun _ => ⟨by simp [ShowsPart, gatewayOrder], fun found priced _ => Or.inr ⟨?_, ?_⟩⟩
      · cases (price 2 8 .buy 3).symm.trans priced
        exact losslessMatch_of_shown (by decide +kernel)
      · simp [ReportsLeftover, gatewayOrder]
    · intro order found _
      have hidden : ∀ stored ∈ (run step (new plainConfig id 0)
          [partFillInputs[0], partFillInputs[1]]).1.orderbook.getOrder 1, stored.hiddenQty = 0 := by
        decide +kernel
      exact hidden order found
  exact quantity_accounted plainConfig id 0 partFillInputs distinct lossless partFillInputs
    (List.prefix_refl _) 1 (by decide +kernel)

/-- A buy stop that is triggered while nothing is offered. -/
def unfilledStopInputs : List EngineInput :=
  [.command (.newOrder { gatewayOrder 1 7 .buy 100 5 with
      orderType := .stopMarket, price := none, stopPrice := some (.ofInt 100) }),
    .command (.updateMarkPrice 1 (.ofInt 100) (.ofInt 100) 1)]

/-- The triggered stop is accepted and disappears, neither filled nor canceled. -/
theorem quantity_lost_unfilledStop :
    ¬∀ (config : SymbolConfig) (ids : Nat → TradeId) (interestRate : Decimal128)
      (inputs : List EngineInput), (newOrderIds inputs).Nodup →
      let reached := run step (new config ids interestRate) inputs
      ∀ orderId, (acceptedIds reached.2).count orderId = 1 →
        acceptedQty orderId reached.2 =
          filledQty orderId reached.2 + canceledQty orderId reached.2 +
            liveQty reached.1 orderId := by
  intro accounted
  have claimed := accounted plainConfig id 0 unfilledStopInputs (by decide) 1 (by decide +kernel)
  revert claimed
  decide +kernel

end MatchingEngine
end Exg
