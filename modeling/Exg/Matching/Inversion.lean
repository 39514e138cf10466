import Exg.Matching.EngineInvariant

/-!
# What each handler can do

One lemma per handler lists its outcomes with the conditions under which they occur, so
that the results about the engine do not unfold the handlers again.
-/

namespace Exg
namespace MatchingEngine

variable (engine : MatchingEngine)

section Absorb

variable (result : MatchResult) (symbol : SymbolId) (timestamp : UnixMicros)

@[simp]
theorem absorb_orderbook : (engine.absorb result symbol timestamp).1.orderbook = result.book := rfl

@[simp]
theorem absorb_stopOrders :
    (engine.absorb result symbol timestamp).1.stopOrders = engine.stopOrders := rfl

@[simp]
theorem absorb_expiryHeap :
    (engine.absorb result symbol timestamp).1.expiryHeap = engine.expiryHeap := rfl

@[simp]
theorem absorb_markPrice :
    (engine.absorb result symbol timestamp).1.markPrice = engine.markPrice := rfl

@[simp]
theorem absorb_indexPrice :
    (engine.absorb result symbol timestamp).1.indexPrice = engine.indexPrice := rfl

@[simp]
theorem absorb_lastFundingRate :
    (engine.absorb result symbol timestamp).1.lastFundingRate = engine.lastFundingRate := rfl

end Absorb

/-! ## New orders -/

theorem placeRemaining_cases (order : BookOrder) (timestamp : UnixMicros) :
    (order.remainingQty = 0 ∧ engine.placeRemaining order timestamp = (engine, [])) ∨
    (order.remainingQty ≠ 0 ∧
      (order.timeInForce = .ioc ∨ order.timeInForce = .fok ∨ order.orderType.isLimit = false) ∧
      engine.placeRemaining order timestamp =
        (engine, [.orderCanceled order.orderId order.userId order.symbol order.remainingQty
          timestamp])) ∨
    (order.remainingQty ≠ 0 ∧ order.orderType.isLimit = true ∧
      order.timeInForce ≠ .ioc ∧ order.timeInForce ≠ .fok ∧
      engine.placeRemaining order timestamp = (engine.restOnBook order, [])) := by
  by_cases filled : order.remainingQty = 0
  · exact Or.inl ⟨filled, by simp [placeRemaining, filled, Decimal128.isZero]⟩
  · refine Or.inr ?_
    have kinds : (order.orderType.isLimit || decide (order.orderType = .iceberg)) =
        order.orderType.isLimit := by
      cases order.orderType <;> rfl
    simp only [placeRemaining, Decimal128.isZero_iff, if_neg filled, kinds]
    cases limited : order.orderType.isLimit <;> cases inForce : order.timeInForce <;>
      simp [filled]

theorem matchNewOrder_cases (order : BookOrder) (timestamp : UnixMicros) :
    ((matchOrder engine.orderbook order).rejected = true ∧
      engine.matchNewOrder order timestamp =
        (engine, [.orderRejected order.orderId order.userId (refusal order.timeInForce)
          timestamp])) ∨
    ((matchOrder engine.orderbook order).rejected = false ∧
      engine.matchNewOrder order timestamp =
        let result := matchOrder engine.orderbook order
        let absorbed := engine.absorb result order.symbol timestamp
        let placed := absorbed.1.placeRemaining (refillIceberg timestamp result.taker) timestamp
        (placed.1,
          .orderAccepted (acceptedOf order order.symbol timestamp) :: absorbed.2 ++ placed.2)) := by
  cases rejected : (matchOrder engine.orderbook order).rejected with
  | true =>
      have untouched := congrArg Walk.book (matchOrder_untouched (Or.inl rejected))
      exact Or.inl ⟨rfl, by simp [matchNewOrder, rejected, untouched]⟩
  | false =>
      exact Or.inr ⟨rfl, by simp [matchNewOrder, rejected]⟩

theorem handleNewOrder_cases (order : NewOrder) :
    (∃ reason, engine.handleNewOrder order =
      (engine, [.orderRejected order.orderId order.userId reason order.timestamp])) ∨
    ∃ price, 0 < order.quantity ∧ engine.orderbook.getOrder order.orderId = none ∧
      effectivePrice order = some price ∧ icebergAccepted engine.symbolConfig order = true ∧
      ((order.orderType.isConditional = true ∧ engine.handleNewOrder order =
          ({ engine with
              stopOrders := engine.stopOrders ++ [newBookOrder engine.markPrice order price] },
            [.orderAccepted (acceptedOf (newBookOrder engine.markPrice order price) order.symbol
              order.timestamp)])) ∨
        (order.orderType.isConditional = false ∧ engine.handleNewOrder order =
          engine.matchNewOrder (newBookOrder engine.markPrice order price) order.timestamp)) := by
  by_cases invalid : (order.quantity.isZero || order.quantity.isNegative) = true
  · exact Or.inl ⟨.invalidOrder, by simp only [handleNewOrder, invalid, if_true]⟩
  · have positive : 0 < order.quantity := by
      simp only [Bool.or_eq_true, Decimal128.isZero_iff, Decimal128.isNegative_iff, not_or,
        not_lt] at invalid
      exact lt_of_le_of_ne invalid.2 (Ne.symm invalid.1)
    cases found : engine.orderbook.getOrder order.orderId with
    | some resting =>
        exact Or.inl ⟨.duplicateOrder, by simp [handleNewOrder, invalid, found]⟩
    | none =>
        cases priced : effectivePrice order with
        | none => exact Or.inl ⟨.invalidOrder, by simp [handleNewOrder, invalid, found, priced]⟩
        | some price =>
            cases shown : icebergAccepted engine.symbolConfig order with
            | false =>
                exact Or.inl ⟨.invalidOrder, by
                  simp [handleNewOrder, invalid, found, priced, shown]⟩
            | true =>
                refine Or.inr ⟨price, positive, rfl, rfl, rfl, ?_⟩
                cases conditional : order.orderType.isConditional with
                | true =>
                    exact Or.inl ⟨rfl, by
                      simp [handleNewOrder, invalid, found, priced, shown, conditional]⟩
                | false =>
                    exact Or.inr ⟨rfl, by
                      simp [handleNewOrder, invalid, found, priced, shown, conditional]⟩

/-! ## Cancel -/

theorem handleCancelOrder_cases (orderId : OrderId) (userId : UserId) (timestamp : UnixMicros) :
    (engine.orderbook.getOrder orderId = none ∧
      (engine.stopOrders.find? fun stop => stop.orderId = orderId) = none ∧
      engine.handleCancelOrder orderId userId timestamp =
        (engine, [.orderRejected orderId userId .orderNotFound timestamp])) ∨
    (∃ order, engine.orderbook.getOrder orderId = some order ∧ order.userId = userId ∧
      engine.handleCancelOrder orderId userId timestamp =
        ({ engine with orderbook := engine.orderbook.removeOrder orderId },
          [.orderCanceled orderId userId order.symbol order.remainingQty timestamp])) ∨
    (∃ order, engine.orderbook.getOrder orderId = some order ∧ order.userId ≠ userId ∧
      engine.handleCancelOrder orderId userId timestamp =
        ({ engine with orderbook := (engine.orderbook.removeOrder orderId).insertOrder order },
          [.orderRejected orderId userId .orderNotFound timestamp])) ∨
    (∃ order, engine.orderbook.getOrder orderId = none ∧
      (engine.stopOrders.find? fun stop => stop.orderId = orderId) = some order ∧
      order.userId = userId ∧
      engine.handleCancelOrder orderId userId timestamp =
        ({ engine with
            stopOrders := engine.stopOrders.eraseP fun stop => stop.orderId = orderId },
          [.orderCanceled orderId userId order.symbol order.remainingQty timestamp])) ∨
    (∃ order, engine.orderbook.getOrder orderId = none ∧
      (engine.stopOrders.find? fun stop => stop.orderId = orderId) = some order ∧
      order.userId ≠ userId ∧
      engine.handleCancelOrder orderId userId timestamp =
        ({ engine with
            stopOrders :=
              (engine.stopOrders.eraseP fun stop => stop.orderId = orderId) ++ [order] },
          [.orderRejected orderId userId .orderNotFound timestamp])) := by
  cases found : engine.orderbook.getOrder orderId with
  | some order =>
      by_cases owner : order.userId = userId
      · exact Or.inr (Or.inl ⟨order, rfl, owner, by simp [handleCancelOrder, found, owner]⟩)
      · exact Or.inr (Or.inr (Or.inl ⟨order, rfl, owner, by
          simp [handleCancelOrder, found, owner]⟩))
  | none =>
      cases waiting : engine.stopOrders.find? fun stop => stop.orderId = orderId with
      | none => exact Or.inl ⟨rfl, rfl, by simp [handleCancelOrder, found, waiting]⟩
      | some order =>
          by_cases owner : order.userId = userId
          · exact Or.inr (Or.inr (Or.inr (Or.inl ⟨order, rfl, rfl, owner, by
              simp [handleCancelOrder, found, waiting, owner]⟩)))
          · exact Or.inr (Or.inr (Or.inr (Or.inr ⟨order, rfl, rfl, owner, by
              simp [handleCancelOrder, found, waiting, owner]⟩)))

/-! ## Amend -/

/-- An amendment the engine refuses after it has removed the order. -/
def AmendInvalid (order : BookOrder) (amend : AmendOrder) : Prop :=
  (amendedOrder order amend).remainingQty ≤ 0 ∨ (amendedOrder order amend).price ≤ 0

theorem reinsertAmended_cases (old : BookOrder) (amend : AmendOrder) :
    let removed := engine.orderbook.removeOrder amend.orderId
    let result := matchOrder removed (amendedOrder old amend)
    let canceled : Event :=
      .orderCanceled amend.orderId amend.userId amend.symbol old.remainingQty amend.timestamp
    (∃ reason, (AmendInvalid old amend ∨ result.rejected = true) ∧
      engine.reinsertAmended old amend =
        ({ engine with orderbook := removed },
          [canceled, .orderRejected amend.orderId amend.userId reason amend.timestamp])) ∨
    (¬AmendInvalid old amend ∧ result.rejected = false ∧
      engine.reinsertAmended old amend =
        let absorbed := engine.absorb result amend.symbol amend.timestamp
        (if result.taker.remainingQty = 0 ∨ result.taker.orderType.isLimit = false then
            absorbed.1
          else
            { absorbed.1 with orderbook := result.book.insertOrder result.taker },
          canceled :: .orderAccepted (acceptedOf result.taker amend.symbol amend.timestamp) ::
            absorbed.2)) := by
  intro removed result canceled
  have invalidIff : ((amendedOrder old amend).remainingQty.isZero ||
      (amendedOrder old amend).remainingQty.isNegative ||
      (amendedOrder old amend).price.isZero || (amendedOrder old amend).price.isNegative) = true ↔
      AmendInvalid old amend := by
    simp only [Bool.or_eq_true, Decimal128.isZero_iff, Decimal128.isNegative_iff, AmendInvalid,
      le_iff_eq_or_lt, or_assoc]
  by_cases invalid : AmendInvalid old amend
  · refine Or.inl ⟨.invalidOrder, Or.inl invalid, ?_⟩
    simp only [reinsertAmended, invalidIff.2 invalid, if_true]
    rfl
  · cases rejected : result.rejected with
    | true =>
        have untouched : result.book = removed :=
          congrArg Walk.book (matchOrder_untouched (Or.inl rejected))
        refine Or.inl ⟨refusal old.timeInForce, Or.inr rfl, ?_⟩
        simp only [reinsertAmended, invalidIff, invalid, if_false]
        rw [if_pos (show (matchOrder (engine.orderbook.removeOrder amend.orderId)
          (amendedOrder old amend)).rejected = true from rejected)]
        rw [← untouched]
    | false =>
        refine Or.inr ⟨invalid, rfl, ?_⟩
        simp only [reinsertAmended, invalidIff, invalid, if_false]
        rw [if_neg (show ¬(matchOrder (engine.orderbook.removeOrder amend.orderId)
          (amendedOrder old amend)).rejected = true by simpa [result, removed] using rejected)]
        by_cases rests : result.taker.remainingQty = 0 ∨ result.taker.orderType.isLimit = false
        · rw [if_pos rests, if_pos (by simpa [result, removed] using rests)]
        · rw [if_neg rests, if_neg (by simpa [result, removed] using rests)]
          rfl

theorem handleAmendOrder_cases (amend : AmendOrder) :
    (∃ reason,
      (∀ existing, engine.orderbook.getOrder amend.orderId = some existing →
        existing.userId = amend.userId → losesPriority existing amend = false) ∧
      engine.handleAmendOrder amend =
        (engine, [.orderRejected amend.orderId amend.userId reason amend.timestamp])) ∨
    ∃ existing, engine.orderbook.getOrder amend.orderId = some existing ∧
      existing.userId = amend.userId ∧
      ((losesPriority existing amend = true ∧
          engine.handleAmendOrder amend = engine.reinsertAmended existing amend) ∨
        (losesPriority existing amend = false ∧
          engine.handleAmendOrder amend =
            (engine, [.orderAccepted (acceptedOf existing amend.symbol amend.timestamp)])) ∨
        (losesPriority existing amend = false ∧
          ∃ quantity, amend.newQuantity = some quantity ∧ 0 < quantity ∧
            quantity < existing.remainingQty ∧
            engine.handleAmendOrder amend =
              ({ engine with orderbook := engine.orderbook.updateQty amend.orderId quantity },
                [.orderAccepted (acceptedOf existing amend.symbol amend.timestamp)]))) := by
  cases found : engine.orderbook.getOrder amend.orderId with
  | none => exact Or.inl ⟨.orderNotFound, by simp, by simp [handleAmendOrder, found]⟩
  | some existing =>
      by_cases owner : existing.userId = amend.userId
      · cases loses : losesPriority existing amend with
        | true =>
            exact Or.inr ⟨existing, rfl, owner, Or.inl ⟨loses, by
              simp [handleAmendOrder, found, owner, loses]⟩⟩
        | false =>
            cases lower : amend.newQuantity.filter (· < existing.remainingQty) with
            | none =>
                exact Or.inr ⟨existing, rfl, owner, Or.inr (Or.inl ⟨loses, by
                  simp [handleAmendOrder, found, owner, loses, lower]⟩)⟩
            | some quantity =>
                have lowered := Option.filter_eq_some_iff.1 lower
                by_cases positive : 0 < quantity
                · refine Or.inr ⟨existing, rfl, owner, Or.inr (Or.inr ⟨loses, quantity, lowered.1,
                    positive, by simpa using lowered.2, ?_⟩)⟩
                  have notZero : quantity ≠ 0 := positive.ne'
                  simp [handleAmendOrder, found, owner, loses, lower, Decimal128.isZero,
                    Decimal128.isNegative, notZero, positive.le]
                · have invalid : (quantity.isZero || quantity.isNegative) = true := by
                    simpa [le_iff_eq_or_lt] using not_lt.1 positive
                  refine Or.inl ⟨.invalidOrder, ?_, by
                    simp only [handleAmendOrder, found, owner, loses, lower, invalid, ne_eq,
                      not_true_eq_false, if_false, if_true, Bool.false_eq_true]⟩
                  rintro _ ⟨⟩ _
                  exact loses
      · refine Or.inl ⟨.orderNotFound, ?_, by simp [handleAmendOrder, found, owner]⟩
        rintro _ ⟨⟩ sameOwner
        exact absurd sameOwner owner

/-! ## Cancel-all -/

/-- A cancel-all reports cancellations only. -/
theorem canceled_of_handleCancelAll {userId : UserId} {symbol : SymbolId} {timestamp : UnixMicros}
    {event : Event} (emitted : event ∈ (engine.handleCancelAll userId symbol timestamp).2) :
    ∃ order : BookOrder, event =
      .orderCanceled order.orderId userId symbol order.remainingQty timestamp := by
  rw [handleCancelAll] at emitted
  rcases List.mem_append.1 emitted with ofBook | ofStops
  · obtain ⟨order, -, canceled⟩ := List.mem_map.1 ofBook
    exact ⟨order, canceled.symm⟩
  · obtain ⟨order, -, canceled⟩ := List.mem_map.1 ofStops
    exact ⟨order, canceled.symm⟩

/-! ## Expiry -/

/-- What holds of a book without an order, if it holds of the book, holds after an expiry. -/
theorem expireEntries_keeps {motive : OrderBook → Prop}
    (removes : ∀ {book : OrderBook} (orderId : OrderId),
      motive book → motive (book.removeOrder orderId))
    {book : OrderBook} (holds : motive book) {now : UnixMicros}
    {entries : List (UnixMicros × OrderId)} : motive (expireEntries now book entries).1 := by
  induction entries generalizing book with
  | nil => exact holds
  | cons entry rest inductionHypothesis =>
      rw [expireEntries]
      split
      · exact holds
      · cases book.getOrder entry.2 with
        | none => exact inductionHypothesis holds
        | some order => exact inductionHypothesis (removes entry.2 holds)

/-- An expiry reports cancellations only. -/
theorem canceled_of_expireEntries {book : OrderBook} {now : UnixMicros}
    {entries : List (UnixMicros × OrderId)} {event : Event}
    (emitted : event ∈ (expireEntries now book entries).2.2) :
    ∃ (orderId : OrderId) (order : BookOrder), event =
      .orderCanceled orderId order.userId order.symbol order.remainingQty now := by
  induction entries generalizing book with
  | nil => cases emitted
  | cons entry rest inductionHypothesis =>
      rw [expireEntries] at emitted
      split at emitted
      · cases emitted
      · cases found : book.getOrder entry.2 with
        | none =>
            rw [found] at emitted
            exact inductionHypothesis emitted
        | some order =>
            rw [found] at emitted
            rcases List.mem_cons.1 emitted with canceled | later
            · exact ⟨entry.2, order, canceled⟩
            · exact inductionHypothesis later

/-! ## Trailing peaks -/

/-- A mark price changes nothing of an order but its trailing peak. -/
theorem updateTrailingPeak_eq (mark : Decimal128) (order : BookOrder) :
    ∃ peak, updateTrailingPeak mark order = { order with trailingPeakPrice := peak } := by
  rw [updateTrailingPeak]
  split
  · split
    · exact ⟨_, rfl⟩
    · exact ⟨_, rfl⟩
  · exact ⟨order.trailingPeakPrice, rfl⟩

/-! ## Triggered orders -/

theorem triggerOne_cases (order : BookOrder) (timestamp : UnixMicros) :
    let result := matchOrder engine.orderbook (convertTriggered order)
    let absorbed := engine.absorb result result.taker.symbol timestamp
    (result.rejected = true ∧ engine.triggerOne order timestamp = (engine, [])) ∨
    (result.rejected = false ∧
      (result.taker.remainingQty = 0 ∨ result.taker.orderType.isLimit = false) ∧
      engine.triggerOne order timestamp = absorbed) ∨
    (result.rejected = false ∧ result.taker.remainingQty ≠ 0 ∧
      result.taker.orderType.isLimit = true ∧
      engine.triggerOne order timestamp =
        ({ absorbed.1 with orderbook := result.book.insertOrder result.taker }, absorbed.2)) := by
  intro result absorbed
  cases rejected : result.rejected with
  | true =>
      have untouched : result.book = engine.orderbook :=
        congrArg Walk.book (matchOrder_untouched (Or.inl rejected))
      refine Or.inl ⟨rfl, ?_⟩
      rw [triggerOne]
      simp only [show (matchOrder engine.orderbook (convertTriggered order)).rejected = true from
        rejected, if_true]
      rw [show (matchOrder engine.orderbook (convertTriggered order)).book = engine.orderbook from
        untouched]
  | false =>
      refine Or.inr ?_
      have admitted : ¬(matchOrder engine.orderbook (convertTriggered order)).rejected = true := by
        simpa [result] using rejected
      by_cases rests : result.taker.remainingQty = 0 ∨ result.taker.orderType.isLimit = false
      · refine Or.inl ⟨rfl, rests, ?_⟩
        simp only [triggerOne, admitted]
        rw [if_neg Bool.false_ne_true, if_pos (by simpa [result] using rests)]
      · refine Or.inr ⟨rfl, fun filled => rests (Or.inl filled),
          by simpa using fun limited => rests (Or.inr limited), ?_⟩
        simp only [triggerOne, admitted]
        rw [if_neg Bool.false_ne_true, if_neg (by simpa [result] using rests)]
        rfl

/-- What a triggered order emits is what its match does. -/
theorem mem_triggerOne {order : BookOrder} {timestamp : UnixMicros} {event : Event}
    (emitted : event ∈ (engine.triggerOne order timestamp).2) :
    let result := matchOrder engine.orderbook (convertTriggered order)
    event ∈ (engine.absorb result result.taker.symbol timestamp).2 := by
  rcases engine.triggerOne_cases order timestamp with
    ⟨-, same⟩ | ⟨-, -, same⟩ | ⟨-, -, -, same⟩ <;> rw [same] at emitted
  · cases emitted
  · exact emitted
  · exact emitted

theorem mem_triggerAll {pending : List BookOrder} {timestamp : UnixMicros} {event : Event}
    (emitted : event ∈ (triggerAll timestamp engine pending).2) :
    ∃ reached, ∃ order ∈ pending, event ∈ (triggerOne reached order timestamp).2 := by
  induction pending generalizing engine with
  | nil => cases emitted
  | cons order rest inductionHypothesis =>
      rw [triggerAll, List.mem_append] at emitted
      rcases emitted with here | later
      · exact ⟨engine, order, List.mem_cons_self, here⟩
      · obtain ⟨reached, other, member, found⟩ := inductionHypothesis _ later
        exact ⟨reached, other, List.mem_cons_of_mem order member, found⟩

/-! ## Fill events -/

/-- Every emitted event belongs to one of the fills. -/
theorem mem_emitFillEvents {config : SymbolConfig} {book : OrderBook} {symbol : SymbolId}
    {timestamp : UnixMicros} {taker : BookOrder} {gen : TradeIdGen} {fills : List Fill}
    {event : Event}
    (emitted : event ∈ (emitFillEvents config book symbol timestamp taker gen fills).2) :
    ∃ fill ∈ fills, ∃ tradeId,
      event ∈ fillEvents config book symbol timestamp taker tradeId fill := by
  induction fills generalizing gen with
  | nil => cases emitted
  | cons fill rest inductionHypothesis =>
      rw [emitFillEvents, List.mem_append] at emitted
      rcases emitted with here | later
      · exact ⟨fill, List.mem_cons_self, gen.nextId.1, here⟩
      · obtain ⟨other, member, tradeId, found⟩ := inductionHypothesis later
        exact ⟨other, List.mem_cons_of_mem fill member, tradeId, found⟩

/-- A match emits nothing but fills and trades. -/
theorem absorb_not_rejected {result : MatchResult} {symbol : SymbolId} {timestamp : UnixMicros}
    {event : Event} (emitted : event ∈ (engine.absorb result symbol timestamp).2) :
    event.isRejected = false := by
  obtain ⟨fill, -, tradeId, member⟩ := mem_emitFillEvents emitted
  simp only [fillEvents, List.mem_cons, List.not_mem_nil, or_false] at member
  rcases member with rfl | rfl | rfl <;> rfl

end MatchingEngine
end Exg
