import Exg.Matching.Reachable

/-!
# The book is never crossed

An order is placed only after it was matched as far as it goes, so nothing it could have
traded with is left on the other side.  An iceberg that shows its next slice is placed
without a second match, which is why the result is about orders without a visible
quantity, as the gateway builds them.
-/

namespace Exg

open Support

/-- Whether an order and an opposite one leave a gap between their prices. -/
def Apart (order other : BookOrder) : Prop :=
  other.side = order.side.opposite →
    OrderBook.beyondLimit order.side.opposite other.price order.price = true

theorem Apart.symm {order other : BookOrder} (apart : Apart order other) : Apart other order := by
  intro opposite
  have reversed : other.side = order.side.opposite := by rw [opposite, Side.opposite_opposite]
  have gap := apart reversed
  cases side : order.side <;>
    simp_all [Side.opposite, OrderBook.beyondLimit]

/-- No bid is at or above an ask. -/
def Uncrossed (book : OrderBook) : Prop :=
  ∀ leftId rightId left right, book.getOrder leftId = some left →
    book.getOrder rightId = some right → Apart left right

namespace Uncrossed

variable {book after : OrderBook}

theorem new (symbol : SymbolId) : Uncrossed (OrderBook.new symbol) := by
  simp [Uncrossed]

/-- Only the sides and the prices of the stored orders matter. -/
theorem of_shrink (uncrossed : Uncrossed book)
    (stored : ∀ orderId order, after.getOrder orderId = some order →
      ∃ before, book.getOrder orderId = some before ∧ before.side = order.side ∧
        before.price = order.price) : Uncrossed after := by
  intro leftId rightId left right leftFound rightFound opposite
  obtain ⟨leftBefore, leftStored, leftSide, leftPrice⟩ := stored leftId left leftFound
  obtain ⟨rightBefore, rightStored, rightSide, rightPrice⟩ := stored rightId right rightFound
  have apart := uncrossed leftId rightId leftBefore rightBefore leftStored rightStored
  rw [Apart, leftSide, leftPrice, rightSide, rightPrice] at apart
  exact apart opposite

theorem removeOrder (uncrossed : Uncrossed book) (orderId : OrderId) :
    Uncrossed (book.removeOrder orderId) := by
  refine uncrossed.of_shrink fun other order found => ?_
  rw [OrderBook.getOrder_removeOrder] at found
  split at found
  · cases found
  · exact ⟨order, found, rfl, rfl⟩

theorem updateQty (uncrossed : Uncrossed book) (orderId : OrderId) (quantity : Decimal128) :
    Uncrossed (book.updateQty orderId quantity) := by
  refine uncrossed.of_shrink fun other order found => ?_
  obtain ⟨before, _, stored, rfl⟩ := OrderBook.getOrder_updateQty_inv found
  exact ⟨before, stored, rfl, rfl⟩

theorem cancelAllUserOrders (uncrossed : Uncrossed book) (wellFormed : book.WellFormed)
    (userId : UserId) : Uncrossed (book.cancelAllUserOrders userId).1 := by
  refine uncrossed.of_shrink fun other order found => ?_
  rw [wellFormed.getOrder_cancelAll] at found
  exact ⟨order, (Option.filter_eq_some_iff.1 found).1, rfl, rfl⟩

theorem matchOrder (uncrossed : Uncrossed book) (wellFormed : book.WellFormed)
    (taker : BookOrder) : Uncrossed (matchOrder book taker).book := by
  refine uncrossed.of_shrink fun orderId order found => ?_
  rw [matchOrder_book wellFormed] at found
  obtain ⟨before, _, stored, rfl⟩ := OrderBook.getOrder_of_takeOut found
  exact ⟨before, stored, rfl, rfl⟩

theorem insertOrder (uncrossed : Uncrossed book) {order : BookOrder}
    (apart : ∀ orderId other, book.getOrder orderId = some other → Apart order other) :
    Uncrossed (book.insertOrder order) := by
  intro leftId rightId left right leftFound rightFound
  rw [OrderBook.getOrder_insertOrder] at leftFound rightFound
  split at leftFound <;> split at rightFound
  · cases leftFound
    cases rightFound
    intro opposite
    exact absurd opposite (Side.ne_opposite _)
  · cases leftFound
    exact apart rightId right rightFound
  · cases rightFound
    exact (apart leftId left leftFound).symm
  · exact uncrossed leftId rightId left right leftFound rightFound

/-- Placing what is left of a limit order that was matched. -/
theorem placeMatched (uncrossed : Uncrossed book) (wellFormed : book.WellFormed)
    {taker : BookOrder} (incoming : 0 ≤ taker.remainingQty)
    (limited : (Exg.matchOrder book taker).taker.orderType.isLimit = true)
    (accepted : (Exg.matchOrder book taker).rejected = false)
    (left : (Exg.matchOrder book taker).taker.remainingQty ≠ 0) :
    Uncrossed ((Exg.matchOrder book taker).book.insertOrder (Exg.matchOrder book taker).taker) := by
  refine (uncrossed.matchOrder wellFormed taker).insertOrder fun orderId other found opposite => ?_
  have sameTaker : (Exg.matchOrder book taker).taker =
      taker.withRemaining (taker.remainingQty - allocated (matchShares book taker)) :=
    matchOrder_taker wellFormed
  rw [sameTaker] at limited
  have maximal := (matchOrder_maximal wellFormed incoming limited accepted).resolve_left left
  rw [sameTaker] at opposite ⊢
  exact maximal orderId other found opposite

end Uncrossed

/-- What the gateway's converters produce: new orders carry neither a visible quantity
nor a trailing delta. -/
def FromGateway : MatchingEngine.EngineInput → Prop
  | .command (.newOrder order) => order.visibleQuantity = none ∧ order.trailingDelta = none
  | _ => True

namespace MatchingEngine

variable {engine : MatchingEngine} {used : List OrderId}

/-- An accepted order without a visible quantity is not an iceberg. -/
theorem plain_of_accepted {config : SymbolConfig} {order : NewOrder}
    (accepted : icebergAccepted config order = true) (noVisible : order.visibleQuantity = none) :
    order.orderType ≠ .iceberg := by
  intro iceberg
  simp [icebergAccepted, iceberg, noVisible] at accepted

theorem refillIceberg_of_plain (timestamp : UnixMicros) {order : BookOrder}
    (plain : order.orderType ≠ .iceberg) : refillIceberg timestamp order = order := by
  rw [refillIceberg, if_neg fun refilled => plain refilled.1]

private theorem uncrossed_handleNewOrder (sound : engine.Sound used)
    (uncrossed : Uncrossed engine.orderbook) {order : NewOrder}
    (noVisible : order.visibleQuantity = none) :
    Uncrossed (engine.handleNewOrder order).1.orderbook := by
  rcases engine.handleNewOrder_cases order with
    ⟨reason, same⟩ | ⟨price, positive, missing, -, accepted, ⟨-, same⟩ | ⟨-, same⟩⟩
  · rw [same]
    exact uncrossed
  · rw [same]
    exact uncrossed
  · rw [same]
    have plain := plain_of_accepted accepted noVisible
    have incoming : 0 ≤ (newBookOrder engine.markPrice order price).remainingQty := by
      simpa [newBookOrder, splitQuantity_of_plain plain] using positive.le
    have takerType : (matchOrder engine.orderbook
        (newBookOrder engine.markPrice order price)).taker.orderType = order.orderType :=
      matchOrder_taker_orderType sound.wellFormed
    have noRefill := refillIceberg_of_plain order.timestamp (takerType.trans_ne plain)
    have matched := uncrossed.matchOrder sound.wellFormed
      (newBookOrder engine.markPrice order price)
    rcases engine.matchNewOrder_cases (newBookOrder engine.markPrice order price)
        order.timestamp with ⟨-, outcome⟩ | ⟨admitted, outcome⟩
    · rw [outcome]
      exact uncrossed
    · rw [outcome]
      dsimp only
      rw [noRefill]
      rcases placeRemaining_cases _ _ _ with
        ⟨-, placed⟩ | ⟨-, -, placed⟩ | ⟨left, limited, -, -, placed⟩
      · rw [placed]
        exact matched
      · rw [placed]
        exact matched
      · rw [placed]
        exact uncrossed.placeMatched sound.wellFormed incoming limited admitted left

private theorem uncrossed_handleCancelOrder (sound : engine.Sound used)
    (uncrossed : Uncrossed engine.orderbook) (orderId : OrderId) (userId : UserId)
    (timestamp : UnixMicros) :
    Uncrossed (engine.handleCancelOrder orderId userId timestamp).1.orderbook := by
  rcases engine.handleCancelOrder_cases orderId userId timestamp with
    ⟨-, -, same⟩ | ⟨order, -, -, same⟩ | ⟨order, found, -, same⟩ | ⟨order, -, -, -, same⟩ |
      ⟨order, -, -, -, same⟩
  · rw [same]
    exact uncrossed
  · rw [same]
    exact uncrossed.removeOrder orderId
  · rw [same]
    refine uncrossed.of_shrink fun other stored storedFound => ?_
    rw [OrderBook.getOrder_putBack (sound.wellFormed.toLevels.keyed found) found] at storedFound
    exact ⟨stored, storedFound, rfl, rfl⟩
  · rw [same]
    exact uncrossed
  · rw [same]
    exact uncrossed

private theorem uncrossed_handleAmendOrder (sound : engine.Sound used)
    (uncrossed : Uncrossed engine.orderbook) (amend : AmendOrder) :
    Uncrossed (engine.handleAmendOrder amend).1.orderbook := by
  rcases engine.handleAmendOrder_cases amend with
    ⟨reason, -, same⟩ | ⟨existing, found, -, ⟨-, same⟩ | ⟨-, same⟩ | ⟨-, quantity, -, -, -, same⟩⟩
  · rw [same]
    exact uncrossed
  · rw [same]
    have removedSound := OrdersSound.removeOrder sound amend.orderId
    have removed := uncrossed.removeOrder amend.orderId
    rcases engine.reinsertAmended_cases existing amend with
      ⟨reason, -, outcome⟩ | ⟨valid, admitted, outcome⟩
    · rw [outcome]
      exact removed
    · rw [outcome]
      have incoming : 0 ≤ (amendedOrder existing amend).remainingQty := by
        rw [AmendInvalid, not_or, not_le] at valid
        exact valid.1.le
      dsimp only
      split
      · exact removed.matchOrder removedSound.wellFormed _
      · rename_i rests
        rw [not_or, Bool.not_eq_false] at rests
        exact removed.placeMatched removedSound.wellFormed incoming rests.2 admitted rests.1
  · rw [same]
    exact uncrossed
  · rw [same]
    exact uncrossed.updateQty amend.orderId quantity

private theorem uncrossed_triggerAll {pending kept : List BookOrder} {timestamp : UnixMicros}
    (sound : OrdersSound engine.orderbook (pending ++ kept) used)
    (uncrossed : Uncrossed engine.orderbook) :
    Uncrossed (triggerAll timestamp engine pending).1.orderbook := by
  induction pending generalizing engine with
  | nil => exact uncrossed
  | cons order rest inductionHypothesis =>
      refine inductionHypothesis (triggerOne_sound sound) ?_
      have waiting := sound.waiting order List.mem_cons_self
      obtain ⟨-, -, -, quantity, -⟩ := convertTriggered_frame order
      have incoming : 0 ≤ (convertTriggered order).remainingQty := by
        rw [quantity]
        exact waiting.remaining_pos.le
      rcases engine.triggerOne_cases order timestamp with
        ⟨-, same⟩ | ⟨-, -, same⟩ | ⟨admitted, left, limited, same⟩
      · rw [same]
        exact uncrossed
      · rw [same]
        exact uncrossed.matchOrder sound.wellFormed _
      · rw [same]
        exact uncrossed.placeMatched sound.wellFormed incoming limited admitted left

private theorem uncrossed_expireEntries {book : OrderBook} {now : UnixMicros}
    {entries : List (UnixMicros × OrderId)} (uncrossed : Uncrossed book) :
    Uncrossed (expireEntries now book entries).1 :=
  expireEntries_keeps (motive := Uncrossed) (fun orderId uncrossed => uncrossed.removeOrder orderId)
    uncrossed

private theorem uncrossed_step (sound : engine.Sound used) (uncrossed : Uncrossed engine.orderbook)
    {input : EngineInput} (gateway : FromGateway input) :
    Uncrossed (engine.step input).1.orderbook := by
  cases input with
  | expirySweep now => exact uncrossed_expireEntries uncrossed
  | command issued =>
      have counted : { engine with sequence := engine.sequence + 1 }.Sound used := sound
      cases issued with
      | newOrder order => exact uncrossed_handleNewOrder counted uncrossed gateway.1
      | cancelOrder orderId userId symbol timestamp =>
          exact uncrossed_handleCancelOrder counted uncrossed orderId userId timestamp
      | amendOrder amend => exact uncrossed_handleAmendOrder counted uncrossed amend
      | cancelAllOrders userId symbol timestamp =>
          exact uncrossed.cancelAllUserOrders sound.wellFormed userId
      | updateMarkPrice symbol mark index timestamp =>
          have passive := counted.applyMarkIndexPassive mark index
          exact uncrossed_triggerAll (OrdersSound.perm passive (swapScan_perm _ _)) uncrossed
      | computeFunding symbol timestamp => exact uncrossed
      | adminCredit userId amount key timestamp => exact uncrossed

theorem FromGateway.acceptsShown {input : EngineInput} (gateway : FromGateway input) :
    engine.AcceptsShown input := by
  cases input with
  | expirySweep now => trivial
  | command issued =>
      cases issued with
      | newOrder order =>
          intro _ _ visible shown
          rw [gateway.1] at shown
          cases shown
      | _ => trivial

/-- After every step of a run of gateway commands and expiry sweeps, one side of the book
is empty or the best bid is below the best ask. -/
theorem book_uncrossed (config : SymbolConfig) (ids : Nat → TradeId) (interestRate : Decimal128)
    (inputs : List EngineInput) (distinct : (newOrderIds inputs).Nodup)
    (gateway : ∀ input ∈ inputs, FromGateway input) :
    ∀ before, before <+: inputs →
      let book := (run step (new config ids interestRate) before).1.orderbook
      ∀ bid ask, book.bestBid = some bid → book.bestAsk = some ask → bid < ask := by
  intro before isPrefix book bid ask bestBid bestAsk
  have fewer : (newOrderIds before).Nodup :=
    distinct.sublist (isPrefix.sublist.filterMap EngineInput.newOrderId?)
  have shows : StepsMeet step AcceptsShown (new config ids interestRate) before :=
    StepsMeet.of_forall fun _ input member =>
      FromGateway.acceptsShown (gateway input (isPrefix.subset member))
  have soundStart := sound_new config ids interestRate
  have sound := sound_run soundStart fewer shows
  have uncrossed : Uncrossed book := by
    refine sound_run_induction (motive := fun _ engine _ => Uncrossed engine.orderbook)
      soundStart fewer shows (Uncrossed.new config.symbol) ?_
    intro earlier input engine log _ earlierPrefix earlierSound _ uncrossed
    refine uncrossed_step earlierSound uncrossed (gateway input (isPrefix.subset ?_))
    exact earlierPrefix.subset (List.mem_append_right earlier (List.mem_singleton.2 rfl))
  obtain ⟨bidId, bidOrder, bidFound, bidSide, rfl⟩ := sound.wellFormed.toLevels.best_stored bestBid
  obtain ⟨askId, askOrder, askFound, askSide, rfl⟩ := sound.wellFormed.toLevels.best_stored bestAsk
  have gap := uncrossed bidId askId bidOrder askOrder bidFound askFound
    (by rw [bidSide, askSide]; rfl)
  rw [bidSide] at gap
  simpa [Side.opposite, OrderBook.beyondLimit] using gap

/-- A bid, an ask above it, and a sell that sweeps the bid and rests the remainder. -/
def sweepInputs : List EngineInput :=
  [.command (.newOrder (gatewayOrder 1 7 .buy 100 5)),
    .command (.newOrder (gatewayOrder 2 8 .sell 103 5)),
    .command (.newOrder (gatewayOrder 3 9 .buy 99 2)),
    .command (.newOrder (gatewayOrder 4 8 .sell 100 6)), .expirySweep 10]

theorem book_uncrossed_sweep :
    let book := (run step (new plainConfig id 0) sweepInputs).1.orderbook
    book.bestBid = some (.ofInt 99) ∧ book.bestAsk = some (.ofInt 100) ∧
      Decimal128.ofInt 99 < .ofInt 100 := by
  have distinct : (newOrderIds sweepInputs).Nodup := by decide
  have gateway : ∀ input ∈ sweepInputs, FromGateway input := by
    simp [sweepInputs, FromGateway, gatewayOrder]
  have bestBid : (run step (new plainConfig id 0) sweepInputs).1.orderbook.bestBid =
      some (.ofInt 99) := by decide +kernel
  have bestAsk : (run step (new plainConfig id 0) sweepInputs).1.orderbook.bestAsk =
      some (.ofInt 100) := by decide +kernel
  exact ⟨bestBid, bestAsk, book_uncrossed plainConfig id 0 sweepInputs distinct gateway
    sweepInputs (List.prefix_refl _) _ _ bestBid bestAsk⟩

end MatchingEngine
end Exg
