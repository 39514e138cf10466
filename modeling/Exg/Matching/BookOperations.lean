import Exg.Matching.Reachable

/-!
# How the engine touches its state

The engine changes its book only through the four operations of the book, and its expiry
heap only by a push or by popping from the front.  What every operation keeps is therefore
kept by every step, whatever ids and quantities the commands carry.
-/

namespace Exg

open Support

namespace OrderBook

/-- One book is reached from another by operations of the book. -/
def Operated (before after : OrderBook) : Prop :=
  ∃ operations, (run perform before operations).1 = after

namespace Operated

variable {before middle after : OrderBook}

theorem refl (book : OrderBook) : Operated book book := ⟨[], rfl⟩

theorem trans (first : Operated before middle) (second : Operated middle after) :
    Operated before after := by
  obtain ⟨earlier, rfl⟩ := first
  obtain ⟨later, rfl⟩ := second
  exact ⟨earlier ++ later, by rw [run_append]⟩

theorem insertOrder (operated : Operated before after) (order : BookOrder) :
    Operated before (after.insertOrder order) :=
  operated.trans ⟨[.insertOrder order], rfl⟩

theorem removeOrder (operated : Operated before after) (orderId : OrderId) :
    Operated before (after.removeOrder orderId) :=
  operated.trans ⟨[.removeOrder orderId], rfl⟩

theorem updateQty (operated : Operated before after) (orderId : OrderId)
    (quantity : Decimal128) : Operated before (after.updateQty orderId quantity) :=
  operated.trans ⟨[.updateQty orderId quantity], rfl⟩

theorem cancelAllUserOrders (operated : Operated before after) (userId : UserId) :
    Operated before (after.cancelAllUserOrders userId).1 :=
  operated.trans ⟨[.cancelAllUserOrders userId], rfl⟩

theorem takeFrom (operated : Operated before after) (makerId : OrderId) (left : Decimal128) :
    Operated before (after.takeFrom makerId left) := by
  rw [OrderBook.takeFrom]
  split
  · exact operated.removeOrder makerId
  · exact operated.updateQty makerId left

theorem matchOrder (operated : Operated before after) (taker : BookOrder) :
    Operated before (matchOrder after taker).book :=
  matchOrder_keeps (motive := Operated before)
    (fun makerId left operated => operated.takeFrom makerId left) operated

/-- What every operation keeps is kept. -/
theorem keeps {property : OrderBook → Prop} (operated : Operated before after)
    (kept : ∀ book operation, property book → property (book.perform operation).1)
    (holds : property before) : property after := by
  obtain ⟨operations, rfl⟩ := operated
  have meet : StepsMeet perform (fun _ _ => True) before operations :=
    StepsMeet.of_forall fun _ _ _ => trivial
  exact meet.run_keeps (fun book operation _ => kept book operation) holds

end Operated

/-- Every order is stored under its own id. -/
def KeyedById (book : OrderBook) : Prop :=
  ∀ orderId order, book.getOrder orderId = some order → order.orderId = orderId

theorem keyedById_new (symbol : SymbolId) : (new symbol).KeyedById := by
  simp [KeyedById, getOrder, new]

theorem KeyedById.perform {book : OrderBook} (keyed : book.KeyedById) (operation : Operation) :
    (book.perform operation).1.KeyedById := by
  intro orderId order found
  cases operation with
  | insertOrder inserted =>
      rw [OrderBook.perform, getOrder_insertOrder] at found
      split at found
      · rename_i same
        cases found
        exact same
      · exact keyed orderId order found
  | removeOrder removedId =>
      rw [OrderBook.perform, getOrder_removeOrder] at found
      split at found
      · cases found
      · exact keyed orderId order found
  | updateQty changedId quantity =>
      rw [OrderBook.perform, getOrder_updateQty] at found
      split at found
      · obtain ⟨before, stored, rfl⟩ := Option.map_eq_some_iff.1 found
        exact keyed orderId before stored
      · exact keyed orderId order found
  | cancelAllUserOrders userId =>
      rw [OrderBook.perform, OrderBook.cancelAllUserOrders] at found
      split at found
      · exact keyed orderId order found
      · rw [getOrder_cancelOrders] at found
        split at found
        · cases found
        · exact keyed orderId order found

private theorem symbol_cancelOrders (book : OrderBook) (orderIds : List OrderId) :
    (book.cancelOrders orderIds).1.symbol = book.symbol := by
  induction orderIds generalizing book with
  | nil => rfl
  | cons head rest inductionHypothesis =>
      cases found : book.getOrder head with
      | none => simpa [cancelOrders, found] using inductionHypothesis book
      | some order =>
          have unlinked : (book.unlinkOrder head order).symbol = book.symbol := by
            rw [unlinkOrder]
            cases order.side <;> rfl
          have later := inductionHypothesis (book.unlinkOrder head order)
          simpa [cancelOrders, found, unlinked] using later

theorem symbol_perform (book : OrderBook) (operation : Operation) :
    (book.perform operation).1.symbol = book.symbol := by
  cases operation with
  | insertOrder order =>
      rw [perform, insertOrder]
      cases order.side <;> rfl
  | removeOrder orderId =>
      rw [perform, removeOrder]
      split
      · rfl
      · rename_i order _
        cases side : order.side <;> simp [unlinkOrder, side]
  | updateQty orderId quantity =>
      rw [perform, updateQty]
      split
      · rfl
      · rename_i order _
        cases side : order.side <;> simp
  | cancelAllUserOrders userId =>
      rw [perform, cancelAllUserOrders]
      split
      · rfl
      · exact symbol_cancelOrders _ _

end OrderBook

namespace MatchingEngine

/-- What a step can do to the state of an engine. -/
structure Touches (before after : MatchingEngine) : Prop where
  book : before.orderbook.Operated after.orderbook
  symbolConfig : after.symbolConfig = before.symbolConfig
  interestRate : after.interestRate = before.interestRate
  heap : after.expiryHeap <:+ before.expiryHeap ∨
    ∃ entry, after.expiryHeap = pushExpiry entry before.expiryHeap

variable {engine : MatchingEngine}

theorem Touches.refl (engine : MatchingEngine) : Touches engine engine :=
  ⟨.refl _, rfl, rfl, Or.inl (List.suffix_refl _)⟩

private theorem touches_placeRemaining (order : BookOrder) (timestamp : UnixMicros) :
    Touches engine (engine.placeRemaining order timestamp).1 := by
  rcases engine.placeRemaining_cases order timestamp with
    ⟨-, placed⟩ | ⟨-, -, placed⟩ | ⟨-, -, -, -, placed⟩
  · rw [placed]
    exact Touches.refl engine
  · rw [placed]
    exact Touches.refl engine
  · rw [placed]
    refine ⟨OrderBook.Operated.insertOrder (.refl _) order, rfl, rfl, ?_⟩
    cases expires : order.expireTime with
    | none => exact Or.inl (by simp [restOnBook, expires])
    | some expire => exact Or.inr ⟨(expire, order.orderId), by simp [restOnBook, expires]⟩

private theorem touches_matchNewOrder (order : BookOrder) (timestamp : UnixMicros) :
    Touches engine (engine.matchNewOrder order timestamp).1 := by
  rcases engine.matchNewOrder_cases order timestamp with ⟨-, same⟩ | ⟨-, same⟩
  · rw [same]
    exact Touches.refl engine
  · rw [same]
    let result := matchOrder engine.orderbook order
    let absorbed := (engine.absorb result order.symbol timestamp).1
    have placed : Touches absorbed
        (absorbed.placeRemaining (refillIceberg timestamp result.taker) timestamp).1 :=
      touches_placeRemaining _ _
    have matched : engine.orderbook.Operated absorbed.orderbook :=
      OrderBook.Operated.matchOrder (.refl _) order
    exact ⟨matched.trans placed.book, placed.symbolConfig, placed.interestRate, placed.heap⟩

private theorem touches_newOrder (order : NewOrder) :
    Touches engine (engine.handleNewOrder order).1 := by
  rcases engine.handleNewOrder_cases order with
    ⟨reason, same⟩ | ⟨price, -, -, -, -, ⟨-, same⟩ | ⟨-, same⟩⟩
  · rw [same]
    exact Touches.refl engine
  · rw [same]
    exact ⟨.refl _, rfl, rfl, Or.inl (List.suffix_refl _)⟩
  · rw [same]
    exact touches_matchNewOrder _ _

private theorem touches_cancelOrder (orderId : OrderId) (userId : UserId) (timestamp : UnixMicros) :
    Touches engine (engine.handleCancelOrder orderId userId timestamp).1 := by
  have removed := OrderBook.Operated.removeOrder (.refl engine.orderbook) orderId
  rcases engine.handleCancelOrder_cases orderId userId timestamp with
    ⟨-, -, same⟩ | ⟨order, -, -, same⟩ | ⟨order, -, -, same⟩ | ⟨order, -, -, -, same⟩ |
      ⟨order, -, -, -, same⟩
  · rw [same]
    exact Touches.refl engine
  · rw [same]
    exact ⟨removed, rfl, rfl, Or.inl (List.suffix_refl _)⟩
  · rw [same]
    exact ⟨removed.insertOrder order, rfl, rfl, Or.inl (List.suffix_refl _)⟩
  · rw [same]
    exact ⟨.refl _, rfl, rfl, Or.inl (List.suffix_refl _)⟩
  · rw [same]
    exact ⟨.refl _, rfl, rfl, Or.inl (List.suffix_refl _)⟩

private theorem touches_amendOrder (amend : AmendOrder) :
    Touches engine (engine.handleAmendOrder amend).1 := by
  have removed := OrderBook.Operated.removeOrder (.refl engine.orderbook) amend.orderId
  rcases engine.handleAmendOrder_cases amend with
    ⟨reason, -, same⟩ | ⟨existing, -, -, ⟨-, same⟩ | ⟨-, same⟩ | ⟨-, quantity, -, -, -, same⟩⟩
  · rw [same]
    exact Touches.refl engine
  · rw [same]
    rcases engine.reinsertAmended_cases existing amend with ⟨reason, -, taken⟩ | ⟨-, -, taken⟩
    · rw [taken]
      exact ⟨removed, rfl, rfl, Or.inl (List.suffix_refl _)⟩
    · rw [taken]
      have matched := removed.matchOrder (amendedOrder existing amend)
      dsimp only
      split
      · exact ⟨matched, rfl, rfl, Or.inl (List.suffix_refl _)⟩
      · exact ⟨matched.insertOrder _, rfl, rfl, Or.inl (List.suffix_refl _)⟩
  · rw [same]
    exact Touches.refl engine
  · rw [same]
    exact ⟨OrderBook.Operated.updateQty (.refl _) _ _, rfl, rfl, Or.inl (List.suffix_refl _)⟩

/-- What a triggered order can do: it never touches the expiry heap. -/
theorem touches_triggerOne (order : BookOrder) (timestamp : UnixMicros) :
    engine.orderbook.Operated (engine.triggerOne order timestamp).1.orderbook ∧
      (engine.triggerOne order timestamp).1.symbolConfig = engine.symbolConfig ∧
      (engine.triggerOne order timestamp).1.interestRate = engine.interestRate ∧
      (engine.triggerOne order timestamp).1.expiryHeap = engine.expiryHeap := by
  have matched := OrderBook.Operated.matchOrder (.refl engine.orderbook) (convertTriggered order)
  rcases engine.triggerOne_cases order timestamp with
    ⟨-, same⟩ | ⟨-, -, same⟩ | ⟨-, -, -, same⟩
  · rw [same]
    exact ⟨.refl _, rfl, rfl, rfl⟩
  · rw [same]
    exact ⟨matched, rfl, rfl, rfl⟩
  · rw [same]
    exact ⟨matched.insertOrder _, rfl, rfl, rfl⟩

theorem touches_triggerAll (timestamp : UnixMicros) (pending : List BookOrder) :
    engine.orderbook.Operated (triggerAll timestamp engine pending).1.orderbook ∧
      (triggerAll timestamp engine pending).1.symbolConfig = engine.symbolConfig ∧
      (triggerAll timestamp engine pending).1.interestRate = engine.interestRate ∧
      (triggerAll timestamp engine pending).1.expiryHeap = engine.expiryHeap := by
  induction pending generalizing engine with
  | nil => exact ⟨.refl _, rfl, rfl, rfl⟩
  | cons order rest inductionHypothesis =>
      have first : engine.orderbook.Operated (engine.triggerOne order timestamp).1.orderbook ∧ _ :=
        touches_triggerOne order timestamp
      have later : (engine.triggerOne order timestamp).1.orderbook.Operated
          (triggerAll timestamp (engine.triggerOne order timestamp).1 rest).1.orderbook ∧ _ :=
        inductionHypothesis
      exact ⟨first.1.trans later.1, later.2.1.trans first.2.1, later.2.2.1.trans first.2.2.1,
        later.2.2.2.trans first.2.2.2⟩

private theorem touches_expireEntries (now : UnixMicros) (entries : List (UnixMicros × OrderId))
    {before book : OrderBook} (operated : before.Operated book) :
    before.Operated (expireEntries now book entries).1 ∧
      (expireEntries now book entries).2.1 <:+ entries := by
  induction entries generalizing book with
  | nil => exact ⟨operated, List.suffix_refl _⟩
  | cons entry rest inductionHypothesis =>
      rw [expireEntries]
      split
      · exact ⟨operated, List.suffix_refl _⟩
      · cases book.getOrder entry.2 with
        | none =>
            have later := inductionHypothesis operated
            exact ⟨later.1, later.2.trans (List.suffix_cons entry rest)⟩
        | some order =>
            have later := inductionHypothesis (operated.removeOrder entry.2)
            exact ⟨later.1, later.2.trans (List.suffix_cons entry rest)⟩

/-- Everything a step does to the book, the configuration and the heap. -/
theorem step_touches (engine : MatchingEngine) (input : EngineInput) :
    Touches engine (engine.step input).1 := by
  cases input with
  | expirySweep now =>
      have expired := touches_expireEntries now engine.expiryHeap (.refl engine.orderbook)
      exact ⟨expired.1, rfl, rfl, Or.inl expired.2⟩
  | command issued =>
      let counted : MatchingEngine := { engine with sequence := engine.sequence + 1 }
      have uncounted : ∀ {after : MatchingEngine}, Touches counted after → Touches engine after :=
        fun touches =>
          ⟨touches.book, touches.symbolConfig, touches.interestRate, touches.heap⟩
      cases issued with
      | newOrder order => exact uncounted (touches_newOrder order)
      | cancelOrder orderId userId symbol timestamp =>
          exact uncounted (touches_cancelOrder orderId userId timestamp)
      | amendOrder amend => exact uncounted (touches_amendOrder amend)
      | cancelAllOrders userId symbol timestamp =>
          exact ⟨OrderBook.Operated.cancelAllUserOrders (.refl _) userId, rfl, rfl,
            Or.inl (List.suffix_refl _)⟩
      | updateMarkPrice symbol mark index timestamp =>
          obtain ⟨book, config, rate, heap⟩ := @touches_triggerAll
            { counted.applyMarkIndexPassive mark index with
              stopOrders := (swapScan (shouldTrigger mark)
                (counted.applyMarkIndexPassive mark index).stopOrders).2 } timestamp
            (swapScan (shouldTrigger mark)
              (counted.applyMarkIndexPassive mark index).stopOrders).1
          exact ⟨book, config, rate, Or.inl (heap ▸ List.suffix_refl _)⟩
      | computeFunding symbol timestamp =>
          exact ⟨.refl _, rfl, rfl, Or.inl (List.suffix_refl _)⟩
      | adminCredit userId amount key timestamp =>
          exact ⟨.refl _, rfl, rfl, Or.inl (List.suffix_refl _)⟩

/-! ## The lot size -/

private theorem tenLots_pos {lotSize : Decimal128} (valid : 0 < lotSize) :
    0 < lotSize * Decimal128.ofInt 10 := by
  rw [Decimal128.lt_iff_raw] at valid ⊢
  have whole : (lotSize * Decimal128.ofInt 10).raw = lotSize.raw * 10 := by
    change (lotSize.raw * (10 * Decimal128.scale)).tdiv Decimal128.scale = _
    rw [← mul_assoc]
    exact Int.mul_tdiv_cancel _ (by decide)
  rw [whole]
  simp only [Decimal128.raw_zero] at valid ⊢
  omega

/-- With a positive lot size an accepted iceberg order shows a positive part. -/
theorem acceptsShown_of_lot (validLot : 0 < engine.symbolConfig.lotSize) (input : EngineInput) :
    engine.AcceptsShown input := by
  cases input with
  | expirySweep now => trivial
  | command issued =>
      cases issued with
      | newOrder order =>
          intro accepted iceberg visible shown
          rw [icebergAccepted, if_pos iceberg, shown] at accepted
          apply lt_of_lt_of_le _ (of_decide_eq_true accepted)
          exact tenLots_pos validLot
      | _ => trivial

theorem acceptsShown_run {config : SymbolConfig} (validLot : 0 < config.lotSize)
    (ids : Nat → TradeId) (interestRate : Decimal128) (inputs : List EngineInput) :
    StepsMeet step AcceptsShown (new config ids interestRate) inputs := by
  have valid : 0 < (new config ids interestRate).symbolConfig.lotSize := validLot
  revert valid
  generalize new config ids interestRate = engine
  induction inputs generalizing engine with
  | nil => exact fun _ => trivial
  | cons input rest inductionHypothesis =>
      intro valid
      refine ⟨acceptsShown_of_lot valid input, inductionHypothesis _ ?_⟩
      rwa [(step_touches engine input).symbolConfig]

/-! ## Waiting orders -/

private theorem placeRemaining_stopOrders (order : BookOrder) (timestamp : UnixMicros) :
    (engine.placeRemaining order timestamp).1.stopOrders = engine.stopOrders := by
  rcases engine.placeRemaining_cases order timestamp with
    ⟨-, same⟩ | ⟨-, -, same⟩ | ⟨-, -, -, -, same⟩ <;> rw [same]
  rfl

theorem matchNewOrder_stopOrders (order : BookOrder) (timestamp : UnixMicros) :
    (engine.matchNewOrder order timestamp).1.stopOrders = engine.stopOrders := by
  rcases engine.matchNewOrder_cases order timestamp with ⟨-, same⟩ | ⟨-, same⟩
  · rw [same]
  · rw [same]
    exact placeRemaining_stopOrders _ _

theorem handleAmendOrder_stopOrders (amend : AmendOrder) :
    (engine.handleAmendOrder amend).1.stopOrders = engine.stopOrders := by
  rcases engine.handleAmendOrder_cases amend with
    ⟨reason, -, same⟩ | ⟨existing, -, -, ⟨-, same⟩ | ⟨-, same⟩ | ⟨-, quantity, -, -, -, same⟩⟩
  · rw [same]
  · rw [same]
    rcases engine.reinsertAmended_cases existing amend with ⟨reason, -, taken⟩ | ⟨-, -, taken⟩
    · rw [taken]
    · rw [taken]
      dsimp only
      split <;> rfl
  · rw [same]
  · rw [same]

/-- The mark price an input sets. -/
def EngineInput.mark? : EngineInput → Option Decimal128
  | .command (.updateMarkPrice _ mark _ _) => some mark
  | _ => none

/-- An order that waits after a step waited before it, or the step has just accepted it.  A new
mark price moves its peak price and does not trigger it. -/
theorem mem_stopOrders_step (engine : MatchingEngine) (input : EngineInput) {stop : BookOrder}
    (waits : stop ∈ (engine.step input).1.stopOrders) :
    (∃ old ∈ engine.stopOrders, input.mark? = none ∧ stop = old ∨
      ∃ mark, input.mark? = some mark ∧ stop = updateTrailingPeak mark old ∧
        shouldTrigger mark stop = false) ∨
      ∃ order price, input = .command (.newOrder order) ∧ order.orderType.isConditional = true ∧
        stop = newBookOrder engine.markPrice order price ∧
        Event.orderAccepted (acceptedOf stop order.symbol order.timestamp) ∈
          (engine.step input).2 := by
  have already : input.mark? = none → stop ∈ engine.stopOrders →
      ∃ old ∈ engine.stopOrders, input.mark? = none ∧ stop = old ∨
        ∃ mark, input.mark? = some mark ∧ stop = updateTrailingPeak mark old ∧
          shouldTrigger mark stop = false :=
    fun unmarked before => ⟨stop, before, Or.inl ⟨unmarked, rfl⟩⟩
  cases input with
  | expirySweep now => exact Or.inl (already rfl waits)
  | command issued =>
      let counted : MatchingEngine := { engine with sequence := engine.sequence + 1 }
      cases issued with
      | newOrder order =>
          rcases counted.handleNewOrder_cases order with
            ⟨reason, same⟩ | ⟨price, -, -, -, -, ⟨conditional, same⟩ | ⟨-, same⟩⟩
          · have after := congrArg (fun outcome => outcome.1.stopOrders) same
            change (engine.step (.command (.newOrder order))).1.stopOrders = _ at after
            rw [after] at waits
            exact Or.inl (already rfl waits)
          · have after := congrArg (fun outcome => outcome.1.stopOrders) same
            change (engine.step (.command (.newOrder order))).1.stopOrders = _ at after
            rw [after] at waits
            rcases List.mem_append.1 waits with before | added
            · exact Or.inl (already rfl before)
            · refine Or.inr ⟨order, price, rfl, conditional, List.mem_singleton.1 added, ?_⟩
              have emitted := congrArg Prod.snd same
              change (engine.step (.command (.newOrder order))).2 = _ at emitted
              rw [emitted, List.mem_singleton.1 added]
              exact List.mem_singleton_self _
          · have after := congrArg (fun outcome => outcome.1.stopOrders) same
            change (engine.step (.command (.newOrder order))).1.stopOrders = _ at after
            rw [after, matchNewOrder_stopOrders] at waits
            exact Or.inl (already rfl waits)
      | cancelOrder orderId userId symbol timestamp =>
          left
          apply already rfl
          change stop ∈ (counted.handleCancelOrder orderId userId timestamp).1.stopOrders at waits
          rcases counted.handleCancelOrder_cases orderId userId timestamp with
            ⟨-, -, same⟩ | ⟨order, -, -, same⟩ | ⟨order, -, -, same⟩ | ⟨order, -, -, -, same⟩ |
              ⟨order, -, found, -, same⟩
          · rwa [same] at waits
          · rwa [same] at waits
          · rwa [same] at waits
          · rw [same] at waits
            exact List.eraseP_subset waits
          · rw [same] at waits
            rcases List.mem_append.1 waits with kept | moved
            · exact List.eraseP_subset kept
            · rw [List.mem_singleton.1 moved]
              exact List.mem_of_find?_eq_some found
      | amendOrder amend =>
          change stop ∈ (counted.handleAmendOrder amend).1.stopOrders at waits
          rw [handleAmendOrder_stopOrders] at waits
          exact Or.inl (already rfl waits)
      | cancelAllOrders userId symbol timestamp =>
          exact Or.inl (already rfl ((swapScan_perm _ _).subset (List.mem_append_right _ waits)))
      | updateMarkPrice symbol mark index timestamp =>
          change stop ∈ (counted.updateMarkPrice symbol mark index timestamp).1.stopOrders at waits
          rw [updateMarkPrice, triggerAndMatchStops, triggerAll_stopOrders] at waits
          have untriggered := swapScan_kept waits
          have scanned := (swapScan_perm _ _).subset (List.mem_append_right _ waits)
          obtain ⟨old, before, rfl⟩ := List.mem_map.1 scanned
          exact Or.inl ⟨old, before, Or.inr ⟨mark, rfl, rfl, untriggered⟩⟩
      | computeFunding symbol timestamp => exact Or.inl (already rfl waits)
      | adminCredit userId amount key timestamp => exact Or.inl (already rfl waits)

/-- Every waiting order is for one symbol. -/
def WaitingFor (only : SymbolId) (engine : MatchingEngine) : Prop :=
  ∀ stop ∈ engine.stopOrders, stop.symbol = only

theorem updateTrailingPeak_symbol (mark : Decimal128) (order : BookOrder) :
    (updateTrailingPeak mark order).symbol = order.symbol := by
  obtain ⟨peak, same⟩ := updateTrailingPeak_eq mark order
  rw [same]

/-- A step keeps the waiting orders on one symbol if a new order names it. -/
theorem WaitingFor.step {only : SymbolId} (waiting : engine.WaitingFor only) (input : EngineInput)
    (named : ∀ order, input = .command (.newOrder order) → order.symbol = only) :
    (engine.step input).1.WaitingFor only := by
  intro stop waits
  rcases engine.mem_stopOrders_step input waits with
    ⟨old, before, ⟨-, rfl⟩ | ⟨mark, -, rfl, -⟩⟩ | ⟨order, price, same, -, rfl, -⟩
  · exact waiting _ before
  · rw [updateTrailingPeak_symbol]
    exact waiting old before
  · exact named order same

end MatchingEngine
end Exg
