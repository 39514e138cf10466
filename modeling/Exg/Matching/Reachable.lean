import Exg.Matching.Inversion
import Exg.Support.Machine

/-!
# The invariant over whole runs

Every handler keeps `OrdersSound`, provided that a new order brings a new id and an
iceberg order shows something.  A triggered order is on its way between the two places,
so the pass over the triggered orders carries them in front of those still waiting.
-/

namespace Exg

open Support

namespace MatchingEngine

/-- The invariant of an engine. -/
def Sound (engine : MatchingEngine) (used : List OrderId) : Prop :=
  OrdersSound engine.orderbook engine.stopOrders used

theorem sound_new (config : SymbolConfig) (ids : Nat → TradeId) (interestRate : Decimal128) :
    (new config ids interestRate).Sound [] :=
  OrdersSound.new config.symbol

variable {engine : MatchingEngine} {used : List OrderId}

/-- An id that is off the book stays off it while another order is matched. -/
theorem getOrder_matchOrder_of_none {book : OrderBook} {taker : BookOrder}
    (wellFormed : book.WellFormed) {orderId : OrderId} (missing : book.getOrder orderId = none) :
    (matchOrder book taker).book.getOrder orderId = none := by
  rw [matchOrder_book wellFormed, Option.eq_none_iff_forall_ne_some]
  intro order found
  obtain ⟨before, quantity, stored, -⟩ := OrderBook.getOrder_of_takeOut found
  rw [missing] at stored
  cases stored

/-! ## New orders -/

section NewOrder

variable {order : NewOrder} {price : Decimal128}

/-- What is left of a new order of a limit type fits on the book. -/
theorem resting_newOrder {book : OrderBook} {config : SymbolConfig} {markPrice : Decimal128}
    (wellFormed : book.WellFormed) (positive : 0 < order.quantity) (shows : ShowsPart order)
    (accepted : icebergAccepted config order = true)
    (unconditional : order.orderType.isConditional = false)
    (limited : order.orderType.isLimit = true) (timestamp : UnixMicros)
    (left : (refillIceberg timestamp (matchOrder book
      (newBookOrder markPrice order price)).taker).remainingQty ≠ 0) :
    Resting
      (refillIceberg timestamp (matchOrder book (newBookOrder markPrice order price)).taker) := by
  have bounds := splitQuantity_bounds positive shows
  have incoming : 0 ≤ (newBookOrder markPrice order price).remainingQty := bounds.1.le
  have remaining := matchOrder_taker_nonneg wellFormed incoming
  rw [matchOrder_taker wellFormed] at left remaining ⊢
  refine resting_refilled timestamp ?_ bounds.2 remaining ?_
    (newBookOrder_expiry order markPrice price) left
  · cases kind : order.orderType <;>
      simp_all [newBookOrder, splitQuantity, OrderType.isLimit, OrderType.isConditional]
  · intro iceberg
    have kind : order.orderType = .iceberg := iceberg
    rw [icebergAccepted, if_pos kind] at accepted
    obtain ⟨visible, shown, -⟩ := (Option.any_eq_true _ _).1 accepted
    change 0 < order.visibleQuantity.getD order.quantity
    rw [shown]
    exact shows kind visible shown

theorem Sound.matchNewOrder (sound : engine.Sound used) {timestamp : UnixMicros}
    (positive : 0 < order.quantity) (shows : ShowsPart order)
    (accepted : icebergAccepted engine.symbolConfig order = true)
    (unconditional : order.orderType.isConditional = false) (fresh : order.orderId ∉ used) :
    (engine.matchNewOrder (newBookOrder engine.markPrice order price) timestamp).1.Sound
      (used ++ [order.orderId]) := by
  have known := sound.mono (List.subset_append_left used [order.orderId])
  have incoming : 0 ≤ (newBookOrder engine.markPrice order price).remainingQty :=
    (splitQuantity_bounds positive shows).1.le
  have matched := known.matchOrder incoming
  rcases engine.matchNewOrder_cases (newBookOrder engine.markPrice order price) timestamp with
    ⟨-, same⟩ | ⟨-, same⟩
  · rw [same]
    exact known
  · rw [same]
    let result := matchOrder engine.orderbook (newBookOrder engine.markPrice order price)
    have takerId : result.taker.orderId = order.orderId :=
      matchOrder_taker_orderId sound.wellFormed
    have takerType : result.taker.orderType = order.orderType :=
      matchOrder_taker_orderType sound.wellFormed
    rcases (engine.absorb result (newBookOrder engine.markPrice order price).symbol
        timestamp).1.placeRemaining_cases (refillIceberg timestamp result.taker) timestamp with
      ⟨-, placed⟩ | ⟨-, -, placed⟩ | ⟨left, limited, -, -, placed⟩
    · simp only [result] at placed
      simp only [placed]
      exact matched
    · simp only [result] at placed
      simp only [placed]
      exact matched
    · simp only [result] at placed
      simp only [placed]
      rw [refillIceberg_orderType, takerType] at limited
      refine OrdersSound.insertOrder matched ?_ ?_ ?_ ?_
      · exact resting_newOrder sound.wellFormed positive shows accepted unconditional limited
          timestamp left
      · rw [refillIceberg_orderId, takerId]
        exact getOrder_matchOrder_of_none sound.wellFormed (sound.missing_of_unused fresh)
      · rw [refillIceberg_orderId, takerId]
        exact sound.notWaiting_of_unused fresh
      · rw [refillIceberg_orderId, takerId]
        exact List.mem_append_right used (List.mem_singleton.2 rfl)

theorem Sound.handleNewOrder (sound : engine.Sound used)
    (shows : icebergAccepted engine.symbolConfig order = true → ShowsPart order)
    (fresh : order.orderId ∉ used) :
    (engine.handleNewOrder order).1.Sound (used ++ [order.orderId]) := by
  have known := sound.mono (List.subset_append_left used [order.orderId])
  rcases engine.handleNewOrder_cases order with
    ⟨reason, same⟩ | ⟨price, positive, missing, -, accepted,
      ⟨conditional, same⟩ | ⟨unconditional, same⟩⟩
  · rw [same]
    exact known
  · rw [same]
    exact known.addStop (newBookOrder_waiting positive conditional) missing
      (sound.notWaiting_of_unused fresh) (List.mem_append_right used (List.mem_singleton.2 rfl))
  · rw [same]
    exact sound.matchNewOrder positive (shows accepted) accepted unconditional fresh

end NewOrder

/-! ## Cancel and amend -/

/-- Taking an order out and putting it back keeps the invariant. -/
theorem Sound.putBack (sound : engine.Sound used) {orderId : OrderId} {order : BookOrder}
    (found : engine.orderbook.getOrder orderId = some order) :
    OrdersSound ((engine.orderbook.removeOrder orderId).insertOrder order) engine.stopOrders
      used := by
  have keyed := sound.wellFormed.toLevels.keyed found
  refine (sound.removeOrder orderId).insertOrder (sound.resting found) ?_ ?_ ?_
  · rw [keyed, OrderBook.getOrder_removeOrder, if_pos rfl]
  · rw [keyed]
    exact sound.notWaiting_of_resting found
  · rw [keyed]
    exact sound.bookUsed found

theorem Sound.handleCancelOrder (sound : engine.Sound used) (orderId : OrderId) (userId : UserId)
    (timestamp : UnixMicros) :
    (engine.handleCancelOrder orderId userId timestamp).1.Sound used := by
  rcases engine.handleCancelOrder_cases orderId userId timestamp with
    ⟨-, -, same⟩ | ⟨order, -, -, same⟩ | ⟨order, found, -, same⟩ | ⟨order, -, -, -, same⟩ |
      ⟨order, -, waiting, -, same⟩
  · rw [same]
    exact sound
  · rw [same]
    exact sound.removeOrder orderId
  · rw [same]
    exact sound.putBack found
  · rw [same]
    exact OrdersSound.sublist sound List.eraseP_sublist
  · rw [same]
    have moved := (List.perm_append_singleton order
      (engine.stopOrders.eraseP fun stop => stop.orderId = orderId)).trans
      (find_cons_eraseP_perm waiting)
    exact OrdersSound.perm sound moved

/-- The amended order, if some of it is left after matching, fits on the book. -/
theorem resting_amended {book : OrderBook} {old : BookOrder} {amend : AmendOrder}
    (wellFormed : book.WellFormed) (resting : Resting old) (valid : ¬AmendInvalid old amend)
    (left : (matchOrder book (amendedOrder old amend)).taker.remainingQty ≠ 0) :
    Resting (matchOrder book (amendedOrder old amend)).taker := by
  rw [AmendInvalid, not_or, not_le, not_le] at valid
  have remaining := matchOrder_taker_nonneg wellFormed valid.1.le
  rw [matchOrder_taker wellFormed] at left remaining ⊢
  exact ⟨lt_of_le_of_ne remaining (Ne.symm left), resting.hidden_nonneg, resting.kind,
    resting.expiry⟩

theorem Sound.reinsertAmended (sound : engine.Sound used) {old : BookOrder} {amend : AmendOrder}
    (found : engine.orderbook.getOrder amend.orderId = some old) :
    (engine.reinsertAmended old amend).1.Sound used := by
  have removed := sound.removeOrder amend.orderId
  have keyed := sound.wellFormed.toLevels.keyed found
  have gone : (engine.orderbook.removeOrder amend.orderId).getOrder amend.orderId = none := by
    rw [OrderBook.getOrder_removeOrder, if_pos rfl]
  rcases engine.reinsertAmended_cases old amend with ⟨reason, -, same⟩ | ⟨valid, -, same⟩
  · rw [same]
    exact removed
  · rw [same]
    have incoming : 0 ≤ (amendedOrder old amend).remainingQty := by
      rw [AmendInvalid, not_or, not_le] at valid
      exact valid.1.le
    have matched := removed.matchOrder incoming
    have takerId : (matchOrder (engine.orderbook.removeOrder amend.orderId)
        (amendedOrder old amend)).taker.orderId = amend.orderId :=
      (matchOrder_taker_orderId removed.wellFormed).trans keyed
    dsimp only
    split
    · exact matched
    · rename_i rests
      rw [not_or] at rests
      refine matched.insertOrder (resting_amended removed.wellFormed (sound.resting found) valid
        rests.1) ?_ ?_ ?_
      · rw [takerId]
        exact getOrder_matchOrder_of_none removed.wellFormed gone
      · rw [takerId]
        exact sound.notWaiting_of_resting found
      · rw [takerId]
        exact sound.bookUsed found

theorem Sound.handleAmendOrder (sound : engine.Sound used) (amend : AmendOrder) :
    (engine.handleAmendOrder amend).1.Sound used := by
  rcases engine.handleAmendOrder_cases amend with
    ⟨reason, -, same⟩ | ⟨existing, found, -,
      ⟨-, same⟩ | ⟨-, same⟩ | ⟨-, quantity, -, positive, -, same⟩⟩
  · rw [same]
    exact sound
  · rw [same]
    exact sound.reinsertAmended found
  · rw [same]
    exact sound
  · rw [same]
    exact sound.updateQty amend.orderId positive

theorem Sound.handleCancelAll (sound : engine.Sound used) (userId : UserId) (symbol : SymbolId)
    (timestamp : UnixMicros) : (engine.handleCancelAll userId symbol timestamp).1.Sound used := by
  have kept := (swapScan_snd_perm (fun stop : BookOrder =>
    decide (stop.userId = userId) && decide (stop.symbol = symbol)) engine.stopOrders)
  exact ((sound.cancelAllUserOrders userId).sublist List.filter_sublist).perm kept

/-! ## Mark price and stops -/

theorem updateTrailingPeak_orderId (mark : Decimal128) (order : BookOrder) :
    (updateTrailingPeak mark order).orderId = order.orderId := by
  obtain ⟨peak, same⟩ := updateTrailingPeak_eq mark order
  rw [same]

theorem Waiting.updateTrailingPeak {order : BookOrder} (waiting : Waiting order)
    (mark : Decimal128) : Waiting (updateTrailingPeak mark order) := by
  obtain ⟨peak, same⟩ := updateTrailingPeak_eq mark order
  rw [same]
  exact ⟨waiting.remaining_pos, waiting.hidden_eq, waiting.conditional, waiting.expiry⟩

theorem Sound.applyMarkIndexPassive (sound : engine.Sound used) (mark index : Decimal128) :
    (engine.applyMarkIndexPassive mark index).Sound used :=
  OrdersSound.mapStops sound (updateTrailingPeak_orderId mark)
    fun _ waiting => Waiting.updateTrailingPeak waiting mark

@[simp]
theorem triggerOne_stopOrders (order : BookOrder) (timestamp : UnixMicros) :
    (engine.triggerOne order timestamp).1.stopOrders = engine.stopOrders := by
  rcases engine.triggerOne_cases order timestamp with
    ⟨-, same⟩ | ⟨-, -, same⟩ | ⟨-, -, -, same⟩ <;> rw [same] <;> rfl

@[simp]
theorem triggerAll_stopOrders (timestamp : UnixMicros) (pending : List BookOrder) :
    (triggerAll timestamp engine pending).1.stopOrders = engine.stopOrders := by
  induction pending generalizing engine with
  | nil => rfl
  | cons order rest inductionHypothesis =>
      rw [triggerAll, inductionHypothesis, triggerOne_stopOrders]

/-- What is left of a triggered limit order fits on the book. -/
theorem resting_triggered {book : OrderBook} {order : BookOrder} (wellFormed : book.WellFormed)
    (waiting : Waiting order)
    (left : (matchOrder book (convertTriggered order)).taker.remainingQty ≠ 0)
    (limited : (matchOrder book (convertTriggered order)).taker.orderType.isLimit = true) :
    Resting (matchOrder book (convertTriggered order)).taker := by
  obtain ⟨-, -, -, quantity, hidden, expire, inForce⟩ := convertTriggered_frame order
  have incoming : 0 ≤ (convertTriggered order).remainingQty := by
    rw [quantity]
    exact waiting.remaining_pos.le
  have remaining := matchOrder_taker_nonneg wellFormed incoming
  rw [matchOrder_taker wellFormed] at left remaining limited ⊢
  refine ⟨lt_of_le_of_ne remaining (Ne.symm left), ?_, Or.inl ⟨?_, ?_⟩, ?_⟩
  · exact (hidden.trans waiting.hidden_eq).ge
  · rcases convertTriggered_kind waiting with limit | market
    · exact limit
    · change (convertTriggered order).orderType.isLimit = true at limited
      rw [market] at limited
      cases limited
  · exact hidden.trans waiting.hidden_eq
  · change (convertTriggered order).expireTime.isSome =
      decide ((convertTriggered order).timeInForce = .gtd)
    rw [expire, inForce]
    exact waiting.expiry

/-- The order under way leaves the waiting orders, and may enter the book. -/
theorem triggerOne_sound {order : BookOrder} {rest : List BookOrder} {timestamp : UnixMicros}
    (sound : OrdersSound engine.orderbook (order :: rest) used) :
    OrdersSound (engine.triggerOne order timestamp).1.orderbook rest used := by
  have waiting := sound.waiting order List.mem_cons_self
  have missing := sound.apart order List.mem_cons_self
  have known := sound.stopsUsed order List.mem_cons_self
  have others := sound.sublist (List.sublist_cons_self order rest)
  obtain ⟨sameId, -, -, quantity, -⟩ := convertTriggered_frame order
  have incoming : 0 ≤ (convertTriggered order).remainingQty := by
    rw [quantity]
    exact waiting.remaining_pos.le
  have matched := others.matchOrder incoming
  have takerId : (matchOrder engine.orderbook (convertTriggered order)).taker.orderId =
      order.orderId := (matchOrder_taker_orderId sound.wellFormed).trans sameId
  rcases engine.triggerOne_cases order timestamp with
    ⟨-, same⟩ | ⟨-, -, same⟩ | ⟨-, left, limited, same⟩
  · rw [same]
    exact others
  · rw [same]
    exact matched
  · rw [same]
    refine matched.insertOrder (resting_triggered sound.wellFormed waiting left limited) ?_ ?_ ?_
    · rw [takerId]
      exact getOrder_matchOrder_of_none sound.wellFormed missing
    · rw [takerId]
      exact (List.nodup_cons.1 sound.stopsNodup).1
    · rw [takerId]
      exact known

private theorem triggerAll_sound {pending kept : List BookOrder} {timestamp : UnixMicros}
    (sound : OrdersSound engine.orderbook (pending ++ kept) used) :
    OrdersSound (triggerAll timestamp engine pending).1.orderbook kept used := by
  induction pending generalizing engine with
  | nil => exact sound
  | cons order rest inductionHypothesis =>
      exact inductionHypothesis (triggerOne_sound sound)

theorem Sound.triggerAndMatchStops (sound : engine.Sound used) (timestamp : UnixMicros) :
    (engine.triggerAndMatchStops timestamp).1.Sound used := by
  have scanned := swapScan_perm (shouldTrigger engine.markPrice) engine.stopOrders
  rw [Sound, MatchingEngine.triggerAndMatchStops, triggerAll_stopOrders]
  exact triggerAll_sound (OrdersSound.perm sound scanned)

/-! ## Expiry, and the step -/

private theorem expireEntries_sound {book : OrderBook} {stops : List BookOrder} {now : UnixMicros}
    {entries : List (UnixMicros × OrderId)} (sound : OrdersSound book stops used) :
    OrdersSound (expireEntries now book entries).1 stops used :=
  expireEntries_keeps (motive := fun reached => OrdersSound reached stops used)
    (fun orderId sound => sound.removeOrder orderId) sound

end MatchingEngine

/-- The id an input introduces. -/
def MatchingEngine.EngineInput.newOrderId? : EngineInput → Option OrderId
  | .command issued => issued.newOrderId?
  | .expirySweep _ => none

/-- The ids a list of inputs introduces. -/
def MatchingEngine.newOrderIds (inputs : List EngineInput) : List OrderId :=
  inputs.filterMap EngineInput.newOrderId?

/-- An iceberg order that the engine accepts shows a positive part. -/
def MatchingEngine.AcceptsShown (engine : MatchingEngine) : EngineInput → Prop
  | .command (.newOrder order) =>
      icebergAccepted engine.symbolConfig order = true → ShowsPart order
  | _ => True

namespace MatchingEngine

variable {engine : MatchingEngine} {used : List OrderId}

theorem Sound.step (sound : engine.Sound used) {input : EngineInput}
    (shows : engine.AcceptsShown input)
    (fresh : ∀ orderId, input.newOrderId? = some orderId → orderId ∉ used) :
    (engine.step input).1.Sound (used ++ input.newOrderId?.toList) := by
  have grows : used ⊆ used ++ input.newOrderId?.toList := List.subset_append_left _ _
  cases input with
  | expirySweep now => exact (expireEntries_sound sound).mono grows
  | command issued =>
      have counted : { engine with sequence := engine.sequence + 1 }.Sound used := sound
      cases issued with
      | newOrder order => exact counted.handleNewOrder shows (fresh order.orderId rfl)
      | cancelOrder orderId userId symbol timestamp =>
          exact (counted.handleCancelOrder orderId userId timestamp).mono grows
      | amendOrder amend => exact (counted.handleAmendOrder amend).mono grows
      | cancelAllOrders userId symbol timestamp =>
          exact (counted.handleCancelAll userId symbol timestamp).mono grows
      | updateMarkPrice symbol mark index timestamp =>
          exact ((counted.applyMarkIndexPassive mark index).triggerAndMatchStops timestamp).mono
            grows
      | computeFunding symbol timestamp => exact counted.mono grows
      | adminCredit userId amount key timestamp => exact counted.mono grows

theorem newOrderIds_concat (before : List EngineInput) (input : EngineInput) :
    newOrderIds (before ++ [input]) = newOrderIds before ++ input.newOrderId?.toList := by
  simp [newOrderIds, List.filterMap_append, List.filterMap_cons]
  cases input.newOrderId? <;> rfl

/-- In a run with distinct ids, the id of the next new order has not been used. -/
theorem fresh_of_nodup {inputs before : List EngineInput} {input : EngineInput}
    (distinct : (newOrderIds inputs).Nodup) (isPrefix : before ++ [input] <+: inputs) :
    ∀ orderId, input.newOrderId? = some orderId → orderId ∉ newOrderIds before := by
  intro orderId introduces member
  obtain ⟨after, rfl⟩ := isPrefix
  rw [newOrderIds, List.filterMap_append, ← newOrderIds, newOrderIds_concat, introduces] at distinct
  have initial := (List.nodup_append.1 distinct).1
  exact (List.nodup_append.1 initial).2.2 orderId member orderId (List.mem_singleton.2 rfl) rfl

/-- The invariant holds throughout a run with distinct ids. -/
theorem sound_run {start : MatchingEngine} (base : start.Sound []) {inputs : List EngineInput}
    (distinct : (newOrderIds inputs).Nodup)
    (shows : StepsMeet step AcceptsShown start inputs) :
    (run step start inputs).1.Sound (newOrderIds inputs) := by
  refine run_induction (motive := fun before engine _ => engine.Sound (newOrderIds before)) step
    start inputs base ?_
  intro before input isPrefix sound
  rw [newOrderIds_concat]
  exact Sound.step sound (shows.of_prefix isPrefix) (fresh_of_nodup distinct isPrefix)

/-- Induction over such a run, with the invariant at hand in every step. -/
theorem sound_run_induction {motive : List EngineInput → MatchingEngine → List Event → Prop}
    {start : MatchingEngine} (soundStart : start.Sound []) {inputs : List EngineInput}
    (distinct : (newOrderIds inputs).Nodup)
    (shows : StepsMeet step AcceptsShown start inputs)
    (base : motive [] start [])
    (preserved : ∀ before input (engine : MatchingEngine) log,
      run step start before = (engine, log) →
      before ++ [input] <+: inputs →
      engine.Sound (newOrderIds before) →
      (∀ orderId, input.newOrderId? = some orderId → orderId ∉ newOrderIds before) →
      motive before engine log →
      motive (before ++ [input]) (engine.step input).1 (log ++ (engine.step input).2)) :
    motive inputs (run step start inputs).1 (run step start inputs).2 := by
  refine run_induction (motive := motive) step start inputs base ?_
  intro before input isPrefix holds
  have earlier : before <+: inputs := (List.prefix_append before [input]).trans isPrefix
  have fewer : (newOrderIds before).Nodup :=
    distinct.sublist (earlier.sublist.filterMap EngineInput.newOrderId?)
  exact preserved before input _ _ rfl isPrefix
    (sound_run soundStart fewer (shows.initial earlier))
    (fresh_of_nodup distinct isPrefix) holds

end MatchingEngine
end Exg
