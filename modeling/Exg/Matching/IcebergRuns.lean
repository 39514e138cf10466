import Exg.Matching.BookOperations
import Exg.Matching.Iceberg

/-!
# Iceberg orders over runs

Every fill of a step belongs to an order that the step brings before the matcher, so the
laws of a match are laws of the step.  While no maker is used up before it has shown all it
has, an iceberg order that was accepted and not canceled has been filled or is still on the
book with the rest.
-/

namespace Exg

open Support

/-! ## The matches of a step -/

/-- An order before the matcher, with the book it meets. -/
structure Incoming where
  book : OrderBook
  taker : BookOrder

/-- The book before the matcher is sound, and the taker wants something. -/
structure Incoming.Sound (incoming : Incoming) : Prop where
  wellFormed : incoming.book.WellFormed
  positive : AllPositive incoming.book
  wants : 0 < incoming.taker.remainingQty

/-- The makers' legs of a log. -/
def Event.makerShare? : Event → Option (OrderId × Decimal128)
  | .orderFilled filled => if filled.isMaker then some (filled.orderId, filled.fillQty) else none
  | _ => none

def makerShares (events : List Event) : List (OrderId × Decimal128) :=
  events.filterMap Event.makerShare?

/-- The ids of the `OrderCanceled` records. -/
def Event.canceledId? : Event → Option OrderId
  | .orderCanceled orderId _ _ _ _ => some orderId
  | _ => none

def canceledIds (log : List Event) : List OrderId := log.filterMap Event.canceledId?

/-- What the makers of a match give. -/
def Incoming.shares (incoming : Incoming) : List (OrderId × Decimal128) :=
  (matchOrder incoming.book incoming.taker).fills.map fun fill => (fill.makerOrderId, fill.quantity)

instance (order : BookOrder) (amend : AmendOrder) :
    Decidable (MatchingEngine.AmendInvalid order amend) :=
  inferInstanceAs (Decidable (_ ∨ _))

namespace MatchingEngine

/-- The order that a NewOrder brings before the matcher. -/
def newTaker? (engine : MatchingEngine) (order : NewOrder) : Option BookOrder :=
  if 0 < order.quantity ∧ engine.orderbook.getOrder order.orderId = none ∧
      icebergAccepted engine.symbolConfig order = true ∧
      order.orderType.isConditional = false then
    (effectivePrice order).map (newBookOrder engine.markPrice order)
  else
    none

/-- The order that an AmendOrder takes off the book to match it again. -/
def amendedTaker? (engine : MatchingEngine) (amend : AmendOrder) : Option BookOrder :=
  ((engine.orderbook.getOrder amend.orderId).filter fun existing =>
    existing.userId = amend.userId ∧ losesPriority existing amend = true ∧
      ¬AmendInvalid existing amend).map fun existing => amendedOrder existing amend

/-- The triggered orders in turn. -/
def triggerIncoming (timestamp : UnixMicros) : MatchingEngine → List BookOrder → List Incoming
  | _, [] => []
  | engine, order :: rest =>
      ⟨engine.orderbook, convertTriggered order⟩ ::
        triggerIncoming timestamp (engine.triggerOne order timestamp).1 rest

/-- The orders a step brings before the matcher: the new order, the amended one, or every
triggered one. -/
def incoming (engine : MatchingEngine) : EngineInput → List Incoming
  | .command (.newOrder order) =>
      (engine.newTaker? order).toList.map fun taker => ⟨engine.orderbook, taker⟩
  | .command (.amendOrder amend) =>
      (engine.amendedTaker? amend).toList.map fun taker =>
        ⟨engine.orderbook.removeOrder amend.orderId, taker⟩
  | .command (.updateMarkPrice _ mark index timestamp) =>
      let counted := { engine with sequence := engine.sequence + 1 }
      let passive := counted.applyMarkIndexPassive mark index
      let scanned := swapScan (shouldTrigger mark) passive.stopOrders
      triggerIncoming timestamp { passive with stopOrders := scanned.2 } scanned.1
  | _ => []

end MatchingEngine

section MakerShares

@[simp]
theorem makerShares_nil : makerShares [] = [] := rfl

@[simp]
theorem makerShares_append (first second : List Event) :
    makerShares (first ++ second) = makerShares first ++ makerShares second :=
  List.filterMap_append

/-- Only fills have legs. -/
theorem makerShares_cons_of_none {event : Event} (other : event.makerShare? = none)
    (events : List Event) : makerShares (event :: events) = makerShares events :=
  List.filterMap_cons_none other

private theorem makerShares_eq_nil {events : List Event}
    (others : ∀ event ∈ events, event.makerShare? = none) : makerShares events = [] :=
  List.filterMap_eq_nil_iff.2 others

private theorem makerShares_emitFillEvents (config : SymbolConfig) (book : OrderBook)
    (symbol : SymbolId)
    (timestamp : UnixMicros) (taker : BookOrder) (gen : TradeIdGen) (fills : List Fill) :
    makerShares (emitFillEvents config book symbol timestamp taker gen fills).2 =
      fills.map fun fill => (fill.makerOrderId, fill.quantity) := by
  induction fills generalizing gen with
  | nil => rfl
  | cons fill rest inductionHypothesis =>
      rw [emitFillEvents, makerShares_append, inductionHypothesis]
      rfl

end MakerShares

namespace MatchingEngine

variable {engine : MatchingEngine} {used : List OrderId}

private theorem makerShares_absorb (result : MatchResult) (symbol : SymbolId)
    (timestamp : UnixMicros) :
    makerShares (engine.absorb result symbol timestamp).2 =
      result.fills.map fun fill => (fill.makerOrderId, fill.quantity) :=
  makerShares_emitFillEvents _ _ _ _ _ _ _

private theorem makerShares_placeRemaining (order : BookOrder) (timestamp : UnixMicros) :
    makerShares (engine.placeRemaining order timestamp).2 = [] := by
  rcases engine.placeRemaining_cases order timestamp with
    ⟨-, placed⟩ | ⟨-, -, placed⟩ | ⟨-, -, -, -, placed⟩ <;> rw [placed] <;> rfl

/-- A match that was refused has no fills. -/
theorem shares_of_rejected {book : OrderBook} {taker : BookOrder}
    (rejected : (matchOrder book taker).rejected = true) :
    Incoming.shares ⟨book, taker⟩ = [] := by
  rw [Incoming.shares, congrArg Walk.fills (matchOrder_untouched (Or.inl rejected))]
  rfl

private theorem handleNewOrder_of_taker {order : NewOrder} {taker : BookOrder}
    (brings : engine.newTaker? order = some taker) :
    engine.handleNewOrder order = engine.matchNewOrder taker order.timestamp := by
  rw [newTaker?] at brings
  split at brings
  · rename_i passes
    obtain ⟨positive, missing, accepted, unconditional⟩ := passes
    obtain ⟨price, priced, rfl⟩ := Option.map_eq_some_iff.1 brings
    have valid : (order.quantity.isZero || order.quantity.isNegative) = false := by
      simp [Decimal128.isZero, Decimal128.isNegative, positive.ne', positive.le]
    simp [handleNewOrder, valid, missing, priced, accepted, unconditional]
  · cases brings

private theorem shares_newOrder (order : NewOrder) :
    makerShares (engine.handleNewOrder order).2 =
      (engine.incoming (.command (.newOrder order))).flatMap Incoming.shares := by
  rw [incoming]
  cases brings : engine.newTaker? order with
  | some taker =>
      rw [handleNewOrder_of_taker brings, Option.toList_some, List.map_singleton,
        List.flatMap_singleton]
      rcases engine.matchNewOrder_cases taker order.timestamp with
        ⟨rejected, same⟩ | ⟨-, same⟩
      · rw [same, shares_of_rejected rejected]
        rfl
      · rw [same]
        simp only [List.cons_append]
        rw [makerShares_cons_of_none rfl, makerShares_append, makerShares_absorb,
          makerShares_placeRemaining, List.append_nil]
        rfl
  | none =>
      rcases engine.handleNewOrder_cases order with
        ⟨reason, same⟩ | ⟨price, positive, missing, priced, accepted, ⟨-, same⟩ | ⟨plain, same⟩⟩
      · rw [same]
        rfl
      · rw [same]
        rfl
      · rw [newTaker?, if_pos ⟨positive, missing, accepted, plain⟩, priced] at brings
        cases brings

theorem amendedTaker?_of_loses {amend : AmendOrder} {existing : BookOrder}
    (found : engine.orderbook.getOrder amend.orderId = some existing)
    (owner : existing.userId = amend.userId) (loses : losesPriority existing amend = true) :
    engine.amendedTaker? amend =
      if AmendInvalid existing amend then none else some (amendedOrder existing amend) := by
  rw [amendedTaker?, found]
  by_cases invalid : AmendInvalid existing amend
  · simp [Option.filter_some, owner, loses, invalid]
  · simp [Option.filter_some, owner, loses, invalid]

private theorem amendedTaker?_of_keeps {amend : AmendOrder}
    (keeps : ∀ existing, engine.orderbook.getOrder amend.orderId = some existing →
      existing.userId = amend.userId → losesPriority existing amend = false) :
    engine.amendedTaker? amend = none := by
  rw [amendedTaker?, Option.map_eq_none_iff, Option.filter_eq_none_iff]
  intro existing found passes
  obtain ⟨owner, loses, -⟩ := of_decide_eq_true passes
  rw [keeps existing found owner] at loses
  cases loses

/-- An amendment has the fills of the order that it matches again. -/
theorem shares_amendOrder (amend : AmendOrder) :
    makerShares (engine.handleAmendOrder amend).2 =
      (engine.incoming (.command (.amendOrder amend))).flatMap Incoming.shares := by
  rw [incoming]
  rcases engine.handleAmendOrder_cases amend with
    ⟨reason, keeps, same⟩ | ⟨existing, found, owner, rest⟩
  · rw [same, amendedTaker?_of_keeps keeps]
    rfl
  · have keeps : losesPriority existing amend = false → engine.amendedTaker? amend = none := by
      intro keeps
      apply amendedTaker?_of_keeps
      intro other stored _
      obtain rfl := Option.some.inj (found.symm.trans stored)
      exact keeps
    rcases rest with ⟨loses, same⟩ | ⟨stays, same⟩ | ⟨stays, quantity, -, -, -, same⟩
    · rw [same, amendedTaker?_of_loses found owner loses]
      rcases engine.reinsertAmended_cases existing amend with
        ⟨reason, invalid | rejected, outcome⟩ | ⟨valid, -, outcome⟩
      · rw [outcome, if_pos invalid]
        rfl
      · rw [outcome]
        split
        · rfl
        · rw [Option.toList_some, List.map_singleton, List.flatMap_singleton,
            shares_of_rejected rejected]
          rfl
      · rw [outcome, if_neg valid, Option.toList_some, List.map_singleton, List.flatMap_singleton]
        simp only
        rw [makerShares_cons_of_none rfl, makerShares_cons_of_none rfl, makerShares_absorb]
        rfl
    · rw [same, keeps stays]
      rfl
    · rw [same, keeps stays]
      rfl

private theorem shares_triggerAll {pending : List BookOrder} {timestamp : UnixMicros} :
    makerShares (triggerAll timestamp engine pending).2 =
      (triggerIncoming timestamp engine pending).flatMap Incoming.shares := by
  induction pending generalizing engine with
  | nil => rfl
  | cons order rest inductionHypothesis =>
      rw [triggerAll, triggerIncoming, List.flatMap_cons, makerShares_append, inductionHypothesis]
      congr 1
      rcases engine.triggerOne_cases order timestamp with
        ⟨rejected, same⟩ | ⟨-, -, same⟩ | ⟨-, -, -, same⟩
      · rw [same, shares_of_rejected rejected]
        rfl
      · rw [same, makerShares_absorb]
        rfl
      · rw [same, makerShares_absorb]
        rfl

private theorem makerShares_expireEntries {now : UnixMicros} {book : OrderBook}
    {entries : List (UnixMicros × OrderId)} :
    makerShares (expireEntries now book entries).2.2 = [] := by
  apply makerShares_eq_nil
  intro event emitted
  obtain ⟨orderId, order, rfl⟩ := canceled_of_expireEntries emitted
  rfl

/-- Every fill of a step belongs to an order that the step brings before the matcher. -/
theorem shares_step (engine : MatchingEngine) (input : EngineInput) :
    makerShares (engine.step input).2 = (engine.incoming input).flatMap Incoming.shares := by
  cases input with
  | expirySweep now => exact makerShares_expireEntries
  | command issued =>
      let counted : MatchingEngine := { engine with sequence := engine.sequence + 1 }
      cases issued with
      | newOrder order =>
          have shares : makerShares (counted.handleNewOrder order).2 = _ := shares_newOrder order
          exact shares
      | amendOrder amend =>
          have shares : makerShares (counted.handleAmendOrder amend).2 = _ :=
            shares_amendOrder amend
          exact shares
      | updateMarkPrice symbol mark index timestamp =>
          exact shares_triggerAll
      | cancelOrder orderId userId symbol timestamp =>
          change makerShares (counted.handleCancelOrder orderId userId timestamp).2 = []
          rcases counted.handleCancelOrder_cases orderId userId timestamp with
            ⟨-, -, same⟩ | ⟨order, -, -, same⟩ | ⟨order, -, -, same⟩ | ⟨order, -, -, -, same⟩ |
              ⟨order, -, -, -, same⟩ <;>
            rw [same] <;> rfl
      | cancelAllOrders userId symbol timestamp =>
          change makerShares (counted.handleCancelAll userId symbol timestamp).2 = []
          apply makerShares_eq_nil
          intro event member
          obtain ⟨order, rfl⟩ := counted.canceled_of_handleCancelAll member
          rfl
      | computeFunding symbol timestamp => rfl
      | adminCredit userId amount key timestamp => rfl

/-! ## Matches of a sound engine -/

private theorem triggerIncoming_sound {pending kept : List BookOrder} {timestamp : UnixMicros}
    (sound : OrdersSound engine.orderbook (pending ++ kept) used) :
    ∀ incoming ∈ triggerIncoming timestamp engine pending, incoming.Sound := by
  induction pending generalizing engine with
  | nil => exact fun incoming member => absurd member List.not_mem_nil
  | cons order rest inductionHypothesis =>
      intro incoming member
      rcases List.mem_cons.1 member with rfl | later
      · have waiting := sound.waiting order List.mem_cons_self
        obtain ⟨-, -, -, quantity, -⟩ := convertTriggered_frame order
        exact ⟨sound.wellFormed, sound.positive, quantity ▸ waiting.remaining_pos⟩
      · exact inductionHypothesis (triggerOne_sound sound) incoming later

private theorem incoming_sound (sound : engine.Sound used) {input : EngineInput}
    (shows : engine.AcceptsShown input) : ∀ incoming ∈ engine.incoming input, incoming.Sound := by
  intro incoming member
  cases input with
  | expirySweep now => cases member
  | command issued =>
      cases issued with
      | newOrder order =>
          obtain ⟨taker, brings, rfl⟩ := List.mem_map.1 member
          rw [Option.mem_toList, newTaker?] at brings
          split at brings
          · rename_i passes
            obtain ⟨positive, -, accepted, -⟩ := passes
            obtain ⟨price, -, rfl⟩ := Option.map_eq_some_iff.1 brings
            exact ⟨sound.wellFormed, sound.positive,
              (splitQuantity_bounds positive (shows accepted)).1⟩
          · cases brings
      | amendOrder amend =>
          obtain ⟨taker, brings, rfl⟩ := List.mem_map.1 member
          rw [Option.mem_toList, amendedTaker?] at brings
          obtain ⟨existing, kept, rfl⟩ := Option.map_eq_some_iff.1 brings
          obtain ⟨-, -, valid⟩ := of_decide_eq_true (Option.filter_eq_some_iff.1 kept).2
          rw [AmendInvalid, not_or, not_le] at valid
          have removed := sound.removeOrder amend.orderId
          exact ⟨removed.wellFormed, removed.positive, valid.1⟩
      | updateMarkPrice symbol mark index timestamp =>
          let passive := engine.applyMarkIndexPassive mark index
          let scanned := swapScan (shouldTrigger mark) passive.stopOrders
          let scanning : MatchingEngine :=
            { passive with stopOrders := scanned.2, sequence := engine.sequence + 1 }
          have ready : OrdersSound scanning.orderbook (scanned.1 ++ scanned.2) used :=
            OrdersSound.perm (sound.applyMarkIndexPassive mark index) (swapScan_perm _ _)
          exact triggerIncoming_sound ready incoming member
      | cancelOrder | cancelAllOrders | computeFunding | adminCredit => cases member

/-! ## What a step cancels -/

private theorem canceled_cancelAll (sound : engine.Sound used) {userId : UserId} {symbol : SymbolId}
    {timestamp : UnixMicros} {orderId : OrderId} {order : BookOrder}
    (found : engine.orderbook.getOrder orderId = some order) (owner : order.userId = userId) :
    orderId ∈ canceledIds (engine.handleCancelAll userId symbol timestamp).2 := by
  have keyed := sound.wellFormed.toLevels.keyed found
  have listed : orderId ∈ engine.orderbook.getUserOrders userId :=
    sound.wellFormed.toUsers.listed.2 ⟨order, found, owner⟩
  have canceled : order ∈ (engine.orderbook.cancelAllUserOrders userId).2 := by
    rw [sound.wellFormed.cancelAllUserOrders_snd, List.mem_filterMap]
    exact ⟨orderId, listed, found⟩
  rw [handleCancelAll, canceledIds, List.mem_filterMap]
  refine ⟨_, List.mem_append_left _ (List.mem_map.2 ⟨order, canceled, rfl⟩), ?_⟩
  rw [← keyed]
  rfl

private theorem canceled_expireEntries {now : UnixMicros} {book : OrderBook}
    {entries : List (UnixMicros × OrderId)} {entry : UnixMicros × OrderId} {order : BookOrder}
    (due : entry ∈ entries.takeWhile fun entry => decide (entry.1 ≤ now))
    (found : book.getOrder entry.2 = some order) :
    entry.2 ∈ canceledIds (expireEntries now book entries).2.2 := by
  induction entries generalizing book with
  | nil => cases due
  | cons head rest inductionHypothesis =>
      by_cases late : now < head.1
      · rw [List.takeWhile_cons_of_neg (by simpa using late)] at due
        cases due
      · rw [List.takeWhile_cons_of_pos (by simpa using late)] at due
        rw [expireEntries, if_neg late]
        by_cases own : head.2 = entry.2
        · rw [own, found]
          exact List.mem_cons_self
        · have later := (List.mem_cons.1 due).resolve_left fun same =>
            own (congrArg Prod.snd same.symm)
          cases stored : book.getOrder head.2 with
          | none => exact inductionHypothesis later found
          | some other =>
              apply List.mem_cons_of_mem
              apply inductionHypothesis later
              rw [OrderBook.getOrder_removeOrder, if_neg own]
              exact found

/-! ## Steps that use up no slice of a maker -/

/-- No maker of the step is used up while it hides more. -/
def KeepsSlices (engine : MatchingEngine) (input : EngineInput) : Prop :=
  ∀ incoming ∈ engine.incoming input, LosslessMatch incoming.book incoming.taker

private theorem triggersLosslessFor_of_keeps {pending : List BookOrder} {timestamp : UnixMicros}
    {orderId : OrderId} (notWaiting : orderId ∉ pending.map BookOrder.orderId)
    (keeps : ∀ incoming ∈ triggerIncoming timestamp engine pending,
      LosslessMatch incoming.book incoming.taker) :
    TriggersLosslessFor orderId timestamp engine pending := by
  induction pending generalizing engine with
  | nil => trivial
  | cons order rest inductionHypothesis =>
      rw [List.map_cons, List.mem_cons, not_or] at notWaiting
      refine ⟨fun own => absurd own.symm notWaiting.1, keeps _ List.mem_cons_self, ?_⟩
      apply inductionHypothesis notWaiting.2
      exact fun incoming member => keeps incoming (List.mem_cons_of_mem _ member)

/-- When nothing is shown of a new order after its refill, nothing is left of it. -/
theorem openQty_of_nothing_shown {book : OrderBook} (wellFormed : book.WellFormed)
    {config : SymbolConfig} {order : NewOrder} {markPrice price : Decimal128}
    (positive : 0 < order.quantity) (shows : ShowsPart order)
    (accepted : icebergAccepted config order = true) {timestamp : UnixMicros}
    (nothing : (refillIceberg timestamp
      (matchOrder book (newBookOrder markPrice order price)).taker).remainingQty = 0) :
    (matchOrder book (newBookOrder markPrice order price)).taker.openQty = 0 := by
  have bounds := splitQuantity_bounds positive shows
  rw [← refillIceberg_openQty timestamp, BookOrder.openQty, nothing, zero_add]
  apply hidden_of_nothing_shown _ _ _ nothing
  · rw [matchOrder_taker_eq wellFormed]
    exact bounds.2
  · intro plain
    rw [matchOrder_taker_eq wellFormed] at plain ⊢
    exact congrArg Prod.snd (splitQuantity_of_plain plain)
  · intro iceberg
    rw [matchOrder_taker_eq wellFormed] at iceberg ⊢
    obtain ⟨visible, shown⟩ := visible_of_iceberg accepted iceberg
    change 0 < order.visibleQuantity.getD order.quantity
    rw [shown]
    exact shows iceberg visible shown

/-- A new order that is admitted and not canceled has reported all that it leaves. -/
theorem reportsLeftover_of_uncanceled (sound : engine.Sound used) {order : NewOrder}
    {price : Decimal128} (positive : 0 < order.quantity) (shows : ShowsPart order)
    (accepted : icebergAccepted engine.symbolConfig order = true)
    (admitted : ¬Refused engine.orderbook (newBookOrder engine.markPrice order price))
    (uncanceled : order.orderId ∉ canceledIds
      (engine.matchNewOrder (newBookOrder engine.markPrice order price) order.timestamp).2) :
    ReportsLeftover engine.orderbook order (newBookOrder engine.markPrice order price) := by
  intro immediate
  left
  by_contra hides
  let taker := newBookOrder engine.markPrice order price
  let result := matchOrder engine.orderbook taker
  have bounds := splitQuantity_bounds positive shows
  have incoming : 0 ≤ taker.remainingQty := bounds.1.le
  have final : result.taker = taker.withRemaining result.taker.remainingQty :=
    matchOrder_taker_eq sound.wellFormed
  rcases engine.matchNewOrder_cases taker order.timestamp with ⟨rejected, -⟩ | ⟨-, outcome⟩
  · exact admitted ((matchOrder_rejected_iff sound.wellFormed).1 rejected)
  · rw [outcome] at uncanceled
    have sameForce : (refillIceberg order.timestamp result.taker).timeInForce =
        order.timeInForce := by
      rw [refillIceberg_timeInForce, final]
      rfl
    rcases (engine.absorb result taker.symbol order.timestamp).1.placeRemaining_cases
        (refillIceberg order.timestamp result.taker) order.timestamp with
      ⟨filled, -⟩ | ⟨-, -, placed⟩ | ⟨-, -, notIoc, notFok, -⟩
    · -- What an iceberg order hides is shown before nothing of it is left.
      have left : 0 ≤ result.taker.remainingQty :=
        matchOrder_taker_nonneg sound.wellFormed incoming
      have stillOpen : (refillIceberg order.timestamp result.taker).openQty ≠ 0 := by
        rw [refillIceberg_openQty, final]
        exact (add_pos_of_nonneg_of_pos left (lt_of_le_of_ne bounds.2 (Ne.symm hides))).ne'
      apply stillOpen
      rw [refillIceberg_openQty]
      exact openQty_of_nothing_shown sound.wellFormed positive shows accepted filled
    · apply uncanceled
      have own : (refillIceberg order.timestamp result.taker).orderId = order.orderId := by
        rw [refillIceberg_orderId, final]
        rfl
      have last := congrArg (fun outcome => canceledIds outcome.2) placed
      simp only at last
      rw [canceledIds, List.filterMap_append]
      apply List.mem_append_right
      rw [← canceledIds, last, ← own]
      exact List.mem_singleton_self _
    · rw [sameForce] at notIoc notFok
      exact immediate.elim notIoc notFok

private theorem losslessFor_newOrder (sound : engine.Sound used) {order : NewOrder}
    (shows : engine.AcceptsShown (.command (.newOrder order)))
    (keeps : engine.KeepsSlices (.command (.newOrder order))) {orderId : OrderId}
    (uncanceled : orderId ∉ canceledIds (engine.step (.command (.newOrder order))).2) :
    engine.LosslessFor orderId (.command (.newOrder order)) := by
  let counted : MatchingEngine := { engine with sequence := engine.sequence + 1 }
  intro accepted
  refine ⟨shows accepted, fun price positive missing priced plain => ?_⟩
  have brings : counted.newTaker? order =
      some (newBookOrder engine.markPrice order price) := by
    rw [newTaker?, if_pos ⟨positive, missing, accepted, plain⟩, priced]
    rfl
  have losslessMatch := keeps _ (List.mem_map.2 ⟨_, Option.mem_toList.2 brings, rfl⟩)
  rw [or_iff_not_imp_left]
  refine fun admitted => ⟨losslessMatch, ?_⟩
  rintro rfl
  have handled : (engine.step (.command (.newOrder order))).2 =
      (counted.matchNewOrder (newBookOrder engine.markPrice order price)
        order.timestamp).2 := congrArg Prod.snd (handleNewOrder_of_taker brings)
  rw [handled] at uncanceled
  have soundCounted : counted.Sound used := sound
  exact reportsLeftover_of_uncanceled soundCounted positive (shows accepted) accepted
    admitted uncanceled

/-- A cancel by the owner reports the order as canceled. -/
theorem losslessFor_cancelOrder {canceledId : OrderId} {userId : UserId} {symbol : SymbolId}
    {timestamp : UnixMicros} {orderId : OrderId}
    (uncanceled : orderId ∉
      canceledIds (engine.step (.command (.cancelOrder canceledId userId symbol timestamp))).2) :
    engine.LosslessFor orderId (.command (.cancelOrder canceledId userId symbol timestamp)) := by
  let counted : MatchingEngine := { engine with sequence := engine.sequence + 1 }
  rintro rfl order found owner
  have handled : (engine.step (.command (.cancelOrder canceledId userId symbol timestamp))).2 =
      [.orderCanceled canceledId userId order.symbol order.remainingQty timestamp] := by
    change (counted.handleCancelOrder canceledId userId timestamp).2 = _
    have stored : counted.orderbook.getOrder canceledId = some order := found
    simp [handleCancelOrder, stored, owner]
  rw [handled] at uncanceled
  exact absurd List.mem_cons_self uncanceled

/-- An amendment that puts the order back reports it as canceled first. -/
theorem losslessFor_amendOrder {amend : AmendOrder}
    (keeps : engine.KeepsSlices (.command (.amendOrder amend))) {orderId : OrderId}
    (uncanceled : orderId ∉ canceledIds (engine.step (.command (.amendOrder amend))).2) :
    engine.LosslessFor orderId (.command (.amendOrder amend)) := by
  let counted : MatchingEngine := { engine with sequence := engine.sequence + 1 }
  intro existing found owner loses
  constructor
  · rintro rfl
    exfalso
    apply uncanceled
    have handled : (engine.step (.command (.amendOrder amend))).2 =
        (counted.reinsertAmended existing amend).2 := by
      change (counted.handleAmendOrder amend).2 = _
      have stored : counted.orderbook.getOrder amend.orderId = some existing := found
      simp [handleAmendOrder, stored, owner, loses]
    rw [handled]
    rcases counted.reinsertAmended_cases existing amend with ⟨reason, -, same⟩ | ⟨-, -, same⟩
    · rw [same]
      exact List.mem_cons_self
    · rw [same]
      exact List.mem_cons_self
  · intro valid
    apply keeps ⟨engine.orderbook.removeOrder amend.orderId, amendedOrder existing amend⟩
    apply List.mem_map.2
    refine ⟨amendedOrder existing amend, ?_, rfl⟩
    rw [amendedTaker?_of_loses found owner loses, if_neg valid]
    exact List.mem_singleton_self _

private theorem losslessFor_updateMarkPrice {symbol : SymbolId} {mark index : Decimal128}
    {timestamp : UnixMicros}
    (keeps : engine.KeepsSlices (.command (.updateMarkPrice symbol mark index timestamp)))
    {orderId : OrderId} (notWaiting : orderId ∉ engine.stopOrders.map BookOrder.orderId) :
    engine.LosslessFor orderId (.command (.updateMarkPrice symbol mark index timestamp)) := by
  apply triggersLosslessFor_of_keeps _ keeps
  intro waiting
  apply notWaiting
  obtain ⟨order, member, rfl⟩ := List.mem_map.1 waiting
  have scanned := (swapScan_perm _ _).subset (List.mem_append_left _ member)
  obtain ⟨stop, stored, rfl⟩ := List.mem_map.1 scanned
  rw [updateTrailingPeak_orderId]
  exact List.mem_map_of_mem stored

/-- Such a step loses nothing of an order that neither waits nor is canceled. -/
theorem losslessFor_of_keeps (sound : engine.Sound used) {input : EngineInput}
    (shows : engine.AcceptsShown input) (keeps : engine.KeepsSlices input) {orderId : OrderId}
    (notWaiting : orderId ∉ engine.stopOrders.map BookOrder.orderId)
    (uncanceled : orderId ∉ canceledIds (engine.step input).2) :
    engine.LosslessFor orderId input := by
  cases input with
  | expirySweep now =>
      rintro entry due rfl order found
      exact absurd (canceled_expireEntries due found) uncanceled
  | command issued =>
      cases issued with
      | newOrder order => exact losslessFor_newOrder sound shows keeps uncanceled
      | cancelOrder canceledId userId symbol timestamp =>
          exact losslessFor_cancelOrder uncanceled
      | amendOrder amend => exact losslessFor_amendOrder keeps uncanceled
      | cancelAllOrders userId symbol timestamp =>
          intro order found owner
          let counted : MatchingEngine := { engine with sequence := engine.sequence + 1 }
          have soundCounted : counted.Sound used := sound
          exact absurd (canceled_cancelAll soundCounted found owner) uncanceled
      | updateMarkPrice symbol mark index timestamp =>
          exact losslessFor_updateMarkPrice keeps notWaiting
      | computeFunding symbol timestamp => trivial
      | adminCredit userId amount key timestamp => trivial

/-! ## Runs -/

/-- The log accepts the order under no conditional type. -/
def AcceptedPlainly (orderId : OrderId) (log : List Event) : Prop :=
  ∀ accepted, Event.orderAccepted accepted ∈ log → accepted.orderId = orderId →
    accepted.orderType.isConditional = false

/-- What holds after every run in which no maker is used up while it hides more: each
waiting order was accepted as a conditional one, and what was accepted once under another
type and not canceled balances. -/
structure SlicesKept (before : List EngineInput) (engine : MatchingEngine) (log : List Event) :
    Prop where
  known : ∃ known, engine.Sound known ∧ known ⊆ newOrderIds before ∧ known ⊆ acceptedIds log
  waiting : ∀ stop ∈ engine.stopOrders, ∃ accepted, Event.orderAccepted accepted ∈ log ∧
    accepted.orderId = stop.orderId ∧ accepted.orderType.isConditional = true
  balanced : ∀ orderId, (acceptedIds log).count orderId ≤ 1 → orderId ∉ canceledIds log →
    AcceptedPlainly orderId log → Balanced orderId 0 log (liveQty engine orderId)

theorem SlicesKept.step {before : List EngineInput} {log : List Event}
    (kept : SlicesKept before engine log) {input : EngineInput}
    (shows : engine.AcceptsShown input) (keeps : engine.KeepsSlices input)
    (fresh : ∀ orderId, input.newOrderId? = some orderId → orderId ∉ newOrderIds before) :
    SlicesKept (before ++ [input]) (engine.step input).1 (log ++ (engine.step input).2) := by
  constructor
  · exact known_step kept.known shows fresh
  · intro stop waits
    rcases engine.mem_stopOrders_step input waits with
      ⟨old, before, ⟨-, rfl⟩ | ⟨mark, -, rfl, -⟩⟩ | ⟨order, price, -, conditional, rfl, emitted⟩
    · obtain ⟨accepted, logged, sameId⟩ := kept.waiting _ before
      exact ⟨accepted, List.mem_append_left _ logged, sameId⟩
    · obtain ⟨accepted, logged, sameId⟩ := kept.waiting old before
      rw [updateTrailingPeak_orderId]
      exact ⟨accepted, List.mem_append_left _ logged, sameId⟩
    · exact ⟨_, List.mem_append_right _ emitted, rfl, conditional⟩
  · intro orderId once uncanceled plain
    obtain ⟨known, sound, -, accepted⟩ := kept.known
    rw [canceledIds, List.filterMap_append, List.mem_append, not_or] at uncanceled
    have plainBefore : AcceptedPlainly orderId log :=
      fun accepted logged => plain accepted (List.mem_append_left _ logged)
    have notWaiting : orderId ∉ engine.stopOrders.map BookOrder.orderId := by
      intro waits
      obtain ⟨stop, member, rfl⟩ := List.mem_map.1 waits
      obtain ⟨accepted, logged, sameId, conditional⟩ := kept.waiting stop member
      rw [plainBefore accepted logged sameId] at conditional
      cases conditional
    apply balanced_concat sound accepted
      (losslessFor_of_keeps sound shows keeps notWaiting uncanceled.2) once
    apply kept.balanced orderId _ uncanceled.1 plainBefore
    rw [acceptedIds_append, List.count_append] at once
    omega

/-- An order accepted once was accepted with the quantity of that record. -/
theorem acceptedQty_of_once {log : List Event} {accepted : OrderAccepted}
    (logged : Event.orderAccepted accepted ∈ log)
    (once : (acceptedIds log).count accepted.orderId = 1) :
    acceptedQty accepted.orderId log = accepted.quantity ∧
      ∀ other, Event.orderAccepted other ∈ log → other.orderId = accepted.orderId →
        other = accepted := by
  obtain ⟨ahead, behind, rfl⟩ := List.append_of_mem logged
  have single : acceptedIds (ahead ++ .orderAccepted accepted :: behind) =
      acceptedIds ahead ++ accepted.orderId :: acceptedIds behind := acceptedIds_append _ _
  rw [single, List.count_append, List.count_cons_self] at once
  have absent : ∀ part, (acceptedIds part).count accepted.orderId = 0 →
      ∀ other, Event.orderAccepted other ∈ part → other.orderId ≠ accepted.orderId := by
    intro part none other member sameId
    have listed : accepted.orderId ∈ acceptedIds part :=
      List.mem_filterMap.2 ⟨_, member, congrArg some sameId⟩
    exact List.count_eq_zero.1 none listed
  have nothing : ∀ part, (acceptedIds part).count accepted.orderId = 0 →
      acceptedQty accepted.orderId part = 0 := by
    intro part none
    rw [acceptedQty]
    apply List.sum_eq_zero
    intro quantity member
    obtain ⟨event, inside, rfl⟩ := List.mem_map.1 member
    cases event with
    | orderAccepted other => exact if_neg (absent part none other inside)
    | _ => rfl
  have early : (acceptedIds ahead).count accepted.orderId = 0 := by omega
  have late : (acceptedIds behind).count accepted.orderId = 0 := by omega
  constructor
  · have whole : acceptedQty accepted.orderId (ahead ++ .orderAccepted accepted :: behind) =
        acceptedQty accepted.orderId ahead +
          (accepted.quantity + acceptedQty accepted.orderId behind) := by
      simp [acceptedQty, Event.acceptedQtyOf]
    rw [whole, nothing ahead early, nothing behind late, zero_add, add_zero]
  · intro other member sameId
    rcases List.mem_append.1 member with before | after
    · exact absurd sameId (absent ahead early other before)
    · rcases List.mem_cons.1 after with same | later
      · exact Event.orderAccepted.inj same
      · exact absurd sameId (absent behind late other later)

/-- In every run, the fills of a step are those of the orders it brings before the matcher.
There the makers are refilled exactly where none has to be, and an iceberg order takes all its
slices exactly where its first one covers what crosses.  In a run in which no maker is used up
while it hides more, an iceberg order that was accepted once and not canceled has been filled
or still stands for the rest. -/
theorem icebergs_execute (config : SymbolConfig) (ids : Nat → TradeId) (interestRate : Decimal128)
    (validLot : 0 < config.lotSize) (inputs : List EngineInput)
    (distinct : (newOrderIds inputs).Nodup) :
    (∀ before input, before ++ [input] <+: inputs →
      let engine := (run step (new config ids interestRate) before).1
      makerShares (engine.step input).2 = (engine.incoming input).flatMap Incoming.shares ∧
        ∀ incoming ∈ engine.incoming input,
          (RefillsMakers incoming.book incoming.taker ↔
            LosslessMatch incoming.book incoming.taker) ∧
          (TakesAllSlices incoming.book incoming.taker ↔
            CoveredBySlice incoming.book incoming.taker)) ∧
      (StepsMeet step KeepsSlices (new config ids interestRate) inputs →
        ∀ before, before <+: inputs →
          let reached := run step (new config ids interestRate) before
          ∀ accepted, Event.orderAccepted accepted ∈ reached.2 → accepted.orderType = .iceberg →
            (acceptedIds reached.2).count accepted.orderId = 1 →
            accepted.orderId ∉ canceledIds reached.2 →
              accepted.quantity = filledQty accepted.orderId reached.2 +
                canceledQty accepted.orderId reached.2 +
                liveQty reached.1 accepted.orderId) := by
  have shows := acceptsShown_run validLot ids interestRate inputs
  have fewer : ∀ before, before <+: inputs → (newOrderIds before).Nodup :=
    fun before isPrefix => distinct.sublist (isPrefix.sublist.filterMap EngineInput.newOrderId?)
  constructor
  · intro before input isPrefix engine
    have earlier := (List.prefix_append before [input]).trans isPrefix
    have sound : engine.Sound (newOrderIds before) :=
      sound_run (sound_new config ids interestRate) (fewer before earlier) (shows.initial earlier)
    refine ⟨shares_step engine input, fun incoming brought => ?_⟩
    have ready := incoming_sound sound (shows.of_prefix isPrefix) incoming brought
    exact ⟨refillsMakers_iff ready.wellFormed ready.positive ready.wants.le,
      takesAllSlices_iff ready.wellFormed ready.positive ready.wants.le⟩
  · intro keeps before isPrefix reached accepted logged iceberg once uncanceled
    have kept : SlicesKept before reached.1 reached.2 := by
      apply run_induction (motive := SlicesKept) step (new config ids interestRate) before
      · have unknown := sound_new config ids interestRate
        refine ⟨⟨[], unknown, List.nil_subset _, List.nil_subset _⟩, ?_, ?_⟩
        · exact fun stop waits => absurd waits List.not_mem_nil
        · exact fun orderId _ _ _ => balanced_new config ids interestRate orderId
      · intro earlier input earlierPrefix holds
        have inside := earlierPrefix.trans isPrefix
        exact holds.step (shows.of_prefix inside) (keeps.of_prefix inside)
          (fresh_of_nodup distinct inside)
    obtain ⟨quantity, only⟩ := acceptedQty_of_once logged once
    have plain : AcceptedPlainly accepted.orderId reached.2 := by
      intro other member sameId
      rw [only other member sameId, iceberg]
      rfl
    have balanced := kept.balanced accepted.orderId once.le uncanceled plain
    rwa [Balanced, add_zero, quantity] at balanced

/-- An iceberg order over ten lots. -/
def icebergOrder (orderId : OrderId) (userId : UserId) (side : Side) (price quantity : Int) :
    NewOrder :=
  { gatewayOrder orderId userId side price quantity with
    orderType := .iceberg
    visibleQuantity := some (.ofInt 10) }

/-- A taker that takes half of the slice shown. -/
def halfSliceInputs : List EngineInput :=
  [.command (.newOrder (icebergOrder 1 7 .sell 100 30)),
    .command (.newOrder (gatewayOrder 2 8 .buy 100 5))]

theorem icebergs_execute_halfSlice :
    let reached := run step (new plainConfig id 0) halfSliceInputs
    filledQty 1 reached.2 + canceledQty 1 reached.2 + liveQty reached.1 1 = .ofInt 30 := by
  have keeps : StepsMeet step KeepsSlices (new plainConfig id 0) halfSliceInputs := by
    have spared : StepsMeet step (fun engine input => ∀ incoming ∈ engine.incoming input,
        ¬ExhaustsHidden incoming.book incoming.taker) (new plainConfig id 0) halfSliceInputs := by
      decide +kernel
    exact spared.mono fun engine input spares incoming brought =>
      Or.inr (Or.inr (spares incoming brought))
  have executed := (icebergs_execute plainConfig id 0 (by decide) halfSliceInputs (by decide)).2
    keeps halfSliceInputs (List.prefix_refl _)
    (acceptedOf (newBookOrder 0 (icebergOrder 1 7 .sell 100 30) (.ofInt 100)) 1 0)
    (by decide +kernel) rfl (by decide +kernel) (by decide +kernel)
  exact executed.symm

/-- A taker that takes exactly the slice shown. -/
def wholeSliceInputs : List EngineInput :=
  [.command (.newOrder (icebergOrder 1 7 .sell 100 30)),
    .command (.newOrder (gatewayOrder 2 8 .buy 100 10))]

/-- The twenty that the order hides are gone from the book, neither filled nor canceled. -/
theorem iceberg_loses_hidden :
    ¬∀ (config : SymbolConfig) (ids : Nat → TradeId) (interestRate : Decimal128)
      (inputs : List EngineInput), 0 < config.lotSize → (newOrderIds inputs).Nodup →
      let reached := run step (new config ids interestRate) inputs
      ∀ accepted, Event.orderAccepted accepted ∈ reached.2 → accepted.orderType = .iceberg →
        (acceptedIds reached.2).count accepted.orderId = 1 →
        accepted.orderId ∉ canceledIds reached.2 →
          accepted.quantity = filledQty accepted.orderId reached.2 +
            canceledQty accepted.orderId reached.2 + liveQty reached.1 accepted.orderId := by
  intro executed
  have claimed := executed plainConfig id 0 wholeSliceInputs (by decide) (by decide)
    (acceptedOf (newBookOrder 0 (icebergOrder 1 7 .sell 100 30) (.ofInt 100)) 1 0)
    (by decide +kernel) rfl (by decide +kernel) (by decide +kernel)
  revert claimed
  decide +kernel

end MatchingEngine
end Exg
