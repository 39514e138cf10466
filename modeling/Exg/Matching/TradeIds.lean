import Exg.Matching.Reachable

/-!
# Trade ids

Every fill of a match draws one id from the generator and names it in two legs, one for the
maker and one for the taker.  A maker is never its own taker, so with a generator that repeats
no id no order meets the same trade twice.
-/

namespace Exg

open Support

/-- The legs of a log, by order and trade. -/
def legKeys (log : List Event) : List (OrderId × TradeId) := log.filterMap Event.legKey?

@[simp]
theorem legKeys_nil : legKeys [] = [] := rfl

theorem legKeys_append (first second : List Event) :
    legKeys (first ++ second) = legKeys first ++ legKeys second :=
  List.filterMap_append

theorem legKeys_cons_of_none {event : Event} (other : event.legKey? = none)
    (events : List Event) : legKeys (event :: events) = legKeys events :=
  List.filterMap_cons_none other

private theorem legKeys_eq_nil {events : List Event}
    (others : ∀ event ∈ events, event.legKey? = none) :
    legKeys events = [] :=
  List.filterMap_eq_nil_iff.2 others

/-- The legs carry the ids issued between two states of the generator, and no order meets the
same trade twice unless the generator repeats an id. -/
structure Numbered (before after : TradeIdGen) (events : List Event) : Prop where
  ids : after.ids = before.ids
  issued : before.issued ≤ after.issued
  numbered : ∀ leg ∈ legKeys events,
    ∃ number, before.issued ≤ number ∧ number < after.issued ∧ leg.2 = before.ids number
  nodup : Function.Injective before.ids → (legKeys events).Nodup

namespace Numbered

variable {before middle after : TradeIdGen} {events more : List Event}

theorem of_no_legs (gen : TradeIdGen) (none : legKeys events = []) : Numbered gen gen events where
  ids := rfl
  issued := Nat.le_refl _
  numbered leg member := by
    rw [none] at member
    cases member
  nodup _ := by
    rw [none]
    exact List.nodup_nil

/-- Later legs carry later ids. -/
theorem append (first : Numbered before middle events) (second : Numbered middle after more) :
    Numbered before after (events ++ more) where
  ids := second.ids.trans first.ids
  issued := first.issued.trans second.issued
  numbered leg member := by
    rw [legKeys_append] at member
    rcases List.mem_append.1 member with early | late
    · obtain ⟨number, above, below, same⟩ := first.numbered leg early
      exact ⟨number, above, below.trans_le second.issued, same⟩
    · obtain ⟨number, above, below, same⟩ := second.numbered leg late
      rw [first.ids] at same
      exact ⟨number, first.issued.trans above, below, same⟩
  nodup injective := by
    have injectiveLater : Function.Injective middle.ids := by
      rw [first.ids]
      exact injective
    rw [legKeys_append]
    apply List.Nodup.append (first.nodup injective) (second.nodup injectiveLater)
    intro leg early late
    obtain ⟨number, -, below, same⟩ := first.numbered leg early
    obtain ⟨later, above, -, sameLater⟩ := second.numbered leg late
    rw [first.ids, same] at sameLater
    have equal := injective sameLater
    omega

private theorem cons_of_none {event : Event} (other : event.legKey? = none)
    (numbered : Numbered before after events) : Numbered before after (event :: events) := by
  have single : legKeys [event] = [] := List.filterMap_cons_none other
  exact (of_no_legs before single).append numbered

end Numbered

/-- The orders whose legs a list of fills emits. -/
theorem legKeys_emitFillEvents (config : SymbolConfig) (book : OrderBook) (symbol : SymbolId)
    (timestamp : UnixMicros) (taker : BookOrder) (gen : TradeIdGen) (fills : List Fill) :
    (legKeys (emitFillEvents config book symbol timestamp taker gen fills).2).map Prod.fst =
      fills.flatMap fun fill => [fill.makerOrderId, fill.takerOrderId] := by
  induction fills generalizing gen with
  | nil => rfl
  | cons fill rest inductionHypothesis =>
      rw [emitFillEvents, legKeys_append, List.map_append, inductionHypothesis]
      rfl

private theorem numbered_emitFillEvents (config : SymbolConfig) (book : OrderBook)
    (symbol : SymbolId)
    (timestamp : UnixMicros) (taker : BookOrder) (gen : TradeIdGen) {fills : List Fill}
    (apart : ∀ fill ∈ fills, fill.makerOrderId ≠ fill.takerOrderId) :
    Numbered gen (emitFillEvents config book symbol timestamp taker gen fills).1
      (emitFillEvents config book symbol timestamp taker gen fills).2 := by
  induction fills generalizing gen with
  | nil => exact Numbered.of_no_legs gen rfl
  | cons fill rest inductionHypothesis =>
      have single : Numbered gen gen.nextId.2
          (fillEvents config book symbol timestamp taker gen.nextId.1 fill) := by
        have legs : legKeys (fillEvents config book symbol timestamp taker gen.nextId.1 fill) =
            [(fill.makerOrderId, gen.nextId.1), (fill.takerOrderId, gen.nextId.1)] := rfl
        refine ⟨rfl, Nat.le_succ _, fun leg member => ?_, fun _ => ?_⟩
        · refine ⟨gen.issued, Nat.le_refl _, Nat.lt_succ_self _, ?_⟩
          rw [legs] at member
          simp only [List.mem_cons, List.not_mem_nil, or_false] at member
          rcases member with rfl | rfl <;> rfl
        · rw [legs]
          simp [apart fill List.mem_cons_self]
      exact single.append
        (inductionHypothesis _ fun other member => apart other (List.mem_cons_of_mem fill member))

/-- A maker is stored on the book, so it is not a taker that is not. -/
theorem maker_ne_taker {book : OrderBook} {taker : BookOrder} (wellFormed : book.WellFormed)
    (missing : book.getOrder taker.orderId = none) :
    ∀ fill ∈ (matchOrder book taker).fills,
      fill.takerOrderId = taker.orderId ∧ fill.makerOrderId ≠ taker.orderId := by
  intro fill member
  rw [matchOrder_fills wellFormed] at member
  obtain ⟨share, -, maker, found, rfl⟩ := mem_fillsOf.1 member
  refine ⟨rfl, fun same => ?_⟩
  change share.1 = taker.orderId at same
  rw [same, missing] at found
  cases found

namespace MatchingEngine

variable {engine : MatchingEngine} {used : List OrderId}

private theorem numbered_absorb {book : OrderBook} {taker : BookOrder}
    (wellFormed : book.WellFormed)
    (missing : book.getOrder taker.orderId = none) (symbol : SymbolId) (timestamp : UnixMicros) :
    Numbered engine.tradeIdGen
      (engine.absorb (matchOrder book taker) symbol timestamp).1.tradeIdGen
      (engine.absorb (matchOrder book taker) symbol timestamp).2 := by
  apply numbered_emitFillEvents
  intro fill member
  obtain ⟨own, other⟩ := maker_ne_taker wellFormed missing fill member
  rwa [own]

private theorem legKeys_placeRemaining (order : BookOrder) (timestamp : UnixMicros) :
    (engine.placeRemaining order timestamp).1.tradeIdGen = engine.tradeIdGen ∧
      legKeys (engine.placeRemaining order timestamp).2 = [] := by
  rcases engine.placeRemaining_cases order timestamp with
    ⟨-, placed⟩ | ⟨-, -, placed⟩ | ⟨-, -, -, -, placed⟩ <;> rw [placed] <;> exact ⟨rfl, rfl⟩

private theorem numbered_newOrder (wellFormed : engine.orderbook.WellFormed) (order : NewOrder) :
    Numbered engine.tradeIdGen (engine.handleNewOrder order).1.tradeIdGen
      (engine.handleNewOrder order).2 := by
  rcases engine.handleNewOrder_cases order with
    ⟨reason, same⟩ | ⟨price, -, missing, -, -, ⟨-, same⟩ | ⟨-, same⟩⟩
  · rw [same]
    exact Numbered.of_no_legs _ rfl
  · rw [same]
    exact Numbered.of_no_legs _ rfl
  · rw [same]
    let taker := newBookOrder engine.markPrice order price
    rcases engine.matchNewOrder_cases taker order.timestamp with ⟨-, outcome⟩ | ⟨-, outcome⟩
    · rw [outcome]
      exact Numbered.of_no_legs _ rfl
    · rw [outcome]
      let absorbed := engine.absorb (matchOrder engine.orderbook taker) taker.symbol order.timestamp
      have matched : Numbered engine.tradeIdGen absorbed.1.tradeIdGen absorbed.2 :=
        numbered_absorb wellFormed missing taker.symbol order.timestamp
      obtain ⟨sameGen, noLegs⟩ := absorbed.1.legKeys_placeRemaining
        (refillIceberg order.timestamp (matchOrder engine.orderbook taker).taker) order.timestamp
      apply Numbered.cons_of_none rfl
      apply matched.append
      rw [sameGen]
      exact Numbered.of_no_legs _ noLegs

private theorem numbered_cancelOrder (orderId : OrderId) (userId : UserId)
    (timestamp : UnixMicros) :
    Numbered engine.tradeIdGen (engine.handleCancelOrder orderId userId timestamp).1.tradeIdGen
      (engine.handleCancelOrder orderId userId timestamp).2 := by
  rcases engine.handleCancelOrder_cases orderId userId timestamp with
    ⟨-, -, same⟩ | ⟨order, -, -, same⟩ | ⟨order, -, -, same⟩ | ⟨order, -, -, -, same⟩ |
      ⟨order, -, -, -, same⟩ <;>
    rw [same] <;> exact Numbered.of_no_legs _ rfl

private theorem numbered_amendOrder (wellFormed : engine.orderbook.WellFormed)
    (amend : AmendOrder) :
    Numbered engine.tradeIdGen (engine.handleAmendOrder amend).1.tradeIdGen
      (engine.handleAmendOrder amend).2 := by
  rcases engine.handleAmendOrder_cases amend with
    ⟨reason, -, same⟩ | ⟨existing, found, -, ⟨-, same⟩ | ⟨-, same⟩ | ⟨-, quantity, -, -, -, same⟩⟩
  · rw [same]
    exact Numbered.of_no_legs _ rfl
  · rw [same]
    rcases engine.reinsertAmended_cases existing amend with ⟨reason, -, taken⟩ | ⟨-, -, taken⟩
    · rw [taken]
      exact Numbered.of_no_legs _ rfl
    · rw [taken]
      have missing : (engine.orderbook.removeOrder amend.orderId).getOrder
          (amendedOrder existing amend).orderId = none := by
        have keyed : existing.orderId = amend.orderId := wellFormed.toLevels.keyed found
        rw [OrderBook.getOrder_removeOrder]
        exact if_pos keyed.symm
      have matched : Numbered engine.tradeIdGen (engine.absorb (matchOrder
          (engine.orderbook.removeOrder amend.orderId) (amendedOrder existing amend)) amend.symbol
          amend.timestamp).1.tradeIdGen (engine.absorb (matchOrder
          (engine.orderbook.removeOrder amend.orderId) (amendedOrder existing amend)) amend.symbol
          amend.timestamp).2 :=
        numbered_absorb (OrderBook.WellFormed.removeOrder wellFormed amend.orderId) missing
          amend.symbol amend.timestamp
      dsimp only
      split
      · exact Numbered.cons_of_none rfl (Numbered.cons_of_none rfl matched)
      · exact Numbered.cons_of_none rfl (Numbered.cons_of_none rfl matched)
  · rw [same]
    exact Numbered.of_no_legs _ rfl
  · rw [same]
    exact Numbered.of_no_legs _ rfl

private theorem numbered_triggerOne {order : BookOrder} {rest : List BookOrder}
    (timestamp : UnixMicros) (sound : OrdersSound engine.orderbook (order :: rest) used) :
    Numbered engine.tradeIdGen (engine.triggerOne order timestamp).1.tradeIdGen
      (engine.triggerOne order timestamp).2 := by
  have missing : engine.orderbook.getOrder (convertTriggered order).orderId = none := by
    rw [(convertTriggered_frame order).1]
    exact sound.apart order List.mem_cons_self
  let result := matchOrder engine.orderbook (convertTriggered order)
  have matched : Numbered engine.tradeIdGen
      (engine.absorb result result.taker.symbol timestamp).1.tradeIdGen
      (engine.absorb result result.taker.symbol timestamp).2 :=
    numbered_absorb sound.wellFormed missing result.taker.symbol timestamp
  rcases engine.triggerOne_cases order timestamp with
    ⟨-, same⟩ | ⟨-, -, same⟩ | ⟨-, -, -, same⟩
  · rw [same]
    exact Numbered.of_no_legs _ rfl
  · rw [same]
    exact matched
  · rw [same]
    exact matched

private theorem numbered_triggerAll {pending kept : List BookOrder} (timestamp : UnixMicros)
    (sound : OrdersSound engine.orderbook (pending ++ kept) used) :
    Numbered engine.tradeIdGen (triggerAll timestamp engine pending).1.tradeIdGen
      (triggerAll timestamp engine pending).2 := by
  induction pending generalizing engine with
  | nil => exact Numbered.of_no_legs _ rfl
  | cons order rest inductionHypothesis =>
      exact (numbered_triggerOne timestamp sound).append
        (inductionHypothesis (triggerOne_sound sound))

private theorem legKeys_expireEntries (now : UnixMicros) (book : OrderBook)
    (entries : List (UnixMicros × OrderId)) :
    legKeys (expireEntries now book entries).2.2 = [] := by
  apply legKeys_eq_nil
  intro event emitted
  obtain ⟨orderId, order, rfl⟩ := canceled_of_expireEntries emitted
  rfl

/-- The legs of a step carry the trade ids that the step has drawn. -/
theorem numbered_step (sound : engine.Sound used) (input : EngineInput) :
    Numbered engine.tradeIdGen (engine.step input).1.tradeIdGen (engine.step input).2 := by
  cases input with
  | expirySweep now => exact Numbered.of_no_legs _ (legKeys_expireEntries now _ _)
  | command issued =>
      let counted : MatchingEngine := { engine with sequence := engine.sequence + 1 }
      have wellFormed : counted.orderbook.WellFormed := sound.wellFormed
      cases issued with
      | newOrder order => exact numbered_newOrder wellFormed order
      | cancelOrder orderId userId symbol timestamp =>
          exact counted.numbered_cancelOrder orderId userId timestamp
      | amendOrder amend => exact numbered_amendOrder wellFormed amend
      | cancelAllOrders userId symbol timestamp =>
          apply Numbered.of_no_legs
          apply legKeys_eq_nil
          intro event member
          obtain ⟨order, rfl⟩ := counted.canceled_of_handleCancelAll member
          rfl
      | updateMarkPrice symbol mark index timestamp =>
          let passive := engine.applyMarkIndexPassive mark index
          let scanned := swapScan (shouldTrigger mark) passive.stopOrders
          let scanning : MatchingEngine :=
            { passive with stopOrders := scanned.2, sequence := engine.sequence + 1 }
          have ready : OrdersSound scanning.orderbook (scanned.1 ++ scanned.2) used :=
            OrdersSound.perm (sound.applyMarkIndexPassive mark index) (swapScan_perm _ _)
          have triggered : Numbered scanning.tradeIdGen
              (triggerAll timestamp scanning scanned.1).1.tradeIdGen
              (triggerAll timestamp scanning scanned.1).2 := numbered_triggerAll timestamp ready
          exact Numbered.cons_of_none rfl triggered
      | computeFunding symbol timestamp => exact Numbered.of_no_legs _ rfl
      | adminCredit userId amount key timestamp => exact Numbered.of_no_legs _ rfl

end MatchingEngine
end Exg
