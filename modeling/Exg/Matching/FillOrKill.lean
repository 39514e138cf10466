import Exg.Matching.IcebergRuns
import Exg.Matching.TimeInForce
import Exg.Matching.Uncrossed

/-!
# Fill or kill

The check before a fill-or-kill match adds up level totals; the match walks single orders.
Both see the same quantity (`fokAvailable_eq`), so an order that passes the check leaves
nothing of itself.
-/

namespace Exg

open Support

namespace MatchingEngine

variable {engine : MatchingEngine} {used : List OrderId}

/-- The taker legs of a match carry the quantities of its fills. -/
theorem takerLegs_emitFillEvents (config : SymbolConfig) (book : OrderBook) (symbol : SymbolId)
    (timestamp : UnixMicros) (taker : BookOrder) (gen : TradeIdGen) (fills : List Fill) :
    (takerLegs (emitFillEvents config book symbol timestamp taker gen fills).2).map
      OrderFilled.fillQty = fills.map Fill.quantity := by
  induction fills generalizing gen with
  | nil => rfl
  | cons fill rest inductionHypothesis =>
      rw [emitFillEvents, takerLegs_append, List.map_append, inductionHypothesis]
      rfl

/-- They add up to what the taker has got. -/
theorem takerLegs_absorb_sum {book : OrderBook} {taker : BookOrder}
    (wellFormed : book.WellFormed) (symbol : SymbolId) (timestamp : UnixMicros) :
    ((takerLegs (engine.absorb (matchOrder book taker) symbol timestamp).2).map
        OrderFilled.fillQty).sum =
      taker.remainingQty - (matchOrder book taker).taker.remainingQty := by
  have stored : ∀ share ∈ matchShares book taker, (book.getOrder share.1).isSome := by
    intro share drawn
    obtain ⟨maker, found, -⟩ := matchShares_stored wellFormed drawn
    simp [found]
  rw [absorb, takerLegs_emitFillEvents, matchOrder_fills wellFormed, fillsOf_quantities stored,
    matchOrder_taker wellFormed, BookOrder.withRemaining_remainingQty, sub_sub_cancel]

private theorem canceledIds_absorb {book : OrderBook} {taker : BookOrder} (symbol : SymbolId)
    (timestamp : UnixMicros) :
    canceledIds (engine.absorb (matchOrder book taker) symbol timestamp).2 = [] := by
  rw [canceledIds, List.filterMap_eq_nil_iff]
  intro event emitted
  obtain ⟨fill, -, tradeId, inFill⟩ := mem_emitFillEvents emitted
  simp only [fillEvents, List.mem_cons, List.not_mem_nil, or_false] at inFill
  rcases inFill with rfl | rfl | rfl <;> rfl

/-- A fill-or-kill order that is admitted has nothing left. -/
theorem filled_of_fok {book : OrderBook} {taker : BookOrder} (wellFormed : book.WellFormed)
    (positive : AllPositive book) (incoming : 0 < taker.remainingQty)
    (fok : taker.timeInForce = .fok) (admitted : (matchOrder book taker).rejected = false) :
    (matchOrder book taker).taker.remainingQty = 0 := by
  by_contra left
  have leftOpen := (taker_left_iff wellFormed positive incoming admitted).1 left
  have refused : Refused book taker := by
    rcases leftOpen with postOnly | short
    · rw [fok] at postOnly
      cases postOnly
    · exact Or.inr ⟨fok, short⟩
  rw [(matchOrder_rejected_iff wellFormed).2 refused] at admitted
  cases admitted

/-- The match of a fill-or-kill order: refused, or filled to the last. -/
theorem matchNewOrder_fok (sound : engine.Sound used) (taker : BookOrder)
    (timestamp : UnixMicros) (incoming : 0 < taker.remainingQty)
    (missing : engine.orderbook.getOrder taker.orderId = none)
    (fok : taker.timeInForce = .fok) (plain : taker.orderType ≠ .iceberg) :
    engine.matchNewOrder taker timestamp =
        (engine, [.orderRejected taker.orderId taker.userId (refusal taker.timeInForce)
          timestamp]) ∨
      ((takerLegs (engine.matchNewOrder taker timestamp).2).map OrderFilled.fillQty).sum =
          taker.remainingQty ∧
        canceledIds (engine.matchNewOrder taker timestamp).2 = [] ∧
        (engine.matchNewOrder taker timestamp).1.orderbook.getOrder taker.orderId = none := by
  have wellFormed := sound.wellFormed
  rcases engine.matchNewOrder_cases taker timestamp with ⟨-, same⟩ | ⟨admitted, same⟩
  · exact Or.inl same
  · right
    have nothing := filled_of_fok wellFormed (OrdersSound.positive sound) incoming fok admitted
    have kind : (matchOrder engine.orderbook taker).taker.orderType ≠ .iceberg := by
      rwa [matchOrder_taker_orderType wellFormed]
    have placed : ∀ absorbed : MatchingEngine, absorbed.placeRemaining
        (refillIceberg timestamp (matchOrder engine.orderbook taker).taker) timestamp =
          (absorbed, []) := by
      intro absorbed
      rw [refillIceberg_of_plain timestamp kind, placeRemaining]
      simp [nothing]
    have total : ((takerLegs (engine.absorb (matchOrder engine.orderbook taker) taker.symbol
        timestamp).2).map OrderFilled.fillQty).sum =
          taker.remainingQty - (matchOrder engine.orderbook taker).taker.remainingQty :=
      takerLegs_absorb_sum wellFormed taker.symbol timestamp
    rw [nothing, sub_zero] at total
    rw [same]
    simp only [placed, List.append_nil, takerLegs_cons_orderAccepted]
    refine ⟨total, ?_, getOrder_matchOrder_of_none wellFormed missing⟩
    exact canceledIds_absorb taker.symbol timestamp

/-- A fill-or-kill limit or market order is refused and changes nothing on the book, or it is
filled to the last and leaves nothing there. -/
theorem fill_or_kill_all_or_nothing (config : SymbolConfig) (ids : Nat → TradeId)
    (interestRate : Decimal128) (inputs : List EngineInput)
    (distinct : (newOrderIds inputs).Nodup) (gateway : ∀ input ∈ inputs, FromGateway input)
    (order : NewOrder) (fok : order.timeInForce = .fok)
    (kind : order.orderType = .limit ∨ order.orderType = .market) :
    let engine := (run step (new config ids interestRate) inputs).1
    let outcome := engine.step (.command (.newOrder order))
    (∃ reason,
      outcome.2 = [.orderRejected order.orderId order.userId reason order.timestamp] ∧
      outcome.1.orderbook = engine.orderbook) ∨
    (((takerLegs outcome.2).filter fun leg => leg.orderId = order.orderId).map
        OrderFilled.fillQty).sum = order.quantity ∧
      order.orderId ∉ canceledIds outcome.2 ∧
      outcome.1.orderbook.getOrder order.orderId = none := by
  intro engine outcome
  have shows : StepsMeet step AcceptsShown (new config ids interestRate) inputs :=
    StepsMeet.of_forall fun _ input member => FromGateway.acceptsShown (gateway input member)
  have sound := sound_run (sound_new config ids interestRate) distinct shows
  let counted : MatchingEngine := { engine with sequence := engine.sequence + 1 }
  have countedSound : counted.Sound (newOrderIds inputs) := sound
  have own : ((takerLegs outcome.2).filter fun leg => leg.orderId = order.orderId) =
      takerLegs outcome.2 := by
    refine List.filter_eq_self.2 fun leg member => decide_eq_true ?_
    have emitted : leg ∈ takerLegs (counted.handleNewOrder order).2 := member
    exact (takerLegs_newOrder emitted).1
  rw [own]
  have plain : order.orderType ≠ .iceberg := by
    rcases kind with limit | market <;> simp_all
  change (∃ reason, (counted.handleNewOrder order).2 = _ ∧
    (counted.handleNewOrder order).1.orderbook = counted.orderbook) ∨ _
  rcases counted.handleNewOrder_cases order with
    ⟨reason, same⟩ | ⟨price, positive, missing, -, -, ⟨conditional, -⟩ | ⟨-, same⟩⟩
  · exact Or.inl ⟨reason, congrArg Prod.snd same, congrArg (·.1.orderbook) same⟩
  · rcases kind with limit | market
    · rw [limit] at conditional
      cases conditional
    · rw [market] at conditional
      cases conditional
  · have whole : (newBookOrder counted.markPrice order price).remainingQty = order.quantity := by
      simp [newBookOrder, splitQuantity, plain]
    rcases matchNewOrder_fok countedSound (newBookOrder counted.markPrice order price)
        order.timestamp (by rwa [whole]) missing fok plain with refused | ⟨total, kept, gone⟩
    · exact Or.inl ⟨_, congrArg Prod.snd (same.trans refused),
        congrArg (·.1.orderbook) (same.trans refused)⟩
    · right
      rw [← same] at total kept gone
      refine ⟨total.trans whole, ?_, gone⟩
      change order.orderId ∉ canceledIds (counted.handleNewOrder order).2
      rw [kept]
      exact List.not_mem_nil

/-- Two asks, and a buy that takes both and has to pay the worse price. -/
def fokSweep : NewOrder :=
  { gatewayOrder 3 9 .buy 103 5 with timeInForce := .fok }

theorem fill_or_kill_all_or_nothing_sweep :
    let inputs : List EngineInput := [.command (.newOrder (gatewayOrder 1 7 .sell 101 2)),
      .command (.newOrder (gatewayOrder 2 8 .sell 103 4))]
    let outcome := (run step (new plainConfig id 0) inputs).1.step (.command (.newOrder fokSweep))
    ((takerLegs outcome.2).map OrderFilled.fillQty).sum = .ofInt 5 ∧
      outcome.1.orderbook.getOrder 3 = none := by
  intro inputs outcome
  have accepted : outcome.2.head?.any Event.isRejected = false := by decide +kernel
  have legs : (takerLegs outcome.2).filter (fun leg => leg.orderId = fokSweep.orderId) =
      takerLegs outcome.2 := by decide +kernel
  rcases fill_or_kill_all_or_nothing plainConfig id 0 inputs (by decide)
      (by simp [inputs, FromGateway, gatewayOrder]) fokSweep rfl (Or.inl rfl) with
    ⟨reason, rejected, -⟩ | ⟨total, -, gone⟩
  · change outcome.2 = _ at rejected
    rw [rejected] at accepted
    cases accepted
  · rw [← legs]
    exact ⟨total, gone⟩

end MatchingEngine
end Exg
