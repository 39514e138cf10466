import Exg.Clearing.CheckedPostTrade
import Exg.Clearing.ZeroSum
import Exg.Matching.CheckedCommands
import Exg.Risk.CheckedMargin

/-!
# Profits add up to nothing, unless an operator overflows

Commands go through the engine and each batch of events through the processor, both of which stop
where an operator panics, and so does `update_mark_prices`.  Up to there the profits of all users,
realized and unrealized, add up to nothing but for the truncations.
-/

namespace Exg

open Support
open MatchingEngine (newOrderIds plainConfig gatewayOrder)
open PositionManager (keep realized slack)
open PostTradeProcessor (consume consume? agrees_consume)

/-! ## Deliveries -/

/-- Process a command and consume its events. -/
def deliver? (state : MatchingEngine × PostTradeProcessor) (delivery : Delivery) :
    Option (Except ClearingPanic (MatchingEngine × PostTradeProcessor)) := do
  let next ← state.1.processAnyCommand? delivery.command
  thenOk (consume? delivery.order delivery.timestamp state.2 next.2) fun consumed =>
    some (.ok (next.1, consumed.1))

/-- One round of `feed`. -/
def deliver (state : MatchingEngine × PostTradeProcessor) (delivery : Delivery) :
    Except ClearingPanic (MatchingEngine × PostTradeProcessor) :=
  let next := state.1.processCommand delivery.command
  match consume delivery.order delivery.timestamp state.2 next.2 with
  | .error panic => .error panic
  | .ok (consumed, _) => .ok (next.1, consumed)

private theorem follow_deliver (engine : MatchingEngine) (processor : PostTradeProcessor)
    (deliveries : List Delivery) :
    follow deliver (engine, processor) deliveries = feed engine processor deliveries := by
  induction deliveries generalizing engine processor with
  | nil => rfl
  | cons delivery rest inductionHypothesis =>
      rw [follow, feed, deliver]
      cases consume delivery.order delivery.timestamp processor
          (engine.processCommand delivery.command).2 with
      | error panic => rfl
      | ok consumed => exact inductionHypothesis _ _

private theorem agrees_deliver (state : MatchingEngine × PostTradeProcessor) (delivery : Delivery) :
    Agrees (deliver? state delivery) (deliver state delivery) := by
  refine (state.1.agrees_processCommand delivery.command).bind ?_
  refine agrees_thenOk (agrees_consume _ _ _ _) (fun panic failed => ?_) fun consumed outcome => ?_
  · rw [deliver, failed]
  · rw [deliver, outcome]
    exact .pure _

/-! ## Mark prices -/

namespace PositionManager

/-- `update_mark_prices`. -/
def updateMarkPrices? (manager : PositionManager)
    (markPrices : Std.ExtTreeMap SymbolId Decimal128) : Option PositionManager := do
  let _ ← manager.positions.toList.mapM fun entry =>
    match markPrices[entry.1.2]? with
    | none => some entry.2.unrealizedPnl
    | some markPrice =>
        calcUnrealizedPnl? entry.2.entryPrice markPrice entry.2.size entry.2.side
  some (manager.updateMarkPrices markPrices)

theorem agrees_updateMarkPrices (manager : PositionManager)
    (markPrices : Std.ExtTreeMap SymbolId Decimal128) :
    Agrees (manager.updateMarkPrices? markPrices) (manager.updateMarkPrices markPrices) :=
  .after fun _ => .pure _

end PositionManager

/-! ## The main result -/

/-- Whatever has been traded, the realized profits of all users and, at any mark prices, their
unrealized ones add up to nothing but for the truncations, unless an operator overflows. -/
theorem profits_zero_sum (config : SymbolConfig) (validLot : 0 < config.lotSize)
    (ids : Nat → TradeId) (interestRate : Decimal128) (deliveries : List Delivery)
    (distinct : (newOrderIds (deliveries.map Delivery.input)).Nodup) :
    UnlessOverflow (follow (checked deliver?) (.new config ids interestRate, .new) deliveries)
      fun reached =>
        let kept := run keep .new (deliveredLog (.new config ids interestRate) deliveries)
        reached.2.positions = kept.1 ∧
        ∀ markPrices marked, reached.2.positions.Priced markPrices →
          reached.2.positions.updateMarkPrices? markPrices = some marked →
          |realized kept.2 + marked.unrealized| ≤
            slack kept.2 + reached.2.positions.positions.size • Decimal128.unit := by
  obtain ⟨engine, processor, fed, same⟩ := feed_kept config ids interestRate deliveries
  have offset := offset_of_log (MatchingEngine.sound_new config ids interestRate) validLot distinct
  rw [← follow_deliver] at fed
  refine unlessOverflow_follow agrees_deliver fed ⟨same, fun markPrices marked priced updated => ?_⟩
  rw [PositionManager.agrees_updateMarkPrices _ _ _ updated]
  dsimp only at priced ⊢
  rw [same] at priced ⊢
  exact offset.profits priced

/-- Seven sells three to eight, who then sells five at a lower price. -/
def shortSale : List Delivery :=
  [(.newOrder (gatewayOrder 1 7 .sell 100 3)), (.newOrder (gatewayOrder 2 8 .buy 101 3)),
    (.newOrder (gatewayOrder 3 9 .buy 97 5)), (.newOrder (gatewayOrder 4 8 .sell 96 5))].map
    fun command => ⟨command, 1, .stored⟩

theorem profits_zero_sum_shortSale :
    ∃ reached,
      follow (checked deliver?) (.new plainConfig id 0, .new) shortSale = .ok reached ∧
      let kept := run keep .new (deliveredLog (.new plainConfig id 0) shortSale)
      reached.2.positions = kept.1 ∧
      ∀ markPrices marked, reached.2.positions.Priced markPrices →
        reached.2.positions.updateMarkPrices? markPrices = some marked →
        |realized kept.2 + marked.unrealized| ≤
          slack kept.2 + reached.2.positions.positions.size • Decimal128.unit :=
  (profits_zero_sum plainConfig (by decide) id 0 shortSale (by decide +kernel)).of_isOk
    (by decide +kernel)

end Exg
