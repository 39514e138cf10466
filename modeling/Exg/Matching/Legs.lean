import Exg.Matching.Inversion
import Exg.Support.Machine

/-!
# The two legs of a trade

The log of an engine has its fills in pairs, one of the maker and one of the taker, on
opposite sides and with the same symbol, price and quantity.  So a measure of fills that
these two cancel is zero over every log.
-/

namespace Exg

open Support

/-- The legs of one trade. -/
structure LegsOf (maker taker : OrderFilled) : Prop where
  opposite : taker.side = maker.side.opposite
  symbol : taker.symbol = maker.symbol
  price : taker.fillPrice = maker.fillPrice
  quantity : taker.fillQty = maker.fillQty

/-- A log whose fills are pairs of legs. -/
inductive Paired : List Event → Prop where
  | nil : Paired []
  | plain {event : Event} {rest : List Event} (unfilled : event.legKey? = none)
      (later : Paired rest) : Paired (event :: rest)
  | trade {maker taker : OrderFilled} {rest : List Event} (legs : LegsOf maker taker)
      (later : Paired rest) : Paired (.orderFilled maker :: .orderFilled taker :: rest)

namespace Paired

variable {first second log : List Event}

theorem append (early : Paired first) (late : Paired second) : Paired (first ++ second) := by
  induction early with
  | nil => exact late
  | plain unfilled _ inductionHypothesis => exact .plain unfilled inductionHypothesis
  | trade legs _ inductionHypothesis => exact .trade legs inductionHypothesis

theorem of_unfilled (unfilled : ∀ event ∈ log, event.legKey? = none) : Paired log := by
  induction log with
  | nil => exact .nil
  | cons event rest inductionHypothesis =>
      refine .plain (unfilled event List.mem_cons_self) (inductionHypothesis fun other member => ?_)
      exact unfilled other (List.mem_cons_of_mem event member)

/-- What the two legs of every trade cancel adds up to nothing. -/
theorem sum_eq_zero {M : Type} [AddCommMonoid M] {measure : Event → M}
    (plain : ∀ event, event.legKey? = none → measure event = 0)
    (cancel : ∀ maker taker, LegsOf maker taker →
      measure (.orderFilled maker) + measure (.orderFilled taker) = 0)
    (paired : Paired log) : (log.map measure).sum = 0 := by
  induction paired with
  | nil => rfl
  | plain unfilled _ inductionHypothesis =>
      rw [List.map_cons, List.sum_cons, plain _ unfilled, inductionHypothesis, add_zero]
  | trade legs _ inductionHypothesis =>
      rw [List.map_cons, List.map_cons, List.sum_cons, List.sum_cons, ← add_assoc, cancel _ _ legs,
        inductionHypothesis, add_zero]

end Paired

namespace MatchingEngine

variable (engine : MatchingEngine)

private theorem paired_absorb (result : MatchResult) (symbol : SymbolId) (timestamp : UnixMicros) :
    Paired (engine.absorb result symbol timestamp).2 := by
  suffices emitted : ∀ gen fills, Paired (emitFillEvents engine.symbolConfig result.book symbol
      timestamp result.taker gen fills).2 from emitted _ _
  intro gen fills
  induction fills generalizing gen with
  | nil => exact .nil
  | cons fill rest inductionHypothesis =>
      rw [emitFillEvents]
      refine Paired.append ?_ (inductionHypothesis _)
      refine .trade ⟨?_, rfl, rfl, rfl⟩ (.plain rfl .nil)
      exact (Side.opposite_opposite fill.takerSide).symm

private theorem paired_matchNewOrder (order : BookOrder) (timestamp : UnixMicros) :
    Paired (engine.matchNewOrder order timestamp).2 := by
  rcases engine.matchNewOrder_cases order timestamp with ⟨-, same⟩ | ⟨-, same⟩
  · rw [same]
    exact .plain rfl .nil
  · rw [same]
    refine .plain rfl ((engine.paired_absorb _ _ _).append ?_)
    rcases placeRemaining_cases _ (refillIceberg timestamp _) timestamp with
      ⟨-, placed⟩ | ⟨-, -, placed⟩ | ⟨-, -, -, -, placed⟩ <;> rw [placed]
    · exact .nil
    · exact .plain rfl .nil
    · exact .nil

private theorem paired_triggerAll (timestamp : UnixMicros) (pending : List BookOrder) :
    Paired (triggerAll timestamp engine pending).2 := by
  induction pending generalizing engine with
  | nil => exact .nil
  | cons order rest inductionHypothesis =>
      have first : Paired (engine.triggerOne order timestamp).2 := by
        rcases engine.triggerOne_cases order timestamp with
          ⟨-, same⟩ | ⟨-, -, same⟩ | ⟨-, -, -, same⟩ <;> rw [same]
        · exact .nil
        · exact engine.paired_absorb _ _ _
        · exact engine.paired_absorb _ _ _
      exact first.append (inductionHypothesis _)

private theorem paired_handleAmendOrder (amend : AmendOrder) :
    Paired (engine.handleAmendOrder amend).2 := by
  rcases engine.handleAmendOrder_cases amend with
    ⟨reason, -, same⟩ | ⟨existing, -, -, ⟨-, same⟩ | ⟨-, same⟩ | ⟨-, quantity, -, -, -, same⟩⟩ <;>
    rw [same]
  · exact .plain rfl .nil
  · rcases engine.reinsertAmended_cases existing amend with
      ⟨reason, -, outcome⟩ | ⟨-, -, outcome⟩ <;> rw [outcome]
    · exact .plain rfl (.plain rfl .nil)
    · exact .plain rfl (.plain rfl (engine.paired_absorb _ _ _))
  · exact .plain rfl .nil
  · exact .plain rfl .nil

theorem paired_step (input : EngineInput) : Paired (engine.step input).2 := by
  cases input with
  | expirySweep now =>
      refine .of_unfilled fun event emitted => ?_
      obtain ⟨orderId, order, rfl⟩ := canceled_of_expireEntries emitted
      rfl
  | command issued =>
      let counted : MatchingEngine := { engine with sequence := engine.sequence + 1 }
      cases issued with
      | newOrder order =>
          change Paired (counted.handleNewOrder order).2
          rcases counted.handleNewOrder_cases order with
            ⟨reason, same⟩ | ⟨price, -, -, -, -, ⟨-, same⟩ | ⟨-, same⟩⟩ <;> rw [same]
          · exact .plain rfl .nil
          · exact .plain rfl .nil
          · exact counted.paired_matchNewOrder _ _
      | cancelOrder orderId userId symbol timestamp =>
          change Paired (counted.handleCancelOrder orderId userId timestamp).2
          rcases counted.handleCancelOrder_cases orderId userId timestamp with
            ⟨-, -, same⟩ | ⟨order, -, -, same⟩ | ⟨order, -, -, same⟩ | ⟨order, -, -, -, same⟩ |
              ⟨order, -, -, -, same⟩ <;> rw [same] <;> exact .plain rfl .nil
      | amendOrder amend => exact counted.paired_handleAmendOrder amend
      | cancelAllOrders userId symbol timestamp =>
          refine .of_unfilled fun event emitted => ?_
          obtain ⟨order, rfl⟩ := canceled_of_handleCancelAll counted emitted
          rfl
      | updateMarkPrice symbol mark index timestamp =>
          exact .plain rfl (paired_triggerAll _ timestamp _)
      | computeFunding symbol timestamp => exact .plain rfl .nil
      | adminCredit userId amount key timestamp => exact .nil

/-- Every log that an engine writes has its fills in pairs. -/
theorem paired_run (start : MatchingEngine) (inputs : List EngineInput) :
    Paired (run step start inputs).2 := by
  induction inputs generalizing start with
  | nil => exact .nil
  | cons input rest inductionHypothesis =>
      exact (start.paired_step input).append (inductionHypothesis _)

end MatchingEngine
end Exg
