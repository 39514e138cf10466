import Exg.Clearing.PostTrade
import Exg.Ledger.LedgerInvariant
import Exg.Matching.Inversion

/-!
# Zero net open interest

Every trade reaches clearing as two fill legs of opposite sides and equal quantity.  A
batch of the engine therefore has a signed fill quantity of zero for every symbol, and
`consume` moves the open interest by exactly that quantity.
-/

namespace Exg

/-- The signed quantity by which an event fills a symbol. -/
def Event.signedFill (symbol : SymbolId) : Event → Decimal128
  | .orderFilled filled => if filled.symbol = symbol then filled.side.signed filled.fillQty else 0
  | _ => 0

def signedFills (symbol : SymbolId) (events : List Event) : Decimal128 :=
  (events.map (Event.signedFill symbol)).sum

@[simp]
theorem signedFills_nil (symbol : SymbolId) : signedFills symbol [] = 0 := rfl

@[simp]
theorem signedFills_cons (symbol : SymbolId) (event : Event) (events : List Event) :
    signedFills symbol (event :: events) = event.signedFill symbol + signedFills symbol events := by
  simp [signedFills]

@[simp]
theorem signedFills_append (symbol : SymbolId) (first second : List Event) :
    signedFills symbol (first ++ second) =
      signedFills symbol first + signedFills symbol second := by
  simp [signedFills]

private theorem signedFills_of_forall {symbol : SymbolId} {events : List Event}
    (none : ∀ event ∈ events, event.signedFill symbol = 0) : signedFills symbol events = 0 := by
  refine List.sum_eq_zero fun quantity member => ?_
  obtain ⟨event, eventMember, rfl⟩ := List.mem_map.1 member
  exact none event eventMember

/-! ## The engine's batches -/

namespace MatchingEngine

variable (engine : MatchingEngine) (symbol : SymbolId)

/-- The legs of a fill cancel. -/
theorem signedFills_fillEvents (config : SymbolConfig) (book : OrderBook) (filledSymbol : SymbolId)
    (timestamp : UnixMicros) (taker : BookOrder) (tradeId : TradeId) (fill : Fill) :
    signedFills symbol (fillEvents config book filledSymbol timestamp taker tradeId fill) = 0 := by
  simp only [fillEvents, signedFills_cons, signedFills_nil, Event.signedFill, Side.signed_opposite]
  split <;> simp

private theorem signedFills_emitFillEvents (config : SymbolConfig) (book : OrderBook)
    (filledSymbol : SymbolId) (timestamp : UnixMicros) (taker : BookOrder) (gen : TradeIdGen)
    (fills : List Fill) :
    signedFills symbol
      (emitFillEvents config book filledSymbol timestamp taker gen fills).2 = 0 := by
  induction fills generalizing gen with
  | nil => rfl
  | cons fill rest inductionHypothesis =>
      rw [emitFillEvents, signedFills_append, signedFills_fillEvents, inductionHypothesis, add_zero]

@[simp]
theorem signedFills_absorb (result : MatchResult) (filledSymbol : SymbolId)
    (timestamp : UnixMicros) :
    signedFills symbol (engine.absorb result filledSymbol timestamp).2 = 0 :=
  signedFills_emitFillEvents symbol _ _ _ _ _ _ _

private theorem signedFills_matchNewOrder (order : BookOrder) (timestamp : UnixMicros) :
    signedFills symbol (engine.matchNewOrder order timestamp).2 = 0 := by
  rcases engine.matchNewOrder_cases order timestamp with ⟨-, same⟩ | ⟨-, same⟩
  · simp [same, Event.signedFill]
  · rw [same]
    simp only [List.cons_append, signedFills_cons, signedFills_append, signedFills_absorb,
      Event.signedFill, zero_add]
    rcases placeRemaining_cases _ (refillIceberg timestamp _) timestamp with
      ⟨-, placed⟩ | ⟨-, -, placed⟩ | ⟨-, -, -, -, placed⟩ <;>
      rw [placed] <;> simp [Event.signedFill]

private theorem signedFills_handleNewOrder (order : NewOrder) :
    signedFills symbol (engine.handleNewOrder order).2 = 0 := by
  rcases engine.handleNewOrder_cases order with
    ⟨reason, same⟩ | ⟨price, -, -, -, -, ⟨-, same⟩ | ⟨-, same⟩⟩ <;> rw [same]
  · simp [Event.signedFill]
  · simp [Event.signedFill]
  · exact signedFills_matchNewOrder _ symbol _ _

private theorem signedFills_handleCancelOrder (orderId : OrderId) (userId : UserId)
    (timestamp : UnixMicros) :
    signedFills symbol (engine.handleCancelOrder orderId userId timestamp).2 = 0 := by
  rcases engine.handleCancelOrder_cases orderId userId timestamp with
    ⟨-, -, same⟩ | ⟨order, -, -, same⟩ | ⟨order, -, -, same⟩ | ⟨order, -, -, -, same⟩ |
      ⟨order, -, -, -, same⟩ <;> simp [same, Event.signedFill]

private theorem signedFills_handleAmendOrder (amend : AmendOrder) :
    signedFills symbol (engine.handleAmendOrder amend).2 = 0 := by
  rcases engine.handleAmendOrder_cases amend with
    ⟨reason, -, same⟩ | ⟨existing, -, -, ⟨-, same⟩ | ⟨-, same⟩ | ⟨-, quantity, -, -, -, same⟩⟩ <;>
    rw [same]
  · simp [Event.signedFill]
  · rcases engine.reinsertAmended_cases existing amend with
      ⟨reason, -, outcome⟩ | ⟨-, -, outcome⟩ <;> rw [outcome] <;> simp [Event.signedFill]
  · simp [Event.signedFill]
  · simp [Event.signedFill]

private theorem signedFills_triggerAll (timestamp : UnixMicros) (pending : List BookOrder) :
    signedFills symbol (triggerAll timestamp engine pending).2 = 0 := by
  induction pending generalizing engine with
  | nil => rfl
  | cons order rest inductionHypothesis =>
      have first : signedFills symbol (engine.triggerOne order timestamp).2 = 0 := by
        rcases engine.triggerOne_cases order timestamp with
          ⟨-, same⟩ | ⟨-, -, same⟩ | ⟨-, -, -, same⟩ <;> rw [same] <;> simp
      rw [triggerAll, signedFills_append, first, inductionHypothesis, add_zero]

/-- A batch fills every symbol by a signed quantity of zero. -/
theorem signedFills_processCommand (command : Command) :
    signedFills symbol (engine.processCommand command).2 = 0 := by
  cases command with
  | newOrder order => exact signedFills_handleNewOrder _ symbol order
  | cancelOrder orderId userId _ timestamp =>
      exact signedFills_handleCancelOrder _ symbol orderId userId timestamp
  | amendOrder amend => exact signedFills_handleAmendOrder _ symbol amend
  | cancelAllOrders userId canceledSymbol timestamp =>
      refine signedFills_of_forall fun event member => ?_
      simp only [processCommand, handleCancelAll, List.mem_append, List.mem_map] at member
      rcases member with ⟨order, -, rfl⟩ | ⟨order, -, rfl⟩ <;> rfl
  | updateMarkPrice markSymbol mark index timestamp =>
      simp only [processCommand, updateMarkPrice, triggerAndMatchStops, signedFills_cons,
        signedFills_triggerAll, Event.signedFill, add_zero]
  | computeFunding fundedSymbol timestamp =>
      simp [processCommand, computeFunding, Event.signedFill]
  | adminCredit userId amount key timestamp => rfl

end MatchingEngine

/-! ## The processor -/

namespace PostTradeProcessor

variable {processor : PostTradeProcessor}

/-- What keeps the processor from stopping. -/
structure Solid (processor : PostTradeProcessor) : Prop where
  ledger : processor.ledger.Sound
  directed : processor.positions.Directed

theorem solid_new : new.Solid := ⟨Ledger.sound_new, PositionManager.directed_new⟩

private theorem settleRealizedPnl_solid (solid : processor.Solid) (userId : UserId)
    (symbol : SymbolId) (pnl : Decimal128) (seqTag : Nat) (timestamp : UnixMicros) :
    ∃ moved settled, processor.settleRealizedPnl userId symbol pnl seqTag timestamp =
        .ok (moved, settled) ∧ settled.Solid ∧ settled.positions = processor.positions := by
  simp only [settleRealizedPnl]
  split
  · exact ⟨0, processor, rfl, solid, rfl⟩
  · split
    · exact ⟨0, processor, rfl, solid, rfl⟩
    · obtain ⟨account, known⟩ := processor.ledger.getOrCreateAccount_known userId
      obtain ⟨settled, moved, outcome, sound⟩ :=
        (solid.ledger.getOrCreateAccount userId).settleRealizedPnlCapped known pnl
          (pnlKey seqTag userId symbol) timestamp
      rw [outcome]
      exact ⟨moved, _, rfl, ⟨sound, solid.directed⟩, rfl⟩

private theorem settlePositions_sound {ledger : Ledger} (sound : ledger.Sound) (period : Nat)
    (mark rate : Decimal128) (timestamp : UnixMicros) (positions : List Position) :
    ∃ settled facts, settlePositions period mark rate timestamp ledger positions =
      .ok (settled, facts) ∧ settled.Sound := by
  induction positions generalizing ledger with
  | nil => exact ⟨ledger, [], rfl, sound⟩
  | cons position rest inductionHypothesis =>
      have first : ∃ settled facts,
          settlePosition period mark rate timestamp ledger position = .ok (settled, facts) ∧
            settled.Sound := by
        simp only [settlePosition]
        split
        · exact ⟨ledger, [], rfl, sound⟩
        · obtain ⟨account, known⟩ := ledger.getOrCreateAccount_known position.userId
          obtain ⟨settled, moved, outcome, soundSettled⟩ :=
            (sound.getOrCreateAccount position.userId).settleRealizedPnlCapped known
              (-fundingPayment mark rate position)
              (fundingKey period position.userId position.symbol) timestamp
          rw [outcome]
          dsimp only
          split
          · exact ⟨settled, [], rfl, soundSettled⟩
          · exact ⟨settled, _, rfl, soundSettled⟩
      obtain ⟨settled, facts, outcome, soundSettled⟩ := first
      obtain ⟨final, later, laterOutcome, soundFinal⟩ := inductionHypothesis soundSettled
      exact ⟨final, facts ++ later, by simp only [settlePositions, outcome, laterOutcome],
        soundFinal⟩

/-- Every event is consumed, and moves the open interest by its signed fill. -/
theorem consumeEvent_spec (solid : processor.Solid) (visit : List Position → List Position)
    (timestamp : UnixMicros) (event : Event) :
    ∃ next facts, processor.consumeEvent visit timestamp event = .ok (next, facts) ∧ next.Solid ∧
      ∀ symbol, next.positions.netOpenInterest symbol =
        processor.positions.netOpenInterest symbol + event.signedFill symbol := by
  cases event with
  | orderFilled filled =>
      obtain ⟨pnl, positions, applied, directed, moved⟩ := PositionManager.applyFill_spec
        solid.directed filled.userId filled.symbol filled.side filled.fillQty filled.fillPrice
      let positioned : PostTradeProcessor := { processor with positions := positions }
      have solidPositioned : positioned.Solid := ⟨solid.ledger, directed⟩
      obtain ⟨settledAmount, settled, outcome, solidSettled, same⟩ := settleRealizedPnl_solid
        solidPositioned filled.userId filled.symbol pnl (positioned.pnlSeq + 1) timestamp
      simp only [consumeEvent, consumeFill, applyFillToPosition, applied]
      split
      · exact ⟨positioned, [], rfl, solidPositioned, moved⟩
      · simp only [positioned] at outcome
        simp only [outcome]
        split
        · exact ⟨settled, [], rfl, solidSettled, by rw [same]; exact moved⟩
        · exact ⟨_, _, rfl, ⟨solidSettled.ledger, solidSettled.directed⟩, by rw [same]; exact moved⟩
  | fundingRateUpdate symbol rate stamped =>
      simp only [consumeEvent, settleFunding]
      split
      · exact ⟨processor, [], rfl, solid, by simp [Event.signedFill]⟩
      · obtain ⟨settled, facts, outcome, sound⟩ := settlePositions_sound solid.ledger
          (processor.fundingPeriodId + 1) processor.markPrice rate timestamp
          ((visit processor.positions.allPositions).filter fun position => !position.size.isZero)
        simp only [outcome, sound.verifyAllInvariants]
        exact ⟨_, _, rfl, ⟨sound, solid.directed⟩, by simp [Event.signedFill]⟩
  | markPriceUpdate _ mark _ _ =>
      exact ⟨_, _, rfl, ⟨solid.ledger, solid.directed⟩, by simp [Event.signedFill]⟩
  | _ => exact ⟨processor, [], rfl, solid, by simp [Event.signedFill]⟩

/-- Every batch is consumed, and moves the open interest by its signed fills. -/
theorem consume_spec (solid : processor.Solid) (order : IterationOrder) (timestamp : UnixMicros)
    (events : List Event) :
    ∃ next facts, consume order timestamp processor events = .ok (next, facts) ∧ next.Solid ∧
      ∀ symbol, next.positions.netOpenInterest symbol =
        processor.positions.netOpenInterest symbol + signedFills symbol events := by
  induction events generalizing processor order with
  | nil => exact ⟨processor, [], rfl, solid, by simp⟩
  | cons event rest inductionHypothesis =>
      obtain ⟨next, facts, outcome, solidNext, moved⟩ :=
        consumeEvent_spec solid (order.visit 0) timestamp event
      obtain ⟨final, later, laterOutcome, solidFinal, laterMoved⟩ :=
        inductionHypothesis solidNext order.later
      refine ⟨final, facts ++ later, by simp only [consume, outcome, laterOutcome], solidFinal, ?_⟩
      intro symbol
      rw [laterMoved, moved, signedFills_cons, add_assoc]

end PostTradeProcessor

/-! ## The main result -/

/-- A command, with the time and the iteration order of its batch's consumption. -/
structure Delivery where
  command : Command
  timestamp : UnixMicros
  order : IterationOrder

/-- Process commands and feed each batch to the processor. -/
def feed : MatchingEngine → PostTradeProcessor → List Delivery →
    Except ClearingPanic (MatchingEngine × PostTradeProcessor)
  | engine, processor, [] => .ok (engine, processor)
  | engine, processor, delivery :: rest =>
      let next := engine.processCommand delivery.command
      match PostTradeProcessor.consume delivery.order delivery.timestamp processor next.2 with
      | .error panic => .error panic
      | .ok (consumed, _) => feed next.1 consumed rest

theorem feed_zero {processor : PostTradeProcessor} (solid : processor.Solid)
    (zero : ∀ symbol, processor.positions.netOpenInterest symbol = 0) (engine : MatchingEngine)
    (deliveries : List Delivery) :
    ∃ final fed, feed engine processor deliveries = .ok (final, fed) ∧
      ∀ symbol, fed.positions.netOpenInterest symbol = 0 := by
  induction deliveries generalizing engine processor with
  | nil => exact ⟨engine, processor, rfl, zero⟩
  | cons delivery rest inductionHypothesis =>
      obtain ⟨next, facts, outcome, solidNext, moved⟩ := PostTradeProcessor.consume_spec solid
        delivery.order delivery.timestamp (engine.processCommand delivery.command).2
      simp only [feed, outcome]
      refine inductionHypothesis solidNext (fun symbol => ?_) _
      rw [moved, zero, MatchingEngine.signedFills_processCommand, add_zero]

/-- Whatever commands have been delivered, every batch was consumed and the open interest
is zero for every symbol. -/
theorem netOpenInterest_zero (config : SymbolConfig) (ids : Nat → TradeId)
    (interestRate : Decimal128) (deliveries : List Delivery) :
    ∃ engine processor,
      feed (.new config ids interestRate) .new deliveries = .ok (engine, processor) ∧
        ∀ symbol, processor.positions.netOpenInterest symbol = 0 := by
  refine feed_zero PostTradeProcessor.solid_new (fun symbol => ?_) _ deliveries
  simp [PostTradeProcessor.new, PositionManager.new, PositionManager.netOpenInterest]

end Exg
