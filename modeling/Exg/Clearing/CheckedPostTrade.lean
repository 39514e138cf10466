import Exg.Clearing.PostTrade
import Exg.Ledger.CheckedLedger
import Exg.Support.Overflow

/-!
# The post-trade pipeline, with its panics

`consume`, `handle_admin_credit` and `apply_event` as they run when every operator may panic.
Where one has a result, it is the result of exact numbers.
-/

namespace Exg

open Support

/-! ## Positions -/

namespace PositionManager

variable (manager : PositionManager) (userId : UserId) (symbol : SymbolId)

/-- The average entry price of a position that an opening leaves with a new size. -/
def entryPrice? (position : Position) (oldNotional newNotional newSize : Decimal128) :
    Option Decimal128 :=
  if newSize.isPositive then do
    let notional ← oldNotional.add? newNotional
    notional.div? newSize
  else
    some position.entryPrice

def openOrIncrease? (side : PositionSide) (quantity price leverage : Decimal128)
    (marginMode : MarginMode) : Option PositionManager := do
  let position := (manager.getPosition userId symbol).getD
    (emptyPosition userId symbol side leverage marginMode)
  let oldNotional ← position.size.mul? position.entryPrice
  let newNotional ← quantity.mul? price
  let newSize ← position.size.add? quantity
  let _ ← entryPrice? position oldNotional newNotional newSize
  let addMargin ← newNotional.div? leverage
  let _ ← position.margin.add? addMargin
  some (manager.openOrIncrease userId symbol side quantity price leverage marginMode)

/-- What a reduction of a position computes. -/
def reductionSums? (position : Position) (quantity exitPrice : Decimal128) : Option Unit := do
  let gain ← match position.side with
    | .long | .both => exitPrice.sub? position.entryPrice
    | .short => position.entryPrice.sub? exitPrice
  let _ ← gain.mul? quantity
  let product ← position.margin.mul? quantity
  let marginReleased ← product.div? position.size
  let newSize ← position.size.sub? quantity
  if newSize.isZero then
    some ()
  else
    (position.margin.sub? marginReleased).map fun _ => ()

def reduceOrClose? (quantity exitPrice : Decimal128) :
    Option (Except PositionError (Decimal128 × PositionManager)) :=
  let reduced := manager.reduceOrClose userId symbol quantity exitPrice
  match manager.getPosition userId symbol with
  | none => some reduced
  | some position =>
      if position.size < quantity then
        some reduced
      else do
        reductionSums? position quantity exitPrice
        some reduced

/-- `apply_fill_to_position` on the positions. -/
def applyFill? (side : Side) (quantity price : Decimal128) :
    Option (Except PositionError (Decimal128 × PositionManager)) :=
  let fillSide := openingSide side
  let opened (pnl : Decimal128) (manager : PositionManager) (quantity : Decimal128) :
      Option (Except PositionError (Decimal128 × PositionManager)) :=
    (manager.openOrIncrease? userId symbol fillSide quantity price .one .cross).map
      fun increased => .ok (pnl, increased)
  match manager.getPosition userId symbol with
  | none => opened 0 manager quantity
  | some position =>
      if position.side = fillSide ∨ position.size = 0 then
        opened 0 manager quantity
      else
        let reduceQty := min quantity position.size
        thenOk (manager.reduceOrClose? userId symbol reduceQty price) fun reduced => do
          let leftover ← quantity.sub? reduceQty
          if leftover.isPositive then
            opened reduced.1 reduced.2 leftover
          else
            some (.ok reduced)

variable {manager userId symbol}

theorem agrees_openOrIncrease (side : PositionSide) (quantity price leverage : Decimal128)
    (marginMode : MarginMode) :
    Agrees (manager.openOrIncrease? userId symbol side quantity price leverage marginMode)
      (manager.openOrIncrease userId symbol side quantity price leverage marginMode) :=
  .after fun _ => .after fun _ => .after fun _ => .after fun _ => .after fun _ =>
    .after fun _ => .pure _

theorem agrees_reduceOrClose (quantity exitPrice : Decimal128) :
    Agrees (manager.reduceOrClose? userId symbol quantity exitPrice)
      (manager.reduceOrClose userId symbol quantity exitPrice) := by
  rw [reduceOrClose?]
  cases manager.getPosition userId symbol with
  | none => exact .pure _
  | some position =>
      dsimp only
      split
      · exact .pure _
      · exact .after fun _ => .pure _

private theorem agrees_applyFill (side : Side) (quantity price : Decimal128) :
    Agrees (manager.applyFill? userId symbol side quantity price)
      (manager.applyFill userId symbol side quantity price) := by
  have opened (pnl : Decimal128) (manager : PositionManager) (quantity : Decimal128) :
      Agrees ((manager.openOrIncrease? userId symbol (openingSide side) quantity price .one
          .cross).map fun increased =>
            (Except.ok (pnl, increased) : Except PositionError (Decimal128 × PositionManager)))
        (.ok (pnl, manager.openOrIncrease userId symbol (openingSide side) quantity price .one
          .cross)) :=
    (agrees_openOrIncrease _ _ _ _ _).map fun increased => Except.ok (pnl, increased)
  rw [applyFill?, applyFill]
  cases manager.getPosition userId symbol with
  | none => exact opened 0 manager quantity
  | some position =>
      refine .ite (opened 0 manager quantity) ?_
      refine agrees_thenOk (agrees_reduceOrClose _ price) (fun error failed => ?_)
        fun reduced outcome => ?_
      · dsimp only
        rw [failed]
      · dsimp only
        rw [outcome]
        refine (Decimal128.computes_sub _ _).agrees.bind ?_
        dsimp only
        split
        · exact opened _ _ _
        · exact .pure _

end PositionManager

namespace PostTradeProcessor

variable (processor : PostTradeProcessor)

/-! ## Fills -/

def applyFillToPosition? (filled : OrderFilled) :
    Option (Except ClearingPanic (Decimal128 × PostTradeProcessor)) :=
  (processor.positions.applyFill? filled.userId filled.symbol filled.side filled.fillQty
    filled.fillPrice).map fun
    | .error error => .error (.reduceOrClose error)
    | .ok (pnl, positions) => .ok (pnl, { processor with positions := positions })

def settleRealizedPnl? (userId : UserId) (symbol : SymbolId) (pnl : Decimal128) (seqTag : Nat)
    (timestamp : UnixMicros) : Option (Except ClearingPanic (Decimal128 × PostTradeProcessor)) :=
  let available :=
    (processor.ledger.getBalance userId .funding).elim 0 WalletBalance.available
  if pnl.isZero then
    some (.ok (0, processor))
  else if pnl.isNegative && available.isZero then
    some (.ok (0, processor))
  else
    let ledger := processor.ledger.getOrCreateAccount userId
    (ledger.settleRealizedPnlCapped? userId pnl (pnlKey seqTag userId symbol) timestamp).map fun
      | (_, .error error) => .error (.realizedPnl error)
      | (settled, .ok moved) => .ok (moved, { processor with ledger := settled })

def consumeFill? (filled : OrderFilled) (timestamp : UnixMicros) :
    Option (Except ClearingPanic (PostTradeProcessor × List Event)) :=
  thenOk (processor.applyFillToPosition? filled) fun (pnl, positioned) =>
    if pnl.isZero then
      some (.ok (positioned, []))
    else do
      let nextSeq ← addWord? positioned.pnlSeq 1
      thenOk (positioned.settleRealizedPnl? filled.userId filled.symbol pnl nextSeq timestamp)
        fun (moved, settled) =>
          if moved.isZero then
            some (.ok (settled, []))
          else
            some (.ok ({ settled with pnlSeq := nextSeq },
              [.realizedPnl filled.userId filled.symbol moved timestamp]))

/-! ## Funding -/

def signedRate? (rate : Decimal128) : PositionSide → Option Decimal128
  | .long | .both => some rate
  | .short => rate.neg?

def fundingPayment? (mark rate : Decimal128) (position : Position) : Option Decimal128 := do
  let notional ← position.size.mul? mark
  let signedRate ← signedRate? rate position.side
  let _ ← notional.mul? signedRate
  some (fundingPayment mark rate position)

def settlePosition? (period : Nat) (mark rate : Decimal128) (timestamp : UnixMicros)
    (ledger : Ledger) (position : Position) :
    Option (Except ClearingPanic (Ledger × List Event)) := do
  let payment ← fundingPayment? mark rate position
  if payment.isZero then
    some (.ok (ledger, []))
  else do
    let owed ← payment.neg?
    let opened := ledger.getOrCreateAccount position.userId
    let settled ← opened.settleRealizedPnlCapped? position.userId owed
      (fundingKey period position.userId position.symbol) timestamp
    match settled with
    | (_, .error error) => some (.error (.fundingSettle error))
    | (settled, .ok moved) =>
        if moved.isZero then
          some (.ok (settled, []))
        else do
          let paid ← moved.neg?
          some (.ok (settled,
            [.fundingSettled position.userId position.symbol period paid timestamp]))

def settlePositions? (period : Nat) (mark rate : Decimal128) (timestamp : UnixMicros) :
    Ledger → List Position → Option (Except ClearingPanic (Ledger × List Event))
  | ledger, [] => some (.ok (ledger, []))
  | ledger, position :: rest =>
      thenOk (settlePosition? period mark rate timestamp ledger position) fun (settled, facts) =>
        thenOk (settlePositions? period mark rate timestamp settled rest) fun (final, later) =>
          some (.ok (final, facts ++ later))

/-- The sum that the audit line of a funding tick prints. -/
def totalAbs? (facts : List Event) : Option Decimal128 := do
  let amounts ← facts.mapM fun
    | .fundingSettled _ _ _ amount _ => amount.abs?
    | _ => some 0
  Decimal128.sum? amounts

def settleFunding? (visit : List Position → List Position) (rate : Decimal128)
    (timestamp : UnixMicros) : Option (Except ClearingPanic (PostTradeProcessor × List Event)) :=
  let rows := (visit processor.positions.allPositions).filter fun position =>
    !position.size.isZero
  if !rows.isEmpty && processor.markPrice.isZero then
    some (.ok (processor, []))
  else do
    let period ← addWord? processor.fundingPeriodId 1
    thenOk (settlePositions? period processor.markPrice rate timestamp processor.ledger rows)
      fun (ledger, facts) => do
        let _ ← totalAbs? facts
        let verified ← ledger.verifyAllInvariants?
        match verified with
        | .error error => some (.error (.fundingBatch error))
        | .ok () =>
            some (.ok ({ processor with ledger := ledger, fundingPeriodId := period }, facts))

/-! ## The live path -/

def consumeEvent? (visit : List Position → List Position) (timestamp : UnixMicros) :
    Event → Option (Except ClearingPanic (PostTradeProcessor × List Event))
  | .orderFilled filled => processor.consumeFill? filled timestamp
  | .markPriceUpdate _ markPrice _ _ => some (.ok ({ processor with markPrice := markPrice }, []))
  | .fundingRateUpdate _ fundingRate _ => processor.settleFunding? visit fundingRate timestamp
  | _ => some (.ok (processor, []))

def consume? (order : IterationOrder) (timestamp : UnixMicros) : PostTradeProcessor →
    List Event → Option (Except ClearingPanic (PostTradeProcessor × List Event))
  | processor, [] => some (.ok (processor, []))
  | processor, event :: rest =>
      thenOk (processor.consumeEvent? (order.visit 0) timestamp event) fun (next, facts) =>
        thenOk (consume? order.later timestamp next rest) fun (final, later) =>
          some (.ok (final, facts ++ later))

def handleAdminCredit? (userId : UserId) (amount : Decimal128) (idempotencyKey : String)
    (timestamp : UnixMicros) : Option (Except ClearingPanic (PostTradeProcessor × List Event)) :=
  let ledger := processor.ledger.getOrCreateAccount userId
  (ledger.deposit? userId amount idempotencyKey timestamp).map fun
    | .error error => .error (.adminCredit error)
    | .ok credited =>
        .ok ({ processor with ledger := credited },
          [.adminCredited userId amount idempotencyKey timestamp])

/-! ## The replay path -/

def applyEvent? : Event → Option (Except ClearingPanic PostTradeProcessor)
  | .orderFilled filled =>
      (processor.applyFillToPosition? filled).map fun
        | .error panic => .error panic
        | .ok (_, positioned) => .ok positioned
  | .markPriceUpdate _ markPrice _ _ => some (.ok { processor with markPrice := markPrice })
  | .adminCredited userId amount idempotencyKey timestamp =>
      let ledger := processor.ledger.getOrCreateAccount userId
      (ledger.deposit? userId amount idempotencyKey timestamp).map fun
        | .error _ => .ok { processor with ledger := ledger }
        | .ok credited => .ok { processor with ledger := credited }
  | .realizedPnl userId symbol amount timestamp => do
      let seq ← addWord? processor.pnlSeq 1
      let ledger := processor.ledger.getOrCreateAccount userId
      let settled ← ledger.settleRealizedPnlCapped? userId amount
        (pnlKey seq userId symbol) timestamp
      some (.ok { processor with ledger := settled.1, pnlSeq := seq })
  | .fundingSettled userId symbol period amount timestamp => do
      let ledger := processor.ledger.getOrCreateAccount userId
      let signed ← amount.neg?
      let settled ← ledger.settleRealizedPnlCapped? userId signed
        (fundingKey period userId symbol) timestamp
      some (.ok { processor with
        ledger := settled.1
        fundingPeriodId :=
          if processor.fundingPeriodId < period then period else processor.fundingPeriodId })
  | _ => some (.ok processor)

/-! ## What they agree with -/

variable {processor}

private theorem agrees_applyFillToPosition (filled : OrderFilled) :
    Agrees (processor.applyFillToPosition? filled) (processor.applyFillToPosition filled) :=
  (PositionManager.agrees_applyFill _ _ _).map _

private theorem agrees_settleRealizedPnl (userId : UserId) (symbol : SymbolId) (pnl : Decimal128)
    (seqTag : Nat) (timestamp : UnixMicros) :
    Agrees (processor.settleRealizedPnl? userId symbol pnl seqTag timestamp)
      (processor.settleRealizedPnl userId symbol pnl seqTag timestamp) :=
  .ite (.pure _) (.ite (.pure _) ((Ledger.agrees_settleRealizedPnlCapped _ _ _ _ _).map _))

private theorem agrees_consumeFill (filled : OrderFilled) (timestamp : UnixMicros) :
    Agrees (processor.consumeFill? filled timestamp) (processor.consumeFill filled timestamp) := by
  rw [consumeFill]
  refine agrees_thenOk (agrees_applyFillToPosition filled) (fun panic failed => ?_)
    fun applied outcome => ?_
  · rw [failed]
  · rw [outcome]
    refine .ite (.pure _) ((agrees_addWord _ 1).bind ?_)
    refine agrees_thenOk (agrees_settleRealizedPnl _ _ _ _ _) (fun panic failed => ?_)
      fun settled outcome => ?_
    · dsimp only
      rw [failed]
    · dsimp only
      rw [outcome]
      exact .ite (.pure _) (.pure _)

private theorem agrees_settlePosition (period : Nat) (mark rate : Decimal128)
    (timestamp : UnixMicros) (ledger : Ledger) (position : Position) :
    Agrees (settlePosition? period mark rate timestamp ledger position)
      (settlePosition period mark rate timestamp ledger position) := by
  have payment : Agrees (fundingPayment? mark rate position) (fundingPayment mark rate position) :=
    .after fun _ => .after fun _ => .after fun _ => .pure _
  refine payment.bind (.ite (.pure _) ((Decimal128.computes_neg _).agrees.bind ?_))
  refine (Ledger.agrees_settleRealizedPnlCapped _ _ _ _ _).bind ?_
  obtain ⟨settled, error | moved⟩ := Ledger.settleRealizedPnlCapped _ _ _ _ _
  · exact .pure _
  · exact .ite (.pure _) ((Decimal128.computes_neg moved).agrees.bind_some _)

private theorem agrees_settlePositions (period : Nat) (mark rate : Decimal128)
    (timestamp : UnixMicros) (ledger : Ledger) (positions : List Position) :
    Agrees (settlePositions? period mark rate timestamp ledger positions)
      (settlePositions period mark rate timestamp ledger positions) := by
  induction positions generalizing ledger with
  | nil => exact .pure _
  | cons position rest inductionHypothesis =>
      rw [settlePositions]
      refine agrees_thenOk (agrees_settlePosition _ _ _ _ _ _) (fun panic failed => ?_)
        fun settled outcome => ?_
      · rw [failed]
      · rw [outcome]
        refine agrees_thenOk (inductionHypothesis _) (fun panic failed => ?_)
          fun final outcome => ?_
        · dsimp only
          rw [failed]
        · dsimp only
          rw [outcome]
          exact .pure _

private theorem agrees_settleFunding (visit : List Position → List Position) (rate : Decimal128)
    (timestamp : UnixMicros) :
    Agrees (processor.settleFunding? visit rate timestamp)
      (processor.settleFunding visit rate timestamp) := by
  refine .ite (.pure _) ((agrees_addWord _ 1).bind ?_)
  refine agrees_thenOk (agrees_settlePositions _ _ _ _ _ _) (fun panic failed => ?_)
    fun settled outcome => .after fun _ => (Ledger.agrees_verifyAllInvariants _).bind ?_
  · rw [failed]
  · rw [outcome]
    dsimp only
    cases settled.1.verifyAllInvariants <;> exact .pure _

private theorem agrees_consumeEvent (visit : List Position → List Position) (timestamp : UnixMicros)
    (event : Event) : Agrees (processor.consumeEvent? visit timestamp event)
      (processor.consumeEvent visit timestamp event) := by
  cases event with
  | orderFilled filled => exact agrees_consumeFill filled timestamp
  | fundingRateUpdate symbol rate updated => exact agrees_settleFunding visit rate timestamp
  | _ => exact .pure _

theorem agrees_consume (order : IterationOrder) (timestamp : UnixMicros)
    (processor : PostTradeProcessor) (events : List Event) :
    Agrees (consume? order timestamp processor events)
      (consume order timestamp processor events) := by
  induction events generalizing order processor with
  | nil => exact .pure _
  | cons event rest inductionHypothesis =>
      rw [consume]
      refine agrees_thenOk (agrees_consumeEvent _ _ event) (fun panic failed => ?_)
        fun next outcome => ?_
      · rw [failed]
      · rw [outcome]
        refine agrees_thenOk (inductionHypothesis _ _) (fun panic failed => ?_) fun final outcome =>
          ?_
        · dsimp only
          rw [failed]
        · dsimp only
          rw [outcome]
          exact .pure _

theorem agrees_handleAdminCredit (userId : UserId) (amount : Decimal128) (idempotencyKey : String)
    (timestamp : UnixMicros) :
    Agrees (processor.handleAdminCredit? userId amount idempotencyKey timestamp)
      (processor.handleAdminCredit userId amount idempotencyKey timestamp) :=
  (Ledger.agrees_deposit _ _ _ _ _).map _

theorem agrees_applyEvent (event : Event) :
    Agrees (processor.applyEvent? event) (processor.applyEvent event) := by
  cases event with
  | orderFilled filled => exact (agrees_applyFillToPosition filled).map _
  | adminCredited userId amount key timestamp => exact (Ledger.agrees_deposit _ _ _ _ _).map _
  | realizedPnl userId symbol amount timestamp =>
      exact (agrees_addWord _ 1).bind
        ((Ledger.agrees_settleRealizedPnlCapped _ _ _ _ _).bind_some _)
  | fundingSettled userId symbol period amount timestamp =>
      exact (Decimal128.computes_neg amount).agrees.bind
        ((Ledger.agrees_settleRealizedPnlCapped _ _ _ _ _).bind_some _)
  | _ => exact .pure _

end PostTradeProcessor
end Exg
