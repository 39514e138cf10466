import Exg.Clearing.Position
import Exg.Ledger.Ledger
import Exg.Protocol

/-!
# The post-trade pipeline

`consume` reacts to the engine's events: it keeps the positions, moves the money and
emits fact events.  `apply_event` rebuilds the same state from a log.  The `expect` calls
of the source are the error branch here.  The order in which a hash map visits the
positions is not determined by the source, so each funding tick is given one.
-/

namespace Exg

/-- The `expect` calls that could stop the processor. -/
inductive ClearingPanic where
  /-- reduce_or_close on an existing position -/
  | reduceOrClose (error : PositionError)
  /-- settle_realized_pnl_capped is infallible for a known account -/
  | realizedPnl (error : LedgerError)
  /-- capped funding settle is infallible for a known account -/
  | fundingSettle (error : LedgerError)
  /-- ledger invariants after funding batch -/
  | fundingBatch (error : LedgerError)
  /-- admin credit deposit (amount > 0 enforced at handler) -/
  | adminCredit (error : LedgerError)
  deriving DecidableEq, Repr

/-- For every event of a batch, the order in which a funding tick visits the positions. -/
structure IterationOrder where
  visit : Nat → List Position → List Position
  perm : ∀ index positions, (visit index positions).Perm positions

namespace IterationOrder

def stored : IterationOrder := ⟨fun _ positions => positions, fun _ _ => List.Perm.refl _⟩

/-- The orders of the later events. -/
def later (order : IterationOrder) : IterationOrder :=
  ⟨fun index => order.visit (index + 1), fun index => order.perm (index + 1)⟩

end IterationOrder

structure PostTradeProcessor where
  positions : PositionManager
  ledger : Ledger
  /-- Latest mark price; the notional base for funding settlement. -/
  markPrice : Decimal128
  /-- Monotonic funding batch counter. -/
  fundingPeriodId : Nat
  /-- Monotonic counter of the emitted `RealizedPnl` facts. -/
  pnlSeq : Nat

/-! ## Idempotency keys -/

def pnlKey (seq : Nat) (userId : UserId) (symbol : SymbolId) : String :=
  "pnl_" ++ toString seq ++ "_" ++ toString userId ++ "_" ++ toString symbol

def fundingKey (period : Nat) (userId : UserId) (symbol : SymbolId) : String :=
  "funding_" ++ toString period ++ "_" ++ toString userId ++ "_" ++ toString symbol

/-- The key the gateway gives an admin credit. -/
def adminCreditKey (userId : UserId) (timestamp : UnixMicros) (counter : Nat) : String :=
  "admincredit_" ++ toString userId ++ "_" ++ toString timestamp ++ "_" ++ toString counter

namespace PostTradeProcessor

def new : PostTradeProcessor := ⟨.new, .new, 0, 0, 0⟩

/-- Move a position by a fill.  Returns the realized profit. -/
def applyFillToPosition (processor : PostTradeProcessor) (filled : OrderFilled) :
    Except ClearingPanic (Decimal128 × PostTradeProcessor) :=
  match processor.positions.applyFill filled.userId filled.symbol filled.side filled.fillQty
      filled.fillPrice with
  | .error error => .error (.reduceOrClose error)
  | .ok (pnl, positions) => .ok (pnl, { processor with positions := positions })

/-- Settle a signed realized profit against the system Funding pool.  Returns the amount
actually moved. -/
def settleRealizedPnl (processor : PostTradeProcessor) (userId : UserId) (symbol : SymbolId)
    (pnl : Decimal128) (seqTag : Nat) (timestamp : UnixMicros) :
    Except ClearingPanic (Decimal128 × PostTradeProcessor) :=
  let available :=
    (processor.ledger.getBalance userId .funding).elim 0 WalletBalance.available
  if pnl.isZero then
    .ok (0, processor)
  else if pnl.isNegative && available.isZero then
    .ok (0, processor)
  else
    let ledger := processor.ledger.getOrCreateAccount userId
    match ledger.settleRealizedPnlCapped userId pnl (pnlKey seqTag userId symbol) timestamp with
    | (_, .error error) => .error (.realizedPnl error)
    | (settled, .ok moved) => .ok (moved, { processor with ledger := settled })

/-- The `OrderFilled` arm of `consume`. -/
def consumeFill (processor : PostTradeProcessor) (filled : OrderFilled)
    (timestamp : UnixMicros) : Except ClearingPanic (PostTradeProcessor × List Event) :=
  match processor.applyFillToPosition filled with
  | .error panic => .error panic
  | .ok (pnl, positioned) =>
      if pnl.isZero then
        .ok (positioned, [])
      else
        let nextSeq := positioned.pnlSeq + 1
        match positioned.settleRealizedPnl filled.userId filled.symbol pnl nextSeq timestamp with
        | .error panic => .error panic
        | .ok (moved, settled) =>
            if moved.isZero then
              .ok (settled, [])
            else
              .ok ({ settled with pnlSeq := nextSeq },
                [.realizedPnl filled.userId filled.symbol moved timestamp])

/-! ## Funding -/

/-- What a position pays at a funding tick; negative when it receives. -/
def fundingPayment (mark rate : Decimal128) (position : Position) : Decimal128 :=
  let signedRate :=
    match position.side with
    | .long | .both => rate
    | .short => -rate
  position.size * mark * signedRate

/-- One round of the loop of `settle_funding`. -/
def settlePosition (period : Nat) (mark rate : Decimal128) (timestamp : UnixMicros)
    (ledger : Ledger) (position : Position) : Except ClearingPanic (Ledger × List Event) :=
  let payment := fundingPayment mark rate position
  if payment.isZero then
    .ok (ledger, [])
  else
    let opened := ledger.getOrCreateAccount position.userId
    match opened.settleRealizedPnlCapped position.userId (-payment)
        (fundingKey period position.userId position.symbol) timestamp with
    | (_, .error error) => .error (.fundingSettle error)
    | (settled, .ok moved) =>
        if moved.isZero then
          .ok (settled, [])
        else
          .ok (settled,
            [.fundingSettled position.userId position.symbol period (-moved) timestamp])

def settlePositions (period : Nat) (mark rate : Decimal128) (timestamp : UnixMicros) :
    Ledger → List Position → Except ClearingPanic (Ledger × List Event)
  | ledger, [] => .ok (ledger, [])
  | ledger, position :: rest =>
      match settlePosition period mark rate timestamp ledger position with
      | .error panic => .error panic
      | .ok (settled, facts) =>
          match settlePositions period mark rate timestamp settled rest with
          | .error panic => .error panic
          | .ok (final, later) => .ok (final, facts ++ later)

/-- Settle funding for every open position at the current mark. -/
def settleFunding (processor : PostTradeProcessor) (visit : List Position → List Position)
    (rate : Decimal128) (timestamp : UnixMicros) :
    Except ClearingPanic (PostTradeProcessor × List Event) :=
  let rows := (visit processor.positions.allPositions).filter fun position =>
    !position.size.isZero
  if !rows.isEmpty && processor.markPrice.isZero then
    .ok (processor, [])
  else
    let period := processor.fundingPeriodId + 1
    match settlePositions period processor.markPrice rate timestamp processor.ledger rows with
    | .error panic => .error panic
    | .ok (ledger, facts) =>
        match ledger.verifyAllInvariants with
        | .error error => .error (.fundingBatch error)
        | .ok () => .ok ({ processor with ledger := ledger, fundingPeriodId := period }, facts)

/-! ## The live path -/

/-- React to one engine event. -/
def consumeEvent (processor : PostTradeProcessor) (visit : List Position → List Position)
    (timestamp : UnixMicros) : Event → Except ClearingPanic (PostTradeProcessor × List Event)
  | .orderFilled filled => processor.consumeFill filled timestamp
  | .markPriceUpdate _ markPrice _ _ => .ok ({ processor with markPrice := markPrice }, [])
  | .fundingRateUpdate _ fundingRate _ => processor.settleFunding visit fundingRate timestamp
  | _ => .ok (processor, [])

/-- React to the events of one command. -/
def consume (order : IterationOrder) (timestamp : UnixMicros) :
    PostTradeProcessor → List Event → Except ClearingPanic (PostTradeProcessor × List Event)
  | processor, [] => .ok (processor, [])
  | processor, event :: rest =>
      match processor.consumeEvent (order.visit 0) timestamp event with
      | .error panic => .error panic
      | .ok (next, facts) =>
          match consume order.later timestamp next rest with
          | .error panic => .error panic
          | .ok (final, later) => .ok (final, facts ++ later)

/-- Admin-credit a user's Funding wallet. -/
def handleAdminCredit (processor : PostTradeProcessor) (userId : UserId) (amount : Decimal128)
    (idempotencyKey : String) (timestamp : UnixMicros) :
    Except ClearingPanic (PostTradeProcessor × List Event) :=
  let ledger := processor.ledger.getOrCreateAccount userId
  match ledger.deposit userId amount idempotencyKey timestamp with
  | .error error => .error (.adminCredit error)
  | .ok credited =>
      .ok ({ processor with ledger := credited },
        [.adminCredited userId amount idempotencyKey timestamp])

/-! ## The replay path -/

/-- Re-apply one record of the log. -/
def applyEvent (processor : PostTradeProcessor) : Event → Except ClearingPanic PostTradeProcessor
  | .orderFilled filled =>
      match processor.applyFillToPosition filled with
      | .error panic => .error panic
      | .ok (_, positioned) => .ok positioned
  | .markPriceUpdate _ markPrice _ _ => .ok { processor with markPrice := markPrice }
  | .adminCredited userId amount idempotencyKey timestamp =>
      let ledger := processor.ledger.getOrCreateAccount userId
      match ledger.deposit userId amount idempotencyKey timestamp with
      | .error _ => .ok { processor with ledger := ledger }
      | .ok credited => .ok { processor with ledger := credited }
  | .realizedPnl userId symbol amount timestamp =>
      let seq := processor.pnlSeq + 1
      let ledger := processor.ledger.getOrCreateAccount userId
      let settled := ledger.settleRealizedPnlCapped userId amount
        (pnlKey seq userId symbol) timestamp
      .ok { processor with ledger := settled.1, pnlSeq := seq }
  | .fundingSettled userId symbol period amount timestamp =>
      let ledger := processor.ledger.getOrCreateAccount userId
      let settled := ledger.settleRealizedPnlCapped userId (-amount)
        (fundingKey period userId symbol) timestamp
      .ok { processor with
        ledger := settled.1
        fundingPeriodId :=
          if processor.fundingPeriodId < period then period else processor.fundingPeriodId }
  | _ => .ok processor

end PostTradeProcessor
end Exg
