import Exg.Clearing.PostTrade
import Exg.Ledger.Operations
import Mathlib.Data.List.Sort

/-!
# The clearing service

The service keeps positions and a ledger side by side.  Each operation changes the
positions itself and asks the ledger to move the money, and returns at the first request
that the ledger turns down.  What the source collects from its hash map comes in an order
of its own, so funding and deleveraging are given one.
-/

namespace Exg

/-- Helper struct for trade processing. -/
structure TradeInfo where
  tradeId : TradeId
  symbol : SymbolId
  price : Decimal128
  qty : Decimal128
  buyerUserId : UserId
  sellerUserId : UserId
  buyerFee : Decimal128
  sellerFee : Decimal128
  buyerLeverage : Decimal128
  sellerLeverage : Decimal128
  buyerMarginMode : MarginMode
  sellerMarginMode : MarginMode
  timestamp : UnixMicros
  deriving DecidableEq, Repr

/-- The arguments of `process_trade_side`. -/
structure TradeSide where
  userId : UserId
  symbol : SymbolId
  intendedSide : PositionSide
  qty : Decimal128
  price : Decimal128
  fee : Decimal128
  leverage : Decimal128
  marginMode : MarginMode
  idempotencyPrefix : String
  timestamp : UnixMicros

structure FundingResult where
  totalLongPayment : Decimal128
  totalShortPayment : Decimal128
  usersNeedingLiquidationCheck : List UserId
  deriving DecidableEq, Repr

inductive ClearingError where
  | position (error : PositionError)
  | ledger (error : LedgerError)
  | noPositionToLiquidate (userId : UserId) (symbol : SymbolId)
  | noCounterpartyPositions
  deriving DecidableEq, Repr

/-- How an operation returns early. -/
inductive ClearingStop where
  | failed (error : ClearingError)
  | panicked (text : String)
  deriving DecidableEq, Repr

structure ClearingService where
  positionManager : PositionManager
  ledger : Ledger

/-! ## Risk formulas -/

/-- Funding fee: positive when the user pays, negative when the user receives. -/
def calcFundingFee (positionSize markPrice fundingRate : Decimal128) (side : PositionSide) :
    Decimal128 :=
  let notional := positionSize * markPrice
  let fee := notional * fundingRate
  match side with
  | .long => fee
  | .short => -fee
  | .both => fee

def calcUnrealizedPnl (entryPrice markPrice size : Decimal128) (side : PositionSide) :
    Decimal128 :=
  match side with
  | .long | .both => (markPrice - entryPrice) * size
  | .short => (entryPrice - markPrice) * size

/-- Calculate ADL priority ranking, in descending order of score. -/
def calcAdlRanking (positions : List Position) (markPrice : Decimal128) :
    List (UserId × Decimal128) :=
  let scores := (positions.filter fun position => !position.margin.isZero).map fun position =>
    let unrealizedPnl :=
      calcUnrealizedPnl position.entryPrice markPrice position.size position.side
    let notional := position.size * markPrice
    let marginSq := position.margin * position.margin
    (position.userId, unrealizedPnl * notional / marginSq)
  scores.insertionSort fun first second => second.2 ≤ first.2

namespace PositionSide

/-- The side a trade closes before it opens. -/
def opposite : PositionSide → PositionSide
  | .long => .short
  | .short => .long
  | .both => .both

end PositionSide

/-! ## Trades -/

namespace TradeInfo

/-- The buyer is going long. -/
def buyerSide (trade : TradeInfo) : TradeSide where
  userId := trade.buyerUserId
  symbol := trade.symbol
  intendedSide := .long
  qty := trade.qty
  price := trade.price
  fee := trade.buyerFee
  leverage := trade.buyerLeverage
  marginMode := trade.buyerMarginMode
  idempotencyPrefix := "trade-" ++ toString trade.tradeId ++ "-buyer"
  timestamp := trade.timestamp

/-- The seller is going short. -/
def sellerSide (trade : TradeInfo) : TradeSide where
  userId := trade.sellerUserId
  symbol := trade.symbol
  intendedSide := .short
  qty := trade.qty
  price := trade.price
  fee := trade.sellerFee
  leverage := trade.sellerLeverage
  marginMode := trade.sellerMarginMode
  idempotencyPrefix := "trade-" ++ toString trade.tradeId ++ "-seller"
  timestamp := trade.timestamp

end TradeInfo

namespace TradeSide

/-- What the side closes of an opposite position, and what it opens. -/
def split (side : TradeSide) (existing : Option Position) : Decimal128 × Decimal128 :=
  match existing with
  | some position =>
      if position.side = side.intendedSide.opposite then
        let closeQty := min side.qty position.size
        (closeQty, side.qty - closeQty)
      else
        (0, side.qty)
  | none => (0, side.qty)

/-- Fee is proportionally split: close gets its share of the quantity. -/
def closeFee (side : TradeSide) (closeQty : Decimal128) : Decimal128 :=
  if side.qty.isPositive then side.fee * closeQty / side.qty else 0

def openFee (side : TradeSide) (closeQty openQty : Decimal128) : Decimal128 :=
  if closeQty.isPositive && side.qty.isPositive then side.fee * openQty / side.qty else side.fee

def closeKey (side : TradeSide) : String := side.idempotencyPrefix ++ "-close"

def openKey (side : TradeSide) : String := side.idempotencyPrefix ++ "-open"

end TradeSide

namespace ClearingService

variable (service : ClearingService) {α β : Type}

def new : ClearingService := ⟨.new, .new⟩

/-- Go on after a success; the `?` of the source. -/
def andThen (outcome : ClearingService × Except ClearingStop α)
    (rest : ClearingService → α → ClearingService × Except ClearingStop β) :
    ClearingService × Except ClearingStop β :=
  match outcome with
  | (reached, .ok value) => rest reached value
  | (reached, .error stop) => (reached, .error stop)

/-- Take over what the ledger has done. -/
def settle (asked : Ledger × OperationResult) : ClearingService × Except ClearingStop Unit :=
  ({ service with ledger := asked.1 },
    match asked.2 with
    | .done => .ok ()
    | .failed error => .error (.failed (.ledger error))
    | .panicked text => .error (.panicked text))

/-- Close or reduce the opposite position if needed. -/
def closeLeg (side : TradeSide) (closeQty : Decimal128) :
    ClearingService × Except ClearingStop Unit :=
  if closeQty.isPositive then
    let marginReleased := (service.positionManager.calcMarginReleased side.userId side.symbol
      closeQty).getD 0
    match service.positionManager.reduceOrClose side.userId side.symbol closeQty side.price with
    | .error error => (service, .error (.failed (.position error)))
    | .ok (realizedPnl, reduced) =>
        ({ service with positionManager := reduced } : ClearingService).settle
          (service.ledger.closePositionSettled side.userId marginReleased realizedPnl
            (side.closeFee closeQty) side.closeKey side.timestamp)
  else
    (service, .ok ())

/-- Open or increase a position in the intended direction if there is a remainder. -/
def openLeg (side : TradeSide) (closeQty openQty : Decimal128) :
    ClearingService × Except ClearingStop Unit :=
  if openQty.isPositive then
    let marginAmount := openQty * side.price / side.leverage
    andThen (service.settle (service.ledger.openPosition side.userId marginAmount
      (side.openFee closeQty openQty) side.openKey side.timestamp)) fun settled _ =>
        ({ settled with
            positionManager := settled.positionManager.openOrIncrease side.userId side.symbol
              side.intendedSide openQty side.price side.leverage side.marginMode },
          .ok ())
  else
    (service, .ok ())

/-- Process one side of a trade. -/
def processTradeSide (side : TradeSide) : ClearingService × Except ClearingStop Unit :=
  let quantities :=
    side.split (service.positionManager.getPosition side.userId side.symbol)
  andThen (service.closeLeg side quantities.1) fun closed _ =>
    closed.openLeg side quantities.1 quantities.2

/-- Process a trade: the buyer's side, then the seller's. -/
def processTrade (trade : TradeInfo) : ClearingService × Except ClearingStop Unit :=
  andThen (service.processTradeSide trade.buyerSide) fun bought _ =>
    bought.processTradeSide trade.sellerSide

/-! ## Liquidation -/

def liquidationKey (userId : UserId) (symbol : SymbolId) : String :=
  "liq-" ++ toString userId ++ "-" ++ toString symbol

/-- Process a liquidation at the time `now`.  Returns the surplus or deficit. -/
def processLiquidation (userId : UserId) (symbol : SymbolId) (exitPrice : Decimal128)
    (now : UnixMicros) : ClearingService × Except ClearingStop Decimal128 :=
  match service.positionManager.forceClose userId symbol with
  | none => (service, .error (.failed (.noPositionToLiquidate userId symbol)))
  | some (position, closed) =>
      let realizedPnl := PositionManager.realizedPnl position exitPrice position.size
      let surplus := position.margin + realizedPnl
      andThen (({ service with positionManager := closed } : ClearingService).settle
        (service.ledger.liquidate userId position.margin surplus
          (liquidationKey userId symbol) now)) fun settled _ => (settled, .ok surplus)

/-! ## Funding -/

/-- Add a funding payment to its position.  Where the wallet holds less margin than the
position, the position's margin becomes the wallet's. -/
def recordFunding (userId : UserId) (symbol : SymbolId) (payment : Decimal128)
    (ledger : Ledger) (manager : PositionManager) : PositionManager :=
  match manager.getPosition userId symbol with
  | none => manager
  | some position =>
      let margin :=
        match ledger.getBalance userId .futures with
        | some balance =>
            if payment.isPositive && balance.margin < position.margin then balance.margin
            else position.margin
        | none => position.margin
      { positions := manager.positions.insert (userId, symbol)
          { position with
            accumulatedFunding := position.accumulatedFunding + payment
            margin := margin } }

/-- The running result after one more payment. -/
def countFunding (result : FundingResult) (position : Position) (payment : Decimal128)
    (ledger : Ledger) : FundingResult :=
  let touched :=
    match ledger.getBalance position.userId .futures with
    | some balance => payment.isPositive && balance.margin < position.margin
    | none => false
  let users := result.usersNeedingLiquidationCheck ++ if touched then [position.userId] else []
  match position.side with
  | .long | .both =>
      { result with
        totalLongPayment := result.totalLongPayment + payment
        usersNeedingLiquidationCheck := users }
  | .short =>
      { result with
        totalShortPayment := result.totalShortPayment + payment
        usersNeedingLiquidationCheck := users }

/-- The loop of `settle_funding` over the positions it has collected. -/
def settleFundingEach (fundingRate markPrice : Decimal128) (fundingPeriodId : Nat)
    (timestamp : UnixMicros) : List Position → FundingResult → ClearingService →
      ClearingService × Except ClearingStop FundingResult
  | [], result, service => (service, .ok result)
  | position :: rest, result, service =>
      let payment := calcFundingFee position.size markPrice fundingRate position.side
      if payment.isZero then
        settleFundingEach fundingRate markPrice fundingPeriodId timestamp rest result service
      else
        andThen (service.settle (service.ledger.settleFunding position.userId payment
          (fundingKey fundingPeriodId position.userId position.symbol) timestamp))
          fun settled _ =>
            settleFundingEach fundingRate markPrice fundingPeriodId timestamp rest
              (countFunding result position payment settled.ledger)
              { settled with
                positionManager := recordFunding position.userId position.symbol payment
                  settled.ledger settled.positionManager }

/-- Settle funding payments for all positions of a given symbol. -/
def settleFunding (order : IterationOrder) (symbol : SymbolId)
    (fundingRate markPrice : Decimal128) (fundingPeriodId : Nat) (timestamp : UnixMicros) :
    ClearingService × Except ClearingStop FundingResult :=
  let positions := (order.visit 0 service.positionManager.allPositions).filter fun position =>
    position.symbol = symbol
  settleFundingEach fundingRate markPrice fundingPeriodId timestamp positions ⟨0, 0, []⟩ service

/-! ## Auto-deleveraging -/

def adlKey (bankruptUser counterparty : UserId) (symbol : SymbolId) (timestamp : UnixMicros) :
    String :=
  "adl-" ++ toString bankruptUser ++ "-" ++ toString counterparty ++ "-" ++ toString symbol ++
    "-" ++ toString timestamp

/-- The side that deleveraging takes counterparties from. -/
def adlSide : PositionSide → PositionSide
  | .long => .short
  | .short => .long
  -- fallback
  | .both => .long

/-- The loop of `execute_adl` over the ranking. -/
def executeAdlEach (bankruptUser : UserId) (symbol : SymbolId) (markPrice : Decimal128)
    (timestamp : UnixMicros) : List (UserId × Decimal128) → Decimal128 →
      List (UserId × Decimal128) → ClearingService →
        ClearingService × Except ClearingStop (List (UserId × Decimal128))
  | [], _, results, service => (service, .ok results)
  | (counterparty, _) :: rest, remainingDeficit, results, service =>
      if !remainingDeficit.isPositive then
        (service, .ok results)
      else
        match service.positionManager.getPosition counterparty symbol with
        | none =>
            executeAdlEach bankruptUser symbol markPrice timestamp rest remainingDeficit results
              service
        | some position =>
            let neededQty := remainingDeficit / markPrice
            let reduceQty := min neededQty position.size
            if reduceQty.isZero then
              executeAdlEach bankruptUser symbol markPrice timestamp rest remainingDeficit results
                service
            else
              let marginReleased := (service.positionManager.calcMarginReleased counterparty
                symbol reduceQty).getD 0
              match service.positionManager.reduceOrClose counterparty symbol reduceQty
                  markPrice with
              | .error error => (service, .error (.failed (.position error)))
              | .ok (realizedPnl, reduced) =>
                  andThen (({ service with positionManager := reduced } : ClearingService).settle
                    (service.ledger.closePositionSettled counterparty marginReleased realizedPnl
                      0 (adlKey bankruptUser counterparty symbol timestamp) timestamp))
                    fun settled _ =>
                      executeAdlEach bankruptUser symbol markPrice timestamp rest
                        (remainingDeficit - reduceQty * markPrice)
                        (results ++ [(counterparty, reduceQty)]) settled

/-- The positions that can be deleveraged. -/
def counterpartyPositions (order : IterationOrder) (bankruptUser : UserId) (symbol : SymbolId)
    (bankruptSide : PositionSide) : List Position :=
  (order.visit 0 service.positionManager.allPositions).filter fun position =>
    position.symbol = symbol ∧ position.side = adlSide bankruptSide ∧
      position.userId ≠ bankruptUser

/-- Execute ADL (Auto-Deleveraging) when the insurance fund is depleted.  Returns who was
reduced, and by how much. -/
def executeAdl (order : IterationOrder) (bankruptUser : UserId) (symbol : SymbolId)
    (bankruptSide : PositionSide) (deficit markPrice : Decimal128) (timestamp : UnixMicros) :
    ClearingService × Except ClearingStop (List (UserId × Decimal128)) :=
  let positions := service.counterpartyPositions order bankruptUser symbol bankruptSide
  if positions.isEmpty then
    (service, .error (.failed .noCounterpartyPositions))
  else
    executeAdlEach bankruptUser symbol markPrice timestamp (calcAdlRanking positions markPrice)
      deficit [] service

/-! ## Calls -/

/-- The operations on a service, and those on its public `ledger` field. -/
inductive ClearingCall where
  | funds (call : Ledger.LedgerCall)
  | processTrade (trade : TradeInfo)
  | processLiquidation (userId : UserId) (symbol : SymbolId) (exitPrice : Decimal128)
      (now : UnixMicros)
  | settleFunding (order : IterationOrder) (symbol : SymbolId)
      (fundingRate markPrice : Decimal128) (fundingPeriodId : Nat) (timestamp : UnixMicros)
  | executeAdl (order : IterationOrder) (bankruptUser : UserId) (symbol : SymbolId)
      (bankruptSide : PositionSide) (deficit markPrice : Decimal128) (timestamp : UnixMicros)

/-- A result without its value. -/
def withoutValue (outcome : ClearingService × Except ClearingStop α) :
    ClearingService × Except ClearingStop Unit :=
  (outcome.1, outcome.2.map fun _ => ())

/-- Carry out a call. -/
def perform : ClearingCall → ClearingService × Except ClearingStop Unit
  | .funds call => service.settle (service.ledger.perform call)
  | .processTrade trade => service.processTrade trade
  | .processLiquidation userId symbol exitPrice now =>
      withoutValue (service.processLiquidation userId symbol exitPrice now)
  | .settleFunding order symbol fundingRate markPrice fundingPeriodId timestamp =>
      withoutValue
        (service.settleFunding order symbol fundingRate markPrice fundingPeriodId timestamp)
  | .executeAdl order bankruptUser symbol bankruptSide deficit markPrice timestamp =>
      withoutValue (service.executeAdl order bankruptUser symbol bankruptSide deficit markPrice
        timestamp)

/-- One call of a run, with what it returned. -/
def step (service : ClearingService) (call : ClearingCall) :
    ClearingService × List (ClearingCall × Except ClearingStop Unit) :=
  let next := service.perform call
  (next.1, [(call, next.2)])

end ClearingService
end Exg
