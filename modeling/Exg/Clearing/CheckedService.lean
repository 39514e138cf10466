import Exg.Clearing.CheckedPostTrade
import Exg.Clearing.ServiceDivisions
import Exg.Ledger.CheckedOperations
import Exg.Risk.CheckedMargin

/-!
# The clearing service, with its panics

The operations of the service as they run when every operator may panic: each computes what the
source computes, in its order, and asks a ledger that may panic, too.  Where an operation has a
result, it is the one it has when nothing but a division by zero panics.
-/

namespace Exg

open Support

private theorem Decimal128.ne_zero_of_div? {left right quotient : Decimal128}
    (divided : left.div? right = some quotient) : right ≠ 0 := by
  rintro rfl
  have panics : left.div? 0 = none := rfl
  rw [panics] at divided
  cases divided

/-! ## Risk formulas -/

/-- What the score of a position computes. -/
def scoreSums? (markPrice : Decimal128) (position : Position) : Option Unit := do
  let unrealizedPnl ←
    calcUnrealizedPnl? position.entryPrice markPrice position.size position.side
  let notional ← position.size.mul? markPrice
  let _ ← position.margin.mul? position.margin
  let product ← unrealizedPnl.mul? notional
  let _ ← product.div? (position.margin * position.margin)
  some ()

def checkedAdlRanking (positions : List Position) (markPrice : Decimal128) :
    Option (List (UserId × Decimal128)) := do
  let _ ← (positions.filter fun position => !position.margin.isZero).mapM (scoreSums? markPrice)
  some (calcAdlRanking positions markPrice)

def calcFundingFee? (positionSize markPrice fundingRate : Decimal128) (side : PositionSide) :
    Option Decimal128 := do
  let notional ← positionSize.mul? markPrice
  let fee ← notional.mul? fundingRate
  match side with
  | .long | .both => some fee
  | .short => fee.neg?

namespace TradeSide

variable (side : TradeSide)

def splitSums? (existing : Option Position) : Option Unit :=
  match existing with
  | some position =>
      if position.side = side.intendedSide.opposite then do
        let _ ← side.qty.sub? (min side.qty position.size)
        some ()
      else
        some ()
  | none => some ()

/-- The share of the fee that falls to a part of the quantity. -/
def feeShare? (part : Decimal128) : Option Unit := do
  let product ← side.fee.mul? part
  let _ ← product.div? side.qty
  some ()

def closeFeeSums? (closeQty : Decimal128) : Option Unit :=
  if side.qty.isPositive then side.feeShare? closeQty else some ()

def openFeeSums? (closeQty openQty : Decimal128) : Option Unit :=
  if closeQty.isPositive && side.qty.isPositive then side.feeShare? openQty else some ()

end TradeSide

namespace PositionManager

variable (manager : PositionManager) (userId : UserId) (symbol : SymbolId)

def releaseSums? (quantity : Decimal128) : Option Unit :=
  match manager.getPosition userId symbol with
  | none => some ()
  | some position => do
      let product ← position.margin.mul? quantity
      let _ ← product.div? position.size
      some ()

/-- Add a funding payment to what a position has accumulated. -/
def fundingSums? (payment : Decimal128) : Option Unit :=
  match manager.getPosition userId symbol with
  | none => some ()
  | some position => do
      let _ ← position.accumulatedFunding.add? payment
      some ()

end PositionManager

/-- Count a funding payment. -/
def FundingResult.countSums? (result : FundingResult) (side : PositionSide)
    (payment : Decimal128) : Option Unit := do
  let _ ← match side with
    | .long | .both => result.totalLongPayment.add? payment
    | .short => result.totalShortPayment.add? payment
  some ()

namespace ClearingService

variable (service : ClearingService)

/-! ## Operations -/

/-- Ask the ledger. -/
def settle? (call : Ledger.LedgerCall) :
    Option (ClearingService × Except ClearingStop Unit) := do
  let asked ← service.ledger.perform? call
  some (service.settle asked)

/-- Reduce a position, and ask the ledger to release the margin. -/
def checkedClose (userId : UserId) (symbol : SymbolId) (quantity price : Decimal128)
    (feeSums : Option Unit) (fee : Decimal128) (key : String) (timestamp : UnixMicros) :
    Option (ClearingService × Except ClearingStop Unit) := do
  let marginReleased :=
    (service.positionManager.calcMarginReleased userId symbol quantity).getD 0
  service.positionManager.releaseSums? userId symbol quantity
  let reduced ← service.positionManager.reduceOrClose? userId symbol quantity price
  match reduced with
  | .error error => some (service, .error (.failed (.position error)))
  | .ok (realizedPnl, reduced) => do
      feeSums
      ({ service with positionManager := reduced } : ClearingService).settle?
        (.closePositionSettled userId marginReleased realizedPnl fee key timestamp)

def checkedCloseLeg (side : TradeSide) (closeQty : Decimal128) :
    Option (ClearingService × Except ClearingStop Unit) :=
  if closeQty.isPositive then
    service.checkedClose side.userId side.symbol closeQty side.price (side.closeFeeSums? closeQty)
      (side.closeFee closeQty) side.closeKey side.timestamp
  else
    some (service, .ok ())

def checkedOpenLeg (side : TradeSide) (closeQty openQty : Decimal128) :
    Option (ClearingService × Except ClearingStop Unit) :=
  if openQty.isPositive then do
    let notional ← openQty.mul? side.price
    let _ ← notional.div? side.leverage
    side.openFeeSums? closeQty openQty
    let asked ← service.settle? (.openPosition side.userId (openQty * side.price / side.leverage)
      (side.openFee closeQty openQty) side.openKey side.timestamp)
    andThen? asked fun settled _ => do
      let increased ← settled.positionManager.openOrIncrease? side.userId side.symbol
        side.intendedSide openQty side.price side.leverage side.marginMode
      some ({ settled with positionManager := increased }, .ok ())
  else
    some (service, .ok ())

def checkedTradeSide (side : TradeSide) : Option (ClearingService × Except ClearingStop Unit) := do
  let existing := service.positionManager.getPosition side.userId side.symbol
  side.splitSums? existing
  let quantities := side.split existing
  let closed ← service.checkedCloseLeg side quantities.1
  andThen? closed fun closed _ => closed.checkedOpenLeg side quantities.1 quantities.2

def checkedTrade (trade : TradeInfo) : Option (ClearingService × Except ClearingStop Unit) := do
  let bought ← service.checkedTradeSide trade.buyerSide
  andThen? bought fun bought _ => bought.checkedTradeSide trade.sellerSide

def checkedLiquidation (userId : UserId) (symbol : SymbolId) (exitPrice : Decimal128)
    (now : UnixMicros) : Option (ClearingService × Except ClearingStop Decimal128) :=
  match service.positionManager.forceClose userId symbol with
  | none => some (service, .error (.failed (.noPositionToLiquidate userId symbol)))
  | some (position, closed) => do
      let _ ← calcUnrealizedPnl? position.entryPrice exitPrice position.size position.side
      let surplus ← position.margin.add?
        (PositionManager.realizedPnl position exitPrice position.size)
      let asked ← ({ service with positionManager := closed } : ClearingService).settle?
        (.liquidate userId position.margin surplus (liquidationKey userId symbol) now)
      andThen? asked fun settled _ => some (settled, .ok surplus)

/-- The loop of `settle_funding` over the positions it has collected. -/
def checkedFundingEach (fundingRate markPrice : Decimal128) (fundingPeriodId : Nat)
    (timestamp : UnixMicros) : List Position → FundingResult → ClearingService →
      Option (ClearingService × Except ClearingStop FundingResult)
  | [], result, service => some (service, .ok result)
  | position :: rest, result, service => do
      let _ ← calcFundingFee? position.size markPrice fundingRate position.side
      let payment := calcFundingFee position.size markPrice fundingRate position.side
      if payment.isZero then
        checkedFundingEach fundingRate markPrice fundingPeriodId timestamp rest result service
      else do
        let asked ← service.settle? (.settleFunding position.userId payment
          (fundingKey fundingPeriodId position.userId position.symbol) timestamp)
        andThen? asked fun settled _ => do
          settled.positionManager.fundingSums? position.userId position.symbol payment
          result.countSums? position.side payment
          checkedFundingEach fundingRate markPrice fundingPeriodId timestamp rest
            (countFunding result position payment settled.ledger)
            { settled with
              positionManager := recordFunding position.userId position.symbol payment
                settled.ledger settled.positionManager }

def checkedFunding (order : IterationOrder) (symbol : SymbolId)
    (fundingRate markPrice : Decimal128) (fundingPeriodId : Nat) (timestamp : UnixMicros) :
    Option (ClearingService × Except ClearingStop FundingResult) :=
  let positions := (order.visit 0 service.positionManager.allPositions).filter fun position =>
    position.symbol = symbol
  checkedFundingEach fundingRate markPrice fundingPeriodId timestamp positions ⟨0, 0, []⟩ service

/-- The loop of `execute_adl` over the ranking. -/
def checkedAdlEach (bankruptUser : UserId) (symbol : SymbolId) (markPrice : Decimal128)
    (timestamp : UnixMicros) : List (UserId × Decimal128) → Decimal128 →
      List (UserId × Decimal128) → ClearingService →
        Option (ClearingService × Except ClearingStop (List (UserId × Decimal128)))
  | [], _, results, service => some (service, .ok results)
  | (counterparty, _) :: rest, remainingDeficit, results, service =>
      if !remainingDeficit.isPositive then
        some (service, .ok results)
      else
        match service.positionManager.getPosition counterparty symbol with
        | none =>
            checkedAdlEach bankruptUser symbol markPrice timestamp rest remainingDeficit results
              service
        | some position => do
            let _ ← remainingDeficit.div? markPrice
            let neededQty := remainingDeficit / markPrice
            let reduceQty := min neededQty position.size
            if reduceQty.isZero then
              checkedAdlEach bankruptUser symbol markPrice timestamp rest remainingDeficit results
                service
            else do
              let closed ← service.checkedClose counterparty symbol reduceQty markPrice (some ()) 0
                (adlKey bankruptUser counterparty symbol timestamp) timestamp
              andThen? closed fun settled _ => do
                let covered ← reduceQty.mul? markPrice
                let _ ← remainingDeficit.sub? covered
                checkedAdlEach bankruptUser symbol markPrice timestamp rest
                  (remainingDeficit - reduceQty * markPrice)
                  (results ++ [(counterparty, reduceQty)]) settled

def checkedAdl (order : IterationOrder) (bankruptUser : UserId) (symbol : SymbolId)
    (bankruptSide : PositionSide) (deficit markPrice : Decimal128) (timestamp : UnixMicros) :
    Option (ClearingService × Except ClearingStop (List (UserId × Decimal128))) :=
  let positions := service.counterpartyPositions order bankruptUser symbol bankruptSide
  if positions.isEmpty then
    some (service, .error (.failed .noCounterpartyPositions))
  else do
    let ranking ← checkedAdlRanking positions markPrice
    checkedAdlEach bankruptUser symbol markPrice timestamp ranking deficit [] service

/-- Carry out a call whose numbers stay in range. -/
def checkedPerform : ClearingCall → Option (ClearingService × Except ClearingStop Unit)
  | .funds call => service.settle? call
  | .processTrade trade => service.checkedTrade trade
  | .processLiquidation userId symbol exitPrice now =>
      (service.checkedLiquidation userId symbol exitPrice now).map withoutValue
  | .settleFunding order symbol fundingRate markPrice fundingPeriodId timestamp =>
      (service.checkedFunding order symbol fundingRate markPrice fundingPeriodId timestamp).map
        withoutValue
  | .executeAdl order bankruptUser symbol bankruptSide deficit markPrice timestamp =>
      (service.checkedAdl order bankruptUser symbol bankruptSide deficit markPrice timestamp).map
        withoutValue

/-! ## What they agree with -/

section Agreement

variable {service : ClearingService} {α β : Type}

private theorem within_andThen {outcome : ClearingService × Except ClearingStop α}
    {rest later : ClearingService → α → Option (ClearingService × Except ClearingStop β)}
    (next : ∀ reached value, Within (rest reached value) (later reached value)) :
    Within (andThen? outcome rest) (andThen? outcome later) := by
  obtain ⟨reached, stop | value⟩ := outcome
  · exact .refl _
  · exact next reached value

private theorem agrees_settle (service : ClearingService) (call : Ledger.LedgerCall) :
    Agrees (service.settle? call) (service.settle (service.ledger.perform call)) :=
  (service.ledger.agrees_perform call).bind_some service.settle

/-- A position is reduced, and the ledger is asked, as with exact numbers. -/
private theorem agrees_close (service : ClearingService) (userId : UserId) (symbol : SymbolId)
    (quantity price : Decimal128) (feeSums : Option Unit) (fee : Decimal128) (key : String)
    (timestamp : UnixMicros) :
    Agrees (service.checkedClose userId symbol quantity price feeSums fee key timestamp)
      (match service.positionManager.reduceOrClose userId symbol quantity price with
        | .error error => (service, .error (.failed (.position error)))
        | .ok (realizedPnl, reduced) =>
            ({ service with positionManager := reduced } : ClearingService).settle
              (service.ledger.closePositionSettled userId
                ((service.positionManager.calcMarginReleased userId symbol quantity).getD 0)
                realizedPnl fee key timestamp)) := by
  refine .after fun _ => (PositionManager.agrees_reduceOrClose quantity price).bind ?_
  cases service.positionManager.reduceOrClose userId symbol quantity price with
  | error error => exact .pure _
  | ok reduced => exact .after fun _ => agrees_settle _ _

private theorem agrees_closeLeg (service : ClearingService) (side : TradeSide)
    (closeQty : Decimal128) :
    Agrees (service.checkedCloseLeg side closeQty) (service.closeLeg side closeQty) :=
  .ite (agrees_close service _ _ _ _ _ _ _ _) (.pure _)

private theorem within_openLeg (service : ClearingService) (side : TradeSide)
    (closeQty openQty : Decimal128) :
    Within (service.checkedOpenLeg side closeQty openQty)
      (service.openLeg? side closeQty openQty) := by
  refine .ite (.after fun notional _ => .after fun amount divided => ?_) (.refl _)
  rw [Decimal128.over?, if_neg (Decimal128.ne_zero_of_div? divided)]
  refine .after fun _ _ => .after_agrees (agrees_settle _ _) (Agrees.within ?_)
  exact agrees_andThen fun settled _ =>
    (PositionManager.agrees_openOrIncrease _ _ _ _ _).bind (.pure _)

private theorem within_tradeSide (service : ClearingService) (side : TradeSide) :
    Within (service.checkedTradeSide side) (service.processTradeSide? side) :=
  .after fun _ _ => .after_agrees (agrees_closeLeg _ _ _)
    (within_andThen fun closed _ => within_openLeg closed side _ _)

private theorem within_trade (service : ClearingService) (trade : TradeInfo) :
    Within (service.checkedTrade trade) (service.processTrade? trade) :=
  (within_tradeSide service _).bind fun _ =>
    within_andThen fun bought _ => within_tradeSide bought _

private theorem agrees_liquidation (service : ClearingService) (userId : UserId)
    (symbol : SymbolId) (exitPrice : Decimal128) (now : UnixMicros) :
    Agrees (service.checkedLiquidation userId symbol exitPrice now)
      (service.processLiquidation userId symbol exitPrice now) := by
  rw [checkedLiquidation, processLiquidation]
  cases service.positionManager.forceClose userId symbol with
  | none => exact .pure _
  | some closed =>
      refine .after fun _ => (Decimal128.computes_add _ _).agrees.bind ?_
      exact (agrees_settle _ _).bind (agrees_andThen fun settled _ => .pure _)

private theorem agrees_fundingEach {fundingRate markPrice : Decimal128} {fundingPeriodId : Nat}
    {timestamp : UnixMicros} (positions : List Position) (result : FundingResult)
    (service : ClearingService) :
    Agrees (checkedFundingEach fundingRate markPrice fundingPeriodId timestamp positions result
        service)
      (settleFundingEach fundingRate markPrice fundingPeriodId timestamp positions result
        service) := by
  induction positions generalizing result service with
  | nil => exact .pure _
  | cons position rest inductionHypothesis =>
      refine .after fun _ => .ite (inductionHypothesis _ _) ((agrees_settle _ _).bind ?_)
      exact agrees_andThen fun settled _ => .after fun _ => .after fun _ => inductionHypothesis _ _

private theorem within_adlEach {bankruptUser : UserId} {symbol : SymbolId}
    {markPrice : Decimal128} {timestamp : UnixMicros} (ranking : List (UserId × Decimal128))
    (remainingDeficit : Decimal128) (results : List (UserId × Decimal128))
    (service : ClearingService) :
    Within (checkedAdlEach bankruptUser symbol markPrice timestamp ranking remainingDeficit results
        service)
      (executeAdlEach? bankruptUser symbol markPrice timestamp ranking remainingDeficit results
        service) := by
  induction ranking generalizing remainingDeficit results service with
  | nil => exact .refl _
  | cons entry rest inductionHypothesis =>
      refine .ite (.refl _) ?_
      cases service.positionManager.getPosition entry.1 symbol with
      | none => exact inductionHypothesis _ _ _
      | some position =>
          refine .after fun _ divided => ?_
          rw [Decimal128.over?, if_neg (Decimal128.ne_zero_of_div? divided)]
          refine .ite (inductionHypothesis _ _ _) ?_
          refine .after_agrees (agrees_close _ _ _ _ _ _ _ _ _) ?_
          cases service.positionManager.reduceOrClose entry.1 symbol
              (min (remainingDeficit / markPrice) position.size) markPrice with
          | error error => exact .refl _
          | ok reduced =>
              exact within_andThen fun settled _ =>
                .after fun _ _ => .after fun _ _ => inductionHypothesis _ _ _

private theorem within_adlRanking (positions : List Position) (markPrice : Decimal128) :
    Within (checkedAdlRanking positions markPrice) (calcAdlRanking? positions markPrice) := by
  refine .after fun scores computed => ?_
  have scored := isSome_of_mapM computed
  rw [(computes_calcAdlRanking positions markPrice).eq_some]
  · exact .refl _
  · rintro position member ⟨nonzero, square⟩
    have some := scored position (List.mem_filter.2 ⟨member, by simpa [Decimal128.isZero]⟩)
    obtain ⟨_, ended⟩ := Option.isSome_iff_exists.1 some
    obtain ⟨_, -, ended⟩ := Option.bind_eq_some_iff.1 ended
    obtain ⟨_, -, ended⟩ := Option.bind_eq_some_iff.1 ended
    obtain ⟨_, -, ended⟩ := Option.bind_eq_some_iff.1 ended
    obtain ⟨_, -, ended⟩ := Option.bind_eq_some_iff.1 ended
    obtain ⟨_, divided, -⟩ := Option.bind_eq_some_iff.1 ended
    exact Decimal128.ne_zero_of_div? divided square

private theorem within_adl (service : ClearingService) (order : IterationOrder)
    (bankruptUser : UserId) (symbol : SymbolId) (bankruptSide : PositionSide)
    (deficit markPrice : Decimal128) (timestamp : UnixMicros) :
    Within (service.checkedAdl order bankruptUser symbol bankruptSide deficit markPrice timestamp)
      (service.executeAdl? order bankruptUser symbol bankruptSide deficit markPrice timestamp) :=
  .ite (.refl _) ((within_adlRanking _ _).bind fun _ => within_adlEach _ _ _ _)

/-- A call that returns has the result that it has when only divisions by zero panic. -/
theorem within_perform (service : ClearingService) (call : ClearingCall) :
    Within (service.checkedPerform call) (service.perform? call) := by
  cases call with
  | funds call => exact (agrees_settle service call).within
  | processTrade trade => exact within_trade service trade
  | processLiquidation userId symbol exitPrice now =>
      exact ((agrees_liquidation service userId symbol exitPrice now).map withoutValue).within
  | settleFunding order symbol fundingRate markPrice fundingPeriodId timestamp =>
      exact ((agrees_fundingEach _ _ service).map withoutValue).within
  | executeAdl order bankruptUser symbol bankruptSide deficit markPrice timestamp =>
      exact (within_adl service order bankruptUser symbol bankruptSide deficit markPrice
        timestamp).map withoutValue

/-! ## Runs -/

/-- One call of a run, if it returns. -/
def checkedStep (service : ClearingService) (call : ClearingCall) :
    Option (ClearingService × List (ClearingCall × Except ClearingStop Unit)) := do
  let next ← service.checkedPerform call
  some (next.1, [(call, next.2)])

/-- Where every call of a run returns, the run is the one of exact numbers. -/
theorem agrees_runs (service : ClearingService) (calls : List ClearingCall) :
    Agrees (runPartial checkedStep service calls) (run step service calls) :=
  agrees_run (fun service call => ((within_perform service call).agrees
    (agrees_perform service call)).bind_some fun next => (next.1, [(call, next.2)])) service calls

end Agreement
end ClearingService
end Exg
