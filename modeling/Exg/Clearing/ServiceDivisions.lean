import Exg.Clearing.Requests
import Exg.Support.Definedness

/-!
# Divisions by zero

A leverage of zero, a mark price of zero and a margin whose square is nothing make the clearing
service divide by zero, which panics.  The operations here stop with nothing there.  A trade
stops before the request to open at a leverage of zero, and has made the requests before it.
-/

namespace Exg

open Support
open Ledger (LedgerCall)

/-- `Div`, as far as it panics on a divisor of zero. -/
def Decimal128.over? (left right : Decimal128) : Option Decimal128 :=
  if right = 0 then none else some (left / right)

private theorem Decimal128.computes_over (left right : Decimal128) :
    Computes (left.over? right) (right ≠ 0) (left / right) := by
  intro result
  rw [over?]
  by_cases zero : right = 0
  · simp [zero]
  · simp [zero]

/-- Calculate ADL priority ranking; each score divides by the square of a margin. -/
def calcAdlRanking? (positions : List Position) (markPrice : Decimal128) :
    Option (List (UserId × Decimal128)) := do
  let scores ← (positions.filter fun position => !position.margin.isZero).mapM fun position => do
    let unrealizedPnl :=
      calcUnrealizedPnl position.entryPrice markPrice position.size position.side
    let notional := position.size * markPrice
    let marginSq := position.margin * position.margin
    let score ← (unrealizedPnl * notional).over? marginSq
    some (position.userId, score)
  some (scores.insertionSort fun first second => second.2 ≤ first.2)

namespace ClearingService

variable (service : ClearingService) {α β : Type}

/-- Go on after a success. -/
def andThen? (outcome : ClearingService × Except ClearingStop α)
    (rest : ClearingService → α → Option (ClearingService × Except ClearingStop β)) :
    Option (ClearingService × Except ClearingStop β) :=
  match outcome with
  | (reached, .ok value) => rest reached value
  | (reached, .error stop) => some (reached, .error stop)

/-- Open or increase a position in the intended direction if there is a remainder. -/
def openLeg? (side : TradeSide) (closeQty openQty : Decimal128) :
    Option (ClearingService × Except ClearingStop Unit) :=
  if openQty.isPositive then do
    let marginAmount ← (openQty * side.price).over? side.leverage
    some (andThen (service.settle (service.ledger.openPosition side.userId marginAmount
      (side.openFee closeQty openQty) side.openKey side.timestamp)) fun settled _ =>
        ({ settled with
            positionManager := settled.positionManager.openOrIncrease side.userId side.symbol
              side.intendedSide openQty side.price side.leverage side.marginMode },
          .ok ()))
  else
    some (service, .ok ())

/-- Process one side of a trade. -/
def processTradeSide? (side : TradeSide) :
    Option (ClearingService × Except ClearingStop Unit) :=
  let quantities :=
    side.split (service.positionManager.getPosition side.userId side.symbol)
  andThen? (service.closeLeg side quantities.1) fun closed _ =>
    closed.openLeg? side quantities.1 quantities.2

/-- Process a trade: the buyer's side, then the seller's. -/
def processTrade? (trade : TradeInfo) : Option (ClearingService × Except ClearingStop Unit) := do
  let outcome ← service.processTradeSide? trade.buyerSide
  andThen? outcome fun bought _ => bought.processTradeSide? trade.sellerSide

/-- The loop of `execute_adl` over the ranking. -/
def executeAdlEach? (bankruptUser : UserId) (symbol : SymbolId) (markPrice : Decimal128)
    (timestamp : UnixMicros) : List (UserId × Decimal128) → Decimal128 →
      List (UserId × Decimal128) → ClearingService →
        Option (ClearingService × Except ClearingStop (List (UserId × Decimal128)))
  | [], _, results, service => some (service, .ok results)
  | (counterparty, _) :: rest, remainingDeficit, results, service =>
      if !remainingDeficit.isPositive then
        some (service, .ok results)
      else
        match service.positionManager.getPosition counterparty symbol with
        | none =>
            executeAdlEach? bankruptUser symbol markPrice timestamp rest remainingDeficit results
              service
        | some position => do
            let neededQty ← remainingDeficit.over? markPrice
            let reduceQty := min neededQty position.size
            if reduceQty.isZero then
              executeAdlEach? bankruptUser symbol markPrice timestamp rest remainingDeficit results
                service
            else
              let marginReleased := (service.positionManager.calcMarginReleased counterparty
                symbol reduceQty).getD 0
              match service.positionManager.reduceOrClose counterparty symbol reduceQty
                  markPrice with
              | .error error => some (service, .error (.failed (.position error)))
              | .ok (realizedPnl, reduced) =>
                  andThen? (({ service with positionManager := reduced } : ClearingService).settle
                    (service.ledger.closePositionSettled counterparty marginReleased realizedPnl
                      0 (adlKey bankruptUser counterparty symbol timestamp) timestamp))
                    fun settled _ =>
                      executeAdlEach? bankruptUser symbol markPrice timestamp rest
                        (remainingDeficit - reduceQty * markPrice)
                        (results ++ [(counterparty, reduceQty)]) settled

/-- Execute ADL (Auto-Deleveraging) when the insurance fund is depleted. -/
def executeAdl? (order : IterationOrder) (bankruptUser : UserId) (symbol : SymbolId)
    (bankruptSide : PositionSide) (deficit markPrice : Decimal128) (timestamp : UnixMicros) :
    Option (ClearingService × Except ClearingStop (List (UserId × Decimal128))) :=
  let positions := service.counterpartyPositions order bankruptUser symbol bankruptSide
  if positions.isEmpty then
    some (service, .error (.failed .noCounterpartyPositions))
  else do
    let ranking ← calcAdlRanking? positions markPrice
    executeAdlEach? bankruptUser symbol markPrice timestamp ranking deficit [] service

/-- Carry out a call.  The other operations divide by nothing but sizes of positions. -/
def perform? : ClearingCall → Option (ClearingService × Except ClearingStop Unit)
  | .funds call => some (service.perform (.funds call))
  | .processTrade trade => service.processTrade? trade
  | .processLiquidation userId symbol exitPrice now =>
      some (service.perform (.processLiquidation userId symbol exitPrice now))
  | .settleFunding order symbol fundingRate markPrice fundingPeriodId timestamp =>
      some (service.perform
        (.settleFunding order symbol fundingRate markPrice fundingPeriodId timestamp))
  | .executeAdl order bankruptUser symbol bankruptSide deficit markPrice timestamp =>
      (service.executeAdl? order bankruptUser symbol bankruptSide deficit markPrice timestamp).map
        withoutValue

end ClearingService

/-! ## Trades -/

namespace PositionManager

variable (manager : PositionManager)

/-- Opening what the side opens divides by a leverage of zero. -/
def Divides (side : TradeSide) : Prop :=
  (manager.split side).2.isPositive ∧ side.leverage = 0

instance (side : TradeSide) : Decidable (manager.Divides side) :=
  inferInstanceAs (Decidable (_ ∧ _))

/-- The stages of a side before a division by zero. -/
def payableStages (side : TradeSide) : List ClearingStage :=
  if manager.Divides side then manager.closeStages side else manager.sideStages side

/-- The stages of a trade before a division by zero. -/
def tradeRequests (trade : TradeInfo) : List ClearingStage :=
  manager.payableStages trade.buyerSide ++
    if manager.Divides trade.buyerSide then []
    else (manager.takeSide trade.buyerSide).payableStages trade.sellerSide

variable {manager}

private theorem payableStages_sublist (side : TradeSide) :
    (manager.payableStages side).Sublist (manager.sideStages side) := by
  rw [payableStages]
  split
  · exact List.sublist_append_left _ _
  · exact List.Sublist.refl _

theorem tradeRequests_sublist (trade : TradeInfo) :
    (manager.tradeRequests trade).Sublist (manager.tradeStages trade) := by
  rw [tradeRequests, tradeStages]
  apply (payableStages_sublist _).append
  split
  · exact List.nil_sublist _
  · exact payableStages_sublist _

end PositionManager

namespace ClearingService

variable {service : ClearingService}

private theorem openLeg?_eq (service : ClearingService) (side : TradeSide)
    (closeQty openQty : Decimal128) :
    service.openLeg? side closeQty openQty =
      if openQty.isPositive ∧ side.leverage = 0 then none
      else some (service.openLeg side closeQty openQty) := by
  rw [openLeg?, openLeg, Decimal128.over?]
  by_cases opens : openQty.isPositive
  · by_cases zero : side.leverage = 0
    · simp [opens, zero]
    · simp [opens, zero]
  · simp [opens]

/-- A side panics where its closing part is granted and its opening part divides by zero. -/
theorem processTradeSide?_eq (service : ClearingService) (side : TradeSide) :
    service.processTradeSide? side =
      if service.positionManager.Divides side ∧
          (service.runOn (service.positionManager.closeStages side)).2 = none then none
      else some (service.processTradeSide side) := by
  have closed := closeLeg_eq service side
  rw [processTradeSide?, processTradeSide]
  simp only [PositionManager.split] at closed
  simp only [closed, openLeg?_eq, PositionManager.Divides, PositionManager.split]
  rcases service.runOn (service.positionManager.closeStages side) with ⟨stores, _ | stop⟩
  · simp only [ofStages, andThen?, andThen, and_true]
  · simp [ofStages, andThen?, andThen]

/-- A side that is turned down before it divides by zero ends as it does without the division. -/
theorem processTradeSide?_of_stopped {side : TradeSide} {stop : ClearingStop}
    (stopped : (service.runOn (service.positionManager.payableStages side)).2 = some stop) :
    service.processTradeSide? side = some (service.processTradeSide side) ∧
      service.processTradeSide side =
        ofStages (service.runOn (service.positionManager.payableStages side)) := by
  rw [processTradeSide?_eq, processTradeSide_eq]
  rw [PositionManager.payableStages] at stopped ⊢
  by_cases divides : service.positionManager.Divides side
  · rw [if_pos divides] at stopped ⊢
    refine ⟨if_neg fun both => Option.some_ne_none stop (stopped.symm.trans both.2), ?_⟩
    rw [PositionManager.sideStages, runOn, runStages_append_of_stopped stopped]
    rfl
  · rw [if_neg divides]
    exact ⟨if_neg fun both => divides both.1, rfl⟩

/-- A side whose requests are granted divides by zero or succeeds. -/
theorem processTradeSide?_of_finished {side : TradeSide}
    (finished : (service.runOn (service.positionManager.payableStages side)).2 = none) :
    service.processTradeSide? side =
      if service.positionManager.Divides side then none
      else some (ofStages (service.runOn (service.positionManager.sideStages side))) := by
  rw [processTradeSide?_eq, processTradeSide_eq]
  rw [PositionManager.payableStages] at finished
  by_cases divides : service.positionManager.Divides side
  · rw [if_pos divides] at finished
    rw [if_pos ⟨divides, finished⟩, if_pos divides]
  · rw [if_neg divides, if_neg fun both => divides both.1]

variable {trade : TradeInfo}

/-- After the buyer's side, the trade goes on with the seller's. -/
theorem seller_stages (free : ¬service.positionManager.Divides trade.buyerSide)
    (granted : (service.runOn (service.positionManager.payableStages trade.buyerSide)).2 = none) :
    ∃ ledger : Ledger,
      let bought : ClearingService := ⟨service.positionManager.takeSide trade.buyerSide, ledger⟩
      service.runOn (service.positionManager.tradeRequests trade) =
          bought.runOn (bought.positionManager.payableStages trade.sellerSide) ∧
        service.processTrade? trade = bought.processTradeSide? trade.sellerSide ∧
        service.processTrade trade = bought.processTradeSide trade.sellerSide := by
  have payable : service.positionManager.payableStages trade.buyerSide =
      service.positionManager.sideStages trade.buyerSide := by
    rw [PositionManager.payableStages, if_neg free]
  have side := processTradeSide?_of_finished granted
  have total := processTradeSide_eq service trade.buyerSide
  rw [if_neg free] at side
  rw [payable] at granted
  have positions := takeSide_of_finished granted
  refine ⟨(service.runOn (service.positionManager.sideStages trade.buyerSide)).1.2, ?_, ?_, ?_⟩
  · rw [PositionManager.tradeRequests, if_neg free, payable, runOn,
      runStages_append_of_finished granted, positions]
    rfl
  · rw [processTrade?, side, ofStages, granted, ← positions]
    rfl
  · rw [processTrade, total, ofStages, granted, ← positions]
    rfl

/-- A trade that is turned down before it divides by zero ends as it does without the division. -/
theorem processTrade?_of_stopped {stop : ClearingStop}
    (stopped : (service.runOn (service.positionManager.tradeRequests trade)).2 = some stop) :
    service.processTrade? trade = some (service.processTrade trade) ∧
      (service.processTrade trade).2 = .error stop := by
  cases granted :
      (service.runOn (service.positionManager.payableStages trade.buyerSide)).2 with
  | some told =>
      rw [PositionManager.tradeRequests, runOn, runStages_append_of_stopped granted] at stopped
      obtain ⟨bought, same⟩ := processTradeSide?_of_stopped granted
      rw [processTrade?, processTrade, bought, same, ofStages, granted,
        Option.some.inj (granted.symm.trans stopped)]
      exact ⟨rfl, rfl⟩
  | none =>
      by_cases divides : service.positionManager.Divides trade.buyerSide
      · rw [PositionManager.tradeRequests, if_pos divides, List.append_nil, granted] at stopped
        cases stopped
      · obtain ⟨ledger, requests, partly, total⟩ := seller_stages divides granted
        rw [requests] at stopped
        obtain ⟨sold, same⟩ := processTradeSide?_of_stopped stopped
        rw [partly, total, sold, same, ofStages, stopped]
        exact ⟨rfl, rfl⟩

/-- A trade whose requests are granted returns no error. -/
theorem processTrade?_of_finished
    (finished : (service.runOn (service.positionManager.tradeRequests trade)).2 = none)
    (reached : ClearingService) (stop : ClearingStop) :
    service.processTrade? trade ≠ some (reached, .error stop) := by
  cases granted :
      (service.runOn (service.positionManager.payableStages trade.buyerSide)).2 with
  | some told =>
      rw [PositionManager.tradeRequests, runOn, runStages_append_of_stopped granted] at finished
      exact absurd (granted.symm.trans finished) (Option.some_ne_none told)
  | none =>
      by_cases divides : service.positionManager.Divides trade.buyerSide
      · have panics := processTradeSide?_of_finished granted
        rw [if_pos divides] at panics
        rw [processTrade?, panics]
        exact fun returned => Option.some_ne_none _ returned.symm
      · obtain ⟨ledger, requests, partly, -⟩ := seller_stages divides granted
        rw [requests] at finished
        have sold := processTradeSide?_of_finished finished
        rw [partly, sold]
        split
        · exact fun returned => Option.some_ne_none _ returned.symm
        · rename_i free
          rw [PositionManager.payableStages, if_neg free] at finished
          rw [ofStages, finished]
          intro returned
          cases returned

/-! ## Deleveraging -/

/-- Ranking a position divides by zero: its margin is so small that its square is nothing. -/
def Unranked (position : Position) : Prop :=
  position.margin ≠ 0 ∧ position.margin * position.margin = 0

theorem computes_calcAdlRanking (positions : List Position) (markPrice : Decimal128) :
    Computes (calcAdlRanking? positions markPrice) (∀ position ∈ positions, ¬Unranked position)
      (calcAdlRanking positions markPrice) := by
  have score : ∀ position ∈ positions.filter fun position => !position.margin.isZero, _ :=
    fun position _ => (Decimal128.computes_over
      (calcUnrealizedPnl position.entryPrice markPrice position.size position.side *
        (position.size * markPrice)) (position.margin * position.margin)).bind_some
          fun score => (position.userId, score)
  refine ((Computes.mapM score).bind_some fun scores =>
    scores.insertionSort fun first second => second.2 ≤ first.2).congr ?_
  simp only [List.mem_filter, Unranked, not_and, and_imp, Bool.not_eq_true',
    Decimal128.isZero, decide_eq_false_iff_not]

private theorem andThen?_eq {α β : Type} {outcome : ClearingService × Except ClearingStop α}
    {rest? : ClearingService → α → Option (ClearingService × Except ClearingStop β)}
    {rest : ClearingService → α → ClearingService × Except ClearingStop β}
    (same : ∀ reached value, rest? reached value = some (rest reached value)) :
    andThen? outcome rest? = some (andThen outcome rest) := by
  rcases outcome with ⟨reached, stop | value⟩
  · rfl
  · exact same reached value

section Adl

variable {bankruptUser : UserId} {symbol : SymbolId} {markPrice : Decimal128}
variable {timestamp : UnixMicros}

/-- At a mark price that is not zero the loop divides by nothing else. -/
theorem executeAdlEach?_eq (nonzero : markPrice ≠ 0) (ranking : List (UserId × Decimal128))
    (remainingDeficit : Decimal128) (results : List (UserId × Decimal128))
    (service : ClearingService) :
    executeAdlEach? bankruptUser symbol markPrice timestamp ranking remainingDeficit results
        service =
      some (executeAdlEach bankruptUser symbol markPrice timestamp ranking remainingDeficit results
        service) := by
  induction ranking generalizing remainingDeficit results service with
  | nil => rfl
  | cons entry rest inductionHypothesis =>
      rw [executeAdlEach?, executeAdlEach]
      by_cases covered : !remainingDeficit.isPositive
      · rw [if_pos covered, if_pos covered]
      · rw [if_neg covered, if_neg covered]
        cases service.positionManager.getPosition entry.1 symbol with
        | none => exact inductionHypothesis _ _ _
        | some position =>
            simp only [(Decimal128.computes_over remainingDeficit markPrice).eq_some nonzero,
              Option.bind_eq_bind, Option.bind_some]
            by_cases nothing : (min (remainingDeficit / markPrice) position.size).isZero
            · rw [if_pos nothing, if_pos nothing]
              exact inductionHypothesis _ _ _
            · rw [if_neg nothing, if_neg nothing]
              cases service.positionManager.reduceOrClose entry.1 symbol
                  (min (remainingDeficit / markPrice) position.size) markPrice with
              | error error => rfl
              | ok reduced => exact andThen?_eq fun settled _ => inductionHypothesis _ _ _

/-- At a mark price of zero the loop divides by it before it asks for anything. -/
theorem executeAdlEach?_of_zero (ranking : List (UserId × Decimal128))
    (remainingDeficit : Decimal128) (results : List (UserId × Decimal128))
    (service reached : ClearingService) (stop : ClearingStop) :
    executeAdlEach? bankruptUser symbol 0 timestamp ranking remainingDeficit results service ≠
      some (reached, .error stop) := by
  induction ranking with
  | nil =>
      intro returned
      cases returned
  | cons entry rest inductionHypothesis =>
      rw [executeAdlEach?]
      split
      · intro returned
        cases returned
      · split
        · exact inductionHypothesis
        · rw [Decimal128.over?, if_pos rfl]
          intro returned
          cases returned

end Adl

/-! ## What the operations agree with -/

theorem agrees_andThen {α β : Type} {outcome : ClearingService × Except ClearingStop α}
    {rest? : ClearingService → α → Option (ClearingService × Except ClearingStop β)}
    {rest : ClearingService → α → ClearingService × Except ClearingStop β}
    (next : ∀ reached value, Agrees (rest? reached value) (rest reached value)) :
    Agrees (andThen? outcome rest?) (andThen outcome rest) := by
  obtain ⟨reached, stop | value⟩ := outcome
  · exact .pure _
  · exact next reached value

private theorem agrees_tradeSide (service : ClearingService) (side : TradeSide) :
    Agrees (service.processTradeSide? side) (service.processTradeSide side) := by
  rw [processTradeSide?_eq]
  split
  · exact .none _
  · exact .pure _

private theorem agrees_adlEach {bankruptUser : UserId} {symbol : SymbolId}
    {markPrice : Decimal128} {timestamp : UnixMicros} (ranking : List (UserId × Decimal128))
    (remainingDeficit : Decimal128) (results : List (UserId × Decimal128))
    (service : ClearingService) :
    Agrees (executeAdlEach? bankruptUser symbol markPrice timestamp ranking remainingDeficit results
        service)
      (executeAdlEach bankruptUser symbol markPrice timestamp ranking remainingDeficit results
        service) := by
  induction ranking generalizing remainingDeficit results service with
  | nil => exact .pure _
  | cons entry rest inductionHypothesis =>
      refine .ite (.pure _) ?_
      cases service.positionManager.getPosition entry.1 symbol with
      | none => exact inductionHypothesis _ _ _
      | some position =>
          refine (Decimal128.computes_over remainingDeficit markPrice).agrees.bind ?_
          refine .ite (inductionHypothesis _ _ _) ?_
          cases service.positionManager.reduceOrClose entry.1 symbol
              (min (remainingDeficit / markPrice) position.size) markPrice with
          | error error => exact .pure _
          | ok reduced => exact agrees_andThen fun settled _ => inductionHypothesis _ _ _

/-- A call that does not divide by zero has the result of the total operation. -/
theorem agrees_perform (service : ClearingService) (call : ClearingCall) :
    Agrees (service.perform? call) (service.perform call) := by
  cases call with
  | processTrade trade =>
      exact (agrees_tradeSide service trade.buyerSide).bind
        (agrees_andThen fun bought _ => agrees_tradeSide bought trade.sellerSide)
  | executeAdl order bankruptUser symbol bankruptSide deficit markPrice timestamp =>
      refine Agrees.map (.ite (.pure _) ?_) withoutValue
      exact (computes_calcAdlRanking _ markPrice).agrees.bind (agrees_adlEach _ _ _ service)
  | _ => exact .pure _

end ClearingService
end Exg
