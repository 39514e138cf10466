import Exg.Clearing.Service
import Exg.Ledger.Refusals
import Exg.Support.Stages

/-!
# The clearing service in stages

Every operation of the service is a list of stages: a change of the positions, a call of
the ledger, and a change of the positions once the ledger has agreed.  The list is known
from the positions before the operation, and running it is what the operation does.
-/

namespace Exg

open Support
open Ledger (LedgerCall)

/-- How a ledger operation stops the one that asked for it. -/
def OperationResult.stop : OperationResult → Option ClearingStop
  | .done => none
  | .failed error => some (.failed (.ledger error))
  | .panicked text => some (.panicked text)

/-- Ask the ledger for a call. -/
def askLedger (ledger : Ledger) (call : LedgerCall) : Ledger × Option ClearingStop :=
  ((ledger.perform call).1, (ledger.perform call).2.stop)

abbrev ClearingStage := Stage PositionManager Ledger LedgerCall

/-- The positions after a quantity is taken off one of them. -/
def PositionManager.afterReduction (manager : PositionManager) (userId : UserId)
    (symbol : SymbolId) (quantity price : Decimal128) : PositionManager :=
  match manager.reduceOrClose userId symbol quantity price with
  | .error _ => manager
  | .ok (_, reduced) => reduced

namespace ClearingStage

/-- Take a quantity off a position, and have the ledger settle it. -/
def reduction (manager : PositionManager) (userId : UserId) (symbol : SymbolId)
    (quantity price fee : Decimal128) (key : String) (timestamp : UnixMicros) :
    ClearingStage where
  prepare positions := positions.afterReduction userId symbol quantity price
  call := .closePositionSettled userId
    ((manager.calcMarginReleased userId symbol quantity).getD 0)
    ((manager.getPosition userId symbol).elim 0 fun position =>
      PositionManager.realizedPnl position price quantity)
    fee key timestamp
  conclude _ positions := positions

/-- A reduction is planned from the one position alone. -/
theorem reduction_congr {manager other : PositionManager} {userId : UserId} {symbol : SymbolId}
    (same : manager.getPosition userId symbol = other.getPosition userId symbol)
    (quantity price fee : Decimal128) (key : String) (timestamp : UnixMicros) :
    reduction manager userId symbol quantity price fee key timestamp =
      reduction other userId symbol quantity price fee key timestamp := by
  simp only [reduction, PositionManager.calcMarginReleased, same]

/-- Have the ledger move the margin, and open or increase the position. -/
def opening (side : TradeSide) (closeQty openQty : Decimal128) : ClearingStage where
  prepare positions := positions
  call := .openPosition side.userId (openQty * side.price / side.leverage)
    (side.openFee closeQty openQty) side.openKey side.timestamp
  conclude _ positions := positions.openOrIncrease side.userId side.symbol side.intendedSide
    openQty side.price side.leverage side.marginMode

/-- Remove a position, and have the ledger seize its margin. -/
def seizure (position : Position) (userId : UserId) (symbol : SymbolId) (exitPrice : Decimal128)
    (now : UnixMicros) : ClearingStage where
  prepare positions := { positions := positions.positions.erase (userId, symbol) }
  call := .liquidate userId position.margin
    (position.margin + PositionManager.realizedPnl position exitPrice position.size)
    (ClearingService.liquidationKey userId symbol) now
  conclude _ positions := positions

/-- Have the ledger settle a funding payment, and record it. -/
def funding (fundingRate markPrice : Decimal128) (fundingPeriodId : Nat) (timestamp : UnixMicros)
    (position : Position) : ClearingStage where
  prepare positions := positions
  call := .settleFunding position.userId
    (calcFundingFee position.size markPrice fundingRate position.side)
    (fundingKey fundingPeriodId position.userId position.symbol) timestamp
  conclude ledger positions := ClearingService.recordFunding position.userId position.symbol
    (calcFundingFee position.size markPrice fundingRate position.side) ledger positions

end ClearingStage

namespace PositionManager

variable (manager : PositionManager)

/-- What a side of a trade closes and opens. -/
def split (side : TradeSide) : Decimal128 × Decimal128 :=
  side.split (manager.getPosition side.userId side.symbol)

def closeStages (side : TradeSide) : List ClearingStage :=
  if (manager.split side).1.isPositive then
    [.reduction manager side.userId side.symbol (manager.split side).1 side.price
      (side.closeFee (manager.split side).1) side.closeKey side.timestamp]
  else
    []

def openStages (side : TradeSide) : List ClearingStage :=
  if (manager.split side).2.isPositive then
    [.opening side (manager.split side).1 (manager.split side).2]
  else
    []

/-- The stages of one side of a trade. -/
def sideStages (side : TradeSide) : List ClearingStage :=
  manager.closeStages side ++ manager.openStages side

theorem mem_sideStages {manager : PositionManager} {side : TradeSide} {stage : ClearingStage}
    (member : stage ∈ manager.sideStages side) :
    stage = .reduction manager side.userId side.symbol (manager.split side).1 side.price
        (side.closeFee (manager.split side).1) side.closeKey side.timestamp ∨
      (manager.split side).2.isPositive ∧
        stage = .opening side (manager.split side).1 (manager.split side).2 := by
  rcases List.mem_append.1 member with closes | opens
  · rw [closeStages] at closes
    split at closes
    · exact Or.inl (List.mem_singleton.1 closes)
    · cases closes
  · rw [openStages] at opens
    split at opens
    · rename_i positive
      exact Or.inr ⟨positive, List.mem_singleton.1 opens⟩
    · cases opens

/-- The positions after a side that the ledger does not turn down. -/
def takeSide (side : TradeSide) : PositionManager :=
  let closed :=
    if (manager.split side).1.isPositive then
      manager.afterReduction side.userId side.symbol (manager.split side).1 side.price
    else
      manager
  if (manager.split side).2.isPositive then
    closed.openOrIncrease side.userId side.symbol side.intendedSide (manager.split side).2
      side.price side.leverage side.marginMode
  else
    closed

def tradeStages (trade : TradeInfo) : List ClearingStage :=
  manager.sideStages trade.buyerSide ++
    (manager.takeSide trade.buyerSide).sideStages trade.sellerSide

def liquidationStages (userId : UserId) (symbol : SymbolId) (exitPrice : Decimal128)
    (now : UnixMicros) : List ClearingStage :=
  ((manager.getPosition userId symbol).map fun position =>
    ClearingStage.seizure position userId symbol exitPrice now).toList

/-- Who is deleveraged and by how much, as long as there is a deficit left. -/
def adlReductions (symbol : SymbolId) (markPrice : Decimal128) :
    List (UserId × Decimal128) → Decimal128 → List (UserId × Decimal128)
  | [], _ => []
  | (counterparty, _) :: rest, remainingDeficit =>
      if !remainingDeficit.isPositive then
        []
      else
        match manager.getPosition counterparty symbol with
        | none => adlReductions symbol markPrice rest remainingDeficit
        | some position =>
            let reduceQty := min (remainingDeficit / markPrice) position.size
            if reduceQty.isZero then
              adlReductions symbol markPrice rest remainingDeficit
            else
              (counterparty, reduceQty) ::
                adlReductions symbol markPrice rest (remainingDeficit - reduceQty * markPrice)

/-- The stages of reductions that make up for a deficit. -/
def adlStages (bankruptUser : UserId) (symbol : SymbolId) (markPrice : Decimal128)
    (timestamp : UnixMicros) (reductions : List (UserId × Decimal128)) : List ClearingStage :=
  reductions.map fun reduction =>
    .reduction manager reduction.1 symbol reduction.2 markPrice 0
      (ClearingService.adlKey bankruptUser reduction.1 symbol timestamp) timestamp

end PositionManager

/-- The stages of a funding settlement over the positions it visits. -/
def fundingStages (fundingRate markPrice : Decimal128) (fundingPeriodId : Nat)
    (timestamp : UnixMicros) (positions : List Position) : List ClearingStage :=
  (positions.filter fun position =>
    !(calcFundingFee position.size markPrice fundingRate position.side).isZero).map
      (.funding fundingRate markPrice fundingPeriodId timestamp)

/-! ## What the operations do -/

namespace ClearingService

/-- A service and an outcome, from the two stores. -/
def ofStages (reached : (PositionManager × Ledger) × Option ClearingStop) :
    ClearingService × Except ClearingStop Unit :=
  (⟨reached.1.1, reached.1.2⟩,
    match reached.2 with
    | none => .ok ()
    | some stop => .error stop)

theorem ofStages_ok_iff {reached : (PositionManager × Ledger) × Option ClearingStop} :
    (ofStages reached).2 = .ok () ↔ reached.2 = none := by
  obtain ⟨stores, _ | stop⟩ := reached <;> simp [ofStages]

theorem ofStages_error_iff {reached : (PositionManager × Ledger) × Option ClearingStop}
    {stop : ClearingStop} : (ofStages reached).2 = .error stop ↔ reached.2 = some stop := by
  obtain ⟨stores, _ | other⟩ := reached <;> simp [ofStages]

/-- Run stages on a service. -/
def runOn (service : ClearingService) (stages : List ClearingStage) :
    (PositionManager × Ledger) × Option ClearingStop :=
  runStages askLedger stages service.positionManager service.ledger

variable {service : ClearingService}

@[simp]
theorem withoutValue_unit (outcome : ClearingService × Except ClearingStop Unit) :
    withoutValue outcome = outcome := by
  rcases outcome with ⟨reached, _ | _⟩ <;> rfl

theorem andThen_settle {α : Type} (service : ClearingService) (asked : Ledger × OperationResult)
    (rest : ClearingService → Unit → ClearingService × Except ClearingStop α) :
    andThen (service.settle asked) rest =
      match asked.2.stop with
      | none => rest { service with ledger := asked.1 } ()
      | some stop => ({ service with ledger := asked.1 }, .error stop) := by
  rcases asked with ⟨ledger, _ | _ | _⟩ <;> rfl

private theorem settle_andThen (service : ClearingService) (asked : Ledger × OperationResult) :
    service.settle asked = andThen (service.settle asked) fun settled _ => (settled, .ok ()) := by
  rcases asked with ⟨ledger, _ | _ | _⟩ <;> rfl

/-- An operation ends as its stages do, with a value as it should be. -/
structure EndsAs {α : Type} (wanted : α → Prop)
    (outcome : ClearingService × Except ClearingStop α)
    (reached : (PositionManager × Ledger) × Option ClearingStop) : Prop where
  same : withoutValue outcome = ofStages reached
  value : ∀ result, outcome.2 = .ok result → wanted result

theorem EndsAs.of_eq {α : Type} {outcome : ClearingService × Except ClearingStop α}
    {reached : (PositionManager × Ledger) × Option ClearingStop}
    (same : withoutValue outcome = ofStages reached) : EndsAs (fun _ => True) outcome reached :=
  ⟨same, fun _ _ => trivial⟩

/-- One stage of the source, and what follows it. -/
theorem andThen_settle_stage {α : Type} (service : ClearingService) (stage : ClearingStage)
    {stages : List ClearingStage} {wanted : α → Prop}
    {rest : ClearingService → Unit → ClearingService × Except ClearingStop α}
    (continues : ∀ next, EndsAs wanted (rest ⟨stage.prepare service.positionManager, next⟩ ())
      (runOn ⟨stage.conclude next (stage.prepare service.positionManager), next⟩ stages)) :
    EndsAs wanted (andThen (settle ⟨stage.prepare service.positionManager, service.ledger⟩
        (service.ledger.perform stage.call)) rest) (service.runOn (stage :: stages)) := by
  have stops : (service.ledger.perform stage.call).2.stop =
      (askLedger service.ledger stage.call).2 := rfl
  rw [andThen_settle, runOn, stops]
  cases asked : (askLedger service.ledger stage.call).2 with
  | none =>
      rw [runStages_granted asked]
      exact continues _
  | some stop =>
      rw [runStages_stopped asked]
      exact ⟨rfl, fun result ok => by cases ok⟩

/-- One list of stages after another. -/
theorem andThen_runOn (service : ClearingService) (first second : List ClearingStage)
    {rest : ClearingService → Unit → ClearingService × Except ClearingStop Unit}
    (continues : ∀ reached ledger, service.runOn first = ((reached, ledger), none) →
      rest ⟨reached, ledger⟩ () = ofStages (runOn ⟨reached, ledger⟩ second)) :
    andThen (ofStages (service.runOn first)) rest = ofStages (service.runOn (first ++ second)) := by
  rw [runOn, runOn, runStages_append]
  rcases reached : runStages askLedger first service.positionManager service.ledger with
    ⟨⟨positions, ledger⟩, _ | stop⟩
  · exact continues positions ledger reached
  · rfl

end ClearingService

/-! ## Trades -/

namespace PositionManager

variable {manager : PositionManager} {side : TradeSide}

private theorem reduceOrClose_of_le {userId : UserId} {symbol : SymbolId} {quantity : Decimal128}
    {position : Position} (found : manager.getPosition userId symbol = some position)
    (within : quantity ≤ position.size) (price : Decimal128) :
    manager.reduceOrClose userId symbol quantity price =
      .ok (realizedPnl position price quantity,
        manager.afterReduction userId symbol quantity price) := by
  simp only [afterReduction, reduceOrClose, found, not_lt.2 within, if_false]
  split <;> rfl

theorem getPosition_afterReduction_of_ne {userId other : UserId} {symbol otherSymbol : SymbolId}
    (apart : ¬(userId = other ∧ symbol = otherSymbol)) (quantity price : Decimal128) :
    (manager.afterReduction userId symbol quantity price).getPosition other otherSymbol =
      manager.getPosition other otherSymbol := by
  rw [afterReduction]
  split
  · rfl
  · rename_i pnl reduced outcome
    obtain ⟨position, -, -, ⟨-, rfl⟩ | ⟨-, rfl⟩⟩ := reduceOrClose_ok outcome
    · rw [getPosition_erase, if_neg apart]
    · rw [getPosition_insert, if_neg apart]

theorem getPosition_afterReduction {position : Position}
    (found : manager.getPosition userId symbol = some position) {quantity : Decimal128}
    (within : quantity ≤ position.size) (price : Decimal128) :
    (manager.afterReduction userId symbol quantity price).getPosition userId symbol =
      if position.size - quantity = 0 then none
      else some { position with
        size := position.size - quantity
        margin := position.margin - position.margin * quantity / position.size } := by
  rw [afterReduction]
  by_cases whole : position.size - quantity = 0
  · simp [reduceOrClose, found, not_lt.2 within, whole, getPosition_erase]
  · simp [reduceOrClose, found, not_lt.2 within, whole, getPosition_insert]

/-- Deleveraging takes something off positions that are there, and no more than they have. -/
theorem mem_adlReductions {symbol : SymbolId} {markPrice remainingDeficit : Decimal128}
    {ranking : List (UserId × Decimal128)} {reduction : UserId × Decimal128}
    (member : reduction ∈ manager.adlReductions symbol markPrice ranking remainingDeficit) :
    ∃ position, manager.getPosition reduction.1 symbol = some position ∧
      reduction.2 ≤ position.size ∧ reduction.2 ≠ 0 := by
  induction ranking generalizing remainingDeficit with
  | nil => cases member
  | cons entry rest inductionHypothesis =>
      rw [adlReductions] at member
      split at member
      · cases member
      · split at member
        · exact inductionHypothesis member
        · rename_i position found
          simp only at member
          split at member
          · exact inductionHypothesis member
          · rename_i something
            rcases List.mem_cons.1 member with rfl | later
            · exact ⟨position, found, min_le_right _ _, by simpa using something⟩
            · exact inductionHypothesis later

/-- Deleveraging reduces ranked users, each once. -/
theorem adlReductions_users (symbol : SymbolId) (markPrice : Decimal128)
    (ranking : List (UserId × Decimal128)) (remainingDeficit : Decimal128) :
    ((manager.adlReductions symbol markPrice ranking remainingDeficit).map Prod.fst).Sublist
      (ranking.map Prod.fst) := by
  induction ranking generalizing remainingDeficit with
  | nil => exact List.Sublist.refl []
  | cons entry rest inductionHypothesis =>
      rw [adlReductions]
      split
      · exact List.nil_sublist _
      · split
        · exact (inductionHypothesis _).cons entry.1
        · simp only
          split
          · exact (inductionHypothesis _).cons entry.1
          · exact (inductionHypothesis _).cons_cons entry.1

/-- A side that closes something closes it of an opposite position. -/
theorem split_closes (closes : 0 < (manager.split side).1) :
    ∃ position, manager.getPosition side.userId side.symbol = some position ∧
      position.side = side.intendedSide.opposite ∧
      manager.split side = (min side.qty position.size, side.qty - min side.qty position.size) := by
  simp only [split, TradeSide.split] at closes ⊢
  cases found : manager.getPosition side.userId side.symbol with
  | none => simp [found] at closes
  | some position =>
      simp only [found] at closes ⊢
      by_cases against : position.side = side.intendedSide.opposite
      · exact ⟨position, rfl, against, by rw [if_pos against]⟩
      · simp [against] at closes

end PositionManager

namespace ClearingService

variable {service : ClearingService}

/-- A reduction, as the source carries it out. -/
theorem andThen_settle_reduction {α : Type} {userId : UserId} {symbol : SymbolId}
    {position : Position}
    (found : service.positionManager.getPosition userId symbol = some position)
    (quantity price fee : Decimal128) (key : String) (timestamp : UnixMicros)
    {stages : List ClearingStage} {wanted : α → Prop}
    {rest : ClearingService → Unit → ClearingService × Except ClearingStop α}
    (continues : ∀ next, EndsAs wanted
      (rest ⟨service.positionManager.afterReduction userId symbol quantity price, next⟩ ())
      (runOn ⟨service.positionManager.afterReduction userId symbol quantity price, next⟩
        stages)) :
    EndsAs wanted
      (andThen (settle
        ⟨service.positionManager.afterReduction userId symbol quantity price, service.ledger⟩
        (service.ledger.closePositionSettled userId
          ((service.positionManager.calcMarginReleased userId symbol quantity).getD 0)
          (PositionManager.realizedPnl position price quantity) fee key timestamp)) rest)
      (service.runOn
        (.reduction service.positionManager userId symbol quantity price fee key timestamp ::
          stages)) := by
  have stage := andThen_settle_stage service (.reduction service.positionManager userId symbol
    quantity price fee key timestamp) continues
  have asks : (ClearingStage.reduction service.positionManager userId symbol quantity price fee
      key timestamp).call = .closePositionSettled userId
        ((service.positionManager.calcMarginReleased userId symbol quantity).getD 0)
        (PositionManager.realizedPnl position price quantity) fee key timestamp := by
    simp only [ClearingStage.reduction, found, Option.elim_some]
  rw [asks] at stage
  exact stage

theorem closeLeg_eq (service : ClearingService) (side : TradeSide) :
    service.closeLeg side (service.positionManager.split side).1 =
      ofStages (service.runOn (service.positionManager.closeStages side)) := by
  rw [closeLeg, PositionManager.closeStages]
  by_cases closes : (service.positionManager.split side).1.isPositive
  · rw [if_pos closes, if_pos closes]
    obtain ⟨position, found, -, quantities⟩ :=
      PositionManager.split_closes (Decimal128.isPositive_iff.1 closes)
    have within : (service.positionManager.split side).1 ≤ position.size := by
      rw [quantities]
      exact min_le_right _ _
    rw [PositionManager.reduceOrClose_of_le found within]
    simp only
    rw [settle_andThen, ← withoutValue_unit (andThen _ _)]
    exact (andThen_settle_reduction found _ _ _ _ _ fun next => .of_eq rfl).same
  · rw [if_neg closes, if_neg closes]
    rfl

private theorem openLeg_eq (service : ClearingService) (side : TradeSide)
    (closeQty openQty : Decimal128) :
    service.openLeg side closeQty openQty =
      ofStages (service.runOn
        (if openQty.isPositive then [.opening side closeQty openQty] else [])) := by
  rw [openLeg]
  by_cases opens : openQty.isPositive
  · rw [if_pos opens, if_pos opens, ← withoutValue_unit (andThen _ _)]
    exact (andThen_settle_stage service (.opening side closeQty openQty)
      fun next => .of_eq rfl).same
  · rw [if_neg opens, if_neg opens]
    rfl

/-- One side of a trade is its stages. -/
theorem processTradeSide_eq (service : ClearingService) (side : TradeSide) :
    service.processTradeSide side =
      ofStages (service.runOn (service.positionManager.sideStages side)) := by
  rw [processTradeSide, PositionManager.sideStages]
  have closed := closeLeg_eq service side
  simp only [PositionManager.split] at closed
  simp only [closed]
  apply andThen_runOn
  intro reached ledger _
  exact openLeg_eq ⟨reached, ledger⟩ side _ _

/-- The positions after a side that the ledger has not turned down. -/
theorem takeSide_of_finished {manager : PositionManager} {side : TradeSide} {ledger : Ledger}
    (finished : (runStages askLedger (manager.sideStages side) manager ledger).2 = none) :
    (runStages askLedger (manager.sideStages side) manager ledger).1.1 =
      manager.takeSide side := by
  have opened : ∀ (closed : PositionManager) (next : Ledger),
      (runStages askLedger (manager.openStages side) closed next).2 = none →
      (runStages askLedger (manager.openStages side) closed next).1.1 =
        if (manager.split side).2.isPositive then
          closed.openOrIncrease side.userId side.symbol side.intendedSide (manager.split side).2
            side.price side.leverage side.marginMode
        else closed := by
    intro closed next granted
    rw [PositionManager.openStages] at granted ⊢
    by_cases opens : (manager.split side).2.isPositive
    · simp only [if_pos opens] at granted ⊢
      cases asked : (askLedger next
        (ClearingStage.opening side (manager.split side).1 (manager.split side).2).call).2 with
      | none =>
          rw [runStages_granted asked]
          rfl
      | some stop =>
          rw [runStages_stopped asked] at granted
          cases granted
    · simp only [if_neg opens]
      rfl
  rw [PositionManager.sideStages, PositionManager.closeStages] at finished ⊢
  rw [PositionManager.takeSide]
  by_cases closes : (manager.split side).1.isPositive
  · simp only [if_pos closes, List.singleton_append] at finished ⊢
    cases asked : (askLedger ledger (ClearingStage.reduction manager side.userId side.symbol
      (manager.split side).1 side.price (side.closeFee (manager.split side).1) side.closeKey
      side.timestamp).call).2 with
    | none =>
        rw [runStages_granted asked] at finished ⊢
        exact opened _ _ finished
    | some stop =>
        rw [runStages_stopped asked] at finished
        cases finished
  · simp only [if_neg closes, List.nil_append] at finished ⊢
    exact opened _ _ finished

/-- A trade is its stages: the buyer's, and the seller's on the positions the buyer leaves. -/
theorem processTrade_eq (service : ClearingService) (trade : TradeInfo) :
    service.processTrade trade =
      ofStages (service.runOn (service.positionManager.tradeStages trade)) := by
  rw [processTrade, processTradeSide_eq, PositionManager.tradeStages]
  apply andThen_runOn
  intro reached ledger bought
  have finished : (runStages askLedger (service.positionManager.sideStages trade.buyerSide)
      service.positionManager service.ledger).2 = none := congrArg Prod.snd bought
  have same : reached = service.positionManager.takeSide trade.buyerSide :=
    (congrArg (fun final => final.1.1) bought).symm.trans (takeSide_of_finished finished)
  rw [← same]
  exact processTradeSide_eq ⟨reached, ledger⟩ trade.sellerSide

/-! ## Liquidation, funding and deleveraging -/

theorem processLiquidation_eq {userId : UserId} {symbol : SymbolId} {position : Position}
    (found : service.positionManager.getPosition userId symbol = some position)
    (exitPrice : Decimal128) (now : UnixMicros) :
    withoutValue (service.processLiquidation userId symbol exitPrice now) =
      ofStages (service.runOn
        (service.positionManager.liquidationStages userId symbol exitPrice now)) := by
  rw [processLiquidation, PositionManager.liquidationStages, PositionManager.forceClose, found]
  exact (andThen_settle_stage service (.seizure position userId symbol exitPrice now)
    fun next => .of_eq rfl).same

private theorem settleFundingEach_eq (fundingRate markPrice : Decimal128) (fundingPeriodId : Nat)
    (timestamp : UnixMicros) (positions : List Position) (result : FundingResult)
    (service : ClearingService) :
    withoutValue (settleFundingEach fundingRate markPrice fundingPeriodId timestamp positions
        result service) =
      ofStages (service.runOn
        (fundingStages fundingRate markPrice fundingPeriodId timestamp positions)) := by
  induction positions generalizing result service with
  | nil => rfl
  | cons position rest inductionHypothesis =>
      rw [settleFundingEach, fundingStages, List.filter_cons]
      by_cases nothing :
          (calcFundingFee position.size markPrice fundingRate position.side).isZero
      · simp only [nothing, if_true, Bool.not_true, Bool.false_eq_true, if_false]
        exact inductionHypothesis result service
      · simp only [nothing, Bool.not_false, if_true, List.map_cons]
        exact (andThen_settle_stage service
          (.funding fundingRate markPrice fundingPeriodId timestamp position) fun next =>
            .of_eq (inductionHypothesis _ _)).same

/-- The stages of a funding settlement of a symbol. -/
def fundingOf (service : ClearingService) (order : IterationOrder) (symbol : SymbolId)
    (fundingRate markPrice : Decimal128) (fundingPeriodId : Nat) (timestamp : UnixMicros) :
    List ClearingStage :=
  fundingStages fundingRate markPrice fundingPeriodId timestamp
    ((order.visit 0 service.positionManager.allPositions).filter fun position =>
      position.symbol = symbol)

theorem settleFunding_eq (service : ClearingService) (order : IterationOrder) (symbol : SymbolId)
    (fundingRate markPrice : Decimal128) (fundingPeriodId : Nat) (timestamp : UnixMicros) :
    withoutValue
        (service.settleFunding order symbol fundingRate markPrice fundingPeriodId timestamp) =
      ofStages (service.runOn
        (service.fundingOf order symbol fundingRate markPrice fundingPeriodId timestamp)) :=
  settleFundingEach_eq _ _ _ _ _ _ _

/-- The reductions of a deleveraging. -/
def adlReductionsOf (service : ClearingService) (order : IterationOrder) (bankruptUser : UserId)
    (symbol : SymbolId) (bankruptSide : PositionSide) (deficit markPrice : Decimal128) :
    List (UserId × Decimal128) :=
  service.positionManager.adlReductions symbol markPrice
    (calcAdlRanking (service.counterpartyPositions order bankruptUser symbol bankruptSide)
      markPrice) deficit

/-- The stages of a deleveraging. -/
def adlOf (service : ClearingService) (order : IterationOrder) (bankruptUser : UserId)
    (symbol : SymbolId) (bankruptSide : PositionSide) (deficit markPrice : Decimal128)
    (timestamp : UnixMicros) : List ClearingStage :=
  service.positionManager.adlStages bankruptUser symbol markPrice timestamp
    (service.adlReductionsOf order bankruptUser symbol bankruptSide deficit markPrice)

theorem executeAdlEach_endsAs (manager : PositionManager) (bankruptUser : UserId)
    (symbol : SymbolId) (markPrice : Decimal128) (timestamp : UnixMicros)
    (ranking : List (UserId × Decimal128)) (remainingDeficit : Decimal128)
    (results : List (UserId × Decimal128)) (service : ClearingService)
    (distinct : (ranking.map Prod.fst).Nodup)
    (same : ∀ entry ∈ ranking, service.positionManager.getPosition entry.1 symbol =
      manager.getPosition entry.1 symbol) :
    EndsAs (· = results ++ manager.adlReductions symbol markPrice ranking remainingDeficit)
      (executeAdlEach bankruptUser symbol markPrice timestamp ranking remainingDeficit results
        service)
      (service.runOn (manager.adlStages bankruptUser symbol markPrice timestamp
        (manager.adlReductions symbol markPrice ranking remainingDeficit))) := by
  have ended (results : List (UserId × Decimal128)) (service : ClearingService) :
      EndsAs (· = results ++ []) (service, .ok results) (service.runOn []) :=
    ⟨rfl, fun result ok => (Except.ok.inj ok).symm.trans (List.append_nil _).symm⟩
  induction ranking generalizing remainingDeficit results service with
  | nil => exact ended results service
  | cons entry rest inductionHypothesis =>
      obtain ⟨counterparty, score⟩ := entry
      have here := same (counterparty, score) List.mem_cons_self
      have later : ∀ entry ∈ rest, service.positionManager.getPosition entry.1 symbol =
          manager.getPosition entry.1 symbol :=
        fun entry member => same entry (List.mem_cons_of_mem _ member)
      obtain ⟨fresh, restDistinct⟩ := List.nodup_cons.1 distinct
      rw [executeAdlEach, PositionManager.adlReductions]
      by_cases covered : !remainingDeficit.isPositive
      · rw [if_pos covered, if_pos covered]
        exact ended results service
      · rw [if_neg covered, if_neg covered, here]
        cases found : manager.getPosition counterparty symbol with
        | none => exact inductionHypothesis _ _ _ restDistinct later
        | some position =>
            have held := here.trans found
            simp only
            by_cases nothing : (min (remainingDeficit / markPrice) position.size).isZero
            · rw [if_pos nothing, if_pos nothing]
              exact inductionHypothesis _ _ _ restDistinct later
            · rw [if_neg nothing, if_neg nothing,
                PositionManager.reduceOrClose_of_le held (min_le_right _ _),
                PositionManager.adlStages, List.map_cons, ClearingStage.reduction_congr here.symm,
                ← List.singleton_append, ← List.append_assoc]
              apply andThen_settle_reduction held
              intro next
              apply inductionHypothesis _ _ _ restDistinct
              intro entry member
              rw [← later entry member]
              apply PositionManager.getPosition_afterReduction_of_ne
              rintro ⟨rfl, -⟩
              exact fresh (List.mem_map.2 ⟨entry, member, rfl⟩)

end ClearingService
end Exg
