import Exg.Clearing.MarginAgreement

/-!
# Liquidations

A liquidation closes the position and has the ledger seize its margin, under a key made of
the user and the symbol alone.  The ledger carries out one request for each key.  So a
liquidation takes effect exactly as long as the ledger has not seen the key, and the second
one of a user in a symbol is granted without moving any money.
-/

namespace Exg

open Support

namespace ClearingService

variable {service : ClearingService} {userId : UserId} {symbol : SymbolId}
variable {exitPrice surplus : Decimal128} {now : UnixMicros} {position : Position}

/-- What is asked of the ledger when a position is liquidated. -/
def seizureCall (position : Position) (userId : UserId) (symbol : SymbolId)
    (exitPrice : Decimal128) (now : UnixMicros) : Ledger.LedgerCall :=
  (ClearingStage.seizure position userId symbol exitPrice now).call

/-- A liquidation is the request to the ledger, once the position is off the books. -/
theorem processLiquidation_of_found
    (found : service.positionManager.getPosition userId symbol = some position) :
    service.processLiquidation userId symbol exitPrice now =
      (⟨⟨service.positionManager.positions.erase (userId, symbol)⟩,
        (askLedger service.ledger (seizureCall position userId symbol exitPrice now)).1⟩,
        (askLedger service.ledger (seizureCall position userId symbol exitPrice now)).2.elim
          (.ok (position.margin + PositionManager.realizedPnl position exitPrice position.size))
          .error) := by
  have stops : (service.ledger.liquidate userId position.margin
      (position.margin + PositionManager.realizedPnl position exitPrice position.size)
      (liquidationKey userId symbol) now).2.stop =
        (askLedger service.ledger (seizureCall position userId symbol exitPrice now)).2 := rfl
  simp only [processLiquidation, PositionManager.forceClose, found, andThen_settle,
    Option.map_some, stops]
  cases (askLedger service.ledger (seizureCall position userId symbol exitPrice now)).2 with
  | none => rfl
  | some stop => rfl

/-- A liquidation succeeds where there is a position and the ledger grants the seizure. -/
theorem processLiquidation_ok_iff :
    (service.processLiquidation userId symbol exitPrice now).2 = .ok surplus ↔
      ∃ position, service.positionManager.getPosition userId symbol = some position ∧
        (askLedger service.ledger (seizureCall position userId symbol exitPrice now)).2 = none ∧
        position.margin + PositionManager.realizedPnl position exitPrice position.size =
          surplus := by
  cases found : service.positionManager.getPosition userId symbol with
  | none => simp [processLiquidation, PositionManager.forceClose, found]
  | some position =>
      rw [processLiquidation_of_found found]
      cases asked : (askLedger service.ledger
          (seizureCall position userId symbol exitPrice now)).2 with
      | none => simp [asked]
      | some stop => simp [asked]

/-- A liquidation that succeeds removes the position, takes exactly its margin from the user's
Futures wallet, and moves exactly the returned surplus into the insurance fund, or the deficit
out of it. -/
def TakesEffect (service : ClearingService) (userId : UserId) (symbol : SymbolId)
    (exitPrice : Decimal128) (now : UnixMicros) : Prop :=
  let after := (service.processLiquidation userId symbol exitPrice now).1
  ∀ surplus, (service.processLiquidation userId symbol exitPrice now).2 = .ok surplus →
    ∃ position, service.positionManager.getPosition userId symbol = some position ∧
      after.positionManager.getPosition userId symbol = none ∧
      after.ledger.holding (.user userId .futures .margin) =
        service.ledger.holding (.user userId .futures .margin) - position.margin ∧
      after.ledger.holding (.system .insuranceFund) =
        service.ledger.holding (.system .insuranceFund) + surplus

/-- The slots after a seizure that has been carried out. -/
theorem holding_seized (unused : liquidationKey userId symbol ∉ service.ledger.idempotencyKeys)
    (granted : (askLedger service.ledger
      (seizureCall position userId symbol exitPrice now)).2 = none) :
    let ledger := (askLedger service.ledger (seizureCall position userId symbol exitPrice now)).1
    ledger.holding (.user userId .futures .margin) =
        service.ledger.holding (.user userId .futures .margin) - position.margin ∧
      ledger.holding (.system .insuranceFund) = service.ledger.holding (.system .insuranceFund) +
        (position.margin + PositionManager.realizedPnl position exitPrice position.size) := by
  intro ledger
  have effect := (granted_effect granted rfl id unused).1
  constructor
  · rw [effect]
    simp [seizureCall, ClearingStage.seizure, Ledger.postings, netAt_surplusPostings,
      sub_eq_add_neg]
  · rw [effect]
    simp [seizureCall, ClearingStage.seizure, Ledger.postings, netAt_surplusPostings]

/-- A request whose key has been used is granted, and the ledger stays as it is. -/
theorem seizure_repeats (positive : 0 < position.margin)
    (used : liquidationKey userId symbol ∈ service.ledger.idempotencyKeys) :
    askLedger service.ledger (seizureCall position userId symbol exitPrice now) =
      (service.ledger, none) := by
  simp [seizureCall, ClearingStage.seizure, askLedger, Ledger.perform, Ledger.liquidate,
    Ledger.requirePositive, Decimal128.isPositive_iff.2 positive, Ledger.once, used,
    OperationResult.stop]

/-- Without a margin there is nothing to seize, and the request is refused. -/
theorem seizure_refused (nonpos : ¬0 < position.margin) :
    (askLedger service.ledger (seizureCall position userId symbol exitPrice now)).2 ≠ none := by
  rw [← Decimal128.isPositive_iff] at nonpos
  simp [seizureCall, ClearingStage.seizure, askLedger, Ledger.perform, Ledger.liquidate,
    Ledger.requirePositive, nonpos, Ledger.once, OperationResult.stop]

/-- A liquidation takes effect unless there is a margin to seize and the ledger has seen the
key. -/
theorem takesEffect_iff :
    service.TakesEffect userId symbol exitPrice now ↔
      ∀ position, service.positionManager.getPosition userId symbol = some position →
        0 < position.margin →
          liquidationKey userId symbol ∉ service.ledger.idempotencyKeys := by
  constructor
  · intro takes position found positive used
    have repeated : askLedger service.ledger (seizureCall position userId symbol exitPrice now) =
        (service.ledger, none) := seizure_repeats positive used
    have ok := processLiquidation_ok_iff.2
      ⟨position, found, congrArg Prod.snd repeated, Eq.refl (position.margin +
        PositionManager.realizedPnl position exitPrice position.size)⟩
    obtain ⟨other, sameFound, -, kept, -⟩ := takes _ ok
    obtain rfl := Option.some.inj (sameFound.symm.trans found)
    rw [processLiquidation_of_found found, repeated] at kept
    exact positive.ne' (sub_eq_self.1 kept.symm)
  · intro unused surplus ok
    obtain ⟨position, found, granted, rfl⟩ := processLiquidation_ok_iff.1 ok
    have positive : 0 < position.margin := by
      by_contra nonpos
      exact seizure_refused nonpos granted
    obtain ⟨margin, insurance⟩ := holding_seized (unused position found positive) granted
    refine ⟨position, found, ?_, ?_, ?_⟩
    · rw [processLiquidation_of_found found, PositionManager.getPosition_erase,
        if_pos ⟨rfl, rfl⟩]
    · rw [processLiquidation_of_found found]
      exact margin
    · rw [processLiquidation_of_found found]
      exact insurance

/-! ## Over a history -/

private theorem mem_keys_runOn {key : String} (used : key ∈ service.ledger.idempotencyKeys)
    (stages : List ClearingStage) :
    key ∈ (ofStages (service.runOn stages)).1.ledger.idempotencyKeys :=
  mem_keys_runStages used stages service.positionManager

/-- No call makes the ledger forget a key. -/
theorem mem_keys_perform {key : String} (tidy : service.positionManager.Tidy)
    (used : key ∈ service.ledger.idempotencyKeys) (call : ClearingCall) :
    key ∈ (service.perform call).1.ledger.idempotencyKeys := by
  cases call with
  | funds call => exact Ledger.mem_keys_perform used call
  | processTrade trade =>
      rw [perform, processTrade_eq]
      exact mem_keys_runOn used _
  | processLiquidation userId symbol exitPrice now =>
      rw [perform]
      cases found : service.positionManager.getPosition userId symbol with
      | none =>
          rw [processLiquidation, PositionManager.forceClose, found]
          exact used
      | some position =>
          rw [processLiquidation_eq found]
          exact mem_keys_runOn used _
  | settleFunding order symbol fundingRate markPrice fundingPeriodId timestamp =>
      rw [perform, settleFunding_eq]
      exact mem_keys_runOn used _
  | executeAdl order bankruptUser symbol bankruptSide deficit markPrice timestamp =>
      rw [perform]
      by_cases nobody : service.counterpartyPositions order bankruptUser symbol bankruptSide = []
      · rw [executeAdl, nobody]
        exact used
      · rw [executeAdl_eq tidy order bankruptUser symbol bankruptSide deficit markPrice timestamp
          nobody]
        exact mem_keys_runOn used _

private theorem mem_keys_run {key : String} (tidy : service.positionManager.Tidy)
    (used : key ∈ service.ledger.idempotencyKeys) (calls : List ClearingCall) :
    key ∈ (run step service calls).1.ledger.idempotencyKeys := by
  induction calls generalizing service with
  | nil => exact used
  | cons call rest inductionHypothesis =>
      exact inductionHypothesis (tidy_perform tidy call) (mem_keys_perform tidy used call)

/-- A liquidation that succeeds has used its key. -/
theorem mem_keys_of_liquidated
    (ok : (service.processLiquidation userId symbol exitPrice now).2 = .ok surplus) :
    liquidationKey userId symbol ∈
      (service.processLiquidation userId symbol exitPrice now).1.ledger.idempotencyKeys := by
  obtain ⟨position, found, granted, -⟩ := processLiquidation_ok_iff.1 ok
  rw [processLiquidation_of_found found]
  exact Ledger.mem_keys_of_done (done_of_granted granted) rfl id

/-- Once a user's position in a symbol has been liquidated, no later liquidation of a position
of the user there takes effect, as long as there is a margin to seize. -/
theorem liquidated_again (before later : List ClearingCall)
    (ok : ((run step new before).1.processLiquidation userId symbol exitPrice now).2 =
      .ok surplus)
    (nextPrice : Decimal128) (nextTime : UnixMicros) :
    let service := (run step new
      (before ++ .processLiquidation userId symbol exitPrice now :: later)).1
    ∀ position, service.positionManager.getPosition userId symbol = some position →
      0 < position.margin → ¬service.TakesEffect userId symbol nextPrice nextTime := by
  intro service position found positive takes
  refine takesEffect_iff.1 takes position found positive ?_
  have spent : liquidationKey userId symbol ∈ ((run step new before).1.perform
      (.processLiquidation userId symbol exitPrice now)).1.ledger.idempotencyKeys :=
    mem_keys_of_liquidated ok
  have kept := mem_keys_run
    (tidy_perform (tidy_run before) (.processLiquidation userId symbol exitPrice now)) spent later
  simp only [service, run_append]
  exact kept

/-- In every history, a liquidation takes effect unless there is a margin to seize and the
ledger has seen the key of the user and the symbol before. -/
theorem liquidations_take_effect_iff (calls : List ClearingCall) (userId : UserId)
    (symbol : SymbolId) (exitPrice : Decimal128) (now : UnixMicros) :
    let service := (run step new calls).1
    service.TakesEffect userId symbol exitPrice now ↔
      ∀ position, service.positionManager.getPosition userId symbol = some position →
        0 < position.margin →
          liquidationKey userId symbol ∉ service.ledger.idempotencyKeys :=
  takesEffect_iff

/-- A user is liquidated and buys again in the same symbol. -/
def liquidatedOnce : List ClearingCall :=
  tradedRun ++ [.processLiquidation 1 1 (.ofInt 95) 200, .processTrade secondTrade]

/-- The second liquidation returns its surplus of 50, and the margin of 100 stays where it
is. -/
theorem second_liquidation_moves_nothing :
    let service := (run step new liquidatedOnce).1
    let outcome := service.processLiquidation 1 1 (.ofInt 95) 300
    outcome.2 = .ok (.ofInt 50) ∧
      service.positionManager.userMargin 1 = .ofInt 100 ∧
      outcome.1.ledger.holding (.user 1 .futures .margin) = .ofInt 100 ∧
      ¬service.TakesEffect 1 1 (.ofInt 95) 300 := by
  intro service outcome
  refine ⟨by decide +kernel, by decide +kernel, by decide +kernel, fun takes => ?_⟩
  have unused := takesEffect_iff.1 takes
  revert unused
  decide +kernel

end ClearingService
end Exg
