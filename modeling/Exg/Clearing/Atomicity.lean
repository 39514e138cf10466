import Exg.Clearing.CheckedService
import Exg.Clearing.TradeSides

/-!
# Failures and redeliveries

The ledger is asked stage by stage and nothing is taken back, so an operation leaves no
trace only where its very first request is turned down before anything has changed, or
where a trade of a user with themselves undoes on the positions what it did and the ledger
takes all of it for duplicates.
-/

namespace Exg

open Support
open Ledger (LedgerCall)

namespace ClearingService

variable {service : ClearingService} {call : LedgerCall} {ledger : Ledger}

/-! ## Asking the ledger -/

private theorem askLedger_repeats (repeats : ledger.Repeats call) :
    askLedger ledger call = (ledger, none) := by
  rw [askLedger, Ledger.perform_repeated repeats]
  rfl

/-- Stages that can be told apart from what went before by their keys. -/
def Plain (stage : ClearingStage) : Prop :=
  (∃ key, stage.call.key? = some key) ∧ ¬stage.call.Idle ∧ ¬stage.call.IsLiquidation

theorem mem_keys_runStages {key : String} (used : key ∈ ledger.idempotencyKeys)
    (stages : List ClearingStage) (own : PositionManager) :
    key ∈ (runStages askLedger stages own ledger).1.2.idempotencyKeys := by
  have keeps : ∀ (other : Ledger) (call : LedgerCall), key ∈ other.idempotencyKeys →
      key ∈ (askLedger other call).1.idempotencyKeys :=
    fun _ call member => Ledger.mem_keys_perform member call
  exact runStages_other keeps stages own used

/-- A first request that uses its key up leaves a trace, whatever follows. -/
theorem not_unmoved_of_spends {stage : ClearingStage} (spends : ledger.Spends stage.call)
    (rest : List ClearingStage) (own : PositionManager) :
    ¬Ledger.Unmoved ledger (runStages askLedger (stage :: rest) own ledger).1.2 := by
  intro unmoved
  obtain ⟨key, unused, used⟩ := spends.uses_key
  rw [← unmoved.2.2] at unused
  cases asked : (askLedger ledger stage.call).2 with
  | none =>
      rw [runStages_granted asked] at unused
      exact unused (mem_keys_runStages used rest _)
  | some stop =>
      rw [runStages_stopped asked] at unused
      exact unused used

/-- Requests that are all duplicates are granted and leave the ledger as it is. -/
theorem runStages_of_repeats {stages : List ClearingStage}
    (repeats : ∀ stage ∈ stages, ledger.Repeats stage.call) (own : PositionManager) :
    (runStages askLedger stages own ledger).2 = none ∧
      (runStages askLedger stages own ledger).1.2 = ledger := by
  induction stages generalizing own with
  | nil => exact ⟨rfl, rfl⟩
  | cons stage rest inductionHypothesis =>
      have asked := askLedger_repeats (repeats stage List.mem_cons_self)
      rw [runStages_granted (congrArg Prod.snd asked), asked]
      apply inductionHypothesis
      exact fun later member => repeats later (List.mem_cons_of_mem stage member)

/-- If all requests were granted and the ledger is as it was, they were all duplicates. -/
theorem repeats_of_unmoved {stages : List ClearingStage} (plain : ∀ stage ∈ stages, Plain stage)
    {own : PositionManager} (finished : (runStages askLedger stages own ledger).2 = none)
    (unmoved : Ledger.Unmoved ledger (runStages askLedger stages own ledger).1.2) :
    ∀ stage ∈ stages, ledger.Repeats stage.call := by
  induction stages generalizing own with
  | nil => exact fun stage member => absurd member List.not_mem_nil
  | cons stage rest inductionHypothesis =>
      obtain ⟨⟨key, keyed⟩, active, -⟩ := plain stage List.mem_cons_self
      have kept : ¬ledger.Spends stage.call :=
        fun spends => not_unmoved_of_spends spends rest own unmoved
      cases asked : (askLedger ledger stage.call).2 with
      | some stop =>
          rw [runStages_stopped asked] at finished
          cases finished
      | none =>
          have repeats := Ledger.repeats_of_done (done_of_granted asked) kept keyed active
          rw [runStages_granted asked, askLedger_repeats repeats] at finished unmoved
          intro other member
          rcases List.mem_cons.1 member with rfl | later
          · exact repeats
          · exact inductionHypothesis
              (fun next listed => plain next (List.mem_cons_of_mem _ listed)) finished unmoved
              other later

/-! ## Unchanged services -/

/-- All positions, and the ledger's balances, journal and keys, are as they were. -/
def Unchanged (before after : ClearingService) : Prop :=
  after.positionManager = before.positionManager ∧ Ledger.Unmoved before.ledger after.ledger

private theorem unchanged_nil : Unchanged service (ofStages (service.runOn [])).1 :=
  ⟨rfl, fun _ => rfl, rfl, rfl⟩

private theorem not_unchanged_of_position {stages : List ClearingStage} (userId : UserId)
    (symbol : SymbolId)
    (differs : (runStages askLedger stages service.positionManager
        service.ledger).1.1.getPosition userId symbol ≠
      service.positionManager.getPosition userId symbol) :
    ¬Unchanged service (ofStages (service.runOn stages)).1 :=
  fun same => differs (congrArg (fun manager => PositionManager.getPosition manager userId symbol)
    same.1)

/-- A first request that is turned down leaves nothing but, perhaps, its key. -/
theorem unchanged_iff_of_refused {stage : ClearingStage} {rest : List ClearingStage}
    (quiet : ¬stage.call.IsLiquidation) (refuses : service.ledger.Refuses stage.call)
    (patient : stage.prepare service.positionManager = service.positionManager) :
    Unchanged service (ofStages (service.runOn (stage :: rest))).1 ↔
      ¬service.ledger.Spends stage.call := by
  have stopped : (askLedger service.ledger stage.call).2 ≠ none :=
    fun granted => (askLedger_granted_iff quiet).1 granted refuses
  obtain ⟨stop, told⟩ := Option.ne_none_iff_exists'.1 stopped
  rw [← Ledger.unmoved_perform_iff, Unchanged, runOn, runStages_stopped told]
  exact and_iff_right patient

/-- What stops requests of users is an error. -/
theorem failed_of_stopped {stages : List ClearingStage} {stop : ClearingStop}
    (settling : ∀ stage ∈ stages, stage.call.settles?.isSome)
    (stopped : (service.runOn stages).2 = some stop) : ∃ error, stop = .failed error := by
  obtain ⟨stage, member, reached, told⟩ := exists_of_stopped stopped
  obtain ⟨userId, settles⟩ := Option.isSome_iff_exists.1 (settling stage member)
  rw [askLedger] at told
  cases ended : (reached.perform stage.call).2 with
  | panicked text =>
      exact absurd (Ledger.isLiquidation_of_panicked ended) (quiet_of_settles settles)
  | done => simp [ended, OperationResult.stop] at told
  | failed error =>
      rw [ended] at told
      exact ⟨_, (Option.some.inj told).symm⟩

private theorem allows_iff_finished {stages : List ClearingStage}
    (orderly : Orderly (stages.map Stage.call)) :
    service.Allows stages ↔ (service.runOn stages).2 = none := by
  rw [allows_iff orderly, ← runStages_stops_iff stages service.positionManager,
    Option.not_isSome_iff_eq_none]
  rfl

/-- If an error is to leave nothing behind: either there is none, or nothing is left behind. -/
theorem unchanged_on_error_iff {stages : List ClearingStage}
    (orderly : Orderly (stages.map Stage.call)) :
    (∀ error, (ofStages (service.runOn stages)).2 = .error (.failed error) →
        Unchanged service (ofStages (service.runOn stages)).1) ↔
      service.Allows stages ∨ Unchanged service (ofStages (service.runOn stages)).1 := by
  rw [allows_iff_finished orderly]
  cases stopped : (service.runOn stages).2 with
  | none => simp [ofStages, stopped]
  | some stop =>
      obtain ⟨error, rfl⟩ := failed_of_stopped
        (fun stage member => orderly.settling _ (List.mem_map_of_mem member)) stopped
      simp [ofStages, stopped]

/-! ## Funding -/

/-- The first request is turned down, and its key is not kept. -/
def RefusedAtOnce (service : ClearingService) (stages : List ClearingStage) : Prop :=
  ∃ stage rest, stages = stage :: rest ∧ service.ledger.Refuses stage.call ∧
    ¬service.ledger.Spends stage.call

section Funding

variable {fundingRate markPrice : Decimal128} {fundingPeriodId : Nat} {timestamp : UnixMicros}

/-- Funding leaves the positions of everyone else alone. -/
theorem funding_frame {positions : List Position} {userId : UserId} {symbol : SymbolId}
    (apart : userId ∉ positions.map Position.userId) (own : PositionManager) (other : Ledger) :
    (runStages askLedger
        (positions.map (ClearingStage.funding fundingRate markPrice fundingPeriodId timestamp)) own
        other).1.1.getPosition userId symbol = own.getPosition userId symbol := by
  apply runStages_view (fun manager : PositionManager => manager.getPosition userId symbol)
  · intro stage member reached
    obtain ⟨position, -, rfl⟩ := List.mem_map.1 member
    rfl
  · intro stage member ledger reached
    obtain ⟨position, listed, rfl⟩ := List.mem_map.1 member
    apply PositionManager.getPosition_recordFunding_of_ne
    rintro ⟨rfl, -⟩
    exact apart (List.mem_map_of_mem listed)

/-- A funding settlement leaves no trace exactly when nobody pays or receives anything, or
its first payment is turned down and its key is not kept. -/
theorem funding_unchanged_iff {positions : List Position}
    (distinct : (positions.map Position.userId).Nodup)
    (stored : ∀ position ∈ positions,
      service.positionManager.getPosition position.userId position.symbol = some position) :
    Unchanged service (ofStages (service.runOn
        (fundingStages fundingRate markPrice fundingPeriodId timestamp positions))).1 ↔
      fundingStages fundingRate markPrice fundingPeriodId timestamp positions = [] ∨
        service.RefusedAtOnce
          (fundingStages fundingRate markPrice fundingPeriodId timestamp positions) := by
  rw [fundingStages]
  cases paying : positions.filter fun position =>
      !(calcFundingFee position.size markPrice fundingRate position.side).isZero with
  | nil => exact iff_of_true unchanged_nil (Or.inl rfl)
  | cons position rest =>
      have listed : position ∈ position :: rest := List.mem_cons_self
      rw [← paying] at listed
      obtain ⟨member, pays⟩ := List.mem_filter.1 listed
      have nonzero : calcFundingFee position.size markPrice fundingRate position.side ≠ 0 := by
        intro zero
        rw [Decimal128.isZero_iff.2 zero] at pays
        cases pays
      have found := stored position member
      have apart : position.userId ∉ rest.map Position.userId := by
        have users := distinct.sublist ((List.filter_sublist (l := positions)
          (p := fun position => !(calcFundingFee position.size markPrice fundingRate
            position.side).isZero)).map Position.userId)
        rw [paying] at users
        exact (List.nodup_cons.1 users).1
      rw [List.map_cons]
      set stage := ClearingStage.funding fundingRate markPrice fundingPeriodId timestamp position
      have quiet : ¬stage.call.IsLiquidation := id
      by_cases refuses : service.ledger.Refuses stage.call
      · rw [unchanged_iff_of_refused quiet refuses rfl]
        constructor
        · exact fun kept => Or.inr ⟨stage, _, rfl, refuses, kept⟩
        · rintro (none | ⟨first, others, same, -, kept⟩)
          · cases none
          · obtain ⟨rfl, -⟩ := List.cons.inj same
            exact kept
      · have granted := (askLedger_granted_iff quiet).2 refuses
        apply iff_of_false
        · apply not_unchanged_of_position position.userId position.symbol
          rw [runStages_granted granted, funding_frame apart, found]
          exact PositionManager.getPosition_recordFunding_ne found nonzero _
        · rintro (none | ⟨first, others, same, refused, -⟩)
          · cases none
          · obtain ⟨rfl, -⟩ := List.cons.inj same
            exact refuses refused

end Funding

end ClearingService

namespace ClearingService

variable {service : ClearingService} {manager : PositionManager} {side : TradeSide}

private theorem plain_sideStages (manager : PositionManager) (side : TradeSide) :
    ∀ stage ∈ manager.sideStages side, Plain stage := by
  intro stage member
  obtain rfl | ⟨-, rfl⟩ := PositionManager.mem_sideStages member
  · exact ⟨⟨_, rfl⟩, id, id⟩
  · exact ⟨⟨_, rfl⟩, id, id⟩

/-- A side changes no position but its own. -/
theorem sideStages_frame {userId : UserId} (apart : side.userId ≠ userId) (symbol : SymbolId) :
    ∀ stage ∈ manager.sideStages side,
      (∀ own : PositionManager, (stage.prepare own).getPosition userId symbol =
        own.getPosition userId symbol) ∧
      ∀ (ledger : Ledger) (own : PositionManager),
        (stage.conclude ledger own).getPosition userId symbol = own.getPosition userId symbol := by
  have elsewhere : ¬(side.userId = userId ∧ side.symbol = symbol) := fun same => apart same.1
  intro stage member
  obtain rfl | ⟨-, rfl⟩ := PositionManager.mem_sideStages member
  · exact ⟨fun own => PositionManager.getPosition_afterReduction_of_ne elsewhere _ _,
      fun _ _ => rfl⟩
  · exact ⟨fun _ => rfl, fun _ own =>
      PositionManager.getPosition_openOrIncrease_of_ne elsewhere _ _ _ _ _⟩

/-- The opening part of a side either leaves the positions or ends with one of its own side. -/
theorem openStages_position (manager closed : PositionManager) (side : TradeSide)
    (ledger : Ledger) :
    let reached := (runStages askLedger (manager.openStages side) closed ledger).1.1
    reached = closed ∨ ∃ position,
      reached.getPosition side.userId side.symbol = some position ∧
        position.side = side.intendedSide ∧
        (runStages askLedger (manager.openStages side) closed ledger).2 = none := by
  rw [PositionManager.openStages]
  split
  · rename_i opens
    cases asked : (askLedger ledger
        (ClearingStage.opening side (manager.split side).1 (manager.split side).2).call).2 with
    | none =>
        rw [runStages_granted asked]
        obtain ⟨position, found, own, -⟩ := PositionManager.getPosition_openOrIncrease closed
          side.userId side.symbol side.intendedSide (manager.split side).2 side.price side.leverage
          side.marginMode
        exact Or.inr ⟨position, found, own, rfl⟩
    | some stop =>
        rw [runStages_stopped asked]
        exact Or.inl rfl
  · exact Or.inl rfl

/-- A side that closes something has changed the position, however it ends. -/
theorem opposed_side_changes (ledger : Ledger) (tidy : manager.Tidy) {position : Position}
    (found : manager.getPosition side.userId side.symbol = some position)
    (against : position.side = side.intendedSide.opposite)
    (directed : side.intendedSide ≠ side.intendedSide.opposite) (positive : 0 < side.qty) :
    (runStages askLedger (manager.sideStages side) manager ledger).1.1.getPosition side.userId
      side.symbol ≠ some position := by
  have closes : 0 < min side.qty position.size := lt_min positive (tidy.positive _ _ _ found)
  have reduced := PositionManager.getPosition_afterReduction_ne found (min_le_right side.qty _)
    closes.ne' side.price
  rw [PositionManager.sideStages_of_opposed tidy found against positive]
  cases asked : (askLedger ledger (ClearingStage.reduction manager side.userId side.symbol
      (min side.qty position.size) side.price (side.closeFee (min side.qty position.size))
      side.closeKey side.timestamp).call).2 with
  | some stop =>
      rw [runStages_stopped asked]
      exact reduced
  | none =>
      rw [runStages_granted asked]
      rcases openStages_position manager _ side _ with same | ⟨opened, held, own, -⟩
      · rw [same]
        exact reduced
      · rw [held]
        rintro ⟨⟩
        exact directed (own.symm.trans against)

/-- A side that is stopped leaves no position of the side it was to open, unless it has
changed nothing. -/
theorem stopped_side_position {ledger : Ledger} (tidy : manager.Tidy) (positive : 0 < side.qty)
    (stopped : (runStages askLedger (manager.sideStages side) manager ledger).2 ≠ none) :
    (runStages askLedger (manager.sideStages side) manager ledger).1.1 = manager ∨
      ∀ position, (runStages askLedger (manager.sideStages side) manager ledger).1.1.getPosition
        side.userId side.symbol = some position → position.side = side.intendedSide.opposite := by
  by_cases opposed : manager.Opposed side
  · obtain ⟨held, found, against⟩ := opposed
    have reduced : ∀ position, (manager.afterReduction side.userId side.symbol
        (min side.qty held.size) side.price).getPosition side.userId side.symbol = some position →
          position.side = side.intendedSide.opposite := by
      intro position left
      rw [PositionManager.getPosition_afterReduction found (min_le_right _ _)] at left
      split at left
      · cases left
      · cases left
        exact against
    rw [PositionManager.sideStages_of_opposed tidy found against positive] at stopped ⊢
    cases asked : (askLedger ledger (ClearingStage.reduction manager side.userId side.symbol
        (min side.qty held.size) side.price (side.closeFee (min side.qty held.size))
        side.closeKey side.timestamp).call).2 with
    | some stop =>
        rw [runStages_stopped asked]
        exact Or.inr reduced
    | none =>
        rw [runStages_granted asked] at stopped ⊢
        rcases openStages_position manager _ side _ with same | ⟨-, -, -, finished⟩
        · rw [same]
          exact Or.inr reduced
        · exact absurd finished stopped
  · rw [(PositionManager.sideStages_of_free opposed positive).1] at stopped ⊢
    cases asked : (askLedger ledger (ClearingStage.opening side 0 side.qty).call).2 with
    | some stop =>
        rw [runStages_stopped asked]
        exact Or.inl rfl
    | none =>
        rw [runStages_granted asked] at stopped
        exact absurd rfl stopped

/-! ## Trades -/

/-- A trade of a user with themselves whose two sides cancel out on the positions, with all of
the first half, and all or a refused rest of the second, taken for duplicates by the ledger. -/
structure SelfUndone (service : ClearingService) (trade : TradeInfo) : Prop where
  self : trade.buyerUserId = trade.sellerUserId
  cancels : trade.Cancels (service.positionManager.getPosition trade.buyerUserId trade.symbol)
  bought : ∀ stage ∈ service.positionManager.sideStages trade.buyerSide,
    service.ledger.Repeats stage.call
  sold :
    (∀ stage ∈ (service.positionManager.takeSide trade.buyerSide).sideStages trade.sellerSide,
      service.ledger.Repeats stage.call) ∨
    (¬service.positionManager.Opposed trade.buyerSide ∧
      ∀ stage ∈ (service.positionManager.takeSide trade.buyerSide).sideStages trade.sellerSide,
        ¬service.ledger.Spends stage.call)

/-- The buyer opens with the whole quantity, and the ledger turns that down at once. -/
def OpeningRefused (service : ClearingService) (side : TradeSide) : Prop :=
  ¬service.positionManager.Opposed side ∧
    service.ledger.Refuses (ClearingStage.opening side 0 side.qty).call ∧
      ¬service.ledger.Spends (ClearingStage.opening side 0 side.qty).call

/-- The trades that leave the service as it is. -/
def LeavesNoTrace (service : ClearingService) (trade : TradeInfo) : Prop :=
  trade.qty ≤ 0 ∨ service.OpeningRefused trade.buyerSide ∨ service.SelfUndone trade

private theorem trade_positions_of_finished
    (finished : (runStages askLedger (service.positionManager.tradeStages trade)
      service.positionManager service.ledger).2 = none) :
    (runStages askLedger (service.positionManager.tradeStages trade) service.positionManager
      service.ledger).1.1 =
        (service.positionManager.takeSide trade.buyerSide).takeSide trade.sellerSide := by
  rw [PositionManager.tradeStages] at finished ⊢
  cases bought : (runStages askLedger (service.positionManager.sideStages trade.buyerSide)
    service.positionManager service.ledger).2 with
  | none =>
      rw [runStages_append_of_finished bought, takeSide_of_finished bought] at finished ⊢
      exact takeSide_of_finished finished
  | some stop =>
      rw [runStages_append_of_stopped bought, bought] at finished
      cases finished

/-- Between two users, a trade that gets past its first request changes a position. -/
theorem trade_frame (apart : trade.buyerUserId ≠ trade.sellerUserId) :
    (runStages askLedger (service.positionManager.tradeStages trade) service.positionManager
        service.ledger).1.1.getPosition trade.buyerUserId trade.symbol =
      (runStages askLedger (service.positionManager.sideStages trade.buyerSide)
        service.positionManager service.ledger).1.1.getPosition trade.buyerUserId
          trade.symbol := by
  have seller : trade.sellerSide.userId ≠ trade.buyerUserId := fun same => apart same.symm
  rw [PositionManager.tradeStages]
  apply runStages_append_view
    (fun manager : PositionManager => manager.getPosition trade.buyerUserId trade.symbol)
  · exact fun stage member => (sideStages_frame seller trade.symbol stage member).1
  · exact fun stage member => (sideStages_frame seller trade.symbol stage member).2

/-- A trade with oneself that closes something and is stopped has changed the position. -/
theorem self_trade_stopped (tidy : service.positionManager.Tidy) (positive : 0 < trade.qty)
    (self : trade.buyerUserId = trade.sellerUserId) {held : Position}
    (found : service.positionManager.getPosition trade.buyerUserId trade.symbol = some held)
    (short : held.side = .short)
    (stopped : (runStages askLedger (service.positionManager.tradeStages trade)
      service.positionManager service.ledger).2 ≠ none) :
    (runStages askLedger (service.positionManager.tradeStages trade) service.positionManager
      service.ledger).1.1.getPosition trade.buyerUserId trade.symbol ≠ some held := by
  have directed : PositionSide.long ≠ PositionSide.long.opposite := by decide
  have changed : (runStages askLedger (service.positionManager.sideStages trade.buyerSide)
      service.positionManager service.ledger).1.1.getPosition trade.buyerUserId trade.symbol ≠
        some held :=
    opposed_side_changes service.ledger tidy found short directed positive
  rw [PositionManager.tradeStages] at stopped ⊢
  cases bought : (runStages askLedger (service.positionManager.sideStages trade.buyerSide)
    service.positionManager service.ledger).2 with
  | none =>
      rw [takeSide_of_finished bought] at changed
      rw [runStages_append_of_finished bought, takeSide_of_finished bought] at stopped ⊢
      rcases stopped_side_position (tidy.takeSide trade.buyerSide) positive stopped with
        kept | left
      · rw [kept]
        exact changed
      · intro equal
        rw [self] at equal
        have long := left held equal
        rw [short] at long
        cases long
  | some stop =>
      rw [runStages_append_of_stopped bought]
      exact changed

/-- A trade against a short position of the buyer. -/
theorem trade_unchanged_iff_of_opposed (tidy : service.positionManager.Tidy)
    (positive : 0 < trade.qty) (opposed : service.positionManager.Opposed trade.buyerSide) :
    Unchanged service (ofStages (service.runOn
        (service.positionManager.tradeStages trade))).1 ↔ service.SelfUndone trade := by
  obtain ⟨held, found, against⟩ := opposed
  have directed : PositionSide.long ≠ PositionSide.long.opposite := by decide
  have bought := opposed_side_changes service.ledger tidy found against directed positive
  have plain : ∀ stage ∈ service.positionManager.tradeStages trade, Plain stage := by
    intro stage member
    rcases List.mem_append.1 member with buyer | seller
    · exact plain_sideStages _ _ stage buyer
    · exact plain_sideStages _ _ stage seller
  constructor
  · intro same
    have self : trade.buyerUserId = trade.sellerUserId := by
      by_contra apart
      have kept := congrArg (fun manager => PositionManager.getPosition manager
        trade.buyerUserId trade.symbol) same.1
      exact bought ((trade_frame apart).symm.trans (kept.trans found))
    have finished : (runStages askLedger (service.positionManager.tradeStages trade)
        service.positionManager service.ledger).2 = none := by
      by_contra stopped
      have kept := congrArg (fun manager => PositionManager.getPosition manager
        trade.buyerUserId trade.symbol) same.1
      exact self_trade_stopped tidy positive self found against stopped (kept.trans found)
    have undone := trade_positions_of_finished finished
    have repeats := repeats_of_unmoved plain finished same.2
    refine ⟨self, (PositionManager.undone_iff tidy positive self).1 (undone.symm.trans same.1), ?_,
      Or.inl ?_⟩
    · exact fun stage member => repeats stage (List.mem_append_left _ member)
    · exact fun stage member => repeats stage (List.mem_append_right _ member)
  · rintro ⟨self, cancels, buyer, seller | ⟨free, -⟩⟩
    · have undone := (PositionManager.undone_iff tidy positive self).2 cancels
      have repeats : ∀ stage ∈ service.positionManager.tradeStages trade,
          service.ledger.Repeats stage.call := by
        intro stage member
        rcases List.mem_append.1 member with own | other
        · exact buyer stage own
        · exact seller stage other
      obtain ⟨finished, kept⟩ := runStages_of_repeats repeats service.positionManager
      refine ⟨(trade_positions_of_finished finished).trans undone, ?_⟩
      change Ledger.Unmoved service.ledger (runStages askLedger _ _ _).1.2
      rw [kept]
      exact ⟨fun _ => rfl, rfl, rfl⟩
    · exact absurd ⟨held, found, against⟩ free

/-- A single stage that is done with the positions before it asks. -/
theorem runStages_single {stage : ClearingStage} (own : PositionManager) (ledger : Ledger)
    (prepared : ∀ ledger positions, stage.conclude ledger positions = positions) :
    runStages askLedger [stage] own ledger =
      ((stage.prepare own, (askLedger ledger stage.call).1),
        (askLedger ledger stage.call).2) := by
  cases asked : (askLedger ledger stage.call).2 with
  | none => rw [runStages_granted asked, runStages, prepared]
  | some stop => rw [runStages_stopped asked]

/-- A trade with oneself in which the buyer's opening is granted: the seller's side closes
what the buyer's has opened. -/
theorem self_trade_unchanged_iff (tidy : service.positionManager.Tidy) (positive : 0 < trade.qty)
    (free : ¬service.positionManager.Opposed trade.buyerSide)
    (self : trade.buyerUserId = trade.sellerUserId)
    (granted : ¬service.ledger.Refuses
      (ClearingStage.opening trade.buyerSide 0 trade.buyerSide.qty).call) :
    Unchanged service (ofStages (service.runOn
        (service.positionManager.tradeStages trade))).1 ↔ service.SelfUndone trade := by
  obtain ⟨buyerStages, bought⟩ :=
    PositionManager.sideStages_of_free free positive
  obtain ⟨long, held, own, size⟩ := PositionManager.getPosition_openOrIncrease
    service.positionManager trade.buyerUserId trade.symbol .long trade.qty trade.price
    trade.buyerLeverage trade.buyerMarginMode
  have heldAfter : (service.positionManager.takeSide trade.buyerSide).getPosition
      trade.sellerSide.userId trade.sellerSide.symbol = some long := by
    have seller : trade.sellerSide.userId = trade.buyerUserId := self.symm
    rw [bought, seller]
    exact held
  have covered : trade.sellerSide.qty ≤ long.size := by
    rw [size]
    apply le_add_of_nonneg_left
    cases before : service.positionManager.getPosition trade.buyerUserId trade.symbol with
    | none => exact le_rfl
    | some position => exact (tidy.positive _ _ _ before).le
  obtain ⟨sellerStages, sold⟩ := PositionManager.sideStages_of_covered
    (tidy.takeSide trade.buyerSide) heldAfter own positive covered
  obtain ⟨⟨key, keyed⟩, active, quiet⟩ := plain_sideStages service.positionManager
    trade.buyerSide _ (by rw [buyerStages]; exact List.mem_singleton_self _)
  have told := (askLedger_granted_iff quiet).2 granted
  by_cases spends : service.ledger.Spends
      (ClearingStage.opening trade.buyerSide 0 trade.buyerSide.qty).call
  · apply iff_of_false
    · intro same
      have unmoved := same.2
      rw [PositionManager.tradeStages, buyerStages, List.singleton_append] at unmoved
      exact not_unmoved_of_spends spends _ _ unmoved
    · intro undone
      have repeats := undone.bought _ (by rw [buyerStages]; exact List.mem_singleton_self _)
      exact spends.not_repeats repeats
  · have repeats : ∀ stage ∈ service.positionManager.sideStages trade.buyerSide,
        service.ledger.Repeats stage.call := by
      intro stage member
      rw [buyerStages] at member
      obtain rfl := List.mem_singleton.1 member
      exact Ledger.repeats_of_done (done_of_granted told) spends keyed active
    obtain ⟨finished, kept⟩ := runStages_of_repeats repeats service.positionManager
    have reached : Unchanged service (ofStages (service.runOn
        (service.positionManager.tradeStages trade))).1 ↔
          (service.positionManager.takeSide trade.buyerSide).takeSide trade.sellerSide =
            service.positionManager ∧
          ∀ stage ∈ (service.positionManager.takeSide trade.buyerSide).sideStages
            trade.sellerSide, ¬service.ledger.Spends stage.call := by
      rw [Unchanged, ofStages, runOn, PositionManager.tradeStages,
        runStages_append_of_finished finished, takeSide_of_finished finished, kept, sellerStages,
        runStages_single, sold, List.forall_mem_singleton, ← Ledger.unmoved_perform_iff]
      · rfl
      · exact fun _ _ => rfl
    rw [reached, PositionManager.undone_iff tidy positive self]
    constructor
    · rintro ⟨cancels, unspent⟩
      exact ⟨self, cancels, repeats, Or.inr ⟨free, unspent⟩⟩
    · rintro ⟨-, cancels, -, duplicates | ⟨-, kept⟩⟩
      · exact ⟨cancels, fun stage member spent =>
          spent.not_repeats (duplicates stage member)⟩
      · exact ⟨cancels, kept⟩

/-- A trade in which the buyer has nothing to close. -/
theorem trade_unchanged_iff_of_free (tidy : service.positionManager.Tidy)
    (positive : 0 < trade.qty) (free : ¬service.positionManager.Opposed trade.buyerSide) :
    Unchanged service (ofStages (service.runOn
        (service.positionManager.tradeStages trade))).1 ↔
      service.OpeningRefused trade.buyerSide ∨ service.SelfUndone trade := by
  obtain ⟨buyerStages, bought⟩ :=
    PositionManager.sideStages_of_free free positive
  have quiet : ¬(ClearingStage.opening trade.buyerSide 0 trade.buyerSide.qty).call.IsLiquidation :=
    id
  by_cases refuses : service.ledger.Refuses
      (ClearingStage.opening trade.buyerSide 0 trade.buyerSide.qty).call
  · rw [PositionManager.tradeStages, buyerStages, List.singleton_append,
      unchanged_iff_of_refused quiet refuses rfl]
    constructor
    · exact fun kept => Or.inl ⟨free, refuses, kept⟩
    · rintro (⟨-, -, kept⟩ | undone)
      · exact kept
      · have repeats := undone.bought _ (by rw [buyerStages]; exact List.mem_singleton_self _)
        exact absurd repeats refuses.not_repeats
  · have notRefused : ¬service.OpeningRefused trade.buyerSide := fun refused => refuses refused.2.1
    rw [or_iff_right notRefused]
    by_cases self : trade.buyerUserId = trade.sellerUserId
    · exact self_trade_unchanged_iff tidy positive free self refuses
    · apply iff_of_false
      · intro same
        have kept := congrArg (fun manager => PositionManager.getPosition manager
          trade.buyerUserId trade.symbol) same.1
        have finished : (runStages askLedger (service.positionManager.sideStages trade.buyerSide)
            service.positionManager service.ledger).2 = none := by
          rw [buyerStages, runStages_granted ((askLedger_granted_iff quiet).2 refuses)]
          rfl
        obtain ⟨long, held, own, size⟩ := PositionManager.getPosition_openOrIncrease
          service.positionManager trade.buyerUserId trade.symbol .long trade.qty trade.price
          trade.buyerLeverage trade.buyerMarginMode
        have opened := (trade_frame self).symm.trans kept
        rw [takeSide_of_finished finished, bought] at opened
        have before : some long = service.positionManager.getPosition trade.buyerUserId
          trade.symbol := held.symm.trans opened
        rw [← before] at size
        exact positive.ne' (left_eq_add.1 size)
      · exact fun undone => self undone.self

/-- A trade leaves no trace exactly when it is one of those listed. -/
theorem trade_unchanged_iff (tidy : service.positionManager.Tidy) (trade : TradeInfo) :
    Unchanged service (service.processTrade trade).1 ↔ service.LeavesNoTrace trade := by
  rw [processTrade_eq, LeavesNoTrace]
  by_cases nonpos : trade.qty ≤ 0
  · have bought : trade.buyerSide.qty ≤ 0 := nonpos
    have sold : trade.sellerSide.qty ≤ 0 := nonpos
    have buyer := PositionManager.sideStages_of_nonpos tidy bought
    have seller := PositionManager.sideStages_of_nonpos tidy sold
    rw [PositionManager.tradeStages, buyer.1, buyer.2, seller.1]
    exact iff_of_true unchanged_nil (Or.inl nonpos)
  · rw [or_iff_right nonpos]
    have positive := not_le.1 nonpos
    by_cases opposed : service.positionManager.Opposed trade.buyerSide
    · have notRefused : ¬service.OpeningRefused trade.buyerSide := fun refused => refused.1 opposed
      rw [or_iff_right notRefused]
      exact trade_unchanged_iff_of_opposed tidy positive opposed
    · exact trade_unchanged_iff_of_free tidy positive opposed

/-! ## Deleveraging -/

section Adl

variable {bankruptUser : UserId} {symbol : SymbolId} {markPrice : Decimal128}
variable {timestamp : UnixMicros}

/-- Deleveraging changes no position of a user who is not reduced. -/
theorem adlStages_frame {reductions : List (UserId × Decimal128)} {userId : UserId}
    (apart : userId ∉ reductions.map Prod.fst) :
    ∀ stage ∈ manager.adlStages bankruptUser symbol markPrice timestamp reductions,
      (∀ own : PositionManager, (stage.prepare own).getPosition userId symbol =
        own.getPosition userId symbol) ∧
      ∀ (ledger : Ledger) (own : PositionManager),
        (stage.conclude ledger own).getPosition userId symbol = own.getPosition userId symbol := by
  intro stage member
  obtain ⟨reduction, listed, rfl⟩ := List.mem_map.1 member
  constructor
  · intro own
    apply PositionManager.getPosition_afterReduction_of_ne
    rintro ⟨rfl, -⟩
    exact apart (List.mem_map.2 ⟨reduction, listed, rfl⟩)
  · exact fun _ _ => rfl

/-- A deleveraging that asks for anything has changed a position. -/
theorem adl_unchanged_iff {reductions : List (UserId × Decimal128)}
    (distinct : (reductions.map Prod.fst).Nodup)
    (takes : ∀ reduction ∈ reductions, ∃ position,
      service.positionManager.getPosition reduction.1 symbol = some position ∧
        reduction.2 ≤ position.size ∧ reduction.2 ≠ 0) :
    Unchanged service (ofStages (service.runOn (service.positionManager.adlStages bankruptUser
        symbol markPrice timestamp reductions))).1 ↔ reductions = [] := by
  cases reductions with
  | nil => exact iff_of_true unchanged_nil rfl
  | cons reduction rest =>
      obtain ⟨fresh, -⟩ := List.nodup_cons.1 distinct
      obtain ⟨position, found, within, nonzero⟩ := takes reduction List.mem_cons_self
      have changed := PositionManager.getPosition_afterReduction_ne found within nonzero markPrice
      refine iff_of_false (not_unchanged_of_position reduction.1 symbol fun same =>
        changed ?_) (List.cons_ne_nil _ _)
      rw [← found, ← same, PositionManager.adlStages, List.map_cons, ← List.singleton_append,
        runStages_append_view
          (fun manager : PositionManager => manager.getPosition reduction.1 symbol),
        runStages_single]
      · rfl
      · exact fun _ _ => rfl
      · exact fun stage member => (adlStages_frame fresh stage member).1
      · exact fun stage member => (adlStages_frame fresh stage member).2

end Adl

/-! ## Every state a run reaches -/

/-- When an error leaves nothing behind: the ledger refuses none of the requests that are made
before a division by zero, or it refuses the first request, before anything has changed and
without keeping its key. -/
def FailsCleanly (service : ClearingService) : ClearingCall → Prop
  | .funds call => ¬(service.ledger.Refuses call ∧ service.ledger.Spends call)
  | .processTrade trade =>
      service.Allows (service.positionManager.tradeRequests trade) ∨ service.LeavesNoTrace trade
  | .processLiquidation userId symbol exitPrice now =>
      ∀ position, service.positionManager.getPosition userId symbol = some position →
        ¬service.ledger.Refuses (ClearingStage.seizure position userId symbol exitPrice now).call
  | .settleFunding order symbol fundingRate markPrice fundingPeriodId timestamp =>
      service.Allows
          (service.fundingOf order symbol fundingRate markPrice fundingPeriodId timestamp) ∨
        service.RefusedAtOnce
          (service.fundingOf order symbol fundingRate markPrice fundingPeriodId timestamp)
  | .executeAdl order bankruptUser symbol bankruptSide deficit markPrice timestamp =>
      (∃ position ∈ service.counterpartyPositions order bankruptUser symbol bankruptSide,
          Unranked position) ∨
        service.Allows
          (service.adlOf order bankruptUser symbol bankruptSide deficit markPrice timestamp)

/-- The positions that a funding settlement visits belong to different users. -/
theorem funding_users (tidy : service.positionManager.Tidy) (order : IterationOrder)
    (symbol : SymbolId) :
    (((order.visit 0 service.positionManager.allPositions).filter fun position =>
      position.symbol = symbol).map Position.userId).Nodup :=
  tidy.keyed.visited_distinct order _ fun _ kept => of_decide_eq_true kept

private theorem orderly_fundingOf (tidy : service.positionManager.Tidy) (order : IterationOrder)
    (symbol : SymbolId) (fundingRate markPrice : Decimal128) (fundingPeriodId : Nat)
    (timestamp : UnixMicros) :
    Orderly ((service.fundingOf order symbol fundingRate markPrice fundingPeriodId timestamp).map
      Stage.call) :=
  orderly_fundingStages (funding_users tidy order symbol)

private theorem funding_unchanged_iff_of_tidy (tidy : service.positionManager.Tidy)
    (order : IterationOrder) (symbol : SymbolId) (fundingRate markPrice : Decimal128)
    (fundingPeriodId : Nat) (timestamp : UnixMicros) :
    Unchanged service
        (service.settleFunding order symbol fundingRate markPrice fundingPeriodId timestamp).1 ↔
      service.fundingOf order symbol fundingRate markPrice fundingPeriodId timestamp = [] ∨
        service.RefusedAtOnce
          (service.fundingOf order symbol fundingRate markPrice fundingPeriodId timestamp) := by
  have distinct := funding_users tidy order symbol
  have reached := congrArg Prod.fst
    (settleFunding_eq service order symbol fundingRate markPrice fundingPeriodId timestamp)
  rw [withoutValue] at reached
  rw [reached]
  exact funding_unchanged_iff distinct fun position visited =>
    tidy.keyed.getPosition_of_visited visited

/-- A funding settlement that returns an error leaves everything as it was exactly under the
condition. -/
theorem funding_error_iff (tidy : service.positionManager.Tidy) (order : IterationOrder)
    (symbol : SymbolId) (fundingRate markPrice : Decimal128) (fundingPeriodId : Nat)
    (timestamp : UnixMicros) :
    (∀ error, (service.perform (.settleFunding order symbol fundingRate markPrice fundingPeriodId
          timestamp)).2 = .error (.failed error) →
        Unchanged service (service.perform (.settleFunding order symbol fundingRate markPrice
          fundingPeriodId timestamp)).1) ↔
      service.FailsCleanly
        (.settleFunding order symbol fundingRate markPrice fundingPeriodId timestamp) := by
  have reached := settleFunding_eq service order symbol fundingRate markPrice fundingPeriodId
    timestamp
  have unchanged := funding_unchanged_iff_of_tidy tidy order symbol fundingRate markPrice
    fundingPeriodId timestamp
  have moved := congrArg Prod.fst reached
  rw [withoutValue] at moved
  rw [moved] at unchanged
  rw [perform, reached]
  refine (unchanged_on_error_iff (orderly_fundingOf tidy order symbol fundingRate markPrice
    fundingPeriodId timestamp)).trans ?_
  rw [FailsCleanly]
  constructor
  · rintro (allowed | same)
    · exact Or.inl allowed
    · rcases unchanged.1 same with nothing | refused
      · left
        rw [nothing]
        exact fun before stage after same => absurd same (by simp)
      · exact Or.inr refused
  · rintro (allowed | refused)
    · exact Or.inl allowed
    · exact Or.inr (unchanged.2 (Or.inr refused))

private theorem liquidation_error_iff (service : ClearingService) (userId : UserId)
    (symbol : SymbolId) (exitPrice : Decimal128) (now : UnixMicros) :
    (∀ error, (service.perform (.processLiquidation userId symbol exitPrice now)).2 =
        .error (.failed error) →
      Unchanged service (service.perform (.processLiquidation userId symbol exitPrice now)).1) ↔
    service.FailsCleanly (.processLiquidation userId symbol exitPrice now) := by
  rw [FailsCleanly, perform]
  cases found : service.positionManager.getPosition userId symbol with
  | none =>
      rw [processLiquidation, PositionManager.forceClose, found]
      apply iff_of_true
      · exact fun _ _ => unchanged_nil
      · rintro position ⟨⟩
  | some position =>
      have single : service.runOn [ClearingStage.seizure position userId symbol exitPrice now] =
          _ := runStages_single _ _ fun _ _ => rfl
      have gone : ¬Unchanged service (ofStages (service.runOn
          [ClearingStage.seizure position userId symbol exitPrice now])).1 := by
        rw [single]
        rintro ⟨same, -⟩
        have erased : PositionManager.getPosition
            ⟨service.positionManager.positions.erase (userId, symbol)⟩ userId symbol = _ :=
          congrArg (fun manager => PositionManager.getPosition manager userId symbol) same
        rw [PositionManager.getPosition_erase, if_pos ⟨rfl, rfl⟩, found] at erased
        cases erased
      rw [processLiquidation_eq found, PositionManager.liquidationStages, found]
      simp only [Option.map_some, Option.toList_some, Option.some.injEq, forall_eq',
        ← Ledger.failed_iff_refuses]
      have told : (service.runOn
          [ClearingStage.seizure position userId symbol exitPrice now]).2 =
          (service.ledger.perform
            (ClearingStage.seizure position userId symbol exitPrice now).call).2.stop :=
        congrArg Prod.snd single
      simp only [ofStages_error_iff, told]
      cases (service.ledger.perform
          (ClearingStage.seizure position userId symbol exitPrice now).call).2 with
      | done => simp [OperationResult.stop]
      | failed error => simp [OperationResult.stop, gone]
      | panicked text => simp [OperationResult.stop]

/-- Where a call returns what it returns without the divisions. -/
theorem on_error_iff_of_eq {outcome : ClearingService × Except ClearingStop Unit} :
    (∀ reached error, some outcome = some (reached, .error (.failed error)) →
        Unchanged service reached) ↔
      ∀ error, outcome.2 = .error (.failed error) → Unchanged service outcome.1 := by
  constructor
  · exact fun leaves error failed => leaves _ error (congrArg some (Prod.ext rfl failed))
  · intro leaves reached error returned
    obtain rfl := Option.some.inj returned
    exact leaves error rfl

/-- A trade that returns an error leaves everything as it was exactly under the condition. -/
theorem trade_error_iff (tidy : service.positionManager.Tidy) (trade : TradeInfo) :
    (∀ reached error, service.perform? (.processTrade trade) =
        some (reached, .error (.failed error)) → Unchanged service reached) ↔
      service.FailsCleanly (.processTrade trade) := by
  have orderly := (orderly_tradeStages service.positionManager trade).sublist
    ((PositionManager.tradeRequests_sublist trade).map Stage.call)
  rw [FailsCleanly, allows_iff_finished orderly, ← trade_unchanged_iff tidy, perform?]
  cases ended : (service.runOn (service.positionManager.tradeRequests trade)).2 with
  | none =>
      apply iff_of_true
      · exact fun reached error returned => absurd returned (processTrade?_of_finished ended _ _)
      · exact Or.inl rfl
  | some stop =>
      obtain ⟨error, rfl⟩ := failed_of_stopped
        (fun stage member => orderly.settling _ (List.mem_map_of_mem member)) ended
      obtain ⟨returned, outcome⟩ := processTrade?_of_stopped ended
      rw [returned, on_error_iff_of_eq, outcome]
      simp

/-- At a mark price of zero nobody is deleveraged. -/
theorem adlReductions_zero (tidy : manager.Tidy) (symbol : SymbolId)
    (ranking : List (UserId × Decimal128)) (remainingDeficit : Decimal128) :
    manager.adlReductions symbol 0 ranking remainingDeficit = [] := by
  induction ranking with
  | nil => rfl
  | cons entry rest inductionHypothesis =>
      rw [PositionManager.adlReductions]
      split
      · rfl
      · split
        · exact inductionHypothesis
        · rename_i position found
          have quotient : remainingDeficit / 0 = (0 : Decimal128) :=
            congrArg Decimal128.mk (Int.tdiv_zero _)
          have nothing : (min (remainingDeficit / 0) position.size).isZero := by
            rw [quotient, min_eq_left (tidy.positive _ _ _ found).le]
            rfl
          rw [if_pos nothing]
          exact inductionHypothesis

/-- A deleveraging that returns an error leaves everything as it was exactly under the
condition. -/
theorem adl_error_iff (tidy : service.positionManager.Tidy) (order : IterationOrder)
    (bankruptUser : UserId) (symbol : SymbolId) (bankruptSide : PositionSide)
    (deficit markPrice : Decimal128) (timestamp : UnixMicros) :
    (∀ reached error, service.perform?
        (.executeAdl order bankruptUser symbol bankruptSide deficit markPrice timestamp) =
          some (reached, .error (.failed error)) → Unchanged service reached) ↔
      service.FailsCleanly
        (.executeAdl order bankruptUser symbol bankruptSide deficit markPrice timestamp) := by
  rw [FailsCleanly, perform?, executeAdl?]
  have ranking := computes_calcAdlRanking
    (service.counterpartyPositions order bankruptUser symbol bankruptSide) markPrice
  by_cases some : service.counterpartyPositions order bankruptUser symbol bankruptSide = []
  · have nothing : service.adlOf order bankruptUser symbol bankruptSide deficit markPrice
        timestamp = [] := by
      rw [adlOf, adlReductionsOf, some]
      rfl
    rw [nothing, some]
    refine iff_of_true ?_ (Or.inr ?_)
    · rintro reached error ⟨⟩
      exact unchanged_nil
    · exact fun before stage after same => absurd same (by simp)
  · simp only [List.isEmpty_iff, if_neg some]
    by_cases ranked : ∃ position ∈ service.counterpartyPositions order bankruptUser symbol
        bankruptSide, Unranked position
    · obtain ⟨position, member, unranked⟩ := ranked
      have panics : calcAdlRanking? _ markPrice = none := Option.not_isSome_iff_eq_none.1
        fun computed => ranking.domain_of_isSome computed position member unranked
      rw [panics]
      refine iff_of_true ?_ (Or.inl ⟨position, member, unranked⟩)
      rintro reached error ⟨⟩
    · have all := fun position member unranked => ranked ⟨position, member, unranked⟩
      rw [or_iff_right ranked, ranking.eq_some all, Option.bind_eq_bind, Option.bind_some]
      by_cases zero : markPrice = 0
      · subst zero
        have nothing : service.adlOf order bankruptUser symbol bankruptSide deficit 0 timestamp =
            [] := by
          rw [adlOf, adlReductionsOf, adlReductions_zero tidy]
          rfl
        rw [nothing]
        refine iff_of_true ?_ fun before stage after same => absurd same (by simp)
        intro reached error returned
        obtain ⟨⟨final, result⟩, ended, same⟩ := Option.map_eq_some_iff.1 returned
        rcases result with stop | reduced
        · exact absurd ended (executeAdlEach?_of_zero _ _ _ _ _ _)
        · cases same
      · rw [executeAdlEach?_eq zero, Option.map_some, on_error_iff_of_eq]
        have total := executeAdl_eq tidy order bankruptUser symbol bankruptSide deficit markPrice
          timestamp some
        rw [executeAdl, if_neg (by simpa using some)] at total
        have distinct := adlReductions_distinct tidy order bankruptUser symbol bankruptSide deficit
          markPrice
        rw [total]
        refine (unchanged_on_error_iff (orderly_adlStages distinct)).trans ?_
        rw [adlOf, adl_unchanged_iff distinct fun reduction member =>
          PositionManager.mem_adlReductions member]
        apply or_iff_left_of_imp
        intro nothing
        rw [nothing]
        exact fun before stage after same => absurd same (by simp [PositionManager.adlStages])

private theorem perform?_error_iff (calls : List ClearingCall) (call : ClearingCall) :
    (∀ reached error, (run step new calls).1.perform? call =
        some (reached, .error (.failed error)) → Unchanged (run step new calls).1 reached) ↔
    (run step new calls).1.FailsCleanly call := by
  have tidy := tidy_run calls
  generalize (run step new calls).1 = service at tidy
  cases call with
  | funds call =>
      rw [perform?, on_error_iff_of_eq, FailsCleanly, ← Ledger.failed_iff_refuses,
        ← not_not (a := service.ledger.Spends call), ← Ledger.unmoved_perform_iff, perform, settle]
      cases (service.ledger.perform call).2 with
      | done => simp
      | failed error => simp [Unchanged]
      | panicked text => simp
  | processTrade trade => exact trade_error_iff tidy trade
  | processLiquidation userId symbol exitPrice now =>
      rw [perform?, on_error_iff_of_eq]
      exact liquidation_error_iff service userId symbol exitPrice now
  | settleFunding order symbol fundingRate markPrice fundingPeriodId timestamp =>
      rw [perform?, on_error_iff_of_eq]
      exact funding_error_iff tidy order symbol fundingRate markPrice fundingPeriodId timestamp
  | executeAdl order bankruptUser symbol bankruptSide deficit markPrice timestamp =>
      exact adl_error_iff tidy order bankruptUser symbol bankruptSide deficit markPrice timestamp

/-- In every state a run reaches, an operation that returns leaves everything as it was where it
fails, exactly under the condition. -/
theorem errors_leave_nothing_iff (calls : List ClearingCall) (call : ClearingCall)
    {reached : ClearingService} {result : Except ClearingStop Unit}
    (returned : (run step new calls).1.checkedPerform call = some (reached, result)) :
    (∀ error, result = .error (.failed error) → Unchanged (run step new calls).1 reached) ↔
      (run step new calls).1.FailsCleanly call := by
  have ended := within_perform (run step new calls).1 call _ returned
  rw [← perform?_error_iff, ended]
  constructor
  · rintro kept _ error ⟨⟩
    exact kept error rfl
  · rintro kept error rfl
    exact kept reached error rfl

/-! ## Runs -/

/-- Deposit to the Funding wallet, transfer to Futures and freeze part of it. -/
def fundedUser (userId : UserId) (amount frozen : Int) : List ClearingCall :=
  [.funds (.deposit userId (.ofInt amount) ("dep-" ++ toString userId) 1),
    .funds (.transfer userId .funding .futures (.ofInt amount) ("xfer-" ++ toString userId) 2),
    .funds (.freezeForOrder userId .futures (.ofInt frozen) ("freeze-" ++ toString userId) 3)]

/-- Ten bought from user 2 by user 1 at 100, both at tenfold leverage. -/
def firstTrade : TradeInfo where
  tradeId := 1
  symbol := 1
  price := .ofInt 100
  qty := .ofInt 10
  buyerUserId := 1
  sellerUserId := 2
  buyerFee := 0
  sellerFee := 0
  buyerLeverage := .ofInt 10
  sellerLeverage := .ofInt 10
  buyerMarginMode := .cross
  sellerMarginMode := .cross
  timestamp := 100

/-- Two users with frozen funds, and a trade between them. -/
def tradedRun : List ClearingCall :=
  fundedUser 1 10000 500 ++ fundedUser 2 10000 500 ++ [.processTrade firstTrade]

/-- The liquidation of user 1 at 85. -/
def uncoveredLiquidation : ClearingCall := .processLiquidation 1 1 (.ofInt 85) 200

private theorem uncoveredLiquidation_returns :
    (run step new tradedRun).1.checkedPerform uncoveredLiquidation =
      some ((run step new tradedRun).1.perform uncoveredLiquidation) :=
  (within_perform _ _).eq_of_isSome (by decide +kernel)

private theorem uncoveredLiquidation_fails :
    ((run step new tradedRun).1.perform uncoveredLiquidation).2 =
      .error (.failed (.ledger .insuranceFundDepleted)) := by decide +kernel

private theorem uncoveredLiquidation_loses :
    ¬Unchanged (run step new tradedRun).1
      ((run step new tradedRun).1.perform uncoveredLiquidation).1 := by
  intro same
  have left := congrArg (fun manager => (PositionManager.getPosition manager 1 1).isSome) same.1
  exact absurd left (by decide +kernel)

theorem uncoveredLiquidation_not_clean :
    ¬(run step new tradedRun).1.FailsCleanly uncoveredLiquidation := by
  intro clean
  have kept := (errors_leave_nothing_iff tradedRun uncoveredLiquidation
    uncoveredLiquidation_returns).2 clean
  exact uncoveredLiquidation_loses (kept _ uncoveredLiquidation_fails)

/-- A liquidation that the empty insurance fund cannot cover fails, and the position is gone. -/
theorem liquidation_error_loses_position :
    ∃ reached, (run step new tradedRun).1.checkedPerform uncoveredLiquidation =
        some (reached, .error (.failed (.ledger .insuranceFundDepleted))) ∧
      ¬Unchanged (run step new tradedRun).1 reached := by
  refine ⟨_, ?_, uncoveredLiquidation_loses⟩
  rw [uncoveredLiquidation_returns, ← uncoveredLiquidation_fails]

/-- A trade with this id has been processed successfully in the run. -/
def TradeProcessed (calls : List ClearingCall) (tradeId : TradeId) : Prop :=
  ∃ before earlier after, calls = before ++ .processTrade earlier :: after ∧
    earlier.tradeId = tradeId ∧ ((run step new before).1.processTrade earlier).2 = .ok ()

/-- The period has been settled successfully for the symbol in the run. -/
def FundingSettled (calls : List ClearingCall) (symbol : SymbolId)
    (fundingRate markPrice : Decimal128) (fundingPeriodId : Nat) : Prop :=
  ∃ before order timestamp after,
    calls = before ++
      .settleFunding order symbol fundingRate markPrice fundingPeriodId timestamp :: after ∧
    ((run step new before).1.settleFunding order symbol fundingRate markPrice fundingPeriodId
      timestamp).2.isOk = true

/-- The first trade, and a funding period settled after it. -/
def settledRun : List ClearingCall :=
  tradedRun ++ [.settleFunding .stored 1 ⟨1000000000000000⟩ (.ofInt 100) 1 200]

private theorem firstTrade_processed : TradeProcessed settledRun 1 :=
  ⟨fundedUser 1 10000 500 ++ fundedUser 2 10000 500, firstTrade, _, rfl, rfl, by decide +kernel⟩

private theorem firstPeriod_settled :
    FundingSettled settledRun 1 ⟨1000000000000000⟩ (.ofInt 100) 1 :=
  ⟨tradedRun, .stored, 200, [], rfl, by decide +kernel⟩

/-- A redelivered trade doubles the positions, and a redelivered funding period counts its
payments again, while the ledger takes both for duplicates. -/
theorem redelivery_moves_positions :
    (TradeProcessed settledRun 1 ∧
      ¬Unchanged (run step new settledRun).1
        ((run step new settledRun).1.processTrade firstTrade).1) ∧
    FundingSettled settledRun 1 ⟨1000000000000000⟩ (.ofInt 100) 1 ∧
      ¬Unchanged (run step new settledRun).1
        ((run step new settledRun).1.settleFunding .stored 1 ⟨1000000000000000⟩ (.ofInt 100) 1
          201).1 := by
  refine ⟨⟨firstTrade_processed, fun same => ?_⟩, firstPeriod_settled, fun same => ?_⟩
  · have size := congrArg (fun manager =>
      (PositionManager.getPosition manager 1 1).map Position.size) same.1
    exact absurd size (by decide +kernel)
  · have funded := congrArg (fun manager =>
      (PositionManager.getPosition manager 1 1).map Position.accumulatedFunding) same.1
    exact absurd funded (by decide +kernel)

/-- In every state a run reaches, a redelivered trade leaves everything as it was exactly if
it leaves no trace at all, and so does a redelivered funding period. -/
theorem redelivery_leaves_nothing_iff (calls : List ClearingCall) :
    (∀ trade : TradeInfo, TradeProcessed calls trade.tradeId →
      (Unchanged (run step new calls).1 ((run step new calls).1.processTrade trade).1 ↔
        (run step new calls).1.LeavesNoTrace trade)) ∧
    ∀ (order : IterationOrder) (symbol : SymbolId) (fundingRate markPrice : Decimal128)
      (fundingPeriodId : Nat) (timestamp : UnixMicros),
      FundingSettled calls symbol fundingRate markPrice fundingPeriodId →
      (Unchanged (run step new calls).1
          ((run step new calls).1.settleFunding order symbol fundingRate markPrice
            fundingPeriodId timestamp).1 ↔
        (run step new calls).1.fundingOf order symbol fundingRate markPrice fundingPeriodId
            timestamp = [] ∨
          (run step new calls).1.RefusedAtOnce
            ((run step new calls).1.fundingOf order symbol fundingRate markPrice
              fundingPeriodId timestamp)) :=
  ⟨fun trade _ => trade_unchanged_iff (tidy_run calls) trade,
    fun order symbol fundingRate markPrice fundingPeriodId timestamp _ =>
      funding_unchanged_iff_of_tidy (tidy_run calls) order symbol fundingRate markPrice
        fundingPeriodId timestamp⟩

theorem redelivery_of_firstTrade :
    (Unchanged (run step new settledRun).1
        ((run step new settledRun).1.processTrade firstTrade).1 ↔
      (run step new settledRun).1.LeavesNoTrace firstTrade) ∧
    (Unchanged (run step new settledRun).1
        ((run step new settledRun).1.settleFunding .stored 1 ⟨1000000000000000⟩ (.ofInt 100) 1
          201).1 ↔
      (run step new settledRun).1.fundingOf .stored 1 ⟨1000000000000000⟩ (.ofInt 100) 1 201 = [] ∨
        (run step new settledRun).1.RefusedAtOnce
          ((run step new settledRun).1.fundingOf .stored 1 ⟨1000000000000000⟩ (.ofInt 100) 1
            201)) :=
  ⟨(redelivery_leaves_nothing_iff settledRun).1 firstTrade firstTrade_processed,
    (redelivery_leaves_nothing_iff settledRun).2 .stored 1 ⟨1000000000000000⟩ (.ofInt 100) 1 201
      firstPeriod_settled⟩

end ClearingService
end Exg
