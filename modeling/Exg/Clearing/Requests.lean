import Exg.Clearing.TidyPositions
import Exg.Ledger.RequestsInTurn
import Exg.Support.Separated

/-!
# The requests of an operation

The requests that an operation makes of the ledger have keys of their own, and those of a
funding settlement users of their own.  So whether the ledger turns one of them down can be
told from the ledger before the operation.
-/

namespace Exg

open Support
open Ledger (LedgerCall)

namespace ClearingService

variable {service : ClearingService} {call : LedgerCall} {ledger : Ledger}

/-! ## Asking the ledger -/

theorem askLedger_granted_iff (quiet : ¬call.IsLiquidation) :
    (askLedger ledger call).2 = none ↔ ¬ledger.Refuses call := by
  rw [← Ledger.failed_iff_refuses, askLedger]
  cases ended : (ledger.perform call).2 with
  | done => simp [OperationResult.stop]
  | failed error => simp [OperationResult.stop]
  | panicked text => exact absurd (Ledger.isLiquidation_of_panicked ended) quiet

theorem done_of_granted (granted : (askLedger ledger call).2 = none) :
    (ledger.perform call).2 = .done := by
  rw [askLedger] at granted
  cases ended : (ledger.perform call).2 with
  | done => rfl
  | failed error => simp [ended, OperationResult.stop] at granted
  | panicked text => simp [ended, OperationResult.stop] at granted

/-! ## In turn -/

/-- Requests of users that move something, each apart from those before it. -/
structure Orderly (calls : List LedgerCall) : Prop where
  settling : ∀ call ∈ calls, call.settles?.isSome
  active : ∀ call ∈ calls, ¬call.Idle
  apart : calls.Pairwise LedgerCall.Apart

theorem quiet_of_settles {userId : UserId} (settles : call.settles? = some userId) :
    ¬call.IsLiquidation := by
  cases call with
  | liquidate => cases settles
  | _ => exact id

/-- One of the requests is turned down in turn if and only if it is refused behind those before
it. -/
theorem stopsInTurn_iff {before after : Ledger} {earlier calls : List LedgerCall}
    (behind : Ledger.Behind before after earlier) (orderly : Orderly (earlier ++ calls)) :
    StopsInTurn askLedger calls after ↔
      ∃ granted call rest, calls = granted ++ call :: rest ∧
        before.RefusesBehind (earlier ++ granted) call := by
  induction calls generalizing after earlier with
  | nil => simp [StopsInTurn]
  | cons call rest inductionHypothesis =>
      have member : call ∈ earlier ++ call :: rest :=
        List.mem_append_right _ List.mem_cons_self
      obtain ⟨userId, settles⟩ := Option.isSome_iff_exists.1 (orderly.settling call member)
      have apart : ∀ other ∈ earlier, other.Apart call := fun other old =>
        (List.pairwise_append.1 orderly.apart).2.2 other old call List.mem_cons_self
      have refuses_iff := behind.refuses_iff settles apart
      have granted_iff : (askLedger after call).2 = none ↔ ¬after.Refuses call :=
        askLedger_granted_iff (quiet_of_settles settles)
      rw [StopsInTurn]
      by_cases refuses : before.RefusesBehind earlier call
      · apply iff_of_true
        · left
          rw [Option.isSome_iff_ne_none, ne_eq, granted_iff, not_not, refuses_iff]
          exact refuses
        · refine ⟨[], call, rest, rfl, ?_⟩
          rwa [List.append_nil]
      · have granted := granted_iff.2 (mt refuses_iff.1 refuses)
        have settling : ∀ other ∈ earlier, other.settles?.isSome := fun other old =>
          orderly.settling other (List.mem_append_left _ old)
        have next := behind.perform settling settles (orderly.active call member) apart
          (done_of_granted granted)
        have later := inductionHypothesis next (by rwa [List.append_assoc])
        rw [granted, Option.isSome_none, Bool.false_eq_true, false_or]
        refine later.trans ⟨?_, ?_⟩
        · rintro ⟨between, refused, others, rfl, behindThem⟩
          exact ⟨call :: between, refused, others, rfl, by rwa [List.append_cons]⟩
        · rintro ⟨between, refused, others, same, behindThem⟩
          cases between with
          | nil =>
              obtain ⟨rfl, -⟩ := List.cons.inj same
              rw [List.append_nil] at behindThem
              exact absurd behindThem refuses
          | cons first between =>
              obtain ⟨rfl, rfl⟩ := List.cons.inj same
              refine ⟨between, refused, others, rfl, ?_⟩
              rwa [List.append_assoc]

/-- The ledger refuses none of the requests behind those before it. -/
def Allows (service : ClearingService) (stages : List ClearingStage) : Prop :=
  ∀ before stage after, stages = before ++ stage :: after →
    ¬service.ledger.RefusesBehind (before.map Stage.call) stage.call

theorem allows_iff {stages : List ClearingStage} (orderly : Orderly (stages.map Stage.call)) :
    service.Allows stages ↔ ¬StopsInTurn askLedger (stages.map Stage.call) service.ledger := by
  rw [stopsInTurn_iff (Ledger.Behind.refl service.ledger) orderly, Allows]
  constructor
  · rintro allows ⟨granted, call, rest, same, refused⟩
    obtain ⟨before, others, rfl, rfl, tail⟩ := List.map_eq_append_iff.1 same
    obtain ⟨stage, after, rfl, rfl, -⟩ := List.map_eq_cons_iff.1 tail
    exact allows before stage after rfl refused
  · intro allowed before stage after same refused
    refine allowed ⟨before.map Stage.call, stage.call, after.map Stage.call, ?_, refused⟩
    rw [same, List.map_append, List.map_cons]

/-! ## The requests of the operations -/

private theorem orderly_of_users {calls : List LedgerCall} {users : List UserId}
    (owned : calls.map LedgerCall.settles? = users.map some) (distinct : users.Nodup)
    (active : ∀ call ∈ calls, ¬call.Idle)
    (keyed : calls.Pairwise fun first second => first.key? ≠ second.key?) : Orderly calls where
  settling call member := by
    have own : call.settles? ∈ users.map some := owned ▸ List.mem_map_of_mem member
    obtain ⟨user, -, same⟩ := List.mem_map.1 own
    rw [← same]
    rfl
  active := active
  apart := by
    have apart : (calls.map LedgerCall.settles?).Nodup := by
      rw [owned]
      exact distinct.map (Option.some_injective UserId)
    refine (keyed.and (List.pairwise_map.1 apart)).imp fun {first second} both =>
      ⟨both.1, ?_⟩
    cases second with
    | settleFunding => exact both.2
    | _ => trivial

section Sides

variable {manager : PositionManager} {side : TradeSide} {key : String}

theorem closeKey_ne_openKey (side : TradeSide) : side.closeKey ≠ side.openKey := by
  intro same
  simp [TradeSide.closeKey, TradeSide.openKey] at same

/-- The key of every request of a side is its closing or its opening key. -/
theorem key_of_sideStages {stage : ClearingStage} (member : stage ∈ manager.sideStages side)
    (keyed : stage.call.key? = some key) : key = side.closeKey ∨ key = side.openKey := by
  obtain rfl | ⟨-, rfl⟩ := PositionManager.mem_sideStages member
  · exact Or.inl (Option.some.inj keyed).symm
  · exact Or.inr (Option.some.inj keyed).symm

private theorem keyed_sideStages {stage : ClearingStage}
    (member : stage ∈ manager.sideStages side) :
    ∃ key, stage.call.key? = some key := by
  obtain rfl | ⟨-, rfl⟩ := PositionManager.mem_sideStages member
  · exact ⟨_, rfl⟩
  · exact ⟨_, rfl⟩

/-- The two sides of a trade share no key. -/
theorem buyerKey_ne_sellerKey (trade : TradeInfo) {buyerKey sellerKey : String}
    (buyer : buyerKey = trade.buyerSide.closeKey ∨ buyerKey = trade.buyerSide.openKey)
    (seller : sellerKey = trade.sellerSide.closeKey ∨ sellerKey = trade.sellerSide.openKey) :
    buyerKey ≠ sellerKey := by
  rcases buyer with rfl | rfl <;> rcases seller with rfl | rfl <;> intro same <;>
    simp [TradeSide.closeKey, TradeSide.openKey, TradeInfo.buyerSide, TradeInfo.sellerSide,
      String.append_assoc] at same

theorem Orderly.sublist {calls fewer : List LedgerCall} (orderly : Orderly calls)
    (sublist : fewer.Sublist calls) : Orderly fewer where
  settling call member := orderly.settling call (sublist.subset member)
  active call member := orderly.active call (sublist.subset member)
  apart := orderly.apart.sublist sublist

private theorem settles_sideStages {stage : ClearingStage}
    (member : stage ∈ manager.sideStages side) :
    stage.call.settles? = some side.userId ∧ ¬stage.call.Idle := by
  obtain rfl | ⟨-, rfl⟩ := PositionManager.mem_sideStages member
  · exact ⟨rfl, id⟩
  · exact ⟨rfl, id⟩

/-- Only a funding settlement needs a user of its own. -/
theorem apart_of_sideStages {earlier : LedgerCall} {stage : ClearingStage}
    (member : stage ∈ manager.sideStages side) (keys : earlier.key? ≠ stage.call.key?) :
    earlier.Apart stage.call := by
  obtain rfl | ⟨-, rfl⟩ := PositionManager.mem_sideStages member
  · exact ⟨keys, trivial⟩
  · exact ⟨keys, trivial⟩

private theorem pairwise_sideStages (manager : PositionManager) (side : TradeSide) :
    ((manager.sideStages side).map Stage.call).Pairwise LedgerCall.Apart := by
  rw [PositionManager.sideStages, PositionManager.closeStages, PositionManager.openStages]
  split
  · split
    · have keys : (some side.closeKey : Option String) ≠ some side.openKey :=
        fun same => closeKey_ne_openKey side (Option.some.inj same)
      exact List.pairwise_pair.2 ⟨keys, trivial⟩
    · exact List.pairwise_singleton _ _
  · split
    · exact List.pairwise_singleton _ _
    · exact List.Pairwise.nil

theorem orderly_tradeStages (manager : PositionManager) (trade : TradeInfo) :
    Orderly ((manager.tradeStages trade).map Stage.call) := by
  have settles : ∀ stage ∈ manager.tradeStages trade,
      stage.call.settles?.isSome ∧ ¬stage.call.Idle := by
    intro stage member
    rcases List.mem_append.1 member with buyer | seller
    · obtain ⟨settles, active⟩ := settles_sideStages buyer
      exact ⟨by rw [settles]; rfl, active⟩
    · obtain ⟨settles, active⟩ := settles_sideStages seller
      exact ⟨by rw [settles]; rfl, active⟩
  refine ⟨List.forall_mem_map.2 fun stage member => (settles stage member).1,
    List.forall_mem_map.2 fun stage member => (settles stage member).2, ?_⟩
  rw [PositionManager.tradeStages, List.map_append, List.pairwise_append]
  refine ⟨pairwise_sideStages _ _, pairwise_sideStages _ _, ?_⟩
  rintro _ earlier _ later
  obtain ⟨first, buyer, rfl⟩ := List.mem_map.1 earlier
  obtain ⟨second, seller, rfl⟩ := List.mem_map.1 later
  apply apart_of_sideStages seller
  intro same
  obtain ⟨key, keyed⟩ := keyed_sideStages buyer
  exact buyerKey_ne_sellerKey trade (key_of_sideStages buyer keyed)
    (key_of_sideStages seller (same.symm.trans keyed)) rfl

end Sides

/-! ### Funding and deleveraging -/

theorem orderly_fundingStages {fundingRate markPrice : Decimal128} {fundingPeriodId : Nat}
    {timestamp : UnixMicros} {positions : List Position}
    (distinct : (positions.map Position.userId).Nodup) :
    Orderly ((fundingStages fundingRate markPrice fundingPeriodId timestamp positions).map
      Stage.call) := by
  have users := distinct.sublist (List.filter_sublist (l := positions)
    (p := fun position =>
      !(calcFundingFee position.size markPrice fundingRate position.side).isZero)
    |>.map Position.userId)
  rw [fundingStages, List.map_map]
  refine orderly_of_users ?_ users ?_ ?_
  · rw [List.map_map, List.map_map]
    rfl
  · rw [List.forall_mem_map]
    intro position member
    have pays := (List.mem_filter.1 member).2
    intro idle
    have zero : calcFundingFee position.size markPrice fundingRate position.side = 0 := idle
    rw [Decimal128.isZero_iff.2 zero] at pays
    cases pays
  · rw [List.pairwise_map]
    refine (List.pairwise_map.1 users).imp fun apart same => apart ?_
    exact (underscored_inj (Option.some.inj same)).2.1

theorem adlKey_injective (bankruptUser : UserId) (symbol : SymbolId) (timestamp : UnixMicros)
    {first second : UserId}
    (same : adlKey bankruptUser first symbol timestamp =
      adlKey bankruptUser second symbol timestamp) : first = second := by
  simp only [adlKey, String.append_assoc, String.append_right_inj] at same
  simp only [← String.append_assoc, String.append_left_inj] at same
  exact Nat.repr_inj.1 same

theorem orderly_adlStages {manager : PositionManager} {bankruptUser : UserId} {symbol : SymbolId}
    {markPrice : Decimal128} {timestamp : UnixMicros} {reductions : List (UserId × Decimal128)}
    (distinct : (reductions.map Prod.fst).Nodup) :
    Orderly ((manager.adlStages bankruptUser symbol markPrice timestamp reductions).map
      Stage.call) := by
  rw [PositionManager.adlStages, List.map_map]
  refine orderly_of_users ?_ distinct ?_ ?_
  · rw [List.map_map, List.map_map]
    rfl
  · rw [List.forall_mem_map]
    exact fun reduction member => id
  · rw [List.pairwise_map]
    refine (List.pairwise_map.1 distinct).imp fun apart same => apart ?_
    exact adlKey_injective bankruptUser symbol timestamp (Option.some.inj same)

end ClearingService
end Exg
