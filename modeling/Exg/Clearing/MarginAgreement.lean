import Exg.Clearing.Margin
import Exg.Ledger.Solvency
import Std.Data.String.ToNat

/-!
# Positions and ledger agree on margin

The margin of a user's Futures wallet is to be the sum of the margins of the user's
positions.  The two stay equal over every run in which no request meets a key that the
ledger has seen, every position that is closed whole releases all of its margin, and
funding that the available balance does not cover is drawn from users whose margin is all
on the position that pays.
-/

namespace Exg

open Support
open Ledger (LedgerCall Effect Accepts)

namespace ClearingService

variable {manager : PositionManager} {ledger : Ledger} {key : String}

/-! ## Trades -/

/-- None of the requests has a key that the ledger has seen. -/
def KeysUnused (ledger : Ledger) (stages : List ClearingStage) : Prop :=
  ∀ stage ∈ stages, ∀ key, stage.call.key? = some key → key ∉ ledger.idempotencyKeys

instance (ledger : Ledger) (stages : List ClearingStage) : Decidable (KeysUnused ledger stages) :=
  inferInstanceAs (Decidable (∀ stage ∈ stages, ∀ key ∈ stage.call.key?,
    key ∉ ledger.idempotencyKeys))

/-- A granted request with a key that no later one has leaves the later keys unused. -/
theorem KeysUnused.granted {stage : ClearingStage} {rest : List ClearingStage}
    (unused : KeysUnused ledger (stage :: rest)) (keyed : stage.call.key? = some key)
    (active : ¬stage.call.Idle) (apart : ∀ later ∈ rest, later.call.key? ≠ some key)
    (granted : (askLedger ledger stage.call).2 = none) :
    KeysUnused (askLedger ledger stage.call).1 rest := by
  intro later member other otherKeyed used
  have fresh := unused stage List.mem_cons_self key keyed
  rw [(granted_effect granted keyed active fresh).2] at used
  rcases List.mem_cons.1 used with rfl | old
  · exact apart later member otherKeyed
  · exact unused later (List.mem_cons_of_mem stage member) other otherKeyed old

/-- A reduction that takes all of a position releases all of its margin. -/
def ReleasesWhole (manager : PositionManager) (userId : UserId) (symbol : SymbolId)
    (quantity : Decimal128) : Prop :=
  ∀ position, manager.getPosition userId symbol = some position → quantity = position.size →
    position.margin * quantity / position.size = position.margin

instance (manager : PositionManager) (userId : UserId) (symbol : SymbolId)
    (quantity : Decimal128) : Decidable (ReleasesWhole manager userId symbol quantity) :=
  inferInstanceAs (Decidable (∀ position ∈ manager.getPosition userId symbol,
    quantity = position.size → position.margin * quantity / position.size = position.margin))

section Sides

variable {side : TradeSide}

/-- The opening part of a side. -/
theorem Agrees.openStages {closed : PositionManager} (agrees : Agrees closed ledger)
    (unused : KeysUnused ledger (manager.openStages side))
    (finished : (runStages askLedger (manager.openStages side) closed ledger).2 = none) :
    Agrees (runStages askLedger (manager.openStages side) closed ledger).1.1
        (runStages askLedger (manager.openStages side) closed ledger).1.2 ∧
      ∀ key ∈ (runStages askLedger (manager.openStages side) closed ledger).1.2.idempotencyKeys,
        key ∈ ledger.idempotencyKeys ∨ key = side.openKey := by
  rw [PositionManager.openStages] at unused finished ⊢
  by_cases opens : (manager.split side).2.isPositive
  · simp only [if_pos opens] at unused finished ⊢
    have fresh := unused _ List.mem_cons_self side.openKey rfl
    cases asked : (askLedger ledger
        (ClearingStage.opening side (manager.split side).1 (manager.split side).2).call).2 with
    | none =>
        rw [runStages_granted asked]
        refine ⟨agrees.opening fresh asked, fun key member => ?_⟩
        have keys := (granted_effect asked rfl id fresh).2
        exact (List.mem_cons.1 (keys ▸ member)).symm
    | some stop =>
        rw [runStages_stopped asked] at finished
        cases finished
  · simp only [if_neg opens]
    exact ⟨agrees, fun key member => Or.inl member⟩

/-- A side that the ledger does not turn down. -/
theorem Agrees.sideStages (agrees : Agrees manager ledger) (tidy : manager.Tidy)
    (unused : KeysUnused ledger (manager.sideStages side))
    (whole : ReleasesWhole manager side.userId side.symbol (manager.split side).1)
    (finished : (runStages askLedger (manager.sideStages side) manager ledger).2 = none) :
    Agrees (runStages askLedger (manager.sideStages side) manager ledger).1.1
        (runStages askLedger (manager.sideStages side) manager ledger).1.2 ∧
      ∀ key ∈ (runStages askLedger (manager.sideStages side) manager ledger).1.2.idempotencyKeys,
        key ∈ ledger.idempotencyKeys ∨ key = side.closeKey ∨ key = side.openKey := by
  have later : KeysUnused ledger (manager.openStages side) :=
    fun stage member => unused stage (List.mem_append_right _ member)
  rw [PositionManager.sideStages, PositionManager.closeStages] at unused finished ⊢
  by_cases closes : (manager.split side).1.isPositive
  · simp only [if_pos closes, List.singleton_append] at unused finished ⊢
    obtain ⟨position, found, -, quantities⟩ :=
      PositionManager.split_closes (Decimal128.isPositive_iff.1 closes)
    have within : (manager.split side).1 ≤ position.size := by
      rw [quantities]
      exact min_le_right _ _
    have fresh := unused _ List.mem_cons_self side.closeKey rfl
    cases asked : (askLedger ledger (ClearingStage.reduction manager side.userId side.symbol
        (manager.split side).1 side.price (side.closeFee (manager.split side).1) side.closeKey
        side.timestamp).call).2 with
    | none =>
        have reduced := agrees.reduction tidy found within (whole position found) fresh asked
        have keys := (granted_effect asked rfl id fresh).2
        rw [runStages_granted asked] at finished ⊢
        have apart : ∀ later ∈ manager.openStages side, later.call.key? ≠ some side.closeKey := by
          intro later member keyed
          rw [PositionManager.openStages] at member
          split at member
          · obtain rfl := List.mem_singleton.1 member
            exact closeKey_ne_openKey side (Option.some.inj keyed).symm
          · cases member
        have stillUnused := unused.granted rfl id apart asked
        obtain ⟨opened, openedKeys⟩ := reduced.openStages stillUnused finished
        refine ⟨opened, fun key member => ?_⟩
        rcases openedKeys key member with old | new
        · rw [keys] at old
          rcases List.mem_cons.1 old with own | before
          · exact Or.inr (Or.inl own)
          · exact Or.inl before
        · exact Or.inr (Or.inr new)
    | some stop =>
        rw [runStages_stopped asked] at finished
        cases finished
  · simp only [if_neg closes, List.nil_append] at unused finished ⊢
    obtain ⟨opened, openedKeys⟩ := agrees.openStages later finished
    exact ⟨opened, fun key member => (openedKeys key member).imp_right Or.inr⟩

end Sides

/-- A trade that the ledger does not turn down. -/
theorem Agrees.tradeStages {trade : TradeInfo} (agrees : Agrees manager ledger)
    (tidy : manager.Tidy) (unused : KeysUnused ledger (manager.tradeStages trade))
    (bought : ReleasesWhole manager trade.buyerUserId trade.symbol
      (manager.split trade.buyerSide).1)
    (sold : ReleasesWhole (manager.takeSide trade.buyerSide) trade.sellerUserId trade.symbol
      ((manager.takeSide trade.buyerSide).split trade.sellerSide).1)
    (finished : (runStages askLedger (manager.tradeStages trade) manager ledger).2 = none) :
    Agrees (runStages askLedger (manager.tradeStages trade) manager ledger).1.1
      (runStages askLedger (manager.tradeStages trade) manager ledger).1.2 := by
  have buyerUnused : KeysUnused ledger (manager.sideStages trade.buyerSide) :=
    fun stage member => unused stage (List.mem_append_left _ member)
  rw [PositionManager.tradeStages] at finished ⊢
  cases granted : (runStages askLedger (manager.sideStages trade.buyerSide) manager ledger).2 with
  | none =>
      obtain ⟨after, keys⟩ := agrees.sideStages tidy buyerUnused bought granted
      rw [runStages_append_of_finished granted] at finished ⊢
      rw [takeSide_of_finished granted] at after finished ⊢
      have sellerUnused : KeysUnused (runStages askLedger (manager.sideStages trade.buyerSide)
          manager ledger).1.2 ((manager.takeSide trade.buyerSide).sideStages
            trade.sellerSide) := by
        intro stage member key keyed used
        rcases keys key used with old | own
        · exact unused stage (List.mem_append_right _ member) key keyed old
        · exact buyerKey_ne_sellerKey trade own (key_of_sideStages member keyed) rfl
      exact (after.sideStages (tidy.takeSide trade.buyerSide) sellerUnused sold finished).1
  | some stop =>
      rw [runStages_append_of_stopped granted, granted] at finished
      cases finished

/-! ## Funding -/

section Funding

variable {fundingRate markPrice : Decimal128} {fundingPeriodId : Nat} {timestamp : UnixMicros}

/-- A new payment that available does not cover comes from a user whose margin is all on the
position that pays. -/
def DrawsAlone (manager : PositionManager) (ledger : Ledger) (fundingRate markPrice : Decimal128)
    (fundingPeriodId : Nat) (position : Position) : Prop :=
  fundingKey fundingPeriodId position.userId position.symbol ∉ ledger.idempotencyKeys →
    0 < calcFundingFee position.size markPrice fundingRate position.side →
      ledger.holding (.user position.userId .futures .available) <
          calcFundingFee position.size markPrice fundingRate position.side →
        manager.userMargin position.userId = position.margin

instance (manager : PositionManager) (ledger : Ledger) (fundingRate markPrice : Decimal128)
    (fundingPeriodId : Nat) (position : Position) :
    Decidable (DrawsAlone manager ledger fundingRate markPrice fundingPeriodId position) :=
  inferInstanceAs (Decidable (_ → _ → _ → _))

private theorem netAt_fundingPostings (ledger : Ledger) (userId : UserId) (payment : Decimal128)
    (other : UserId) (field : BalanceField) (apart : userId ≠ other) :
    netAt (ledger.fundingPostings userId payment) (.user other .futures field) = 0 := by
  rw [Ledger.fundingPostings]
  split
  · split <;> simp [apart]
  · simp [apart]

/-- A wallet that has paid funding exists. -/
theorem getBalance_payFunding (ledger : Ledger) (userId : UserId)
    (fromAvailable fromMargin payment : Decimal128) (key : String) (timestamp : UnixMicros) :
    ((ledger.payFunding userId fromAvailable fromMargin payment key timestamp).getBalance userId
      .futures).isSome := by
  rw [Ledger.payFunding]
  split <;> split <;>
    simp [Ledger.getBalance, Ledger.record, Ledger.addSystemBalance, Ledger.addBalance,
      Ledger.updateWallet]

private theorem getBalance_settleFunding {userId : UserId} {payment : Decimal128}
    (positive : 0 < payment) (unused : key ∉ ledger.idempotencyKeys)
    (done : (ledger.settleFunding userId payment key timestamp).2 = .done) :
    ((ledger.settleFunding userId payment key timestamp).1.getBalance userId .futures).isSome := by
  have nonzero : ¬payment.isZero := by
    rw [Decimal128.isZero_iff]
    exact positive.ne'
  simp only [Ledger.settleFunding, if_neg nonzero, Ledger.once, if_neg unused,
    Decimal128.isPositive_iff.2 positive, if_true] at done ⊢
  cases found : (ledger.addKey key).accounts[userId]? with
  | none =>
      rw [found] at done
      cases done
  | some account =>
      simp only [found] at done ⊢
      split at done
      · cases done
      · rename_i enough
        rw [if_neg enough]
        exact getBalance_payFunding _ _ _ _ _ _ _

/-- What a granted funding payment does to the margin of its user's wallet. -/
theorem funding_margin {userId : UserId} {payment : Decimal128}
    (active : payment ≠ 0)
    (granted : (askLedger ledger (.settleFunding userId payment key timestamp)).2 = none) :
    (askLedger ledger (.settleFunding userId payment key timestamp)).1.holding
        (.user userId .futures .margin) = ledger.holding (.user userId .futures .margin) ∨
      (key ∉ ledger.idempotencyKeys ∧ 0 < payment ∧
        ledger.holding (.user userId .futures .available) < payment ∧
        0 ≤ (askLedger ledger (.settleFunding userId payment key timestamp)).1.holding
          (.user userId .futures .margin) ∧
        (askLedger ledger (.settleFunding userId payment key timestamp)).1.holding
          (.user userId .futures .margin) < ledger.holding (.user userId .futures .margin) ∧
        ((askLedger ledger (.settleFunding userId payment key timestamp)).1.getBalance userId
          .futures).isSome) := by
  rcases granted_cases granted rfl active with ⟨-, same⟩ | ⟨accepts, effect⟩
  · exact Or.inl (by rw [same])
  · have holding := effect.holding (.user userId .futures .margin)
    rw [Ledger.holding_addKey] at holding
    have wallet := fun positive => getBalance_settleFunding positive accepts.unused
      (done_of_granted granted)
    have covered := accepts.covered
    simp only [Ledger.Covered] at covered
    simp only [Ledger.postings, Ledger.fundingPostings] at holding
    by_cases positive : 0 < payment
    · simp only [Decimal128.isPositive_iff.2 positive, if_true] at holding
      by_cases draws : 0 < ledger.fromMargin userId payment
      · simp only [Decimal128.isPositive_iff.2 draws, if_true] at holding
        right
        have short : ledger.holding (.user userId .futures .available) < payment := by
          by_contra enough
          rw [Ledger.fromMargin, Ledger.fromAvailable, min_eq_left (not_lt.1 enough),
            sub_self] at draws
          exact lt_irrefl _ draws
        have taken : (askLedger ledger (.settleFunding userId payment key timestamp)).1.holding
            (.user userId .futures .margin) =
              ledger.holding (.user userId .futures .margin) -
                ledger.fromMargin userId payment := by
          rw [holding]
          simp [sub_eq_add_neg]
        refine ⟨accepts.unused, positive, short, ?_, ?_, wallet positive⟩
        · rw [taken]
          exact sub_nonneg.2 (covered positive draws)
        · rw [taken]
          exact sub_lt_self _ draws
      · left
        rw [holding]
        simp [draws]
    · left
      rw [holding]
      simp [positive]

/-- Funding leaves the other users' wallets alone. -/
theorem funding_elsewhere {userId other : UserId} {payment : Decimal128} (active : payment ≠ 0)
    (granted : (askLedger ledger (.settleFunding userId payment key timestamp)).2 = none)
    (apart : userId ≠ other) (field : BalanceField) :
    (askLedger ledger (.settleFunding userId payment key timestamp)).1.holding
      (.user other .futures field) = ledger.holding (.user other .futures field) := by
  rcases granted_cases granted rfl active with ⟨-, same⟩ | ⟨-, effect⟩
  · rw [same]
  · rw [effect.holding, Ledger.holding_addKey]
    simp only [Ledger.postings]
    rw [netAt_fundingPostings _ _ _ _ _ apart, add_zero]

/-- The margin that a position is left with by a funding payment. -/
theorem recordFunding_eq {userId : UserId} {symbol : SymbolId} {position : Position}
    (found : manager.getPosition userId symbol = some position) (payment : Decimal128)
    (ledger : Ledger) :
    ∃ margin, recordFunding userId symbol payment ledger manager =
        ⟨manager.positions.insert (userId, symbol)
          { position with
            accumulatedFunding := position.accumulatedFunding + payment
            margin := margin }⟩ ∧
      margin = if 0 < payment ∧ (ledger.getBalance userId .futures).isSome ∧
          ledger.holding (.user userId .futures .margin) < position.margin then
        ledger.holding (.user userId .futures .margin)
      else position.margin := by
  rw [recordFunding, found]
  refine ⟨_, rfl, ?_⟩
  cases wallet : ledger.getBalance userId .futures with
  | none => simp
  | some balance =>
      have holding : ledger.holding (.user userId .futures .margin) = balance.margin := by
        rw [Ledger.holding, wallet]
        rfl
      simp [holding]

theorem Agrees.funding {position : Position} (agrees : Agrees manager ledger)
    (found : manager.getPosition position.userId position.symbol = some position)
    (nonzero : calcFundingFee position.size markPrice fundingRate position.side ≠ 0)
    (alone : DrawsAlone manager ledger fundingRate markPrice fundingPeriodId position)
    (granted : (askLedger ledger (ClearingStage.funding fundingRate markPrice fundingPeriodId
      timestamp position).call).2 = none) :
    Agrees (recordFunding position.userId position.symbol
        (calcFundingFee position.size markPrice fundingRate position.side)
        (askLedger ledger (ClearingStage.funding fundingRate markPrice fundingPeriodId timestamp
          position).call).1 manager)
      (askLedger ledger (ClearingStage.funding fundingRate markPrice fundingPeriodId timestamp
        position).call).1 := by
  have held : manager.marginAt position.userId position.symbol = position.margin := by
    simp [PositionManager.marginAt, found]
  have own := agrees.nonneg.le_userMargin found
  have margin := funding_margin nonzero granted
  simp only [ClearingStage.funding] at margin granted ⊢
  obtain ⟨left, shape, value⟩ := recordFunding_eq found
    (calcFundingFee position.size markPrice fundingRate position.side)
    (askLedger ledger (.settleFunding position.userId
      (calcFundingFee position.size markPrice fundingRate position.side)
      (fundingKey fundingPeriodId position.userId position.symbol) timestamp)).1
  rw [shape]
  rcases margin with same | ⟨unused, positive, short, nonneg, less, wallet⟩
  · -- Nothing is drawn, so the wallet still covers the position.
    have kept : left = position.margin := by
      rw [value, same, ← agrees.margins]
      exact if_neg fun drawn => not_lt.2 own drawn.2.2
    rw [kept]
    have margin : 0 ≤ position.margin := agrees.nonneg _ _ _ found
    refine ⟨agrees.nonneg.insert margin, fun other => ?_⟩
    rw [PositionManager.userMargin_insert, held, sub_self, ite_self, add_zero, agrees.margins]
    by_cases apart : position.userId = other
    · rw [← apart, same]
    · exact (funding_elsewhere nonzero granted apart .margin).symm
  · -- The user's margin was all on this position, and what the wallet is left with is its margin.
    have all := alone unused positive short
    have drawn : left = (askLedger ledger (.settleFunding position.userId
        (calcFundingFee position.size markPrice fundingRate position.side)
        (fundingKey fundingPeriodId position.userId position.symbol) timestamp)).1.holding
          (.user position.userId .futures .margin) := by
      rw [value]
      refine if_pos ⟨positive, wallet, ?_⟩
      rw [← all, agrees.margins]
      exact less
    refine ⟨agrees.nonneg.insert (drawn ▸ nonneg), fun other => ?_⟩
    rw [PositionManager.userMargin_insert, held]
    by_cases apart : position.userId = other
    · rw [if_pos apart, ← apart, all, add_sub_cancel]
      exact drawn
    · rw [if_neg apart, add_zero, funding_elsewhere nonzero granted apart, agrees.margins]

private theorem userMargin_recordFunding_of_ne {userId other : UserId} (apart : userId ≠ other)
    (symbol : SymbolId) (payment : Decimal128) (ledger : Ledger) (manager : PositionManager) :
    (recordFunding userId symbol payment ledger manager).userMargin other =
      manager.userMargin other := by
  cases found : manager.getPosition userId symbol with
  | none => rw [recordFunding, found]
  | some position =>
      obtain ⟨left, shape, -⟩ := recordFunding_eq found payment ledger
      rw [shape, PositionManager.userMargin_insert, if_neg apart, add_zero]

/-- A payment of one user does not touch what another user's payment is drawn from. -/
theorem DrawsAlone.afterPayment {position other : Position}
    (alone : DrawsAlone manager ledger fundingRate markPrice fundingPeriodId other)
    (apart : position.userId ≠ other.userId) {payment : Decimal128} (active : payment ≠ 0)
    (granted : (askLedger ledger (.settleFunding position.userId payment key timestamp)).2 = none)
    (next : Ledger) :
    DrawsAlone (recordFunding position.userId position.symbol payment next manager)
      (askLedger ledger (.settleFunding position.userId payment key timestamp)).1 fundingRate
      markPrice fundingPeriodId other := by
  intro unused positive short
  rw [funding_elsewhere active granted apart] at short
  rw [userMargin_recordFunding_of_ne apart]
  apply alone _ positive short
  exact fun used => unused (Ledger.mem_keys_perform used _)

/-- A funding settlement that the ledger does not turn down. -/
theorem Agrees.fundingStages {positions : List Position} (agrees : Agrees manager ledger)
    (distinct : (positions.map Position.userId).Nodup)
    (stored : ∀ position ∈ positions,
      manager.getPosition position.userId position.symbol = some position)
    (alone : ∀ position ∈ positions,
      DrawsAlone manager ledger fundingRate markPrice fundingPeriodId position)
    (finished : (runStages askLedger
      (fundingStages fundingRate markPrice fundingPeriodId timestamp positions) manager
        ledger).2 = none) :
    Agrees
      (runStages askLedger
        (fundingStages fundingRate markPrice fundingPeriodId timestamp positions) manager
          ledger).1.1
      (runStages askLedger
        (fundingStages fundingRate markPrice fundingPeriodId timestamp positions) manager
          ledger).1.2 := by
  induction positions generalizing manager ledger with
  | nil => exact agrees
  | cons position rest inductionHypothesis =>
      obtain ⟨fresh, later⟩ := List.nodup_cons.1 distinct
      have apart : ∀ other ∈ rest, position.userId ≠ other.userId :=
        fun other member same => fresh (List.mem_map.2 ⟨other, member, same.symm⟩)
      rw [Exg.fundingStages, List.filter_cons] at finished ⊢
      by_cases nothing : (calcFundingFee position.size markPrice fundingRate position.side).isZero
      · simp only [nothing, Bool.not_true, Bool.false_eq_true, if_false] at finished ⊢
        apply inductionHypothesis agrees later _ _ finished
        · exact fun other member => stored other (List.mem_cons_of_mem position member)
        · exact fun other member => alone other (List.mem_cons_of_mem position member)
      · simp only [nothing, Bool.not_false, if_true, List.map_cons] at finished ⊢
        have nonzero : calcFundingFee position.size markPrice fundingRate position.side ≠ 0 :=
          fun zero => nothing (Decimal128.isZero_iff.2 zero)
        have found := stored position List.mem_cons_self
        cases asked : (askLedger ledger (ClearingStage.funding fundingRate markPrice
            fundingPeriodId timestamp position).call).2 with
        | none =>
            rw [runStages_granted asked] at finished ⊢
            have paid := agrees.funding found nonzero (alone position List.mem_cons_self) asked
            apply inductionHypothesis paid later _ _ finished
            · intro other member
              rw [← stored other (List.mem_cons_of_mem position member)]
              apply PositionManager.getPosition_recordFunding_of_ne
              exact fun same => apart other member same.1
            · intro other member
              exact (alone other (List.mem_cons_of_mem position member)).afterPayment
                (apart other member) nonzero asked _
        | some stop =>
            rw [runStages_stopped asked] at finished
            cases finished

end Funding

/-! ## Deleveraging -/

/-- A deleveraging that the ledger does not turn down. -/
theorem Agrees.adlStages {planned : PositionManager} {bankruptUser : UserId} {symbol : SymbolId}
    {markPrice : Decimal128} {timestamp : UnixMicros} {reductions : List (UserId × Decimal128)}
    (agrees : Agrees manager ledger) (tidy : manager.Tidy)
    (distinct : (reductions.map Prod.fst).Nodup)
    (same : ∀ reduction ∈ reductions,
      manager.getPosition reduction.1 symbol = planned.getPosition reduction.1 symbol)
    (takes : ∀ reduction ∈ reductions, ∃ position,
      planned.getPosition reduction.1 symbol = some position ∧ reduction.2 ≤ position.size)
    (whole : ∀ reduction ∈ reductions, ReleasesWhole planned reduction.1 symbol reduction.2)
    (unused : KeysUnused ledger
      (planned.adlStages bankruptUser symbol markPrice timestamp reductions))
    (finished : (runStages askLedger (planned.adlStages bankruptUser symbol markPrice timestamp
      reductions) manager ledger).2 = none) :
    Agrees
      (runStages askLedger (planned.adlStages bankruptUser symbol markPrice timestamp reductions)
        manager ledger).1.1
      (runStages askLedger (planned.adlStages bankruptUser symbol markPrice timestamp reductions)
        manager ledger).1.2 := by
  induction reductions generalizing manager ledger with
  | nil => exact agrees
  | cons reduction rest inductionHypothesis =>
      obtain ⟨fresh, later⟩ := List.nodup_cons.1 distinct
      have here := same reduction List.mem_cons_self
      obtain ⟨position, found, within⟩ := takes reduction List.mem_cons_self
      rw [PositionManager.adlStages, List.map_cons, ClearingStage.reduction_congr here.symm]
        at finished unused ⊢
      cases asked : (askLedger ledger (ClearingStage.reduction manager reduction.1 symbol
          reduction.2 markPrice 0 (adlKey bankruptUser reduction.1 symbol timestamp)
            timestamp).call).2 with
      | none =>
          rw [runStages_granted asked] at finished ⊢
          have reduced := agrees.reduction tidy (here.trans found) within
            (whole reduction List.mem_cons_self position found)
            (unused _ List.mem_cons_self _ rfl) asked
          apply inductionHypothesis reduced (tidy.afterReduction _ _) later _ _ _ _ finished
          · intro other member
            rw [← same other (List.mem_cons_of_mem reduction member)]
            apply PositionManager.getPosition_afterReduction_of_ne
            rintro ⟨users, -⟩
            exact fresh (List.mem_map.2 ⟨other, member, users.symm⟩)
          · exact fun other member => takes other (List.mem_cons_of_mem reduction member)
          · exact fun other member => whole other (List.mem_cons_of_mem reduction member)
          · apply unused.granted rfl id _ asked
            intro stage member keyed
            obtain ⟨other, listed, rfl⟩ := List.mem_map.1 member
            have users := adlKey_injective bankruptUser symbol timestamp (Option.some.inj keyed)
            exact fresh (List.mem_map.2 ⟨other, listed, users⟩)
      | some stop =>
          rw [runStages_stopped asked] at finished
          cases finished

/-! ## Runs -/

/-- Deposits, transfers and freezes. -/
def BringsFunds : LedgerCall → Prop
  | .deposit .. | .transfer .. | .freezeForOrder .. => True
  | _ => False

private theorem margin_of_bringsFunds {call : LedgerCall} (funds : BringsFunds call)
    (ledger : Ledger) (userId : UserId) :
    (ledger.perform call).1.holding (.user userId .futures .margin) =
      ledger.holding (.user userId .futures .margin) := by
  have outcome := Ledger.perform_outcome ledger call
  generalize ledger.perform call = next at outcome
  cases outcome with
  | refused | idle | repeated => rfl
  | orphaned => rw [Ledger.holding_addKey]
  | short known uncovered effect =>
      rw [effect.holding, netAt_nil, add_zero]
  | performed accepts within effect =>
      rw [effect.holding, Ledger.holding_addKey, add_eq_left]
      cases call with
      | deposit | transfer | freezeForOrder => simp [Ledger.postings]
      | withdraw | unfreezeOrder | openPosition | closePosition | closePositionSettled | liquidate
      | settleFunding | settleFundingChecked | settleRealizedPnlCapped | getOrCreateAccount =>
          exact funds.elim
  | opened same | panicked same =>
      subst same
      exact funds.elim

/-- Funds are deposited, transferred and frozen, and what the service is asked for succeeds. -/
def Succeeds (service : ClearingService) : ClearingCall → Prop
  | .funds call => BringsFunds call
  | call => (service.perform call).2 = .ok ()

/-- The positions and the ledger take the same margins for the call: no request has a key that
the ledger has seen, what is closed whole releases its whole margin, and what funding draws
from margin is drawn from the position that pays. -/
def MovesAlike (service : ClearingService) : ClearingCall → Prop
  | .funds _ => True
  | .processTrade trade =>
      KeysUnused service.ledger (service.positionManager.tradeStages trade) ∧
        ReleasesWhole service.positionManager trade.buyerUserId trade.symbol
          (service.positionManager.split trade.buyerSide).1 ∧
        ReleasesWhole (service.positionManager.takeSide trade.buyerSide) trade.sellerUserId
          trade.symbol ((service.positionManager.takeSide trade.buyerSide).split
            trade.sellerSide).1
  | .processLiquidation userId symbol _ _ =>
      liquidationKey userId symbol ∉ service.ledger.idempotencyKeys
  | .settleFunding order symbol fundingRate markPrice fundingPeriodId _ =>
      ∀ position ∈ (order.visit 0 service.positionManager.allPositions).filter fun position =>
          position.symbol = symbol,
        DrawsAlone service.positionManager service.ledger fundingRate markPrice fundingPeriodId
          position
  | .executeAdl order bankruptUser symbol bankruptSide deficit markPrice timestamp =>
      KeysUnused service.ledger
          (service.adlOf order bankruptUser symbol bankruptSide deficit markPrice timestamp) ∧
        ∀ reduction ∈
            service.adlReductionsOf order bankruptUser symbol bankruptSide deficit markPrice,
          ReleasesWhole service.positionManager reduction.1 symbol reduction.2

instance (service : ClearingService) : DecidablePred service.Succeeds
  | .funds call =>
      match call with
      | .deposit .. | .transfer .. | .freezeForOrder .. => isTrue trivial
      | .withdraw .. | .unfreezeOrder .. | .openPosition .. | .closePosition ..
      | .closePositionSettled .. | .liquidate .. | .settleFunding .. | .settleFundingChecked ..
      | .settleRealizedPnlCapped .. | .getOrCreateAccount .. => isFalse id
  | .processTrade _ | .processLiquidation .. | .settleFunding .. | .executeAdl .. =>
      inferInstanceAs (Decidable (_ = _))

instance (service : ClearingService) : DecidablePred service.MovesAlike
  | .funds _ => isTrue trivial
  | .processTrade _ => inferInstanceAs (Decidable (_ ∧ _ ∧ _))
  | .processLiquidation .. => inferInstanceAs (Decidable (_ ∉ _))
  | .settleFunding .. => inferInstanceAs (Decidable (∀ position ∈ _, DrawsAlone _ _ _ _ _ position))
  | .executeAdl .. => inferInstanceAs (Decidable (_ ∧ ∀ reduction ∈ _, ReleasesWhole _ _ _ _))

variable {service : ClearingService}

/-- One call keeps positions and wallets in agreement. -/
theorem Agrees.perform (agrees : Agrees service.positionManager service.ledger)
    (tidy : service.positionManager.Tidy) {call : ClearingCall} (succeeds : service.Succeeds call)
    (alike : service.MovesAlike call) :
    Agrees (service.perform call).1.positionManager (service.perform call).1.ledger := by
  cases call with
  | funds call =>
      refine ⟨agrees.nonneg, fun userId => ?_⟩
      exact (agrees.margins userId).trans
        (margin_of_bringsFunds succeeds service.ledger userId).symm
  | processTrade trade =>
      obtain ⟨unused, bought, sold⟩ := alike
      have ok : (service.processTrade trade).2 = .ok () := succeeds
      rw [processTrade_eq] at ok
      rw [ClearingService.perform, processTrade_eq]
      exact agrees.tradeStages tidy unused bought sold (ofStages_ok_iff.1 ok)
  | processLiquidation userId symbol exitPrice now =>
      have ok : (withoutValue
          (service.processLiquidation userId symbol exitPrice now)).2 = .ok () := succeeds
      rw [ClearingService.perform]
      cases found : service.positionManager.getPosition userId symbol with
      | none =>
          rw [processLiquidation, PositionManager.forceClose, found] at ok
          cases ok
      | some position =>
          rw [processLiquidation_eq found, PositionManager.liquidationStages, found] at ok ⊢
          have finished := ofStages_ok_iff.1 ok
          cases asked : (askLedger service.ledger
              (ClearingStage.seizure position userId symbol exitPrice now).call).2 with
          | none =>
              have seized := agrees.seizure found alike asked
              rw [runOn, Option.map_some, Option.toList_some, runStages_granted asked]
              exact seized
          | some stop =>
              rw [runOn, Option.map_some, Option.toList_some, runStages_stopped asked] at finished
              cases finished
  | settleFunding order symbol fundingRate markPrice fundingPeriodId timestamp =>
      have ok : (withoutValue (service.settleFunding order symbol fundingRate markPrice
          fundingPeriodId timestamp)).2 = .ok () := succeeds
      rw [settleFunding_eq] at ok
      rw [ClearingService.perform, settleFunding_eq]
      have one : ∀ position : Position, decide (position.symbol = symbol) = true →
          position.symbol = symbol := fun position kept => of_decide_eq_true kept
      apply agrees.fundingStages (tidy.keyed.visited_distinct order _ one) _ alike
      · exact ofStages_ok_iff.1 ok
      · exact fun position visited => tidy.keyed.getPosition_of_visited visited
  | executeAdl order bankruptUser symbol bankruptSide deficit markPrice timestamp =>
      obtain ⟨unused, whole⟩ := alike
      have ok : (withoutValue (service.executeAdl order bankruptUser symbol bankruptSide deficit
          markPrice timestamp)).2 = .ok () := succeeds
      rw [ClearingService.perform]
      by_cases some : service.counterpartyPositions order bankruptUser symbol bankruptSide = []
      · rw [executeAdl, some] at ok
        cases ok
      · rw [executeAdl_eq tidy order bankruptUser symbol bankruptSide deficit markPrice timestamp
          some] at ok ⊢
        apply agrees.adlStages tidy _ (fun _ _ => rfl) _ whole unused (ofStages_ok_iff.1 ok)
        · exact adlReductions_distinct tidy order bankruptUser symbol bankruptSide deficit
            markPrice
        · intro reduction member
          obtain ⟨position, found, within, -⟩ := PositionManager.mem_adlReductions member
          exact ⟨position, found, within⟩

private theorem agrees_new : Agrees PositionManager.new Ledger.new where
  nonneg := by
    intro userId symbol position found
    simp [PositionManager.new, PositionManager.getPosition] at found
  margins userId := by
    rw [Ledger.holding_new]
    simp [PositionManager.userMargin, PositionManager.new]

/-- Over every run of successful calls that move the same margins, the positions of each user
hold the margin of the user's Futures wallet in every state. -/
theorem margins_agree (calls : List ClearingCall) (succeed : StepsMeet step Succeeds new calls)
    (alike : StepsMeet step MovesAlike new calls) (before : List ClearingCall)
    (isPrefix : before <+: calls) (userId : UserId) :
    (run step new before).1.positionManager.userMargin userId =
      (run step new before).1.ledger.holding (.user userId .futures .margin) := by
  suffices holds : (run step new before).1.positionManager.Tidy ∧
      Agrees (run step new before).1.positionManager (run step new before).1.ledger from
    holds.2.margins userId
  apply run_induction (motive := fun _ (reached : ClearingService) _ =>
    reached.positionManager.Tidy ∧ Agrees reached.positionManager reached.ledger) step
  · exact ⟨PositionManager.tidy_new, agrees_new⟩
  · rintro earlier call within ⟨tidy, agrees⟩
    have part := within.trans isPrefix
    exact ⟨tidy_perform tidy call,
      agrees.perform tidy (succeed.of_prefix part) (alike.of_prefix part)⟩

theorem margins_agree_settledRun :
    (run step new settledRun).1.positionManager.userMargin 1 =
      (run step new settledRun).1.ledger.holding (.user 1 .futures .margin) :=
  margins_agree settledRun (by decide +kernel) (by decide +kernel) settledRun
    (List.prefix_refl settledRun) 1

/-- The first trade again, under another id. -/
def secondTrade : TradeInfo := { firstTrade with tradeId := 2 }

/-- A user is liquidated, buys again and is liquidated in the same symbol again. -/
def liquidatedTwice : List ClearingCall :=
  tradedRun ++ [.processLiquidation 1 1 (.ofInt 95) 200, .processTrade secondTrade,
    .processLiquidation 1 1 (.ofInt 95) 300]

/-- A user with positions in two symbols and nothing available pays funding on one of them. -/
def fundedFromBoth : List ClearingCall :=
  fundedUser 1 200 200 ++ fundedUser 2 10000 500 ++
    [.processTrade firstTrade, .processTrade { secondTrade with symbol := 2 },
      .settleFunding .stored 1 ⟨100000000000000000⟩ (.ofInt 100) 1 200]

/-- The second liquidation has the key of the first, so the ledger keeps its margin; and
funding drawn from the margin of two positions leaves both positions as they were. -/
theorem margins_disagree :
    (StepsMeet step Succeeds new liquidatedTwice ∧
      (run step new liquidatedTwice).1.positionManager.userMargin 1 = 0 ∧
      (run step new liquidatedTwice).1.ledger.holding (.user 1 .futures .margin) = .ofInt 100) ∧
    StepsMeet step Succeeds new fundedFromBoth ∧
      (run step new fundedFromBoth).1.positionManager.userMargin 1 = .ofInt 200 ∧
      (run step new fundedFromBoth).1.ledger.holding (.user 1 .futures .margin) = .ofInt 100 := by
  decide +kernel

end ClearingService
end Exg
