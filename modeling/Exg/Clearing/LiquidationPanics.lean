import Exg.Clearing.Liquidations

/-!
# Liquidations and the escrow account

A liquidation moves its surplus out of escrow right after it has put the seized margin
there.  The ledger takes for granted that the margin is at least the surplus, but the
surplus is the margin together with the realized PnL, and nothing keeps the exit price of a
liquidation on the losing side.  So it panics exactly when the PnL is more than escrow held
before.
-/

namespace Exg

open Support

namespace ClearingService

variable {service : ClearingService} {userId : UserId} {symbol : SymbolId}
variable {exitPrice surplus : Decimal128} {now : UnixMicros} {position : Position}

/-- Margin plus realized PnL. -/
def liquidationSurplus (position : Position) (exitPrice : Decimal128) : Decimal128 :=
  position.margin + PositionManager.realizedPnl position exitPrice position.size

/-! ## Panics -/

/-- The ledger carries a seizure out: the key is new and the wallet holds the margin. -/
def SeizureDue (service : ClearingService) (userId : UserId) (symbol : SymbolId)
    (position : Position) : Prop :=
  0 < position.margin ∧ liquidationKey userId symbol ∉ service.ledger.idempotencyKeys ∧
    position.margin ≤ service.ledger.holding (.user userId .futures .margin)

/-- The realized PnL of a liquidation with a surplus is no more than escrow holds. -/
def EscrowCovers (service : ClearingService) (userId : UserId) (symbol : SymbolId)
    (exitPrice : Decimal128) : Prop :=
  ∀ position, service.positionManager.getPosition userId symbol = some position →
    service.SeizureDue userId symbol position → 0 < liquidationSurplus position exitPrice →
      PositionManager.realizedPnl position exitPrice position.size ≤
        service.ledger.holding (.system .escrow)

/-- An account that does not exist holds no margin. -/
theorem mem_accounts_of_margin {ledger : Ledger}
    (positive : 0 < ledger.holding (.user userId .futures .margin)) :
    userId ∈ ledger.accounts := by
  by_contra missing
  have absent : ledger.accounts[userId]? = none := by
    rw [Std.ExtTreeMap.mem_iff_isSome_getElem?] at missing
    exact Option.not_isSome_iff_eq_none.1 missing
  rw [Ledger.holding, Ledger.getBalance, absent] at positive
  exact lt_irrefl _ positive

private theorem seizure_panics_iff :
    (∃ text, (service.ledger.perform
        (seizureCall position userId symbol exitPrice now)).2 = .panicked text) ↔
      service.SeizureDue userId symbol position ∧ 0 < liquidationSurplus position exitPrice ∧
        service.ledger.holding (.system .escrow) <
          PositionManager.realizedPnl position exitPrice position.size := by
  rw [Ledger.panicked_iff]
  constructor
  · rintro ⟨key, accepts, gains, overdraws⟩
    obtain rfl : liquidationKey userId symbol = key := Option.some.inj accepts.keyed
    have positive : 0 < position.margin := by
      by_contra nonpos
      have valid := accepts.valid
      rw [← Decimal128.isPositive_iff] at nonpos
      simp [seizureCall, ClearingStage.seizure, Ledger.LedgerCall.invalid,
        Ledger.requirePositive, nonpos] at valid
    refine ⟨⟨positive, accepts.unused, accepts.covered.1⟩, gains, ?_⟩
    rw [add_comm] at overdraws
    exact lt_of_add_lt_add_left overdraws
  · rintro ⟨⟨positive, unused, covered⟩, gains, overdraws⟩
    refine ⟨liquidationKey userId symbol, ⟨⟨rfl, ?_, id, unused⟩, ?_, covered, ?_⟩, gains, ?_⟩
    · simp [seizureCall, ClearingStage.seizure, Ledger.LedgerCall.invalid,
        Ledger.requirePositive, Decimal128.isPositive_iff.2 positive]
    · exact not_not.2 (mem_accounts_of_margin (positive.trans_le covered))
    · exact fun negative => absurd gains (not_lt.2 negative.le)
    · rw [add_comm]
      exact add_lt_add_right overdraws position.margin

/-- A liquidation panics where the ledger carries the seizure out and overdraws escrow. -/
theorem liquidation_panics_iff :
    (∃ text, (service.processLiquidation userId symbol exitPrice now).2 =
        .error (.panicked text)) ↔
      ¬service.EscrowCovers userId symbol exitPrice := by
  cases found : service.positionManager.getPosition userId symbol with
  | none =>
      apply iff_of_false
      · simp [processLiquidation, PositionManager.forceClose, found]
      · rw [not_not]
        intro position other
        rw [found] at other
        cases other
  | some position =>
      have stop : (∃ text, (service.processLiquidation userId symbol exitPrice now).2 =
            .error (.panicked text)) ↔
          ∃ text, (service.ledger.perform
            (seizureCall position userId symbol exitPrice now)).2 = .panicked text := by
        rw [processLiquidation_of_found found, askLedger]
        cases (service.ledger.perform (seizureCall position userId symbol exitPrice now)).2 with
        | done => simp [OperationResult.stop]
        | failed error => simp [OperationResult.stop]
        | panicked text => simp [OperationResult.stop]
      rw [stop, seizure_panics_iff, EscrowCovers, found]
      simp only [Option.some.injEq, forall_eq', not_forall, not_le, exists_prop]

/-! ## The money -/

/-- What an operation takes from the user's margin. -/
def seizedMargin (before after : Ledger) (userId : UserId) : Decimal128 :=
  before.holding (.user userId .futures .margin) - after.holding (.user userId .futures .margin)

/-- What the insurance fund pays. -/
def deficitPaid (before after : Ledger) : Decimal128 :=
  max 0 (before.holding (.system .insuranceFund) - after.holding (.system .insuranceFund))

/-- What is moved to the insurance fund. -/
def movedToInsurance (before after : Ledger) : Decimal128 :=
  max 0 (after.holding (.system .insuranceFund) - before.holding (.system .insuranceFund))

def addedToEscrow (before after : Ledger) : Decimal128 :=
  after.holding (.system .escrow) - before.holding (.system .escrow)

/-- A liquidation that succeeds moves what it takes, and it takes the position's margin and the
deficit unless the ledger has seen the key. -/
def MovesWhatItSeizes (service : ClearingService) (userId : UserId) (symbol : SymbolId)
    (exitPrice : Decimal128) (now : UnixMicros) : Prop :=
  let before := service.ledger
  let after := (service.processLiquidation userId symbol exitPrice now).1.ledger
  ∀ surplus, (service.processLiquidation userId symbol exitPrice now).2 = .ok surplus →
    seizedMargin before after userId + deficitPaid before after =
        addedToEscrow before after + movedToInsurance before after ∧
      (liquidationKey userId symbol ∉ before.idempotencyKeys →
        ∃ position, service.positionManager.getPosition userId symbol = some position ∧
          surplus = liquidationSurplus position exitPrice ∧
          seizedMargin before after userId = position.margin ∧
          deficitPaid before after = max 0 (-surplus) ∧
          movedToInsurance before after = max 0 surplus)

/-- Where nothing changes, nothing has moved. -/
theorem nothing_moved (ledger : Ledger) :
    seizedMargin ledger ledger userId + deficitPaid ledger ledger =
      addedToEscrow ledger ledger + movedToInsurance ledger ledger := by
  simp [seizedMargin, deficitPaid, addedToEscrow, movedToInsurance]

private theorem max_sub_max_neg (value : Decimal128) : max 0 value = value + max 0 (-value) := by
  rcases le_total 0 value with gains | loses
  · rw [max_eq_right gains, max_eq_left (neg_nonpos.2 gains), add_zero]
  · rw [max_eq_left loses, max_eq_right (neg_nonneg.2 loses), add_neg_cancel]

/-- Escrow after a seizure that has been carried out. -/
theorem escrow_seized (unused : liquidationKey userId symbol ∉ service.ledger.idempotencyKeys)
    (granted : (askLedger service.ledger
      (seizureCall position userId symbol exitPrice now)).2 = none) :
    (askLedger service.ledger
        (seizureCall position userId symbol exitPrice now)).1.holding (.system .escrow) =
      service.ledger.holding (.system .escrow) +
        (position.margin - liquidationSurplus position exitPrice) := by
  rw [(granted_effect granted rfl id unused).1]
  simp [seizureCall, ClearingStage.seizure, Ledger.postings, netAt_surplusPostings,
    liquidationSurplus, sub_eq_add_neg]

/-- What a seizure that has been carried out moves. -/
theorem moved_seized (unused : liquidationKey userId symbol ∉ service.ledger.idempotencyKeys)
    (granted : (askLedger service.ledger
      (seizureCall position userId symbol exitPrice now)).2 = none) :
    let after := (askLedger service.ledger (seizureCall position userId symbol exitPrice now)).1
    let surplus := liquidationSurplus position exitPrice
    seizedMargin service.ledger after userId = position.margin ∧
      deficitPaid service.ledger after = max 0 (-surplus) ∧
      movedToInsurance service.ledger after = max 0 surplus ∧
      addedToEscrow service.ledger after = position.margin - surplus := by
  intro after surplus
  obtain ⟨margin, insurance⟩ := holding_seized unused granted
  refine ⟨?_, ?_, ?_, ?_⟩
  · rw [seizedMargin, margin, sub_sub_cancel]
  · rw [deficitPaid, insurance, sub_add_cancel_left]
    rfl
  · rw [movedToInsurance, insurance, add_sub_cancel_left]
    rfl
  · rw [addedToEscrow, escrow_seized unused granted, add_sub_cancel_left]

private theorem movesWhatItSeizes : service.MovesWhatItSeizes userId symbol exitPrice now := by
  intro surplus ok
  obtain ⟨position, found, granted, rfl⟩ := processLiquidation_ok_iff.1 ok
  simp only [processLiquidation_of_found found]
  by_cases unused : liquidationKey userId symbol ∈ service.ledger.idempotencyKeys
  · have positive : 0 < position.margin := by
      by_contra nonpos
      exact seizure_refused nonpos granted
    rw [seizure_repeats positive unused]
    exact ⟨nothing_moved service.ledger, fun fresh => absurd unused fresh⟩
  · obtain ⟨margin, paid, moved, escrow⟩ := moved_seized unused granted
    refine ⟨?_, fun _ => ⟨position, found, rfl, margin, paid, moved⟩⟩
    rw [margin, paid, moved, escrow, max_sub_max_neg (liquidationSurplus position exitPrice)]
    abel

/-! ## Over a history -/

/-- A liquidation that neither panics nor loses money. -/
def LiquidatesSafely (service : ClearingService) (userId : UserId) (symbol : SymbolId)
    (exitPrice : Decimal128) (now : UnixMicros) : Prop :=
  (∀ text, (service.processLiquidation userId symbol exitPrice now).2 ≠
    .error (.panicked text)) ∧
  service.MovesWhatItSeizes userId symbol exitPrice now

/-- In every history, a liquidation is safe exactly where it is not carried out, has no
surplus, or realizes no more PnL than escrow holds. -/
theorem liquidation_safe_iff (calls : List ClearingCall) (userId : UserId) (symbol : SymbolId)
    (exitPrice : Decimal128) (now : UnixMicros) :
    let service := (run step new calls).1
    service.LiquidatesSafely userId symbol exitPrice now ↔
      service.EscrowCovers userId symbol exitPrice := by
  intro service
  have panics : (∃ text, (service.processLiquidation userId symbol exitPrice now).2 =
      .error (.panicked text)) ↔ ¬service.EscrowCovers userId symbol exitPrice :=
    liquidation_panics_iff
  rw [LiquidatesSafely, and_iff_left movesWhatItSeizes, ← not_iff_not, ← panics]
  simp

/-- A long of 10 bought at 100 is liquidated at 150 while escrow is empty. -/
theorem profitable_liquidation_panics :
    let service := (run step new tradedRun).1
    (service.processLiquidation 1 1 (.ofInt 150) 200).2 =
        .error (.panicked "escrow has margin_seized >= surplus") ∧
      ¬service.LiquidatesSafely 1 1 (.ofInt 150) 200 := by
  intro service
  have panicked : (service.processLiquidation 1 1 (.ofInt 150) 200).2 =
      .error (.panicked "escrow has margin_seized >= surplus") := by
    decide +kernel
  exact ⟨panicked, fun safe => safe.1 _ panicked⟩

end ClearingService
end Exg
