import Exg.Ledger.Conservation

/-!
# No balance below zero

The checks of an operation cover what it takes out of a slot, with two exceptions.  Closing
a position credits the margin, the profit and minus the fee to available in one sum that is
checked by nothing, so that a loss beyond the margin can leave available negative; and a
user who closes against itself is checked for the margin and the profit one by one.
-/

namespace Exg

open Support

/-- The slots of the Futures wallets. -/
def Slot.InFutures : Slot → Prop
  | .user _ wallet _ => wallet = .futures
  | .system _ => False

namespace Ledger

variable {ledger : Ledger}

/-- No sub-field of a user and no guarded system account is negative. -/
structure Solvent (ledger : Ledger) : Prop where
  user : ∀ userId wallet field, 0 ≤ ledger.holding (.user userId wallet field)
  system : ∀ wallet ∈ nonNegativeSystemWallets, 0 ≤ ledger.systemBalance wallet

/-- What the checks of a closing operation leave open: the loss and the fee are covered by
the margin released and available, and one margin covers both what it releases and pays. -/
def Sufficient (ledger : Ledger) : LedgerCall → Prop
  | .closePosition userId marginReleased realizedPnl fee counterpartyId _ _ =>
      0 ≤ ledger.holding (.user userId .futures .available) +
          (marginReleased + realizedPnl - fee) ∧
        (counterpartyId = userId → 0 < realizedPnl →
          marginReleased + realizedPnl ≤ ledger.holding (.user userId .futures .margin))
  | .closePositionSettled userId marginReleased realizedPnl fee _ _ =>
      0 ≤ ledger.holding (.user userId .futures .available) +
        (marginReleased + realizedPnl - fee)
  | _ => True

/-- The call meets `Sufficient`, or it does not get past its checks. -/
def KeepsSolvent (ledger : Ledger) (call : LedgerCall) : Prop :=
  ∀ key, Accepts ledger call key → ledger.Sufficient call

/-! ## Postings that credit -/

theorem amount_pos {amount : Decimal128} {text : String}
    (valid : requirePositive amount text = none) : 0 < amount := by
  rw [requirePositive] at valid
  split at valid
  · rename_i positive
    exact Decimal128.isPositive_iff.1 positive
  · cases valid

theorem abs_nonneg (value : Decimal128) : 0 ≤ value.abs := by
  rw [Decimal128.le_iff_raw]
  exact Int.natCast_nonneg _

private theorem feePostings_nonneg (fee : Decimal128) :
    ∀ posting ∈ feePostings fee, 0 ≤ posting.2 := by
  rw [feePostings]
  split
  · rename_i positive
    simpa using (Decimal128.isPositive_iff.1 positive).le
  · simp

section Calls

variable {userId : UserId} {slot : Slot} {marginReleased realizedPnl fee : Decimal128}

/-- The released margin and what it turns into, at one slot. -/
theorem released_nonneg (nonneg : 0 ≤ ledger.holding slot)
    (enough : marginReleased ≤ ledger.holding (.user userId .futures .margin))
    (sufficient : slot = .user userId .futures .available →
      0 ≤ ledger.holding (.user userId .futures .available) +
        (marginReleased + realizedPnl - fee)) :
    0 ≤ ledger.holding slot +
      netAt [(.user userId .futures .margin, -marginReleased),
        (.user userId .futures .available, marginReleased + realizedPnl - fee)] slot := by
  by_cases margin : slot = .user userId .futures .margin
  · subst margin
    simpa [netAt_cons] using enough
  · by_cases available : slot = .user userId .futures .available
    · subst available
      simpa [netAt_cons] using sufficient rfl
    · simpa [netAt_cons, Ne.symm margin, Ne.symm available] using nonneg

private theorem closePosition_nonneg {counterpartyId : UserId} {key : String}
    {timestamp : UnixMicros} (nonneg : 0 ≤ ledger.holding slot)
    (covered : ledger.Covered
      (.closePosition userId marginReleased realizedPnl fee counterpartyId key timestamp))
    (sufficient : slot.InFutures → ledger.Sufficient
      (.closePosition userId marginReleased realizedPnl fee counterpartyId key timestamp)) :
    0 ≤ ledger.holding slot + netAt (ledger.postings
      (.closePosition userId marginReleased realizedPnl fee counterpartyId key timestamp))
      slot := by
  have fees := netAt_nonneg (feePostings_nonneg fee) slot
  have released := released_nonneg nonneg covered.1
    fun same => (sufficient (same ▸ rfl)).1
  have whole : 0 ≤ ledger.holding slot +
      netAt [(.user userId .futures .margin, -marginReleased),
        (.user userId .futures .available, marginReleased + realizedPnl - fee)] slot +
      netAt (pnlPostings counterpartyId realizedPnl) slot := by
    rw [pnlPostings]
    split
    · rename_i profit
      rw [Decimal128.isPositive_iff] at profit
      by_cases here : slot = .user counterpartyId .futures .margin
      · subst here
        by_cases own : counterpartyId = userId
        · subst own
          have both := (sufficient rfl).2 rfl profit
          simp only [netAt_cons, netAt_nil, if_true, reduceCtorEq, Slot.user.injEq, and_false,
            if_false, add_zero]
          rw [add_assoc, ← neg_add]
          exact le_add_neg_iff_le.2 both
        · simp only [netAt_cons, netAt_nil, if_true, Slot.user.injEq, Ne.symm own, false_and,
            if_false, add_zero]
          exact le_add_neg_iff_le.2 (covered.2 profit)
      · have elsewhere :
            netAt [(Slot.user counterpartyId .futures .margin, -realizedPnl)] slot = 0 :=
          netAt_of_not_mem (by simpa using here)
        rwa [elsewhere, add_zero]
    · split
      · refine add_nonneg released (netAt_nonneg ?_ slot)
        simpa using abs_nonneg realizedPnl
      · simpa using released
  rw [postings, netAt_append, netAt_append, ← add_assoc, ← add_assoc]
  exact add_nonneg whole fees

private theorem closePositionSettled_nonneg {key : String} {timestamp : UnixMicros}
    (nonneg : 0 ≤ ledger.holding slot)
    (covered : ledger.Covered
      (.closePositionSettled userId marginReleased realizedPnl fee key timestamp))
    (sufficient : slot.InFutures → ledger.Sufficient
      (.closePositionSettled userId marginReleased realizedPnl fee key timestamp)) :
    0 ≤ ledger.holding slot + netAt (ledger.postings
      (.closePositionSettled userId marginReleased realizedPnl fee key timestamp)) slot := by
  have released := released_nonneg nonneg covered fun same => sufficient (same ▸ rfl)
  rw [postings, netAt_append, ← add_assoc]
  exact add_nonneg released (netAt_nonneg (feePostings_nonneg fee) slot)

private theorem liquidate_nonneg {marginSeized surplus : Decimal128} {key : String}
    {timestamp : UnixMicros} (nonneg : 0 ≤ ledger.holding slot) (seizes : 0 ≤ marginSeized)
    (covered : ledger.Covered (.liquidate userId marginSeized surplus key timestamp))
    (within : ¬ledger.Overdraws (.liquidate userId marginSeized surplus key timestamp)) :
    0 ≤ ledger.holding slot +
      netAt (ledger.postings (.liquidate userId marginSeized surplus key timestamp)) slot := by
  have seized : 0 ≤ ledger.holding slot +
      netAt [(Slot.user userId .futures .margin, -marginSeized),
        (Slot.system .escrow, marginSeized)]
        slot :=
    covered_debit nonneg (fun same => same ▸ covered.1) (by simpa using seizes)
  rw [postings, netAt_append, ← add_assoc, surplusPostings]
  split
  · rename_i gain
    rw [Decimal128.isPositive_iff] at gain
    refine covered_debit seized ?_ (by simpa using gain.le)
    rintro rfl
    simpa [netAt_cons] using not_lt.1 fun draws => within ⟨gain, draws⟩
  · split
    · rename_i loss
      rw [Decimal128.isNegative_iff] at loss
      refine covered_debit seized ?_ (by simpa using abs_nonneg surplus)
      rintro rfl
      simpa [netAt_cons] using covered.2 loss
    · simpa using seized

private theorem fundingPostings_nonneg {payment : Decimal128} (nonneg : 0 ≤ ledger.holding slot)
    (pool : slot ≠ .system .funding)
    (covered : 0 < payment → 0 < ledger.fromMargin userId payment →
      ledger.fromMargin userId payment ≤ ledger.holding (.user userId .futures .margin)) :
    0 ≤ ledger.holding slot + netAt (ledger.fundingPostings userId payment) slot := by
  have pooled : netAt [(Slot.system .funding, payment)] slot = 0 :=
    netAt_of_not_mem (by simpa using pool)
  rw [fundingPostings]
  split
  · rename_i pays
    have debited : 0 ≤ ledger.holding slot +
        netAt [(Slot.user userId .futures .available, -ledger.fromAvailable userId payment)] slot :=
      covered_debit nonneg (fun same => same ▸ min_le_right _ _) (by simp)
    rw [netAt_append, netAt_append, pooled, add_zero, ← add_assoc]
    split
    · rename_i drawn
      refine covered_debit debited ?_ (by simp)
      rintro rfl
      simpa [netAt_cons] using covered (Decimal128.isPositive_iff.1 pays)
        (Decimal128.isPositive_iff.1 drawn)
    · simpa using debited
  · rw [← List.singleton_append, netAt_append, pooled, add_zero]
    exact add_nonneg nonneg (netAt_nonneg (by simpa using abs_nonneg payment) slot)

private theorem cappedPostings_nonneg {signed : Decimal128} (nonneg : 0 ≤ ledger.holding slot)
    (pool : slot ≠ .system .funding) :
    0 ≤ ledger.holding slot + netAt (ledger.cappedPostings userId signed) slot := by
  have pooled : ∀ amount : Decimal128, netAt [(Slot.system .funding, amount)] slot = 0 :=
    fun amount => netAt_of_not_mem (by simpa using pool)
  rw [cappedPostings]
  split
  · rename_i gain
    rw [← List.singleton_append, netAt_append, pooled, add_zero]
    exact add_nonneg nonneg
      (netAt_nonneg (by simpa using (Decimal128.isPositive_iff.1 gain).le) slot)
  · rw [← List.singleton_append, netAt_append, pooled, add_zero]
    exact covered_debit nonneg (fun same => same ▸ min_le_right _ _) (by simp)

/-- What a call adds to a slot leaves it at zero or above.  Only slots of the Futures wallets
need more than the checks. -/
theorem postings_nonneg {call : LedgerCall} {key : String} (accepts : Accepts ledger call key)
    (within : ¬ledger.Overdraws call) (pool : slot ≠ .system .funding)
    (sufficient : slot.InFutures → ledger.Sufficient call) (nonneg : 0 ≤ ledger.holding slot) :
    0 ≤ ledger.holding slot + netAt (ledger.postings call) slot := by
  have covered := accepts.covered
  cases call with
  | deposit userId amount key timestamp =>
      exact add_nonneg nonneg (netAt_nonneg
        (by simpa [postings] using (amount_pos accepts.valid).le) _)
  | withdraw userId amount key timestamp =>
      exact covered_debit nonneg (fun same => same ▸ covered) (by simp)
  | transfer userId fromWallet toWallet amount key timestamp =>
      exact covered_debit nonneg (fun same => same ▸ covered)
        (by simpa using (amount_pos accepts.valid).le)
  | freezeForOrder userId wallet amount key timestamp =>
      exact covered_debit nonneg (fun same => same ▸ covered)
        (by simpa using (amount_pos accepts.valid).le)
  | unfreezeOrder userId wallet amount key timestamp =>
      exact covered_debit nonneg (fun same => same ▸ covered)
        (by simpa using (amount_pos accepts.valid).le)
  | openPosition userId marginAmount fee key timestamp =>
      refine covered_debit nonneg (fun same => same ▸ covered) ?_
      have positive := (amount_pos (Option.or_eq_none_iff.1 accepts.valid).1).le
      intro posting member
      rcases List.mem_cons.1 member with rfl | paid
      · exact positive
      · exact feePostings_nonneg fee posting paid
  | closePosition userId marginReleased realizedPnl fee counterpartyId key timestamp =>
      exact closePosition_nonneg nonneg covered sufficient
  | closePositionSettled userId marginReleased realizedPnl fee key timestamp =>
      exact closePositionSettled_nonneg nonneg covered sufficient
  | liquidate userId marginSeized surplus key timestamp =>
      exact liquidate_nonneg nonneg (amount_pos accepts.valid).le covered within
  | settleFunding userId payment key timestamp => exact fundingPostings_nonneg nonneg pool covered
  | settleFundingChecked userId symbol period payment timestamp =>
      exact fundingPostings_nonneg nonneg pool covered
  | settleRealizedPnlCapped userId signed key timestamp => exact cappedPostings_nonneg nonneg pool
  | getOrCreateAccount userId => simpa [postings] using nonneg

end Calls

/-- One call leaves a slot at zero or above. -/
theorem perform_nonneg {call : LedgerCall} {slot : Slot} (pool : slot ≠ .system .funding)
    (sufficient : slot.InFutures → ledger.KeepsSolvent call) (nonneg : 0 ≤ ledger.holding slot) :
    0 ≤ (ledger.perform call).1.holding slot := by
  have outcome := perform_outcome ledger call
  generalize ledger.perform call = next at outcome
  cases outcome with
  | refused invalid => exact nonneg
  | idle idle => exact nonneg
  | repeated key used => exact nonneg
  | opened same =>
      rw [(effect_getOrCreateAccount ledger _).holding, netAt_nil, add_zero]
      exact nonneg
  | orphaned fresh missing => rwa [holding_addKey]
  | short known uncovered effect =>
      rw [effect.holding, netAt_nil, add_zero]
      exact nonneg
  | panicked same accepts overdraws effect =>
      subst same
      rw [effect.holding, holding_addKey]
      exact covered_debit nonneg (fun same => same ▸ accepts.covered.1)
        (by simpa using (amount_pos accepts.valid).le)
  | performed accepts within effect =>
      rw [effect.holding, holding_addKey]
      exact postings_nonneg accepts within pool (fun here => sufficient here _ accepts) nonneg

theorem netAt_feePostings {slot : Slot} (users : slot ≠ .system .feeCollection)
    (fee : Decimal128) : netAt (feePostings fee) slot = 0 := by
  refine netAt_of_not_mem ?_
  rw [feePostings]
  split <;> simp [users]

/-- The condition is exact: a call that does not meet it leaves a balance negative. -/
theorem insolvent_of_not_keepsSolvent {call : LedgerCall} (fails : ¬ledger.KeepsSolvent call) :
    ¬(ledger.perform call).1.Solvent := by
  intro solvent
  refine fails fun key accepts => ?_
  cases call with
  | closePosition userId marginReleased realizedPnl fee counterpartyId key timestamp =>
      have effect := accepts.effect id
      constructor
      · have available := solvent.user userId .futures .available
        rw [effect.holding, postings, netAt_append, netAt_feePostings (by simp)] at available
        have untouched : netAt (pnlPostings counterpartyId realizedPnl)
            (.user userId .futures .available) = 0 := by
          refine netAt_of_not_mem ?_
          rw [pnlPostings]
          split
          · simp
          · split <;> simp
        rw [netAt_append, untouched] at available
        simpa [netAt_cons] using available
      · rintro rfl profit
        have margin := solvent.user counterpartyId .futures .margin
        rw [effect.holding, postings, netAt_append, netAt_feePostings (by simp), pnlPostings,
          if_pos (Decimal128.isPositive_iff.2 profit)] at margin
        simp only [netAt_append, netAt_cons, netAt_nil, if_true, Slot.user.injEq, reduceCtorEq,
          and_false, if_false, add_zero] at margin
        rw [← neg_add] at margin
        exact le_add_neg_iff_le.1 margin
  | closePositionSettled userId marginReleased realizedPnl fee key timestamp =>
      have available := solvent.user userId .futures .available
      rw [(accepts.effect id).holding, postings, netAt_append, netAt_feePostings (by simp)]
        at available
      rw [Sufficient]
      simpa [netAt_cons] using available
  | _ => trivial

/-! ## Every run -/

theorem holding_new (slot : Slot) : new.holding slot = 0 := by
  cases slot with
  | user userId wallet field => cases field <;> simp [holding, getBalance, new, WalletBalance.field,
      WalletBalance.default]
  | system wallet => simp [holding, new, systemBalance]

/-- Outside the Futures wallets no balance is ever negative, whatever calls have been made. -/
theorem nonneg_outside_futures {slot : Slot} (pool : slot ≠ .system .funding)
    (outside : ¬slot.InFutures) (calls : List LedgerCall) :
    0 ≤ (run step Ledger.new calls).1.holding slot := by
  have unconditional : StepsMeet step (fun _ _ => True) Ledger.new calls :=
    StepsMeet.of_forall fun _ _ _ => trivial
  have kept : ∀ ledger call, True → 0 ≤ holding ledger slot →
      0 ≤ (step ledger call).1.holding slot :=
    fun ledger call _ nonneg => perform_nonneg pool (fun here => absurd here outside) nonneg
  have reached := unconditional.run_keeps kept (holding_new slot).ge
  exact reached

/-- User 1 opens a position with a margin of 100 and closes it with a loss to user 2. -/
def closeWithLoss (loss : Decimal128) : List LedgerCall :=
  let hundred := Decimal128.ofInt 100
  [.deposit 1 hundred "deposit" 1, .transfer 1 .funding .futures hundred "transfer" 2,
    .freezeForOrder 1 .futures hundred "freeze" 3, .openPosition 1 hundred 0 "open" 4,
    .closePosition 1 hundred (-loss) 0 2 "close" 5]

/-- A loss of 150 against a margin of 100 leaves available at -50. -/
theorem insolvent_closeWithLoss :
    ¬(run step Ledger.new (closeWithLoss (.ofInt 150))).1.Solvent := by
  intro solvent
  exact absurd (solvent.user 1 .futures .available) (by decide +kernel)

/-- Whatever calls have been made, no balance of a user and no guarded system account is
negative, as long as the positions closed covered their losses and fees. -/
theorem solvent {calls : List LedgerCall} (meet : StepsMeet step KeepsSolvent Ledger.new calls) :
    (run step Ledger.new calls).1.Solvent := by
  have every : ∀ slot, slot ≠ .system .funding →
      0 ≤ (run step Ledger.new calls).1.holding slot := by
    intro slot pool
    have kept : ∀ ledger call, KeepsSolvent ledger call → 0 ≤ holding ledger slot →
        0 ≤ (step ledger call).1.holding slot :=
      fun ledger call keeps nonneg => perform_nonneg pool (fun _ => keeps) nonneg
    have reached := meet.run_keeps kept (holding_new slot).ge
    exact reached
  constructor
  · exact fun userId wallet field => every _ (by simp)
  · intro wallet guarded
    refine every (.system wallet) ?_
    rintro ⟨⟩
    simp [nonNegativeSystemWallets] at guarded

theorem solvent_closeWithLoss :
    (run step Ledger.new (closeWithLoss (.ofInt 100))).1.Solvent := by
  refine solvent ⟨fun _ _ => trivial, fun _ _ => trivial, fun _ _ => trivial, fun _ _ => trivial,
    fun _ _ => ⟨by decide +kernel, by decide⟩, trivial⟩

end Ledger
end Exg
