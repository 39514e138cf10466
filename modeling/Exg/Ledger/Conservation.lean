import Exg.Ledger.Outcomes
import Exg.Support.Machine

/-!
# Conservation

Every operation but one adds nothing to the total of all balances beyond what it takes from
outside or gives back.  The exception is `close_position_settled`, which pays the profit to
the user and leaves the escrow balance as it was.
-/

namespace Exg

open Support

/-- What a booking brings in from outside. -/
def external (bookings : List Booking) : Decimal128 :=
  (bookings.map fun booking =>
    match booking.1 with
    | .deposit => booking.2.amount
    | .withdrawal => -booking.2.amount
    | _ => 0).sum

@[simp]
theorem external_nil : external [] = 0 := rfl

@[simp]
theorem external_append (first second : List Booking) :
    external (first ++ second) = external first + external second := by
  simp [external]

namespace Ledger

variable {ledger : Ledger}

private theorem netExternal_booking (entries : List JournalEntry) :
    netExternal entries = external (entries.map JournalEntry.booking) := by
  rw [netExternal, external, List.map_map]
  rfl

/-- All balances together are what came in from outside. -/
def Balanced (ledger : Ledger) : Prop :=
  ledger.userTotal + ledger.systemTotal = netExternal ledger.journal

theorem balanced_new : new.Balanced := by
  simp [Balanced, new, userTotal, systemTotal, netExternal]

private theorem verifyGlobalInvariant_iff :
    ledger.verifyGlobalInvariant = .ok () ↔ ledger.Balanced := by
  rw [verifyGlobalInvariant, Balanced]
  split <;> simp_all

/-- An effect keeps the balance exactly when it posts what it brings in. -/
theorem Effect.balanced_iff {before after : Ledger} {postings : List Posting}
    {bookings : List Booking} (effect : Effect before after postings bookings)
    (balanced : before.Balanced) : after.Balanced ↔ netTotal postings = external bookings := by
  obtain ⟨entries, appended, kinds⟩ := effect.journal
  rw [Balanced, effect.total, appended, netExternal_append, netExternal_booking entries, kinds,
    balanced, add_right_inj]

/-! ## Totals of the postings -/

private theorem netTotal_feePostings {fee : Decimal128} (nonneg : 0 ≤ fee) :
    netTotal (feePostings fee) = fee := by
  rw [feePostings]
  split
  · simp
  · rename_i zero
    rw [Decimal128.isPositive_iff, not_lt] at zero
    exact le_antisymm nonneg zero

private theorem netTotal_pnlPostings (counterpartyId : UserId) (realizedPnl : Decimal128) :
    netTotal (pnlPostings counterpartyId realizedPnl) = -realizedPnl := by
  rw [pnlPostings]
  split
  · simp
  · rename_i noProfit
    rw [Decimal128.isPositive_iff, not_lt] at noProfit
    split
    · simp [Decimal128.abs_of_nonpos noProfit]
    · rename_i noLoss
      rw [Decimal128.isNegative_iff, not_lt] at noLoss
      simp [le_antisymm noProfit noLoss]

private theorem netTotal_surplusPostings (surplus : Decimal128) :
    netTotal (surplusPostings surplus) = 0 := by
  rw [surplusPostings]
  split
  · simp
  · split <;> simp

private theorem fromMargin_nonneg (ledger : Ledger) (userId : UserId) (payment : Decimal128) :
    0 ≤ ledger.fromMargin userId payment := sub_nonneg.2 (min_le_left _ _)

private theorem netTotal_fundingPostings (ledger : Ledger) (userId : UserId)
    (payment : Decimal128) :
    netTotal (ledger.fundingPostings userId payment) = 0 := by
  rw [fundingPostings]
  split
  · have whole : ledger.fromAvailable userId payment + ledger.fromMargin userId payment = payment :=
      add_sub_cancel _ _
    split
    · simp only [netTotal_append, netTotal_cons, netTotal_nil, add_zero]
      calc -ledger.fromAvailable userId payment + -ledger.fromMargin userId payment + payment
          = payment - (ledger.fromAvailable userId payment + ledger.fromMargin userId payment) := by
            abel
        _ = 0 := by rw [whole, sub_self]
    · rename_i nothing
      rw [Decimal128.isPositive_iff, not_lt] at nothing
      rw [le_antisymm nothing (ledger.fromMargin_nonneg userId payment), add_zero] at whole
      simp [whole]
  · rename_i receives
    rw [Decimal128.isPositive_iff, not_lt] at receives
    simp [Decimal128.abs_of_nonpos receives]

private theorem netTotal_cappedPostings (ledger : Ledger) (userId : UserId) (signed : Decimal128) :
    netTotal (ledger.cappedPostings userId signed) = 0 := by
  rw [cappedPostings]
  split <;> simp

/-! ## What the bookings bring in -/

private theorem external_feeBookings (userId : UserId) (field : BalanceField) (fee : Decimal128) :
    external (feeBookings userId field fee) = 0 := by
  rw [feeBookings]
  split <;> simp [external]

private theorem external_closeBookings (userId other : UserId) (otherWallet : WalletType)
    (otherField : BalanceField) (marginReleased realizedPnl fee : Decimal128) :
    external (closeBookings userId other otherWallet otherField marginReleased realizedPnl fee) =
      0 := by
  have profit : external (pnlBookings userId other otherWallet otherField realizedPnl) = 0 := by
    rw [pnlBookings]
    split
    · rfl
    · split <;> simp [external]
  rw [closeBookings, external_append, external_append, profit, external_feeBookings]
  simp [external]

private theorem external_surplusBookings (surplus : Decimal128) :
    external (surplusBookings surplus) = 0 := by
  rw [surplusBookings]
  split
  · simp [external]
  · split <;> simp [external]

private theorem external_fundingBookings (ledger : Ledger) (userId : UserId)
    (payment : Decimal128) :
    external (ledger.fundingBookings userId payment) = 0 := by
  rw [fundingBookings]
  split
  · rw [external_append]
    split <;> split <;> simp [external]
  · simp [external]

private theorem external_cappedBookings (ledger : Ledger) (userId : UserId) (signed : Decimal128) :
    external (ledger.cappedBookings userId signed) = 0 := by
  rw [cappedBookings]
  split
  · simp [external]
  · split <;> simp [external]

/-! ## One call -/

theorem fee_nonneg {fee : Decimal128} {first : Option String}
    (valid : first.or (requireFee fee) = none) : 0 ≤ fee := by
  have accepted := (Option.or_eq_none_iff.1 valid).2
  rw [requireFee] at accepted
  split at accepted
  · cases accepted
  · rename_i nonneg
    exact not_lt.1 (mt Decimal128.isNegative_iff.2 nonneg)

/-- The profit that a call settles with nobody. -/
def settledProfit : LedgerCall → Decimal128
  | .closePositionSettled _ _ realizedPnl _ _ _ => realizedPnl
  | _ => 0

/-- A call posts what it brings in, and the profit it settles with nobody. -/
theorem netTotal_postings {call : LedgerCall} (valid : call.invalid = none) :
    netTotal (ledger.postings call) = external (ledger.bookings call) + settledProfit call := by
  cases call with
  | deposit userId amount key timestamp => simp [postings, bookings, external, settledProfit]
  | withdraw userId amount key timestamp => simp [postings, bookings, external, settledProfit]
  | transfer userId fromWallet toWallet amount key timestamp =>
      simp [postings, bookings, external, settledProfit]
  | freezeForOrder userId wallet amount key timestamp =>
      simp [postings, bookings, external, settledProfit]
  | unfreezeOrder userId wallet amount key timestamp =>
      simp [postings, bookings, external, settledProfit]
  | openPosition userId marginAmount fee key timestamp =>
      have booked : external (ledger.bookings (.openPosition userId marginAmount fee key
          timestamp)) = external (feeBookings userId .frozen fee) := by
        simp [bookings, external]
      rw [booked, external_feeBookings]
      simp only [postings, settledProfit, netTotal_append, netTotal_feePostings (fee_nonneg valid),
        netTotal_cons, netTotal_nil]
      abel
  | closePosition userId marginReleased realizedPnl fee counterpartyId key timestamp =>
      simp only [postings, bookings, settledProfit, external_closeBookings, netTotal_append,
        netTotal_feePostings (fee_nonneg valid), netTotal_pnlPostings, netTotal_cons, netTotal_nil]
      abel
  | closePositionSettled userId marginReleased realizedPnl fee key timestamp =>
      simp only [postings, bookings, settledProfit, external_closeBookings, netTotal_append,
        netTotal_feePostings (fee_nonneg valid), netTotal_cons, netTotal_nil]
      abel
  | liquidate userId marginSeized surplus key timestamp =>
      have booked : external (ledger.bookings (.liquidate userId marginSeized surplus key
          timestamp)) = external (surplusBookings surplus) := by
        simp [bookings, external]
      rw [booked, external_surplusBookings]
      simp [postings, settledProfit, netTotal_surplusPostings]
  | settleFunding userId payment key timestamp =>
      simp [postings, bookings, settledProfit, netTotal_fundingPostings, external_fundingBookings]
  | settleFundingChecked userId symbol period payment timestamp =>
      simp [postings, bookings, settledProfit, netTotal_fundingPostings, external_fundingBookings]
  | settleRealizedPnlCapped userId signed key timestamp =>
      simp [postings, bookings, settledProfit, netTotal_cappedPostings, external_cappedBookings]
  | getOrCreateAccount userId => rfl

/-- The call settles no profit, or it does not get past its checks. -/
def SettlesNothing (ledger : Ledger) (call : LedgerCall) : Prop :=
  ∀ key, Accepts ledger call key → settledProfit call = 0

/-- A call keeps the total exactly when it settles no profit with nobody. -/
theorem perform_balanced_iff (balanced : ledger.Balanced) (call : LedgerCall) :
    (ledger.perform call).1.Balanced ↔ ledger.SettlesNothing call := by
  have outcome := perform_outcome ledger call
  generalize ledger.perform call = next at outcome
  cases outcome with
  | refused invalid =>
      refine iff_of_true balanced fun key accepts => ?_
      exact absurd (invalid.symm.trans accepts.valid) (Option.some_ne_none _)
  | idle idle => exact iff_of_true balanced fun key accepts => absurd idle accepts.active
  | repeated keyed used =>
      refine iff_of_true balanced fun other accepts => ?_
      obtain rfl := Option.some.inj (keyed.symm.trans accepts.keyed)
      exact absurd used accepts.unused
  | opened same =>
      subst same
      exact iff_of_true (((effect_getOrCreateAccount ledger _).balanced_iff balanced).2 rfl)
        fun _ _ => rfl
  | orphaned fresh missing =>
      exact iff_of_true balanced fun key accepts => absurd missing accepts.known
  | short known uncovered effect =>
      exact iff_of_true ((effect.balanced_iff balanced).2 rfl) fun key accepts =>
        absurd accepts.covered uncovered
  | panicked same accepts overdraws effect =>
      subst same
      exact iff_of_true ((effect.balanced_iff balanced).2 (by simp)) fun _ _ => rfl
  | performed accepts within effect =>
      rw [effect.balanced_iff balanced, netTotal_postings accepts.valid, add_eq_left]
      exact ⟨fun nothing _ _ => nothing, fun nothing => nothing _ accepts⟩

/-! ## Every run -/

/-- User 1 opens a position with a margin of 100 and closes it with a profit. -/
def closeWithProfit (realizedPnl : Decimal128) : List LedgerCall :=
  let hundred := Decimal128.ofInt 100
  [.deposit 1 hundred "deposit" 1, .transfer 1 .funding .futures hundred "transfer" 2,
    .freezeForOrder 1 .futures hundred "freeze" 3, .openPosition 1 hundred 0 "open" 4,
    .closePositionSettled 1 hundred realizedPnl 0 "close" 5]

/-- A settled profit of 10 appears out of nowhere. -/
theorem unbalanced_closeWithProfit :
    (run step Ledger.new (closeWithProfit (.ofInt 10))).1.verifyGlobalInvariant ≠ .ok () := by
  rw [Ne, verifyGlobalInvariant_iff]
  unfold Balanced
  decide +kernel

/-- Whatever calls have been made, the total of all balances is deposits minus withdrawals,
as long as `close_position_settled` has been carried out for zero profits only. -/
theorem conserved {calls : List LedgerCall}
    (meet : StepsMeet step SettlesNothing Ledger.new calls) :
    (run step Ledger.new calls).1.verifyGlobalInvariant = .ok () := by
  rw [verifyGlobalInvariant_iff]
  refine meet.run_keeps (fun ledger call nothing balanced => ?_) balanced_new
  exact (perform_balanced_iff balanced call).2 nothing

theorem conserved_closeWithProfit :
    (run step Ledger.new (closeWithProfit 0)).1.verifyGlobalInvariant = .ok () := by
  refine conserved (StepsMeet.of_forall fun ledger call member key accepts => ?_)
  simp only [closeWithProfit, List.mem_cons, List.not_mem_nil, or_false] at member
  rcases member with rfl | rfl | rfl | rfl | rfl <;> rfl

end Ledger
end Exg
