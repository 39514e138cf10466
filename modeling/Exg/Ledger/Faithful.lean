import Exg.Ledger.Solvency

/-!
# The journal tells the balances

A journal entry takes its amount from one slot and adds it to another; the outer side of a
deposit or a withdrawal is no slot.  The journal is faithful when every balance is what its
entries credit less what they debit.  Three calls break this: a funding payment, which is
pooled in one system wallet and journaled against another, a profit settled with escrow,
which is journaled and not moved, and a liquidation that stops half-way.
-/

namespace Exg

open Support

/-- The slot that an entry names; user 0 is the system. -/
def slotOf (userId : UserId) (wallet : WalletType) (field : BalanceField) : Slot :=
  if userId = systemUserId then .system wallet else .user userId wallet field

namespace Booking

/-- The slot that loses the amount, except the outside of a deposit. -/
def debitSlot (booking : Booking) : Option Slot :=
  if booking.1 = .deposit then none
  else some (slotOf booking.2.debitUser booking.2.debitWallet booking.2.debitField)

/-- The slot that gains the amount, except the outside of a withdrawal. -/
def creditSlot (booking : Booking) : Option Slot :=
  if booking.1 = .withdrawal then none
  else some (slotOf booking.2.creditUser booking.2.creditWallet booking.2.creditField)

end Booking

/-- The sum of the entries that credit a slot. -/
def credited (bookings : List Booking) (slot : Slot) : Decimal128 :=
  (bookings.map fun booking =>
    if Booking.creditSlot booking = some slot then booking.2.amount else 0).sum

/-- The sum of the entries that debit a slot. -/
def debited (bookings : List Booking) (slot : Slot) : Decimal128 :=
  (bookings.map fun booking =>
    if Booking.debitSlot booking = some slot then booking.2.amount else 0).sum

/-- What the entries make of a slot. -/
def booked (bookings : List Booking) (slot : Slot) : Decimal128 :=
  credited bookings slot - debited bookings slot

@[simp]
theorem booked_nil (slot : Slot) : booked [] slot = 0 := rfl

private theorem booked_cons (booking : Booking) (bookings : List Booking) (slot : Slot) :
    booked (booking :: bookings) slot =
      (if Booking.creditSlot booking = some slot then booking.2.amount else 0) -
        (if Booking.debitSlot booking = some slot then booking.2.amount else 0) +
        booked bookings slot := by
  simp only [booked, credited, debited, List.map_cons, List.sum_cons]
  abel

private theorem booked_append (first second : List Booking) (slot : Slot) :
    booked (first ++ second) slot = booked first slot + booked second slot := by
  simp only [booked, credited, debited, List.map_append, List.sum_append]
  abel

namespace Ledger

variable {ledger : Ledger}

/-- Every entry has a positive amount and every balance is what the entries make of it. -/
structure Faithful (ledger : Ledger) : Prop where
  positive : ∀ entry ∈ ledger.journal, 0 < entry.amount
  rebuilt : ∀ slot, ledger.holding slot = booked (ledger.journal.map JournalEntry.booking) slot

private theorem faithful_new : new.Faithful where
  positive := by simp [new]
  rebuilt slot := by
    rw [holding_new]
    rfl

/-- An effect keeps a faithful journal exactly when it books what it posts. -/
theorem Effect.rebuilt_iff {before after : Ledger} {postings : List Posting}
    {bookings : List Booking} (effect : Effect before after postings bookings)
    (faithful : before.Faithful) (slot : Slot) :
    after.holding slot = booked (after.journal.map JournalEntry.booking) slot ↔
      netAt postings slot = booked bookings slot := by
  obtain ⟨entries, appended, kinds⟩ := effect.journal
  rw [effect.holding, appended, List.map_append, booked_append, kinds, faithful.rebuilt,
    add_right_inj]

theorem Effect.faithful {before after : Ledger} {postings : List Posting}
    {bookings : List Booking} (effect : Effect before after postings bookings)
    (faithful : before.Faithful) (positive : ∀ booking ∈ bookings, 0 < booking.2.amount)
    (same : ∀ slot, netAt postings slot = booked bookings slot) : after.Faithful where
  positive := by
    obtain ⟨entries, appended, kinds⟩ := effect.journal
    subst kinds
    intro entry member
    rw [appended, List.mem_append] at member
    rcases member with earlier | new
    · exact faithful.positive entry earlier
    · exact positive _ (List.mem_map_of_mem new)
  rebuilt slot := (effect.rebuilt_iff faithful slot).2 (same slot)

/-- The call names no user by the id that the journal keeps for the system. -/
def OfUsers : LedgerCall → Prop
  | .deposit userId _ _ _ | .withdraw userId _ _ _ | .transfer userId _ _ _ _ _
  | .freezeForOrder userId _ _ _ _ | .unfreezeOrder userId _ _ _ _ | .openPosition userId _ _ _ _
  | .closePositionSettled userId _ _ _ _ _ | .liquidate userId _ _ _ _
  | .settleFunding userId _ _ _ | .settleFundingChecked userId _ _ _ _
  | .settleRealizedPnlCapped userId _ _ _ | .getOrCreateAccount userId => userId ≠ systemUserId
  | .closePosition userId _ _ _ counterpartyId _ _ =>
      userId ≠ systemUserId ∧ counterpartyId ≠ systemUserId

/-- The call journals what it moves, or it does not get past its checks: it settles neither
funding nor a profit with escrow, and no liquidation stops half-way. -/
def Journals (ledger : Ledger) (call : LedgerCall) : Prop :=
  ∀ key, Accepts ledger call key →
    match call with
    | .settleFunding _ _ _ _ | .settleFundingChecked _ _ _ _ _ => False
    | .closePositionSettled _ _ realizedPnl _ _ _ => realizedPnl = 0
    | call => ¬ledger.Overdraws call

/-! ## What the shared parts book -/

section Parts

variable {userId other : UserId} {slot : Slot}

private theorem slotOf_user (user : userId ≠ systemUserId) (wallet : WalletType)
    (field : BalanceField) :
    slotOf userId wallet field = .user userId wallet field := if_neg user

@[simp]
theorem slotOf_system (wallet : WalletType) (field : BalanceField) :
    slotOf systemUserId wallet field = .system wallet := if_pos rfl

/-- An entry between two slots. -/
theorem booked_single {entryType : JournalEntryType} {movement : Movement}
    (noDeposit : entryType ≠ .deposit) (noWithdrawal : entryType ≠ .withdrawal) :
    booked [(entryType, movement)] slot =
      netAt [(slotOf movement.debitUser movement.debitWallet movement.debitField, -movement.amount),
        (slotOf movement.creditUser movement.creditWallet movement.creditField, movement.amount)]
        slot := by
  rw [booked_cons]
  simp only [Booking.creditSlot, Booking.debitSlot, noDeposit, noWithdrawal, if_false,
    Option.some.injEq, booked_nil, netAt_cons, netAt_nil, add_zero]
  split <;> split <;> abel

private theorem booked_feeBookings (user : userId ≠ systemUserId) (field : BalanceField)
    (fee : Decimal128) (nonneg : 0 ≤ fee) :
    booked (feeBookings userId field fee) slot =
      netAt (feePostings fee) slot + netAt [(.user userId .futures field, -fee)] slot := by
  rw [feeBookings, feePostings]
  split
  · rw [booked_single (by simp) (by simp)]
    simp only [slotOf_user user, slotOf_system, netAt_cons, netAt_nil]
    abel
  · rename_i zero
    rw [Decimal128.isPositive_iff, not_lt] at zero
    simp [le_antisymm zero nonneg]

/-- The profit of a closed position, booked between a slot and the user's available. -/
theorem booked_pnlBookings (user : userId ≠ systemUserId) (otherWallet : WalletType)
    (otherField : BalanceField) (realizedPnl : Decimal128) :
    booked (pnlBookings userId other otherWallet otherField realizedPnl) slot =
      netAt [(slotOf other otherWallet otherField, -realizedPnl),
        (.user userId .futures .available, realizedPnl)] slot := by
  rw [pnlBookings]
  split
  · rename_i zero
    simp [Decimal128.isZero_iff.1 zero]
  · split
    · rename_i profit
      rw [booked_single (by simp) (by simp)]
      simp only [slotOf_user user, Decimal128.abs_of_nonneg (Decimal128.isPositive_iff.1 profit).le]
    · rename_i noProfit
      rw [Decimal128.isPositive_iff, not_lt] at noProfit
      rw [booked_single (by simp) (by simp)]
      simp only [slotOf_user user, Decimal128.abs_of_nonpos noProfit, netAt_cons, netAt_nil,
        neg_neg]
      abel

private theorem booked_closeBookings (user : userId ≠ systemUserId) (otherWallet : WalletType)
    (otherField : BalanceField) (marginReleased realizedPnl fee : Decimal128) (nonneg : 0 ≤ fee) :
    booked (closeBookings userId other otherWallet otherField marginReleased realizedPnl fee) slot =
      netAt [(.user userId .futures .margin, -marginReleased),
        (.user userId .futures .available, marginReleased + realizedPnl - fee)] slot +
        netAt [(slotOf other otherWallet otherField, -realizedPnl)] slot +
        netAt (feePostings fee) slot := by
  rw [closeBookings, booked_append, booked_append, booked_single (by simp) (by simp),
    booked_pnlBookings user, booked_feeBookings user _ _ nonneg]
  simp only [slotOf_user user, netAt_cons, netAt_nil, add_zero]
  by_cases available : Slot.user userId .futures .available = slot
  · simp only [available, if_true]
    abel
  · simp only [available, if_false]
    abel

private theorem netAt_pnlPostings (counterpartyId : UserId) (realizedPnl : Decimal128) :
    netAt (pnlPostings counterpartyId realizedPnl) slot =
      netAt [(.user counterpartyId .futures .margin, -realizedPnl)] slot := by
  rw [pnlPostings]
  split
  · rfl
  · rename_i noProfit
    rw [Decimal128.isPositive_iff, not_lt] at noProfit
    split
    · rw [Decimal128.abs_of_nonpos noProfit]
    · rename_i noLoss
      rw [Decimal128.isNegative_iff, not_lt] at noLoss
      simp [le_antisymm noProfit noLoss]

private theorem booked_surplusBookings (surplus : Decimal128) :
    booked (surplusBookings surplus) slot = netAt (surplusPostings surplus) slot := by
  rw [surplusBookings, surplusPostings]
  split
  · rw [booked_single (by simp) (by simp)]
    simp only [slotOf_system]
  · split
    · rw [booked_single (by simp) (by simp)]
      simp only [slotOf_system]
    · rfl

private theorem booked_cappedBookings (user : userId ≠ systemUserId) (signed : Decimal128)
    (nonneg : 0 ≤ ledger.holding (.user userId .funding .available)) :
    booked (ledger.cappedBookings userId signed) slot =
      netAt (ledger.cappedPostings userId signed) slot := by
  have cover : 0 ≤ ledger.cover userId signed := le_min (abs_nonneg signed) nonneg
  rw [cappedBookings, cappedPostings]
  split
  · rw [booked_single (by simp) (by simp)]
    simp only [slotOf_user user, slotOf_system, netAt_cons, netAt_nil]
    abel
  · split
    · rw [booked_single (by simp) (by simp)]
      simp only [slotOf_user user, slotOf_system]
    · rename_i nothing
      rw [Decimal128.isPositive_iff, not_lt] at nothing
      simp [le_antisymm nothing cover]

end Parts

/-! ## One call -/

section Calls

variable {call : LedgerCall} {key : String} {userId : UserId}

/-- A call that journals what it moves books its postings. -/
theorem netAt_postings (accepts : Accepts ledger call key) (users : OfUsers call)
    (journals : ledger.Journals call)
    (nonneg : ∀ userId, 0 ≤ ledger.holding (.user userId .funding .available)) (slot : Slot) :
    netAt (ledger.postings call) slot = booked (ledger.bookings call) slot := by
  have journaled := journals key accepts
  cases call with
  | deposit userId amount key timestamp =>
      have user : userId ≠ systemUserId := users
      simp [postings, bookings, booked_cons, Booking.creditSlot, Booking.debitSlot,
        slotOf_user user]
  | withdraw userId amount key timestamp =>
      have user : userId ≠ systemUserId := users
      simp only [postings, bookings, booked_cons, Booking.creditSlot, Booking.debitSlot,
        slotOf_user user, netAt_cons, netAt_nil, booked_nil, if_true, reduceCtorEq, if_false,
        Option.some.injEq, zero_sub, add_zero]
      split
      · rfl
      · exact neg_zero.symm
  | transfer userId fromWallet toWallet amount key timestamp =>
      have user : userId ≠ systemUserId := users
      rw [bookings, booked_single (by simp) (by simp)]
      simp only [postings, slotOf_user user]
  | freezeForOrder userId wallet amount key timestamp =>
      have user : userId ≠ systemUserId := users
      rw [bookings, booked_single (by simp) (by simp)]
      simp only [postings, slotOf_user user]
  | unfreezeOrder userId wallet amount key timestamp =>
      have user : userId ≠ systemUserId := users
      rw [bookings, booked_single (by simp) (by simp)]
      simp only [postings, slotOf_user user]
  | openPosition userId marginAmount fee key timestamp =>
      have user : userId ≠ systemUserId := users
      rw [bookings, ← List.singleton_append, booked_append, booked_single (by simp) (by simp),
        booked_feeBookings user _ _ (fee_nonneg accepts.valid)]
      simp only [postings, slotOf_user user, netAt_append, netAt_cons, netAt_nil, add_zero]
      by_cases frozen : Slot.user userId .futures .frozen = slot
      · simp only [frozen, if_true]
        abel
      · simp only [frozen, if_false]
        abel
  | closePosition userId marginReleased realizedPnl fee counterpartyId key timestamp =>
      rw [bookings, booked_closeBookings users.1 _ _ _ _ _ (fee_nonneg accepts.valid), postings,
        netAt_append, netAt_append, netAt_pnlPostings, slotOf_user users.2]
  | closePositionSettled userId marginReleased realizedPnl fee key timestamp =>
      have nothing : realizedPnl = 0 := journaled
      subst nothing
      rw [bookings, booked_closeBookings users _ _ _ _ _ (fee_nonneg accepts.valid), postings,
        netAt_append]
      simp [netAt_cons]
  | liquidate userId marginSeized surplus key timestamp =>
      have user : userId ≠ systemUserId := users
      rw [bookings, ← List.singleton_append, booked_append, booked_single (by simp) (by simp),
        booked_surplusBookings, postings, netAt_append]
      simp only [slotOf_user user, slotOf_system]
  | settleFunding userId payment key timestamp => exact journaled.elim
  | settleFundingChecked userId symbol period payment timestamp => exact journaled.elim
  | settleRealizedPnlCapped userId signed key timestamp =>
      exact (booked_cappedBookings users signed (nonneg userId)).symm
  | getOrCreateAccount userId => rfl

theorem abs_pos {value : Decimal128} (nonzero : value ≠ 0) : 0 < value.abs := by
  rw [Decimal128.lt_iff_raw]
  have raw : value.raw ≠ 0 := fun zero => nonzero (Decimal128.ext zero)
  exact Int.natCast_pos.2 (Int.natAbs_pos.2 raw)

private theorem feeBookings_pos (userId : UserId) (field : BalanceField) (fee : Decimal128) :
    ∀ booking ∈ feeBookings userId field fee, 0 < booking.2.amount := by
  rw [feeBookings]
  split
  · rename_i positive
    simpa using Decimal128.isPositive_iff.1 positive
  · simp

private theorem closeBookings_pos {userId other : UserId} {otherWallet : WalletType}
    {otherField : BalanceField} {marginReleased realizedPnl fee : Decimal128}
    (positive : 0 < marginReleased) :
    ∀ booking ∈ closeBookings userId other otherWallet otherField marginReleased realizedPnl fee,
      0 < booking.2.amount := by
  have profit : ∀ booking ∈ pnlBookings userId other otherWallet otherField realizedPnl,
      0 < booking.2.amount := by
    rw [pnlBookings]
    split
    · simp
    · rename_i nonzero
      have amount := abs_pos (mt Decimal128.isZero_iff.2 nonzero)
      split <;> simpa using amount
  intro booking member
  rw [closeBookings, List.mem_append, List.mem_append, List.mem_singleton] at member
  rcases member with (rfl | settled) | fee
  · exact positive
  · exact profit booking settled
  · exact feeBookings_pos _ _ _ booking fee

private theorem fundingBookings_pos {userId : UserId} {payment : Decimal128}
    (nonzero : payment ≠ 0) :
    ∀ booking ∈ ledger.fundingBookings userId payment, 0 < booking.2.amount := by
  rw [fundingBookings]
  split
  · intro booking member
    rcases List.mem_append.1 member with available | margin
    · split at available
      · rename_i positive
        rw [List.mem_singleton.1 available]
        exact Decimal128.isPositive_iff.1 positive
      · cases available
    · split at margin
      · rename_i positive
        rw [List.mem_singleton.1 margin]
        exact Decimal128.isPositive_iff.1 positive
      · cases margin
  · simpa using abs_pos nonzero

/-- No call books an amount that is not positive. -/
theorem bookings_pos (accepts : Accepts ledger call key) :
    ∀ booking ∈ ledger.bookings call, 0 < booking.2.amount := by
  have valid := accepts.valid
  cases call with
  | deposit userId amount key timestamp => simpa [bookings] using amount_pos valid
  | withdraw userId amount key timestamp => simpa [bookings] using amount_pos valid
  | transfer userId fromWallet toWallet amount key timestamp =>
      simpa [bookings] using amount_pos valid
  | freezeForOrder userId wallet amount key timestamp => simpa [bookings] using amount_pos valid
  | unfreezeOrder userId wallet amount key timestamp => simpa [bookings] using amount_pos valid
  | openPosition userId marginAmount fee key timestamp =>
      exact List.forall_mem_cons.2 ⟨amount_pos (Option.or_eq_none_iff.1 valid).1,
        feeBookings_pos _ _ _⟩
  | closePosition userId marginReleased realizedPnl fee counterpartyId key timestamp =>
      exact closeBookings_pos (amount_pos (Option.or_eq_none_iff.1 valid).1)
  | closePositionSettled userId marginReleased realizedPnl fee key timestamp =>
      exact closeBookings_pos (amount_pos (Option.or_eq_none_iff.1 valid).1)
  | liquidate userId marginSeized surplus key timestamp =>
      refine List.forall_mem_cons.2 ⟨amount_pos valid, ?_⟩
      rw [surplusBookings]
      split
      · rename_i gain
        simpa using Decimal128.isPositive_iff.1 gain
      · split
        · rename_i loss
          simpa using abs_pos (Decimal128.isNegative_iff.1 loss).ne
        · simp
  | settleFunding userId payment key timestamp => exact fundingBookings_pos accepts.active
  | settleFundingChecked userId symbol period payment timestamp =>
      exact fundingBookings_pos accepts.active
  | settleRealizedPnlCapped userId signed key timestamp =>
      rw [bookings, cappedBookings]
      split
      · rename_i gain
        simpa using Decimal128.isPositive_iff.1 gain
      · split
        · rename_i covered
          simpa using Decimal128.isPositive_iff.1 covered
        · simp
  | getOrCreateAccount userId => simp [bookings]

private theorem Faithful.of_unmoved {next : Ledger} (faithful : ledger.Faithful)
    (unmoved : Unmoved ledger next) : next.Faithful where
  positive := by
    rw [unmoved.2.1]
    exact faithful.positive
  rebuilt slot := by rw [unmoved.1, unmoved.2.1, faithful.rebuilt]

theorem Faithful.addKey (faithful : ledger.Faithful) (key : String) :
    (ledger.addKey key).Faithful where
  positive := faithful.positive
  rebuilt slot := (holding_addKey key slot).trans (faithful.rebuilt slot)

/-- A call that journals what it moves keeps the journal faithful. -/
theorem perform_faithful (faithful : ledger.Faithful) (users : OfUsers call)
    (journals : ledger.Journals call)
    (nonneg : ∀ userId, 0 ≤ ledger.holding (.user userId .funding .available)) :
    (ledger.perform call).1.Faithful := by
  have outcome := perform_outcome ledger call
  generalize ledger.perform call = next at outcome
  cases outcome with
  | refused invalid => exact faithful
  | idle idle => exact faithful
  | repeated keyed used => exact faithful
  | opened same => exact faithful.of_unmoved (effect_getOrCreateAccount ledger _).unmoved
  | orphaned fresh missing => exact faithful.addKey _
  | short known uncovered effect => exact faithful.of_unmoved effect.unmoved
  | panicked same accepts overdraws effect =>
      subst same
      exact absurd overdraws (journals _ accepts)
  | performed accepts within effect =>
      exact effect.faithful (faithful.addKey _) (bookings_pos accepts)
        (netAt_postings accepts users journals nonneg)

/-- A payment moves the pool and is journaled elsewhere. -/
theorem fundingPostings_pool (user : userId ≠ systemUserId) (payment : Decimal128) :
    netAt (ledger.fundingPostings userId payment) (.system .funding) = payment ∧
      booked (ledger.fundingBookings userId payment) (.system .funding) = 0 := by
  constructor
  · rw [fundingPostings]
    split
    · split <;> simp [netAt_cons]
    · simp [netAt_cons]
  · rw [fundingBookings]
    split
    · rw [booked_append]
      split <;> split <;>
        simp [booked_cons, Booking.creditSlot, Booking.debitSlot, slotOf_user user]
    · simp [booked_cons, Booking.creditSlot, Booking.debitSlot, slotOf_user user]

/-- The condition is exact: a call that does not meet it leaves a balance that the journal
does not tell. -/
theorem unfaithful_of_not_journals (faithful : ledger.Faithful) (users : OfUsers call)
    (fails : ¬ledger.Journals call) : ¬(ledger.perform call).1.Faithful := by
  intro told
  refine fails fun key accepts => ?_
  have keyed := faithful.addKey key
  cases call with
  | settleFunding userId payment key timestamp =>
      have same := ((accepts.effect id).rebuilt_iff keyed _).1 (told.rebuilt (.system .funding))
      obtain ⟨posted, journaled⟩ := fundingPostings_pool users payment
      exact accepts.active (posted.symm.trans (same.trans journaled))
  | settleFundingChecked userId symbol period payment timestamp =>
      have same := ((accepts.effect id).rebuilt_iff keyed _).1 (told.rebuilt (.system .funding))
      obtain ⟨posted, journaled⟩ := fundingPostings_pool users payment
      exact accepts.active (posted.symm.trans (same.trans journaled))
  | closePositionSettled userId marginReleased realizedPnl fee key timestamp =>
      have same := ((accepts.effect id).rebuilt_iff keyed _).1 (told.rebuilt (.system .escrow))
      rw [bookings, booked_closeBookings users _ _ _ _ _ (fee_nonneg accepts.valid), postings,
        netAt_append, netAt_feePostings (by simp)] at same
      simpa [netAt_cons] using same
  | liquidate userId marginSeized surplus key timestamp =>
      intro overdraws
      have outcome := perform_outcome ledger (.liquidate userId marginSeized surplus key timestamp)
      generalize ledger.perform (.liquidate userId marginSeized surplus key timestamp) = next
        at outcome told
      cases outcome with
      | refused invalid => exact Option.some_ne_none _ (invalid.symm.trans accepts.valid)
      | idle idle => exact accepts.active idle
      | repeated other used =>
          obtain rfl := Option.some.inj (other.symm.trans accepts.keyed)
          exact accepts.unused used
      | opened same => cases same
      | orphaned fresh missing => exact accepts.known missing
      | short known uncovered effect => exact uncovered accepts.covered
      | panicked same other draws effect =>
          cases same
          have moved := (effect.rebuilt_iff (faithful.addKey _) _).1
            (told.rebuilt (.user userId .futures .margin))
          simp only [netAt_cons, netAt_nil, if_true, reduceCtorEq, if_false, add_zero,
            booked_nil] at moved
          exact (amount_pos accepts.valid).ne' (neg_eq_zero.1 moved)
      | performed other within effect => exact within overdraws
  | _ => exact id

end Calls

/-! ## Every run -/

/-- User 1 pays funding out of a Futures wallet. -/
def payFundingCalls (payment : Decimal128) : List LedgerCall :=
  [.deposit 1 (.ofInt 100) "deposit" 1, .transfer 1 .funding .futures (.ofInt 100) "transfer" 2,
    .settleFunding 1 payment "funding" 3]

/-- A funding payment of 10 is pooled in the system's Funding account; the journal has it in
the system's Futures wallet. -/
theorem unfaithful_payFundingCalls :
    ¬(run step Ledger.new (payFundingCalls (.ofInt 10))).1.Faithful := by
  intro faithful
  exact absurd (faithful.rebuilt (.system .funding)) (by decide +kernel)

/-- Whatever calls have been made for users, the balances can be rebuilt from the journal, as
long as no funding was settled, no profit settled with escrow and no liquidation stopped. -/
theorem faithful_journal {calls : List LedgerCall}
    (meet : StepsMeet step (fun ledger call => OfUsers call ∧ ledger.Journals call) Ledger.new
      calls) :
    (run step Ledger.new calls).1.Faithful := by
  have kept : ∀ ledger call, OfUsers call ∧ Journals ledger call →
      (Faithful ledger ∧ ∀ userId, 0 ≤ ledger.holding (.user userId .funding .available)) →
      (step ledger call).1.Faithful ∧
        ∀ userId, 0 ≤ (step ledger call).1.holding (.user userId .funding .available) := by
    rintro ledger call ⟨users, journals⟩ ⟨faithful, nonneg⟩
    refine ⟨perform_faithful faithful users journals nonneg, fun userId => ?_⟩
    refine perform_nonneg (by simp) (fun inFutures => ?_) (nonneg userId)
    exact absurd inFutures (by simp [Slot.InFutures])
  have reached := meet.run_keeps kept ⟨faithful_new, fun userId => (holding_new _).ge⟩
  exact reached.1

theorem faithful_journal_payFundingCalls :
    (run step Ledger.new (payFundingCalls 0)).1.Faithful := by
  refine faithful_journal ⟨⟨Nat.one_ne_zero, fun _ _ => id⟩, ⟨Nat.one_ne_zero, fun _ _ => id⟩,
    ⟨Nat.one_ne_zero, fun _ accepts => ?_⟩, trivial⟩
  exact accepts.active rfl

end Ledger
end Exg
