import Exg.Ledger.Effects

/-!
# How a call can end

A call that passes its checks adds its postings to the slots and its bookings to the
journal.  `perform_outcome` lists every other way a call can end: refused, repeated, without
an account, short of money or, for a liquidation, in a panic.
-/

namespace Exg

open Support

namespace Ledger

variable {ledger : Ledger}

/-! ## Postings and bookings of a call -/

def feePostings (fee : Decimal128) : List Posting :=
  if fee.isPositive then [(.system .feeCollection, fee)] else []

def feeBookings (userId : UserId) (field : BalanceField) (fee : Decimal128) : List Booking :=
  if fee.isPositive then
    [(.tradeFee, ⟨userId, .futures, field, systemUserId, .feeCollection, .available, fee⟩)]
  else
    []

/-- What a counterparty pays or receives. -/
def pnlPostings (counterpartyId : UserId) (realizedPnl : Decimal128) : List Posting :=
  if realizedPnl.isPositive then
    [(.user counterpartyId .futures .margin, -realizedPnl)]
  else if realizedPnl.isNegative then
    [(.user counterpartyId .futures .margin, realizedPnl.abs)]
  else
    []

def pnlBookings (userId other : UserId) (otherWallet : WalletType) (otherField : BalanceField)
    (realizedPnl : Decimal128) : List Booking :=
  if realizedPnl.isZero then
    []
  else if realizedPnl.isPositive then
    [(.positionClose,
      ⟨other, otherWallet, otherField, userId, .futures, .available, realizedPnl.abs⟩)]
  else
    [(.positionClose,
      ⟨userId, .futures, .available, other, otherWallet, otherField, realizedPnl.abs⟩)]

def closeBookings (userId other : UserId) (otherWallet : WalletType) (otherField : BalanceField)
    (marginReleased realizedPnl fee : Decimal128) : List Booking :=
  [(.positionClose, ⟨userId, .futures, .margin, userId, .futures, .available, marginReleased⟩)] ++
    pnlBookings userId other otherWallet otherField realizedPnl ++
    feeBookings userId .available fee

def surplusPostings (surplus : Decimal128) : List Posting :=
  if surplus.isPositive then
    [(.system .escrow, -surplus), (.system .insuranceFund, surplus)]
  else if surplus.isNegative then
    [(.system .insuranceFund, -surplus.abs), (.system .escrow, surplus.abs)]
  else
    []

def surplusBookings (surplus : Decimal128) : List Booking :=
  if surplus.isPositive then
    [(.insuranceFundContribution,
      ⟨systemUserId, .escrow, .available, systemUserId, .insuranceFund, .available, surplus⟩)]
  else if surplus.isNegative then
    [(.liquidation,
      ⟨systemUserId, .insuranceFund, .available, systemUserId, .escrow, .available, surplus.abs⟩)]
  else
    []

section Funding

variable (ledger : Ledger) (userId : UserId) (payment : Decimal128)

/-- The part of a funding payment that available covers. -/
def fromAvailable : Decimal128 := min payment (ledger.holding (.user userId .futures .available))

def fromMargin : Decimal128 := payment - ledger.fromAvailable userId payment

def fundingPostings : List Posting :=
  if payment.isPositive then
    [(.user userId .futures .available, -ledger.fromAvailable userId payment)] ++
      (if (ledger.fromMargin userId payment).isPositive then
        [(.user userId .futures .margin, -ledger.fromMargin userId payment)] else []) ++
      [(.system .funding, payment)]
  else
    [(.user userId .futures .available, payment.abs), (.system .funding, payment)]

def fundingBookings : List Booking :=
  if payment.isPositive then
    (if (ledger.fromAvailable userId payment).isPositive then
      [(.fundingPayment, ⟨userId, .futures, .available, systemUserId, .futures, .available,
        ledger.fromAvailable userId payment⟩)] else []) ++
      (if (ledger.fromMargin userId payment).isPositive then
        [(.fundingPayment, ⟨userId, .futures, .margin, systemUserId, .futures, .available,
          ledger.fromMargin userId payment⟩)] else [])
  else
    [(.fundingPayment, ⟨systemUserId, .futures, .available, userId, .futures, .available,
      payment.abs⟩)]

/-- What a capped settlement takes from a user who pays. -/
def cover (signed : Decimal128) : Decimal128 :=
  min signed.abs (ledger.holding (.user userId .funding .available))

def cappedPostings (signed : Decimal128) : List Posting :=
  if signed.isPositive then
    [(.user userId .funding .available, signed), (.system .funding, -signed)]
  else
    [(.user userId .funding .available, -ledger.cover userId signed),
      (.system .funding, ledger.cover userId signed)]

def cappedBookings (signed : Decimal128) : List Booking :=
  if signed.isPositive then
    [(.fundingPayment,
      ⟨systemUserId, .funding, .available, userId, .funding, .available, signed⟩)]
  else if (ledger.cover userId signed).isPositive then
    [(.fundingPayment, ⟨userId, .funding, .available, systemUserId, .funding, .available,
      ledger.cover userId signed⟩)]
  else
    []

end Funding

/-- What a call adds to the slots once it has passed its checks. -/
def postings (ledger : Ledger) : LedgerCall → List Posting
  | .deposit userId amount _ _ => [(.user userId .funding .available, amount)]
  | .withdraw userId amount _ _ => [(.user userId .funding .available, -amount)]
  | .transfer userId fromWallet toWallet amount _ _ =>
      [(.user userId fromWallet .available, -amount), (.user userId toWallet .available, amount)]
  | .freezeForOrder userId wallet amount _ _ =>
      [(.user userId wallet .available, -amount), (.user userId wallet .frozen, amount)]
  | .unfreezeOrder userId wallet amount _ _ =>
      [(.user userId wallet .frozen, -amount), (.user userId wallet .available, amount)]
  | .openPosition userId marginAmount fee _ _ =>
      [(.user userId .futures .frozen, -(marginAmount + fee)),
        (.user userId .futures .margin, marginAmount)] ++ feePostings fee
  | .closePosition userId marginReleased realizedPnl fee counterpartyId _ _ =>
      [(.user userId .futures .margin, -marginReleased),
        (.user userId .futures .available, marginReleased + realizedPnl - fee)] ++
        pnlPostings counterpartyId realizedPnl ++ feePostings fee
  | .closePositionSettled userId marginReleased realizedPnl fee _ _ =>
      [(.user userId .futures .margin, -marginReleased),
        (.user userId .futures .available, marginReleased + realizedPnl - fee)] ++ feePostings fee
  | .liquidate userId marginSeized surplus _ _ =>
      [(.user userId .futures .margin, -marginSeized), (.system .escrow, marginSeized)] ++
        surplusPostings surplus
  | .settleFunding userId payment _ _ => ledger.fundingPostings userId payment
  | .settleFundingChecked userId _ _ payment _ => ledger.fundingPostings userId payment
  | .settleRealizedPnlCapped userId signed _ _ => ledger.cappedPostings userId signed
  | .getOrCreateAccount _ => []

/-- What a call journals once it has passed its checks. -/
def bookings (ledger : Ledger) : LedgerCall → List Booking
  | .deposit userId amount _ _ =>
      [(.deposit, ⟨systemUserId, .funding, .available, userId, .funding, .available, amount⟩)]
  | .withdraw userId amount _ _ =>
      [(.withdrawal, ⟨userId, .funding, .available, systemUserId, .funding, .available, amount⟩)]
  | .transfer userId fromWallet toWallet amount _ _ =>
      [(.transfer, ⟨userId, fromWallet, .available, userId, toWallet, .available, amount⟩)]
  | .freezeForOrder userId wallet amount _ _ =>
      [(.orderFreeze, ⟨userId, wallet, .available, userId, wallet, .frozen, amount⟩)]
  | .unfreezeOrder userId wallet amount _ _ =>
      [(.orderUnfreeze, ⟨userId, wallet, .frozen, userId, wallet, .available, amount⟩)]
  | .openPosition userId marginAmount fee _ _ =>
      (.positionOpen, ⟨userId, .futures, .frozen, userId, .futures, .margin, marginAmount⟩) ::
        feeBookings userId .frozen fee
  | .closePosition userId marginReleased realizedPnl fee counterpartyId _ _ =>
      closeBookings userId counterpartyId .futures .margin marginReleased realizedPnl fee
  | .closePositionSettled userId marginReleased realizedPnl fee _ _ =>
      closeBookings userId systemUserId .escrow .available marginReleased realizedPnl fee
  | .liquidate userId marginSeized surplus _ _ =>
      (.liquidation,
        ⟨userId, .futures, .margin, systemUserId, .escrow, .available, marginSeized⟩) ::
        surplusBookings surplus
  | .settleFunding userId payment _ _ => ledger.fundingBookings userId payment
  | .settleFundingChecked userId _ _ payment _ => ledger.fundingBookings userId payment
  | .settleRealizedPnlCapped userId signed _ _ => ledger.cappedBookings userId signed
  | .getOrCreateAccount _ => []

/-! ## When a call passes its checks -/

namespace LedgerCall

def key? : LedgerCall → Option String
  | .deposit _ _ key _ | .withdraw _ _ key _ | .transfer _ _ _ _ key _
  | .freezeForOrder _ _ _ key _ | .unfreezeOrder _ _ _ key _ | .openPosition _ _ _ key _
  | .closePosition _ _ _ _ _ key _ | .closePositionSettled _ _ _ _ key _
  | .liquidate _ _ _ key _ | .settleFunding _ _ key _
  | .settleRealizedPnlCapped _ _ key _ => some key
  | .settleFundingChecked userId symbol fundingPeriodId _ _ =>
      some (fundingPeriodKey fundingPeriodId userId symbol)
  | .getOrCreateAccount _ => none

/-- The text with which the arguments alone are refused. -/
def invalid : LedgerCall → Option String
  | .deposit _ amount _ _ => requirePositive amount "deposit amount must be positive"
  | .withdraw _ amount _ _ => requirePositive amount "withdrawal amount must be positive"
  | .transfer _ _ _ amount _ _ => requirePositive amount "transfer amount must be positive"
  | .freezeForOrder _ _ amount _ _ => requirePositive amount "freeze amount must be positive"
  | .unfreezeOrder _ _ amount _ _ => requirePositive amount "unfreeze amount must be positive"
  | .openPosition _ marginAmount fee _ _ =>
      (requirePositive marginAmount "margin amount must be positive").or (requireFee fee)
  | .closePosition _ marginReleased _ fee _ _ _
  | .closePositionSettled _ marginReleased _ fee _ _ =>
      (requirePositive marginReleased "margin released must be positive").or (requireFee fee)
  | .liquidate _ marginSeized _ _ _ => requirePositive marginSeized "margin seized must be positive"
  | _ => none

/-- A settlement of nothing returns before it looks at its key. -/
def Idle : LedgerCall → Prop
  | .settleFunding _ amount _ _ | .settleFundingChecked _ _ _ amount _
  | .settleRealizedPnlCapped _ amount _ _ => amount = 0
  | _ => False

instance (call : LedgerCall) : Decidable call.Idle := by
  cases call <;> unfold Idle <;> infer_instance

end LedgerCall

/-- An account the call looks up does not exist. -/
def Missing (ledger : Ledger) : LedgerCall → Prop
  | .withdraw userId _ _ _ | .transfer userId _ _ _ _ _ | .freezeForOrder userId _ _ _ _
  | .unfreezeOrder userId _ _ _ _ | .openPosition userId _ _ _ _
  | .closePositionSettled userId _ _ _ _ _ | .liquidate userId _ _ _ _
  | .settleFunding userId _ _ _ | .settleFundingChecked userId _ _ _ _
  | .settleRealizedPnlCapped userId _ _ _ => userId ∉ ledger.accounts
  | .closePosition userId marginReleased realizedPnl _ counterpartyId _ _ =>
      userId ∉ ledger.accounts ∨
        (marginReleased ≤ ledger.holding (.user userId .futures .margin) ∧ 0 < realizedPnl ∧
          counterpartyId ∉ ledger.accounts)
  | .deposit _ _ _ _ | .getOrCreateAccount _ => False

/-- The balances cover what the call checks them for. -/
def Covered (ledger : Ledger) : LedgerCall → Prop
  | .withdraw userId amount _ _ => amount ≤ ledger.holding (.user userId .funding .available)
  | .transfer userId fromWallet _ amount _ _ =>
      amount ≤ ledger.holding (.user userId fromWallet .available)
  | .freezeForOrder userId wallet amount _ _ =>
      amount ≤ ledger.holding (.user userId wallet .available)
  | .unfreezeOrder userId wallet amount _ _ =>
      amount ≤ ledger.holding (.user userId wallet .frozen)
  | .openPosition userId marginAmount fee _ _ =>
      marginAmount + fee ≤ ledger.holding (.user userId .futures .frozen)
  | .closePosition userId marginReleased realizedPnl _ counterpartyId _ _ =>
      marginReleased ≤ ledger.holding (.user userId .futures .margin) ∧
        (0 < realizedPnl →
          realizedPnl ≤ ledger.holding (.user counterpartyId .futures .margin))
  | .closePositionSettled userId marginReleased _ _ _ _ =>
      marginReleased ≤ ledger.holding (.user userId .futures .margin)
  | .liquidate userId marginSeized surplus _ _ =>
      marginSeized ≤ ledger.holding (.user userId .futures .margin) ∧
        (surplus < 0 → surplus.abs ≤ ledger.holding (.system .insuranceFund))
  | .settleFunding userId payment _ _ | .settleFundingChecked userId _ _ payment _ =>
      0 < payment → 0 < ledger.fromMargin userId payment →
        ledger.fromMargin userId payment ≤ ledger.holding (.user userId .futures .margin)
  | .deposit _ _ _ _ | .settleRealizedPnlCapped _ _ _ _ | .getOrCreateAccount _ => True

/-- A liquidation whose surplus is more than escrow holds after the seizure. -/
def Overdraws (ledger : Ledger) : LedgerCall → Prop
  | .liquidate _ marginSeized surplus _ _ =>
      0 < surplus ∧ ledger.holding (.system .escrow) + marginSeized < surplus
  | _ => False

/-- The call gets past its argument and idempotency checks. -/
structure Fresh (ledger : Ledger) (call : LedgerCall) (key : String) : Prop where
  keyed : call.key? = some key
  valid : call.invalid = none
  active : ¬call.Idle
  unused : key ∉ ledger.idempotencyKeys

/-- The call gets past all its checks. -/
structure Accepts (ledger : Ledger) (call : LedgerCall) (key : String) : Prop
    extends Fresh ledger call key where
  known : ¬ledger.Missing call
  covered : ledger.Covered call

@[simp]
theorem accounts_addKey (key : String) : (ledger.addKey key).accounts = ledger.accounts := rfl

@[simp]
theorem holding_addKey (key : String) (slot : Slot) :
    (ledger.addKey key).holding slot = ledger.holding slot := by
  cases slot <;> rfl

private theorem not_mem_accounts {userId : UserId} (found : ledger.accounts[userId]? = none) :
    userId ∉ ledger.accounts := by
  rw [Std.ExtTreeMap.mem_iff_isSome_getElem?, found]
  exact Bool.false_ne_true

theorem mem_accounts {userId : UserId} {account : UserAccount}
    (found : ledger.accounts[userId]? = some account) : userId ∈ ledger.accounts := by
  rw [Std.ExtTreeMap.mem_iff_isSome_getElem?, found]
  rfl

/-! ## The effects of the shared parts -/

section Parts

variable (ledger) (userId other : UserId) (marginReleased realizedPnl fee : Decimal128)
variable (key : String) (timestamp : UnixMicros)

private theorem effect_addFee : Effect ledger (ledger.addFee fee) (feePostings fee) [] := by
  rw [addFee, feePostings]
  split
  · exact effect_addSystemBalance ledger .feeCollection fee
  · exact Effect.refl ledger

private theorem effect_recordFee (field : BalanceField) :
    Effect ledger (ledger.recordFee userId field fee key timestamp) []
      (feeBookings userId field fee) := by
  rw [recordFee, feeBookings]
  split
  · exact effect_record ledger _ _ _ _
  · exact Effect.refl ledger

private theorem effect_releaseMargin :
    Effect ledger (ledger.releaseMargin userId marginReleased realizedPnl fee)
      [(.user userId .futures .margin, -marginReleased),
        (.user userId .futures .available, marginReleased + realizedPnl - fee)] [] :=
  (effect_addBalance ledger _ _ _ _).trans (effect_addBalance _ _ _ _ _)

private theorem effect_settleCounterparty :
    Effect ledger (ledger.settleCounterparty other realizedPnl)
      (pnlPostings other realizedPnl) [] := by
  rw [settleCounterparty, pnlPostings]
  split
  · exact effect_addBalance ledger _ _ _ _
  · split
    · exact effect_addBalance ledger _ _ _ _
    · exact Effect.refl ledger

private theorem effect_recordPnl (otherWallet : WalletType) (otherField : BalanceField) :
    Effect ledger
      (ledger.recordPnl userId other otherWallet otherField realizedPnl key timestamp) []
      (pnlBookings userId other otherWallet otherField realizedPnl) := by
  rw [recordPnl, pnlBookings]
  split
  · exact Effect.refl ledger
  · split <;> exact effect_record ledger _ _ _ _

private theorem effect_recordClose (otherWallet : WalletType) (otherField : BalanceField) :
    Effect ledger
      (ledger.recordClose userId other otherWallet otherField marginReleased realizedPnl fee key
        timestamp) []
      (closeBookings userId other otherWallet otherField marginReleased realizedPnl fee) :=
  ((effect_record ledger _ _ _ _).trans (effect_recordPnl _ _ _ _ _ _ _ _)).trans
    (effect_recordFee _ _ _ _ _ _)

end Parts

/-! ## The outcomes -/

/-- The ways a call can end. -/
inductive Outcome (ledger : Ledger) (call : LedgerCall) : Ledger × OperationResult → Prop
  | refused {text : String} (invalid : call.invalid = some text) :
      Outcome ledger call (ledger, .failed (.invalidQuantity text))
  | idle (idle : call.Idle) : Outcome ledger call (ledger, .done)
  | repeated {key : String} (keyed : call.key? = some key)
      (used : key ∈ ledger.idempotencyKeys) : Outcome ledger call (ledger, .done)
  | opened {userId : UserId} (same : call = .getOrCreateAccount userId) :
      Outcome ledger call (ledger.getOrCreateAccount userId, .done)
  | orphaned {key : String} {userId : UserId} (fresh : Fresh ledger call key)
      (missing : ledger.Missing call) :
      Outcome ledger call (ledger.addKey key, .failed (.accountNotFound userId))
  | short {next : Ledger} {error : LedgerError} (known : ¬ledger.Missing call)
      (uncovered : ¬ledger.Covered call) (effect : Effect ledger next [] []) :
      Outcome ledger call (next, .failed error)
  | panicked {userId : UserId} {marginSeized surplus : Decimal128} {key : String}
      {timestamp : UnixMicros} {next : Ledger} {text : String}
      (same : call = .liquidate userId marginSeized surplus key timestamp)
      (accepts : Accepts ledger call key) (overdraws : ledger.Overdraws call)
      (effect : Effect (ledger.addKey key) next
        [(.user userId .futures .margin, -marginSeized), (.system .escrow, marginSeized)] []) :
      Outcome ledger call (next, .panicked text)
  | performed {key : String} {next : Ledger} (accepts : Accepts ledger call key)
      (within : ¬ledger.Overdraws call)
      (effect : Effect (ledger.addKey key) next (ledger.postings call) (ledger.bookings call)) :
      Outcome ledger call (next, .done)

section Checks

variable {call : LedgerCall} {key : String}

private theorem outcome_once {body : Ledger → Ledger × OperationResult}
    (keyed : call.key? = some key) (active : ¬call.Idle)
    (inner : Fresh ledger call key → Outcome ledger call (body (ledger.addKey key))) :
    Outcome ledger call (ledger.once call.invalid key body) := by
  unfold once
  cases valid : call.invalid with
  | some text => exact .refused valid
  | none =>
      by_cases used : key ∈ ledger.idempotencyKeys
      · simp only [used, if_true]
        exact .repeated keyed used
      · simp only [used, if_false]
        exact inner ⟨keyed, valid, active, used⟩

private theorem outcome_takeFrom {userId : UserId} {wallet : WalletType} {field : BalanceField}
    {amount : Decimal128} {rest : Ledger → Ledger} {later : List Posting}
    (fresh : Fresh ledger call key) (missing : ledger.Missing call ↔ userId ∉ ledger.accounts)
    (covered : ledger.Covered call ↔ amount ≤ ledger.holding (.user userId wallet field))
    (within : ¬ledger.Overdraws call)
    (posted : ledger.postings call = (.user userId wallet field, -amount) :: later)
    (effect : ∀ taken, Effect taken (rest taken) later (ledger.bookings call)) :
    Outcome ledger call ((ledger.addKey key).takeFrom userId wallet field amount key rest) := by
  rw [takeFrom, accounts_addKey]
  cases found : ledger.accounts[userId]? with
  | none => exact .orphaned fresh (missing.2 (not_mem_accounts found))
  | some account =>
      have known : ¬ledger.Missing call := by
        rw [missing, not_not]
        exact mem_accounts found
      have held : (account.walletMut wallet).field field =
          ledger.holding (.user userId wallet field) := holding_of_known found _ _
      by_cases lacking : (account.walletMut wallet).field field < amount
      · simp only [lacking, if_true]
        exact .short known (fun enough => not_le.2 (held ▸ lacking) (covered.1 enough))
          (effect_forgetKey (effect_touch _ userId wallet))
      · simp only [lacking, if_false]
        refine .performed ⟨fresh, known, covered.2 (held ▸ not_lt.1 lacking)⟩ within ?_
        rw [posted]
        exact (effect_addBalance _ _ _ _ _).trans (effect _)

private theorem outcome_requireMargin {userId : UserId} {amount : Decimal128}
    {body : Ledger × OperationResult} (fresh : Fresh ledger call key)
    (missing : userId ∉ ledger.accounts → ledger.Missing call)
    (known : userId ∈ ledger.accounts →
      ledger.holding (.user userId .futures .margin) < amount → ¬ledger.Missing call)
    (needed : ledger.Covered call → amount ≤ ledger.holding (.user userId .futures .margin))
    (inner : userId ∈ ledger.accounts →
      amount ≤ ledger.holding (.user userId .futures .margin) → Outcome ledger call body) :
    Outcome ledger call ((ledger.addKey key).requireMargin userId amount key body) := by
  rw [requireMargin, accounts_addKey]
  cases found : ledger.accounts[userId]? with
  | none => exact .orphaned fresh (missing (not_mem_accounts found))
  | some account =>
      have member := mem_accounts found
      have held : (account.walletMut .futures).margin =
          ledger.holding (.user userId .futures .margin) :=
        holding_of_known found .futures .margin
      by_cases lacking : (account.walletMut .futures).margin < amount
      · simp only [lacking, if_true]
        exact .short (known member (held ▸ lacking))
          (fun enough => not_le.2 (held ▸ lacking) (needed enough))
          (effect_forgetKey (Effect.refl _))
      · simp only [lacking, if_false]
        exact inner member (held ▸ not_lt.1 lacking)

end Checks

section Calls

variable (userId : UserId) (amount : Decimal128) (key : String) (timestamp : UnixMicros)

private theorem deposit_outcome :
    Outcome ledger (.deposit userId amount key timestamp)
      (ledger.perform (.deposit userId amount key timestamp)) := by
  rw [perform, deposit]
  by_cases positive : amount.isPositive
  · by_cases used : key ∈ ledger.idempotencyKeys
    · simp only [positive, used, Bool.not_true, Bool.false_eq_true, if_true, if_false]
      exact .repeated rfl used
    · simp only [positive, used, Bool.not_true, Bool.false_eq_true, if_false]
      refine .performed ⟨⟨rfl, ?_, id, used⟩, id, trivial⟩ id ?_
      · simp [LedgerCall.invalid, requirePositive, positive]
      · exact (effect_addBalance (ledger.addKey key) userId .funding .available amount).trans
          (effect_record _ _ _ _ _)
  · simp only [positive, Bool.not_false, if_true]
    exact .refused (by simp [LedgerCall.invalid, requirePositive, positive])

private theorem openPosition_outcome (fee : Decimal128) :
    Outcome ledger (.openPosition userId amount fee key timestamp)
      (ledger.openPosition userId amount fee key timestamp) := by
  refine outcome_once rfl id fun fresh =>
    outcome_takeFrom fresh Iff.rfl Iff.rfl id rfl fun taken => ?_
  exact Effect.congr ((((effect_addBalance _ _ _ _ _).trans (effect_addFee _ _)).trans
    (effect_record _ _ _ _ _)).trans (effect_recordFee _ _ _ _ _ _)) (by simp) rfl

private theorem closePosition_outcome (realizedPnl fee : Decimal128) (counterpartyId : UserId) :
    Outcome ledger (.closePosition userId amount realizedPnl fee counterpartyId key timestamp)
      (ledger.closePosition userId amount realizedPnl fee counterpartyId key timestamp) := by
  refine outcome_once rfl id fun fresh => ?_
  refine outcome_requireMargin fresh Or.inl
    (fun member short missing => missing.elim (· member) fun profit => not_le.2 short profit.1)
    And.left ?_
  intro member enough
  have closed : ∀ next, next = (ledger.addKey key).releaseMargin userId amount realizedPnl fee →
      Effect (ledger.addKey key)
        (((next.settleCounterparty counterpartyId realizedPnl).addFee fee).recordClose userId
          counterpartyId .futures .margin amount realizedPnl fee key timestamp)
        (ledger.postings (.closePosition userId amount realizedPnl fee counterpartyId key
          timestamp))
        (ledger.bookings (.closePosition userId amount realizedPnl fee counterpartyId key
          timestamp)) := by
    rintro next rfl
    exact Effect.congr ((((effect_releaseMargin _ _ _ _ _).trans
      (effect_settleCounterparty _ _ _)).trans (effect_addFee _ _)).trans
      (effect_recordClose _ _ _ _ _ _ _ _ _ _)) (by simp [postings]) rfl
  split
  · rename_i profit
    rw [Decimal128.isPositive_iff] at profit
    refine outcome_requireMargin fresh (fun absent => Or.inr ⟨enough, profit, absent⟩) ?_
      (fun covered => covered.2 profit) ?_
    · exact fun present _ missing => missing.elim (· member) fun lost => lost.2.2 present
    · intro present covers
      refine .performed ⟨fresh, ?_, ⟨enough, fun _ => covers⟩⟩ id (closed _ rfl)
      exact fun missing => missing.elim (· member) fun lost => lost.2.2 present
  · rename_i noProfit
    rw [Decimal128.isPositive_iff] at noProfit
    refine .performed ⟨fresh, ?_, ⟨enough, fun profit => absurd profit noProfit⟩⟩ id (closed _ rfl)
    exact fun missing => missing.elim (· member) fun lost => noProfit lost.2.1

private theorem closePositionSettled_outcome (realizedPnl fee : Decimal128) :
    Outcome ledger (.closePositionSettled userId amount realizedPnl fee key timestamp)
      (ledger.closePositionSettled userId amount realizedPnl fee key timestamp) := by
  refine outcome_once rfl id fun fresh => ?_
  refine outcome_requireMargin fresh id (fun member _ => not_not.2 member) id
    fun member enough => ?_
  refine .performed ⟨fresh, not_not.2 member, enough⟩ id ?_
  exact Effect.congr (((effect_releaseMargin _ _ _ _ _).trans (effect_addFee _ _)).trans
    (effect_recordClose _ _ _ _ _ _ _ _ _ _)) (by simp [postings]) rfl

/-- The seizure with which every liquidation begins. -/
theorem effect_seizure (ledger : Ledger) :
    Effect ledger
      ((ledger.addBalance userId .futures .margin (-amount)).addSystemBalance .escrow amount)
      [(.user userId .futures .margin, -amount), (.system .escrow, amount)] [] :=
  (effect_addBalance ledger _ _ _ _).trans (effect_addSystemBalance _ _ _)

private theorem liquidate_outcome (surplus : Decimal128) :
    Outcome ledger (.liquidate userId amount surplus key timestamp)
      (ledger.liquidate userId amount surplus key timestamp) := by
  refine outcome_once rfl id fun fresh => ?_
  refine outcome_requireMargin fresh id (fun member _ => not_not.2 member) And.left
    fun member enough => ?_
  have seizure := effect_seizure userId amount (ledger.addKey key)
  generalize (((ledger.addKey key).addBalance userId .futures .margin (-amount)).addSystemBalance
    .escrow amount) = seized at seizure
  have escrow : seized.systemBalance .escrow = ledger.holding (.system .escrow) + amount := by
    refine (seizure.holding (.system .escrow)).trans ?_
    simp [netAt_cons]
  have insurance : seized.systemBalance .insuranceFund =
      ledger.holding (.system .insuranceFund) := by
    refine (seizure.holding (.system .insuranceFund)).trans ?_
    simp [netAt_cons]
  by_cases depleted : surplus.isNegative ∧
      (ledger.addKey key).systemBalance .insuranceFund < surplus.abs
  · simp only [depleted, and_self, if_true]
    exact .short (not_not.2 member) (fun covered => not_le.2 depleted.2
      (covered.2 (Decimal128.isNegative_iff.1 depleted.1))) (effect_forgetKey (Effect.refl _))
  · simp only [depleted, if_false]
    have funded : surplus < 0 → surplus.abs ≤ ledger.holding (.system .insuranceFund) :=
      fun negative => not_lt.1 fun lacks =>
        depleted ⟨Decimal128.isNegative_iff.2 negative, lacks⟩
    have accepts : Accepts ledger (.liquidate userId amount surplus key timestamp) key :=
      ⟨fresh, not_not.2 member, enough, funded⟩
    split
    · rename_i gain
      rw [Decimal128.isPositive_iff] at gain
      rw [subSystemBalance, escrow]
      by_cases overdrawn : ledger.holding (.system .escrow) + amount < surplus
      · simp only [overdrawn, if_true]
        exact .panicked rfl accepts ⟨gain, overdrawn⟩ seizure
      · simp only [overdrawn, if_false]
        refine .performed accepts (fun draws => overdrawn draws.2) ?_
        refine Effect.congr (((((seizure.trans (effect_addSystemBalance _ _ _)).trans
          (effect_addSystemBalance _ _ _)).trans (effect_record _ _ _ _ _)).trans
          (effect_record _ _ _ _ _))) ?_ ?_
        · simp [postings, surplusPostings, gain]
        · simp [bookings, surplusBookings, gain]
    · rename_i noGain
      rw [Decimal128.isPositive_iff] at noGain
      split
      · rename_i loss
        rw [Decimal128.isNegative_iff] at loss
        rw [subSystemBalance, insurance, if_neg (not_lt.2 (funded loss))]
        refine .performed accepts (fun draws => noGain draws.1) ?_
        refine Effect.congr (((((seizure.trans (effect_addSystemBalance _ _ _)).trans
          (effect_addSystemBalance _ _ _)).trans (effect_record _ _ _ _ _)).trans
          (effect_record _ _ _ _ _))) ?_ ?_
        · simp [postings, surplusPostings, noGain, loss]
        · simp [bookings, surplusBookings, noGain, loss]
      · rename_i noLoss
        rw [Decimal128.isNegative_iff] at noLoss
        refine .performed accepts (fun draws => noGain draws.1) ?_
        refine Effect.congr (seizure.trans (effect_record _ _ _ _ _)) ?_ ?_
        · simp [postings, surplusPostings, noGain, noLoss]
        · simp [bookings, surplusBookings, noGain, noLoss]

private theorem effect_payFunding (ledger : Ledger) (available margin : Decimal128) :
    Effect ledger (ledger.payFunding userId available margin amount key timestamp)
      ([(.user userId .futures .available, -available)] ++
        (if margin.isPositive then [(.user userId .futures .margin, -margin)] else []) ++
        [(.system .funding, amount)])
      ((if available.isPositive then
        [(.fundingPayment, ⟨userId, .futures, .available, systemUserId, .futures, .available,
          available⟩)] else []) ++
        (if margin.isPositive then
          [(.fundingPayment, ⟨userId, .futures, .margin, systemUserId, .futures, .available,
            margin⟩)] else [])) := by
  have debited := effect_addBalance ledger userId .futures .available (-available)
  by_cases drains : margin.isPositive
  · have pooled := (debited.trans (effect_addBalance _ userId .futures .margin (-margin))).trans
      (effect_addSystemBalance _ .funding amount)
    by_cases pays : available.isPositive
    · simp only [payFunding, drains, pays, if_true]
      exact (pooled.trans (effect_record _ _ _ _ _)).trans (effect_record _ _ _ _ _)
    · simp only [payFunding, drains, pays, if_true, Bool.false_eq_true, if_false]
      exact pooled.trans (effect_record _ _ _ _ _)
  · have pooled := debited.trans (effect_addSystemBalance _ .funding amount)
    by_cases pays : available.isPositive
    · simp only [payFunding, drains, pays, if_true, Bool.false_eq_true, if_false]
      exact pooled.trans (effect_record _ _ _ _ _)
    · simp only [payFunding, drains, pays, Bool.false_eq_true, if_false]
      exact pooled

private theorem effect_receiveFunding (ledger : Ledger) :
    Effect ledger (ledger.receiveFunding userId amount key timestamp)
      [(.user userId .futures .available, amount.abs), (.system .funding, amount)]
      [(.fundingPayment, ⟨systemUserId, .futures, .available, userId, .futures, .available,
        amount.abs⟩)] :=
  ((effect_addBalance ledger _ _ _ _).trans (effect_addSystemBalance _ _ _)).trans
    (effect_record _ _ _ _ _)

/-- Both funding settlements, for a call that posts, books and is checked as one. -/
theorem settleFunding_outcome {call : LedgerCall} (keyed : call.key? = some key)
    (valid : call.invalid = none) (idle : call.Idle ↔ amount = 0)
    (missing : ledger.Missing call ↔ userId ∉ ledger.accounts)
    (covered : ledger.Covered call ↔ (0 < amount → 0 < ledger.fromMargin userId amount →
      ledger.fromMargin userId amount ≤ ledger.holding (.user userId .futures .margin)))
    (within : ¬ledger.Overdraws call)
    (posted : ledger.postings call = ledger.fundingPostings userId amount)
    (booked : ledger.bookings call = ledger.fundingBookings userId amount) :
    Outcome ledger call (ledger.settleFunding userId amount key timestamp) := by
  rw [settleFunding]
  by_cases zero : amount = 0
  · rw [if_pos (Decimal128.isZero_iff.2 zero)]
    exact .idle (idle.2 zero)
  rw [if_neg (by simpa using zero), ← valid]
  refine outcome_once keyed (mt idle.1 zero) fun fresh => ?_
  rw [accounts_addKey]
  cases found : ledger.accounts[userId]? with
  | none => exact .orphaned fresh (missing.2 (not_mem_accounts found))
  | some account =>
      have known : ¬ledger.Missing call := by
        rw [missing, not_not]
        exact mem_accounts found
      have available : min amount (account.walletMut .futures).available =
          ledger.fromAvailable userId amount :=
        congrArg (min amount) (holding_of_known found .futures .available)
      have margin : (account.walletMut .futures).margin =
          ledger.holding (.user userId .futures .margin) :=
        holding_of_known found .futures .margin
      have rest : amount - ledger.fromAvailable userId amount = ledger.fromMargin userId amount :=
        rfl
      simp only [available, margin, rest]
      split
      · rename_i pays
        split
        · rename_i lacking
          refine .short known (fun enough => ?_) (effect_forgetKey (effect_touch _ _ _))
          exact not_le.2 lacking.2 (covered.1 enough (Decimal128.isPositive_iff.1 pays)
            (Decimal128.isPositive_iff.1 lacking.1))
        · rename_i enough
          refine .performed ⟨fresh, known, covered.2 fun _ drawn => not_lt.1 fun lacks =>
            enough ⟨Decimal128.isPositive_iff.2 drawn, lacks⟩⟩ within ?_
          rw [posted, booked, fundingPostings, fundingBookings, if_pos pays, if_pos pays]
          exact effect_payFunding _ _ _ _ _ _ _
      · rename_i receives
        refine .performed ⟨fresh, known, covered.2 fun pays =>
          absurd (Decimal128.isPositive_iff.2 pays) receives⟩ within ?_
        rw [posted, booked, fundingPostings, fundingBookings, if_neg receives, if_neg receives]
        exact effect_receiveFunding _ _ _ _ _

private theorem settleRealizedPnlCapped_outcome :
    Outcome ledger (.settleRealizedPnlCapped userId amount key timestamp)
      (ledger.perform (.settleRealizedPnlCapped userId amount key timestamp)) := by
  rw [perform, settleRealizedPnlCapped]
  by_cases zero : amount = 0
  · rw [if_pos (Decimal128.isZero_iff.2 zero)]
    exact .idle zero
  rw [if_neg (by simpa using zero)]
  by_cases used : key ∈ ledger.idempotencyKeys
  · rw [if_pos used]
    exact .repeated rfl used
  rw [if_neg used]
  have fresh : Fresh ledger (.settleRealizedPnlCapped userId amount key timestamp) key :=
    ⟨rfl, rfl, zero, used⟩
  cases found : ledger.accounts[userId]? with
  | none => exact .orphaned fresh (not_mem_accounts found)
  | some account =>
      have accepts : Accepts ledger (.settleRealizedPnlCapped userId amount key timestamp) key :=
        ⟨fresh, not_not.2 (mem_accounts found), trivial⟩
      have stored : ledger.accounts[userId]?.getD (.new userId) = account := by
        rw [found]
        rfl
      have credit : ∀ change : Decimal128, (ledger.addKey key).setFunding userId account
          ((account.walletMut .funding).available + change) =
          (ledger.addKey key).addBalance userId .funding .available change := by
        rintro change
        subst stored
        rfl
      have covered : min amount.abs (account.walletMut .funding).available =
          ledger.cover userId amount :=
        congrArg (min amount.abs) (holding_of_known found .funding .available)
      by_cases gains : amount.isPositive
      · simp only [gains, if_true]
        refine .performed accepts id ?_
        simp only [postings, bookings, cappedPostings, cappedBookings, gains, if_true]
        have effect := ((effect_addBalance (ledger.addKey key) userId .funding .available
          amount).trans (effect_addSystemBalance _ .funding (-amount))).trans (effect_record _
            ⟨systemUserId, .funding, .available, userId, .funding, .available, amount⟩
            .fundingPayment key timestamp)
        rw [← credit] at effect
        exact effect
      · have effect := (effect_addBalance (ledger.addKey key) userId .funding .available
          (-ledger.cover userId amount)).trans
          (effect_addSystemBalance _ .funding (ledger.cover userId amount))
        rw [← credit, ← sub_eq_add_neg] at effect
        simp only [gains, Bool.false_eq_true, if_false, covered]
        refine .performed accepts id ?_
        simp only [postings, bookings, cappedPostings, cappedBookings, gains, Bool.false_eq_true,
          if_false]
        split
        · exact effect.trans (effect_record _
            ⟨userId, .funding, .available, systemUserId, .funding, .available,
              ledger.cover userId amount⟩ .fundingPayment key timestamp)
        · exact effect

end Calls

/-- Every call ends in one of the listed ways. -/
theorem perform_outcome (ledger : Ledger) (call : LedgerCall) :
    Outcome ledger call (ledger.perform call) := by
  cases call with
  | deposit userId amount key timestamp => exact deposit_outcome userId amount key timestamp
  | withdraw userId amount key timestamp =>
      change Outcome ledger _ (ledger.withdraw userId amount key timestamp)
      refine outcome_once rfl id fun fresh => ?_
      exact outcome_takeFrom fresh Iff.rfl Iff.rfl id rfl fun taken => effect_record taken _ _ _ _
  | transfer userId fromWallet toWallet amount key timestamp =>
      change Outcome ledger _ (ledger.transfer userId fromWallet toWallet amount key timestamp)
      refine outcome_once rfl id fun fresh => ?_
      exact outcome_takeFrom fresh Iff.rfl Iff.rfl id rfl fun taken =>
        (effect_addBalance taken _ _ _ _).trans (effect_record _ _ _ _ _)
  | freezeForOrder userId wallet amount key timestamp =>
      change Outcome ledger _ (ledger.freezeForOrder userId wallet amount key timestamp)
      refine outcome_once rfl id fun fresh => ?_
      exact outcome_takeFrom fresh Iff.rfl Iff.rfl id rfl fun taken =>
        (effect_addBalance taken _ _ _ _).trans (effect_record _ _ _ _ _)
  | unfreezeOrder userId wallet amount key timestamp =>
      change Outcome ledger _ (ledger.unfreezeOrder userId wallet amount key timestamp)
      refine outcome_once rfl id fun fresh => ?_
      exact outcome_takeFrom fresh Iff.rfl Iff.rfl id rfl fun taken =>
        (effect_addBalance taken _ _ _ _).trans (effect_record _ _ _ _ _)
  | openPosition userId marginAmount fee key timestamp =>
      exact openPosition_outcome userId marginAmount key timestamp fee
  | closePosition userId marginReleased realizedPnl fee counterpartyId key timestamp =>
      exact closePosition_outcome userId marginReleased key timestamp realizedPnl fee counterpartyId
  | closePositionSettled userId marginReleased realizedPnl fee key timestamp =>
      exact closePositionSettled_outcome userId marginReleased key timestamp realizedPnl fee
  | liquidate userId marginSeized surplus key timestamp =>
      exact liquidate_outcome userId marginSeized key timestamp surplus
  | settleFunding userId payment key timestamp =>
      exact settleFunding_outcome userId payment key timestamp rfl rfl Iff.rfl Iff.rfl Iff.rfl id
        rfl rfl
  | settleFundingChecked userId symbol period payment timestamp =>
      exact settleFunding_outcome userId payment _ timestamp rfl rfl Iff.rfl Iff.rfl Iff.rfl id
        rfl rfl
  | settleRealizedPnlCapped userId signed key timestamp =>
      exact settleRealizedPnlCapped_outcome userId signed key timestamp
  | getOrCreateAccount userId => exact .opened rfl

/-- A call that gets past its checks posts and books. -/
theorem Accepts.effect {call : LedgerCall} {key : String} (accepts : Accepts ledger call key)
    (within : ¬ledger.Overdraws call) :
    Effect (ledger.addKey key) (ledger.perform call).1 (ledger.postings call)
      (ledger.bookings call) := by
  have outcome := perform_outcome ledger call
  generalize ledger.perform call = next at outcome
  cases outcome with
  | refused invalid => exact absurd (invalid.symm.trans accepts.valid) (Option.some_ne_none _)
  | idle idle => exact absurd idle accepts.active
  | repeated keyed used =>
      obtain rfl := Option.some.inj (keyed.symm.trans accepts.keyed)
      exact absurd used accepts.unused
  | opened same =>
      subst same
      exact absurd accepts.keyed.symm (Option.some_ne_none key)
  | orphaned fresh missing => exact absurd missing accepts.known
  | short known uncovered effect => exact absurd accepts.covered uncovered
  | panicked same other overdraws effect => exact absurd overdraws within
  | performed other _ effect =>
      obtain rfl := Option.some.inj (other.keyed.symm.trans accepts.keyed)
      exact effect

end Ledger
end Exg
