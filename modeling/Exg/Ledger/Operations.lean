import Exg.Ledger.Ledger

/-!
# The operations of the ledger

Every operation inserts its idempotency key before it looks at the accounts, and takes the
key back by hand where it fails.  `once`, `takeFrom` and `requireMargin` are the checks that
the operations share; what follows the checks is each operation's own.
-/

namespace Exg

/-- How an operation ends. -/
inductive OperationResult where
  | done
  | failed (error : LedgerError)
  | panicked (text : String)
  deriving DecidableEq, Repr

namespace WalletBalance

def field (balance : WalletBalance) : BalanceField → Decimal128
  | .available => balance.available
  | .frozen => balance.frozen
  | .margin => balance.margin

/-- Change one sub-field. -/
def add (balance : WalletBalance) (field : BalanceField) (amount : Decimal128) : WalletBalance :=
  match field with
  | .available => { balance with available := balance.available + amount }
  | .frozen => { balance with frozen := balance.frozen + amount }
  | .margin => { balance with margin := balance.margin + amount }

end WalletBalance

namespace Ledger

variable (ledger : Ledger)

/-! ## Updates -/

/-- The key as inserted by `check_idempotency`. -/
def addKey (key : String) : Ledger :=
  { ledger with idempotencyKeys := key :: ledger.idempotencyKeys }

/-- Remove the idempotency key so the operation can be retried. -/
def forgetKey (key : String) : Ledger :=
  { ledger with idempotencyKeys := ledger.idempotencyKeys.erase key }

/-- Store a wallet of a user through `wallet_mut`, which creates it where it is missing. -/
def updateWallet (userId : UserId) (wallet : WalletType)
    (change : WalletBalance → WalletBalance) : Ledger :=
  let account := ledger.accounts[userId]?.getD (.new userId)
  { ledger with
    accounts := ledger.accounts.insert userId
      { account with
        wallets := account.wallets.insert wallet (change (account.walletMut wallet)) } }

def addBalance (userId : UserId) (wallet : WalletType) (field : BalanceField)
    (amount : Decimal128) : Ledger :=
  ledger.updateWallet userId wallet fun balance => balance.add field amount

/-- Subtract from a system account. -/
def subSystemBalance (wallet : WalletType) (amount : Decimal128) : Except LedgerError Ledger :=
  if ledger.systemBalance wallet < amount then
    .error (.insufficientBalance amount (ledger.systemBalance wallet))
  else
    .ok (ledger.addSystemBalance wallet (-amount))

/-- Take the next journal id and append an entry. -/
def record (movement : Movement) (entryType : JournalEntryType) (idempotencyKey : String)
    (timestamp : UnixMicros) : Ledger :=
  { ledger with
    nextJournalId := ledger.nextJournalId + 1
    journal := ledger.journal ++
      [{ toMovement := movement
         id := ledger.nextJournalId
         entryType := entryType
         idempotencyKey := idempotencyKey
         timestamp := timestamp }] }

/-! ## Checks -/

/-- The checks at the head of an operation.  The body runs with the key inserted. -/
def once (invalid : Option String) (idempotencyKey : String)
    (body : Ledger → Ledger × OperationResult) : Ledger × OperationResult :=
  match invalid with
  | some text => (ledger, .failed (.invalidQuantity text))
  | none =>
      if idempotencyKey ∈ ledger.idempotencyKeys then
        (ledger, .done)
      else
        body (ledger.addKey idempotencyKey)

/-- Take an amount out of a balance field, if it is covered. -/
def takeFrom (userId : UserId) (wallet : WalletType) (field : BalanceField)
    (amount : Decimal128) (idempotencyKey : String) (rest : Ledger → Ledger) :
    Ledger × OperationResult :=
  match ledger.accounts[userId]? with
  | none => (ledger, .failed (.accountNotFound userId))
  | some account =>
      let held := (account.walletMut wallet).field field
      if held < amount then
        -- `wallet_mut` has created the wallet by now
        ((ledger.updateWallet userId wallet id).forgetKey idempotencyKey,
          .failed (.insufficientBalance amount held))
      else
        (rest (ledger.addBalance userId wallet field (-amount)), .done)

/-- Validate that a user has enough margin. -/
def requireMargin (userId : UserId) (amount : Decimal128) (idempotencyKey : String)
    (body : Ledger × OperationResult) : Ledger × OperationResult :=
  match ledger.accounts[userId]? with
  | none => (ledger, .failed (.accountNotFound userId))
  | some account =>
      let margin := (account.walletMut .futures).margin
      if margin < amount then
        (ledger.forgetKey idempotencyKey, .failed (.insufficientBalance amount margin))
      else
        body

def requirePositive (amount : Decimal128) (text : String) : Option String :=
  if amount.isPositive then none else some text

def requireFee (fee : Decimal128) : Option String :=
  if fee.isNegative then some "fee cannot be negative" else none

/-! ## Orders and transfers -/

/-- Withdraw: user's Funding wallet available to external. -/
def withdraw (userId : UserId) (amount : Decimal128) (idempotencyKey : String)
    (timestamp : UnixMicros) : Ledger × OperationResult :=
  ledger.once (requirePositive amount "withdrawal amount must be positive") idempotencyKey
    fun keyed => keyed.takeFrom userId .funding .available amount idempotencyKey fun taken =>
      taken.record ⟨userId, .funding, .available, systemUserId, .funding, .available, amount⟩
        .withdrawal idempotencyKey timestamp

/-- Transfer between wallets. -/
def transfer (userId : UserId) (fromWallet toWallet : WalletType) (amount : Decimal128)
    (idempotencyKey : String) (timestamp : UnixMicros) : Ledger × OperationResult :=
  ledger.once (requirePositive amount "transfer amount must be positive") idempotencyKey
    fun keyed => keyed.takeFrom userId fromWallet .available amount idempotencyKey fun taken =>
      (taken.addBalance userId toWallet .available amount).record
        ⟨userId, fromWallet, .available, userId, toWallet, .available, amount⟩ .transfer
        idempotencyKey timestamp

/-- Freeze balance for a new order: available to frozen. -/
def freezeForOrder (userId : UserId) (wallet : WalletType) (amount : Decimal128)
    (idempotencyKey : String) (timestamp : UnixMicros) : Ledger × OperationResult :=
  ledger.once (requirePositive amount "freeze amount must be positive") idempotencyKey
    fun keyed => keyed.takeFrom userId wallet .available amount idempotencyKey fun taken =>
      (taken.addBalance userId wallet .frozen amount).record
        ⟨userId, wallet, .available, userId, wallet, .frozen, amount⟩ .orderFreeze
        idempotencyKey timestamp

/-- Unfreeze when an order is canceled: frozen to available. -/
def unfreezeOrder (userId : UserId) (wallet : WalletType) (amount : Decimal128)
    (idempotencyKey : String) (timestamp : UnixMicros) : Ledger × OperationResult :=
  ledger.once (requirePositive amount "unfreeze amount must be positive") idempotencyKey
    fun keyed => keyed.takeFrom userId wallet .frozen amount idempotencyKey fun taken =>
      (taken.addBalance userId wallet .available amount).record
        ⟨userId, wallet, .frozen, userId, wallet, .available, amount⟩ .orderUnfreeze
        idempotencyKey timestamp

/-! ## Positions -/

/-- Fee to the system's fee collection. -/
def addFee (fee : Decimal128) : Ledger :=
  if fee.isPositive then ledger.addSystemBalance .feeCollection fee else ledger

def recordFee (userId : UserId) (field : BalanceField) (fee : Decimal128)
    (idempotencyKey : String) (timestamp : UnixMicros) : Ledger :=
  if fee.isPositive then
    ledger.record ⟨userId, .futures, field, systemUserId, .feeCollection, .available, fee⟩
      .tradeFee (idempotencyKey ++ ":fee") timestamp
  else
    ledger

/-- Open or increase a position: frozen to margin, the fee deducted from frozen. -/
def openPosition (userId : UserId) (marginAmount fee : Decimal128) (idempotencyKey : String)
    (timestamp : UnixMicros) : Ledger × OperationResult :=
  ledger.once
    ((requirePositive marginAmount "margin amount must be positive").or (requireFee fee))
    idempotencyKey fun keyed =>
      keyed.takeFrom userId .futures .frozen (marginAmount + fee) idempotencyKey fun taken =>
        (((taken.addBalance userId .futures .margin marginAmount).addFee fee).record
          ⟨userId, .futures, .frozen, userId, .futures, .margin, marginAmount⟩ .positionOpen
          idempotencyKey timestamp).recordFee userId .frozen fee idempotencyKey timestamp

/-- Release margin to available, with the profit and less the fee. -/
def releaseMargin (userId : UserId) (marginReleased realizedPnl fee : Decimal128) : Ledger :=
  (ledger.addBalance userId .futures .margin (-marginReleased)).addBalance userId .futures
    .available (marginReleased + realizedPnl - fee)

/-- Journal a realized profit against whoever pays or receives it. -/
def recordPnl (userId other : UserId) (otherWallet : WalletType) (otherField : BalanceField)
    (realizedPnl : Decimal128) (idempotencyKey : String) (timestamp : UnixMicros) : Ledger :=
  if realizedPnl.isZero then
    ledger
  else if realizedPnl.isPositive then
    ledger.record
      ⟨other, otherWallet, otherField, userId, .futures, .available, realizedPnl.abs⟩
      .positionClose (idempotencyKey ++ ":pnl") timestamp
  else
    ledger.record
      ⟨userId, .futures, .available, other, otherWallet, otherField, realizedPnl.abs⟩
      .positionClose (idempotencyKey ++ ":pnl") timestamp

/-- The journal entries of a closed position. -/
def recordClose (userId other : UserId) (otherWallet : WalletType) (otherField : BalanceField)
    (marginReleased realizedPnl fee : Decimal128) (idempotencyKey : String)
    (timestamp : UnixMicros) : Ledger :=
  ((ledger.record
    ⟨userId, .futures, .margin, userId, .futures, .available, marginReleased⟩ .positionClose
    idempotencyKey timestamp).recordPnl userId other otherWallet otherField realizedPnl
    idempotencyKey timestamp).recordFee userId .available fee idempotencyKey timestamp

/-- Settle the profit with a counterparty's margin. -/
def settleCounterparty (counterpartyId : UserId) (realizedPnl : Decimal128) : Ledger :=
  if realizedPnl.isPositive then
    ledger.addBalance counterpartyId .futures .margin (-realizedPnl)
  else if realizedPnl.isNegative then
    ledger.addBalance counterpartyId .futures .margin realizedPnl.abs
  else
    ledger

/-- Close position: release margin, settle the profit with the counterparty, collect the
fee. -/
def closePosition (userId : UserId) (marginReleased realizedPnl fee : Decimal128)
    (counterpartyId : UserId) (idempotencyKey : String) (timestamp : UnixMicros) :
    Ledger × OperationResult :=
  ledger.once
    ((requirePositive marginReleased "margin released must be positive").or (requireFee fee))
    idempotencyKey fun keyed =>
      keyed.requireMargin userId marginReleased idempotencyKey <|
        let closed :=
          ((((keyed.releaseMargin userId marginReleased realizedPnl fee).settleCounterparty
            counterpartyId realizedPnl).addFee fee).recordClose userId counterpartyId .futures
            .margin marginReleased realizedPnl fee idempotencyKey timestamp, OperationResult.done)
        if realizedPnl.isPositive then
          keyed.requireMargin counterpartyId realizedPnl idempotencyKey closed
        else
          closed

/-- Close position with the profit settled via escrow.  The escrow balance is neither
checked nor moved. -/
def closePositionSettled (userId : UserId) (marginReleased realizedPnl fee : Decimal128)
    (idempotencyKey : String) (timestamp : UnixMicros) : Ledger × OperationResult :=
  ledger.once
    ((requirePositive marginReleased "margin released must be positive").or (requireFee fee))
    idempotencyKey fun keyed =>
      keyed.requireMargin userId marginReleased idempotencyKey
        (((keyed.releaseMargin userId marginReleased realizedPnl fee).addFee fee).recordClose
          userId systemUserId .escrow .available marginReleased realizedPnl fee idempotencyKey
          timestamp, .done)

/-! ## Liquidation and funding -/

/-- Liquidation: seize margin, move the surplus to the insurance fund or the deficit out of
it. -/
def liquidate (userId : UserId) (marginSeized surplus : Decimal128) (idempotencyKey : String)
    (timestamp : UnixMicros) : Ledger × OperationResult :=
  ledger.once (requirePositive marginSeized "margin seized must be positive") idempotencyKey
    fun keyed => keyed.requireMargin userId marginSeized idempotencyKey <|
      if surplus.isNegative ∧ keyed.systemBalance .insuranceFund < surplus.abs then
        (keyed.forgetKey idempotencyKey, .failed .insuranceFundDepleted)
      else
        let seized := (keyed.addBalance userId .futures .margin (-marginSeized)).addSystemBalance
          .escrow marginSeized
        let seizure : Movement :=
          ⟨userId, .futures, .margin, systemUserId, .escrow, .available, marginSeized⟩
        if surplus.isPositive then
          match seized.subSystemBalance .escrow surplus with
          | .error _ => (seized, .panicked "escrow has margin_seized >= surplus")
          | .ok moved =>
              (((moved.addSystemBalance .insuranceFund surplus).record seizure .liquidation
                idempotencyKey timestamp).record
                ⟨systemUserId, .escrow, .available, systemUserId, .insuranceFund, .available,
                  surplus⟩ .insuranceFundContribution (idempotencyKey ++ ":surplus") timestamp,
                .done)
        else if surplus.isNegative then
          match seized.subSystemBalance .insuranceFund surplus.abs with
          | .error _ => (seized, .panicked "checked above")
          | .ok moved =>
              (((moved.addSystemBalance .escrow surplus.abs).record seizure .liquidation
                idempotencyKey timestamp).record
                ⟨systemUserId, .insuranceFund, .available, systemUserId, .escrow, .available,
                  surplus.abs⟩ .liquidation (idempotencyKey ++ ":deficit") timestamp,
                .done)
        else
          (seized.record seizure .liquidation idempotencyKey timestamp, .done)

/-- User pays: move the two parts of a payment into the pool and journal each of them.  The
payment is pooled in the system's Funding account and journaled against its Futures wallet. -/
def payFunding (userId : UserId) (fromAvailable fromMargin payment : Decimal128)
    (idempotencyKey : String) (timestamp : UnixMicros) : Ledger :=
  let debited := ledger.addBalance userId .futures .available (-fromAvailable)
  let drained :=
    if fromMargin.isPositive then
      debited.addBalance userId .futures .margin (-fromMargin)
    else
      debited
  let pooled := drained.addSystemBalance .funding payment
  let paid :=
    if fromAvailable.isPositive then
      pooled.record
        ⟨userId, .futures, .available, systemUserId, .futures, .available, fromAvailable⟩
        .fundingPayment idempotencyKey timestamp
    else
      pooled
  if fromMargin.isPositive then
    paid.record ⟨userId, .futures, .margin, systemUserId, .futures, .available, fromMargin⟩
      .fundingPayment (idempotencyKey ++ ":margin") timestamp
  else
    paid

/-- User receives: credit available out of the pool. -/
def receiveFunding (userId : UserId) (payment : Decimal128) (idempotencyKey : String)
    (timestamp : UnixMicros) : Ledger :=
  ((ledger.addBalance userId .futures .available payment.abs).addSystemBalance .funding
    payment).record
    ⟨systemUserId, .futures, .available, userId, .futures, .available, payment.abs⟩
    .fundingPayment idempotencyKey timestamp

/-- Settle a funding payment: a user pays from available, then from margin. -/
def settleFunding (userId : UserId) (payment : Decimal128) (idempotencyKey : String)
    (timestamp : UnixMicros) : Ledger × OperationResult :=
  if payment.isZero then
    (ledger, .done)
  else
    ledger.once none idempotencyKey fun keyed =>
      match keyed.accounts[userId]? with
      | none => (keyed, .failed (.accountNotFound userId))
      | some account =>
          let balance := account.walletMut .futures
          if payment.isPositive then
            let fromAvailable := min payment balance.available
            let fromMargin := payment - fromAvailable
            if fromMargin.isPositive ∧ balance.margin < fromMargin then
              ((keyed.updateWallet userId .futures id).forgetKey idempotencyKey,
                .failed (.insufficientBalance payment (balance.available + balance.margin)))
            else
              (keyed.payFunding userId fromAvailable fromMargin payment idempotencyKey timestamp,
                .done)
          else
            (keyed.receiveFunding userId payment idempotencyKey timestamp, .done)

/-- The margin of a user's Futures wallet. -/
def futuresMargin (userId : UserId) : Decimal128 :=
  (ledger.getBalance userId .futures).elim 0 WalletBalance.margin

/-- The structured key of a funding settlement. -/
def fundingPeriodKey (fundingPeriodId : Nat) (userId : UserId) (symbol : SymbolId) : String :=
  "funding_" ++ toString fundingPeriodId ++ "_" ++ toString userId ++ "_" ++ toString symbol

/-- Settle funding with a structured idempotency key.  Returns whether margin was tapped. -/
def settleFundingChecked (userId : UserId) (symbol : SymbolId) (fundingPeriodId : Nat)
    (payment : Decimal128) (timestamp : UnixMicros) : Ledger × OperationResult × Bool :=
  let settled := ledger.settleFunding userId payment
    (fundingPeriodKey fundingPeriodId userId symbol) timestamp
  (settled.1, settled.2, decide (settled.1.futuresMargin userId < ledger.futuresMargin userId))

/-! ## Calls -/

/-- The public operations that change a ledger, with their arguments. -/
inductive LedgerCall where
  | deposit (userId : UserId) (amount : Decimal128) (idempotencyKey : String)
      (timestamp : UnixMicros)
  | withdraw (userId : UserId) (amount : Decimal128) (idempotencyKey : String)
      (timestamp : UnixMicros)
  | transfer (userId : UserId) (fromWallet toWallet : WalletType) (amount : Decimal128)
      (idempotencyKey : String) (timestamp : UnixMicros)
  | freezeForOrder (userId : UserId) (wallet : WalletType) (amount : Decimal128)
      (idempotencyKey : String) (timestamp : UnixMicros)
  | unfreezeOrder (userId : UserId) (wallet : WalletType) (amount : Decimal128)
      (idempotencyKey : String) (timestamp : UnixMicros)
  | openPosition (userId : UserId) (marginAmount fee : Decimal128) (idempotencyKey : String)
      (timestamp : UnixMicros)
  | closePosition (userId : UserId) (marginReleased realizedPnl fee : Decimal128)
      (counterpartyId : UserId) (idempotencyKey : String) (timestamp : UnixMicros)
  | closePositionSettled (userId : UserId) (marginReleased realizedPnl fee : Decimal128)
      (idempotencyKey : String) (timestamp : UnixMicros)
  | liquidate (userId : UserId) (marginSeized surplus : Decimal128) (idempotencyKey : String)
      (timestamp : UnixMicros)
  | settleFunding (userId : UserId) (payment : Decimal128) (idempotencyKey : String)
      (timestamp : UnixMicros)
  | settleFundingChecked (userId : UserId) (symbol : SymbolId) (fundingPeriodId : Nat)
      (payment : Decimal128) (timestamp : UnixMicros)
  | settleRealizedPnlCapped (userId : UserId) (signed : Decimal128) (idempotencyKey : String)
      (timestamp : UnixMicros)
  | getOrCreateAccount (userId : UserId)
  deriving DecidableEq, Repr

/-- Carry out a call. -/
def perform : LedgerCall → Ledger × OperationResult
  | .deposit userId amount idempotencyKey timestamp =>
      match ledger.deposit userId amount idempotencyKey timestamp with
      | .error error => (ledger, .failed error)
      | .ok credited => (credited, .done)
  | .withdraw userId amount idempotencyKey timestamp =>
      ledger.withdraw userId amount idempotencyKey timestamp
  | .transfer userId fromWallet toWallet amount idempotencyKey timestamp =>
      ledger.transfer userId fromWallet toWallet amount idempotencyKey timestamp
  | .freezeForOrder userId wallet amount idempotencyKey timestamp =>
      ledger.freezeForOrder userId wallet amount idempotencyKey timestamp
  | .unfreezeOrder userId wallet amount idempotencyKey timestamp =>
      ledger.unfreezeOrder userId wallet amount idempotencyKey timestamp
  | .openPosition userId marginAmount fee idempotencyKey timestamp =>
      ledger.openPosition userId marginAmount fee idempotencyKey timestamp
  | .closePosition userId marginReleased realizedPnl fee counterpartyId idempotencyKey timestamp =>
      ledger.closePosition userId marginReleased realizedPnl fee counterpartyId idempotencyKey
        timestamp
  | .closePositionSettled userId marginReleased realizedPnl fee idempotencyKey timestamp =>
      ledger.closePositionSettled userId marginReleased realizedPnl fee idempotencyKey timestamp
  | .liquidate userId marginSeized surplus idempotencyKey timestamp =>
      ledger.liquidate userId marginSeized surplus idempotencyKey timestamp
  | .settleFunding userId payment idempotencyKey timestamp =>
      ledger.settleFunding userId payment idempotencyKey timestamp
  | .settleFundingChecked userId symbol fundingPeriodId payment timestamp =>
      let settled := ledger.settleFundingChecked userId symbol fundingPeriodId payment timestamp
      (settled.1, settled.2.1)
  | .settleRealizedPnlCapped userId signed idempotencyKey timestamp =>
      match ledger.settleRealizedPnlCapped userId signed idempotencyKey timestamp with
      | (settled, .error error) => (settled, .failed error)
      | (settled, .ok _) => (settled, .done)
  | .getOrCreateAccount userId => (ledger.getOrCreateAccount userId, .done)

/-- One call of a run, with what it returned. -/
def step (ledger : Ledger) (call : LedgerCall) : Ledger × List (LedgerCall × OperationResult) :=
  let next := ledger.perform call
  (next.1, [(call, next.2)])

end Ledger
end Exg
