import Exg.Ledger.CheckedLedger
import Exg.Ledger.Operations

/-!
# The operations of the ledger, with their panics

What each operation adds up and subtracts, in the order of the source and as far as it gets.  A
call is carried out where all of that stays in range; then it has the result of exact numbers.
-/

namespace Exg

open Support

namespace Ledger

variable (ledger : Ledger)

/-! ## Sums -/

/-- A wallet as `wallet_mut` finds it. -/
def heldBalance (userId : UserId) (wallet : WalletType) : WalletBalance :=
  (ledger.accounts[userId]?.getD (.new userId)).walletMut wallet

/-- Add to a sub-field of a wallet. -/
def balanceSum? (userId : UserId) (wallet : WalletType) (field : BalanceField)
    (amount : Decimal128) : Option Unit := do
  let _ ← ((ledger.heldBalance userId wallet).field field).add? amount
  some ()

/-- Add to a system account. -/
def systemSum? (wallet : WalletType) (amount : Decimal128) : Option Unit := do
  let _ ← (ledger.systemBalance wallet).add? amount
  some ()

/-- Take the ids of new journal entries. -/
def idSums? (entries : Nat) : Option Unit := do
  let _ ← addWord? ledger.nextJournalId entries
  some ()

/-- The sums of an operation behind the checks at its head. -/
def onceSums? (invalid : Option String) (idempotencyKey : String) (sums : Option Unit) :
    Option Unit :=
  if invalid.isSome ∨ idempotencyKey ∈ ledger.idempotencyKeys then some () else sums

/-- Take an amount out of a sub-field that covers it, and go on. -/
def takeSums? (userId : UserId) (wallet : WalletType) (field : BalanceField)
    (amount : Decimal128) (rest : Ledger → Option Unit) : Option Unit :=
  match ledger.accounts[userId]? with
  | none => some ()
  | some account =>
      let held := (account.walletMut wallet).field field
      if held < amount then
        some ()
      else do
        let _ ← held.sub? amount
        rest (ledger.addBalance userId wallet field (-amount))

/-- Go on where a user has enough margin. -/
def marginSums? (userId : UserId) (amount : Decimal128) (sums : Option Unit) : Option Unit :=
  match ledger.accounts[userId]? with
  | none => some ()
  | some account => if (account.walletMut .futures).margin < amount then some () else sums

/-- How many journal entries an amount takes. -/
def entriesFor (amount : Decimal128) : Nat := if amount.isPositive then 1 else 0

def feeSums? (fee : Decimal128) : Option Unit :=
  if fee.isPositive then ledger.systemSum? .feeCollection fee else some ()

/-! ## Orders and transfers -/

def withdrawSums? (userId : UserId) (amount : Decimal128) (idempotencyKey : String) :
    Option Unit :=
  ledger.onceSums? (requirePositive amount "withdrawal amount must be positive") idempotencyKey <|
    ledger.takeSums? userId .funding .available amount fun taken => taken.idSums? 1

def transferSums? (userId : UserId) (fromWallet toWallet : WalletType) (amount : Decimal128)
    (idempotencyKey : String) : Option Unit :=
  ledger.onceSums? (requirePositive amount "transfer amount must be positive") idempotencyKey <|
    ledger.takeSums? userId fromWallet .available amount fun taken => do
      taken.balanceSum? userId toWallet .available amount
      taken.idSums? 1

def freezeSums? (userId : UserId) (wallet : WalletType) (amount : Decimal128)
    (idempotencyKey : String) : Option Unit :=
  ledger.onceSums? (requirePositive amount "freeze amount must be positive") idempotencyKey <|
    ledger.takeSums? userId wallet .available amount fun taken => do
      taken.balanceSum? userId wallet .frozen amount
      taken.idSums? 1

def unfreezeSums? (userId : UserId) (wallet : WalletType) (amount : Decimal128)
    (idempotencyKey : String) : Option Unit :=
  ledger.onceSums? (requirePositive amount "unfreeze amount must be positive") idempotencyKey <|
    ledger.takeSums? userId wallet .frozen amount fun taken => do
      taken.balanceSum? userId wallet .available amount
      taken.idSums? 1

/-! ## Positions -/

def openSums? (userId : UserId) (marginAmount fee : Decimal128) (idempotencyKey : String) :
    Option Unit :=
  ledger.onceSums?
    ((requirePositive marginAmount "margin amount must be positive").or (requireFee fee))
    idempotencyKey do
      -- computed before the account is looked up
      let totalDeduct ← marginAmount.add? fee
      ledger.takeSums? userId .futures .frozen totalDeduct fun taken => do
        taken.balanceSum? userId .futures .margin marginAmount
        taken.feeSums? fee
        taken.idSums? (1 + entriesFor fee)

/-- Release margin: the net credit is the margin, with the profit and less the fee. -/
def releaseSums? (userId : UserId) (marginReleased realizedPnl fee : Decimal128) :
    Option Unit := do
  let balance := ledger.heldBalance userId .futures
  let _ ← balance.margin.sub? marginReleased
  let gross ← marginReleased.add? realizedPnl
  let netCredit ← gross.sub? fee
  let _ ← balance.available.add? netCredit
  some ()

/-- Settle the profit with a counterparty's margin. -/
def counterpartySums? (counterpartyId : UserId) (realizedPnl : Decimal128) : Option Unit :=
  let balance := ledger.heldBalance counterpartyId .futures
  if realizedPnl.isPositive then do
    let _ ← balance.margin.sub? realizedPnl
    some ()
  else if realizedPnl.isNegative then do
    let pnlAbs ← realizedPnl.abs?
    let _ ← balance.margin.add? pnlAbs
    some ()
  else
    some ()

/-- Collect the fee and journal a closed position. -/
def closedSums? (realizedPnl fee : Decimal128) : Option Unit := do
  ledger.feeSums? fee
  let _ ← realizedPnl.abs?
  ledger.idSums? (1 + (if realizedPnl.isZero then 0 else 1) + entriesFor fee)

def closeSums? (userId : UserId) (marginReleased realizedPnl fee : Decimal128)
    (counterpartyId : UserId) (idempotencyKey : String) : Option Unit :=
  let sums := do
    ledger.releaseSums? userId marginReleased realizedPnl fee
    (ledger.releaseMargin userId marginReleased realizedPnl fee).counterpartySums? counterpartyId
      realizedPnl
    ledger.closedSums? realizedPnl fee
  ledger.onceSums?
    ((requirePositive marginReleased "margin released must be positive").or (requireFee fee))
    idempotencyKey <|
      ledger.marginSums? userId marginReleased <|
        if realizedPnl.isPositive then ledger.marginSums? counterpartyId realizedPnl sums
        else sums

def closeSettledSums? (userId : UserId) (marginReleased realizedPnl fee : Decimal128)
    (idempotencyKey : String) : Option Unit :=
  ledger.onceSums?
    ((requirePositive marginReleased "margin released must be positive").or (requireFee fee))
    idempotencyKey <|
      ledger.marginSums? userId marginReleased do
        ledger.releaseSums? userId marginReleased realizedPnl fee
        ledger.closedSums? realizedPnl fee

/-! ## Liquidation and funding -/

/-- Move the surplus from escrow to the insurance fund, if escrow holds it. -/
def surplusSums? (surplus : Decimal128) : Option Unit :=
  if ledger.systemBalance .escrow < surplus then
    some ()
  else do
    let _ ← (ledger.systemBalance .escrow).sub? surplus
    ledger.systemSum? .insuranceFund surplus
    ledger.idSums? 2

/-- Cover the deficit from the insurance fund. -/
def deficitSums? (deficit : Decimal128) : Option Unit := do
  let _ ← (ledger.systemBalance .insuranceFund).sub? deficit
  ledger.systemSum? .escrow deficit
  ledger.idSums? 2

def liquidateSums? (userId : UserId) (marginSeized surplus : Decimal128)
    (idempotencyKey : String) : Option Unit :=
  let seized := ledger.addSystemBalance .escrow marginSeized
  let seizing := do
    let _ ← (ledger.heldBalance userId .futures).margin.sub? marginSeized
    ledger.systemSum? .escrow marginSeized
  ledger.onceSums? (requirePositive marginSeized "margin seized must be positive")
    idempotencyKey <|
      ledger.marginSums? userId marginSeized <|
        if surplus.isNegative then do
          let deficit ← surplus.abs?
          if ledger.systemBalance .insuranceFund < deficit then
            some ()
          else do
            seizing
            seized.deficitSums? deficit
        else do
          seizing
          if surplus.isPositive then seized.surplusSums? surplus else ledger.idSums? 1

/-- A user pays from available, then from margin. -/
def paySums? (balance : WalletBalance) (payment : Decimal128) : Option Unit := do
  let fromAvailable := min payment balance.available
  let fromMargin ← payment.sub? fromAvailable
  if fromMargin.isPositive ∧ balance.margin < fromMargin then do
    -- the text of the error
    let _ ← balance.available.add? balance.margin
    some ()
  else do
    let _ ← balance.available.sub? fromAvailable
    if fromMargin.isPositive then do
      let _ ← balance.margin.sub? fromMargin
      some ()
    ledger.systemSum? .funding payment
    ledger.idSums? (entriesFor fromAvailable + entriesFor fromMargin)

/-- A user receives out of the pool. -/
def receiveSums? (balance : WalletBalance) (payment : Decimal128) : Option Unit := do
  let receive ← payment.abs?
  let _ ← balance.available.add? receive
  ledger.systemSum? .funding payment
  ledger.idSums? 1

def fundingSums? (userId : UserId) (payment : Decimal128) (idempotencyKey : String) :
    Option Unit :=
  if payment.isZero then
    some ()
  else
    ledger.onceSums? none idempotencyKey <|
      match ledger.accounts[userId]? with
      | none => some ()
      | some account =>
          if payment.isPositive then ledger.paySums? (account.walletMut .futures) payment
          else ledger.receiveSums? (account.walletMut .futures) payment

/-! ## Calls -/

/-- What a call computes. -/
def callSums? : LedgerCall → Option Unit
  | .deposit userId amount idempotencyKey timestamp =>
      (ledger.deposit? userId amount idempotencyKey timestamp).map fun _ => ()
  | .withdraw userId amount idempotencyKey _ => ledger.withdrawSums? userId amount idempotencyKey
  | .transfer userId fromWallet toWallet amount idempotencyKey _ =>
      ledger.transferSums? userId fromWallet toWallet amount idempotencyKey
  | .freezeForOrder userId wallet amount idempotencyKey _ =>
      ledger.freezeSums? userId wallet amount idempotencyKey
  | .unfreezeOrder userId wallet amount idempotencyKey _ =>
      ledger.unfreezeSums? userId wallet amount idempotencyKey
  | .openPosition userId marginAmount fee idempotencyKey _ =>
      ledger.openSums? userId marginAmount fee idempotencyKey
  | .closePosition userId marginReleased realizedPnl fee counterpartyId idempotencyKey _ =>
      ledger.closeSums? userId marginReleased realizedPnl fee counterpartyId idempotencyKey
  | .closePositionSettled userId marginReleased realizedPnl fee idempotencyKey _ =>
      ledger.closeSettledSums? userId marginReleased realizedPnl fee idempotencyKey
  | .liquidate userId marginSeized surplus idempotencyKey _ =>
      ledger.liquidateSums? userId marginSeized surplus idempotencyKey
  | .settleFunding userId payment idempotencyKey _ =>
      ledger.fundingSums? userId payment idempotencyKey
  | .settleFundingChecked userId symbol fundingPeriodId payment _ =>
      ledger.fundingSums? userId payment (fundingPeriodKey fundingPeriodId userId symbol)
  | .settleRealizedPnlCapped userId signed idempotencyKey timestamp =>
      (ledger.settleRealizedPnlCapped? userId signed idempotencyKey timestamp).map fun _ => ()
  | .getOrCreateAccount _ => some ()

/-- Carry out a call whose numbers stay in range. -/
def perform? (call : LedgerCall) : Option (Ledger × OperationResult) := do
  ledger.callSums? call
  some (ledger.perform call)

theorem agrees_perform (call : LedgerCall) : Agrees (ledger.perform? call) (ledger.perform call) :=
  .after fun _ => .pure _

/-- One call of a run, if it returns. -/
def step? (ledger : Ledger) (call : LedgerCall) :
    Option (Ledger × List (LedgerCall × OperationResult)) := do
  let next ← ledger.perform? call
  some (next.1, [(call, next.2)])

/-- Where every call of a run returns, the run is the one of exact numbers. -/
theorem agrees_runs (calls : List LedgerCall) :
    Agrees (runPartial step? ledger calls) (run step ledger calls) :=
  agrees_run (fun ledger call => (ledger.agrees_perform call).bind_some fun next =>
    (next.1, [(call, next.2)])) ledger calls

end Ledger
end Exg
