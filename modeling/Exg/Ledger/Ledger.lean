import Exg.Common.Decimal
import Exg.Common.Types
import Exg.Support.MapTotal

/-!
# The ledger

Accounts, the system's own accounts, the journal and the idempotency keys, with the
operations that post-trade processing uses: `deposit`, `settle_realized_pnl_capped` and
the invariant check.  The other operations stand in a module of their own.
-/

namespace Exg

open Support

/-- Wallet types in the exchange. -/
inductive WalletType where
  | spot
  | futures
  | funding
  | insuranceFund
  | feeCollection
  | escrow
  deriving DecidableEq, Repr

namespace WalletType

def index : WalletType → Nat
  | .spot => 0
  | .futures => 1
  | .funding => 2
  | .insuranceFund => 3
  | .feeCollection => 4
  | .escrow => 5

def order : WalletType → WalletType → Ordering := compareOn index

instance : Std.TransCmp order := inferInstanceAs (Std.TransCmp (compareOn index))

instance : Std.LawfulEqCmp order where
  eq_of_compare := by
    intro left right equal
    have same : left.index = right.index := Std.LawfulEqOrd.eq_of_compare equal
    cases left <;> cases right <;> first | rfl | cases same

end WalletType

/-- A single wallet balance with three sub-fields. -/
structure WalletBalance where
  available : Decimal128
  frozen : Decimal128
  margin : Decimal128
  deriving DecidableEq, Repr

namespace WalletBalance

def default : WalletBalance := ⟨0, 0, 0⟩

/-- Total balance across all sub-fields. -/
def total (balance : WalletBalance) : Decimal128 :=
  balance.available + balance.frozen + balance.margin

end WalletBalance

/-- User account containing multiple wallets. -/
structure UserAccount where
  userId : UserId
  wallets : Std.ExtTreeMap WalletType WalletBalance WalletType.order

namespace UserAccount

def new (userId : UserId) : UserAccount := ⟨userId, ∅⟩

/-- Get a wallet, or the one that would be created. -/
def walletMut (account : UserAccount) (wallet : WalletType) : WalletBalance :=
  account.wallets[wallet]?.getD .default

def total (account : UserAccount) : Decimal128 :=
  mapTotal (fun _ balance => balance.total) account.wallets

end UserAccount

/-- Which sub-field of a wallet balance is affected. -/
inductive BalanceField where
  | available
  | frozen
  | margin
  deriving DecidableEq, Repr

/-- Classification of the ledger operation. -/
inductive JournalEntryType where
  | deposit
  | withdrawal
  | tradeFee
  | positionOpen
  | positionClose
  | fundingPayment
  | liquidation
  | transfer
  | orderFreeze
  | orderUnfreeze
  | insuranceFundContribution
  | adlSettlement
  deriving DecidableEq, Repr

/-- The accounts and the amount of a journal entry. -/
structure Movement where
  debitUser : UserId
  debitWallet : WalletType
  debitField : BalanceField
  creditUser : UserId
  creditWallet : WalletType
  creditField : BalanceField
  amount : Decimal128
  deriving DecidableEq, Repr

/-- A single double-entry bookkeeping record. -/
structure JournalEntry extends Movement where
  id : Nat
  entryType : JournalEntryType
  idempotencyKey : String
  timestamp : UnixMicros
  deriving DecidableEq, Repr

inductive LedgerError where
  | invalidQuantity (text : String)
  | accountNotFound (userId : UserId)
  | insufficientBalance (required available : Decimal128)
  | insuranceFundDepleted
  | negativeBalance (userId : UserId) (wallet : WalletType) (field : BalanceField)
      (value : Decimal128)
  | negativeSystemAccount (wallet : WalletType) (value : Decimal128)
  | globalInvariant (userTotal systemTotal expected : Decimal128)
  deriving DecidableEq, Repr

/-- System user id, the counterparty of deposits and settlements. -/
def systemUserId : UserId := 0

/-- The core ledger holding all accounts and the journal. -/
structure Ledger where
  accounts : Std.ExtTreeMap UserId UserAccount compare
  systemAccounts : Std.ExtTreeMap WalletType Decimal128 WalletType.order
  journal : List JournalEntry
  nextJournalId : Nat
  idempotencyKeys : List String

namespace Ledger

def new : Ledger := ⟨∅, ∅, [], 1, []⟩

def getOrCreateAccount (ledger : Ledger) (userId : UserId) : Ledger :=
  match ledger.accounts[userId]? with
  | some _ => ledger
  | none => { ledger with accounts := ledger.accounts.insert userId (.new userId) }

/-- Get account balance snapshot for a specific wallet. -/
def getBalance (ledger : Ledger) (userId : UserId) (wallet : WalletType) :
    Option WalletBalance :=
  ledger.accounts[userId]?.bind fun account => account.wallets[wallet]?

def systemBalance (ledger : Ledger) (wallet : WalletType) : Decimal128 :=
  ledger.systemAccounts[wallet]?.getD 0

def addSystemBalance (ledger : Ledger) (wallet : WalletType) (amount : Decimal128) : Ledger :=
  { ledger with
    systemAccounts :=
      ledger.systemAccounts.insert wallet (ledger.systemBalance wallet + amount) }

/-- Store an account whose Funding wallet has a new available balance. -/
def setFunding (ledger : Ledger) (userId : UserId) (account : UserAccount)
    (available : Decimal128) : Ledger :=
  { ledger with
    accounts := ledger.accounts.insert userId
      { account with
        wallets := account.wallets.insert .funding
          { account.walletMut .funding with available := available } } }

/-- Take the next journal id and append an entry between two Funding wallets. -/
def appendJournal (ledger : Ledger) (debitUser creditUser : UserId) (amount : Decimal128)
    (entryType : JournalEntryType) (idempotencyKey : String) (timestamp : UnixMicros) : Ledger :=
  { ledger with
    nextJournalId := ledger.nextJournalId + 1
    journal := ledger.journal ++
      [{ id := ledger.nextJournalId
         debitUser := debitUser
         debitWallet := .funding
         debitField := .available
         creditUser := creditUser
         creditWallet := .funding
         creditField := .available
         amount := amount
         entryType := entryType
         idempotencyKey := idempotencyKey
         timestamp := timestamp }] }

/-- Deposit: external funds to the user's Funding wallet. -/
def deposit (ledger : Ledger) (userId : UserId) (amount : Decimal128) (idempotencyKey : String)
    (timestamp : UnixMicros) : Except LedgerError Ledger :=
  if !amount.isPositive then
    .error (.invalidQuantity "deposit amount must be positive")
  else if idempotencyKey ∈ ledger.idempotencyKeys then
    .ok ledger
  else
    let account := ledger.accounts[userId]?.getD (.new userId)
    let keyed := { ledger with idempotencyKeys := idempotencyKey :: ledger.idempotencyKeys }
    let credited := keyed.setFunding userId account
      ((account.walletMut .funding).available + amount)
    .ok (credited.appendJournal systemUserId userId amount .deposit idempotencyKey timestamp)

/-- Settle a signed amount against the system Funding pool, capping a debit at the user's
available balance.  Returns the signed amount actually moved. -/
def settleRealizedPnlCapped (ledger : Ledger) (userId : UserId) (signed : Decimal128)
    (idempotencyKey : String) (timestamp : UnixMicros) :
    Ledger × Except LedgerError Decimal128 :=
  if signed.isZero then
    (ledger, .ok 0)
  else if idempotencyKey ∈ ledger.idempotencyKeys then
    (ledger, .ok 0)
  else
    let keyed := { ledger with idempotencyKeys := idempotencyKey :: ledger.idempotencyKeys }
    match ledger.accounts[userId]? with
    | none => (keyed, .error (.accountNotFound userId))
    | some account =>
        let available := (account.walletMut .funding).available
        if signed.isPositive then
          let moved := (keyed.setFunding userId account (available + signed)).addSystemBalance
            .funding (-signed)
          (moved.appendJournal systemUserId userId signed .fundingPayment idempotencyKey timestamp,
            .ok signed)
        else
          let cover := min signed.abs available
          let moved := (keyed.setFunding userId account (available - cover)).addSystemBalance
            .funding cover
          (if cover.isPositive then
              moved.appendJournal userId systemUserId cover .fundingPayment idempotencyKey timestamp
            else
              moved,
            .ok (-cover))

/-! ## Invariant checks -/

/-- System wallet types that must always be non-negative. -/
def nonNegativeSystemWallets : List WalletType := [.insuranceFund, .feeCollection, .escrow]

def userTotal (ledger : Ledger) : Decimal128 :=
  mapTotal (fun _ account => account.total) ledger.accounts

def systemTotal (ledger : Ledger) : Decimal128 :=
  mapTotal (fun _ balance => balance) ledger.systemAccounts

/-- Deposits minus withdrawals. -/
def netExternal (journal : List JournalEntry) : Decimal128 :=
  (journal.map fun entry =>
    match entry.entryType with
    | .deposit => entry.amount
    | .withdrawal => -entry.amount
    | _ => 0).sum

/-- Verify that the books balance, in exact numbers; the sums of the source may overflow, as
those of `verifyGlobalInvariant?` do. -/
def verifyGlobalInvariant (ledger : Ledger) : Except LedgerError Unit :=
  if ledger.userTotal + ledger.systemTotal ≠ netExternal ledger.journal then
    .error (.globalInvariant ledger.userTotal ledger.systemTotal (netExternal ledger.journal))
  else
    .ok ()

/-- Verify one balance: no sub-field is negative. -/
def verifyBalance (userId : UserId) (wallet : WalletType) (balance : WalletBalance) :
    Except LedgerError Unit :=
  if balance.available.isNegative then
    .error (.negativeBalance userId wallet .available balance.available)
  else if balance.frozen.isNegative then
    .error (.negativeBalance userId wallet .frozen balance.frozen)
  else if balance.margin.isNegative then
    .error (.negativeBalance userId wallet .margin balance.margin)
  else
    .ok ()

/-- Verify a single account. -/
def verifyAccountInvariant (ledger : Ledger) (userId : UserId) : Except LedgerError Unit :=
  match ledger.accounts[userId]? with
  | none => .error (.accountNotFound userId)
  | some account =>
      account.wallets.toList.forM fun entry => verifyBalance userId entry.1 entry.2

/-- Verify all account invariants and the global invariant. -/
def verifyAllInvariants (ledger : Ledger) : Except LedgerError Unit := do
  ledger.accounts.keys.forM ledger.verifyAccountInvariant
  nonNegativeSystemWallets.forM fun wallet =>
    if (ledger.systemBalance wallet).isNegative then
      .error (.negativeSystemAccount wallet (ledger.systemBalance wallet))
    else
      .ok ()
  ledger.verifyGlobalInvariant

end Ledger
end Exg
