import Exg.Common.Operators
import Exg.Ledger.Ledger

/-!
# The ledger, with its panics

`deposit`, `settle_realized_pnl_capped` and the invariant check as they run when every operator
may panic.  Each function first computes what the source computes, in its order, and then has the
result of exact numbers.  The source adds up the values of hash maps in an order of its own; here
they are added up in the order of their keys.
-/

namespace Exg

open Support

/-- `total`. -/
def WalletBalance.total? (balance : WalletBalance) : Option Decimal128 := do
  let held ← balance.available.add? balance.frozen
  held.add? balance.margin

namespace Ledger

/-! ## Operations -/

def deposit? (ledger : Ledger) (userId : UserId) (amount : Decimal128) (idempotencyKey : String)
    (timestamp : UnixMicros) : Option (Except LedgerError Ledger) :=
  let deposited := ledger.deposit userId amount idempotencyKey timestamp
  if !amount.isPositive || idempotencyKey ∈ ledger.idempotencyKeys then
    some deposited
  else do
    let account := ledger.accounts[userId]?.getD (.new userId)
    let _ ← addWord? ledger.nextJournalId 1
    let _ ← (account.walletMut .funding).available.add? amount
    some deposited

/-- What a settlement computes for a user whose available Funding balance is given. -/
def settlementSums? (ledger : Ledger) (available signed : Decimal128) : Option Unit :=
  if signed.isPositive then do
    let _ ← available.add? signed
    let taken ← signed.neg?
    let _ ← (ledger.systemBalance .funding).add? taken
    let _ ← addWord? ledger.nextJournalId 1
    some ()
  else do
    let owed ← signed.abs?
    let cover := min owed available
    let _ ← available.sub? cover
    let _ ← (ledger.systemBalance .funding).add? cover
    let _ ← cover.neg?
    if cover.isPositive then do
      let _ ← addWord? ledger.nextJournalId 1
      some ()
    else
      some ()

def settleRealizedPnlCapped? (ledger : Ledger) (userId : UserId) (signed : Decimal128)
    (idempotencyKey : String) (timestamp : UnixMicros) :
    Option (Ledger × Except LedgerError Decimal128) :=
  let settled := ledger.settleRealizedPnlCapped userId signed idempotencyKey timestamp
  if signed.isZero || idempotencyKey ∈ ledger.idempotencyKeys then
    some settled
  else
    match ledger.accounts[userId]? with
    | none => some settled
    | some account => do
        ledger.settlementSums? (account.walletMut .funding).available signed
        some settled

/-! ## Invariant checks -/

def userTotal? (ledger : Ledger) : Option Decimal128 := do
  let wallets := ledger.accounts.toList.flatMap fun entry => entry.2.wallets.toList
  let totals ← wallets.mapM fun entry => entry.2.total?
  Decimal128.sum? totals

def systemTotal? (ledger : Ledger) : Option Decimal128 :=
  Decimal128.sum? (ledger.systemAccounts.toList.map Prod.snd)

/-- What an entry of the journal adds to the money that came from outside. -/
def JournalEntry.external? (entry : JournalEntry) (total : Decimal128) : Option Decimal128 :=
  match entry.entryType with
  | .deposit => total.add? entry.amount
  | .withdrawal => total.sub? entry.amount
  | _ => some total

def netExternal? (journal : List JournalEntry) : Option Decimal128 :=
  journal.foldlM (fun total entry => JournalEntry.external? entry total) 0

def verifyGlobalInvariant? (ledger : Ledger) : Option (Except LedgerError Unit) := do
  let users ← ledger.userTotal?
  let system ← ledger.systemTotal?
  let _ ← netExternal? ledger.journal
  let _ ← users.add? system
  some ledger.verifyGlobalInvariant

/-- The comparisons of `verify_all_invariants`: no balance is negative. -/
def verifyBalances (ledger : Ledger) : Except LedgerError Unit := do
  ledger.accounts.keys.forM ledger.verifyAccountInvariant
  nonNegativeSystemWallets.forM fun wallet =>
    if (ledger.systemBalance wallet).isNegative then
      .error (.negativeSystemAccount wallet (ledger.systemBalance wallet))
    else
      .ok ()

def verifyAllInvariants? (ledger : Ledger) : Option (Except LedgerError Unit) :=
  match ledger.verifyBalances with
  | .error error => some (.error error)
  | .ok () => ledger.verifyGlobalInvariant?

/-! ## What they agree with -/

variable (ledger : Ledger)

theorem agrees_deposit (userId : UserId) (amount : Decimal128) (idempotencyKey : String)
    (timestamp : UnixMicros) : Agrees (ledger.deposit? userId amount idempotencyKey timestamp)
      (ledger.deposit userId amount idempotencyKey timestamp) := by
  rw [deposit?]
  split
  · exact .pure _
  · exact .after fun _ => .after fun _ => .pure _

theorem agrees_settleRealizedPnlCapped (userId : UserId) (signed : Decimal128)
    (idempotencyKey : String) (timestamp : UnixMicros) :
    Agrees (ledger.settleRealizedPnlCapped? userId signed idempotencyKey timestamp)
      (ledger.settleRealizedPnlCapped userId signed idempotencyKey timestamp) := by
  rw [settleRealizedPnlCapped?]
  split
  · exact .pure _
  · split
    · exact .pure _
    · exact .after fun _ => .pure _

theorem agrees_verifyAllInvariants :
    Agrees ledger.verifyAllInvariants? ledger.verifyAllInvariants := by
  have split : ledger.verifyAllInvariants =
      ledger.verifyBalances.bind fun _ => ledger.verifyGlobalInvariant := by
    rw [verifyAllInvariants, verifyBalances]
    cases ledger.accounts.keys.forM ledger.verifyAccountInvariant <;> rfl
  rw [split, verifyAllInvariants?]
  cases ledger.verifyBalances with
  | error error => exact .pure _
  | ok _ => exact .after fun _ => .after fun _ => .after fun _ => .after fun _ => .pure _

end Ledger
end Exg
