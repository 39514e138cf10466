import Exg.Ledger.Ledger
import Mathlib.Algebra.Order.Group.MinMax

/-!
# What the ledger operations do

`settled` describes a settlement by the amount it moves: the capped operation is
`settled` at the capped amount, so that a settlement and a replay of the amount it moved
do the same.  The invariant `Sound` is what `verify_all_invariants` checks, and every
operation used here keeps it.
-/

namespace Exg

open Support

theorem Decimal128.abs_of_nonneg {value : Decimal128} (nonneg : 0 ≤ value) : value.abs = value := by
  refine Decimal128.ext ?_
  exact Int.natAbs_of_nonneg (Decimal128.le_iff_raw.1 nonneg)

theorem Decimal128.abs_of_nonpos {value : Decimal128} (nonpos : value ≤ 0) :
    value.abs = -value := by
  refine Decimal128.ext ?_
  exact Int.ofNat_natAbs_of_nonpos (Decimal128.le_iff_raw.1 nonpos)

namespace UserAccount

private theorem total_setFunding (account : UserAccount) (available : Decimal128) :
    ({ account with
      wallets := account.wallets.insert .funding
        { account.walletMut .funding with available := available } } : UserAccount).total =
      account.total + (available - (account.walletMut .funding).available) := by
  have changed := mapTotal_insert (fun _ (balance : WalletBalance) => balance.total)
    account.wallets .funding { account.walletMut .funding with available := available }
  have old : account.wallets[WalletType.funding]?.elim 0
      (fun balance : WalletBalance => balance.total) = (account.walletMut .funding).total := by
    rw [walletMut]
    cases account.wallets[WalletType.funding]? with
    | none => rfl
    | some balance => rfl
  rw [old] at changed
  refine add_right_cancel (b := (account.walletMut .funding).total) ?_
  rw [total, total, changed]
  simp only [WalletBalance.total]
  abel

end UserAccount

namespace Ledger

variable (ledger : Ledger)

/-- A user's available Funding balance; a missing account counts as zero. -/
def fundingBalance (userId : UserId) : Decimal128 :=
  (ledger.getBalance userId .funding).elim 0 WalletBalance.available

private theorem fundingBalance_eq {ledger : Ledger} {userId : UserId} {account : UserAccount}
    (known : ledger.accounts[userId]?.getD (.new userId) = account) :
    ledger.fundingBalance userId = (account.walletMut .funding).available := by
  subst known
  rw [fundingBalance, getBalance]
  cases ledger.accounts[userId]? with
  | none => simp [UserAccount.new, UserAccount.walletMut, WalletBalance.default]
  | some account =>
      simp only [Option.bind_some, Option.getD_some, UserAccount.walletMut]
      cases account.wallets[WalletType.funding]? <;> rfl

/-! ## Changes of one balance -/

section SetFunding

variable (userId : UserId) (account : UserAccount) (available : Decimal128)

private theorem fundingBalance_setFunding (other : UserId) :
    (ledger.setFunding userId account available).fundingBalance other =
      if userId = other then available else ledger.fundingBalance other := by
  by_cases own : userId = other
  · subst own
    simp [fundingBalance, getBalance, setFunding]
  · simp [fundingBalance, getBalance, setFunding, Std.ExtTreeMap.getElem?_insert, own]

private theorem userTotal_setFunding
    (known : ledger.accounts[userId]?.getD (.new userId) = account) :
    (ledger.setFunding userId account available).userTotal =
      ledger.userTotal + (available - ledger.fundingBalance userId) := by
  have changed := mapTotal_insert (fun _ (account : UserAccount) => account.total)
    ledger.accounts userId
    { account with
      wallets := account.wallets.insert .funding
        { account.walletMut .funding with available := available } }
  have old : ledger.accounts[userId]?.elim 0 (fun account : UserAccount => account.total) =
      account.total := by
    subst known
    cases ledger.accounts[userId]? with
    | none => simp [UserAccount.new, UserAccount.total]
    | some account => rfl
  rw [old, UserAccount.total_setFunding] at changed
  refine add_right_cancel (b := account.total) ?_
  rw [userTotal, userTotal, setFunding, changed, fundingBalance_eq known]
  abel

end SetFunding

theorem systemBalance_addSystemBalance (wallet other : WalletType) (amount : Decimal128) :
    (ledger.addSystemBalance wallet amount).systemBalance other =
      if wallet = other then ledger.systemBalance wallet + amount
      else ledger.systemBalance other := by
  by_cases own : wallet = other
  · subst own
    simp [systemBalance, addSystemBalance]
  · simp [systemBalance, addSystemBalance, Std.ExtTreeMap.getElem?_insert, own]

theorem systemTotal_addSystemBalance (wallet : WalletType) (amount : Decimal128) :
    (ledger.addSystemBalance wallet amount).systemTotal = ledger.systemTotal + amount := by
  have changed := mapTotal_insert (fun _ (balance : Decimal128) => balance)
    ledger.systemAccounts wallet (ledger.systemBalance wallet + amount)
  have old : ledger.systemAccounts[wallet]?.elim 0 (fun balance : Decimal128 => balance) =
      ledger.systemBalance wallet := by
    rw [systemBalance]
    cases ledger.systemAccounts[wallet]? <;> rfl
  rw [old] at changed
  refine add_right_cancel (b := ledger.systemBalance wallet) ?_
  rw [systemTotal, systemTotal, addSystemBalance, changed]
  abel

theorem netExternal_append (first second : List JournalEntry) :
    netExternal (first ++ second) = netExternal first + netExternal second := by
  simp [netExternal]

/-! ## Settlements -/

/-- The journal entry of a settlement that moves an amount. -/
def settlementEntry (id : Nat) (userId : UserId) (moved : Decimal128) (idempotencyKey : String)
    (timestamp : UnixMicros) : JournalEntry where
  debitUser := if 0 < moved then systemUserId else userId
  debitWallet := .funding
  debitField := .available
  creditUser := if 0 < moved then userId else systemUserId
  creditWallet := .funding
  creditField := .available
  amount := moved.abs
  id := id
  entryType := .fundingPayment
  idempotencyKey := idempotencyKey
  timestamp := timestamp

/-- What a settlement leaves behind when it moves an amount. -/
def settled (userId : UserId) (moved : Decimal128) (idempotencyKey : String)
    (timestamp : UnixMicros) : Ledger :=
  let account := ledger.accounts[userId]?.getD (.new userId)
  let keyed := { ledger with idempotencyKeys := idempotencyKey :: ledger.idempotencyKeys }
  let changed := (keyed.setFunding userId account
    (ledger.fundingBalance userId + moved)).addSystemBalance
    .funding (-moved)
  if moved = 0 then
    changed
  else
    { changed with
      nextJournalId := ledger.nextJournalId + 1
      journal := ledger.journal ++
        [settlementEntry ledger.nextJournalId userId moved idempotencyKey timestamp] }

section Settle

variable {ledger} {userId : UserId} {signed : Decimal128} {key : String} {timestamp : UnixMicros}

/-- A capped settlement moves the signed amount, or minus the available balance. -/
theorem settleRealizedPnlCapped_eq {account : UserAccount}
    (known : ledger.accounts[userId]? = some account) (nonzero : signed ≠ 0)
    (fresh : key ∉ ledger.idempotencyKeys) (covered : 0 ≤ ledger.fundingBalance userId) :
    ledger.settleRealizedPnlCapped userId signed key timestamp =
      (ledger.settled userId (max signed (-ledger.fundingBalance userId)) key timestamp,
        .ok (max signed (-ledger.fundingBalance userId))) := by
  have balance : ledger.fundingBalance userId = (account.walletMut .funding).available :=
    fundingBalance_eq (by rw [known]; rfl)
  rw [settleRealizedPnlCapped, if_neg (by simpa using nonzero), if_neg fresh]
  by_cases credit : 0 < signed
  · have whole : max signed (-ledger.fundingBalance userId) = signed :=
      max_eq_left ((neg_nonpos.2 covered).trans credit.le)
    simp only [known, whole, settled, Option.getD_some, ← balance]
    rw [if_pos (by simpa using credit), if_neg nonzero]
    simp [appendJournal, settlementEntry, credit, Decimal128.abs_of_nonneg credit.le,
      setFunding, addSystemBalance]
  · have owed : signed.abs = -signed := Decimal128.abs_of_nonpos (not_lt.1 credit)
    have cover : min signed.abs (ledger.fundingBalance userId) =
        -(max signed (-ledger.fundingBalance userId)) := by
      rw [owed, ← min_neg_neg, neg_neg]
    have nonpos : max signed (-ledger.fundingBalance userId) ≤ 0 :=
      max_le (not_lt.1 credit) (neg_nonpos.2 covered)
    simp only [known, settled, Option.getD_some, ← balance, cover, sub_neg_eq_add, neg_neg]
    rw [if_neg (by simpa using not_lt.1 credit)]
    refine congrArg (·, _) ?_
    by_cases nothing : max signed (-ledger.fundingBalance userId) = 0
    · rw [if_pos nothing, if_neg (by simp [nothing])]
    · rw [if_neg nothing, if_pos (Decimal128.isPositive_iff.2
        (neg_pos.2 (lt_of_le_of_ne nonpos nothing)))]
      simp [appendJournal, settlementEntry, not_lt.2 nonpos, Decimal128.abs_of_nonpos nonpos,
        setFunding, addSystemBalance]

end Settle

section Settled

variable (userId : UserId) (moved : Decimal128) (key : String) (timestamp : UnixMicros)

theorem fundingBalance_settled (other : UserId) :
    (ledger.settled userId moved key timestamp).fundingBalance other =
      if userId = other then ledger.fundingBalance userId + moved
      else ledger.fundingBalance other := by
  have changed := fundingBalance_setFunding
    { ledger with idempotencyKeys := key :: ledger.idempotencyKeys }
    userId (ledger.accounts[userId]?.getD (.new userId))
      (ledger.fundingBalance userId + moved) other
  rw [settled]
  split <;> exact changed

theorem systemBalance_settled (wallet : WalletType) :
    (ledger.settled userId moved key timestamp).systemBalance wallet =
      if wallet = .funding then ledger.systemBalance .funding - moved
      else ledger.systemBalance wallet := by
  have changed := systemBalance_addSystemBalance
    ({ ledger with idempotencyKeys := key :: ledger.idempotencyKeys }.setFunding userId
      (ledger.accounts[userId]?.getD (.new userId)) (ledger.fundingBalance userId + moved))
    .funding wallet (-moved)
  rw [settled, sub_eq_add_neg]
  simp only [eq_comm (a := wallet)]
  split <;> exact changed

@[simp]
theorem idempotencyKeys_settled :
    (ledger.settled userId moved key timestamp).idempotencyKeys =
      key :: ledger.idempotencyKeys := by
  rw [settled]
  split <;> rfl

theorem journal_settled :
    (ledger.settled userId moved key timestamp).journal =
      ledger.journal ++
        if moved = 0 then []
        else [settlementEntry ledger.nextJournalId userId moved key timestamp] := by
  rw [settled]
  split
  · exact (List.append_nil _).symm
  · rfl

theorem nextJournalId_settled :
    (ledger.settled userId moved key timestamp).nextJournalId =
      ledger.nextJournalId + if moved = 0 then 0 else 1 := by
  rw [settled]
  split <;> rfl

end Settled

/-! ## The other operations -/

section Accounts

theorem getOrCreateAccount_known (userId : UserId) :
    ∃ account, (ledger.getOrCreateAccount userId).accounts[userId]? = some account := by
  rw [getOrCreateAccount]
  cases found : ledger.accounts[userId]? with
  | none => exact ⟨.new userId, by simp⟩
  | some account => exact ⟨account, found⟩

@[simp]
theorem fundingBalance_getOrCreateAccount (userId other : UserId) :
    (ledger.getOrCreateAccount userId).fundingBalance other = ledger.fundingBalance other := by
  rw [getOrCreateAccount]
  cases found : ledger.accounts[userId]? with
  | some account => rfl
  | none =>
      by_cases own : userId = other
      · subst own
        simp [fundingBalance, getBalance, found, UserAccount.new]
      · simp [fundingBalance, getBalance, Std.ExtTreeMap.getElem?_insert, own]

/-- Creating an account touches nothing but the accounts. -/
theorem getOrCreateAccount_frame (userId : UserId) :
    ∃ accounts, ledger.getOrCreateAccount userId = { ledger with accounts := accounts } := by
  rw [getOrCreateAccount]
  cases ledger.accounts[userId]? with
  | none => exact ⟨_, rfl⟩
  | some account => exact ⟨ledger.accounts, rfl⟩

@[simp]
theorem systemBalance_getOrCreateAccount (userId : UserId) (wallet : WalletType) :
    (ledger.getOrCreateAccount userId).systemBalance wallet = ledger.systemBalance wallet := by
  obtain ⟨accounts, same⟩ := ledger.getOrCreateAccount_frame userId
  rw [same]
  rfl

@[simp]
theorem journal_getOrCreateAccount (userId : UserId) :
    (ledger.getOrCreateAccount userId).journal = ledger.journal := by
  obtain ⟨accounts, same⟩ := ledger.getOrCreateAccount_frame userId
  rw [same]

@[simp]
theorem nextJournalId_getOrCreateAccount (userId : UserId) :
    (ledger.getOrCreateAccount userId).nextJournalId = ledger.nextJournalId := by
  obtain ⟨accounts, same⟩ := ledger.getOrCreateAccount_frame userId
  rw [same]

@[simp]
theorem idempotencyKeys_getOrCreateAccount (userId : UserId) :
    (ledger.getOrCreateAccount userId).idempotencyKeys = ledger.idempotencyKeys := by
  obtain ⟨accounts, same⟩ := ledger.getOrCreateAccount_frame userId
  rw [same]

end Accounts

/-- What a deposit leaves behind. -/
def deposited (userId : UserId) (amount : Decimal128) (key : String) (timestamp : UnixMicros) :
    Ledger :=
  let keyed := { ledger with idempotencyKeys := key :: ledger.idempotencyKeys }
  (keyed.setFunding userId (ledger.accounts[userId]?.getD (.new userId))
    (ledger.fundingBalance userId + amount)).appendJournal systemUserId userId amount .deposit key
      timestamp

theorem deposit_eq {userId : UserId} {amount : Decimal128} {key : String} (positive : 0 < amount)
    (fresh : key ∉ ledger.idempotencyKeys) (timestamp : UnixMicros) :
    ledger.deposit userId amount key timestamp =
      .ok (ledger.deposited userId amount key timestamp) := by
  have balance : ledger.fundingBalance userId =
      ((ledger.accounts[userId]?.getD (.new userId)).walletMut .funding).available :=
    fundingBalance_eq rfl
  rw [deposit, if_neg (by simpa using positive), if_neg fresh, deposited, balance]

section Deposited

variable (userId : UserId) (amount : Decimal128) (key : String) (timestamp : UnixMicros)

theorem fundingBalance_deposited (other : UserId) :
    (ledger.deposited userId amount key timestamp).fundingBalance other =
      if userId = other then ledger.fundingBalance userId + amount
      else ledger.fundingBalance other :=
  fundingBalance_setFunding { ledger with idempotencyKeys := key :: ledger.idempotencyKeys }
    userId (ledger.accounts[userId]?.getD (.new userId))
      (ledger.fundingBalance userId + amount) other

theorem systemBalance_deposited (wallet : WalletType) :
    (ledger.deposited userId amount key timestamp).systemBalance wallet =
      ledger.systemBalance wallet := rfl

end Deposited

/-! ## The invariant -/

/-- What `verify_all_invariants` checks. -/
structure Sound : Prop where
  nonneg : ∀ {userId : UserId} {account : UserAccount}, ledger.accounts[userId]? = some account →
    ∀ {wallet : WalletType} {balance : WalletBalance}, account.wallets[wallet]? = some balance →
      0 ≤ balance.available ∧ 0 ≤ balance.frozen ∧ 0 ≤ balance.margin
  system : ∀ wallet, wallet ≠ .funding → 0 ≤ ledger.systemBalance wallet
  conserved : ledger.userTotal + ledger.systemTotal = netExternal ledger.journal

variable {ledger}

theorem sound_new : Ledger.new.Sound where
  nonneg := by simp [new]
  system := by simp [new, systemBalance]
  conserved := by simp [new, userTotal, systemTotal, netExternal]

theorem Sound.fundingBalance_nonneg (sound : ledger.Sound) (userId : UserId) :
    0 ≤ ledger.fundingBalance userId := by
  rw [fundingBalance, getBalance]
  cases found : ledger.accounts[userId]? with
  | none => exact le_refl 0
  | some account =>
      cases wallet : account.wallets[WalletType.funding]? with
      | none => simp [wallet]
      | some balance => simpa [wallet] using (sound.nonneg found wallet).1

theorem Sound.getOrCreateAccount (sound : ledger.Sound) (userId : UserId) :
    (ledger.getOrCreateAccount userId).Sound := by
  cases found : ledger.accounts[userId]? with
  | some account => simpa [Ledger.getOrCreateAccount, found] using sound
  | none =>
      have created : ledger.getOrCreateAccount userId =
          { ledger with accounts := ledger.accounts.insert userId (.new userId) } := by
        simp [Ledger.getOrCreateAccount, found]
      have total := mapTotal_insert (fun _ (account : UserAccount) => account.total)
        ledger.accounts userId (.new userId)
      constructor
      · intro other account stored wallet balance held
        rw [created] at stored
        simp only [Std.ExtTreeMap.getElem?_insert] at stored
        split at stored
        · cases stored
          simp [UserAccount.new] at held
        · exact sound.nonneg stored held
      · intro wallet other
        rw [systemBalance_getOrCreateAccount]
        exact sound.system wallet other
      · rw [created]
        have empty : (UserAccount.new userId).total = 0 := by
          simp [UserAccount.total, UserAccount.new]
        rw [found, empty] at total
        simp only [Option.elim_none, add_zero] at total
        simpa [userTotal, systemTotal, total] using sound.conserved

/-- Setting a non-negative Funding balance leaves no balance negative. -/
theorem Sound.nonneg_setFunding (sound : ledger.Sound) {userId : UserId} {available : Decimal128}
    (covered : 0 ≤ available) {other : UserId} {account : UserAccount}
    (stored : (ledger.setFunding userId (ledger.accounts[userId]?.getD (.new userId))
      available).accounts[other]? = some account) {wallet : WalletType} {balance : WalletBalance}
    (held : account.wallets[wallet]? = some balance) :
    0 ≤ balance.available ∧ 0 ≤ balance.frozen ∧ 0 ≤ balance.margin := by
  have funding : ∀ account, ledger.accounts[userId]?.getD (.new userId) = account →
      0 ≤ (account.walletMut .funding).frozen ∧ 0 ≤ (account.walletMut .funding).margin := by
    rintro account rfl
    cases found : ledger.accounts[userId]? with
    | none => simp [UserAccount.new, UserAccount.walletMut, WalletBalance.default]
    | some account =>
        cases wallet : account.wallets[WalletType.funding]? with
        | none => simp [UserAccount.walletMut, wallet, WalletBalance.default]
        | some balance => simpa [UserAccount.walletMut, wallet] using (sound.nonneg found wallet).2
  have others : ∀ account, ledger.accounts[userId]?.getD (.new userId) = account →
      account.wallets[wallet]? = some balance →
      0 ≤ balance.available ∧ 0 ≤ balance.frozen ∧ 0 ≤ balance.margin := by
    rintro account rfl held
    cases found : ledger.accounts[userId]? with
    | none => simp [found, UserAccount.new] at held
    | some account =>
        rw [found] at held
        exact sound.nonneg found held
  simp only [setFunding, Std.ExtTreeMap.getElem?_insert] at stored
  split at stored
  · cases stored
    simp only [Std.ExtTreeMap.getElem?_insert] at held
    split at held
    · cases held
      exact ⟨covered, funding _ rfl⟩
    · exact others _ rfl held
  · exact sound.nonneg stored held

theorem Sound.settled (sound : ledger.Sound) {userId : UserId} {moved : Decimal128}
    (covered : -ledger.fundingBalance userId ≤ moved) (key : String) (timestamp : UnixMicros) :
    (ledger.settled userId moved key timestamp).Sound := by
  let keyed := { ledger with idempotencyKeys := key :: ledger.idempotencyKeys }
  have soundKeyed : keyed.Sound := ⟨sound.nonneg, sound.system, sound.conserved⟩
  constructor
  · intro other account stored wallet balance held
    have remaining : 0 ≤ ledger.fundingBalance userId + moved := neg_le_iff_add_nonneg'.1 covered
    have stored' : (keyed.setFunding userId (keyed.accounts[userId]?.getD (.new userId))
        (ledger.fundingBalance userId + moved)).accounts[other]? = some account := by
      rw [Ledger.settled] at stored
      split at stored <;> exact stored
    exact soundKeyed.nonneg_setFunding remaining stored' held
  · intro wallet other
    rw [systemBalance_settled, if_neg other]
    exact sound.system wallet other
  · have users := userTotal_setFunding keyed userId _ (ledger.fundingBalance userId + moved) rfl
    have system := systemTotal_addSystemBalance (keyed.setFunding userId
      (ledger.accounts[userId]?.getD (.new userId)) (ledger.fundingBalance userId + moved))
      .funding (-moved)
    have unchanged : (ledger.settled userId moved key timestamp).userTotal +
        (ledger.settled userId moved key timestamp).systemTotal =
        ledger.userTotal + ledger.systemTotal := by
      have usersAfter : (ledger.settled userId moved key timestamp).userTotal =
          ledger.userTotal +
            (ledger.fundingBalance userId + moved - ledger.fundingBalance userId) := by
        rw [Ledger.settled]
        split <;> exact users
      have systemAfter : (ledger.settled userId moved key timestamp).systemTotal =
          ledger.systemTotal + -moved := by
        rw [Ledger.settled]
        split <;> exact system
      rw [usersAfter, systemAfter]
      abel
    rw [unchanged, sound.conserved, journal_settled, netExternal_append]
    split <;> simp [netExternal, settlementEntry]

theorem Sound.deposited (sound : ledger.Sound) {amount : Decimal128} (positive : 0 < amount)
    (userId : UserId) (key : String) (timestamp : UnixMicros) :
    (ledger.deposited userId amount key timestamp).Sound := by
  let keyed := { ledger with idempotencyKeys := key :: ledger.idempotencyKeys }
  have soundKeyed : keyed.Sound := ⟨sound.nonneg, sound.system, sound.conserved⟩
  have enlarged : 0 ≤ ledger.fundingBalance userId + amount :=
    add_nonneg (sound.fundingBalance_nonneg userId) positive.le
  constructor
  · intro other account stored wallet balance held
    exact soundKeyed.nonneg_setFunding enlarged stored held
  · exact sound.system
  · have users := userTotal_setFunding keyed userId _ (ledger.fundingBalance userId + amount) rfl
    have usersAfter : (ledger.deposited userId amount key timestamp).userTotal =
        ledger.userTotal + (ledger.fundingBalance userId + amount - ledger.fundingBalance userId) :=
      users
    have journalAfter : netExternal (ledger.deposited userId amount key timestamp).journal =
        netExternal ledger.journal + amount := by
      rw [Ledger.deposited, appendJournal, netExternal_append]
      simp [netExternal, setFunding]
    have systemAfter : (ledger.deposited userId amount key timestamp).systemTotal =
        ledger.systemTotal := rfl
    rw [journalAfter, usersAfter, systemAfter, ← sound.conserved]
    abel

/-- Settling with a known account always succeeds. -/
theorem Sound.settleRealizedPnlCapped (sound : ledger.Sound) {userId : UserId}
    {account : UserAccount} (known : ledger.accounts[userId]? = some account)
    (signed : Decimal128) (key : String) (timestamp : UnixMicros) :
    ∃ settled moved, ledger.settleRealizedPnlCapped userId signed key timestamp =
        (settled, .ok moved) ∧ settled.Sound := by
  by_cases zero : signed = 0
  · exact ⟨ledger, 0, by simp [Ledger.settleRealizedPnlCapped, zero], sound⟩
  · by_cases used : key ∈ ledger.idempotencyKeys
    · exact ⟨ledger, 0, by simp [Ledger.settleRealizedPnlCapped, zero, used], sound⟩
    · exact ⟨_, _, settleRealizedPnlCapped_eq known zero used (sound.fundingBalance_nonneg userId),
        sound.settled (le_max_right _ _) key timestamp⟩

private theorem forM_ok {α : Type} {items : List α} {check : α → Except LedgerError Unit}
    (passes : ∀ item ∈ items, check item = .ok ()) : items.forM check = .ok () := by
  induction items with
  | nil => rfl
  | cons item rest inductionHypothesis =>
      rw [List.forM_eq_forM, List.forM_cons, passes item List.mem_cons_self]
      exact inductionHypothesis fun other member => passes other (List.mem_cons_of_mem item member)

/-- The checks pass on a sound ledger. -/
theorem Sound.verifyAllInvariants (sound : ledger.Sound) : ledger.verifyAllInvariants = .ok () := by
  have accounts : ledger.accounts.keys.forM ledger.verifyAccountInvariant = .ok () := by
    refine forM_ok fun userId member => ?_
    rw [Std.ExtTreeMap.mem_keys, Std.ExtTreeMap.mem_iff_isSome_getElem?] at member
    obtain ⟨account, found⟩ := Option.isSome_iff_exists.1 member
    rw [verifyAccountInvariant, found]
    refine forM_ok fun entry held => ?_
    obtain ⟨available, frozen, margin⟩ := sound.nonneg found
      (Std.ExtTreeMap.mem_toList_iff_getElem?_eq_some.1 held)
    simp [verifyBalance, not_lt.2 available, not_lt.2 frozen, not_lt.2 margin]
  have system : (nonNegativeSystemWallets.forM fun wallet =>
      if (ledger.systemBalance wallet).isNegative then
        (.error (.negativeSystemAccount wallet (ledger.systemBalance wallet)) :
          Except LedgerError Unit)
      else
        .ok ()) = .ok () := by
    refine forM_ok fun wallet member => ?_
    have other : wallet ≠ .funding := by
      rintro rfl
      simp [nonNegativeSystemWallets] at member
    simp [not_lt.2 (sound.system wallet other)]
  have total : ledger.verifyGlobalInvariant = .ok () := by
    simp [verifyGlobalInvariant, sound.conserved]
  rw [Ledger.verifyAllInvariants, accounts]
  change (nonNegativeSystemWallets.forM _ >>= fun _ => ledger.verifyGlobalInvariant) = _
  rw [system]
  exact total

end Ledger
end Exg
