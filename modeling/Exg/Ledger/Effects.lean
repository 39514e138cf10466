import Exg.Ledger.LedgerInvariant
import Exg.Ledger.Operations
import Exg.Support.Bookkeeping

/-!
# What an operation can do

The money of a ledger is held in slots.  An `Effect` says what was added to the slots and
what was appended to the journal between two ledgers; each update of the ledger has one, and
they compose.
-/

namespace Exg

open Support

/-- A place that holds money. -/
inductive Slot where
  | user (userId : UserId) (wallet : WalletType) (field : BalanceField)
  | system (wallet : WalletType)
  deriving DecidableEq, Repr

abbrev Posting := Slot × Decimal128

/-- What a journal entry says about money. -/
abbrev Booking := JournalEntryType × Movement

def JournalEntry.booking (entry : JournalEntry) : Booking := (entry.entryType, entry.toMovement)

namespace WalletBalance

private theorem field_add (balance : WalletBalance) (field other : BalanceField)
    (amount : Decimal128) :
    (balance.add field amount).field other =
      balance.field other + if field = other then amount else 0 := by
  cases field <;> cases other <;> simp [add, WalletBalance.field]

private theorem total_add (balance : WalletBalance) (field : BalanceField) (amount : Decimal128) :
    (balance.add field amount).total = balance.total + amount := by
  cases field <;> simp only [add, total] <;> abel

end WalletBalance

namespace Ledger

variable {ledger : Ledger}

section Holding

/-- The balance of a slot; an account or a wallet that does not exist holds zero. -/
def holding (ledger : Ledger) : Slot → Decimal128
  | .user userId wallet field => ((ledger.getBalance userId wallet).getD .default).field field
  | .system wallet => ledger.systemBalance wallet

private theorem getBalance_walletMut (ledger : Ledger) (userId : UserId) (wallet : WalletType) :
    (ledger.accounts[userId]?.getD (.new userId)).walletMut wallet =
      (ledger.getBalance userId wallet).getD .default := by
  rw [getBalance]
  cases ledger.accounts[userId]? with
  | none => simp [UserAccount.new, UserAccount.walletMut]
  | some account => rfl

theorem holding_of_known {userId : UserId} {account : UserAccount}
    (known : ledger.accounts[userId]? = some account) (wallet : WalletType)
    (field : BalanceField) :
    (account.walletMut wallet).field field = ledger.holding (.user userId wallet field) := by
  have same := ledger.getBalance_walletMut userId wallet
  rw [known] at same
  rw [holding, ← same]
  rfl

private theorem getBalance_updateWallet (userId other : UserId) (wallet otherWallet : WalletType)
    (change : WalletBalance → WalletBalance) :
    ((ledger.updateWallet userId wallet change).getBalance other otherWallet).getD .default =
      if userId = other ∧ wallet = otherWallet then
        change ((ledger.getBalance userId wallet).getD .default)
      else (ledger.getBalance other otherWallet).getD .default := by
  by_cases own : userId = other
  · subst own
    by_cases same : wallet = otherWallet
    · subst same
      simp only [getBalance, updateWallet, Std.ExtTreeMap.getElem?_insert_self, Option.bind_some,
        Option.getD_some, and_self, if_true]
      exact congrArg change (ledger.getBalance_walletMut userId wallet)
    · simp only [getBalance, updateWallet, same, and_false, if_false,
        Std.ExtTreeMap.getElem?_insert_self, Option.bind_some, Std.ExtTreeMap.getElem?_insert,
        Std.LawfulEqCmp.compare_eq_iff_eq]
      cases ledger.accounts[userId]? <;> simp [UserAccount.new]
  · simp [getBalance, updateWallet, Std.ExtTreeMap.getElem?_insert, own]

private theorem userTotal_updateWallet (userId : UserId) (wallet : WalletType)
    (change : WalletBalance → WalletBalance) :
    (ledger.updateWallet userId wallet change).userTotal =
      ledger.userTotal +
        ((change ((ledger.getBalance userId wallet).getD .default)).total -
          ((ledger.getBalance userId wallet).getD .default).total) := by
  let account := ledger.accounts[userId]?.getD (.new userId)
  have changed := mapTotal_insert (fun _ (account : UserAccount) => account.total)
    ledger.accounts userId
    { account with
      wallets := account.wallets.insert wallet (change (account.walletMut wallet)) }
  have inside := mapTotal_insert (fun _ (balance : WalletBalance) => balance.total)
    account.wallets wallet (change (account.walletMut wallet))
  have old : ledger.accounts[userId]?.elim 0 (fun account : UserAccount => account.total) =
      account.total := by
    cases found : ledger.accounts[userId]? with
    | none => simp [account, found, UserAccount.new, UserAccount.total]
    | some stored => simp [account, found]
  have oldWallet : account.wallets[wallet]?.elim 0 (fun balance : WalletBalance => balance.total) =
      (account.walletMut wallet).total := by
    rw [UserAccount.walletMut]
    cases account.wallets[wallet]? <;> rfl
  rw [old] at changed
  rw [oldWallet] at inside
  rw [← getBalance_walletMut]
  refine add_right_cancel (b := account.total + (account.walletMut wallet).total) ?_
  calc (ledger.updateWallet userId wallet change).userTotal +
        (account.total + (account.walletMut wallet).total)
      = ((ledger.updateWallet userId wallet change).userTotal + account.total) +
          (account.walletMut wallet).total := (add_assoc _ _ _).symm
    _ = ledger.userTotal + (account.total + (change (account.walletMut wallet)).total) := by
        rw [show (ledger.updateWallet userId wallet change).userTotal + account.total = _ from
          changed, add_assoc]
        exact congrArg (ledger.userTotal + ·) inside
    _ = _ := by
        simp only [account]
        abel

end Holding

/-! ## Effects -/

/-- What was added to the slots and to the journal between two ledgers. -/
structure Effect (before after : Ledger) (postings : List Posting) (bookings : List Booking) :
    Prop where
  holding : ∀ slot, after.holding slot = before.holding slot + netAt postings slot
  total : after.userTotal + after.systemTotal =
    before.userTotal + before.systemTotal + netTotal postings
  journal : ∃ entries, after.journal = before.journal ++ entries ∧
    entries.map JournalEntry.booking = bookings
  keys : after.idempotencyKeys = before.idempotencyKeys

theorem Effect.refl (ledger : Ledger) : Effect ledger ledger [] [] :=
  ⟨fun _ => (add_zero _).symm, (add_zero _).symm, ⟨[], (List.append_nil _).symm, rfl⟩, rfl⟩

theorem Effect.trans {before middle after : Ledger} {postings later : List Posting}
    {bookings laterBookings : List Booking} (first : Effect before middle postings bookings)
    (second : Effect middle after later laterBookings) :
    Effect before after (postings ++ later) (bookings ++ laterBookings) where
  holding slot := by rw [second.holding, first.holding, netAt_append, add_assoc]
  total := by rw [second.total, first.total, netTotal_append, add_assoc]
  journal := by
    obtain ⟨entries, appended, kinds⟩ := first.journal
    obtain ⟨more, appendedMore, moreKinds⟩ := second.journal
    exact ⟨entries ++ more, by rw [appendedMore, appended, List.append_assoc],
      by rw [List.map_append, kinds, moreKinds]⟩
  keys := second.keys.trans first.keys

private theorem Effect.journal_eq {before after : Ledger} {postings : List Posting}
    (effect : Effect before after postings []) : after.journal = before.journal := by
  obtain ⟨entries, appended, kinds⟩ := effect.journal
  rw [appended, List.map_eq_nil_iff.1 kinds, List.append_nil]

theorem Effect.congr {before after : Ledger} {postings postings' : List Posting}
    {bookings bookings' : List Booking} (effect : Effect before after postings bookings)
    (samePostings : postings = postings') (sameBookings : bookings = bookings') :
    Effect before after postings' bookings' := by
  subst samePostings sameBookings
  exact effect

/-- Nothing that money or retries depend on has changed. -/
def Unmoved (before after : Ledger) : Prop :=
  (∀ slot, after.holding slot = before.holding slot) ∧ after.journal = before.journal ∧
    after.idempotencyKeys = before.idempotencyKeys

theorem Effect.unmoved {before after : Ledger} (effect : Effect before after [] []) :
    Unmoved before after :=
  ⟨fun slot => by rw [effect.holding, netAt_nil, add_zero], effect.journal_eq, effect.keys⟩

section Updates

variable (ledger) (userId : UserId) (wallet : WalletType) (field : BalanceField)
variable (amount : Decimal128)

theorem effect_addBalance :
    Effect ledger (ledger.addBalance userId wallet field amount)
      [(.user userId wallet field, amount)] [] where
  holding slot := by
    rw [netAt_cons, netAt_nil, add_zero]
    cases slot with
    | system other => exact (add_zero _).symm
    | user other otherWallet otherField =>
        rw [holding, addBalance, getBalance_updateWallet, holding]
        by_cases own : userId = other ∧ wallet = otherWallet
        · obtain ⟨rfl, rfl⟩ := own
          simp [WalletBalance.field_add]
        · have apart : ¬(userId = other ∧ wallet = otherWallet ∧ field = otherField) :=
            fun same => own ⟨same.1, same.2.1⟩
          simp [own, apart]
  total := by
    rw [addBalance, userTotal_updateWallet, WalletBalance.total_add]
    change _ + ledger.systemTotal = _
    simp only [netTotal_cons, netTotal_nil]
    abel
  journal := ⟨[], (List.append_nil _).symm, rfl⟩
  keys := rfl

/-- `wallet_mut` alone changes no balance. -/
theorem effect_touch : Effect ledger (ledger.updateWallet userId wallet id) [] [] where
  holding slot := by
    rw [netAt_nil, add_zero]
    cases slot with
    | system other => rfl
    | user other otherWallet otherField =>
        rw [holding, getBalance_updateWallet, holding]
        split
        · rename_i own
          rw [id, own.1, own.2]
        · rfl
  total := by
    rw [userTotal_updateWallet, id, sub_self, add_zero, netTotal_nil, add_zero]
    rfl
  journal := ⟨[], (List.append_nil _).symm, rfl⟩
  keys := rfl

theorem effect_addSystemBalance :
    Effect ledger (ledger.addSystemBalance wallet amount) [(.system wallet, amount)] [] where
  holding slot := by
    rw [netAt_cons, netAt_nil, add_zero]
    cases slot with
    | user other otherWallet otherField => exact (add_zero _).symm
    | system other =>
        rw [holding, systemBalance_addSystemBalance, holding]
        by_cases own : wallet = other
        · subst own
          simp
        · simp [own]
  total := by
    rw [systemTotal_addSystemBalance, netTotal_cons, netTotal_nil, add_zero, ← add_assoc]
    rfl
  journal := ⟨[], (List.append_nil _).symm, rfl⟩
  keys := rfl

theorem effect_record (movement : Movement) (entryType : JournalEntryType) (key : String)
    (timestamp : UnixMicros) :
    Effect ledger (ledger.record movement entryType key timestamp) [] [(entryType, movement)] where
  holding slot := by
    rw [netAt_nil, add_zero]
    cases slot <;> rfl
  total := by
    rw [netTotal_nil, add_zero]
    rfl
  journal := ⟨_, rfl, rfl⟩
  keys := rfl

theorem effect_getOrCreateAccount : Effect ledger (ledger.getOrCreateAccount userId) [] [] where
  holding slot := by
    rw [netAt_nil, add_zero]
    cases slot with
    | system other => exact systemBalance_getOrCreateAccount ledger userId other
    | user other otherWallet otherField =>
        rw [holding, holding]
        refine congrArg (fun balance => (Option.getD balance WalletBalance.default).field _) ?_
        rw [getBalance, getBalance, getOrCreateAccount]
        cases found : ledger.accounts[userId]? with
        | some account => rfl
        | none =>
            by_cases own : userId = other
            · subst own
              simp [found, UserAccount.new]
            · simp [Std.ExtTreeMap.getElem?_insert, own]
  total := by
    rw [netTotal_nil, add_zero, getOrCreateAccount]
    cases found : ledger.accounts[userId]? with
    | some account => rfl
    | none =>
        have total := mapTotal_insert (fun _ (account : UserAccount) => account.total)
          ledger.accounts userId (.new userId)
        have empty : (UserAccount.new userId).total = 0 := by
          simp [UserAccount.total, UserAccount.new]
        rw [found, empty, Option.elim_none, add_zero, add_zero] at total
        exact congrArg (· + ledger.systemTotal) total
  journal := ⟨[], by simp, rfl⟩
  keys := idempotencyKeys_getOrCreateAccount ledger userId

end Updates

/-- A key that is inserted and taken back leaves no trace. -/
theorem effect_forgetKey {next : Ledger} {key : String}
    (effect : Effect (ledger.addKey key) next [] []) :
    Effect ledger (next.forgetKey key) [] [] where
  holding slot := (effect.holding slot).trans (by cases slot <;> rfl)
  total := effect.total
  journal := effect.journal
  keys := by
    rw [forgetKey, effect.keys]
    exact List.erase_cons_head key ledger.idempotencyKeys

end Ledger
end Exg
