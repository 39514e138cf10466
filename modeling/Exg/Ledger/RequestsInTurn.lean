import Exg.Ledger.Refusals

/-!
# Requests behind others

The clearing service makes its requests one after another.  Whether one of them is refused
behind others that were granted can be told from the ledger before all of them: its user's
balance is what it was and what the new ones among the others add to it.
-/

namespace Exg

open Support

namespace Ledger

namespace LedgerCall

/-- The user of a request to open a position, to close one against escrow, or to settle
funding. -/
def settles? : LedgerCall → Option UserId
  | .openPosition userId _ _ _ _ | .closePositionSettled userId _ _ _ _ _
  | .settleFunding userId _ _ _ => some userId
  | _ => none

/-- Two requests with keys of their own, the later one with a user of its own if it settles
funding. -/
def Apart (earlier later : LedgerCall) : Prop :=
  earlier.key? ≠ later.key? ∧
    match later with
    | .settleFunding userId _ _ _ => earlier.settles? ≠ some userId
    | _ => True

end LedgerCall

/-- The key of the call is new. -/
def isNew (ledger : Ledger) (call : LedgerCall) : Bool :=
  call.key?.all fun key => key ∉ ledger.idempotencyKeys

/-- What a slot holds behind requests that were granted: those with a used key add nothing. -/
def left (ledger : Ledger) (earlier : List LedgerCall) (slot : Slot) : Decimal128 :=
  ledger.holding slot + netAt ((earlier.filter ledger.isNew).flatMap ledger.postings) slot

/-- The balances cover what a request checks them for. -/
def Covers (balance : Slot → Decimal128) : LedgerCall → Prop
  | .openPosition userId marginAmount fee _ _ =>
      marginAmount + fee ≤ balance (.user userId .futures .frozen)
  | .closePositionSettled userId marginReleased _ _ _ _ =>
      marginReleased ≤ balance (.user userId .futures .margin)
  | .settleFunding userId payment _ _ =>
      let drained := payment - min payment (balance (.user userId .futures .available))
      0 < payment → 0 < drained → drained ≤ balance (.user userId .futures .margin)
  | _ => True

/-- A request is refused behind others that were granted: its arguments are invalid, or its key
is new and its account is missing or what is left does not cover it. -/
def RefusesBehind (ledger : Ledger) (earlier : List LedgerCall) (call : LedgerCall) : Prop :=
  call.invalid ≠ none ∨
    (¬call.Idle ∧ ledger.isNew call ∧
      (ledger.Missing call ∨ ¬Covers (ledger.left earlier) call))

/-! ## Accounts -/

section Accounts

variable {ledger : Ledger} {userId : UserId}

/-- No account is opened or removed. -/
def SameAccounts (before after : Ledger) : Prop :=
  ∀ userId, userId ∈ after.accounts ↔ userId ∈ before.accounts

theorem SameAccounts.trans {before middle after : Ledger} (first : SameAccounts before middle)
    (second : SameAccounts middle after) : SameAccounts before after :=
  fun userId => (second userId).trans (first userId)

private theorem sameAccounts_of_eq {before after : Ledger}
    (same : after.accounts = before.accounts) :
    SameAccounts before after :=
  fun userId => by rw [same]

private theorem sameAccounts_updateWallet (known : userId ∈ ledger.accounts) (wallet : WalletType)
    (change : WalletBalance → WalletBalance) :
    SameAccounts ledger (ledger.updateWallet userId wallet change) := by
  intro other
  rw [updateWallet, Std.ExtTreeMap.mem_insert, Std.LawfulEqCmp.compare_eq_iff_eq]
  exact or_iff_right_of_imp fun same => same ▸ known

private theorem accounts_record (movement : Movement) (entryType : JournalEntryType) (key : String)
    (timestamp : UnixMicros) :
    (ledger.record movement entryType key timestamp).accounts = ledger.accounts := rfl

private theorem sameAccounts_releaseMargin (known : userId ∈ ledger.accounts)
    (released pnl fee : Decimal128) :
    SameAccounts ledger (ledger.releaseMargin userId released pnl fee) := by
  have drained : SameAccounts ledger (ledger.addBalance userId .futures .margin (-released)) :=
    sameAccounts_updateWallet known .futures _
  exact drained.trans (sameAccounts_updateWallet ((drained userId).2 known) .futures _)

private theorem accounts_addFee (fee : Decimal128) :
    (ledger.addFee fee).accounts = ledger.accounts := by
  rw [addFee]
  split <;> rfl

private theorem accounts_recordFee (field : BalanceField) (fee : Decimal128) (key : String)
    (timestamp : UnixMicros) :
    (ledger.recordFee userId field fee key timestamp).accounts = ledger.accounts := by
  rw [recordFee]
  split <;> rfl

private theorem accounts_recordClose (other : UserId) (otherWallet : WalletType)
    (otherField : BalanceField) (released pnl fee : Decimal128) (key : String)
    (timestamp : UnixMicros) :
    (ledger.recordClose userId other otherWallet otherField released pnl fee key
      timestamp).accounts = ledger.accounts := by
  rw [recordClose, accounts_recordFee, recordPnl]
  split
  · rfl
  · split <;> rfl

private theorem sameAccounts_once {invalid : Option String} {key : String}
    {body : Ledger → Ledger × OperationResult}
    (inner : SameAccounts (ledger.addKey key) (body (ledger.addKey key)).1) :
    SameAccounts ledger (ledger.once invalid key body).1 := by
  unfold once
  split
  · exact sameAccounts_of_eq rfl
  · split
    · exact sameAccounts_of_eq rfl
    · exact inner

private theorem sameAccounts_requireMargin {amount : Decimal128} {key : String}
    {body : Ledger × OperationResult}
    (inner : userId ∈ ledger.accounts → SameAccounts ledger body.1) :
    SameAccounts ledger (ledger.requireMargin userId amount key body).1 := by
  unfold requireMargin
  split
  · exact sameAccounts_of_eq rfl
  · rename_i account found
    simp only
    split
    · exact sameAccounts_of_eq rfl
    · exact inner (mem_accounts found)

private theorem sameAccounts_takeFrom {wallet : WalletType} {field : BalanceField}
    {amount : Decimal128} {key : String} {rest : Ledger → Ledger}
    (inner : ∀ taken : Ledger, userId ∈ taken.accounts → SameAccounts taken (rest taken)) :
    SameAccounts ledger (ledger.takeFrom userId wallet field amount key rest).1 := by
  unfold takeFrom
  split
  · exact sameAccounts_of_eq rfl
  · rename_i account found
    have known := mem_accounts found
    simp only
    split
    · exact sameAccounts_updateWallet known wallet id
    · have taken := sameAccounts_updateWallet known wallet fun balance =>
        balance.add field (-amount)
      exact taken.trans (inner _ ((taken userId).2 known))

private theorem sameAccounts_payFunding (known : userId ∈ ledger.accounts)
    (fromAvailable fromMargin payment : Decimal128) (key : String) (timestamp : UnixMicros) :
    SameAccounts ledger
      (ledger.payFunding userId fromAvailable fromMargin payment key timestamp) := by
  have debited : SameAccounts ledger
      (ledger.addBalance userId .futures .available (-fromAvailable)) :=
    sameAccounts_updateWallet known .futures _
  have drained := debited.trans (sameAccounts_updateWallet ((debited userId).2 known) .futures
    fun balance => balance.add .margin (-fromMargin))
  rw [payFunding]
  split
  · split <;> exact drained
  · split <;> exact debited

private theorem sameAccounts_receiveFunding (known : userId ∈ ledger.accounts)
    (payment : Decimal128) (key : String) (timestamp : UnixMicros) :
    SameAccounts ledger (ledger.receiveFunding userId payment key timestamp) := by
  have credited : SameAccounts ledger
      (ledger.addBalance userId .futures .available payment.abs) :=
    sameAccounts_updateWallet known .futures _
  exact credited.trans (sameAccounts_of_eq rfl)

private theorem sameAccounts_settleFunding (payment : Decimal128) (key : String)
    (timestamp : UnixMicros) :
    SameAccounts ledger (ledger.settleFunding userId payment key timestamp).1 := by
  rw [settleFunding]
  split
  · exact sameAccounts_of_eq rfl
  · apply sameAccounts_once
    split
    · exact sameAccounts_of_eq rfl
    · rename_i account found
      have known := mem_accounts found
      simp only
      split
      · split
        · exact sameAccounts_updateWallet known .futures id
        · exact sameAccounts_payFunding known _ _ _ _ _
      · exact sameAccounts_receiveFunding known _ _ _

/-- A request opens and removes no account. -/
theorem sameAccounts_perform {call : LedgerCall} (settles : call.settles? = some userId) :
    SameAccounts ledger (ledger.perform call).1 := by
  cases call with
  | openPosition user marginAmount fee key timestamp =>
      rw [perform, openPosition]
      refine sameAccounts_once (sameAccounts_takeFrom fun taken known => ?_)
      have added : SameAccounts taken (taken.addBalance user .futures .margin marginAmount) :=
        sameAccounts_updateWallet known .futures _
      refine added.trans (sameAccounts_of_eq ?_)
      rw [accounts_recordFee, accounts_record, accounts_addFee]
  | closePositionSettled user released pnl fee key timestamp =>
      rw [perform, closePositionSettled]
      refine sameAccounts_once (sameAccounts_requireMargin fun known => ?_)
      refine (sameAccounts_releaseMargin known released pnl fee).trans (sameAccounts_of_eq ?_)
      rw [accounts_recordClose, accounts_addFee]
  | settleFunding user payment key timestamp =>
      exact sameAccounts_settleFunding payment key timestamp
  | _ => cases settles

end Accounts

/-! ## Behind granted requests -/

section Behind

variable {before after : Ledger} {earlier : List LedgerCall} {call : LedgerCall} {userId : UserId}

/-- A ledger behind requests that were granted. -/
structure Behind (before after : Ledger) (earlier : List LedgerCall) : Prop where
  keys : ∀ key, (∀ call ∈ earlier, call.key? ≠ some key) →
    (key ∈ after.idempotencyKeys ↔ key ∈ before.idempotencyKeys)
  accounts : SameAccounts before after
  holding : ∀ slot, after.holding slot = before.left earlier slot

theorem Behind.refl (ledger : Ledger) : Behind ledger ledger [] where
  keys _ _ := Iff.rfl
  accounts := sameAccounts_of_eq rfl
  holding _ := (add_zero _).symm

private theorem isNew_iff {ledger : Ledger} {key : String} (keyed : call.key? = some key) :
    ledger.isNew call ↔ key ∉ ledger.idempotencyKeys := by
  simp [isNew, keyed]

private theorem Behind.isNew_iff (behind : Behind before after earlier)
    (apart : ∀ other ∈ earlier, other.Apart call) : after.isNew call ↔ before.isNew call := by
  cases keyed : call.key? with
  | none => simp [isNew, keyed]
  | some key =>
      rw [Ledger.isNew_iff keyed, Ledger.isNew_iff keyed, behind.keys key fun other member same =>
        (apart other member).1 (same.trans keyed.symm)]

/-- What a request adds lies with its user and the system. -/
theorem netAt_postings_of_ne (ledger : Ledger) {other : UserId} (wallet : WalletType)
    (field : BalanceField) (settles : call.settles? = some userId) (apart : userId ≠ other) :
    netAt (ledger.postings call) (.user other wallet field) = 0 := by
  have fees (fee : Decimal128) : netAt (feePostings fee) (.user other wallet field) = 0 := by
    rw [feePostings]
    split <;> simp
  cases call with
  | openPosition user marginAmount fee key timestamp =>
      obtain rfl := Option.some.inj settles
      simp [postings, fees, apart]
  | closePositionSettled user released pnl fee key timestamp =>
      obtain rfl := Option.some.inj settles
      simp [postings, fees, apart]
  | settleFunding user payment key timestamp =>
      obtain rfl := Option.some.inj settles
      rw [postings, fundingPostings]
      split
      · split <;> simp [apart]
      · simp [apart]
  | _ => cases settles

/-- What earlier requests of others leave of a user's balances. -/
theorem left_of_apart (ledger : Ledger) (wallet : WalletType) (field : BalanceField)
    (others : ∀ call ∈ earlier, ∃ user, call.settles? = some user ∧ user ≠ userId) :
    ledger.left earlier (.user userId wallet field) =
      ledger.holding (.user userId wallet field) := by
  rw [left]
  induction earlier with
  | nil => exact add_zero _
  | cons call rest inductionHypothesis =>
      obtain ⟨⟨user, settles, apart⟩, later⟩ := List.forall_mem_cons.1 others
      rw [List.filter_cons]
      split
      · rw [List.flatMap_cons, netAt_append, ledger.netAt_postings_of_ne wallet field settles apart,
          zero_add]
        exact inductionHypothesis later
      · exact inductionHypothesis later

/-- A request adds the same behind others as before them. -/
theorem Behind.postings_eq (behind : Behind before after earlier)
    (settling : ∀ other ∈ earlier, other.settles?.isSome) (settles : call.settles? = some userId)
    (apart : ∀ other ∈ earlier, other.Apart call) : after.postings call = before.postings call := by
  cases call with
  | openPosition user marginAmount fee key timestamp => rfl
  | closePositionSettled user released pnl fee key timestamp => rfl
  | settleFunding user payment key timestamp =>
      have others : ∀ other ∈ earlier, ∃ owner, other.settles? = some owner ∧ owner ≠ user := by
        intro other member
        obtain ⟨owner, own⟩ := Option.isSome_iff_exists.1 (settling other member)
        exact ⟨owner, own, fun same => (apart other member).2 (own.trans (congrArg some same))⟩
      have available : after.holding (.user user .futures .available) =
          before.holding (.user user .futures .available) :=
        (behind.holding _).trans (before.left_of_apart _ _ others)
      rw [postings, postings, fundingPostings, fundingPostings, fromMargin, fromMargin,
        fromAvailable, fromAvailable, available]
  | _ => cases settles

/-- A request is refused behind others as it would be on what they leave. -/
theorem Behind.refuses_iff (behind : Behind before after earlier)
    (settles : call.settles? = some userId) (apart : ∀ other ∈ earlier, other.Apart call) :
    after.Refuses call ↔ before.RefusesBehind earlier call := by
  have isNew := behind.isNew_iff apart
  have new : (∀ key, call.key? = some key → key ∉ after.idempotencyKeys) ↔ before.isNew call := by
    rw [← isNew]
    simp [Ledger.isNew, Option.all_eq_true]
  have missing : after.Missing call ↔ before.Missing call := by
    cases call with
    | openPosition | closePositionSettled | settleFunding =>
        exact not_congr (behind.accounts _)
    | _ => cases settles
  have covered : after.Covered call ↔ Covers (before.left earlier) call := by
    cases call with
    | openPosition | closePositionSettled =>
        rw [Covered, Covers, behind.holding]
    | settleFunding =>
        simp only [Covered, Covers, fromMargin, fromAvailable, behind.holding]
    | _ => cases settles
  rw [Refuses, RefusesBehind, new, missing, covered]

/-- A granted request moves on to behind it. -/
theorem Behind.perform (behind : Behind before after earlier)
    (settling : ∀ other ∈ earlier, other.settles?.isSome) (settles : call.settles? = some userId)
    (active : ¬call.Idle) (apart : ∀ other ∈ earlier, other.Apart call)
    (done : (after.perform call).2 = .done) :
    Behind before (after.perform call).1 (earlier ++ [call]) := by
  have accounts := behind.accounts.trans (sameAccounts_perform settles)
  have posted := behind.postings_eq settling settles apart
  have isNew := behind.isNew_iff apart
  have outcome := perform_outcome after call
  generalize after.perform call = next at outcome done accounts
  cases outcome with
  | idle idle => exact absurd idle active
  | opened same =>
      subst same
      cases settles
  | repeated keyed used =>
      have old : ¬before.isNew call := by
        rw [← isNew, Ledger.isNew_iff keyed, not_not]
        exact used
      refine ⟨fun key fresh => behind.keys key fun other member =>
        fresh other (List.mem_append_left _ member), accounts, fun slot => ?_⟩
      rw [behind.holding, left, left, List.filter_append, List.filter_singleton]
      simp [old]
  | performed accepts within effect =>
      have new : before.isNew call := by
        rw [← isNew, Ledger.isNew_iff accepts.keyed]
        exact accepts.unused
      refine ⟨fun key fresh => ?_, accounts, fun slot => ?_⟩
      · have other := fresh call (List.mem_append_right _ (List.mem_singleton_self _))
        rw [effect.keys]
        change key ∈ _ :: after.idempotencyKeys ↔ _
        rw [List.mem_cons, or_iff_right fun same => other (by rw [same, accepts.keyed])]
        exact behind.keys key fun earlierCall member =>
          fresh earlierCall (List.mem_append_left _ member)
      · rw [effect.holding, holding_addKey, behind.holding, posted, left, left, List.filter_append,
          List.filter_singleton, new, List.flatMap_append, netAt_append, add_assoc]
        simp
  | refused | orphaned | short | panicked => cases done

end Behind
end Ledger
end Exg
