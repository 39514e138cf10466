import Exg.Common.Decimal
import Exg.Wallet.Addresses

/-!
# Deposits

A deposit is credited at most once, and never after it was marked as reorganised.  Its status
only moves forward, though: a report below the required number of confirmations leaves a deposit
confirmed that was confirmed before, and the deposit can still be credited.
-/

namespace Exg

open Support

inductive DepositStatus where
  /-- Detected, waiting for confirmations. -/
  | pending
  /-- Enough confirmations, ready to credit. -/
  | confirmed
  /-- Balance updated in the ledger. -/
  | credited
  /-- Reorganisation of the chain detected, reverted. -/
  | reorged
  deriving DecidableEq, Repr

/-- The chain, the hash of the transaction, and the place in its log. -/
abbrev DepositKey := Chain × String × Nat

/-- The order in which a map keyed by deposit is stored here. -/
abbrev depositOrder : DepositKey → DepositKey → Ordering :=
  (@lexOrd Chain (String × Nat) _ lexOrd).compare

structure Deposit where
  id : Nat
  userId : UserId
  chain : Chain
  txHash : String
  logIndex : Nat
  fromAddress : String
  toAddress : String
  amount : Decimal128
  asset : String
  confirmations : Nat
  requiredConfirmations : Nat
  status : DepositStatus
  createdAt : UnixMicros
  updatedAt : UnixMicros
  deriving DecidableEq, Repr

def Deposit.key (deposit : Deposit) : DepositKey :=
  (deposit.chain, deposit.txHash, deposit.logIndex)

structure DepositTracker where
  deposits : List Deposit
  /-- Idempotency: the index of the deposit with a key. -/
  idempotency : Std.ExtTreeMap DepositKey Nat depositOrder
  nextId : Nat
  indexed : ∀ key index, idempotency[key]? = some index →
    (deposits[index]?).map Deposit.key = some key

namespace DepositTracker

def new : DepositTracker where
  deposits := []
  idempotency := ∅
  nextId := 1
  indexed key index present := by simp at present

/-- The deposit at the index that the key has. -/
def find (tracker : DepositTracker) (key : DepositKey) : Option Deposit :=
  tracker.idempotency[key]?.bind fun index => tracker.deposits[index]?

/-- Adds a deposit at the end, with its index. -/
def push (tracker : DepositTracker) (deposit : Deposit) : DepositTracker where
  deposits := tracker.deposits ++ [deposit]
  idempotency := tracker.idempotency.insert deposit.key tracker.deposits.length
  nextId := (tracker.nextId + 1) % 2 ^ 64
  indexed key index present := by
    rw [Std.ExtTreeMap.getElem?_insert] at present
    split at present
    case isTrue same =>
      rw [← Option.some_inj.1 present, List.getElem?_concat_length, Option.map_some,
        Std.LawfulEqCmp.eq_of_compare same]
    case isFalse =>
      have old := tracker.indexed key index present
      obtain ⟨stored, found, -⟩ := Option.map_eq_some_iff.1 old
      rwa [List.getElem?_append_left (List.getElem?_eq_some_iff.1 found).1]

/-- Writes a deposit back to its place. -/
def put (tracker : DepositTracker) (deposit : Deposit) : DepositTracker where
  deposits := match tracker.idempotency[deposit.key]? with
    | some index => tracker.deposits.set index deposit
    | none => tracker.deposits
  idempotency := tracker.idempotency
  nextId := tracker.nextId
  indexed key index present := by
    have old := tracker.indexed key index present
    split
    case h_1 place found =>
      by_cases same : place = index
      · subst same
        have own := tracker.indexed deposit.key place found
        obtain ⟨stored, inside, -⟩ := Option.map_eq_some_iff.1 own
        rw [List.getElem?_set_self (List.getElem?_eq_some_iff.1 inside).1, Option.map_some, ← own,
          old]
      · rwa [List.getElem?_set_ne same]
    case h_2 => exact old

/-- Record a new deposit from the chain scanner, unless its key is known. -/
def recordDeposit (tracker : DepositTracker) (userId : UserId) (key : DepositKey)
    (fromAddress toAddress : String) (amount : Decimal128) (asset : String)
    (timestamp : UnixMicros) : DepositTracker × Option Deposit :=
  if key ∈ tracker.idempotency then (tracker, none)
  else
    let deposit : Deposit :=
      { id := tracker.nextId
        userId := userId
        chain := key.1
        txHash := key.2.1
        logIndex := key.2.2
        fromAddress := fromAddress
        toAddress := toAddress
        amount := amount
        asset := asset
        confirmations := 0
        requiredConfirmations := key.1.requiredConfirmations
        status := .pending
        createdAt := timestamp
        updatedAt := timestamp }
    (tracker.push deposit, some deposit)

/-- Update the confirmation count: `some true` if the status changed to confirmed, `some false`
if not, `none` if there is no such deposit. -/
def updateConfirmations (tracker : DepositTracker) (key : DepositKey) (confirmations : Nat) :
    DepositTracker × Option Bool :=
  match tracker.find key with
  | none => (tracker, none)
  | some deposit =>
      let reported := { deposit with confirmations := confirmations }
      if reported.status = .pending ∧ reported.requiredConfirmations ≤ confirmations then
        (tracker.put { reported with status := .confirmed }, some true)
      else (tracker.put reported, some false)

/-- Mark a deposit as credited, after the ledger was updated. -/
def markCredited (tracker : DepositTracker) (key : DepositKey) : DepositTracker × Bool :=
  match tracker.find key with
  | none => (tracker, false)
  | some deposit =>
      if deposit.status = .confirmed then (tracker.put { deposit with status := .credited }, true)
      else (tracker, false)

def markReorged (tracker : DepositTracker) (key : DepositKey) : DepositTracker × Bool :=
  match tracker.find key with
  | none => (tracker, false)
  | some deposit =>
      if deposit.status = .pending ∨ deposit.status = .confirmed then
        (tracker.put { deposit with status := .reorged }, true)
      else (tracker, false)

end DepositTracker

inductive DepositCall where
  | recordDeposit (userId : UserId) (key : DepositKey) (fromAddress toAddress : String)
      (amount : Decimal128) (asset : String) (timestamp : UnixMicros)
  | updateConfirmations (key : DepositKey) (confirmations : Nat)
  | markCredited (key : DepositKey)
  | markReorged (key : DepositKey)
  deriving DecidableEq, Repr

inductive DepositResult where
  | recorded (deposit : Option Deposit)
  | updated (confirmed : Option Bool)
  | marked (done : Bool)
  deriving DecidableEq, Repr

/-- A call and what it returned. -/
structure DepositEntry where
  call : DepositCall
  result : DepositResult
  deriving DecidableEq, Repr

namespace DepositTracker

def call (tracker : DepositTracker) : DepositCall → DepositTracker × DepositResult
  | .recordDeposit userId key fromAddress toAddress amount asset timestamp =>
      let result := tracker.recordDeposit userId key fromAddress toAddress amount asset timestamp
      (result.1, .recorded result.2)
  | .updateConfirmations key confirmations =>
      let result := tracker.updateConfirmations key confirmations
      (result.1, .updated result.2)
  | .markCredited key =>
      let result := tracker.markCredited key
      (result.1, .marked result.2)
  | .markReorged key =>
      let result := tracker.markReorged key
      (result.1, .marked result.2)

def step (tracker : DepositTracker) (input : DepositCall) : DepositTracker × List DepositEntry :=
  ((tracker.call input).1, [⟨input, (tracker.call input).2⟩])

end DepositTracker

/-! ## What crediting safely means -/

/-- The deposit was credited. -/
def DepositEntry.credit (key : DepositKey) : DepositEntry := ⟨.markCredited key, .marked true⟩

/-- The deposit was marked as reorganised. -/
def DepositEntry.reorg (key : DepositKey) : DepositEntry := ⟨.markReorged key, .marked true⟩

def DepositCall.reported? (key : DepositKey) : DepositCall → Option Nat
  | .updateConfirmations reported confirmations =>
      if reported = key then some confirmations else none
  | _ => none

/-- The most recently reported confirmation count of a deposit. -/
def lastReport (log : List DepositEntry) (key : DepositKey) : Option Nat :=
  (log.filterMap fun entry => entry.call.reported? key).getLast?

/-- Every deposit is credited at most once, and only while its last reported count is high enough
and it has not been marked as reorganised. -/
structure CreditsSafely (log : List DepositEntry) : Prop where
  once : ∀ key, log.count (.credit key) ≤ 1
  covered : ∀ before key, before ++ [.credit key] <+: log →
    ∃ confirmations, lastReport before key = some confirmations ∧
      key.1.requiredConfirmations ≤ confirmations
  standing : ∀ before key, before ++ [.credit key] <+: log → .reorg key ∉ before

namespace DepositTracker

section Finding

variable {tracker : DepositTracker} {deposit : Deposit} {key tested : DepositKey}

private theorem find_new : new.find key = none := by simp [new, find]

/-- The key of a deposit that is found is the key it was looked up by. -/
theorem key_of_find (found : tracker.find key = some deposit) : deposit.key = key := by
  obtain ⟨index, present, inside⟩ := Option.bind_eq_some_iff.1 found
  have own := tracker.indexed key index present
  rw [inside] at own
  exact Option.some_inj.1 own

private theorem find_isSome_iff : (tracker.find key).isSome = true ↔ key ∈ tracker.idempotency := by
  rw [find, Std.ExtTreeMap.mem_iff_isSome_getElem?]
  cases present : tracker.idempotency[key]? with
  | none => rfl
  | some index =>
      obtain ⟨stored, inside, -⟩ := Option.map_eq_some_iff.1 (tracker.indexed key index present)
      rw [Option.bind_some, inside]
      rfl

private theorem find_push : (tracker.push deposit).find tested =
    if deposit.key = tested then some deposit else tracker.find tested := by
  have inserted : (tracker.push deposit).find tested =
      (tracker.idempotency.insert deposit.key tracker.deposits.length)[tested]?.bind
        fun index => (tracker.deposits ++ [deposit])[index]? := rfl
  rw [inserted, Std.ExtTreeMap.getElem?_insert]
  by_cases same : deposit.key = tested
  · rw [if_pos same, if_pos (Std.LawfulEqCmp.compare_eq_iff_eq.2 same), Option.bind_some,
      List.getElem?_concat_length]
  · rw [if_neg same, if_neg (mt Std.LawfulEqCmp.compare_eq_iff_eq.1 same), find]
    cases present : tracker.idempotency[tested]? with
    | none => rfl
    | some index =>
        obtain ⟨stored, inside, -⟩ :=
          Option.map_eq_some_iff.1 (tracker.indexed tested index present)
        rw [Option.bind_some, Option.bind_some,
          List.getElem?_append_left (List.getElem?_eq_some_iff.1 inside).1]

/-- A deposit that is written back replaces the one with its key, and no other. -/
theorem find_put (known : (tracker.find deposit.key).isSome = true) :
    (tracker.put deposit).find tested =
      if deposit.key = tested then some deposit else tracker.find tested := by
  obtain ⟨place, present⟩ := Option.isSome_iff_exists.1
    (Std.ExtTreeMap.mem_iff_isSome_getElem?.1 (find_isSome_iff.1 known))
  have written : (tracker.put deposit).deposits = tracker.deposits.set place deposit := by
    simp only [put, present]
  have own := tracker.indexed deposit.key place present
  obtain ⟨stored, inside, -⟩ := Option.map_eq_some_iff.1 own
  rw [find, written]
  by_cases same : deposit.key = tested
  · subst same
    have kept : (tracker.put deposit).idempotency[deposit.key]? = some place := present
    rw [if_pos rfl, kept, Option.bind_some,
      List.getElem?_set_self (List.getElem?_eq_some_iff.1 inside).1]
  · have kept : (tracker.put deposit).idempotency[tested]? = tracker.idempotency[tested]? := rfl
    rw [if_neg same, kept, find]
    cases other : tracker.idempotency[tested]? with
    | none => rfl
    | some index =>
        -- two keys have different indices, since the deposit there has only one
        have apart : place ≠ index := by
          rintro rfl
          have alike := own.symm.trans (tracker.indexed tested place other)
          exact same (Option.some_inj.1 alike)
        rw [Option.bind_some, Option.bind_some, List.getElem?_set_ne apart]

end Finding

end DepositTracker

/-! ## The life of one deposit -/

/-- What one call can do to the deposit with a key. -/
inductive Moves (key : DepositKey) : Option Deposit → DepositEntry → Option Deposit → Prop where
  | idle {stored : Option Deposit} {entry : DepositEntry} (notCredit : entry ≠ .credit key)
      (notReorg : entry ≠ .reorg key)
      (notReport : stored = none ∨ entry.call.reported? key = none) : Moves key stored entry stored
  | records {entry : DepositEntry} {deposit : Deposit} (notCredit : entry ≠ .credit key)
      (notReorg : entry ≠ .reorg key) (status : deposit.status = .pending)
      (required : deposit.requiredConfirmations = key.1.requiredConfirmations) :
      Moves key none entry (some deposit)
  | reports {deposit : Deposit} (confirmations : Nat)
      (stays : ¬ (deposit.status = .pending ∧ deposit.requiredConfirmations ≤ confirmations)) :
      Moves key (some deposit) ⟨.updateConfirmations key confirmations, .updated (some false)⟩
        (some { deposit with confirmations := confirmations })
  | confirms {deposit : Deposit} (confirmations : Nat) (status : deposit.status = .pending)
      (enough : deposit.requiredConfirmations ≤ confirmations) :
      Moves key (some deposit) ⟨.updateConfirmations key confirmations, .updated (some true)⟩
        (some { deposit with confirmations := confirmations, status := .confirmed })
  | credits {deposit : Deposit} (status : deposit.status = .confirmed) :
      Moves key (some deposit) (.credit key) (some { deposit with status := .credited })
  | reorgs {deposit : Deposit} (status : deposit.status = .pending ∨ deposit.status = .confirmed) :
      Moves key (some deposit) (.reorg key) (some { deposit with status := .reorged })

/-- A call that does not report that it marked a deposit, nor a count that is stored, moves none. -/
theorem Moves.unmarked {key : DepositKey} {stored : Option Deposit} {entry : DepositEntry}
    (unmarked : entry.result ≠ .marked true)
    (notReport : stored = none ∨ entry.call.reported? key = none) : Moves key stored entry stored :=
  .idle (fun credit => unmarked (congrArg DepositEntry.result credit))
    (fun reorg => unmarked (congrArg DepositEntry.result reorg)) notReport

namespace DepositTracker

variable {tracker : DepositTracker}

/-- A deposit that is written back moves, and the others do not. -/
theorem moves_put {deposit changed : Deposit} {key tested : DepositKey} {entry : DepositEntry}
    (found : tracker.find key = some deposit) (same : changed.key = deposit.key)
    (own : Moves key (some deposit) entry (some changed))
    (others : key ≠ tested → ∀ stored, Moves tested stored entry stored) :
    Moves tested (tracker.find tested) entry ((tracker.put changed).find tested) := by
  have sameKey := same.trans (key_of_find found)
  rw [find_put (by rw [sameKey, found]; rfl), sameKey]
  by_cases here : key = tested
  · subst here
    rwa [found, if_pos rfl]
  · rw [if_neg here]
    exact others here _

private theorem moves_recordDeposit (userId : UserId) (key tested : DepositKey)
    (fromAddress toAddress : String) (amount : Decimal128) (asset : String)
    (timestamp : UnixMicros) :
    Moves tested (tracker.find tested)
      ⟨.recordDeposit userId key fromAddress toAddress amount asset timestamp, .recorded
        (tracker.recordDeposit userId key fromAddress toAddress amount asset timestamp).2⟩
      ((tracker.recordDeposit userId key fromAddress toAddress amount asset timestamp).1.find
        tested) := by
  have idle : ∀ result stored, Moves tested stored
      ⟨.recordDeposit userId key fromAddress toAddress amount asset timestamp, .recorded result⟩
      stored := fun result stored =>
    .unmarked (by simp) (Or.inr rfl)
  rw [recordDeposit]
  by_cases known : key ∈ tracker.idempotency
  · rw [if_pos known]
    exact idle _ _
  · rw [if_neg known, find_push]
    split
    case isTrue same =>
      obtain rfl : key = tested := same
      have unknown : tracker.find key = none :=
        Option.not_isSome_iff_eq_none.1 (mt find_isSome_iff.1 known)
      rw [unknown]
      exact .records (by simp [DepositEntry.credit]) (by simp [DepositEntry.reorg]) rfl rfl
    case isFalse => exact idle _ _

private theorem moves_updateConfirmations (key tested : DepositKey) (confirmations : Nat) :
    Moves tested (tracker.find tested)
      ⟨.updateConfirmations key confirmations,
        .updated (tracker.updateConfirmations key confirmations).2⟩
      ((tracker.updateConfirmations key confirmations).1.find tested) := by
  have others : ∀ result, key ≠ tested → ∀ stored, Moves tested stored
      ⟨.updateConfirmations key confirmations, .updated result⟩ stored :=
    fun result other stored =>
      .unmarked (by simp) (Or.inr (if_neg other))
  rw [updateConfirmations]
  cases found : tracker.find key with
  | none =>
      by_cases here : key = tested
      · subst here
        exact .unmarked (by simp) (Or.inl found)
      · exact others none here _
  | some deposit =>
      dsimp only
      split
      case isTrue enough =>
        exact moves_put found rfl (.confirms confirmations enough.1 enough.2) (others _)
      case isFalse stays => exact moves_put found rfl (.reports confirmations stays) (others _)

private theorem moves_markCredited (key tested : DepositKey) :
    Moves tested (tracker.find tested) ⟨.markCredited key, .marked (tracker.markCredited key).2⟩
      ((tracker.markCredited key).1.find tested) := by
  rw [markCredited]
  have refused : ∀ stored, Moves tested stored ⟨.markCredited key, .marked false⟩ stored :=
    fun stored => .unmarked (by simp) (Or.inr rfl)
  cases found : tracker.find key with
  | none => exact refused _
  | some deposit =>
      dsimp only
      split
      case isTrue status =>
        refine moves_put found rfl (.credits status) fun other stored => ?_
        exact .idle (by simpa [DepositEntry.credit] using other) (by simp [DepositEntry.reorg])
          (Or.inr rfl)
      case isFalse => exact refused _

private theorem moves_markReorged (key tested : DepositKey) :
    Moves tested (tracker.find tested) ⟨.markReorged key, .marked (tracker.markReorged key).2⟩
      ((tracker.markReorged key).1.find tested) := by
  rw [markReorged]
  have refused : ∀ stored, Moves tested stored ⟨.markReorged key, .marked false⟩ stored :=
    fun stored => .unmarked (by simp) (Or.inr rfl)
  cases found : tracker.find key with
  | none => exact refused _
  | some deposit =>
      dsimp only
      split
      case isTrue status =>
        refine moves_put found rfl (.reorgs status) fun other stored => ?_
        exact .idle (by simp [DepositEntry.credit]) (by simpa [DepositEntry.reorg] using other)
          (Or.inr rfl)
      case isFalse => exact refused _

/-- Each call is one move of each deposit. -/
theorem moves_call (input : DepositCall) (tested : DepositKey) :
    Moves tested (tracker.find tested) ⟨input, (tracker.call input).2⟩
      ((tracker.call input).1.find tested) := by
  cases input with
  | recordDeposit userId key fromAddress toAddress amount asset timestamp =>
      exact moves_recordDeposit userId key tested fromAddress toAddress amount asset timestamp
  | updateConfirmations key confirmations =>
      exact moves_updateConfirmations key tested confirmations
  | markCredited key => exact moves_markCredited key tested
  | markReorged key => exact moves_markReorged key tested

end DepositTracker

/-! ## What the log tells of a deposit -/

section Logs

variable {log : List DepositEntry} {entry : DepositEntry} {key : DepositKey}
variable {stored next : Option Deposit}

private theorem lastReport_concat :
    lastReport (log ++ [entry]) key = (entry.call.reported? key).or (lastReport log key) := by
  rw [lastReport, List.filterMap_append]
  cases reported : entry.call.reported? key with
  | none => simp [reported, lastReport]
  | some confirmations => simp [reported]

/-- The stored deposit agrees with what the log says of its key. -/
structure Tells (key : DepositKey) (log : List DepositEntry) (stored : Option Deposit) :
    Prop where
  required : ∀ deposit ∈ stored, deposit.requiredConfirmations = key.1.requiredConfirmations
  credited : .credit key ∈ log → stored.map Deposit.status = some .credited
  reorged : .reorg key ∈ log → stored.map Deposit.status = some .reorged
  reported : ∀ deposit, stored = some deposit → deposit.status = .confirmed →
    lastReport log key = some deposit.confirmations

private theorem tells_nil : Tells key [] none where
  required deposit found := by simp at found
  credited member := by simp at member
  reorged member := by simp at member
  reported deposit found := by simp at found

/-- A deposit that is pending or confirmed has not been credited or marked as reorganised. -/
theorem Tells.unmarked {deposit : Deposit} (tells : Tells key log (some deposit))
    (status : deposit.status = .pending ∨ deposit.status = .confirmed) :
    .credit key ∉ log ∧ .reorg key ∉ log := by
  constructor
  · intro member
    have credited := Option.some_inj.1 (tells.credited member)
    rcases status with status | status <;> simp [status] at credited
  · intro member
    have reorged := Option.some_inj.1 (tells.reorged member)
    rcases status with status | status <;> simp [status] at reorged

private theorem Moves.of_credit (moves : Moves key stored (.credit key) next) :
    stored.map Deposit.status = some .confirmed ∧ next.map Deposit.status = some .credited := by
  cases moves with
  | idle notCredit => exact absurd rfl notCredit
  | records notCredit => exact absurd rfl notCredit
  | credits status => exact ⟨congrArg some status, rfl⟩

private theorem Moves.of_reorg (moves : Moves key stored (.reorg key) next) :
    next.map Deposit.status = some .reorged := by
  cases moves with
  | idle notCredit notReorg => exact absurd rfl notReorg
  | records notCredit notReorg => exact absurd rfl notReorg
  | reorgs => rfl

/-- A deposit that is credited or reorganised stays so. -/
theorem Moves.final (moves : Moves key stored entry next) {status : DepositStatus}
    (final : status = .credited ∨ status = .reorged)
    (old : stored.map Deposit.status = some status) : next.map Deposit.status = some status := by
  cases moves with
  | idle => exact old
  | records => exact absurd old (by simp)
  | reports => exact old
  | confirms confirmations pending =>
      rw [Option.map_some, pending] at old
      rcases final with rfl | rfl <;> exact absurd old (by decide)
  | credits confirmed =>
      rw [Option.map_some, confirmed] at old
      rcases final with rfl | rfl <;> exact absurd old (by decide)
  | reorgs live =>
      rw [Option.map_some, Option.some_inj] at old
      rcases final with rfl | rfl <;> simp [old] at live

theorem Moves.required (moves : Moves key stored entry next)
    (old : ∀ deposit ∈ stored,
      deposit.requiredConfirmations = key.1.requiredConfirmations) :
    ∀ deposit ∈ next, deposit.requiredConfirmations = key.1.requiredConfirmations := by
  cases moves with
  | idle => exact old
  | records notCredit notReorg status required =>
      rintro deposit ⟨⟩
      exact required
  | reports | confirms | credits | reorgs =>
      have required := old _ rfl
      rintro deposit ⟨⟩
      exact required

/-- A confirmed deposit has the count of this report, or the call did not concern it. -/
theorem Moves.confirmed (moves : Moves key stored entry next) {deposit : Deposit}
    (found : next = some deposit) (status : deposit.status = .confirmed) :
    (entry.call.reported? key = some deposit.confirmations ∧
        ∃ old ∈ stored, old.status = .confirmed ∨
          old.requiredConfirmations ≤ deposit.confirmations) ∨
      (entry.call.reported? key = none ∧ stored = some deposit) := by
  subst found
  cases moves with
  | idle notCredit notReorg notReport => exact Or.inr ⟨notReport.resolve_left (by simp), rfl⟩
  | records notCredit notReorg pending => exact absurd (pending.symm.trans status) (by decide)
  | reports confirmations => exact Or.inl ⟨if_pos rfl, _, rfl, Or.inl status⟩
  | confirms confirmations pending enough => exact Or.inl ⟨if_pos rfl, _, rfl, Or.inr enough⟩
  | credits => cases status
  | reorgs => cases status

/-- A report leaves a confirmed deposit confirmed, whatever the count is. -/
theorem Moves.report_confirmed {deposit : Deposit} {confirmations : Nat} {result : DepositResult}
    (moves : Moves key (some deposit) ⟨.updateConfirmations key confirmations, result⟩ next)
    (status : deposit.status = .confirmed) : next.map Deposit.status = some .confirmed := by
  cases moves with
  | idle notCredit notReorg notReport => simp [DepositCall.reported?] at notReport
  | reports => exact congrArg some status
  | confirms _ pending => exact absurd (pending.symm.trans status) (by decide)

/-- A move keeps the deposit in agreement with the log. -/
theorem Tells.move (tells : Tells key log stored) (moves : Moves key stored entry next) :
    Tells key (log ++ [entry]) next where
  required := moves.required tells.required
  credited member := by
    rcases List.mem_append.1 member with old | new
    · exact moves.final (Or.inl rfl) (tells.credited old)
    · obtain rfl := List.mem_singleton.1 new
      exact moves.of_credit.2
  reorged member := by
    rcases List.mem_append.1 member with old | new
    · exact moves.final (Or.inr rfl) (tells.reorged old)
    · obtain rfl := List.mem_singleton.1 new
      exact moves.of_reorg
  reported deposit found status := by
    rw [lastReport_concat]
    rcases moves.confirmed found status with ⟨now, -⟩ | ⟨silent, same⟩
    · rw [now, Option.some_or]
    · rw [silent, Option.none_or]
      exact tells.reported deposit same status

end Logs

/-! ## Runs -/

namespace DepositTracker

/-- No report is below the required number for a deposit that is confirmed. -/
def KeepsConfirmed (tracker : DepositTracker) : DepositCall → Prop
  | .updateConfirmations key confirmations =>
      ∀ deposit, tracker.find key = some deposit → deposit.status = .confirmed →
        key.1.requiredConfirmations ≤ confirmations
  | _ => True

private theorem eq_of_reported? {input : DepositCall} {key : DepositKey} {confirmations : Nat}
    (reported : input.reported? key = some confirmations) :
    input = .updateConfirmations key confirmations := by
  cases input with
  | updateConfirmations other count =>
      rw [DepositCall.reported?] at reported
      split at reported
      case isTrue same => rw [same, Option.some_inj.1 reported]
      case isFalse => cases reported
  | recordDeposit | markCredited | markReorged => cases reported

private theorem find_step (tracker : DepositTracker) (input : DepositCall) (key : DepositKey) :
    Moves key (tracker.find key) ⟨input, (tracker.call input).2⟩
      ((tracker.step input).1.find key) := moves_call input key

theorem tells_run (calls : List DepositCall) (key : DepositKey) :
    Tells key (run step new calls).2 ((run step new calls).1.find key) := by
  apply run_induction step (motive := fun _ tracker log => Tells key log (tracker.find key))
  · rw [find_new]
    exact tells_nil
  · rintro before input - tells
    exact tells.move (find_step _ input key)

/-- While no report falls below the required number, a confirmed deposit has enough. -/
theorem confirmed_run {calls : List DepositCall} (meet : StepsMeet step KeepsConfirmed new calls)
    (key : DepositKey) : ∀ deposit, (run step new calls).1.find key = some deposit →
      deposit.status = .confirmed → key.1.requiredConfirmations ≤ deposit.confirmations := by
  apply run_induction step (motive := fun _ tracker _ => ∀ deposit,
    tracker.find key = some deposit → deposit.status = .confirmed →
      key.1.requiredConfirmations ≤ deposit.confirmations)
  · intro deposit found
    simp [find_new] at found
  · intro before input isPrefix holds deposit found status
    rcases (find_step _ input key).confirmed found status with
      ⟨reported, old, stored, early | enough⟩ | ⟨-, same⟩
    · -- a further report for a confirmed deposit is the one that the condition is about
      have condition := meet.of_prefix isPrefix
      obtain rfl := eq_of_reported? reported
      exact condition old stored early
    · rwa [(tells_run before key).required old stored] at enough
    · exact holds deposit same status

/-- A credit in the log of a run was made for a deposit that was confirmed then. -/
theorem credited_confirmed {calls : List DepositCall} {earlier : List DepositEntry}
    {key : DepositKey} (inside : earlier ++ [.credit key] <+: (run step new calls).2) :
    ∃ before deposit, before <+: calls ∧ earlier = (run step new before).2 ∧
      (run step new before).1.find key = some deposit ∧ deposit.status = .confirmed := by
  revert inside
  apply run_induction step (motive := fun _ _ log =>
    earlier ++ [DepositEntry.credit key] <+: log →
    ∃ before deposit, before <+: calls ∧ earlier = (run step new before).2 ∧
      (run step new before).1.find key = some deposit ∧ deposit.status = .confirmed)
  · intro inside
    simp at inside
  · intro before input isPrefix holds inside
    rcases List.prefix_concat_iff.1 inside with whole | old
    · obtain ⟨same, credit⟩ := List.append_inj' whole rfl
      have moves := find_step (run step new before).1 input key
      rw [← (List.cons.inj credit).1] at moves
      obtain ⟨deposit, found, status⟩ := Option.map_eq_some_iff.1 moves.of_credit.1
      exact ⟨before, deposit, (List.prefix_append before [input]).trans isPrefix, same, found,
        status⟩
    · exact holds old

/-- No run credits a deposit twice. -/
theorem count_credit_run (calls : List DepositCall) (key : DepositKey) :
    (run step new calls).2.count (.credit key) ≤ 1 := by
  apply run_induction step (motive := fun _ _ log => log.count (.credit key) ≤ 1)
  · simp
  · intro before input isPrefix holds
    have logged : (step (run step new before).1 input).2 =
      [⟨input, ((run step new before).1.call input).2⟩] := rfl
    rw [logged, List.count_append, List.count_singleton]
    split
    case isTrue credit =>
      have moves := find_step (run step new before).1 input key
      rw [eq_of_beq credit] at moves
      obtain ⟨deposit, found, status⟩ := Option.map_eq_some_iff.1 moves.of_credit.1
      have tells := tells_run before key
      rw [found] at tells
      rw [List.count_eq_zero_of_not_mem (tells.unmarked (Or.inr status)).1]
    case isFalse => exact holds

/-- Runs credit safely as long as no report falls below the required number for a deposit that
is confirmed. -/
theorem creditsSafely_run {calls : List DepositCall}
    (meet : StepsMeet step KeepsConfirmed new calls) :
    CreditsSafely (run step new calls).2 where
  once := count_credit_run calls
  covered earlier key inside := by
    obtain ⟨before, deposit, isPrefix, rfl, found, status⟩ := credited_confirmed inside
    exact ⟨deposit.confirmations, (tells_run before key).reported deposit found status,
      confirmed_run (meet.initial isPrefix) key deposit found status⟩
  standing earlier key inside := by
    obtain ⟨before, deposit, isPrefix, rfl, found, status⟩ := credited_confirmed inside
    have tells := tells_run before key
    rw [found] at tells
    exact (tells.unmarked (Or.inr status)).2

/-- A deposit that a run leaves confirmed is credited when that is asked next. -/
theorem log_markCredited {calls : List DepositCall} {key : DepositKey}
    (confirmed : ((run step new calls).1.find key).map Deposit.status = some .confirmed) :
    (run step new (calls ++ [.markCredited key])).2 =
      (run step new calls).2 ++ [.credit key] := by
  obtain ⟨deposit, found, status⟩ := Option.map_eq_some_iff.1 confirmed
  have credited : ((run step new calls).1.markCredited key).2 = true := by
    rw [markCredited, found]
    exact congrArg Prod.snd (if_pos status)
  rw [run_concat, step, call, credited]
  rfl

/-- Crediting is safe in every state of a run, also when any deposit is credited next, if and only
if no call of the run reports less than the required number for a deposit that is confirmed. -/
theorem credits_safely_iff (calls : List DepositCall) :
    (∀ before, before <+: calls → CreditsSafely (run step new before).2 ∧
      ∀ key, CreditsSafely (run step new (before ++ [.markCredited key])).2) ↔
      StepsMeet step KeepsConfirmed new calls := by
  constructor
  · intro safely
    refine StepsMeet.of_prefixes fun before input isPrefix => ?_
    cases input with
    | updateConfirmations key confirmations =>
        intro deposit found status
        -- the deposit is still confirmed after the report, so it can be credited next
        have moves := find_step (run step new before).1 (.updateConfirmations key confirmations) key
        rw [found] at moves
        have confirmed : ((run step new (before ++
            [.updateConfirmations key confirmations])).1.find key).map Deposit.status =
              some .confirmed := by
          rw [run_concat]
          exact moves.report_confirmed status
        have credits := (safely _ isPrefix).2 key
        rw [log_markCredited confirmed] at credits
        obtain ⟨latest, reported, enough⟩ := credits.covered _ key (List.prefix_refl _)
        rw [run_concat, step, lastReport_concat, DepositCall.reported?, if_pos rfl,
          Option.some_or] at reported
        rwa [← Option.some_inj.1 reported] at enough
    | recordDeposit | markCredited | markReorged => trivial
  · intro meet before isPrefix
    refine ⟨creditsSafely_run (meet.initial isPrefix), fun key => creditsSafely_run ?_⟩
    exact StepsMeet.append_iff.2 ⟨meet.initial isPrefix, trivial, trivial⟩

/-- A deposit on Ethereum is confirmed with twelve confirmations, falls back to three, and is
credited. -/
def fallenBackCalls : List DepositCall :=
  let key : DepositKey := (.ethereum, "0xaa", 0)
  [.recordDeposit 1 key "0xbb" "0xcc" ⟨100⟩ "USDT" 5, .updateConfirmations key 12,
    .updateConfirmations key 3, .markCredited key]

theorem fallenBackCalls_unsafe : ¬ CreditsSafely (run step new fallenBackCalls).2 := by
  intro safely
  obtain ⟨confirmations, reported, enough⟩ := safely.covered
    (run step new (fallenBackCalls.take 3)).2 (.ethereum, "0xaa", 0) (by decide)
  have latest : lastReport (run step new (fallenBackCalls.take 3)).2 (.ethereum, "0xaa", 0) =
      some 3 := by decide
  rw [latest] at reported
  rw [← Option.some_inj.1 reported] at enough
  exact absurd enough (by decide)

end DepositTracker
end Exg
