import Exg.Clearing.OpenInterest
import Exg.Support.Separated

/-!
# Settlements in closed form

A settlement asks for an amount and moves that amount, or as much of it as the user's
balance covers.  With a key that was not used before, both settlement paths of the
processor are this closed form, and the keys the processor makes are never used twice.
-/

namespace Exg

open Support

/-! ## Keys -/

def GatewayKey (key : String) : Prop :=
  ∃ userId timestamp counter, key = adminCreditKey userId timestamp counter

private theorem pnlKey_inj {seq userId symbol seq' userId' symbol' : Nat}
    (same : pnlKey seq userId symbol = pnlKey seq' userId' symbol') : seq = seq' :=
  (underscored_inj same).1

private theorem fundingKey_inj {period userId symbol period' userId' symbol' : Nat}
    (same : fundingKey period userId symbol = fundingKey period' userId' symbol') :
    period = period' ∧ userId = userId' ∧ symbol = symbol' :=
  underscored_inj same

private theorem pnlKey_ne_fundingKey (seq userId symbol period userId' symbol' : Nat) :
    pnlKey seq userId symbol ≠ fundingKey period userId' symbol' :=
  underscored_ne (by decide) (by decide) (by decide) _ _ _ _ _ _

private theorem pnlKey_ne_gateway {key : String} (gateway : GatewayKey key)
    (seq userId symbol : Nat) :
    key ≠ pnlKey seq userId symbol := by
  obtain ⟨user, timestamp, counter, rfl⟩ := gateway
  exact underscored_ne (by decide) (by decide) (by decide) _ _ _ _ _ _

private theorem fundingKey_ne_gateway {key : String} (gateway : GatewayKey key)
    (period userId symbol : Nat) : key ≠ fundingKey period userId symbol := by
  obtain ⟨user, timestamp, counter, rfl⟩ := gateway
  exact underscored_ne (by decide) (by decide) (by decide) _ _ _ _ _ _

namespace PostTradeProcessor

/-- The keys a processor can have used: those its counters have passed, and credits. -/
def KeyUsed (pnlSeq fundingPeriodId : Nat) (credits : List String) (key : String) : Prop :=
  (∃ seq userId symbol, seq ≤ pnlSeq ∧ key = pnlKey seq userId symbol) ∨
    (∃ period userId symbol, period ≤ fundingPeriodId ∧ key = fundingKey period userId symbol) ∨
      (key ∈ credits ∧ GatewayKey key)

theorem KeyUsed.mono {pnlSeq fundingPeriodId pnlSeq' fundingPeriodId' : Nat}
    {credits credits' : List String} {key : String}
    (used : KeyUsed pnlSeq fundingPeriodId credits key) (pnl : pnlSeq ≤ pnlSeq')
    (period : fundingPeriodId ≤ fundingPeriodId') (grows : credits ⊆ credits') :
    KeyUsed pnlSeq' fundingPeriodId' credits' key := by
  rcases used with ⟨seq, userId, symbol, bound, same⟩ | ⟨tick, userId, symbol, bound, same⟩ |
    ⟨member, gateway⟩
  · exact Or.inl ⟨seq, userId, symbol, bound.trans pnl, same⟩
  · exact Or.inr (Or.inl ⟨tick, userId, symbol, bound.trans period, same⟩)
  · exact Or.inr (Or.inr ⟨grows member, gateway⟩)

/-- The money side of a processor between two commands. -/
structure MoneyReady (processor : PostTradeProcessor) (credits : List String) : Prop where
  sound : processor.ledger.Sound
  keys : ∀ key ∈ processor.ledger.idempotencyKeys,
    KeyUsed processor.pnlSeq processor.fundingPeriodId credits key

theorem moneyReady_new : new.MoneyReady [] := ⟨Ledger.sound_new, by simp [new, Ledger.new]⟩

variable {processor : PostTradeProcessor} {credits : List String}

theorem MoneyReady.mono {credits' : List String} (ready : processor.MoneyReady credits)
    (grows : credits ⊆ credits') : processor.MoneyReady credits' :=
  ⟨ready.sound, fun key member => (ready.keys key member).mono le_rfl le_rfl grows⟩

theorem MoneyReady.pnl_fresh (ready : processor.MoneyReady credits) (userId : UserId)
    (symbol : SymbolId) :
    pnlKey (processor.pnlSeq + 1) userId symbol ∉ processor.ledger.idempotencyKeys := by
  intro member
  rcases ready.keys _ member with ⟨seq, _, _, bound, same⟩ | ⟨period, _, _, -, same⟩ | ⟨-, gateway⟩
  · have next := pnlKey_inj same
    omega
  · exact pnlKey_ne_fundingKey _ _ _ _ _ _ same
  · exact pnlKey_ne_gateway gateway _ _ _ rfl

theorem MoneyReady.funding_fresh (ready : processor.MoneyReady credits) {period : Nat}
    (later : processor.fundingPeriodId < period) (userId : UserId) (symbol : SymbolId) :
    fundingKey period userId symbol ∉ processor.ledger.idempotencyKeys := by
  intro member
  rcases ready.keys _ member with ⟨seq, _, _, -, same⟩ | ⟨tick, _, _, bound, same⟩ | ⟨-, gateway⟩
  · exact pnlKey_ne_fundingKey _ _ _ _ _ _ same.symm
  · have next := (fundingKey_inj same).1
    omega
  · exact fundingKey_ne_gateway gateway _ _ _ rfl

theorem MoneyReady.credit_fresh (ready : processor.MoneyReady credits) {key : String}
    (gateway : GatewayKey key) (unused : key ∉ credits) :
    key ∉ processor.ledger.idempotencyKeys := by
  intro member
  rcases ready.keys _ member with ⟨_, _, _, -, same⟩ | ⟨_, _, _, -, same⟩ | ⟨used, -⟩
  · exact pnlKey_ne_gateway gateway _ _ _ same
  · exact fundingKey_ne_gateway gateway _ _ _ same
  · exact unused used

end PostTradeProcessor

/-! ## Closed forms -/

namespace Ledger

/-- What a settlement of a signed amount moves. -/
def coveredMove (ledger : Ledger) (userId : UserId) (signed : Decimal128) : Decimal128 :=
  max signed (-ledger.fundingBalance userId)

variable {ledger : Ledger}

@[simp]
theorem coveredMove_getOrCreateAccount (userId other : UserId) (signed : Decimal128) :
    (ledger.getOrCreateAccount userId).coveredMove other signed =
      ledger.coveredMove other signed := by
  simp [coveredMove]

theorem coveredMove_covered (userId : UserId) (signed : Decimal128) :
    -ledger.fundingBalance userId ≤ ledger.coveredMove userId signed := le_max_right _ _

theorem coveredMove_zero (sound : ledger.Sound) (userId : UserId) :
    ledger.coveredMove userId 0 = 0 :=
  max_eq_left (neg_nonpos.2 (sound.fundingBalance_nonneg userId))

/-- An account, and then a settlement of a signed amount under a new key. -/
theorem settle_opened (sound : ledger.Sound) {userId : UserId} {signed : Decimal128} {key : String}
    (nonzero : signed ≠ 0) (fresh : key ∉ ledger.idempotencyKeys) (timestamp : UnixMicros) :
    (ledger.getOrCreateAccount userId).settleRealizedPnlCapped userId signed key timestamp =
      ((ledger.getOrCreateAccount userId).settled userId (ledger.coveredMove userId signed) key
        timestamp, .ok (ledger.coveredMove userId signed)) := by
  obtain ⟨account, known⟩ := ledger.getOrCreateAccount_known userId
  rw [settleRealizedPnlCapped_eq known nonzero (by simpa using fresh)
    (by simpa using sound.fundingBalance_nonneg userId)]
  simp [coveredMove]

end Ledger

namespace PostTradeProcessor

variable {processor : PostTradeProcessor} {credits : List String}

/-- What a fill leaves behind. -/
def filledState (processor : PostTradeProcessor) (filled : OrderFilled) (pnl : Decimal128)
    (positions : PositionManager) (timestamp : UnixMicros) : PostTradeProcessor × List Event :=
  let moved := processor.ledger.coveredMove filled.userId pnl
  if moved = 0 then
    ({ processor with positions := positions }, [])
  else
    ({ processor with
        positions := positions
        ledger := (processor.ledger.getOrCreateAccount filled.userId).settled filled.userId moved
          (pnlKey (processor.pnlSeq + 1) filled.userId filled.symbol) timestamp
        pnlSeq := processor.pnlSeq + 1 },
      [.realizedPnl filled.userId filled.symbol moved timestamp])

theorem consumeFill_eq (ready : processor.MoneyReady credits) {filled : OrderFilled}
    {pnl : Decimal128} {positions : PositionManager}
    (applied : processor.positions.applyFill filled.userId filled.symbol filled.side
      filled.fillQty filled.fillPrice = .ok (pnl, positions)) (timestamp : UnixMicros) :
    processor.consumeFill filled timestamp =
      .ok (processor.filledState filled pnl positions timestamp) := by
  have covered := ready.sound.fundingBalance_nonneg filled.userId
  simp only [consumeFill, applyFillToPosition, applied, filledState]
  by_cases flat : pnl = 0
  · simp [flat, Ledger.coveredMove_zero ready.sound]
  · simp only [Decimal128.isZero_iff, if_neg flat, settleRealizedPnl]
    by_cases broke : pnl < 0 ∧ processor.ledger.fundingBalance filled.userId = 0
    · have nothing : processor.ledger.coveredMove filled.userId pnl = 0 := by
        rw [Ledger.coveredMove, broke.2, neg_zero]
        exact max_eq_right broke.1.le
      have shortCircuit : (pnl.isNegative &&
        ((processor.ledger.getBalance filled.userId .funding).elim
          0 WalletBalance.available).isZero) = true := by
        rw [Bool.and_eq_true, Decimal128.isNegative_iff, Decimal128.isZero_iff]
        exact broke
      rw [if_pos shortCircuit]
      simp [nothing]
    · have moves : processor.ledger.coveredMove filled.userId pnl ≠ 0 := by
        rw [Ledger.coveredMove]
        rcases lt_trichotomy pnl 0 with loss | zero | profit
        · have balance : 0 < processor.ledger.fundingBalance filled.userId :=
            lt_of_le_of_ne covered fun empty => broke ⟨loss, empty.symm⟩
          exact (max_lt loss (neg_lt_zero.2 balance)).ne
        · exact absurd zero flat
        · exact (lt_max_of_lt_left profit).ne'
      have goesOn : ¬(pnl.isNegative && ((processor.ledger.getBalance filled.userId .funding).elim
          0 WalletBalance.available).isZero) = true := by
        rw [Bool.and_eq_true, Decimal128.isNegative_iff, Decimal128.isZero_iff]
        exact broke
      rw [if_neg goesOn, Ledger.settle_opened ready.sound flat (ready.pnl_fresh _ _) timestamp]
      simp [moves]

/-- What a funding tick leaves behind for one position. -/
def settledPosition (period : Nat) (mark rate : Decimal128) (timestamp : UnixMicros)
    (ledger : Ledger) (position : Position) : Ledger × List Event :=
  let payment := fundingPayment mark rate position
  let moved := ledger.coveredMove position.userId (-payment)
  if payment = 0 then
    (ledger, [])
  else
    ((ledger.getOrCreateAccount position.userId).settled position.userId moved
        (fundingKey period position.userId position.symbol) timestamp,
      if moved = 0 then [] else
        [.fundingSettled position.userId position.symbol period (-moved) timestamp])

private theorem settlePosition_eq {ledger : Ledger} (sound : ledger.Sound) {period : Nat}
    {position : Position}
    (fresh : fundingKey period position.userId position.symbol ∉ ledger.idempotencyKeys)
    (mark rate : Decimal128) (timestamp : UnixMicros) :
    settlePosition period mark rate timestamp ledger position =
      .ok (settledPosition period mark rate timestamp ledger position) := by
  simp only [settlePosition, settledPosition]
  by_cases nothing : fundingPayment mark rate position = 0
  · simp [nothing]
  · simp only [Decimal128.isZero_iff, if_neg nothing]
    rw [Ledger.settle_opened sound (neg_ne_zero.2 nothing) fresh timestamp]
    by_cases still : ledger.coveredMove position.userId (-fundingPayment mark rate position) = 0 <;>
      simp [still]

def settledPositions (period : Nat) (mark rate : Decimal128) (timestamp : UnixMicros) :
    Ledger → List Position → Ledger × List Event
  | ledger, [] => (ledger, [])
  | ledger, position :: rest =>
      let first := settledPosition period mark rate timestamp ledger position
      let later := settledPositions period mark rate timestamp first.1 rest
      (later.1, first.2 ++ later.2)

section Tick

variable {ledger : Ledger} {period : Nat} {mark rate : Decimal128} {timestamp : UnixMicros}

theorem settledPosition_sound (sound : ledger.Sound) (position : Position) :
    (settledPosition period mark rate timestamp ledger position).1.Sound := by
  rw [settledPosition]
  split
  · exact sound
  · exact (sound.getOrCreateAccount _).settled
      (by simpa using Ledger.coveredMove_covered position.userId _) _ _

/-- A position uses no key but its own. -/
theorem settledPosition_keys {position : Position} {key : String}
    (member : key ∈ (settledPosition period mark rate timestamp ledger
      position).1.idempotencyKeys) :
    key = fundingKey period position.userId position.symbol ∨ key ∈ ledger.idempotencyKeys := by
  rw [settledPosition] at member
  split at member
  · exact Or.inr member
  · simpa using member

/-- A tick leaves settlements of its own period only. -/
theorem settledPositions_fact {positions : List Position} :
    ∀ fact ∈ (settledPositions period mark rate timestamp ledger positions).2,
      ∃ userId symbol amount, fact = .fundingSettled userId symbol period amount timestamp := by
  induction positions generalizing ledger with
  | nil => simp [settledPositions]
  | cons position rest inductionHypothesis =>
      intro fact member
      rcases List.mem_append.1 member with here | later
      · rw [settledPosition] at here
        split at here
        · cases here
        · dsimp only at here
          split at here
          · cases here
          · exact ⟨_, _, _, List.mem_singleton.1 here⟩
      · exact inductionHypothesis fact later

/-- The keys that a tick is going to use are new, and no two positions share theirs. -/
structure TickKeys (period : Nat) (ledger : Ledger) (positions : List Position) : Prop where
  sound : ledger.Sound
  owners : (positions.map fun position => (position.userId, position.symbol)).Nodup
  fresh : ∀ position ∈ positions,
    fundingKey period position.userId position.symbol ∉ ledger.idempotencyKeys

theorem TickKeys.next {position : Position} {rest : List Position}
    (ready : TickKeys period ledger (position :: rest)) (mark rate : Decimal128)
    (timestamp : UnixMicros) :
    TickKeys period (settledPosition period mark rate timestamp ledger position).1 rest := by
  have owners := List.nodup_cons.1 ready.owners
  refine ⟨settledPosition_sound ready.sound position, owners.2, fun other member used => ?_⟩
  rcases settledPosition_keys used with own | earlier
  · have same := fundingKey_inj own
    apply owners.1
    exact List.mem_map.2 ⟨other, member, Prod.ext same.2.1 same.2.2⟩
  · exact ready.fresh other (List.mem_cons_of_mem position member) earlier

private theorem TickKeys.settlePositions_eq {positions : List Position}
    (ready : TickKeys period ledger positions) (mark rate : Decimal128)
    (timestamp : UnixMicros) :
    settlePositions period mark rate timestamp ledger positions =
      .ok (settledPositions period mark rate timestamp ledger positions) := by
  induction positions generalizing ledger with
  | nil => rfl
  | cons position rest inductionHypothesis =>
      have first := settlePosition_eq ready.sound (ready.fresh position List.mem_cons_self) mark
        rate timestamp
      simp only [settlePositions, first, inductionHypothesis (ready.next mark rate timestamp),
        settledPositions]

/-- The keys that a tick is going to use are new, and it uses each once. -/
structure TickReady (period : Nat) (ledger : Ledger) (positions : List Position) : Prop where
  sound : ledger.Sound
  users : (positions.map Position.userId).Nodup
  fresh : ∀ position ∈ positions,
    fundingKey period position.userId position.symbol ∉ ledger.idempotencyKeys

private theorem TickReady.toKeys {positions : List Position}
    (ready : TickReady period ledger positions) :
    TickKeys period ledger positions where
  sound := ready.sound
  owners := by
    have users := ready.users
    rw [show positions.map Position.userId =
        (positions.map fun position => (position.userId, position.symbol)).map Prod.fst by
      rw [List.map_map]; rfl] at users
    exact users.of_map Prod.fst
  fresh := ready.fresh

theorem TickReady.next {position : Position} {rest : List Position}
    (ready : TickReady period ledger (position :: rest)) (mark rate : Decimal128)
    (timestamp : UnixMicros) :
    TickReady period (settledPosition period mark rate timestamp ledger position).1 rest := by
  have later := ready.toKeys.next mark rate timestamp
  exact ⟨later.sound, (List.nodup_cons.1 ready.users).2, later.fresh⟩

private theorem settledPositions_sound {positions : List Position} (sound : ledger.Sound) :
    (settledPositions period mark rate timestamp ledger positions).1.Sound := by
  induction positions generalizing ledger with
  | nil => exact sound
  | cons position rest inductionHypothesis =>
      exact inductionHypothesis (settledPosition_sound sound position)

end Tick

/-- The positions a funding tick settles. -/
def openRows (processor : PostTradeProcessor) (visit : List Position → List Position) :
    List Position :=
  (visit processor.positions.allPositions).filter fun position => !position.size.isZero

/-- What a funding tick leaves behind. -/
def fundedState (processor : PostTradeProcessor) (rows : List Position) (rate : Decimal128)
    (timestamp : UnixMicros) : PostTradeProcessor × List Event :=
  if rows ≠ [] ∧ processor.markPrice = 0 then
    (processor, [])
  else
    let settled := settledPositions (processor.fundingPeriodId + 1) processor.markPrice rate
      timestamp processor.ledger rows
    ({ processor with ledger := settled.1, fundingPeriodId := processor.fundingPeriodId + 1 },
      settled.2)

theorem openRows_ready (ready : processor.MoneyReady credits) {only : SymbolId}
    (filed : processor.positions.Filed only) {visit : List Position → List Position}
    (perm : (visit processor.positions.allPositions).Perm processor.positions.allPositions) :
    TickReady (processor.fundingPeriodId + 1) processor.ledger (processor.openRows visit) where
  sound := ready.sound
  users := by
    have visited := (perm.map Position.userId).nodup_iff.2 filed.users_nodup
    exact visited.sublist (List.filter_sublist.map Position.userId)
  fresh := fun position _ => ready.funding_fresh (Nat.lt_succ_self _) _ _

theorem settleFunding_eq_of_keys {visit : List Position → List Position}
    (ready : TickKeys (processor.fundingPeriodId + 1) processor.ledger (processor.openRows visit))
    (rate : Decimal128) (timestamp : UnixMicros) :
    processor.settleFunding visit rate timestamp =
      .ok (processor.fundedState (processor.openRows visit) rate timestamp) := by
  have settled := ready.settlePositions_eq processor.markPrice rate timestamp
  have skips : (!(processor.openRows visit).isEmpty && processor.markPrice.isZero) = true ↔
      processor.openRows visit ≠ [] ∧ processor.markPrice = 0 := by
    simp
  have rows : ((visit processor.positions.allPositions).filter fun position =>
      !position.size.isZero) = processor.openRows visit := rfl
  simp only [settleFunding, fundedState, rows, skips]
  split
  · rfl
  · simp only [settled, (settledPositions_sound ready.sound).verifyAllInvariants]

theorem settleFunding_eq (ready : processor.MoneyReady credits) {only : SymbolId}
    (filed : processor.positions.Filed only) {visit : List Position → List Position}
    (perm : (visit processor.positions.allPositions).Perm processor.positions.allPositions)
    (rate : Decimal128) (timestamp : UnixMicros) :
    processor.settleFunding visit rate timestamp =
      .ok (processor.fundedState (processor.openRows visit) rate timestamp) :=
  settleFunding_eq_of_keys (openRows_ready ready filed perm).toKeys rate timestamp

end PostTradeProcessor
end Exg
