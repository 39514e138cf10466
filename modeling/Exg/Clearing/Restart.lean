import Exg.Clearing.Rebuild

/-!
# Restarts do not show

A processor that is thrown away and rebuilt from its log at some command boundaries ends
with the positions, the balances and the movements of one that never was, although the
hash maps of the two may visit positions in different orders.
-/

namespace Exg

open Support

/-! ## Movements -/

/-- The entries of one funding tick. -/
def OneTick (entries : List JournalEntry) : Prop :=
  ∃ period, ∀ entry ∈ entries, ∃ userId symbol,
    entry.idempotencyKey = fundingKey period userId symbol

/-- Journals with the same accounts and amounts, up to the order within a funding tick. -/
inductive SameMovements : List JournalEntry → List JournalEntry → Prop where
  | nil : SameMovements [] []
  | entry {first second : JournalEntry} {rest rest' : List JournalEntry} :
      first.toMovement = second.toMovement → SameMovements rest rest' →
      SameMovements (first :: rest) (second :: rest')
  | tick {entries entries' rest rest' : List JournalEntry} :
      OneTick entries → OneTick entries' →
      (entries.map JournalEntry.toMovement).Perm (entries'.map JournalEntry.toMovement) →
      SameMovements rest rest' → SameMovements (entries ++ rest) (entries' ++ rest')

theorem SameMovements.append {first first' second second' : List JournalEntry}
    (same : SameMovements first first') (later : SameMovements second second') :
    SameMovements (first ++ second) (first' ++ second') := by
  induction same with
  | nil => exact later
  | entry movement _ inductionHypothesis => exact .entry movement inductionHypothesis
  | tick one one' perm _ inductionHypothesis =>
      rw [List.append_assoc, List.append_assoc]
      exact .tick one one' perm inductionHypothesis

namespace Ledger

/-- The accounts and the amount of a settlement. -/
def settlementMovement (userId : UserId) (moved : Decimal128) : Movement :=
  (settlementEntry 0 userId moved "" 0).toMovement

private theorem toMovement_settlementEntry (id : Nat) (userId : UserId) (moved : Decimal128)
    (key : String) (timestamp : UnixMicros) :
    (settlementEntry id userId moved key timestamp).toMovement = settlementMovement userId moved :=
  rfl

/-- The one entry that a deposit journals. -/
def depositEntry (id : Nat) (userId : UserId) (amount : Decimal128) (key : String)
    (timestamp : UnixMicros) : JournalEntry where
  debitUser := systemUserId
  debitWallet := .funding
  debitField := .available
  creditUser := userId
  creditWallet := .funding
  creditField := .available
  amount := amount
  id := id
  entryType := .deposit
  idempotencyKey := key
  timestamp := timestamp

private theorem journal_deposited (ledger : Ledger) (userId : UserId) (amount : Decimal128)
    (key : String) (timestamp : UnixMicros) :
    (ledger.deposited userId amount key timestamp).journal =
      ledger.journal ++ [depositEntry ledger.nextJournalId userId amount key timestamp] :=
  rfl

end Ledger

namespace PostTradeProcessor

/-! ## A funding tick does not depend on the order of the positions -/

section Tick

variable {ledger : Ledger} (period : Nat) (mark rate : Decimal128) (timestamp : UnixMicros)

/-- What a tick moves for a position. -/
def tickMove (ledger : Ledger) (position : Position) : Decimal128 :=
  ledger.coveredMove position.userId (-fundingPayment mark rate position)

/-- The movement that a tick journals for a position, if any. -/
def tickMovement (ledger : Ledger) (position : Position) : Option Movement :=
  if tickMove mark rate ledger position = 0 then none
  else some (Ledger.settlementMovement position.userId (tickMove mark rate ledger position))

theorem tickMove_of_free (sound : ledger.Sound) {position : Position}
    (free : fundingPayment mark rate position = 0) : tickMove mark rate ledger position = 0 := by
  rw [tickMove, free, neg_zero, Ledger.coveredMove_zero sound]

/-- The effect of a tick on one position. -/
theorem settledPosition_effect (sound : ledger.Sound) (position : Position) :
    let settled := (settledPosition period mark rate timestamp ledger position).1
    (∀ userId, settled.fundingBalance userId =
      ledger.fundingBalance userId +
        if position.userId = userId then tickMove mark rate ledger position else 0) ∧
      settled.systemBalance .funding =
        ledger.systemBalance .funding - tickMove mark rate ledger position ∧
      ∃ added, settled.journal = ledger.journal ++ added ∧
        added.map JournalEntry.toMovement = (tickMovement mark rate ledger position).toList ∧
        ∀ entry ∈ added,
          entry.idempotencyKey = fundingKey period position.userId position.symbol := by
  intro settled
  by_cases free : fundingPayment mark rate position = 0
  · have unchanged : settled = ledger := by simp [settled, settledPosition, free]
    have still := tickMove_of_free mark rate sound free
    rw [unchanged]
    exact ⟨by simp [still], by simp [still], [], by simp, by simp [tickMovement, still], by simp⟩
  · have moved : settled = (ledger.getOrCreateAccount position.userId).settled position.userId
        (tickMove mark rate ledger position)
        (fundingKey period position.userId position.symbol) timestamp := by
      simp [settled, settledPosition, free, tickMove]
    rw [moved]
    refine ⟨?_, ?_, ?_⟩
    · intro userId
      rw [Ledger.fundingBalance_settled]
      by_cases own : position.userId = userId
      · simp [own]
      · simp [own]
    · simp [Ledger.systemBalance_settled]
    · refine ⟨_, by rw [Ledger.journal_settled, Ledger.journal_getOrCreateAccount], ?_, ?_⟩
      · by_cases still : tickMove mark rate ledger position = 0
        · simp [tickMovement, still]
        · simp [tickMovement, still, Ledger.toMovement_settlementEntry]
      · intro entry member
        split at member
        · cases member
        · rw [List.mem_singleton.1 member]
          rfl

/-- The effect of a tick, as sums over the positions it settles. -/
theorem settledPositions_effect {positions : List Position}
    (ready : TickReady period ledger positions) :
    let settled := (settledPositions period mark rate timestamp ledger positions).1
    (∀ userId, settled.fundingBalance userId =
      ledger.fundingBalance userId +
        (positions.map fun position =>
          if position.userId = userId then tickMove mark rate ledger position else 0).sum) ∧
      settled.systemBalance .funding =
        ledger.systemBalance .funding - (positions.map (tickMove mark rate ledger)).sum ∧
      ∃ added, settled.journal = ledger.journal ++ added ∧
        added.map JournalEntry.toMovement = positions.filterMap (tickMovement mark rate ledger) ∧
        ∀ entry ∈ added, ∃ userId symbol,
          entry.idempotencyKey = fundingKey period userId symbol := by
  induction positions generalizing ledger with
  | nil => exact ⟨by simp [settledPositions], by simp [settledPositions], [],
      by simp [settledPositions],
      by simp, by simp⟩
  | cons position rest inductionHypothesis =>
      let first := (settledPosition period mark rate timestamp ledger position).1
      obtain ⟨funding, system, added, journal, movements, keys⟩ :=
        settledPosition_effect period mark rate timestamp ready.sound position
      obtain ⟨fundingLater, systemLater, addedLater, journalLater, movementsLater, keysLater⟩ :=
        inductionHypothesis (ready.next mark rate timestamp)
      -- the users of the later positions are others, so their moves are the same as before
      have sameMove : ∀ other ∈ rest, tickMove mark rate first other =
          tickMove mark rate ledger other := by
        intro other member
        have apart : position.userId ≠ other.userId := by
          intro same
          exact (List.nodup_cons.1 ready.users).1 (same ▸ List.mem_map_of_mem member)
        rw [tickMove, tickMove, Ledger.coveredMove, Ledger.coveredMove, funding, if_neg apart,
          add_zero]
      refine ⟨?_, ?_, added ++ addedLater, ?_, ?_, ?_⟩
      · intro userId
        rw [settledPositions, fundingLater, funding, List.map_cons, List.sum_cons, add_assoc]
        congr 2
        refine congrArg List.sum (List.map_congr_left fun other member => ?_)
        rw [sameMove other member]
      · rw [settledPositions, systemLater, system, List.map_cons, List.sum_cons, sub_sub]
        congr 2
        exact congrArg List.sum (List.map_congr_left sameMove)
      · rw [settledPositions, journalLater, journal, List.append_assoc]
      · have sameMovement : ∀ other ∈ rest, tickMovement mark rate first other =
            tickMovement mark rate ledger other := by
          intro other member
          rw [tickMovement, tickMovement, sameMove other member]
        rw [List.map_append, movements, movementsLater, List.filterMap_cons,
          List.filterMap_congr sameMovement]
        cases tickMovement mark rate ledger position <;> rfl
      · intro entry member
        rcases List.mem_append.1 member with here | later
        · exact ⟨_, _, keys entry here⟩
        · exact keysLater entry later

end Tick

/-! ## Steps of two processors with the same money -/

/-- Processors that differ in their keys and counters only. -/
structure SameMoney (first second : PostTradeProcessor) : Prop where
  positions : second.positions = first.positions
  markPrice : second.markPrice = first.markPrice
  funding : ∀ userId, second.ledger.fundingBalance userId = first.ledger.fundingBalance userId
  system : second.ledger.systemBalance .funding = first.ledger.systemBalance .funding

/-- Both processors step to the same money, by the same movements. -/
structure StepAlike (first firstNext second secondNext : PostTradeProcessor) : Prop where
  same : SameMoney firstNext secondNext
  movements : ∃ added added', firstNext.ledger.journal = first.ledger.journal ++ added ∧
    secondNext.ledger.journal = second.ledger.journal ++ added' ∧ SameMovements added added'

variable {credits credits' : List String} {only : SymbolId}
variable {first firstNext second secondNext : PostTradeProcessor}

theorem SameMoney.refl (processor : PostTradeProcessor) : SameMoney processor processor :=
  ⟨rfl, rfl, fun _ => rfl, rfl⟩

theorem SameMoney.coveredMove (same : SameMoney first second) (userId : UserId)
    (signed : Decimal128) :
    second.ledger.coveredMove userId signed = first.ledger.coveredMove userId signed := by
  rw [Ledger.coveredMove, Ledger.coveredMove, same.funding]

/-- A twin has the same money as its original. -/
theorem SameMoney.twin (same : SameMoney first second) {twin : PostTradeProcessor}
    (twins : Twin credits only second twin) : SameMoney first twin where
  positions := twins.positions.trans same.positions
  markPrice := twins.markPrice.trans same.markPrice
  funding := fun userId => (twins.mirrors.ledger.funding userId).trans (same.funding userId)
  system := twins.mirrors.ledger.system.trans same.system

theorem StepAlike.refl (same : SameMoney first second) : StepAlike first first second second :=
  ⟨same, [], [], by simp, by simp, .nil⟩

theorem StepAlike.trans {firstLast secondLast : PostTradeProcessor}
    (here : StepAlike first firstNext second secondNext)
    (later : StepAlike firstNext firstLast secondNext secondLast) :
    StepAlike first firstLast second secondLast := by
  obtain ⟨added, added', journal, journal', movements⟩ := here.movements
  obtain ⟨more, more', journalLater, journalLater', movementsLater⟩ := later.movements
  refine ⟨later.same, added ++ more, added' ++ more', ?_, ?_, movements.append movementsLater⟩
  · rw [journalLater, journal, List.append_assoc]
  · rw [journalLater', journal', List.append_assoc]

private theorem filledState_alike (same : SameMoney first second) (filled : OrderFilled)
    (pnl : Decimal128) (positions : PositionManager) (timestamp : UnixMicros) :
    StepAlike first (first.filledState filled pnl positions timestamp).1
      second (second.filledState filled pnl positions timestamp).1 := by
  rw [filledState, filledState, same.coveredMove]
  by_cases still : first.ledger.coveredMove filled.userId pnl = 0
  · simp only [if_pos still]
    exact ⟨⟨rfl, same.markPrice, same.funding, same.system⟩, [], [], by simp, by simp, .nil⟩
  · simp only [if_neg still]
    refine ⟨⟨rfl, same.markPrice, ?_, ?_⟩, _, _, by rw [Ledger.journal_settled,
      Ledger.journal_getOrCreateAccount], by rw [Ledger.journal_settled,
      Ledger.journal_getOrCreateAccount], ?_⟩
    · intro userId
      simp [Ledger.fundingBalance_settled, same.funding]
    · simp [Ledger.systemBalance_settled, same.system]
    · rw [if_neg still, if_neg still]
      exact .entry rfl .nil

private theorem fundedState_alike (same : SameMoney first second) {rows rows' : List Position}
    (ready : TickReady (first.fundingPeriodId + 1) first.ledger rows)
    (ready' : TickReady (second.fundingPeriodId + 1) second.ledger rows')
    (perm : rows'.Perm rows) (rate : Decimal128) (timestamp : UnixMicros) :
    StepAlike first (first.fundedState rows rate timestamp).1
      second (second.fundedState rows' rate timestamp).1 := by
  have skips : (rows' ≠ [] ∧ second.markPrice = 0) ↔ (rows ≠ [] ∧ first.markPrice = 0) := by
    rw [same.markPrice, ← List.length_pos_iff, ← List.length_pos_iff, perm.length_eq]
  by_cases skipped : rows ≠ [] ∧ first.markPrice = 0
  · rw [fundedState, fundedState, if_pos skipped, if_pos (skips.2 skipped)]
    exact StepAlike.refl same
  · rw [fundedState, fundedState, if_neg skipped, if_neg (mt skips.1 skipped)]
    obtain ⟨funding, system, added, journal, movements, keys⟩ :=
      settledPositions_effect (first.fundingPeriodId + 1) first.markPrice rate timestamp ready
    obtain ⟨funding', system', added', journal', movements', keys'⟩ :=
      settledPositions_effect (second.fundingPeriodId + 1) second.markPrice rate timestamp ready'
    have sameMove : tickMove second.markPrice rate second.ledger =
        tickMove first.markPrice rate first.ledger := by
      funext position
      rw [tickMove, tickMove, same.coveredMove, same.markPrice]
    have sameMovement : tickMovement second.markPrice rate second.ledger =
        tickMovement first.markPrice rate first.ledger := by
      funext position
      rw [tickMovement, tickMovement, sameMove]
    refine ⟨⟨same.positions, same.markPrice, ?_, ?_⟩, added, added', journal, journal', ?_⟩
    · intro userId
      refine (funding' userId).trans ?_
      refine Eq.trans ?_ (funding userId).symm
      rw [sameMove, same.funding]
      exact congrArg (first.ledger.fundingBalance userId + ·) (perm.map _).sum_eq
    · refine system'.trans ?_
      refine Eq.trans ?_ system.symm
      rw [sameMove, same.system, (perm.map _).sum_eq]
    · have reordered : (added.map JournalEntry.toMovement).Perm
          (added'.map JournalEntry.toMovement) := by
        rw [movements, movements', sameMovement]
        exact (perm.filterMap _).symm
      have one := SameMovements.tick ⟨_, keys⟩ ⟨_, keys'⟩ reordered .nil
      simpa using one

/-- An event of the engine steps both alike. -/
theorem consumedState_alike (same : SameMoney first second) (ready : first.Ready credits only)
    (ready' : second.Ready credits' only) {visit visit' : List Position → List Position}
    (perm : (visit first.positions.allPositions).Perm first.positions.allPositions)
    (perm' : (visit' second.positions.allPositions).Perm second.positions.allPositions)
    (timestamp : UnixMicros) (event : Event) :
    StepAlike first (first.consumedState visit timestamp event).1
      second (second.consumedState visit' timestamp event).1 := by
  cases event with
  | orderFilled filled =>
      simp only [consumedState, same.positions]
      split
      · exact filledState_alike same filled _ _ timestamp
      · exact StepAlike.refl same
  | fundingRateUpdate _ rate _ =>
      refine fundedState_alike same (openRows_ready ready.money ready.filed perm)
        (openRows_ready ready'.money ready'.filed perm') ?_ rate timestamp
      refine List.Perm.filter _ ?_
      rw [same.positions] at perm' ⊢
      exact perm'.trans perm.symm
  | markPriceUpdate _ markPrice _ _ =>
      exact ⟨⟨same.positions, rfl, same.funding, same.system⟩, [], [], by simp [consumedState],
        by simp [consumedState], .nil⟩
  | _ => exact StepAlike.refl same

private theorem consumedBatch_alike (same : SameMoney first second)
    (ready : first.Ready credits only) (ready' : second.Ready credits' only) {events : List Event}
    (fromEngine : ∀ event ∈ events, FromEngine only event) (order order' : IterationOrder)
    (timestamp : UnixMicros) :
    StepAlike first (consumedBatch order timestamp first events).1
      second (consumedBatch order' timestamp second events).1 := by
  induction events generalizing first second order order' with
  | nil => exact StepAlike.refl same
  | cons event rest inductionHypothesis =>
      have mine := fromEngine event List.mem_cons_self
      have perm := order.perm 0 first.positions.allPositions
      have perm' := order'.perm 0 second.positions.allPositions
      have here := consumedState_alike same ready ready' perm perm' timestamp event
      exact here.trans (inductionHypothesis here.same
        (consumedState_ready ready mine perm timestamp).1
        (consumedState_ready ready' mine perm' timestamp).1
        (fun other member => fromEngine other (List.mem_cons_of_mem event member))
        order.later order'.later)

private theorem journal_creditedState (processor : PostTradeProcessor) (userId : UserId)
    (amount : Decimal128) (key : String) (timestamp : UnixMicros) :
    ∃ id, (processor.creditedState userId amount key timestamp).ledger.journal =
      processor.ledger.journal ++ [Ledger.depositEntry id userId amount key timestamp] := by
  refine ⟨(processor.ledger.getOrCreateAccount userId).nextJournalId, ?_⟩
  rw [creditedState, Ledger.journal_deposited, Ledger.journal_getOrCreateAccount]

private theorem creditedState_alike (same : SameMoney first second) (userId : UserId)
    (amount : Decimal128) (key : String) (timestamp : UnixMicros) :
    StepAlike first (first.creditedState userId amount key timestamp)
      second (second.creditedState userId amount key timestamp) := by
  obtain ⟨id, journal⟩ := journal_creditedState first userId amount key timestamp
  obtain ⟨id', journal'⟩ := journal_creditedState second userId amount key timestamp
  refine ⟨⟨same.positions, same.markPrice, ?_, ?_⟩, _, _, journal, journal', .entry rfl .nil⟩
  · intro other
    simp [creditedState, Ledger.fundingBalance_deposited, same.funding]
  · simp [creditedState, Ledger.systemBalance_deposited, same.system]

end PostTradeProcessor

/-! ## Runs with restarts -/

open PostTradeProcessor

/-- What a processor is given at a command boundary. -/
inductive ClearingInput where
  | batch (events : List Event) (timestamp : UnixMicros)
  | adminCredit (userId : UserId) (amount : Decimal128) (key : String) (timestamp : UnixMicros)

namespace ClearingInput

/-- The engine's events over one symbol, and the credits the gateway lets through. -/
def Admissible (only : SymbolId) : ClearingInput → Prop
  | .batch events _ => ∀ event ∈ events, FromEngine only event
  | .adminCredit _ amount key _ => 0 < amount ∧ GatewayKey key

/-- The live path of an input.  Returns the facts. -/
def handle (order : IterationOrder) (processor : PostTradeProcessor) :
    ClearingInput → Except ClearingPanic (PostTradeProcessor × List Event)
  | .batch events timestamp => consume order timestamp processor events
  | .adminCredit userId amount key timestamp =>
      processor.handleAdminCredit userId amount key timestamp

/-- The records of an input, its facts last. -/
def records (facts : List Event) : ClearingInput → List Event
  | .batch events _ => events ++ facts
  | .adminCredit .. => facts

def creditKey : ClearingInput → Option String
  | .batch .. => none
  | .adminCredit _ _ key _ => some key

/-- What an input leaves behind when nothing panics. -/
def handled (order : IterationOrder) (processor : PostTradeProcessor) :
    ClearingInput → PostTradeProcessor × List Event
  | .batch events timestamp => consumedBatch order timestamp processor events
  | .adminCredit userId amount key timestamp =>
      (processor.creditedState userId amount key timestamp,
        [.adminCredited userId amount key timestamp])

section Handled

variable {credits credits' : List String} {only : SymbolId} {input : ClearingInput}
variable {processor first second : PostTradeProcessor}

theorem handle_eq (ready : processor.Ready credits only) (admissible : input.Admissible only)
    (unused : ∀ key ∈ input.creditKey, key ∉ credits) (order : IterationOrder) :
    input.handle order processor = .ok (input.handled order processor) := by
  cases input with
  | batch events timestamp => exact (consume_eq ready admissible order timestamp).1
  | adminCredit userId amount key timestamp =>
      exact handleAdminCredit_eq ready.money admissible.1 admissible.2 (unused key rfl) timestamp

theorem handled_ready (ready : processor.Ready credits only) (admissible : input.Admissible only)
    (order : IterationOrder) :
    (input.handled order processor).1.Ready (credits ++ input.creditKey.toList) only := by
  cases input with
  | batch events timestamp =>
      simpa [creditKey, handled] using (consume_eq ready admissible order timestamp).2.1
  | adminCredit userId amount key timestamp =>
      exact ⟨creditedState_ready ready.money admissible.1 admissible.2 timestamp, ready.directed,
        ready.filed⟩

/-- A twin that replays the records of an input stays a twin. -/
theorem twin_handled {twin : PostTradeProcessor} (twins : Twin credits only processor twin)
    (ready : processor.Ready credits only) (admissible : input.Admissible only)
    (unused : ∀ key ∈ input.creditKey, key ∉ credits) (order : IterationOrder) :
    ∃ after, follow applyEvent twin (input.records (input.handled order processor).2) = .ok after ∧
      Twin (credits ++ input.creditKey.toList) only (input.handled order processor).1 after := by
  cases input with
  | batch events timestamp =>
      simpa [creditKey, handled, records] using twins.batch ready admissible order timestamp
  | adminCredit userId amount key timestamp =>
      exact twins.credit admissible.1 admissible.2 (unused key rfl) timestamp

private theorem handled_alike (same : SameMoney first second) (ready : first.Ready credits only)
    (ready' : second.Ready credits' only) (admissible : input.Admissible only)
    (order order' : IterationOrder) :
    StepAlike first (input.handled order first).1 second (input.handled order' second).1 := by
  cases input with
  | batch events timestamp => exact consumedBatch_alike same ready ready' admissible _ _ timestamp
  | adminCredit userId amount key timestamp => exact creditedState_alike same _ _ _ _

end Handled
end ClearingInput

/-- A processor, the log written so far and the movements of each input. -/
structure ClearingRun where
  processor : PostTradeProcessor
  log : List Event
  movements : List (List JournalEntry)

inductive ClearingStep where
  | take (order : IterationOrder) (input : ClearingInput)
  /-- Throw the processor away and rebuild it from the log. -/
  | restart

namespace ClearingStep

def input? : ClearingStep → Option ClearingInput
  | .take _ input => some input
  | .restart => none

end ClearingStep

namespace ClearingRun

def fresh : ClearingRun := ⟨.new, [], []⟩

def step (run : ClearingRun) : ClearingStep → Except ClearingPanic ClearingRun
  | .take order input =>
      match input.handle order run.processor with
      | .error panic => .error panic
      | .ok (next, facts) => .ok {
          processor := next
          log := run.log ++ input.records facts
          movements := run.movements ++
            [next.ledger.journal.drop run.processor.ledger.journal.length] }
  | .restart =>
      match follow applyEvent .new run.log with
      | .error panic => .error panic
      | .ok rebuilt => .ok { run with processor := rebuilt }

/-- A run that may have restarted beside one that did not. -/
structure Coupled (credits : List String) (only : SymbolId) (plain restarted : ClearingRun) :
    Prop where
  plainReady : plain.processor.Ready credits only
  ready : restarted.processor.Ready credits only
  rebuilds : ∃ twin, follow applyEvent .new restarted.log = .ok twin ∧
    Twin credits only restarted.processor twin
  same : SameMoney plain.processor restarted.processor
  movements : List.Forall₂ SameMovements plain.movements restarted.movements

private theorem coupled_fresh (only : SymbolId) : Coupled [] only fresh fresh where
  plainReady := ready_new only
  ready := ready_new only
  rebuilds := ⟨.new, rfl, Twin.refl (ready_new only)⟩
  same := SameMoney.refl _
  movements := .nil

section Coupled

variable {credits : List String} {only : SymbolId} {plain restarted : ClearingRun}

/-- An input steps both runs. -/
theorem Coupled.input (coupled : Coupled credits only plain restarted) {input : ClearingInput}
    (admissible : input.Admissible only) (unused : ∀ key ∈ input.creditKey, key ∉ credits)
    (order order' : IterationOrder) :
    ∃ plainNext restartedNext, plain.step (.take order input) = .ok plainNext ∧
      restarted.step (.take order' input) = .ok restartedNext ∧
      Coupled (credits ++ input.creditKey.toList) only plainNext restartedNext := by
  have alike := ClearingInput.handled_alike coupled.same coupled.plainReady coupled.ready admissible
    order order'
  obtain ⟨added, added', journal, journal', sameMovements⟩ := alike.movements
  obtain ⟨twin, followed, twins⟩ := coupled.rebuilds
  obtain ⟨twinNext, followedNext, twinsNext⟩ :=
    ClearingInput.twin_handled twins coupled.ready admissible unused order'
  refine ⟨_, _, by rw [step, ClearingInput.handle_eq coupled.plainReady admissible unused], by
    rw [step, ClearingInput.handle_eq coupled.ready admissible unused],
    ClearingInput.handled_ready coupled.plainReady admissible order,
    ClearingInput.handled_ready coupled.ready admissible order', ⟨twinNext, ?_, twinsNext⟩,
    alike.same, ?_⟩
  · simp only [follow_append_of_ok followed, followedNext]
  · simp only [journal, journal', List.drop_left]
    exact List.rel_append coupled.movements (.cons sameMovements .nil)

/-- A restart leaves a twin in place of the processor. -/
theorem Coupled.restart (coupled : Coupled credits only plain restarted) :
    ∃ rebuilt, restarted.step .restart = .ok rebuilt ∧ Coupled credits only plain rebuilt := by
  obtain ⟨twin, followed, twins⟩ := coupled.rebuilds
  refine ⟨{ restarted with processor := twin }, by simp only [step, followed], coupled.plainReady,
    twins.ready, ⟨twin, followed, Twin.refl twins.ready⟩, coupled.same.twin twins,
    coupled.movements⟩

end Coupled

/-- The inputs of a run, in order. -/
def inputsOf (steps : List ClearingStep) : List ClearingInput :=
  steps.filterMap ClearingStep.input?

/-- Both runs go on to the end, whatever restarts the second one makes. -/
theorem Coupled.follow {credits : List String} {only : SymbolId} {plain restarted : ClearingRun}
    (coupled : Coupled credits only plain restarted) {straight steps : List ClearingStep}
    (sameInputs : inputsOf straight = inputsOf steps) (neverRestarts : .restart ∉ straight)
    (admissible : ∀ input ∈ inputsOf steps, input.Admissible only)
    (distinct : (credits ++ (inputsOf steps).filterMap ClearingInput.creditKey).Nodup) :
    ∃ plainEnd restartedEnd credits', Support.follow step plain straight = .ok plainEnd ∧
      Support.follow step restarted steps = .ok restartedEnd ∧
      Coupled credits' only plainEnd restartedEnd := by
  induction steps generalizing straight plain restarted credits with
  | nil =>
      have noSteps : straight = [] := by
        cases straight with
        | nil => rfl
        | cons first rest =>
            cases first with
            | take _ _ => simp [inputsOf, ClearingStep.input?] at sameInputs
            | restart => simp at neverRestarts
      subst noSteps
      exact ⟨plain, restarted, credits, rfl, rfl, coupled⟩
  | cons step rest inductionHypothesis =>
      cases step with
      | restart =>
          obtain ⟨rebuilt, restarts, coupledNext⟩ := coupled.restart
          obtain ⟨plainEnd, restartedEnd, credits', followed, followed', coupledEnd⟩ :=
            inductionHypothesis coupledNext sameInputs neverRestarts admissible distinct
          exact ⟨plainEnd, restartedEnd, credits', followed,
            by rw [follow_cons_of_ok restarts, followed'], coupledEnd⟩
      | take order' input =>
          cases straight with
          | nil => simp [inputsOf, ClearingStep.input?] at sameInputs
          | cons first straightRest =>
              cases first with
              | restart => simp at neverRestarts
              | take order other =>
                  have sameInputs' : other = input ∧ inputsOf straightRest = inputsOf rest := by
                    simpa [inputsOf, ClearingStep.input?] using sameInputs
                  obtain ⟨rfl, sameRest⟩ := sameInputs'
                  have keys : (credits ++ other.creditKey.toList ++
                      (inputsOf rest).filterMap ClearingInput.creditKey).Nodup := by
                    have unfolded : (inputsOf (.take order' other :: rest)).filterMap
                        ClearingInput.creditKey = other.creditKey.toList ++
                          (inputsOf rest).filterMap ClearingInput.creditKey := by
                      cases keyed : other.creditKey <;>
                        simp [inputsOf, ClearingStep.input?, keyed]
                    rw [List.append_assoc, ← unfolded]
                    exact distinct
                  have unused : ∀ key ∈ other.creditKey, key ∉ credits := by
                    intro key keyed used
                    have clash := (List.nodup_append.1 (List.nodup_append.1 keys).1).2.2 key used
                    simp [Option.mem_def.1 keyed] at clash
                  have mine : other.Admissible only := admissible other (by
                    simp [inputsOf, ClearingStep.input?])
                  have others : ∀ input ∈ inputsOf rest, input.Admissible only := by
                    intro input member
                    exact admissible input (by
                      simpa [inputsOf, ClearingStep.input?] using Or.inr member)
                  obtain ⟨plainNext, restartedNext, stepped, stepped', coupledNext⟩ :=
                    coupled.input mine unused order order'
                  obtain ⟨plainEnd, restartedEnd, credits', followed, followed', coupledEnd⟩ :=
                    inductionHypothesis coupledNext sameRest
                      (fun member => neverRestarts (List.mem_cons_of_mem _ member)) others keys
                  exact ⟨plainEnd, restartedEnd, credits',
                    by rw [follow_cons_of_ok stepped, followed],
                    by rw [follow_cons_of_ok stepped', followed'], coupledEnd⟩

/-- A run with restarts at any command boundaries ends with the money and the movements of
the run without them. -/
theorem restart_transparent {only : SymbolId} {straight steps : List ClearingStep}
    (sameInputs : inputsOf straight = inputsOf steps) (neverRestarts : .restart ∉ straight)
    (admissible : ∀ input ∈ inputsOf steps, input.Admissible only)
    (distinct : ((inputsOf steps).filterMap ClearingInput.creditKey).Nodup) :
    ∃ plain restarted, Support.follow step fresh straight = .ok plain ∧
      Support.follow step fresh steps = .ok restarted ∧
      restarted.processor.positions = plain.processor.positions ∧
      (∀ userId, restarted.processor.ledger.fundingBalance userId =
        plain.processor.ledger.fundingBalance userId) ∧
      restarted.processor.ledger.systemBalance .funding =
        plain.processor.ledger.systemBalance .funding ∧
      List.Forall₂ SameMovements plain.movements restarted.movements := by
  obtain ⟨plain, restarted, _, followed, followed', coupled⟩ :=
    (coupled_fresh only).follow sameInputs neverRestarts admissible (by simpa using distinct)
  exact ⟨plain, restarted, followed, followed', coupled.same.positions, coupled.same.funding,
    coupled.same.system, coupled.movements⟩

def tradedFill (userId : UserId) (side : Side) (price : Int) : Event :=
  .orderFilled ⟨userId, 1, userId, 1, side, .ofInt price, .one, false, 0, 3⟩

/-- Two users trade, pay funding twice and close at a profit. -/
def tradedInputs : List ClearingInput :=
  [.adminCredit 1 (.ofInt 100) (adminCreditKey 1 1 0) 1,
    .adminCredit 2 (.ofInt 100) (adminCreditKey 2 1 1) 1,
    .batch [tradedFill 1 .buy 10, tradedFill 2 .sell 10,
      .markPriceUpdate 1 (.ofInt 11) (.ofInt 11) 3] 3,
    .batch [.fundingRateUpdate 1 (.ofInt 1) 4] 4,
    .batch [.fundingRateUpdate 1 (.ofInt 1) 5] 5,
    .batch [tradedFill 1 .sell 12, tradedFill 2 .buy 12] 6]

theorem restart_transparent_everyInput :
    let straight := tradedInputs.map fun input => ClearingStep.take .stored input
    let steps := tradedInputs.flatMap fun input =>
      [ClearingStep.take ⟨fun _ => List.reverse, fun _ => List.reverse_perm⟩ input, .restart]
    ∃ plain restarted, Support.follow step fresh straight = .ok plain ∧
      Support.follow step fresh steps = .ok restarted ∧
      restarted.processor.positions = plain.processor.positions ∧
      (∀ userId, restarted.processor.ledger.fundingBalance userId =
        plain.processor.ledger.fundingBalance userId) ∧
      restarted.processor.ledger.systemBalance .funding =
        plain.processor.ledger.systemBalance .funding ∧
      List.Forall₂ SameMovements plain.movements restarted.movements := by
  refine @restart_transparent 1 _ _ rfl ?_ ?_ ?_
  · simp [tradedInputs]
  · have admissible : ∀ input ∈ tradedInputs, input.Admissible 1 := by
      have positive : (0 : Decimal128) < .ofInt 100 := by decide
      simp [tradedInputs, tradedFill, ClearingInput.Admissible, FromEngine, GatewayKey, positive]
    exact admissible
  · decide

end ClearingRun
end Exg
