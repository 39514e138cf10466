import Exg.Clearing.Settlement
import Exg.Support.Machine

/-!
# Rebuilding a processor from its log

A replay takes the positions and the mark price from the engine's events and the money
from the facts, so it walks the two halves of a command's records one after the other.
`Mirrors` says that a replayed processor has the live one's money; every live step and
the replay of its facts keep it.
-/

namespace Exg

open Support

namespace Ledger

/-- A replayed ledger with the balances and the journal of the live one. -/
structure Mirrors (live replayed : Ledger) : Prop where
  funding : ∀ userId, replayed.fundingBalance userId = live.fundingBalance userId
  system : replayed.systemBalance .funding = live.systemBalance .funding
  journal : replayed.journal = live.journal
  nextJournalId : replayed.nextJournalId = live.nextJournalId
  keys : replayed.idempotencyKeys ⊆ live.idempotencyKeys

variable {live replayed : Ledger}

theorem Mirrors.refl (ledger : Ledger) : Mirrors ledger ledger :=
  ⟨fun _ => rfl, rfl, rfl, rfl, List.Subset.refl _⟩

private theorem Mirrors.openBoth (mirrors : Mirrors live replayed) (userId : UserId) :
    Mirrors (live.getOrCreateAccount userId) (replayed.getOrCreateAccount userId) where
  funding := by simp [mirrors.funding]
  system := by simp [mirrors.system]
  journal := by simp [mirrors.journal]
  nextJournalId := by simp [mirrors.nextJournalId]
  keys := by simpa using mirrors.keys

private theorem Mirrors.openLive (mirrors : Mirrors live replayed) (userId : UserId) :
    Mirrors (live.getOrCreateAccount userId) replayed where
  funding := by simp [mirrors.funding]
  system := by simp [mirrors.system]
  journal := by simp [mirrors.journal]
  nextJournalId := by simp [mirrors.nextJournalId]
  keys := by simpa using mirrors.keys

/-- The same movement on both sides. -/
theorem Mirrors.settled (mirrors : Mirrors live replayed) (userId : UserId) (moved : Decimal128)
    (key : String) (timestamp : UnixMicros) :
    Mirrors (live.settled userId moved key timestamp)
      (replayed.settled userId moved key timestamp) where
  funding := by simp [fundingBalance_settled, mirrors.funding]
  system := by simp [systemBalance_settled, mirrors.system]
  journal := by simp [journal_settled, mirrors.journal, mirrors.nextJournalId]
  nextJournalId := by simp [nextJournalId_settled, mirrors.nextJournalId]
  keys := by simpa using List.cons_subset_cons key mirrors.keys

/-- A live settlement that moves nothing leaves no fact, and needs none. -/
theorem Mirrors.settledNothing (mirrors : Mirrors live replayed) (userId : UserId) (key : String)
    (timestamp : UnixMicros) : Mirrors (live.settled userId 0 key timestamp) replayed where
  funding := by
    intro other
    rw [fundingBalance_settled, mirrors.funding]
    split
    · rename_i own
      rw [own, add_zero]
    · rfl
  system := by simp [systemBalance_settled, mirrors.system]
  journal := by simp [journal_settled, mirrors.journal]
  nextJournalId := by simp [nextJournalId_settled, mirrors.nextJournalId]
  keys := by simpa using List.subset_cons_of_subset key mirrors.keys

theorem Mirrors.deposited (mirrors : Mirrors live replayed) (userId : UserId) (amount : Decimal128)
    (key : String) (timestamp : UnixMicros) :
    Mirrors (live.deposited userId amount key timestamp)
      (replayed.deposited userId amount key timestamp) where
  funding := by simp [fundingBalance_deposited, mirrors.funding]
  system := mirrors.system
  journal := by
    simp [Ledger.deposited, appendJournal, setFunding, mirrors.journal, mirrors.nextJournalId]
  nextJournalId := by simp [Ledger.deposited, appendJournal, setFunding, mirrors.nextJournalId]
  keys := by
    simpa [Ledger.deposited, appendJournal, setFunding] using List.cons_subset_cons key mirrors.keys

end Ledger

namespace PostTradeProcessor

/-- A replayed processor with the money side of the live one. -/
structure Mirrors (live replayed : PostTradeProcessor) : Prop where
  ledger : live.ledger.Mirrors replayed.ledger
  pnlSeq : replayed.pnlSeq = live.pnlSeq
  period : replayed.fundingPeriodId ≤ live.fundingPeriodId

theorem Mirrors.refl (processor : PostTradeProcessor) : Mirrors processor processor :=
  ⟨Ledger.Mirrors.refl _, rfl, le_rfl⟩

/-- Replaying the facts of a live step brings a mirror of the state before it to a mirror
of the state after it, whatever positions it holds. -/
def Reproduces (credits : List String) (live : PostTradeProcessor) (facts : List Event)
    (next : PostTradeProcessor) : Prop :=
  ∀ replayed : PostTradeProcessor, Mirrors live replayed → replayed.MoneyReady credits →
    ∃ after, follow applyEvent replayed facts = .ok after ∧ Mirrors next after ∧
      after.MoneyReady credits ∧ after.positions = replayed.positions ∧
      after.markPrice = replayed.markPrice

variable {credits : List String} {live middle next : PostTradeProcessor} {facts more : List Event}

/-- A step without facts that leaves the mirror as it is. -/
theorem Reproduces.nothing (kept : ∀ replayed, Mirrors live replayed → Mirrors next replayed) :
    Reproduces credits live [] next :=
  fun replayed mirrors ready => ⟨replayed, rfl, kept replayed mirrors, ready, rfl, rfl⟩

theorem Reproduces.append (first : Reproduces credits live facts middle)
    (second : Reproduces credits middle more next) :
    Reproduces credits live (facts ++ more) next := by
  intro replayed mirrors ready
  obtain ⟨between, followed, mirrorsBetween, readyBetween, positions, mark⟩ :=
    first replayed mirrors ready
  obtain ⟨after, followedMore, mirrorsAfter, readyAfter, positionsAfter, markAfter⟩ :=
    second between mirrorsBetween readyBetween
  refine ⟨after, ?_, mirrorsAfter, readyAfter, positionsAfter.trans positions, markAfter.trans mark⟩
  rw [follow_append_of_ok followed, followedMore]

/-- Settling in a replay the amount that was moved live. -/
theorem replaySettlement {replayed : Ledger} (sound : replayed.Sound) {userId : UserId}
    {moved : Decimal128} {key : String} (nonzero : moved ≠ 0)
    (covered : -replayed.fundingBalance userId ≤ moved) (fresh : key ∉ replayed.idempotencyKeys)
    (timestamp : UnixMicros) :
    ((replayed.getOrCreateAccount userId).settleRealizedPnlCapped userId moved key timestamp).1 =
      (replayed.getOrCreateAccount userId).settled userId moved key timestamp := by
  rw [Ledger.settle_opened sound nonzero fresh timestamp, Ledger.coveredMove, max_eq_left covered]

theorem reproduces_filledState (ready : live.MoneyReady credits) (filled : OrderFilled)
    (pnl : Decimal128) (positions : PositionManager) (timestamp : UnixMicros) :
    Reproduces credits live (live.filledState filled pnl positions timestamp).2
        (live.filledState filled pnl positions timestamp).1 ∧
      (live.filledState filled pnl positions timestamp).1.MoneyReady credits := by
  rw [filledState]
  by_cases still : live.ledger.coveredMove filled.userId pnl = 0
  · simp only [if_pos still]
    exact ⟨Reproduces.nothing fun _ mirrors => ⟨mirrors.ledger, mirrors.pnlSeq, mirrors.period⟩,
      ready.sound, ready.keys⟩
  · simp only [if_neg still]
    have keysReady : ∀ {processor : PostTradeProcessor}, processor.MoneyReady credits →
        ∀ key ∈ pnlKey (processor.pnlSeq + 1) filled.userId filled.symbol ::
          processor.ledger.idempotencyKeys,
          KeyUsed (processor.pnlSeq + 1) processor.fundingPeriodId credits key := by
      intro processor processorReady key member
      rcases List.mem_cons.1 member with rfl | earlier
      · exact Or.inl ⟨_, _, _, le_rfl, rfl⟩
      · exact (processorReady.keys key earlier).mono (Nat.le_succ _) le_rfl (List.Subset.refl _)
    refine ⟨?_, (ready.sound.getOrCreateAccount _).settled
      (by simpa using Ledger.coveredMove_covered filled.userId pnl) _ _,
      by simpa using keysReady ready⟩
    intro replayed mirrors replayedReady
    have covered : -replayed.ledger.fundingBalance filled.userId ≤
        live.ledger.coveredMove filled.userId pnl := by
      rw [mirrors.ledger.funding]
      exact Ledger.coveredMove_covered _ _
    refine ⟨_, rfl, ⟨?_, ?_, mirrors.period⟩, ⟨?_, ?_⟩, rfl, rfl⟩
    · simp only
      rw [replaySettlement replayedReady.sound still covered (replayedReady.pnl_fresh _ _),
        mirrors.pnlSeq]
      exact (mirrors.ledger.openBoth _).settled _ _ _ _
    · simp [mirrors.pnlSeq]
    · simp only
      rw [replaySettlement replayedReady.sound still covered (replayedReady.pnl_fresh _ _)]
      exact (replayedReady.sound.getOrCreateAccount _).settled (by simpa using covered) _ _
    · simp only
      rw [replaySettlement replayedReady.sound still covered (replayedReady.pnl_fresh _ _)]
      simpa using keysReady replayedReady

/-! ## Funding ticks -/

section Tick

variable (mark rate : Decimal128) (timestamp : UnixMicros)

private theorem reproduces_settledPosition (ready : live.MoneyReady credits) {position : Position}
    (fresh : fundingKey live.fundingPeriodId position.userId position.symbol ∉
      live.ledger.idempotencyKeys) :
    let settled := settledPosition live.fundingPeriodId mark rate timestamp live.ledger position
    Reproduces credits live settled.2 { live with ledger := settled.1 } ∧
      ({ live with ledger := settled.1 } : PostTradeProcessor).MoneyReady credits := by
  intro settled
  have readyAfter : ({ live with ledger := settled.1 } : PostTradeProcessor).MoneyReady
    credits := by
    refine ⟨settledPosition_sound ready.sound position, fun key member => ?_⟩
    rcases settledPosition_keys member with rfl | earlier
    · exact Or.inr (Or.inl ⟨_, _, _, le_rfl, rfl⟩)
    · exact ready.keys key earlier
  refine ⟨?_, readyAfter⟩
  by_cases free : fundingPayment mark rate position = 0
  · have unchanged : settled = (live.ledger, []) := by simp [settled, settledPosition, free]
    rw [unchanged]
    exact Reproduces.nothing fun _ mirrors => mirrors
  · have opened : settled = ((live.ledger.getOrCreateAccount position.userId).settled
        position.userId
        (live.ledger.coveredMove position.userId (-fundingPayment mark rate position))
        (fundingKey live.fundingPeriodId position.userId position.symbol) timestamp,
        if live.ledger.coveredMove position.userId (-fundingPayment mark rate position) = 0 then []
        else [.fundingSettled position.userId position.symbol live.fundingPeriodId
          (-live.ledger.coveredMove position.userId (-fundingPayment mark rate position))
          timestamp]) := by
      simp [settled, settledPosition, free]
    rw [opened]
    by_cases still :
        live.ledger.coveredMove position.userId (-fundingPayment mark rate position) = 0
    · simp only [still]
      exact Reproduces.nothing fun _ mirrors =>
        ⟨(mirrors.ledger.openLive _).settledNothing _ _ timestamp, mirrors.pnlSeq,
          mirrors.period⟩
    · simp only [if_neg still]
      intro replayed mirrors replayedReady
      have covered : -replayed.ledger.fundingBalance position.userId ≤
          live.ledger.coveredMove position.userId (-fundingPayment mark rate position) := by
        rw [mirrors.ledger.funding]
        exact Ledger.coveredMove_covered _ _
      have unused : fundingKey live.fundingPeriodId position.userId position.symbol ∉
          replayed.ledger.idempotencyKeys := fun member => fresh (mirrors.ledger.keys member)
      have caught : (if replayed.fundingPeriodId < live.fundingPeriodId then live.fundingPeriodId
          else replayed.fundingPeriodId) = live.fundingPeriodId := by
        have behind := mirrors.period
        split <;> omega
      refine ⟨_, rfl, ⟨?_, mirrors.pnlSeq, caught.le⟩, ⟨?_, ?_⟩, rfl, rfl⟩
      · simp only [neg_neg]
        rw [replaySettlement replayedReady.sound still covered unused]
        exact (mirrors.ledger.openBoth _).settled _ _ _ _
      · simp only [neg_neg]
        rw [replaySettlement replayedReady.sound still covered unused]
        exact (replayedReady.sound.getOrCreateAccount _).settled (by simpa using covered) _ _
      · intro key member
        simp only [neg_neg] at member
        rw [replaySettlement replayedReady.sound still covered unused] at member
        simp only [caught]
        have keys : key = fundingKey live.fundingPeriodId position.userId position.symbol ∨
            key ∈ replayed.ledger.idempotencyKeys := by simpa using member
        rcases keys with rfl | earlier
        · exact Or.inr (Or.inl ⟨_, _, _, le_rfl, rfl⟩)
        · exact (replayedReady.keys key earlier).mono le_rfl mirrors.period (List.Subset.refl _)

private theorem reproduces_settledPositions (ready : live.MoneyReady credits)
    {positions : List Position} (tick : TickReady live.fundingPeriodId live.ledger positions) :
    let settled := settledPositions live.fundingPeriodId mark rate timestamp live.ledger positions
    Reproduces credits live settled.2 { live with ledger := settled.1 } ∧
      ({ live with ledger := settled.1 } : PostTradeProcessor).MoneyReady credits := by
  induction positions generalizing live with
  | nil => exact ⟨Reproduces.nothing fun _ mirrors => mirrors, ready⟩
  | cons position rest inductionHypothesis =>
      obtain ⟨first, firstReady⟩ := reproduces_settledPosition mark rate timestamp ready
        (tick.fresh position List.mem_cons_self)
      obtain ⟨later, laterReady⟩ := inductionHypothesis firstReady (tick.next mark rate timestamp)
      exact ⟨first.append later, laterReady⟩

private theorem reproduces_fundedState (ready : live.MoneyReady credits) {rows : List Position}
    (tick : TickReady (live.fundingPeriodId + 1) live.ledger rows) :
    Reproduces credits live (live.fundedState rows rate timestamp).2
        (live.fundedState rows rate timestamp).1 ∧
      (live.fundedState rows rate timestamp).1.MoneyReady credits := by
  rw [fundedState]
  split
  · exact ⟨Reproduces.nothing fun _ mirrors => mirrors, ready⟩
  · let bumped : PostTradeProcessor := { live with fundingPeriodId := live.fundingPeriodId + 1 }
    have readyBumped : bumped.MoneyReady credits :=
      ⟨ready.sound, fun key member =>
        (ready.keys key member).mono le_rfl (Nat.le_succ _) (List.Subset.refl _)⟩
    have counted : Reproduces credits live [] bumped := Reproduces.nothing fun _ mirrors =>
      ⟨mirrors.ledger, mirrors.pnlSeq, mirrors.period.trans (Nat.le_succ _)⟩
    obtain ⟨settled, settledReady⟩ := reproduces_settledPositions live.markPrice rate timestamp
      readyBumped tick
    exact ⟨counted.append settled, settledReady⟩

end Tick

/-! ## Batches -/

/-- The positions and the mark price after an engine event. -/
def projected (view : PositionManager × Decimal128) : Event → PositionManager × Decimal128
  | .orderFilled filled =>
      match view.1.applyFill filled.userId filled.symbol filled.side filled.fillQty
          filled.fillPrice with
      | .ok (_, positions) => (positions, view.2)
      | .error _ => view
  | .markPriceUpdate _ markPrice _ _ => (view.1, markPrice)
  | _ => view

/-- What consuming one event leaves behind. -/
def consumedState (processor : PostTradeProcessor) (visit : List Position → List Position)
    (timestamp : UnixMicros) : Event → PostTradeProcessor × List Event
  | .orderFilled filled =>
      match processor.positions.applyFill filled.userId filled.symbol filled.side filled.fillQty
          filled.fillPrice with
      | .ok (pnl, positions) => processor.filledState filled pnl positions timestamp
      | .error _ => (processor, [])
  | .markPriceUpdate _ markPrice _ _ => ({ processor with markPrice := markPrice }, [])
  | .fundingRateUpdate _ fundingRate _ =>
      processor.fundedState (processor.openRows visit) fundingRate timestamp
  | _ => (processor, [])

/-- What consuming a batch leaves behind. -/
def consumedBatch (order : IterationOrder) (timestamp : UnixMicros) :
    PostTradeProcessor → List Event → PostTradeProcessor × List Event
  | processor, [] => (processor, [])
  | processor, event :: rest =>
      let first := processor.consumedState (order.visit 0) timestamp event
      let later := consumedBatch order.later timestamp first.1 rest
      (later.1, first.2 ++ later.2)

/-- The engine's events, with fills of one symbol. -/
def FromEngine (only : SymbolId) : Event → Prop
  | .orderFilled filled => filled.symbol = only
  | .adminCredited .. | .realizedPnl .. | .fundingSettled .. => False
  | _ => True

/-- A processor between two commands, with positions of one symbol. -/
structure Ready (processor : PostTradeProcessor) (credits : List String) (only : SymbolId) :
    Prop where
  money : processor.MoneyReady credits
  directed : processor.positions.Directed
  filed : processor.positions.Filed only

theorem ready_new (only : SymbolId) : new.Ready [] only :=
  ⟨moneyReady_new, PositionManager.directed_new, PositionManager.filed_new only⟩

section Batch

variable {only : SymbolId} {visit : List Position → List Position} {event : Event}

private theorem consumeEvent_eq (ready : live.Ready credits only)
    (perm : (visit live.positions.allPositions).Perm live.positions.allPositions)
    (timestamp : UnixMicros) :
    live.consumeEvent visit timestamp event = .ok (live.consumedState visit timestamp event) := by
  cases event with
  | orderFilled filled =>
      obtain ⟨pnl, positions, applied, -⟩ := PositionManager.applyFill_spec ready.directed
        filled.userId filled.symbol filled.side filled.fillQty filled.fillPrice
      simp only [consumeEvent, consumedState, applied]
      exact consumeFill_eq ready.money applied timestamp
  | fundingRateUpdate _ rate _ => exact settleFunding_eq ready.money ready.filed perm rate timestamp
  | _ => rfl

/-- Consuming an event keeps the processor ready, and its facts reproduce the step. -/
theorem consumedState_ready (ready : live.Ready credits only) (fromEngine : FromEngine only event)
    (perm : (visit live.positions.allPositions).Perm live.positions.allPositions)
    (timestamp : UnixMicros) :
    (live.consumedState visit timestamp event).1.Ready credits only ∧
      Reproduces credits live (live.consumedState visit timestamp event).2
        (live.consumedState visit timestamp event).1 := by
  cases event with
  | orderFilled filled =>
      obtain ⟨pnl, positions, applied, directed, -⟩ := PositionManager.applyFill_spec ready.directed
        filled.userId filled.symbol filled.side filled.fillQty filled.fillPrice
      obtain ⟨reproduces, money⟩ :=
        reproduces_filledState ready.money filled pnl positions timestamp
      have filed : positions.Filed only := by
        have sameSymbol : filled.symbol = only := fromEngine
        rw [sameSymbol] at applied
        exact ready.filed.applyFill applied
      have moved : (live.filledState filled pnl positions timestamp).1.positions = positions := by
        rw [filledState]
        split <;> rfl
      simp only [consumedState, applied]
      exact ⟨⟨money, by rwa [moved], by rwa [moved]⟩, reproduces⟩
  | fundingRateUpdate _ rate _ =>
      obtain ⟨reproduces, money⟩ := reproduces_fundedState rate timestamp ready.money
        (openRows_ready ready.money ready.filed perm)
      have kept : (live.fundedState (live.openRows visit) rate timestamp).1.positions =
          live.positions := by
        rw [fundedState]
        split <;> rfl
      exact ⟨⟨money, by simpa only [consumedState, kept] using ready.directed,
        by simpa only [consumedState, kept] using ready.filed⟩, reproduces⟩
  | markPriceUpdate _ markPrice _ _ =>
      exact ⟨⟨⟨ready.money.sound, ready.money.keys⟩, ready.directed, ready.filed⟩,
        Reproduces.nothing fun _ mirrors => ⟨mirrors.ledger, mirrors.pnlSeq, mirrors.period⟩⟩
  | _ => exact ⟨ready, Reproduces.nothing fun _ mirrors => mirrors⟩

private theorem consumedState_projected (processor : PostTradeProcessor)
    (visit : List Position → List Position) (timestamp : UnixMicros) (event : Event) :
    ((processor.consumedState visit timestamp event).1.positions,
        (processor.consumedState visit timestamp event).1.markPrice) =
      projected (processor.positions, processor.markPrice) event := by
  cases event with
  | orderFilled filled =>
      simp only [consumedState, projected]
      split
      · rw [filledState]
        split <;> rfl
      · rfl
  | fundingRateUpdate _ rate _ =>
      simp only [consumedState, projected, fundedState]
      split <;> rfl
  | _ => rfl

theorem consume_eq (ready : live.Ready credits only) {events : List Event}
    (fromEngine : ∀ event ∈ events, FromEngine only event) (order : IterationOrder)
    (timestamp : UnixMicros) :
    consume order timestamp live events = .ok (consumedBatch order timestamp live events) ∧
      (consumedBatch order timestamp live events).1.Ready credits only ∧
      Reproduces credits live (consumedBatch order timestamp live events).2
        (consumedBatch order timestamp live events).1 := by
  induction events generalizing live order with
  | nil => exact ⟨rfl, ready, Reproduces.nothing fun _ mirrors => mirrors⟩
  | cons event rest inductionHypothesis =>
      have perm := order.perm 0 live.positions.allPositions
      have here : live.consumeEvent (order.visit 0) timestamp event =
          .ok (live.consumedState (order.visit 0) timestamp event) :=
        consumeEvent_eq ready perm timestamp
      obtain ⟨next, reproduces⟩ := consumedState_ready ready (fromEngine event List.mem_cons_self)
        perm timestamp
      obtain ⟨later, final, reproducesLater⟩ := inductionHypothesis next
        (fun other member => fromEngine other (List.mem_cons_of_mem event member)) order.later
      exact ⟨by simp only [consume, here, later, consumedBatch], final,
        reproduces.append reproducesLater⟩

theorem consumedBatch_projected (order : IterationOrder) (timestamp : UnixMicros)
    (processor : PostTradeProcessor) (events : List Event) :
    ((consumedBatch order timestamp processor events).1.positions,
        (consumedBatch order timestamp processor events).1.markPrice) =
      events.foldl projected (processor.positions, processor.markPrice) := by
  induction events generalizing processor order with
  | nil => rfl
  | cons event rest inductionHypothesis =>
      rw [List.foldl_cons, ← consumedState_projected processor (order.visit 0) timestamp event]
      exact inductionHypothesis order.later _

/-- Replaying the engine's events projects the positions and the mark price. -/
theorem follow_projected {replayed : PostTradeProcessor} (directed : replayed.positions.Directed)
    {events : List Event} (noFact : ∀ event ∈ events, event.isFact = false) :
    follow applyEvent replayed events =
      .ok { replayed with
        positions := (events.foldl projected (replayed.positions, replayed.markPrice)).1
        markPrice := (events.foldl projected (replayed.positions, replayed.markPrice)).2 } := by
  induction events generalizing replayed with
  | nil => rfl
  | cons event rest inductionHypothesis =>
      have others : ∀ other ∈ rest, other.isFact = false :=
        fun other member => noFact other (List.mem_cons_of_mem event member)
      have mine := noFact event List.mem_cons_self
      cases event with
      | orderFilled filled =>
          obtain ⟨pnl, positions, applied, directedNext, -⟩ :=
            PositionManager.applyFill_spec directed
            filled.userId filled.symbol filled.side filled.fillQty filled.fillPrice
          let positioned : PostTradeProcessor := { replayed with positions := positions }
          have applies : applyEvent replayed (.orderFilled filled) = .ok positioned := by
            simp only [applyEvent, applyFillToPosition, applied, positioned]
          have projects : projected (replayed.positions, replayed.markPrice) (.orderFilled filled) =
              (positions, replayed.markPrice) := by
            simp only [projected, applied]
          have directedHere : positioned.positions.Directed := directedNext
          rw [follow_cons_of_ok applies, inductionHypothesis directedHere others, List.foldl_cons,
            projects]
      | adminCredited _ _ _ _ => simp [Event.isFact] at mine
      | realizedPnl _ _ _ _ => simp [Event.isFact] at mine
      | fundingSettled _ _ _ _ _ => simp [Event.isFact] at mine
      | markPriceUpdate _ markPrice _ _ =>
          let marked : PostTradeProcessor := { replayed with markPrice := markPrice }
          have directedHere : marked.positions.Directed := directed
          exact inductionHypothesis directedHere others
      | _ => exact inductionHypothesis directed others

theorem FromEngine.not_fact (fromEngine : FromEngine only event) : event.isFact = false := by
  cases event <;> simp_all [FromEngine, Event.isFact]

private theorem follow_engineEvents {replayed : PostTradeProcessor}
    (directed : replayed.positions.Directed)
    {events : List Event} (fromEngine : ∀ event ∈ events, FromEngine only event) :
    follow applyEvent replayed events =
      .ok { replayed with
        positions := (events.foldl projected (replayed.positions, replayed.markPrice)).1
        markPrice := (events.foldl projected (replayed.positions, replayed.markPrice)).2 } :=
  follow_projected directed fun event member => (fromEngine event member).not_fact

/-- A replayed processor that can take the live one's place. -/
structure Twin (credits : List String) (only : SymbolId) (live replayed : PostTradeProcessor) :
    Prop where
  mirrors : Mirrors live replayed
  ready : replayed.Ready credits only
  positions : replayed.positions = live.positions
  markPrice : replayed.markPrice = live.markPrice

theorem Twin.refl (ready : live.Ready credits only) : Twin credits only live live :=
  ⟨Mirrors.refl live, ready, rfl, rfl⟩

/-- Replaying the records of a batch keeps the twin a twin. -/
theorem Twin.batch {replayed : PostTradeProcessor} (twin : Twin credits only live replayed)
    (ready : live.Ready credits only) {events : List Event}
    (fromEngine : ∀ event ∈ events, FromEngine only event) (order : IterationOrder)
    (timestamp : UnixMicros) :
    ∃ after, follow applyEvent replayed
        (events ++ (consumedBatch order timestamp live events).2) = .ok after ∧
      Twin credits only (consumedBatch order timestamp live events).1 after := by
  obtain ⟨-, readyNext, reproduces⟩ := consume_eq ready fromEngine order timestamp
  have view := consumedBatch_projected order timestamp live events
  let view' := events.foldl projected (replayed.positions, replayed.markPrice)
  let positioned : PostTradeProcessor :=
    { replayed with positions := view'.1, markPrice := view'.2 }
  have followed : follow applyEvent replayed events = .ok positioned :=
    follow_engineEvents twin.ready.directed fromEngine
  have sameView : view' = ((consumedBatch order timestamp live events).1.positions,
      (consumedBatch order timestamp live events).1.markPrice) := by
    rw [view, ← twin.positions, ← twin.markPrice]
  have mirrors : Mirrors live positioned :=
    ⟨twin.mirrors.ledger, twin.mirrors.pnlSeq, twin.mirrors.period⟩
  obtain ⟨after, followedFacts, mirrorsAfter, money, positions, markPrice⟩ := reproduces positioned
    mirrors ⟨twin.ready.money.sound, twin.ready.money.keys⟩
  have samePositions : after.positions = (consumedBatch order timestamp live events).1.positions :=
    positions.trans (congrArg Prod.fst sameView)
  refine ⟨after, by rw [follow_append_of_ok followed, followedFacts], mirrorsAfter,
    ⟨money, ?_, ?_⟩, samePositions, markPrice.trans (congrArg Prod.snd sameView)⟩
  · rw [samePositions]
    exact readyNext.directed
  · rw [samePositions]
    exact readyNext.filed

end Batch

/-! ## Admin credits -/

section Credit

variable {only : SymbolId} {userId : UserId} {amount : Decimal128} {key : String}

/-- What an admin credit leaves behind. -/
def creditedState (processor : PostTradeProcessor) (userId : UserId) (amount : Decimal128)
    (key : String) (timestamp : UnixMicros) : PostTradeProcessor :=
  { processor with
    ledger := (processor.ledger.getOrCreateAccount userId).deposited userId amount key timestamp }

theorem handleAdminCredit_eq (ready : live.MoneyReady credits) (positive : 0 < amount)
    (gateway : GatewayKey key) (unused : key ∉ credits) (timestamp : UnixMicros) :
    live.handleAdminCredit userId amount key timestamp =
      .ok (live.creditedState userId amount key timestamp,
        [.adminCredited userId amount key timestamp]) := by
  have fresh : key ∉ (live.ledger.getOrCreateAccount userId).idempotencyKeys := by
    simpa using ready.credit_fresh gateway unused
  simp only [handleAdminCredit, Ledger.deposit_eq _ positive fresh, creditedState]

theorem creditedState_ready (ready : live.MoneyReady credits) (positive : 0 < amount)
    (gateway : GatewayKey key) (timestamp : UnixMicros) :
    (live.creditedState userId amount key timestamp).MoneyReady (credits ++ [key]) := by
  refine ⟨(ready.sound.getOrCreateAccount userId).deposited positive userId key timestamp, ?_⟩
  intro other member
  have keys : other = key ∨ other ∈ live.ledger.idempotencyKeys := by
    simpa [creditedState, Ledger.deposited, Ledger.appendJournal, Ledger.setFunding] using member
  rcases keys with rfl | earlier
  · exact Or.inr (Or.inr ⟨by simp, gateway⟩)
  · exact (ready.keys other earlier).mono le_rfl le_rfl (List.subset_append_left _ _)

theorem Twin.credit {replayed : PostTradeProcessor} (twin : Twin credits only live replayed)
    (positive : 0 < amount) (gateway : GatewayKey key) (unused : key ∉ credits)
    (timestamp : UnixMicros) :
    ∃ after, follow applyEvent replayed [.adminCredited userId amount key timestamp] = .ok after ∧
      Twin (credits ++ [key]) only (live.creditedState userId amount key timestamp) after := by
  have fresh : key ∉ (replayed.ledger.getOrCreateAccount userId).idempotencyKeys := by
    simpa using twin.ready.money.credit_fresh gateway unused
  have applied : applyEvent replayed (.adminCredited userId amount key timestamp) =
      .ok (replayed.creditedState userId amount key timestamp) := by
    simp only [applyEvent, Ledger.deposit_eq _ positive fresh, creditedState]
  refine ⟨replayed.creditedState userId amount key timestamp, by
    rw [follow_cons_of_ok applied, follow_nil], ⟨?_, twin.mirrors.pnlSeq, twin.mirrors.period⟩,
    ⟨creditedState_ready twin.ready.money positive gateway timestamp, twin.ready.directed,
      twin.ready.filed⟩, twin.positions, twin.markPrice⟩
  exact (twin.mirrors.ledger.openBoth userId).deposited userId amount key timestamp

end Credit

end PostTradeProcessor
end Exg
