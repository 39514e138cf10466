import Exg.Clearing.Restart
import Exg.Matching.ReplaySucceeds
import Exg.Server.EngineEvents
import Exg.Wal.Durability

/-!
# The command loop

`process_one` drives the engine and the post-trade processor with the commands of the ring
buffer and appends one record for each event.  Numbers are exact here: the loop whose operators
may panic stands in a module of its own.
-/

namespace Exg

open Support PostTradeProcessor

/-- What the matching thread owns. -/
structure CommandLoop where
  engine : MatchingEngine
  postTrade : PostTradeProcessor

/-- A command from the ring buffer, the time at which it is popped, and the order in which
its funding tick visits the positions. -/
structure Popped where
  command : Command
  now : UnixMicros
  order : IterationOrder

/-- The thread and the records it has appended. -/
structure Served where
  loop : CommandLoop
  log : List Event

namespace CommandLoop

/-- Engine and processor before the replay at boot. -/
def boot (config : SymbolConfig) (ids : Nat → TradeId) (interestRate markPrice : Decimal128) :
    CommandLoop where
  engine := { MatchingEngine.new config ids interestRate with markPrice := markPrice }
  postTrade := .new

/-- Process one popped command.  Returns its records, engine events first. -/
def processOne (loop : CommandLoop) (popped : Popped) :
    Except ClearingPanic (CommandLoop × List Event) :=
  match popped.command with
  | .adminCredit userId amount idempotencyKey timestamp =>
      match loop.postTrade.handleAdminCredit userId amount idempotencyKey timestamp with
      | .error panic => .error panic
      | .ok (postTrade, facts) => .ok ({ loop with postTrade }, facts)
  | command =>
      let (engine, engineEvents) := loop.engine.processCommand command
      match consume popped.order popped.now loop.postTrade engineEvents with
      | .error panic => .error panic
      | .ok (postTrade, facts) => .ok (⟨engine, postTrade⟩, engineEvents ++ facts)

/-- Process a command and append its records. -/
def serve (served : Served) (popped : Popped) : Except ClearingPanic Served :=
  match served.loop.processOne popped with
  | .error panic => .error panic
  | .ok (loop, records) => .ok ⟨loop, served.log ++ records⟩

/-! ## One command -/

/-- What the engine makes of a command; an admin credit passes it by. -/
def engineStep (loop : CommandLoop) (popped : Popped) : MatchingEngine × List Event :=
  match popped.command with
  | .adminCredit .. => (loop.engine, [])
  | command => loop.engine.processCommand command

/-- What the post-trade processor is given for a command. -/
def clearingInput (loop : CommandLoop) (popped : Popped) : ClearingInput :=
  match popped.command with
  | .adminCredit userId amount key timestamp => .adminCredit userId amount key timestamp
  | _ => .batch (loop.engineStep popped).2 popped.now

/-- What a command leaves behind when nothing panics. -/
def processed (loop : CommandLoop) (popped : Popped) : CommandLoop × List Event :=
  let stepped := loop.engineStep popped
  let handled := (loop.clearingInput popped).handled popped.order loop.postTrade
  (⟨stepped.1, handled.1⟩, stepped.2 ++ handled.2)

section Command

variable (loop : CommandLoop) (popped : Popped)

private theorem processOne_eq :
    loop.processOne popped =
      ((loop.clearingInput popped).handle popped.order loop.postTrade).map fun outcome =>
        (⟨(loop.engineStep popped).1, outcome.1⟩, (loop.engineStep popped).2 ++ outcome.2) := by
  obtain ⟨command, now, order⟩ := popped
  cases command with
  | adminCredit userId amount key timestamp =>
      simp only [processOne, clearingInput, engineStep, ClearingInput.handle]
      cases loop.postTrade.handleAdminCredit userId amount key timestamp <;> rfl
  | _ =>
      simp only [processOne, clearingInput, engineStep, ClearingInput.handle]
      cases consume order now loop.postTrade _ <;> rfl

private theorem records_clearingInput (facts : List Event) :
    (loop.clearingInput popped).records facts = (loop.engineStep popped).2 ++ facts := by
  obtain ⟨command, now, order⟩ := popped
  cases command <;> rfl

end Command
end CommandLoop

/-! ## What a command may ask for -/

/-- The key of an admin credit. -/
def Command.creditKey? : Command → Option String
  | .adminCredit _ _ key _ => some key
  | _ => none

/-- The commands of a server for one symbol: the gateway refuses a name it does not know, and
the admin handler an amount that is not positive. -/
def Command.LetThrough (only : SymbolId) : Command → Prop
  | .adminCredit _ amount key _ => 0 < amount ∧ GatewayKey key
  | command => ∀ symbol ∈ command.symbol?, symbol = only

namespace CommandLoop

/-- A loop between two commands. -/
structure Ready (loop : CommandLoop) (credits : List String) (only : SymbolId) : Prop where
  waiting : loop.engine.WaitingFor only
  postTrade : loop.postTrade.Ready credits only

variable {loop : CommandLoop} {popped : Popped} {credits : List String} {only : SymbolId}

private theorem ready_boot (config : SymbolConfig) (ids : Nat → TradeId)
    (interestRate markPrice : Decimal128) (only : SymbolId) :
    (boot config ids interestRate markPrice).Ready [] only :=
  ⟨by simp [boot, MatchingEngine.WaitingFor, MatchingEngine.new], ready_new only⟩

private theorem creditKey_clearingInput (loop : CommandLoop) (popped : Popped) :
    (loop.clearingInput popped).creditKey = popped.command.creditKey? := by
  obtain ⟨command, now, order⟩ := popped
  cases command <;> rfl

theorem Ready.admissible (ready : loop.Ready credits only)
    (letThrough : popped.command.LetThrough only) :
    (loop.clearingInput popped).Admissible only := by
  obtain ⟨command, now, order⟩ := popped
  cases command with
  | adminCredit userId amount key timestamp => exact letThrough
  | _ =>
      intro event emitted
      exact MatchingEngine.processCommand_fromEngine ready.waiting letThrough emitted

theorem Ready.engineStep (ready : loop.Ready credits only)
    (letThrough : popped.command.LetThrough only) :
    (loop.engineStep popped).1.WaitingFor only := by
  obtain ⟨command, now, order⟩ := popped
  cases command with
  | adminCredit userId amount key timestamp => exact ready.waiting
  | _ => exact ready.waiting.processCommand letThrough

/-- A command that the gateway lets through does not panic. -/
theorem Ready.processOne (ready : loop.Ready credits only)
    (letThrough : popped.command.LetThrough only)
    (unused : ∀ key ∈ popped.command.creditKey?, key ∉ credits) :
    loop.processOne popped = .ok (loop.processed popped) ∧
      (loop.processed popped).1.Ready (credits ++ popped.command.creditKey?.toList) only := by
  rw [← creditKey_clearingInput loop] at unused ⊢
  have admissible := ready.admissible letThrough
  have handled := ClearingInput.handled_ready ready.postTrade admissible popped.order
  refine ⟨?_, ready.engineStep letThrough, handled⟩
  rw [processOne_eq, ClearingInput.handle_eq ready.postTrade admissible unused]
  rfl

/-- The records of a command keep a replayed processor a twin of the live one. -/
theorem Ready.replays (ready : loop.Ready credits only)
    (letThrough : popped.command.LetThrough only)
    (unused : ∀ key ∈ popped.command.creditKey?, key ∉ credits) {clearing : PostTradeProcessor}
    (twin : Twin credits only loop.postTrade clearing) :
    ∃ after, follow applyEvent clearing (loop.processed popped).2 = .ok after ∧
      Twin (credits ++ popped.command.creditKey?.toList) only (loop.processed popped).1.postTrade
        after := by
  rw [← creditKey_clearingInput loop] at unused ⊢
  obtain ⟨after, followed, twins⟩ := ClearingInput.twin_handled twin ready.postTrade
    (ready.admissible letThrough) unused popped.order
  rw [records_clearingInput] at followed
  exact ⟨after, followed, twins⟩

/-! ## Runs -/

/-- The keys of the admin credits of a run. -/
def creditKeys (inputs : List Popped) : List String :=
  inputs.filterMap fun popped => popped.command.creditKey?

/-- The commands of a run, as the gateway produces them. -/
structure FromGateway (only : SymbolId) (inputs : List Popped) : Prop where
  letThrough : ∀ popped ∈ inputs, popped.command.LetThrough only
  distinctCredits : (creditKeys inputs).Nodup

private theorem creditKeys_concat (before : List Popped) (popped : Popped) :
    creditKeys (before ++ [popped]) =
      creditKeys before ++ popped.command.creditKey?.toList := by
  rw [creditKeys, List.filterMap_append, List.filterMap_cons, List.filterMap_nil]
  cases popped.command.creditKey? <;> rfl

theorem FromGateway.initial {inputs before : List Popped} (gateway : FromGateway only inputs)
    (isPrefix : before <+: inputs) : FromGateway only before where
  letThrough popped member := gateway.letThrough popped (isPrefix.subset member)
  distinctCredits := gateway.distinctCredits.sublist (isPrefix.sublist.filterMap _)

theorem FromGateway.unused {inputs before : List Popped} (gateway : FromGateway only inputs)
    (isPrefix : before ++ [popped] <+: inputs) :
    ∀ key ∈ popped.command.creditKey?, key ∉ creditKeys before := by
  intro key issued used
  have distinct := (gateway.initial isPrefix).distinctCredits
  rw [creditKeys_concat] at distinct
  exact (List.nodup_append.1 distinct).2.2 key used key (by simpa using issued) rfl

section Run

variable (config : SymbolConfig) (ids : Nat → TradeId) (interestRate markPrice : Decimal128)
variable {inputs : List Popped}

/-- No command panics, and replaying the log gives the processor a twin. -/
theorem run_serves (gateway : FromGateway only inputs) :
    let start := boot config ids interestRate markPrice
    let reached := run processed start inputs
    follow serve ⟨start, []⟩ inputs = .ok ⟨reached.1, reached.2⟩ ∧
      reached.1.Ready (creditKeys inputs) only ∧
      ∃ clearing, follow applyEvent .new reached.2 = .ok clearing ∧
        Twin (creditKeys inputs) only reached.1.postTrade clearing := by
  intro start reached
  have readyStart := ready_boot config ids interestRate markPrice only
  apply run_induction processed (motive := fun before loop log =>
    follow serve ⟨start, []⟩ before = .ok ⟨loop, log⟩ ∧ loop.Ready (creditKeys before) only ∧
      ∃ clearing, follow applyEvent .new log = .ok clearing ∧
        Twin (creditKeys before) only loop.postTrade clearing)
  · exact ⟨rfl, readyStart, .new, rfl, Twin.refl readyStart.postTrade⟩
  · rintro before popped isPrefix ⟨served, ready, clearing, followed, twin⟩
    have letThrough := gateway.letThrough popped (isPrefix.subset (by simp))
    have unused := gateway.unused isPrefix
    obtain ⟨processes, readyNext⟩ := ready.processOne letThrough unused
    obtain ⟨after, followedNext, twins⟩ := ready.replays letThrough unused twin
    rw [creditKeys_concat]
    refine ⟨?_, readyNext, after, (follow_append_of_ok followed).trans followedNext, twins⟩
    rw [follow_append_of_ok served]
    simp only [follow, serve, processes]

end Run

/-! ## The engine's part of a log -/

section Engine

/-- The money facts, which the engine does not read. -/
def IsFact : Event → Prop
  | .adminCredited .. | .realizedPnl .. | .fundingSettled .. => True
  | _ => False

private theorem consumedState_facts (processor : PostTradeProcessor)
    (visit : List Position → List Position) (timestamp : UnixMicros) (event : Event) :
    ∀ fact ∈ (processor.consumedState visit timestamp event).2, IsFact fact := by
  cases event with
  | orderFilled filled =>
      simp only [consumedState]
      split
      · rw [filledState]
        split
        · simp
        · simp [IsFact]
      · simp
  | fundingRateUpdate _ rate _ =>
      simp only [consumedState, fundedState]
      split
      · simp
      · intro fact member
        obtain ⟨_, _, _, rfl⟩ := settledPositions_fact fact member
        trivial
  | _ => simp [consumedState]

private theorem consumedBatch_facts (order : IterationOrder) (timestamp : UnixMicros)
    (processor : PostTradeProcessor) (events : List Event) :
    ∀ fact ∈ (consumedBatch order timestamp processor events).2, IsFact fact := by
  induction events generalizing processor order with
  | nil => simp [consumedBatch]
  | cons event rest inductionHypothesis =>
      intro fact member
      rcases List.mem_append.1 member with here | later
      · exact consumedState_facts processor _ timestamp event fact here
      · exact inductionHypothesis order.later _ fact later

private theorem handled_facts (input : ClearingInput) (order : IterationOrder)
    (processor : PostTradeProcessor) :
    ∀ fact ∈ (input.handled order processor).2, IsFact fact := by
  cases input with
  | batch events timestamp => exact consumedBatch_facts order timestamp processor events
  | adminCredit userId amount key timestamp => simp [ClearingInput.handled, IsFact]

private theorem applyEvent_fact (engine : MatchingEngine) {fact : Event} (isFact : IsFact fact) :
    engine.applyEvent fact = .ok engine := by
  cases fact with
  | adminCredited _ _ _ _ => rfl
  | realizedPnl _ _ _ _ => rfl
  | fundingSettled _ _ _ _ _ => rfl
  | _ => cases isFact

/-- What the engine is given of a command. -/
def engineInput? (popped : Popped) : Option MatchingEngine.EngineInput :=
  match popped.command with
  | .adminCredit .. => none
  | command => some (.command command)

/-- The inputs of the engine in a run. -/
def engineInputs (inputs : List Popped) : List MatchingEngine.EngineInput :=
  inputs.filterMap engineInput?

theorem engineInputs_cons (popped : Popped) (rest : List Popped) :
    engineInputs (popped :: rest) = (engineInput? popped).toList ++ engineInputs rest := by
  rw [engineInputs, List.filterMap_cons]
  cases engineInput? popped <;> rfl

theorem run_engineInput (loop : CommandLoop) (popped : Popped) :
    run MatchingEngine.step loop.engine (engineInput? popped).toList = loop.engineStep popped := by
  obtain ⟨command, now, order⟩ := popped
  cases command with
  | adminCredit userId amount key timestamp => rfl
  | _ => simp [engineInput?, engineStep, run, MatchingEngine.step]

/-- The engine goes through its own inputs. -/
theorem run_engine (loop : CommandLoop) (inputs : List Popped) :
    (run processed loop inputs).1.engine =
      (run MatchingEngine.step loop.engine (engineInputs inputs)).1 := by
  induction inputs generalizing loop with
  | nil => rfl
  | cons popped rest inductionHypothesis =>
      rw [engineInputs_cons, run_append, run_engineInput]
      exact inductionHypothesis (loop.processed popped).1

/-- Replay takes the engine through the events of its own inputs. -/
theorem follow_engine (engine : MatchingEngine) (loop : CommandLoop) (inputs : List Popped) :
    follow MatchingEngine.applyEvent engine (run processed loop inputs).2 =
      follow MatchingEngine.applyEvent engine
        (run MatchingEngine.step loop.engine (engineInputs inputs)).2 := by
  induction inputs generalizing loop engine with
  | nil => rfl
  | cons popped rest inductionHypothesis =>
      let facts := ((loop.clearingInput popped).handled popped.order loop.postTrade).2
      have skipped : ∀ engine, follow MatchingEngine.applyEvent engine facts = .ok engine :=
        follow_ignored fun engine fact member =>
          applyEvent_fact engine (handled_facts _ popped.order loop.postTrade fact member)
      have records : (run processed loop (popped :: rest)).2 = (loop.engineStep popped).2 ++
          (facts ++ (run processed (loop.processed popped).1 rest).2) :=
        List.append_assoc _ _ _
      rw [records, engineInputs_cons, run_append, run_engineInput, follow_append, follow_append]
      cases follow MatchingEngine.applyEvent engine (loop.engineStep popped).2 with
      | error error => rfl
      | ok middle =>
          dsimp only
          rw [follow_append_of_ok (skipped middle), inductionHypothesis]
          rfl

end Engine

/-! ## The engine behind the log -/

section Replay

variable (config : SymbolConfig) (ids replayIds : Nat → TradeId)
variable (interestRate markPrice : Decimal128) {inputs : List Popped}

/-- The engine's side of a log whose every step is recorded in full. -/
theorem run_engineReplays (distinct : (MatchingEngine.newOrderIds (engineInputs inputs)).Nodup)
    (recorded : StepsMeet MatchingEngine.step
      (fun engine input => engine.Recorded input ∧ engine.Replayable input)
      (boot config ids interestRate markPrice).engine (engineInputs inputs)) :
    let reached := run processed (boot config ids interestRate markPrice) inputs
    ∃ replayed, follow MatchingEngine.applyEvent
        (boot config replayIds interestRate markPrice).engine reached.2 = .ok replayed ∧
      reached.1.engine.Equivalent replayed := by
  intro reached
  let start := (boot config ids interestRate markPrice).engine
  let replayStart := (boot config replayIds interestRate markPrice).engine
  have sound : start.Sound [] := OrdersSound.new config.symbol
  have covers : start.CoveredBy [] replayStart := by
    have bare := MatchingEngine.coveredBy_new config ids replayIds interestRate
    exact ⟨⟨bare.apart, bare.nodup, bare.bookUsed, bare.stopsUsed, bare.stopsSeen⟩, bare.resting,
      bare.waiting⟩
  have equivalent : start.Equivalent replayStart :=
    ⟨OrderBook.SameOrders.refl _, List.Perm.refl _, rfl, rfl, rfl⟩
  obtain ⟨replayed, replays, -⟩ := MatchingEngine.replay_run sound covers distinct
    (recorded.mono fun _ _ both => both.2)
  have same := MatchingEngine.equivalent_run sound equivalent distinct
    (recorded.mono fun _ _ both => both.1) replays
  refine ⟨replayed, (follow_engine replayStart _ inputs).trans replays, ?_⟩
  rw [run_engine]
  exact same

end Replay
end CommandLoop
end Exg
