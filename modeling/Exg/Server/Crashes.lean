import Exg.Server.CheckedLoop
import Exg.Wal.Durability

/-!
# Crashes of the command loop

A command leaves several records, so a crash may keep some of them only: replay then stands
behind a whole number of commands, with the first records of the next one on top.
-/

namespace Exg

open Support PostTradeProcessor

namespace CommandLoop

/-- Some of the records of the next command, but not all of them. -/
def Unfinished (loop : CommandLoop) (next? : Option Popped) (part : List Event) : Prop :=
  part = [] ∨ ∃ next ∈ next?, ∃ after records,
    loop.processOne? next = some (.ok (after, records)) ∧ part <+: records ∧ part ≠ records

section Crash

variable (config : SymbolConfig) (ids replayIds : Nat → TradeId)
variable (interestRate markPrice : Decimal128) {inputs : List Popped}

/-- The records of a command of a run that goes through. -/
theorem processOne?_of_served {count : Nat} {next : Popped} {final : Served}
    (gateway : FromGateway config.symbol inputs)
    (served : follow (checked serve?) ⟨boot config ids interestRate markPrice, []⟩ inputs =
      .ok final) (found : inputs[count]? = some next) :
    let loop := (run processed (boot config ids interestRate markPrice) (inputs.take count)).1
    loop.processOne? next = some (.ok (loop.processed next)) := by
  intro loop
  have longer : inputs.take (count + 1) = inputs.take count ++ [next] := by
    rw [List.take_add_one, found, Option.toList_some]
  have upTo : inputs.take count ++ [next] <+: inputs := by
    rw [← longer]
    exact List.take_prefix _ _
  have earlier := (List.prefix_append (inputs.take count) [next]).trans upTo
  have ran := served_initial gateway served upTo
  rw [follow_append_of_ok (served_initial gateway served earlier)] at ran
  obtain ⟨middle, serves, -⟩ := follow_cons_ok ran
  obtain ⟨after, records, processes, -⟩ := processOne?_of_serve serves
  have ready := (run_serves config ids interestRate markPrice (gateway.initial earlier)).2.1
  have exact := (ready.processOne (gateway.letThrough next (upTo.subset (by simp)))
    (gateway.unused upTo)).1
  rw [processes, ← exact]
  exact congrArg some (agrees_processOne _ processes)

/-- Whatever prefix of the log a crash keeps, it is the log of a whole number of commands and
a part of the records of the next one.  Replay brings both consumers to where the live ones
were between the two commands, and applies the part on top.  Only an overflow can stop the live
loop or a replay. -/
theorem crash_cuts_one_command (gateway : FromGateway config.symbol inputs)
    (distinct : (MatchingEngine.newOrderIds (engineInputs inputs)).Nodup) :
    let start := boot config ids interestRate markPrice
    UnlessOverflow (follow (checked serve?) ⟨start, []⟩ inputs) fun final =>
      ∀ kept, kept <+: final.log → ∃ count state whole part,
        follow (checked serve?) ⟨start, []⟩ (inputs.take count) = .ok ⟨state, whole⟩ ∧
        kept = whole ++ part ∧ state.Unfinished inputs[count]? part ∧
        (UnlessOverflow (follow (checked applyEvent?) .new whole) fun clearing =>
          Twin (creditKeys (inputs.take count)) config.symbol state.postTrade clearing ∧
          UnlessOverflow (follow (checked applyEvent?) clearing part) fun _ => True) ∧
        (StepsMeet MatchingEngine.step
            (fun engine input => engine.Recorded input ∧ engine.Replayable input)
            start.engine (engineInputs inputs) →
          UnlessOverflow (follow (checked MatchingEngine.applyEvent?)
              (boot config replayIds interestRate markPrice).engine whole) fun engine =>
            state.engine.Equivalent engine ∧
            UnlessOverflow (follow (checked MatchingEngine.applyEvent?) engine part)
              fun _ => True) := by
  intro start
  obtain ⟨-, -, clearingFinal, followed, -⟩ :=
    run_serves config ids interestRate markPrice gateway
  refine (run_served gateway).mono fun final served same kept isPrefix => ?_
  rw [same] at isPrefix
  obtain ⟨count, part, split, ends⟩ := run_cut processed isPrefix
  have earlier : inputs.take count <+: inputs := List.take_prefix count inputs
  obtain ⟨-, -, clearing, followedHere, twin⟩ :=
    run_serves config ids interestRate markPrice (gateway.initial earlier)
  rw [split] at isPrefix
  refine ⟨count, _, _, part, served_initial gateway served earlier, split, ?_, ?_, ?_⟩
  · rcases ends with rfl | ⟨next, found, within, unlike⟩
    · exact Or.inl rfl
    · have processes :=
        processOne?_of_served config ids interestRate markPrice gateway served found
      exact Or.inr ⟨next, found, _, _, processes, within, unlike⟩
  · obtain ⟨after, followedPart⟩ := follow_part followed isPrefix followedHere
    exact unlessOverflow_follow (fun _ _ => agrees_applyEvent _) followedHere
      ⟨twin, unlessOverflow_follow (fun _ _ => agrees_applyEvent _) followedPart trivial⟩
  · intro recorded
    have fewer : engineInputs (inputs.take count) <+: engineInputs inputs := earlier.filterMap _
    obtain ⟨engine, followedHere, equivalent⟩ := run_engineReplays config ids replayIds interestRate
      markPrice (distinct.sublist (fewer.sublist.filterMap _)) (recorded.initial fewer)
    obtain ⟨engineFinal, followed, -⟩ :=
      run_engineReplays config ids replayIds interestRate markPrice distinct recorded
    obtain ⟨after, followedPart⟩ := follow_part followed isPrefix followedHere
    exact unlessOverflow_follow (fun engine => engine.agrees_applyEvent) followedHere
      ⟨equivalent, unlessOverflow_follow (fun engine => engine.agrees_applyEvent) followedPart
        trivial⟩

end Crash

/-- A credit, an ask and a bid that takes it. -/
def tradedOnce : List Popped :=
  [⟨.adminCredit 8 (.ofInt 100) (adminCreditKey 8 0 0) 0, 0, .stored⟩,
    ⟨.newOrder (MatchingEngine.gatewayOrder 1 7 .sell 100 2), 0, .stored⟩,
    ⟨.newOrder (MatchingEngine.gatewayOrder 2 8 .buy 100 2), 0, .stored⟩]

theorem fromGateway_tradedOnce : FromGateway 1 tradedOnce where
  letThrough := by
    have positive : (0 : Decimal128) < .ofInt 100 := by decide
    simp [tradedOnce, Command.LetThrough, Command.symbol?, MatchingEngine.gatewayOrder, GatewayKey,
      positive]
  distinctCredits := by decide

/-- The loop after the first commands of the trade, and its log. -/
def traded (count : Nat) : CommandLoop × List Event :=
  run processed (boot MatchingEngine.plainConfig id 0 0) (tradedOnce.take count)

/-- The log up to the maker's fill. -/
def splitLog : List Event := (traded 3).2.take 4

/-- Whether the maker and the taker have a position. -/
def openSides (positions : PositionManager) : Bool × Bool :=
  ((positions.getPosition 7 1).isSome, (positions.getPosition 8 1).isSome)

/-- None of the three commands overflows, and neither does the replay of their log; behind its
first four records one user has a position. -/
theorem tradedOnce_runs :
    let start := boot MatchingEngine.plainConfig id 0 0
    (follow (checked serve?) ⟨start, []⟩ tradedOnce).isOk ∧
      (traded 3).2.length = 6 ∧
      (follow (checked MatchingEngine.applyEvent?) start.engine (traded 3).2).isOk ∧
      (follow (checked applyEvent?) .new (traded 3).2).isOk ∧
      (follow (checked applyEvent?) .new splitLog).toOption.map (fun replayed =>
        openSides replayed.positions) = some (true, false) := by
  decide +kernel

private theorem served_tradedOnce :
    follow (checked serve?) ⟨boot MatchingEngine.plainConfig id 0 0, []⟩ tradedOnce =
      .ok ⟨(traded 3).1, (traded 3).2⟩ := by
  have ends : UnlessOverflow (follow (checked serve?)
      ⟨boot MatchingEngine.plainConfig id 0 0, []⟩ tradedOnce) _ :=
    run_served fromGateway_tradedOnce
  obtain ⟨final, served, same⟩ := ends.of_isOk tradedOnce_runs.1
  rw [served, same]
  rfl

private theorem serve_traded (count : Nat) :
    follow (checked serve?) ⟨boot MatchingEngine.plainConfig id 0 0, []⟩ (tradedOnce.take count) =
      .ok ⟨(traded count).1, (traded count).2⟩ :=
  served_initial fromGateway_tradedOnce served_tradedOnce (List.take_prefix count tradedOnce)

theorem replayable_tradedOnce : StepsMeet MatchingEngine.step
    (fun engine input => engine.Recorded input ∧ engine.Replayable input)
    (boot MatchingEngine.plainConfig id 0 0).engine (engineInputs tradedOnce) := by
  refine ⟨⟨MatchingEngine.recorded_gatewayOrder _ 1 7 .sell 100 2, ?_⟩,
    ⟨MatchingEngine.recorded_gatewayOrder _ 2 8 .buy 100 2, ?_⟩, trivial⟩
  · exact MatchingEngine.replayable_gatewayOrder _ 1 7 .sell 100 2 (by decide)
      (by decide +kernel) (by decide +kernel)
  · exact MatchingEngine.replayable_gatewayOrder _ 2 8 .buy 100 2 (by decide)
      (by decide +kernel) (by decide +kernel)

/-- A log that is kept whole is replayed into both consumers. -/
theorem crash_cuts_one_command_traded :
    let start := boot MatchingEngine.plainConfig id 0 0
    ∃ final, follow (checked serve?) ⟨start, []⟩ tradedOnce = .ok final ∧
      ∃ engine clearing,
        follow (checked MatchingEngine.applyEvent?) start.engine final.log = .ok engine ∧
        follow (checked applyEvent?) .new final.log = .ok clearing := by
  intro start
  obtain ⟨final, served, cuts⟩ := (crash_cuts_one_command MatchingEngine.plainConfig id id 0 0
    fromGateway_tradedOnce (by decide)).of_isOk tradedOnce_runs.1
  obtain ⟨count, state, whole, part, -, split, -, clears, replays⟩ :=
    cuts final.log (List.prefix_refl _)
  have engineEnds := unlessOverflow_append ((replays replayable_tradedOnce).mono
    fun engine _ ended => ended.2)
  have clearingEnds := unlessOverflow_append (clears.mono fun clearing _ ended => ended.2)
  rw [← split] at engineEnds clearingEnds
  cases served_tradedOnce.symm.trans served
  obtain ⟨-, -, engineIsOk, clearingIsOk, -⟩ := tradedOnce_runs
  obtain ⟨engine, engineReplays, -⟩ := engineEnds.of_isOk engineIsOk
  obtain ⟨clearing, clearingReplays, -⟩ := clearingEnds.of_isOk clearingIsOk
  exact ⟨_, served, engine, clearing, engineReplays, clearingReplays⟩

/-! ## A trade cut in two -/

/-- A place where the log may end after a crash: all flushed records are before it. -/
def CrashPoint (crc : Wal.Checksum) (encode : Event → Wal.Bytes) (walConfig : Wal.WalConfig)
    (log kept : List Event) : Prop :=
  kept <+: log ∧ ∃ durable, Trace Wal.DurableLog.Step .empty
    (run (Wal.WalState.step crc) .initial
      (.open walConfig :: (log.map encode).map Wal.WalInput.append)).2 durable ∧
    durable.flushed ≤ kept.length

/-- Between two commands, both users have a position or none has. -/
theorem openSides_traded (count : Nat) :
    openSides (traded count).1.postTrade.positions = (false, false) ∨
      openSides (traded count).1.postTrade.positions = (true, true) := by
  have early : ∀ before ≤ 3,
      openSides (traded before).1.postTrade.positions = (false, false) ∨
        openSides (traded before).1.postTrade.positions = (true, true) := by
    decide +kernel
  have within : tradedOnce.take (min count tradedOnce.length) = tradedOnce.take count :=
    List.take_eq_take_min.symm
  have found := early (min count tradedOnce.length) (Nat.min_le_right count _)
  rwa [traded, within] at found

/-- Nothing is flushed yet when the maker's fill is appended. -/
theorem crashPoint_splitLog (crc : Wal.Checksum) (encode : Event → Wal.Bytes) :
    ∃ walConfig, CrashPoint crc encode walConfig (traded 3).2 splitLog := by
  let payloads := (traded 3).2.map encode
  have size : payloads.length = 6 := by
    rw [List.length_map]
    exact tradedOnce_runs.2.1
  let walConfig : Wal.WalConfig :=
    { segmentSize := (payloads.map Wal.recordSize).sum, flushEveryN := 7 }
  obtain ⟨durable, trace, unflushed⟩ := Wal.unflushed_run crc walConfig payloads
    (by rw [size]; exact Nat.lt_succ_self 6) (Nat.le_refl _) (by rw [size]; decide)
  refine ⟨walConfig, List.take_prefix 4 _, durable, trace, ?_⟩
  rw [unflushed]
  exact Nat.zero_le _

/-- Whatever the records' bytes, a crash may keep the maker's fill without the taker's.  Then
one user has a position and the other has none, which is so between no two commands. -/
theorem crash_splits_trade :
    ¬∃ (crc : Wal.Checksum) (encode : Event → Wal.Bytes),
      ∀ (config : SymbolConfig) (ids : Nat → TradeId) (interestRate markPrice : Decimal128)
        (walConfig : Wal.WalConfig) (inputs : List Popped), FromGateway config.symbol inputs →
      (MatchingEngine.newOrderIds (engineInputs inputs)).Nodup →
      let start := boot config ids interestRate markPrice
      ∀ final kept, follow (checked serve?) ⟨start, []⟩ inputs = .ok final →
        CrashPoint crc encode walConfig final.log kept →
        ∃ engine clearing,
          follow (checked MatchingEngine.applyEvent?) start.engine kept = .ok engine ∧
          follow (checked applyEvent?) .new kept = .ok clearing ∧
          ∃ count state,
            follow (checked serve?) ⟨start, []⟩ (inputs.take count) = .ok state ∧
            state.loop.engine.Equivalent engine ∧
            clearing.positions = state.loop.postTrade.positions := by
  rintro ⟨crc, encode, claimed⟩
  obtain ⟨walConfig, atCrash⟩ := crashPoint_splitLog crc encode
  obtain ⟨-, clearing, -, cleared, count, state, served, -, positions⟩ :=
    claimed MatchingEngine.plainConfig id 0 0 walConfig tradedOnce fromGateway_tradedOnce
      (by decide) _ splitLog served_tradedOnce atCrash
  cases (serve_traded count).symm.trans served
  obtain ⟨-, -, -, -, split⟩ := tradedOnce_runs
  rw [cleared] at split
  have apart : openSides clearing.positions = (true, false) := Option.some.inj split
  rw [positions] at apart
  rcases openSides_traded count with neither | both
  · cases neither.symm.trans apart
  · cases both.symm.trans apart

end CommandLoop
end Exg
