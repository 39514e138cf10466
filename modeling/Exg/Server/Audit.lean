import Exg.Clearing.CheckedFeed
import Exg.Clearing.Pool
import Exg.Server.Crashes

/-!
# Auditing the command loop

The log of the matching thread accounts for every balance: what its facts book to a user is the
user's Funding balance, and the funding pool holds what they have not paid out.  At any mark
prices the pool holds no more than the open positions have gained, but for the truncations of
the fills and of the funding ticks.
-/

namespace Exg

open Support PostTradeProcessor
open PositionManager (keep allow realized slack)

namespace CommandLoop

variable {loop : CommandLoop} {popped : Popped} {credits : List String} {only : SymbolId}

theorem Ready.engineEvents (ready : loop.Ready credits only)
    (letThrough : popped.command.LetThrough only) :
    ∀ event ∈ (loop.engineStep popped).2, FromEngine only event := by
  obtain ⟨command, now, order⟩ := popped
  cases command with
  | adminCredit userId amount key timestamp => exact fun event emitted => by cases emitted
  | _ => exact fun event => MatchingEngine.processCommand_fromEngine ready.waiting letThrough

/-- What a command books is in its records. -/
theorem Ready.books (ready : loop.Ready credits only)
    (letThrough : popped.command.LetThrough only) :
    Books loop.postTrade.ledger (loop.processed popped).2
      (loop.processed popped).1.postTrade.ledger := by
  have booked := ClearingInput.handled_books ready.postTrade (ready.admissible letThrough)
    popped.order
  exact booked.behind fun event emitted => (ready.engineEvents letThrough event emitted).not_fact

private theorem run_books (config : SymbolConfig) (ids : Nat → TradeId)
    (interestRate markPrice : Decimal128) {inputs : List Popped}
    (gateway : FromGateway only inputs) :
    let reached := run processed (boot config ids interestRate markPrice) inputs
    Books .new reached.2 reached.1.postTrade.ledger := by
  apply run_induction processed (motive := fun _ loop log => Books .new log loop.postTrade.ledger)
  · exact Books.refl .new
  · intro before popped isPrefix booked
    have earlier := gateway.initial ((List.prefix_append before [popped]).trans isPrefix)
    have ready := (run_serves config ids interestRate markPrice earlier).2.1
    have letThrough := gateway.letThrough popped (isPrefix.subset (by simp))
    exact booked.trans (ready.books letThrough)

/-- Whatever the gateway lets through, the log accounts for the Funding balance of every user,
and for the pool, unless an operator overflows; nothing else stops the loop. -/
theorem log_accounts_for_balances (config : SymbolConfig) (ids : Nat → TradeId)
    (interestRate markPrice : Decimal128) {inputs : List Popped}
    (gateway : FromGateway only inputs) :
    UnlessOverflow (follow (checked serve?) ⟨boot config ids interestRate markPrice, []⟩ inputs)
      fun served =>
        (∀ userId, served.loop.postTrade.ledger.fundingBalance userId =
          (served.log.map (Event.bookedTo userId)).sum) ∧
        served.loop.postTrade.ledger.systemBalance .funding =
          -(served.log.map Event.paidOut).sum := by
  have booked := run_books config ids interestRate markPrice gateway
  refine (run_served gateway).mono fun served _ same => ?_
  rw [same]
  refine ⟨fun userId => ?_, ?_⟩
  · rw [booked.funding]
    exact zero_add _
  · rw [booked.pool]
    exact zero_sub _

theorem log_accounts_for_balances_tradedOnce :
    ∃ served, follow (checked serve?) ⟨boot MatchingEngine.plainConfig id 0 0, []⟩ tradedOnce =
        .ok served ∧
      (∀ userId, served.loop.postTrade.ledger.fundingBalance userId =
        (served.log.map (Event.bookedTo userId)).sum) ∧
      served.loop.postTrade.ledger.systemBalance .funding =
        -(served.log.map Event.paidOut).sum :=
  (log_accounts_for_balances MatchingEngine.plainConfig id 0 0 fromGateway_tradedOnce).of_isOk
    tradedOnce_runs.1

/-! ## The pool -/

section Pool

variable (config : SymbolConfig) (ids : Nat → TradeId) (interestRate markPrice : Decimal128)

/-- What the engine has logged. -/
def engineLog (inputs : List Popped) : List Event :=
  (run MatchingEngine.step (boot config ids interestRate markPrice).engine
    (engineInputs inputs)).2

variable {config ids interestRate markPrice} {inputs : List Popped}

private theorem engineLog_concat (before : List Popped) (popped : Popped) :
    engineLog config ids interestRate markPrice (before ++ [popped]) =
      engineLog config ids interestRate markPrice before ++
        ((run processed (boot config ids interestRate markPrice) before).1.engineStep
          popped).2 := by
  have single : engineInputs [popped] = (engineInput? popped).toList := by
    rw [engineInputs_cons, engineInputs, List.filterMap_nil, List.append_nil]
  rw [engineLog, engineInputs, List.filterMap_append, ← engineInputs, ← engineInputs, single,
    run_append, ← run_engine, run_engineInput]
  rfl

theorem Ready.covers (ready : loop.Ready credits only)
    (letThrough : popped.command.LetThrough only)
    (positive : MatchingEngine.PositiveFills (loop.engineStep popped).2)
    (level : loop.postTrade.positions.Level) :
    Covers loop.postTrade.positions (loop.engineStep popped).2
      (loop.processed popped).1.postTrade.positions (loop.processed popped).2 := by
  have plain := fun event emitted =>
    (ready.engineEvents letThrough event emitted : FromEngine only event).not_fact
  refine Covers.behind ?_ plain
  obtain ⟨command, now, order⟩ := popped
  cases command with
  | adminCredit userId amount key timestamp =>
      let credited : Event := .adminCredited userId amount key timestamp
      have skipped : Covers loop.postTrade.positions [] loop.postTrade.positions [credited] :=
        ⟨rfl, by simp [credited, Event.paidOut, realized]⟩
      exact skipped
  | _ =>
      exact consumedBatch_covers (loop.engine.paired_step (.command _)) positive level order now

private theorem run_covers (config : SymbolConfig) (ids : Nat → TradeId)
    (interestRate markPrice : Decimal128) (validLot : 0 < config.lotSize)
    (gateway : FromGateway only inputs)
    (distinct : (MatchingEngine.newOrderIds (engineInputs inputs)).Nodup) :
    let reached := run processed (boot config ids interestRate markPrice) inputs
    Covers .new (engineLog config ids interestRate markPrice inputs) reached.1.postTrade.positions
      reached.2 := by
  apply run_induction processed (motive := fun before loop log =>
    Covers .new (engineLog config ids interestRate markPrice before) loop.postTrade.positions log)
  · exact Covers.nothing .new
  · intro before popped isPrefix covers
    have earlier := gateway.initial ((List.prefix_append before [popped]).trans isPrefix)
    have ready := (run_serves config ids interestRate markPrice earlier).2.1
    have letThrough := gateway.letThrough popped (isPrefix.subset (by simp))
    have base : (boot config ids interestRate markPrice).engine.Sound [] :=
      OrdersSound.new config.symbol
    have distinctHere : (MatchingEngine.newOrderIds (engineInputs (before ++ [popped]))).Nodup :=
      distinct.sublist ((isPrefix.filterMap engineInput?).sublist.filterMap _)
    have fewer : engineInputs before <+: engineInputs (before ++ [popped]) :=
      (List.prefix_append before [popped]).filterMap engineInput?
    have offset := offset_of_log base validLot (distinctHere.sublist (fewer.sublist.filterMap _))
    have fills := MatchingEngine.positiveFills_run base distinctHere
      (MatchingEngine.acceptsShown_from validLot _)
    rw [engineLog_concat]
    refine covers.trans (ready.covers letThrough (fun event emitted => fills event ?_) ?_)
    · have logged := List.mem_append_right (engineLog config ids interestRate markPrice before)
        emitted
      rwa [← engineLog_concat] at logged
    · rw [covers.positions]
      exact offset.toLevel

/-- Whatever has been traded, credited and settled, at any mark prices the funding pool holds no
more than the open positions have gained, but for the truncations, unless an operator overflows. -/
theorem pool_is_owed (config : SymbolConfig) (ids : Nat → TradeId)
    (interestRate markPrice : Decimal128) (validLot : 0 < config.lotSize)
    (gateway : FromGateway only inputs)
    (distinct : (MatchingEngine.newOrderIds (engineInputs inputs)).Nodup) :
    UnlessOverflow (follow (checked serve?) ⟨boot config ids interestRate markPrice, []⟩ inputs)
      fun served =>
        let positions := served.loop.postTrade.positions
        let log := engineLog config ids interestRate markPrice inputs
        ∀ markPrices marked, positions.Priced markPrices →
          positions.updateMarkPrices? markPrices = some marked →
          (served.loop.postTrade.ledger.systemBalance .funding).toRat ≤
            marked.unrealized +
              (slack (run keep .new log).2 + (run allow .new log).2.sum +
                positions.positions.size • Decimal128.unit) := by
  have base : (boot config ids interestRate markPrice).engine.Sound [] :=
    OrdersSound.new config.symbol
  have offset := offset_of_log base validLot distinct
  have covers := run_covers config ids interestRate markPrice validLot gateway distinct
  have booked := run_books config ids interestRate markPrice gateway
  refine (run_served gateway).mono fun served _ same => ?_
  rw [same]
  intro positions log markPrices marked priced updated
  rw [PositionManager.agrees_updateMarkPrices _ _ _ updated]
  simp only [positions] at priced ⊢
  rw [covers.positions] at priced
  have profits := (abs_le.1 (offset.profits priced)).1
  have paid := covers.paid
  rw [booked.pool, covers.positions, Decimal128.toRat_sub]
  have empty : (Ledger.new.systemBalance .funding).toRat = 0 := Decimal128.toRat_zero
  rw [empty]
  simp only [log, engineLog] at paid ⊢
  linarith

theorem pool_is_owed_tradedOnce :
    ∃ served, follow (checked serve?) ⟨boot MatchingEngine.plainConfig id 0 0, []⟩ tradedOnce =
        .ok served ∧
      let positions := served.loop.postTrade.positions
      let log := engineLog MatchingEngine.plainConfig id 0 0 tradedOnce
      ∀ markPrices marked, positions.Priced markPrices →
        positions.updateMarkPrices? markPrices = some marked →
        (served.loop.postTrade.ledger.systemBalance .funding).toRat ≤
          marked.unrealized +
            (slack (run keep .new log).2 + (run allow .new log).2.sum +
              positions.positions.size • Decimal128.unit) :=
  (pool_is_owed MatchingEngine.plainConfig id 0 0 (by decide) fromGateway_tradedOnce
    (by decide)).of_isOk tradedOnce_runs.1

end Pool
end CommandLoop
end Exg
