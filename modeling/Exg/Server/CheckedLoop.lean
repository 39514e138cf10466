import Exg.Clearing.CheckedPostTrade
import Exg.Matching.CheckedReplay
import Exg.Server.CommandLoop

/-!
# The command loop, with its panics

`process_one` as it runs when every operator may panic.  A run of commands that the gateway lets
through stops for an overflow only, and up to there it is the run of exact numbers.
-/

namespace Exg

open Support PostTradeProcessor

namespace CommandLoop

/-- Let the processor consume what the engine has emitted. -/
def clear? (loop : CommandLoop) (popped : Popped) (stepped : MatchingEngine × List Event) :
    Option (Except ClearingPanic (CommandLoop × List Event)) :=
  thenOk (consume? popped.order popped.now loop.postTrade stepped.2) fun (postTrade, facts) =>
    some (.ok (⟨stepped.1, postTrade⟩, stepped.2 ++ facts))

/-- `process_one` on one popped command. -/
def processOne? (loop : CommandLoop) (popped : Popped) :
    Option (Except ClearingPanic (CommandLoop × List Event)) :=
  match popped.command with
  | .adminCredit userId amount idempotencyKey timestamp =>
      (loop.postTrade.handleAdminCredit? userId amount idempotencyKey timestamp).map fun
        | .error panic => .error panic
        | .ok (postTrade, facts) => .ok ({ loop with postTrade }, facts)
  | command => loop.engine.processAnyCommand? command >>= loop.clear? popped

/-- Process a command and append its records. -/
def serve? (served : Served) (popped : Popped) : Option (Except ClearingPanic Served) :=
  (served.loop.processOne? popped).map fun
    | .error panic => .error panic
    | .ok (loop, records) => .ok ⟨loop, served.log ++ records⟩

variable {loop : CommandLoop} {popped : Popped}

private theorem agrees_clear (popped : Popped) (stepped : MatchingEngine × List Event) :
    Agrees (loop.clear? popped stepped)
      (match consume popped.order popped.now loop.postTrade stepped.2 with
      | .error panic => .error panic
      | .ok (postTrade, facts) => .ok (⟨stepped.1, postTrade⟩, stepped.2 ++ facts)) := by
  refine agrees_thenOk (agrees_consume _ _ _ _) (fun panic failed => ?_) fun consumed outcome => ?_
  · rw [failed]
  · rw [outcome]
    exact .pure _

theorem agrees_processOne : Agrees (loop.processOne? popped) (loop.processOne popped) := by
  obtain ⟨command, now, order⟩ := popped
  cases command with
  | adminCredit userId amount key timestamp => exact (agrees_handleAdminCredit _ _ _ _).map _
  | _ => exact (loop.engine.agrees_processCommand _).bind (agrees_clear ⟨_, now, order⟩ _)

private theorem agrees_serve (served : Served) (popped : Popped) :
    Agrees (serve? served popped) (serve served popped) :=
  agrees_processOne.map _

/-- A command that is served has been processed. -/
theorem processOne?_of_serve {served next : Served}
    (serves : checked serve? served popped = .ok next) :
    ∃ loop records, served.loop.processOne? popped = some (.ok (loop, records)) ∧
      next = ⟨loop, served.log ++ records⟩ := by
  have mapped := checked_ok_iff.1 serves
  rw [serve?] at mapped
  obtain ⟨ended, processes, same⟩ := Option.map_eq_some_iff.1 mapped
  cases ended with
  | error panic => cases same
  | ok outcome => exact ⟨_, _, processes, (Except.ok.inj same).symm⟩

/-! ## Runs -/

section Run

variable {config : SymbolConfig} {ids : Nat → TradeId} {interestRate markPrice : Decimal128}
variable {only : SymbolId} {inputs before : List Popped}

/-- What the gateway lets through is served, unless an operator overflows. -/
theorem run_served (gateway : FromGateway only inputs) :
    let start := boot config ids interestRate markPrice
    let reached := run processed start inputs
    UnlessOverflow (follow (checked serve?) ⟨start, []⟩ inputs) fun served =>
      served = ⟨reached.1, reached.2⟩ :=
  unlessOverflow_follow agrees_serve (run_serves config ids interestRate markPrice gateway).1 rfl

/-- A run that goes through has gone through its first commands. -/
theorem served_initial {final : Served} (gateway : FromGateway only inputs)
    (served : follow (checked serve?) ⟨boot config ids interestRate markPrice, []⟩ inputs =
      .ok final) (isPrefix : before <+: inputs) :
    let reached := run processed (boot config ids interestRate markPrice) before
    follow (checked serve?) ⟨boot config ids interestRate markPrice, []⟩ before =
      .ok ⟨reached.1, reached.2⟩ := by
  have exact := (run_serves config ids interestRate markPrice (gateway.initial isPrefix)).1
  obtain ⟨rest, rfl⟩ := isPrefix
  obtain ⟨middle, early, -⟩ := follow_append_ok served
  have same : middle = _ := Except.ok.inj ((follow_of_checked agrees_serve early).symm.trans exact)
  rw [early, same]

end Run
end CommandLoop
end Exg
