import Exg.Server.Boot
import Exg.Server.Crashes
import Exg.Server.Encoding
import Exg.Server.Serving

/-!
# Every schedule of the server

In every schedule the engine and the processor are where the commands handled so far lead, the
log holds their records, and a command that a handler lets through makes the thread panic only
when an operator overflows (`exchange_serves`).  The thread stops with exactly those commands
unhandled that were answered with 200 after it had last found the ring empty (`shutdown_leaves`).
Whenever the process crashes, the next boot restores a prefix of what was appended, unless an
operator overflows (`crash_boots`).
-/

namespace Exg

open Support Ringbuffer PostTradeProcessor

/-- The commands that handlers have brought to the ring. -/
def requestedCommands (inputs : List ServerInput) : List Command :=
  inputs.filterMap fun
    | .enqueue command => some command
    | _ => none

/-- The commands that the handlers of a server for one symbol produce. -/
structure HandlerCommands (only : SymbolId) (commands : List Command) : Prop where
  letThrough : ∀ command ∈ commands, command.LetThrough only
  distinctCredits : (commands.filterMap Command.creditKey?).Nodup
  distinctOrders : (commands.filterMap Command.newOrderId?).Nodup

theorem HandlerCommands.sublist {only : SymbolId} {commands some : List Command}
    (handlers : HandlerCommands only commands) (fewer : some.Sublist commands) :
    HandlerCommands only some where
  letThrough command member := handlers.letThrough command (fewer.subset member)
  distinctCredits := handlers.distinctCredits.sublist (fewer.filterMap _)
  distinctOrders := handlers.distinctOrders.sublist (fewer.filterMap _)

private theorem HandlerCommands.fromGateway {only : SymbolId} {popped : List Popped}
    (handlers : HandlerCommands only (popped.map (·.command))) :
    CommandLoop.FromGateway only popped where
  letThrough input member := handlers.letThrough input.command (List.mem_map_of_mem member)
  distinctCredits := by
    have distinct := handlers.distinctCredits
    rwa [List.filterMap_map] at distinct

private theorem HandlerCommands.distinctNewOrders {only : SymbolId} {popped : List Popped}
    (handlers : HandlerCommands only (popped.map (·.command))) :
    (MatchingEngine.newOrderIds (CommandLoop.engineInputs popped)).Nodup := by
  have distinct := handlers.distinctOrders
  have same : MatchingEngine.newOrderIds (CommandLoop.engineInputs popped) =
      (popped.map (·.command)).filterMap Command.newOrderId? := by
    rw [MatchingEngine.newOrderIds, CommandLoop.engineInputs, List.filterMap_filterMap,
      List.filterMap_map]
    apply List.filterMap_congr
    rintro ⟨command, now, order⟩ -
    cases command <;> rfl
  rwa [same]

namespace Server

/-! ## What holds in every schedule -/

section Run

variable (setup : ServerSetup)

structure Exchanges (start : CommandLoop) (inputs : List ServerInput) (server : Server)
    (log : List ServerEvent) : Prop where
  queue : ∃ polled, Trace PollStep ⟨[], .polling⟩ (log.filterMap (poll? setup)) polled ∧
    Coupled setup server polled
  keeps : Keeps setup start inputs server log
  requested :
    List.Sublist (acceptedCommands log ++ server.pushing.toList) (requestedCommands inputs)
  handles : server.thread.Drops → server.thread = .panicked .overflow

variable {setup} {start : CommandLoop} {inputs : List ServerInput} {server : Server}
  {log : List ServerEvent}

theorem acceptedCommands_append (before after : List ServerEvent) :
    acceptedCommands (before ++ after) = acceptedCommands before ++ acceptedCommands after :=
  List.filterMap_append

private theorem accepted_of_poll {events : List ServerEvent}
    (silent : events.filterMap (poll? setup) = []) : acceptedCommands events = [] := by
  rw [← arrivals_poll setup, silent]
  rfl

/-- The accepted commands are those handled, one that has made the thread panic, and those that
wait in the ring. -/
theorem Exchanges.accepted (exchanges : Exchanges setup start inputs server log)
    {polled : Polled Command}
    (trace : Trace PollStep ⟨[], .polling⟩ (log.filterMap (poll? setup)) polled) :
    ∃ stuck, acceptedCommands log =
        (processedInputs log).map (·.command) ++ stuck ++ polled.queue ∧
      stuck.length ≤ 1 ∧ (¬server.thread.Drops → stuck = []) := by
  obtain ⟨stuck, taken, rest⟩ := exchanges.keeps.taken
  have inOrder := taken_in_order trace
  rw [arrivals_poll, taken] at inOrder
  exact ⟨stuck, inOrder, rest⟩

/-- A thread that has not panicked over a command has handled all but those that wait. -/
theorem Exchanges.waiting (exchanges : Exchanges setup start inputs server log)
    (calm : ¬server.thread.Drops) {polled : Polled Command}
    (trace : Trace PollStep ⟨[], .polling⟩ (log.filterMap (poll? setup)) polled) :
    acceptedCommands log = (processedInputs log).map (·.command) ++ polled.queue := by
  obtain ⟨stuck, accepted, -, nothing⟩ := exchanges.accepted trace
  rwa [nothing calm, List.append_nil] at accepted

/-- The thread accepts no command, and leaves the producer's lock alone. -/
theorem work_frame (setup : ServerSetup) (server : Server) (now : UnixMicros)
    (order : IterationOrder) :
    acceptedCommands (server.work setup now order).2 = [] ∧
      (server.work setup now order).1.pushing = server.pushing := by
  rw [Server.work]
  cases server.thread with
  | popping =>
      dsimp only
      rw [Server.pop]
      dsimp only
      split
      · rename_i message _
        set taken : Server := { server with ring := _ }
        obtain ⟨silent, -, pushing, -⟩ := receive_frame setup taken now order message
        have quiet := accepted_of_poll silent
        exact ⟨quiet, pushing⟩
      · exact ⟨rfl, rfl⟩
      · exact ⟨rfl, rfl⟩
      · exact ⟨rfl, rfl⟩
  | deciding =>
      dsimp only
      split <;> exact ⟨rfl, rfl⟩
  | appending records =>
      cases records with
      | nil => exact ⟨rfl, rfl⟩
      | cons record rest =>
          dsimp only
          rw [Server.append]
          split
          · exact ⟨rfl, rfl⟩
          · dsimp only
            split <;> exact ⟨rfl, rfl⟩
  | stopped => exact ⟨rfl, rfl⟩
  | panicked cause => exact ⟨rfl, rfl⟩

/-- What is accepted was requested, each request once and in their order. -/
theorem requested_step
    (requested : List.Sublist (acceptedCommands log ++ server.pushing.toList)
      (requestedCommands inputs)) (input : ServerInput) :
    List.Sublist (acceptedCommands (log ++ (server.step setup input).2) ++
        (server.step setup input).1.pushing.toList) (requestedCommands (inputs ++ [input])) := by
  have one : requestedCommands (inputs ++ [input]) =
      requestedCommands inputs ++ requestedCommands [input] := List.filterMap_append
  rw [acceptedCommands_append, one]
  cases input with
  | enqueue command =>
      rw [Server.step, Server.enqueue]
      have longer : List.Sublist (acceptedCommands log ++ server.pushing.toList)
          (requestedCommands inputs ++ requestedCommands [.enqueue command]) :=
        requested.trans (List.sublist_append_left _ _)
      split
      · rename_i admitted
        rw [admitted.1] at requested longer
        dsimp only
        split
        · simpa [acceptedCommands, admitted.1] using longer
        · rw [Option.toList_none, List.append_nil] at requested
          simpa [acceptedCommands, requestedCommands] using requested
      · simpa [acceptedCommands] using longer
  | produce =>
      rw [Server.step, Server.produce]
      cases pushing : server.pushing with
      | none =>
          rw [pushing] at requested
          simpa [acceptedCommands, requestedCommands, pushing] using requested
      | some command =>
          rw [pushing] at requested
          dsimp only
          split
          · simpa [acceptedCommands, requestedCommands] using requested
          · simpa [acceptedCommands, requestedCommands] using
              (List.sublist_append_left _ _).trans requested
          · simpa [acceptedCommands, requestedCommands, pushing] using requested
  | work now order =>
      obtain ⟨quiet, pushing⟩ := work_frame setup server now order
      rw [Server.step, quiet, pushing]
      simpa [requestedCommands] using requested
  | shutdown =>
      rw [Server.step, shutDown_frame]
      simpa [acceptedCommands, requestedCommands] using requested

theorem accepted_requested (setup : ServerSetup) {start : Server} (unlocked : start.pushing = none)
    (inputs : List ServerInput) :
    List.Sublist (acceptedCommands (run (step setup) start inputs).2)
      (requestedCommands inputs) := by
  refine (List.sublist_append_left _ (run (step setup) start inputs).1.pushing.toList).trans ?_
  apply run_induction (step setup) (motive := fun before server log =>
    List.Sublist (acceptedCommands log ++ server.pushing.toList) (requestedCommands before))
  · rw [unlocked]
    exact List.Sublist.refl []
  · exact fun before input _ requested => requested_step requested input

/-- Only an overflow stops the thread before it has handled a command. -/
theorem Exchanges.handles_step {config : SymbolConfig} {ids : Nat → TradeId}
    {interestRate markPrice : Decimal128}
    (exchanges : Exchanges setup (.boot config ids interestRate markPrice) inputs server log)
    (handlers : HandlerCommands config.symbol (requestedCommands inputs))
    (slots : setup.ring.maxPayload < 2 ^ 32) (input : ServerInput)
    (drops : (server.step setup input).1.thread.Drops) :
    (server.step setup input).1.thread = .panicked .overflow := by
  obtain ⟨polled, trace, coupled⟩ := exchanges.queue
  have handles := exchanges.handles
  cases input with
  | enqueue command =>
      rw [Server.step, Server.enqueue] at drops ⊢
      revert drops
      split
      · dsimp only
        split <;> exact handles
      · exact handles
  | produce =>
      rw [Server.step, Server.produce] at drops ⊢
      revert drops
      split
      · exact handles
      · dsimp only
        split <;> exact handles
  | shutdown =>
      rw [Server.step, shutDown_frame] at drops ⊢
      exact handles drops
  | work now order =>
      rw [Server.step, Server.work] at drops ⊢
      cases point : server.thread with
      | popping =>
          rw [point] at drops
          have calm : ¬server.thread.Drops := by
            rw [point]
            exact id
          obtain overflows | ⟨command, rest, panic, queue, panics⟩ :=
            coupled.pop_drops point slots drops
          · exact overflows
          have accepted := exchanges.waiting calm trace
          rw [queue] at accepted
          have requested := (List.sublist_append_left _ _).trans exchanges.requested
          rw [accepted] at requested
          let popped : Popped := ⟨command, now, order⟩
          have taken : List.Sublist ((processedInputs log ++ [popped]).map (·.command))
              (requestedCommands inputs) := by
            rw [List.map_append]
            refine .trans (.append_left ?_ _) requested
            exact .cons_cons _ (List.nil_sublist rest)
          have gateway := (handlers.sublist taken).fromGateway
          have earlier : processedInputs log <+: processedInputs log ++ [popped] :=
            List.prefix_append _ _
          obtain ⟨served, ready, -⟩ := CommandLoop.run_serves config ids interestRate markPrice
            (gateway.initial earlier)
          obtain ⟨left, follows, -⟩ := exchanges.keeps.served
          obtain ⟨same, -⟩ := Served.mk.inj (Except.ok.inj (served.symm.trans follows))
          obtain ⟨processes, -⟩ := ready.processOne (gateway.letThrough popped (by simp))
            (gateway.unused (List.prefix_refl _))
          rw [same, ← CommandLoop.agrees_processOne _ panics] at processes
          cases processes
      | deciding =>
          rw [point] at drops
          dsimp only at drops
          split at drops <;> cases drops
      | appending records =>
          rw [point] at drops
          cases records with
          | nil => cases drops
          | cons record rest =>
              dsimp only at drops
              rw [Server.append] at drops
              split at drops
              · rw [point] at drops
                cases drops
              · dsimp only at drops
                split at drops <;> cases drops
      | stopped =>
          rw [point] at drops
          simp [point, ThreadPoint.Drops] at drops
      | panicked cause =>
          rw [point] at handles drops
          simpa [point] using handles (by simpa [point] using drops)

/-- Everything above holds in every schedule of a server that starts with an empty log. -/
theorem exchanges_run {config : SymbolConfig} {ids : Nat → TradeId}
    {interestRate markPrice : Decimal128} {wal : Wal.WalState} (memory : Memory)
    (live : wal.session.isSome) (related : Wal.Related setup.crc wal .empty)
    (counts : Wal.CountsUnflushed wal .empty)
    (slots : setup.ring.maxPayload < 2 ^ 32) (few : inputs.length < 2 ^ 64)
    (handlers : HandlerCommands config.symbol (requestedCommands inputs)) :
    let loop := CommandLoop.boot config ids interestRate markPrice
    let reached := run (step setup) (launch memory loop wal) inputs
    Exchanges setup loop inputs reached.1 reached.2 := by
  intro loop reached
  apply run_induction (step setup) (motive := Exchanges setup loop)
  · exact ⟨⟨_, .nil, coupled_launch setup memory loop wal⟩,
      keeps_launch setup memory live related counts, List.Sublist.refl [],
      fun drops => by cases drops⟩
  · intro before input isPrefix exchanges
    have fewer : (before ++ [input]).length < 2 ^ 64 := lt_of_le_of_lt isPrefix.length_le few
    have earlier : requestedCommands before <+: requestedCommands inputs :=
      ((List.prefix_append _ _).trans isPrefix).filterMap _
    have early := handlers.sublist earlier.sublist
    obtain ⟨polled, trace, coupled⟩ := exchanges.queue
    obtain ⟨next, more, coupledNext⟩ := coupled.step slots input
    refine ⟨⟨next, ?_, coupledNext⟩, exchanges.keeps.step input fewer,
      requested_step exchanges.requested input, exchanges.handles_step early slots input⟩
    rw [List.filterMap_append]
    exact trace.append more

/-- The commands that the thread has handled were requested. -/
theorem Exchanges.handled {only : SymbolId}
    (exchanges : Exchanges setup start inputs server log)
    (handlers : HandlerCommands only (requestedCommands inputs)) :
    HandlerCommands only ((processedInputs log).map (·.command)) := by
  obtain ⟨polled, trace, -⟩ := exchanges.queue
  obtain ⟨stuck, accepted, -⟩ := exchanges.accepted trace
  have requested := exchanges.requested
  rw [accepted, List.append_assoc, List.append_assoc] at requested
  exact handlers.sublist ((List.sublist_append_left _ _).trans requested)

end Run

/-! ## A small server -/

/-- A server with a ring of two short slots, and a log that flushes every second record. -/
def smallSetup : ServerSetup where
  ring := smallRing
  crc := crc32
  commands := .listed (CommandLoop.tradedOnce.map (·.command)) (by decide)
  events := .listed (CommandLoop.traded 3).2 (by decide +kernel)

def bootSmall : Except BootError Server :=
  boot smallSetup MatchingEngine.plainConfig id 0 0 ⟨40, 2⟩ (fun _ => 0) []

/-- A request, and the thread's steps until its records are appended. -/
def requestServed (command : Command) (steps : Nat) : List ServerInput :=
  .enqueue command :: List.replicate 3 .produce ++ List.replicate steps (.work 0 .stored)

/-- Three requests that make a trade, and a shutdown. -/
def tradeAndStop : List ServerInput :=
  (List.zipWith requestServed (CommandLoop.tradedOnce.map (·.command)) [6, 6, 9]).flatten ++
    [.work 0 .stored, .work 0 .stored, .shutdown, .shutdown, .shutdown, .work 0 .stored, .shutdown]

private theorem handlerCommands_tradeAndStop :
    HandlerCommands MatchingEngine.plainConfig.symbol (requestedCommands tradeAndStop) := by
  have same : requestedCommands tradeAndStop = CommandLoop.tradedOnce.map (·.command) := by
    decide +kernel
  rw [same]
  refine ⟨fun command member => ?_, by decide, by decide⟩
  obtain ⟨popped, listed, rfl⟩ := List.mem_map.1 member
  exact CommandLoop.fromGateway_tradedOnce.letThrough popped listed

/-- The small server boots, handles the three requests and stops. -/
theorem bootSmall_trades : ∃ start, bootSmall = .ok start ∧
    let reached := run (step smallSetup) start tradeAndStop
    CommandLoop.engineInputs (processedInputs reached.2) =
        CommandLoop.engineInputs CommandLoop.tradedOnce ∧
      reached.1.thread = .stopped ∧ (appendedRecords reached.2).length = 6 := by
  have runs : bootSmall.toOption.map (fun start =>
      let reached := run (step smallSetup) start tradeAndStop
      (CommandLoop.engineInputs (processedInputs reached.2), reached.1.thread,
        (appendedRecords reached.2).length)) =
      some (CommandLoop.engineInputs CommandLoop.tradedOnce, .stopped, 6) := by decide +kernel
  cases booted : bootSmall with
  | error error =>
      rw [booted] at runs
      cases runs
  | ok start =>
      rw [booted] at runs
      obtain ⟨inputs, rest⟩ := Prod.mk.inj (Option.some.inj runs)
      obtain ⟨thread, records⟩ := Prod.mk.inj rest
      exact ⟨start, rfl, inputs, thread, records⟩

/-- Both boots after a crash of the small server succeed. -/
theorem bootSmall_reboots {start : Server} {writer : Wal.WalWriter} (booted : bootSmall = .ok start)
    (session : (run (step smallSetup) start tradeAndStop).1.wal.session = some writer) :
    let directory := (run (step smallSetup) start tradeAndStop).1.wal.directory
    let rebooted := boot smallSetup MatchingEngine.plainConfig id 0 0 ⟨40, 2⟩ fun _ => 0
    (rebooted (Wal.crash directory writer 5 true)).isOk ∧
      (rebooted (Wal.crash directory writer 0 false)).isOk := by
  have runs : (bootSmall.toOption.bind fun start =>
      let wal := (run (step smallSetup) start tradeAndStop).1.wal
      let rebooted := boot smallSetup MatchingEngine.plainConfig id 0 0 ⟨40, 2⟩ fun _ => 0
      wal.session.map fun writer =>
        ((rebooted (Wal.crash wal.directory writer 5 true)).isOk,
          (rebooted (Wal.crash wal.directory writer 0 false)).isOk)) =
      some (true, true) := by decide +kernel
  rw [booted] at runs
  dsimp only [Except.toOption, Option.bind_some] at runs
  rw [session] at runs
  exact Prod.mk.inj (Option.some.inj runs)

/-! ## Results -/

section Results

variable {setup : ServerSetup} {config : SymbolConfig} {ids : Nat → TradeId}
variable {interestRate markPrice : Decimal128} {walConfig : Wal.WalConfig} {memory : Memory}
variable {start : Server} {inputs : List ServerInput}

theorem exchanges_boot
    (booted : boot setup config ids interestRate markPrice walConfig memory [] = .ok start)
    (slots : setup.ring.maxPayload < 2 ^ 32) (few : inputs.length < 2 ^ 64)
    (handlers : HandlerCommands config.symbol (requestedCommands inputs)) :
    let reached := run (step setup) start inputs
    Exchanges setup (.boot config ids interestRate markPrice) inputs reached.1 reached.2 := by
  obtain ⟨wal, boots, live, related, counts⟩ :=
    boot_empty setup config ids interestRate markPrice walConfig memory
  rw [boots] at booted
  cases booted
  exact exchanges_run memory live related counts slots few handlers

/-- What is accepted is handled or waits, but for one command over which the thread has panicked,
and the loop and the log are those of what is handled. -/
theorem Exchanges.serves {loop : CommandLoop} {server : Server} {log : List ServerEvent}
    (exchanges : Exchanges setup loop inputs server log) :
    (∃ stuck waiting,
      acceptedCommands log = (processedInputs log).map (·.command) ++ stuck ++ waiting ∧
      waiting.length ≤ setup.ring.slotCount ∧ stuck.length ≤ 1 ∧
      (stuck ≠ [] → server.thread = .panicked .overflow)) ∧
    (server.thread.Drops → server.thread = .panicked .overflow) ∧
    ∃ left, follow CommandLoop.serve ⟨loop, []⟩ (processedInputs log) =
        .ok ⟨server.loop, appendedRecords log ++ left⟩ ∧
      server.thread.Leaves setup left := by
  obtain ⟨polled, trace, coupled⟩ := exchanges.queue
  obtain ⟨stuck, accepted, atMost, nothing⟩ := exchanges.accepted trace
  have bound := coupled.ring.bound
  rw [List.length_map] at bound
  refine ⟨⟨stuck, polled.queue, accepted, bound, atMost, fun some => ?_⟩, exchanges.handles,
    exchanges.keeps.served⟩
  by_contra other
  exact some (nothing fun drops => other (exchanges.handles drops))

/-- Whatever the order of the parties' steps, the thread handles the accepted commands in the
order of their acceptance and each of them once, all but those still in the ring and one over
which an operator has overflowed.  The engine, the processor and the log are those of the commands
handled, and only such an overflow or a record that is too large for the log can stop the
thread. -/
theorem exchange_serves
    (booted : boot setup config ids interestRate markPrice walConfig memory [] = .ok start)
    (slots : setup.ring.maxPayload < 2 ^ 32) (few : inputs.length < 2 ^ 64)
    (handlers : HandlerCommands config.symbol (requestedCommands inputs)) :
    let reached := run (step setup) start inputs
    let handled := processedInputs reached.2
    (∃ stuck waiting,
      acceptedCommands reached.2 = handled.map (·.command) ++ stuck ++ waiting ∧
      waiting.length ≤ setup.ring.slotCount ∧ stuck.length ≤ 1 ∧
      (stuck ≠ [] → reached.1.thread = .panicked .overflow)) ∧
    (reached.1.thread.Drops → reached.1.thread = .panicked .overflow) ∧
    ∃ left, follow CommandLoop.serve ⟨.boot config ids interestRate markPrice, []⟩ handled =
        .ok ⟨reached.1.loop, appendedRecords reached.2 ++ left⟩ ∧
      reached.1.thread.Leaves setup left := by
  intro reached handled
  exact (exchanges_boot booted slots few handlers).serves

theorem exchange_serves_small : ∃ start, bootSmall = .ok start ∧
    let reached := run (step smallSetup) start tradeAndStop
    let handled := processedInputs reached.2
    (∃ stuck waiting,
      acceptedCommands reached.2 = handled.map (·.command) ++ stuck ++ waiting ∧
      waiting.length ≤ 2 ∧ stuck.length ≤ 1 ∧
      (stuck ≠ [] → reached.1.thread = .panicked .overflow)) ∧
    (reached.1.thread.Drops → reached.1.thread = .panicked .overflow) ∧
    (∃ left, follow CommandLoop.serve ⟨.boot MatchingEngine.plainConfig id 0 0, []⟩ handled =
        .ok ⟨reached.1.loop, appendedRecords reached.2 ++ left⟩ ∧
      reached.1.thread.Leaves smallSetup left) ∧
    reached.1.thread = .stopped := by
  obtain ⟨start, booted, -, stopped, -⟩ := bootSmall_trades
  obtain ⟨waits, drops, served⟩ :=
    exchange_serves booted (by decide) (by decide) handlerCommands_tradeAndStop
  exact ⟨start, booted, waits, drops, served, stopped⟩

/-- A thread that has stopped has handled all accepted commands but those that were accepted
after it had last found the ring empty, and has appended all their records. -/
theorem shutdown_leaves
    (booted : boot setup config ids interestRate markPrice walConfig memory [] = .ok start)
    (slots : setup.ring.maxPayload < 2 ^ 32) (few : inputs.length < 2 ^ 64)
    (handlers : HandlerCommands config.symbol (requestedCommands inputs))
    (stopped : (run (step setup) start inputs).1.thread = .stopped) :
    let reached := run (step setup) start inputs
    let handled := processedInputs reached.2
    acceptedCommands reached.2 =
        handled.map (·.command) ++ acceptedSinceEmptied setup reached.2 ∧
      follow CommandLoop.serve ⟨.boot config ids interestRate markPrice, []⟩ handled =
        .ok ⟨reached.1.loop, appendedRecords reached.2⟩ := by
  intro reached handled
  have exchanges := exchanges_boot booted slots few handlers
  obtain ⟨polled, trace, coupled⟩ := exchanges.queue
  obtain ⟨left, served, leaves⟩ := exchanges.keeps.served
  rw [stopped] at leaves
  cases leaves
  rw [List.append_nil] at served
  refine ⟨?_, served⟩
  have waits : polled.worker ≠ .polling := by
    rw [coupled.worker, stopped]
    simp [ThreadPoint.worker]
  have calm : ¬reached.1.thread.Drops := by
    rw [stopped]
    exact id
  rw [exchanges.waiting calm trace, left_since_emptied trace waits]
  rfl

theorem shutdown_leaves_small : ∃ start, bootSmall = .ok start ∧
    let reached := run (step smallSetup) start tradeAndStop
    let handled := processedInputs reached.2
    acceptedCommands reached.2 =
        handled.map (·.command) ++ acceptedSinceEmptied smallSetup reached.2 ∧
      follow CommandLoop.serve ⟨.boot MatchingEngine.plainConfig id 0 0, []⟩ handled =
        .ok ⟨reached.1.loop, appendedRecords reached.2⟩ := by
  obtain ⟨start, booted, -, stopped, -⟩ := bootSmall_trades
  exact ⟨start, booted,
    shutdown_leaves booted (by decide) (by decide) handlerCommands_tradeAndStop stopped⟩

/-- The last request comes between the thread's look at the ring and its look at the flag. -/
def lastRequest (command : Command) : List ServerInput :=
  [.enqueue command, .produce, .produce, .produce, .shutdown, .shutdown, .shutdown,
    .work 0 .stored, .shutdown]

private theorem run_lastRequest {server : Server} {command : Command}
    (deciding : server.thread = .deciding) (free : server.pushing = none)
    (running : server.shutdown = .running)
    (room : (server.ring.tail - server.ring.head).toNat < setup.ring.slotCount)
    (fits : (setup.commands.toBytes command).length ≤ setup.ring.maxPayload) :
    let reached := run (step setup) server (lastRequest command)
    reached.2 = [.accepted command, .stopped] ∧ reached.1.shutdown = .joined := by
  obtain ⟨ring, pushing, thread, loop, wal, shutdown⟩ := server
  cases deciding
  cases free
  cases running
  have small : ¬(setup.commands.toBytes command).length > setup.ring.maxPayload := Nat.not_lt.2 fits
  have admitted : ¬(ring.tail - ring.head).toNat ≥ setup.ring.slotCount := Nat.not_le.2 room
  simp [lastRequest, run, step, enqueue, RingBuffer.tryPush, produce, RingBuffer.produce, shutDown,
    work, ShutdownPhase.admits, ShutdownPhase.flag, small, admitted]

/-- Whenever the thread has found the ring empty and has not read the flag yet, a command may
still be accepted, both servers stopped and the thread joined without handling it. -/
theorem shutdown_loses {command : Command}
    (booted : boot setup config ids interestRate markPrice walConfig memory [] = .ok start)
    (slots : setup.ring.maxPayload < 2 ^ 32) (few : inputs.length < 2 ^ 64)
    (handlers : HandlerCommands config.symbol (requestedCommands inputs))
    (deciding : (run (step setup) start inputs).1.thread = .deciding)
    (free : (run (step setup) start inputs).1.pushing = none)
    (running : (run (step setup) start inputs).1.shutdown = .running)
    (room : (acceptedSinceEmptied setup (run (step setup) start inputs).2).length <
      setup.ring.slotCount)
    (fits : (setup.commands.toBytes command).length ≤ setup.ring.maxPayload) :
    let reached := run (step setup) start inputs
    let later := run (step setup) start (inputs ++ lastRequest command)
    later.1.shutdown = .joined ∧
      acceptedCommands later.2 = acceptedCommands reached.2 ++ [command] ∧
      processedInputs later.2 = processedInputs reached.2 := by
  intro reached later
  have exchanges := exchanges_boot booted slots few handlers
  obtain ⟨polled, trace, coupled⟩ := exchanges.queue
  have waits : polled.worker ≠ .polling := by
    rw [coupled.worker, deciding]
    simp [ThreadPoint.worker]
  have queue : polled.queue = acceptedSinceEmptied setup reached.2 := left_since_emptied trace waits
  have inFlight := coupled.ring.inFlight
  rw [List.length_map, queue] at inFlight
  rw [← inFlight] at room
  obtain ⟨events, joined⟩ := run_lastRequest deciding free running room fits
  have split : later = _ := run_append (step setup) start inputs (lastRequest command)
  rw [split, acceptedCommands_append, processedInputs_append, events]
  exact ⟨joined, rfl, List.append_nil _⟩

/-- The first request comes when the thread has just looked. -/
theorem shutdown_loses_small : ∃ start, bootSmall = .ok start ∧
    let command : Command := .adminCredit 8 (.ofInt 100) (adminCreditKey 8 0 0) 0
    let looks := [ServerInput.work 0 .stored, .work 0 .stored]
    let reached := run (step smallSetup) start looks
    let later := run (step smallSetup) start (looks ++ lastRequest command)
    later.1.shutdown = .joined ∧
      acceptedCommands later.2 = acceptedCommands reached.2 ++ [command] ∧
      processedInputs later.2 = processedInputs reached.2 := by
  let looks := [ServerInput.work 0 .stored, .work 0 .stored]
  have runs : bootSmall.toOption.map (fun start =>
      let reached := run (step smallSetup) start looks
      (reached.1.thread, reached.1.pushing, reached.1.shutdown,
        acceptedSinceEmptied smallSetup reached.2)) =
      some (.deciding, none, .running, []) := by decide +kernel
  obtain ⟨start, booted, -⟩ := bootSmall_trades
  rw [booted] at runs
  obtain ⟨thread, rest⟩ := Prod.mk.inj (Option.some.inj runs)
  obtain ⟨pushing, rest⟩ := Prod.mk.inj rest
  obtain ⟨shutdown, accepted⟩ := Prod.mk.inj rest
  refine ⟨start, booted, shutdown_loses booted (by decide) (by decide)
    ⟨by simp [requestedCommands], by decide, by decide⟩ thread pushing shutdown ?_
    (by decide)⟩
  exact lt_of_le_of_lt (Nat.le_of_eq (congrArg List.length accepted)) (by decide)

/-! ## The next boot -/

/-- A log whose steps can be replayed is replayed by an engine with other trade ids. -/
theorem engine_replays {handled : List Popped} (replayIds : Nat → TradeId)
    (distinct : (MatchingEngine.newOrderIds (CommandLoop.engineInputs handled)).Nodup)
    (replayable : StepsMeet MatchingEngine.step MatchingEngine.Replayable
      (CommandLoop.boot config ids interestRate markPrice).engine
      (CommandLoop.engineInputs handled)) :
    ∃ replayed, follow MatchingEngine.applyEvent
      (CommandLoop.boot config replayIds interestRate markPrice).engine
      (run CommandLoop.processed (.boot config ids interestRate markPrice) handled).2 =
        .ok replayed := by
  let live := (CommandLoop.boot config ids interestRate markPrice).engine
  let replaying := (CommandLoop.boot config replayIds interestRate markPrice).engine
  have sound : live.Sound [] := OrdersSound.new config.symbol
  have covers : live.CoveredBy [] replaying := by
    have bare := MatchingEngine.coveredBy_new config ids replayIds interestRate
    exact ⟨⟨bare.apart, bare.nodup, bare.bookUsed, bare.stopsUsed, bare.stopsSeen⟩, bare.resting,
      bare.waiting⟩
  obtain ⟨replayed, replays, -⟩ := MatchingEngine.replay_run sound covers distinct replayable
  exact ⟨replayed, (CommandLoop.follow_engine _ _ handled).trans replays⟩

/-- A crash leaves a log on which a boot succeeds when the engine can replay it, unless an operator
overflows. -/
theorem Exchanges.restarts {loop : CommandLoop} {server : Server} {log : List ServerEvent}
    (exchanges : Exchanges setup loop inputs server log) (few : inputs.length < 2 ^ 64)
    {replayIds : Nat → TradeId} {left : List Event} {engine : MatchingEngine}
    (replays : follow MatchingEngine.applyEvent
      (CommandLoop.boot config replayIds interestRate markPrice).engine
      (appendedRecords log ++ left) = .ok engine)
    (cut : Nat) (missing : Bool) (nextConfig : Wal.WalConfig) (nextMemory : Memory) :
    ∃ writer kept, server.wal.session = some writer ∧
      kept <+: appendedRecords log ∧
      (appendedRecords log).length < kept.length + max 1 writer.config.flushEveryN ∧
      (server.thread = .stopped → kept = appendedRecords log) ∧
      let rebooted := boot setup config replayIds interestRate markPrice nextConfig nextMemory
        (Wal.crash server.wal.directory writer cut missing)
      (rebooted = .error (.panicked .overflow) ∨ ∃ restarted, rebooted = .ok restarted ∧
        follow MatchingEngine.applyEvent
            (CommandLoop.boot config replayIds interestRate markPrice).engine kept =
          .ok restarted.loop.engine ∧
        follow applyEvent .new kept = .ok restarted.loop.postTrade) := by
  obtain ⟨durable, related, counts, survived, stored, flushed⟩ := exchanges.keeps.stored
  obtain ⟨writer, session⟩ := Option.isSome_iff_exists.1 exchanges.keeps.live
  have wal : server.wal = ⟨server.wal.directory, some writer⟩ := by rw [← session]
  rw [wal] at related counts
  have payloads : durable.payloads = (appendedRecords log).map setup.events.toBytes := by
    rw [Wal.DurableLog.payloads, survived, stored, List.nil_append]
  have count := lt_of_le_of_lt exchanges.keeps.count few
  have bound : durable.payloads.length < 2 ^ 64 := by rwa [payloads, List.length_map]
  obtain ⟨found, onDisk, isPrefix, enough, loss⟩ := related.crashed counts bound cut missing
  rw [payloads] at isPrefix loss
  rw [survived, List.length_nil, Nat.zero_add] at enough
  rw [List.length_map] at loss
  let kept := (appendedRecords log).take found.length
  have sameBytes : found = kept.map setup.events.toBytes := by
    rw [List.map_take]
    exact List.prefix_iff_eq_take.1 isPrefix
  have length : found.length = kept.length := by rw [sameBytes, List.length_map]
  have keptPrefix : kept <+: appendedRecords log := List.take_prefix _ _
  rw [← List.take_append_drop found.length (appendedRecords log), List.append_assoc] at replays
  obtain ⟨restored, early, -⟩ := follow_append_ok replays
  rw [sameBytes] at onDisk
  obtain ⟨postTrade, followed, boots⟩ := boot_stored kept onDisk
    (lt_of_le_of_lt keptPrefix.length_le count) early nextConfig nextMemory
  refine ⟨writer, kept, session, keptPrefix, by rwa [← length], fun stopped => ?_, ?_⟩
  · apply keptPrefix.eq_of_length_le
    rw [flushed stopped, stored, List.length_map, length] at enough
    exact enough
  · obtain overflows | ⟨wal, boots⟩ := boots
    · exact Or.inl overflows
    · exact Or.inr ⟨_, boots, early, followed⟩

/-- Whenever the process crashes and whatever of the writer's buffer reaches the disk, the next
boot reads a prefix of the records that were appended, of which it misses fewer than
`flush_every_n`, and none once the thread has stopped.  Unless an operator overflows, it succeeds
and restores what these records lead to. -/
theorem crash_boots
    (booted : boot setup config ids interestRate markPrice walConfig memory [] = .ok start)
    (slots : setup.ring.maxPayload < 2 ^ 32) (few : inputs.length < 2 ^ 64)
    (handlers : HandlerCommands config.symbol (requestedCommands inputs))
    (replayable : StepsMeet MatchingEngine.step MatchingEngine.Replayable
      (CommandLoop.boot config ids interestRate markPrice).engine
      (CommandLoop.engineInputs (processedInputs (run (step setup) start inputs).2)))
    (cut : Nat) (missing : Bool) (replayIds : Nat → TradeId) (nextConfig : Wal.WalConfig)
    (nextMemory : Memory) :
    let reached := run (step setup) start inputs
    let appended := appendedRecords reached.2
    ∃ writer kept, reached.1.wal.session = some writer ∧
      kept <+: appended ∧ appended.length < kept.length + max 1 writer.config.flushEveryN ∧
      (reached.1.thread = .stopped → kept = appended) ∧
      let rebooted := boot setup config replayIds interestRate markPrice nextConfig nextMemory
        (Wal.crash reached.1.wal.directory writer cut missing)
      (rebooted = .error (.panicked .overflow) ∨ ∃ restarted, rebooted = .ok restarted ∧
        follow MatchingEngine.applyEvent
            (CommandLoop.boot config replayIds interestRate markPrice).engine kept =
          .ok restarted.loop.engine ∧
        follow applyEvent .new kept = .ok restarted.loop.postTrade) := by
  intro reached appended
  have exchanges := exchanges_boot booted slots few handlers
  have known := exchanges.handled handlers
  obtain ⟨left, served, -⟩ := exchanges.keeps.served
  obtain ⟨follows, -⟩ :=
    CommandLoop.run_serves config ids interestRate markPrice known.fromGateway
  obtain ⟨-, records⟩ := Served.mk.inj (Except.ok.inj (follows.symm.trans served))
  obtain ⟨replayed, replays⟩ := engine_replays replayIds known.distinctNewOrders replayable
  rw [records] at replays
  exact exchanges.restarts few replays cut missing nextConfig nextMemory

theorem crash_boots_small : ∃ start, bootSmall = .ok start ∧
    let reached := run (step smallSetup) start tradeAndStop
    let appended := appendedRecords reached.2
    ∃ writer kept, reached.1.wal.session = some writer ∧
      kept <+: appended ∧ appended.length < kept.length + max 1 writer.config.flushEveryN ∧
      (reached.1.thread = .stopped → kept = appended) ∧
      let rebooted := boot smallSetup MatchingEngine.plainConfig id 0 0 ⟨40, 2⟩ (fun _ => 0)
        (Wal.crash reached.1.wal.directory writer 5 true)
      (rebooted = .error (.panicked .overflow) ∨ ∃ restarted, rebooted = .ok restarted ∧
        follow MatchingEngine.applyEvent
            (CommandLoop.boot MatchingEngine.plainConfig id 0 0).engine kept =
          .ok restarted.loop.engine ∧
        follow applyEvent .new kept = .ok restarted.loop.postTrade) ∧
      rebooted.isOk := by
  obtain ⟨start, booted, handled, -⟩ := bootSmall_trades
  have replayable := CommandLoop.replayable_tradedOnce
  rw [← handled] at replayable
  obtain ⟨writer, kept, session, early, enough, whole, boots⟩ := crash_boots booted (by decide)
    (by decide) handlerCommands_tradeAndStop (replayable.mono fun _ _ both => both.2) 5 true id
    ⟨40, 2⟩ fun _ => 0
  exact ⟨start, booted, writer, kept, session, early, enough, whole, boots,
    (bootSmall_reboots booted session).1⟩

/-- After a shutdown nothing is missing: unless an operator overflows, the next boot restores an
engine that is equivalent to the one that was stopped, and a processor that can take the other's
place. -/
theorem shutdown_restores
    (booted : boot setup config ids interestRate markPrice walConfig memory [] = .ok start)
    (slots : setup.ring.maxPayload < 2 ^ 32) (few : inputs.length < 2 ^ 64)
    (handlers : HandlerCommands config.symbol (requestedCommands inputs))
    (recorded : StepsMeet MatchingEngine.step
      (fun engine input => engine.Recorded input ∧ engine.Replayable input)
      (CommandLoop.boot config ids interestRate markPrice).engine
      (CommandLoop.engineInputs (processedInputs (run (step setup) start inputs).2)))
    (stopped : (run (step setup) start inputs).1.thread = .stopped)
    (cut : Nat) (missing : Bool) (replayIds : Nat → TradeId) (nextConfig : Wal.WalConfig)
    (nextMemory : Memory) :
    let reached := run (step setup) start inputs
    ∃ writer, reached.1.wal.session = some writer ∧
      let rebooted := boot setup config replayIds interestRate markPrice nextConfig nextMemory
        (Wal.crash reached.1.wal.directory writer cut missing)
      (rebooted = .error (.panicked .overflow) ∨ ∃ restarted, rebooted = .ok restarted ∧
        reached.1.loop.engine.Equivalent restarted.loop.engine ∧
        Twin (CommandLoop.creditKeys (processedInputs reached.2)) config.symbol
          reached.1.loop.postTrade restarted.loop.postTrade) := by
  intro reached
  have exchanges := exchanges_boot booted slots few handlers
  have known := exchanges.handled handlers
  obtain ⟨left, served, leaves⟩ := exchanges.keeps.served
  rw [stopped] at leaves
  cases leaves
  obtain ⟨follows, -, clearing, cleared, twin⟩ :=
    CommandLoop.run_serves config ids interestRate markPrice known.fromGateway
  obtain ⟨loop, records⟩ := Served.mk.inj (Except.ok.inj (follows.symm.trans served))
  obtain ⟨engine, replays, equivalent⟩ := CommandLoop.run_engineReplays config ids replayIds
    interestRate markPrice known.distinctNewOrders recorded
  rw [records] at replays cleared
  rw [loop] at twin equivalent
  obtain ⟨writer, kept, session, -, -, whole, boots⟩ :=
    exchanges.restarts few replays cut missing nextConfig nextMemory
  refine ⟨writer, session, boots.imp_right ?_⟩
  rintro ⟨restarted, booted, engineReplays, postTradeReplays⟩
  rw [List.append_nil] at replays cleared
  rw [whole stopped] at engineReplays postTradeReplays
  cases replays.symm.trans engineReplays
  cases cleared.symm.trans postTradeReplays
  exact ⟨restarted, booted, equivalent, twin⟩

theorem shutdown_restores_small : ∃ start, bootSmall = .ok start ∧
    let reached := run (step smallSetup) start tradeAndStop
    ∃ writer, reached.1.wal.session = some writer ∧
      let rebooted := boot smallSetup MatchingEngine.plainConfig id 0 0 ⟨40, 2⟩ (fun _ => 0)
        (Wal.crash reached.1.wal.directory writer 0 false)
      (rebooted = .error (.panicked .overflow) ∨ ∃ restarted, rebooted = .ok restarted ∧
        reached.1.loop.engine.Equivalent restarted.loop.engine ∧
        Twin (CommandLoop.creditKeys (processedInputs reached.2))
          MatchingEngine.plainConfig.symbol reached.1.loop.postTrade
          restarted.loop.postTrade) ∧
      rebooted.isOk := by
  obtain ⟨start, booted, handled, stopped, -⟩ := bootSmall_trades
  have recorded := CommandLoop.replayable_tradedOnce
  rw [← handled] at recorded
  obtain ⟨writer, session, boots⟩ := shutdown_restores booted (by decide) (by decide)
    handlerCommands_tradeAndStop recorded stopped 0 false id ⟨40, 2⟩ fun _ => 0
  exact ⟨start, booted, writer, session, boots, (bootSmall_reboots booted session).2⟩

end Results
end Server
end Exg
