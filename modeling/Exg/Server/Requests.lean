import Exg.Config.Tiers
import Exg.Server.Site

/-!
# From a request to the log

Every run of the process is a run of its server on some schedule, whose commands come from
handlers.  So what holds of the server in every schedule holds of the process for all requests:
each answer 200 is one command that its request is entitled to and that is handled once
(`site_serves`), and no two commands carry the same identifier, credit key or clientOrderId of a
user (`identifiers_differ`).
-/

namespace Exg

open Support Gateway SnowflakeGen

/-- The clock readings of a run are those of the years for which identifiers are made. -/
def SiteInput.ReadsClock {Task : Type} : SiteInput Task → Prop
  | .clock _ nowMs => InClock nowMs
  | _ => True

namespace Site

variable {Task : Type}

/-- A task is answered 200 for a command, to which a request of this task is entitled. -/
def Serves (config : GatewayConfig) (inputs : List (SiteInput Task)) (command : Command)
    (served : Task × Ack) : Prop :=
  Answers command served.2 ∧
    ∃ request, .begin served.1 request ∈ inputs ∧ request.Authorizes config command

theorem Serves.mono {config : GatewayConfig} {inputs later : List (SiteInput Task)}
    {command : Command} {served : Task × Ack} (more : inputs ⊆ later)
    (serves : Serves config inputs command served) : Serves config later command served := by
  obtain ⟨answers, request, came, authorizes⟩ := serves
  exact ⟨answers, request, more came, authorizes⟩

/-- A run of the process so far, and the schedule of its server. -/
structure SiteHolds (setup : SiteSetup) (only : SymbolId) (earlier : List ClientOrderRow)
    (start : Server) (schedule : List ServerInput) (inputs : List (SiteInput Task))
    (site : Site Task) (log : List (SiteEvent Task)) : Prop where
  server : run (Server.step setup.server) start schedule = (site.server, serverEvents log)
  short : schedule.length ≤ inputs.length
  handlers : HandlersHold setup.gen only earlier inputs.length (requestedCommands schedule)
    (appEvents log) site.app
  origin : ∀ task,
    (site.app.point task).From setup.gateway fun request => .begin task request ∈ inputs
  lock : site.holder = none ∧ site.server.pushing = none ∨
    ∃ task ack command, site.holder = some (task, ack) ∧ site.server.pushing = some command ∧
      Serves setup.gateway inputs command (task, ack) ∧ site.app.point task = .pushing
  answers : List.Forall₂ (Serves setup.gateway inputs) (acceptedCommands (serverEvents log))
    (acks (appEvents log))

variable [DecidableEq Task] {setup : SiteSetup} {only : SymbolId} {earlier : List ClientOrderRow}
variable {start : Server} {schedule : List ServerInput} {inputs : List (SiteInput Task)}
variable {site : Site Task} {log : List (SiteEvent Task)}

namespace SiteHolds

private theorem acks_of_answers {app : AppState Task} {task : Task} {command : Command} {ack : Ack}
    (answers : Answers command ack) : acks (app.reply task (.ok ack)).2 = [(task, ack)] := by
  cases ack with
  | registered userId email => cases command <;> cases answers
  | _ => rfl

omit [DecidableEq Task] in
/-- A step of a task alone. -/
theorem onApp (holds : SiteHolds setup only earlier start schedule inputs site log)
    (input : SiteInput Task) (stepped : AppState Task × List (AppEvent Task)) {task : Task}
    {arrival : Option Request} (arrives : ∀ request ∈ arrival, input = .begin task request)
    (kept : HandlersHold setup.gen only earlier (inputs.length + 1) (requestedCommands schedule)
      (appEvents log ++ stepped.2) stepped.1)
    (advances : Advances setup.gateway task arrival site.app stepped.1 stepped.2) :
    SiteHolds setup only earlier start schedule (inputs ++ [input]) (site.onApp stepped).1
      (log ++ (site.onApp stepped).2) where
  server := by
    rw [serverEvents_append, Site.onApp, serverEvents_app, List.append_nil]
    exact holds.server
  short := by
    rw [List.length_append]
    exact Nat.le_succ_of_le holds.short
  handlers := by
    rw [appEvents_append, Site.onApp, appEvents_app, List.length_append]
    exact kept
  origin tested := by
    have came : ∀ request, SiteInput.begin tested request ∈ inputs →
        SiteInput.begin tested request ∈ inputs ++ [input] :=
      fun _ => List.mem_append_left _
    have origin := (holds.origin tested).mono came
    by_cases same : tested = task
    · subst same
      rcases advances.goes with still | goes
      · exact still ▸ origin
      · exact from_goes goes (fun request here => by simp [arrives request here]) origin
    · exact advances.others tested same ▸ origin
  lock := by
    rcases holds.lock with free | ⟨task, ack, command, holder, pushing, serves, point⟩
    · exact Or.inl free
    · exact Or.inr ⟨task, ack, command, holder, pushing,
        serves.mono (List.subset_append_left _ _), advances.pushing point⟩
  answers := by
    rw [serverEvents_append, appEvents_append, Site.onApp, serverEvents_app, appEvents_app,
      List.append_nil, acks_append, advances.acks, List.append_nil]
    exact holds.answers.imp fun _ _ serves => serves.mono (List.subset_append_left _ _)

omit [DecidableEq Task] in
theorem silent (holds : SiteHolds setup only earlier start schedule inputs site log)
    (input : SiteInput Task) :
    SiteHolds setup only earlier start schedule (inputs ++ [input]) site (log ++ []) := by
  have came : inputs ⊆ inputs ++ [input] := List.subset_append_left _ _
  rw [List.append_nil]
  exact { holds with
    short := by
      rw [List.length_append]
      exact Nat.le_succ_of_le holds.short
    handlers := by
      rw [List.length_append]
      exact holds.handlers.mono (Nat.le_succ _)
    origin := fun task => (holds.origin task).mono fun _ member => came member
    lock := holds.lock.imp_right fun ⟨task, ack, command, holder, pushing, serves, point⟩ =>
      ⟨task, ack, command, holder, pushing, serves.mono came, point⟩
    answers := holds.answers.imp fun _ _ serves => serves.mono came }

omit [DecidableEq Task] in
/-- A step of the server, and what a task does with it. -/
theorem onBoth (holds : SiteHolds setup only earlier start schedule inputs site log)
    (input : SiteInput Task) (scheduled : ServerInput) (next : Site Task)
    (events : List ServerEvent) (replies : List (AppEvent Task))
    (stepped : site.server.step setup.server scheduled = (next.server, events))
    (kept : HandlersHold setup.gen only earlier (inputs.length + 1)
      (requestedCommands schedule ++ requestedCommands [scheduled]) (appEvents log ++ replies)
      next.app)
    (origin : ∀ task,
      (next.app.point task).From setup.gateway fun request => .begin task request ∈ inputs)
    (lock : next.holder = none ∧ next.server.pushing = none ∨
      ∃ task ack command, next.holder = some (task, ack) ∧ next.server.pushing = some command ∧
        Serves setup.gateway inputs command (task, ack) ∧ next.app.point task = .pushing)
    (answers : List.Forall₂ (Serves setup.gateway inputs) (acceptedCommands events)
      (acks replies)) :
    SiteHolds setup only earlier start (schedule ++ [scheduled]) (inputs ++ [input]) next
      (log ++ (events.map .server ++ replies.map .app)) where
  server := by
    rw [run_concat, holds.server, stepped, serverEvents_append, serverEvents_append,
      serverEvents_server, serverEvents_app, List.append_nil]
  short := by
    rw [List.length_append, List.length_append]
    exact Nat.succ_le_succ holds.short
  handlers := by
    have requested : requestedCommands (schedule ++ [scheduled]) =
        requestedCommands schedule ++ requestedCommands [scheduled] := List.filterMap_append
    rw [appEvents_append, appEvents_append, appEvents_server, appEvents_app, List.nil_append,
      List.length_append, requested]
    exact kept
  origin task := (origin task).mono fun _ member => List.mem_append_left _ member
  lock := lock.imp_right fun ⟨task, ack, command, holder, pushing, serves, point⟩ =>
    ⟨task, ack, command, holder, pushing, serves.mono (List.subset_append_left _ _), point⟩
  answers := by
    rw [serverEvents_append, serverEvents_append, appEvents_append, appEvents_append,
      serverEvents_server, serverEvents_app, appEvents_server, appEvents_app, List.append_nil,
      List.nil_append, Server.acceptedCommands_append, acks_append]
    have all := List.rel_append holds.answers answers
    exact all.imp fun _ _ serves => serves.mono (List.subset_append_left _ _)

omit [DecidableEq Task] in
/-- A step of the matching thread, or of `shutdown`. -/
theorem onServer (holds : SiteHolds setup only earlier start schedule inputs site log)
    (input : SiteInput Task) (scheduled : ServerInput)
    (requests : requestedCommands [scheduled] = [])
    (quiet : acceptedCommands (site.server.step setup.server scheduled).2 = [] ∧
      (site.server.step setup.server scheduled).1.pushing = site.server.pushing) :
    SiteHolds setup only earlier start (schedule ++ [scheduled]) (inputs ++ [input])
      (site.onServer (site.server.step setup.server scheduled)).1
      (log ++ (site.onServer (site.server.step setup.server scheduled)).2) := by
  have both := holds.onBoth input scheduled
    { site with server := (site.server.step setup.server scheduled).1 }
    (site.server.step setup.server scheduled).2 [] rfl ?_ holds.origin ?_ ?_
  · rwa [List.map_nil, List.append_nil] at both
  · rw [requests, List.append_nil, List.append_nil]
    exact holds.handlers.mono (Nat.le_succ _)
  · dsimp only
    rw [quiet.2]
    exact holds.lock
  · rw [quiet.1]
    exact .nil

/-- A task brings its command to the ring. -/
theorem send (holds : SiteHolds setup only earlier start schedule inputs site log) (task : Task) :
    ∃ schedule, SiteHolds setup only earlier start schedule (inputs ++ [.send task])
      (site.send setup task).1 (log ++ (site.send setup task).2) := by
  rw [Site.send]
  cases point : site.app.point task with
  | sending command ack =>
      dsimp only
      split
      · rename_i free
        have sound := holds.handlers.sound task
        rw [point] at sound
        have sent := (holds.handlers.send point).mono (Nat.le_succ _)
        have origin := holds.origin task
        rw [point] at origin
        have origins := from_move holds.origin task .pushing trivial
        refine ⟨schedule ++ [.enqueue command], ?_⟩
        rcases site.server.enqueue_cases setup.server free with
          ⟨error, refused, unlocked⟩ | ⟨quiet, locked⟩
        · have busy : (site.app.move task .pushing).point task ≠ .answered := by simp
          rw [refused]
          exact holds.onBoth (.send task) (.enqueue command) ⟨_, _, none⟩ _ _
            (Prod.ext rfl refused) (sent.reply busy (.error error))
            (from_move origins task .answered trivial) (Or.inl ⟨rfl, unlocked⟩) .nil
        · rw [quiet]
          dsimp only
          have both := holds.onBoth (.send task) (.enqueue command)
            ⟨site.app.move task .pushing, (site.server.enqueue setup.server command).1,
              some (task, ack)⟩ [] [] (Prod.ext rfl quiet) ?_ origins ?_ .nil
          · exact both
          · rw [List.append_nil]
            exact sent
          · exact Or.inr ⟨task, ack, command, rfl, locked, ⟨sound.2, origin⟩, by simp⟩
      · exact ⟨schedule, holds.silent _⟩
  | _ => exact ⟨schedule, holds.silent _⟩

/-- The call in progress goes on, or its request is answered. -/
theorem produce (holds : SiteHolds setup only earlier start schedule inputs site log) :
    ∃ schedule, SiteHolds setup only earlier start schedule (inputs ++ [.produce])
      (site.produce setup).1 (log ++ (site.produce setup).2) := by
  rw [Site.produce]
  rcases holds.lock with ⟨free, -⟩ | ⟨task, ack, command, holder, pushing, serves, point⟩
  · rw [free]
    exact ⟨schedule, holds.silent _⟩
  · rw [holder]
    dsimp only
    have busy : site.app.point task ≠ .answered := by simp [point]
    have handlers : HandlersHold setup.gen only earlier (inputs.length + 1)
        (requestedCommands schedule ++ requestedCommands [.produce]) (appEvents log) site.app := by
      rw [show requestedCommands [.produce] = [] from rfl, List.append_nil]
      exact holds.handlers.mono (Nat.le_succ _)
    have origins := from_move holds.origin task .answered trivial
    refine ⟨schedule ++ [.produce], ?_⟩
    rcases site.server.produce_calls setup.server pushing with
      ⟨quiet, locked⟩ | ⟨unlocked, accepted | ⟨error, refused⟩⟩
    · rw [quiet]
      dsimp only
      have both := holds.onBoth .produce .produce
        ⟨site.app, (site.server.produce setup.server).1, some (task, ack)⟩ [] []
        (Prod.ext rfl quiet) ?_ holds.origin ?_ .nil
      · exact both
      · rw [List.append_nil]
        exact handlers
      · exact Or.inr ⟨task, ack, command, rfl, locked, serves, point⟩
    · rw [accepted]
      have shown : acks (site.app.reply task (.ok ack)).2 = [(task, ack)] :=
        acks_of_answers serves.1
      refine holds.onBoth .produce .produce ⟨_, _, none⟩ _ _ (Prod.ext rfl accepted)
        (handlers.reply busy (.ok ack)) origins (Or.inl ⟨rfl, unlocked⟩) ?_
      rw [shown]
      exact .cons serves .nil
    · rw [refused]
      exact holds.onBoth .produce .produce ⟨_, _, none⟩ _ _ (Prod.ext rfl refused)
        (handlers.reply busy (.error error)) origins (Or.inl ⟨rfl, unlocked⟩) .nil

/-- One step of any party. -/
theorem step {entry : SymbolConfigEntry} (one : setup.gateway.symbols = [entry])
    (input : SiteInput Task) (inClock : input.ReadsClock) (few : inputs.length + 1 < 2 ^ 64)
    (holds : SiteHolds setup entry.id earlier start schedule inputs site log) :
    ∃ schedule, SiteHolds setup entry.id earlier start schedule (inputs ++ [input])
      (site.step setup input).1 (log ++ (site.step setup input).2) := by
  have handlers := holds.handlers.mono (Nat.le_succ _)
  cases input with
  | begin task request =>
      exact ⟨schedule, holds.onApp _ _ (fun other same => by cases same; rfl)
        (holds.handlers.begin one few request) (advances_begin request)⟩
  | claim task available =>
      exact ⟨schedule, holds.onApp _ _ (by simp) (handlers.claim one available)
        (advances_claim available)⟩
  | clock task nowMs =>
      exact ⟨schedule, holds.onApp _ _ (by simp) (handlers.clock inClock)
        (advances_clock setup.gen nowMs)⟩
  | convert task ts =>
      exact ⟨schedule, holds.onApp _ _ (by simp) (handlers.convert ts) (advances_convert ts)⟩
  | store task available =>
      exact ⟨schedule, holds.onApp _ _ (by simp) (handlers.store available)
        (advances_store available)⟩
  | send task => exact holds.send task
  | produce => exact holds.produce
  | work now order =>
      exact ⟨_, holds.onServer _ (.work now order) rfl
        (Server.work_frame setup.server site.server now order)⟩
  | shutdown =>
      refine ⟨_, holds.onServer _ .shutdown rfl ⟨rfl, ?_⟩⟩
      rw [Server.step, Server.shutDown_frame]

end SiteHolds

omit [DecidableEq Task] in
private theorem siteHolds_launch (clientOrders : List ClientOrderRow)
    (users : List (String × Int64)) (unlocked : start.pushing = none) :
    SiteHolds setup only clientOrders start [] [] (launch start clientOrders users)
      ([] : List (SiteEvent Task)) where
  server := rfl
  short := Nat.le_refl 0
  handlers := {
    letThrough := fun _ member => absurd member List.not_mem_nil
    sound := fun _ => trivial
    turns := fun _ => trivial
    bounded := show ((0 : UInt64) >>> seqBits).toNat < snowflakeEpochMs.toNat + 2 ^ 41 by decide
    ids := .start fun _ => rfl
    counted := Nat.le_refl 0
    credits := .start fun _ => rfl
    kept := List.Subset.refl _
    clientOrders := .start fun _ => rfl
    once := List.nodup_nil
    done := fun _ member => absurd member List.not_mem_nil }
  origin _ := trivial
  lock := Or.inl ⟨rfl, unlocked⟩
  answers := .nil

private theorem siteHolds_run {entry : SymbolConfigEntry} (one : setup.gateway.symbols = [entry])
    (clientOrders : List ClientOrderRow) (users : List (String × Int64))
    (unlocked : start.pushing = none) (inClock : ∀ input ∈ inputs, input.ReadsClock)
    (few : inputs.length < 2 ^ 64) :
    let reached := run (step setup) (launch start clientOrders users) inputs
    ∃ schedule,
      SiteHolds setup entry.id clientOrders start schedule inputs reached.1 reached.2 := by
  intro reached
  apply run_induction (step setup) (motive := fun before site log =>
    ∃ schedule, SiteHolds setup entry.id clientOrders start schedule before site log)
  · exact ⟨[], siteHolds_launch clientOrders users unlocked⟩
  · rintro before input isPrefix ⟨schedule, holds⟩
    have fewer := isPrefix.length_le
    rw [List.length_append] at fewer
    exact holds.step one input (inClock input (isPrefix.subset (by simp)))
      (lt_of_le_of_lt fewer few)

omit [DecidableEq Task] in
/-- The commands that the handlers bring to the ring are those that the server is made for. -/
theorem SiteHolds.handlerCommands
    (holds : SiteHolds setup only earlier start schedule inputs site log) :
    HandlerCommands only (requestedCommands schedule) where
  letThrough := holds.handlers.letThrough
  distinctCredits := holds.handlers.credits.spentOnce
  distinctOrders := (List.nodup_append.1 holds.handlers.ids.spentOnce).1

/-! ## A small process -/

def smallConfig : FullSymbolConfig := parsedSymbol []

/-- The request of a seller or a buyer. -/
def smallBody (side : String) : PlaceOrderBody where
  side := side
  orderType := "LIMIT"
  timeInForce := none
  quantity := "2"
  price := some "100"
  stopPrice := none
  reduceOnly := none
  clientOrderId := some "5"
  symbol := "BTCUSDT"

/-- The commands that the two requests become, in the order in which they reach the ring. -/
def smallOrders : List Popped :=
  [⟨.newOrder { MatchingEngine.gatewayOrder 4198401 8 .buy 100 2 with clientOrderId := some 5 },
      0, .stored⟩,
    ⟨.newOrder { MatchingEngine.gatewayOrder 4198400 7 .sell 100 2 with clientOrderId := some 5 },
      0, .stored⟩]

def smallSite : SiteSetup where
  gateway := {
    symbols := [plainSymbol []]
    adminSecret := "secret"
    verifyJwt := fun token =>
      if token = "seller" then some 7 else if token = "buyer" then some 8 else none
    toLowercase := id }
  gen := ⟨1, by decide⟩
  server := { Server.smallSetup with
    commands := .listed (smallOrders.map (·.command)) (by decide)
    events := .listed (run CommandLoop.processed (.boot smallConfig.toSymbolConfig id 0 0)
      smallOrders).2 (by decide +kernel) }

/-- The seller draws the first identifier, and the buyer's command is the first in the ring. -/
def smallRequests : List (SiteInput Bool) :=
  [.begin true (.placeOrder (some (some "Bearer seller")) true (smallBody "SELL")),
    .begin false (.placeOrder (some (some "Bearer buyer")) true (smallBody "BUY")),
    .claim false true, .claim true true,
    .clock true 1704067200001, .clock false 1704067200001, .clock true 1704067200001,
    .clock false 1704067200001, .clock true 1704067200001, .clock false 1704067200001,
    .clock false 1704067200000, .clock false 1704067200000, .clock false 1704067200000,
    .convert false 0, .convert true 0,
    .send false, .produce, .send true, .produce, .produce, .send true, .produce, .produce,
    .produce] ++ List.replicate 14 (.work 0 .stored)

private theorem clocks_smallRequests : ∀ input ∈ smallRequests, input.ReadsClock := by
  have early : InClock 1704067200000 := by decide
  have late : InClock 1704067200001 := by decide
  simp [smallRequests, SiteInput.ReadsClock, early, late]

/-- The buyer is the first to be answered. -/
def smallAnswers : List (Bool × Ack) :=
  [(false, .placed "4198401" (some "5")), (true, .placed "4198400" (some "5"))]

def bootSite : Except BootError Server :=
  Server.boot smallSite.server smallConfig.toSymbolConfig id 0 0 ⟨40, 2⟩ (fun _ => 0) []

private theorem bootSite_trades : ∃ start, bootSite = .ok start ∧
    let reached := run (step smallSite) (launch start [] []) smallRequests
    acks (appEvents reached.2) = smallAnswers ∧
      (appendedRecords (serverEvents reached.2)).length = 5 := by
  have runs : bootSite.toOption.map (fun start =>
      let reached := run (step smallSite) (launch start [] []) smallRequests
      (acks (appEvents reached.2), (appendedRecords (serverEvents reached.2)).length)) =
      some (smallAnswers, 5) := by decide +kernel
  cases booted : bootSite with
  | error error =>
      rw [booted] at runs
      cases runs
  | ok start =>
      rw [booted] at runs
      obtain ⟨answers, records⟩ := Prod.mk.inj (Option.some.inj runs)
      exact ⟨start, rfl, answers, records⟩

/-! ## Results -/

section Results

variable {entry : SymbolConfigEntry} {config : FullSymbolConfig} {ids : Nat → TradeId}
variable {interestRate markPrice : Decimal128} {walConfig : Wal.WalConfig} {memory : Memory}
variable {directory : Wal.Directory}
variable {clientOrders : List ClientOrderRow} {users : List (String × Int64)}

/-- Whatever requests come, and in whatever order tasks and threads take their steps, the answers
200 are those of the accepted commands, in their order, each to a task whose request is entitled
to the command.  The thread handles these commands in that order and each of them once, all but
those still in the ring and one over which an operator has overflowed, and no request can make it
panic in another way before its records are appended. -/
theorem site_serves (one : setup.gateway.symbols = [entry])
    (parsed : symbolConfigFromEntry entry = .ok config)
    (booted : Server.boot setup.server config.toSymbolConfig ids interestRate markPrice walConfig
      memory [] = .ok start)
    (slots : setup.server.ring.maxPayload < 2 ^ 32)
    (inClock : ∀ input ∈ inputs, input.ReadsClock) (few : inputs.length < 2 ^ 64) :
    let reached := run (step setup) (launch start clientOrders users) inputs
    let accepted := acceptedCommands (serverEvents reached.2)
    let handled := processedInputs (serverEvents reached.2)
    List.Forall₂ (Serves setup.gateway inputs) accepted (acks (appEvents reached.2)) ∧
    (repliedTasks (appEvents reached.2)).Nodup ∧
    (∃ stuck waiting, accepted = handled.map (·.command) ++ stuck ++ waiting ∧
      waiting.length ≤ setup.server.ring.slotCount ∧ stuck.length ≤ 1 ∧
      (stuck ≠ [] → reached.1.server.thread = .panicked .overflow)) ∧
    (reached.1.server.thread.Drops → reached.1.server.thread = .panicked .overflow) ∧
    ∃ left, follow CommandLoop.serve
        ⟨.boot config.toSymbolConfig ids interestRate markPrice, []⟩ handled =
          .ok ⟨reached.1.server.loop, appendedRecords (serverEvents reached.2) ++ left⟩ ∧
      reached.1.server.thread.Leaves setup.server left := by
  intro reached accepted handled
  obtain ⟨loop, wal, launched⟩ := Server.boot_launches booted
  have unlocked : start.pushing = none := by rw [launched]; rfl
  obtain ⟨schedule, holds⟩ := siteHolds_run one clientOrders users unlocked inClock few
  have handlers := holds.handlerCommands
  rw [← (parsed_of_entry parsed).1] at handlers
  have exchanges := Server.exchanges_boot booted slots (lt_of_le_of_lt holds.short few) handlers
  dsimp only at exchanges
  rw [holds.server] at exchanges
  obtain ⟨waits, keeps, served⟩ := exchanges.serves
  exact ⟨holds.answers, holds.handlers.once, waits, keeps, served⟩

theorem site_serves_small : ∃ start, bootSite = .ok start ∧
    let reached := run (step smallSite) (launch start [] []) smallRequests
    let accepted := acceptedCommands (serverEvents reached.2)
    let handled := processedInputs (serverEvents reached.2)
    List.Forall₂ (Serves smallSite.gateway smallRequests) accepted (acks (appEvents reached.2)) ∧
    (repliedTasks (appEvents reached.2)).Nodup ∧
    (∃ stuck waiting, accepted = handled.map (·.command) ++ stuck ++ waiting ∧
      waiting.length ≤ 2 ∧ stuck.length ≤ 1 ∧
      (stuck ≠ [] → reached.1.server.thread = .panicked .overflow)) ∧
    (reached.1.server.thread.Drops → reached.1.server.thread = .panicked .overflow) ∧
    (∃ left, follow CommandLoop.serve
        ⟨.boot smallConfig.toSymbolConfig id 0 0, []⟩ handled =
          .ok ⟨reached.1.server.loop, appendedRecords (serverEvents reached.2) ++ left⟩ ∧
      reached.1.server.thread.Leaves smallSite.server left) ∧
    (appendedRecords (serverEvents reached.2)).length = 5 := by
  obtain ⟨start, booted, -, records⟩ := bootSite_trades
  have parsed : symbolConfigFromEntry (plainSymbol []) = .ok smallConfig := by decide +kernel
  obtain ⟨answers, once, waits, drops, served⟩ :=
    site_serves rfl parsed booted (by decide) clocks_smallRequests (by decide)
  exact ⟨start, booted, answers, once, waits, drops, served, records⟩

/-- In every run since a boot on any log, no two accepted commands carry the same order
identifier, the same key of a credit, or the same clientOrderId of one user, and no identifier is
both an order's and a new user's.  A clientOrderId whose row was in the table before is never
accepted again. -/
theorem identifiers_differ (one : setup.gateway.symbols = [entry])
    (booted : Server.boot setup.server config.toSymbolConfig ids interestRate markPrice walConfig
      memory directory = .ok start)
    (inClock : ∀ input ∈ inputs, input.ReadsClock) (few : inputs.length < 2 ^ 64) :
    let reached := run (step setup) (launch start clientOrders users) inputs
    let accepted := acceptedCommands (serverEvents reached.2)
    (accepted.filterMap Command.newOrderId? ++ storedIds (appEvents reached.2)).Nodup ∧
    (accepted.filterMap Command.creditKey?).Nodup ∧
    (accepted.filterMap Command.clientOrder?).Nodup ∧
    ∀ order ∈ accepted.filterMap Command.clientOrder?,
      clientOrderRow order.1 order.2 ∉ clientOrders := by
  intro reached accepted
  obtain ⟨loop, wal, launched⟩ := Server.boot_launches booted
  have unlocked : start.pushing = none := by rw [launched]; rfl
  obtain ⟨schedule, holds⟩ := siteHolds_run one clientOrders users unlocked inClock few
  have requested : List.Sublist accepted (requestedCommands schedule) := by
    have all := Server.accepted_requested setup.server unlocked schedule
    rwa [holds.server] at all
  have handlers := holds.handlers
  refine ⟨?_, ?_, ?_, fun order member => ?_⟩
  · exact handlers.ids.spentOnce.sublist ((requested.filterMap _).append_right _)
  · exact handlers.credits.spentOnce.sublist (requested.filterMap _)
  · exact handlers.clientOrders.spentOnce.sublist (requested.filterMap _)
  · exact (handlers.clientOrders.spentDrawn order ((requested.filterMap _).subset member)).2

theorem identifiers_differ_small : ∃ start, bootSite = .ok start ∧
    let reached := run (step smallSite) (launch start [] []) smallRequests
    let accepted := acceptedCommands (serverEvents reached.2)
    (accepted.filterMap Command.newOrderId? ++ storedIds (appEvents reached.2)).Nodup ∧
    (accepted.filterMap Command.creditKey?).Nodup ∧
    (accepted.filterMap Command.clientOrder?).Nodup ∧
    ∀ order ∈ accepted.filterMap Command.clientOrder?,
      clientOrderRow order.1 order.2 ∉ ([] : List ClientOrderRow) := by
  obtain ⟨start, booted, -⟩ := bootSite_trades
  exact ⟨start, booted, identifiers_differ rfl booted clocks_smallRequests (by decide)⟩

end Results
end Site
end Exg
