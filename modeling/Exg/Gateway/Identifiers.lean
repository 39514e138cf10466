import Exg.Gateway.Tasks
import Exg.Server.CommandLoop
import Exg.Support.Tickets

/-!
# What the handlers number

Order identifiers, the keys of admin credits and the client order ids of a user are tickets: a
handler draws them from what the tasks share, and a command spends them.  So no two commands
carry the same one, whatever the order of the handlers' steps.
-/

namespace Exg

open Support Converted SnowflakeGen

/-- The user of a new order and its clientOrderId, when it has one. -/
def Command.clientOrder? : Command → Option (UserId × Nat)
  | .newOrder order => order.clientOrderId.map fun clientOrderId => (order.userId, clientOrderId)
  | _ => none

namespace Gateway

/-! ## Tickets of a handler -/

def PlaceOrderBody.clientOrder? (body : PlaceOrderBody) (userId : UInt64) :
    Option (UserId × Nat) :=
  (body.clientOrderId.bind fun text => parseWord text.toList).map fun clientOrderId =>
    (userId.toNat, clientOrderId)

namespace HandlerPoint

/-- The identifier that a handler has drawn and not yet used. -/
def id? : HandlerPoint → Option Nat
  | .converting _ _ _ orderId => some orderId.toNat
  | .storing _ userId => some userId.toNat
  | .sending command _ => command.newOrderId?
  | _ => none

def creditKey? : HandlerPoint → Option String
  | .sending command _ => command.creditKey?
  | _ => none

/-- The clientOrderId that a handler has claimed, with its user. -/
def clientOrder? : HandlerPoint → Option (UserId × Nat)
  | .numbering userId body _ | .converting userId body _ _ => body.clientOrder? userId
  | .sending command _ => command.clientOrder?
  | _ => none

end HandlerPoint

/-- The body with which a command's request is answered. -/
def Answers : Command → Ack → Prop
  | .newOrder order, .placed orderId clientOrderId =>
      orderId = toString order.orderId ∧
        order.clientOrderId = clientOrderId.bind fun text => parseWord text.toList
  | .cancelOrder orderId .., .acknowledged text => text = toString orderId
  | .amendOrder amend, .acknowledged text => text = toString amend.orderId
  | .updateMarkPrice .., .adminAccepted => True
  | .computeFunding .., .adminAccepted => True
  | .adminCredit .., .adminAccepted => True
  | _, _ => False

/-- What a handler carries fits the only symbol of the server. -/
def HandlerPoint.Sound (only : SymbolId) : HandlerPoint → Prop
  | .claiming userId body clientOrderId =>
      body.clientOrder? userId = some (userId.toNat, clientOrderId)
  | .numbering _ _ symbol | .converting _ _ symbol _ => symbol = only
  | .sending command ack => command.LetThrough only ∧ Answers command ack
  | _ => True

/-! ## What the handlers return -/

section Handlers

variable {config : GatewayConfig} {entry : SymbolConfigEntry}

private theorem lookup_only (one : config.symbols = [entry]) {name : String} {symbol : SymbolId}
    (found : lookupSymbolId config name = .returned symbol) : symbol = entry.id := by
  rw [lookupSymbolId, one] at found
  by_cases same : entry.name = name
  · simp only [List.find?_singleton, same, decide_true, if_true] at found
    cases found
    rfl
  · simp only [List.find?_singleton, same, decide_false] at found
    cases found

private theorem numberOrder_returned (one : config.symbols = [entry]) {userId : UInt64}
    {body : PlaceOrderBody} {point : HandlerPoint}
    (numbers : numberOrder config userId body = .returned point) :
    point = .numbering userId body entry.id := by
  obtain ⟨symbol, found, rest⟩ := bind_returned_iff.1 numbers
  rw [lookup_only one found] at rest
  cases rest
  rfl

/-- An order keeps the tickets that its handler has drawn. -/
theorem convertOrder_returned {userId : UInt64} {body : PlaceOrderBody} {symbol : SymbolId}
    {orderId : UInt64} {ts : UnixMicros} {point : HandlerPoint}
    (converted : convertOrder userId body symbol orderId ts = .returned point) :
    point.Sound symbol ∧ point.id? = some orderId.toNat ∧ point.creditKey? = none ∧
      point.clientOrder? = body.clientOrder? userId := by
  obtain ⟨command, converts, rest⟩ := bind_returned_iff.1 converted
  cases rest
  obtain ⟨order, rfl, sameId, sameUser, sameSymbol, sameClient⟩ := newOrder_fields converts
  refine ⟨⟨?_, ?_, sameClient⟩, congrArg some sameId, rfl, ?_⟩
  · intro named member
    cases member
    exact sameSymbol
  · rw [sameId]
  · simp only [HandlerPoint.clientOrder?, Command.clientOrder?, PlaceOrderBody.clientOrder?,
      sameClient, sameUser]

/-- Before a handler is suspended it has drawn at most the number of an admin credit. -/
theorem handle_returned (one : config.symbols = [entry]) {request : Request} {n : UInt64}
    {point : HandlerPoint} (handles : handle config request n = .returned point) :
    point.Sound entry.id ∧ point.id? = none ∧ point.clientOrder? = none ∧
      (point.creditKey? = none ∨ ∃ userId amount ts ack, point =
        .sending (.adminCredit userId amount (adminCreditKey userId ts n.toNat) ts) ack) := by
  have only : ∀ symbol, firstSymbol config = .returned symbol → symbol = entry.id := by
    intro symbol first
    rw [firstSymbol, one] at first
    cases first
    rfl
  cases brings_of_handled handles with
  | numbers bears found unnamed =>
      refine ⟨lookup_only one found, rfl, ?_, Or.inl rfl⟩
      rw [HandlerPoint.clientOrder?, PlaceOrderBody.clientOrder?, unnamed]
      rfl
  | claims bears named =>
      refine ⟨?_, rfl, rfl, Or.inl rfl⟩
      rw [HandlerPoint.Sound, PlaceOrderBody.clientOrder?, named]
      rfl
  | cancels bears found =>
      rw [lookup_only one found]
      exact ⟨⟨fun named member => (Option.some.inj member).symm, rfl⟩, rfl, rfl, Or.inl rfl⟩
  | amends bears found =>
      rw [lookup_only one found]
      exact ⟨⟨fun named member => (Option.some.inj member).symm, rfl⟩, rfl, rfl, Or.inl rfl⟩
  | registers => exact ⟨trivial, rfl, rfl, Or.inl rfl⟩
  | marks first =>
      rw [only _ first]
      exact ⟨⟨fun named member => (Option.some.inj member).symm, trivial⟩, rfl, rfl, Or.inl rfl⟩
  | funds first =>
      rw [only _ first]
      exact ⟨⟨fun named member => (Option.some.inj member).symm, trivial⟩, rfl, rfl, Or.inl rfl⟩
  | credits positive =>
      exact ⟨⟨⟨positive, ⟨_, _, _, rfl⟩⟩, trivial⟩, rfl, rfl, Or.inr ⟨_, _, _, _, rfl⟩⟩

private theorem countCredit_of_none {n : UInt64} {point : HandlerPoint}
    (none : point.creditKey? = none) :
    countCredit n (.returned point) = n := by
  rw [countCredit]
  intro userId amount key ts ack same
  cases same
  cases none

end Handlers

/-! ## The invariant of the tasks -/

/-- The tasks that have been answered. -/
def repliedTasks {Task : Type} (log : List (AppEvent Task)) : List Task :=
  log.filterMap fun
    | .replied task _ => some task
    | .stored .. => none

/-- The identifiers of the users that have been stored. -/
def storedIds {Task : Type} (log : List (AppEvent Task)) : List Nat :=
  log.filterMap fun
    | .stored _ userId => some userId.toNat
    | .replied .. => none

/-- The tasks after a number of steps.  `requested` are the commands that the handlers have
brought to the ring, and `earlier` the rows that were in the table when the process started. -/
structure HandlersHold {Task : Type} (gen : SnowflakeGen) (only : SymbolId)
    (earlier : List ClientOrderRow) (steps : Nat) (requested : List Command)
    (log : List (AppEvent Task)) (state : AppState Task) : Prop where
  letThrough : ∀ command ∈ requested, command.LetThrough only
  sound : ∀ task, (state.point task).Sound only
  turns : ∀ task, PointHolds gen.nextId InClock (state.snowflake.point task)
  bounded : (state.snowflake.word >>> seqBits).toNat < snowflakeEpochMs.toNat + 2 ^ 41
  ids : Tickets (fun task => (state.point task).id?)
    {id | (id : Int) ≤ gen.position state.snowflake.word}
    (requested.filterMap Command.newOrderId? ++ storedIds log)
  counted : state.adminCreditSeq.toNat ≤ steps
  credits : Tickets (fun task => (state.point task).creditKey?)
    {key | ∃ userId ts n, n < state.adminCreditSeq.toNat ∧ key = adminCreditKey userId ts n}
    (requested.filterMap Command.creditKey?)
  kept : earlier ⊆ state.clientOrders
  clientOrders : Tickets (fun task => (state.point task).clientOrder?)
    {order | clientOrderRow order.1 order.2 ∈ state.clientOrders ∧
      clientOrderRow order.1 order.2 ∉ earlier}
    (requested.filterMap Command.clientOrder?)
  once : (repliedTasks log).Nodup
  done : ∀ task ∈ repliedTasks log, state.point task = .answered

private theorem storedIds_append {Task : Type} (before after : List (AppEvent Task)) :
    storedIds (before ++ after) = storedIds before ++ storedIds after :=
  List.filterMap_append

private theorem repliedTasks_append {Task : Type} (before after : List (AppEvent Task)) :
    repliedTasks (before ++ after) = repliedTasks before ++ repliedTasks after :=
  List.filterMap_append

namespace HandlersHold

variable {Task : Type} [DecidableEq Task] {gen : SnowflakeGen} {only : SymbolId}
variable {earlier : List ClientOrderRow} {steps : Nat} {requested : List Command}
variable {log : List (AppEvent Task)} {state : AppState Task} {task : Task}

omit [DecidableEq Task] in
theorem mono {more : Nat} (holds : HandlersHold gen only earlier steps requested log state)
    (later : steps ≤ more) : HandlersHold gen only earlier more requested log state :=
  { holds with counted := holds.counted.trans later }

omit [DecidableEq Task] in
theorem silent {next : AppState Task} {events : List (AppEvent Task)}
    (holds : HandlersHold gen only earlier steps requested log state)
    (same : (next, events) = (state, [])) :
    HandlersHold gen only earlier steps requested (log ++ events) next := by
  cases same
  rwa [List.append_nil]

/-- Only one task is elsewhere, and it was not answered before. -/
theorem points_of_move (holds : HandlersHold gen only earlier steps requested log state)
    (changed : AppState Task) {next : HandlerPoint} (busy : state.point task ≠ .answered)
    (sound : next.Sound only)
    (points : changed.point = Function.update state.point task next) :
    (∀ tested, (changed.point tested).Sound only) ∧
      (∀ tested ∈ repliedTasks log, changed.point tested = .answered) ∧
      ∀ {α : Type} (read : HandlerPoint → α), (fun tested => read (changed.point tested)) =
        Function.update (fun tested => read (state.point tested)) task (read next) := by
  rw [points]
  refine ⟨fun tested => ?_, fun tested replied => ?_, fun read => ?_⟩
  · by_cases same : tested = task
    · subst same
      rw [Function.update_self]
      exact sound
    · rw [Function.update_of_ne same]
      exact holds.sound tested
  · have answered := holds.done tested replied
    have other : tested ≠ task := fun same => busy (by rw [← same]; exact answered)
    rw [Function.update_of_ne other]
    exact answered
  · funext tested
    exact Function.apply_update (fun _ => read) state.point task next tested

/-- A task that is not answered goes on, and keeps or drops the tickets it holds. -/
theorem move (holds : HandlersHold gen only earlier steps requested log state)
    (next : HandlerPoint) (busy : state.point task ≠ .answered) (sound : next.Sound only)
    (ids : ∀ id ∈ next.id?, id ∈ (state.point task).id?)
    (credits : ∀ key ∈ next.creditKey?, key ∈ (state.point task).creditKey?)
    (orders : ∀ order ∈ next.clientOrder?, order ∈ (state.point task).clientOrder?) :
    HandlersHold gen only earlier steps requested log (state.move task next) := by
  obtain ⟨sounds, done, read⟩ :=
    holds.points_of_move (state.move task next) busy sound rfl
  exact { holds with
    sound := sounds
    ids := by
      rw [read HandlerPoint.id?]
      exact holds.ids.keep task ids
    credits := by
      rw [read HandlerPoint.creditKey?]
      exact holds.credits.keep task credits
    clientOrders := by
      rw [read HandlerPoint.clientOrder?]
      exact holds.clientOrders.keep task orders
    done }

/-- A task is answered once, and drops its tickets. -/
theorem reply (holds : HandlersHold gen only earlier steps requested log state)
    (busy : state.point task ≠ .answered) (answer : Except ApiError Ack) :
    HandlersHold gen only earlier steps requested (log ++ (state.reply task answer).2)
      (state.reply task answer).1 := by
  have moved := holds.move .answered busy trivial (by simp [HandlerPoint.id?])
    (by simp [HandlerPoint.creditKey?]) (by simp [HandlerPoint.clientOrder?])
  have stored : storedIds (log ++ (state.reply task answer).2) = storedIds log := by
    rw [storedIds_append]
    exact List.append_nil _
  have replied : repliedTasks (log ++ (state.reply task answer).2) = repliedTasks log ++ [task] :=
    repliedTasks_append _ _
  refine { moved with ids := ?_, once := ?_, done := ?_ }
  · rw [stored]
    exact moved.ids
  · rw [replied]
    refine List.nodup_append_comm.1 (List.nodup_cons.2 ⟨fun member => ?_, holds.once⟩)
    exact busy (holds.done task member)
  · intro tested member
    rw [replied] at member
    rcases List.mem_append.1 member with before | now
    · exact moved.done tested before
    · rw [List.mem_singleton.1 now]
      exact state.point_move_self task .answered

/-- A handler ends, or goes on with at most the tickets it holds. -/
theorem proceed (holds : HandlersHold gen only earlier steps requested log state)
    (outcome : Converted HandlerPoint) (busy : state.point task ≠ .answered)
    (goes : ∀ next, outcome = .returned next → next.Sound only ∧
      (∀ id ∈ next.id?, id ∈ (state.point task).id?) ∧
      (∀ key ∈ next.creditKey?, key ∈ (state.point task).creditKey?) ∧
      ∀ order ∈ next.clientOrder?, order ∈ (state.point task).clientOrder?) :
    HandlersHold gen only earlier steps requested (log ++ (state.proceed task outcome).2)
      (state.proceed task outcome).1 := by
  cases outcome with
  | returned next =>
      obtain ⟨sound, ids, credits, orders⟩ := goes next rfl
      simpa [AppState.proceed] using holds.move next busy sound ids credits orders
  | refused error => exact holds.reply busy (.error error)
  | panicked text =>
      simpa [AppState.proceed] using holds.move (.panicked text) busy trivial
        (by simp [HandlerPoint.id?]) (by simp [HandlerPoint.creditKey?])
        (by simp [HandlerPoint.clientOrder?])

/-! ## The steps of the handlers -/

/-- A request comes: of the tickets, it can only draw the key of a credit. -/
theorem begin {config : GatewayConfig} {entry : SymbolConfigEntry} (one : config.symbols = [entry])
    (few : steps + 1 < 2 ^ 64) (request : Request)
    (holds : HandlersHold gen entry.id earlier steps requested log state) :
    HandlersHold gen entry.id earlier (steps + 1) requested
      (log ++ (state.begin config task request).2) (state.begin config task request).1 := by
  have longer := holds.mono (Nat.le_succ steps)
  rw [AppState.begin]
  cases point : state.point task with
  | idle =>
      have busy : state.point task ≠ .answered := by simp [point]
      dsimp only
      cases outcome : handle config request state.adminCreditSeq with
      | refused error => exact longer.reply busy (.error error)
      | panicked text =>
          exact longer.proceed (.panicked text) busy fun next returned => by cases returned
      | returned next =>
          obtain ⟨sound, ids, orders, credits⟩ := handle_returned one outcome
          rcases credits with noCredit | ⟨userId, amount, ts, ack, rfl⟩
          · rw [countCredit_of_none noCredit]
            refine longer.proceed (.returned next) busy fun other returned => ?_
            cases returned
            rw [ids, orders, noCredit]
            exact ⟨sound, by simp, by simp, by simp⟩
          · -- The key of the credit carries a number that no earlier key carries.
            have counts : (state.adminCreditSeq + 1).toNat = state.adminCreditSeq.toNat + 1 := by
              rw [UInt64.toNat_add, UInt64.toNat_one]
              exact Nat.mod_eq_of_lt (lt_of_le_of_lt (Nat.succ_le_succ holds.counted) few)
            let changed := { state with adminCreditSeq := state.adminCreditSeq + 1 }
            obtain ⟨sounds, done, read⟩ := longer.points_of_move (changed.move task _)
              busy sound rfl
            simp only [countCredit, AppState.proceed, List.append_nil]
            refine { longer with
              sound := sounds, ids := ?_, counted := ?_, credits := ?_, clientOrders := ?_, done }
            · rw [read HandlerPoint.id?]
              exact holds.ids.keep task (by simp [ids])
            · exact counts.trans_le (Nat.succ_le_succ holds.counted)
            · rw [read HandlerPoint.creditKey?]
              refine holds.credits.draw task ?_ ?_ ⟨_, _, _, counts ▸ Nat.lt_succ_self _, rfl⟩
              · rintro ⟨otherUser, otherTs, n, drawn, same⟩
                exact absurd (underscored_inj same).2.2 (Nat.ne_of_gt drawn)
              · rintro key ⟨otherUser, otherTs, n, drawn, same⟩
                exact ⟨otherUser, otherTs, n, counts ▸ Nat.lt_succ_of_lt drawn, same⟩
            · rw [read HandlerPoint.clientOrder?]
              exact holds.clientOrders.keep task (by simp [orders])
  | _ => exact longer.silent rfl

/-- A client order id is claimed: its row was not in the table. -/
theorem claim {config : GatewayConfig} {entry : SymbolConfigEntry} (one : config.symbols = [entry])
    (available : Bool) (holds : HandlersHold gen entry.id earlier steps requested log state) :
    HandlersHold gen entry.id earlier steps requested
      (log ++ (state.claim config task available).2) (state.claim config task available).1 := by
  rw [AppState.claim]
  cases point : state.point task with
  | claiming userId body clientOrderId =>
      have busy : state.point task ≠ .answered := by simp [point]
      have claims := holds.sound task
      rw [point] at claims
      dsimp only
      split
      · exact holds.reply busy _
      · split
        · exact holds.reply busy _
        · rename_i fresh
          set row := clientOrderRow userId.toNat clientOrderId with row_eq
          let changed := { state with clientOrders := state.clientOrders ++ [row] }
          have grows : state.clientOrders ⊆ changed.clientOrders := List.subset_append_left _ _
          -- Without a symbol the claim stays in the table, and its ticket is lost.
          have widened : HandlersHold gen entry.id earlier steps requested log changed :=
            { holds with
              kept := List.Subset.trans holds.kept grows
              clientOrders := holds.clientOrders.mono fun order drawn => ⟨grows drawn.1, drawn.2⟩ }
          cases outcome : numberOrder config userId body with
          | refused error => exact widened.reply busy (.error error)
          | panicked text =>
              exact widened.proceed (.panicked text) busy
                fun next returned => by cases returned
          | returned next =>
              rw [numberOrder_returned one outcome]
              obtain ⟨sounds, done, read⟩ := widened.points_of_move
                (changed.move task (.numbering userId body entry.id)) busy
                (show HandlerPoint.Sound entry.id (.numbering userId body entry.id) from rfl) rfl
              simp only [AppState.proceed, List.append_nil]
              refine { widened with
                sound := sounds, ids := ?_, credits := ?_, clientOrders := ?_, done }
              · rw [read HandlerPoint.id?]
                exact holds.ids.keep task (by simp [HandlerPoint.id?])
              · rw [read HandlerPoint.creditKey?]
                exact holds.credits.keep task (by simp [HandlerPoint.creditKey?])
              · rw [read HandlerPoint.clientOrder?, HandlerPoint.clientOrder?, claims]
                refine holds.clientOrders.draw task (fun drawn => fresh drawn.1)
                  (fun order drawn => ⟨grows drawn.1, drawn.2⟩) ⟨?_, fun old => fresh ?_⟩
                · exact List.mem_append_right _ (List.mem_singleton_self row)
                · exact holds.kept old
  | _ => exact holds.silent rfl

/-- What a step of `next_id` gives its task is later than everything drawn before. -/
theorem clocked (holds : HandlersHold gen only earlier steps requested log state) (task : Task)
    {nowMs : UInt64} (inClock : InClock nowMs) :
    let exchanged := exchangeStep gen.nextId state.snowflake ⟨task, nowMs⟩
    (∀ task, PointHolds gen.nextId InClock (exchanged.1.point task)) ∧
      (exchanged.1.word >>> seqBits).toNat < snowflakeEpochMs.toNat + 2 ^ 41 ∧
      (exchanged.2 = [] ∧ exchanged.1.word = state.snowflake.word ∨
        ∃ id, exchanged.2 = [id] ∧ gen.position state.snowflake.word < id.toNat ∧
          (id.toNat : Int) = gen.position exchanged.1.word) := by
  intro exchanged
  have turns : ∀ task, PointHolds gen.nextId InClock (exchanged.1.point task) :=
    (exchangeStep_serial inClock holds.turns).2
  have once : (exchanged.2 = [] ∧ exchanged.1.word = state.snowflake.word) ∨
      ∃ id, exchanged.2 = [id] ∧
        Exchanged gen.nextId InClock state.snowflake.word id exchanged.1.word :=
    exchangeStep_once inClock holds.turns
  refine ⟨turns, ?_⟩
  rcases once with ⟨silent, same⟩ | ⟨id, drawn, read, readable, proposes⟩
  · rw [same]
    exact ⟨holds.bounded, Or.inl ⟨silent, rfl⟩⟩
  · obtain ⟨bounded, rises, isPosition, -⟩ := nextId_spec readable holds.bounded proposes
    exact ⟨bounded, Or.inr ⟨id, drawn, isPosition ▸ rises, isPosition⟩⟩

/-- A task takes a step of `next_id`, and goes on when it has drawn an identifier. -/
theorem nextId {nowMs : UInt64} {next : UInt64 → HandlerPoint} (inClock : InClock nowMs)
    (busy : state.point task ≠ .answered) (sound : ∀ id, (next id).Sound only)
    (ids : ∀ id, (next id).id? = some id.toNat) (credits : ∀ id, (next id).creditKey? = none)
    (orders : ∀ id, (next id).clientOrder? = (state.point task).clientOrder?)
    (holds : HandlersHold gen only earlier steps requested log state) :
    HandlersHold gen only earlier steps requested log (state.nextId gen task nowMs next) := by
  obtain ⟨turns, bounded, outcome⟩ := holds.clocked task inClock
  rw [AppState.nextId]
  rcases outcome with ⟨silent, same⟩ | ⟨id, emitted, rises, isPosition⟩
  · rw [silent]
    exact { holds with
      turns, bounded
      ids := by
        dsimp only
        rw [same]
        exact holds.ids }
  · rw [emitted]
    let turned := { state with
      snowflake := (exchangeStep gen.nextId state.snowflake ⟨task, nowMs⟩).1 }
    obtain ⟨sounds, done, read⟩ :=
      holds.points_of_move (turned.move task (next id)) busy (sound id) rfl
    exact { holds with
      sound := sounds
      turns, bounded
      ids := by
        rw [read HandlerPoint.id?, ids id]
        refine holds.ids.draw task (not_le.2 rises) (fun old before => ?_) isPosition.le
        exact before.trans (rises.le.trans isPosition.le)
      credits := by
        rw [read HandlerPoint.creditKey?, credits id]
        exact holds.credits.keep task (by simp)
      clientOrders := by
        rw [read HandlerPoint.clientOrder?, orders id]
        exact holds.clientOrders.keep task fun order held => held
      done }

theorem clock {config : GatewayConfig} {nowMs : UInt64} (inClock : InClock nowMs)
    (holds : HandlersHold gen only earlier steps requested log state) :
    HandlersHold gen only earlier steps requested
      (log ++ (state.clock config gen task nowMs).2) (state.clock config gen task nowMs).1 := by
  have sound := holds.sound task
  rw [AppState.clock]
  cases point : state.point task with
  | numbering userId body symbol =>
      rw [point] at sound
      dsimp only
      rw [List.append_nil]
      refine holds.nextId inClock (by simp [point]) (fun _ => sound) (fun _ => rfl)
        (fun _ => rfl) ?_
      rw [point]
      exact fun _ => rfl
  | registering email =>
      dsimp only
      rw [List.append_nil]
      refine holds.nextId inClock (by simp [point]) (fun _ => trivial) (fun _ => rfl)
        (fun _ => rfl) ?_
      rw [point]
      exact fun _ => rfl
  | _ => exact holds.silent rfl

/-- A request becomes a command, which carries the tickets on. -/
theorem convert (ts : UnixMicros)
    (holds : HandlersHold gen only earlier steps requested log state) :
    HandlersHold gen only earlier steps requested
      (log ++ (state.convert task ts).2) (state.convert task ts).1 := by
  have sound := holds.sound task
  rw [AppState.convert]
  cases point : state.point task with
  | converting userId body symbol orderId =>
      rw [point] at sound
      refine holds.proceed _ (by simp [point]) fun next converted => ?_
      obtain ⟨sounds, ids, credits, orders⟩ := convertOrder_returned converted
      rw [show symbol = only from sound] at sounds
      rw [point, ids, credits, orders]
      exact ⟨sounds, fun _ held => held, by simp, fun _ held => held⟩
  | _ => exact holds.silent rfl

/-- A stored user spends the identifier that its handler has drawn. -/
theorem store (available : Bool)
    (holds : HandlersHold gen only earlier steps requested log state) :
    HandlersHold gen only earlier steps requested
      (log ++ (state.store task available).2) (state.store task available).1 := by
  rw [AppState.store]
  cases point : state.point task with
  | storing email userId =>
      have busy : state.point task ≠ .answered := by simp [point]
      dsimp only
      split
      · exact holds.reply busy _
      · split
        · exact holds.reply busy _
        · split
          · exact holds.reply busy _
          · let stored := { state with users := state.users ++ [(email, userId.toInt64)] }
            have kept : HandlersHold gen only earlier steps requested log stored := { holds with }
            have replied := kept.reply busy (.ok (.registered (toString userId.toNat) email))
            obtain ⟨-, -, read⟩ := kept.points_of_move (stored.move task .answered) busy
              (show HandlerPoint.Sound only .answered from trivial) rfl
            have spent := holds.ids.spend task
            rw [point, HandlerPoint.id?, List.append_assoc] at spent
            have sameReplies : ∀ events, repliedTasks (log ++ .stored email userId :: events) =
                repliedTasks (log ++ events) := by
              intro events
              rw [repliedTasks_append, repliedTasks_append]
              rfl
            exact { replied with
              ids := by
                rw [storedIds_append]
                exact (read HandlerPoint.id?).symm ▸ spent
              once := by
                rw [sameReplies]
                exact replied.once
              done := by
                rw [sameReplies]
                exact replied.done }
  | _ => exact holds.silent rfl

/-- A command is brought to the ring, and spends the tickets of its handler. -/
theorem send {command : Command} {ack : Ack}
    (holds : HandlersHold gen only earlier steps requested log state)
    (point : state.point task = .sending command ack) :
    HandlersHold gen only earlier steps (requested ++ [command]) log
      (state.move task .pushing) := by
  obtain ⟨sounds, done, read⟩ := holds.points_of_move (state.move task .pushing)
    (by simp [point]) (show HandlerPoint.Sound only .pushing from trivial) rfl
  have carried := holds.sound task
  have ids := holds.ids.spend task
  have credits := holds.credits.spend task
  have orders := holds.clientOrders.spend task
  rw [point] at carried ids credits orders
  have requests : ∀ {α : Type} (ticket? : Command → Option α),
      (requested ++ [command]).filterMap ticket? =
        requested.filterMap ticket? ++ (ticket? command).toList := by
    intro α ticket?
    rw [List.filterMap_append]
    cases found : ticket? command <;> simp [found]
  exact { holds with
    letThrough := fun requested member => by
      rcases List.mem_append.1 member with before | now
      · exact holds.letThrough requested before
      · rw [List.mem_singleton.1 now]
        exact carried.1
    sound := sounds
    ids := by
      rw [read HandlerPoint.id?, requests]
      refine ids.perm ?_
      rw [List.append_assoc, List.append_assoc]
      exact List.perm_append_comm.append_left _
    credits := by
      rw [read HandlerPoint.creditKey?, requests]
      exact credits
    clientOrders := by
      rw [read HandlerPoint.clientOrder?, requests]
      exact orders
    done }

end HandlersHold
end Gateway
end Exg
