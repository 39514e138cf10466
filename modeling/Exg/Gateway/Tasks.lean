import Exg.Gateway.Handlers

/-!
# Steps of a task

A step of a task moves nobody else's handler, and its own along the code of its request.  So a
command comes from the request of the task that brings it, which bears a valid token or the
secret of the admin server, and is for the user whom the token names.
-/

namespace Exg

open Support Converted

namespace Gateway

variable {config : GatewayConfig}

/-! ## What the handlers return -/

/-- The header bears a token of the user. -/
def Bears (config : GatewayConfig) (authorization : Header) (userId : UserId) : Prop :=
  ∃ token user, authorization = some (some ("Bearer " ++ token)) ∧
    config.verifyJwt token = some user ∧ userId = user.toNat

private theorem eq_append_of_stripPrefix {head s rest : String}
    (stripped : stripPrefix head s = some rest) :
    s = head ++ rest := by
  rw [stripPrefix] at stripped
  split at stripped
  · rename_i isPrefix
    cases stripped
    obtain ⟨tail, same⟩ := List.isPrefixOf_iff_prefix.1 isPrefix
    apply String.toList_inj.1
    rw [String.toList_append, String.toList_ofList, ← same]
    congr 1
    rw [← String.length_toList]
    exact List.drop_left.symm
  · cases stripped

private theorem bears_of_extracted {authorization : Header} {userId : UInt64}
    (extracted : extractUserIdFromJwt config authorization = .returned userId) :
    Bears config authorization userId.toNat := by
  unfold extractUserIdFromJwt at extracted
  split at extracted
  · cases extracted
  · cases extracted
  · split at extracted
    · cases extracted
    · rename_i token stripped
      split at extracted
      · cases extracted
      · rename_i user verified
        cases extracted
        exact ⟨token, userId, by rw [eq_append_of_stripPrefix stripped], verified, rfl⟩

private theorem allowed_of_consumed {allowed : Bool} {msg : String} {charged : Unit}
    (consumed : consumeBucket allowed msg = .returned charged) : allowed = true := by
  cases allowed with
  | true => rfl
  | false => cases consumed

private theorem secret_of_checked {secret : Header} {checked : Unit}
    (passed : checkAdminSecret config secret = .returned checked) :
    secret = some (some config.adminSecret) := by
  unfold checkAdminSecret at passed
  split at passed
  · cases passed
  · cases passed
  · split at passed
    · rename_i same
      rw [same]
    · cases passed

/-- What the handler of a request returns, with what its checks have made sure of. -/
inductive Brings (config : GatewayConfig) (n : UInt64) : Request → HandlerPoint → Prop where
  | numbers {authorization : Header} {body : PlaceOrderBody} {userId : UInt64} {symbol : SymbolId}
      (bears : Bears config authorization userId.toNat)
      (found : lookupSymbolId config body.symbol = .returned symbol)
      (unnamed : body.clientOrderId = none) :
      Brings config n (.placeOrder authorization true body) (.numbering userId body symbol)
  | claims {authorization : Header} {body : PlaceOrderBody} {userId : UInt64} {clientOrderId : Nat}
      (bears : Bears config authorization userId.toNat)
      (named : (body.clientOrderId.bind fun text => parseWord text.toList) = some clientOrderId) :
      Brings config n (.placeOrder authorization true body) (.claiming userId body clientOrderId)
  | cancels {authorization : Header} {body : CancelOrderBody} {ts : UnixMicros} {userId : UInt64}
      {symbol : SymbolId} (bears : Bears config authorization userId.toNat)
      (found : lookupSymbolId config body.symbol = .returned symbol) :
      Brings config n (.cancelOrder authorization true body ts)
        (.sending (.cancelOrder body.orderId userId.toNat symbol ts)
          (.acknowledged (toString body.orderId)))
  | amends {authorization : Header} {body : AmendOrderBody} {ts : UnixMicros} {userId : UInt64}
      {symbol : SymbolId} {newPrice newQuantity : Option Decimal128}
      (bears : Bears config authorization userId.toNat)
      (found : lookupSymbolId config body.symbol = .returned symbol) :
      Brings config n (.amendOrder authorization true body ts)
        (.sending (.amendOrder ⟨body.orderId, userId.toNat, symbol, newPrice, newQuantity, ts⟩)
          (.acknowledged (toString body.orderId)))
  | registers {email password : String} {passwordHash : Except String String} :
      Brings config n (.register true email password passwordHash) (.registering email)
  | marks {markPrice indexPrice : String} {ts : UnixMicros} {symbol : SymbolId}
      {mark index : Decimal128} (first : firstSymbol config = .returned symbol)
      (markPositive : 0 < mark) (indexPositive : 0 < index) :
      Brings config n (.adminMarkPrice (some (some config.adminSecret)) markPrice indexPrice ts)
        (.sending (.updateMarkPrice symbol mark index ts) .adminAccepted)
  | funds {ts : UnixMicros} {symbol : SymbolId} (first : firstSymbol config = .returned symbol) :
      Brings config n (.adminFundingTick (some (some config.adminSecret)) ts)
        (.sending (.computeFunding symbol ts) .adminAccepted)
  | credits {userId : UInt64} {text : String} {ts : UnixMicros} {amount : Decimal128}
      (positive : 0 < amount) :
      Brings config n (.adminCredit (some (some config.adminSecret)) userId text ts)
        (.sending (.adminCredit userId.toNat amount (adminCreditKey userId.toNat ts n.toNat) ts)
          .adminAccepted)

theorem brings_of_handled {request : Request} {n : UInt64} {point : HandlerPoint}
    (handles : handle config request n = .returned point) : Brings config n request point := by
  cases request with
  | placeOrder authorization allowed body =>
      obtain ⟨userId, extracted, rest⟩ := bind_returned_iff.1 handles
      obtain ⟨charged, consumed, rest⟩ := bind_returned_iff.1 rest
      rw [allowed_of_consumed consumed]
      have bears := bears_of_extracted extracted
      cases text : body.clientOrderId with
      | none =>
          rw [text] at rest
          obtain ⟨symbol, found, rest⟩ := bind_returned_iff.1 rest
          cases rest
          exact .numbers bears found text
      | some text' =>
          rw [text] at rest
          dsimp only at rest
          split at rest
          · cases rest
          · rename_i clientOrderId parsed
            split at rest
            · cases rest
            · cases rest
              exact .claims bears (by rw [text, Option.bind_some, parsed])
  | cancelOrder authorization allowed body ts =>
      obtain ⟨userId, extracted, rest⟩ := bind_returned_iff.1 handles
      obtain ⟨charged, consumed, rest⟩ := bind_returned_iff.1 rest
      obtain ⟨symbol, found, rest⟩ := bind_returned_iff.1 rest
      obtain ⟨command, converted, rest⟩ := bind_returned_iff.1 rest
      cases converted
      cases rest
      rw [allowed_of_consumed consumed]
      exact .cancels (bears_of_extracted extracted) found
  | amendOrder authorization allowed body ts =>
      obtain ⟨userId, extracted, rest⟩ := bind_returned_iff.1 handles
      obtain ⟨charged, consumed, rest⟩ := bind_returned_iff.1 rest
      obtain ⟨symbol, found, rest⟩ := bind_returned_iff.1 rest
      obtain ⟨command, converted, rest⟩ := bind_returned_iff.1 rest
      cases rest
      rw [toAmendOrderCommand] at converted
      split at converted
      · cases converted
      · obtain ⟨newPrice, -, rest⟩ := bind_returned_iff.1 converted
        obtain ⟨newQuantity, -, rest⟩ := bind_returned_iff.1 rest
        cases rest
        rw [allowed_of_consumed consumed]
        exact .amends (bears_of_extracted extracted) found
  | register allowed email password passwordHash =>
      obtain ⟨charged, consumed, rest⟩ := bind_returned_iff.1 handles
      rw [allowed_of_consumed consumed]
      split at rest
      · cases rest
      · split at rest
        · cases rest
        · split at rest
          · cases rest
          · cases rest
            exact .registers
  | adminMarkPrice secret markPrice indexPrice ts =>
      obtain ⟨checked, passed, rest⟩ := bind_returned_iff.1 handles
      obtain ⟨mark, -, rest⟩ := bind_returned_iff.1 rest
      obtain ⟨index, -, rest⟩ := bind_returned_iff.1 rest
      rw [secret_of_checked passed]
      split at rest
      · cases rest
      · rename_i indexPositive
        split at rest
        · cases rest
        · rename_i markPositive
          obtain ⟨symbol, first, rest⟩ := bind_returned_iff.1 rest
          cases rest
          exact .marks first (not_le.1 markPositive) (not_le.1 indexPositive)
  | adminFundingTick secret ts =>
      obtain ⟨checked, passed, rest⟩ := bind_returned_iff.1 handles
      obtain ⟨symbol, first, rest⟩ := bind_returned_iff.1 rest
      cases rest
      rw [secret_of_checked passed]
      exact .funds first
  | adminCredit secret userId amount ts =>
      obtain ⟨checked, passed, rest⟩ := bind_returned_iff.1 handles
      obtain ⟨value, -, rest⟩ := bind_returned_iff.1 rest
      rw [secret_of_checked passed]
      split at rest
      · cases rest
      · rename_i positive
        cases rest
        rw [Bool.not_eq_true, Bool.not_eq_false', Decimal128.isPositive_iff] at positive
        exact .credits positive

/-! ## What one step can do -/

/-- From one point to the next, for a task whose request comes with this step or came before. -/
inductive Goes (config : GatewayConfig) : Option Request → HandlerPoint → HandlerPoint → Prop where
  | begins {request : Request} {n : UInt64} {next : HandlerPoint}
      (handles : handle config request n = .returned next) : Goes config (some request) .idle next
  | claims {userId : UInt64} {body : PlaceOrderBody} {clientOrderId : Nat} {next : HandlerPoint}
      (numbers : numberOrder config userId body = .returned next) :
      Goes config none (.claiming userId body clientOrderId) next
  | draws {userId : UInt64} {body : PlaceOrderBody} {symbol : SymbolId} {orderId : UInt64} :
      Goes config none (.numbering userId body symbol) (.converting userId body symbol orderId)
  | names {email stored : String} {userId : UInt64} :
      Goes config none (.registering email) (.storing stored userId)
  | converts {userId : UInt64} {body : PlaceOrderBody} {symbol : SymbolId} {orderId : UInt64}
      {ts : UnixMicros} {next : HandlerPoint}
      (converted : convertOrder userId body symbol orderId ts = .returned next) :
      Goes config none (.converting userId body symbol orderId) next
  | ends {arrival : Option Request} {point : HandlerPoint} (elsewhere : point ≠ .pushing) :
      Goes config arrival point .answered
  | panics {arrival : Option Request} {point : HandlerPoint} {text : String}
      (elsewhere : point ≠ .pushing) : Goes config arrival point (.panicked text)

/-- The tasks that are answered 200 for a command, and the answers, in their order. -/
def acks {Task : Type} (log : List (AppEvent Task)) : List (Task × Ack) :=
  log.filterMap fun
    | .replied _ (.ok (.registered ..)) => none
    | .replied task (.ok ack) => some (task, ack)
    | _ => none

theorem acks_append {Task : Type} (before after : List (AppEvent Task)) :
    acks (before ++ after) = acks before ++ acks after := List.filterMap_append

/-- A step of a task by itself answers no command. -/
structure Advances {Task : Type} (config : GatewayConfig) (task : Task) (arrival : Option Request)
    (state next : AppState Task) (events : List (AppEvent Task)) : Prop where
  acks : acks events = []
  others : ∀ tested, tested ≠ task → next.point tested = state.point tested
  goes : next.point task = state.point task ∨
    Goes config arrival (state.point task) (next.point task)

section Advances

variable {Task : Type} [DecidableEq Task] {state changed : AppState Task} {task : Task}
variable {arrival : Option Request}

omit [DecidableEq Task] in
private theorem advances_silent (same : changed.point = state.point) :
    Advances config task arrival state changed [] where
  acks := rfl
  others tested _ := by rw [same]
  goes := Or.inl (by rw [same])

private theorem advances_move (same : changed.point = state.point) {next : HandlerPoint}
    (goes : Goes config arrival (state.point task) next) :
    Advances config task arrival state (changed.move task next) [] where
  acks := rfl
  others tested other := by rw [AppState.point_move_of_ne _ _ other, same]
  goes := Or.inr (by rwa [AppState.point_move_self])

private theorem advances_refuse (same : changed.point = state.point)
    (elsewhere : state.point task ≠ .pushing) (error : ApiError) :
    Advances config task arrival state (changed.reply task (.error error)).1
      (changed.reply task (.error error)).2 :=
  { advances_move same (.ends elsewhere) with acks := rfl }

private theorem advances_proceed (same : changed.point = state.point)
    (elsewhere : state.point task ≠ .pushing) {outcome : Converted HandlerPoint}
    (goes : ∀ next, outcome = .returned next → Goes config arrival (state.point task) next) :
    Advances config task arrival state (changed.proceed task outcome).1
      (changed.proceed task outcome).2 := by
  cases outcome with
  | returned next => exact advances_move same (goes next rfl)
  | refused error => exact advances_refuse same elsewhere error
  | panicked text => exact advances_move same (.panics elsewhere)

theorem advances_begin (request : Request) :
    Advances config task (some request) state (state.begin config task request).1
      (state.begin config task request).2 := by
  rw [AppState.begin]
  cases point : state.point task with
  | idle =>
      refine advances_proceed ?_ ?_ fun next returned => ?_
      · rfl
      · simp [point]
      · rw [point]
        exact .begins returned
  | _ => exact advances_silent rfl

theorem advances_claim (available : Bool) :
    Advances config task none state (state.claim config task available).1
      (state.claim config task available).2 := by
  rw [AppState.claim]
  cases point : state.point task with
  | claiming userId body clientOrderId =>
      have elsewhere : state.point task ≠ .pushing := by simp [point]
      dsimp only
      split
      · exact advances_refuse rfl elsewhere _
      · split
        · exact advances_refuse rfl elsewhere _
        · refine advances_proceed ?_ elsewhere fun next returned => ?_
          · rfl
          · rw [point]
            exact .claims returned
  | _ => exact advances_silent rfl

private theorem advances_nextId (gen : SnowflakeGen) (nowMs : UInt64) {next : UInt64 → HandlerPoint}
    (goes : ∀ id, Goes config arrival (state.point task) (next id)) :
    Advances config task arrival state (state.nextId gen task nowMs next) [] := by
  rw [AppState.nextId]
  split
  · exact advances_silent rfl
  · refine advances_move ?_ (goes _)
    rfl

theorem advances_clock (gen : SnowflakeGen) (nowMs : UInt64) :
    Advances config task none state (state.clock config gen task nowMs).1
      (state.clock config gen task nowMs).2 := by
  rw [AppState.clock]
  cases point : state.point task with
  | numbering userId body symbol =>
      refine advances_nextId gen nowMs fun id => ?_
      rw [point]
      exact .draws
  | registering email =>
      refine advances_nextId gen nowMs fun id => ?_
      rw [point]
      exact .names
  | _ => exact advances_silent rfl

theorem advances_convert (ts : UnixMicros) :
    Advances config task none state (state.convert task ts).1 (state.convert task ts).2 := by
  rw [AppState.convert]
  cases point : state.point task with
  | converting userId body symbol orderId =>
      refine advances_proceed rfl (by simp [point]) fun next returned => ?_
      rw [point]
      exact .converts returned
  | _ => exact advances_silent rfl

theorem advances_store (available : Bool) :
    Advances config task none state (state.store task available).1
      (state.store task available).2 := by
  rw [AppState.store]
  cases point : state.point task with
  | storing email userId =>
      have elsewhere : state.point task ≠ .pushing := by simp [point]
      dsimp only
      split
      · exact advances_refuse rfl elsewhere _
      · split
        · exact advances_refuse rfl elsewhere _
        · split
          · exact advances_refuse rfl elsewhere _
          · refine { advances_move ?_ (.ends elsewhere) with acks := rfl }
            rfl
  | _ => exact advances_silent rfl

omit [DecidableEq Task] in
/-- Only the producer's lock moves a task that is in `try_push`. -/
theorem Advances.pushing {next : AppState Task} {events : List (AppEvent Task)} {holder : Task}
    (advances : Advances config task arrival state next events)
    (pushing : state.point holder = .pushing) : next.point holder = .pushing := by
  by_cases same : holder = task
  · subst same
    rcases advances.goes with still | goes
    · rw [still, pushing]
    · rw [pushing] at goes
      generalize next.point holder = reached at goes
      cases goes with
      | ends elsewhere => exact absurd rfl elsewhere
      | panics elsewhere => exact absurd rfl elsewhere
  · rw [advances.others holder same, pushing]

end Advances

/-! ## Where a command comes from -/

/-- A request is entitled to a command: it bears a token of the command's user and the limiter
allows it, or it bears the secret of the admin server. -/
def Request.Authorizes (config : GatewayConfig) : Request → Command → Prop
  | .placeOrder authorization allowed _, .newOrder order =>
      allowed ∧ Bears config authorization order.userId
  | .cancelOrder authorization allowed body _, .cancelOrder orderId userId _ _ =>
      allowed ∧ Bears config authorization userId ∧ orderId = body.orderId
  | .amendOrder authorization allowed body _, .amendOrder amend =>
      allowed ∧ Bears config authorization amend.userId ∧ amend.orderId = body.orderId
  | .adminMarkPrice secret .., .updateMarkPrice _ mark index _ =>
      secret = some (some config.adminSecret) ∧ 0 < mark ∧ 0 < index
  | .adminFundingTick secret _, .computeFunding .. => secret = some (some config.adminSecret)
  | .adminCredit secret userId _ _, .adminCredit credited amount _ _ =>
      secret = some (some config.adminSecret) ∧ credited = userId.toNat ∧ 0 < amount
  | _, _ => False

/-- A task's handler has come from a request of this task. -/
def HandlerPoint.From (config : GatewayConfig) (came : Request → Prop) : HandlerPoint → Prop
  | .claiming userId .. | .numbering userId .. | .converting userId .. =>
      ∃ authorization body, came (.placeOrder authorization true body) ∧
        Bears config authorization userId.toNat
  | .sending command _ => ∃ request, came request ∧ request.Authorizes config command
  | _ => True

/-- The fields of a new order that the handler chooses. -/
theorem newOrder_fields {req : PlaceOrderRequest} {userId : UserId} {symbol : SymbolId}
    {orderId : OrderId} {timestamp : UnixMicros} {command : Command}
    (converted : toNewOrderCommand req userId symbol orderId timestamp = .returned command) :
    ∃ order, command = .newOrder order ∧ order.orderId = orderId ∧ order.userId = userId ∧
      order.symbol = symbol ∧
      order.clientOrderId = req.clientOrderId.bind fun text => parseWord text.toList := by
  obtain ⟨side, -, rest⟩ := bind_returned_iff.1 converted
  obtain ⟨orderType, -, rest⟩ := bind_returned_iff.1 rest
  obtain ⟨quantity, -, rest⟩ := bind_returned_iff.1 rest
  obtain ⟨timeInForce, -, rest⟩ := bind_returned_iff.1 rest
  obtain ⟨price, -, rest⟩ := bind_returned_iff.1 rest
  split at rest
  · cases rest
  · obtain ⟨stopPrice, -, rest⟩ := bind_returned_iff.1 rest
    obtain ⟨clientOrderId, read, rest⟩ := bind_returned_iff.1 rest
    cases rest
    refine ⟨_, rfl, rfl, rfl, rfl, ?_⟩
    cases text : req.clientOrderId with
    | none =>
        rw [text] at read
        cases read
        rfl
    | some text' =>
        rw [text] at read
        obtain ⟨value, parsed, same⟩ := bind_returned_iff.1 read
        cases same
        rw [parseClientOrderId] at parsed
        split at parsed
        · rename_i word
          cases parsed
          exact word.symm
        · cases parsed

theorem HandlerPoint.From.mono {came later : Request → Prop}
    (more : ∀ request, came request → later request) {point : HandlerPoint}
    (origin : point.From config came) : point.From config later := by
  cases point with
  | claiming | numbering | converting =>
      obtain ⟨authorization, body, requested, bears⟩ := origin
      exact ⟨authorization, body, more _ requested, bears⟩
  | sending =>
      obtain ⟨request, requested, authorizes⟩ := origin
      exact ⟨request, more request requested, authorizes⟩
  | _ => trivial

theorem from_move {Task : Type} [DecidableEq Task] {state : AppState Task}
    {came : Task → Request → Prop} (origin : ∀ task, (state.point task).From config (came task))
    (task : Task) (next : HandlerPoint) (here : next.From config (came task)) (tested : Task) :
    ((state.move task next).point tested).From config (came tested) := by
  by_cases same : tested = task
  · subst same
    rwa [AppState.point_move_self]
  · rw [AppState.point_move_of_ne state task same]
    exact origin tested

/-- A handler goes on with what its request is entitled to. -/
theorem from_goes {came : Request → Prop} {arrival : Option Request} {point next : HandlerPoint}
    (goes : Goes config arrival point next) (arrives : ∀ request ∈ arrival, came request)
    (origin : point.From config came) : next.From config came := by
  cases goes with
  | claims numbers =>
      obtain ⟨symbol, -, rest⟩ := bind_returned_iff.1 numbers
      cases rest
      exact origin
  | draws => exact origin
  | names => trivial
  | ends => trivial
  | panics => trivial
  | converts converted =>
      obtain ⟨command, converts, rest⟩ := bind_returned_iff.1 converted
      cases rest
      obtain ⟨authorization, body, requested, bears⟩ := origin
      obtain ⟨order, rfl, -, user, -⟩ := newOrder_fields converts
      exact ⟨_, requested, rfl, user ▸ bears⟩
  | @begins request n next handles =>
      have requested := arrives request rfl
      cases brings_of_handled handles with
      | numbers bears => exact ⟨_, _, requested, bears⟩
      | claims bears => exact ⟨_, _, requested, bears⟩
      | cancels bears => exact ⟨_, requested, rfl, bears, rfl⟩
      | amends bears => exact ⟨_, requested, rfl, bears, rfl⟩
      | registers => trivial
      | marks first markPositive indexPositive =>
          exact ⟨_, requested, rfl, markPositive, indexPositive⟩
      | funds => exact ⟨_, requested, rfl⟩
      | credits positive => exact ⟨_, requested, rfl, rfl, positive⟩

end Gateway
end Exg
