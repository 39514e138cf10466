import Exg.Clearing.PostTrade
import Exg.Common.Snowflake
import Exg.Config.Validation
import Exg.Gateway.Conversion

/-!
# Handlers

Each request runs in a task of its own.  A handler answers it, or brings a command as far as the
producer's lock; between its steps other tasks run.  The tasks share the tables of the database,
the generator of identifiers and the counter of admin credits.  The verdicts of the rate limiter
and of the database are inputs, and so are clock readings.
-/

namespace Exg

open Support Converted

namespace ApiError

def unauthorized (msg : String) : ApiError := ⟨-1002, msg⟩
def userRateLimited (msg : String) : ApiError := ⟨-1003, msg⟩
def duplicateResource (msg : String) : ApiError := ⟨-1014, msg⟩
def internal (msg : String) : ApiError := ⟨-1000, msg⟩
def dbUnavailable : ApiError := internal "database unavailable"

end ApiError

namespace Gateway

/-- What a handler reads of the configuration, and the services it calls. -/
structure GatewayConfig where
  symbols : List SymbolConfigEntry
  adminSecret : String
  /-- The user a token is valid for. -/
  verifyJwt : String → Option UInt64
  toLowercase : String → String

/-- A header may be missing, and its value need not be ASCII. -/
abbrev Header := Option (Option String)

/-! ## Requests -/

structure PlaceOrderBody extends PlaceOrderRequest where
  symbol : String

structure CancelOrderBody extends CancelOrderRequest where
  symbol : String

structure AmendOrderBody extends AmendOrderRequest where
  symbol : String

/-- The requests that reach a handler, with the verdict of the rate limiter and the reading of
the clock where the handler asks for them before its first suspension. -/
inductive Request where
  | placeOrder (authorization : Header) (allowed : Bool) (body : PlaceOrderBody)
  | cancelOrder (authorization : Header) (allowed : Bool) (body : CancelOrderBody)
      (ts : UnixMicros)
  | amendOrder (authorization : Header) (allowed : Bool) (body : AmendOrderBody) (ts : UnixMicros)
  | register (allowed : Bool) (email password : String) (passwordHash : Except String String)
  | adminMarkPrice (secret : Header) (markPrice indexPrice : String) (ts : UnixMicros)
  | adminFundingTick (secret : Header) (ts : UnixMicros)
  | adminCredit (secret : Header) (userId : UInt64) (amount : String) (ts : UnixMicros)

/-- The bodies of the answers 200 and 201. -/
inductive Ack where
  | placed (orderId : String) (clientOrderId : Option String)
  | acknowledged (orderId : String)
  | adminAccepted
  | registered (userId email : String)
  deriving DecidableEq, Repr

def Ack.status : Ack → String
  | .registered .. => "REGISTERED"
  | _ => "ACCEPTED"

/-- Where the handler of a request is. -/
inductive HandlerPoint where
  /-- The request has not come yet. -/
  | idle
  /-- Before the insertion of a client order id. -/
  | claiming (userId : UInt64) (body : PlaceOrderBody) (clientOrderId : Nat)
  /-- In `next_id`, for an order. -/
  | numbering (userId : UInt64) (body : PlaceOrderBody) (symbol : SymbolId)
  | converting (userId : UInt64) (body : PlaceOrderBody) (symbol : SymbolId) (orderId : UInt64)
  /-- In `next_id`, for a user. -/
  | registering (email : String)
  /-- Before the insertion of a user. -/
  | storing (email : String) (userId : UInt64)
  /-- Before the producer's lock. -/
  | sending (command : Command) (ack : Ack)
  /-- In `try_push`. -/
  | pushing
  | answered
  | panicked (text : String)

/-! ## Checks -/

def stripPrefix (head s : String) : Option String :=
  if head.toList.isPrefixOf s.toList then some (String.ofList (s.toList.drop head.length)) else none

variable (config : GatewayConfig)

def extractUserIdFromJwt (authorization : Header) : Converted UInt64 :=
  match authorization with
  | none => .refused (.unauthorized "missing Authorization header")
  | some none => .refused (.unauthorized "Authorization not valid ASCII")
  | some (some s) =>
      match stripPrefix "Bearer " s with
      | none => .refused (.unauthorized "Authorization must be 'Bearer <jwt>'")
      | some token =>
          match config.verifyJwt token with
          | none => .refused (.unauthorized "invalid or expired token")
          | some userId => .returned userId

def consumeBucket (allowed : Bool) (msg : String) : Converted Unit :=
  if allowed then .returned () else .refused (.userRateLimited msg)

def consumeUserBucket (allowed : Bool) : Converted Unit :=
  consumeBucket allowed "rate limit exceeded for user"

def lookupSymbolId (name : String) : Converted SymbolId :=
  match config.symbols.find? (·.name = name) with
  | some symbol => .returned symbol.id
  | none => .refused (.badRequest ("unknown symbol: " ++ name))

def checkAdminSecret (secret : Header) : Converted Unit :=
  match secret with
  | none | some none => .refused (.unauthorized "missing X-Admin-Secret header")
  | some (some provided) =>
      if provided = config.adminSecret then .returned ()
      else .refused (.unauthorized "invalid X-Admin-Secret")

/-- `symbols[0]`. -/
def firstSymbol : Converted SymbolId :=
  match config.symbols with
  | symbol :: _ => .returned symbol.id
  | [] => .panicked "index out of bounds: the len is 0 but the index is 0"

/-! ## Handlers -/

/-- `place_order` after its clientOrderId has been claimed. -/
def numberOrder (userId : UInt64) (body : PlaceOrderBody) : Converted HandlerPoint := do
  let symbol ← lookupSymbolId config body.symbol
  .returned (.numbering userId body symbol)

def placeOrder (authorization : Header) (allowed : Bool) (body : PlaceOrderBody) :
    Converted HandlerPoint := do
  let userId ← extractUserIdFromJwt config authorization
  consumeUserBucket allowed
  match body.clientOrderId with
  | none => numberOrder config userId body
  | some text =>
      match parseWord text.toList with
      | none => .refused (.badRequest "clientOrderId must be numeric")
      | some clientOrderId =>
          if clientOrderId > 9223372036854775807 then
            .refused (.badRequest
              "clientOrderId must fit in signed 64-bit (max 9223372036854775807)")
          else .returned (.claiming userId body clientOrderId)

/-- `place_order` once it has an identifier. -/
def convertOrder (userId : UInt64) (body : PlaceOrderBody) (symbol : SymbolId) (orderId : UInt64)
    (ts : UnixMicros) : Converted HandlerPoint := do
  let command ← toNewOrderCommand body.toPlaceOrderRequest userId.toNat symbol orderId.toNat ts
  .returned (.sending command (.placed (toString orderId.toNat) body.clientOrderId))

def cancelOrder (authorization : Header) (allowed : Bool) (body : CancelOrderBody)
    (ts : UnixMicros) : Converted HandlerPoint := do
  let userId ← extractUserIdFromJwt config authorization
  consumeUserBucket allowed
  let symbol ← lookupSymbolId config body.symbol
  let command ← toCancelOrderCommand body.toCancelOrderRequest userId.toNat symbol ts
  .returned (.sending command (.acknowledged (toString body.orderId)))

def amendOrder (authorization : Header) (allowed : Bool) (body : AmendOrderBody)
    (ts : UnixMicros) : Converted HandlerPoint := do
  let userId ← extractUserIdFromJwt config authorization
  consumeUserBucket allowed
  let symbol ← lookupSymbolId config body.symbol
  let command ← toAmendOrderCommand body.toAmendOrderRequest userId.toNat symbol ts
  .returned (.sending command (.acknowledged (toString body.orderId)))

/-- `register`, up to the identifier that `register_user` draws. -/
def register (allowed : Bool) (email password : String) (passwordHash : Except String String) :
    Converted HandlerPoint := do
  consumeBucket allowed "register rate limit exceeded"
  if email.utf8ByteSize = 0 ∨ email.utf8ByteSize > 254 then
    .refused (.badRequest "email length must be 1-254")
  else if password.utf8ByteSize < 8 ∨ password.utf8ByteSize > 128 then
    .refused (.badRequest "password length must be 8-128")
  else
    match passwordHash with
    | .error msg => .refused (.internal msg)
    | .ok _ => .returned (.registering email)

def adminMarkPrice (secret : Header) (markPrice indexPrice : String) (ts : UnixMicros) :
    Converted HandlerPoint := do
  checkAdminSecret config secret
  let markPrice ← readDecimal (fun _ => "markPrice must be a decimal") markPrice
  let indexPrice ← readDecimal (fun _ => "indexPrice must be a decimal") indexPrice
  if indexPrice ≤ 0 then .refused (.badRequest "indexPrice must be positive")
  else if markPrice ≤ 0 then .refused (.badRequest "markPrice must be positive")
  else do
    let symbol ← firstSymbol config
    .returned (.sending (.updateMarkPrice symbol markPrice indexPrice ts) .adminAccepted)

def adminFundingTick (secret : Header) (ts : UnixMicros) : Converted HandlerPoint := do
  checkAdminSecret config secret
  let symbol ← firstSymbol config
  .returned (.sending (.computeFunding symbol ts) .adminAccepted)

/-- `admin_credit`, with the number that it draws from `ADMIN_CREDIT_SEQ`. -/
def adminCredit (secret : Header) (userId : UInt64) (amount : String) (ts : UnixMicros)
    (n : UInt64) : Converted HandlerPoint := do
  checkAdminSecret config secret
  let amount ← readDecimal (fun _ => "amount must be a decimal") amount
  if !amount.isPositive then .refused (.badRequest "amount must be positive")
  else
    .returned (.sending
      (.adminCredit userId.toNat amount (adminCreditKey userId.toNat ts n.toNat) ts) .adminAccepted)

/-- What the handler of a request does before it is suspended or takes the lock. -/
def handle (request : Request) (adminCreditSeq : UInt64) : Converted HandlerPoint :=
  match request with
  | .placeOrder authorization allowed body => placeOrder config authorization allowed body
  | .cancelOrder authorization allowed body ts => cancelOrder config authorization allowed body ts
  | .amendOrder authorization allowed body ts => amendOrder config authorization allowed body ts
  | .register allowed email password passwordHash => register allowed email password passwordHash
  | .adminMarkPrice secret markPrice indexPrice ts =>
      adminMarkPrice config secret markPrice indexPrice ts
  | .adminFundingTick secret ts => adminFundingTick config secret ts
  | .adminCredit secret userId amount ts =>
      adminCredit config secret userId amount ts adminCreditSeq

/-- The number for the next admin credit.  Only a credit that has passed its checks draws one. -/
def countCredit (adminCreditSeq : UInt64) : Converted HandlerPoint → UInt64
  | .returned (.sending (.adminCredit ..) _) => adminCreditSeq + 1
  | _ => adminCreditSeq

/-! ## Shared state -/

/-- The rows of `user_client_order_ids`. -/
abbrev ClientOrderRow := Int64 × Int64

/-- The primary key of a claim, with both columns as `BIGINT`. -/
def clientOrderRow (userId clientOrderId : Nat) : ClientOrderRow :=
  ((UInt64.ofNat userId).toInt64, (UInt64.ofNat clientOrderId).toInt64)

/-- What the tasks share besides the producer, and where each of them is. -/
structure AppState (Task : Type) where
  clientOrders : List ClientOrderRow
  /-- The addresses and identifiers of the table of users. -/
  users : List (String × Int64)
  snowflake : SharedWord Task UInt64 UInt64 UInt64
  adminCreditSeq : UInt64
  point : Task → HandlerPoint

/-- What the tasks show: their answers, and the users they store. -/
inductive AppEvent (Task : Type) where
  | replied (task : Task) (reply : Except ApiError Ack)
  | stored (email : String) (userId : UInt64)

namespace AppState

variable {Task : Type} [DecidableEq Task] (gen : SnowflakeGen) (state : AppState Task)
variable (task : Task)

def move (point : HandlerPoint) : AppState Task :=
  { state with point := Function.update state.point task point }

@[simp] theorem point_move_self (point : HandlerPoint) :
    (state.move task point).point task = point := by simp [move]

theorem point_move_of_ne {tested : Task} (other : tested ≠ task) (point : HandlerPoint) :
    (state.move task point).point tested = state.point tested := by simp [move, other]

def reply (answer : Except ApiError Ack) : AppState Task × List (AppEvent Task) :=
  (state.move task .answered, [.replied task answer])

/-- A handler goes on, or ends with an error or a panic. -/
def proceed (outcome : Converted HandlerPoint) : AppState Task × List (AppEvent Task) :=
  match outcome with
  | .returned point => (state.move task point, [])
  | .refused error => state.reply task (.error error)
  | .panicked text => (state.move task (.panicked text), [])

/-- A request comes. -/
def begin (request : Request) : AppState Task × List (AppEvent Task) :=
  match state.point task with
  | .idle =>
      let outcome := handle config request state.adminCreditSeq
      { state with adminCreditSeq := countCredit state.adminCreditSeq outcome }.proceed task outcome
  | _ => (state, [])

/-- The insertion of a client order id, which conflicts with an equal row. -/
def claim (available : Bool) : AppState Task × List (AppEvent Task) :=
  match state.point task with
  | .claiming userId body clientOrderId =>
      let row := clientOrderRow userId.toNat clientOrderId
      if !available then state.reply task (.error .dbUnavailable)
      else if row ∈ state.clientOrders then
        state.reply task (.error (.duplicateResource "duplicate clientOrderId"))
      else
        { state with clientOrders := state.clientOrders ++ [row] }.proceed task
          (numberOrder config userId body)
  | _ => (state, [])

/-- A step of `next_id`, after which the handler goes on when it has an identifier. -/
def nextId (nowMs : UInt64) (next : UInt64 → HandlerPoint) : AppState Task :=
  let exchanged := exchangeStep gen.nextId state.snowflake ⟨task, nowMs⟩
  let turned := { state with snowflake := exchanged.1 }
  match exchanged.2 with
  | [] => turned
  | id :: _ => turned.move task (next id)

def clock (nowMs : UInt64) : AppState Task × List (AppEvent Task) :=
  match state.point task with
  | .numbering userId body symbol =>
      (state.nextId gen task nowMs (.converting userId body symbol), [])
  | .registering email =>
      (state.nextId gen task nowMs (.storing (config.toLowercase email)), [])
  | _ => (state, [])

def convert (ts : UnixMicros) : AppState Task × List (AppEvent Task) :=
  match state.point task with
  | .converting userId body symbol orderId =>
      state.proceed task (convertOrder userId body symbol orderId ts)
  | _ => (state, [])

/-- The insertion of a user, whose address and identifier are unique. -/
def store (available : Bool) : AppState Task × List (AppEvent Task) :=
  match state.point task with
  | .storing email userId =>
      if !available then state.reply task (.error .dbUnavailable)
      else if email ∈ state.users.map (·.1) then
        state.reply task (.error (.duplicateResource "email already registered"))
      else if userId.toInt64 ∈ state.users.map (·.2) then
        state.reply task (.error .dbUnavailable)
      else
        let stored := { state with users := state.users ++ [(email, userId.toInt64)] }
        let replied := stored.reply task (.ok (.registered (toString userId.toNat) email))
        (replied.1, .stored email userId :: replied.2)
  | _ => (state, [])

end AppState
end Gateway
end Exg
