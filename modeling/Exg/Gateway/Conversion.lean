import Exg.Common.DecimalParser
import Exg.Protocol

/-!
# Requests as commands

The gateway's converters read the texts of a request one after the other and stop at the first
that is not valid.  A decimal may also make its parser panic.  Whatever becomes part of a
command is in range, and a new order never carries a visible quantity or a trailing delta.
-/

namespace Exg

structure ApiError where
  code : Int
  msg : String
  deriving DecidableEq, Repr

/-- The code `ERR_INVALID_PARAMETER` with a message. -/
def ApiError.badRequest (msg : String) : ApiError := ⟨-1100, msg⟩

/-- What a conversion can end in. -/
inductive Converted (α : Type) where
  | returned (value : α)
  | refused (error : ApiError)
  | panicked (text : String)
  deriving DecidableEq, Repr

namespace Converted

variable {α β : Type}

def andThen (outcome : Converted α) (rest : α → Converted β) : Converted β :=
  match outcome with
  | .returned value => rest value
  | .refused error => .refused error
  | .panicked text => .panicked text

instance : Monad Converted where
  pure := .returned
  bind := andThen

/-- `transpose` after `map`: only a value that is there is read. -/
def optional (text : Option String) (read : String → Converted α) : Converted (Option α) :=
  match text with
  | none => .returned none
  | some text => (read text).andThen fun value => .returned (some value)

theorem bind_returned_iff {outcome : Converted α} {rest : α → Converted β} {result : β} :
    outcome >>= rest = .returned result ↔
      ∃ value, outcome = .returned value ∧ rest value = .returned result := by
  cases outcome with
  | returned value =>
      constructor
      · exact fun later => ⟨value, rfl, later⟩
      · intro found
        obtain ⟨_, same, later⟩ := found
        cases same
        exact later
  | refused error => exact iff_of_false (fun later => by cases later) (by simp)
  | panicked text => exact iff_of_false (fun later => by cases later) (by simp)

end Converted

/-! ## The texts of a request -/

namespace Gateway

open Converted

def stringToSide (s : String) : Converted Side :=
  match s with
  | "BUY" => .returned .buy
  | "SELL" => .returned .sell
  | _ => .refused (.badRequest ("Invalid side: " ++ s))

def stringToOrderType (s : String) : Converted OrderType :=
  match s with
  | "LIMIT" => .returned .limit
  | "MARKET" => .returned .market
  | "STOP_MARKET" => .returned .stopMarket
  | "STOP_LIMIT" => .returned .stopLimit
  | "TAKE_PROFIT_MARKET" => .returned .takeProfitMarket
  | "TAKE_PROFIT_LIMIT" => .returned .takeProfitLimit
  | "TRAILING_STOP" => .returned .trailingStop
  | "ICEBERG" => .returned .iceberg
  | _ => .refused (.badRequest ("Invalid order type: " ++ s))

def stringToTif (s : String) : Converted TimeInForce :=
  match s with
  | "GTC" => .returned .gtc
  | "IOC" => .returned .ioc
  | "FOK" => .returned .fok
  | "GTD" => .returned .gtd
  | "POST_ONLY" => .returned .postOnly
  | _ => .refused (.badRequest ("Invalid time in force: " ++ s))

/-- Parse a decimal; the message of a refusal is made from the parser's error. -/
def readDecimal (message : String → String) (s : String) : Converted Decimal128 :=
  match Decimal128.fromStr s with
  | .parsed value => .returned value
  | .rejected error => .refused (.badRequest (message ("invalid decimal: " ++ error)))
  | .panicked text => .panicked text

def parseDecimal (field s : String) : Converted Decimal128 :=
  readDecimal (fun _ => "Invalid " ++ field ++ ": " ++ s) s

/-- The loop of the parser of `u64`. -/
def readWord : List Char → Nat → Option Nat
  | [], result => some result
  | char :: rest, result =>
      (I128.toDigit char).bind fun digit =>
        if result * 10 + digit < 2 ^ 64 then readWord rest (result * 10 + digit) else none

/-- `str::parse::<u64>`: a plus sign may stand before the digits. -/
def parseWord (text : List Char) : Option Nat :=
  match text with
  | [] => none
  | ['+'] => none
  | '+' :: digits => readWord digits 0
  | digits => readWord digits 0

def parseClientOrderId (s : String) : Converted Nat :=
  match parseWord s.toList with
  | some value => .returned value
  | none => .refused (.badRequest ("Invalid client_order_id: " ++ s))

/-! ## The converters -/

/-- What `to_new_order_command` reads of a request. -/
structure PlaceOrderRequest where
  side : String
  orderType : String
  timeInForce : Option String
  quantity : String
  price : Option String
  stopPrice : Option String
  reduceOnly : Option Bool
  clientOrderId : Option String

def defaultTif : OrderType → TimeInForce
  | .market => .ioc
  | _ => .gtc

def toNewOrderCommand (req : PlaceOrderRequest) (userId : UserId) (symbol : SymbolId)
    (orderId : OrderId) (timestamp : UnixMicros) : Converted Command := do
  let side ← stringToSide req.side
  let orderType ← stringToOrderType req.orderType
  let quantity ← parseDecimal "quantity" req.quantity
  let timeInForce ← optional req.timeInForce stringToTif
  let price ← optional req.price (parseDecimal "price")
  if orderType.isLimit && price.isNone then
    .refused (.badRequest "Limit order requires a price")
  else do
    let stopPrice ← optional req.stopPrice (parseDecimal "stop_price")
    let clientOrderId ← optional req.clientOrderId parseClientOrderId
    .returned (.newOrder {
      orderId := orderId
      userId := userId
      symbol := symbol
      side := side
      orderType := orderType
      timeInForce := timeInForce.getD (defaultTif orderType)
      price := price
      quantity := quantity
      stopPrice := stopPrice
      trailingDelta := none
      visibleQuantity := none
      reduceOnly := req.reduceOnly.getD false
      marginMode := .cross
      leverage := none
      clientOrderId := clientOrderId
      timestamp := timestamp })

/-- What `to_cancel_order_command` reads of a request. -/
structure CancelOrderRequest where
  orderId : OrderId

def toCancelOrderCommand (req : CancelOrderRequest) (userId : UserId) (symbol : SymbolId)
    (ts : UnixMicros) : Converted Command :=
  .returned (.cancelOrder req.orderId userId symbol ts)

/-- What `to_amend_order_command` reads of a request. -/
structure AmendOrderRequest where
  orderId : OrderId
  newPrice : Option String
  newQuantity : Option String

def toAmendOrderCommand (req : AmendOrderRequest) (userId : UserId) (symbol : SymbolId)
    (ts : UnixMicros) : Converted Command :=
  if req.newPrice.isNone && req.newQuantity.isNone then
    .refused (.badRequest "amend: at least one of newPrice or newQuantity must be present")
  else do
    let newPrice ← optional req.newPrice (readDecimal fun error => "newPrice: " ++ error)
    let newQuantity ← optional req.newQuantity (readDecimal fun error => "newQuantity: " ++ error)
    .returned (.amendOrder {
      orderId := req.orderId
      userId := userId
      symbol := symbol
      newPrice := newPrice
      newQuantity := newQuantity
      timestamp := ts })

/-- The commands that the converters return. -/
inductive Converts : Command → Prop where
  | newOrder {req : PlaceOrderRequest} {userId : UserId} {symbol : SymbolId} {orderId : OrderId}
      {timestamp : UnixMicros} {command : Command}
      (converted : toNewOrderCommand req userId symbol orderId timestamp = .returned command) :
      Converts command
  | cancelOrder {req : CancelOrderRequest} {userId : UserId} {symbol : SymbolId} {ts : UnixMicros}
      {command : Command}
      (converted : toCancelOrderCommand req userId symbol ts = .returned command) :
      Converts command
  | amendOrder {req : AmendOrderRequest} {userId : UserId} {symbol : SymbolId} {ts : UnixMicros}
      {command : Command}
      (converted : toAmendOrderCommand req userId symbol ts = .returned command) :
      Converts command

/-! ## What a command carries -/

private theorem readDecimal_inRange {message : String → String} {s : String} {value : Decimal128}
    (read : readDecimal message s = .returned value) : value.InRange := by
  rw [readDecimal] at read
  split at read
  · rename_i parsed
    cases read
    exact (Decimal128.inRange_of_parsed parsed).1
  · cases read
  · cases read

private theorem optional_returned {α : Type} {text : Option String} {read : String → Converted α}
    {value : α} (found : optional text read = .returned (some value)) :
    ∃ s, read s = .returned value := by
  cases text with
  | none => cases found
  | some s =>
      obtain ⟨result, converted, same⟩ := Converted.bind_returned_iff.1 found
      cases same
      exact ⟨s, converted⟩

theorem newOrder_of_converted {req : PlaceOrderRequest} {userId : UserId} {symbol : SymbolId}
    {orderId : OrderId} {timestamp : UnixMicros} {command : Command}
    (converted : toNewOrderCommand req userId symbol orderId timestamp = .returned command) :
    ∃ order, command = .newOrder order ∧ order.visibleQuantity = none ∧
      order.quantity.InRange ∧ ∀ price, order.price = some price → price.InRange := by
  obtain ⟨side, -, rest⟩ := bind_returned_iff.1 converted
  obtain ⟨orderType, -, rest⟩ := bind_returned_iff.1 rest
  obtain ⟨quantity, quantityRead, rest⟩ := bind_returned_iff.1 rest
  obtain ⟨timeInForce, -, rest⟩ := bind_returned_iff.1 rest
  obtain ⟨price, priceRead, rest⟩ := bind_returned_iff.1 rest
  split at rest
  · cases rest
  · obtain ⟨stopPrice, -, rest⟩ := bind_returned_iff.1 rest
    obtain ⟨clientOrderId, -, rest⟩ := bind_returned_iff.1 rest
    cases rest
    refine ⟨_, rfl, rfl, readDecimal_inRange quantityRead, fun value isPrice => ?_⟩
    cases isPrice
    obtain ⟨s, read⟩ := optional_returned priceRead
    exact readDecimal_inRange read

theorem amendOrder_of_converted {req : AmendOrderRequest} {userId : UserId} {symbol : SymbolId}
    {ts : UnixMicros} {command : Command}
    (converted : toAmendOrderCommand req userId symbol ts = .returned command) :
    ∃ amend, command = .amendOrder amend ∧
      (∀ price, amend.newPrice = some price → price.InRange) ∧
      ∀ quantity, amend.newQuantity = some quantity → quantity.InRange := by
  rw [toAmendOrderCommand] at converted
  split at converted
  · cases converted
  · obtain ⟨newPrice, priceRead, rest⟩ := bind_returned_iff.1 converted
    obtain ⟨newQuantity, quantityRead, rest⟩ := bind_returned_iff.1 rest
    cases rest
    refine ⟨_, rfl, fun value isPrice => ?_, fun value isQuantity => ?_⟩
    · cases isPrice
      obtain ⟨s, read⟩ := optional_returned priceRead
      exact readDecimal_inRange read
    · cases isQuantity
      obtain ⟨s, read⟩ := optional_returned quantityRead
      exact readDecimal_inRange read

end Gateway
end Exg
