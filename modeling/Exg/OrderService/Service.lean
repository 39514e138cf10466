import Exg.Protocol
import Std.Data.ExtTreeMap

/-!
# The order service

The order service keeps a record of every order, created from the command and updated by the
events of the matching engine.  It sees the events only: a rejection does not say whether a new
order, a cancel or an amendment was refused.
-/

namespace Exg

/-- Record of a single fill (partial or full execution). -/
structure FillRecord where
  tradeId : TradeId
  price : Decimal128
  qty : Decimal128
  isMaker : Bool
  commission : Decimal128
  timestamp : UnixMicros
  deriving DecidableEq, Repr

/-- Full order record tracking lifecycle from creation to terminal state. -/
structure Order where
  orderId : OrderId
  userId : UserId
  symbol : SymbolId
  clientOrderId : Option Nat
  side : Side
  orderType : OrderType
  timeInForce : TimeInForce
  price : Option Decimal128
  stopPrice : Option Decimal128
  originalQty : Decimal128
  executedQty : Decimal128
  remainingQty : Decimal128
  status : OrderStatus
  marginMode : MarginMode
  leverage : Option Decimal128
  reduceOnly : Bool
  avgFillPrice : Decimal128
  totalFilledQuote : Decimal128
  commission : Decimal128
  createdAt : UnixMicros
  updatedAt : UnixMicros
  fills : List FillRecord
  deriving DecidableEq, Repr

/-- The order in which a map keyed by user and client order id is stored here. -/
abbrev clientOrder : UserId × Nat → UserId × Nat → Ordering :=
  (@lexOrd Nat Nat _ _).compare

/-- In-memory order management service. -/
structure OrderService where
  /-- Active orders. -/
  orders : Std.ExtTreeMap OrderId Order
  userActiveOrders : Std.ExtTreeMap UserId (List OrderId)
  clientOrderMap : Std.ExtTreeMap (UserId × Nat) OrderId clientOrder
  /-- Recent completed orders, oldest first. -/
  completedOrders : List Order
  maxCompletedHistory : Nat

/-- The record of a new order. -/
def NewOrder.record (order : NewOrder) : Order where
  orderId := order.orderId
  userId := order.userId
  symbol := order.symbol
  clientOrderId := order.clientOrderId
  side := order.side
  orderType := order.orderType
  timeInForce := order.timeInForce
  price := order.price
  stopPrice := order.stopPrice
  originalQty := order.quantity
  executedQty := 0
  remainingQty := order.quantity
  status := .new
  marginMode := order.marginMode
  leverage := order.leverage
  reduceOnly := order.reduceOnly
  avgFillPrice := 0
  totalFilledQuote := 0
  commission := 0
  createdAt := order.timestamp
  updatedAt := order.timestamp
  fills := []

/-- The record made from an event alone: its side is a placeholder. -/
def minimalRecord (orderId : OrderId) (userId : UserId) (symbol : SymbolId)
    (clientOrderId : Option Nat) (status : OrderStatus) (timestamp : UnixMicros) : Order where
  orderId := orderId
  userId := userId
  symbol := symbol
  clientOrderId := clientOrderId
  side := .buy
  orderType := .limit
  timeInForce := .gtc
  price := none
  stopPrice := none
  originalQty := 0
  executedQty := 0
  remainingQty := 0
  status := status
  marginMode := .cross
  leverage := none
  reduceOnly := false
  avgFillPrice := 0
  totalFilledQuote := 0
  commission := 0
  createdAt := timestamp
  updatedAt := timestamp
  fills := []

namespace OrderService

def new (maxCompletedHistory : Nat) : OrderService where
  orders := ∅
  userActiveOrders := ∅
  clientOrderMap := ∅
  completedOrders := []
  maxCompletedHistory := maxCompletedHistory

/-- Get order by ID. -/
def getOrder (service : OrderService) (orderId : OrderId) : Option Order :=
  service.orders[orderId]?

/-- Store a record and index it. -/
def insertRecord (service : OrderService) (order : Order) : OrderService :=
  { service with
    orders := service.orders.insert order.orderId order
    userActiveOrders := service.userActiveOrders.alter order.userId fun ids =>
      some (ids.getD [] ++ [order.orderId])
    clientOrderMap := order.clientOrderId.elim service.clientOrderMap fun clientId =>
      service.clientOrderMap.insert (order.userId, clientId) order.orderId }

/-- Replace the record of an active order. -/
def updateRecord (service : OrderService) (orderId : OrderId) (order : Order) : OrderService :=
  { service with orders := service.orders.insert orderId order }

/-- Create a new order record from a NewOrder command. -/
def createOrder (service : OrderService) : Command → OrderService × Option Order
  | .newOrder order =>
      match service.getOrder order.orderId with
      | some existing => (service, some existing)
      | none => (service.insertRecord order.record, some order.record)
  | _ => (service, none)

/-- Push an order into the completed ring buffer, evicting oldest if at capacity. -/
def pushCompleted (service : OrderService) (order : Order) : OrderService :=
  { service with
    completedOrders :=
      (if service.maxCompletedHistory ≤ service.completedOrders.length then
        service.completedOrders.tail
      else
        service.completedOrders) ++ [order] }

/-- Move an order from active to completed, updating the indices of the given user. -/
def moveToCompleted (service : OrderService) (orderId : OrderId) (userId : UserId) :
    OrderService :=
  match service.getOrder orderId with
  | none => service
  | some order =>
      let removed := { service with
        orders := service.orders.erase orderId
        userActiveOrders := service.userActiveOrders.alter userId fun ids =>
          ids.bind fun ids =>
            let kept := ids.filter (· ≠ orderId)
            if kept.isEmpty then none else some kept
        clientOrderMap := order.clientOrderId.elim service.clientOrderMap fun clientId =>
          service.clientOrderMap.erase (userId, clientId) }
      removed.pushCompleted order

/-- Placeholder: the type is not looked up. -/
def isConditionalOrderTypeFromContext (_service : OrderService) : Bool := false

def handleOrderAccepted (service : OrderService) (orderId : OrderId) (userId : UserId)
    (symbol : SymbolId) (clientOrderId : Option Nat) (timestamp : UnixMicros) : OrderService :=
  match service.getOrder orderId with
  | some order =>
      if order.status ≠ .new ∨ order.fills ≠ [] then
        service
      else
        service.updateRecord orderId
          { order with
            status := if order.orderType.isConditional then .pendingTrigger else order.status
            updatedAt := timestamp }
  | none =>
      let status :=
        if service.isConditionalOrderTypeFromContext then OrderStatus.pendingTrigger else .new
      service.insertRecord (minimalRecord orderId userId symbol clientOrderId status timestamp)

def handleOrderRejected (service : OrderService) (orderId : OrderId) (userId : UserId)
    (timestamp : UnixMicros) : OrderService :=
  match service.getOrder orderId with
  | some order =>
      if order.status.isTerminal then
        service
      else
        (service.updateRecord orderId
          { order with status := .rejected, updatedAt := timestamp }).moveToCompleted orderId userId
  | none =>
      if service.completedOrders.any fun order => order.orderId = orderId then
        service
      else
        service.pushCompleted (minimalRecord orderId userId 0 none .rejected timestamp)

/-- The record of an order with one more fill. -/
def filledRecord (order : Order) (tradeId : TradeId) (fillPrice fillQty : Decimal128)
    (isMaker : Bool) (remainingQty : Decimal128) (timestamp : UnixMicros) : Order :=
  let executedQty := order.executedQty + fillQty
  let totalFilledQuote := order.totalFilledQuote + fillPrice * fillQty
  { order with
    fills := order.fills ++ [{
      tradeId := tradeId
      price := fillPrice
      qty := fillQty
      isMaker := isMaker
      commission := 0
      timestamp := timestamp }]
    executedQty := executedQty
    remainingQty := remainingQty
    totalFilledQuote := totalFilledQuote
    avgFillPrice :=
      if executedQty.isZero then order.avgFillPrice else totalFilledQuote / executedQty
    updatedAt := timestamp
    status := if remainingQty.isZero then .filled else .partiallyFilled }

def handleOrderFilled (service : OrderService) (orderId : OrderId) (tradeId : TradeId)
    (fillPrice fillQty : Decimal128) (isMaker : Bool) (remainingQty : Decimal128)
    (timestamp : UnixMicros) : OrderService :=
  match service.getOrder orderId with
  | none => service
  | some order =>
      if order.fills.any fun fill => fill.tradeId = tradeId then
        service
      else if order.status.isTerminal then
        service
      else
        let updated := service.updateRecord orderId
          (filledRecord order tradeId fillPrice fillQty isMaker remainingQty timestamp)
        if remainingQty.isZero then updated.moveToCompleted orderId order.userId else updated

def handleOrderCanceled (service : OrderService) (orderId : OrderId) (timestamp : UnixMicros) :
    OrderService :=
  match service.getOrder orderId with
  | none => service
  | some order =>
      if order.status.isTerminal then
        service
      else
        (service.updateRecord orderId
          { order with status := .canceled, updatedAt := timestamp }).moveToCompleted orderId
            order.userId

/-- Process an event from the matching engine, updating order state. -/
def applyEvent (service : OrderService) : Event → OrderService
  | .orderAccepted accepted =>
      service.handleOrderAccepted accepted.orderId accepted.userId accepted.symbol
        accepted.clientOrderId accepted.timestamp
  | .orderRejected orderId userId _ timestamp =>
      service.handleOrderRejected orderId userId timestamp
  | .orderFilled filled =>
      service.handleOrderFilled filled.orderId filled.tradeId filled.fillPrice filled.fillQty
        filled.isMaker filled.remainingQty filled.timestamp
  | .orderCanceled orderId _ _ _ timestamp => service.handleOrderCanceled orderId timestamp
  | _ => service

end OrderService
end Exg
