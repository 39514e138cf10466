import Exg.Common.Decimal
import Exg.Common.Types

/-!
# Commands and events

`Command` is what the gateway and the admin server put into the ring buffer, `Event`
is what the matching thread writes to the log.  Variants with many fields carry them in
a structure of the variant's name.
-/

namespace Exg

inductive RejectReason where
  | insufficientMargin
  | positionLimitExceeded
  | priceOutOfBand
  | selfTradePrevented
  | rateLimitExceeded
  | postOnlyWouldTake
  | fokNotFillable
  | symbolSuspended
  | markPriceStale
  | invalidOrder
  | duplicateOrder
  | orderNotFound
  deriving DecidableEq, Repr

/-- The fields of `Command::NewOrder`. -/
structure NewOrder where
  orderId : OrderId
  userId : UserId
  symbol : SymbolId
  side : Side
  orderType : OrderType
  timeInForce : TimeInForce
  price : Option Decimal128
  quantity : Decimal128
  stopPrice : Option Decimal128
  trailingDelta : Option Decimal128
  visibleQuantity : Option Decimal128
  reduceOnly : Bool
  marginMode : MarginMode
  leverage : Option Decimal128
  clientOrderId : Option Nat
  timestamp : UnixMicros
  deriving DecidableEq, Repr

/-- The fields of `Command::AmendOrder`. -/
structure AmendOrder where
  orderId : OrderId
  userId : UserId
  symbol : SymbolId
  newPrice : Option Decimal128
  newQuantity : Option Decimal128
  timestamp : UnixMicros
  deriving DecidableEq, Repr

/-- Input messages to the matching engine. -/
inductive Command where
  | newOrder (order : NewOrder)
  | cancelOrder (orderId : OrderId) (userId : UserId) (symbol : SymbolId)
      (timestamp : UnixMicros)
  | amendOrder (amend : AmendOrder)
  | cancelAllOrders (userId : UserId) (symbol : SymbolId) (timestamp : UnixMicros)
  | updateMarkPrice (symbol : SymbolId) (markPrice indexPrice : Decimal128)
      (timestamp : UnixMicros)
  | computeFunding (symbol : SymbolId) (timestamp : UnixMicros)
  | adminCredit (userId : UserId) (amount : Decimal128) (idempotencyKey : String)
      (timestamp : UnixMicros)
  deriving DecidableEq, Repr

/-- The id a command introduces, if it is a new order. -/
def Command.newOrderId? : Command → Option OrderId
  | .newOrder order => some order.orderId
  | _ => none

/-- The fields of `Event::OrderAccepted`. -/
structure OrderAccepted where
  orderId : OrderId
  userId : UserId
  symbol : SymbolId
  clientOrderId : Option Nat
  timestamp : UnixMicros
  side : Side
  orderType : OrderType
  timeInForce : TimeInForce
  price : Decimal128
  quantity : Decimal128
  stopPrice : Option Decimal128
  reduceOnly : Bool
  visibleQuantity : Option Decimal128
  trailingDelta : Option Decimal128
  trailingPeakPrice : Option Decimal128
  deriving DecidableEq, Repr

/-- The fields of `Event::OrderFilled`. -/
structure OrderFilled where
  orderId : OrderId
  tradeId : TradeId
  userId : UserId
  symbol : SymbolId
  side : Side
  fillPrice : Decimal128
  fillQty : Decimal128
  isMaker : Bool
  remainingQty : Decimal128
  timestamp : UnixMicros
  deriving DecidableEq, Repr

/-- The fields of `Event::TradeExecuted`. -/
structure TradeExecuted where
  tradeId : TradeId
  symbol : SymbolId
  price : Decimal128
  qty : Decimal128
  buyerOrderId : OrderId
  sellerOrderId : OrderId
  buyerUserId : UserId
  sellerUserId : UserId
  buyerFee : Decimal128
  sellerFee : Decimal128
  timestamp : UnixMicros
  deriving DecidableEq, Repr

/-- Output messages of the matching engine and the post-trade processor. -/
inductive Event where
  | orderAccepted (accepted : OrderAccepted)
  | orderRejected (orderId : OrderId) (userId : UserId) (reason : RejectReason)
      (timestamp : UnixMicros)
  | orderCanceled (orderId : OrderId) (userId : UserId) (symbol : SymbolId)
      (remainingQty : Decimal128) (timestamp : UnixMicros)
  | orderFilled (filled : OrderFilled)
  | tradeExecuted (trade : TradeExecuted)
  | markPriceUpdate (symbol : SymbolId) (markPrice indexPrice : Decimal128)
      (timestamp : UnixMicros)
  | fundingRateUpdate (symbol : SymbolId) (fundingRate : Decimal128) (timestamp : UnixMicros)
  | liquidationOrder (userId : UserId) (symbol : SymbolId) (side : Side)
      (quantity : Decimal128) (timestamp : UnixMicros)
  | adminCredited (userId : UserId) (amount : Decimal128) (idempotencyKey : String)
      (timestamp : UnixMicros)
  | realizedPnl (userId : UserId) (symbol : SymbolId) (amount : Decimal128)
      (timestamp : UnixMicros)
  | fundingSettled (userId : UserId) (symbol : SymbolId) (fundingPeriodId : Nat)
      (amount : Decimal128) (timestamp : UnixMicros)
  deriving DecidableEq, Repr

def Event.isRejected : Event → Bool
  | .orderRejected .. => true
  | _ => false

/-- The order and the trade that a fill is about. -/
def Event.legKey? : Event → Option (OrderId × TradeId)
  | .orderFilled filled => some (filled.orderId, filled.tradeId)
  | _ => none

/-- The facts that the post-trade processor itself adds to the log. -/
def Event.isFact : Event → Bool
  | .adminCredited .. | .realizedPnl .. | .fundingSettled .. => true
  | _ => false

end Exg
