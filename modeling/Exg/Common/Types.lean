import Mathlib.Tactic.Common

/-!
# Identifiers and enumerations shared by every crate

Identifiers and timestamps are unsigned integers in the source.  Nothing here computes
with them beyond comparing them and adding a day to a timestamp, so the model uses
natural numbers.
-/

namespace Exg

abbrev OrderId := Nat
abbrev TradeId := Nat
abbrev UserId := Nat
abbrev SymbolId := Nat

/-- Microseconds since the Unix epoch. -/
abbrev UnixMicros := Nat

inductive Side where
  | buy
  | sell
  deriving DecidableEq, Repr

namespace Side

def opposite : Side → Side
  | .buy => .sell
  | .sell => .buy

@[simp] theorem opposite_opposite (side : Side) : side.opposite.opposite = side := by
  cases side <;> rfl

@[simp] theorem opposite_ne (side : Side) : side.opposite ≠ side := by
  cases side <;> decide

@[simp] theorem ne_opposite (side : Side) : side ≠ side.opposite := by
  cases side <;> decide

end Side

inductive OrderType where
  | limit
  | market
  | stopMarket
  | stopLimit
  | takeProfitMarket
  | takeProfitLimit
  | trailingStop
  | iceberg
  deriving DecidableEq, Repr

namespace OrderType

/-- Whether this order type requires a trigger (stop/mark) price. -/
def isConditional : OrderType → Bool
  | .stopMarket | .stopLimit | .takeProfitMarket | .takeProfitLimit | .trailingStop => true
  | .limit | .market | .iceberg => false

/-- Whether this order rests on the book when not immediately matched. -/
def isLimit : OrderType → Bool
  | .limit | .stopLimit | .takeProfitLimit | .iceberg => true
  | .market | .stopMarket | .takeProfitMarket | .trailingStop => false

end OrderType

inductive OrderStatus where
  | new
  | partiallyFilled
  | filled
  | canceled
  | rejected
  | expired
  | pendingTrigger
  deriving DecidableEq, Repr

namespace OrderStatus

/-- Whether the order is in a terminal state (no further transitions). -/
def isTerminal : OrderStatus → Bool
  | .filled | .canceled | .rejected | .expired => true
  | .new | .partiallyFilled | .pendingTrigger => false

end OrderStatus

inductive TimeInForce where
  | gtc
  | ioc
  | fok
  | gtd
  | postOnly
  deriving DecidableEq, Repr

inductive MarginMode where
  | cross
  | isolated
  deriving DecidableEq, Repr

inductive PositionSide where
  | long
  | short
  | both
  deriving DecidableEq, Repr

end Exg
