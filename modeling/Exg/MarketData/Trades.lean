import Exg.Common.Operators
import Exg.Common.Types

/-!
# Aggregates of trades

What candles and the ticker say about a list of trades, oldest first: each is zero when there
are none.
-/

namespace Exg

open Support

/-- A trade as it reaches the market data. -/
structure MarketTrade where
  price : Decimal128
  qty : Decimal128
  timestamp : UnixMicros
  priceInRange : price.InRange
  qtyInRange : qty.InRange
  deriving DecidableEq

namespace MarketTrade

def quote (trade : MarketTrade) : Decimal128 := trade.price * trade.qty

theorem computes_quote (trade : MarketTrade) :
    Computes (trade.price.mul? trade.qty) trade.quote.InRange trade.quote :=
  Decimal128.computes_mul trade.priceInRange trade.qtyInRange

/-- One unit for the price of one. -/
def unitAt (timestamp : UnixMicros) : MarketTrade where
  price := .one
  qty := .one
  timestamp := timestamp
  priceInRange := by decide
  qtyInRange := by decide

end MarketTrade

section Aggregates

variable (trades : List MarketTrade)

def firstPrice : Decimal128 := (trades.head?.map MarketTrade.price).getD 0

def lastPrice : Decimal128 := (trades.getLast?.map MarketTrade.price).getD 0

def highestPrice : Decimal128 := (trades.map MarketTrade.price).max?.getD 0

def lowestPrice : Decimal128 := (trades.map MarketTrade.price).min?.getD 0

def totalVolume : Decimal128 := (trades.map MarketTrade.qty).sum

def totalQuote : Decimal128 := (trades.map MarketTrade.quote).sum

end Aggregates

section Concat

variable {trades : List MarketTrade} (trade : MarketTrade)

theorem firstPrice_concat (nonempty : trades ≠ []) :
    firstPrice (trades ++ [trade]) = firstPrice trades := by
  rw [firstPrice, firstPrice, List.head?_append_of_ne_nil _ nonempty]

theorem lastPrice_concat : lastPrice (trades ++ [trade]) = trade.price := by
  rw [lastPrice, List.getLast?_concat]
  rfl

theorem highestPrice_concat (nonempty : trades ≠ []) :
    highestPrice (trades ++ [trade]) = max (highestPrice trades) trade.price := by
  obtain ⟨first, rest, rfl⟩ := List.exists_cons_of_ne_nil nonempty
  simp only [highestPrice, List.cons_append, List.map_cons, List.map_append, List.map_nil,
    List.max?_cons', List.foldl_append, List.foldl_cons, List.foldl_nil, Option.getD_some]

theorem lowestPrice_concat (nonempty : trades ≠ []) :
    lowestPrice (trades ++ [trade]) = min (lowestPrice trades) trade.price := by
  obtain ⟨first, rest, rfl⟩ := List.exists_cons_of_ne_nil nonempty
  simp only [lowestPrice, List.cons_append, List.map_cons, List.map_append, List.map_nil,
    List.min?_cons', List.foldl_append, List.foldl_cons, List.foldl_nil, Option.getD_some]

theorem totalVolume_concat : totalVolume (trades ++ [trade]) = totalVolume trades + trade.qty := by
  simp [totalVolume]

theorem totalQuote_concat : totalQuote (trades ++ [trade]) = totalQuote trades + trade.quote := by
  simp [totalQuote]

end Concat
end Exg
