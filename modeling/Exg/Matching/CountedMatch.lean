import Exg.Matching.CheckedBook

/-!
# Price-time priority, where the count of a FOK order fits

The only sum of a match that can leave the range is the count of what a FOK order finds.  Where
it fits, and for every other order, the match is the one of the greedy specification.
-/

namespace Exg

open Support OrderBook

section Counted

variable {book : OrderBook} {taker : BookOrder}

/-- On every book of positive quantities and totals in range, each order that is not on it is
matched by the greedy specification. -/
def MatchesInPriority : Prop :=
  ∀ (book : OrderBook) (taker : BookOrder), book.Healthy →
    book.getOrder taker.orderId = none → 0 < taker.remainingQty → taker.remainingQty.InRange →
      ∃ result, matchOrder? book taker = some result ∧ PriceTimePriority book taker result

/-- A match finishes and keeps to the greedy specification if and only if it is no FOK order's
or what the order crosses can be counted. -/
theorem matchOrder_priceTimePriority_iff (healthy : book.Healthy)
    (incoming : 0 < taker.remainingQty) (inRange : taker.remainingQty.InRange) :
    (∃ result, matchOrder? book taker = some result ∧ PriceTimePriority book taker result) ↔
      (taker.timeInForce = .fok → (crossingQty book taker).InRange) := by
  have computes := computes_matchOrder healthy incoming.le inRange
  constructor
  · rintro ⟨result, computed, -⟩
    exact ((computes result).1 computed).1
  · intro counted
    exact ⟨_, computes.eq_some counted,
      priceTimePriority_matchOrder healthy.wellFormed healthy.positive incoming⟩

end Counted

/-- Two asks at one price and a better one, inserted last. -/
def threeAsks : OrderBook :=
  (((OrderBook.new 1).insertOrder (plainOrder 1 7 .sell 101 5)).insertOrder
    (plainOrder 2 8 .sell 101 3)).insertOrder (plainOrder 3 9 .sell 100 2)

private theorem healthy_threeAsks : threeAsks.Healthy :=
  (((Healthy.new 1).insertOrder (by decide +kernel) (by decide +kernel) (by decide +kernel)
    (by decide +kernel)).insertOrder (by decide +kernel) (by decide +kernel) (by decide +kernel)
    (by decide +kernel)).insertOrder (by decide +kernel) (by decide +kernel) (by decide +kernel)
    (by decide +kernel)

/-- A FOK buy that takes the better ask and all of the first. -/
theorem matchOrder_priceTimePriority_iff_threeAsks :
    let taker := { plainOrder 4 6 .buy 101 7 with timeInForce := .fok }
    (matchOrder threeAsks taker).fills.map Fill.makerOrderId = [3, 1] ∧
      ∃ result, matchOrder? threeAsks taker = some result ∧
        PriceTimePriority threeAsks taker result := by
  intro taker
  have met := matchOrder_priceTimePriority_iff healthy_threeAsks
    (show 0 < taker.remainingQty by decide +kernel) (by decide +kernel)
  exact ⟨by decide +kernel, met.2 fun _ => by decide +kernel⟩

/-- Asks of 10^20 at 100 and at 101. -/
def wideAsks : OrderBook :=
  ((OrderBook.new 1).insertOrder (plainOrder 1 7 .sell 100 100000000000000000000)).insertOrder
    (plainOrder 2 8 .sell 101 100000000000000000000)

private theorem healthy_wideAsks : wideAsks.Healthy :=
  ((Healthy.new 1).insertOrder (by decide +kernel) (by decide +kernel) (by decide +kernel)
    (by decide +kernel)).insertOrder (by decide +kernel) (by decide +kernel) (by decide +kernel)
    (by decide +kernel)

/-- A FOK order for one of them cannot count what there is. -/
theorem fok_count_overflows :
    let taker := { plainOrder 3 6 .buy 101 1 with timeInForce := .fok }
    matchOrder? wideAsks taker = none ∧ ¬MatchesInPriority := by
  intro taker
  have panics : (matchOrder? wideAsks taker).isNone = true := by decide +kernel
  refine ⟨Option.isNone_iff_eq_none.1 panics, fun claimed => ?_⟩
  obtain ⟨result, computed, -⟩ := claimed wideAsks taker healthy_wideAsks (by decide +kernel)
    (by decide +kernel) (by decide +kernel)
  rw [computed] at panics
  cases panics

end Exg
