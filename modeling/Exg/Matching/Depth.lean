import Exg.Matching.BookInvariant
import Exg.Support.Cutoffs
import Mathlib.Data.List.Nodup
import Mathlib.Data.List.TakeWhile

/-!
# The levels of a side, best first

`ask_levels` and `bid_levels` list the levels in map order.  In a well-formed book that
list is ordered from the best price to the worst, finds every level under its own price,
and its totals are sums over orders.
-/

namespace Exg
namespace OrderBook

private theorem beyondLimit_iff {side : Side} {levelPrice limitPrice : Decimal128} :
    beyondLimit side levelPrice limitPrice = true ↔
      priceOrder side limitPrice levelPrice = .lt := by
  cases side with
  | buy =>
      simp [beyondLimit, priceOrder, compare_lt_iff_lt, Decimal128.lt_iff_raw]
  | sell =>
      simp [beyondLimit, priceOrder, compare_lt_iff_lt, Decimal128.lt_iff_raw]

/-- A level past the limit stays past it for every worse level. -/
theorem beyondLimit_of_worse {side : Side} {better worse limitPrice : Decimal128}
    (ordered : priceOrder side better worse = .lt)
    (beyond : beyondLimit side better limitPrice = true) :
    beyondLimit side worse limitPrice = true := by
  rw [beyondLimit_iff] at beyond ⊢
  exact Std.TransCmp.lt_trans beyond ordered

section

variable {book : OrderBook}

theorem LevelsWellFormed.mem_levelList (wellFormed : book.LevelsWellFormed) {side : Side}
    {level : PriceLevel} :
    level ∈ book.levelList side ↔ book.level? side level.price = some level := by
  simp only [levelList, List.mem_map, Prod.exists, exists_eq_right,
    Std.ExtTreeMap.mem_toList_iff_getElem?_eq_some]
  constructor
  · rintro ⟨key, found⟩
    rwa [(wellFormed.agrees found).price_eq]
  · exact fun found => ⟨level.price, found⟩

private theorem LevelsWellFormed.prices_eq_keys (wellFormed : book.LevelsWellFormed) (side : Side) :
    (book.levelList side).map PriceLevel.price = (book.levels side).keys := by
  rw [levelList, List.map_map, ← Std.ExtTreeMap.map_fst_toList_eq_keys]
  refine List.map_congr_left fun entry member => ?_
  have found : book.level? side entry.1 = some entry.2 :=
    Std.ExtTreeMap.mem_toList_iff_getElem?_eq_some.1 member
  exact (wellFormed.agrees found).price_eq

/-- The levels run from the best price to the worst. -/
theorem LevelsWellFormed.prices_ordered (wellFormed : book.LevelsWellFormed) (side : Side) :
    ((book.levelList side).map PriceLevel.price).Pairwise
      fun better worse => priceOrder side better worse = .lt := by
  rw [wellFormed.prices_eq_keys]
  exact Std.ExtTreeMap.ordered_keys

theorem LevelsWellFormed.prices_nodup (wellFormed : book.LevelsWellFormed) (side : Side) :
    ((book.levelList side).map PriceLevel.price).Nodup := by
  rw [wellFormed.prices_eq_keys]
  exact Std.ExtTreeMap.nodup_keys

theorem LevelsWellFormed.mem_prices (wellFormed : book.LevelsWellFormed) {side : Side}
    {price : Decimal128} :
    price ∈ (book.levelList side).map PriceLevel.price ↔ book.queue side price ≠ [] := by
  rw [wellFormed.prices_eq_keys, Std.ExtTreeMap.mem_keys, Std.ExtTreeMap.mem_iff_isSome_getElem?]
  cases entry : book.level? side price with
  | none =>
      rw [level?] at entry
      simp [queue, level?, entry]
  | some level =>
      have nonempty := (wellFormed.agrees entry).nonempty
      rw [level?] at entry
      simpa [queue, level?, entry] using nonempty

/-- The source finds a level by scanning the list for its price. -/
theorem LevelsWellFormed.find_level (wellFormed : book.LevelsWellFormed) (side : Side)
    (price : Decimal128) :
    ((book.levelList side).find? fun level => level.price = price) =
      book.level? side price := by
  cases scan : (book.levelList side).find? fun level => level.price = price with
  | some level =>
      have member := List.mem_of_find?_eq_some scan
      have atPrice : level.price = price := by simpa using List.find?_some scan
      rw [← atPrice, wellFormed.mem_levelList.1 member]
  | none =>
      cases entry : book.level? side price with
      | none => rfl
      | some level =>
          have atPrice := (wellFormed.agrees entry).price_eq
          have member : level ∈ book.levelList side :=
            wellFormed.mem_levelList.2 (by rw [atPrice, entry])
          exact absurd atPrice (by simpa using List.find?_eq_none.1 scan level member)

/-- The orders of a side up to a price condition, in price-time order. -/
def ordersWhile (book : OrderBook) (side : Side) (within : Decimal128 → Bool) : List OrderId :=
  (((book.levelList side).map PriceLevel.price).takeWhile within).flatMap (book.queue side)

variable {side : Side} {within : Decimal128 → Bool}

theorem LevelsWellFormed.mem_ordersWhile (wellFormed : book.LevelsWellFormed)
    (antitone : ∀ better worse, priceOrder side better worse = .lt →
      within worse = true → within better = true) {orderId : OrderId} :
    orderId ∈ book.ordersWhile side within ↔
      ∃ order, book.getOrder orderId = some order ∧ order.side = side ∧
        within order.price = true := by
  rw [ordersWhile,
    Support.takeWhile_eq_filter_of_pairwise antitone (wellFormed.prices_ordered side)]
  simp only [List.mem_flatMap, List.mem_filter]
  constructor
  · rintro ⟨price, ⟨-, inside⟩, member⟩
    obtain ⟨order, found, atSide, rfl⟩ := wellFormed.stored member
    exact ⟨order, found, atSide, inside⟩
  · rintro ⟨order, found, rfl, inside⟩
    have member := wellFormed.queued found
    refine ⟨order.price, ⟨wellFormed.mem_prices.2 ?_, inside⟩, member⟩
    exact List.ne_nil_of_mem member

theorem LevelsWellFormed.nodup_ordersWhile (wellFormed : book.LevelsWellFormed) (side : Side)
    (within : Decimal128 → Bool) : (book.ordersWhile side within).Nodup := by
  rw [ordersWhile, List.nodup_flatMap]
  refine ⟨fun price _ => wellFormed.nodup side price, ?_⟩
  have nodup := (wellFormed.prices_nodup side).sublist (List.takeWhile_sublist within)
  refine nodup.imp ?_
  intro left right different orderId leftMember rightMember
  obtain ⟨order, found, -, rfl⟩ := wellFormed.stored leftMember
  obtain ⟨other, otherFound, -, rfl⟩ := wellFormed.stored rightMember
  rw [found] at otherFound
  cases otherFound
  exact different rfl

/-- What the totals of the levels say about the orders in them. -/
theorem LevelsWellFormed.sum_totals (wellFormed : book.LevelsWellFormed) {levels : List PriceLevel}
    (listed : ∀ level ∈ levels, level ∈ book.levelList side) :
    (levels.map PriceLevel.totalQty).sum =
      (((levels.map PriceLevel.price).flatMap (book.queue side)).map book.remaining).sum := by
  induction levels with
  | nil => rfl
  | cons level rest inductionHypothesis =>
      have entry := wellFormed.mem_levelList.1 (listed level List.mem_cons_self)
      have later := inductionHypothesis fun other member =>
        listed other (List.mem_cons_of_mem _ member)
      rw [List.map_cons, List.sum_cons, later, List.map_cons, List.flatMap_cons, List.map_append,
        List.sum_append, queue_of_level entry, (wellFormed.agrees entry).total_eq]

theorem sumWithin_eq_takeWhile (side : Side) (limitPrice : Decimal128) (levels : List PriceLevel) :
    sumWithin side limitPrice levels =
      ((levels.takeWhile fun level => !beyondLimit side level.price limitPrice).map
        PriceLevel.totalQty).sum := by
  induction levels with
  | nil => rfl
  | cons level rest inductionHypothesis =>
      by_cases beyond : beyondLimit side level.price limitPrice = true
      · simp [sumWithin, beyond]
      · simp [sumWithin, beyond, inductionHypothesis]

theorem LevelsWellFormed.availableQty_eq (wellFormed : book.LevelsWellFormed) (takerSide : Side)
    (limitPrice : Decimal128) :
    book.availableQtyAtPrice takerSide limitPrice =
      ((book.ordersWhile takerSide.opposite fun price =>
        !beyondLimit takerSide.opposite price limitPrice).map book.remaining).sum := by
  rw [availableQtyAtPrice, sumWithin_eq_takeWhile, ordersWhile, List.takeWhile_map]
  refine wellFormed.sum_totals fun level member => ?_
  exact (List.takeWhile_sublist _).subset member

theorem LevelsWellFormed.totalQty_eq (wellFormed : book.LevelsWellFormed) (takerSide : Side) :
    book.totalOppositeQty takerSide =
      ((book.ordersWhile takerSide.opposite fun _ => true).map book.remaining).sum := by
  rw [totalOppositeQty, ordersWhile, List.takeWhile_eq_self_iff.2 fun _ _ => rfl]
  exact wellFormed.sum_totals fun level member => member

end

/-! ## Best prices -/

/-- The best price of a side. -/
def best (book : OrderBook) (side : Side) : Option Decimal128 := (book.levels side).keys.head?

theorem bestBid_eq (book : OrderBook) : book.bestBid = book.best .buy := rfl

theorem bestAsk_eq (book : OrderBook) : book.bestAsk = book.best .sell := rfl

/-- The best price is the price of some order. -/
theorem LevelsWellFormed.best_stored {book : OrderBook} (wellFormed : book.LevelsWellFormed)
    {side : Side} {price : Decimal128} (isBest : book.best side = some price) :
    ∃ orderId order, book.getOrder orderId = some order ∧ order.side = side ∧
      order.price = price := by
  rw [best, ← wellFormed.prices_eq_keys] at isBest
  have nonempty := wellFormed.mem_prices.1 (List.mem_of_head? isBest)
  obtain ⟨orderId, queued⟩ := List.exists_mem_of_ne_nil _ nonempty
  obtain ⟨order, stored⟩ := wellFormed.stored queued
  exact ⟨orderId, order, stored⟩

/-- Some order of the side is at or within a price exactly when the best price is. -/
theorem LevelsWellFormed.best_within_iff {book : OrderBook} (wellFormed : book.LevelsWellFormed)
    (side : Side) (limitPrice : Decimal128) :
    ((book.best side).any fun price => !beyondLimit side price limitPrice) = true ↔
      ∃ orderId order, book.getOrder orderId = some order ∧ order.side = side ∧
        beyondLimit side order.price limitPrice = false := by
  have ordered := wellFormed.prices_ordered side
  have listed : ∀ {price}, price ∈ (book.levelList side).map PriceLevel.price ↔
      book.queue side price ≠ [] := wellFormed.mem_prices
  rw [best, ← wellFormed.prices_eq_keys]
  constructor
  · intro within
    obtain ⟨price, first, inside⟩ := (Option.any_eq_true _ _).1 within
    rw [wellFormed.prices_eq_keys] at first
    obtain ⟨orderId, order, found, atSide, rfl⟩ := wellFormed.best_stored first
    exact ⟨orderId, order, found, atSide, by simpa using inside⟩
  · rintro ⟨orderId, order, found, rfl, inside⟩
    have member := listed.2 (List.ne_nil_of_mem (wellFormed.queued found))
    cases prices : (book.levelList order.side).map PriceLevel.price with
    | nil => rw [prices] at member; cases member
    | cons first rest =>
        rw [prices] at member ordered
        rw [List.pairwise_cons] at ordered
        simp only [List.head?_cons, Option.any_some, Bool.not_eq_true']
        rcases List.mem_cons.1 member with same | later
        · rwa [← same]
        · by_contra beyond
          have worse := beyondLimit_of_worse (ordered.1 _ later) (by simpa using beyond)
          rw [inside] at worse
          cases worse

end OrderBook
end Exg
