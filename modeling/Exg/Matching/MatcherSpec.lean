import Exg.Matching.Depth
import Exg.Matching.Matcher
import Exg.Support.Allocation

/-!
# Price-time priority

The two nested loops are flattened to one walk over the makers in price-time order, and
that walk is the greedy allocation of the taker's quantity.  `matchOrder_of_admitted` is
the equation callers use; `takeOut` is its effect on the book.
-/

namespace Exg

open Support

/-- The makers a taker may trade with, in price-time order. -/
def crossing (makerSide : Side) (book : OrderBook) (taker : BookOrder) : List OrderId :=
  book.ordersWhile makerSide fun price => !stopsAt makerSide taker price

/-- What each maker gives. -/
def greedyShares (book : OrderBook) (taker : BookOrder) : List (OrderId × Decimal128) :=
  allocate book.remaining taker.remainingQty (crossing taker.side.opposite book taker)

/-- The fills of a list of shares against the stored makers. -/
def fillsOf (book : OrderBook) (taker : BookOrder) (shares : List (OrderId × Decimal128)) :
    List Fill :=
  shares.filterMap fun share =>
    (book.getOrder share.1).map fun maker => fillAgainst taker maker share.1 share.2

namespace OrderBook

/-- Take every share out of its maker. -/
def takeOut (book : OrderBook) : List (OrderId × Decimal128) → OrderBook
  | [] => book
  | (makerId, quantity) :: rest =>
      (book.takeFrom makerId (book.remaining makerId - quantity)).takeOut rest

/-! ## The effect of taking quantities out -/

section TakeFrom

variable {book : OrderBook}

theorem getOrder_takeFrom (makerId : OrderId) (makerRemaining : Decimal128) (other : OrderId) :
    (book.takeFrom makerId makerRemaining).getOrder other =
      if makerId = other then
        if makerRemaining = 0 then
          none
        else
          (book.getOrder other).map (·.withRemaining makerRemaining)
      else
        book.getOrder other := by
  by_cases exhausted : makerRemaining = 0
  · simp [takeFrom, exhausted, Decimal128.isZero, getOrder_removeOrder]
  · simp [takeFrom, exhausted, Decimal128.isZero, getOrder_updateQty]

theorem WellFormed.takeFrom (wellFormed : book.WellFormed) (makerId : OrderId)
    (makerRemaining : Decimal128) : (book.takeFrom makerId makerRemaining).WellFormed := by
  rw [OrderBook.takeFrom]
  split
  · exact wellFormed.removeOrder makerId
  · exact wellFormed.updateQty makerId makerRemaining

theorem LevelsWellFormed.queue_removeOrder (wellFormed : book.LevelsWellFormed)
    (orderId : OrderId) (side : Side) (price : Decimal128) :
    (book.removeOrder orderId).queue side price =
      (book.queue side price).filter (· ≠ orderId) := by
  have unchanged : orderId ∉ book.queue side price →
      book.queue side price = (book.queue side price).filter (· ≠ orderId) := by
    intro absent
    refine (List.filter_eq_self.2 fun other member => decide_eq_true ?_).symm
    rintro rfl
    exact absent member
  cases found : book.getOrder orderId with
  | none =>
      rw [removeOrder_of_none book found]
      exact unchanged (wellFormed.not_mem_queue found side price)
  | some order =>
      rw [OrderBook.queue_removeOrder found]
      split
      · rfl
      · rename_i elsewhere
        exact unchanged (wellFormed.not_mem_other found elsewhere)

end TakeFrom

section TakeOut

variable {book : OrderBook} {shares : List (OrderId × Decimal128)}

theorem getOrder_takeOut_of_not_mem {orderId : OrderId}
    (absent : orderId ∉ shares.map Prod.fst) :
    (book.takeOut shares).getOrder orderId = book.getOrder orderId := by
  induction shares generalizing book with
  | nil => rfl
  | cons share rest inductionHypothesis =>
      simp only [List.map_cons, List.mem_cons, not_or] at absent
      rw [takeOut, inductionHypothesis absent.2, getOrder_takeFrom, if_neg (Ne.symm absent.1)]

/-- A maker that gave a share is gone when it gave all it had, and reduced in place
otherwise. -/
theorem getOrder_takeOut_of_mem (nodup : (shares.map Prod.fst).Nodup) {orderId : OrderId}
    {quantity : Decimal128} (member : (orderId, quantity) ∈ shares) {order : BookOrder}
    (found : book.getOrder orderId = some order) :
    (book.takeOut shares).getOrder orderId =
      if order.remainingQty = quantity then
        none
      else
        some (order.withRemaining (order.remainingQty - quantity)) := by
  induction shares generalizing book with
  | nil => cases member
  | cons share rest inductionHypothesis =>
      rw [List.map_cons, List.nodup_cons] at nodup
      rcases List.mem_cons.1 member with rfl | later
      · rw [takeOut, getOrder_takeOut_of_not_mem nodup.1, getOrder_takeFrom, if_pos rfl,
          remaining_of_some found, found]
        simp [sub_eq_zero]
      · have different : share.1 ≠ orderId := by
          rintro rfl
          exact nodup.1 (List.mem_map.2 ⟨_, later, rfl⟩)
        refine inductionHypothesis nodup.2 later ?_
        rw [getOrder_takeFrom, if_neg different, found]

theorem getOrder_of_takeOut {orderId : OrderId} {order : BookOrder}
    (kept : (book.takeOut shares).getOrder orderId = some order) :
    ∃ before quantity, book.getOrder orderId = some before ∧
      order = before.withRemaining quantity := by
  induction shares generalizing book with
  | nil => exact ⟨order, order.remainingQty, kept, rfl⟩
  | cons share rest inductionHypothesis =>
      obtain ⟨middle, quantity, found, rfl⟩ := inductionHypothesis kept
      rw [getOrder_takeFrom] at found
      split at found
      · split at found
        · cases found
        · obtain ⟨before, stored, rfl⟩ := Option.map_eq_some_iff.1 found
          exact ⟨before, quantity, stored, rfl⟩
      · exact ⟨middle, quantity, found, rfl⟩

theorem wellFormed_takeOut (wellFormed : book.WellFormed) (shares : List (OrderId × Decimal128)) :
    (book.takeOut shares).WellFormed := by
  induction shares generalizing book with
  | nil => exact wellFormed
  | cons share rest inductionHypothesis =>
      exact inductionHypothesis (wellFormed.takeFrom _ _)

/-- Every queue keeps its order; only makers that left the book drop out of it. -/
theorem queue_takeOut (wellFormed : book.WellFormed)
    (shares : List (OrderId × Decimal128)) (side : Side) (price : Decimal128) :
    (book.takeOut shares).queue side price =
      (book.queue side price).filter fun orderId =>
        ((book.takeOut shares).getOrder orderId).isSome := by
  induction shares generalizing book with
  | nil =>
      refine (List.filter_eq_self.2 fun orderId member => ?_).symm
      obtain ⟨order, found, -⟩ := wellFormed.toLevels.stored member
      simp [OrderBook.takeOut, found]
  | cons share rest inductionHypothesis =>
      rw [takeOut, inductionHypothesis (wellFormed.takeFrom _ _)]
      by_cases exhausted : book.remaining share.1 - share.2 = 0
      · have gone : ((book.takeFrom share.1 (book.remaining share.1 - share.2)).takeOut
            rest).getOrder share.1 = none := by
          rw [Option.eq_none_iff_forall_ne_some]
          intro order kept
          obtain ⟨before, quantity, found, -⟩ := getOrder_of_takeOut kept
          simp [getOrder_takeFrom, exhausted] at found
        have removed : book.takeFrom share.1 (book.remaining share.1 - share.2) =
            book.removeOrder share.1 := by
          simp [takeFrom, exhausted, Decimal128.isZero]
        rw [removed] at gone ⊢
        rw [wellFormed.toLevels.queue_removeOrder, List.filter_filter]
        refine List.filter_congr fun orderId _ => ?_
        by_cases same : orderId = share.1
        · subst same
          simp [gone]
        · simp [same]
      · have updated : book.takeFrom share.1 (book.remaining share.1 - share.2) =
            book.updateQty share.1 (book.remaining share.1 - share.2) := by
          simp [takeFrom, exhausted, Decimal128.isZero]
        rw [updated, queue_updateQty]

end TakeOut
end OrderBook

/-! ## The walk over one list of makers -/

section MatchLevel

variable {book : OrderBook} {taker : BookOrder}

private theorem matchLevel_of_zero (nothingLeft : taker.remainingQty = 0) (makers : List OrderId) :
    matchLevel book taker makers = ⟨book, taker, []⟩ := by
  cases makers <;> simp [matchLevel, nothingLeft, Decimal128.isZero]

private theorem matchLevel_append (before after : List OrderId) :
    matchLevel book taker (before ++ after) =
      let first := matchLevel book taker before
      let second := matchLevel first.book first.taker after
      ⟨second.book, second.taker, first.fills ++ second.fills⟩ := by
  induction before generalizing book taker with
  | nil => rfl
  | cons makerId rest inductionHypothesis =>
      by_cases nothingLeft : taker.remainingQty = 0
      · simp only [matchLevel_of_zero nothingLeft, List.append_nil]
      · cases found : book.getOrder makerId with
        | none => simp [matchLevel, nothingLeft, found, inductionHypothesis, Decimal128.isZero]
        | some maker =>
            simp [matchLevel, nothingLeft, found, inductionHypothesis, Decimal128.isZero]

theorem fillsOf_cons {makerId : OrderId} {maker : BookOrder}
    (found : book.getOrder makerId = some maker) (quantity : Decimal128)
    (rest : List (OrderId × Decimal128)) :
    fillsOf book taker ((makerId, quantity) :: rest) =
      fillAgainst taker maker makerId quantity :: fillsOf book taker rest := by
  simp [fillsOf, found]

/-- Fills read of the makers only what taking quantities out of other orders leaves
alone. -/
private theorem fillsOf_congr {other : OrderBook} {shares : List (OrderId × Decimal128)}
    (sameOrders : ∀ share ∈ shares, other.getOrder share.1 = book.getOrder share.1) :
    fillsOf other taker shares = fillsOf book taker shares := by
  refine List.filterMap_congr fun share member => ?_
  rw [sameOrders share member]

@[simp]
theorem fillsOf_withRemaining (left : Decimal128) (shares : List (OrderId × Decimal128)) :
    fillsOf book (taker.withRemaining left) shares = fillsOf book taker shares := rfl

/-- The walk is the greedy allocation of the taker's quantity. -/
theorem matchLevel_eq {makers : List OrderId} (nodup : makers.Nodup)
    (stored : ∀ makerId ∈ makers, (book.getOrder makerId).isSome) :
    matchLevel book taker makers =
      let shares := allocate book.remaining taker.remainingQty makers
      ⟨book.takeOut shares,
        taker.withRemaining (taker.remainingQty - allocated shares),
        fillsOf book taker shares⟩ := by
  induction makers generalizing book taker with
  | nil => simp [matchLevel, OrderBook.takeOut, fillsOf]
  | cons makerId rest inductionHypothesis =>
      by_cases nothingLeft : taker.remainingQty = 0
      · have unchanged : taker.withRemaining 0 = taker := by rw [← nothingLeft]; rfl
        simp [matchLevel_of_zero nothingLeft, nothingLeft, OrderBook.takeOut, fillsOf, unchanged]
      · rw [List.nodup_cons] at nodup
        obtain ⟨maker, found⟩ := Option.isSome_iff_exists.1 (stored makerId List.mem_cons_self)
        have supply : book.remaining makerId = maker.remainingQty :=
          OrderBook.remaining_of_some found
        -- the books before and after this maker agree on the makers still to come
        have later : ∀ other ∈ rest,
            (book.takeFrom makerId
              (maker.remainingQty - min taker.remainingQty maker.remainingQty)).getOrder other =
              book.getOrder other := by
          intro other member
          rw [OrderBook.getOrder_takeFrom, if_neg]
          rintro rfl
          exact nodup.1 member
        have laterStored : ∀ other ∈ rest,
            ((book.takeFrom makerId
              (maker.remainingQty - min taker.remainingQty maker.remainingQty)).getOrder
                other).isSome := by
          intro other member
          rw [later other member]
          exact stored other (List.mem_cons_of_mem makerId member)
        have laterSupply : ∀ demand,
            allocate (book.takeFrom makerId
              (maker.remainingQty - min taker.remainingQty maker.remainingQty)).remaining
                demand rest = allocate book.remaining demand rest := by
          intro demand
          refine allocate_congr fun other member => ?_
          rw [OrderBook.remaining, later other member, OrderBook.remaining]
        rw [allocate_cons nothingLeft, supply]
        simp only [matchLevel, Decimal128.isZero, nothingLeft, decide_false, Bool.false_eq_true,
          if_false, found]
        rw [inductionHypothesis nodup.2 laterStored]
        have laterFills : ∀ demand,
            fillsOf (book.takeFrom makerId
              (maker.remainingQty - min taker.remainingQty maker.remainingQty)) taker
                (allocate book.remaining demand rest) =
              fillsOf book taker (allocate book.remaining demand rest) :=
          fun demand => fillsOf_congr fun share member => later share.1 (source_mem member)
        simp only [BookOrder.withRemaining_remainingQty, laterSupply, allocated_cons,
          OrderBook.takeOut, supply, BookOrder.withRemaining_withRemaining, sub_sub,
          fillsOf_withRemaining, fillsOf_cons found, laterFills]

end MatchLevel

/-! ## The walk over the levels -/

section MatchAgainst

variable {book : OrderBook} {taker : BookOrder} {makerSide : Side}

private theorem matchPrices_eq (wellFormed : book.WellFormed) {prices : List Decimal128}
    (nodup : prices.Nodup) :
    matchPrices makerSide book taker prices =
      matchLevel book taker
        ((prices.takeWhile fun price => !stopsAt makerSide taker price).flatMap
          (book.queue makerSide)) := by
  induction prices generalizing book taker with
  | nil => rfl
  | cons price rest inductionHypothesis =>
      rw [List.nodup_cons] at nodup
      by_cases nothingLeft : taker.remainingQty = 0
      · rw [matchLevel_of_zero nothingLeft]
        simp [matchPrices, nothingLeft, Decimal128.isZero]
      · by_cases stops : stopsAt makerSide taker price = true
        · simp [matchPrices, nothingLeft, stops, matchLevel, Decimal128.isZero]
        · have queueNodup := wellFormed.toLevels.nodup makerSide price
          have queueStored : ∀ makerId ∈ book.queue makerSide price,
              (book.getOrder makerId).isSome := by
            intro makerId member
            obtain ⟨order, found, -⟩ := wellFormed.toLevels.stored member
            simp [found]
          rw [List.takeWhile_cons_of_pos (by simpa using stops), List.flatMap_cons,
            matchLevel_append]
          simp only [matchPrices, Decimal128.isZero, nothingLeft, decide_false,
            Bool.false_eq_true, if_false, stops, wellFormed.toLevels.find_level]
          cases entry : book.level? makerSide price with
          | none =>
              have empty : book.queue makerSide price = [] := by simp [OrderBook.queue, entry]
              rw [empty, inductionHypothesis wellFormed nodup.2]
              rfl
          | some level =>
              simp only [← OrderBook.queue_of_level entry]
              rw [matchLevel_eq queueNodup queueStored]
              simp only [inductionHypothesis (OrderBook.wellFormed_takeOut wellFormed _) nodup.2,
                stopsAt_withRemaining]
              -- no other level's queue is touched by what happens at this one
              have queues : ∀ other ∈ rest.takeWhile fun later => !stopsAt makerSide taker later,
                  (book.takeOut (allocate book.remaining taker.remainingQty
                    (book.queue makerSide price))).queue makerSide other =
                    book.queue makerSide other := by
                intro other member
                rw [OrderBook.queue_takeOut wellFormed]
                refine List.filter_eq_self.2 fun makerId queued => ?_
                obtain ⟨order, found, -, atOther⟩ := wellFormed.toLevels.stored queued
                rw [OrderBook.getOrder_takeOut_of_not_mem, found]
                · rfl
                · intro drawn
                  obtain ⟨share, shareMember, rfl⟩ := List.mem_map.1 drawn
                  obtain ⟨here, hereFound, -, atPrice⟩ :=
                    wellFormed.toLevels.stored (source_mem shareMember)
                  rw [found] at hereFound
                  cases hereFound
                  rw [← atPrice, atOther] at nodup
                  exact nodup.1 ((List.takeWhile_sublist _).subset member)
              rw [List.flatMap_congr queues]

theorem matchAgainst_eq (wellFormed : book.WellFormed) :
    matchAgainst makerSide book taker =
      let shares := allocate book.remaining taker.remainingQty (crossing makerSide book taker)
      ⟨book.takeOut shares,
        taker.withRemaining (taker.remainingQty - allocated shares),
        fillsOf book taker shares⟩ := by
  have nodup := wellFormed.toLevels.nodup_ordersWhile makerSide
    fun price => !stopsAt makerSide taker price
  rw [matchAgainst, matchPrices_eq wellFormed (wellFormed.toLevels.prices_nodup makerSide)]
  refine matchLevel_eq nodup fun makerId member => ?_
  obtain ⟨price, -, queued⟩ := List.mem_flatMap.1 member
  obtain ⟨order, found, -⟩ := wellFormed.toLevels.stored queued
  simp [found]

end MatchAgainst
end Exg
