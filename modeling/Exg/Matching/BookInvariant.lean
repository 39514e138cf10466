import Exg.Matching.OrderBook
import Exg.Support.Machine
import Mathlib.Tactic.Abel

/-!
# The representation invariant of the order book

The order map is the reference; the two trees of levels, their cached totals and the user
index are redundant.  `LevelsWellFormed` ties the trees to the map and `UsersWellFormed`
the index.  They are kept apart because the loop of `cancel_all_user_orders` keeps only
the first one until it has ended.
-/

namespace Exg
namespace OrderBook

/-- The remaining quantity of a stored order, zero for an id that is not stored. -/
def remaining (book : OrderBook) (orderId : OrderId) : Decimal128 :=
  (book.getOrder orderId).elim 0 BookOrder.remainingQty

theorem remaining_of_some {book : OrderBook} {orderId : OrderId} {order : BookOrder}
    (found : book.getOrder orderId = some order) :
    book.remaining orderId = order.remainingQty := by
  simp [remaining, found]

/-- What a level says about its own price and queue. -/
structure LevelAgrees (book : OrderBook) (price : Decimal128) (level : PriceLevel) : Prop where
  price_eq : level.price = price
  nonempty : level.orders ≠ []
  total_eq : level.totalQty = (level.orders.map book.remaining).sum

/-- Both trees hold exactly the stored orders, each once, with the right totals. -/
structure LevelsWellFormed (book : OrderBook) : Prop where
  keyed : ∀ {orderId order}, book.getOrder orderId = some order → order.orderId = orderId
  queued : ∀ {orderId order}, book.getOrder orderId = some order →
    orderId ∈ book.queue order.side order.price
  stored : ∀ {side price orderId}, orderId ∈ book.queue side price →
    ∃ order, book.getOrder orderId = some order ∧ order.side = side ∧ order.price = price
  nodup : ∀ side price, (book.queue side price).Nodup
  agrees : ∀ {side price level}, book.level? side price = some level →
    book.LevelAgrees price level

/-- The user index lists exactly the stored orders of each user, each once. -/
structure UsersWellFormed (book : OrderBook) : Prop where
  listed : ∀ {userId orderId}, orderId ∈ book.getUserOrders userId ↔
    ∃ order, book.getOrder orderId = some order ∧ order.userId = userId
  nodup : ∀ userId, (book.getUserOrders userId).Nodup
  nonempty : ∀ {userId : UserId} {ids : List OrderId},
    book.userOrders[userId]? = some ids → ids ≠ []

structure WellFormed (book : OrderBook) : Prop where
  toLevels : book.LevelsWellFormed
  toUsers : book.UsersWellFormed

theorem wellFormed_new (symbol : SymbolId) : (new symbol).WellFormed where
  toLevels :=
    { keyed := by simp
      queued := by simp
      stored := by simp [queue]
      nodup := by simp [queue]
      agrees := by simp }
  toUsers :=
    { listed := by simp
      nodup := by simp
      nonempty := by simp [new] }

section

variable {book : OrderBook}

theorem LevelsWellFormed.not_mem_queue (wellFormed : book.LevelsWellFormed)
    {orderId : OrderId} (missing : book.getOrder orderId = none) (side : Side)
    (price : Decimal128) : orderId ∉ book.queue side price := by
  intro member
  obtain ⟨order, found, -⟩ := wellFormed.stored member
  rw [missing] at found
  cases found

/-- Only the queue of an order's own side and price holds it. -/
theorem LevelsWellFormed.not_mem_other (wellFormed : book.LevelsWellFormed)
    {orderId : OrderId} {order : BookOrder} (found : book.getOrder orderId = some order)
    {side : Side} {price : Decimal128} (elsewhere : ¬(order.side = side ∧ order.price = price)) :
    orderId ∉ book.queue side price := by
  intro member
  obtain ⟨other, otherFound, atSide, atPrice⟩ := wellFormed.stored member
  rw [found] at otherFound
  cases otherFound
  exact elsewhere ⟨atSide, atPrice⟩

/-- A level keeps agreeing with its queue when no order in it changes its quantity. -/
theorem LevelAgrees.of_remaining {after : OrderBook} {price : Decimal128} {level : PriceLevel}
    (agrees : book.LevelAgrees price level)
    (same : ∀ orderId ∈ level.orders, after.remaining orderId = book.remaining orderId) :
    after.LevelAgrees price level where
  price_eq := agrees.price_eq
  nonempty := agrees.nonempty
  total_eq := by rw [agrees.total_eq, List.map_congr_left same]

end

/-! ## Insertion -/

section Insert

variable {book : OrderBook} {order : BookOrder}

private theorem remaining_insertOrder (orderId : OrderId) :
    (book.insertOrder order).remaining orderId =
      if order.orderId = orderId then order.remainingQty else book.remaining orderId := by
  rw [remaining, getOrder_insertOrder]
  split <;> rfl

/-- A level with an order pushed behind its queue. -/
private theorem LevelAgrees.push {level : PriceLevel} (agrees : book.LevelAgrees order.price level)
    (fresh : order.orderId ∉ level.orders) :
    (book.insertOrder order).LevelAgrees order.price (pushedLevel (some level) order) := by
  have others : level.orders.map (book.insertOrder order).remaining =
      level.orders.map book.remaining := by
    refine List.map_congr_left fun orderId member => ?_
    rw [remaining_insertOrder, if_neg]
    rintro rfl
    exact fresh member
  refine ⟨agrees.price_eq, by simp [pushedLevel], ?_⟩
  simp [pushedLevel, agrees.total_eq, others, remaining_insertOrder]

theorem LevelsWellFormed.insertOrder (wellFormed : book.LevelsWellFormed)
    (fresh : book.getOrder order.orderId = none) :
    (book.insertOrder order).LevelsWellFormed := by
  constructor
  · intro orderId found inserted
    rw [getOrder_insertOrder] at inserted
    split at inserted
    · cases inserted
      assumption
    · exact wellFormed.keyed inserted
  · intro orderId found inserted
    rw [getOrder_insertOrder] at inserted
    rw [queue_insertOrder]
    split at inserted
    · cases inserted
      simp_all
    · have member := wellFormed.queued inserted
      split
      · exact List.mem_append_left _ member
      · exact member
  · intro side price orderId member
    rw [queue_insertOrder] at member
    rw [getOrder_insertOrder]
    by_cases own : order.orderId = orderId
    · subst own
      have notBefore := wellFormed.not_mem_queue fresh side price
      split at member
      · rename_i here
        exact ⟨order, by simp, here⟩
      · exact absurd member notBefore
    · rw [if_neg own]
      refine wellFormed.stored ?_
      split at member
      · simpa [Ne.symm own] using member
      · exact member
  · intro side price
    rw [queue_insertOrder]
    split
    · rw [List.nodup_append]
      refine ⟨wellFormed.nodup side price, by simp, ?_⟩
      rintro orderId member other last rfl
      rw [List.mem_singleton.1 last] at member
      exact wellFormed.not_mem_queue fresh side price member
    · exact wellFormed.nodup side price
  · intro side price level found
    rw [level?_insertOrder] at found
    split at found
    · rename_i here
      obtain ⟨rfl, rfl⟩ := here
      cases found
      cases entry : book.level? order.side order.price with
      | none =>
          exact ⟨by simp [pushedLevel], by simp [pushedLevel], by
            simp [pushedLevel, remaining_insertOrder]⟩
      | some level =>
          have absent := wellFormed.not_mem_queue fresh order.side order.price
          rw [queue_of_level entry] at absent
          exact (wellFormed.agrees entry).push absent
    · have absent := wellFormed.not_mem_queue fresh side price
      rw [queue_of_level found] at absent
      refine (wellFormed.agrees found).of_remaining fun orderId member => ?_
      rw [remaining_insertOrder, if_neg]
      rintro rfl
      exact absent member

theorem UsersWellFormed.insertOrder (wellFormed : book.UsersWellFormed)
    (fresh : book.getOrder order.orderId = none) :
    (book.insertOrder order).UsersWellFormed := by
  have userOrders : ∀ userId, (book.insertOrder order).getUserOrders userId =
      if order.userId = userId then
        book.getUserOrders userId ++ [order.orderId]
      else
        book.getUserOrders userId := by
    intro userId
    rw [getUserOrders, userOrders_insertOrder]
    split <;> rfl
  have unlisted : ∀ userId, order.orderId ∉ book.getUserOrders userId := by
    intro userId member
    obtain ⟨found, stored, -⟩ := wellFormed.listed.1 member
    rw [fresh] at stored
    cases stored
  constructor
  · intro userId orderId
    rw [userOrders, getOrder_insertOrder]
    by_cases own : order.orderId = orderId
    · subst own
      by_cases owner : order.userId = userId
      · simp [owner]
      · simp [owner, unlisted userId]
    · rw [if_neg own, ← wellFormed.listed]
      split <;> simp [Ne.symm own]
  · intro userId
    rw [userOrders]
    split
    · rw [List.nodup_append]
      refine ⟨wellFormed.nodup userId, by simp, ?_⟩
      rintro orderId member other last rfl
      rw [List.mem_singleton.1 last] at member
      exact unlisted userId member
    · exact wellFormed.nodup userId
  · intro userId ids found
    rw [userOrders_insertOrder] at found
    split at found
    · cases found
      simp
    · exact wellFormed.nonempty found

/-- Inserting an order whose id is not stored keeps the invariant. -/
theorem WellFormed.insertOrder (wellFormed : book.WellFormed)
    (fresh : book.getOrder order.orderId = none) : (book.insertOrder order).WellFormed :=
  ⟨wellFormed.toLevels.insertOrder fresh, wellFormed.toUsers.insertOrder fresh⟩

end Insert

/-! ## Removal -/

section Remove

variable {book : OrderBook} {orderId : OrderId} {order : BookOrder}

theorem remaining_unlinkOrder {other : OrderId} (different : other ≠ orderId) :
    (book.unlinkOrder orderId order).remaining other = book.remaining other := by
  rw [remaining, getOrder_unlinkOrder, if_neg (Ne.symm different), remaining]

/-- What stays of a level once one of its orders is taken out. -/
private theorem LevelAgrees.drop {price : Decimal128} {level kept : PriceLevel}
    (agrees : book.LevelAgrees price level) (nodup : level.orders.Nodup)
    (found : book.getOrder orderId = some order) (member : orderId ∈ level.orders)
    (dropped : droppedLevel level order orderId = some kept) :
    (book.unlinkOrder orderId order).LevelAgrees price kept := by
  simp only [droppedLevel] at dropped
  split at dropped
  · cases dropped
  · rename_i nonempty
    cases dropped
    refine ⟨agrees.price_eq, by simpa [List.isEmpty_iff] using nonempty, ?_⟩
    have others : (level.orders.filter (· ≠ orderId)).map
          (book.unlinkOrder orderId order).remaining =
        (level.orders.filter (· ≠ orderId)).map book.remaining := by
      refine List.map_congr_left fun other keptMember => ?_
      exact remaining_unlinkOrder (by simpa using (List.mem_filter.1 keptMember).2)
    have erased : level.orders.filter (· ≠ orderId) = level.orders.erase orderId := by
      rw [nodup.erase_eq_filter]
      exact List.filter_congr fun other _ => by rw [bne, Bool.beq_eq_decide_eq, decide_not]
    have split := List.sum_map_erase book.remaining member
    calc level.totalQty - order.remainingQty
        = (level.orders.map book.remaining).sum - book.remaining orderId := by
          rw [agrees.total_eq, remaining_of_some found]
      _ = ((level.orders.erase orderId).map book.remaining).sum := by
          rw [← split, add_sub_cancel_left]
      _ = _ := by rw [others, erased]

theorem LevelsWellFormed.unlinkOrder (wellFormed : book.LevelsWellFormed)
    (found : book.getOrder orderId = some order) :
    (book.unlinkOrder orderId order).LevelsWellFormed := by
  constructor
  · intro other otherOrder kept
    rw [getOrder_unlinkOrder] at kept
    split at kept
    · cases kept
    · exact wellFormed.keyed kept
  · intro other otherOrder kept
    rw [getOrder_unlinkOrder] at kept
    split at kept
    · cases kept
    · rename_i different
      have member := wellFormed.queued kept
      rw [queue_unlinkOrder]
      split
      · simpa [Ne.symm different] using member
      · exact member
  · intro side price other member
    rw [queue_unlinkOrder] at member
    by_cases own : orderId = other
    · subst own
      split at member
      · simp at member
      · rename_i elsewhere
        exact absurd member (wellFormed.not_mem_other found elsewhere)
    · rw [getOrder_unlinkOrder, if_neg own]
      refine wellFormed.stored ?_
      split at member
      · exact (List.mem_filter.1 member).1
      · exact member
  · intro side price
    rw [queue_unlinkOrder]
    split
    · exact (wellFormed.nodup side price).filter _
    · exact wellFormed.nodup side price
  · intro side price level kept
    rw [level?_unlinkOrder] at kept
    split at kept
    · rename_i here
      obtain ⟨old, entry, dropped⟩ := Option.bind_eq_some_iff.1 kept
      obtain ⟨rfl, rfl⟩ := here
      have member := wellFormed.queued found
      have nodup := wellFormed.nodup order.side order.price
      rw [queue_of_level entry] at member nodup
      exact (wellFormed.agrees entry).drop nodup found member dropped
    · rename_i elsewhere
      refine (wellFormed.agrees kept).of_remaining fun other member => ?_
      refine remaining_unlinkOrder ?_
      rintro rfl
      exact wellFormed.not_mem_other found elsewhere (by rwa [queue_of_level kept])

/-- The levels part only reads the orders and the two trees. -/
theorem LevelsWellFormed.congr {after : OrderBook} (wellFormed : book.LevelsWellFormed)
    (orders : after.orders = book.orders) (bids : after.bids = book.bids)
    (asks : after.asks = book.asks) : after.LevelsWellFormed := by
  have getOrderSame : ∀ id, after.getOrder id = book.getOrder id := by
    simp [getOrder, orders]
  have levelSame : ∀ side price, after.level? side price = book.level? side price := by
    intro side price
    cases side <;> simp [level?, levels, bids, asks]
  have queueSame : ∀ side price, after.queue side price = book.queue side price := by
    simp [queue, levelSame]
  constructor
  · intro orderId order found
    exact wellFormed.keyed (by rwa [getOrderSame] at found)
  · intro orderId order found
    rw [queueSame]
    exact wellFormed.queued (by rwa [getOrderSame] at found)
  · intro side price orderId member
    rw [getOrderSame]
    exact wellFormed.stored (by rwa [queueSame] at member)
  · simpa only [queueSame] using wellFormed.nodup
  · intro side price level found
    rw [levelSame] at found
    refine (wellFormed.agrees found).of_remaining fun id _ => ?_
    rw [remaining, remaining, getOrderSame]

/-- Removing any order id keeps the invariant. -/
theorem WellFormed.removeOrder (wellFormed : book.WellFormed) (orderId : OrderId) :
    (book.removeOrder orderId).WellFormed := by
  cases found : book.getOrder orderId with
  | none =>
      rw [removeOrder_of_none book found]
      exact wellFormed
  | some order =>
      have userOrders : ∀ userId, (book.removeOrder orderId).getUserOrders userId =
          (book.getUserOrders userId).filter (· ≠ orderId) := by
        intro userId
        rw [getUserOrders, userOrders_removeOrder found]
        by_cases owner : order.userId = userId
        · rw [if_pos owner]
          cases entry : book.userOrders[userId]? with
          | none => simp [getUserOrders, entry]
          | some ids =>
              simp only [getUserOrders, entry, Option.bind_some, Option.getD_some]
              split
              · rename_i emptied
                simpa [List.isEmpty_iff] using emptied
              · rfl
        · rw [if_neg owner]
          refine (List.filter_eq_self.2 fun other member => ?_).symm
          refine decide_eq_true ?_
          rintro rfl
          obtain ⟨listed, stored, listedOwner⟩ := wellFormed.toUsers.listed.1 member
          rw [found] at stored
          cases stored
          exact owner listedOwner
      constructor
      · rw [removeOrder_of_some found]
        refine LevelsWellFormed.unlinkOrder ?_ found
        exact wellFormed.toLevels.congr rfl rfl rfl
      · constructor
        · intro userId other
          rw [userOrders, getOrder_removeOrder, List.mem_filter, wellFormed.toUsers.listed]
          by_cases own : orderId = other
          · simp [own]
          · simp [own, Ne.symm own]
        · intro userId
          rw [userOrders]
          exact (wellFormed.toUsers.nodup userId).filter _
        · intro userId ids kept
          rw [userOrders_removeOrder found] at kept
          split at kept
          · obtain ⟨before, entry, filtered⟩ := Option.bind_eq_some_iff.1 kept
            split at filtered
            · cases filtered
            · rename_i nonempty
              cases filtered
              simpa [List.isEmpty_iff] using nonempty
          · exact wellFormed.toUsers.nonempty kept

end Remove

/-! ## Cancelling all orders of a user -/

section CancelAll

variable {book : OrderBook}

theorem getOrder_cancelOrders (orderIds : List OrderId) (orderId : OrderId) :
    (book.cancelOrders orderIds).1.getOrder orderId =
      if orderId ∈ orderIds then none else book.getOrder orderId := by
  induction orderIds generalizing book with
  | nil => simp [cancelOrders]
  | cons head rest inductionHypothesis =>
      cases found : book.getOrder head with
      | none =>
          rw [show book.cancelOrders (head :: rest) = book.cancelOrders rest by
            simp [cancelOrders, found], inductionHypothesis]
          by_cases own : orderId = head
          · subst own
            simp [found]
          · simp [own]
      | some order =>
          rw [show (book.cancelOrders (head :: rest)).1 =
              ((book.unlinkOrder head order).cancelOrders rest).1 by
            simp [cancelOrders, found], inductionHypothesis, getOrder_unlinkOrder]
          by_cases own : orderId = head
          · simp [own]
          · simp [own, Ne.symm own]

/-- The canceled orders are those stored under the ids. -/
theorem cancelOrders_snd {orderIds : List OrderId} (nodup : orderIds.Nodup) :
    (book.cancelOrders orderIds).2 = orderIds.filterMap book.getOrder := by
  induction orderIds generalizing book with
  | nil => rfl
  | cons head rest inductionHypothesis =>
      obtain ⟨headFresh, restNodup⟩ := List.nodup_cons.1 nodup
      cases found : book.getOrder head with
      | none =>
          rw [List.filterMap_cons_none found, cancelOrders, found]
          exact inductionHypothesis restNodup
      | some order =>
          rw [List.filterMap_cons_some found, cancelOrders, found]
          have sameRest : rest.filterMap (book.unlinkOrder head order).getOrder =
              rest.filterMap book.getOrder := by
            refine List.filterMap_congr fun orderId member => ?_
            rw [getOrder_unlinkOrder, if_neg]
            exact fun same => headFresh (same ▸ member)
          exact congrArg (order :: ·) ((inductionHypothesis restNodup).trans sameRest)

private theorem userOrders_cancelOrders (orderIds : List OrderId) :
    (book.cancelOrders orderIds).1.userOrders = book.userOrders := by
  induction orderIds generalizing book with
  | nil => rfl
  | cons head rest inductionHypothesis =>
      cases found : book.getOrder head with
      | none => simpa [cancelOrders, found] using inductionHypothesis
      | some order => simp [cancelOrders, found, inductionHypothesis]

theorem LevelsWellFormed.cancelOrders (wellFormed : book.LevelsWellFormed)
    (orderIds : List OrderId) : (book.cancelOrders orderIds).1.LevelsWellFormed := by
  induction orderIds generalizing book with
  | nil => exact wellFormed
  | cons head rest inductionHypothesis =>
      cases found : book.getOrder head with
      | none => simpa [OrderBook.cancelOrders, found] using inductionHypothesis wellFormed
      | some order =>
          simpa [OrderBook.cancelOrders, found] using
            inductionHypothesis (wellFormed.unlinkOrder found)

/-- What is left after `cancel_all_user_orders`: every order of another user. -/
theorem WellFormed.getOrder_cancelAll (wellFormed : book.WellFormed) (userId : UserId)
    (orderId : OrderId) :
    (book.cancelAllUserOrders userId).1.getOrder orderId =
      (book.getOrder orderId).filter fun order => order.userId ≠ userId := by
  have owned : orderId ∈ book.getUserOrders userId ↔
      ∃ order, book.getOrder orderId = some order ∧ order.userId = userId :=
    wellFormed.toUsers.listed
  cases entry : book.userOrders[userId]? with
  | none =>
      have none_owned : ¬∃ order, book.getOrder orderId = some order ∧ order.userId = userId := by
        rw [← owned, getUserOrders, entry]
        simp
      cases found : book.getOrder orderId with
      | none => simp [cancelAllUserOrders, entry, found]
      | some order =>
          have other : order.userId ≠ userId := fun same => none_owned ⟨order, found, same⟩
          simp [cancelAllUserOrders, entry, found, other, Option.filter]
  | some orderIds =>
      have listed : orderId ∈ orderIds ↔ orderId ∈ book.getUserOrders userId := by
        simp [getUserOrders, entry]
      rw [show (book.cancelAllUserOrders userId).1 =
          ({ book with userOrders := book.userOrders.erase userId }.cancelOrders orderIds).1 by
        simp [cancelAllUserOrders, entry], getOrder_cancelOrders]
      change (if orderId ∈ orderIds then none else book.getOrder orderId) = _
      cases found : book.getOrder orderId with
      | none => simp
      | some order =>
          have own : orderId ∈ orderIds ↔ order.userId = userId := by
            rw [listed, owned]
            simp [found]
          by_cases same : order.userId = userId
          · simp [own.2 same, same, Option.filter]
          · simp [own, same, Option.filter]

/-- `cancel_all_user_orders` returns the user's orders. -/
theorem WellFormed.cancelAllUserOrders_snd (wellFormed : book.WellFormed) (userId : UserId) :
    (book.cancelAllUserOrders userId).2 =
      (book.getUserOrders userId).filterMap book.getOrder := by
  have nodup := wellFormed.toUsers.nodup userId
  rw [OrderBook.cancelAllUserOrders]
  rw [getUserOrders] at nodup ⊢
  cases entry : book.userOrders[userId]? with
  | none => rfl
  | some orderIds =>
      rw [entry] at nodup
      exact cancelOrders_snd nodup

/-- Cancelling all orders of any user keeps the invariant. -/
theorem WellFormed.cancelAllUserOrders (wellFormed : book.WellFormed) (userId : UserId) :
    (book.cancelAllUserOrders userId).1.WellFormed := by
  have getOrderAfter := wellFormed.getOrder_cancelAll userId
  cases entry : book.userOrders[userId]? with
  | none =>
      simpa [OrderBook.cancelAllUserOrders, entry] using wellFormed
  | some orderIds =>
      have result : (book.cancelAllUserOrders userId).1 =
          ({ book with userOrders := book.userOrders.erase userId }.cancelOrders orderIds).1 := by
        simp [OrderBook.cancelAllUserOrders, entry]
      have userOrdersAfter : ∀ other, (book.cancelAllUserOrders userId).1.userOrders[other]? =
          if userId = other then none else book.userOrders[other]? := by
        intro other
        rw [result, userOrders_cancelOrders, Std.ExtTreeMap.getElem?_erase]
        simp
      have getUserOrdersAfter : ∀ other,
          (book.cancelAllUserOrders userId).1.getUserOrders other =
            if userId = other then [] else book.getUserOrders other := by
        intro other
        rw [getUserOrders, userOrdersAfter]
        split <;> rfl
      constructor
      · rw [result]
        refine LevelsWellFormed.cancelOrders ?_ orderIds
        exact wellFormed.toLevels.congr rfl rfl rfl
      · constructor
        · intro other orderId
          rw [getUserOrdersAfter, getOrderAfter]
          by_cases same : userId = other
          · subst same
            simp
          · rw [if_neg same, wellFormed.toUsers.listed]
            constructor
            · rintro ⟨order, found, rfl⟩
              exact ⟨order, by simp [found, Ne.symm same], rfl⟩
            · rintro ⟨order, found, owner⟩
              exact ⟨order, (Option.filter_eq_some_iff.1 found).1, owner⟩
        · intro other
          rw [getUserOrdersAfter]
          split
          · exact List.nodup_nil
          · exact wellFormed.toUsers.nodup other
        · intro other ids kept
          rw [userOrdersAfter] at kept
          split at kept
          · cases kept
          · exact wellFormed.toUsers.nonempty kept

end CancelAll

/-! ## Quantity updates -/

section Update

variable {book : OrderBook}

private theorem remaining_updateQty {orderId : OrderId} {newRemaining : Decimal128}
    (other : OrderId) (different : other ≠ orderId) :
    (book.updateQty orderId newRemaining).remaining other = book.remaining other := by
  rw [remaining, getOrder_updateQty, if_neg (Ne.symm different), remaining]

/-- A stored order after an update is the old one, up to its remaining quantity. -/
theorem getOrder_updateQty_inv {orderId other : OrderId} {newRemaining : Decimal128}
    {order : BookOrder}
    (found : (book.updateQty orderId newRemaining).getOrder other = some order) :
    ∃ before quantity, book.getOrder other = some before ∧
      order = before.withRemaining quantity := by
  rw [getOrder_updateQty] at found
  split at found
  · obtain ⟨before, stored, rfl⟩ := Option.map_eq_some_iff.1 found
    exact ⟨before, newRemaining, stored, rfl⟩
  · exact ⟨order, order.remainingQty, found, rfl⟩

private theorem getOrder_updateQty_of_some (orderId : OrderId) (newRemaining : Decimal128)
    {other : OrderId} {before : BookOrder} (stored : book.getOrder other = some before) :
    ∃ remainingQty, (book.updateQty orderId newRemaining).getOrder other =
      some (before.withRemaining remainingQty) := by
  rw [getOrder_updateQty, stored]
  split
  · exact ⟨newRemaining, rfl⟩
  · exact ⟨before.remainingQty, rfl⟩

/-- A level's total moves by what its order gives up. -/
private theorem LevelAgrees.update {price newRemaining : Decimal128} {level : PriceLevel}
    {orderId : OrderId} {order : BookOrder} (agrees : book.LevelAgrees price level)
    (nodup : level.orders.Nodup) (found : book.getOrder orderId = some order)
    (member : orderId ∈ level.orders) :
    (book.updateQty orderId newRemaining).LevelAgrees price
      { level with totalQty := level.totalQty - (order.remainingQty - newRemaining) } := by
  refine ⟨agrees.price_eq, agrees.nonempty, ?_⟩
  have others : (level.orders.erase orderId).map (book.updateQty orderId newRemaining).remaining =
      (level.orders.erase orderId).map book.remaining := by
    refine List.map_congr_left fun other kept => remaining_updateQty other ?_
    exact (nodup.mem_erase_iff.1 kept).1
  have own : (book.updateQty orderId newRemaining).remaining orderId = newRemaining := by
    simp [remaining, getOrder_updateQty, found]
  have before := List.sum_map_erase book.remaining member
  have after := List.sum_map_erase (book.updateQty orderId newRemaining).remaining member
  calc level.totalQty - (order.remainingQty - newRemaining)
      = order.remainingQty + ((level.orders.erase orderId).map book.remaining).sum -
          (order.remainingQty - newRemaining) := by
        rw [agrees.total_eq, ← before, remaining_of_some found]
    _ = newRemaining + ((level.orders.erase orderId).map book.remaining).sum := by abel
    _ = _ := by rw [← after, own, others]

/-- Updating the quantity of any order id keeps the invariant. -/
theorem WellFormed.updateQty (wellFormed : book.WellFormed) (orderId : OrderId)
    (newRemaining : Decimal128) : (book.updateQty orderId newRemaining).WellFormed := by
  constructor
  · constructor
    · intro other order stored
      obtain ⟨before, quantity, found, rfl⟩ := getOrder_updateQty_inv stored
      have keyed := wellFormed.toLevels.keyed found
      exact keyed
    · intro other order stored
      obtain ⟨before, quantity, found, rfl⟩ := getOrder_updateQty_inv stored
      have member := wellFormed.toLevels.queued found
      rwa [queue_updateQty]
    · intro side price other member
      rw [queue_updateQty] at member
      obtain ⟨before, found, atSide, atPrice⟩ := wellFormed.toLevels.stored member
      obtain ⟨quantity, stored⟩ :=
        getOrder_updateQty_of_some orderId newRemaining found
      exact ⟨_, stored, atSide, atPrice⟩
    · intro side price
      rw [queue_updateQty]
      exact wellFormed.toLevels.nodup side price
    · intro side price level stored
      cases found : book.getOrder orderId with
      | none =>
          rw [updateQty_of_none found] at stored ⊢
          exact wellFormed.toLevels.agrees stored
      | some order =>
          rw [level?_updateQty found] at stored
          split at stored
          · rename_i here
            obtain ⟨rfl, rfl⟩ := here
            obtain ⟨before, entry, rfl⟩ := Option.map_eq_some_iff.1 stored
            have member := wellFormed.toLevels.queued found
            have nodup := wellFormed.toLevels.nodup order.side order.price
            rw [queue_of_level entry] at member nodup
            exact (wellFormed.toLevels.agrees entry).update nodup found member
          · rename_i elsewhere
            refine (wellFormed.toLevels.agrees stored).of_remaining fun other member => ?_
            refine remaining_updateQty other ?_
            rintro rfl
            exact wellFormed.toLevels.not_mem_other found elsewhere
              (by rwa [queue_of_level stored])
  · constructor
    · intro userId other
      rw [getUserOrders, userOrders_updateQty, ← getUserOrders, wellFormed.toUsers.listed]
      constructor
      · rintro ⟨before, found, owner⟩
        obtain ⟨quantity, stored⟩ :=
          getOrder_updateQty_of_some orderId newRemaining found
        exact ⟨_, stored, owner⟩
      · rintro ⟨order, stored, owner⟩
        obtain ⟨before, quantity, found, rfl⟩ := getOrder_updateQty_inv stored
        exact ⟨before, found, owner⟩
    · intro userId
      rw [getUserOrders, userOrders_updateQty]
      exact wellFormed.toUsers.nodup userId
    · intro userId ids found
      rw [userOrders_updateQty] at found
      exact wellFormed.toUsers.nonempty found

end Update

/-! ## Sequences of operations -/

/-- The four operations that change a book. -/
inductive Operation where
  | insertOrder (order : BookOrder)
  | removeOrder (orderId : OrderId)
  | updateQty (orderId : OrderId) (newRemaining : Decimal128)
  | cancelAllUserOrders (userId : UserId)
  deriving DecidableEq, Repr

/-- Perform an operation; the orders it returns are its output. -/
def perform (book : OrderBook) : Operation → OrderBook × List BookOrder
  | .insertOrder order => (book.insertOrder order, [])
  | .removeOrder orderId => (book.removeOrder orderId, (book.getOrder orderId).toList)
  | .updateQty orderId newRemaining => (book.updateQty orderId newRemaining, [])
  | .cancelAllUserOrders userId => book.cancelAllUserOrders userId

/-- Callers insert only ids that are not on the book; the other operations take any
argument. -/
def Admissible (book : OrderBook) : Operation → Prop
  | .insertOrder order => book.getOrder order.orderId = none
  | _ => True

instance (book : OrderBook) :
    (operation : Operation) → Decidable (book.Admissible operation)
  | .insertOrder order => inferInstanceAs (Decidable (book.getOrder order.orderId = none))
  | .removeOrder _ => isTrue trivial
  | .updateQty _ _ => isTrue trivial
  | .cancelAllUserOrders _ => isTrue trivial

theorem WellFormed.perform {book : OrderBook} (wellFormed : book.WellFormed)
    {operation : Operation} (admissible : book.Admissible operation) :
    (book.perform operation).1.WellFormed := by
  cases operation with
  | insertOrder order => exact wellFormed.insertOrder admissible
  | removeOrder orderId => exact wellFormed.removeOrder orderId
  | updateQty orderId newRemaining => exact wellFormed.updateQty orderId newRemaining
  | cancelAllUserOrders userId => exact wellFormed.cancelAllUserOrders userId

/-- A limit order with no options set. -/
def plainOrder (orderId : OrderId) (userId : UserId) (side : Side) (price qty : Int) :
    BookOrder where
  orderId := orderId
  userId := userId
  symbol := 1
  side := side
  price := .ofInt price
  remainingQty := .ofInt qty
  originalQty := .ofInt qty
  orderType := .limit
  timeInForce := .gtc
  isReduceOnly := false
  timestamp := 0
  visibleQty := none
  hiddenQty := 0
  trailingDelta := none
  trailingPeakPrice := none
  expireTime := none
  clientOrderId := none
  stopPrice := none

end OrderBook
end Exg
