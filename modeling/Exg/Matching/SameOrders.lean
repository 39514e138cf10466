import Exg.Matching.MatcherSpec

/-!
# Books that hold the same orders in the same queues

The user index of a replayed book lists its ids in another order than the live one, so
books are compared by what a reader sees of them: the stored orders and the queues.
-/

namespace Exg
namespace OrderBook

/-- The same stored orders, queued alike. -/
structure SameOrders (first second : OrderBook) : Prop where
  getOrder : ∀ orderId, second.getOrder orderId = first.getOrder orderId
  queue : ∀ side price, second.queue side price = first.queue side price

namespace SameOrders

variable {first second third : OrderBook}

theorem refl (book : OrderBook) : SameOrders book book := ⟨fun _ => rfl, fun _ _ => rfl⟩

theorem trans (left : SameOrders first second) (right : SameOrders second third) :
    SameOrders first third where
  getOrder := fun orderId => (right.getOrder orderId).trans (left.getOrder orderId)
  queue := fun side price => (right.queue side price).trans (left.queue side price)

theorem symm (same : SameOrders first second) : SameOrders second first where
  getOrder := fun orderId => (same.getOrder orderId).symm
  queue := fun side price => (same.queue side price).symm

/-! ### The operations of the book respect it -/

theorem insertOrder (same : SameOrders first second) (order : BookOrder) :
    SameOrders (first.insertOrder order) (second.insertOrder order) where
  getOrder := by simp [getOrder_insertOrder, same.getOrder]
  queue := by simp [queue_insertOrder, same.queue]

theorem removeOrder (same : SameOrders first second) (orderId : OrderId) :
    SameOrders (first.removeOrder orderId) (second.removeOrder orderId) where
  getOrder := by simp [getOrder_removeOrder, same.getOrder]
  queue := by
    intro side price
    cases found : first.getOrder orderId with
    | none =>
        have alsoMissing := (same.getOrder orderId).trans found
        rw [removeOrder_of_none _ found, removeOrder_of_none _ alsoMissing, same.queue]
    | some order =>
        have alsoFound := (same.getOrder orderId).trans found
        rw [queue_removeOrder found, queue_removeOrder alsoFound, same.queue]

theorem updateQty (same : SameOrders first second) (orderId : OrderId) (quantity : Decimal128) :
    SameOrders (first.updateQty orderId quantity) (second.updateQty orderId quantity) where
  getOrder := by simp [getOrder_updateQty, same.getOrder]
  queue := by simp [same.queue]

theorem takeFrom (same : SameOrders first second) (makerId : OrderId) (left : Decimal128) :
    SameOrders (first.takeFrom makerId left) (second.takeFrom makerId left) := by
  rw [OrderBook.takeFrom, OrderBook.takeFrom]
  split
  · exact same.removeOrder makerId
  · exact same.updateQty makerId left

end SameOrders

/-! ## An order that stands beside the others -/

section Beside

variable {book : OrderBook} {order : BookOrder}

/-- Taking from another order and inserting commute. -/
theorem sameOrders_insert_takeFrom {makerId : OrderId} (other : makerId ≠ order.orderId)
    (left : Decimal128) :
    SameOrders ((book.takeFrom makerId left).insertOrder order)
      ((book.insertOrder order).takeFrom makerId left) where
  getOrder := by
    intro orderId
    simp only [getOrder_takeFrom, getOrder_insertOrder]
    by_cases own : order.orderId = orderId
    · subst own
      simp [other]
    · simp [own]
  queue := by
    intro side price
    rw [OrderBook.takeFrom, OrderBook.takeFrom]
    split
    · rw [queue_insertOrder]
      cases found : book.getOrder makerId with
      | none =>
          have alsoMissing : (book.insertOrder order).getOrder makerId = none := by
            rw [getOrder_insertOrder, if_neg (Ne.symm other), found]
          rw [removeOrder_of_none _ found, removeOrder_of_none _ alsoMissing, queue_insertOrder]
      | some maker =>
          have alsoFound : (book.insertOrder order).getOrder makerId = some maker := by
            rw [getOrder_insertOrder, if_neg (Ne.symm other), found]
          rw [queue_removeOrder found, queue_removeOrder alsoFound, queue_insertOrder]
          by_cases makersQueue : maker.side = side ∧ maker.price = price
          · by_cases ownQueue : order.side = side ∧ order.price = price
            · simp [makersQueue, ownQueue, List.filter_append, Ne.symm other]
            · simp [makersQueue, ownQueue]
          · simp [makersQueue]
    · simp only [queue_updateQty, queue_insertOrder]

/-- Inserting an order and removing it again. -/
theorem sameOrders_insert_remove (wellFormed : book.LevelsWellFormed)
    (missing : book.getOrder order.orderId = none) :
    SameOrders book ((book.insertOrder order).removeOrder order.orderId) where
  getOrder := by
    intro orderId
    rw [getOrder_removeOrder, getOrder_insertOrder]
    by_cases own : order.orderId = orderId
    · rw [if_pos own, ← own, missing]
    · rw [if_neg own, if_neg own]
  queue := by
    intro side price
    have stored : (book.insertOrder order).getOrder order.orderId = some order := by
      rw [getOrder_insertOrder, if_pos rfl]
    rw [queue_removeOrder stored, queue_insertOrder]
    by_cases here : order.side = side ∧ order.price = price
    · have absent := wellFormed.not_mem_queue missing side price
      have kept : (book.queue side price).filter (· ≠ order.orderId) = book.queue side price := by
        refine List.filter_eq_self.2 fun other member => decide_eq_true ?_
        intro same
        exact absent (same ▸ member)
      rw [if_pos here, if_pos here, List.filter_append, kept]
      simp
    · rw [if_neg here, if_neg here]

/-- Inserting an order and changing its quantity. -/
theorem sameOrders_insert_update (quantity : Decimal128) :
    SameOrders (book.insertOrder (order.withRemaining quantity))
      ((book.insertOrder order).updateQty order.orderId quantity) where
  getOrder := by
    intro orderId
    rw [getOrder_updateQty, getOrder_insertOrder, getOrder_insertOrder]
    by_cases own : order.orderId = orderId
    · simp [own]
    · simp [own]
  queue := by
    intro side price
    rw [queue_updateQty, queue_insertOrder, queue_insertOrder]
    rfl

/-- The removal of `cancel_all_user_orders` is a removal. -/
theorem sameOrders_unlink_remove {orderId : OrderId}
    (found : book.getOrder orderId = some order) :
    SameOrders (book.unlinkOrder orderId order) (book.removeOrder orderId) where
  getOrder := by simp [getOrder_removeOrder, getOrder_unlinkOrder]
  queue := by simp [queue_removeOrder found, queue_unlinkOrder]

/-- Removing an order and putting it back changes nothing when it stood last. -/
theorem sameOrders_putBack {orderId : OrderId} (keyed : order.orderId = orderId)
    (found : book.getOrder orderId = some order) {ahead : List OrderId}
    (last : book.queue order.side order.price = ahead ++ [orderId]) (once : orderId ∉ ahead) :
    SameOrders ((book.removeOrder orderId).insertOrder order) book where
  getOrder := fun other => (getOrder_putBack keyed found other).symm
  queue := by
    intro side price
    rw [queue_putBack keyed found]
    by_cases here : order.side = side ∧ order.price = price
    · have kept : ahead.filter (· ≠ orderId) = ahead := by
        refine List.filter_eq_self.2 fun other member => decide_eq_true ?_
        intro same
        exact once (same ▸ member)
      rw [if_pos here, ← here.1, ← here.2, last, List.filter_append, kept]
      simp
    · rw [if_neg here]

end Beside
end OrderBook
end Exg
