import Exg.Matching.CheckedBook
import Mathlib.Data.List.Infix

/-!
# The book's invariant, where its totals stay in range

The four operations as they are with panicking sums.  A sequence of them runs to its end, and
leaves the book's structures consistent, if and only if no total that an operation computes
leaves the range.
-/

namespace Exg

open Support

namespace OrderBook

/-! ## The operations, with their panics -/

/-- `perform`; nothing is the outcome of a panic. -/
def perform? (book : OrderBook) : Operation → Option (OrderBook × List BookOrder)
  | .insertOrder order => (book.insertOrder? order).map fun inserted => (inserted, [])
  | .removeOrder orderId => (book.removeOrder? orderId).map fun removed =>
      (removed, (book.getOrder orderId).toList)
  | .updateQty orderId newRemaining =>
      (book.updateQty? orderId newRemaining).map fun updated => (updated, [])
  | .cancelAllUserOrders userId => book.cancelAllUserOrders? userId

/-! ## The conditions -/

/-- What the orders of a level add up to without some of them. -/
def totalWithout (book : OrderBook) (side : Side) (price : Decimal128) (gone : List OrderId) :
    Decimal128 :=
  (((book.queue side price).filter fun orderId => orderId ∉ gone).map book.remaining).sum

/-- With the orders taken out one by one, what stays of each one's level is in range. -/
def CancelFits (book : OrderBook) (orderIds : List OrderId) : Prop :=
  ∀ gone ∈ orderIds.inits, ∀ orderId ∈ gone.getLast?, ∀ order ∈ book.getOrder orderId,
    (book.totalWithout order.side order.price gone).InRange

/-- The totals that an operation computes are in range. -/
def Fits (book : OrderBook) : Operation → Prop
  | .insertOrder order => (book.levelTotal order.side order.price + order.remainingQty).InRange
  | .removeOrder orderId => ∀ order ∈ book.getOrder orderId,
      (book.levelTotal order.side order.price - order.remainingQty).InRange
  | .updateQty orderId newRemaining => ∀ order ∈ book.getOrder orderId,
      (order.remainingQty - newRemaining).InRange ∧
        (book.levelTotal order.side order.price - (order.remainingQty - newRemaining)).InRange
  | .cancelAllUserOrders userId => book.CancelFits (book.getUserOrders userId)

instance (book : OrderBook) : (operation : Operation) → Decidable (book.Fits operation)
  | .insertOrder _ => inferInstanceAs (Decidable (Decimal128.InRange _))
  | .removeOrder _ => inferInstanceAs (Decidable (∀ order ∈ _, _))
  | .updateQty _ _ => inferInstanceAs (Decidable (∀ order ∈ _, _))
  | .cancelAllUserOrders _ => inferInstanceAs (Decidable (∀ gone ∈ _, _))

/-! ## One operation -/

section Totals

variable {book : OrderBook} {orderId : OrderId} {order : BookOrder}

theorem LevelsWellFormed.computes_levelWithout (levels : book.LevelsWellFormed)
    (found : book.getOrder orderId = some order) (diff : Decimal128) :
    Computes (book.levelWithout? order diff)
      (book.levelTotal order.side order.price - diff).InRange () := by
  have queued := levels.queued found
  rw [levelWithout?, levelTotal]
  cases atLevel : book.level? order.side order.price with
  | none =>
      rw [queue, atLevel] at queued
      cases queued
  | some level => exact (Decimal128.computes_sub level.totalQty diff).map fun _ => ()

theorem LevelsWellFormed.levelTotal_eq (levels : book.LevelsWellFormed) (side : Side)
    (price : Decimal128) :
    book.levelTotal side price = ((book.queue side price).map book.remaining).sum := by
  rw [levelTotal, queue]
  cases atLevel : book.level? side price with
  | none => rfl
  | some level => exact (levels.agrees atLevel).total_eq

/-- Taking an order's quantity off its level's total leaves that of the others. -/
theorem LevelsWellFormed.totalWithout_one (levels : book.LevelsWellFormed)
    (found : book.getOrder orderId = some order) :
    book.levelTotal order.side order.price - order.remainingQty =
      book.totalWithout order.side order.price [orderId] := by
  have member := levels.queued found
  have nodup := levels.nodup order.side order.price
  have split := List.sum_map_erase book.remaining member
  have erased : (book.queue order.side order.price).filter (fun other => other ∉ [orderId]) =
      (book.queue order.side order.price).erase orderId := by
    rw [nodup.erase_eq_filter]
    exact List.filter_congr fun other _ => by simp [bne, Bool.beq_eq_decide_eq]
  rw [totalWithout, erased, levels.levelTotal_eq, ← split, remaining_of_some found,
    add_sub_cancel_left]

/-- An id that is not stored is missing from every level. -/
theorem LevelsWellFormed.totalWithout_missing (levels : book.LevelsWellFormed)
    (missing : book.getOrder orderId = none) (side : Side) (price : Decimal128)
    (gone : List OrderId) :
    book.totalWithout side price (orderId :: gone) = book.totalWithout side price gone := by
  have same : (book.queue side price).filter (fun other => other ∉ orderId :: gone) =
      (book.queue side price).filter fun other => other ∉ gone := by
    refine List.filter_congr fun other member => ?_
    have different : other ≠ orderId := by
      rintro rfl
      exact levels.not_mem_queue missing side price member
    simp [different]
  rw [totalWithout, same, totalWithout]

private theorem LevelsWellFormed.totalWithout_unlinkOrder (levels : book.LevelsWellFormed)
    (found : book.getOrder orderId = some order) (side : Side) (price : Decimal128)
    (gone : List OrderId) :
    (book.unlinkOrder orderId order).totalWithout side price gone =
      book.totalWithout side price (orderId :: gone) := by
  have kept : ((book.unlinkOrder orderId order).queue side price).filter
        (fun other => other ∉ gone) =
      (book.queue side price).filter fun other => other ∉ orderId :: gone := by
    rw [queue_unlinkOrder]
    split
    · rw [List.filter_filter]
      exact List.filter_congr fun other _ => by simp [Bool.and_comm]
    · rename_i elsewhere
      refine List.filter_congr fun other member => ?_
      have different : other ≠ orderId := by
        rintro rfl
        exact levels.not_mem_other found elsewhere member
      simp [different]
  rw [totalWithout, kept, totalWithout]
  refine congrArg List.sum (List.map_congr_left fun other member => ?_)
  have outside : other ∉ orderId :: gone := by simpa using (List.mem_filter.1 member).2
  exact remaining_unlinkOrder (List.ne_of_not_mem_cons outside)

end Totals

section CancelAll

variable {book : OrderBook}

private theorem cancelFits_cons {head : OrderId} {rest : List OrderId} :
    book.CancelFits (head :: rest) ↔
      (∀ order ∈ book.getOrder head,
        (book.totalWithout order.side order.price [head]).InRange) ∧
      ∀ gone ∈ rest.inits, ∀ orderId ∈ gone.getLast?, ∀ order ∈ book.getOrder orderId,
        (book.totalWithout order.side order.price (head :: gone)).InRange := by
  constructor
  · intro fits
    refine ⟨fits [head] (by simp) head rfl, fun gone member orderId last => ?_⟩
    refine fits (head :: gone) (by simpa using member) orderId ?_
    rw [List.getLast?_cons, Option.mem_def.1 last]
    rfl
  · rintro ⟨first, later⟩ gone member orderId last
    rcases List.mem_cons.1 (List.inits_cons head rest ▸ member) with rfl | longer
    · cases last
    · obtain ⟨others, listed, rfl⟩ := List.mem_map.1 longer
      cases others using List.reverseRecOn with
      | nil =>
          cases last
          exact first
      | append_singleton initial final =>
          refine later _ listed orderId ?_
          rw [← List.cons_append, List.getLast?_append_of_ne_nil _ (List.cons_ne_nil _ _)] at last
          rw [List.getLast?_append_of_ne_nil _ (List.cons_ne_nil _ _)]
          exact last

private theorem computes_cancelOrders (levels : book.LevelsWellFormed) {orderIds : List OrderId}
    (nodup : orderIds.Nodup) :
    Computes (book.cancelOrders? orderIds) (book.CancelFits orderIds)
      (book.cancelOrders orderIds) := by
  induction orderIds generalizing book with
  | nil => exact (Computes.pure _).congr (iff_of_true trivial (by simp [CancelFits]))
  | cons head rest inductionHypothesis =>
      obtain ⟨headFresh, restNodup⟩ := List.nodup_cons.1 nodup
      rw [cancelOrders?, cancelOrders, cancelFits_cons]
      cases found : book.getOrder head with
      | none =>
          refine (inductionHypothesis levels restNodup).congr ?_
          rw [CancelFits, and_iff_right (fun order listed => by cases listed)]
          simp only [levels.totalWithout_missing found]
      | some order =>
          have others := (inductionHypothesis (levels.unlinkOrder found) restNodup).bind_some
            fun later => (later.1, order :: later.2)
          refine ((levels.computes_levelWithout found _).bind fun _ => others).congr ?_
          rw [levels.totalWithout_one found, CancelFits]
          refine and_congr (by simp) (forall₄_congr fun gone listed orderId last => ?_)
          have member : orderId ∈ rest :=
            ((List.mem_inits _ _).1 listed).subset (List.mem_of_getLast? last)
          have different : head ≠ orderId := fun same => headFresh (same ▸ member)
          rw [getOrder_unlinkOrder, if_neg different]
          simp only [levels.totalWithout_unlinkOrder found]

private theorem WellFormed.computes_cancelAll (wellFormed : book.WellFormed) (userId : UserId) :
    Computes (book.cancelAllUserOrders? userId) (book.CancelFits (book.getUserOrders userId))
      (book.cancelAllUserOrders userId) := by
  have nodup := wellFormed.toUsers.nodup userId
  rw [cancelAllUserOrders?, OrderBook.cancelAllUserOrders]
  rw [getUserOrders] at nodup ⊢
  cases entry : book.userOrders[userId]? with
  | none => exact (Computes.pure _).congr (iff_of_true trivial (by simp [CancelFits]))
  | some orderIds =>
      rw [entry] at nodup
      have levels : LevelsWellFormed { book with userOrders := book.userOrders.erase userId } :=
        wellFormed.toLevels.congr rfl rfl rfl
      exact computes_cancelOrders levels nodup

end CancelAll

/-- An operation has a result exactly where its totals are in range. -/
theorem WellFormed.computes_perform {book : OrderBook} (wellFormed : book.WellFormed)
    (operation : Operation) :
    Computes (book.perform? operation) (book.Fits operation) (book.perform operation) := by
  have levels := wellFormed.toLevels
  cases operation with
  | insertOrder order => exact (book.computes_insertOrder order).map fun inserted => (inserted, [])
  | removeOrder orderId =>
      rw [perform?, removeOrder?, Fits, OrderBook.perform]
      cases found : book.getOrder orderId with
      | none =>
          rw [removeOrder_of_none book found]
          exact (Computes.pure _).congr (iff_of_true trivial fun order listed => by cases listed)
      | some order =>
          refine (((levels.computes_levelWithout found _).bind_some
            fun _ => book.removeOrder orderId).map fun removed => (removed, [order])).congr ?_
          simp
  | updateQty orderId newRemaining =>
      rw [perform?, updateQty?, Fits, OrderBook.perform]
      cases found : book.getOrder orderId with
      | none =>
          rw [updateQty_of_none found]
          exact (Computes.pure _).congr (iff_of_true trivial fun order listed => by cases listed)
      | some order =>
          have diff := Decimal128.computes_sub order.remainingQty newRemaining
          refine ((diff.bind fun _ => (levels.computes_levelWithout found _).bind_some
            fun _ => book.updateQty orderId newRemaining).map fun updated => (updated, [])).congr ?_
          simp
  | cancelAllUserOrders userId => exact wellFormed.computes_cancelAll userId

/-! ## Runs -/

/-- An operation that has a result gives that of exact totals. -/
theorem agrees_perform (book : OrderBook) (operation : Operation) :
    Agrees (book.perform? operation) (book.perform operation) := by
  cases operation with
  | insertOrder order => exact (agrees_insertOrder book order).map fun inserted => (inserted, [])
  | removeOrder orderId => exact (agrees_removeOrder book orderId).map fun removed =>
      (removed, (book.getOrder orderId).toList)
  | updateQty orderId newRemaining =>
      exact (agrees_updateQty book orderId newRemaining).map fun updated => (updated, [])
  | cancelAllUserOrders userId => exact agrees_cancelAllUserOrders book userId

/-- Every stored order is in exactly one level, the one of its side and price, and there once; no
level is empty, and each holds stored orders only, whose quantities add up to its total; and the
index lists each user's orders, each once, with no empty entry. -/
structure Consistent (book : OrderBook) : Prop where
  stored : ∀ orderId order, book.getOrder orderId = some order →
    order.orderId = orderId ∧ ∀ side price, (book.queue side price).count orderId =
      if order.side = side ∧ order.price = price then 1 else 0
  levels : ∀ side price level, book.level? side price = some level →
    level.price = price ∧ level.orders ≠ [] ∧
      (∀ orderId ∈ level.orders, (book.getOrder orderId).isSome) ∧
      level.totalQty = (level.orders.map book.remaining).sum
  users : ∀ userId orderId, orderId ∈ book.getUserOrders userId ↔
    ∃ order, book.getOrder orderId = some order ∧ order.userId = userId
  once : ∀ userId, (book.getUserOrders userId).Nodup
  indexed : ∀ (userId : UserId) (ids : List OrderId),
    book.userOrders[userId]? = some ids → ids ≠ []

theorem WellFormed.consistent {book : OrderBook} (wellFormed : book.WellFormed) :
    book.Consistent where
  stored := by
    intro orderId order found
    refine ⟨wellFormed.toLevels.keyed found, fun side price => ?_⟩
    rw [(wellFormed.toLevels.nodup side price).count]
    by_cases here : order.side = side ∧ order.price = price
    · obtain ⟨rfl, rfl⟩ := here
      simp [wellFormed.toLevels.queued found]
    · rw [if_neg (wellFormed.toLevels.not_mem_other found here), if_neg here]
  levels := by
    intro side price level found
    have agrees := wellFormed.toLevels.agrees found
    refine ⟨agrees.price_eq, agrees.nonempty, fun orderId member => ?_, agrees.total_eq⟩
    rw [← queue_of_level found] at member
    obtain ⟨order, stored, -⟩ := wellFormed.toLevels.stored member
    simp [stored]
  users userId orderId := wellFormed.toUsers.listed
  once := wellFormed.toUsers.nodup
  indexed userId ids := wellFormed.toUsers.nonempty

/-- Every sequence of operations that inserts no id twice keeps the book consistent. -/
def KeepsConsistent : Prop :=
  ∀ (symbol : SymbolId) (operations : List Operation),
    ReachedMeet perform? Admissible (new symbol) operations →
      ∃ outcome, runPartial perform? (new symbol) operations = some outcome ∧
        outcome.1.Consistent

/-- From an empty book, operations that insert no id that is on the book run to their end and
leave the four structures consistent, if and only if the totals of each of them are in range. -/
theorem representation_invariant_iff (symbol : SymbolId) {operations : List Operation}
    (admissible : ReachedMeet perform? Admissible (new symbol) operations) :
    (∃ outcome, runPartial perform? (new symbol) operations = some outcome ∧
        outcome.1.Consistent) ↔
      StepsMeet perform Fits (new symbol) operations := by
  have computes : Computes (runPartial perform? (new symbol) operations)
      (StepsMeet perform Fits (new symbol) operations) (run perform (new symbol) operations) := by
    refine computes_run_reached (fun book operation wellFormed _ => ?_)
      (fun book operation wellFormed admitted _ => ?_) (wellFormed_new symbol) admissible
    · exact WellFormed.computes_perform wellFormed operation
    · exact WellFormed.perform wellFormed admitted
  refine ⟨fun ⟨outcome, runs, _⟩ => ((computes outcome).1 runs).1, fun fits => ?_⟩
  have runs := computes.eq_some fits
  refine ⟨_, runs, WellFormed.consistent ?_⟩
  refine runPartial_keeps (fun {book operation next} wellFormed admitted performed => ?_)
    (wellFormed_new symbol) admissible runs
  rw [← (((WellFormed.computes_perform wellFormed operation) next).1 performed).2]
  exact WellFormed.perform wellFormed admitted

/-- Two users, both sides, and every operation. -/
def mixedOperations : List Operation :=
  [.insertOrder (plainOrder 1 7 .buy 100 5), .insertOrder (plainOrder 2 7 .buy 100 3),
    .insertOrder (plainOrder 3 8 .sell 101 4), .updateQty 1 (.ofInt 2), .removeOrder 3,
    .insertOrder (plainOrder 3 8 .buy 100 1), .cancelAllUserOrders 7]

/-- The operations' totals fit, and the order that is left is listed. -/
theorem representation_invariant_iff_mixed :
    ∃ outcome, runPartial perform? (new 1) mixedOperations = some outcome ∧
      outcome.1.Consistent ∧ ∃ order, outcome.1.getOrder 3 = some order ∧ order.userId = 8 := by
  have admissible : ReachedMeet perform? Admissible (new 1) mixedOperations :=
    .of_stepsMeet agrees_perform (by decide +kernel)
  obtain ⟨outcome, runs, consistent⟩ :=
    (representation_invariant_iff 1 admissible).2 (by decide +kernel)
  refine ⟨outcome, runs, consistent, (consistent.users 8 3).1 ?_⟩
  have listed : (runPartial perform? (new 1) mixedOperations).map
      (fun outcome => decide (3 ∈ outcome.1.getUserOrders 8)) = some true := by decide +kernel
  rw [runs] at listed
  exact of_decide_eq_true (Option.some.inj listed)

/-- Two bids of 10^20 at one price. -/
def heavyOperations : List Operation :=
  [.insertOrder (plainOrder 1 7 .buy 1 100000000000000000000),
    .insertOrder (plainOrder 2 8 .buy 1 100000000000000000000)]

/-- The total of a level leaves the range. -/
theorem level_total_overflows :
    runPartial perform? (new 1) heavyOperations = none ∧ ¬KeepsConsistent := by
  have panics : (runPartial perform? (new 1) heavyOperations).isNone = true := by decide +kernel
  have admissible : ReachedMeet perform? Admissible (new 1) heavyOperations :=
    .of_stepsMeet agrees_perform (by decide +kernel)
  refine ⟨Option.isNone_iff_eq_none.1 panics, fun claimed => ?_⟩
  obtain ⟨outcome, runs, -⟩ := claimed 1 heavyOperations admissible
  rw [runs] at panics
  cases panics

end OrderBook
end Exg
