import Exg.Matching.Engine
import Exg.Matching.PriceTime

/-!
# What holds of every reachable engine

An accepted order is on the book or waits as a stop, under an id of its own.  The
invariant speaks of these two places and of the ids used so far; each primitive of the
handlers keeps it, and so does each handler when new orders come with new ids.
-/

namespace Exg

open Support

/-- What every order on the book looks like. -/
structure Resting (order : BookOrder) : Prop where
  remaining_pos : 0 < order.remainingQty
  hidden_nonneg : 0 ≤ order.hiddenQty
  kind : order.orderType = .limit ∧ order.hiddenQty = 0 ∨ order.orderType = .iceberg
  expiry : order.expireTime.isSome = decide (order.timeInForce = .gtd)

/-- What every waiting order looks like. -/
structure Waiting (order : BookOrder) : Prop where
  remaining_pos : 0 < order.remainingQty
  hidden_eq : order.hiddenQty = 0
  conditional : order.orderType.isConditional = true
  expiry : order.expireTime.isSome = decide (order.timeInForce = .gtd)

/-- The book and the waiting orders, with the ids that have been used. -/
structure OrdersSound (book : OrderBook) (stops : List BookOrder) (used : List OrderId) :
    Prop where
  wellFormed : book.WellFormed
  resting : ∀ {orderId order}, book.getOrder orderId = some order → Resting order
  bookUsed : ∀ {orderId order}, book.getOrder orderId = some order → orderId ∈ used
  waiting : ∀ stop ∈ stops, Waiting stop
  stopsNodup : (stops.map BookOrder.orderId).Nodup
  apart : ∀ stop ∈ stops, book.getOrder stop.orderId = none
  stopsUsed : ∀ stop ∈ stops, stop.orderId ∈ used

private theorem Resting.setRemaining {order : BookOrder} (resting : Resting order)
    {quantity : Decimal128} (positive : 0 < quantity) : Resting (order.withRemaining quantity) :=
  ⟨positive, resting.hidden_nonneg, resting.kind, resting.expiry⟩

theorem Resting.isLimit {order : BookOrder} (resting : Resting order) :
    order.orderType.isLimit = true := by
  rcases resting.kind with ⟨limit, -⟩ | iceberg
  · simp [limit, OrderType.isLimit]
  · simp [iceberg, OrderType.isLimit]

theorem Resting.unconditional {order : BookOrder} (resting : Resting order) :
    order.orderType.isConditional = false := by
  rcases resting.kind with ⟨limit, -⟩ | iceberg
  · simp [limit, OrderType.isConditional]
  · simp [iceberg, OrderType.isConditional]

namespace OrdersSound

variable {book : OrderBook} {stops : List BookOrder} {used : List OrderId}

theorem positive (sound : OrdersSound book stops used) : AllPositive book :=
  fun _ _ found => (sound.resting found).remaining_pos

theorem new (symbol : SymbolId) : OrdersSound (OrderBook.new symbol) [] [] where
  wellFormed := OrderBook.wellFormed_new symbol
  resting := by simp
  bookUsed := by simp
  waiting := by simp
  stopsNodup := List.nodup_nil
  apart := by simp
  stopsUsed := by simp

theorem mono (sound : OrdersSound book stops used) {more : List OrderId} (grows : used ⊆ more) :
    OrdersSound book stops more :=
  { sound with
    bookUsed := fun found => grows (sound.bookUsed found)
    stopsUsed := fun stop member => grows (sound.stopsUsed stop member) }

/-- An id that was never used is nowhere. -/
theorem missing_of_unused (sound : OrdersSound book stops used) {orderId : OrderId}
    (unused : orderId ∉ used) : book.getOrder orderId = none := by
  rw [Option.eq_none_iff_forall_ne_some]
  intro order found
  exact unused (sound.bookUsed found)

theorem notWaiting_of_unused (sound : OrdersSound book stops used) {orderId : OrderId}
    (unused : orderId ∉ used) : orderId ∉ stops.map BookOrder.orderId := by
  intro member
  obtain ⟨stop, stopMember, rfl⟩ := List.mem_map.1 member
  exact unused (sound.stopsUsed stop stopMember)

theorem notWaiting_of_resting (sound : OrdersSound book stops used) {orderId : OrderId}
    {order : BookOrder} (found : book.getOrder orderId = some order) :
    orderId ∉ stops.map BookOrder.orderId := by
  intro member
  obtain ⟨stop, stopMember, rfl⟩ := List.mem_map.1 member
  rw [sound.apart stop stopMember] at found
  cases found

/-! ### Changes of the book -/

/-- A change of the book that stores no new id and keeps every order's shape. -/
theorem of_book (sound : OrdersSound book stops used) {after : OrderBook}
    (wellFormed : after.WellFormed)
    (shape : ∀ orderId order, after.getOrder orderId = some order →
      (∃ before, book.getOrder orderId = some before) ∧ Resting order) :
    OrdersSound after stops used where
  wellFormed := wellFormed
  resting := fun found => (shape _ _ found).2
  bookUsed := by
    intro orderId order found
    obtain ⟨⟨before, stored⟩, -⟩ := shape orderId order found
    exact sound.bookUsed stored
  waiting := sound.waiting
  stopsNodup := sound.stopsNodup
  apart := by
    intro stop member
    rw [Option.eq_none_iff_forall_ne_some]
    intro order found
    obtain ⟨⟨before, stored⟩, -⟩ := shape stop.orderId order found
    rw [sound.apart stop member] at stored
    cases stored
  stopsUsed := sound.stopsUsed

theorem removeOrder (sound : OrdersSound book stops used) (orderId : OrderId) :
    OrdersSound (book.removeOrder orderId) stops used := by
  refine sound.of_book (sound.wellFormed.removeOrder orderId) fun other order found => ?_
  rw [OrderBook.getOrder_removeOrder] at found
  split at found
  · cases found
  · exact ⟨⟨order, found⟩, sound.resting found⟩

theorem updateQty (sound : OrdersSound book stops used) (orderId : OrderId)
    {quantity : Decimal128} (positive : 0 < quantity) :
    OrdersSound (book.updateQty orderId quantity) stops used := by
  refine sound.of_book (sound.wellFormed.updateQty orderId quantity) fun other order found => ?_
  rw [OrderBook.getOrder_updateQty] at found
  split at found
  · obtain ⟨before, stored, rfl⟩ := Option.map_eq_some_iff.1 found
    exact ⟨⟨before, stored⟩, (sound.resting stored).setRemaining positive⟩
  · exact ⟨⟨order, found⟩, sound.resting found⟩

theorem cancelAllUserOrders (sound : OrdersSound book stops used) (userId : UserId) :
    OrdersSound (book.cancelAllUserOrders userId).1 stops used := by
  refine sound.of_book (sound.wellFormed.cancelAllUserOrders userId) fun other order found => ?_
  rw [sound.wellFormed.getOrder_cancelAll] at found
  have stored := (Option.filter_eq_some_iff.1 found).1
  exact ⟨⟨order, stored⟩, sound.resting stored⟩

/-- Resting a new order, or one that waits no longer. -/
theorem insertOrder (sound : OrdersSound book stops used) {order : BookOrder}
    (resting : Resting order) (missing : book.getOrder order.orderId = none)
    (notWaiting : order.orderId ∉ stops.map BookOrder.orderId) (known : order.orderId ∈ used) :
    OrdersSound (book.insertOrder order) stops used where
  wellFormed := sound.wellFormed.insertOrder missing
  resting := by
    intro orderId stored found
    rw [OrderBook.getOrder_insertOrder] at found
    split at found
    · cases found
      exact resting
    · exact sound.resting found
  bookUsed := by
    intro orderId stored found
    rw [OrderBook.getOrder_insertOrder] at found
    split at found
    · rename_i same
      rwa [← same]
    · exact sound.bookUsed found
  waiting := sound.waiting
  stopsNodup := sound.stopsNodup
  apart := by
    intro stop member
    rw [OrderBook.getOrder_insertOrder, if_neg, sound.apart stop member]
    intro same
    exact notWaiting (List.mem_map.2 ⟨stop, member, same.symm⟩)
  stopsUsed := sound.stopsUsed

/-- Matching any order keeps the invariant. -/
theorem matchOrder (sound : OrdersSound book stops used) {taker : BookOrder}
    (incoming : 0 ≤ taker.remainingQty) :
    OrdersSound (matchOrder book taker).book stops used := by
  have wellFormed := sound.wellFormed
  rw [matchOrder_book wellFormed]
  refine sound.of_book (OrderBook.wellFormed_takeOut wellFormed _) fun orderId order found => ?_
  obtain ⟨before, quantity, stored, rfl⟩ := OrderBook.getOrder_of_takeOut found
  refine ⟨⟨before, stored⟩, (sound.resting stored).setRemaining ?_⟩
  by_cases drawn : orderId ∈ (matchShares book taker).map Prod.fst
  · obtain ⟨share, member, rfl⟩ := List.mem_map.1 drawn
    have bounds := matchShares_bounds wellFormed sound.positive incoming member
    rw [OrderBook.remaining_of_some stored] at bounds
    rw [OrderBook.getOrder_takeOut_of_mem (matchShares_nodup wellFormed) member stored] at found
    split at found
    · cases found
    · rename_i partly
      have kept := congrArg BookOrder.remainingQty (Option.some.inj found)
      simp only [BookOrder.withRemaining_remainingQty] at kept
      rw [← kept]
      exact sub_pos.2 (lt_of_le_of_ne bounds.2 (Ne.symm partly))
  · rw [OrderBook.getOrder_takeOut_of_not_mem drawn, stored] at found
    have kept := congrArg BookOrder.remainingQty (Option.some.inj found)
    simp only [BookOrder.withRemaining_remainingQty] at kept
    rw [← kept]
    exact (sound.resting stored).remaining_pos

/-! ### Changes of the waiting orders -/

theorem perm (sound : OrdersSound book stops used) {other : List BookOrder}
    (same : other.Perm stops) : OrdersSound book other used :=
  { sound with
    waiting := fun stop member => sound.waiting stop (same.subset member)
    stopsNodup := (same.map BookOrder.orderId).nodup_iff.2 sound.stopsNodup
    apart := fun stop member => sound.apart stop (same.subset member)
    stopsUsed := fun stop member => sound.stopsUsed stop (same.subset member) }

theorem sublist (sound : OrdersSound book stops used) {fewer : List BookOrder}
    (part : fewer.Sublist stops) : OrdersSound book fewer used :=
  { sound with
    waiting := fun stop member => sound.waiting stop (part.subset member)
    stopsNodup := sound.stopsNodup.sublist (part.map BookOrder.orderId)
    apart := fun stop member => sound.apart stop (part.subset member)
    stopsUsed := fun stop member => sound.stopsUsed stop (part.subset member) }

theorem addStop (sound : OrdersSound book stops used) {order : BookOrder} (waiting : Waiting order)
    (missing : book.getOrder order.orderId = none)
    (notWaiting : order.orderId ∉ stops.map BookOrder.orderId) (known : order.orderId ∈ used) :
    OrdersSound book (stops ++ [order]) used := by
  have split : ∀ {stop}, stop ∈ stops ++ [order] → stop ∈ stops ∨ stop = order := by
    intro stop member
    simpa using member
  refine { sound with waiting := ?_, stopsNodup := ?_, apart := ?_, stopsUsed := ?_ }
  · intro stop member
    rcases split member with earlier | rfl
    · exact sound.waiting stop earlier
    · exact waiting
  · rw [List.map_append, List.nodup_append]
    refine ⟨sound.stopsNodup, by simp, ?_⟩
    intro orderId earlier other last same
    simp only [List.map_cons, List.map_nil, List.mem_singleton] at last
    rw [same, last] at earlier
    exact notWaiting earlier
  · intro stop member
    rcases split member with earlier | rfl
    · exact sound.apart stop earlier
    · exact missing
  · intro stop member
    rcases split member with earlier | rfl
    · exact sound.stopsUsed stop earlier
    · exact known

theorem mapStops (sound : OrdersSound book stops used) {change : BookOrder → BookOrder}
    (sameId : ∀ stop, (change stop).orderId = stop.orderId)
    (waiting : ∀ stop, Waiting stop → Waiting (change stop)) :
    OrdersSound book (stops.map change) used := by
  refine { sound with waiting := ?_, stopsNodup := ?_, apart := ?_, stopsUsed := ?_ }
  · intro stop member
    obtain ⟨before, beforeMember, rfl⟩ := List.mem_map.1 member
    exact waiting before (sound.waiting before beforeMember)
  · have ids : (stops.map change).map BookOrder.orderId = stops.map BookOrder.orderId := by
      rw [List.map_map]
      exact List.map_congr_left fun stop _ => sameId stop
    rw [ids]
    exact sound.stopsNodup
  · intro stop member
    obtain ⟨before, beforeMember, rfl⟩ := List.mem_map.1 member
    rw [sameId]
    exact sound.apart before beforeMember
  · intro stop member
    obtain ⟨before, beforeMember, rfl⟩ := List.mem_map.1 member
    rw [sameId]
    exact sound.stopsUsed before beforeMember

end OrdersSound

/-! ## Orders built by the handlers -/

/-- An iceberg order shows a positive part.  The engine itself checks this only through
the configured lot size. -/
def ShowsPart (order : NewOrder) : Prop :=
  order.orderType = .iceberg → ∀ visible, order.visibleQuantity = some visible → 0 < visible

section NewBookOrder

variable {order : NewOrder} {markPrice price : Decimal128}

theorem splitQuantity_of_plain (plain : order.orderType ≠ .iceberg) :
    splitQuantity order = (order.quantity, 0) := by
  simp [splitQuantity, plain]

theorem splitQuantity_sum (order : NewOrder) :
    (splitQuantity order).1 + (splitQuantity order).2 = order.quantity := by
  rw [splitQuantity]
  split
  · exact add_sub_cancel _ _
  · exact add_zero _

theorem splitQuantity_bounds (positive : 0 < order.quantity) (shows : ShowsPart order) :
    0 < (splitQuantity order).1 ∧ 0 ≤ (splitQuantity order).2 := by
  rw [splitQuantity]
  split
  · rename_i iceberg
    constructor
    · refine lt_min ?_ positive
      cases visible : order.visibleQuantity with
      | none => exact positive
      | some quantity => exact shows iceberg quantity visible
    · exact sub_nonneg.2 (min_le_right _ _)
  · exact ⟨positive, le_refl 0⟩

theorem newBookOrder_expiry (order : NewOrder) (markPrice price : Decimal128) :
    (newBookOrder markPrice order price).expireTime.isSome =
      decide ((newBookOrder markPrice order price).timeInForce = .gtd) := by
  simp only [newBookOrder, defaultExpiry]
  split
  · rename_i gtd
    simp [gtd]
  · rename_i other
    simp [other]

theorem newBookOrder_waiting (positive : 0 < order.quantity)
    (conditional : order.orderType.isConditional = true) :
    Waiting (newBookOrder markPrice order price) := by
  have plain : order.orderType ≠ .iceberg := by
    intro iceberg
    simp [iceberg, OrderType.isConditional] at conditional
  refine ⟨?_, ?_, conditional, newBookOrder_expiry order markPrice price⟩
  · simpa [newBookOrder, splitQuantity_of_plain plain] using positive
  · simp [newBookOrder, splitQuantity_of_plain plain]

end NewBookOrder

/-- What is placed on the book after a new order was matched. -/
theorem resting_refilled {order : BookOrder} (timestamp : UnixMicros)
    (kind : order.orderType = .limit ∧ order.hiddenQty = 0 ∨ order.orderType = .iceberg)
    (hidden_nonneg : 0 ≤ order.hiddenQty) (remaining_nonneg : 0 ≤ order.remainingQty)
    (shown : order.orderType = .iceberg → 0 < order.visibleQty.getD order.originalQty)
    (expiry : order.expireTime.isSome = decide (order.timeInForce = .gtd))
    (left : (MatchingEngine.refillIceberg timestamp order).remainingQty ≠ 0) :
    Resting (MatchingEngine.refillIceberg timestamp order) := by
  rw [MatchingEngine.refillIceberg] at left ⊢
  split
  · rename_i refilled
    have hiddenPositive : 0 < order.hiddenQty :=
      lt_of_le_of_ne hidden_nonneg (Ne.symm refilled.2.2)
    exact ⟨lt_min (shown refilled.1) hiddenPositive, sub_nonneg.2 (min_le_right _ _),
      Or.inr refilled.1, expiry⟩
  · rename_i unchanged
    rw [if_neg unchanged] at left
    exact ⟨lt_of_le_of_ne remaining_nonneg (Ne.symm left), hidden_nonneg, kind, expiry⟩

theorem refillIceberg_of_nothing_hidden (timestamp : UnixMicros) {order : BookOrder}
    (shown : order.hiddenQty = 0) : MatchingEngine.refillIceberg timestamp order = order := by
  rw [MatchingEngine.refillIceberg, if_neg fun refilled => refilled.2.2 shown]

theorem refillIceberg_of_left (timestamp : UnixMicros) {order : BookOrder}
    (left : order.remainingQty ≠ 0) : MatchingEngine.refillIceberg timestamp order = order := by
  rw [MatchingEngine.refillIceberg, if_neg fun refilled => left refilled.2.1]

@[simp]
theorem refillIceberg_orderId (timestamp : UnixMicros) (order : BookOrder) :
    (MatchingEngine.refillIceberg timestamp order).orderId = order.orderId := by
  rw [MatchingEngine.refillIceberg]
  split <;> rfl

@[simp]
theorem refillIceberg_orderType (timestamp : UnixMicros) (order : BookOrder) :
    (MatchingEngine.refillIceberg timestamp order).orderType = order.orderType := by
  rw [MatchingEngine.refillIceberg]
  split <;> rfl

@[simp]
theorem refillIceberg_timeInForce (timestamp : UnixMicros) (order : BookOrder) :
    (MatchingEngine.refillIceberg timestamp order).timeInForce = order.timeInForce := by
  rw [MatchingEngine.refillIceberg]
  split <;> rfl

/-- A triggered order is matched as a market or a limit order. -/
theorem convertTriggered_kind {order : BookOrder} (waiting : Waiting order) :
    (MatchingEngine.convertTriggered order).orderType = .limit ∨
      (MatchingEngine.convertTriggered order).orderType = .market := by
  have conditional := waiting.conditional
  cases kind : order.orderType <;>
    simp_all [MatchingEngine.convertTriggered, OrderType.isConditional]

theorem convertTriggered_frame (order : BookOrder) :
    (MatchingEngine.convertTriggered order).orderId = order.orderId ∧
      (MatchingEngine.convertTriggered order).userId = order.userId ∧
      (MatchingEngine.convertTriggered order).symbol = order.symbol ∧
      (MatchingEngine.convertTriggered order).remainingQty = order.remainingQty ∧
      (MatchingEngine.convertTriggered order).hiddenQty = order.hiddenQty ∧
      (MatchingEngine.convertTriggered order).expireTime = order.expireTime ∧
      (MatchingEngine.convertTriggered order).timeInForce = order.timeInForce := by
  cases kind : order.orderType <;> simp [MatchingEngine.convertTriggered, kind]

end Exg
