import Exg.Matching.Reachable
import Exg.Matching.SameOrders

/-!
# Time priority over runs

Every path of the engine either takes orders out of their queues or puts an order of a
new id at the end of one.  `KeepsOrder` says what that leaves of a queue since an earlier
book.  Positive quantities play no part here, so the invariant is only about ids.
-/

namespace Exg

open Support

/-! ## Queues that only shrink -/

/-- Orders have left, and the others stand as before. -/
structure Shrinks (before after : OrderBook) : Prop where
  stored : ∀ orderId, (after.getOrder orderId).isSome = true →
    (before.getOrder orderId).isSome = true
  queue : ∀ side price, after.queue side price =
    (before.queue side price).filter fun orderId => (after.getOrder orderId).isSome

/-- Since an earlier book orders have left, and orders it did not store have joined at the
end. -/
def KeepsOrder (before after : OrderBook) : Prop :=
  ∀ side price, ∃ entered,
    after.queue side price =
      ((before.queue side price).filter fun orderId => (after.getOrder orderId).isSome) ++
        entered ∧
    ∀ orderId ∈ entered, before.getOrder orderId = none

section Queues

variable {before book after : OrderBook}

theorem Shrinks.refl (wellFormed : book.LevelsWellFormed) : Shrinks book book where
  stored := fun _ found => found
  queue := by
    intro side price
    refine (List.filter_eq_self.2 fun orderId member => ?_).symm
    obtain ⟨order, found, -⟩ := wellFormed.stored member
    simp [found]

theorem Shrinks.trans (first : Shrinks before book) (second : Shrinks book after) :
    Shrinks before after where
  stored := fun orderId found => first.stored orderId (second.stored orderId found)
  queue := by
    intro side price
    rw [second.queue, first.queue, List.filter_filter]
    refine List.filter_congr fun orderId _ => ?_
    cases kept : (after.getOrder orderId).isSome with
    | false => rfl
    | true => simpa using second.stored orderId kept

private theorem shrinks_removeOrder (wellFormed : book.LevelsWellFormed) (orderId : OrderId) :
    Shrinks book (book.removeOrder orderId) where
  stored := by
    intro other found
    rw [OrderBook.getOrder_removeOrder] at found
    split at found
    · cases found
    · exact found
  queue := by
    intro side price
    rw [wellFormed.queue_removeOrder]
    refine List.filter_congr fun other member => ?_
    obtain ⟨order, found, -⟩ := wellFormed.stored member
    rw [OrderBook.getOrder_removeOrder]
    by_cases own : orderId = other
    · simp [own]
    · simp [own, Ne.symm own, found]

/-- Only what is stored and how it is queued matters. -/
theorem Shrinks.of_sameOrders (shrinks : Shrinks before book) (same : book.SameOrders after) :
    Shrinks before after where
  stored := by
    intro orderId found
    rw [same.getOrder] at found
    exact shrinks.stored orderId found
  queue := by
    intro side price
    simp only [same.queue, same.getOrder]
    exact shrinks.queue side price

private theorem shrinks_updateQty (wellFormed : book.LevelsWellFormed) (orderId : OrderId)
    (quantity : Decimal128) : Shrinks book (book.updateQty orderId quantity) := by
  have sameStored : ∀ other, ((book.updateQty orderId quantity).getOrder other).isSome =
      (book.getOrder other).isSome := by
    intro other
    rw [OrderBook.getOrder_updateQty]
    split <;> simp
  constructor
  · intro other found
    rwa [sameStored] at found
  · intro side price
    simp only [OrderBook.queue_updateQty, sameStored]
    exact (Shrinks.refl wellFormed).queue side price

private theorem shrinks_matchOrder (wellFormed : book.WellFormed) (taker : BookOrder) :
    Shrinks book (matchOrder book taker).book := by
  rw [matchOrder_book wellFormed]
  refine ⟨fun orderId found => ?_, OrderBook.queue_takeOut wellFormed _⟩
  obtain ⟨order, kept⟩ := Option.isSome_iff_exists.1 found
  obtain ⟨stored, _, storedFound, -⟩ := OrderBook.getOrder_of_takeOut kept
  simp [storedFound]

private theorem shrinks_cancelOrders (wellFormed : book.LevelsWellFormed)
    (orderIds : List OrderId) :
    Shrinks book (book.cancelOrders orderIds).1 := by
  induction orderIds generalizing book with
  | nil => exact Shrinks.refl wellFormed
  | cons orderId rest inductionHypothesis =>
      rw [OrderBook.cancelOrders]
      cases found : book.getOrder orderId with
      | none => exact inductionHypothesis wellFormed
      | some order =>
          have unlinked : Shrinks book (book.unlinkOrder orderId order) :=
            (shrinks_removeOrder wellFormed orderId).of_sameOrders
              (OrderBook.sameOrders_unlink_remove found).symm
          exact unlinked.trans (inductionHypothesis (wellFormed.unlinkOrder found))

theorem shrinks_cancelAllUserOrders (wellFormed : book.LevelsWellFormed) (userId : UserId) :
    Shrinks book (book.cancelAllUserOrders userId).1 := by
  rw [OrderBook.cancelAllUserOrders]
  cases entry : book.userOrders[userId]? with
  | none => exact Shrinks.refl wellFormed
  | some orderIds =>
      have erased : book.SameOrders { book with userOrders := book.userOrders.erase userId } :=
        ⟨fun _ => rfl, fun side _ => by cases side <;> rfl⟩
      have unlisted : OrderBook.LevelsWellFormed
          { book with userOrders := book.userOrders.erase userId } := wellFormed.congr rfl rfl rfl
      exact ((Shrinks.refl wellFormed).of_sameOrders erased).trans
        (shrinks_cancelOrders unlisted orderIds)

/-! ## Queues that shrink and grow at the end -/

private theorem KeepsOrder.of_shrinks (shrinks : Shrinks before after) : KeepsOrder before after :=
  fun side price => ⟨[], by rw [List.append_nil, shrinks.queue], by simp⟩

private theorem KeepsOrder.shrink (keeps : KeepsOrder before book) (shrinks : Shrinks book after) :
    KeepsOrder before after := by
  intro side price
  obtain ⟨entered, queued, fresh⟩ := keeps side price
  refine ⟨entered.filter fun orderId => (after.getOrder orderId).isSome, ?_, ?_⟩
  · rw [shrinks.queue, queued, List.filter_append, List.filter_filter]
    congr 1
    refine List.filter_congr fun orderId _ => ?_
    cases kept : (after.getOrder orderId).isSome with
    | false => rfl
    | true => simpa using shrinks.stored orderId kept
  · intro orderId member
    exact fresh orderId (List.mem_filter.1 member).1

/-- An order that the earlier book did not store joins its queue at the end. -/
theorem KeepsOrder.insertOrder (keeps : KeepsOrder before book)
    (wellFormed : before.LevelsWellFormed) {order : BookOrder}
    (fresh : before.getOrder order.orderId = none) :
    KeepsOrder before (book.insertOrder order) := by
  intro side price
  obtain ⟨entered, queued, allFresh⟩ := keeps side price
  have same : ((before.queue side price).filter fun orderId =>
      ((book.insertOrder order).getOrder orderId).isSome) =
      (before.queue side price).filter fun orderId => (book.getOrder orderId).isSome := by
    refine List.filter_congr fun orderId member => ?_
    rw [OrderBook.getOrder_insertOrder, if_neg]
    intro own
    exact wellFormed.not_mem_queue fresh side price (own ▸ member)
  rw [OrderBook.queue_insertOrder, same, queued]
  split
  · refine ⟨entered ++ [order.orderId], by rw [List.append_assoc], fun orderId member => ?_⟩
    rcases List.mem_append.1 member with earlier | last
    · exact allFresh orderId earlier
    · rw [List.mem_singleton.1 last]
      exact fresh
  · exact ⟨entered, rfl, allFresh⟩

end Queues

/-! ## Where every order is -/

/-- An accepted order is on the book or waits, under an id that has been used. -/
structure Placed (book : OrderBook) (stops : List BookOrder) (used : List OrderId) : Prop where
  wellFormed : book.WellFormed
  bookUsed : ∀ orderId, (book.getOrder orderId).isSome = true → orderId ∈ used
  nodup : (stops.map BookOrder.orderId).Nodup
  apart : ∀ orderId ∈ stops.map BookOrder.orderId, book.getOrder orderId = none
  stopsUsed : ∀ orderId ∈ stops.map BookOrder.orderId, orderId ∈ used

namespace Placed

variable {book after : OrderBook} {stops left : List BookOrder} {used more : List OrderId}
variable {order : BookOrder}

theorem mono (placed : Placed book stops used) (grows : used ⊆ more) : Placed book stops more :=
  { placed with
    bookUsed := fun orderId found => grows (placed.bookUsed orderId found)
    stopsUsed := fun orderId member => grows (placed.stopsUsed orderId member) }

private theorem shrink (placed : Placed book stops used) (wellFormed : after.WellFormed)
    (shrinks : Shrinks book after) : Placed after stops used where
  wellFormed := wellFormed
  bookUsed := fun orderId found => placed.bookUsed orderId (shrinks.stored orderId found)
  nodup := placed.nodup
  apart := by
    intro orderId member
    have absent := placed.apart orderId member
    cases kept : after.getOrder orderId with
    | none => rfl
    | some order =>
        have stored := shrinks.stored orderId (by rw [kept]; rfl)
        rw [absent] at stored
        cases stored
  stopsUsed := placed.stopsUsed

theorem insertOrder (placed : Placed book stops used)
    (missing : book.getOrder order.orderId = none)
    (notWaiting : order.orderId ∉ stops.map BookOrder.orderId) (known : order.orderId ∈ used) :
    Placed (book.insertOrder order) stops used where
  wellFormed := placed.wellFormed.insertOrder missing
  bookUsed := by
    intro orderId found
    rw [OrderBook.getOrder_insertOrder] at found
    split at found
    · rename_i own
      rwa [← own]
    · exact placed.bookUsed orderId found
  nodup := placed.nodup
  apart := by
    intro orderId member
    have other : order.orderId ≠ orderId := by
      rintro rfl
      exact notWaiting member
    rw [OrderBook.getOrder_insertOrder, if_neg other]
    exact placed.apart orderId member
  stopsUsed := placed.stopsUsed

/-- The waiting orders in another order, or fewer of them. -/
theorem ofStops (placed : Placed book stops used) (nodup : (left.map BookOrder.orderId).Nodup)
    (fewer : left.map BookOrder.orderId ⊆ stops.map BookOrder.orderId) :
    Placed book left used :=
  { placed with
    nodup := nodup
    apart := fun orderId member => placed.apart orderId (fewer member)
    stopsUsed := fun orderId member => placed.stopsUsed orderId (fewer member) }

theorem perm (placed : Placed book stops used) (same : left.Perm stops) :
    Placed book left used :=
  placed.ofStops ((same.map _).nodup_iff.2 placed.nodup) (same.map _).subset

theorem sublist (placed : Placed book stops used) (fewer : left.Sublist stops) :
    Placed book left used :=
  placed.ofStops (placed.nodup.sublist (fewer.map _)) (fewer.map _).subset

theorem addStop (placed : Placed book stops used)
    (missing : book.getOrder order.orderId = none)
    (notWaiting : order.orderId ∉ stops.map BookOrder.orderId) (known : order.orderId ∈ used) :
    Placed book (stops ++ [order]) used := by
  have split : ∀ {orderId}, orderId ∈ (stops ++ [order]).map BookOrder.orderId →
      orderId ∈ stops.map BookOrder.orderId ∨ orderId = order.orderId := by
    intro orderId member
    simpa only [List.map_append, List.mem_append, List.map_singleton, List.mem_singleton]
      using member
  refine { placed with nodup := ?_, apart := ?_, stopsUsed := ?_ }
  · rw [List.map_append, List.nodup_append]
    refine ⟨placed.nodup, by simp, ?_⟩
    rintro orderId earlier other last rfl
    rw [List.map_singleton, List.mem_singleton] at last
    rw [last] at earlier
    exact notWaiting earlier
  · intro orderId member
    rcases split member with earlier | rfl
    · exact placed.apart orderId earlier
    · exact missing
  · intro orderId member
    rcases split member with earlier | rfl
    · exact placed.stopsUsed orderId earlier
    · exact known

theorem missing_of_unused (placed : Placed book stops used) {orderId : OrderId}
    (unused : orderId ∉ used) : book.getOrder orderId = none := by
  cases found : book.getOrder orderId with
  | none => rfl
  | some order => exact absurd (placed.bookUsed orderId (by rw [found]; rfl)) unused

/-- What a match leaves of the book, with or without what it leaves of the taker. -/
theorem matchAndPlace (placed : Placed book stops used) {taker : BookOrder}
    (missing : book.getOrder taker.orderId = none)
    (notWaiting : taker.orderId ∉ stops.map BookOrder.orderId) (known : taker.orderId ∈ used) :
    (Placed (matchOrder book taker).book stops used ∧
        Shrinks book (matchOrder book taker).book) ∧
      ∀ left : BookOrder, left.orderId = taker.orderId →
        Placed ((matchOrder book taker).book.insertOrder left) stops used := by
  have shrinks := shrinks_matchOrder placed.wellFormed taker
  have matched := placed.shrink (wellFormed_matchOrder placed.wellFormed) shrinks
  refine ⟨⟨matched, shrinks⟩, fun left same => ?_⟩
  have gone : (matchOrder book taker).book.getOrder left.orderId = none := by
    rw [same]
    exact MatchingEngine.getOrder_matchOrder_of_none placed.wellFormed missing
  rw [← same] at notWaiting known
  exact matched.insertOrder gone notWaiting known

end Placed

namespace MatchingEngine

variable {engine : MatchingEngine} {used : List OrderId}

/-- The invariant of an engine, whatever the quantities of its orders. -/
def AllPlaced (engine : MatchingEngine) (used : List OrderId) : Prop :=
  Placed engine.orderbook engine.stopOrders used

/-- An order that loses its place to an amendment of its owner. -/
def requeued (engine : MatchingEngine) : EngineInput → OrderId → Bool
  | .command (.amendOrder amend), orderId =>
      decide (orderId = amend.orderId) &&
        (engine.orderbook.getOrder orderId).any fun old =>
          decide (old.userId = amend.userId) && losesPriority old amend
  | _, _ => false

/-- Queues since a step: those who stood there and stay, then those who joined. -/
def InTurn (engine : MatchingEngine) (input : EngineInput) (after : OrderBook) : Prop :=
  ∀ side price, ∃ entered,
    after.queue side price =
      ((engine.orderbook.queue side price).filter fun orderId =>
        (after.getOrder orderId).isSome && !engine.requeued input orderId) ++ entered ∧
    ∀ orderId ∈ entered,
      engine.orderbook.getOrder orderId = none ∨ engine.requeued input orderId = true

private theorem inTurn_of_keepsOrder {input : EngineInput} {after : OrderBook}
    (keeps : KeepsOrder engine.orderbook after)
    (nobody : ∀ orderId, engine.requeued input orderId = false) : engine.InTurn input after := by
  intro side price
  obtain ⟨entered, queued, fresh⟩ := keeps side price
  exact ⟨entered, by simpa [nobody] using queued, fun orderId member =>
    Or.inl (fresh orderId member)⟩

/-! ## Steps -/

section Steps

variable {timestamp : UnixMicros}

private theorem matchNewOrder_inTurn (placed : engine.AllPlaced used) {order : BookOrder}
    (missing : engine.orderbook.getOrder order.orderId = none)
    (notWaiting : order.orderId ∉ engine.stopOrders.map BookOrder.orderId)
    (known : order.orderId ∈ used) :
    (engine.matchNewOrder order timestamp).1.AllPlaced used ∧
      KeepsOrder engine.orderbook (engine.matchNewOrder order timestamp).1.orderbook := by
  have levels := Placed.wellFormed placed |>.toLevels
  rcases engine.matchNewOrder_cases order timestamp with ⟨-, same⟩ | ⟨-, same⟩ <;> rw [same]
  · exact ⟨placed, KeepsOrder.of_shrinks (Shrinks.refl levels)⟩
  · obtain ⟨⟨matched, shrinks⟩, insert⟩ := Placed.matchAndPlace placed missing notWaiting known
    have takerId : (refillIceberg timestamp
        (matchOrder engine.orderbook order).taker).orderId = order.orderId := by
      rw [refillIceberg_orderId, matchOrder_taker_orderId (Placed.wellFormed placed)]
    dsimp only
    rcases placeRemaining_cases _ _ _ with
      ⟨-, done⟩ | ⟨-, -, done⟩ | ⟨-, -, -, -, done⟩ <;> rw [done]
    · exact ⟨matched, KeepsOrder.of_shrinks shrinks⟩
    · exact ⟨matched, KeepsOrder.of_shrinks shrinks⟩
    · exact ⟨insert _ takerId, (KeepsOrder.of_shrinks shrinks).insertOrder levels
        (takerId.symm ▸ missing)⟩

private theorem handleNewOrder_inTurn (placed : engine.AllPlaced used) {order : NewOrder}
    (fresh : order.orderId ∉ used) :
    (engine.handleNewOrder order).1.AllPlaced (used ++ [order.orderId]) ∧
      KeepsOrder engine.orderbook (engine.handleNewOrder order).1.orderbook := by
  have grows : used ⊆ used ++ [order.orderId] := List.subset_append_left _ _
  have known : order.orderId ∈ used ++ [order.orderId] :=
    List.mem_append_right used (List.mem_singleton.2 rfl)
  have notWaiting : order.orderId ∉ engine.stopOrders.map BookOrder.orderId :=
    fun waits => fresh (Placed.stopsUsed placed _ waits)
  have still : KeepsOrder engine.orderbook engine.orderbook :=
    KeepsOrder.of_shrinks (Shrinks.refl (Placed.wellFormed placed).toLevels)
  have placedMore := Placed.mono placed grows
  rcases engine.handleNewOrder_cases order with
    ⟨reason, same⟩ | ⟨price, -, missing, -, -, ⟨-, same⟩ | ⟨-, same⟩⟩ <;> rw [same]
  · exact ⟨placedMore, still⟩
  · exact ⟨placedMore.addStop missing notWaiting known, still⟩
  · exact matchNewOrder_inTurn placedMore missing notWaiting known

/-- A cancel that is not refused only takes out. -/
theorem handleCancelOrder_inTurn (placed : engine.AllPlaced used) (orderId : OrderId)
    (userId : UserId) :
    (engine.handleCancelOrder orderId userId timestamp).1.AllPlaced used ∧
      ((∀ event ∈ (engine.handleCancelOrder orderId userId timestamp).2,
          event.isRejected = false) →
        KeepsOrder engine.orderbook
          (engine.handleCancelOrder orderId userId timestamp).1.orderbook) := by
  have wellFormed := Placed.wellFormed placed
  have still : KeepsOrder engine.orderbook engine.orderbook :=
    KeepsOrder.of_shrinks (Shrinks.refl wellFormed.toLevels)
  have removed := shrinks_removeOrder wellFormed.toLevels orderId
  have placedLeft := Placed.shrink placed (wellFormed.removeOrder orderId) removed
  rcases engine.handleCancelOrder_cases orderId userId timestamp with
    ⟨-, -, same⟩ | ⟨order, found, -, same⟩ | ⟨order, found, -, same⟩ |
      ⟨order, -, waiting, -, same⟩ | ⟨order, -, waiting, -, same⟩ <;> rw [same]
  · exact ⟨placed, fun _ => still⟩
  · exact ⟨placedLeft, fun _ => KeepsOrder.of_shrinks removed⟩
  · have keyed := wellFormed.toLevels.keyed found
    refine ⟨placedLeft.insertOrder ?_ ?_ ?_, fun accepted => ?_⟩
    · rw [keyed, OrderBook.getOrder_removeOrder, if_pos rfl]
    · intro waits
      have absent := Placed.apart placed _ waits
      rw [keyed, found] at absent
      cases absent
    · rw [keyed]
      exact Placed.bookUsed placed orderId (by rw [found]; rfl)
    · have refused := accepted _ List.mem_cons_self
      cases refused
  · exact ⟨Placed.sublist placed List.eraseP_sublist, fun _ => still⟩
  · have moved := (List.perm_append_singleton order
      (engine.stopOrders.eraseP fun stop => stop.orderId = orderId)).trans
      (find_cons_eraseP_perm waiting)
    exact ⟨Placed.perm placed moved, fun _ => still⟩

/-- A re-inserted order stands where an order of a new id would. -/
theorem reinsertAmended_inTurn (placed : engine.AllPlaced used) {old : BookOrder}
    {amend : AmendOrder} (found : engine.orderbook.getOrder amend.orderId = some old) :
    (engine.reinsertAmended old amend).1.AllPlaced used ∧
      KeepsOrder (engine.orderbook.removeOrder amend.orderId)
        (engine.reinsertAmended old amend).1.orderbook := by
  have wellFormed := Placed.wellFormed placed
  have removed := shrinks_removeOrder wellFormed.toLevels amend.orderId
  have placedLeft := Placed.shrink placed (wellFormed.removeOrder amend.orderId) removed
  have levels := placedLeft.wellFormed.toLevels
  have keyed : (amendedOrder old amend).orderId = amend.orderId := by
    change old.orderId = amend.orderId
    exact wellFormed.toLevels.keyed found
  have missing : (engine.orderbook.removeOrder amend.orderId).getOrder
      (amendedOrder old amend).orderId = none := by
    rw [keyed, OrderBook.getOrder_removeOrder, if_pos rfl]
  have notWaiting : (amendedOrder old amend).orderId ∉
      engine.stopOrders.map BookOrder.orderId := by
    intro waits
    have absent := Placed.apart placed _ waits
    rw [keyed, found] at absent
    cases absent
  have known : (amendedOrder old amend).orderId ∈ used := by
    rw [keyed]
    exact Placed.bookUsed placed amend.orderId (by rw [found]; rfl)
  obtain ⟨⟨matched, shrinks⟩, insert⟩ := placedLeft.matchAndPlace missing notWaiting known
  have takerId : (matchOrder (engine.orderbook.removeOrder amend.orderId)
      (amendedOrder old amend)).taker.orderId = (amendedOrder old amend).orderId :=
    matchOrder_taker_orderId placedLeft.wellFormed
  rcases engine.reinsertAmended_cases old amend with ⟨reason, -, same⟩ | ⟨-, -, same⟩ <;> rw [same]
  · exact ⟨placedLeft, KeepsOrder.of_shrinks (Shrinks.refl levels)⟩
  · dsimp only
    split
    · exact ⟨matched, KeepsOrder.of_shrinks shrinks⟩
    · exact ⟨insert _ takerId, (KeepsOrder.of_shrinks shrinks).insertOrder levels
        (takerId.symm ▸ missing)⟩

/-- Triggered orders join in the order in which they are matched. -/
theorem triggerAll_inTurn {book : OrderBook} {pending kept : List BookOrder}
    (levels : book.LevelsWellFormed) (keeps : KeepsOrder book engine.orderbook)
    (fresh : ∀ order ∈ pending, book.getOrder order.orderId = none)
    (placed : Placed engine.orderbook (pending ++ kept) used) :
    Placed (triggerAll timestamp engine pending).1.orderbook kept used ∧
      KeepsOrder book (triggerAll timestamp engine pending).1.orderbook := by
  induction pending generalizing engine with
  | nil => exact ⟨placed, keeps⟩
  | cons order rest inductionHypothesis =>
      have nodup := placed.nodup
      rw [List.cons_append, List.map_cons, List.nodup_cons] at nodup
      have others : Placed engine.orderbook (rest ++ kept) used :=
        placed.sublist (List.sublist_cons_self order (rest ++ kept))
      have here : order.orderId ∈ ((order :: rest) ++ kept).map BookOrder.orderId :=
        List.mem_map_of_mem List.mem_cons_self
      have sameId := (convertTriggered_frame order).1
      have missing := placed.apart _ here
      have known := placed.stopsUsed _ here
      rw [← sameId] at nodup missing known
      obtain ⟨⟨matched, shrinks⟩, insert⟩ := others.matchAndPlace missing nodup.1 known
      have takerId : (matchOrder engine.orderbook (convertTriggered order)).taker.orderId =
          (convertTriggered order).orderId := matchOrder_taker_orderId placed.wellFormed
      have freshHere := fresh order List.mem_cons_self
      rw [← sameId, ← takerId] at freshHere
      have freshLater : ∀ later ∈ rest, book.getOrder later.orderId = none :=
        fun later member => fresh later (List.mem_cons_of_mem order member)
      rw [triggerAll]
      rcases engine.triggerOne_cases order timestamp with
        ⟨-, same⟩ | ⟨-, -, same⟩ | ⟨-, -, -, same⟩ <;> rw [same]
      · exact inductionHypothesis keeps freshLater others
      · exact inductionHypothesis (keeps.shrink shrinks) freshLater matched
      · exact inductionHypothesis ((keeps.shrink shrinks).insertOrder levels freshHere) freshLater
          (insert _ takerId)

private theorem shrinks_expireEntries {book : OrderBook} {now : UnixMicros}
    {entries : List (UnixMicros × OrderId)} (wellFormed : book.WellFormed) :
    (expireEntries now book entries).1.WellFormed ∧
      Shrinks book (expireEntries now book entries).1 := by
  apply expireEntries_keeps
    (motive := fun reached => reached.WellFormed ∧ Shrinks book reached)
  · intro reached orderId kept
    exact ⟨kept.1.removeOrder orderId,
      kept.2.trans (shrinks_removeOrder kept.1.toLevels orderId)⟩
  · exact ⟨wellFormed, Shrinks.refl wellFormed.toLevels⟩

private theorem requeued_of_command {input : EngineInput}
    (other : ∀ amend, input ≠ .command (.amendOrder amend)) (orderId : OrderId) :
    engine.requeued input orderId = false := by
  cases input with
  | expirySweep now => rfl
  | command issued =>
      cases issued with
      | amendOrder amend => exact absurd rfl (other amend)
      | _ => rfl

private theorem handleAmendOrder_inTurn (placed : engine.AllPlaced used) (amend : AmendOrder) :
    (engine.handleAmendOrder amend).1.AllPlaced used ∧
      engine.InTurn (.command (.amendOrder amend)) (engine.handleAmendOrder amend).1.orderbook := by
  have wellFormed := Placed.wellFormed placed
  -- an amendment that does not take the order out leaves nobody requeued
  have inPlace : ∀ {after : OrderBook}, Shrinks engine.orderbook after →
      (∀ existing, engine.orderbook.getOrder amend.orderId = some existing →
        existing.userId = amend.userId → losesPriority existing amend = false) →
      engine.InTurn (.command (.amendOrder amend)) after := by
    intro after shrinks keeps
    refine inTurn_of_keepsOrder (KeepsOrder.of_shrinks shrinks) fun orderId => ?_
    rw [requeued]
    by_cases own : orderId = amend.orderId
    · subst own
      cases found : engine.orderbook.getOrder amend.orderId with
      | none => simp
      | some existing => simpa using keeps existing found
    · simp [own]
  rcases engine.handleAmendOrder_cases amend with
    ⟨reason, keeps, same⟩ | ⟨existing, found, owner, ⟨loses, same⟩ | ⟨keeps, same⟩ |
      ⟨keeps, quantity, -, positive, -, same⟩⟩ <;> rw [same]
  · exact ⟨placed, inPlace (Shrinks.refl wellFormed.toLevels) keeps⟩
  · obtain ⟨placedAfter, since⟩ := reinsertAmended_inTurn placed found
    refine ⟨placedAfter, fun side price => ?_⟩
    obtain ⟨entered, queued, fresh⟩ := since side price
    have requeuedIff : ∀ orderId,
        engine.requeued (.command (.amendOrder amend)) orderId =
          decide (orderId = amend.orderId) := by
      intro orderId
      rw [requeued]
      by_cases own : orderId = amend.orderId
      · subst own
        simp [found, owner, loses]
      · simp [own]
    refine ⟨entered, ?_, fun orderId member => ?_⟩
    · rw [queued, wellFormed.toLevels.queue_removeOrder, List.filter_filter]
      simp only [requeuedIff, decide_not]
    · have absent := fresh orderId member
      rw [OrderBook.getOrder_removeOrder] at absent
      rw [requeuedIff]
      split at absent
      · rename_i own
        exact Or.inr (decide_eq_true own.symm)
      · exact Or.inl absent
  · refine ⟨placed, inPlace (Shrinks.refl wellFormed.toLevels) fun other stored _ => ?_⟩
    cases found.symm.trans stored
    exact keeps
  · have updated := shrinks_updateQty wellFormed.toLevels amend.orderId quantity
    refine ⟨Placed.shrink placed (wellFormed.updateQty amend.orderId quantity) updated,
      inPlace updated fun other stored _ => ?_⟩
    cases found.symm.trans stored
    exact keeps

private theorem handleCancelAll_inTurn (placed : engine.AllPlaced used) (userId : UserId)
    (symbol : SymbolId) :
    (engine.handleCancelAll userId symbol timestamp).1.AllPlaced used ∧
      KeepsOrder engine.orderbook (engine.handleCancelAll userId symbol timestamp).1.orderbook := by
  have wellFormed := Placed.wellFormed placed
  have shrinks := shrinks_cancelAllUserOrders wellFormed.toLevels userId
  have canceled := Placed.shrink placed (wellFormed.cancelAllUserOrders userId) shrinks
  have kept := swapScan_snd_perm (fun stop : BookOrder =>
    decide (stop.userId = userId) && decide (stop.symbol = symbol)) engine.stopOrders
  exact ⟨(canceled.sublist List.filter_sublist).perm kept, KeepsOrder.of_shrinks shrinks⟩

private theorem updateMarkPrice_inTurn (placed : engine.AllPlaced used) (symbol : SymbolId)
    (mark index : Decimal128) :
    (engine.updateMarkPrice symbol mark index timestamp).1.AllPlaced used ∧
      KeepsOrder engine.orderbook
        (engine.updateMarkPrice symbol mark index timestamp).1.orderbook := by
  let live := engine.applyMarkIndexPassive mark index
  let scanned := swapScan (shouldTrigger mark) live.stopOrders
  let waiting : MatchingEngine := { live with stopOrders := scanned.2 }
  have levels := (Placed.wellFormed placed).toLevels
  have ids : live.stopOrders.map BookOrder.orderId = engine.stopOrders.map BookOrder.orderId := by
    change (engine.stopOrders.map (updateTrailingPeak mark)).map BookOrder.orderId = _
    rw [List.map_map]
    exact List.map_congr_left fun stop _ => updateTrailingPeak_orderId mark stop
  have placedLive : Placed waiting.orderbook live.stopOrders used := by
    refine Placed.ofStops placed ?_ ?_
    · rw [ids]
      exact Placed.nodup placed
    · rw [ids]
      exact List.Subset.refl _
  have parts : (scanned.1 ++ scanned.2).Perm live.stopOrders := swapScan_perm _ _
  have placedParts := placedLive.perm parts
  have triggered : ∀ order ∈ scanned.1, engine.orderbook.getOrder order.orderId = none := by
    intro order member
    exact placedParts.apart _ (List.mem_map_of_mem (List.mem_append_left _ member))
  have ran : Placed (triggerAll timestamp waiting scanned.1).1.orderbook scanned.2 used ∧
      KeepsOrder engine.orderbook (triggerAll timestamp waiting scanned.1).1.orderbook :=
    triggerAll_inTurn levels (KeepsOrder.of_shrinks (Shrinks.refl levels)) triggered placedParts
  obtain ⟨placedAfter, keeps⟩ := ran
  refine ⟨?_, keeps⟩
  rw [AllPlaced, updateMarkPrice, triggerAndMatchStops, triggerAll_stopOrders]
  exact placedAfter

/-- One step keeps the invariant, and queues in turn unless it refuses something. -/
theorem step_inTurn (placed : engine.AllPlaced used) {input : EngineInput}
    (fresh : ∀ orderId, input.newOrderId? = some orderId → orderId ∉ used) :
    (engine.step input).1.AllPlaced (used ++ input.newOrderId?.toList) ∧
      ((∀ event ∈ (engine.step input).2, event.isRejected = false) →
        engine.InTurn input (engine.step input).1.orderbook) := by
  have grows : used ⊆ used ++ input.newOrderId?.toList := List.subset_append_left _ _
  have wellFormed := Placed.wellFormed placed
  have still : KeepsOrder engine.orderbook engine.orderbook :=
    KeepsOrder.of_shrinks (Shrinks.refl wellFormed.toLevels)
  cases input with
  | expirySweep now =>
      have expired : (expireEntries now engine.orderbook engine.expiryHeap).1.WellFormed ∧ _ :=
        shrinks_expireEntries wellFormed
      obtain ⟨after, shrinks⟩ := expired
      exact ⟨(Placed.shrink placed after shrinks).mono grows, fun _ =>
        inTurn_of_keepsOrder (KeepsOrder.of_shrinks shrinks) (requeued_of_command (by simp))⟩
  | command issued =>
      let counted : MatchingEngine := { engine with sequence := engine.sequence + 1 }
      have placedCounted : counted.AllPlaced used := placed
      cases issued with
      | newOrder order =>
          obtain ⟨after, keeps⟩ := handleNewOrder_inTurn placedCounted (fresh order.orderId rfl)
          exact ⟨after, fun _ => inTurn_of_keepsOrder keeps (requeued_of_command (by simp))⟩
      | cancelOrder orderId userId symbol timestamp =>
          obtain ⟨after, keeps⟩ := handleCancelOrder_inTurn placedCounted orderId userId
          exact ⟨Placed.mono after grows, fun accepted =>
            inTurn_of_keepsOrder (keeps accepted) (requeued_of_command (by simp))⟩
      | amendOrder amend =>
          obtain ⟨after, inTurn⟩ := handleAmendOrder_inTurn placedCounted amend
          exact ⟨Placed.mono after grows, fun _ => inTurn⟩
      | cancelAllOrders userId symbol timestamp =>
          obtain ⟨after, keeps⟩ := handleCancelAll_inTurn placedCounted userId symbol
          exact ⟨Placed.mono after grows, fun _ =>
            inTurn_of_keepsOrder keeps (requeued_of_command (by simp))⟩
      | updateMarkPrice symbol mark index timestamp =>
          obtain ⟨after, keeps⟩ := updateMarkPrice_inTurn placedCounted symbol mark index
          exact ⟨Placed.mono after grows, fun _ =>
            inTurn_of_keepsOrder keeps (requeued_of_command (by simp))⟩
      | computeFunding symbol timestamp =>
          exact ⟨Placed.mono placed grows, fun _ =>
            inTurn_of_keepsOrder still (requeued_of_command (by simp))⟩
      | adminCredit userId amount key timestamp =>
          exact ⟨Placed.mono placed grows, fun _ =>
            inTurn_of_keepsOrder still (requeued_of_command (by simp))⟩

end Steps

/-! ## Runs -/

theorem placed_run (config : SymbolConfig) (ids : Nat → TradeId) (interestRate : Decimal128)
    {inputs : List EngineInput} (distinct : (newOrderIds inputs).Nodup) :
    (run step (new config ids interestRate) inputs).1.AllPlaced (newOrderIds inputs) := by
  refine run_induction (motive := fun before engine _ => engine.AllPlaced (newOrderIds before))
    step (new config ids interestRate) inputs ?_ ?_
  · exact ⟨OrderBook.wellFormed_new config.symbol, by simp [new], List.nodup_nil, by simp [new],
      by simp [new]⟩
  · intro before input isPrefix placed
    rw [newOrderIds_concat]
    exact (step_inTurn placed (fresh_of_nodup distinct isPrefix)).1

/-- Time priority: in every step of a run that refuses nothing, those who stay in a queue
keep their places, and behind them stand those who joined in the step. -/
theorem queues_keep_time_priority (config : SymbolConfig) (ids : Nat → TradeId)
    (interestRate : Decimal128) (inputs : List EngineInput) (distinct : (newOrderIds inputs).Nodup)
    (before : List EngineInput) (input : EngineInput) (isPrefix : before ++ [input] <+: inputs) :
    let engine := (run step (new config ids interestRate) before).1
    let after := (engine.step input).1.orderbook
    (∀ event ∈ (engine.step input).2, event.isRejected = false) →
    ∀ side price, ∃ entered,
      after.queue side price =
        ((engine.orderbook.queue side price).filter fun orderId =>
          (after.getOrder orderId).isSome && !engine.requeued input orderId) ++ entered ∧
      ∀ orderId ∈ entered,
        (engine.orderbook.getOrder orderId = none ∨ engine.requeued input orderId = true) ∧
        ∃ order, after.getOrder orderId = some order ∧ order.side = side ∧ order.price = price := by
  intro engine after accepted side price
  have earlier : before <+: inputs := (List.prefix_append before [input]).trans isPrefix
  have fewer : (newOrderIds before).Nodup :=
    distinct.sublist (earlier.sublist.filterMap EngineInput.newOrderId?)
  have placed : engine.AllPlaced (newOrderIds before) := placed_run config ids interestRate fewer
  obtain ⟨placedAfter, inTurn⟩ := step_inTurn placed (fresh_of_nodup distinct isPrefix)
  obtain ⟨entered, queued, joined⟩ := inTurn accepted side price
  refine ⟨entered, queued, fun orderId member => ⟨joined orderId member, ?_⟩⟩
  have standing : orderId ∈ after.queue side price := by
    rw [queued]
    exact List.mem_append_right _ member
  exact (Placed.wellFormed placedAfter).toLevels.stored standing

/-- Three bids at one price, of which the second is raised while the first is part filled. -/
def raisedBid : List EngineInput :=
  [.command (.newOrder (gatewayOrder 1 7 .buy 100 5)),
    .command (.newOrder (gatewayOrder 2 8 .buy 100 3)),
    .command (.newOrder (gatewayOrder 3 9 .buy 100 4)),
    .command (.newOrder (gatewayOrder 4 6 .sell 100 2)),
    .command (.amendOrder ⟨2, 8, 1, none, some (.ofInt 6), 1⟩)]

theorem queues_keep_time_priority_raisedBid :
    let engine := (run step (new plainConfig id 0) (raisedBid.take 4)).1
    let after := (engine.step (.command (.amendOrder ⟨2, 8, 1, none, some (.ofInt 6), 1⟩))).1
    after.orderbook.queue .buy (.ofInt 100) = [1, 3, 2] ∧
      ∃ entered, after.orderbook.queue .buy (.ofInt 100) =
        ((engine.orderbook.queue .buy (.ofInt 100)).filter fun orderId =>
          (after.orderbook.getOrder orderId).isSome &&
            !engine.requeued (.command (.amendOrder ⟨2, 8, 1, none, some (.ofInt 6), 1⟩))
              orderId) ++ entered := by
  intro engine after
  refine ⟨by decide +kernel, ?_⟩
  obtain ⟨entered, queued, -⟩ := queues_keep_time_priority plainConfig id 0 raisedBid (by decide)
    (raisedBid.take 4) (.command (.amendOrder ⟨2, 8, 1, none, some (.ofInt 6), 1⟩))
    (List.prefix_refl _) (by decide +kernel) .buy (.ofInt 100)
  exact ⟨entered, queued⟩

end MatchingEngine
end Exg
