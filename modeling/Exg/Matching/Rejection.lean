import Exg.Matching.Inversion
import Exg.Support.Machine

/-!
# Which rejections leave the state as it was

A cancel of another user's order takes the order out and puts it back at the end of its
queue; an amendment that moves the price or raises the quantity removes the order before
it is checked.  Every other rejection changes nothing.  Runs are arbitrary here, also
with repeated ids, so the only invariant used is that orders are stored under their own
ids.
-/

namespace Exg

open Support

/-! ## The book changes only through its operations -/

/-- A property of books that every operation of the book keeps. -/
structure BookClosed (property : OrderBook → Prop) : Prop where
  insertOrder : ∀ {book} (order : BookOrder), property book → property (book.insertOrder order)
  removeOrder : ∀ {book} (orderId : OrderId), property book → property (book.removeOrder orderId)
  updateQty : ∀ {book} (orderId : OrderId) (quantity : Decimal128),
    property book → property (book.updateQty orderId quantity)
  cancelAllUserOrders : ∀ {book} (userId : UserId),
    property book → property (book.cancelAllUserOrders userId).1

namespace BookClosed

variable {property : OrderBook → Prop} (closed : BookClosed property)

include closed

theorem takeFrom {book : OrderBook} (makerId : OrderId) (left : Decimal128)
    (holds : property book) : property (book.takeFrom makerId left) := by
  rw [OrderBook.takeFrom]
  split
  · exact closed.removeOrder makerId holds
  · exact closed.updateQty makerId left holds

theorem matchOrder {book : OrderBook} {taker : BookOrder} (holds : property book) :
    property (matchOrder book taker).book :=
  matchOrder_keeps closed.takeFrom holds

variable {engine : MatchingEngine}

theorem matchNewOrder (holds : property engine.orderbook) (order : BookOrder)
    (timestamp : UnixMicros) : property (engine.matchNewOrder order timestamp).1.orderbook := by
  rcases engine.matchNewOrder_cases order timestamp with ⟨-, same⟩ | ⟨-, same⟩
  · rw [same]
    exact holds
  · rw [same]
    dsimp only
    rcases MatchingEngine.placeRemaining_cases _ _ _ with
      ⟨-, placed⟩ | ⟨-, -, placed⟩ | ⟨-, -, -, -, placed⟩ <;> rw [placed]
    · exact closed.matchOrder holds
    · exact closed.matchOrder holds
    · exact closed.insertOrder _ (closed.matchOrder holds)

theorem triggerAll {pending : List BookOrder} {timestamp : UnixMicros}
    (holds : property engine.orderbook) :
    property (MatchingEngine.triggerAll timestamp engine pending).1.orderbook := by
  induction pending generalizing engine with
  | nil => exact holds
  | cons order rest inductionHypothesis =>
      refine inductionHypothesis ?_
      rcases engine.triggerOne_cases order timestamp with
        ⟨-, same⟩ | ⟨-, -, same⟩ | ⟨-, -, -, same⟩ <;> rw [same]
      · exact holds
      · exact closed.matchOrder holds
      · exact closed.insertOrder _ (closed.matchOrder holds)

theorem expireEntries {book : OrderBook} {now : UnixMicros}
    {entries : List (UnixMicros × OrderId)} (holds : property book) :
    property (MatchingEngine.expireEntries now book entries).1 :=
  MatchingEngine.expireEntries_keeps (motive := property) closed.removeOrder holds

/-- A step of the engine keeps what the operations of the book keep. -/
theorem step (holds : property engine.orderbook) (input : MatchingEngine.EngineInput) :
    property (engine.step input).1.orderbook := by
  cases input with
  | expirySweep now => exact closed.expireEntries holds
  | command issued =>
      have counted : property { engine with sequence := engine.sequence + 1 }.orderbook := holds
      cases issued with
      | newOrder order =>
          simp only [MatchingEngine.step, MatchingEngine.processCommand]
          rcases MatchingEngine.handleNewOrder_cases _ order with
            ⟨reason, same⟩ | ⟨price, -, -, -, -, ⟨-, same⟩ | ⟨-, same⟩⟩ <;> rw [same]
          · exact counted
          · exact counted
          · exact closed.matchNewOrder counted _ _
      | cancelOrder orderId userId symbol timestamp =>
          simp only [MatchingEngine.step, MatchingEngine.processCommand]
          rcases MatchingEngine.handleCancelOrder_cases _ orderId userId timestamp with
            ⟨-, -, same⟩ | ⟨order, -, -, same⟩ | ⟨order, -, -, same⟩ | ⟨order, -, -, -, same⟩ |
              ⟨order, -, -, -, same⟩ <;> rw [same]
          · exact counted
          · exact closed.removeOrder orderId counted
          · exact closed.insertOrder order (closed.removeOrder orderId counted)
          · exact counted
          · exact counted
      | amendOrder amend =>
          simp only [MatchingEngine.step, MatchingEngine.processCommand]
          rcases MatchingEngine.handleAmendOrder_cases _ amend with
            ⟨reason, -, same⟩ |
              ⟨existing, -, -, ⟨-, same⟩ | ⟨-, same⟩ | ⟨-, quantity, -, -, -, same⟩⟩ <;> rw [same]
          · exact counted
          · rcases MatchingEngine.reinsertAmended_cases _ existing amend with
              ⟨reason, -, outcome⟩ | ⟨-, -, outcome⟩ <;> rw [outcome]
            · exact closed.removeOrder amend.orderId counted
            · dsimp only
              split
              · exact closed.matchOrder (closed.removeOrder amend.orderId counted)
              · exact closed.insertOrder _
                  (closed.matchOrder (closed.removeOrder amend.orderId counted))
          · exact counted
          · exact closed.updateQty amend.orderId quantity counted
      | cancelAllOrders userId symbol timestamp =>
          exact closed.cancelAllUserOrders userId counted
      | updateMarkPrice symbol mark index timestamp =>
          exact closed.triggerAll counted
      | computeFunding symbol timestamp => exact counted
      | adminCredit userId amount key timestamp => exact counted

end BookClosed

/-- Orders are stored under their own ids. -/
def Keyed (book : OrderBook) : Prop :=
  ∀ orderId order, book.getOrder orderId = some order → order.orderId = orderId

private theorem keyed_closed : BookClosed Keyed where
  insertOrder := by
    intro book order keyed orderId stored found
    rw [OrderBook.getOrder_insertOrder] at found
    split at found
    · cases found
      assumption
    · exact keyed orderId stored found
  removeOrder := by
    intro book removed keyed orderId stored found
    rw [OrderBook.getOrder_removeOrder] at found
    split at found
    · cases found
    · exact keyed orderId stored found
  updateQty := by
    intro book updated quantity keyed orderId stored found
    obtain ⟨before, _, beforeFound, rfl⟩ := OrderBook.getOrder_updateQty_inv found
    have same := keyed orderId before beforeFound
    exact same
  cancelAllUserOrders := by
    intro book userId keyed orderId stored found
    rw [OrderBook.cancelAllUserOrders] at found
    split at found
    · exact keyed orderId stored found
    · rw [OrderBook.getOrder_cancelOrders] at found
      split at found
      · cases found
      · exact keyed orderId stored found

namespace MatchingEngine

/-- The states a fresh engine can reach, whatever it is given. -/
def Reachable (engine : MatchingEngine) : Prop :=
  ∃ config ids interestRate inputs, engine = (run step (new config ids interestRate) inputs).1

theorem Reachable.keyed {engine : MatchingEngine} (reachable : engine.Reachable) :
    Keyed engine.orderbook := by
  obtain ⟨config, ids, interestRate, inputs, rfl⟩ := reachable
  refine run_induction (motive := fun _ engine _ => Keyed engine.orderbook) step
    (new config ids interestRate) inputs ?_ ?_
  · simp [Keyed, new]
  · intro before input _ keyed
    exact keyed_closed.step keyed input

/-! ## Rejections -/

/-- The same orders in the same queues, the same stops and the same prices. -/
structure SameState (before after : MatchingEngine) : Prop where
  orders : ∀ orderId, after.orderbook.getOrder orderId = before.orderbook.getOrder orderId
  queues : ∀ side price, after.orderbook.queue side price = before.orderbook.queue side price
  stops : after.stopOrders = before.stopOrders
  markPrice : after.markPrice = before.markPrice
  indexPrice : after.indexPrice = before.indexPrice

theorem SameState.refl (engine : MatchingEngine) : SameState engine engine :=
  ⟨fun _ => rfl, fun _ _ => rfl, rfl, rfl, rfl⟩

/-- An order stands at the end of its queue, once. -/
def LastInQueue (book : OrderBook) (orderId : OrderId) (order : BookOrder) : Prop :=
  ∃ ahead, book.queue order.side order.price = ahead ++ [orderId] ∧ orderId ∉ ahead

/-- The waiting order stands at the end of the list; with repeated ids, only copies of it
may follow the first one. -/
def LastWaiting (stops : List BookOrder) (order : BookOrder) : Prop :=
  ∀ stop ∈ stops.dropWhile fun stop => stop.orderId ≠ order.orderId, stop = order

/-- The commands whose rejection leaves the state alone. -/
def RejectSafe (engine : MatchingEngine) : Command → Prop
  | .cancelOrder orderId _ _ _ =>
      match engine.orderbook.getOrder orderId with
      | some order => LastInQueue engine.orderbook orderId order
      | none => ∀ order, (engine.stopOrders.find? fun stop => stop.orderId = orderId) = some order →
          LastWaiting engine.stopOrders order
  | .amendOrder amend =>
      ∀ existing, engine.orderbook.getOrder amend.orderId = some existing →
        existing.userId = amend.userId → losesPriority existing amend = false
  | _ => True

private theorem filter_append_eq_iff {orderId : OrderId} {queue : List OrderId} :
    queue.filter (· ≠ orderId) ++ [orderId] = queue ↔
      ∃ ahead, queue = ahead ++ [orderId] ∧ orderId ∉ ahead := by
  constructor
  · intro same
    exact ⟨_, same.symm, by simp⟩
  · rintro ⟨ahead, rfl, absent⟩
    have kept : ahead.filter (· ≠ orderId) = ahead := by
      refine List.filter_eq_self.2 fun other member => decide_eq_true ?_
      intro same
      exact absent (same ▸ member)
    rw [List.filter_append, kept]
    simp

/-- Moving the head of a list to its end leaves it alone when the rest are copies. -/
theorem rotate_eq_iff {α : Type*} {item : α} {behind : List α} :
    behind ++ [item] = item :: behind ↔ ∀ other ∈ behind, other = item := by
  induction behind with
  | nil => simp
  | cons head tail inductionHypothesis =>
      rw [List.cons_append, List.cons.injEq, List.forall_mem_cons]
      constructor
      · rintro ⟨rfl, rest⟩
        exact ⟨rfl, inductionHypothesis.1 rest⟩
      · rintro ⟨rfl, copies⟩
        exact ⟨rfl, inductionHypothesis.2 copies⟩

private theorem moved_stop_iff {stops : List BookOrder} {orderId : OrderId} {order : BookOrder}
    (found : (stops.find? fun stop => stop.orderId = orderId) = some order) :
    (stops.eraseP fun stop => stop.orderId = orderId) ++ [order] = stops ↔
      LastWaiting stops order := by
  obtain ⟨isOrder, ahead, behind, rfl, earlier⟩ := List.find?_eq_some_iff_append.1 found
  have keyed : order.orderId = orderId := by simpa using isOrder
  have earlierIds : ∀ stop ∈ ahead, stop.orderId ≠ orderId := by
    intro stop member
    simpa using earlier stop member
  have erased : ((ahead ++ order :: behind).eraseP fun stop => stop.orderId = orderId) =
      ahead ++ behind := by
    rw [List.eraseP_append_right _ (by simpa using earlierIds)]
    simp [keyed]
  have fromHere : ((ahead ++ order :: behind).dropWhile fun stop => stop.orderId ≠ order.orderId) =
      order :: behind := by
    rw [List.dropWhile_append_of_pos (by simpa [keyed] using earlierIds)]
    simp
  rw [erased, List.append_assoc, List.append_cancel_left_eq, rotate_eq_iff, LastWaiting, fromHere,
    List.forall_mem_cons]
  simp

variable {engine : MatchingEngine}

private theorem sameState_cancel_iff (keyed : Keyed engine.orderbook) {orderId : OrderId}
    {userId : UserId} (symbol : SymbolId) {timestamp : UnixMicros}
    (rejected : ∃ event ∈ (engine.handleCancelOrder orderId userId timestamp).2,
      event.isRejected = true) :
    SameState engine (engine.handleCancelOrder orderId userId timestamp).1 ↔
      RejectSafe engine (.cancelOrder orderId userId symbol timestamp) := by
  rcases engine.handleCancelOrder_cases orderId userId timestamp with
    ⟨missing, notWaiting, same⟩ | ⟨order, -, -, same⟩ | ⟨order, found, -, same⟩ |
      ⟨order, -, -, -, same⟩ | ⟨order, missing, waiting, -, same⟩ <;> rw [same] at rejected ⊢
  · simp only [RejectSafe, missing, notWaiting]
    simpa using SameState.refl engine
  · simp [Event.isRejected] at rejected
  · -- the order goes to the end of its own queue, and nothing else moves
    have ownId := keyed orderId order found
    have queues := OrderBook.queue_putBack ownId found
    simp only [RejectSafe, found, LastInQueue]
    rw [← filter_append_eq_iff]
    constructor
    · intro unchanged
      have own := unchanged.queues order.side order.price
      simpa [queues] using own
    · intro last
      refine ⟨OrderBook.getOrder_putBack ownId found, fun side price => ?_, rfl,
        rfl, rfl⟩
      change ((engine.orderbook.removeOrder orderId).insertOrder order).queue side price = _
      rw [queues]
      split
      · rename_i here
        rw [← here.1, ← here.2]
        exact last
      · rfl
  · simp [Event.isRejected] at rejected
  · simp only [RejectSafe, missing, waiting, Option.some.injEq, forall_eq']
    rw [← moved_stop_iff waiting]
    constructor
    · exact fun unchanged => unchanged.stops
    · exact fun moved => ⟨fun _ => rfl, fun _ _ => rfl, moved, rfl, rfl⟩

private theorem sameState_amend_iff {amend : AmendOrder}
    (rejected : ∃ event ∈ (engine.handleAmendOrder amend).2, event.isRejected = true) :
    SameState engine (engine.handleAmendOrder amend).1 ↔ RejectSafe engine (.amendOrder amend) := by
  rcases engine.handleAmendOrder_cases amend with
    ⟨reason, safe, same⟩ |
      ⟨existing, found, owner, ⟨loses, same⟩ | ⟨-, same⟩ | ⟨-, quantity, -, -, -, same⟩⟩ <;>
    rw [same] at rejected ⊢
  · exact iff_of_true (SameState.refl engine) safe
  · rcases engine.reinsertAmended_cases existing amend with
      ⟨reason, -, outcome⟩ | ⟨-, -, outcome⟩
    · rw [outcome]
      refine iff_of_false (fun unchanged => ?_) fun safe => ?_
      · have own := unchanged.orders amend.orderId
        change (engine.orderbook.removeOrder amend.orderId).getOrder amend.orderId = _ at own
        rw [OrderBook.getOrder_removeOrder, if_pos rfl, found] at own
        cases own
      · have keeps := safe existing found owner
        rw [loses] at keeps
        cases keeps
    · rw [outcome] at rejected
      obtain ⟨event, emitted, isRejected⟩ := rejected
      simp only [List.mem_cons] at emitted
      rcases emitted with rfl | rfl | filled
      · cases isRejected
      · cases isRejected
      · rw [engine.absorb_not_rejected filled] at isRejected
        cases isRejected
  · simp [Event.isRejected] at rejected
  · simp [Event.isRejected] at rejected

private theorem sameState_newOrder {order : NewOrder}
    (rejected : ∃ event ∈ (engine.handleNewOrder order).2, event.isRejected = true) :
    SameState engine (engine.handleNewOrder order).1 := by
  rcases engine.handleNewOrder_cases order with
    ⟨reason, same⟩ | ⟨price, -, -, -, -, ⟨-, same⟩ | ⟨-, same⟩⟩ <;> rw [same] at rejected ⊢
  · exact SameState.refl engine
  · simp [Event.isRejected] at rejected
  · rcases engine.matchNewOrder_cases (newBookOrder engine.markPrice order price) order.timestamp
      with ⟨-, outcome⟩ | ⟨-, outcome⟩ <;> rw [outcome] at rejected ⊢
    · exact SameState.refl engine
    · obtain ⟨event, emitted, isRejected⟩ := rejected
      simp only [List.mem_append, List.mem_cons] at emitted
      rcases emitted with (rfl | filled) | placed
      · cases isRejected
      · rw [engine.absorb_not_rejected filled] at isRejected
        cases isRejected
      · rcases placeRemaining_cases _ _ _ with ⟨-, left⟩ | ⟨-, -, left⟩ | ⟨-, -, -, -, left⟩ <;>
          rw [left] at placed
        · cases placed
        · rw [List.mem_singleton.1 placed] at isRejected
          cases isRejected
        · cases placed

private theorem triggerAll_not_rejected {pending : List BookOrder} {timestamp : UnixMicros}
    {event : Event}
    (emitted : event ∈ (triggerAll timestamp engine pending).2) : event.isRejected = false := by
  obtain ⟨reached, order, -, triggered⟩ := engine.mem_triggerAll emitted
  exact reached.absorb_not_rejected (reached.mem_triggerOne triggered)

/-- The command counter is not part of the state compared. -/
theorem sameState_counted {after : MatchingEngine} :
    SameState { engine with sequence := engine.sequence + 1 } after ↔ SameState engine after := by
  constructor <;>
    exact fun same => ⟨same.orders, same.queues, same.stops, same.markPrice, same.indexPrice⟩

/-- A rejection leaves the state of a reachable engine alone exactly when the command is
one of the safe ones. -/
theorem rejection_unchanged_iff {engine : MatchingEngine} (reachable : engine.Reachable)
    (command : Command)
    (rejected : ∃ event ∈ (engine.processCommand command).2, event.isRejected = true) :
    SameState engine (engine.processCommand command).1 ↔ RejectSafe engine command := by
  have keyed : Keyed { engine with sequence := engine.sequence + 1 }.orderbook := reachable.keyed
  rw [← sameState_counted]
  cases command with
  | newOrder order => exact iff_of_true (sameState_newOrder rejected) trivial
  | cancelOrder orderId userId symbol timestamp => exact sameState_cancel_iff keyed symbol rejected
  | amendOrder amend => exact sameState_amend_iff rejected
  | cancelAllOrders userId symbol timestamp =>
      obtain ⟨event, emitted, isRejected⟩ := rejected
      simp only [processCommand, handleCancelAll, List.mem_append, List.mem_map] at emitted
      rcases emitted with ⟨order, -, rfl⟩ | ⟨order, -, rfl⟩ <;> cases isRejected
  | updateMarkPrice symbol mark index timestamp =>
      obtain ⟨event, emitted, isRejected⟩ := rejected
      simp only [processCommand, updateMarkPrice, triggerAndMatchStops, List.mem_cons] at emitted
      rcases emitted with rfl | triggered
      · cases isRejected
      · rw [triggerAll_not_rejected triggered] at isRejected
        cases isRejected
  | computeFunding symbol timestamp =>
      simp [processCommand, computeFunding, Event.isRejected] at rejected
  | adminCredit userId amount key timestamp =>
      simp [processCommand] at rejected

/-- Two bids at one price. -/
def twoBids : MatchingEngine :=
  (run step (new plainConfig id 0)
    [.command (.newOrder (gatewayOrder 1 7 .buy 100 5)),
      .command (.newOrder (gatewayOrder 2 8 .buy 100 3))]).1

private theorem twoBids_reachable : twoBids.Reachable := ⟨plainConfig, id, 0, _, rfl⟩

/-- The second bid is the last of its queue, so a foreign cancel of it changes nothing. -/
theorem rejection_unchanged_iff_lastBid :
    (∃ event ∈ (twoBids.processCommand (.cancelOrder 2 9 1 0)).2, event.isRejected = true) ∧
      SameState twoBids (twoBids.processCommand (.cancelOrder 2 9 1 0)).1 := by
  have rejected : ∃ event ∈ (twoBids.processCommand (.cancelOrder 2 9 1 0)).2,
      event.isRejected = true := by decide +kernel
  refine ⟨rejected, (rejection_unchanged_iff twoBids_reachable _ rejected).2 ?_⟩
  have stored : (twoBids.orderbook.getOrder 2).map (fun order => (order.side, order.price)) =
      some (.buy, .ofInt 100) := by decide +kernel
  obtain ⟨order, found, place⟩ := Option.map_eq_some_iff.1 stored
  simp only [RejectSafe, found]
  refine ⟨[1], ?_, by decide⟩
  obtain ⟨atSide, atPrice⟩ := Prod.mk.inj place
  rw [atSide, atPrice]
  decide +kernel

/-- A foreign cancel of the first bid sends it behind the second one. -/
theorem rejection_loses_priority :
    ¬∀ engine : MatchingEngine, engine.Reachable → ∀ command,
      (∃ event ∈ (engine.processCommand command).2, event.isRejected = true) →
        SameState engine (engine.processCommand command).1 := by
  intro unchanged
  have rejected : ∃ event ∈ (twoBids.processCommand (.cancelOrder 1 9 1 0)).2,
      event.isRejected = true := by decide +kernel
  have queues := (unchanged twoBids twoBids_reachable _ rejected).queues .buy (.ofInt 100)
  have after : (twoBids.processCommand (.cancelOrder 1 9 1 0)).1.orderbook.queue .buy
      (.ofInt 100) = [2, 1] := by decide +kernel
  have before : twoBids.orderbook.queue .buy (.ofInt 100) = [1, 2] := by decide +kernel
  rw [after, before] at queues
  cases queues

end MatchingEngine
end Exg
