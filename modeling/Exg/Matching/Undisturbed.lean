import Exg.Matching.Accounting
import Exg.Matching.CancelAll
import Exg.Matching.Expiry
import Exg.Matching.OrderIds

/-!
# Resting orders are left alone

Once an order rests on the book, nothing but a fill that the log reports changes it, as long
as its owner neither cancels nor amends it and its expiry has not come: not the orders,
cancellations and amendments of others, not a mark price and not the stops that it triggers.
-/

namespace Exg

open Support

/-- What is on the book of an order of which no more than `filled` was taken. -/
def OnlyFilled (order : BookOrder) (filled : Decimal128) : Option BookOrder → Prop
  | some left =>
      left = order.withRemaining (order.remainingQty - filled) ∧
        (filled ≠ 0 → left.remainingQty ≠ 0)
  | none => filled = order.remainingQty

theorem OnlyFilled.start (order : BookOrder) : OnlyFilled order 0 (some order) := by
  refine ⟨?_, fun nothing => absurd rfl nothing⟩
  rw [sub_zero]
  rfl

@[simp]
theorem filledQty_append (orderId : OrderId) (before after : List Event) :
    filledQty orderId (before ++ after) = filledQty orderId before + filledQty orderId after := by
  simp [filledQty]

/-- A piece of log tells all that happens on a book to the orders with an id. -/
structure Undisturbed (orderId : OrderId) (before : OrderBook) (events : List Event)
    (after : OrderBook) : Prop where
  present : ∀ order, before.getOrder orderId = some order →
    OnlyFilled order (filledQty orderId events) (after.getOrder orderId)
  absent : before.getOrder orderId = none →
    after.getOrder orderId = none ∧ filledQty orderId events = 0

namespace Undisturbed

variable {orderId : OrderId} {before middle after : OrderBook} {events more : List Event}

/-- Nothing is filled, and the order stays as it is. -/
theorem of_same (unfilled : filledQty orderId events = 0)
    (same : after.getOrder orderId = before.getOrder orderId) :
    Undisturbed orderId before events after where
  present := by
    intro order found
    rw [unfilled, same, found]
    exact OnlyFilled.start order
  absent := fun missing => ⟨same.trans missing, unfilled⟩

/-- What has been filled and what is told next add up. -/
theorem next (undisturbed : Undisturbed orderId before events after) {order : BookOrder}
    {filled : Decimal128} (kept : OnlyFilled order filled (before.getOrder orderId)) :
    OnlyFilled order (filled + filledQty orderId events) (after.getOrder orderId) := by
  cases left : before.getOrder orderId with
  | none =>
      rw [left] at kept
      obtain ⟨gone, nothing⟩ := undisturbed.absent left
      rw [gone, nothing, add_zero]
      exact kept
  | some held =>
      rw [left] at kept
      obtain ⟨rfl, something⟩ := kept
      have later := undisturbed.present _ left
      cases final : after.getOrder orderId with
      | none =>
          rw [final] at later
          have rest : filledQty orderId events = order.remainingQty - filled := later
          change filled + filledQty orderId events = order.remainingQty
          rw [rest, add_sub_cancel]
      | some kept =>
          rw [final] at later
          obtain ⟨rfl, whole⟩ := later
          refine ⟨?_, fun more => ?_⟩
          · rw [BookOrder.withRemaining_withRemaining, BookOrder.withRemaining_remainingQty,
              sub_sub]
          · by_cases nothing : filledQty orderId events = 0
            · rw [nothing, add_zero] at more
              rw [nothing, sub_zero]
              exact something more
            · exact whole nothing

theorem trans (first : Undisturbed orderId before events middle)
    (second : Undisturbed orderId middle more after) :
    Undisturbed orderId before (events ++ more) after where
  present := by
    intro order found
    rw [filledQty_append]
    exact second.next (first.present order found)
  absent := by
    intro missing
    obtain ⟨still, nothing⟩ := first.absent missing
    obtain ⟨gone, more⟩ := second.absent still
    exact ⟨gone, by rw [filledQty_append, nothing, more, add_zero]⟩

/-- Events in front that fill nothing. -/
theorem after_unfilled (undisturbed : Undisturbed orderId before more after)
    (unfilled : filledQty orderId events = 0) :
    Undisturbed orderId before (events ++ more) after :=
  (of_same unfilled rfl).trans undisturbed

/-- The book may change in what it stores under other ids. -/
theorem and_same (undisturbed : Undisturbed orderId before events middle)
    (same : after.getOrder orderId = middle.getOrder orderId) :
    Undisturbed orderId before events after where
  present := by
    rw [same]
    exact undisturbed.present
  absent := by
    rw [same]
    exact undisturbed.absent

/-- A match reports what it takes from a maker. -/
theorem absorb (engine : MatchingEngine) {book : OrderBook} {taker : BookOrder}
    (wellFormed : book.WellFormed) (other : taker.orderId ≠ orderId) (symbol : SymbolId)
    (timestamp : UnixMicros) :
    Undisturbed orderId book (engine.absorb (matchOrder book taker) symbol timestamp).2
      (matchOrder book taker).book := by
  let shares := matchShares book taker
  have stored : ∀ share ∈ shares, ∃ maker, book.getOrder share.1 = some maker := by
    intro share drawn
    obtain ⟨maker, found, -⟩ := matchShares_stored wellFormed drawn
    exact ⟨maker, found⟩
  obtain ⟨-, -, filled⟩ := emitFillEvents_measures engine.symbolConfig (matchOrder book taker).book
    symbol timestamp (matchOrder book taker).taker taker stored engine.tradeIdGen orderId
  rw [if_neg other, add_zero, ← matchOrder_fills wellFormed] at filled
  have taken : filledQty orderId (engine.absorb (matchOrder book taker) symbol timestamp).2 =
      givenQty shares orderId := filled
  by_cases drawn : orderId ∈ shares.map Prod.fst
  · obtain ⟨share, member, rfl⟩ := List.mem_map.1 drawn
    obtain ⟨maker, found⟩ := stored share member
    have given := givenQty_of_mem (matchShares_nodup wellFormed) member
    have left := OrderBook.getOrder_takeOut_of_mem (matchShares_nodup wellFormed) member found
    rw [← matchOrder_book wellFormed] at left
    constructor
    · intro order known
      rw [found] at known
      cases known
      rw [taken, given, left]
      split
      · rename_i whole
        exact whole.symm
      · rename_i part
        exact ⟨rfl, fun _ => sub_ne_zero.2 part⟩
    · intro missing
      rw [found] at missing
      cases missing
  · refine of_same (taken.trans (givenQty_of_not_mem drawn)) ?_
    rw [matchOrder_book wellFormed]
    exact OrderBook.getOrder_takeOut_of_not_mem drawn

end Undisturbed

/-! ## The handlers -/

namespace MatchingEngine

variable {engine : MatchingEngine} {orderId : OrderId}

private theorem undisturbed_matchNewOrder {order : BookOrder}
    (wellFormed : engine.orderbook.WellFormed)
    (other : order.orderId ≠ orderId) (timestamp : UnixMicros) :
    Undisturbed orderId engine.orderbook (engine.matchNewOrder order timestamp).2
      (engine.matchNewOrder order timestamp).1.orderbook := by
  rcases engine.matchNewOrder_cases order timestamp with ⟨-, same⟩ | ⟨-, same⟩
  · rw [same]
    exact .of_same rfl rfl
  · rw [same]
    let result := matchOrder engine.orderbook order
    let absorbed := engine.absorb result order.symbol timestamp
    let left := refillIceberg timestamp result.taker
    have matched : Undisturbed orderId engine.orderbook absorbed.2 absorbed.1.orderbook :=
      .absorb engine wellFormed other order.symbol timestamp
    have leftId : left.orderId ≠ orderId := by
      rw [refillIceberg_orderId, matchOrder_taker_orderId wellFormed]
      exact other
    have placed : Undisturbed orderId absorbed.1.orderbook
        (absorbed.1.placeRemaining left timestamp).2
        (absorbed.1.placeRemaining left timestamp).1.orderbook := by
      rcases absorbed.1.placeRemaining_cases left timestamp with
        ⟨-, same⟩ | ⟨-, -, same⟩ | ⟨-, -, -, -, same⟩
      · rw [same]
        exact .of_same rfl rfl
      · rw [same]
        exact .of_same rfl rfl
      · rw [same]
        refine .of_same rfl ?_
        exact (OrderBook.getOrder_insertOrder ..).trans (if_neg leftId)
    have accepted : filledQty orderId
        [.orderAccepted (acceptedOf order order.symbol timestamp)] = 0 := rfl
    exact (matched.trans placed).after_unfilled accepted

private theorem undisturbed_handleNewOrder {order : NewOrder}
    (wellFormed : engine.orderbook.WellFormed) (other : order.orderId ≠ orderId) :
    Undisturbed orderId engine.orderbook (engine.handleNewOrder order).2
      (engine.handleNewOrder order).1.orderbook := by
  rcases engine.handleNewOrder_cases order with
    ⟨reason, same⟩ | ⟨price, -, -, -, -, ⟨-, same⟩ | ⟨-, same⟩⟩
  · rw [same]
    exact .of_same rfl rfl
  · rw [same]
    exact .of_same rfl rfl
  · rw [same]
    exact undisturbed_matchNewOrder wellFormed other order.timestamp

/-- A cancellation of somebody else, or of another order. -/
theorem undisturbed_handleCancelOrder (wellFormed : engine.orderbook.WellFormed)
    {canceledId : OrderId} {userId : UserId}
    (foreign : ∀ held, engine.orderbook.getOrder orderId = some held → canceledId = orderId →
      held.userId ≠ userId) (timestamp : UnixMicros) :
    Undisturbed orderId engine.orderbook (engine.handleCancelOrder canceledId userId timestamp).2
      (engine.handleCancelOrder canceledId userId timestamp).1.orderbook := by
  rcases engine.handleCancelOrder_cases canceledId userId timestamp with
    ⟨-, -, same⟩ | ⟨order, found, owner, same⟩ | ⟨order, found, -, same⟩ |
      ⟨order, -, -, -, same⟩ | ⟨order, -, -, -, same⟩
  · rw [same]
    exact .of_same rfl rfl
  · rw [same]
    have other : canceledId ≠ orderId := by
      rintro rfl
      exact foreign order found rfl owner
    exact .of_same rfl ((OrderBook.getOrder_removeOrder ..).trans (if_neg other))
  · rw [same]
    have keyed : order.orderId = canceledId := wellFormed.toLevels.keyed found
    refine .of_same rfl (((OrderBook.getOrder_insertOrder ..).trans ?_))
    rw [keyed, OrderBook.getOrder_removeOrder]
    by_cases own : canceledId = orderId
    · rw [if_pos own, ← own, found]
    · rw [if_neg own, if_neg own]
  · rw [same]
    exact .of_same rfl rfl
  · rw [same]
    exact .of_same rfl rfl

private theorem undisturbed_reinsertAmended (wellFormed : engine.orderbook.WellFormed)
    {old : BookOrder}
    {amend : AmendOrder} (found : engine.orderbook.getOrder amend.orderId = some old)
    (other : amend.orderId ≠ orderId) :
    Undisturbed orderId engine.orderbook (engine.reinsertAmended old amend).2
      (engine.reinsertAmended old amend).1.orderbook := by
  let removed := engine.orderbook.removeOrder amend.orderId
  have unlinked : removed.getOrder orderId = engine.orderbook.getOrder orderId :=
    (OrderBook.getOrder_removeOrder ..).trans (if_neg other)
  have canceled : Undisturbed orderId engine.orderbook
      [.orderCanceled amend.orderId amend.userId amend.symbol old.remainingQty amend.timestamp]
      removed := .of_same rfl unlinked
  rcases engine.reinsertAmended_cases old amend with ⟨reason, -, same⟩ | ⟨-, -, same⟩
  · rw [same]
    exact .of_same rfl unlinked
  · rw [same]
    let amended := amendedOrder old amend
    let result := matchOrder removed amended
    have unlinkedBook : removed.WellFormed := wellFormed.removeOrder amend.orderId
    have keyed : old.orderId = amend.orderId := wellFormed.toLevels.keyed found
    have amendedId : amended.orderId ≠ orderId := keyed ▸ other
    have matched : Undisturbed orderId removed
        (engine.absorb result amend.symbol amend.timestamp).2 result.book :=
      .absorb engine unlinkedBook amendedId amend.symbol amend.timestamp
    have accepted : filledQty orderId
        [.orderAccepted (acceptedOf result.taker amend.symbol amend.timestamp)] = 0 := rfl
    have takerId : result.taker.orderId ≠ orderId := by
      rw [matchOrder_taker_orderId unlinkedBook]
      exact amendedId
    refine (canceled.trans (matched.after_unfilled accepted)).and_same ?_
    dsimp only
    split
    · rfl
    · exact (OrderBook.getOrder_insertOrder ..).trans (if_neg takerId)

/-- An amendment of somebody else, or of another order. -/
theorem undisturbed_handleAmendOrder (wellFormed : engine.orderbook.WellFormed)
    {amend : AmendOrder}
    (foreign : ∀ held, engine.orderbook.getOrder orderId = some held → amend.orderId = orderId →
      held.userId ≠ amend.userId) :
    Undisturbed orderId engine.orderbook (engine.handleAmendOrder amend).2
      (engine.handleAmendOrder amend).1.orderbook := by
  rcases engine.handleAmendOrder_cases amend with
    ⟨reason, -, same⟩ |
      ⟨existing, found, owner, ⟨-, same⟩ | ⟨-, same⟩ | ⟨-, quantity, -, -, -, same⟩⟩
  · rw [same]
    exact .of_same rfl rfl
  all_goals
    have other : amend.orderId ≠ orderId := by
      intro own
      exact foreign existing (own ▸ found) own owner
  · rw [same]
    exact undisturbed_reinsertAmended wellFormed found other
  · rw [same]
    exact .of_same rfl rfl
  · rw [same]
    exact .of_same rfl ((OrderBook.getOrder_updateQty ..).trans (if_neg other))

private theorem undisturbed_handleCancelAll (wellFormed : engine.orderbook.WellFormed)
    {userId : UserId}
    (foreign : ∀ held, engine.orderbook.getOrder orderId = some held → held.userId ≠ userId)
    (symbol : SymbolId) (timestamp : UnixMicros) :
    Undisturbed orderId engine.orderbook (engine.handleCancelAll userId symbol timestamp).2
      (engine.handleCancelAll userId symbol timestamp).1.orderbook := by
  refine .of_same ?_ ?_
  · refine List.sum_eq_zero fun quantity member => ?_
    obtain ⟨event, emitted, rfl⟩ := List.mem_map.1 member
    obtain ⟨order, rfl⟩ := canceled_of_handleCancelAll engine emitted
    rfl
  · refine (wellFormed.getOrder_cancelAll userId orderId).trans ?_
    cases found : engine.orderbook.getOrder orderId with
    | none => rfl
    | some held => exact Option.filter_eq_some_iff.2 ⟨rfl, by simpa using foreign held found⟩

/-! ### Mark prices -/

private theorem undisturbed_triggerOne {order : BookOrder}
    (wellFormed : engine.orderbook.WellFormed)
    (other : order.orderId ≠ orderId) (timestamp : UnixMicros) :
    Undisturbed orderId engine.orderbook (engine.triggerOne order timestamp).2
      (engine.triggerOne order timestamp).1.orderbook := by
  let taker := convertTriggered order
  have takerId : taker.orderId ≠ orderId := by
    rw [(convertTriggered_frame order).1]
    exact other
  have matched := Undisturbed.absorb engine wellFormed takerId
    (matchOrder engine.orderbook taker).taker.symbol timestamp
  rcases engine.triggerOne_cases order timestamp with
    ⟨-, same⟩ | ⟨-, -, same⟩ | ⟨-, -, -, same⟩
  · rw [same]
    exact .of_same rfl rfl
  · rw [same]
    exact matched
  · rw [same]
    refine matched.and_same ?_
    refine (OrderBook.getOrder_insertOrder ..).trans (if_neg ?_)
    rw [matchOrder_taker_orderId wellFormed]
    exact takerId

private theorem undisturbed_triggerAll {pending kept : List BookOrder}
    (unique : IdsUnique engine.orderbook (pending ++ kept))
    (apart : orderId ∉ pending.map BookOrder.orderId) (timestamp : UnixMicros) :
    Undisturbed orderId engine.orderbook (triggerAll timestamp engine pending).2
      (triggerAll timestamp engine pending).1.orderbook := by
  induction pending generalizing engine with
  | nil => exact .of_same rfl rfl
  | cons order rest inductionHypothesis =>
      rw [List.map_cons, List.mem_cons, not_or] at apart
      have first := undisturbed_triggerOne unique.wellFormed (Ne.symm apart.1) timestamp
      exact first.trans (inductionHypothesis (idsUnique_triggerOne unique) apart.2)

/-! ## Steps and runs -/

/-- What takes an order off the book, or changes it, without a fill: its owner, or its
expiry. -/
def Disposes (order : BookOrder) : EngineInput → Prop
  | .command (.cancelOrder orderId userId _ _) =>
      orderId = order.orderId ∧ userId = order.userId
  | .command (.amendOrder amend) => amend.orderId = order.orderId ∧ amend.userId = order.userId
  | .command (.cancelAllOrders userId _ _) => userId = order.userId
  | .command _ => False
  | .expirySweep now => Due order now

/-- Only a new order joins the waiting ones. -/
theorem waiting_step {input : EngineInput} {stop : BookOrder}
    (waits : stop ∈ (engine.step input).1.stopOrders) :
    stop.orderId ∈ engine.stopOrders.map BookOrder.orderId ∨
      input.newOrderId? = some stop.orderId := by
  have known {stops : List BookOrder} (listed : stop ∈ stops)
      (part : stops ⊆ engine.stopOrders) : stop.orderId ∈ engine.stopOrders.map BookOrder.orderId :=
    List.mem_map_of_mem (part listed)
  cases input with
  | expirySweep now => exact Or.inl (known waits (List.Subset.refl _))
  | command issued =>
      let counted : MatchingEngine := { engine with sequence := engine.sequence + 1 }
      cases issued with
      | newOrder order =>
          change stop ∈ (counted.handleNewOrder order).1.stopOrders at waits
          rcases counted.handleNewOrder_cases order with
            ⟨reason, same⟩ | ⟨price, -, -, -, -, ⟨-, same⟩ | ⟨-, same⟩⟩ <;> rw [same] at waits
          · exact Or.inl (known waits (List.Subset.refl _))
          · rcases List.mem_append.1 waits with earlier | added
            · exact Or.inl (known earlier (List.Subset.refl _))
            · rw [List.mem_singleton.1 added]
              exact Or.inr rfl
          · rw [matchNewOrder_stopOrders] at waits
            exact Or.inl (known waits (List.Subset.refl _))
      | cancelOrder orderId userId symbol timestamp =>
          change stop ∈ (counted.handleCancelOrder orderId userId timestamp).1.stopOrders at waits
          rcases counted.handleCancelOrder_cases orderId userId timestamp with
            ⟨-, -, same⟩ | ⟨order, -, -, same⟩ | ⟨order, -, -, same⟩ |
              ⟨order, -, found, -, same⟩ | ⟨order, -, found, -, same⟩ <;> rw [same] at waits
          · exact Or.inl (known waits (List.Subset.refl _))
          · exact Or.inl (known waits (List.Subset.refl _))
          · exact Or.inl (known waits (List.Subset.refl _))
          · exact Or.inl (known waits List.eraseP_subset)
          · rcases List.mem_append.1 waits with kept | moved
            · exact Or.inl (known kept List.eraseP_subset)
            · rw [List.mem_singleton.1 moved]
              exact Or.inl (List.mem_map_of_mem (List.mem_of_find?_eq_some found))
      | amendOrder amend =>
          change stop ∈ (counted.handleAmendOrder amend).1.stopOrders at waits
          rw [handleAmendOrder_stopOrders] at waits
          exact Or.inl (known waits (List.Subset.refl _))
      | cancelAllOrders userId symbol timestamp =>
          exact Or.inl (known waits fun other listed =>
            (swapScan_perm _ _).subset (List.mem_append_right _ listed))
      | updateMarkPrice symbol mark index timestamp =>
          change stop ∈ (triggerAll timestamp _ _).1.stopOrders at waits
          rw [triggerAll_stopOrders] at waits
          have peaked := (swapScan_perm (shouldTrigger mark)
            (engine.stopOrders.map (updateTrailingPeak mark))).subset
            (List.mem_append_right _ waits)
          obtain ⟨before, earlier, rfl⟩ := List.mem_map.1 peaked
          rw [updateTrailingPeak_orderId]
          exact Or.inl (List.mem_map_of_mem earlier)
      | computeFunding symbol timestamp => exact Or.inl (known waits (List.Subset.refl _))
      | adminCredit userId amount key timestamp => exact Or.inl (known waits (List.Subset.refl _))

/-- What an engine has in a run with distinct ids after an order rested on the book, when no
more than `filled` was taken of it since. -/
structure LeavesAlone (order : BookOrder) (submitted : List NewOrder) (filled : Decimal128)
    (engine : MatchingEngine) : Prop where
  unique : engine.HasUniqueIds
  tracked : ExpiryTracked submitted engine
  restorable : engine.Restorable
  distinct : (submitted.map NewOrder.orderId).Nodup
  apart : order.orderId ∉ engine.stopOrders.map BookOrder.orderId
  kept : OnlyFilled order filled (engine.orderbook.getOrder order.orderId)

section LeavesAlone

variable {order : BookOrder} {submitted : List NewOrder} {filled : Decimal128}

/-- What is left of an order has its owner and its expiry. -/
theorem LeavesAlone.held (alone : LeavesAlone order submitted filled engine) {held : BookOrder}
    (found : engine.orderbook.getOrder order.orderId = some held) :
    held.userId = order.userId ∧ held.expireTime = order.expireTime := by
  have kept := alone.kept
  rw [found] at kept
  rw [kept.1]
  exact ⟨rfl, rfl⟩

private theorem LeavesAlone.undisturbed (alone : LeavesAlone order submitted filled engine)
    {input : EngineInput} (other : input.newOrderId? ≠ some order.orderId)
    (handsOff : ¬Disposes order input) :
    Undisturbed order.orderId engine.orderbook (engine.step input).2
      (engine.step input).1.orderbook := by
  have wellFormed := alone.unique.wellFormed
  cases input with
  | expirySweep now =>
      refine .of_same ?_ ?_
      · refine List.sum_eq_zero fun quantity member => ?_
        obtain ⟨event, emitted, rfl⟩ := List.mem_map.1 member
        obtain ⟨orderId, canceled, rfl⟩ := canceled_of_expireEntries emitted
        rfl
      · refine (getOrder_expireEntries order.orderId).trans ?_
        cases found : engine.orderbook.getOrder order.orderId with
        | none => exact ite_self none
        | some held =>
            refine if_neg fun swept => handsOff ?_
            obtain ⟨expire, past, entry⟩ := (mem_dueIds alone.restorable.sorted).1 swept
            have due := alone.tracked.due_of_entry alone.distinct alone.restorable.keyed found entry
            exact ⟨expire, past, (alone.held found).2.symm.trans due⟩
  | command issued =>
      have foreign {user : UserId} (stranger : user ≠ order.userId) :
          ∀ held, engine.orderbook.getOrder order.orderId = some held → held.userId ≠ user :=
        fun held found same => stranger (same.symm.trans (alone.held found).1)
      let counted : MatchingEngine := { engine with sequence := engine.sequence + 1 }
      have countedBook : counted.orderbook.WellFormed := wellFormed
      cases issued with
      | newOrder placed =>
          exact undisturbed_handleNewOrder countedBook fun same => other (congrArg some same)
      | cancelOrder orderId userId symbol timestamp =>
          refine undisturbed_handleCancelOrder countedBook (fun held found own => ?_) timestamp
          exact foreign (fun same => handsOff ⟨own, same⟩) held found
      | amendOrder amend =>
          refine undisturbed_handleAmendOrder countedBook fun held found own => ?_
          exact foreign (fun same => handsOff ⟨own, same⟩) held found
      | cancelAllOrders userId symbol timestamp =>
          exact undisturbed_handleCancelAll countedBook (foreign handsOff) symbol timestamp
      | updateMarkPrice symbol mark index timestamp =>
          let peaked := engine.stopOrders.map (updateTrailingPeak mark)
          have whole := swapScan_perm (shouldTrigger mark) peaked
          have unique : IdsUnique engine.orderbook peaked :=
            IdsUnique.sameIds alone.unique (updateTrailingPeak_orderId mark)
          have apart : order.orderId ∉
              (swapScan (shouldTrigger mark) peaked).1.map BookOrder.orderId := by
            intro listed
            obtain ⟨stop, triggered, own⟩ := List.mem_map.1 listed
            obtain ⟨before, earlier, rfl⟩ :=
              List.mem_map.1 (whole.subset (List.mem_append_left _ triggered))
            rw [updateTrailingPeak_orderId] at own
            exact alone.apart (own ▸ List.mem_map_of_mem earlier)
          let scanning : MatchingEngine :=
            { counted.applyMarkIndexPassive mark index with
              stopOrders := (swapScan (shouldTrigger mark) peaked).2 }
          have scanned : IdsUnique scanning.orderbook
              ((swapScan (shouldTrigger mark) peaked).1 ++
                (swapScan (shouldTrigger mark) peaked).2) := unique.perm whole
          have published : filledQty order.orderId
              [.markPriceUpdate symbol mark index timestamp] = 0 := rfl
          exact (undisturbed_triggerAll scanned apart timestamp).after_unfilled published
      | computeFunding symbol timestamp => exact .of_same rfl rfl
      | adminCredit userId amount key timestamp => exact .of_same rfl rfl

end LeavesAlone

/-- In a run with distinct ids no new order takes the id of a waiting one. -/
theorem notWaiting_of_distinct (config : SymbolConfig) (ids : Nat → TradeId)
    (interestRate : Decimal128) {inputs : List EngineInput}
    (distinct : (newOrderIds inputs).Nodup) :
    StepsMeet MatchingEngine.step NewIdNotWaiting (new config ids interestRate) inputs := by
  refine .of_prefixes fun before input isPrefix => ?_
  have fresh := fresh_of_nodup distinct isPrefix
  have tracked : ExpiryTracked (submittedOrders before) _ :=
    expiryTracked_run config ids interestRate before
  cases input with
  | expirySweep now => trivial
  | command issued =>
      cases issued with
      | newOrder order =>
          intro _ listed
          obtain ⟨stop, waits, own⟩ := List.mem_map.1 listed
          obtain ⟨source, member, as, -⟩ := tracked.waiting stop waits
          refine fresh order.orderId rfl ?_
          rw [newOrderIds_eq, ← own, as.sameId]
          exact List.mem_map_of_mem member
      | _ => trivial

section Rested

variable {config : SymbolConfig} {ids : Nat → TradeId} {interestRate : Decimal128}
variable {inputs later : List EngineInput} {order : BookOrder}

/-- The id of an order on the book was brought by a new order. -/
theorem used_of_rests
    (rests : (run step (new config ids interestRate) inputs).1.orderbook.getOrder order.orderId =
      some order) : order.orderId ∈ newOrderIds inputs := by
  obtain ⟨source, member, as, -⟩ :=
    (expiryTracked_run config ids interestRate inputs).resting _ order rests
  rw [newOrderIds_eq, as.sameId]
  exact List.mem_map_of_mem member

private theorem hasUniqueIds_run (config : SymbolConfig) (ids : Nat → TradeId)
    (interestRate : Decimal128) (distinct : (newOrderIds inputs).Nodup) :
    (run step (new config ids interestRate) inputs).1.HasUniqueIds :=
  (notWaiting_of_distinct config ids interestRate distinct).run_keeps
    (fun _ _ now holds => holds.step now) (IdsUnique.new config.symbol)

private theorem leavesAlone_run (distinct : (newOrderIds (inputs ++ later)).Nodup)
    (rests : (run step (new config ids interestRate) inputs).1.orderbook.getOrder order.orderId =
      some order)
    (handsOff : ∀ input ∈ later, ¬Disposes order input) :
    let after := run step (run step (new config ids interestRate) inputs).1 later
    LeavesAlone order (submittedOrders (inputs ++ later)) (filledQty order.orderId after.2)
      after.1 := by
  induction later using List.reverseRecOn with
  | nil =>
      rw [List.append_nil] at distinct ⊢
      have rested := hasUniqueIds_run config ids interestRate distinct
      refine ⟨rested, expiryTracked_run config ids interestRate inputs,
        restorable_run config ids interestRate inputs, newOrderIds_eq inputs ▸ distinct,
        IdsUnique.notWaiting rested rests, ?_⟩
      rw [run_nil, rests]
      exact OnlyFilled.start order
  | append_singleton before input inductionHypothesis =>
      have whole : inputs ++ before ++ [input] = inputs ++ (before ++ [input]) :=
        List.append_assoc ..
      have earlier : inputs ++ before <+: inputs ++ (before ++ [input]) :=
        ⟨[input], whole⟩
      have alone := inductionHypothesis
        (distinct.sublist (earlier.sublist.filterMap EngineInput.newOrderId?))
        fun other member => handsOff other (List.mem_append_left _ member)
      have other : input.newOrderId? ≠ some order.orderId := by
        intro introduces
        refine fresh_of_nodup distinct ⟨[], by rw [List.append_nil, whole]⟩ order.orderId
          introduces ?_
        rw [newOrderIds, List.filterMap_append]
        exact List.mem_append_left _ (used_of_rests rests)
      have undisturbed := alone.undisturbed other
        (handsOff input (List.mem_append_right _ (List.mem_singleton_self _)))
      have reached : (run step (run step (new config ids interestRate) inputs).1
            (before ++ [input])).1 =
          (run step (new config ids interestRate) (inputs ++ (before ++ [input]))).1 :=
        (congrArg Prod.fst (run_append step _ inputs _)).symm
      constructor
      · rw [reached]
        exact hasUniqueIds_run config ids interestRate distinct
      · rw [reached]
        exact expiryTracked_run config ids interestRate _
      · rw [reached]
        exact restorable_run config ids interestRate _
      · rw [← newOrderIds_eq]
        exact distinct
      · rw [run_concat]
        intro listed
        obtain ⟨stop, waits, own⟩ := List.mem_map.1 listed
        rcases waiting_step waits with before | introduced
        · exact alone.apart (own ▸ before)
        · exact other (own ▸ introduced)
      · rw [run_concat, filledQty_append]
        exact undisturbed.next alone.kept

end Rested

/-- In every run with distinct ids an order that rests on the book loses nothing but what its
fills report, and nothing else of it changes, for as long as its owner neither cancels nor
amends it and its expiry has not come. -/
theorem resting_order_undisturbed (config : SymbolConfig) (ids : Nat → TradeId)
    (interestRate : Decimal128) (inputs later : List EngineInput)
    (distinct : (newOrderIds (inputs ++ later)).Nodup) (order : BookOrder)
    (rests : (run step (new config ids interestRate) inputs).1.orderbook.getOrder order.orderId =
      some order)
    (handsOff : ∀ input ∈ later, ¬Disposes order input) :
    let after := run step (run step (new config ids interestRate) inputs).1 later
    OnlyFilled order (filledQty order.orderId after.2)
      (after.1.orderbook.getOrder order.orderId) :=
  (leavesAlone_run distinct rests handsOff).kept

/-- A sale at 100 that comes to rest. -/
def saleInputs : List EngineInput := [.command (.newOrder (gatewayOrder 1 7 .sell 100 5))]

def restingSale : BookOrder := newBookOrder 0 (gatewayOrder 1 7 .sell 100 5) (.ofInt 100)

/-- Another user tries to cancel it and buys a part of it. -/
def strangerInputs : List EngineInput :=
  [.command (.cancelOrder 1 8 1 1), .command (.newOrder (gatewayOrder 2 8 .buy 101 3)),
    .command (.updateMarkPrice 1 (.ofInt 99) (.ofInt 99) 2), .expirySweep 3]

theorem resting_order_undisturbed_sale :
    let after := run step (run step (new plainConfig id 0) saleInputs).1 strangerInputs
    OnlyFilled restingSale (filledQty 1 after.2) (after.1.orderbook.getOrder 1) := by
  refine resting_order_undisturbed plainConfig id 0 saleInputs strangerInputs (by decide)
    restingSale (by decide +kernel) fun input member => ?_
  simp only [strangerInputs, List.mem_cons, List.not_mem_nil, or_false] at member
  rcases member with rfl | rfl | rfl | rfl
  · exact fun disposes => absurd disposes.2 (by decide)
  · exact id
  · exact id
  · rintro ⟨expire, -, known⟩
    cases known

end MatchingEngine
end Exg
