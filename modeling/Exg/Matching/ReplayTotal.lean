import Exg.Matching.ReplaySweep

/-!
# Which logs replay

Replay may drift from the live engine and still apply every record: it has to hold at
least what the live engine holds of each live order.  That is kept by every step whose
legs fit into what replay holds and which does not accept a resting order again.
-/

namespace Exg

open Support

namespace MatchingEngine

/-! ## What replay holds -/

/-- What replay relies on between two records. -/
structure Tidy (replayed : MatchingEngine) (used : List OrderId) : Prop where
  apart : ∀ stop ∈ replayed.stopOrders, replayed.orderbook.getOrder stop.orderId = none
  nodup : (replayed.stopOrders.map BookOrder.orderId).Nodup
  bookUsed : ∀ orderId order, replayed.orderbook.getOrder orderId = some order → orderId ∈ used
  stopsUsed : ∀ stop ∈ replayed.stopOrders, stop.orderId ∈ used
  stopsSeen : ∀ stop ∈ replayed.stopOrders, stop.orderId ∈ replayed.replaySeenOrderIds

/-- Replay has an order of the id on its book, with at least the quantity. -/
def OnBook (replayed : MatchingEngine) (orderId : OrderId) (quantity : Decimal128) : Prop :=
  ∃ kept, replayed.orderbook.getOrder orderId = some kept ∧ quantity ≤ kept.remainingQty

/-- Replay has an order of the id on its book, with just the quantity. -/
def Exactly (replayed : MatchingEngine) (orderId : OrderId) (quantity : Decimal128) : Prop :=
  ∃ kept, replayed.orderbook.getOrder orderId = some kept ∧ kept.remainingQty = quantity

/-- Replay has not seen that the order was triggered and went to the book. -/
def StillWaits (replayed : MatchingEngine) (orderId : OrderId) (quantity : Decimal128) : Prop :=
  ∃ stop ∈ replayed.stopOrders, stop.orderId = orderId ∧ quantity ≤ stop.remainingQty ∧
    (convertTriggered stop).orderType.isLimit = true

/-- Replay holds at least what is live of every order. -/
structure Covers (book : OrderBook) (stops : List BookOrder) (used : List OrderId)
    (replayed : MatchingEngine) : Prop extends replayed.Tidy used where
  resting : ∀ orderId order, book.getOrder orderId = some order →
    replayed.OnBook orderId order.remainingQty ∨ replayed.StillWaits orderId order.remainingQty
  waiting : ∀ stop ∈ stops, ∃ kept ∈ replayed.stopOrders, kept.orderId = stop.orderId ∧
    kept.orderType = stop.orderType ∧ stop.remainingQty ≤ kept.remainingQty

/-- Nothing but the order of one id has changed. -/
structure OnlyAt (orderId : OrderId) (before after : MatchingEngine) : Prop where
  getOrder : ∀ other, other ≠ orderId →
    after.orderbook.getOrder other = before.orderbook.getOrder other
  stops : ∀ stop : BookOrder, stop.orderId ≠ orderId →
    (stop ∈ after.stopOrders ↔ stop ∈ before.stopOrders)
  seen : before.replaySeenOrderIds ⊆ after.replaySeenOrderIds

/-- Replay has nothing of an id. -/
structure Gone (replayed : MatchingEngine) (orderId : OrderId) : Prop where
  book : replayed.orderbook.getOrder orderId = none
  stops : orderId ∉ replayed.stopOrders.map BookOrder.orderId

variable {replayed next : MatchingEngine} {used : List OrderId} {orderId : OrderId}

theorem OnlyAt.trans {third : MatchingEngine} (first : OnlyAt orderId replayed next)
    (second : OnlyAt orderId next third) : OnlyAt orderId replayed third where
  getOrder := fun other apart => (second.getOrder other apart).trans (first.getOrder other apart)
  stops := fun stop apart => (second.stops stop apart).trans (first.stops stop apart)
  seen := List.Subset.trans first.seen second.seen

/-- What replay holds elsewhere is not touched. -/
theorem OnlyAt.held (onlyAt : OnlyAt orderId replayed next) {other : OrderId}
    (apart : other ≠ orderId) {quantity : Decimal128}
    (held : replayed.OnBook other quantity ∨ replayed.StillWaits other quantity) :
    next.OnBook other quantity ∨ next.StillWaits other quantity := by
  rcases held with ⟨kept, found, enough⟩ | ⟨stop, member, same, enough, limited⟩
  · exact Or.inl ⟨kept, (onlyAt.getOrder other apart).trans found, enough⟩
  · exact Or.inr ⟨stop, (onlyAt.stops stop (same ▸ apart)).2 member, same, enough, limited⟩

/-- One id changes live and in replay. -/
theorem Covers.of_onlyAt {book after : OrderBook} {stops left : List BookOrder}
    (covers : Covers book stops used replayed) (tidy : next.Tidy used)
    (onlyAt : OnlyAt orderId replayed next)
    (elsewhere : ∀ other order, other ≠ orderId → after.getOrder other = some order →
      book.getOrder other = some order)
    (here : ∀ order, after.getOrder orderId = some order →
      next.OnBook orderId order.remainingQty ∨ next.StillWaits orderId order.remainingQty)
    (remain : ∀ stop ∈ left, stop ∈ stops ∧ stop.orderId ≠ orderId) :
    Covers after left used next where
  toTidy := tidy
  resting := by
    intro other order found
    by_cases own : other = orderId
    · subst own
      exact here order found
    · exact onlyAt.held own (covers.resting other order (elsewhere other order own found))
  waiting := by
    intro stop member
    obtain ⟨earlier, apart⟩ := remain stop member
    obtain ⟨kept, keptMember, same, sameType, enough⟩ := covers.waiting stop earlier
    exact ⟨kept, (onlyAt.stops kept (same ▸ apart)).2 keptMember, same, sameType, enough⟩

theorem Tidy.mono (tidy : replayed.Tidy used) {more : List OrderId} (grows : used ⊆ more) :
    replayed.Tidy more :=
  { tidy with
    bookUsed := fun orderId order found => grows (tidy.bookUsed orderId order found)
    stopsUsed := fun stop member => grows (tidy.stopsUsed stop member) }

theorem Covers.mono {book : OrderBook} {stops : List BookOrder}
    (covers : Covers book stops used replayed) {more : List OrderId} (grows : used ⊆ more) :
    Covers book stops more replayed :=
  { covers with toTidy := covers.toTidy.mono grows }

/-- Only what is found under an id matters, and fewer waiting orders are covered too. -/
theorem Covers.narrow {book after : OrderBook} {stops left : List BookOrder}
    (covers : Covers book stops used replayed)
    (found : ∀ orderId, after.getOrder orderId = book.getOrder orderId) (fewer : left ⊆ stops) :
    Covers after left used replayed :=
  { covers with
    resting := fun orderId order stored => covers.resting orderId order (found orderId ▸ stored)
    waiting := fun stop member => covers.waiting stop (fewer member) }

/-- An order that replay holds already goes to the live book. -/
theorem Covers.insertOrder {book : OrderBook} {stops : List BookOrder} {order : BookOrder}
    (covers : Covers book stops used replayed)
    (held : replayed.OnBook order.orderId order.remainingQty ∨
      replayed.StillWaits order.orderId order.remainingQty) :
    Covers (book.insertOrder order) stops used replayed := by
  refine { covers with resting := ?_ }
  intro other stored found
  rw [OrderBook.getOrder_insertOrder] at found
  split at found
  · rename_i same
    cases found
    rwa [← same]
  · exact covers.resting other stored found

/-! ## Records that replay can apply -/

section Stops

variable {stop : BookOrder}

/-- The waiting order of an id, and the others. -/
theorem Tidy.split (tidy : replayed.Tidy used) (member : stop ∈ replayed.stopOrders) :
    replayed.stopOrders.Perm (stop :: replayed.stopOrders.erase stop) ∧
      ∀ other ∈ replayed.stopOrders.erase stop,
        decide (other.orderId = stop.orderId) = false := by
  have perm := List.perm_cons_erase member
  have nodup := (perm.map BookOrder.orderId).nodup_iff.1 tidy.nodup
  rw [List.map_cons, List.nodup_cons] at nodup
  refine ⟨perm, fun other otherMember => ?_⟩
  simpa using fun same => nodup.1 (List.mem_map.2 ⟨other, otherMember, same⟩)

theorem Tidy.find (tidy : replayed.Tidy used) (member : stop ∈ replayed.stopOrders) :
    (replayed.stopOrders.find? fun other => other.orderId = stop.orderId) = some stop := by
  obtain ⟨perm, unique⟩ := tidy.split member
  exact find_eq_of_unique perm (by simp) unique

/-- Taking the waiting order of an id out of the list, in either way. -/
theorem Tidy.dropStop (tidy : replayed.Tidy used) (member : stop ∈ replayed.stopOrders)
    {left : List BookOrder}
    (perm : left.Perm (replayed.stopOrders.eraseP fun other => other.orderId = stop.orderId)) :
    { replayed with stopOrders := left }.Tidy used ∧
      OnlyAt stop.orderId replayed { replayed with stopOrders := left } ∧
      Gone { replayed with stopOrders := left } stop.orderId := by
  obtain ⟨split, unique⟩ := tidy.split member
  have others := perm.trans (eraseP_perm_of_unique split (by simp) unique)
  have fewer : ∀ {other}, other ∈ left → other ∈ replayed.stopOrders := fun otherMember =>
    List.mem_of_mem_erase (others.subset otherMember)
  refine ⟨⟨fun other otherMember => tidy.apart other (fewer otherMember), ?_, tidy.bookUsed,
    fun other otherMember => tidy.stopsUsed other (fewer otherMember),
    fun other otherMember => tidy.stopsSeen other (fewer otherMember)⟩,
    ⟨fun _ _ => rfl, ?_, List.Subset.refl _⟩, tidy.apart stop member, ?_⟩
  · have nodup := (split.map BookOrder.orderId).nodup_iff.1 tidy.nodup
    rw [List.map_cons, List.nodup_cons] at nodup
    exact (others.map BookOrder.orderId).nodup_iff.2 nodup.2
  · intro other apart
    constructor
    · exact fewer
    · intro otherMember
      refine others.symm.subset ((List.mem_erase_of_ne ?_).2 otherMember)
      intro same
      exact apart (congrArg BookOrder.orderId same)
  · intro still
    obtain ⟨other, otherMember, same⟩ := List.mem_map.1 still
    simpa [same] using unique other (others.subset otherMember)

end Stops

/-- A change of the book at an id that does not wait. -/
theorem Tidy.changeBook (tidy : replayed.Tidy used) {after : OrderBook}
    (notWaiting : orderId ∉ replayed.stopOrders.map BookOrder.orderId) (known : orderId ∈ used)
    (elsewhere : ∀ other, other ≠ orderId →
      after.getOrder other = replayed.orderbook.getOrder other) :
    { replayed with orderbook := after }.Tidy used ∧
      OnlyAt orderId replayed { replayed with orderbook := after } := by
  refine ⟨⟨?_, tidy.nodup, ?_, tidy.stopsUsed, tidy.stopsSeen⟩,
    elsewhere, fun _ _ => Iff.rfl, List.Subset.refl _⟩
  · intro stop member
    have apart : stop.orderId ≠ orderId := by
      intro same
      exact notWaiting (List.mem_map.2 ⟨stop, member, same⟩)
    exact (elsewhere stop.orderId apart).trans (tidy.apart stop member)
  · intro other order found
    by_cases own : other = orderId
    · rwa [own]
    · exact tidy.bookUsed other order ((elsewhere other own).symm.trans found)

theorem Tidy.notWaiting (tidy : replayed.Tidy used) {kept : BookOrder}
    (found : replayed.orderbook.getOrder orderId = some kept) :
    orderId ∉ replayed.stopOrders.map BookOrder.orderId := by
  intro waits
  obtain ⟨stop, member, same⟩ := List.mem_map.1 waits
  have apart := tidy.apart stop member
  rw [same, found] at apart
  cases apart

/-- A cancellation of an order that replay holds. -/
theorem canceled_succeeds (tidy : replayed.Tidy used)
    (held : (∃ kept, replayed.orderbook.getOrder orderId = some kept) ∨
      ∃ stop ∈ replayed.stopOrders, stop.orderId = orderId) :
    ∃ next, replayed.applyCanceled orderId = .ok next ∧ next.Tidy used ∧
      OnlyAt orderId replayed next ∧ Gone next orderId := by
  rcases held with ⟨kept, found⟩ | ⟨stop, member, rfl⟩
  · have elsewhere : ∀ other, other ≠ orderId →
        (replayed.orderbook.removeOrder orderId).getOrder other =
          replayed.orderbook.getOrder other := by
      intro other apart
      rw [OrderBook.getOrder_removeOrder, if_neg (Ne.symm apart)]
    obtain ⟨tidyNext, onlyAt⟩ := tidy.changeBook (tidy.notWaiting found)
      (tidy.bookUsed orderId kept found) elsewhere
    refine ⟨_, applyCanceled_resting found, tidyNext, onlyAt, ?_, tidy.notWaiting found⟩
    simp [OrderBook.getOrder_removeOrder]
  · obtain ⟨tidyNext, onlyAt, gone⟩ := tidy.dropStop member (List.Perm.refl _)
    exact ⟨_, applyCanceled_waiting (tidy.apart stop member) member rfl, tidyNext, onlyAt, gone⟩

/-- A cancellation of an order on the live book. -/
theorem Covers.cancelResting {book : OrderBook} {stops : List BookOrder} {order : BookOrder}
    (covers : Covers book stops used replayed) (found : book.getOrder orderId = some order)
    (apart : ∀ stop ∈ stops, book.getOrder stop.orderId = none) :
    ∃ next, replayed.applyCanceled orderId = .ok next ∧
      Covers (book.removeOrder orderId) stops used next ∧ Gone next orderId := by
  have held : (∃ kept, replayed.orderbook.getOrder orderId = some kept) ∨
      ∃ stop ∈ replayed.stopOrders, stop.orderId = orderId := by
    rcases covers.resting orderId order found with ⟨kept, stored, -⟩ | ⟨stop, member, keyed, -⟩
    · exact Or.inl ⟨kept, stored⟩
    · exact Or.inr ⟨stop, member, keyed⟩
  obtain ⟨next, applied, tidy, onlyAt, gone⟩ := canceled_succeeds covers.toTidy held
  refine ⟨next, applied, covers.of_onlyAt tidy onlyAt ?_ ?_ ?_, gone⟩
  · intro other stored elsewhere kept
    rwa [OrderBook.getOrder_removeOrder, if_neg (Ne.symm elsewhere)] at kept
  · intro stored kept
    rw [OrderBook.getOrder_removeOrder, if_pos rfl] at kept
    cases kept
  · intro stop member
    refine ⟨member, fun same => ?_⟩
    have missing := apart stop member
    rw [same, found] at missing
    cases missing

/-- A cancellation of a live waiting order. -/
theorem Covers.cancelWaiting {book : OrderBook} {stops : List BookOrder} {order : BookOrder}
    (covers : Covers book (order :: stops) used replayed)
    (missing : book.getOrder order.orderId = none)
    (nodup : ((order :: stops).map BookOrder.orderId).Nodup) :
    ∃ next, replayed.applyCanceled order.orderId = .ok next ∧ Covers book stops used next := by
  obtain ⟨kept, keptMember, keyed, -⟩ := covers.waiting order List.mem_cons_self
  obtain ⟨next, applied, tidy, onlyAt, -⟩ :=
    canceled_succeeds covers.toTidy (Or.inr ⟨kept, keptMember, keyed⟩)
  rw [List.map_cons, List.nodup_cons] at nodup
  refine ⟨next, applied, covers.of_onlyAt tidy onlyAt (fun _ _ _ stored => stored) ?_ ?_⟩
  · intro stored found
    rw [missing] at found
    cases found
  · intro stop member
    exact ⟨List.mem_cons_of_mem order member, fun same =>
      nodup.1 (List.mem_map.2 ⟨stop, member, same⟩)⟩

theorem Tidy.gone_of_unused (tidy : replayed.Tidy used) (unused : orderId ∉ used) :
    Gone replayed orderId where
  book := by
    rw [Option.eq_none_iff_forall_ne_some]
    intro order found
    exact unused (tidy.bookUsed orderId order found)
  stops := by
    intro waits
    obtain ⟨stop, member, rfl⟩ := List.mem_map.1 waits
    exact unused (tidy.stopsUsed stop member)

/-- An acceptance of an order that replay does not hold. -/
theorem accepted_succeeds (tidy : replayed.Tidy used) {accepted : OrderAccepted}
    (gone : Gone replayed accepted.orderId) (known : accepted.orderId ∈ used)
    (unconditional : accepted.orderType.isConditional = false) :
    ∃ next, replayed.applyAccepted accepted = .ok next ∧ next.Tidy used ∧
      OnlyAt accepted.orderId replayed next ∧
      next.Exactly accepted.orderId (accepted.visibleQuantity.getD accepted.quantity) ∧
      accepted.orderId ∈ next.replaySeenOrderIds := by
  have tidyObserved : (replayed.observed accepted).Tidy used :=
    { tidy with
      stopsSeen := fun stop member => List.mem_cons_of_mem _ (tidy.stopsSeen stop member) }
  have onlyObserved : OnlyAt accepted.orderId replayed (replayed.observed accepted) :=
    ⟨fun _ _ => rfl, fun _ _ => Iff.rfl, List.subset_cons_self _ _⟩
  have elsewhere : ∀ other, other ≠ accepted.orderId →
      (replayed.orderbook.insertOrder (rebuiltOrder accepted)).getOrder other =
        (replayed.observed accepted).orderbook.getOrder other := by
    intro other apart
    rw [OrderBook.getOrder_insertOrder, rebuiltOrder_orderId, if_neg (Ne.symm apart)]
    rfl
  obtain ⟨tidyNext, onlyAt⟩ := tidyObserved.changeBook gone.stops known elsewhere
  refine ⟨_, applyAccepted_resting gone.book unconditional, tidyNext, onlyObserved.trans onlyAt,
    ⟨rebuiltOrder accepted, ?_, rfl⟩, List.mem_cons_self⟩
  simp [OrderBook.getOrder_insertOrder]

/-- An acceptance of a conditional order, which waits live and in replay. -/
theorem Covers.acceptWaiting {book : OrderBook} {stops : List BookOrder} {order : BookOrder}
    (covers : Covers book stops used replayed) {accepted : OrderAccepted}
    (gone : Gone replayed accepted.orderId) (known : accepted.orderId ∈ used)
    (conditional : accepted.orderType.isConditional = true)
    (keyed : order.orderId = accepted.orderId) (sameType : order.orderType = accepted.orderType)
    (enough : order.remainingQty ≤ accepted.visibleQuantity.getD accepted.quantity) :
    ∃ next, replayed.applyAccepted accepted = .ok next ∧
      Covers book (stops ++ [order]) used next := by
  have split : ∀ {stop}, stop ∈ replayed.stopOrders ++ [rebuiltOrder accepted] →
      stop ∈ replayed.stopOrders ∨ stop = rebuiltOrder accepted := by
    intro stop member
    simpa using member
  refine ⟨_, applyAccepted_waiting gone.book conditional, ⟨?_, ?_, covers.bookUsed, ?_, ?_⟩, ?_, ?_⟩
  · intro stop member
    rcases split member with earlier | rfl
    · exact covers.apart stop earlier
    · exact gone.book
  · rw [List.map_append, List.nodup_append]
    refine ⟨covers.nodup, by simp, ?_⟩
    rintro orderId earlier other last rfl
    rw [List.map_singleton, List.mem_singleton] at last
    rw [last] at earlier
    exact gone.stops earlier
  · intro stop member
    rcases split member with earlier | rfl
    · exact covers.stopsUsed stop earlier
    · exact known
  · intro stop member
    rcases split member with earlier | rfl
    · exact List.mem_cons_of_mem _ (covers.stopsSeen stop earlier)
    · exact List.mem_cons_self
  · intro orderId stored found
    rcases covers.resting orderId stored found with onBook | ⟨stop, member, rest⟩
    · exact Or.inl onBook
    · exact Or.inr ⟨stop, List.mem_append_left _ member, rest⟩
  · intro stop member
    rcases List.mem_append.1 member with earlier | last
    · obtain ⟨kept, keptMember, rest⟩ := covers.waiting stop earlier
      exact ⟨kept, List.mem_append_left _ keptMember, rest⟩
    · rw [List.mem_singleton.1 last]
      exact ⟨rebuiltOrder accepted, List.mem_append_right _ List.mem_cons_self, keyed.symm,
        sameType.symm, enough⟩

/-- A leg of an order on the replayed book leaves what it says. -/
theorem restingLeg_succeeds (tidy : replayed.Tidy used) {leg : OrderFilled}
    (held : replayed.OnBook leg.orderId leg.fillQty) :
    ∃ next, replayed.applyFilled leg = .ok next ∧ next.Tidy used ∧
      OnlyAt leg.orderId replayed next ∧
      (leg.remainingQty = 0 → Gone next leg.orderId) ∧
      (leg.remainingQty ≠ 0 → next.Exactly leg.orderId leg.remainingQty) := by
  obtain ⟨kept, found, fits⟩ := held
  have elsewhere : ∀ other, other ≠ leg.orderId →
      (replayed.orderbook.takeFrom leg.orderId leg.remainingQty).getOrder other =
        replayed.orderbook.getOrder other := by
    intro other apart
    rw [OrderBook.getOrder_takeFrom, if_neg (Ne.symm apart)]
  obtain ⟨tidyNext, onlyAt⟩ := tidy.changeBook (tidy.notWaiting found)
    (tidy.bookUsed _ kept found) elsewhere
  refine ⟨_, applyFilled_resting found fits, tidyNext, onlyAt, ?_, ?_⟩
  · intro nothing
    refine ⟨?_, tidy.notWaiting found⟩
    simp [OrderBook.getOrder_takeFrom, nothing]
  · intro left
    exact ⟨kept.withRemaining leg.remainingQty, by
      simp [OrderBook.getOrder_takeFrom, left, found], rfl⟩

/-- A leg of an order that waits in replay promotes it. -/
theorem triggeredLeg_succeeds (tidy : replayed.Tidy used) {leg : OrderFilled} {stop : BookOrder}
    (member : stop ∈ replayed.stopOrders) (keyed : stop.orderId = leg.orderId)
    (fits : leg.fillQty ≤ stop.remainingQty) :
    ∃ next, replayed.applyFilled leg = .ok next ∧ next.Tidy used ∧
      OnlyAt leg.orderId replayed next ∧
      (leg.remainingQty = 0 ∨ (convertTriggered stop).orderType.isLimit = false →
        Gone next leg.orderId) ∧
      (leg.remainingQty ≠ 0 → (convertTriggered stop).orderType.isLimit = true →
        next.Exactly leg.orderId leg.remainingQty) := by
  have missing := tidy.apart stop member
  have waiting := tidy.find member
  rw [keyed] at missing waiting
  have applied := applyFilled_waiting missing waiting fits
  obtain ⟨tidyLeft, onlyLeft, goneLeft⟩ := tidy.dropStop member
    (swapRemoveFirst_perm (fun other => other.orderId = stop.orderId) replayed.stopOrders)
  let left : MatchingEngine := { replayed with
    stopOrders := swapRemoveFirst (fun other => other.orderId = stop.orderId) replayed.stopOrders }
  have onlyHere : OnlyAt leg.orderId replayed left := by
    rw [← keyed]
    exact onlyLeft
  have goneHere : Gone left leg.orderId := by
    rw [← keyed]
    exact goneLeft
  by_cases promoted : leg.remainingQty ≠ 0 ∧ (convertTriggered stop).orderType.isLimit = true
  · obtain ⟨sameId, -⟩ := convertTriggered_frame stop
    have isOrder : (convertTriggered stop).orderId = leg.orderId := sameId.trans keyed
    let after := replayed.orderbook.insertOrder
      ((convertTriggered stop).withRemaining leg.remainingQty)
    have elsewhere : ∀ other, other ≠ leg.orderId → after.getOrder other =
        left.orderbook.getOrder other := by
      intro other apart
      simp only [after, OrderBook.getOrder_insertOrder, BookOrder.withRemaining_orderId, isOrder]
      rw [if_neg (Ne.symm apart)]
    obtain ⟨tidyNext, onlyAt⟩ := tidyLeft.changeBook goneHere.stops
      (keyed ▸ tidy.stopsUsed stop member) elsewhere
    rw [promote, if_pos promoted] at applied
    refine ⟨_, applied, tidyNext, onlyHere.trans onlyAt, ?_, ?_⟩
    · rintro (nothing | market)
      · exact absurd nothing promoted.1
      · rw [promoted.2] at market
        cases market
    · intro _ _
      refine ⟨(convertTriggered stop).withRemaining leg.remainingQty, ?_, rfl⟩
      simp [OrderBook.getOrder_insertOrder, isOrder]
  · rw [promote, if_neg promoted] at applied
    refine ⟨_, applied, tidyLeft, onlyHere, fun _ => goneHere, fun some limited => ?_⟩
    exact absurd ⟨some, limited⟩ promoted

/-! ## Sweeps -/

/-- Where replay has a taker once a leg has settled it: with what is left on the book if it
stays there, and nowhere otherwise. -/
def Settled (replayed : MatchingEngine) (takerId : OrderId) (left : Decimal128) (stays : Prop) :
    Prop :=
  (stays ∧ left ≠ 0 ∧ replayed.Exactly takerId left) ∨
    (¬stays ∧ replayed.Gone takerId ∧ takerId ∈ replayed.replaySeenOrderIds)

theorem OnlyAt.settled {takerId : OrderId} {left : Decimal128} {stays : Prop}
    (onlyAt : OnlyAt orderId replayed next) (apart : takerId ≠ orderId)
    (settled : replayed.Settled takerId left stays) : next.Settled takerId left stays := by
  rcases settled with ⟨kept, some, order, found, exactly⟩ | ⟨dropped, gone, seen⟩
  · exact Or.inl ⟨kept, some, order, (onlyAt.getOrder _ apart).trans found, exactly⟩
  · refine Or.inr ⟨dropped, ⟨(onlyAt.getOrder _ apart).trans gone.book, ?_⟩, onlyAt.seen seen⟩
    intro waits
    obtain ⟨stop, member, same⟩ := List.mem_map.1 waits
    exact gone.stops (List.mem_map.2 ⟨stop, (onlyAt.stops stop (same ▸ apart)).1 member, same⟩)

section Sweep

variable {config : SymbolConfig} {source book after : OrderBook} {symbol : SymbolId}
variable {timestamp : UnixMicros} {taker result : BookOrder} {gen : TradeIdGen}
variable {shares : List (OrderId × Decimal128)} {share : OrderId × Decimal128}
variable {stops : List BookOrder} {leg : OrderFilled}

/-- A maker's leg fits, and leaves in replay what it leaves live. -/
theorem makerLeg_succeeds (covers : Covers book stops used replayed) {maker : BookOrder}
    (found : book.getOrder leg.orderId = some maker) (fits : leg.fillQty ≤ maker.remainingQty)
    (apart : ∀ stop ∈ stops, stop.orderId ≠ leg.orderId) :
    ∃ next, replayed.applyFilled leg = .ok next ∧ OnlyAt leg.orderId replayed next ∧
      Covers (book.takeFrom leg.orderId leg.remainingQty) stops used next := by
  have taken : ∃ next, replayed.applyFilled leg = .ok next ∧ next.Tidy used ∧
      OnlyAt leg.orderId replayed next ∧
      (leg.remainingQty ≠ 0 → next.Exactly leg.orderId leg.remainingQty) := by
    rcases covers.resting leg.orderId maker found with
      ⟨kept, stored, enough⟩ | ⟨stop, member, keyed, enough, limited⟩
    · obtain ⟨next, applied, tidy, onlyAt, -, exactly⟩ :=
        restingLeg_succeeds covers.toTidy ⟨kept, stored, fits.trans enough⟩
      exact ⟨next, applied, tidy, onlyAt, exactly⟩
    · obtain ⟨next, applied, tidy, onlyAt, -, exactly⟩ :=
        triggeredLeg_succeeds covers.toTidy member keyed (fits.trans enough)
      exact ⟨next, applied, tidy, onlyAt, fun some => exactly some limited⟩
  obtain ⟨next, applied, tidy, onlyAt, exactly⟩ := taken
  refine ⟨next, applied, onlyAt, covers.of_onlyAt tidy onlyAt ?_ ?_
    fun stop member => ⟨member, apart stop member⟩⟩
  · intro other order elsewhere stored
    rwa [OrderBook.getOrder_takeFrom, if_neg (Ne.symm elsewhere)] at stored
  · intro order stored
    rw [OrderBook.getOrder_takeFrom, if_pos rfl] at stored
    split at stored
    · cases stored
    · rename_i some
      obtain ⟨kept, keptFound, same⟩ := exactly some
      obtain ⟨before, -, rfl⟩ := Option.map_eq_some_iff.1 stored
      exact Or.inl ⟨kept, keptFound, same.ge⟩

/-- A later leg of a settled taker fits, and changes nothing that is live. -/
theorem takerLeg_succeeds (covers : Covers book stops used replayed) {stays : Prop}
    (missing : book.getOrder leg.orderId = none)
    (apart : ∀ stop ∈ stops, stop.orderId ≠ leg.orderId)
    (settled : replayed.Settled leg.orderId leg.remainingQty stays)
    (fits : stays → leg.fillQty ≤ leg.remainingQty) :
    ∃ next, replayed.applyFilled leg = .ok next ∧ Covers book stops used next ∧
      next.Settled leg.orderId leg.remainingQty stays := by
  rcases settled with ⟨kept, some, order, found, same⟩ | ⟨dropped, gone, seen⟩
  · obtain ⟨next, applied, tidy, onlyAt, -, exactly⟩ := restingLeg_succeeds covers.toTidy
      ⟨order, found, (fits kept).trans same.ge⟩
    refine ⟨next, applied, covers.of_onlyAt tidy onlyAt (fun _ _ _ stored => stored) ?_
      fun stop member => ⟨member, apart stop member⟩, Or.inl ⟨kept, some, exactly some⟩⟩
    intro order stored
    rw [missing] at stored
    cases stored
  · exact ⟨replayed, applyFilled_settled gone.book gone.stops seen, covers,
      Or.inr ⟨dropped, gone, seen⟩⟩

/-- The two legs of a share, and the records that follow. -/
theorem follow_legs {maker : BookOrder} {reached : MatchingEngine → Prop}
    (found : source.getOrder share.1 = some maker)
    (legs : ∀ makerLeg takerLeg : OrderFilled,
      makerLeg.orderId = share.1 → makerLeg.fillQty = share.2 →
      makerLeg.remainingQty = after.remaining share.1 →
      takerLeg.orderId = taker.orderId → takerLeg.fillQty = share.2 →
      takerLeg.remainingQty = result.remainingQty →
      ∃ middle next, replayed.applyFilled makerLeg = .ok middle ∧
        middle.applyFilled takerLeg = .ok next ∧
        ∃ final, follow applyEvent next (emitFillEvents config after symbol timestamp result
          gen.nextId.2 (fillsOf source taker shares)).2 = .ok final ∧ reached final) :
    ∃ final, follow applyEvent replayed (emitFillEvents config after symbol timestamp result gen
      (fillsOf source taker (share :: shares))).2 = .ok final ∧ reached final := by
  rw [fillsOf_cons found, emitFillEvents]
  obtain ⟨makerLeg, takerLeg, trade, events, ⟨makerId, makerFill, makerLeft⟩, takerId, takerFill,
    takerLeft⟩ := fillEvents_legs config after symbol timestamp result gen.nextId.1
      (fillAgainst taker maker share.1 share.2)
  obtain ⟨middle, next, first, second, final, later, holds⟩ :=
    legs makerLeg takerLeg makerId makerFill makerLeft takerId takerFill takerLeft
  have makerApplied : applyEvent replayed (.orderFilled makerLeg) = .ok middle := first
  have takerApplied : applyEvent middle (.orderFilled takerLeg) = .ok next := second
  have tradeApplied : applyEvent next (.tradeExecuted trade) = .ok next := rfl
  simp only [events, List.cons_append, List.nil_append]
  rw [follow_cons_of_ok makerApplied, follow_cons_of_ok takerApplied,
    follow_cons_of_ok tradeApplied]
  exact ⟨final, later, holds⟩

/-- The shares of a walk are within what their makers have. -/
structure Bounded (book : OrderBook) (stops : List BookOrder) (takerId : OrderId)
    (shares : List (OrderId × Decimal128)) : Prop where
  shares : ∀ share ∈ shares, share.2 ≤ book.remaining share.1
  stops : ∀ stop ∈ stops, book.getOrder stop.orderId = none ∧ stop.orderId ≠ takerId

theorem Bounded.tail (bounded : Bounded book stops taker.orderId (share :: shares))
    (drawn : Drawn book after taker.orderId (share :: shares)) :
    Bounded (book.takeFrom share.1 (after.remaining share.1)) stops taker.orderId shares := by
  have nodup := drawn.nodup
  rw [List.map_cons, List.nodup_cons] at nodup
  refine ⟨fun later member => ?_, fun stop member => ⟨?_, (bounded.stops stop member).2⟩⟩
  · have apart : share.1 ≠ later.1 := fun same => nodup.1 (same ▸ List.mem_map_of_mem member)
    rw [OrderBook.remaining, OrderBook.getOrder_takeFrom, if_neg apart]
    exact bounded.shares later (List.mem_cons_of_mem share member)
  · have absent := (bounded.stops stop member).1
    have apart : share.1 ≠ stop.orderId := by
      intro same
      have stored := drawn.stored share List.mem_cons_self
      rw [same, absent] at stored
      cases stored
    rw [OrderBook.getOrder_takeFrom, if_neg apart, absent]

/-- The maker's leg of the first share of a walk. -/
theorem firstMakerLeg_succeeds (covers : Covers book stops used replayed)
    (drawn : Drawn book after taker.orderId (share :: shares))
    (bounded : Bounded book stops taker.orderId (share :: shares))
    (keyed : leg.orderId = share.1) (fill : leg.fillQty = share.2)
    (left : leg.remainingQty = after.remaining share.1) :
    ∃ next, replayed.applyFilled leg = .ok next ∧ OnlyAt share.1 replayed next ∧
      Covers (book.takeFrom share.1 (after.remaining share.1)) stops used next := by
  obtain ⟨maker, found⟩ := Option.isSome_iff_exists.1 (drawn.stored share List.mem_cons_self)
  have fits := bounded.shares share List.mem_cons_self
  rw [OrderBook.remaining_of_some found] at fits
  have apart : ∀ stop ∈ stops, stop.orderId ≠ share.1 := by
    intro stop member same
    have absent := (bounded.stops stop member).1
    rw [same, found] at absent
    cases absent
  rw [← keyed] at found apart
  rw [← fill] at fits
  have succeeds := makerLeg_succeeds covers found fits apart
  rwa [left, keyed] at succeeds

/-- The first share of a walk replays once its taker's leg and what follows do. -/
theorem firstShare_succeeds {reached : MatchingEngine → Prop}
    (covers : Covers book stops used replayed)
    (drawn : Drawn book after taker.orderId (share :: shares))
    (bounded : Bounded book stops taker.orderId (share :: shares))
    (sourced : (source.getOrder share.1).isSome)
    (goesOn : ∀ (takerLeg : OrderFilled) (middle : MatchingEngine),
      takerLeg.orderId = taker.orderId → takerLeg.fillQty = share.2 →
      takerLeg.remainingQty = result.remainingQty → OnlyAt share.1 replayed middle →
      Covers (book.takeFrom share.1 (after.remaining share.1)) stops used middle →
      ∃ next, middle.applyFilled takerLeg = .ok next ∧
        ∃ final, follow applyEvent next (emitFillEvents config after symbol timestamp result
          gen.nextId.2 (fillsOf source taker shares)).2 = .ok final ∧ reached final) :
    ∃ final, follow applyEvent replayed (emitFillEvents config after symbol timestamp result gen
      (fillsOf source taker (share :: shares))).2 = .ok final ∧ reached final := by
  obtain ⟨maker, found⟩ := Option.isSome_iff_exists.1 sourced
  apply follow_legs found
  intro makerLeg takerLeg makerId makerFill makerLeft takerId takerFill takerLeft
  obtain ⟨middle, first, onlyMaker, coversMiddle⟩ :=
    firstMakerLeg_succeeds covers drawn bounded makerId makerFill makerLeft
  obtain ⟨next, second, later⟩ :=
    goesOn takerLeg middle takerId takerFill takerLeft onlyMaker coversMiddle
  exact ⟨middle, next, first, second, later⟩

/-- Once the taker is settled, the rest of its sweep replays. -/
theorem settledSweep_succeeds (covers : Covers book stops used replayed) {stays : Prop}
    (drawn : Drawn book after taker.orderId shares)
    (bounded : Bounded book stops taker.orderId shares)
    (sourced : ∀ share ∈ shares, (source.getOrder share.1).isSome)
    (settled : replayed.Settled taker.orderId result.remainingQty stays)
    (fits : stays → ∀ share ∈ shares, share.2 ≤ result.remainingQty) :
    ∃ final, follow applyEvent replayed (emitFillEvents config after symbol timestamp result gen
        (fillsOf source taker shares)).2 = .ok final ∧
      Covers (book.takeOut shares) stops used final ∧
      final.Settled taker.orderId result.remainingQty stays := by
  induction shares generalizing book replayed gen with
  | nil => exact ⟨replayed, rfl, covers, settled⟩
  | cons share rest inductionHypothesis =>
      rw [OrderBook.takeOut, ← drawn.left share List.mem_cons_self]
      apply firstShare_succeeds covers drawn bounded (sourced share List.mem_cons_self)
      intro takerLeg middle takerId takerFill takerLeft onlyMaker coversMiddle
      have other : taker.orderId ≠ share.1 := Ne.symm (drawn.other List.mem_cons_self)
      have settledMiddle := onlyMaker.settled other settled
      have missing := drawn.tail.missing
      have apart := fun stop member => (bounded.stops stop member).2
      have fitsHere := fun kept => fits kept share List.mem_cons_self
      rw [← takerId] at missing apart
      rw [← takerId, ← takerLeft] at settledMiddle
      rw [← takerFill, ← takerLeft] at fitsHere
      obtain ⟨next, second, coversNext, settledNext⟩ :=
        takerLeg_succeeds coversMiddle missing apart settledMiddle fitsHere
      rw [takerId, takerLeft] at settledNext
      exact ⟨next, second, inductionHypothesis coversNext drawn.tail
        (bounded.tail drawn) (fun later member => sourced later (List.mem_cons_of_mem share member))
        settledNext fun kept later member => fits kept later (List.mem_cons_of_mem share member)⟩

/-- The sweep of an order that its acceptance has put on the replayed book. -/
theorem acceptedSweep_succeeds (covers : Covers book stops used replayed)
    {rebuilt : Decimal128} (drawn : Drawn book after taker.orderId (share :: shares))
    (bounded : Bounded book stops taker.orderId (share :: shares))
    (sourced : ∀ later ∈ share :: shares, (source.getOrder later.1).isSome)
    (kept : replayed.Exactly taker.orderId rebuilt)
    (seen : taker.orderId ∈ replayed.replaySeenOrderIds) (fits : share.2 ≤ rebuilt)
    (fitsLater : result.remainingQty ≠ 0 → ∀ later ∈ shares, later.2 ≤ result.remainingQty) :
    ∃ final, follow applyEvent replayed (emitFillEvents config after symbol timestamp result gen
        (fillsOf source taker (share :: shares))).2 = .ok final ∧
      Covers (book.takeOut (share :: shares)) stops used final ∧
      final.Settled taker.orderId result.remainingQty (result.remainingQty ≠ 0) := by
  rw [OrderBook.takeOut, ← drawn.left share List.mem_cons_self]
  apply firstShare_succeeds covers drawn bounded (sourced share List.mem_cons_self)
  intro takerLeg middle takerId takerFill takerLeft onlyMaker coversMiddle
  have other : taker.orderId ≠ share.1 := Ne.symm (drawn.other List.mem_cons_self)
  obtain ⟨order, stored, same⟩ := kept
  have held : middle.OnBook takerLeg.orderId takerLeg.fillQty := by
    rw [takerId, takerFill]
    exact ⟨order, (onlyMaker.getOrder _ other).trans stored, same ▸ fits⟩
  obtain ⟨next, second, tidy, onlyTaker, gone, exactly⟩ :=
    restingLeg_succeeds coversMiddle.toTidy held
  rw [takerId, takerLeft] at gone exactly
  rw [takerId] at onlyTaker
  have coversNext := coversMiddle.of_onlyAt tidy onlyTaker (fun _ _ _ found => found)
    (by simp [drawn.tail.missing]) fun stop member => ⟨member, (bounded.stops stop member).2⟩
  have settledNext :
      next.Settled taker.orderId result.remainingQty (result.remainingQty ≠ 0) := by
    by_cases nothing : result.remainingQty = 0
    · exact Or.inr ⟨not_not.2 nothing, gone nothing, onlyTaker.seen (onlyMaker.seen seen)⟩
    · exact Or.inl ⟨nothing, nothing, exactly nothing⟩
  exact ⟨next, second, settledSweep_succeeds coversNext drawn.tail
    (bounded.tail drawn) (fun later member => sourced later (List.mem_cons_of_mem share member))
    settledNext fitsLater⟩

/-- The sweep of an order that waits in replay. -/
theorem triggeredSweep_succeeds (covers : Covers book stops used replayed) {stop : BookOrder}
    (drawn : Drawn book after taker.orderId (share :: shares))
    (bounded : Bounded book stops taker.orderId (share :: shares))
    (sourced : ∀ later ∈ share :: shares, (source.getOrder later.1).isSome)
    (member : stop ∈ replayed.stopOrders) (keyed : stop.orderId = taker.orderId)
    (fits : share.2 ≤ stop.remainingQty)
    (fitsLater : result.remainingQty ≠ 0 → (convertTriggered stop).orderType.isLimit = true →
      ∀ later ∈ shares, later.2 ≤ result.remainingQty) :
    ∃ final, follow applyEvent replayed (emitFillEvents config after symbol timestamp result gen
        (fillsOf source taker (share :: shares))).2 = .ok final ∧
      Covers (book.takeOut (share :: shares)) stops used final ∧
      final.Settled taker.orderId result.remainingQty
        (result.remainingQty ≠ 0 ∧ (convertTriggered stop).orderType.isLimit = true) := by
  rw [OrderBook.takeOut, ← drawn.left share List.mem_cons_self]
  apply firstShare_succeeds covers drawn bounded (sourced share List.mem_cons_self)
  intro takerLeg middle takerId takerFill takerLeft onlyMaker coversMiddle
  have other : taker.orderId ≠ share.1 := Ne.symm (drawn.other List.mem_cons_self)
  have waits : stop ∈ middle.stopOrders := (onlyMaker.stops stop (keyed ▸ other)).2 member
  obtain ⟨next, second, tidy, onlyTaker, gone, exactly⟩ :=
    triggeredLeg_succeeds coversMiddle.toTidy waits (keyed.trans takerId.symm) (takerFill ▸ fits)
  rw [takerId, takerLeft] at gone exactly
  rw [takerId] at onlyTaker
  have coversNext := coversMiddle.of_onlyAt tidy onlyTaker (fun _ _ _ found => found)
    (by simp [drawn.tail.missing]) fun stop member => ⟨member, (bounded.stops stop member).2⟩
  have seen : taker.orderId ∈ next.replaySeenOrderIds :=
    onlyTaker.seen (keyed ▸ coversMiddle.stopsSeen stop waits)
  have settledNext : next.Settled taker.orderId result.remainingQty
      (result.remainingQty ≠ 0 ∧ (convertTriggered stop).orderType.isLimit = true) := by
    by_cases promoted : result.remainingQty ≠ 0 ∧ (convertTriggered stop).orderType.isLimit = true
    · exact Or.inl ⟨promoted, promoted.1, exactly promoted.1 promoted.2⟩
    · refine Or.inr ⟨promoted, gone ?_, seen⟩
      by_cases nothing : result.remainingQty = 0
      · exact Or.inl nothing
      · exact Or.inr (by simpa [nothing] using promoted)
  exact ⟨next, second, settledSweep_succeeds coversNext drawn.tail
    (bounded.tail drawn) (fun later member => sourced later (List.mem_cons_of_mem share member))
    settledNext fun promoted => fitsLater promoted.1 promoted.2⟩

end Sweep
end MatchingEngine
end Exg
