import Exg.Matching.CancelAll
import Exg.Matching.Snapshot
import Exg.Matching.TimeInForce

/-!
# GTD expiry

The expiry heap is kept apart from the orders.  An order enters it when what is left of it
after its first match rests on the book.  An order that was submitted as conditional rests
later, or waits, and never enters: the sweep cancels exactly the due orders among the
others.
-/

namespace Exg

open Support

namespace MatchingEngine

/-! ## The sweep -/

section Sweep

variable {now : UnixMicros} {book : OrderBook} {entries : List (UnixMicros × OrderId)}

/-- The ids under the entries that the sweep pops. -/
def dueIds (now : UnixMicros) (entries : List (UnixMicros × OrderId)) : List OrderId :=
  (entries.takeWhile fun entry => decide (entry.1 ≤ now)).map Prod.snd

private theorem dueIds_cons_of_lt {entry : UnixMicros × OrderId}
    {rest : List (UnixMicros × OrderId)}
    (later : now < entry.1) : dueIds now (entry :: rest) = [] := by
  rw [dueIds, List.takeWhile_cons_of_neg (by simpa using later), List.map_nil]

private theorem dueIds_cons_of_le {entry : UnixMicros × OrderId}
    {rest : List (UnixMicros × OrderId)}
    (due : ¬now < entry.1) : dueIds now (entry :: rest) = entry.2 :: dueIds now rest := by
  rw [dueIds, List.takeWhile_cons_of_pos (by simpa using due), List.map_cons, ← dueIds]

theorem mem_dueIds (sorted : entries.Pairwise DueBefore) {orderId : OrderId} :
    orderId ∈ dueIds now entries ↔ ∃ expire ≤ now, (expire, orderId) ∈ entries := by
  induction entries with
  | nil => simp [dueIds]
  | cons entry rest inductionHypothesis =>
      obtain ⟨first, restSorted⟩ := List.pairwise_cons.1 sorted
      by_cases later : now < entry.1
      · rw [dueIds_cons_of_lt later]
        refine iff_of_false List.not_mem_nil ?_
        rintro ⟨expire, due, member⟩
        rcases List.mem_cons.1 member with rfl | behind
        · exact absurd due (not_le.2 later)
        · have ahead := first _ behind
          simp only [DueBefore, UnixMicros, OrderId] at ahead due later
          omega
      · rw [dueIds_cons_of_le later, List.mem_cons, inductionHypothesis restSorted]
        constructor
        · rintro (rfl | ⟨expire, due, member⟩)
          · exact ⟨entry.1, not_lt.1 later, List.mem_cons_self⟩
          · exact ⟨expire, due, List.mem_cons_of_mem _ member⟩
        · rintro ⟨expire, due, member⟩
          rcases List.mem_cons.1 member with rfl | behind
          · exact Or.inl rfl
          · exact Or.inr ⟨expire, due, behind⟩

private theorem expireEntries_heap :
    (expireEntries now book entries).2.1 =
      entries.dropWhile fun entry => decide (entry.1 ≤ now) := by
  induction entries generalizing book with
  | nil => rfl
  | cons entry rest inductionHypothesis =>
      by_cases later : now < entry.1
      · rw [expireEntries, if_pos later, List.dropWhile_cons_of_neg (by simpa using later)]
      · rw [expireEntries, if_neg later, List.dropWhile_cons_of_pos (by simpa using later)]
        cases book.getOrder entry.2 with
        | none => exact inductionHypothesis
        | some order => exact inductionHypothesis

theorem getOrder_expireEntries (orderId : OrderId) :
    (expireEntries now book entries).1.getOrder orderId =
      if orderId ∈ dueIds now entries then none else book.getOrder orderId := by
  induction entries generalizing book with
  | nil => simp [expireEntries, dueIds]
  | cons entry rest inductionHypothesis =>
      by_cases later : now < entry.1
      · rw [expireEntries, if_pos later, dueIds_cons_of_lt later, if_neg List.not_mem_nil]
      · rw [expireEntries, if_neg later, dueIds_cons_of_le later]
        cases found : book.getOrder entry.2 with
        | none =>
            refine inductionHypothesis.trans ?_
            by_cases own : orderId = entry.2
            · simp [own, found]
            · simp [own]
        | some order =>
            refine inductionHypothesis.trans ?_
            rw [OrderBook.getOrder_removeOrder]
            by_cases own : orderId = entry.2
            · simp [own]
            · simp [own, Ne.symm own]

private theorem mem_expireEntries {event : Event} :
    event ∈ (expireEntries now book entries).2.2 ↔
      ∃ orderId ∈ dueIds now entries, ∃ order, book.getOrder orderId = some order ∧
        event = .orderCanceled orderId order.userId order.symbol order.remainingQty now := by
  induction entries generalizing book with
  | nil => simp [expireEntries, dueIds]
  | cons entry rest inductionHypothesis =>
      by_cases later : now < entry.1
      · rw [expireEntries, if_pos later, dueIds_cons_of_lt later]
        simp
      · rw [expireEntries, if_neg later, dueIds_cons_of_le later, List.exists_mem_cons_iff]
        cases found : book.getOrder entry.2 with
        | none => simpa using inductionHypothesis
        | some order =>
            rw [List.mem_cons, inductionHypothesis]
            constructor
            · rintro (rfl | ⟨orderId, due, other, stored, rfl⟩)
              · exact Or.inl ⟨order, rfl, rfl⟩
              · rw [OrderBook.getOrder_removeOrder] at stored
                split at stored
                · cases stored
                · exact Or.inr ⟨orderId, due, other, stored, rfl⟩
            · rintro (⟨other, same, rfl⟩ | ⟨orderId, due, other, stored, rfl⟩)
              · cases same
                exact Or.inl rfl
              · by_cases own : entry.2 = orderId
                · subst own
                  rw [found] at stored
                  cases stored
                  exact Or.inl rfl
                · refine Or.inr ⟨orderId, due, other, ?_, rfl⟩
                  rw [OrderBook.getOrder_removeOrder, if_neg own]
                  exact stored

private theorem canceledIds_expireEntries_nodup :
    (canceledIds (expireEntries now book entries).2.2).Nodup := by
  induction entries generalizing book with
  | nil => exact List.nodup_nil
  | cons entry rest inductionHypothesis =>
      rw [expireEntries]
      split
      · exact List.nodup_nil
      · cases found : book.getOrder entry.2 with
        | none => exact inductionHypothesis
        | some order =>
            refine List.nodup_cons.2 ⟨fun again => ?_, inductionHypothesis⟩
            obtain ⟨event, emitted, isOwn⟩ := List.mem_filterMap.1 again
            obtain ⟨orderId, -, other, stored, rfl⟩ := mem_expireEntries.1 emitted
            cases isOwn
            rw [OrderBook.getOrder_removeOrder, if_pos rfl] at stored
            cases stored

end Sweep
/-! ## What the heap covers -/

/-- An order stands for a submitted one: it has its id and its expiry. -/
structure SubmittedAs (order : BookOrder) (source : NewOrder) : Prop where
  sameId : order.orderId = source.orderId
  expiry : order.expireTime = defaultExpiry source.timeInForce source.timestamp

/-- A waiting order was submitted as conditional. -/
def WaitsAs (submitted : List NewOrder) (order : BookOrder) : Prop :=
  ∃ source ∈ submitted, SubmittedAs order source ∧ source.orderType.isConditional = true

/-- A resting order was submitted, and unless that was as a conditional order, its expiry is
on the heap. -/
def Covered (submitted : List NewOrder) (heap : List (UnixMicros × OrderId))
    (order : BookOrder) : Prop :=
  ∃ source ∈ submitted, SubmittedAs order source ∧
    (source.orderType.isConditional = false →
      ∀ expire, order.expireTime = some expire → (expire, order.orderId) ∈ heap)

/-- What the heap says about the live orders. -/
structure ExpiryTracked (submitted : List NewOrder) (engine : MatchingEngine) : Prop where
  resting : engine.orderbook.Every (Covered submitted engine.expiryHeap)
  waiting : ∀ stop ∈ engine.stopOrders, WaitsAs submitted stop
  entered : ∀ entry ∈ engine.expiryHeap, ∃ source ∈ submitted, source.orderId = entry.2 ∧
    source.orderType.isConditional = false ∧
    defaultExpiry source.timeInForce source.timestamp = some entry.1

section Covered

variable {submitted more : List NewOrder} {heap larger : List (UnixMicros × OrderId)}
variable {order other : BookOrder}

theorem Covered.congr (covered : Covered submitted heap order)
    (sameId : other.orderId = order.orderId) (sameExpiry : other.expireTime = order.expireTime) :
    Covered submitted heap other := by
  obtain ⟨source, member, as, onHeap⟩ := covered
  refine ⟨source, member, ⟨sameId.trans as.sameId, sameExpiry.trans as.expiry⟩, ?_⟩
  rwa [sameId, sameExpiry]

theorem Covered.mono (covered : Covered submitted heap order) (grows : submitted ⊆ more)
    (pushed : heap ⊆ larger) : Covered more larger order := by
  obtain ⟨source, member, as, onHeap⟩ := covered
  exact ⟨source, grows member, as, fun plain expire known => pushed (onHeap plain expire known)⟩

theorem WaitsAs.congr (waits : WaitsAs submitted order) (sameId : other.orderId = order.orderId)
    (sameExpiry : other.expireTime = order.expireTime) : WaitsAs submitted other := by
  obtain ⟨source, member, as, conditional⟩ := waits
  exact ⟨source, member, ⟨sameId.trans as.sameId, sameExpiry.trans as.expiry⟩, conditional⟩

theorem WaitsAs.covered (waits : WaitsAs submitted order)
    (heap : List (UnixMicros × OrderId)) : Covered submitted heap order := by
  obtain ⟨source, member, as, conditional⟩ := waits
  refine ⟨source, member, as, fun plain => ?_⟩
  rw [conditional] at plain
  cases plain

private theorem every_covered_matchOrder {book : OrderBook}
    (every : book.Every (Covered submitted heap)) (taker : BookOrder) :
    (matchOrder book taker).book.Every (Covered submitted heap) :=
  every_matchOrder every fun _ _ covered => covered.congr rfl rfl

private theorem matchOrder_taker_keeps (book : OrderBook) (taker : BookOrder) :
    (matchOrder book taker).taker.orderId = taker.orderId ∧
      (matchOrder book taker).taker.expireTime = taker.expireTime := by
  obtain ⟨left, same⟩ := matchOrder_taker_withRemaining book taker
  rw [same]
  exact ⟨rfl, rfl⟩

private theorem refillIceberg_expireTime (timestamp : UnixMicros) (order : BookOrder) :
    (refillIceberg timestamp order).expireTime = order.expireTime := by
  rw [refillIceberg]
  split <;> rfl

end Covered

variable {engine : MatchingEngine} {submitted : List NewOrder}

private theorem ExpiryTracked.grow (tracked : ExpiryTracked submitted engine) {more : List NewOrder}
    (grows : submitted ⊆ more) : ExpiryTracked more engine where
  resting := fun orderId order found =>
    (tracked.resting orderId order found).mono grows (List.Subset.refl _)
  waiting := fun stop waits => by
    obtain ⟨source, member, as⟩ := tracked.waiting stop waits
    exact ⟨source, grows member, as⟩
  entered := fun entry member => by
    obtain ⟨source, known, as⟩ := tracked.entered entry member
    exact ⟨source, grows known, as⟩

/-! ### The handlers -/

private theorem mem_pushExpiry {entry other : UnixMicros × OrderId}
    {heap : List (UnixMicros × OrderId)} :
    other ∈ pushExpiry entry heap ↔ other = entry ∨ other ∈ heap := by
  rw [pushExpiry_eq, List.mem_orderedInsert]

/-- Resting a new order puts its expiry on the heap. -/
theorem ExpiryTracked.restOnBook (tracked : ExpiryTracked submitted engine) {order : BookOrder}
    {source : NewOrder} (member : source ∈ submitted) (as : SubmittedAs order source)
    (plain : source.orderType.isConditional = false) :
    ExpiryTracked submitted (engine.restOnBook order) := by
  cases expiry : order.expireTime with
  | none =>
      have heap : (engine.restOnBook order).expiryHeap = engine.expiryHeap := by
        rw [MatchingEngine.restOnBook, expiry]
        rfl
      constructor
      · rw [heap]
        refine tracked.resting.insertOrder ⟨source, member, as, fun _ expire known => ?_⟩
        rw [expiry] at known
        cases known
      · exact tracked.waiting
      · rw [heap]
        exact tracked.entered
  | some expire =>
      have heap : (engine.restOnBook order).expiryHeap =
          pushExpiry (expire, order.orderId) engine.expiryHeap := by
        rw [MatchingEngine.restOnBook, expiry]
        rfl
      constructor
      · rw [heap]
        refine OrderBook.Every.insertOrder (fun orderId other found => ?_)
          ⟨source, member, as, fun _ other known => ?_⟩
        · refine (tracked.resting orderId other found).mono (List.Subset.refl _) ?_
          exact fun entry earlier => mem_pushExpiry.2 (Or.inr earlier)
        · rw [expiry] at known
          cases known
          exact mem_pushExpiry.2 (Or.inl rfl)
      · exact tracked.waiting
      · rw [heap]
        intro entry pushed
        rcases mem_pushExpiry.1 pushed with rfl | earlier
        · exact ⟨source, member, as.sameId.symm, plain, as.expiry.symm.trans expiry⟩
        · exact tracked.entered entry earlier

theorem ExpiryTracked.newOrder (tracked : ExpiryTracked submitted engine) (order : NewOrder) :
    ExpiryTracked (submitted ++ [order]) (engine.handleNewOrder order).1 := by
  have grown := tracked.grow (List.subset_append_left submitted [order])
  have member : order ∈ submitted ++ [order] :=
    List.mem_append_right _ (List.mem_singleton_self _)
  rcases engine.handleNewOrder_cases order with
    ⟨reason, same⟩ | ⟨price, -, -, -, -, ⟨conditional, same⟩ | ⟨plain, same⟩⟩
  · rw [same]
    exact grown
  · rw [same]
    refine ⟨grown.resting, fun stop waits => ?_, grown.entered⟩
    rcases List.mem_append.1 waits with earlier | added
    · exact grown.waiting stop earlier
    · rw [List.mem_singleton.1 added]
      exact ⟨order, member, ⟨rfl, rfl⟩, conditional⟩
  · rw [same]
    let taker := newBookOrder engine.markPrice order price
    rcases engine.matchNewOrder_cases taker order.timestamp with ⟨-, matched⟩ | ⟨-, matched⟩
    · rw [matched]
      exact grown
    · rw [matched]
      let result := matchOrder engine.orderbook taker
      have absorbed : ExpiryTracked (submitted ++ [order])
          (engine.absorb result taker.symbol order.timestamp).1 :=
        ⟨every_covered_matchOrder grown.resting taker, grown.waiting, grown.entered⟩
      have kept := matchOrder_taker_keeps engine.orderbook taker
      have as : SubmittedAs (refillIceberg order.timestamp result.taker) order := by
        constructor
        · rw [refillIceberg_orderId]
          exact kept.1
        · rw [refillIceberg_expireTime]
          exact kept.2
      rcases (engine.absorb result taker.symbol order.timestamp).1.placeRemaining_cases
          (refillIceberg order.timestamp result.taker) order.timestamp with
        ⟨-, placed⟩ | ⟨-, -, placed⟩ | ⟨-, -, -, -, placed⟩
      · simp only [result] at placed
        simp only [placed]
        exact absorbed
      · simp only [result] at placed
        simp only [placed]
        exact absorbed
      · simp only [result] at placed
        simp only [placed]
        exact absorbed.restOnBook member as plain

theorem ExpiryTracked.cancelOrder (tracked : ExpiryTracked submitted engine) (orderId : OrderId)
    (userId : UserId) (timestamp : UnixMicros) :
    ExpiryTracked submitted (engine.handleCancelOrder orderId userId timestamp).1 := by
  rcases engine.handleCancelOrder_cases orderId userId timestamp with
    ⟨-, -, same⟩ | ⟨order, -, -, same⟩ | ⟨order, found, -, same⟩ | ⟨order, -, -, -, same⟩ |
      ⟨order, -, waits, -, same⟩
  · rw [same]
    exact tracked
  · rw [same]
    exact ⟨tracked.resting.removeOrder orderId, tracked.waiting, tracked.entered⟩
  · rw [same]
    have covered := tracked.resting orderId order found
    exact ⟨(tracked.resting.removeOrder orderId).insertOrder covered, tracked.waiting,
      tracked.entered⟩
  · rw [same]
    exact ⟨tracked.resting, fun stop kept => tracked.waiting stop (List.mem_of_mem_eraseP kept),
      tracked.entered⟩
  · rw [same]
    refine ⟨tracked.resting, fun stop kept => ?_, tracked.entered⟩
    rcases List.mem_append.1 kept with earlier | back
    · exact tracked.waiting stop (List.mem_of_mem_eraseP earlier)
    · rw [List.mem_singleton.1 back]
      exact tracked.waiting order (List.mem_of_find?_eq_some waits)

/-- An amended order keeps its id and its expiry. -/
theorem ExpiryTracked.amendOrder (tracked : ExpiryTracked submitted engine) (amend : AmendOrder) :
    ExpiryTracked submitted (engine.handleAmendOrder amend).1 := by
  rcases engine.handleAmendOrder_cases amend with
    ⟨reason, -, same⟩ | ⟨old, found, -, ⟨-, same⟩ | ⟨-, same⟩ | ⟨-, quantity, -, -, -, same⟩⟩
  · rw [same]
    exact tracked
  · rw [same]
    have removed := tracked.resting.removeOrder amend.orderId
    rcases engine.reinsertAmended_cases old amend with ⟨reason, -, taken⟩ | ⟨-, -, taken⟩
    · rw [taken]
      exact ⟨removed, tracked.waiting, tracked.entered⟩
    · rw [taken]
      have matched := every_covered_matchOrder removed (amendedOrder old amend)
      dsimp only
      split
      · exact ⟨matched, tracked.waiting, tracked.entered⟩
      · obtain ⟨sameId, sameExpiry⟩ := matchOrder_taker_keeps
          (engine.orderbook.removeOrder amend.orderId) (amendedOrder old amend)
        have covered := (tracked.resting _ old found).congr sameId sameExpiry
        exact ⟨matched.insertOrder covered, tracked.waiting, tracked.entered⟩
  · rw [same]
    exact tracked
  · rw [same]
    exact ⟨tracked.resting.updateQty (fun _ _ covered => covered.congr rfl rfl) _ _,
      tracked.waiting, tracked.entered⟩

theorem ExpiryTracked.cancelAll (tracked : ExpiryTracked submitted engine) (userId : UserId)
    (symbol : SymbolId) (timestamp : UnixMicros) :
    ExpiryTracked submitted (engine.handleCancelAll userId symbol timestamp).1 where
  resting := tracked.resting.cancelAllUserOrders userId
  waiting := fun stop kept =>
    tracked.waiting stop ((swapScan_perm _ _).subset (List.mem_append_right _ kept))
  entered := tracked.entered

private theorem triggerOne_covered {heap : List (UnixMicros × OrderId)}
    (every : engine.orderbook.Every (Covered submitted heap)) {order : BookOrder}
    (waits : WaitsAs submitted order) (timestamp : UnixMicros) :
    (engine.triggerOne order timestamp).1.orderbook.Every (Covered submitted heap) := by
  obtain ⟨sameId, -, -, -, -, sameExpiry, -⟩ := convertTriggered_frame order
  have matched := every_covered_matchOrder every (convertTriggered order)
  rcases engine.triggerOne_cases order timestamp with ⟨-, same⟩ | ⟨-, -, same⟩ | ⟨-, -, -, same⟩
  · rw [same]
    exact every
  · rw [same]
    exact matched
  · rw [same]
    obtain ⟨takerId, takerExpiry⟩ :=
      matchOrder_taker_keeps engine.orderbook (convertTriggered order)
    exact matched.insertOrder
      ((waits.covered heap).congr (takerId.trans sameId) (takerExpiry.trans sameExpiry))

private theorem triggerAll_covered {heap : List (UnixMicros × OrderId)} {pending : List BookOrder}
    (every : engine.orderbook.Every (Covered submitted heap))
    (waits : ∀ order ∈ pending, WaitsAs submitted order) (timestamp : UnixMicros) :
    (triggerAll timestamp engine pending).1.orderbook.Every (Covered submitted heap) := by
  induction pending generalizing engine with
  | nil => exact every
  | cons order rest inductionHypothesis =>
      exact inductionHypothesis
        (triggerOne_covered every (waits order List.mem_cons_self) timestamp)
        fun other later => waits other (List.mem_cons_of_mem order later)

private theorem updateTrailingPeak_expireTime (mark : Decimal128) (order : BookOrder) :
    (updateTrailingPeak mark order).expireTime = order.expireTime := by
  obtain ⟨peak, same⟩ := updateTrailingPeak_eq mark order
  rw [same]

theorem ExpiryTracked.updateMarkPrice (tracked : ExpiryTracked submitted engine)
    (symbol : SymbolId) (mark index : Decimal128) (timestamp : UnixMicros) :
    ExpiryTracked submitted (engine.updateMarkPrice symbol mark index timestamp).1 := by
  let passive := engine.applyMarkIndexPassive mark index
  let scanned := swapScan (shouldTrigger passive.markPrice) passive.stopOrders
  have peaked : ∀ stop ∈ passive.stopOrders, WaitsAs submitted stop := by
    intro stop member
    obtain ⟨old, earlier, rfl⟩ := List.mem_map.1 member
    exact (tracked.waiting old earlier).congr (updateTrailingPeak_orderId mark old)
      (updateTrailingPeak_expireTime mark old)
  have parts := (swapScan_perm (shouldTrigger passive.markPrice) passive.stopOrders).subset
  let remaining : MatchingEngine := { passive with stopOrders := scanned.2 }
  have resting : remaining.orderbook.Every (Covered submitted engine.expiryHeap) := tracked.resting
  have heap : (triggerAll timestamp remaining scanned.1).1.expiryHeap = engine.expiryHeap :=
    (touches_triggerAll timestamp scanned.1).2.2.2
  have covered : (triggerAll timestamp remaining scanned.1).1.orderbook.Every
      (Covered submitted engine.expiryHeap) :=
    triggerAll_covered resting
      (fun order member => peaked order (parts (List.mem_append_left _ member))) timestamp
  constructor
  · rw [MatchingEngine.updateMarkPrice, triggerAndMatchStops, heap]
    exact covered
  · rw [MatchingEngine.updateMarkPrice, triggerAndMatchStops, triggerAll_stopOrders]
    exact fun stop kept => peaked stop (parts (List.mem_append_right _ kept))
  · rw [MatchingEngine.updateMarkPrice, triggerAndMatchStops, heap]
    exact tracked.entered

/-- What stays on the book keeps its entry, since only entries of canceled orders go. -/
theorem ExpiryTracked.checkExpirations (tracked : ExpiryTracked submitted engine)
    (keyed : engine.orderbook.KeyedById) (now : UnixMicros) :
    ExpiryTracked submitted (engine.checkExpirations now).1 := by
  have split := List.takeWhile_append_dropWhile (l := engine.expiryHeap)
    (p := fun entry => decide (entry.1 ≤ now))
  constructor
  · intro orderId order found
    rw [MatchingEngine.checkExpirations] at found
    rw [MatchingEngine.checkExpirations]
    rw [getOrder_expireEntries] at found
    rw [expireEntries_heap]
    split_ifs at found with due
    obtain ⟨source, member, as, onHeap⟩ := tracked.resting orderId order found
    refine ⟨source, member, as, fun plain expire known => ?_⟩
    have entry := onHeap plain expire known
    rw [← split] at entry
    refine (List.mem_append.1 entry).resolve_left fun popped => due ?_
    rw [← keyed orderId order found]
    exact List.mem_map.2 ⟨_, popped, rfl⟩
  · exact tracked.waiting
  · intro entry member
    rw [MatchingEngine.checkExpirations, expireEntries_heap] at member
    exact tracked.entered entry ((List.dropWhile_sublist _).subset member)

/-- The new order that an input brings. -/
def EngineInput.newOrder? : EngineInput → Option NewOrder
  | .command (.newOrder order) => some order
  | _ => none

/-- The new orders among the inputs. -/
def submittedOrders (inputs : List EngineInput) : List NewOrder :=
  inputs.filterMap EngineInput.newOrder?

theorem ExpiryTracked.step (tracked : ExpiryTracked submitted engine)
    (keyed : engine.orderbook.KeyedById) (input : EngineInput) :
    ExpiryTracked (submitted ++ input.newOrder?.toList) (engine.step input).1 := by
  have grows : submitted ⊆ submitted ++ input.newOrder?.toList := List.subset_append_left _ _
  cases input with
  | expirySweep now => exact (tracked.checkExpirations keyed now).grow grows
  | command issued =>
      have counted : ExpiryTracked submitted { engine with sequence := engine.sequence + 1 } :=
        ⟨tracked.resting, tracked.waiting, tracked.entered⟩
      cases issued with
      | newOrder order => exact counted.newOrder order
      | cancelOrder orderId userId symbol timestamp =>
          exact (counted.cancelOrder orderId userId timestamp).grow grows
      | amendOrder amend => exact (counted.amendOrder amend).grow grows
      | cancelAllOrders userId symbol timestamp =>
          exact (counted.cancelAll userId symbol timestamp).grow grows
      | updateMarkPrice symbol mark index timestamp =>
          exact (counted.updateMarkPrice symbol mark index timestamp).grow grows
      | computeFunding symbol timestamp =>
          have funded : ExpiryTracked submitted
              (engine.step (.command (.computeFunding symbol timestamp))).1 :=
            ⟨tracked.resting, tracked.waiting, tracked.entered⟩
          exact funded.grow grows
      | adminCredit userId amount key timestamp => exact counted.grow grows

theorem expiryTracked_run (config : SymbolConfig) (ids : Nat → TradeId)
    (interestRate : Decimal128) (inputs : List EngineInput) :
    ExpiryTracked (submittedOrders inputs)
      (run MatchingEngine.step (new config ids interestRate) inputs).1 := by
  induction inputs using List.reverseRecOn with
  | nil =>
      refine ⟨OrderBook.Every.new config.symbol, ?_, ?_⟩
      · intro stop waits
        cases waits
      · intro entry member
        cases member
  | append_singleton before input inductionHypothesis =>
      have reached := restorable_run config ids interestRate before
      have stepped := inductionHypothesis.step reached.keyed input
      rw [run_concat]
      rw [submittedOrders, List.filterMap_append, ← submittedOrders]
      cases brought : input.newOrder? <;> simpa [brought] using stepped

/-! ## The law -/

/-- The expiry of an order has come. -/
def Due (order : BookOrder) (now : UnixMicros) : Prop :=
  ∃ expire ≤ now, order.expireTime = some expire

/-- A sweep leaves no due order, and cancels each order that was due, once, and no other. -/
def ExpiresExactly (engine : MatchingEngine) (now : UnixMicros) : Prop :=
  let swept := engine.step (.expirySweep now)
  (∀ order, swept.1.Live order → ¬Due order now) ∧
    (canceledIds swept.2).Nodup ∧
    ∀ event, event ∈ swept.2 ↔
      ∃ order, engine.Live order ∧ Due order now ∧
        event = .orderCanceled order.orderId order.userId order.symbol order.remainingQty now

/-- No order that was submitted as a conditional GTD order is live after its expiry. -/
def NoConditionalDue (submitted : List NewOrder) (engine : MatchingEngine) (now : UnixMicros) :
    Prop :=
  ∀ source ∈ submitted, source.orderType.isConditional = true → source.timeInForce = .gtd →
    source.timestamp + twentyFourHoursMicros ≤ now →
    ∀ order, engine.Live order → order.orderId ≠ source.orderId

private theorem defaultExpiry_eq_some {timeInForce : TimeInForce} {timestamp expire : UnixMicros} :
    defaultExpiry timeInForce timestamp = some expire ↔
      timeInForce = .gtd ∧ timestamp + twentyFourHoursMicros = expire := by
  rw [defaultExpiry]
  split
  · rename_i gtd
    simp [gtd]
  · rename_i other
    simp [other]

theorem newOrderIds_eq (inputs : List EngineInput) :
    newOrderIds inputs = (submittedOrders inputs).map NewOrder.orderId := by
  rw [newOrderIds, submittedOrders, List.map_filterMap]
  refine List.filterMap_congr fun input _ => ?_
  cases input with
  | expirySweep now => rfl
  | command issued => cases issued <;> rfl

section Law

variable {now : UnixMicros} {order : BookOrder}

/-- Where the expiry of a live order comes from. -/
theorem ExpiryTracked.live (tracked : ExpiryTracked submitted engine)
    (live : engine.Live order) :
    ∃ source ∈ submitted, SubmittedAs order source ∧
      (source.orderType.isConditional = false →
        engine.orderbook.getOrder order.orderId = some order ∧
          ∀ expire, order.expireTime = some expire →
            (expire, order.orderId) ∈ engine.expiryHeap) := by
  rcases live with found | waits
  · obtain ⟨source, member, as, onHeap⟩ := tracked.resting _ order found
    exact ⟨source, member, as, fun plain => ⟨found, onHeap plain⟩⟩
  · obtain ⟨source, member, as, conditional⟩ := tracked.waiting order waits
    refine ⟨source, member, as, fun plain => ?_⟩
    rw [conditional] at plain
    cases plain

private theorem live_expirySweep :
    (engine.step (.expirySweep now)).1.Live order ↔
      (engine.orderbook.getOrder order.orderId = some order ∧
        order.orderId ∉ dueIds now engine.expiryHeap) ∨ order ∈ engine.stopOrders := by
  rw [Live]
  refine or_congr ?_ Iff.rfl
  refine (Eq.congr_left (getOrder_expireEntries order.orderId)).trans ?_
  split_ifs with due
  · simp [due]
  · simp [due]

/-- Without conditional orders, a due order is on the book and its entry is due. -/
theorem ExpiryTracked.due_of_live (tracked : ExpiryTracked submitted engine)
    (sorted : engine.expiryHeap.Pairwise DueBefore)
    (noneDue : NoConditionalDue submitted engine now) (live : engine.Live order)
    (due : Due order now) :
    engine.orderbook.getOrder order.orderId = some order ∧
      order.orderId ∈ dueIds now engine.expiryHeap := by
  obtain ⟨source, member, as, onHeap⟩ := tracked.live live
  obtain ⟨expire, past, known⟩ := due
  have plain : source.orderType.isConditional = false := by
    rw [Bool.eq_false_iff]
    intro conditional
    obtain ⟨gtd, rfl⟩ := defaultExpiry_eq_some.1 (as.expiry.symm.trans known)
    exact noneDue source member conditional gtd past order live as.sameId
  obtain ⟨found, entered⟩ := onHeap plain
  exact ⟨found, (mem_dueIds sorted).2 ⟨expire, past, entered expire known⟩⟩

private theorem ExpiryTracked.waiting_not_due (tracked : ExpiryTracked submitted engine)
    (noneDue : NoConditionalDue submitted engine now) (waits : order ∈ engine.stopOrders) :
    ¬Due order now := by
  rintro ⟨expire, past, known⟩
  obtain ⟨source, member, as, conditional⟩ := tracked.waiting order waits
  obtain ⟨gtd, rfl⟩ := defaultExpiry_eq_some.1 (as.expiry.symm.trans known)
  exact noneDue source member conditional gtd past order (Or.inr waits) as.sameId

/-- An entry on the heap is the expiry of the order that rests under its id. -/
theorem ExpiryTracked.due_of_entry (tracked : ExpiryTracked submitted engine)
    (distinct : (submitted.map NewOrder.orderId).Nodup)
    (keyed : engine.orderbook.KeyedById) {orderId : OrderId}
    (found : engine.orderbook.getOrder orderId = some order) {expire : UnixMicros}
    (entry : (expire, orderId) ∈ engine.expiryHeap) : order.expireTime = some expire := by
  obtain ⟨source, member, as, -⟩ := tracked.resting orderId order found
  obtain ⟨pushed, known, sameId, -, expiry⟩ := tracked.entered _ entry
  have same : source = pushed :=
    List.inj_on_of_nodup_map distinct member known
      (as.sameId.symm.trans ((keyed orderId order found).trans sameId.symm))
  rw [as.expiry, same]
  exact expiry

end Law

/-- A sweep is exact if and only if no order that was submitted as a conditional GTD order is
live after its expiry. -/
theorem gtd_expiry_exact_iff (config : SymbolConfig) (ids : Nat → TradeId)
    (interestRate : Decimal128) (inputs : List EngineInput)
    (distinct : (newOrderIds inputs).Nodup) (now : UnixMicros) :
    let engine := (run step (new config ids interestRate) inputs).1
    engine.ExpiresExactly now ↔ NoConditionalDue (submittedOrders inputs) engine now := by
  intro engine
  have tracked : ExpiryTracked (submittedOrders inputs) engine :=
    expiryTracked_run config ids interestRate inputs
  have reached : engine.Restorable := restorable_run config ids interestRate inputs
  have sorted := reached.sorted
  rw [newOrderIds_eq] at distinct
  constructor
  · intro exactly source member conditional gtd past order live sameId
    obtain ⟨origin, known, as, -⟩ := tracked.live live
    have same : origin = source := List.inj_on_of_nodup_map distinct known member
      (as.sameId.symm.trans sameId)
    subst same
    have due : Due order now :=
      ⟨_, past, as.expiry.trans (defaultExpiry_eq_some.2 ⟨gtd, rfl⟩)⟩
    refine exactly.1 order (live_expirySweep.2 ?_) due
    refine live.imp_left fun found => ⟨found, fun swept => ?_⟩
    -- an entry under its id would be that of an unconditional order
    obtain ⟨expire, -, entry⟩ := (mem_dueIds sorted).1 swept
    obtain ⟨pushed, pushedMember, pushedId, plain, -⟩ := tracked.entered _ entry
    have other : pushed = origin := List.inj_on_of_nodup_map distinct pushedMember member
      (pushedId.trans sameId)
    rw [other, conditional] at plain
    cases plain
  · intro noneDue
    refine ⟨fun order live due => ?_, canceledIds_expireEntries_nodup, fun event => ?_⟩
    · rcases live_expirySweep.1 live with ⟨found, kept⟩ | waits
      · exact kept (tracked.due_of_live sorted noneDue (Or.inl found) due).2
      · exact tracked.waiting_not_due noneDue waits due
    · refine mem_expireEntries.trans ⟨?_, ?_⟩
      · rintro ⟨orderId, swept, order, found, rfl⟩
        obtain ⟨expire, past, entry⟩ := (mem_dueIds sorted).1 swept
        have own := reached.keyed orderId order found
        subst own
        exact ⟨order, Or.inl found,
          ⟨expire, past, tracked.due_of_entry distinct reached.keyed found entry⟩, rfl⟩
      · rintro ⟨order, live, due, rfl⟩
        obtain ⟨found, swept⟩ := tracked.due_of_live sorted noneDue live due
        exact ⟨order.orderId, swept, order, found, rfl⟩

/-- A GTD bid, and a GTD stop that is canceled before it triggers. -/
def canceledStopInputs : List EngineInput :=
  [.command (.newOrder { gatewayOrder 1 7 .buy 100 5 with timeInForce := .gtd }),
    .command (.newOrder { gatewayOrder 2 8 .sell 90 1 with
      timeInForce := .gtd, orderType := .stopLimit, stopPrice := some (.ofInt 95) }),
    .command (.cancelOrder 2 8 1 3)]

theorem gtd_expiry_exact_canceledStop :
    (run step (new plainConfig id 0) canceledStopInputs).1.ExpiresExactly
      twentyFourHoursMicros := by
  let reached := (run step (new plainConfig id 0) canceledStopInputs).1
  have gone : reached.orderbook.getOrder 2 = none := by decide +kernel
  have nothingWaits : reached.stopOrders = [] := by decide +kernel
  refine (gtd_expiry_exact_iff plainConfig id 0 canceledStopInputs (by decide) _).2 ?_
  intro source member conditional _ _ order live sameId
  have isStop : source.orderId = 2 := by
    simp only [submittedOrders, canceledStopInputs, List.filterMap_cons, List.filterMap_nil,
      EngineInput.newOrder?, List.mem_cons, List.not_mem_nil, or_false] at member
    rcases member with rfl | rfl
    · cases conditional
    · rfl
  rw [isStop] at sameId
  rcases live with found | waits
  · rw [sameId] at found
    exact Option.some_ne_none order (found.symm.trans gone)
  · exact absurd (nothingWaits ▸ waits) List.not_mem_nil

/-- A GTD stop limit order that a fall of the mark price triggers: it rests on the book. -/
def gtdStopInputs : List EngineInput :=
  [.command (.newOrder { gatewayOrder 1 7 .sell 90 1 with
      timeInForce := .gtd, orderType := .stopLimit, stopPrice := some (.ofInt 95) }),
    .command (.updateMarkPrice 1 (.ofInt 94) (.ofInt 94) 5)]

/-- It still rests there after the sweep at its expiry. -/
theorem gtd_stop_never_expires :
    ¬∀ (config : SymbolConfig) (ids : Nat → TradeId) (interestRate : Decimal128)
      (inputs : List EngineInput) (now : UnixMicros), (newOrderIds inputs).Nodup →
      (run step (new config ids interestRate) inputs).1.ExpiresExactly now := by
  intro expires
  let swept := ((run step (new plainConfig id 0) gtdStopInputs).1.step
    (.expirySweep twentyFourHoursMicros)).1
  have rests : (swept.orderbook.getOrder 1).any (fun order =>
      decide (order.orderId = 1) && decide (order.expireTime = some twentyFourHoursMicros)) =
        true := by decide +kernel
  obtain ⟨order, found, still⟩ := (Option.any_eq_true _ _).1 rests
  simp only [Bool.and_eq_true, decide_eq_true_iff] at still
  have live : swept.Live order := Or.inl (by rw [still.1, found])
  exact (expires plainConfig id 0 gtdStopInputs twentyFourHoursMicros (by decide)).1 order live
    ⟨_, le_refl _, still.2⟩

end MatchingEngine
end Exg
