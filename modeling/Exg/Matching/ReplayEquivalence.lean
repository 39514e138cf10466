import Exg.Matching.Rejection
import Exg.Matching.ReplaySweep

/-!
# Live and replayed engine

A replay that succeeds ends in the live engine's state when every step leaves enough in
the log: what a match leaves of an order must be readable from its acceptance and its
fills, a triggered order must trade, and a refused cancel must not move the order.
-/

namespace Exg

open Support

namespace MatchingEngine

/-- A replayed engine in the state of the live one. -/
structure Equivalent (live replayed : MatchingEngine) : Prop where
  book : live.orderbook.SameOrders replayed.orderbook
  stops : replayed.stopOrders.Perm live.stopOrders
  markPrice : replayed.markPrice = live.markPrice
  indexPrice : replayed.indexPrice = live.indexPrice
  lastFundingRate : replayed.lastFundingRate = live.lastFundingRate

/-! ## What a step must leave in the log -/

/-- The acceptance of a new order tells how much of it is shown. -/
def ShownTold (order : NewOrder) : Prop :=
  ∀ visible, order.visibleQuantity = some visible →
    if order.orderType = .iceberg then visible ≤ order.quantity else visible = order.quantity

/-- What is left of the order goes to the book. -/
def Rests (order : BookOrder) : Prop :=
  order.orderType.isLimit = true ∧ order.timeInForce ≠ .ioc ∧ order.timeInForce ≠ .fok

/-- The acceptance of an amended order tells what of it goes back to the book. -/
def AmendTold (book : OrderBook) (old : BookOrder) (amend : AmendOrder) : Prop :=
  let amended := amendedOrder old amend
  amend.symbol = old.symbol ∧
    old.expireTime = defaultExpiry old.timeInForce amend.timestamp ∧
    (old.hiddenQty = old.visibleQty.elim 0 fun visible => amended.originalQty - visible) ∧
    (Trades book amended ∨ old.visibleQty.getD amended.originalQty = amended.remainingQty)

/-- Along the pass over the triggered orders, each one trades. -/
def TriggersTrade (timestamp : UnixMicros) : MatchingEngine → List BookOrder → Prop
  | _, [] => True
  | engine, order :: rest =>
      Trades engine.orderbook (convertTriggered order) ∧
        TriggersTrade timestamp (engine.triggerOne order timestamp).1 rest

/-- The log tells all that the step does. -/
def Recorded (engine : MatchingEngine) : EngineInput → Prop
  | .command (.newOrder order) =>
      (icebergAccepted engine.symbolConfig order = true → ShowsPart order) ∧
      (0 < order.quantity → icebergAccepted engine.symbolConfig order = true →
        ∀ price, effectivePrice order = some price →
          let taker := newBookOrder engine.markPrice order price
          (order.orderType.isConditional = true → ShownTold order) ∧
            (order.orderType.isConditional = false → ¬Refused engine.orderbook taker →
              Rests taker → (LeftOpen engine.orderbook taker → ShownTold order) ∧
                (¬LeftOpen engine.orderbook taker → taker.hiddenQty = 0)))
  | .command (.cancelOrder orderId userId _ _) =>
      ∀ order, engine.orderbook.getOrder orderId = some order → order.userId ≠ userId →
        LastInQueue engine.orderbook orderId order
  | .command (.amendOrder amend) =>
      ∀ old, engine.orderbook.getOrder amend.orderId = some old → old.userId = amend.userId →
        losesPriority old amend = true → ¬AmendInvalid old amend →
          let removed := engine.orderbook.removeOrder amend.orderId
          ¬Refused removed (amendedOrder old amend) → LeftOpen removed (amendedOrder old amend) →
            AmendTold removed old amend
  | .command (.updateMarkPrice _ mark index timestamp) =>
      let counted := { engine with sequence := engine.sequence + 1 }
      let passive := counted.applyMarkIndexPassive mark index
      let scanned := swapScan (shouldTrigger mark) passive.stopOrders
      TriggersTrade timestamp { passive with stopOrders := scanned.2 } scanned.1
  | .command (.cancelAllOrders ..) => True
  | .command (.computeFunding ..) => True
  | .command (.adminCredit ..) => True
  | .expirySweep _ => True

theorem Recorded.acceptsShown {engine : MatchingEngine} {input : EngineInput}
    (recorded : engine.Recorded input) : engine.AcceptsShown input := by
  cases input with
  | expirySweep now => trivial
  | command issued =>
      cases issued with
      | newOrder order => exact recorded.1
      | _ => trivial

/-! ## Steps -/

variable {engine replayed final : MatchingEngine} {used : List OrderId}

/-- The acceptance of a new order rebuilds the order. -/
theorem rebuiltOrder_acceptedOf {order : NewOrder} (told : ShownTold order)
    (markPrice price : Decimal128) :
    rebuiltOrder (acceptedOf (newBookOrder markPrice order price) order.symbol order.timestamp) =
      newBookOrder markPrice order price := by
  cases visibleCase : order.visibleQuantity with
  | none =>
      have split : splitQuantity order = (order.quantity, 0) := by
        simp [splitQuantity, visibleCase]
      simp [rebuiltOrder, acceptedOf, newBookOrder, visibleCase, split]
  | some visible =>
      have shown := told visible visibleCase
      have split : splitQuantity order = (visible, order.quantity - visible) := by
        by_cases iceberg : order.orderType = .iceberg
        · rw [if_pos iceberg] at shown
          simp [splitQuantity, iceberg, visibleCase, min_eq_left shown]
        · rw [if_neg iceberg] at shown
          simp [splitQuantity, iceberg, shown]
      simp [rebuiltOrder, acceptedOf, newBookOrder, visibleCase, split]

private theorem follow_rejected {orderId : OrderId} {userId : UserId} {reason : RejectReason}
    {timestamp : UnixMicros}
    (followed : follow applyEvent replayed [.orderRejected orderId userId reason timestamp] =
      .ok final) : final = replayed := by
  cases followed
  rfl

/-- An id the live engine has not used waits nowhere in the replayed one. -/
theorem Equivalent.notWaiting (equivalent : engine.Equivalent replayed) {orderId : OrderId}
    (notWaiting : orderId ∉ engine.stopOrders.map BookOrder.orderId) :
    orderId ∉ replayed.stopOrders.map BookOrder.orderId :=
  fun member => notWaiting ((equivalent.stops.map BookOrder.orderId).subset member)

/-- A step that changes the book only. -/
theorem Equivalent.of_book {live : MatchingEngine} (equivalent : engine.Equivalent replayed)
    (changed : BookOnly engine live) (followed : BookOnly replayed final)
    (same : live.orderbook.SameOrders final.orderbook) : live.Equivalent final where
  book := same
  stops := by rw [changed.stops, followed.stops]; exact equivalent.stops
  markPrice := by rw [changed.markPrice, followed.markPrice, equivalent.markPrice]
  indexPrice := by rw [changed.indexPrice, followed.indexPrice, equivalent.indexPrice]
  lastFundingRate := by
    rw [changed.lastFundingRate, followed.lastFundingRate, equivalent.lastFundingRate]

private theorem equivalent_matchNewOrder (wellFormed : engine.orderbook.WellFormed)
    (equivalent : engine.Equivalent replayed) {taker : BookOrder} {timestamp : UnixMicros}
    (missing : engine.orderbook.getOrder taker.orderId = none)
    (notWaiting : taker.orderId ∉ engine.stopOrders.map BookOrder.orderId)
    (incoming : 0 < taker.remainingQty) (unconditional : taker.orderType.isConditional = false)
    (recorded : (matchOrder engine.orderbook taker).rejected = false → Rests taker →
      ((matchOrder engine.orderbook taker).taker.remainingQty ≠ 0 →
        rebuiltOrder (acceptedOf taker taker.symbol timestamp) = taker) ∧
      ((matchOrder engine.orderbook taker).taker.remainingQty = 0 → taker.hiddenQty = 0))
    (followed : follow applyEvent replayed (engine.matchNewOrder taker timestamp).2 = .ok final) :
    (engine.matchNewOrder taker timestamp).1.Equivalent final := by
  let result := matchOrder engine.orderbook taker
  rcases engine.matchNewOrder_cases taker timestamp with ⟨-, same⟩ | ⟨admitted, same⟩
  · rw [same] at followed ⊢
    rw [follow_rejected followed]
    exact equivalent
  · rw [same] at followed ⊢
    obtain ⟨swept, matching, placing⟩ := follow_append_ok followed
    have notWaitingHere := equivalent.notWaiting notWaiting
    obtain ⟨upToHere, sameSwept⟩ := follow_acceptance unconditional rfl wellFormed missing
      notWaitingHere equivalent.book matching
    have takerId : (refillIceberg timestamp result.taker).orderId = taker.orderId := by
      rw [refillIceberg_orderId]
      exact matchOrder_taker_orderId wellFormed
    have notRefilled : result.taker.remainingQty ≠ 0 →
        refillIceberg timestamp result.taker = result.taker := refillIceberg_of_left timestamp
    rcases placeRemaining_cases (engine.absorb result taker.symbol timestamp).1
        (refillIceberg timestamp result.taker) timestamp with
      ⟨nothing, placed⟩ | ⟨-, -, placed⟩ | ⟨left, limited, notIoc, notFok, placed⟩
    · -- filled in full
      have filled : result.taker.remainingQty = 0 := by
        by_contra left
        rw [notRefilled left] at nothing
        exact left nothing
      simp only [result] at placed filled
      simp only [placed] at placing ⊢
      cases placing
      rw [sweptTaker_of_filled wellFormed incoming.ne' filled] at sameSwept
      exact equivalent.of_book ⟨rfl, rfl, rfl, rfl⟩ upToHere sameSwept
    · -- the leftover is canceled
      simp only [result] at placed takerId
      simp only [placed] at placing ⊢
      obtain ⟨canceled, canceling, nothing⟩ := follow_cons_ok placing
      cases nothing
      rw [takerId] at canceling
      have gone : (matchOrder engine.orderbook taker).book.getOrder taker.orderId = none :=
        getOrder_matchOrder_of_none wellFormed missing
      rw [← upToHere.stops] at notWaitingHere
      have keptId : ∀ kept ∈ sweptTaker (rebuiltOrder (acceptedOf taker taker.symbol timestamp))
          (matchOrder engine.orderbook taker).taker.remainingQty
          (matchShares engine.orderbook taker), kept.orderId = taker.orderId := sweptTaker_orderId
      obtain ⟨restCanceled, sameCanceled⟩ :=
        canceled_beside (wellFormed_matchOrder wellFormed).toLevels gone keptId notWaitingHere
          sameSwept canceling
      exact equivalent.of_book ⟨rfl, rfl, rfl, rfl⟩ (upToHere.trans restCanceled) sameCanceled
    · -- the leftover rests
      rw [refillIceberg_orderType, matchOrder_taker_orderType wellFormed] at limited
      rw [refillIceberg_timeInForce, matchOrder_taker_timeInForce wellFormed] at notIoc notFok
      obtain ⟨told, hidesNothing⟩ := recorded admitted ⟨limited, notIoc, notFok⟩
      have some : result.taker.remainingQty ≠ 0 := by
        intro filled
        have shown : result.taker.hiddenQty = 0 :=
          (matchOrder_taker_hiddenQty wellFormed).trans (hidesNothing filled)
        rw [refillIceberg_of_nothing_hidden timestamp shown] at left
        exact left filled
      simp only [result] at placed some notRefilled
      simp only [placed] at placing ⊢
      cases placing
      rw [told some, sweptTaker_self wellFormed some] at sameSwept
      rw [← notRefilled some] at sameSwept
      exact equivalent.of_book ⟨rfl, rfl, rfl, rfl⟩ upToHere sameSwept

private theorem equivalent_handleNewOrder (sound : engine.Sound used)
    (equivalent : engine.Equivalent replayed) {order : NewOrder} (fresh : order.orderId ∉ used)
    (recorded : engine.Recorded (.command (.newOrder order)))
    (followed : follow applyEvent replayed (engine.handleNewOrder order).2 = .ok final) :
    (engine.handleNewOrder order).1.Equivalent final := by
  obtain ⟨shows, told⟩ := recorded
  rcases engine.handleNewOrder_cases order with
    ⟨reason, same⟩ | ⟨price, positive, missing, priced, accepted,
      ⟨conditional, same⟩ | ⟨unconditional, same⟩⟩
  · rw [same] at followed ⊢
    rw [follow_rejected followed]
    exact equivalent
  · obtain ⟨whenWaiting, -⟩ := told positive accepted price priced
    rw [same] at followed ⊢
    obtain ⟨next, accepting, nothing⟩ := follow_cons_ok followed
    cases nothing
    obtain ⟨-, ⟨-, rfl⟩ | ⟨unconditional, -⟩⟩ := applyAccepted_cases accepting
    · rw [rebuiltOrder_acceptedOf (whenWaiting conditional)]
      exact ⟨equivalent.book, equivalent.stops.append_right _, equivalent.markPrice,
        equivalent.indexPrice, equivalent.lastFundingRate⟩
    · exact absurd conditional (by simpa [acceptedOf, newBookOrder] using unconditional)
  · obtain ⟨-, whenMatched⟩ := told positive accepted price priced
    rw [same] at followed ⊢
    have incoming : 0 < (newBookOrder engine.markPrice order price).remainingQty :=
      (splitQuantity_bounds positive (shows accepted)).1
    refine equivalent_matchNewOrder sound.wellFormed equivalent (sound.missing_of_unused fresh)
      (sound.notWaiting_of_unused fresh) incoming unconditional ?_ followed
    intro admitted rests
    have notRefused : ¬Refused engine.orderbook (newBookOrder engine.markPrice order price) := by
      rw [← matchOrder_rejected_iff sound.wellFormed, admitted]
      exact Bool.false_ne_true
    obtain ⟨open', filled⟩ := whenMatched unconditional notRefused rests
    have leftIff := taker_left_iff sound.wellFormed sound.positive incoming admitted
    constructor
    · intro left
      exact rebuiltOrder_acceptedOf (open' (leftIff.1 left)) engine.markPrice price
    · intro nothing
      exact filled fun opened => leftIff.2 opened nothing

/-! ## Cancellations -/

private theorem canceled_resting {book : OrderBook} {orderId : OrderId} {order : BookOrder}
    (same : book.SameOrders replayed.orderbook) (found : book.getOrder orderId = some order)
    (applied : replayed.applyCanceled orderId = .ok final) :
    BookOnly replayed final ∧ (book.removeOrder orderId).SameOrders final.orderbook := by
  rw [applyCanceled_resting ((same.getOrder orderId).trans found)] at applied
  cases applied
  exact ⟨⟨rfl, rfl, rfl, rfl⟩, same.removeOrder orderId⟩

/-- Reordering the waiting orders does not matter. -/
theorem Equivalent.reorder (equivalent : engine.Equivalent replayed) {stops : List BookOrder}
    (perm : stops.Perm engine.stopOrders) :
    { engine with stopOrders := stops }.Equivalent replayed :=
  { equivalent with stops := equivalent.stops.trans perm.symm }

private theorem canceled_waiting {order : BookOrder} {rest : List BookOrder}
    (equivalent : { engine with stopOrders := order :: rest }.Equivalent replayed)
    (missing : engine.orderbook.getOrder order.orderId = none)
    (nodup : ((order :: rest).map BookOrder.orderId).Nodup)
    (applied : replayed.applyCanceled order.orderId = .ok final) :
    { engine with stopOrders := rest }.Equivalent final := by
  have gone := (equivalent.book.getOrder order.orderId).trans missing
  rw [applyCanceled_missing gone applied]
  refine { equivalent with stops := ?_ }
  refine eraseP_perm_of_unique equivalent.stops (by simp) fun stop member => ?_
  rw [List.map_cons, List.nodup_cons] at nodup
  simpa using fun own => nodup.1 (List.mem_map.2 ⟨stop, member, own⟩)

private theorem equivalent_handleCancelOrder (sound : engine.Sound used)
    (equivalent : engine.Equivalent replayed) {orderId : OrderId} {userId : UserId}
    (symbol : SymbolId) {timestamp : UnixMicros}
    (recorded : engine.Recorded (.command (.cancelOrder orderId userId symbol timestamp)))
    (followed : follow applyEvent replayed (engine.handleCancelOrder orderId userId timestamp).2 =
      .ok final) : (engine.handleCancelOrder orderId userId timestamp).1.Equivalent final := by
  rcases engine.handleCancelOrder_cases orderId userId timestamp with
    ⟨-, -, same⟩ | ⟨order, found, -, same⟩ | ⟨order, found, other, same⟩ |
      ⟨order, missing, waiting, -, same⟩ | ⟨order, -, waiting, -, same⟩ <;>
    rw [same] at followed ⊢
  · rw [follow_rejected followed]
    exact equivalent
  · obtain ⟨next, canceling, nothing⟩ := follow_cons_ok followed
    cases nothing
    obtain ⟨rest, removed⟩ := canceled_resting equivalent.book found canceling
    exact equivalent.of_book ⟨rfl, rfl, rfl, rfl⟩ rest removed
  · rw [follow_rejected followed]
    obtain ⟨ahead, last, once⟩ := recorded order found other
    have back :=
      OrderBook.sameOrders_putBack (sound.wellFormed.toLevels.keyed found) found last once
    exact equivalent.of_book ⟨rfl, rfl, rfl, rfl⟩ (BookOnly.refl _) (back.trans equivalent.book)
  · obtain ⟨next, canceling, nothing⟩ := follow_cons_ok followed
    cases nothing
    have keyed : order.orderId = orderId := by simpa using List.find?_some waiting
    have first := find_cons_eraseP_perm waiting
    have nodup := (first.map BookOrder.orderId).nodup_iff.2 sound.stopsNodup
    rw [← keyed] at missing canceling
    exact canceled_waiting (equivalent.reorder first) missing nodup canceling
  · rw [follow_rejected followed]
    have moved := (List.perm_append_singleton order
      (engine.stopOrders.eraseP fun stop => stop.orderId = orderId)).trans
      (find_cons_eraseP_perm waiting)
    exact equivalent.reorder moved

/-- The loop over the ids of one user. -/
theorem follow_cancelOrders {book : OrderBook} {orderIds : List OrderId} {userId : UserId}
    {symbol : SymbolId} {timestamp : UnixMicros} (wellFormed : book.LevelsWellFormed)
    (same : book.SameOrders replayed.orderbook)
    (followed : follow applyEvent replayed ((book.cancelOrders orderIds).2.map fun order =>
      .orderCanceled order.orderId userId symbol order.remainingQty timestamp) = .ok final) :
    BookOnly replayed final ∧ (book.cancelOrders orderIds).1.SameOrders final.orderbook := by
  induction orderIds generalizing book replayed with
  | nil =>
      cases followed
      exact ⟨BookOnly.refl _, same⟩
  | cons orderId rest inductionHypothesis =>
      rw [OrderBook.cancelOrders] at followed ⊢
      cases found : book.getOrder orderId with
      | none =>
          simp only [found] at followed ⊢
          exact inductionHypothesis wellFormed same followed
      | some order =>
          simp only [found, List.map_cons] at followed ⊢
          obtain ⟨next, canceling, following⟩ := follow_cons_ok followed
          have keyed := wellFormed.keyed found
          have stored : book.getOrder order.orderId = some order := by rw [keyed, found]
          obtain ⟨restNext, sameNext⟩ := canceled_resting same stored canceling
          rw [keyed] at sameNext
          have unlinked : (book.unlinkOrder orderId order).SameOrders next.orderbook :=
            (OrderBook.sameOrders_unlink_remove found).trans sameNext
          obtain ⟨restLast, sameLast⟩ := inductionHypothesis (wellFormed.unlinkOrder found) unlinked
            following
          exact ⟨restNext.trans restLast, sameLast⟩

/-- The waiting orders of one user. -/
theorem follow_cancelStops {taken kept : List BookOrder} {userId : UserId} {symbol : SymbolId}
    {timestamp : UnixMicros}
    (equivalent : { engine with stopOrders := taken ++ kept }.Equivalent replayed)
    (missing : ∀ stop ∈ taken, engine.orderbook.getOrder stop.orderId = none)
    (nodup : ((taken ++ kept).map BookOrder.orderId).Nodup)
    (followed : follow applyEvent replayed (taken.map fun order =>
      .orderCanceled order.orderId userId symbol order.remainingQty timestamp) = .ok final) :
    { engine with stopOrders := kept }.Equivalent final := by
  induction taken generalizing replayed with
  | nil =>
      cases followed
      exact equivalent
  | cons order rest inductionHypothesis =>
      rw [List.map_cons] at followed
      obtain ⟨next, canceling, following⟩ := follow_cons_ok followed
      rw [List.cons_append] at equivalent nodup
      have later := canceled_waiting equivalent (missing order List.mem_cons_self) nodup canceling
      exact inductionHypothesis later
        (fun stop member => missing stop (List.mem_cons_of_mem order member))
        (nodup.sublist ((List.sublist_cons_self _ _).map _)) following

private theorem equivalent_handleCancelAll (sound : engine.Sound used)
    (equivalent : engine.Equivalent replayed) {userId : UserId} {symbol : SymbolId}
    {timestamp : UnixMicros}
    (followed : follow applyEvent replayed (engine.handleCancelAll userId symbol timestamp).2 =
      .ok final) : (engine.handleCancelAll userId symbol timestamp).1.Equivalent final := by
  let owned := fun stop : BookOrder =>
    decide (stop.userId = userId) && decide (stop.symbol = symbol)
  have scanned := swapScan_perm owned engine.stopOrders
  obtain ⟨middle, fromBook, fromStops⟩ := follow_append_ok followed
  let canceledBook := (engine.orderbook.cancelAllUserOrders userId).1
  have booked : BookOnly replayed middle ∧ canceledBook.SameOrders middle.orderbook := by
    simp only [canceledBook]
    rw [OrderBook.cancelAllUserOrders] at fromBook ⊢
    cases entry : engine.orderbook.userOrders[userId]? with
    | none =>
        simp only [entry] at fromBook ⊢
        cases fromBook
        exact ⟨BookOnly.refl _, equivalent.book⟩
    | some orderIds =>
        simp only [entry] at fromBook ⊢
        have same : { engine.orderbook with
            userOrders := engine.orderbook.userOrders.erase userId }.SameOrders
              replayed.orderbook :=
          ⟨equivalent.book.getOrder, fun side price => by
            cases side <;> exact equivalent.book.queue _ price⟩
        exact follow_cancelOrders (sound.wellFormed.toLevels.congr rfl rfl rfl) same fromBook
  let live : MatchingEngine := { engine with orderbook := canceledBook }
  have equivalentBook : live.Equivalent middle :=
    equivalent.of_book ⟨rfl, rfl, rfl, rfl⟩ booked.1 booked.2
  have soundBook := (sound.cancelAllUserOrders userId).perm scanned
  exact follow_cancelStops (equivalentBook.reorder scanned)
    (fun stop member => soundBook.apart stop (List.mem_append_left _ member)) soundBook.stopsNodup
    fromStops

/-- The loop over the due entries of the expiry heap. -/
theorem follow_expireEntries {book : OrderBook} {now : UnixMicros}
    {entries : List (UnixMicros × OrderId)} (same : book.SameOrders replayed.orderbook)
    (followed : follow applyEvent replayed (expireEntries now book entries).2.2 = .ok final) :
    BookOnly replayed final ∧ (expireEntries now book entries).1.SameOrders final.orderbook := by
  induction entries generalizing book replayed with
  | nil =>
      cases followed
      exact ⟨BookOnly.refl _, same⟩
  | cons entry rest inductionHypothesis =>
      rw [expireEntries] at followed ⊢
      split
      · rename_i notDue
        rw [if_pos notDue] at followed
        cases followed
        exact ⟨BookOnly.refl _, same⟩
      · rename_i due
        rw [if_neg due] at followed
        cases found : book.getOrder entry.2 with
        | none =>
            simp only [found] at followed ⊢
            exact inductionHypothesis same followed
        | some order =>
            simp only [found] at followed ⊢
            obtain ⟨next, canceling, following⟩ := follow_cons_ok followed
            obtain ⟨restNext, sameNext⟩ := canceled_resting same found canceling
            obtain ⟨restLast, sameLast⟩ := inductionHypothesis sameNext following
            exact ⟨restNext.trans restLast, sameLast⟩

/-! ## Amendments -/

/-- The acceptance of an amended order rebuilds what is left of it. -/
theorem rebuiltOrder_amended {book : OrderBook} {old : BookOrder} {amend : AmendOrder}
    (told : AmendTold book old amend) (left : Decimal128) :
    (rebuiltOrder (acceptedOf ((amendedOrder old amend).withRemaining left) amend.symbol
      amend.timestamp)).withRemaining left = (amendedOrder old amend).withRemaining left := by
  obtain ⟨symbol, expiry, hidden, -⟩ := told
  simp only [rebuiltOrder, acceptedOf, BookOrder.withRemaining, symbol]
  rw [show (amendedOrder old amend).timeInForce = old.timeInForce from rfl, ← expiry,
    show (amendedOrder old amend).visibleQty = old.visibleQty from rfl, ← hidden]
  rfl

/-- The amended order is kept as it was accepted, with what is left of it. -/
theorem sweptTaker_amended {book : OrderBook} {old : BookOrder} {amend : AmendOrder}
    (wellFormed : book.WellFormed) (incoming : 0 < (amendedOrder old amend).remainingQty)
    (told : AmendTold book old amend)
    (left : (matchOrder book (amendedOrder old amend)).taker.remainingQty ≠ 0) :
    sweptTaker (rebuiltOrder (acceptedOf (matchOrder book (amendedOrder old amend)).taker
        amend.symbol amend.timestamp))
      (matchOrder book (amendedOrder old amend)).taker.remainingQty
      (matchShares book (amendedOrder old amend)) =
        some (matchOrder book (amendedOrder old amend)).taker := by
  apply sweptTaker_of_left left
  · rw [matchOrder_taker_eq wellFormed]
    exact rebuiltOrder_amended told _
  · intro untouched
    have noTrade : ¬Trades book (amendedOrder old amend) := by
      rw [← matchShares_ne_nil_iff wellFormed incoming.ne', untouched]
      simp
    have shown := told.2.2.2.resolve_left noTrade
    rw [matchOrder_taker_untouched wellFormed untouched, ← shown, matchOrder_taker_eq wellFormed]
    rfl

private theorem equivalent_reinsertAmended (sound : engine.Sound used)
    (equivalent : engine.Equivalent replayed) {old : BookOrder} {amend : AmendOrder}
    (found : engine.orderbook.getOrder amend.orderId = some old)
    (recorded : ¬AmendInvalid old amend →
      ¬Refused (engine.orderbook.removeOrder amend.orderId) (amendedOrder old amend) →
      LeftOpen (engine.orderbook.removeOrder amend.orderId) (amendedOrder old amend) →
        AmendTold (engine.orderbook.removeOrder amend.orderId) old amend)
    (followed : follow applyEvent replayed (engine.reinsertAmended old amend).2 = .ok final) :
    (engine.reinsertAmended old amend).1.Equivalent final := by
  let removed := engine.orderbook.removeOrder amend.orderId
  let amended := amendedOrder old amend
  have soundRemoved := sound.removeOrder amend.orderId
  have wellFormed : removed.WellFormed := soundRemoved.wellFormed
  have keyed : old.orderId = amend.orderId := sound.wellFormed.toLevels.keyed found
  have amendedId : amended.orderId = amend.orderId := keyed
  have resting := sound.resting found
  rcases engine.reinsertAmended_cases old amend with ⟨reason, -, same⟩ | ⟨valid, admitted, same⟩ <;>
    rw [same] at followed ⊢
  · obtain ⟨canceled, canceling, rejecting⟩ := follow_cons_ok followed
    obtain ⟨restCanceled, sameCanceled⟩ := canceled_resting equivalent.book found canceling
    rw [follow_rejected rejecting]
    exact equivalent.of_book ⟨rfl, rfl, rfl, rfl⟩ restCanceled sameCanceled
  · obtain ⟨canceled, canceling, matching⟩ := follow_cons_ok followed
    obtain ⟨restCanceled, sameCanceled⟩ := canceled_resting equivalent.book found canceling
    have takerType : (matchOrder removed amended).taker.orderType = old.orderType :=
      matchOrder_taker_orderType wellFormed
    have missing : removed.getOrder amended.orderId = none := by
      rw [amendedId, OrderBook.getOrder_removeOrder, if_pos rfl]
    have notWaiting : amended.orderId ∉ canceled.stopOrders.map BookOrder.orderId := by
      rw [restCanceled.stops, amendedId]
      exact equivalent.notWaiting (sound.notWaiting_of_resting found)
    obtain ⟨restSwept, sameSwept⟩ := follow_acceptance
      ((congrArg OrderType.isConditional takerType).trans resting.unconditional)
      (matchOrder_taker_orderId wellFormed) wellFormed missing notWaiting sameCanceled matching
    have upToHere := restCanceled.trans restSwept
    have incoming : 0 < amended.remainingQty := by
      rw [AmendInvalid, not_or, not_le] at valid
      exact valid.1
    dsimp only
    split
    · rename_i settled
      have limited := (congrArg OrderType.isLimit takerType).trans resting.isLimit
      have filled : (matchOrder removed amended).taker.remainingQty = 0 :=
        settled.resolve_right fun market => absurd (limited.symm.trans market) (by decide)
      rw [sweptTaker_of_filled wellFormed incoming.ne' filled] at sameSwept
      exact equivalent.of_book ⟨rfl, rfl, rfl, rfl⟩ upToHere sameSwept
    · rename_i rests
      have left : (matchOrder removed amended).taker.remainingQty ≠ 0 :=
        fun filled => rests (Or.inl filled)
      have notRefused : ¬Refused removed amended := by
        rw [← matchOrder_rejected_iff wellFormed, admitted]
        exact Bool.false_ne_true
      have opened : LeftOpen removed amended :=
        (taker_left_iff wellFormed soundRemoved.positive incoming admitted).1 left
      have told := recorded valid notRefused opened
      rw [sweptTaker_amended wellFormed incoming told left] at sameSwept
      exact equivalent.of_book ⟨rfl, rfl, rfl, rfl⟩ upToHere sameSwept

private theorem equivalent_handleAmendOrder (sound : engine.Sound used)
    (equivalent : engine.Equivalent replayed) {amend : AmendOrder}
    (recorded : engine.Recorded (.command (.amendOrder amend)))
    (followed : follow applyEvent replayed (engine.handleAmendOrder amend).2 = .ok final) :
    (engine.handleAmendOrder amend).1.Equivalent final := by
  -- replay takes a second acceptance of an order on the book for a duplicate
  have duplicate : ∀ {existing : BookOrder} {accepted : OrderAccepted} {rest : List Event},
      engine.orderbook.getOrder amend.orderId = some existing →
      accepted.orderId = amend.orderId →
      follow applyEvent replayed (.orderAccepted accepted :: rest) ≠ .ok final := by
    intro existing accepted rest found same following
    obtain ⟨next, accepting, -⟩ := follow_cons_ok following
    have missing := (applyAccepted_cases accepting).1
    rw [same, equivalent.book.getOrder, found] at missing
    cases missing
  rcases engine.handleAmendOrder_cases amend with
    ⟨reason, -, same⟩ | ⟨existing, found, owner,
      ⟨loses, same⟩ | ⟨-, same⟩ | ⟨-, _, -, -, -, same⟩⟩ <;>
    rw [same] at followed ⊢
  · rw [follow_rejected followed]
    exact equivalent
  · exact equivalent_reinsertAmended sound equivalent found (recorded existing found owner loses)
      followed
  · exact absurd followed (duplicate found (sound.wellFormed.toLevels.keyed found))
  · exact absurd followed (duplicate found (sound.wellFormed.toLevels.keyed found))

/-! ## Triggered orders -/

/-- Replaying the match of the first triggered order. -/
theorem follow_triggeredMatch {order : BookOrder} {rest : List BookOrder} {symbol : SymbolId}
    {timestamp : UnixMicros} (sound : OrdersSound engine.orderbook (order :: rest) used)
    (equivalent : { engine with stopOrders := order :: rest }.Equivalent replayed)
    (trades : Trades engine.orderbook (convertTriggered order))
    (followed : follow applyEvent replayed
      (engine.absorb (matchOrder engine.orderbook (convertTriggered order)) symbol timestamp).2 =
        .ok final) :
    { engine with
      orderbook := (matchOrder engine.orderbook (convertTriggered order)).book.beside
        (promotedTaker order
          (matchOrder engine.orderbook (convertTriggered order)).taker.remainingQty)
      stopOrders := rest }.Equivalent final := by
  let taker := convertTriggered order
  have wellFormed := sound.wellFormed
  obtain ⟨sameId, -, -, sameQty, -⟩ := convertTriggered_frame order
  have wanted : taker.remainingQty ≠ 0 :=
    sameQty.trans_ne (sound.waiting order List.mem_cons_self).remaining_pos.ne'
  have missing : engine.orderbook.getOrder taker.orderId = none :=
    (congrArg engine.orderbook.getOrder sameId).trans (sound.apart order List.mem_cons_self)
  have nodup := sound.stopsNodup
  rw [List.map_cons, List.nodup_cons] at nodup
  have unique : ∀ stop ∈ rest, decide (stop.orderId = order.orderId) = false := by
    intro stop member
    simpa using fun own => nodup.1 (List.mem_map.2 ⟨stop, member, own⟩)
  have waiting : (replayed.stopOrders.find? fun stop => stop.orderId = order.orderId) =
      some order := find_eq_of_unique equivalent.stops (by simp) unique
  have stopsLeft : (swapRemoveFirst (fun stop => stop.orderId = order.orderId)
      replayed.stopOrders).Perm rest :=
    (swapRemoveFirst_perm _ _).trans (eraseP_perm_of_unique equivalent.stops (by simp) unique)
  have gone : taker.orderId ∉ (swapRemoveFirst (fun stop => stop.orderId = order.orderId)
      replayed.stopOrders).map BookOrder.orderId := by
    intro member
    have later := (stopsLeft.map BookOrder.orderId).subset member
    exact nodup.1 (sameId ▸ later)
  have drawn := drawn_matchShares wellFormed missing
  rw [absorb, matchOrder_fills wellFormed] at followed
  obtain ⟨restFinal, sameFinal⟩ := follow_triggeredSweep rfl drawn
    ((matchShares_ne_nil_iff wellFormed wanted).2 trades) drawn.stored
    (by simpa only [taker, sameId] using waiting) gone equivalent.book followed
  rw [← matchOrder_book wellFormed] at sameFinal
  exact ⟨sameFinal, by rw [restFinal.stops]; exact stopsLeft,
    restFinal.markPrice.trans equivalent.markPrice,
    restFinal.indexPrice.trans equivalent.indexPrice,
    restFinal.lastFundingRate.trans equivalent.lastFundingRate⟩

private theorem equivalent_triggerOne {order : BookOrder} {rest : List BookOrder}
    {timestamp : UnixMicros} (sound : OrdersSound engine.orderbook (order :: rest) used)
    (equivalent : { engine with stopOrders := order :: rest }.Equivalent replayed)
    (trades : Trades engine.orderbook (convertTriggered order))
    (followed : follow applyEvent replayed (engine.triggerOne order timestamp).2 = .ok final) :
    { (engine.triggerOne order timestamp).1 with stopOrders := rest }.Equivalent final := by
  let result := matchOrder engine.orderbook (convertTriggered order)
  have takerType : result.taker.orderType = (convertTriggered order).orderType :=
    matchOrder_taker_orderType sound.wellFormed
  rcases engine.triggerOne_cases order timestamp with
    ⟨rejected, -⟩ | ⟨-, settled, same⟩ | ⟨-, left, limited, same⟩
  · exact absurd ((matchOrder_rejected_iff sound.wellFormed).1 rejected) trades.1
  · rw [same] at followed ⊢
    have matched := follow_triggeredMatch sound equivalent trades followed
    have nothing : promotedTaker order result.taker.remainingQty = none := by
      rw [promotedTaker, settledTaker]
      rcases settled with filled | market
      · rw [if_pos filled]
        split <;> rfl
      · rw [takerType] at market
        rw [if_neg (by rw [market]; exact Bool.false_ne_true)]
    rw [nothing] at matched
    exact ⟨matched.book, matched.stops, matched.markPrice, matched.indexPrice,
      matched.lastFundingRate⟩
  · rw [same] at followed ⊢
    have matched := follow_triggeredMatch sound equivalent trades followed
    have kept : promotedTaker order result.taker.remainingQty = some result.taker := by
      rw [takerType] at limited
      rw [promotedTaker, settledTaker, if_pos limited, if_neg left]
      exact congrArg some (matchOrder_taker_eq sound.wellFormed).symm
    rw [kept] at matched
    exact ⟨matched.book, matched.stops, matched.markPrice, matched.indexPrice,
      matched.lastFundingRate⟩

private theorem equivalent_triggerAll {pending kept : List BookOrder} {timestamp : UnixMicros}
    (sound : OrdersSound engine.orderbook (pending ++ kept) used)
    (equivalent : { engine with stopOrders := pending ++ kept }.Equivalent replayed)
    (trade : TriggersTrade timestamp engine pending)
    (followed : follow applyEvent replayed (triggerAll timestamp engine pending).2 = .ok final) :
    { (triggerAll timestamp engine pending).1 with stopOrders := kept }.Equivalent final := by
  induction pending generalizing engine replayed with
  | nil =>
      cases followed
      exact equivalent
  | cons order rest inductionHypothesis =>
      obtain ⟨middle, first, later⟩ := follow_append_ok followed
      have one := equivalent_triggerOne sound equivalent trade.1 first
      exact inductionHypothesis (triggerOne_sound sound) one trade.2 later

/-! ## Runs -/

private theorem equivalent_updateMarkPrice (sound : engine.Sound used)
    (equivalent : engine.Equivalent replayed) {symbol : SymbolId} {mark index : Decimal128}
    {timestamp : UnixMicros}
    (trade : TriggersTrade timestamp
      { engine.applyMarkIndexPassive mark index with
        stopOrders := (swapScan (shouldTrigger mark)
          (engine.applyMarkIndexPassive mark index).stopOrders).2 }
      (swapScan (shouldTrigger mark) (engine.applyMarkIndexPassive mark index).stopOrders).1)
    (followed : follow applyEvent replayed (engine.updateMarkPrice symbol mark index timestamp).2 =
      .ok final) : (engine.updateMarkPrice symbol mark index timestamp).1.Equivalent final := by
  obtain ⟨passive, updating, triggering⟩ := follow_cons_ok followed
  cases updating
  let live := engine.applyMarkIndexPassive mark index
  let scanned := swapScan (shouldTrigger mark) live.stopOrders
  let waiting : MatchingEngine := { live with stopOrders := scanned.2 }
  have parts : (scanned.1 ++ scanned.2).Perm live.stopOrders := swapScan_perm _ _
  have soundLive : OrdersSound waiting.orderbook (scanned.1 ++ scanned.2) used :=
    OrdersSound.perm (sound.applyMarkIndexPassive mark index) parts
  have equivalentLive : live.Equivalent (replayed.applyMarkIndexPassive mark index) :=
    ⟨equivalent.book, equivalent.stops.map _, rfl, rfl, equivalent.lastFundingRate⟩
  have reordered : { waiting with stopOrders := scanned.1 ++ scanned.2 }.Equivalent
      (replayed.applyMarkIndexPassive mark index) := equivalentLive.reorder parts
  have triggered := equivalent_triggerAll soundLive reordered trade triggering
  refine { triggered with stops := ?_ }
  have kept := triggered.stops
  rw [updateMarkPrice, triggerAndMatchStops, triggerAll_stopOrders]
  exact kept

/-- One input, done live and replayed. -/
theorem equivalent_step (sound : engine.Sound used) (equivalent : engine.Equivalent replayed)
    {input : EngineInput}
    (fresh : ∀ orderId, input.newOrderId? = some orderId → orderId ∉ used)
    (recorded : engine.Recorded input)
    (followed : follow applyEvent replayed (engine.step input).2 = .ok final) :
    (engine.step input).1.Equivalent final := by
  cases input with
  | expirySweep now =>
      obtain ⟨rest, same⟩ := follow_expireEntries equivalent.book followed
      exact equivalent.of_book ⟨rfl, rfl, rfl, rfl⟩ rest same
  | command issued =>
      let counted : MatchingEngine := { engine with sequence := engine.sequence + 1 }
      have soundCounted : counted.Sound used := sound
      have equivalentCounted : counted.Equivalent replayed :=
        equivalent.of_book ⟨rfl, rfl, rfl, rfl⟩ (BookOnly.refl _) equivalent.book
      cases issued with
      | newOrder order =>
          exact equivalent_handleNewOrder soundCounted equivalentCounted (fresh order.orderId rfl)
            recorded followed
      | cancelOrder orderId userId symbol timestamp =>
          exact equivalent_handleCancelOrder soundCounted equivalentCounted symbol recorded followed
      | amendOrder amend =>
          exact equivalent_handleAmendOrder soundCounted equivalentCounted recorded followed
      | cancelAllOrders userId symbol timestamp =>
          exact equivalent_handleCancelAll soundCounted equivalentCounted followed
      | updateMarkPrice symbol mark index timestamp =>
          exact equivalent_updateMarkPrice soundCounted equivalentCounted recorded followed
      | computeFunding symbol timestamp =>
          obtain ⟨next, updating, nothing⟩ := follow_cons_ok followed
          cases updating
          cases nothing
          exact ⟨equivalent.book, equivalent.stops, equivalent.markPrice, equivalent.indexPrice,
            rfl⟩
      | adminCredit userId amount key timestamp =>
          cases followed
          exact equivalentCounted

/-- Two engines of one configuration start out alike, whatever trade ids they issue. -/
theorem equivalent_new (config : SymbolConfig) (ids replayIds : Nat → TradeId)
    (interestRate : Decimal128) :
    (new config ids interestRate).Equivalent (new config replayIds interestRate) :=
  ⟨OrderBook.SameOrders.refl _, List.Perm.refl _, rfl, rfl, rfl⟩

theorem equivalent_run {start replayStart : MatchingEngine} (soundStart : start.Sound [])
    (equivalentStart : start.Equivalent replayStart) {inputs : List EngineInput}
    (distinct : (newOrderIds inputs).Nodup) (recorded : StepsMeet step Recorded start inputs)
    (replays : follow applyEvent replayStart (run step start inputs).2 = .ok replayed) :
    (run step start inputs).1.Equivalent replayed := by
  have shows := recorded.mono fun _ _ => Recorded.acceptsShown
  refine sound_run_induction (motive := fun _ engine log => ∀ final,
    follow applyEvent replayStart log = .ok final → engine.Equivalent final)
    soundStart distinct shows ?_ ?_ replayed replays
  · intro final nothing
    cases nothing
    exact equivalentStart
  · intro before input engine log ran isPrefix sound fresh equivalent final followed
    obtain ⟨middle, earlier, later⟩ := follow_append_ok followed
    have here : engine.Recorded input := by
      have meets := recorded.of_prefix isPrefix
      rwa [ran] at meets
    exact equivalent_step sound (equivalent middle earlier) fresh here later

/-- A replay that succeeds rebuilds the live engine, in a run whose steps are all recorded. -/
theorem replay_rebuilds_live (config : SymbolConfig) (ids replayIds : Nat → TradeId)
    (interestRate : Decimal128) (inputs : List EngineInput) (distinct : (newOrderIds inputs).Nodup)
    (recorded : StepsMeet step Recorded (new config ids interestRate) inputs)
    (replayed : MatchingEngine)
    (replays : follow applyEvent (new config replayIds interestRate)
      (run step (new config ids interestRate) inputs).2 = .ok replayed) :
    let live := (run step (new config ids interestRate) inputs).1
    (∀ orderId, replayed.orderbook.getOrder orderId = live.orderbook.getOrder orderId) ∧
      (∀ side price, replayed.orderbook.queue side price = live.orderbook.queue side price) ∧
      replayed.stopOrders.Perm live.stopOrders ∧
      replayed.markPrice = live.markPrice ∧ replayed.indexPrice = live.indexPrice ∧
      replayed.lastFundingRate = live.lastFundingRate := by
  intro live
  have equivalent := equivalent_run (sound_new config ids interestRate)
    (equivalent_new config ids replayIds interestRate) distinct recorded replays
  exact ⟨equivalent.book.getOrder, equivalent.book.queue, equivalent.stops, equivalent.markPrice,
    equivalent.indexPrice, equivalent.lastFundingRate⟩

theorem recorded_gatewayOrder (engine : MatchingEngine) (orderId : OrderId) (userId : UserId)
    (side : Side) (price quantity : Int) :
    engine.Recorded (.command (.newOrder (gatewayOrder orderId userId side price quantity))) := by
  have told : ShownTold (gatewayOrder orderId userId side price quantity) := by
    simp [ShownTold, gatewayOrder]
  refine ⟨fun _ => by simp [ShowsPart, gatewayOrder], fun _ _ found _ => ⟨fun _ => told, ?_⟩⟩
  exact fun _ _ _ => ⟨fun _ => told, fun _ => rfl⟩

/-- Two asks, a bid that sweeps the first and takes part of the second, and a cancel. -/
def sweptInputs : List EngineInput :=
  [.command (.newOrder (gatewayOrder 1 7 .sell 100 2)),
    .command (.newOrder (gatewayOrder 2 7 .sell 100 5)),
    .command (.newOrder (gatewayOrder 3 8 .buy 100 4)),
    .command (.cancelOrder 1 9 1 0)]

theorem replay_rebuilds_live_swept :
    ∃ replayed, follow applyEvent (new plainConfig id 0)
        (run step (new plainConfig id 0) sweptInputs).2 = .ok replayed ∧
      replayed.orderbook.getOrder 2 =
        (run step (new plainConfig id 0) sweptInputs).1.orderbook.getOrder 2 := by
  have recorded : StepsMeet step Recorded (new plainConfig id 0) sweptInputs := by
    refine ⟨recorded_gatewayOrder _ 1 7 .sell 100 2, recorded_gatewayOrder _ 2 7 .sell 100 5,
      recorded_gatewayOrder _ 3 8 .buy 100 4, ?_, trivial⟩
    intro order found
    have missing : (run step (new plainConfig id 0)
        [sweptInputs[0], sweptInputs[1], sweptInputs[2]]).1.orderbook.getOrder 1 = none := by
      decide +kernel
    exact absurd (missing.symm.trans found) (by simp)
  have succeeds : (follow applyEvent (new plainConfig id 0)
      (run step (new plainConfig id 0) sweptInputs).2).toOption.isSome = true := by
    decide +kernel
  cases replays : follow applyEvent (new plainConfig id 0)
      (run step (new plainConfig id 0) sweptInputs).2 with
  | error error =>
      rw [replays] at succeeds
      cases succeeds
  | ok replayed =>
      exact ⟨replayed, rfl, (replay_rebuilds_live plainConfig id id 0 sweptInputs (by decide)
        recorded replayed replays).1 2⟩

/-- A buy stop that is triggered while nothing is offered. -/
def silentStop : List Command :=
  [.newOrder { gatewayOrder 1 7 .buy 100 5 with
      orderType := .stopMarket, price := none, stopPrice := some (.ofInt 100) },
    .updateMarkPrice 1 (.ofInt 100) (.ofInt 100) 1]

/-- The live engine drops the stop without an event, so replay still waits for it. -/
theorem replay_keeps_silentStop :
    ¬∀ (config : SymbolConfig) (ids : Nat → TradeId) (interestRate : Decimal128)
      (commands : List Command), (commands.filterMap Command.newOrderId?).Nodup →
      let live := run step (new config ids interestRate) (commands.map .command)
      ∀ replayed, follow applyEvent (new config ids interestRate) live.2 = .ok replayed →
        live.1.Equivalent replayed := by
  intro claimed
  let live := run step (new plainConfig id 0) (silentStop.map .command)
  have liveCount : live.1.stopOrders.length = 0 := by decide +kernel
  have replayCount : (follow applyEvent (new plainConfig id 0) live.2).toOption.map
      (fun replayed => replayed.stopOrders.length) = some 1 := by
    decide +kernel
  cases replays : follow applyEvent (new plainConfig id 0) live.2 with
  | error error =>
      rw [replays] at replayCount
      cases replayCount
  | ok replayed =>
      have equivalent := claimed plainConfig id 0 silentStop (by decide) replayed replays
      rw [replays] at replayCount
      have one : replayed.stopOrders.length = 1 := Option.some.inj replayCount
      have same : replayed.stopOrders.length = live.1.stopOrders.length :=
        equivalent.stops.length_eq
      omega

end MatchingEngine
end Exg
