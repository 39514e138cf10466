import Exg.OrderService.LiveOrders

/-!
# The order service tracks the engine

The order service reads a rejection as the end of its order, an acceptance as nothing new and a
fill's remaining quantity as all that is open.  So it follows the engine as long as no cancel or
amendment of a live order is refused, no amendment changes an order that stays, no fill leaves
an order that hides more, and no triggered order disappears without an event.
-/

namespace Exg

open Support

/-- The taker ends within a maker that hides more. -/
def EndsInHidden (book : OrderBook) (taker : BookOrder) : Prop :=
  ∃ ahead makerId behind maker,
    crossing taker.side.opposite book taker = ahead ++ makerId :: behind ∧
      book.getOrder makerId = some maker ∧ maker.hiddenQty ≠ 0 ∧
      (ahead.map book.remaining).sum < taker.remainingQty ∧
      taker.remainingQty < (ahead.map book.remaining).sum + maker.remainingQty

namespace MatchingEngine

/-- Along the pass over the triggered orders: none is refused, none that is not a limit order
is left open, and none ends within a maker that hides more. -/
def TriggersTraceable (timestamp : UnixMicros) : MatchingEngine → List BookOrder → Prop
  | _, [] => True
  | engine, order :: rest =>
      let taker := convertTriggered order
      ¬Refused engine.orderbook taker ∧
        (taker.orderType.isLimit = true ∨ ¬LeftOpen engine.orderbook taker) ∧
        (Trades engine.orderbook taker → ¬EndsInHidden engine.orderbook taker) ∧
        TriggersTraceable timestamp (engine.triggerOne order timestamp).1 rest

/-- The service can tell from the events what the step leaves live. -/
def Traceable (engine : MatchingEngine) : EngineInput → Prop
  | .command (.newOrder order) =>
      ∀ taker, engine.newTaker? order = some taker → Trades engine.orderbook taker →
        ¬EndsInHidden engine.orderbook taker ∧
          (taker.hiddenQty = 0 ∨ taker.timeInForce = .ioc ∨ taker.timeInForce = .fok)
  | .command (.cancelOrder orderId userId _ _) =>
      ∀ live, engine.liveOrders orderId = some live → live.userId = userId
  | .command (.amendOrder amend) =>
      ∀ live, engine.liveOrders amend.orderId = some live →
        ∃ existing, engine.orderbook.getOrder amend.orderId = some existing ∧
          existing.userId = amend.userId ∧
          (losesPriority existing amend = false →
            ∀ quantity, amend.newQuantity = some quantity → existing.remainingQty ≤ quantity) ∧
          ∀ taker, engine.amendedTaker? amend = some taker →
            let removed := engine.orderbook.removeOrder amend.orderId
            Refused removed taker ∨
              (Trades removed taker ∧ ¬EndsInHidden removed taker ∧
                (LeftOpen removed taker → taker.side = .buy ∧ taker.hiddenQty = 0))
  | .command (.updateMarkPrice _ mark index timestamp) =>
      let counted := { engine with sequence := engine.sequence + 1 }
      let passive := counted.applyMarkIndexPassive mark index
      let scanned := swapScan (shouldTrigger mark) passive.stopOrders
      TriggersTraceable timestamp { passive with stopOrders := scanned.2 } scanned.1
  | .command (.cancelAllOrders ..) => True
  | .command (.computeFunding ..) => True
  | .command (.adminCredit ..) => True
  | .expirySweep _ => True

variable {engine : MatchingEngine} {used : List OrderId}

/-! ## Matches -/

/-- The remaining quantity that the fills of a match report. -/
def reported (book : OrderBook) (taker : BookOrder) (orderId : OrderId) : Decimal128 :=
  if orderId = taker.orderId then taker.remainingQty
  else (book.getOrder orderId).elim 0 BookOrder.remainingQty

private theorem reports_absorb {book : OrderBook} {taker : BookOrder} (wellFormed : book.WellFormed)
    (missing : book.getOrder taker.orderId = none) (symbol : SymbolId) (timestamp : UnixMicros) :
    Reports (reported (matchOrder book taker).book (matchOrder book taker).taker)
      (engine.absorb (matchOrder book taker) symbol timestamp).2 := by
  intro event emitted
  obtain ⟨fill, member, tradeId, inside⟩ := mem_emitFillEvents emitted
  obtain ⟨own, other⟩ := maker_ne_taker wellFormed missing fill member
  have takerId : (matchOrder book taker).taker.orderId = taker.orderId :=
    matchOrder_taker_orderId wellFormed
  simp only [fillEvents, List.mem_cons, List.not_mem_nil, or_false] at inside
  rcases inside with rfl | rfl | rfl
  · refine Or.inl ⟨_, rfl, ?_⟩
    rw [reported, takerId]
    exact (if_neg other).symm
  · refine Or.inl ⟨_, rfl, ?_⟩
    rw [reported, takerId]
    exact (if_pos own).symm
  · exact Or.inr ⟨_, rfl⟩

private theorem mem_legs_absorb {book : OrderBook} {taker : BookOrder}
    (wellFormed : book.WellFormed)
    (symbol : SymbolId) (timestamp : UnixMicros) (orderId : OrderId) :
    orderId ∈ (legKeys (engine.absorb (matchOrder book taker) symbol timestamp).2).map Prod.fst ↔
      orderId ∈ (matchShares book taker).map Prod.fst ∨
        (orderId = taker.orderId ∧ matchShares book taker ≠ []) := by
  have legs : (legKeys (engine.absorb (matchOrder book taker) symbol timestamp).2).map Prod.fst =
      (matchOrder book taker).fills.flatMap fun fill => [fill.makerOrderId, fill.takerOrderId] :=
    legKeys_emitFillEvents _ _ _ _ _ _ _
  rw [legs, matchOrder_fills wellFormed, List.mem_flatMap]
  constructor
  · rintro ⟨fill, member, own⟩
    obtain ⟨share, drawn, maker, found, rfl⟩ := mem_fillsOf.1 member
    rcases List.mem_cons.1 own with ofMaker | ofTaker
    · exact Or.inl (ofMaker ▸ List.mem_map_of_mem drawn)
    · exact Or.inr ⟨List.mem_singleton.1 ofTaker, List.ne_nil_of_mem drawn⟩
  · intro told
    have filled : ∀ share ∈ matchShares book taker, ∃ maker,
        fillAgainst taker maker share.1 share.2 ∈ fillsOf book taker (matchShares book taker) := by
      intro share drawn
      obtain ⟨maker, found, -⟩ := matchShares_stored wellFormed drawn
      exact ⟨maker, mem_fillsOf.2 ⟨share, drawn, maker, found, rfl⟩⟩
    rcases told with listed | ⟨rfl, shares⟩
    · obtain ⟨share, drawn, rfl⟩ := List.mem_map.1 listed
      obtain ⟨maker, member⟩ := filled share drawn
      exact ⟨_, member, List.mem_cons_self⟩
    · obtain ⟨share, drawn⟩ := List.exists_mem_of_ne_nil _ shares
      obtain ⟨maker, member⟩ := filled share drawn
      exact ⟨_, member, List.mem_cons_of_mem _ (List.mem_singleton_self _)⟩

/-- A maker that is told of in part hides nothing. -/
theorem hidden_of_part {book : OrderBook} {taker : BookOrder} (wellFormed : book.WellFormed)
    (wants : 0 < taker.remainingQty)
    (told : Trades book taker → ¬EndsInHidden book taker) {share : OrderId × Decimal128}
    (drawn : share ∈ matchShares book taker) {maker : BookOrder}
    (found : book.getOrder share.1 = some maker) (part : share.2 < maker.remainingQty) :
    maker.hiddenQty = 0 := by
  by_contra hides
  have trades := (matchShares_ne_nil_iff wellFormed wants.ne').1 (List.ne_nil_of_mem drawn)
  have whole := OrderBook.remaining_of_some found
  rw [← whole] at part
  obtain ⟨ahead, behind, split, above, below⟩ :=
    share_between wants.le (mem_greedyShares_of_matchShares drawn) part
  rw [whole] at below
  exact told trades ⟨ahead, share.1, behind, maker, split, found, hides, above, below⟩

/-- What the events of a match say of every order: the makers stand as the match leaves them,
and the taker as the last fill reports it. -/
theorem receive_absorb {book : OrderBook} {taker : BookOrder} {stops : List BookOrder}
    (sound : OrdersSound book stops used) (missing : book.getOrder taker.orderId = none)
    (wants : 0 < taker.remainingQty) (told : Trades book taker → ¬EndsInHidden book taker)
    {active : ActiveOrders}
    (others : ∀ other, other ≠ taker.orderId → active other = liveAmong book stops other)
    (symbol : SymbolId) (timestamp : UnixMicros) :
    active.receive ((engine.absorb (matchOrder book taker) symbol timestamp).2.map .event) =
      Function.update (liveAmong (matchOrder book taker).book stops) taker.orderId
        (if matchShares book taker = [] then active taker.orderId
        else settle (matchOrder book taker).taker.remainingQty (active taker.orderId)) := by
  have wellFormed := sound.wellFormed
  funext orderId
  rw [receive_reports (reports_absorb wellFormed missing symbol timestamp)]
  simp only [mem_legs_absorb wellFormed]
  have takerId : (matchOrder book taker).taker.orderId = taker.orderId :=
    matchOrder_taker_orderId wellFormed
  by_cases own : orderId = taker.orderId
  · have absent : taker.orderId ∉ (matchShares book taker).map Prod.fst := by
      intro listed
      obtain ⟨share, drawn, same⟩ := List.mem_map.1 listed
      obtain ⟨maker, found, -⟩ := matchShares_stored wellFormed drawn
      rw [same, missing] at found
      cases found
    rw [own, Function.update_self, reported, if_pos takerId.symm]
    by_cases nothing : matchShares book taker = []
    · rw [if_pos nothing, if_neg]
      simp [nothing]
    · rw [if_neg nothing, if_pos (Or.inr ⟨rfl, nothing⟩)]
  · rw [Function.update_of_ne own, others orderId own]
    simp only [own, false_and, or_false]
    by_cases listed : orderId ∈ (matchShares book taker).map Prod.fst
    · obtain ⟨share, drawn, rfl⟩ := List.mem_map.1 listed
      obtain ⟨maker, found, -⟩ := matchShares_stored wellFormed drawn
      have notWaiting := sound.notWaiting_of_resting found
      have after := OrderBook.getOrder_takeOut_of_mem (matchShares_nodup wellFormed) drawn found
      rw [← matchOrder_book wellFormed] at after
      rw [if_pos listed, liveAmong_of_book found, liveAmong_of_not_waiting notWaiting, reported,
        if_neg (by rwa [takerId]), after]
      split
      · exact settle_zero _
      · rename_i keeps
        have bounds := (matchShares_bounds wellFormed sound.positive wants.le drawn).2
        rw [OrderBook.remaining_of_some found] at bounds
        have part : share.2 < maker.remainingQty := lt_of_le_of_ne bounds (Ne.symm keeps)
        have hidden := hidden_of_part wellFormed wants told drawn found part
        change settle (maker.remainingQty - share.2) (some maker.active) = _
        rw [settle, if_neg (sub_ne_zero.2 keeps)]
        simp [BookOrder.active, BookOrder.openQty, hidden]
    · rw [if_neg listed]
      apply (liveAmong_congr _).symm
      rw [matchOrder_book wellFormed]
      exact OrderBook.getOrder_takeOut_of_not_mem listed

/-- A match that takes everything is one that fills. -/
theorem matchShares_of_filled {book : OrderBook} {taker : BookOrder} (wellFormed : book.WellFormed)
    (wants : 0 < taker.remainingQty) (filled : (matchOrder book taker).taker.remainingQty = 0) :
    matchShares book taker ≠ [] := by
  intro nothing
  rw [matchOrder_taker_untouched wellFormed nothing] at filled
  exact wants.ne' filled

section Taker

variable {book : OrderBook} {taker : BookOrder} {stops : List BookOrder}

/-- The events of a match say of a live taker what is left of it. -/
theorem receive_absorb_taker (sound : OrdersSound book stops used)
    (missing : book.getOrder taker.orderId = none) (wants : 0 < taker.remainingQty)
    (told : Trades book taker → ¬EndsInHidden book taker) {active : ActiveOrders}
    (others : ∀ other, other ≠ taker.orderId → active other = liveAmong book stops other)
    {stands : ActiveOrder} (stored : active taker.orderId = some stands)
    (untouched : matchShares book taker = [] → stands.openQty = taker.remainingQty)
    (symbol : SymbolId) (timestamp : UnixMicros) :
    active.receive ((engine.absorb (matchOrder book taker) symbol timestamp).2.map .event) =
      Function.update (liveAmong (matchOrder book taker).book stops) taker.orderId
        (settle (matchOrder book taker).taker.remainingQty (some stands)) := by
  rw [receive_absorb sound missing wants told others, stored]
  congr 1
  by_cases nothing : matchShares book taker = []
  · rw [if_pos nothing, matchOrder_taker_untouched sound.wellFormed nothing,
      ← untouched nothing, settle, if_neg (untouched nothing ▸ wants.ne')]
    rfl
  · rw [if_neg nothing]

/-- A taker that does not go on the book is not live after its match. -/
theorem update_liveAmong_gone (wellFormed : book.WellFormed)
    (missing : book.getOrder taker.orderId = none)
    (notWaiting : taker.orderId ∉ stops.map BookOrder.orderId) :
    Function.update (liveAmong (matchOrder book taker).book stops) taker.orderId none =
      liveAmong (matchOrder book taker).book stops := by
  rw [← liveAmong_eq_none (getOrder_matchOrder_of_none wellFormed missing) notWaiting,
    Function.update_eq_self]

private theorem matchOrder_taker_active (wellFormed : book.WellFormed) :
    (matchOrder book taker).taker.active =
      ⟨taker.userId, taker.side,
        (matchOrder book taker).taker.remainingQty + taker.hiddenQty⟩ := by
  have final : (matchOrder book taker).taker =
      taker.withRemaining (matchOrder book taker).taker.remainingQty :=
    matchOrder_taker_eq wellFormed
  rw [BookOrder.active, BookOrder.openQty, final]
  rfl

/-- A taker that goes on the book is live with what it has left. -/
theorem liveAmong_insertTaker (wellFormed : book.WellFormed) :
    liveAmong ((matchOrder book taker).book.insertOrder (matchOrder book taker).taker) stops =
      Function.update (liveAmong (matchOrder book taker).book stops) taker.orderId
        (some ⟨taker.userId, taker.side,
          (matchOrder book taker).taker.remainingQty + taker.hiddenQty⟩) := by
  rw [liveAmong_insertOrder, matchOrder_taker_active wellFormed,
    matchOrder_taker_orderId wellFormed]

private theorem refillIceberg_active (timestamp : UnixMicros) (order : BookOrder) :
    (refillIceberg timestamp order).active = order.active := by
  have sameOwner : (refillIceberg timestamp order).userId = order.userId ∧
      (refillIceberg timestamp order).side = order.side := by
    rw [refillIceberg]
    split <;> exact ⟨rfl, rfl⟩
  rw [BookOrder.active, BookOrder.active, refillIceberg_openQty, sameOwner.1, sameOwner.2]

private theorem liveAmong_insertRefilled (wellFormed : book.WellFormed) (timestamp : UnixMicros) :
    liveAmong ((matchOrder book taker).book.insertOrder
        (refillIceberg timestamp (matchOrder book taker).taker)) stops =
      Function.update (liveAmong (matchOrder book taker).book stops) taker.orderId
        (some ⟨taker.userId, taker.side,
          (matchOrder book taker).taker.remainingQty + taker.hiddenQty⟩) := by
  rw [← liveAmong_insertTaker wellFormed, liveAmong_insertOrder, refillIceberg_orderId,
    refillIceberg_active, liveAmong_insertOrder]

/-- What a taker leaves open is what its fills report, unless it trades and hides more. -/
theorem settled_rest (wellFormed : book.WellFormed) (wants : 0 < taker.remainingQty)
    (partly : Trades book taker →
      taker.hiddenQty = 0 ∧ (matchOrder book taker).taker.remainingQty ≠ 0)
    (userId : UserId) (side : Side) :
    (if matchShares book taker = [] then some ⟨userId, side, taker.openQty⟩
      else settle (matchOrder book taker).taker.remainingQty
        (some ⟨userId, side, taker.openQty⟩)) =
      some ⟨userId, side, (matchOrder book taker).taker.remainingQty + taker.hiddenQty⟩ := by
  by_cases nothing : matchShares book taker = []
  · rw [if_pos nothing, matchOrder_taker_untouched wellFormed nothing, BookOrder.openQty]
  · obtain ⟨shown, left⟩ := partly ((matchShares_ne_nil_iff wellFormed wants.ne').1 nothing)
    rw [if_neg nothing, settle, if_neg left, shown, add_zero]
    rfl

end Taker

/-! ## New orders -/

/-- The acceptance of a new order, which the service has a record of, says nothing new. -/
theorem receive_accepted {active : ActiveOrders} {accepted : OrderAccepted} {order : ActiveOrder}
    (stored : active accepted.orderId = some order) (fills rest : List Event) :
    active.receive ((.orderAccepted accepted :: fills ++ rest).map .event) =
      (active.receive (fills.map .event)).receive (rest.map .event) := by
  rw [List.cons_append, List.map_cons, ActiveOrders.receive_cons,
    ActiveOrders.step_accepted stored, List.map_append, ActiveOrders.receive_append]

private theorem newBookOrder_active (markPrice : Decimal128) (order : NewOrder)
    (price : Decimal128) :
    (newBookOrder markPrice order price).active = ⟨order.userId, order.side, order.quantity⟩ := by
  rw [BookOrder.active, BookOrder.openQty]
  exact congrArg (ActiveOrder.mk order.userId order.side) (splitQuantity_sum order)

/-- A new order that is filled has nothing left that is hidden either. -/
theorem newTaker_filled {order : NewOrder} {price : Decimal128}
    (wellFormed : engine.orderbook.WellFormed) (positive : 0 < order.quantity)
    (shows : ShowsPart order) (accepted : icebergAccepted engine.symbolConfig order = true)
    (filled : (refillIceberg order.timestamp (matchOrder engine.orderbook
      (newBookOrder engine.markPrice order price)).taker).remainingQty = 0) :
    (matchOrder engine.orderbook
      (newBookOrder engine.markPrice order price)).taker.remainingQty = 0 := by
  have bounds := splitQuantity_bounds positive shows
  have closed := openQty_of_nothing_shown wellFormed positive shows accepted filled
  have remaining : 0 ≤ (matchOrder engine.orderbook
      (newBookOrder engine.markPrice order price)).taker.remainingQty :=
    matchOrder_taker_nonneg wellFormed bounds.1.le
  have hidden : 0 ≤ (matchOrder engine.orderbook
      (newBookOrder engine.markPrice order price)).taker.hiddenQty := by
    rw [matchOrder_taker_eq wellFormed]
    exact bounds.2
  rw [BookOrder.openQty] at closed
  exact ((add_eq_zero_iff_of_nonneg remaining hidden).1 closed).1

/-- What is left of a new order stands on the book as its fills report it, or is canceled. -/
theorem tracks_placed {order : NewOrder} {price : Decimal128} (sound : engine.Sound used)
    (positive : 0 < order.quantity) (shows : ShowsPart order)
    (accepted : icebergAccepted engine.symbolConfig order = true)
    (fresh : order.orderId ∉ used)
    (admitted : (matchOrder engine.orderbook
      (newBookOrder engine.markPrice order price)).rejected = false)
    (traceable : Trades engine.orderbook (newBookOrder engine.markPrice order price) →
      ¬EndsInHidden engine.orderbook (newBookOrder engine.markPrice order price) ∧
        ((splitQuantity order).2 = 0 ∨ order.timeInForce = .ioc ∨ order.timeInForce = .fok)) :
    ActiveOrders.receive (Function.update engine.liveOrders order.orderId
        (some ⟨order.userId, order.side, order.quantity⟩))
      ((engine.matchNewOrder (newBookOrder engine.markPrice order price) order.timestamp).2.map
        .event) =
      (engine.matchNewOrder (newBookOrder engine.markPrice order price)
        order.timestamp).1.liveOrders := by
  let taker := newBookOrder engine.markPrice order price
  let result := matchOrder engine.orderbook taker
  let absorbed := engine.absorb result taker.symbol order.timestamp
  let resting := refillIceberg order.timestamp result.taker
  let placedActive : ActiveOrders := Function.update engine.liveOrders order.orderId
    (some ⟨order.userId, order.side, order.quantity⟩)
  have wellFormed := sound.wellFormed
  have missing : engine.orderbook.getOrder taker.orderId = none := sound.missing_of_unused fresh
  have notWaiting := sound.notWaiting_of_unused fresh
  have bounds := splitQuantity_bounds positive shows
  have wants : 0 < taker.remainingQty := bounds.1
  have own : resting.orderId = order.orderId :=
    (refillIceberg_orderId _ _).trans (matchOrder_taker_orderId wellFormed)
  have matched : placedActive.receive (absorbed.2.map .event) =
      Function.update (liveAmong result.book engine.stopOrders) order.orderId
        (if matchShares engine.orderbook taker = [] then
          some ⟨order.userId, order.side, order.quantity⟩
        else settle result.taker.remainingQty
          (some ⟨order.userId, order.side, order.quantity⟩)) := by
    have received : placedActive.receive (absorbed.2.map .event) = _ :=
      receive_absorb sound missing wants (fun trades => (traceable trades).1)
        (fun other apart => Function.update_of_ne apart _ _) taker.symbol order.timestamp
    have stored : placedActive taker.orderId =
        some ⟨order.userId, order.side, order.quantity⟩ := Function.update_self _ _ _
    rwa [stored] at received
  have gone : Function.update (liveAmong result.book engine.stopOrders) order.orderId none =
      liveAmong result.book engine.stopOrders :=
    update_liveAmong_gone wellFormed missing notWaiting
  have outcome := (engine.matchNewOrder_cases taker order.timestamp).resolve_left
    (fun rejects => by simp [taker, admitted] at rejects)
  rw [outcome.2]
  have known : placedActive (acceptedOf taker taker.symbol order.timestamp).orderId =
      some ⟨order.userId, order.side, order.quantity⟩ := Function.update_self _ _ _
  have heard := receive_accepted known absorbed.2
  rcases absorbed.1.placeRemaining_cases resting order.timestamp with
    ⟨filled, placed⟩ | ⟨-, -, placed⟩ | ⟨left, -, notIoc, notFok, placed⟩
  · have nothing : result.taker.remainingQty = 0 :=
      newTaker_filled wellFormed positive shows accepted filled
    have fills : matchShares engine.orderbook taker ≠ [] :=
      matchShares_of_filled wellFormed wants nothing
    dsimp only
    rw [placed, heard, matched, if_neg fills, nothing, settle_zero, gone]
    rfl
  · dsimp only
    rw [placed, heard, matched, List.map_singleton, ActiveOrders.receive_cons, ActiveOrders.step,
      own, Function.update_idem, gone]
    rfl
  · have rests : (absorbed.1.restOnBook resting).liveOrders =
        Function.update (liveAmong result.book engine.stopOrders) order.orderId
          (some ⟨order.userId, order.side,
            result.taker.remainingQty + (splitQuantity order).2⟩) :=
      liveAmong_insertRefilled wellFormed order.timestamp
    dsimp only
    rw [placed, heard, matched, rests, List.map_nil, ActiveOrders.receive_nil]
    have partly : Trades engine.orderbook taker →
        taker.hiddenQty = 0 ∧ result.taker.remainingQty ≠ 0 := by
      intro trades
      have sameForce : resting.timeInForce = order.timeInForce := by
        change (refillIceberg order.timestamp result.taker).timeInForce = _
        rw [refillIceberg_timeInForce, matchOrder_taker_eq wellFormed]
        rfl
      rw [sameForce] at notIoc notFok
      have shown : (splitQuantity order).2 = 0 :=
        (traceable trades).2.resolve_right (not_or.2 ⟨notIoc, notFok⟩)
      have hidden : result.taker.hiddenQty = 0 := by
        rw [matchOrder_taker_eq wellFormed]
        exact shown
      have stays : resting = result.taker := refillIceberg_of_nothing_hidden _ hidden
      rw [stays] at left
      exact ⟨shown, left⟩
    have whole : taker.openQty = order.quantity := splitQuantity_sum order
    rw [← whole]
    exact congrArg _ (settled_rest wellFormed wants partly order.userId order.side)

private theorem tracks_newOrder (sound : engine.Sound used) {order : NewOrder}
    (shows : engine.AcceptsShown (.command (.newOrder order))) (fresh : order.orderId ∉ used)
    (traceable : engine.Traceable (.command (.newOrder order))) :
    engine.liveOrders.receive (.create order :: (engine.handleNewOrder order).2.map .event) =
      (engine.handleNewOrder order).1.liveOrders := by
  have missing := sound.missing_of_unused fresh
  have notWaiting := sound.notWaiting_of_unused fresh
  have unknown : engine.liveOrders order.orderId = none := liveAmong_eq_none missing notWaiting
  have created : engine.liveOrders.step (.create order) =
      Function.update engine.liveOrders order.orderId
        (some ⟨order.userId, order.side, order.quantity⟩) := by
    rw [ActiveOrders.step, unknown, Option.getD_none]
  have forgotten : ∀ userId reason timestamp,
      engine.liveOrders.receive
        [.create order, .event (.orderRejected order.orderId userId reason timestamp)] =
      engine.liveOrders := by
    intro userId reason timestamp
    rw [ActiveOrders.receive_cons, created, ActiveOrders.receive_cons, ActiveOrders.step,
      Function.update_idem, ← unknown, Function.update_eq_self, ActiveOrders.receive_nil]
  rcases engine.handleNewOrder_cases order with
    ⟨reason, same⟩ | ⟨price, positive, -, priced, accepted, ⟨-, same⟩ | ⟨plain, same⟩⟩
  · rw [same]
    exact forgotten _ _ _
  · rw [same]
    let stop := newBookOrder engine.markPrice order price
    have waits : ((engine.stopOrders ++ [stop]).map BookOrder.orderId).Nodup := by
      rw [List.map_append]
      apply List.Nodup.append sound.stopsNodup (List.nodup_singleton _)
      intro other earlier own
      rw [List.mem_singleton.1 own] at earlier
      exact notWaiting earlier
    have after : liveAmong engine.orderbook (engine.stopOrders ++ [stop]) =
        Function.update engine.liveOrders order.orderId
          (some ⟨order.userId, order.side, order.quantity⟩) := by
      rw [liveAmong_perm (List.perm_append_singleton stop engine.stopOrders) waits,
        liveAmong_cons missing, newBookOrder_active]
      rfl
    rw [List.map_singleton, ActiveOrders.receive_cons, created, ActiveOrders.receive_cons,
      ActiveOrders.receive_nil]
    have known : (Function.update engine.liveOrders order.orderId
        (some ⟨order.userId, order.side, order.quantity⟩) : ActiveOrders) stop.orderId =
        some ⟨order.userId, order.side, order.quantity⟩ := Function.update_self _ _ _
    exact (ActiveOrders.step_accepted known).trans after.symm
  · rw [same]
    have brings : engine.newTaker? order = some (newBookOrder engine.markPrice order price) := by
      rw [newTaker?, if_pos ⟨positive, missing, accepted, plain⟩, priced]
      rfl
    cases admitted : (matchOrder engine.orderbook
        (newBookOrder engine.markPrice order price)).rejected with
    | true =>
        have outcome := (engine.matchNewOrder_cases (newBookOrder engine.markPrice order price)
          order.timestamp).resolve_right (fun admits => by simp [admitted] at admits)
        rw [outcome.2]
        exact forgotten _ _ _
    | false =>
        rw [ActiveOrders.receive_cons, created]
        exact tracks_placed sound positive (shows accepted) accepted fresh admitted
          (traceable _ brings)

/-! ## Cancels -/

/-- The id of a waiting order is not among the others. -/
theorem notWaiting_of_erased (sound : engine.Sound used) {orderId : OrderId} {order : BookOrder}
    (found : (engine.stopOrders.find? fun stop => stop.orderId = orderId) = some order) :
    engine.liveOrders = Function.update (liveAmong engine.orderbook
        (engine.stopOrders.eraseP fun stop => stop.orderId = orderId)) orderId
          (some order.active) ∧
      orderId ∉ (engine.stopOrders.eraseP fun stop => stop.orderId = orderId).map
        BookOrder.orderId := by
  have own : order.orderId = orderId := by simpa using List.find?_some found
  have moved := find_cons_eraseP_perm found
  have missing := sound.apart order (List.mem_of_find?_eq_some found)
  have distinct := (moved.map BookOrder.orderId).nodup_iff.2 sound.stopsNodup
  constructor
  · change liveAmong engine.orderbook engine.stopOrders = _
    rw [← liveAmong_perm moved distinct, liveAmong_cons missing, own]
  · rw [List.map_cons, List.nodup_cons, own] at distinct
    exact distinct.1

private theorem tracks_cancelOrder (sound : engine.Sound used) {orderId : OrderId} {userId : UserId}
    (symbol : SymbolId) {timestamp : UnixMicros}
    (traceable : engine.Traceable (.command (.cancelOrder orderId userId symbol timestamp))) :
    engine.liveOrders.receive ((engine.handleCancelOrder orderId userId timestamp).2.map .event) =
      (engine.handleCancelOrder orderId userId timestamp).1.liveOrders := by
  rcases engine.handleCancelOrder_cases orderId userId timestamp with
    ⟨missing, none, same⟩ | ⟨order, found, -, same⟩ | ⟨order, found, other, -⟩ |
      ⟨order, missing, waits, -, same⟩ | ⟨order, missing, waits, other, -⟩
  · rw [same]
    have unknown : engine.liveOrders orderId = .none := by
      change liveAmong engine.orderbook engine.stopOrders orderId = .none
      rw [liveAmong, missing, none]
      rfl
    rw [List.map_singleton, ActiveOrders.receive_cons, ActiveOrders.step, ← unknown,
      Function.update_eq_self, ActiveOrders.receive_nil]
  · rw [same]
    exact (liveAmong_removed (engine.orderbook.getOrder_removeOrder orderId)
      (sound.notWaiting_of_resting found)).symm
  · exact absurd (traceable order.active (liveAmong_of_book found)) other
  · rw [same]
    obtain ⟨live, gone⟩ := notWaiting_of_erased sound waits
    rw [List.map_singleton, ActiveOrders.receive_cons, ActiveOrders.step, live,
      Function.update_idem, ← liveAmong_eq_none missing gone, Function.update_eq_self]
    rfl
  · have live : engine.liveOrders orderId = some order.active := by
      rw [(notWaiting_of_erased sound waits).1, Function.update_self]
    exact absurd (traceable order.active live) other

private theorem tracks_cancelAll (sound : engine.Sound used) (userId : UserId) (symbol : SymbolId)
    (timestamp : UnixMicros) :
    engine.liveOrders.receive ((engine.handleCancelAll userId symbol timestamp).2.map .event) =
      (engine.handleCancelAll userId symbol timestamp).1.liveOrders := by
  let fromBook := engine.orderbook.cancelAllUserOrders userId
  let scanned := swapScan (fun stop : BookOrder =>
    decide (stop.userId = userId) && decide (stop.symbol = symbol)) engine.stopOrders
  have scanPerm : (scanned.1 ++ scanned.2).Perm engine.stopOrders := swapScan_perm _ _
  have distinct : ((scanned.1 ++ scanned.2).map BookOrder.orderId).Nodup :=
    (scanPerm.map BookOrder.orderId).nodup_iff.2 sound.stopsNodup
  have bookPart : engine.liveOrders.receive (fromBook.2.map fun order =>
      .event (.orderCanceled order.orderId userId symbol order.remainingQty timestamp)) =
        liveAmong fromBook.1 engine.stopOrders := by
    change engine.liveOrders.receive ((engine.orderbook.cancelAllUserOrders userId).2.map _) =
      liveAmong (engine.orderbook.cancelAllUserOrders userId).1 engine.stopOrders
    rw [OrderBook.cancelAllUserOrders]
    cases entry : engine.orderbook.userOrders[userId]? with
    | none => rfl
    | some orderIds =>
        let unlisted : OrderBook :=
          { engine.orderbook with userOrders := engine.orderbook.userOrders.erase userId }
        have levels : unlisted.LevelsWellFormed := sound.wellFormed.toLevels.congr rfl rfl rfl
        exact receive_cancelOrders levels sound.apart
  have stopPart : (liveAmong fromBook.1 (scanned.1 ++ scanned.2)).receive
      (scanned.1.map fun order =>
        .event (.orderCanceled order.orderId userId symbol order.remainingQty timestamp)) =
        liveAmong fromBook.1 scanned.2 := by
    apply receive_canceled fromBook.1 scanned.2 _ distinct
    intro stop member
    exact (sound.cancelAllUserOrders userId).apart stop
      (scanPerm.subset (List.mem_append_left _ member))
  rw [liveAmong_perm scanPerm distinct] at stopPart
  have events : (engine.handleCancelAll userId symbol timestamp).2.map OrderInput.event =
      (fromBook.2.map fun order =>
        OrderInput.event
          (.orderCanceled order.orderId userId symbol order.remainingQty timestamp)) ++
      scanned.1.map fun order =>
        .event (.orderCanceled order.orderId userId symbol order.remainingQty timestamp) := by
    rw [handleCancelAll, List.map_append, List.map_map, List.map_map]
    rfl
  rw [events, ActiveOrders.receive_append, bookPart, stopPart]
  rfl

/-! ## Amendments -/

/-- An amended order that trades stands as its last fill reports it. -/
theorem tracks_reinserted (sound : engine.Sound used) {amend : AmendOrder} {existing : BookOrder}
    (found : engine.orderbook.getOrder amend.orderId = some existing)
    (valid : ¬AmendInvalid existing amend)
    (trades : Trades (engine.orderbook.removeOrder amend.orderId) (amendedOrder existing amend))
    (told : ¬EndsInHidden (engine.orderbook.removeOrder amend.orderId)
      (amendedOrder existing amend))
    (leftOpen : LeftOpen (engine.orderbook.removeOrder amend.orderId)
      (amendedOrder existing amend) → existing.side = .buy ∧ existing.hiddenQty = 0) :
    engine.liveOrders.receive ((engine.reinsertAmended existing amend).2.map .event) =
      (engine.reinsertAmended existing amend).1.liveOrders := by
  let removed := engine.orderbook.removeOrder amend.orderId
  let taker := amendedOrder existing amend
  let result := matchOrder removed taker
  have removedSound : OrdersSound removed engine.stopOrders used := sound.removeOrder amend.orderId
  have wellFormed := removedSound.wellFormed
  have notWaiting := sound.notWaiting_of_resting found
  have sameId : existing.orderId = amend.orderId := sound.wellFormed.toLevels.keyed found
  have keyed : taker.orderId = amend.orderId := sameId
  have missing : removed.getOrder taker.orderId = none := by
    rw [keyed, OrderBook.getOrder_removeOrder, if_pos rfl]
  have wants : 0 < taker.remainingQty := not_le.1 (not_or.1 valid).1
  have admitted : result.rejected = false := by
    rw [← Bool.not_eq_true, matchOrder_rejected_iff wellFormed]
    exact trades.1
  have fills : matchShares removed taker ≠ [] :=
    (matchShares_ne_nil_iff wellFormed wants.ne').2 trades
  have outcome := (engine.reinsertAmended_cases existing amend).resolve_left
    (fun refused => by
      obtain ⟨-, invalid | rejected, -⟩ := refused
      · exact valid invalid
      · rw [admitted] at rejected
        cases rejected)
  let absorbed := engine.absorb result amend.symbol amend.timestamp
  let accepted := acceptedOf result.taker amend.symbol amend.timestamp
  let reopened : ActiveOrders :=
    Function.update engine.liveOrders amend.orderId (some ⟨existing.userId, .buy, 0⟩)
  have acceptedId : accepted.orderId = amend.orderId :=
    (matchOrder_taker_orderId wellFormed).trans keyed
  have acceptedUser : accepted.userId = existing.userId := by
    change result.taker.userId = existing.userId
    rw [matchOrder_taker_eq wellFormed]
    rfl
  have reaccepted : (engine.liveOrders.step (.event (.orderCanceled amend.orderId amend.userId
      amend.symbol existing.remainingQty amend.timestamp))).step
        (.event (.orderAccepted accepted)) = reopened := by
    rw [ActiveOrders.step, ActiveOrders.step, acceptedId, acceptedUser, Function.update_self,
      Option.getD_none, Function.update_idem]
  have others : ∀ other, other ≠ taker.orderId →
      reopened other = liveAmong removed engine.stopOrders other := by
    intro other apart
    rw [keyed] at apart
    change Function.update engine.liveOrders amend.orderId _ other = _
    rw [Function.update_of_ne apart]
    apply (liveAmong_congr _).symm
    rw [OrderBook.getOrder_removeOrder, if_neg (Ne.symm apart)]
  have stored : reopened taker.orderId = some ⟨existing.userId, .buy, 0⟩ := by
    rw [keyed]
    exact Function.update_self _ _ _
  have matched : reopened.receive (absorbed.2.map .event) =
      Function.update (liveAmong result.book engine.stopOrders) taker.orderId
        (settle result.taker.remainingQty (some ⟨existing.userId, .buy, 0⟩)) :=
    receive_absorb_taker removedSound missing wants (fun _ => told) others stored
      (fun nothing => absurd nothing fills) amend.symbol amend.timestamp
  have limited : result.taker.orderType.isLimit = true := by
    rw [matchOrder_taker_eq wellFormed]
    exact (sound.resting found).isLimit
  rw [outcome.2.2]
  dsimp only
  rw [List.map_cons, ActiveOrders.receive_cons, List.map_cons, ActiveOrders.receive_cons,
    reaccepted, matched]
  by_cases left : result.taker.remainingQty = 0
  · have gone : Function.update (liveAmong result.book engine.stopOrders) taker.orderId none =
        liveAmong result.book engine.stopOrders :=
      update_liveAmong_gone wellFormed missing (keyed ▸ notWaiting)
    rw [if_pos (Or.inl left), left, settle_zero, gone]
    rfl
  · have open' := (taker_left_iff wellFormed removedSound.positive wants admitted).1 left
    obtain ⟨buys, shown⟩ := leftOpen open'
    have rests : liveAmong (result.book.insertOrder result.taker) engine.stopOrders =
        Function.update (liveAmong result.book engine.stopOrders) taker.orderId
          (some ⟨existing.userId, existing.side,
            result.taker.remainingQty + existing.hiddenQty⟩) :=
      liveAmong_insertTaker wellFormed
    rw [buys, shown, add_zero] at rests
    rw [if_neg (not_or.2 ⟨left, by simp [result, removed, taker, limited]⟩), settle, if_neg left]
    exact rests.symm

/-- An amendment of an order that is not live is refused. -/
theorem tracks_amendMissing {amend : AmendOrder} (live : engine.liveOrders amend.orderId = none) :
    engine.liveOrders.receive ((engine.handleAmendOrder amend).2.map .event) =
      (engine.handleAmendOrder amend).1.liveOrders := by
  have missing : engine.orderbook.getOrder amend.orderId = none := by
    rw [Option.eq_none_iff_forall_ne_some]
    intro order found
    have known : engine.liveOrders amend.orderId = some order.active := liveAmong_of_book found
    rw [live] at known
    cases known
  have refused : engine.handleAmendOrder amend = (engine,
      [.orderRejected amend.orderId amend.userId .orderNotFound amend.timestamp]) := by
    simp [handleAmendOrder, missing]
  rw [refused, List.map_singleton, ActiveOrders.receive_cons, ActiveOrders.step, ← live,
    Function.update_eq_self, ActiveOrders.receive_nil]

/-- An order that may not go back on the book is canceled and refused, and so it is gone. -/
theorem tracks_notReinserted (sound : engine.Sound used) {amend : AmendOrder}
    {existing : BookOrder} (found : engine.orderbook.getOrder amend.orderId = some existing)
    (invalid : AmendInvalid existing amend ∨
      Refused (engine.orderbook.removeOrder amend.orderId) (amendedOrder existing amend)) :
    engine.liveOrders.receive ((engine.reinsertAmended existing amend).2.map .event) =
      (engine.reinsertAmended existing amend).1.liveOrders := by
  have removedSound : OrdersSound (engine.orderbook.removeOrder amend.orderId)
    engine.stopOrders used := sound.removeOrder amend.orderId
  have refused := (engine.reinsertAmended_cases existing amend).resolve_right
    (fun admits => by
      rcases invalid with invalid | refused
      · exact admits.1 invalid
      · have rejected := (matchOrder_rejected_iff removedSound.wellFormed).2 refused
        rw [admits.2.1] at rejected
        cases rejected)
  obtain ⟨reason, -, outcome⟩ := refused
  rw [outcome, List.map_cons, ActiveOrders.receive_cons, List.map_singleton,
    ActiveOrders.receive_cons, ActiveOrders.step, ActiveOrders.step, Function.update_idem,
    ActiveOrders.receive_nil]
  exact (liveAmong_removed (engine.orderbook.getOrder_removeOrder amend.orderId)
    (sound.notWaiting_of_resting found)).symm

private theorem tracks_amendOrder (sound : engine.Sound used) {amend : AmendOrder}
    (traceable : engine.Traceable (.command (.amendOrder amend))) :
    engine.liveOrders.receive ((engine.handleAmendOrder amend).2.map .event) =
      (engine.handleAmendOrder amend).1.liveOrders := by
  cases live : engine.liveOrders amend.orderId with
  | none => exact tracks_amendMissing live
  | some stands =>
      obtain ⟨existing, found, owner, lowers, reinserted⟩ := traceable stands live
      have known : engine.liveOrders amend.orderId = some existing.active := liveAmong_of_book found
      have unchanged : engine.liveOrders.step
          (.event (.orderAccepted (acceptedOf existing amend.symbol amend.timestamp))) =
            engine.liveOrders := by
        have keyed : existing.orderId = amend.orderId := sound.wellFormed.toLevels.keyed found
        have stored : engine.liveOrders existing.orderId = some existing.active := by
          rw [keyed, known]
        exact ActiveOrders.step_accepted stored
      rcases engine.handleAmendOrder_cases amend with
        ⟨reason, keeps, same⟩ | ⟨other, stored, -, ⟨loses, same⟩ | ⟨-, same⟩ |
          ⟨keeps, quantity, asked, -, lower, -⟩⟩
      · exfalso
        have stays := keeps existing found owner
        rw [handleAmendOrder, found] at same
        simp only [owner, ne_eq, not_true_eq_false, if_false, stays, Bool.false_eq_true] at same
        cases asked : amend.newQuantity.filter (· < existing.remainingQty) with
        | none =>
            rw [asked] at same
            cases congrArg Prod.snd same
        | some quantity =>
            obtain ⟨isAsked, lower⟩ := Option.filter_eq_some_iff.1 asked
            exact absurd (lowers stays quantity isAsked) (not_le.2 (of_decide_eq_true lower))
      · obtain rfl := Option.some.inj (found.symm.trans stored)
        rw [same]
        by_cases invalid : AmendInvalid existing amend ∨
            Refused (engine.orderbook.removeOrder amend.orderId) (amendedOrder existing amend)
        · exact tracks_notReinserted sound found invalid
        · rw [not_or] at invalid
          have brings : engine.amendedTaker? amend = some (amendedOrder existing amend) := by
            rw [amendedTaker?_of_loses found owner loses, if_neg invalid.1]
          obtain ⟨trades, told, leftOpen⟩ := (reinserted _ brings).resolve_left invalid.2
          exact tracks_reinserted sound found invalid.1 trades told leftOpen
      · obtain rfl := Option.some.inj (found.symm.trans stored)
        rw [same, List.map_singleton, ActiveOrders.receive_cons, unchanged,
          ActiveOrders.receive_nil]
      · obtain rfl := Option.some.inj (found.symm.trans stored)
        exact absurd (lowers keeps quantity asked) (not_le.2 lower)

/-! ## Triggered orders -/

private theorem tracks_triggerOne {order : BookOrder} {rest : List BookOrder}
    {timestamp : UnixMicros} (sound : OrdersSound engine.orderbook (order :: rest) used)
    (admitted : ¬Refused engine.orderbook (convertTriggered order))
    (ends : (convertTriggered order).orderType.isLimit = true ∨
      ¬LeftOpen engine.orderbook (convertTriggered order))
    (told : Trades engine.orderbook (convertTriggered order) →
      ¬EndsInHidden engine.orderbook (convertTriggered order)) :
    (liveAmong engine.orderbook (order :: rest)).receive
        ((engine.triggerOne order timestamp).2.map .event) =
      liveAmong (engine.triggerOne order timestamp).1.orderbook rest := by
  let taker := convertTriggered order
  let result := matchOrder engine.orderbook taker
  obtain ⟨sameId, sameUser, -, quantity, hidden, -⟩ := convertTriggered_frame order
  have sameSide : taker.side = order.side := by
    change (convertTriggered order).side = order.side
    rw [convertTriggered]
    cases order.orderType <;> rfl
  have waiting := sound.waiting order List.mem_cons_self
  have missing : engine.orderbook.getOrder taker.orderId = none := by
    rw [sameId]
    exact sound.apart order List.mem_cons_self
  have wants : 0 < taker.remainingQty := quantity ▸ waiting.remaining_pos
  have wellFormed := sound.wellFormed
  have others := sound.sublist (List.sublist_cons_self order rest)
  have notWaiting : taker.orderId ∉ rest.map BookOrder.orderId := by
    rw [sameId]
    exact (List.nodup_cons.1 sound.stopsNodup).1
  have shown : taker.hiddenQty = 0 := hidden.trans waiting.hidden_eq
  have active : order.active = ⟨taker.userId, taker.side, taker.remainingQty⟩ := by
    rw [BookOrder.active, BookOrder.openQty, waiting.hidden_eq, add_zero, sameUser, sameSide,
      quantity]
  have before : liveAmong engine.orderbook (order :: rest) =
      Function.update (liveAmong engine.orderbook rest) taker.orderId
        (some ⟨taker.userId, taker.side, taker.remainingQty⟩) := by
    have missingOrder := missing
    rw [sameId] at missingOrder ⊢
    rw [liveAmong_cons missingOrder, active]
  have accepts : result.rejected = false := by
    rw [← Bool.not_eq_true, matchOrder_rejected_iff wellFormed]
    exact admitted
  have matched : (liveAmong engine.orderbook (order :: rest)).receive
      ((engine.absorb result result.taker.symbol timestamp).2.map .event) =
        Function.update (liveAmong result.book rest) taker.orderId
          (settle result.taker.remainingQty
            (some ⟨taker.userId, taker.side, taker.remainingQty⟩)) := by
    apply receive_absorb_taker others missing wants told
    · intro other apart
      rw [before, Function.update_of_ne apart]
    · rw [before, Function.update_self]
    · exact fun _ => rfl
  have gone : Function.update (liveAmong result.book rest) taker.orderId none =
      liveAmong result.book rest :=
    update_liveAmong_gone wellFormed missing notWaiting
  rcases engine.triggerOne_cases order timestamp with
    ⟨rejected, -⟩ | ⟨-, finished, same⟩ | ⟨-, left, -, same⟩
  · rw [accepts] at rejected
    cases rejected
  · have filled : result.taker.remainingQty = 0 := by
      rcases finished with filled | market
      · exact filled
      · by_contra left
        have market' : taker.orderType.isLimit = false := by
          rw [← matchOrder_taker_orderType wellFormed]
          exact market
        have leaves := (taker_left_iff wellFormed sound.positive wants accepts).1 left
        rcases ends with limited | closed
        · rw [limited] at market'
          cases market'
        · exact closed leaves
    rw [same, matched, filled, settle_zero, gone]
    rfl
  · have rests : liveAmong (result.book.insertOrder result.taker) rest =
        Function.update (liveAmong result.book rest) taker.orderId
          (some ⟨taker.userId, taker.side, result.taker.remainingQty + taker.hiddenQty⟩) :=
      liveAmong_insertTaker wellFormed
    rw [shown, add_zero] at rests
    rw [same, matched, settle, if_neg left]
    exact rests.symm

private theorem tracks_triggerAll {pending kept : List BookOrder} {timestamp : UnixMicros}
    (sound : OrdersSound engine.orderbook (pending ++ kept) used)
    (traceable : TriggersTraceable timestamp engine pending) :
    (liveAmong engine.orderbook (pending ++ kept)).receive
        ((triggerAll timestamp engine pending).2.map .event) =
      liveAmong (triggerAll timestamp engine pending).1.orderbook kept := by
  induction pending generalizing engine with
  | nil => rfl
  | cons order rest inductionHypothesis =>
      obtain ⟨admitted, ends, told, later⟩ := traceable
      have first : (liveAmong engine.orderbook (order :: rest ++ kept)).receive
          ((engine.triggerOne order timestamp).2.map .event) =
            liveAmong (engine.triggerOne order timestamp).1.orderbook (rest ++ kept) :=
        tracks_triggerOne sound admitted ends told
      rw [triggerAll, List.map_append, ActiveOrders.receive_append, first]
      exact inductionHypothesis (triggerOne_sound sound) later

private theorem tracks_updateMarkPrice (sound : engine.Sound used) {symbol : SymbolId}
    {mark index : Decimal128} {timestamp : UnixMicros}
    (traceable : engine.Traceable (.command (.updateMarkPrice symbol mark index timestamp))) :
    engine.liveOrders.receive
        ((engine.step (.command (.updateMarkPrice symbol mark index timestamp))).2.map .event) =
      (engine.step (.command (.updateMarkPrice symbol mark index timestamp))).1.liveOrders := by
  let passive := engine.applyMarkIndexPassive mark index
  let scanned := swapScan (shouldTrigger mark) passive.stopOrders
  let scanning : MatchingEngine :=
    { passive with stopOrders := scanned.2, sequence := engine.sequence + 1 }
  have passiveSound := sound.applyMarkIndexPassive mark index
  have scanPerm : (scanned.1 ++ scanned.2).Perm passive.stopOrders := swapScan_perm _ _
  have ready : OrdersSound scanning.orderbook (scanned.1 ++ scanned.2) used :=
    OrdersSound.perm passiveSound scanPerm
  have peaked : liveAmong engine.orderbook passive.stopOrders = engine.liveOrders := by
    apply liveAmong_mapStops (updateTrailingPeak_orderId mark)
    intro stop
    obtain ⟨peak, same⟩ := updateTrailingPeak_eq mark stop
    rw [same]
    rfl
  have before : liveAmong scanning.orderbook (scanned.1 ++ scanned.2) = engine.liveOrders := by
    rw [liveAmong_perm scanPerm ready.stopsNodup]
    exact peaked
  have triggered := tracks_triggerAll ready traceable
  rw [before] at triggered
  change engine.liveOrders.receive (.event (.markPriceUpdate symbol mark index timestamp) ::
    (triggerAll timestamp scanning scanned.1).2.map .event) =
      liveAmong (triggerAll timestamp scanning scanned.1).1.orderbook
        (triggerAll timestamp scanning scanned.1).1.stopOrders
  rw [triggerAll_stopOrders, ← triggered]
  rfl

/-! ## Runs -/

/-- A new order is given to the service before the engine processes it. -/
def EngineInput.created : EngineInput → List OrderInput
  | .command (.newOrder order) => [.create order]
  | _ => []

/-- A step of the engine, with what it passes on to the order service. -/
def observedStep (engine : MatchingEngine) (input : EngineInput) :
    MatchingEngine × List OrderInput :=
  let processed := engine.step input
  (processed.1, input.created ++ processed.2.map .event)

private theorem tracks_step (sound : engine.Sound used) {input : EngineInput}
    (shows : engine.AcceptsShown input)
    (fresh : ∀ orderId, input.newOrderId? = some orderId → orderId ∉ used)
    (traceable : engine.Traceable input) :
    engine.liveOrders.receive (engine.observedStep input).2 =
      (engine.observedStep input).1.liveOrders := by
  cases input with
  | expirySweep now => exact receive_expireEntries sound.apart
  | command issued =>
      let counted : MatchingEngine := { engine with sequence := engine.sequence + 1 }
      have soundCounted : counted.Sound used := sound
      cases issued with
      | newOrder order => exact tracks_newOrder soundCounted shows (fresh _ rfl) traceable
      | cancelOrder orderId userId symbol timestamp =>
          exact tracks_cancelOrder soundCounted symbol traceable
      | amendOrder amend => exact tracks_amendOrder soundCounted traceable
      | cancelAllOrders userId symbol timestamp =>
          exact tracks_cancelAll soundCounted userId symbol timestamp
      | updateMarkPrice symbol mark index timestamp => exact tracks_updateMarkPrice sound traceable
      | computeFunding symbol timestamp => rfl
      | adminCredit userId amount key timestamp => rfl

/-- The fills that the service hears of are those of the engine. -/
theorem observedStep_legs (engine : MatchingEngine) (input : EngineInput) :
    (engine.observedStep input).2.filterMap OrderInput.legKey? =
      legKeys (engine.step input).2 := by
  have silent : input.created.filterMap OrderInput.legKey? = [] := by
    cases input with
    | expirySweep now => rfl
    | command issued => cases issued <;> rfl
  change List.filterMap _ (input.created ++ (engine.step input).2.map .event) = _
  rw [List.filterMap_append, silent, List.nil_append, List.filterMap_map]
  rfl

/-- What holds while the service follows the engine. -/
structure Tracked (ids : Nat → TradeId) (before : List EngineInput) (engine : MatchingEngine)
    (log : List OrderInput) : Prop where
  sound : engine.Sound (newOrderIds before)
  validLot : 0 < engine.symbolConfig.lotSize
  numbered : ∃ events, Numbered ⟨ids, 0⟩ engine.tradeIdGen events ∧
    log.filterMap OrderInput.legKey? = legKeys events
  live : ActiveOrders.receive (fun _ => none) log = engine.liveOrders

theorem Tracked.step {ids : Nat → TradeId} {before : List EngineInput} {log : List OrderInput}
    (tracked : Tracked ids before engine log) {input : EngineInput}
    (fresh : ∀ orderId, input.newOrderId? = some orderId → orderId ∉ newOrderIds before)
    (traceable : engine.Traceable input) :
    Tracked ids (before ++ [input]) (engine.observedStep input).1
      (log ++ (engine.observedStep input).2) := by
  have shows := acceptsShown_of_lot tracked.validLot input
  constructor
  · rw [newOrderIds_concat]
    exact Sound.step tracked.sound shows fresh
  · change 0 < (engine.step input).1.symbolConfig.lotSize
    rw [(step_touches engine input).symbolConfig]
    exact tracked.validLot
  · obtain ⟨events, numbered, same⟩ := tracked.numbered
    refine ⟨events ++ (engine.step input).2,
      numbered.append (numbered_step tracked.sound input), ?_⟩
    rw [List.filterMap_append, observedStep_legs, same, legKeys_append]
  · rw [ActiveOrders.receive_append, tracked.live]
    exact tracks_step tracked.sound shows fresh traceable

/-- In every run whose steps are traceable, the active orders of the service are the live orders
of the engine after every input: the same ids, each with its owner, its side and what is open
of it, shown and hidden. -/
theorem service_tracks (config : SymbolConfig) (ids : Nat → TradeId) (interestRate : Decimal128)
    (maxCompletedHistory : Nat) (distinctTrades : Function.Injective ids)
    (validLot : 0 < config.lotSize) (inputs : List EngineInput)
    (distinct : (newOrderIds inputs).Nodup)
    (traceable : StepsMeet observedStep Traceable (new config ids interestRate) inputs) :
    ∀ before, before <+: inputs →
      let reached := run observedStep (new config ids interestRate) before
      ((OrderService.new maxCompletedHistory).receive reached.2).activeOrders =
        reached.1.liveOrders := by
  intro before isPrefix reached
  have tracked : Tracked ids before reached.1 reached.2 := by
    apply run_induction (motive := Tracked ids) observedStep (new config ids interestRate) before
    · refine ⟨sound_new config ids interestRate, validLot,
        ⟨[], Numbered.of_no_legs _ rfl, rfl⟩, ?_⟩
      funext orderId
      have missing : (OrderBook.new config.symbol).getOrder orderId = none :=
        OrderBook.getOrder_new config.symbol orderId
      exact (liveAmong_eq_none missing List.not_mem_nil).symm
    · intro earlier input earlierPrefix holds
      have inside := earlierPrefix.trans isPrefix
      exact holds.step (fresh_of_nodup distinct inside) (traceable.of_prefix inside)
  obtain ⟨events, numbered, legs⟩ := tracked.numbered
  have distinctLegs : ([] ++ reached.2.filterMap OrderInput.legKey?).Nodup := by
    rw [List.nil_append, legs]
    exact numbered.nodup distinctTrades
  have represents := (OrderService.represents_new maxCompletedHistory).receive distinctLegs
  rw [tracked.live] at represents
  funext orderId
  exact represents.active_eq orderId

/-- A match against makers that hide nothing ends within none that hides more. -/
theorem not_endsInHidden_of_shown {book : OrderBook} {taker : BookOrder}
    (shown : ∀ makerId ∈ crossing taker.side.opposite book taker,
      ∀ maker ∈ book.getOrder makerId, maker.hiddenQty = 0) : ¬EndsInHidden book taker := by
  rintro ⟨ahead, makerId, behind, maker, split, found, hides, -⟩
  exact hides (shown makerId (by simp [split]) maker found)

theorem service_tracks_partFill :
    let reached := run observedStep (new plainConfig id 0) partFillInputs
    ((OrderService.new 100).receive reached.2).activeOrders = reached.1.liveOrders := by
  have brings (orderId userId : Nat) (side : Side) (quantity : Int) (engine : MatchingEngine)
      (taker : BookOrder)
      (brought : engine.newTaker? (gatewayOrder orderId userId side 100 quantity) = some taker) :
      taker = newBookOrder engine.markPrice (gatewayOrder orderId userId side 100 quantity)
        (.ofInt 100) := by
    rw [newTaker?] at brought
    split at brought
    · exact (Option.some.inj brought).symm
    · cases brought
  have traceable : StepsMeet observedStep Traceable (new plainConfig id 0) partFillInputs := by
    refine ⟨?_, ?_, ?_, trivial⟩
    · intro taker brought _
      rw [brings 1 7 .sell 5 _ taker brought]
      exact ⟨not_endsInHidden_of_shown (by decide +kernel), Or.inl rfl⟩
    · intro taker brought _
      rw [brings 2 8 .buy 3 _ taker brought]
      exact ⟨not_endsInHidden_of_shown (by decide +kernel), Or.inl rfl⟩
    · have owned : ∀ live ∈ (run observedStep (new plainConfig id 0)
          [partFillInputs[0], partFillInputs[1]]).1.liveOrders 1, live.userId = 7 := by
        decide +kernel
      exact owned
  exact service_tracks plainConfig id 0 100 Function.injective_id (by decide) partFillInputs
    (by decide) traceable partFillInputs (List.prefix_refl _)

/-- A cancel of another user's order, which the engine refuses. -/
def refusedCancelInputs : List EngineInput :=
  [.command (.newOrder (gatewayOrder 1 7 .sell 100 5)), .command (.cancelOrder 1 8 1 0)]

/-- The order stays on the book, and the service has it rejected. -/
theorem service_drops_liveOrder :
    ¬∀ (config : SymbolConfig) (ids : Nat → TradeId) (interestRate : Decimal128)
      (maxCompletedHistory : Nat) (inputs : List EngineInput),
      Function.Injective ids → 0 < config.lotSize → (newOrderIds inputs).Nodup →
        let reached := run observedStep (new config ids interestRate) inputs
        ((OrderService.new maxCompletedHistory).receive reached.2).activeOrders =
          reached.1.liveOrders := by
  intro tracks
  have claimed := congrFun (tracks plainConfig id 0 100 refusedCancelInputs Function.injective_id
    (by decide) (by decide)) 1
  revert claimed
  decide +kernel

end MatchingEngine
end Exg
