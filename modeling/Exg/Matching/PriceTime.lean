import Exg.Matching.MatcherSpec

/-!
# What a match does, for its callers

The rejections in terms of the orders on the book, the equation for every other order,
and the properties of the greedy walk: priority, conservation, limits and maximality.
-/

namespace Exg

open Support

/-- Some opposite order's price is at or within the order's own price. -/
def WouldCross (book : OrderBook) (order : BookOrder) : Prop :=
  ∃ orderId resting, book.getOrder orderId = some resting ∧
    resting.side = order.side.opposite ∧
    OrderBook.beyondLimit order.side.opposite resting.price order.price = false

/-- What a taker finds within its limit, over all makers. -/
def crossingQty (book : OrderBook) (taker : BookOrder) : Decimal128 :=
  ((crossing taker.side.opposite book taker).map book.remaining).sum

section Crossing

variable {book : OrderBook} {taker : BookOrder} {makerSide : Side}

private theorem stopsAt_of_worse {better worse : Decimal128}
    (ordered : priceOrder makerSide better worse = .lt)
    (passes : (!stopsAt makerSide taker worse) = true) :
    (!stopsAt makerSide taker better) = true := by
  cases limited : taker.orderType.isLimit with
  | false => simp [stopsAt, limited]
  | true =>
      by_contra stops
      have beyond : OrderBook.beyondLimit makerSide better taker.price = true := by
        simpa [stopsAt, limited] using stops
      have worseBeyond := OrderBook.beyondLimit_of_worse ordered beyond
      simp [stopsAt, limited, worseBeyond] at passes

theorem mem_crossing (wellFormed : book.WellFormed) {orderId : OrderId} :
    orderId ∈ crossing makerSide book taker ↔
      ∃ order, book.getOrder orderId = some order ∧ order.side = makerSide ∧
        stopsAt makerSide taker order.price = false := by
  rw [crossing, wellFormed.toLevels.mem_ordersWhile fun _ _ => stopsAt_of_worse]
  simp

theorem crossing_nodup (wellFormed : book.WellFormed) :
    (crossing makerSide book taker).Nodup :=
  wellFormed.toLevels.nodup_ordersWhile makerSide _

@[simp]
theorem crossing_withRemaining (left : Decimal128) :
    crossing makerSide book (taker.withRemaining left) = crossing makerSide book taker := rfl

theorem fokAvailable_eq (wellFormed : book.WellFormed) :
    fokAvailable book taker = crossingQty book taker := by
  rw [fokAvailable, crossingQty, crossing]
  cases limited : taker.orderType.isLimit with
  | true =>
      simp only [if_true, stopsAt, limited, Bool.true_and]
      exact wellFormed.toLevels.availableQty_eq taker.side taker.price
  | false =>
      simp only [Bool.false_eq_true, if_false, stopsAt, limited, Bool.false_and, Bool.not_false]
      exact wellFormed.toLevels.totalQty_eq taker.side

private theorem wouldMatch_iff (wellFormed : book.WellFormed) :
    wouldMatch book taker = true ↔ WouldCross book taker := by
  have within := wellFormed.toLevels.best_within_iff taker.side.opposite taker.price
  have flip : ∀ left right : Decimal128, (!decide (left < right)) = decide (right ≤ left) := by
    intro left right
    rw [← decide_not]
    simp only [not_lt]
  rw [WouldCross, ← within]
  cases sideCase : taker.side with
  | buy =>
      simp [wouldMatch, sideCase, Side.opposite, OrderBook.bestAsk_eq, OrderBook.beyondLimit,
        flip]
  | sell =>
      simp [wouldMatch, sideCase, Side.opposite, OrderBook.bestBid_eq, OrderBook.beyondLimit,
        flip]

/-- Makers come best price first, and in queue order at each price. -/
structure PriceTimeOrder (book : OrderBook) (makerSide : Side) (within : Decimal128 → Bool)
    (makers : List OrderId) : Prop where
  bestFirst : makers.Pairwise fun earlier later => ∀ earlierOrder laterOrder,
    book.getOrder earlier = some earlierOrder → book.getOrder later = some laterOrder →
      priceOrder makerSide laterOrder.price earlierOrder.price ≠ .lt
  fifo : ∀ price,
    (makers.filter fun makerId => (book.getOrder makerId).any fun order => order.price = price) =
      if within price then book.queue makerSide price else []

private theorem flatMap_single {κ ν : Type*} [DecidableEq κ] {keys : List κ} (nodup : keys.Nodup)
    (key : κ) (values : List ν) :
    (keys.flatMap fun other => if other = key then values else []) =
      if key ∈ keys then values else [] := by
  induction keys with
  | nil => rfl
  | cons head tail inductionHypothesis =>
      rw [List.nodup_cons] at nodup
      rw [List.flatMap_cons, inductionHypothesis nodup.2]
      by_cases here : head = key
      · subst here
        simp [nodup.1]
      · simp [here, Ne.symm here]

/-- Two ids of queues at two prices are orders at these prices. -/
private theorem prices_of_queued (levels : book.LevelsWellFormed) {side : Side}
    {first second : Decimal128} {earlier later : OrderId} {earlierOrder laterOrder : BookOrder}
    (earlierMember : earlier ∈ book.queue side first) (laterMember : later ∈ book.queue side second)
    (earlierFound : book.getOrder earlier = some earlierOrder)
    (laterFound : book.getOrder later = some laterOrder) :
    earlierOrder.price = first ∧ laterOrder.price = second := by
  obtain ⟨_, found, -, atPrice⟩ := levels.stored earlierMember
  obtain ⟨_, otherFound, -, otherAtPrice⟩ := levels.stored laterMember
  rw [earlierFound] at found
  rw [laterFound] at otherFound
  cases found
  cases otherFound
  exact ⟨atPrice, otherAtPrice⟩

private theorem crossing_bestFirst (wellFormed : book.WellFormed) (makerSide : Side)
    (taker : BookOrder) :
    (crossing makerSide book taker).Pairwise fun earlier later => ∀ earlierOrder laterOrder,
      book.getOrder earlier = some earlierOrder → book.getOrder later = some laterOrder →
        priceOrder makerSide laterOrder.price earlierOrder.price ≠ .lt := by
  have levels := wellFormed.toLevels
  rw [crossing, OrderBook.ordersWhile, List.pairwise_flatMap]
  constructor
  · -- within one level
    intro price _
    apply List.pairwise_of_forall_mem_list
    intro earlier earlierMember later laterMember earlierOrder laterOrder earlierFound laterFound
    obtain ⟨atPrice, otherAtPrice⟩ :=
      prices_of_queued levels earlierMember laterMember earlierFound laterFound
    rw [atPrice, otherAtPrice, priceOrder_self]
    decide
  · -- from level to level
    apply ((levels.prices_ordered makerSide).sublist (List.takeWhile_sublist _)).imp
    intro better worse ordered earlier earlierMember later laterMember earlierOrder laterOrder
      earlierFound laterFound
    obtain ⟨atPrice, otherAtPrice⟩ :=
      prices_of_queued levels earlierMember laterMember earlierFound laterFound
    rw [atPrice, otherAtPrice]
    intro reversed
    rw [priceOrder_swap, ordered] at reversed
    cases reversed

/-- The orders of a queue at a given price: all or none. -/
theorem filter_queue_price (levels : book.LevelsWellFormed) (side : Side)
    (other price : Decimal128) :
    ((book.queue side other).filter fun makerId =>
      (book.getOrder makerId).any fun order => order.price = price) =
      if other = price then book.queue side price else [] := by
  by_cases here : other = price
  · subst here
    rw [if_pos rfl]
    refine List.filter_eq_self.2 fun makerId member => ?_
    obtain ⟨order, found, -, atPrice⟩ := levels.stored member
    simp [found, atPrice]
  · rw [if_neg here]
    refine List.filter_eq_nil_iff.2 fun makerId member => ?_
    obtain ⟨order, found, -, atPrice⟩ := levels.stored member
    simp [found, atPrice, here]

private theorem crossing_fifo (wellFormed : book.WellFormed) (makerSide : Side) (taker : BookOrder)
    (price : Decimal128) :
    ((crossing makerSide book taker).filter fun makerId =>
      (book.getOrder makerId).any fun order => order.price = price) =
      if (!stopsAt makerSide taker price) = true then book.queue makerSide price else [] := by
  have levels := wellFormed.toLevels
  have nodup : (((book.levelList makerSide).map PriceLevel.price).takeWhile
      fun price => !stopsAt makerSide taker price).Nodup :=
    (levels.prices_nodup makerSide).sublist (List.takeWhile_sublist _)
  have filtered : ((book.levelList makerSide).map PriceLevel.price).takeWhile
        (fun price => !stopsAt makerSide taker price) =
      ((book.levelList makerSide).map PriceLevel.price).filter
        fun price => !stopsAt makerSide taker price := by
    apply Support.takeWhile_eq_filter_of_pairwise _ (levels.prices_ordered makerSide)
    intro better worse ordered passes
    exact stopsAt_of_worse ordered passes
  rw [crossing, OrderBook.ordersWhile, List.filter_flatMap, List.flatMap_congr fun other _ =>
    filter_queue_price levels makerSide other price, flatMap_single nodup, filtered]
  simp only [List.mem_filter, levels.mem_prices]
  by_cases within : (!stopsAt makerSide taker price) = true
  · by_cases empty : book.queue makerSide price = []
    · simp [empty]
    · simp [empty, within]
  · simp [within]

private theorem crossing_priceTimeOrder (wellFormed : book.WellFormed) (makerSide : Side)
    (taker : BookOrder) :
    PriceTimeOrder book makerSide (fun price => !stopsAt makerSide taker price)
      (crossing makerSide book taker) where
  bestFirst := crossing_bestFirst wellFormed makerSide taker
  fifo := crossing_fifo wellFormed makerSide taker

end Crossing

/-! ## The equation for callers -/

section MatchOrder

variable {book : OrderBook} {taker : BookOrder}

/-- The orders `matchOrder` turns away. -/
def Refused (book : OrderBook) (taker : BookOrder) : Prop :=
  (taker.timeInForce = .postOnly ∧ WouldCross book taker) ∨
    (taker.timeInForce = .fok ∧ crossingQty book taker < taker.remainingQty)

/-- What the greedy allocation leaves of the book and of the taker. -/
def greedyWalk (book : OrderBook) (taker : BookOrder) : Walk where
  book := book.takeOut (greedyShares book taker)
  taker := taker.withRemaining (taker.remainingQty - allocated (greedyShares book taker))
  fills := fillsOf book taker (greedyShares book taker)

theorem matchOrder_rejected_iff (wellFormed : book.WellFormed) :
    (matchOrder book taker).rejected = true ↔ Refused book taker := by
  rw [Refused, ← wouldMatch_iff wellFormed, ← fokAvailable_eq wellFormed, matchOrder]
  by_cases postOnly : taker.timeInForce = .postOnly
  · simp [postOnly]
  · rw [if_neg postOnly]
    split
    · rename_i short
      simp [short]
    · rename_i notShort
      cases taker.side <;> simp [postOnly, notShort]

theorem matchOrder_untouched
    (untouched : (matchOrder book taker).rejected = true ∨ taker.timeInForce = .postOnly) :
    (matchOrder book taker).toWalk = ⟨book, taker, []⟩ := by
  by_cases postOnly : taker.timeInForce = .postOnly
  · simp [matchOrder, postOnly]
  · have rejected := untouched.resolve_right postOnly
    rw [matchOrder, if_neg postOnly] at rejected ⊢
    split
    · rfl
    · rename_i notShort
      rw [if_neg notShort] at rejected
      cases sideCase : taker.side <;> simp [sideCase] at rejected

theorem matchOrder_admitted (wellFormed : book.WellFormed)
    (accepted : (matchOrder book taker).rejected = false)
    (notPostOnly : taker.timeInForce ≠ .postOnly) :
    (matchOrder book taker).toWalk = greedyWalk book taker := by
  rw [matchOrder, if_neg notPostOnly] at accepted ⊢
  split
  · rename_i short
    rw [if_pos short] at accepted
    cases accepted
  · cases sideCase : taker.side with
    | buy =>
        simp only [matchAgainstAsks, matchAgainst_eq wellFormed, greedyWalk, greedyShares,
          sideCase, Side.opposite]
    | sell =>
        simp only [matchAgainstBids, matchAgainst_eq wellFormed, greedyWalk, greedyShares,
          sideCase, Side.opposite]

end MatchOrder

/-! ## Properties of the greedy walk -/

section Greedy

variable {book : OrderBook} {taker : BookOrder}

theorem greedyShares_nodup (wellFormed : book.WellFormed) :
    ((greedyShares book taker).map Prod.fst).Nodup :=
  (crossing_nodup wellFormed).sublist (sources_isPrefix _ _).sublist

theorem greedyShares_stored (wellFormed : book.WellFormed) {share : OrderId × Decimal128}
    (drawn : share ∈ greedyShares book taker) :
    ∃ maker, book.getOrder share.1 = some maker ∧ maker.side = taker.side.opposite ∧
      stopsAt taker.side.opposite taker maker.price = false :=
  (mem_crossing wellFormed).1 (source_mem drawn)

/-- Resting orders all have something left. -/
def AllPositive (book : OrderBook) : Prop :=
  ∀ orderId order, book.getOrder orderId = some order → 0 < order.remainingQty

theorem AllPositive.remaining_pos (positive : AllPositive book) {orderId : OrderId}
    {order : BookOrder} (found : book.getOrder orderId = some order) :
    0 < book.remaining orderId := by
  rw [OrderBook.remaining_of_some found]
  exact positive orderId order found

theorem AllPositive.insertOrder (positive : AllPositive book) {order : BookOrder}
    (incoming : 0 < order.remainingQty) : AllPositive (book.insertOrder order) := by
  intro orderId stored found
  rw [OrderBook.getOrder_insertOrder] at found
  split at found
  · cases found
    exact incoming
  · exact positive orderId stored found

theorem crossing_positive (wellFormed : book.WellFormed) (positive : AllPositive book) :
    ∀ makerId ∈ crossing taker.side.opposite book taker, 0 < book.remaining makerId := by
  intro makerId member
  obtain ⟨order, found, -⟩ := (mem_crossing wellFormed).1 member
  exact positive.remaining_pos found

private theorem greedyShares_bounds (wellFormed : book.WellFormed) (positive : AllPositive book)
    (incoming : 0 ≤ taker.remainingQty) {share : OrderId × Decimal128}
    (drawn : share ∈ greedyShares book taker) :
    0 < share.2 ∧ share.2 ≤ book.remaining share.1 :=
  share_bounds incoming (crossing_positive wellFormed positive) share drawn

theorem mem_fillsOf {shares : List (OrderId × Decimal128)} {fill : Fill} :
    fill ∈ fillsOf book taker shares ↔
      ∃ share ∈ shares, ∃ maker, book.getOrder share.1 = some maker ∧
        fill = fillAgainst taker maker share.1 share.2 := by
  simp only [fillsOf, List.mem_filterMap, Option.map_eq_some_iff]
  constructor
  · rintro ⟨share, member, maker, found, rfl⟩
    exact ⟨share, member, maker, found, rfl⟩
  · rintro ⟨share, member, maker, found, rfl⟩
    exact ⟨share, member, maker, found, rfl⟩

theorem fillsOf_quantities {shares : List (OrderId × Decimal128)}
    (stored : ∀ share ∈ shares, (book.getOrder share.1).isSome) :
    ((fillsOf book taker shares).map Fill.quantity).sum = allocated shares := by
  induction shares with
  | nil => rfl
  | cons share rest inductionHypothesis =>
      obtain ⟨maker, found⟩ := Option.isSome_iff_exists.1 (stored share List.mem_cons_self)
      have later := inductionHypothesis fun other member =>
        stored other (List.mem_cons_of_mem _ member)
      rw [fillsOf_cons found, List.map_cons, List.sum_cons, later, allocated_cons]
      rfl

/-- The taker's quantity is the fills and what it has left. -/
theorem greedyWalk_conserves (wellFormed : book.WellFormed) :
    taker.remainingQty =
      ((greedyWalk book taker).fills.map Fill.quantity).sum +
        (greedyWalk book taker).taker.remainingQty := by
  have stored : ∀ share ∈ greedyShares book taker, (book.getOrder share.1).isSome := by
    intro share drawn
    obtain ⟨maker, found, -⟩ := greedyShares_stored wellFormed drawn
    simp [found]
  simp [greedyWalk, fillsOf_quantities stored]

/-- A maker keeps what it did not give, in place; one that gave everything is gone. -/
theorem greedyWalk_getOrder (wellFormed : book.WellFormed) {orderId : OrderId} {order : BookOrder}
    (found : book.getOrder orderId = some order) :
    (greedyWalk book taker).book.getOrder orderId =
      match (greedyShares book taker).find? fun share => share.1 = orderId with
      | none => some order
      | some share =>
          if order.remainingQty = share.2 then
            none
          else
            some (order.withRemaining (order.remainingQty - share.2)) := by
  cases drawn : (greedyShares book taker).find? fun share => share.1 = orderId with
  | none =>
      have absent : orderId ∉ (greedyShares book taker).map Prod.fst := by
        intro member
        obtain ⟨share, shareMember, rfl⟩ := List.mem_map.1 member
        simpa using List.find?_eq_none.1 drawn share shareMember
      rw [greedyWalk, OrderBook.getOrder_takeOut_of_not_mem absent, found]
  | some share =>
      have isMaker : share.1 = orderId := by simpa using List.find?_some drawn
      subst isMaker
      exact OrderBook.getOrder_takeOut_of_mem (greedyShares_nodup wellFormed)
        (List.mem_of_find?_eq_some drawn) found

/-- Afterwards the taker has nothing left or no order crosses it. -/
theorem greedyWalk_maximal (wellFormed : book.WellFormed) (incoming : 0 ≤ taker.remainingQty) :
    (greedyWalk book taker).taker.remainingQty = 0 ∨
      crossing taker.side.opposite (greedyWalk book taker).book taker = [] := by
  rcases allocate_maximal book.remaining incoming
    (crossing taker.side.opposite book taker) with met | exhausted
  · exact Or.inl (by simp [greedyWalk, greedyShares, met])
  · refine Or.inr (List.eq_nil_iff_forall_not_mem.2 fun orderId member => ?_)
    have after := OrderBook.wellFormed_takeOut wellFormed (greedyShares book taker)
    obtain ⟨order, kept, atSide, within⟩ := (mem_crossing after).1 member
    obtain ⟨before, quantity, found, rfl⟩ := OrderBook.getOrder_of_takeOut kept
    have crossed : orderId ∈ crossing taker.side.opposite book taker :=
      (mem_crossing wellFormed).2 ⟨before, found, atSide, within⟩
    have drawn : (orderId, before.remainingQty) ∈ greedyShares book taker := by
      rw [greedyShares, exhausted]
      refine List.mem_map.2 ⟨orderId, crossed, ?_⟩
      rw [OrderBook.remaining_of_some found]
    rw [OrderBook.getOrder_takeOut_of_mem (greedyShares_nodup wellFormed) drawn found,
      if_pos rfl] at kept
    cases kept

/-- A fill is with a maker of the opposite side, at its price, within the taker's limit,
and takes no more than the maker has. -/
theorem greedyWalk_fill (wellFormed : book.WellFormed) (positive : AllPositive book)
    (incoming : 0 ≤ taker.remainingQty) {fill : Fill}
    (member : fill ∈ (greedyWalk book taker).fills) :
    ∃ maker, book.getOrder fill.makerOrderId = some maker ∧ maker.side = taker.side.opposite ∧
      stopsAt taker.side.opposite taker maker.price = false ∧
      fill = fillAgainst taker maker fill.makerOrderId fill.quantity ∧
      0 < fill.quantity ∧ fill.quantity ≤ maker.remainingQty := by
  obtain ⟨share, drawn, maker, found, rfl⟩ := mem_fillsOf.1 member
  obtain ⟨other, otherFound, atSide, within⟩ := greedyShares_stored wellFormed drawn
  rw [found] at otherFound
  cases otherFound
  have bounds := greedyShares_bounds wellFormed positive incoming drawn
  rw [OrderBook.remaining_of_some found] at bounds
  exact ⟨maker, found, atSide, within, rfl, bounds⟩

end Greedy

/-! ## One equation for every outcome

A refused or resting POST_ONLY order is a match with no shares, so callers need not tell
the outcomes apart when they ask what happened to the book. -/

section MatchShares

variable {book : OrderBook} {taker : BookOrder}

/-- What the makers give when `matchOrder` runs. -/
def matchShares (book : OrderBook) (taker : BookOrder) : List (OrderId × Decimal128) :=
  if (matchOrder book taker).rejected || decide (taker.timeInForce = .postOnly) then
    []
  else
    greedyShares book taker

/-- What a list of shares leaves of the book and of the taker. -/
def walkOf (book : OrderBook) (taker : BookOrder) (shares : List (OrderId × Decimal128)) :
    Walk where
  book := book.takeOut shares
  taker := taker.withRemaining (taker.remainingQty - allocated shares)
  fills := fillsOf book taker shares

@[simp]
theorem walkOf_nil : walkOf book taker [] = ⟨book, taker, []⟩ := by
  simp [walkOf, OrderBook.takeOut, fillsOf]

private theorem matchOrder_eq (wellFormed : book.WellFormed) :
    (matchOrder book taker).toWalk = walkOf book taker (matchShares book taker) := by
  rw [matchShares]
  split
  · rename_i untouched
    rw [walkOf_nil]
    exact matchOrder_untouched (by simpa using untouched)
  · rename_i matched
    simp only [Bool.or_eq_true, decide_eq_true_eq, not_or, Bool.not_eq_true] at matched
    exact matchOrder_admitted wellFormed matched.1 matched.2

theorem matchOrder_book (wellFormed : book.WellFormed) :
    (matchOrder book taker).book = book.takeOut (matchShares book taker) :=
  congrArg Walk.book (matchOrder_eq wellFormed)

theorem wellFormed_matchOrder (wellFormed : book.WellFormed) :
    (matchOrder book taker).book.WellFormed := by
  rw [matchOrder_book wellFormed]
  exact OrderBook.wellFormed_takeOut wellFormed _

theorem matchOrder_taker (wellFormed : book.WellFormed) :
    (matchOrder book taker).taker =
      taker.withRemaining (taker.remainingQty - allocated (matchShares book taker)) :=
  congrArg Walk.taker (matchOrder_eq wellFormed)

/-- Matching changes nothing of the taker but the quantity that it still wants. -/
theorem matchOrder_taker_eq (wellFormed : book.WellFormed) :
    (matchOrder book taker).taker =
      taker.withRemaining (matchOrder book taker).taker.remainingQty := by
  rw [matchOrder_taker wellFormed]
  rfl

theorem matchOrder_taker_orderId (wellFormed : book.WellFormed) :
    (matchOrder book taker).taker.orderId = taker.orderId := by
  rw [matchOrder_taker wellFormed]
  rfl

theorem matchOrder_taker_orderType (wellFormed : book.WellFormed) :
    (matchOrder book taker).taker.orderType = taker.orderType := by
  rw [matchOrder_taker wellFormed]
  rfl

theorem matchOrder_taker_timeInForce (wellFormed : book.WellFormed) :
    (matchOrder book taker).taker.timeInForce = taker.timeInForce := by
  rw [matchOrder_taker wellFormed]
  rfl

theorem matchOrder_taker_hiddenQty (wellFormed : book.WellFormed) :
    (matchOrder book taker).taker.hiddenQty = taker.hiddenQty := by
  rw [matchOrder_taker wellFormed]
  rfl

/-- A taker that takes nothing still wants everything. -/
theorem matchOrder_taker_untouched (wellFormed : book.WellFormed)
    (untouched : matchShares book taker = []) :
    (matchOrder book taker).taker.remainingQty = taker.remainingQty := by
  rw [matchOrder_taker wellFormed, untouched, allocated_nil, sub_zero]
  rfl

theorem matchOrder_fills (wellFormed : book.WellFormed) :
    (matchOrder book taker).fills = fillsOf book taker (matchShares book taker) :=
  congrArg Walk.fills (matchOrder_eq wellFormed)

theorem matchShares_of_rejected (rejected : (matchOrder book taker).rejected = true) :
    matchShares book taker = [] := by
  simp [matchShares, rejected]

theorem mem_greedyShares_of_matchShares {share : OrderId × Decimal128}
    (drawn : share ∈ matchShares book taker) : share ∈ greedyShares book taker := by
  rw [matchShares] at drawn
  split at drawn
  · cases drawn
  · exact drawn

theorem matchShares_nodup (wellFormed : book.WellFormed) :
    ((matchShares book taker).map Prod.fst).Nodup := by
  rw [matchShares]
  split
  · exact List.nodup_nil
  · exact greedyShares_nodup wellFormed

theorem matchShares_stored (wellFormed : book.WellFormed) {share : OrderId × Decimal128}
    (drawn : share ∈ matchShares book taker) :
    ∃ maker, book.getOrder share.1 = some maker ∧ maker.side = taker.side.opposite ∧
      stopsAt taker.side.opposite taker maker.price = false :=
  greedyShares_stored wellFormed (mem_greedyShares_of_matchShares drawn)

theorem matchShares_bounds (wellFormed : book.WellFormed) (positive : AllPositive book)
    (incoming : 0 ≤ taker.remainingQty) {share : OrderId × Decimal128}
    (drawn : share ∈ matchShares book taker) :
    0 < share.2 ∧ share.2 ≤ book.remaining share.1 :=
  greedyShares_bounds wellFormed positive incoming (mem_greedyShares_of_matchShares drawn)

private theorem allocated_matchShares_le (incoming : 0 ≤ taker.remainingQty) :
    allocated (matchShares book taker) ≤ taker.remainingQty := by
  rw [matchShares]
  split
  · exact incoming
  · exact allocated_le _ incoming _

/-- The taker never ends below zero. -/
theorem matchOrder_taker_nonneg (wellFormed : book.WellFormed)
    (incoming : 0 ≤ taker.remainingQty) : 0 ≤ (matchOrder book taker).taker.remainingQty := by
  rw [matchOrder_taker wellFormed]
  exact sub_nonneg.2 (allocated_matchShares_le incoming)

/-- An order that is matched and meets a maker. -/
def Trades (book : OrderBook) (taker : BookOrder) : Prop :=
  ¬Refused book taker ∧ taker.timeInForce ≠ .postOnly ∧
    crossing taker.side.opposite book taker ≠ []

/-- An order that wants more than it takes. -/
def LeftOpen (book : OrderBook) (taker : BookOrder) : Prop :=
  taker.timeInForce = .postOnly ∨ crossingQty book taker < taker.remainingQty

theorem matchShares_ne_nil_iff (wellFormed : book.WellFormed) (wanted : taker.remainingQty ≠ 0) :
    matchShares book taker ≠ [] ↔ Trades book taker := by
  rw [Trades, ← matchOrder_rejected_iff wellFormed, matchShares, greedyShares]
  split
  · rename_i untouched
    have turnedAway : (matchOrder book taker).rejected = true ∨ taker.timeInForce = .postOnly := by
      simpa using untouched
    rcases turnedAway with rejected | postOnly
    · simp [rejected]
    · simp [postOnly]
  · rename_i matched
    simp only [Bool.or_eq_true, decide_eq_true_eq, not_or] at matched
    rw [ne_eq, allocate_eq_nil_iff]
    simp [matched.1, matched.2, wanted]

theorem allocated_greedyShares (wellFormed : book.WellFormed) (positive : AllPositive book)
    (incoming : 0 ≤ taker.remainingQty) :
    allocated (greedyShares book taker) = min taker.remainingQty (crossingQty book taker) :=
  allocated_eq_min incoming (crossing_positive wellFormed positive)

/-- Every maker that is met gives all it has to an order that wants more. -/
theorem greedyShares_of_leftOpen (wellFormed : book.WellFormed) (positive : AllPositive book)
    (incoming : 0 ≤ taker.remainingQty)
    (short : crossingQty book taker < taker.remainingQty) :
    greedyShares book taker =
      (crossing taker.side.opposite book taker).map fun makerId =>
        (makerId, book.remaining makerId) := by
  rcases allocate_maximal book.remaining incoming (crossing taker.side.opposite book taker) with
    met | exhausted
  · have total := allocated_greedyShares wellFormed positive incoming
    rw [greedyShares, met, min_eq_right short.le] at total
    exact absurd total short.ne'
  · exact exhausted

/-- What is left of an admitted order. -/
theorem taker_left_iff (wellFormed : book.WellFormed) (positive : AllPositive book)
    (incoming : 0 < taker.remainingQty) (admitted : (matchOrder book taker).rejected = false) :
    (matchOrder book taker).taker.remainingQty ≠ 0 ↔ LeftOpen book taker := by
  by_cases postOnly : taker.timeInForce = .postOnly
  · rw [congrArg Walk.taker (matchOrder_untouched (Or.inr postOnly))]
    simp [LeftOpen, postOnly, incoming.ne']
  · have total := allocated_greedyShares wellFormed positive incoming.le
    rw [congrArg Walk.taker (matchOrder_admitted wellFormed admitted postOnly), greedyWalk,
      BookOrder.withRemaining_remainingQty, total]
    simp [LeftOpen, postOnly, sub_eq_zero]

/-- A limit order that was not refused has nothing left, or crosses nothing any more. -/
theorem matchOrder_maximal (wellFormed : book.WellFormed) (incoming : 0 ≤ taker.remainingQty)
    (limited : taker.orderType.isLimit = true)
    (accepted : (matchOrder book taker).rejected = false) :
    (matchOrder book taker).taker.remainingQty = 0 ∨
      ∀ orderId order, (matchOrder book taker).book.getOrder orderId = some order →
        order.side = taker.side.opposite →
        OrderBook.beyondLimit taker.side.opposite order.price taker.price = true := by
  by_cases postOnly : taker.timeInForce = .postOnly
  · -- nothing was crossing before, and the book is untouched
    refine Or.inr fun orderId order found atSide => ?_
    rw [congrArg Walk.book (matchOrder_untouched (Or.inr postOnly))] at found
    by_contra within
    have refused : Refused book taker :=
      Or.inl ⟨postOnly, orderId, order, found, atSide, by simpa using within⟩
    rw [← matchOrder_rejected_iff wellFormed, accepted] at refused
    cases refused
  · have walk := matchOrder_admitted wellFormed accepted postOnly
    rw [congrArg Walk.book walk, congrArg Walk.taker walk]
    refine (greedyWalk_maximal wellFormed incoming).imp_right fun empty => ?_
    intro orderId order found atSide
    by_contra within
    have after := OrderBook.wellFormed_takeOut wellFormed (greedyShares book taker)
    have crossed : orderId ∈ crossing taker.side.opposite (greedyWalk book taker).book taker :=
      (mem_crossing after).2 ⟨order, found, atSide, by simp [stopsAt, limited, within]⟩
    rw [empty] at crossed
    cases crossed

end MatchShares

/-! ## Price-time priority -/

/-- What a match that is neither refused nor POST_ONLY does: it fills the greedy shares, takes
them out of the book, and leaves the taker nothing or no order that it crosses. -/
structure TakesGreedily (book : OrderBook) (taker : BookOrder) (result : MatchResult) : Prop where
  fills : result.fills = fillsOf book taker (greedyShares book taker)
  filled : ∀ fill ∈ result.fills, ∃ maker, book.getOrder fill.makerOrderId = some maker ∧
    fill.price = maker.price ∧ stopsAt taker.side.opposite taker fill.price = false ∧
    0 < fill.quantity ∧ fill.quantity ≤ maker.remainingQty
  conserved : taker.remainingQty =
    (result.fills.map Fill.quantity).sum + result.taker.remainingQty
  takerLeft : result.taker = taker.withRemaining result.taker.remainingQty
  noOthers : ∀ orderId, book.getOrder orderId = none → result.book.getOrder orderId = none
  makers : ∀ orderId order, book.getOrder orderId = some order →
    result.book.getOrder orderId =
      match (greedyShares book taker).find? fun share => share.1 = orderId with
      | none => some order
      | some share =>
          if order.remainingQty = share.2 then
            none
          else
            some (order.withRemaining (order.remainingQty - share.2))
  queues : ∀ side price, result.book.queue side price =
    (book.queue side price).filter fun orderId => (result.book.getOrder orderId).isSome
  wellFormed : result.book.WellFormed
  maximal : result.taker.remainingQty = 0 ∨
    ∀ orderId order, result.book.getOrder orderId = some order →
      order.side = taker.side.opposite → stopsAt taker.side.opposite taker order.price = true

/-- The greedy specification of a match: who the makers are and in which order they are taken,
when an order is refused, and what happens to the book and the taker otherwise. -/
structure PriceTimePriority (book : OrderBook) (taker : BookOrder) (result : MatchResult) :
    Prop where
  makers : ∀ orderId, orderId ∈ crossing taker.side.opposite book taker ↔
    ∃ order, book.getOrder orderId = some order ∧ order.side = taker.side.opposite ∧
      stopsAt taker.side.opposite taker order.price = false
  priority : PriceTimeOrder book taker.side.opposite
    (fun price => !stopsAt taker.side.opposite taker price)
    (crossing taker.side.opposite book taker)
  rejected : result.rejected = true ↔
    (taker.timeInForce = .postOnly ∧ WouldCross book taker) ∨
      (taker.timeInForce = .fok ∧ crossingQty book taker < taker.remainingQty)
  untouched : result.rejected = true ∨ taker.timeInForce = .postOnly →
    result.book = book ∧ result.taker = taker ∧ result.fills = []
  matched : result.rejected = false → taker.timeInForce ≠ .postOnly →
    TakesGreedily book taker result

section Priority

variable {book : OrderBook} {taker : BookOrder}

private theorem takesGreedily_matchOrder (wellFormed : book.WellFormed) (resting : AllPositive book)
    (incoming : 0 < taker.remainingQty) (accepted : (matchOrder book taker).rejected = false)
    (notPostOnly : taker.timeInForce ≠ .postOnly) :
    TakesGreedily book taker (matchOrder book taker) := by
  have walk := matchOrder_admitted wellFormed accepted notPostOnly
  have after := OrderBook.wellFormed_takeOut wellFormed (greedyShares book taker)
  have sameBook : (matchOrder book taker).book = (greedyWalk book taker).book :=
    congrArg Walk.book walk
  have sameTaker : (matchOrder book taker).taker = (greedyWalk book taker).taker :=
    congrArg Walk.taker walk
  have sameFills : (matchOrder book taker).fills = (greedyWalk book taker).fills :=
    congrArg Walk.fills walk
  constructor
  · rw [sameFills]
    rfl
  · intro fill member
    rw [sameFills] at member
    obtain ⟨maker, found, -, within, same, bounds⟩ :=
      greedyWalk_fill wellFormed resting incoming.le member
    have atPrice : fill.price = maker.price := congrArg Fill.price same
    exact ⟨maker, found, atPrice, by rwa [atPrice], bounds⟩
  · rw [sameFills, sameTaker]
    exact greedyWalk_conserves wellFormed
  · rw [sameTaker]
    rfl
  · intro orderId missing
    rw [sameBook, Option.eq_none_iff_forall_ne_some]
    intro order kept
    obtain ⟨before, quantity, found, -⟩ := OrderBook.getOrder_of_takeOut kept
    rw [missing] at found
    cases found
  · intro orderId order found
    rw [sameBook]
    exact greedyWalk_getOrder wellFormed found
  · rw [sameBook]
    exact OrderBook.queue_takeOut wellFormed _
  · rw [sameBook]
    exact after
  · rw [sameTaker, sameBook]
    refine (greedyWalk_maximal wellFormed incoming.le).imp_right fun empty => ?_
    intro orderId order kept atSide
    by_contra within
    have crossed : orderId ∈ crossing taker.side.opposite (greedyWalk book taker).book taker :=
      (mem_crossing after).2 ⟨order, kept, atSide, by simpa using within⟩
    rw [empty] at crossed
    cases crossed

/-- The match of exact numbers keeps to the greedy specification. -/
theorem priceTimePriority_matchOrder (wellFormed : book.WellFormed) (resting : AllPositive book)
    (incoming : 0 < taker.remainingQty) :
    PriceTimePriority book taker (matchOrder book taker) where
  makers orderId := mem_crossing wellFormed
  priority := crossing_priceTimeOrder wellFormed taker.side.opposite taker
  rejected := matchOrder_rejected_iff wellFormed
  untouched alone := by
    have unchanged := matchOrder_untouched alone
    exact ⟨congrArg Walk.book unchanged, congrArg Walk.taker unchanged,
      congrArg Walk.fills unchanged⟩
  matched := takesGreedily_matchOrder wellFormed resting incoming

end Priority
end Exg
