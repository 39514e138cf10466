import Exg.Matching.Accounting

/-!
# Iceberg orders

An iceberg order is to show one slice after another until all of it is filled.  As a taker
it takes with its first slice only and then shows a second one; as a maker it leaves the
book, with all that it hides, once its slice is filled.  So the design is met exactly where
no maker's slice is used up while it hides more, and where a taker hides nothing or its
first slice covers all that crosses its price.
-/

namespace Exg

open Support

/-! ## One match -/

/-- The slice that an iceberg order shows next. -/
def BookOrder.nextSlice (order : BookOrder) : Decimal128 :=
  min (order.visibleQty.getD order.originalQty) order.hiddenQty

/-- The order stands at the end of its level's queue and shows its next slice. -/
def PutBack (book : OrderBook) (order : BookOrder) : Prop :=
  ∃ refilled, book.getOrder order.orderId = some refilled ∧
    refilled.remainingQty = order.nextSlice ∧
    refilled.hiddenQty = order.hiddenQty - order.nextSlice ∧
    (book.queue order.side order.price).getLast? = some order.orderId

/-- The book after a fill: its maker leaves, or keeps what is left. -/
def OrderBook.afterFill (book : OrderBook) (fill : Fill) : OrderBook :=
  book.takeFrom fill.makerOrderId (book.remaining fill.makerOrderId - fill.quantity)

/-- A maker whose shown slice a fill uses up while it hides more is put back. -/
def RefillsMakers (book : OrderBook) (taker : BookOrder) : Prop :=
  ∀ ahead fill behind, (matchOrder book taker).fills = ahead ++ fill :: behind →
    ∀ maker, (ahead.foldl OrderBook.afterFill book).getOrder fill.makerOrderId = some maker →
      fill.quantity = maker.remainingQty → maker.hiddenQty ≠ 0 →
        PutBack ((ahead ++ [fill]).foldl OrderBook.afterFill book) maker

/-- An admitted iceberg order takes until it is filled or nothing crosses its price. -/
def TakesAllSlices (book : OrderBook) (taker : BookOrder) : Prop :=
  taker.orderType = .iceberg → (matchOrder book taker).rejected = false →
    ((matchOrder book taker).fills.map Fill.quantity).sum = taker.openQty ∨
      ∀ orderId order, (matchOrder book taker).book.getOrder orderId = some order →
        order.side = taker.side.opposite →
          OrderBook.beyondLimit taker.side.opposite order.price taker.price = true

/-- An iceberg order that is turned away, hides nothing, or shows all that it can take. -/
def CoveredBySlice (book : OrderBook) (taker : BookOrder) : Prop :=
  taker.orderType = .iceberg →
    Refused book taker ∨ taker.hiddenQty = 0 ∨ crossingQty book taker ≤ taker.remainingQty

section Match

variable {book : OrderBook} {taker : BookOrder} {shares : List (OrderId × Decimal128)}

/-- A maker that hides more is used up at one of the places within reach. -/
theorem exhaustsHidden_iff :
    ExhaustsHidden book taker ↔
      ∃ place ∈ List.range (crossing taker.side.opposite book taker).length,
        ∃ maker ∈ (crossing taker.side.opposite book taker)[place]?.bind book.getOrder,
          maker.hiddenQty ≠ 0 ∧
            (((crossing taker.side.opposite book taker).take place).map book.remaining).sum +
              maker.remainingQty ≤ taker.remainingQty := by
  constructor
  · rintro ⟨ahead, makerId, behind, maker, split, found, hides, fits⟩
    refine ⟨ahead.length, by simp [split], maker, ?_, hides, ?_⟩
    · simpa [split] using found
    · simpa [split] using fits
  · rintro ⟨place, within, maker, found, hides, fits⟩
    obtain ⟨makerId, atPlace, found⟩ := Option.bind_eq_some_iff.1 found
    have inside := List.mem_range.1 within
    refine ⟨_, makerId, (crossing taker.side.opposite book taker).drop (place + 1), maker, ?_,
      found, hides, fits⟩
    rw [List.getElem?_eq_getElem inside] at atPlace
    rw [← Option.some.inj atPlace, List.cons_getElem_drop_succ, List.take_append_drop]

instance : Decidable (ExhaustsHidden book taker) :=
  decidable_of_iff _ exhaustsHidden_iff.symm

/-- The book after the fills is the book that the shares are taken out of. -/
theorem foldl_afterFill (stored : ∀ share ∈ shares, ∃ maker, book.getOrder share.1 = some maker)
    (current : OrderBook) :
    (fillsOf book taker shares).foldl OrderBook.afterFill current = current.takeOut shares := by
  induction shares generalizing current with
  | nil => rfl
  | cons share rest inductionHypothesis =>
      obtain ⟨maker, found⟩ := stored share List.mem_cons_self
      rw [fillsOf_cons found, List.foldl_cons, inductionHypothesis]
      · rfl
      · exact fun other member => stored other (List.mem_cons_of_mem share member)

/-- A fill stands where its share stands. -/
theorem fillsOf_split (stored : ∀ share ∈ shares, ∃ maker, book.getOrder share.1 = some maker)
    {ahead behind : List Fill} {fill : Fill}
    (split : fillsOf book taker shares = ahead ++ fill :: behind) :
    ∃ before share after, shares = before ++ share :: after ∧
      ahead = fillsOf book taker before ∧
      fill.makerOrderId = share.1 ∧ fill.quantity = share.2 := by
  induction shares generalizing ahead with
  | nil => simp [fillsOf] at split
  | cons share rest inductionHypothesis =>
      obtain ⟨maker, found⟩ := stored share List.mem_cons_self
      rw [fillsOf_cons found] at split
      cases ahead with
      | nil =>
          obtain ⟨rfl, -⟩ := List.cons.inj split
          exact ⟨[], share, rest, rfl, rfl, rfl, rfl⟩
      | cons first others =>
          obtain ⟨rfl, later⟩ := List.cons.inj split
          obtain ⟨before, other, after, rfl, rfl, sameId, sameQty⟩ := inductionHypothesis
            (fun other member => stored other (List.mem_cons_of_mem share member)) later
          refine ⟨share :: before, other, after, rfl, ?_, sameId, sameQty⟩
          rw [fillsOf_cons found]

private theorem matchShares_all_stored (wellFormed : book.WellFormed) :
    ∀ share ∈ matchShares book taker, ∃ maker, book.getOrder share.1 = some maker := by
  intro share drawn
  obtain ⟨maker, found, -⟩ := matchShares_stored wellFormed drawn
  exact ⟨maker, found⟩

/-- What is admitted and not PostOnly shares greedily. -/
theorem matchShares_of_admitted (wellFormed : book.WellFormed) (admitted : ¬Refused book taker)
    (notPostOnly : taker.timeInForce ≠ .postOnly) :
    matchShares book taker = greedyShares book taker := by
  rw [← matchOrder_rejected_iff wellFormed] at admitted
  rw [matchShares, if_neg]
  simp [admitted, notPostOnly]

/-- A maker is as it was up to its own fill, which takes its share. -/
theorem getOrder_foldl_afterFill (wellFormed : book.WellFormed)
    {before after : List (OrderId × Decimal128)} {share : OrderId × Decimal128} {maker : BookOrder}
    (split : matchShares book taker = before ++ share :: after)
    (found : book.getOrder share.1 = some maker) :
    ((fillsOf book taker before).foldl OrderBook.afterFill book).getOrder share.1 = some maker ∧
      ((fillsOf book taker before ++ [fillAgainst taker maker share.1 share.2]).foldl
          OrderBook.afterFill book).getOrder share.1 =
        if maker.remainingQty = share.2 then none
        else some (maker.withRemaining (maker.remainingQty - share.2)) := by
  have stored : ∀ share ∈ matchShares book taker, ∃ maker, book.getOrder share.1 = some maker :=
    matchShares_all_stored wellFormed
  have nodup : ((matchShares book taker).map Prod.fst).Nodup := matchShares_nodup wellFormed
  rw [split] at stored nodup
  have earlier : share.1 ∉ before.map Prod.fst := by
    rw [List.map_append, List.map_cons, List.nodup_append] at nodup
    exact fun early => nodup.2.2 share.1 early share.1 List.mem_cons_self rfl
  have upTo : ∀ other ∈ before ++ [share], ∃ maker, book.getOrder other.1 = some maker := by
    intro other member
    rcases List.mem_append.1 member with early | own
    · exact stored other (List.mem_append_left _ early)
    · obtain rfl := List.mem_singleton.1 own
      exact ⟨maker, found⟩
  constructor
  · rw [foldl_afterFill fun other member => upTo other (List.mem_append_left _ member)]
    exact (OrderBook.getOrder_takeOut_of_not_mem earlier).trans found
  · have fills : fillsOf book taker before ++ [fillAgainst taker maker share.1 share.2] =
        fillsOf book taker (before ++ [share]) := by
      simp [fillsOf, found]
    rw [fills, foldl_afterFill upTo]
    apply OrderBook.getOrder_takeOut_of_mem _ (by simp) found
    rw [List.map_append, List.map_cons, List.map_nil]
    rw [List.map_append, List.map_cons] at nodup
    exact nodup.sublist (List.Sublist.append_left
      (List.singleton_sublist.2 List.mem_cons_self) _)

/-- Makers are refilled exactly where none of them has to be. -/
theorem refillsMakers_iff (wellFormed : book.WellFormed) (positive : AllPositive book)
    (incoming : 0 ≤ taker.remainingQty) :
    RefillsMakers book taker ↔ LosslessMatch book taker := by
  constructor
  · intro refills
    by_contra loses
    simp only [LosslessMatch, not_or, not_not] at loses
    obtain ⟨admitted, notPostOnly, ahead, makerId, behind, maker, queue, found, hides, fits⟩ :=
      loses
    have drawn : (makerId, book.remaining makerId) ∈ matchShares book taker := by
      rw [matchShares_of_admitted wellFormed admitted notPostOnly, greedyShares, queue]
      apply exhausted_of_fits
      · rw [← queue]
        exact crossing_positive wellFormed positive
      · rwa [OrderBook.remaining_of_some found]
    obtain ⟨before, after, split⟩ := List.append_of_mem drawn
    obtain ⟨here, gone⟩ := getOrder_foldl_afterFill wellFormed split found
    have fills : (matchOrder book taker).fills = fillsOf book taker before ++
        fillAgainst taker maker makerId (book.remaining makerId) :: fillsOf book taker after := by
      rw [matchOrder_fills wellFormed, split]
      simp [fillsOf, found]
    have whole := OrderBook.remaining_of_some found
    obtain ⟨refilled, still, -⟩ := refills _ _ _ fills maker here whole hides
    rw [wellFormed.toLevels.keyed found] at still
    rw [gone, if_pos whole.symm] at still
    cases still
  · intro lossless ahead fill behind fills maker here whole hides
    rw [matchOrder_fills wellFormed] at fills
    obtain ⟨before, share, after, split, rfl, sameId, sameQty⟩ :=
      fillsOf_split (matchShares_all_stored wellFormed) fills
    have drawn : share ∈ matchShares book taker := by simp [split]
    obtain ⟨stored, found⟩ := matchShares_all_stored wellFormed share drawn
    rw [sameId, (getOrder_foldl_afterFill wellFormed split found).1] at here
    obtain rfl := Option.some.inj here
    exact absurd (sharesLossless_of_match wellFormed positive incoming lossless share drawn stored
      found (whole.symm.trans sameQty)) hides

/-- A limit order that would not cross has no makers. -/
theorem crossing_of_apart (wellFormed : book.WellFormed) (limited : taker.orderType.isLimit = true)
    (apart : ¬WouldCross book taker) : crossing taker.side.opposite book taker = [] := by
  apply List.eq_nil_iff_forall_not_mem.2
  intro makerId crosses
  obtain ⟨maker, found, atSide, within⟩ := (mem_crossing wellFormed).1 crosses
  exact apart ⟨makerId, maker, found, atSide, by simpa [stopsAt, limited] using within⟩

/-- Nothing crosses after a greedy match exactly if all that crosses is wanted. -/
theorem greedyWalk_clears_iff (wellFormed : book.WellFormed) (positive : AllPositive book)
    (incoming : 0 ≤ taker.remainingQty) (limited : taker.orderType.isLimit = true) :
    (∀ orderId order, (greedyWalk book taker).book.getOrder orderId = some order →
        order.side = taker.side.opposite →
        OrderBook.beyondLimit taker.side.opposite order.price taker.price = true) ↔
      crossingQty book taker ≤ taker.remainingQty := by
  have nodup : ((greedyShares book taker).map Prod.fst).Nodup := greedyShares_nodup wellFormed
  constructor
  · intro clears
    apply covered_of_exhausted incoming (crossing_nodup wellFormed)
    intro makerId crosses
    obtain ⟨maker, found, atSide, within⟩ := (mem_crossing wellFormed).1 crosses
    by_contra keeps
    have left : ∃ quantity, (greedyWalk book taker).book.getOrder makerId =
        some (maker.withRemaining quantity) := by
      by_cases drawn : makerId ∈ (greedyShares book taker).map Prod.fst
      · obtain ⟨share, member, rfl⟩ := List.mem_map.1 drawn
        have after := OrderBook.getOrder_takeOut_of_mem nodup member found
        split at after
        · rename_i whole
          rw [OrderBook.remaining_of_some found, whole] at keeps
          exact absurd member keeps
        · exact ⟨_, after⟩
      · refine ⟨maker.remainingQty, ?_⟩
        exact (OrderBook.getOrder_takeOut_of_not_mem drawn).trans found
    obtain ⟨quantity, after⟩ := left
    have beyond := clears makerId _ after atSide
    have inside : OrderBook.beyondLimit taker.side.opposite maker.price taker.price = false := by
      simpa [stopsAt, limited] using within
    rw [BookOrder.withRemaining_price, inside] at beyond
    cases beyond
  · intro covered orderId order kept atSide
    by_contra within
    obtain ⟨before, quantity, found, rfl⟩ := OrderBook.getOrder_of_takeOut kept
    have crosses : orderId ∈ crossing taker.side.opposite book taker :=
      (mem_crossing wellFormed).2 ⟨before, found, atSide, by simpa [stopsAt, limited] using within⟩
    have drawn := allocate_of_covered (crossing_positive wellFormed positive) covered orderId
      crosses
    rw [OrderBook.remaining_of_some found] at drawn
    have gone := OrderBook.getOrder_takeOut_of_mem nodup drawn found
    rw [if_pos rfl] at gone
    rw [show (greedyWalk book taker).book = book.takeOut (greedyShares book taker) from rfl, gone]
      at kept
    cases kept

/-- An iceberg order takes all its slices exactly where the first one covers what it can
take. -/
theorem takesAllSlices_iff (wellFormed : book.WellFormed) (positive : AllPositive book)
    (incoming : 0 ≤ taker.remainingQty) :
    TakesAllSlices book taker ↔ CoveredBySlice book taker := by
  rw [TakesAllSlices, CoveredBySlice, ← matchOrder_rejected_iff wellFormed]
  apply imp_congr_right
  intro iceberg
  have limited : taker.orderType.isLimit = true := by
    rw [iceberg]
    rfl
  cases rejected : (matchOrder book taker).rejected with
  | true => simp
  | false =>
      simp only [true_implies, Bool.false_eq_true, false_or]
      by_cases postOnly : taker.timeInForce = .postOnly
      · -- What is PostOnly and admitted finds nothing within its limit.
        have apart : ¬WouldCross book taker := by
          intro crosses
          have refused := (matchOrder_rejected_iff wellFormed).2 (Or.inl ⟨postOnly, crosses⟩)
          rw [rejected] at refused
          cases refused
        rw [congrArg Walk.book (matchOrder_untouched (Or.inr postOnly))]
        apply iff_of_true
        · right
          intro orderId order found atSide
          by_contra within
          exact apart ⟨orderId, order, found, atSide, by simpa using within⟩
        · right
          rw [crossingQty, crossing_of_apart wellFormed limited apart]
          exact incoming
      · have walk := matchOrder_admitted wellFormed rejected postOnly
        have taken : ((matchOrder book taker).fills.map Fill.quantity).sum =
            min taker.remainingQty (crossingQty book taker) := by
          rw [congrArg Walk.fills walk, greedyWalk, fillsOf_quantities,
            allocated_greedyShares wellFormed positive incoming]
          intro share drawn
          obtain ⟨maker, found, -⟩ := greedyShares_stored wellFormed drawn
          rw [found]
          rfl
        rw [congrArg Walk.book walk, greedyWalk_clears_iff wellFormed positive incoming limited,
          taken, BookOrder.openQty]
        rcases le_or_gt (crossingQty book taker) taker.remainingQty with covered | more
        · simp [covered]
        · simp [min_eq_left more.le, not_le.2 more]

end Match
end Exg
