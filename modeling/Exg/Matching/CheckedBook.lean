import Exg.Common.Operators
import Exg.Matching.PriceTime

/-!
# The book and the matcher, with their panics

Each function is the one of the same name without the question mark, with every addition and
subtraction of the source replaced by the operator that may panic.  On a healthy book only the
additions can fail: an insertion where the level's total leaves the range, and the count of what
a FOK order finds.
-/

namespace Exg

open Support

namespace OrderBook

/-! ## The book -/

/-- The total at a price, zero where there is no level. -/
def levelTotal (book : OrderBook) (side : Side) (price : Decimal128) : Decimal128 :=
  (book.level? side price).elim 0 PriceLevel.totalQty

def insertOrder? (book : OrderBook) (order : BookOrder) : Option OrderBook := do
  let _ ← (book.levelTotal order.side order.price).add? order.remainingQty
  some (book.insertOrder order)

/-- Take a quantity off the total of an order's level, if there is such a level. -/
def levelWithout? (book : OrderBook) (order : BookOrder) (diff : Decimal128) : Option Unit :=
  match book.level? order.side order.price with
  | none => some ()
  | some level => (level.totalQty.sub? diff).map fun _ => ()

def removeOrder? (book : OrderBook) (orderId : OrderId) : Option OrderBook :=
  match book.getOrder orderId with
  | none => some book
  | some order => do
      book.levelWithout? order order.remainingQty
      some (book.removeOrder orderId)

def updateQty? (book : OrderBook) (orderId : OrderId) (newRemaining : Decimal128) :
    Option OrderBook :=
  match book.getOrder orderId with
  | none => some book
  | some order => do
      let diff ← order.remainingQty.sub? newRemaining
      book.levelWithout? order diff
      some (book.updateQty orderId newRemaining)

/-- The loop of `cancel_all_user_orders` over the ids taken from the user index. -/
def cancelOrders? (book : OrderBook) : List OrderId → Option (OrderBook × List BookOrder)
  | [] => some (book, [])
  | orderId :: rest =>
      match book.getOrder orderId with
      | none => book.cancelOrders? rest
      | some order => do
          book.levelWithout? order order.remainingQty
          let later ← (book.unlinkOrder orderId order).cancelOrders? rest
          some (later.1, order :: later.2)

def cancelAllUserOrders? (book : OrderBook) (userId : UserId) :
    Option (OrderBook × List BookOrder) :=
  match book.userOrders[userId]? with
  | none => some (book, [])
  | some orderIds =>
      { book with userOrders := book.userOrders.erase userId }.cancelOrders? orderIds

/-- The loop of `available_qty_at_price`. -/
def sumWithin? (side : Side) (limitPrice : Decimal128) :
    Decimal128 → List PriceLevel → Option Decimal128
  | total, [] => some total
  | total, level :: rest =>
      if beyondLimit side level.price limitPrice then
        some total
      else do
        let next ← total.add? level.totalQty
        sumWithin? side limitPrice next rest

def availableQtyAtPrice? (book : OrderBook) (takerSide : Side) (limitPrice : Decimal128) :
    Option Decimal128 :=
  sumWithin? takerSide.opposite limitPrice 0 (book.levelList takerSide.opposite)

def totalOppositeQty? (book : OrderBook) (takerSide : Side) : Option Decimal128 :=
  Decimal128.sum? ((book.levelList takerSide.opposite).map PriceLevel.totalQty)

/-! ### What they agree with -/

theorem agrees_insertOrder (book : OrderBook) (order : BookOrder) :
    Agrees (book.insertOrder? order) (book.insertOrder order) :=
  .after fun _ => .pure _

theorem agrees_removeOrder (book : OrderBook) (orderId : OrderId) :
    Agrees (book.removeOrder? orderId) (book.removeOrder orderId) := by
  rw [removeOrder?]
  cases found : book.getOrder orderId with
  | none =>
      rw [removeOrder_of_none book found]
      exact .pure book
  | some order => exact .after fun _ => .pure _

theorem agrees_updateQty (book : OrderBook) (orderId : OrderId) (newRemaining : Decimal128) :
    Agrees (book.updateQty? orderId newRemaining) (book.updateQty orderId newRemaining) := by
  rw [updateQty?]
  cases found : book.getOrder orderId with
  | none =>
      rw [updateQty_of_none found]
      exact .pure book
  | some order => exact .after fun _ => .after fun _ => .pure _

private theorem agrees_cancelOrders (book : OrderBook) (orderIds : List OrderId) :
    Agrees (book.cancelOrders? orderIds) (book.cancelOrders orderIds) := by
  induction orderIds generalizing book with
  | nil => exact .pure _
  | cons head rest inductionHypothesis =>
      rw [cancelOrders?, cancelOrders]
      cases book.getOrder head with
      | none => exact inductionHypothesis book
      | some order =>
          exact .after fun _ => (inductionHypothesis (book.unlinkOrder head order)).bind_some
            fun later => (later.1, order :: later.2)

theorem agrees_cancelAllUserOrders (book : OrderBook) (userId : UserId) :
    Agrees (book.cancelAllUserOrders? userId) (book.cancelAllUserOrders userId) := by
  rw [cancelAllUserOrders?, cancelAllUserOrders]
  cases book.userOrders[userId]? with
  | none => exact .pure _
  | some orderIds => exact agrees_cancelOrders _ orderIds

/-! ## The matcher -/

/-- Take a quantity out of a maker: it leaves the book when nothing remains. -/
def takeFrom? (book : OrderBook) (makerId : OrderId) (makerRemaining : Decimal128) :
    Option OrderBook :=
  if makerRemaining.isZero then
    book.removeOrder? makerId
  else
    book.updateQty? makerId makerRemaining

end OrderBook

def matchLevel? (book : OrderBook) (taker : BookOrder) : List OrderId → Option Walk
  | [] => some ⟨book, taker, []⟩
  | makerId :: rest =>
      if taker.remainingQty.isZero then
        some ⟨book, taker, []⟩
      else
        match book.getOrder makerId with
        | none => matchLevel? book taker rest
        | some maker => do
            let fillQty := min taker.remainingQty maker.remainingQty
            let takerRemaining ← taker.remainingQty.sub? fillQty
            let makerRemaining ← maker.remainingQty.sub? fillQty
            let taken ← book.takeFrom? makerId makerRemaining
            let later ← matchLevel? taken (taker.withRemaining takerRemaining) rest
            some { later with fills := fillAgainst taker maker makerId fillQty :: later.fills }

def matchPrices? (makerSide : Side) (book : OrderBook) (taker : BookOrder) :
    List Decimal128 → Option Walk
  | [] => some ⟨book, taker, []⟩
  | price :: rest =>
      if taker.remainingQty.isZero then
        some ⟨book, taker, []⟩
      else if stopsAt makerSide taker price then
        some ⟨book, taker, []⟩
      else
        match (book.levelList makerSide).find? fun level => level.price = price with
        | none => matchPrices? makerSide book taker rest
        | some level => do
            let here ← matchLevel? book taker level.orders
            let later ← matchPrices? makerSide here.book here.taker rest
            some { later with fills := here.fills ++ later.fills }

def matchAgainst? (makerSide : Side) (book : OrderBook) (taker : BookOrder) : Option Walk :=
  matchPrices? makerSide book taker ((book.levelList makerSide).map PriceLevel.price)

def fokAvailable? (book : OrderBook) (order : BookOrder) : Option Decimal128 :=
  if order.orderType.isLimit then
    book.availableQtyAtPrice? order.side order.price
  else
    book.totalOppositeQty? order.side

/-- Whether a FOK order cannot be filled; only a FOK order counts what there is. -/
def fokShort? (book : OrderBook) (order : BookOrder) : Option Bool :=
  if order.timeInForce = .fok then
    (fokAvailable? book order).map fun available => decide (available < order.remainingQty)
  else
    some false

def matchOrder? (book : OrderBook) (order : BookOrder) : Option MatchResult :=
  if order.timeInForce = .postOnly then
    some { book := book, taker := order, fills := [], rejected := wouldMatch book order }
  else do
    let short ← fokShort? book order
    if short then
      some { book := book, taker := order, fills := [], rejected := true }
    else
      match order.side with
      | .buy => (matchAgainst? .sell book order).map fun walk => { walk with rejected := false }
      | .sell => (matchAgainst? .buy book order).map fun walk => { walk with rejected := false }

/-! ## Healthy books -/

/-- All quantities are positive, and all prices and totals in range. -/
structure OrderBook.Healthy (book : OrderBook) : Prop where
  wellFormed : book.WellFormed
  positive : AllPositive book
  priced : ∀ {orderId order}, book.getOrder orderId = some order → order.price.InRange
  totals : ∀ {side price level}, book.level? side price = some level → level.totalQty.InRange

namespace OrderBook.Healthy

variable {book : OrderBook}

theorem new (symbol : SymbolId) : (OrderBook.new symbol).Healthy where
  wellFormed := wellFormed_new symbol
  positive := by
    intro orderId order found
    simp at found
  priced := by simp
  totals := by simp

/-- A level holds at least each of its orders. -/
theorem remaining_le_total (healthy : book.Healthy) {orderId : OrderId} {order : BookOrder}
    (found : book.getOrder orderId = some order) {level : PriceLevel}
    (atLevel : book.level? order.side order.price = some level) :
    order.remainingQty ≤ level.totalQty := by
  have queued := healthy.wellFormed.toLevels.queued found
  rw [queue_of_level atLevel] at queued
  rw [(healthy.wellFormed.toLevels.agrees atLevel).total_eq, ← remaining_of_some found]
  refine List.single_le_sum ?_ _ (List.mem_map_of_mem queued)
  intro quantity member
  obtain ⟨other, stored, rfl⟩ := List.mem_map.1 member
  rw [← queue_of_level atLevel] at stored
  obtain ⟨otherOrder, otherFound, -⟩ := healthy.wellFormed.toLevels.stored stored
  rw [remaining_of_some otherFound]
  exact (healthy.positive other otherOrder otherFound).le

/-- Every order has a level. -/
theorem exists_level (healthy : book.Healthy) {orderId : OrderId} {order : BookOrder}
    (found : book.getOrder orderId = some order) :
    ∃ level, book.level? order.side order.price = some level := by
  have queued := healthy.wellFormed.toLevels.queued found
  rw [queue] at queued
  cases atLevel : book.level? order.side order.price with
  | none =>
      rw [atLevel] at queued
      cases queued
  | some level => exact ⟨level, rfl⟩

theorem remaining_inRange (healthy : book.Healthy) {orderId : OrderId} {order : BookOrder}
    (found : book.getOrder orderId = some order) : order.remainingQty.InRange := by
  obtain ⟨level, atLevel⟩ := healthy.exists_level found
  exact (healthy.totals atLevel).of_le (healthy.positive orderId order found).le
    (healthy.remaining_le_total found atLevel)

/-- Taking no more off a level than one of its orders has. -/
theorem computes_levelWithout (healthy : book.Healthy) {orderId : OrderId} {order : BookOrder}
    (found : book.getOrder orderId = some order) {diff : Decimal128} (nonneg : 0 ≤ diff)
    (within : diff ≤ order.remainingQty) : Computes (book.levelWithout? order diff) True () := by
  obtain ⟨level, atLevel⟩ := healthy.exists_level found
  rw [levelWithout?, atLevel]
  exact (Decimal128.computes_sub_of_le (healthy.totals atLevel) nonneg
    (within.trans (healthy.remaining_le_total found atLevel))).map fun _ => ()

/-! ### Removing -/

theorem computes_removeOrder (healthy : book.Healthy) (orderId : OrderId) :
    Computes (book.removeOrder? orderId) True (book.removeOrder orderId) := by
  rw [removeOrder?]
  cases found : book.getOrder orderId with
  | none =>
      rw [removeOrder_of_none book found]
      exact Computes.pure book
  | some order =>
      have positive := healthy.positive orderId order found
      exact (healthy.computes_levelWithout found positive.le le_rfl).bind_some
        fun _ => book.removeOrder orderId

theorem removeOrder (healthy : book.Healthy) (orderId : OrderId) :
    (book.removeOrder orderId).Healthy := by
  cases found : book.getOrder orderId with
  | none => rwa [removeOrder_of_none book found]
  | some order =>
      constructor
      · exact healthy.wellFormed.removeOrder orderId
      · intro other kept stored
        rw [getOrder_removeOrder] at stored
        split at stored
        · cases stored
        · exact healthy.positive other kept stored
      · intro other kept stored
        rw [getOrder_removeOrder] at stored
        split at stored
        · cases stored
        · exact healthy.priced stored
      · intro side price level atLevel
        rw [level?_removeOrder found] at atLevel
        split at atLevel
        · rename_i own
          obtain ⟨before, atBefore, dropped⟩ := Option.bind_eq_some_iff.1 atLevel
          rw [← own.1, ← own.2] at atBefore
          have enough := healthy.remaining_le_total found atBefore
          have positive := healthy.positive orderId order found
          rw [droppedLevel] at dropped
          split at dropped
          · cases dropped
          · rw [← Option.some.inj dropped]
            exact (healthy.totals atBefore).of_le (sub_nonneg.2 enough)
              (sub_le_self _ positive.le)
        · exact healthy.totals atLevel

/-! ### Reducing -/

section Reduce

variable {orderId : OrderId} {order : BookOrder} {newRemaining : Decimal128}

theorem computes_updateQty (healthy : book.Healthy) (found : book.getOrder orderId = some order)
    (nonneg : 0 ≤ newRemaining) (within : newRemaining ≤ order.remainingQty) :
    Computes (book.updateQty? orderId newRemaining) True (book.updateQty orderId newRemaining) := by
  rw [updateQty?, found]
  have diff := Decimal128.computes_sub_of_le (healthy.remaining_inRange found) nonneg within
  refine (diff.bind fun _ => ?_).congr (and_self_iff)
  exact (healthy.computes_levelWithout found (sub_nonneg.2 within)
    (sub_le_self _ nonneg)).bind_some fun _ => book.updateQty orderId newRemaining

theorem updateQty (healthy : book.Healthy) (found : book.getOrder orderId = some order)
    (positive : 0 < newRemaining) (within : newRemaining ≤ order.remainingQty) :
    (book.updateQty orderId newRemaining).Healthy := by
  constructor
  · exact healthy.wellFormed.updateQty orderId newRemaining
  · intro other kept stored
    rw [getOrder_updateQty] at stored
    split at stored
    · obtain ⟨before, -, rfl⟩ := Option.map_eq_some_iff.1 stored
      exact positive
    · exact healthy.positive other kept stored
  · intro other kept stored
    obtain ⟨before, _, atBefore, rfl⟩ := getOrder_updateQty_inv stored
    have priced := healthy.priced atBefore
    exact priced
  · intro side price level atLevel
    rw [level?_updateQty found] at atLevel
    split at atLevel
    · rename_i own
      obtain ⟨before, atBefore, rfl⟩ := Option.map_eq_some_iff.1 atLevel
      rw [← own.1, ← own.2] at atBefore
      have enough := healthy.remaining_le_total found atBefore
      have taken : order.remainingQty - newRemaining ≤ before.totalQty :=
        (sub_le_self _ positive.le).trans enough
      exact (healthy.totals atBefore).of_le (sub_nonneg.2 taken)
        (sub_le_self _ (sub_nonneg.2 within))
    · exact healthy.totals atLevel

private theorem computes_takeFrom (healthy : book.Healthy)
    (found : book.getOrder orderId = some order)
    (nonneg : 0 ≤ newRemaining) (within : newRemaining ≤ order.remainingQty) :
    Computes (book.takeFrom? orderId newRemaining) True (book.takeFrom orderId newRemaining) := by
  rw [takeFrom?, takeFrom]
  split
  · exact healthy.computes_removeOrder orderId
  · exact healthy.computes_updateQty found nonneg within

theorem takeFrom (healthy : book.Healthy) (found : book.getOrder orderId = some order)
    (nonneg : 0 ≤ newRemaining) (within : newRemaining ≤ order.remainingQty) :
    (book.takeFrom orderId newRemaining).Healthy := by
  rw [OrderBook.takeFrom]
  split
  · exact healthy.removeOrder orderId
  · rename_i left
    have positive : 0 < newRemaining :=
      lt_of_le_of_ne nonneg fun zero => left (Decimal128.isZero_iff.2 zero.symm)
    exact healthy.updateQty found positive within

end Reduce

/-! ### Inserting -/

theorem insertOrder (healthy : book.Healthy) {order : BookOrder}
    (missing : book.getOrder order.orderId = none) (positive : 0 < order.remainingQty)
    (priced : order.price.InRange)
    (fits : (book.levelTotal order.side order.price + order.remainingQty).InRange) :
    (book.insertOrder order).Healthy := by
  constructor
  · exact healthy.wellFormed.insertOrder missing
  · intro other kept stored
    rw [getOrder_insertOrder] at stored
    split at stored
    · rw [← Option.some.inj stored]
      exact positive
    · exact healthy.positive other kept stored
  · intro other kept stored
    rw [getOrder_insertOrder] at stored
    split at stored
    · rw [← Option.some.inj stored]
      exact priced
    · exact healthy.priced stored
  · intro side price level atLevel
    rw [level?_insertOrder] at atLevel
    split at atLevel
    · rename_i own
      rw [← Option.some.inj atLevel, ← own.1, ← own.2]
      rw [levelTotal] at fits
      rw [pushedLevel]
      cases entry : book.level? order.side order.price with
      | none =>
          rw [entry] at fits
          exact fits
      | some before =>
          rw [entry] at fits
          exact fits
    · exact healthy.totals atLevel

end OrderBook.Healthy

theorem OrderBook.computes_insertOrder (book : OrderBook) (order : BookOrder) :
    Computes (book.insertOrder? order)
      (book.levelTotal order.side order.price + order.remainingQty).InRange
      (book.insertOrder order) :=
  (Decimal128.computes_add _ _).bind_some fun _ => book.insertOrder order

/-! ## Walking a healthy book cannot fail -/

/-- A walk that is computed without a panic and leaves the book healthy. -/
structure Completes (outcome : Option Walk) (walk : Walk) : Prop where
  computes : Computes outcome True walk
  healthy : walk.book.Healthy
  nonneg : 0 ≤ walk.taker.remainingQty
  inRange : walk.taker.remainingQty.InRange

section Walks

variable {book : OrderBook} {taker : BookOrder}

private theorem completes_matchLevel (healthy : book.Healthy) (nonneg : 0 ≤ taker.remainingQty)
    (inRange : taker.remainingQty.InRange) (makers : List OrderId) :
    Completes (matchLevel? book taker makers) (matchLevel book taker makers) := by
  induction makers generalizing book taker with
  | nil => exact ⟨Computes.pure _, healthy, nonneg, inRange⟩
  | cons makerId rest inductionHypothesis =>
      rw [matchLevel?, matchLevel]
      split
      · exact ⟨Computes.pure _, healthy, nonneg, inRange⟩
      · cases found : book.getOrder makerId with
        | none => exact inductionHypothesis healthy nonneg inRange
        | some maker =>
            have positive := healthy.positive makerId maker found
            have fillNonneg : 0 ≤ min taker.remainingQty maker.remainingQty :=
              le_min nonneg positive.le
            have fromTaker := min_le_left taker.remainingQty maker.remainingQty
            have fromMaker := min_le_right taker.remainingQty maker.remainingQty
            have takerLeft := sub_nonneg.2 fromTaker
            have makerLeft := sub_nonneg.2 fromMaker
            have makerLess := sub_le_self maker.remainingQty fillNonneg
            have takerComputes := Decimal128.computes_sub_of_le inRange fillNonneg fromTaker
            have makerComputes := Decimal128.computes_sub_of_le (healthy.remaining_inRange found)
              fillNonneg fromMaker
            have taken := healthy.computes_takeFrom found makerLeft makerLess
            have takerInRange := inRange.of_le takerLeft (sub_le_self _ fillNonneg)
            have later : Completes
                (matchLevel? (book.takeFrom makerId (maker.remainingQty -
                    min taker.remainingQty maker.remainingQty))
                  (taker.withRemaining (taker.remainingQty -
                    min taker.remainingQty maker.remainingQty)) rest) _ :=
              inductionHypothesis (healthy.takeFrom found makerLeft makerLess) takerLeft
                takerInRange
            refine ⟨?_, later.healthy, later.nonneg, later.inRange⟩
            refine (takerComputes.bind fun _ => makerComputes.bind fun _ => taken.bind fun _ =>
              later.computes.bind_some fun walk => { walk with
                fills := fillAgainst taker maker makerId
                  (min taker.remainingQty maker.remainingQty) :: walk.fills }).congr ?_
            simp only [and_self]

private theorem completes_matchPrices (makerSide : Side) (healthy : book.Healthy)
    (nonneg : 0 ≤ taker.remainingQty) (inRange : taker.remainingQty.InRange)
    (prices : List Decimal128) :
    Completes (matchPrices? makerSide book taker prices)
      (matchPrices makerSide book taker prices) := by
  induction prices generalizing book taker with
  | nil => exact ⟨Computes.pure _, healthy, nonneg, inRange⟩
  | cons price rest inductionHypothesis =>
      rw [matchPrices?, matchPrices]
      split
      · exact ⟨Computes.pure _, healthy, nonneg, inRange⟩
      · split
        · exact ⟨Computes.pure _, healthy, nonneg, inRange⟩
        · cases (book.levelList makerSide).find? fun level => level.price = price with
          | none => exact inductionHypothesis healthy nonneg inRange
          | some level =>
              have here := completes_matchLevel healthy nonneg inRange level.orders
              have later := inductionHypothesis here.healthy here.nonneg here.inRange
              refine ⟨?_, later.healthy, later.nonneg, later.inRange⟩
              refine (here.computes.bind fun _ => later.computes.bind_some fun walk =>
                { walk with fills := (matchLevel book taker level.orders).fills ++ walk.fills }
                ).congr ?_
              simp only [and_self]

/-! ## Matching fails only where a FOK order counts more than the range holds -/

theorem sumWithin?_eq (side : Side) (limitPrice total : Decimal128) (levels : List PriceLevel) :
    OrderBook.sumWithin? side limitPrice total levels =
      ((levels.takeWhile fun level => !OrderBook.beyondLimit side level.price limitPrice).map
        PriceLevel.totalQty).foldlM Decimal128.add? total := by
  induction levels generalizing total with
  | nil => rfl
  | cons level rest inductionHypothesis =>
      by_cases beyond : OrderBook.beyondLimit side level.price limitPrice = true
      · simp [OrderBook.sumWithin?, beyond]
      · simp [OrderBook.sumWithin?, beyond, inductionHypothesis]

private theorem computes_totals (healthy : book.Healthy) {side : Side} {levels : List PriceLevel}
    (listed : ∀ level ∈ levels, level ∈ book.levelList side) :
    Computes ((levels.map PriceLevel.totalQty).foldlM Decimal128.add? 0)
      (levels.map PriceLevel.totalQty).sum.InRange (levels.map PriceLevel.totalQty).sum := by
  have nonneg : ∀ total ∈ levels.map PriceLevel.totalQty, 0 ≤ total := by
    intro total member
    obtain ⟨level, isListed, rfl⟩ := List.mem_map.1 member
    have atLevel := healthy.wellFormed.toLevels.mem_levelList.1 (listed level isListed)
    rw [(healthy.wellFormed.toLevels.agrees atLevel).total_eq]
    apply List.sum_nonneg
    intro quantity drawn
    obtain ⟨orderId, queued, rfl⟩ := List.mem_map.1 drawn
    rw [← OrderBook.queue_of_level atLevel] at queued
    obtain ⟨order, found, -⟩ := healthy.wellFormed.toLevels.stored queued
    rw [OrderBook.remaining_of_some found]
    exact (healthy.positive orderId order found).le
  have summed := Decimal128.computes_sum le_rfl Decimal128.inRange_zero nonneg
  rwa [zero_add] at summed

private theorem computes_fokAvailable (healthy : book.Healthy) (taker : BookOrder) :
    Computes (fokAvailable? book taker) (crossingQty book taker).InRange
      (fokAvailable book taker) := by
  rw [← fokAvailable_eq healthy.wellFormed, fokAvailable?, fokAvailable]
  split
  · rw [OrderBook.availableQtyAtPrice?, OrderBook.availableQtyAtPrice, sumWithin?_eq,
      OrderBook.sumWithin_eq_takeWhile]
    exact computes_totals healthy fun level member =>
      (List.takeWhile_sublist _).subset member
  · exact computes_totals healthy fun level member => member

private theorem computes_fokShort (healthy : book.Healthy) (taker : BookOrder) :
    Computes (fokShort? book taker) (taker.timeInForce = .fok → (crossingQty book taker).InRange)
      (decide (taker.timeInForce = .fok ∧ fokAvailable book taker < taker.remainingQty)) := by
  rw [fokShort?]
  split
  · rename_i fok
    simp only [fok, true_and, forall_const]
    exact (computes_fokAvailable healthy taker).map fun available =>
      decide (available < taker.remainingQty)
  · rename_i other
    simp only [other, false_and, decide_false, false_implies]
    exact Computes.pure false

theorem computes_matchOrder (healthy : book.Healthy) (nonneg : 0 ≤ taker.remainingQty)
    (inRange : taker.remainingQty.InRange) :
    Computes (matchOrder? book taker)
      (taker.timeInForce = .fok → (crossingQty book taker).InRange) (matchOrder book taker) := by
  rw [matchOrder?, matchOrder]
  by_cases postOnly : taker.timeInForce = .postOnly
  · rw [if_pos postOnly, if_pos postOnly]
    refine (Computes.pure _).congr (iff_of_true trivial fun fok => ?_)
    rw [postOnly] at fok
    cases fok
  · rw [if_neg postOnly, if_neg postOnly]
    have against (makerSide : Side) : Computes (matchAgainst? makerSide book taker) True
        (matchAgainst makerSide book taker) :=
      (completes_matchPrices makerSide healthy nonneg inRange _).computes
    refine ((computes_fokShort healthy taker).bind fun _ => ?_).congr (and_iff_left trivial)
    by_cases short : taker.timeInForce = .fok ∧ fokAvailable book taker < taker.remainingQty
    · rw [if_pos short, if_pos (decide_eq_true short)]
      exact Computes.pure _
    · rw [if_neg short, if_neg (ne_true_of_eq_false (decide_eq_false short))]
      cases taker.side with
      | buy => exact (against .sell).map fun walk => (⟨walk, false⟩ : MatchResult)
      | sell => exact (against .buy).map fun walk => (⟨walk, false⟩ : MatchResult)

/-- What is left is no more than what came in. -/
theorem healthy_matchOrder (healthy : book.Healthy) (nonneg : 0 ≤ taker.remainingQty)
    (inRange : taker.remainingQty.InRange) :
    (matchOrder book taker).book.Healthy ∧ (matchOrder book taker).taker.remainingQty.InRange := by
  have against (makerSide : Side) := completes_matchPrices makerSide healthy nonneg inRange
    ((book.levelList makerSide).map PriceLevel.price)
  rw [matchOrder]
  split
  · exact ⟨healthy, inRange⟩
  · split
    · exact ⟨healthy, inRange⟩
    · cases taker.side with
      | buy => exact ⟨(against .sell).healthy, (against .sell).inRange⟩
      | sell => exact ⟨(against .buy).healthy, (against .buy).inRange⟩

end Walks
end Exg
