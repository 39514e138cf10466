import Exg.Matching.OrderBook

/-!
# Matching an incoming order against the book

`match_against_asks` and `match_against_bids` are one function of the side they walk, and
so are here.  The source mutates the book and the taker in place; here both are returned,
next to the fills.
-/

namespace Exg

/-- A single fill generated by the matching process. -/
@[ext]
structure Fill where
  makerOrderId : OrderId
  takerOrderId : OrderId
  makerUserId : UserId
  takerUserId : UserId
  /-- Always at the maker's price (price improvement for taker). -/
  price : Decimal128
  quantity : Decimal128
  takerSide : Side
  deriving DecidableEq, Repr

/-- The book and the taker after a walk, and the fills it produced. -/
structure Walk where
  book : OrderBook
  taker : BookOrder
  fills : List Fill

/-- Result of a match attempt. -/
structure MatchResult extends Walk where
  /-- Whether the order was rejected (e.g. POST_ONLY would take, FOK not fillable). -/
  rejected : Bool

/-- The fill of a taker against one stored maker. -/
def fillAgainst (taker maker : BookOrder) (makerId : OrderId) (quantity : Decimal128) : Fill where
  makerOrderId := makerId
  takerOrderId := taker.orderId
  makerUserId := maker.userId
  takerUserId := taker.userId
  price := maker.price
  quantity := quantity
  takerSide := taker.side

@[simp]
theorem fillAgainst_withRemaining (taker maker : BookOrder) (left : Decimal128)
    (makerId : OrderId) (quantity : Decimal128) :
    fillAgainst (taker.withRemaining left) maker makerId quantity =
      fillAgainst taker maker makerId quantity := rfl

/-- Take a quantity out of a maker: it leaves the book when nothing remains. -/
def OrderBook.takeFrom (book : OrderBook) (makerId : OrderId) (makerRemaining : Decimal128) :
    OrderBook :=
  if makerRemaining.isZero then
    book.removeOrder makerId
  else
    book.updateQty makerId makerRemaining

/-- The inner loop: the orders of one level in FIFO order. -/
def matchLevel (book : OrderBook) (taker : BookOrder) : List OrderId → Walk
  | [] => ⟨book, taker, []⟩
  | makerId :: rest =>
      if taker.remainingQty.isZero then
        ⟨book, taker, []⟩
      else
        match book.getOrder makerId with
        | none => matchLevel book taker rest
        | some maker =>
            let fillQty := min taker.remainingQty maker.remainingQty
            let later :=
              matchLevel (book.takeFrom makerId (maker.remainingQty - fillQty))
                (taker.withRemaining (taker.remainingQty - fillQty)) rest
            { later with fills := fillAgainst taker maker makerId fillQty :: later.fills }

/-- Whether a limit order stops before a level of the given side. -/
def stopsAt (makerSide : Side) (taker : BookOrder) (levelPrice : Decimal128) : Bool :=
  taker.orderType.isLimit && OrderBook.beyondLimit makerSide levelPrice taker.price

@[simp]
theorem stopsAt_withRemaining (makerSide : Side) (taker : BookOrder) (left : Decimal128) :
    stopsAt makerSide (taker.withRemaining left) = stopsAt makerSide taker := rfl

/-- The outer loop over the prices collected before the first fill. -/
def matchPrices (makerSide : Side) (book : OrderBook) (taker : BookOrder) :
    List Decimal128 → Walk
  | [] => ⟨book, taker, []⟩
  | price :: rest =>
      if taker.remainingQty.isZero then
        ⟨book, taker, []⟩
      else if stopsAt makerSide taker price then
        ⟨book, taker, []⟩
      else
        match (book.levelList makerSide).find? fun level => level.price = price with
        | none => matchPrices makerSide book taker rest
        | some level =>
            let here := matchLevel book taker level.orders
            let later := matchPrices makerSide here.book here.taker rest
            { later with fills := here.fills ++ later.fills }

def matchAgainst (makerSide : Side) (book : OrderBook) (taker : BookOrder) : Walk :=
  matchPrices makerSide book taker ((book.levelList makerSide).map PriceLevel.price)

/-- Match a buy order against ask side of the book. -/
def matchAgainstAsks : OrderBook → BookOrder → Walk := matchAgainst .sell

/-- Match a sell order against bid side of the book. -/
def matchAgainstBids : OrderBook → BookOrder → Walk := matchAgainst .buy

/-- Whether a POST_ONLY order would take: the best opposite price is at or within its
own. -/
def wouldMatch (book : OrderBook) (order : BookOrder) : Bool :=
  match order.side with
  | .buy => book.bestAsk.any fun ask => decide (ask ≤ order.price)
  | .sell => book.bestBid.any fun bid => decide (order.price ≤ bid)

/-- What a FOK order finds to match: all depth for a market order. -/
def fokAvailable (book : OrderBook) (order : BookOrder) : Decimal128 :=
  if order.orderType.isLimit then
    book.availableQtyAtPrice order.side order.price
  else
    book.totalOppositeQty order.side

/-- Match an incoming order against the book. -/
def matchOrder (book : OrderBook) (order : BookOrder) : MatchResult :=
  if order.timeInForce = .postOnly then
    { book := book, taker := order, fills := [], rejected := wouldMatch book order }
  else if order.timeInForce = .fok ∧ fokAvailable book order < order.remainingQty then
    { book := book, taker := order, fills := [], rejected := true }
  else
    match order.side with
    | .buy => { matchAgainstAsks book order with rejected := false }
    | .sell => { matchAgainstBids book order with rejected := false }

/-! ## What a match keeps -/

section Keeps

variable {motive : OrderBook → Prop}
  (takes : ∀ {book : OrderBook} (makerId : OrderId) (left : Decimal128),
    motive book → motive (book.takeFrom makerId left))

include takes

private theorem matchLevel_keeps {book : OrderBook} {taker : BookOrder} {makerIds : List OrderId}
    (holds : motive book) : motive (matchLevel book taker makerIds).book := by
  induction makerIds generalizing book taker with
  | nil => exact holds
  | cons makerId rest inductionHypothesis =>
      rw [matchLevel]
      split
      · exact holds
      · cases book.getOrder makerId with
        | none => exact inductionHypothesis holds
        | some maker => exact inductionHypothesis (takes _ _ holds)

private theorem matchPrices_keeps {makerSide : Side} {book : OrderBook} {taker : BookOrder}
    {prices : List Decimal128} (holds : motive book) :
    motive (matchPrices makerSide book taker prices).book := by
  induction prices generalizing book taker with
  | nil => exact holds
  | cons price rest inductionHypothesis =>
      rw [matchPrices]
      split
      · exact holds
      · split
        · exact holds
        · split
          · exact inductionHypothesis holds
          · exact inductionHypothesis (matchLevel_keeps takes holds)

/-- What taking from a maker keeps of the book, a match keeps. -/
theorem matchOrder_keeps {book : OrderBook} {taker : BookOrder} (holds : motive book) :
    motive (matchOrder book taker).book := by
  rw [matchOrder]
  split
  · exact holds
  · split
    · exact holds
    · cases taker.side <;> exact matchPrices_keeps takes holds

end Keeps

section Taker

variable {book : OrderBook} {taker : BookOrder}

theorem matchLevel_taker (makerIds : List OrderId) :
    ∃ left, (matchLevel book taker makerIds).taker = taker.withRemaining left := by
  induction makerIds generalizing book taker with
  | nil => exact ⟨taker.remainingQty, rfl⟩
  | cons makerId rest inductionHypothesis =>
      rw [matchLevel]
      split
      · exact ⟨taker.remainingQty, rfl⟩
      · cases book.getOrder makerId with
        | none => exact inductionHypothesis
        | some maker => exact inductionHypothesis

private theorem matchPrices_taker {makerSide : Side} (prices : List Decimal128) :
    ∃ left, (matchPrices makerSide book taker prices).taker = taker.withRemaining left := by
  induction prices generalizing book taker with
  | nil => exact ⟨taker.remainingQty, rfl⟩
  | cons price rest inductionHypothesis =>
      rw [matchPrices]
      split
      · exact ⟨taker.remainingQty, rfl⟩
      · split
        · exact ⟨taker.remainingQty, rfl⟩
        · split
          · exact inductionHypothesis
          · rename_i level _
            have here : ∃ middle, (matchLevel book taker level.orders).taker =
                taker.withRemaining middle := matchLevel_taker level.orders
            obtain ⟨middle, changed⟩ := here
            have later : ∃ left, (matchPrices makerSide (matchLevel book taker level.orders).book
                (matchLevel book taker level.orders).taker rest).taker =
                  (matchLevel book taker level.orders).taker.withRemaining left :=
              inductionHypothesis
            obtain ⟨left, same⟩ := later
            rw [changed, BookOrder.withRemaining_withRemaining] at same
            exact ⟨left, by rw [← same, ← changed]⟩

/-- On any book, matching changes nothing of the taker but what remains of it. -/
theorem matchOrder_taker_withRemaining (book : OrderBook) (taker : BookOrder) :
    ∃ left, (matchOrder book taker).taker = taker.withRemaining left := by
  rw [matchOrder]
  split
  · exact ⟨taker.remainingQty, rfl⟩
  · split
    · exact ⟨taker.remainingQty, rfl⟩
    · cases taker.side <;> exact matchPrices_taker _

end Taker

end Exg
