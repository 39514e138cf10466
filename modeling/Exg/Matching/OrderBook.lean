import Exg.Common.Decimal
import Exg.Common.Types

/-!
# The order book of one symbol

`BTreeMap`s become ordered maps with the same comparison (`Reverse` for the bids), hash
maps become finite maps; nothing in this file depends on the order in which a hash map
lists its entries.  The views at the end (`getOrder`, `level?`, `queue`,
`getUserOrders`) are what later proofs use: each operation has one lemma saying what it
does to each view.
-/

namespace Exg

/-- A single order on the book. -/
@[ext]
structure BookOrder where
  orderId : OrderId
  userId : UserId
  symbol : SymbolId
  side : Side
  price : Decimal128
  remainingQty : Decimal128
  originalQty : Decimal128
  orderType : OrderType
  timeInForce : TimeInForce
  isReduceOnly : Bool
  timestamp : UnixMicros
  visibleQty : Option Decimal128
  hiddenQty : Decimal128
  trailingDelta : Option Decimal128
  trailingPeakPrice : Option Decimal128
  expireTime : Option UnixMicros
  clientOrderId : Option Nat
  stopPrice : Option Decimal128
  deriving DecidableEq, Repr

/-- The order with another remaining quantity. -/
@[simps]
def BookOrder.withRemaining (order : BookOrder) (quantity : Decimal128) : BookOrder :=
  { order with remainingQty := quantity }

@[simp]
theorem BookOrder.withRemaining_self (order : BookOrder) :
    order.withRemaining order.remainingQty = order := rfl

@[simp]
theorem BookOrder.withRemaining_withRemaining (order : BookOrder) (first second : Decimal128) :
    (order.withRemaining first).withRemaining second = order.withRemaining second := rfl

@[ext]
structure PriceLevel where
  price : Decimal128
  totalQty : Decimal128
  /-- FIFO order. -/
  orders : List OrderId
  deriving DecidableEq, Repr

/-- Which of two prices comes first on a side: bids fall, asks rise. -/
def priceOrder : Side → Decimal128 → Decimal128 → Ordering
  | .buy, left, right => compare right.raw left.raw
  | .sell, left, right => compare left.raw right.raw

private theorem rawTransCmp : Std.TransCmp (compare : Int → Int → Ordering) := inferInstance

private theorem rawLawfulEqCmp : Std.LawfulEqCmp (compare : Int → Int → Ordering) :=
  inferInstance

instance (side : Side) : Std.TransCmp (priceOrder side) where
  eq_swap := by
    intro left right
    cases side <;> exact rawTransCmp.eq_swap
  isLE_trans := by
    intro first second third firstLe secondLe
    cases side with
    | buy =>
        exact rawTransCmp.isLE_trans secondLe firstLe
    | sell =>
        exact rawTransCmp.isLE_trans firstLe secondLe

instance (side : Side) : Std.LawfulEqCmp (priceOrder side) where
  compare_self := by
    intro price
    cases side <;> exact rawLawfulEqCmp.compare_self
  eq_of_compare := by
    intro left right equal
    cases side with
    | buy =>
        exact (Decimal128.raw_injective (rawLawfulEqCmp.eq_of_compare equal)).symm
    | sell =>
        exact Decimal128.raw_injective (rawLawfulEqCmp.eq_of_compare equal)

theorem priceOrder_self (side : Side) (price : Decimal128) : priceOrder side price price = .eq :=
  Std.ReflCmp.compare_self

theorem priceOrder_swap (side : Side) (left right : Decimal128) :
    priceOrder side left right = (priceOrder side right left).swap :=
  Std.OrientedCmp.eq_swap

abbrev Levels (side : Side) := Std.ExtTreeMap Decimal128 PriceLevel (priceOrder side)

/-- The order book for a single symbol. -/
structure OrderBook where
  symbol : SymbolId
  bids : Levels .buy
  asks : Levels .sell
  orders : Std.ExtTreeMap OrderId BookOrder
  userOrders : Std.ExtTreeMap UserId (List OrderId)

/-! ## Levels of one side

The source writes each of these three bodies twice, once for the bids and once for the
asks, and the removal a third and fourth time in `cancel_all_user_orders`. -/

section Levels

variable {side : Side}

/-- Append an order id to its level, creating the level if it is missing. -/
def pushLevel (levels : Levels side) (order : BookOrder) : Levels side :=
  levels.alter order.price fun entry =>
    let level := entry.getD { price := order.price, totalQty := 0, orders := [] }
    some { level with
      totalQty := level.totalQty + order.remainingQty
      orders := level.orders ++ [order.orderId] }

/-- Remove an order id from its level, and the level with it once it is empty. -/
def dropLevel (levels : Levels side) (order : BookOrder) (orderId : OrderId) : Levels side :=
  levels.alter order.price fun entry =>
    entry.bind fun level =>
      let kept := level.orders.filter (· ≠ orderId)
      if kept.isEmpty then
        none
      else
        some { level with orders := kept, totalQty := level.totalQty - order.remainingQty }

/-- Take a quantity off a level's total. -/
def reduceLevel (levels : Levels side) (price diff : Decimal128) : Levels side :=
  levels.modify price fun level => { level with totalQty := level.totalQty - diff }

end Levels

namespace OrderBook

def new (symbol : SymbolId) : OrderBook where
  symbol := symbol
  bids := ∅
  asks := ∅
  orders := ∅
  userOrders := ∅

def getOrder (book : OrderBook) (orderId : OrderId) : Option BookOrder :=
  book.orders[orderId]?

def getUserOrders (book : OrderBook) (userId : UserId) : List OrderId :=
  book.userOrders[userId]?.getD []

/-- Insert an order into the book (no matching, just placement). -/
def insertOrder (book : OrderBook) (order : BookOrder) : OrderBook :=
  let stored := { book with
    orders := book.orders.insert order.orderId order
    userOrders := book.userOrders.alter order.userId fun ids =>
      some (ids.getD [] ++ [order.orderId]) }
  match order.side with
  | .buy => { stored with bids := pushLevel book.bids order }
  | .sell => { stored with asks := pushLevel book.asks order }

/-- Take a stored order out of the order map and out of its price level. -/
def unlinkOrder (book : OrderBook) (orderId : OrderId) (order : BookOrder) : OrderBook :=
  let erased := { book with orders := book.orders.erase orderId }
  match order.side with
  | .buy => { erased with bids := dropLevel book.bids order orderId }
  | .sell => { erased with asks := dropLevel book.asks order orderId }

/-- Remove an order by id.  The order the source returns is `getOrder` before the
call. -/
def removeOrder (book : OrderBook) (orderId : OrderId) : OrderBook :=
  match book.getOrder orderId with
  | none => book
  | some order =>
      let indexed := { book with
        userOrders := book.userOrders.alter order.userId fun ids =>
          ids.bind fun ids =>
            let kept := ids.filter (· ≠ orderId)
            if kept.isEmpty then none else some kept }
      indexed.unlinkOrder orderId order

/-- The loop of `cancel_all_user_orders` over the ids taken from the user index. -/
def cancelOrders (book : OrderBook) : List OrderId → OrderBook × List BookOrder
  | [] => (book, [])
  | orderId :: rest =>
      match book.getOrder orderId with
      | none => book.cancelOrders rest
      | some order =>
          let later := (book.unlinkOrder orderId order).cancelOrders rest
          (later.1, order :: later.2)

/-- Cancel all orders for a user. Returns canceled orders. -/
def cancelAllUserOrders (book : OrderBook) (userId : UserId) : OrderBook × List BookOrder :=
  match book.userOrders[userId]? with
  | none => (book, [])
  | some orderIds =>
      { book with userOrders := book.userOrders.erase userId }.cancelOrders orderIds

/-- Update remaining quantity of an existing order (for partial fills). -/
def updateQty (book : OrderBook) (orderId : OrderId) (newRemaining : Decimal128) : OrderBook :=
  match book.getOrder orderId with
  | none => book
  | some order =>
      let diff := order.remainingQty - newRemaining
      let stored := { book with
        orders := book.orders.insert orderId (order.withRemaining newRemaining) }
      match order.side with
      | .buy => { stored with bids := reduceLevel book.bids order.price diff }
      | .sell => { stored with asks := reduceLevel book.asks order.price diff }

/-- The levels of one side. -/
def levels (book : OrderBook) : (side : Side) → Levels side
  | .buy => book.bids
  | .sell => book.asks

/-- Price levels best first: `ask_levels` and `bid_levels`. -/
def levelList (book : OrderBook) (side : Side) : List PriceLevel :=
  (book.levels side).toList.map Prod.snd

def bestBid (book : OrderBook) : Option Decimal128 := book.bids.keys.head?

def bestAsk (book : OrderBook) : Option Decimal128 := book.asks.keys.head?

/-- Whether a level at `levelPrice` on the given side lies past a taker's limit. -/
def beyondLimit : Side → Decimal128 → Decimal128 → Bool
  | .sell, levelPrice, limitPrice => decide (limitPrice < levelPrice)
  | .buy, levelPrice, limitPrice => decide (levelPrice < limitPrice)

/-- The level totals up to the first level past the limit. -/
def sumWithin (side : Side) (limitPrice : Decimal128) : List PriceLevel → Decimal128
  | [] => 0
  | level :: rest =>
      if beyondLimit side level.price limitPrice then
        0
      else
        level.totalQty + sumWithin side limitPrice rest

/-- Available quantity at or better than a given price, for FOK validation. -/
def availableQtyAtPrice (book : OrderBook) (takerSide : Side) (limitPrice : Decimal128) :
    Decimal128 :=
  sumWithin takerSide.opposite limitPrice (book.levelList takerSide.opposite)

/-- Total available quantity on the opposite side (for market FOK). -/
def totalOppositeQty (book : OrderBook) (takerSide : Side) : Decimal128 :=
  ((book.levelList takerSide.opposite).map PriceLevel.totalQty).sum

/-! ## Views -/

def level? (book : OrderBook) (side : Side) (price : Decimal128) : Option PriceLevel :=
  (book.levels side)[price]?

/-- The FIFO queue at a price, empty where there is no level. -/
def queue (book : OrderBook) (side : Side) (price : Decimal128) : List OrderId :=
  (book.level? side price).elim [] PriceLevel.orders

theorem queue_of_level {book : OrderBook} {side : Side} {price : Decimal128}
    {level : PriceLevel} (found : book.level? side price = some level) :
    book.queue side price = level.orders := by
  simp [queue, found]

@[simp] theorem getOrder_new (symbol : SymbolId) (orderId : OrderId) :
    (new symbol).getOrder orderId = none := by
  simp [getOrder, new]

@[simp] theorem level?_new (symbol : SymbolId) (side : Side) (price : Decimal128) :
    (new symbol).level? side price = none := by
  cases side <;> simp [level?, levels, new]

@[simp] theorem getUserOrders_new (symbol : SymbolId) (userId : UserId) :
    (new symbol).getUserOrders userId = [] := by
  simp [getUserOrders, new]

/-- What `insertOrder` leaves at the order's own level. -/
def pushedLevel (entry : Option PriceLevel) (order : BookOrder) : PriceLevel :=
  let level := entry.getD { price := order.price, totalQty := 0, orders := [] }
  { level with
    totalQty := level.totalQty + order.remainingQty
    orders := level.orders ++ [order.orderId] }

/-- What `unlinkOrder` leaves at the order's own level. -/
def droppedLevel (level : PriceLevel) (order : BookOrder) (orderId : OrderId) :
    Option PriceLevel :=
  let kept := level.orders.filter (· ≠ orderId)
  if kept.isEmpty then
    none
  else
    some { level with orders := kept, totalQty := level.totalQty - order.remainingQty }

private theorem getElem?_pushLevel {side : Side} (levels : Levels side) (order : BookOrder)
    (price : Decimal128) :
    (pushLevel levels order)[price]? =
      if order.price = price then
        some (pushedLevel levels[order.price]? order)
      else
        levels[price]? := by
  rw [pushLevel, Std.ExtTreeMap.getElem?_alter]
  simp only [Std.LawfulEqCmp.compare_eq_iff_eq]
  rfl

private theorem getElem?_dropLevel {side : Side} (levels : Levels side) (order : BookOrder)
    (orderId : OrderId) (price : Decimal128) :
    (dropLevel levels order orderId)[price]? =
      if order.price = price then
        levels[order.price]?.bind (droppedLevel · order orderId)
      else
        levels[price]? := by
  rw [dropLevel, Std.ExtTreeMap.getElem?_alter]
  simp only [Std.LawfulEqCmp.compare_eq_iff_eq]
  rfl

private theorem getElem?_reduceLevel {side : Side} (levels : Levels side)
    (levelPrice diff price : Decimal128) :
    (reduceLevel levels levelPrice diff)[price]? =
      if levelPrice = price then
        levels[levelPrice]?.map fun level => { level with totalQty := level.totalQty - diff }
      else
        levels[price]? := by
  rw [reduceLevel, Std.ExtTreeMap.getElem?_modify]
  by_cases same : levelPrice = price
  · subst same
    simp
  · simp [same]

section Insert

variable (book : OrderBook) (order : BookOrder)

theorem getOrder_insertOrder (orderId : OrderId) :
    (book.insertOrder order).getOrder orderId =
      if order.orderId = orderId then some order else book.getOrder orderId := by
  cases sideCase : order.side <;>
    simp [insertOrder, getOrder, sideCase, Std.ExtTreeMap.getElem?_insert]

private theorem levels_insertOrder (side : Side) :
    (book.insertOrder order).levels side =
      if order.side = side then pushLevel (book.levels side) order else book.levels side := by
  cases sideCase : order.side <;> cases side <;> simp [insertOrder, levels, sideCase]

theorem level?_insertOrder (side : Side) (price : Decimal128) :
    (book.insertOrder order).level? side price =
      if order.side = side ∧ order.price = price then
        some (pushedLevel (book.level? side price) order)
      else
        book.level? side price := by
  rw [level?, levels_insertOrder]
  by_cases sameSide : order.side = side
  · by_cases samePrice : order.price = price
    · simp [sameSide, samePrice, getElem?_pushLevel, level?]
    · simp [sameSide, samePrice, getElem?_pushLevel, level?]
  · simp [sameSide, level?]

theorem queue_insertOrder (side : Side) (price : Decimal128) :
    (book.insertOrder order).queue side price =
      if order.side = side ∧ order.price = price then
        book.queue side price ++ [order.orderId]
      else
        book.queue side price := by
  rw [queue, level?_insertOrder]
  split
  · cases entry : book.level? side price <;> simp [queue, entry, pushedLevel]
  · rfl

theorem userOrders_insertOrder (userId : UserId) :
    (book.insertOrder order).userOrders[userId]? =
      if order.userId = userId then
        some (book.getUserOrders userId ++ [order.orderId])
      else
        book.userOrders[userId]? := by
  have altered : (book.insertOrder order).userOrders =
      book.userOrders.alter order.userId fun ids =>
        some (ids.getD [] ++ [order.orderId]) := by
    cases sideCase : order.side <;> simp [insertOrder, sideCase]
  rw [altered, Std.ExtTreeMap.getElem?_alter]
  by_cases same : order.userId = userId
  · subst same
    simp [getUserOrders]
  · simp [same]

end Insert

section Remove

variable (book : OrderBook)

theorem getOrder_unlinkOrder (orderId : OrderId) (order : BookOrder) (other : OrderId) :
    (book.unlinkOrder orderId order).getOrder other =
      if orderId = other then none else book.getOrder other := by
  cases sideCase : order.side <;>
    simp [unlinkOrder, getOrder, sideCase, Std.ExtTreeMap.getElem?_erase]

private theorem levels_unlinkOrder (orderId : OrderId) (order : BookOrder) (side : Side) :
    (book.unlinkOrder orderId order).levels side =
      if order.side = side then
        dropLevel (book.levels side) order orderId
      else
        book.levels side := by
  cases sideCase : order.side <;> cases side <;> simp [unlinkOrder, levels, sideCase]

theorem level?_unlinkOrder (orderId : OrderId) (order : BookOrder) (side : Side)
    (price : Decimal128) :
    (book.unlinkOrder orderId order).level? side price =
      if order.side = side ∧ order.price = price then
        (book.level? side price).bind (droppedLevel · order orderId)
      else
        book.level? side price := by
  rw [level?, levels_unlinkOrder]
  by_cases sameSide : order.side = side
  · by_cases samePrice : order.price = price
    · simp [sameSide, samePrice, getElem?_dropLevel, level?]
    · simp [sameSide, samePrice, getElem?_dropLevel, level?]
  · simp [sameSide, level?]

theorem queue_unlinkOrder (orderId : OrderId) (order : BookOrder) (side : Side)
    (price : Decimal128) :
    (book.unlinkOrder orderId order).queue side price =
      if order.side = side ∧ order.price = price then
        (book.queue side price).filter (· ≠ orderId)
      else
        book.queue side price := by
  rw [queue, level?_unlinkOrder]
  split
  · cases entry : book.level? side price with
    | none => simp [queue, entry]
    | some level =>
        by_cases empty : level.orders.filter (· ≠ orderId) = []
        · simp only [queue, entry, droppedLevel, Option.bind_some, empty, List.isEmpty_nil,
            if_true, Option.elim_none, Option.elim_some]
        · have nonempty : (level.orders.filter (· ≠ orderId)).isEmpty = false := by
            simpa [List.isEmpty_iff] using empty
          simp only [queue, entry, droppedLevel, Option.bind_some, nonempty,
            Bool.false_eq_true, if_false, Option.elim_some]
  · rfl

@[simp] theorem userOrders_unlinkOrder (orderId : OrderId) (order : BookOrder) :
    (book.unlinkOrder orderId order).userOrders = book.userOrders := by
  cases sideCase : order.side <;> simp [unlinkOrder, sideCase]

theorem removeOrder_of_none {orderId : OrderId} (missing : book.getOrder orderId = none) :
    book.removeOrder orderId = book := by
  simp [removeOrder, missing]

variable {book}

theorem removeOrder_of_some {orderId : OrderId} {order : BookOrder}
    (found : book.getOrder orderId = some order) :
    book.removeOrder orderId =
      { book with
        userOrders := book.userOrders.alter order.userId fun ids =>
          ids.bind fun ids =>
            let kept := ids.filter (· ≠ orderId)
            if kept.isEmpty then none else some kept }.unlinkOrder orderId order := by
  simp [removeOrder, found]

theorem getOrder_removeOrder (orderId other : OrderId) :
    (book.removeOrder orderId).getOrder other =
      if orderId = other then none else book.getOrder other := by
  cases found : book.getOrder orderId with
  | none =>
      rw [removeOrder_of_none book found]
      by_cases same : orderId = other
      · simp [← same, found]
      · simp [same]
  | some order =>
      rw [removeOrder_of_some found, getOrder_unlinkOrder]
      rfl

theorem level?_removeOrder {orderId : OrderId} {order : BookOrder}
    (found : book.getOrder orderId = some order) (side : Side) (price : Decimal128) :
    (book.removeOrder orderId).level? side price =
      if order.side = side ∧ order.price = price then
        (book.level? side price).bind (droppedLevel · order orderId)
      else
        book.level? side price := by
  rw [removeOrder_of_some found, level?_unlinkOrder]
  cases side <;> rfl

theorem queue_removeOrder {orderId : OrderId} {order : BookOrder}
    (found : book.getOrder orderId = some order) (side : Side) (price : Decimal128) :
    (book.removeOrder orderId).queue side price =
      if order.side = side ∧ order.price = price then
        (book.queue side price).filter (· ≠ orderId)
      else
        book.queue side price := by
  rw [removeOrder_of_some found, queue_unlinkOrder]
  cases side <;> rfl

/-- An order taken out and put back is stored as before. -/
theorem getOrder_putBack {orderId : OrderId} {order : BookOrder} (keyed : order.orderId = orderId)
    (found : book.getOrder orderId = some order) (other : OrderId) :
    ((book.removeOrder orderId).insertOrder order).getOrder other = book.getOrder other := by
  rw [getOrder_insertOrder, getOrder_removeOrder, keyed]
  by_cases own : orderId = other
  · rw [if_pos own, ← own, found]
  · rw [if_neg own, if_neg own]

/-- It goes to the end of its own queue, and nothing else moves. -/
theorem queue_putBack {orderId : OrderId} {order : BookOrder} (keyed : order.orderId = orderId)
    (found : book.getOrder orderId = some order) (side : Side) (price : Decimal128) :
    ((book.removeOrder orderId).insertOrder order).queue side price =
      if order.side = side ∧ order.price = price then
        (book.queue side price).filter (· ≠ orderId) ++ [orderId]
      else
        book.queue side price := by
  rw [queue_insertOrder, queue_removeOrder found, keyed]
  split <;> rfl

theorem userOrders_removeOrder {orderId : OrderId} {order : BookOrder}
    (found : book.getOrder orderId = some order) (userId : UserId) :
    (book.removeOrder orderId).userOrders[userId]? =
      if order.userId = userId then
        book.userOrders[userId]?.bind fun ids =>
          if (ids.filter (· ≠ orderId)).isEmpty then none else some (ids.filter (· ≠ orderId))
      else
        book.userOrders[userId]? := by
  rw [removeOrder_of_some found, userOrders_unlinkOrder, Std.ExtTreeMap.getElem?_alter]
  by_cases same : order.userId = userId
  · subst same
    simp
  · simp [same]

end Remove

section Update

variable {book : OrderBook}

theorem updateQty_of_none {orderId : OrderId} (missing : book.getOrder orderId = none)
    (newRemaining : Decimal128) : book.updateQty orderId newRemaining = book := by
  simp [updateQty, missing]

theorem getOrder_updateQty (orderId : OrderId) (newRemaining : Decimal128) (other : OrderId) :
    (book.updateQty orderId newRemaining).getOrder other =
      if orderId = other then
        (book.getOrder other).map (·.withRemaining newRemaining)
      else
        book.getOrder other := by
  cases found : book.getOrder orderId with
  | none =>
      rw [updateQty_of_none found]
      by_cases same : orderId = other
      · simp [← same, found]
      · simp [same]
  | some order =>
      have stored : (book.updateQty orderId newRemaining).orders =
          book.orders.insert orderId (order.withRemaining newRemaining) := by
        cases sideCase : order.side <;> simp [updateQty, found, sideCase]
      rw [getOrder, stored, Std.ExtTreeMap.getElem?_insert]
      by_cases same : orderId = other
      · subst same
        simp [found]
      · simp [same, getOrder]

private theorem levels_updateQty {orderId : OrderId} {order : BookOrder}
    (found : book.getOrder orderId = some order) (newRemaining : Decimal128) (side : Side) :
    (book.updateQty orderId newRemaining).levels side =
      if order.side = side then
        reduceLevel (book.levels side) order.price (order.remainingQty - newRemaining)
      else
        book.levels side := by
  cases sideCase : order.side <;> cases side <;> simp [updateQty, levels, found, sideCase]

theorem level?_updateQty {orderId : OrderId} {order : BookOrder}
    (found : book.getOrder orderId = some order) (newRemaining : Decimal128) (side : Side)
    (price : Decimal128) :
    (book.updateQty orderId newRemaining).level? side price =
      if order.side = side ∧ order.price = price then
        (book.level? side price).map fun level =>
          { level with totalQty := level.totalQty - (order.remainingQty - newRemaining) }
      else
        book.level? side price := by
  rw [level?, levels_updateQty found]
  by_cases sameSide : order.side = side
  · by_cases samePrice : order.price = price
    · simp [sameSide, samePrice, getElem?_reduceLevel, level?]
    · simp [sameSide, samePrice, getElem?_reduceLevel, level?]
  · simp [sameSide, level?]

@[simp] theorem queue_updateQty (orderId : OrderId) (newRemaining : Decimal128) (side : Side)
    (price : Decimal128) :
    (book.updateQty orderId newRemaining).queue side price = book.queue side price := by
  cases found : book.getOrder orderId with
  | none => rw [updateQty_of_none found]
  | some order =>
      rw [queue, level?_updateQty found]
      split
      · cases entry : book.level? side price <;> simp [queue, entry]
      · rfl

@[simp] theorem userOrders_updateQty (orderId : OrderId) (newRemaining : Decimal128) :
    (book.updateQty orderId newRemaining).userOrders = book.userOrders := by
  cases found : book.getOrder orderId with
  | none => rw [updateQty_of_none found]
  | some order =>
      cases sideCase : order.side <;> simp [updateQty, found, sideCase]

end Update

end OrderBook
end Exg
