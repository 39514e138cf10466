import Exg.Common.Decimal
import Exg.Common.Types
import Exg.Support.MapTotal
import Mathlib.Algebra.Order.Group.MinMax

/-!
# Positions

The position manager keeps one position for each user and symbol, as a magnitude and a
side.  `signedSize` reads the two together; opening, increasing, reducing and closing all
move it by exactly the quantity of the fill.
-/

namespace Exg

open Support

structure Position where
  userId : UserId
  symbol : SymbolId
  side : PositionSide
  size : Decimal128
  entryPrice : Decimal128
  leverage : Decimal128
  margin : Decimal128
  unrealizedPnl : Decimal128
  accumulatedFunding : Decimal128
  marginMode : MarginMode
  deriving DecidableEq, Repr

/-- The order in which a map keyed by user and symbol is stored here. -/
abbrev positionOrder : UserId × SymbolId → UserId × SymbolId → Ordering :=
  (@lexOrd Nat Nat _ _).compare

/-- Position manager tracks all open positions keyed by (user, symbol). -/
structure PositionManager where
  positions : Std.ExtTreeMap (UserId × SymbolId) Position positionOrder

inductive PositionError where
  | noPosition (userId : UserId) (symbol : SymbolId)
  | reduceExceedsSize (quantity size : Decimal128)
  deriving DecidableEq, Repr

namespace PositionManager

def new : PositionManager := ⟨∅⟩

def getPosition (manager : PositionManager) (userId : UserId) (symbol : SymbolId) :
    Option Position :=
  manager.positions[(userId, symbol)]?

/-- All positions; the source visits them in an order of its hash map. -/
def allPositions (manager : PositionManager) : List Position :=
  manager.positions.toList.map Prod.snd

/-- The position that an opening fill starts from. -/
def emptyPosition (userId : UserId) (symbol : SymbolId) (side : PositionSide)
    (leverage : Decimal128) (marginMode : MarginMode) : Position where
  userId := userId
  symbol := symbol
  side := side
  size := 0
  entryPrice := 0
  leverage := leverage
  margin := 0
  unrealizedPnl := 0
  accumulatedFunding := 0
  marginMode := marginMode

/-- Open or increase a position, averaging the entry price. -/
def openOrIncrease (manager : PositionManager) (userId : UserId) (symbol : SymbolId)
    (side : PositionSide) (quantity price leverage : Decimal128) (marginMode : MarginMode) :
    PositionManager :=
  let position := (manager.getPosition userId symbol).getD
    (emptyPosition userId symbol side leverage marginMode)
  let oldNotional := position.size * position.entryPrice
  let newNotional := quantity * price
  let newSize := position.size + quantity
  { positions := manager.positions.insert (userId, symbol)
      { position with
        entryPrice :=
          if newSize.isPositive then (oldNotional + newNotional) / newSize else position.entryPrice
        size := newSize
        side := side
        leverage := leverage
        margin := position.margin + quantity * price / leverage } }

/-- The realized profit of taking a quantity off a position. -/
def realizedPnl (position : Position) (exitPrice quantity : Decimal128) : Decimal128 :=
  match position.side with
  | .long | .both => (exitPrice - position.entryPrice) * quantity
  | .short => (position.entryPrice - exitPrice) * quantity

/-- Reduce or close a position. Returns the realized profit and the positions left. -/
def reduceOrClose (manager : PositionManager) (userId : UserId) (symbol : SymbolId)
    (quantity exitPrice : Decimal128) : Except PositionError (Decimal128 × PositionManager) :=
  match manager.getPosition userId symbol with
  | none => .error (.noPosition userId symbol)
  | some position =>
      if position.size < quantity then
        .error (.reduceExceedsSize quantity position.size)
      else
        let pnl := realizedPnl position exitPrice quantity
        let marginReleased := position.margin * quantity / position.size
        let newSize := position.size - quantity
        if newSize.isZero then
          .ok (pnl, { positions := manager.positions.erase (userId, symbol) })
        else
          let reduced :=
            { position with
              size := newSize
              margin := position.margin - marginReleased }
          .ok (pnl, { positions := manager.positions.insert (userId, symbol) reduced })

/-- Force close a position (liquidation). Returns the full position that was closed. -/
def forceClose (manager : PositionManager) (userId : UserId) (symbol : SymbolId) :
    Option (Position × PositionManager) :=
  (manager.getPosition userId symbol).map fun position =>
    (position, { positions := manager.positions.erase (userId, symbol) })

/-- Get margin released for a given reduction quantity (proportional). -/
def calcMarginReleased (manager : PositionManager) (userId : UserId) (symbol : SymbolId)
    (quantity : Decimal128) : Option Decimal128 :=
  (manager.getPosition userId symbol).map fun position =>
    position.margin * quantity / position.size

/-- The side a fill opens. -/
def openingSide : Side → PositionSide
  | .buy => .long
  | .sell => .short

/-- Position-keeping: a fill in the position's direction (or no position) increases; an
opposite fill reduces or closes, flipping if it exceeds the current size.  Returns the
realized profit. -/
def applyFill (manager : PositionManager) (userId : UserId) (symbol : SymbolId) (side : Side)
    (quantity price : Decimal128) : Except PositionError (Decimal128 × PositionManager) :=
  let fillSide := openingSide side
  let opened (manager : PositionManager) (quantity : Decimal128) : PositionManager :=
    manager.openOrIncrease userId symbol fillSide quantity price .one .cross
  match manager.getPosition userId symbol with
  | none => .ok (0, opened manager quantity)
  | some position =>
      if position.side = fillSide ∨ position.size = 0 then
        .ok (0, opened manager quantity)
      else
        let reduceQty := min quantity position.size
        match manager.reduceOrClose userId symbol reduceQty price with
        | .error error => .error error
        | .ok (pnl, reduced) =>
            let leftover := quantity - reduceQty
            .ok (pnl, if leftover.isPositive then opened reduced leftover else reduced)

end PositionManager

/-! ## Signed sizes -/

/-- A magnitude with the sign of its side. -/
def PositionSide.signed : PositionSide → Decimal128 → Decimal128
  | .long, size => size
  | .both, size => size
  | .short, size => -size

/-- The signed quantity of a fill. -/
def Side.signed : Side → Decimal128 → Decimal128
  | .buy, quantity => quantity
  | .sell, quantity => -quantity

def Position.signedSize (position : Position) : Decimal128 := position.side.signed position.size

@[simp]
theorem Side.signed_opposite (side : Side) (quantity : Decimal128) :
    side.opposite.signed quantity = -side.signed quantity := by
  cases side <;> simp [Side.opposite, Side.signed]

theorem Side.signed_add (side : Side) (first second : Decimal128) :
    side.signed (first + second) = side.signed first + side.signed second := by
  cases side
  · rfl
  · exact neg_add first second

namespace PositionManager

variable (manager : PositionManager) (userId : UserId) (symbol : SymbolId)

/-- The sum over all users of the signed position sizes of a symbol. -/
def netOpenInterest (symbol : SymbolId) : Decimal128 :=
  mapTotal (fun key position => if key.2 = symbol then position.signedSize else 0)
    manager.positions

/-- The signed size a user holds of a symbol. -/
def holding : Decimal128 := (manager.getPosition userId symbol).elim 0 Position.signedSize

/-- Positions are never two-way. -/
def Directed : Prop :=
  ∀ userId symbol position, manager.getPosition userId symbol = some position →
    position.side ≠ .both

theorem directed_new : new.Directed := by
  simp [Directed, new, getPosition]

variable {manager userId symbol}

/-- Storing a position changes the open interest of its symbol by its change of size. -/
theorem netOpenInterest_insert (position : Position) (other : SymbolId) :
    netOpenInterest ⟨manager.positions.insert (userId, symbol) position⟩ other =
      manager.netOpenInterest other +
        if symbol = other then position.signedSize - manager.holding userId symbol else 0 := by
  have changed := mapTotal_insert
    (fun (key : UserId × SymbolId) (position : Position) =>
      if key.2 = other then position.signedSize else 0)
    manager.positions (userId, symbol) position
  by_cases same : symbol = other
  · simp only [if_pos same] at changed ⊢
    refine add_right_cancel (b := manager.holding userId symbol) ?_
    refine changed.trans ?_
    simp only [netOpenInterest]
    abel
  · simp only [if_neg same, add_zero] at changed ⊢
    refine Eq.trans ?_ changed
    cases manager.positions[(userId, symbol)]? <;> simp [netOpenInterest]

private theorem netOpenInterest_erase (other : SymbolId) :
    netOpenInterest ⟨manager.positions.erase (userId, symbol)⟩ other =
      manager.netOpenInterest other -
        if symbol = other then manager.holding userId symbol else 0 := by
  have changed := mapTotal_erase
    (fun (key : UserId × SymbolId) (position : Position) =>
      if key.2 = other then position.signedSize else 0)
    manager.positions (userId, symbol)
  refine eq_sub_of_add_eq ?_
  by_cases same : symbol = other
  · simp only [if_pos same] at changed ⊢
    exact changed
  · simp only [if_neg same, add_zero] at changed ⊢
    refine Eq.trans ?_ changed
    cases manager.positions[(userId, symbol)]? <;> simp [netOpenInterest]

theorem getPosition_insert (position : Position) (otherUser : UserId) (other : SymbolId) :
    getPosition ⟨manager.positions.insert (userId, symbol) position⟩ otherUser other =
      if userId = otherUser ∧ symbol = other then some position
      else manager.getPosition otherUser other := by
  simp [getPosition, Std.ExtTreeMap.getElem?_insert, Std.LawfulEqCmp.compare_eq_iff_eq]

theorem getPosition_erase (otherUser : UserId) (other : SymbolId) :
    getPosition ⟨manager.positions.erase (userId, symbol)⟩ otherUser other =
      if userId = otherUser ∧ symbol = other then none
      else manager.getPosition otherUser other := by
  simp [getPosition, Std.ExtTreeMap.getElem?_erase, Std.LawfulEqCmp.compare_eq_iff_eq]

section EveryPosition

variable {holds : UserId → SymbolId → Position → Prop}

/-- What holds of every stored position, and of the one that is stored, holds after it. -/
theorem everyPosition_insert
    (every : ∀ otherUser other stored, manager.getPosition otherUser other = some stored →
      holds otherUser other stored)
    {position : Position} (own : holds userId symbol position) :
    ∀ otherUser other stored,
      getPosition ⟨manager.positions.insert (userId, symbol) position⟩ otherUser other =
        some stored → holds otherUser other stored := by
  intro otherUser other stored found
  rw [getPosition_insert] at found
  split at found
  · rename_i same
    obtain ⟨rfl, rfl⟩ := same
    cases found
    exact own
  · exact every otherUser other stored found

theorem everyPosition_erase
    (every : ∀ otherUser other stored, manager.getPosition otherUser other = some stored →
      holds otherUser other stored) :
    ∀ otherUser other stored,
      getPosition ⟨manager.positions.erase (userId, symbol)⟩ otherUser other = some stored →
        holds otherUser other stored := by
  intro otherUser other stored found
  rw [getPosition_erase] at found
  split at found
  · cases found
  · exact every otherUser other stored found

end EveryPosition

theorem Directed.insert (directed : manager.Directed) {position : Position}
    (oneWay : position.side ≠ .both) :
    Directed ⟨manager.positions.insert (userId, symbol) position⟩ :=
  everyPosition_insert directed oneWay

theorem Directed.erase (directed : manager.Directed) :
    Directed ⟨manager.positions.erase (userId, symbol)⟩ :=
  everyPosition_erase directed

/-! ## A fill moves the signed size by its quantity -/

private theorem openingSide_ne_both (side : Side) : openingSide side ≠ .both := by
  cases side <;> decide

theorem signed_openingSide (side : Side) (quantity : Decimal128) :
    (openingSide side).signed quantity = side.signed quantity := by
  cases side <;> rfl

/-- A one-way position on the other side counts against the fill. -/
theorem signed_of_ne {side : Side} {held : PositionSide} (oneWay : held ≠ .both)
    (apart : held ≠ openingSide side) (size : Decimal128) :
    held.signed size = -side.signed size := by
  cases side <;> cases held <;> simp_all [openingSide, PositionSide.signed, Side.signed]

/-- Opening in a direction in which nothing is held the other way. -/
theorem netOpenInterest_openOrIncrease {side : Side}
    (aligned : manager.holding userId symbol =
      side.signed ((manager.getPosition userId symbol).elim 0 Position.size))
    (quantity price leverage : Decimal128) (marginMode : MarginMode) (other : SymbolId) :
    (manager.openOrIncrease userId symbol (openingSide side) quantity price leverage
        marginMode).netOpenInterest other =
      manager.netOpenInterest other + if symbol = other then side.signed quantity else 0 := by
  have size : ((manager.getPosition userId symbol).getD
      (emptyPosition userId symbol (openingSide side) leverage marginMode)).size =
      (manager.getPosition userId symbol).elim 0 Position.size := by
    cases manager.getPosition userId symbol <;> rfl
  rw [openOrIncrease, netOpenInterest_insert, aligned]
  simp only [Position.signedSize, signed_openingSide, size, Side.signed_add]
  congr 2
  abel

private theorem directed_openOrIncrease (directed : manager.Directed) (side : Side)
    (quantity price leverage : Decimal128) (marginMode : MarginMode) :
    (manager.openOrIncrease userId symbol (openingSide side) quantity price leverage
      marginMode).Directed :=
  directed.insert (openingSide_ne_both side)

/-- A reduction that succeeds takes the quantity off a position, which goes when nothing is
left. -/
theorem reduceOrClose_ok {quantity exitPrice pnl : Decimal128} {next : PositionManager}
    (reduced : manager.reduceOrClose userId symbol quantity exitPrice = .ok (pnl, next)) :
    ∃ position, manager.getPosition userId symbol = some position ∧ quantity ≤ position.size ∧
      ((position.size - quantity = 0 ∧
          next = ⟨manager.positions.erase (userId, symbol)⟩) ∨
        (position.size - quantity ≠ 0 ∧
          next = ⟨manager.positions.insert (userId, symbol)
            { position with
              size := position.size - quantity
              margin := position.margin - position.margin * quantity / position.size }⟩)) := by
  cases found : manager.getPosition userId symbol with
  | none => simp [reduceOrClose, found] at reduced
  | some position =>
      refine ⟨position, rfl, ?_⟩
      simp only [reduceOrClose, found] at reduced
      split at reduced
      · cases reduced
      · rename_i within
        refine ⟨not_lt.1 within, ?_⟩
        split at reduced
        · rename_i nothing
          cases reduced
          exact Or.inl ⟨Decimal128.isZero_iff.1 nothing, rfl⟩
        · rename_i something
          cases reduced
          exact Or.inr ⟨fun zero => something (Decimal128.isZero_iff.2 zero), rfl⟩

/-- A fill opens, or reduces and opens with what is left over. -/
theorem applyFill_ok {side : Side} {quantity price pnl : Decimal128} {next : PositionManager}
    (applied : manager.applyFill userId symbol side quantity price = .ok (pnl, next)) :
    next = manager.openOrIncrease userId symbol (openingSide side) quantity price .one .cross ∨
    ∃ reduceQty reduced, manager.reduceOrClose userId symbol reduceQty price =
        .ok (pnl, reduced) ∧
      (next = reduced ∨ (0 < quantity - reduceQty ∧
        next = reduced.openOrIncrease userId symbol (openingSide side) (quantity - reduceQty)
          price .one .cross)) := by
  cases found : manager.getPosition userId symbol with
  | none =>
      simp only [applyFill, found, Except.ok.injEq, Prod.mk.injEq] at applied
      exact Or.inl applied.2.symm
  | some position =>
      simp only [applyFill, found] at applied
      split at applied
      · simp only [Except.ok.injEq, Prod.mk.injEq] at applied
        exact Or.inl applied.2.symm
      · split at applied
        · cases applied
        · rename_i reducedPnl reduced outcome
          simp only [Except.ok.injEq, Prod.mk.injEq] at applied
          obtain ⟨rfl, same⟩ := applied
          refine Or.inr ⟨_, reduced, outcome, ?_⟩
          split at same
          · rename_i leftover
            exact Or.inr ⟨Decimal128.isPositive_iff.1 leftover, same.symm⟩
          · exact Or.inl same.symm

/-- Reducing by no more than the size succeeds. -/
theorem reduceOrClose_spec (directed : manager.Directed) {position : Position}
    (found : manager.getPosition userId symbol = some position) {quantity : Decimal128}
    (within : quantity ≤ position.size) (exitPrice : Decimal128) :
    ∃ reduced, manager.reduceOrClose userId symbol quantity exitPrice =
        .ok (realizedPnl position exitPrice quantity, reduced) ∧
      reduced.Directed ∧
      (quantity = position.size → reduced.getPosition userId symbol = none) ∧
      ∀ other, reduced.netOpenInterest other =
        manager.netOpenInterest other -
          if symbol = other then position.side.signed quantity else 0 := by
  have held : manager.holding userId symbol = position.signedSize := by
    rw [holding, found]
    rfl
  have oneWay := directed userId symbol position found
  by_cases whole : quantity = position.size
  · refine ⟨⟨manager.positions.erase (userId, symbol)⟩, by simp [reduceOrClose, found, whole],
      directed.erase, ?_, ?_⟩
    · intro _
      rw [getPosition_erase, if_pos ⟨rfl, rfl⟩]
    · intro other
      rw [netOpenInterest_erase, held, whole]
      rfl
  · have partly : ¬position.size - quantity = 0 := fun zero => whole (sub_eq_zero.1 zero).symm
    refine ⟨⟨manager.positions.insert (userId, symbol)
        { position with
          size := position.size - quantity
          margin := position.margin - position.margin * quantity / position.size }⟩,
      by simp [reduceOrClose, found, not_lt.2 within, partly], directed.insert oneWay,
      fun same => absurd same whole, ?_⟩
    intro other
    rw [netOpenInterest_insert, held, sub_eq_add_neg (manager.netOpenInterest other)]
    refine congrArg (manager.netOpenInterest other + ·) ?_
    by_cases same : symbol = other
    · simp only [if_pos same, Position.signedSize]
      cases position.side <;> simp only [PositionSide.signed] <;> abel
    · simp [same]

/-- Every fill is applied, and moves the open interest by its signed quantity. -/
theorem applyFill_spec (directed : manager.Directed) (userId : UserId) (symbol : SymbolId)
    (side : Side) (quantity price : Decimal128) :
    ∃ pnl next, manager.applyFill userId symbol side quantity price = .ok (pnl, next) ∧
      next.Directed ∧
      ∀ other, next.netOpenInterest other =
        manager.netOpenInterest other + if symbol = other then side.signed quantity else 0 := by
  let opened (manager : PositionManager) (quantity : Decimal128) : PositionManager :=
    manager.openOrIncrease userId symbol (openingSide side) quantity price .one .cross
  cases found : manager.getPosition userId symbol with
  | none =>
      refine ⟨0, opened manager quantity, by rw [applyFill, found],
        directed_openOrIncrease directed side _ _ _ _, ?_⟩
      refine netOpenInterest_openOrIncrease ?_ _ _ _ _
      cases side <;> simp [holding, found, Side.signed]
  | some position =>
      have oneWay := directed userId symbol position found
      by_cases opens : position.side = openingSide side ∨ position.size = 0
      · refine ⟨0, opened manager quantity, by simp only [applyFill, found, if_pos opens, opened],
          directed_openOrIncrease directed side _ _ _ _, ?_⟩
        refine netOpenInterest_openOrIncrease ?_ _ _ _ _
        rw [holding, found]
        change position.side.signed position.size = side.signed position.size
        rcases opens with same | empty
        · rw [same, signed_openingSide]
        · rw [empty]
          cases side <;> cases position.side <;> simp [PositionSide.signed, Side.signed]
      · rw [not_or] at opens
        obtain ⟨reduced, outcome, reducedDirected, closed, reducedNet⟩ :=
          reduceOrClose_spec directed found (min_le_right quantity position.size) price
        have against := signed_of_ne oneWay opens.1 (min quantity position.size)
        by_cases flips : 0 < quantity - min quantity position.size
        · have whole : min quantity position.size = position.size := by
            refine min_eq_right ?_
            by_contra smaller
            rw [min_eq_left (not_le.1 smaller).le, sub_self] at flips
            exact lt_irrefl _ flips
          refine ⟨realizedPnl position price (min quantity position.size),
            opened reduced (quantity - min quantity position.size), by
            simp only [applyFill, found, not_or.2 opens, if_false, outcome,
              Decimal128.isPositive_iff.2 flips, if_true, opened],
            directed_openOrIncrease reducedDirected side _ _ _ _, ?_⟩
          intro other
          rw [netOpenInterest_openOrIncrease, reducedNet, against]
          · by_cases same : symbol = other
            · simp only [if_pos same, sub_neg_eq_add, add_assoc, ← Side.signed_add,
                add_sub_cancel]
            · simp [same]
          · cases side <;> simp [holding, closed whole, Side.signed]
        · have all : min quantity position.size = quantity := by
            refine min_eq_left ?_
            by_contra larger
            rw [min_eq_right (not_le.1 larger).le] at flips
            exact flips (sub_pos.2 (not_le.1 larger))
          refine ⟨realizedPnl position price (min quantity position.size), reduced, by
            simp only [applyFill, found, not_or.2 opens, if_false, outcome,
              Decimal128.isPositive_iff, flips], reducedDirected, ?_⟩
          intro other
          rw [reducedNet, against, all]
          by_cases same : symbol = other <;> simp [same]

/-! ## Where positions are filed -/

/-- Every position is stored under its own user and symbol, and of one symbol. -/
def Filed (manager : PositionManager) (only : SymbolId) : Prop :=
  ∀ userId symbol position, manager.getPosition userId symbol = some position →
    position.userId = userId ∧ position.symbol = symbol ∧ symbol = only

theorem filed_new (only : SymbolId) : new.Filed only := by
  simp [Filed, new, getPosition]

theorem Filed.insert {only : SymbolId} (filed : manager.Filed only) {position : Position}
    (own : position.userId = userId ∧ position.symbol = only) :
    Filed ⟨manager.positions.insert (userId, only) position⟩ only :=
  everyPosition_insert filed ⟨own.1, own.2, rfl⟩

theorem Filed.erase {only : SymbolId} (filed : manager.Filed only) :
    Filed ⟨manager.positions.erase (userId, symbol)⟩ only :=
  everyPosition_erase filed

theorem Filed.openOrIncrease {only : SymbolId} (filed : manager.Filed only) (side : PositionSide)
    (quantity price leverage : Decimal128) (marginMode : MarginMode) :
    (manager.openOrIncrease userId only side quantity price leverage marginMode).Filed only := by
  refine filed.insert ?_
  cases found : manager.getPosition userId only with
  | none => exact ⟨rfl, rfl⟩
  | some position =>
      obtain ⟨user, symbol, -⟩ := filed userId only position found
      exact ⟨user, symbol⟩

theorem Filed.reduceOrClose {only : SymbolId} (filed : manager.Filed only)
    {quantity exitPrice pnl : Decimal128} {next : PositionManager}
    (reduced : manager.reduceOrClose userId only quantity exitPrice = .ok (pnl, next)) :
    next.Filed only := by
  obtain ⟨position, found, -, ⟨-, rfl⟩ | ⟨-, rfl⟩⟩ := reduceOrClose_ok reduced
  · exact filed.erase
  · obtain ⟨user, symbol, -⟩ := filed userId only position found
    exact filed.insert ⟨user, symbol⟩

theorem Filed.applyFill {only : SymbolId} (filed : manager.Filed only) {side : Side}
    {quantity price pnl : Decimal128} {next : PositionManager}
    (applied : manager.applyFill userId only side quantity price = .ok (pnl, next)) :
    next.Filed only := by
  rcases applyFill_ok applied with rfl | ⟨_, reduced, outcome, rfl | ⟨-, rfl⟩⟩
  · exact filed.openOrIncrease _ _ _ _ _
  · exact filed.reduceOrClose outcome
  · exact (filed.reduceOrClose outcome).openOrIncrease _ _ _ _ _

/-- With one symbol, every position belongs to a different user. -/
theorem Filed.users_nodup {only : SymbolId} (filed : manager.Filed only) :
    (manager.allPositions.map Position.userId).Nodup := by
  rw [allPositions, List.map_map]
  refine List.Nodup.map_on ?_ (nodup_toList manager.positions)
  rintro ⟨⟨firstUser, firstSymbol⟩, first⟩ firstMember ⟨⟨secondUser, secondSymbol⟩, second⟩
    secondMember same
  rw [Std.ExtTreeMap.mem_toList_iff_getElem?_eq_some] at firstMember secondMember
  obtain ⟨ownFirst, -, firstOnly⟩ := filed firstUser firstSymbol first firstMember
  obtain ⟨ownSecond, -, secondOnly⟩ := filed secondUser secondSymbol second secondMember
  have sameUser : firstUser = secondUser := ownFirst.symm.trans (same.trans ownSecond)
  subst sameUser firstOnly secondOnly
  have samePosition : first = second := Option.some.inj (firstMember.symm.trans secondMember)
  rw [samePosition]

/-- Every position is stored under its own user and symbol. -/
def Keyed (manager : PositionManager) : Prop :=
  ∀ userId symbol position, manager.getPosition userId symbol = some position →
    position.userId = userId ∧ position.symbol = symbol

theorem keyed_new : new.Keyed := by
  simp [Keyed, new, getPosition]

theorem Keyed.insert (keyed : manager.Keyed) {position : Position}
    (own : position.userId = userId ∧ position.symbol = symbol) :
    Keyed ⟨manager.positions.insert (userId, symbol) position⟩ :=
  everyPosition_insert keyed own

theorem Keyed.erase (keyed : manager.Keyed) :
    Keyed ⟨manager.positions.erase (userId, symbol)⟩ :=
  everyPosition_erase keyed

theorem Keyed.openOrIncrease (keyed : manager.Keyed) (side : PositionSide)
    (quantity price leverage : Decimal128) (marginMode : MarginMode) :
    (manager.openOrIncrease userId symbol side quantity price leverage marginMode).Keyed := by
  apply keyed.insert
  cases found : manager.getPosition userId symbol with
  | none => exact ⟨rfl, rfl⟩
  | some position => exact keyed userId symbol position found

theorem Keyed.reduceOrClose (keyed : manager.Keyed) {quantity exitPrice pnl : Decimal128}
    {next : PositionManager}
    (reduced : manager.reduceOrClose userId symbol quantity exitPrice = .ok (pnl, next)) :
    next.Keyed := by
  obtain ⟨position, found, -, ⟨-, rfl⟩ | ⟨-, rfl⟩⟩ := reduceOrClose_ok reduced
  · exact keyed.erase
  · exact keyed.insert (keyed userId symbol position found)

theorem Keyed.applyFill (keyed : manager.Keyed) {side : Side} {quantity price pnl : Decimal128}
    {next : PositionManager}
    (applied : manager.applyFill userId symbol side quantity price = .ok (pnl, next)) :
    next.Keyed := by
  rcases applyFill_ok applied with rfl | ⟨_, reduced, outcome, rfl | ⟨-, rfl⟩⟩
  · exact keyed.openOrIncrease _ _ _ _ _
  · exact keyed.reduceOrClose outcome
  · exact (keyed.reduceOrClose outcome).openOrIncrease _ _ _ _ _

/-- No two positions have both user and symbol in common. -/
theorem Keyed.owners_nodup (keyed : manager.Keyed) :
    (manager.allPositions.map fun position => (position.userId, position.symbol)).Nodup := by
  rw [allPositions, List.map_map]
  have sameKeys : manager.positions.toList.map
      ((fun position : Position => (position.userId, position.symbol)) ∘ Prod.snd) =
        manager.positions.toList.map Prod.fst := by
    apply List.map_congr_left
    rintro ⟨⟨userId, symbol⟩, position⟩ member
    rw [Std.ExtTreeMap.mem_toList_iff_getElem?_eq_some] at member
    have own := keyed userId symbol position member
    exact Prod.ext own.1 own.2
  rw [sameKeys, Std.ExtTreeMap.map_fst_toList_eq_keys]
  exact Std.ExtTreeMap.nodup_keys

end PositionManager
end Exg
