import Exg.Matching.OrderBook
import Exg.Support.Machine
import Exg.Support.SortedEntries

/-!
# Depth snapshots and diffs

The tracker keeps the quantity of each price level and beside it a log of the changes since the
last snapshot.  A client that has the snapshot and applies the log has the book: `Follows` says so
and every update keeps it.
-/

namespace Exg

open Support

/-- Levels as (price, quantity). -/
abbrev DepthLevels := List (Decimal128 × Decimal128)

/-- A full snapshot: bids by falling price, asks by rising price. -/
structure DepthSnapshot where
  symbol : SymbolId
  timestamp : UnixMicros
  bids : DepthLevels
  asks : DepthLevels
  lastUpdateId : Nat
  deriving DecidableEq, Repr

/-- The changed levels, oldest change first.  A quantity of zero removes the level. -/
structure DepthDiff where
  symbol : SymbolId
  timestamp : UnixMicros
  bids : DepthLevels
  asks : DepthLevels
  firstUpdateId : Nat
  lastUpdateId : Nat
  deriving DecidableEq, Repr

/-- A map from prices, in the order of the prices, to quantities. -/
abbrev PriceMap := Std.ExtTreeMap Decimal128 Decimal128 (priceOrder .sell)

/-- Tracks orderbook depth and generates snapshots/diffs.  The update ids are `u64`s that start
at zero; here they are counted without a bound. -/
structure DepthTracker where
  symbol : SymbolId
  bids : PriceMap
  asks : PriceMap
  updateId : Nat
  lastSnapshotId : Nat
  /-- Accumulated diff since last snapshot. -/
  diffBids : DepthLevels
  diffAsks : DepthLevels

/-- Calls that change levels. -/
inductive LevelInput where
  | updateLevel (side : Side) (price qty : Decimal128)
  | updateLevels (updates : List (Side × Decimal128 × Decimal128))
  deriving DecidableEq, Repr

inductive DepthInput where
  | update (input : LevelInput)
  | markSnapshot
  deriving DecidableEq, Repr

/-- Set a level of a price map.  Quantity zero removes it. -/
def PriceMap.setLevel (book : PriceMap) (price qty : Decimal128) : PriceMap :=
  if qty.isZero then book.erase price else book.insert price qty

namespace DepthTracker

def new (symbol : SymbolId) : DepthTracker where
  symbol := symbol
  bids := ∅
  asks := ∅
  updateId := 0
  lastSnapshotId := 0
  diffBids := []
  diffAsks := []

/-- Update a price level. -/
def updateLevel (tracker : DepthTracker) (side : Side) (price qty : Decimal128) : DepthTracker :=
  let counted := { tracker with updateId := tracker.updateId + 1 }
  match side with
  | .buy =>
      { counted with
        bids := tracker.bids.setLevel price qty
        diffBids := tracker.diffBids ++ [(price, qty)] }
  | .sell =>
      { counted with
        asks := tracker.asks.setLevel price qty
        diffAsks := tracker.diffAsks ++ [(price, qty)] }

/-- Batch update multiple levels. -/
def updateLevels (tracker : DepthTracker) (updates : List (Side × Decimal128 × Decimal128)) :
    DepthTracker :=
  updates.foldl (fun tracker update => tracker.updateLevel update.1 update.2.1 update.2.2) tracker

/-- The best levels of each side. -/
def snapshot (tracker : DepthTracker) (levels : Nat) : DepthSnapshot where
  symbol := tracker.symbol
  timestamp := 0
  bids := tracker.bids.toList.reverse.take levels
  asks := tracker.asks.toList.take levels
  lastUpdateId := tracker.updateId

/-- Generate incremental diff since last snapshot. -/
def diffSinceSnapshot (tracker : DepthTracker) : DepthDiff where
  symbol := tracker.symbol
  timestamp := 0
  bids := tracker.diffBids
  asks := tracker.diffAsks
  firstUpdateId := tracker.lastSnapshotId + 1
  lastUpdateId := tracker.updateId

/-- Mark current state as snapshot baseline, clearing diff buffers. -/
def markSnapshot (tracker : DepthTracker) : DepthTracker :=
  { tracker with lastSnapshotId := tracker.updateId, diffBids := [], diffAsks := [] }

def update (tracker : DepthTracker) : LevelInput → DepthTracker
  | .updateLevel side price qty => tracker.updateLevel side price qty
  | .updateLevels updates => tracker.updateLevels updates

def step (tracker : DepthTracker) : DepthInput → DepthTracker
  | .update input => tracker.update input
  | .markSnapshot => tracker.markSnapshot

/-- The snapshot that leaves no level out. -/
def fullSnapshot (tracker : DepthTracker) : DepthSnapshot :=
  tracker.snapshot (max tracker.bids.size tracker.asks.size)

end DepthTracker

/-! ## What a client does with a diff -/

/-- Set the level, or remove it when the quantity is zero. -/
def applyLevel (side : Side) (levels : DepthLevels) (change : Decimal128 × Decimal128) :
    DepthLevels :=
  if change.2.isZero then
    removeEntry (priceOrder side) change.1 levels
  else
    setEntry (priceOrder side) change.1 change.2 levels

/-- Apply the changes of a diff to the levels of a snapshot. -/
def applyLevels (side : Side) (levels changes : DepthLevels) : DepthLevels :=
  changes.foldl (applyLevel side) levels

/-- The levels of a price map, best first. -/
def PriceMap.listed (book : PriceMap) : Side → DepthLevels
  | .buy => book.toList.reverse
  | .sell => book.toList

section Listed

variable {book : PriceMap} {side : Side}

/-- A side's levels list its price map in the order of the side. -/
theorem lists_listed (book : PriceMap) (side : Side) :
    Lists (priceOrder side) (book.listed side) fun price => book[price]? := by
  cases side with
  | buy => exact (lists_toList book).reverse fun _ _ => rfl
  | sell => exact lists_toList book

/-- Setting a level of the map is what the client does with the change. -/
theorem listed_setLevel (book : PriceMap) (side : Side) (price qty : Decimal128) :
    (book.setLevel price qty).listed side = applyLevel side (book.listed side) (price, qty) := by
  refine (lists_listed _ side).unique ?_
  rw [applyLevel, PriceMap.setLevel]
  by_cases zero : qty.isZero = true
  · rw [if_pos zero, if_pos zero]
    convert (lists_listed book side).removeEntry using 2 with tested
    rw [Std.ExtTreeMap.getElem?_erase]
    simp only [Std.LawfulEqCmp.compare_eq_iff_eq]
  · rw [if_neg zero, if_neg zero]
    convert (lists_listed book side).setEntry using 2 with tested
    rw [Std.ExtTreeMap.getElem?_insert]
    simp only [Std.LawfulEqCmp.compare_eq_iff_eq]

end Listed

namespace DepthTracker

section Snapshots

variable (tracker : DepthTracker)

private theorem fullSnapshot_bids : tracker.fullSnapshot.bids = tracker.bids.listed .buy := by
  refine List.take_of_length_le ?_
  rw [List.length_reverse, Std.ExtTreeMap.length_toList]
  exact le_max_left _ _

private theorem fullSnapshot_asks : tracker.fullSnapshot.asks = tracker.asks.listed .sell := by
  refine List.take_of_length_le ?_
  rw [Std.ExtTreeMap.length_toList]
  exact le_max_right _ _

/-- Bids are sorted by falling price. -/
theorem fullSnapshot_bids_fall :
    tracker.fullSnapshot.bids.Pairwise fun better worse => worse.1 < better.1 := by
  rw [fullSnapshot_bids]
  exact (lists_listed tracker.bids .buy).rise.imp compare_lt_iff_lt.1

/-- Asks are sorted by rising price. -/
theorem fullSnapshot_asks_rise :
    tracker.fullSnapshot.asks.Pairwise fun better worse => better.1 < worse.1 := by
  rw [fullSnapshot_asks]
  exact (lists_listed tracker.asks .sell).rise.imp compare_lt_iff_lt.1

end Snapshots

/-- The tracker's levels are those of the snapshot with the diff applied, and its ids count the
entries of the diff from the snapshot's on. -/
structure Follows (tracker : DepthTracker) (base : DepthSnapshot) : Prop where
  bids : applyLevels .buy base.bids tracker.diffBids = tracker.bids.listed .buy
  asks : applyLevels .sell base.asks tracker.diffAsks = tracker.asks.listed .sell
  marked : tracker.lastSnapshotId = base.lastUpdateId
  counted : tracker.updateId =
    base.lastUpdateId + (tracker.diffBids.length + tracker.diffAsks.length)

variable {tracker : DepthTracker} {base : DepthSnapshot}

private theorem follows_markSnapshot (tracker : DepthTracker) :
    tracker.markSnapshot.Follows tracker.markSnapshot.fullSnapshot where
  bids := fullSnapshot_bids tracker.markSnapshot
  asks := fullSnapshot_asks tracker.markSnapshot
  marked := rfl
  counted := rfl

private theorem applyLevels_concat (side : Side) (levels changes : DepthLevels)
    (change : Decimal128 × Decimal128) :
    applyLevels side levels (changes ++ [change]) =
      applyLevel side (applyLevels side levels changes) change := by
  rw [applyLevels, List.foldl_append]
  rfl

theorem Follows.updateLevel (follows : tracker.Follows base) (side : Side)
    (price qty : Decimal128) : (tracker.updateLevel side price qty).Follows base := by
  have counted := follows.counted
  cases side with
  | buy =>
      refine ⟨?_, follows.asks, follows.marked, ?_⟩
      · refine (applyLevels_concat _ _ _ _).trans ?_
        rw [follows.bids]
        exact (listed_setLevel tracker.bids .buy price qty).symm
      · simp only [DepthTracker.updateLevel, List.length_append, List.length_singleton]
        omega
  | sell =>
      refine ⟨follows.bids, ?_, follows.marked, ?_⟩
      · refine (applyLevels_concat _ _ _ _).trans ?_
        rw [follows.asks]
        exact (listed_setLevel tracker.asks .sell price qty).symm
      · simp only [DepthTracker.updateLevel, List.length_append, List.length_singleton]
        omega

theorem Follows.updateLevels (follows : tracker.Follows base)
    (updates : List (Side × Decimal128 × Decimal128)) :
    (tracker.updateLevels updates).Follows base := by
  induction updates generalizing tracker with
  | nil => exact follows
  | cons update rest inductionHypothesis =>
      exact inductionHypothesis (follows.updateLevel update.1 update.2.1 update.2.2)

theorem Follows.update (follows : tracker.Follows base) (input : LevelInput) :
    (tracker.update input).Follows base := by
  cases input with
  | updateLevel side price qty => exact follows.updateLevel side price qty
  | updateLevels updates => exact follows.updateLevels updates

theorem Follows.updates (follows : tracker.Follows base) (inputs : List LevelInput) :
    (inputs.foldl DepthTracker.update tracker).Follows base := by
  induction inputs generalizing tracker with
  | nil => exact follows
  | cons input rest inductionHypothesis => exact inductionHypothesis (follows.update input)

/-- The diff brings the snapshot taken at `mark_snapshot` to the current one, and its update ids
number its entries, from the one after the snapshot's. -/
theorem diff_reproduces (symbol : SymbolId) (before : List DepthInput) (after : List LevelInput) :
    let marked := (before.foldl step (new symbol)).markSnapshot
    let base := marked.fullSnapshot
    let tracker := after.foldl update marked
    let current := tracker.fullSnapshot
    let diff := tracker.diffSinceSnapshot
    (applyLevels .buy base.bids diff.bids = current.bids ∧
      applyLevels .sell base.asks diff.asks = current.asks) ∧
    (current.bids.Pairwise (fun better worse => worse.1 < better.1) ∧
      current.asks.Pairwise fun better worse => better.1 < worse.1) ∧
    diff.firstUpdateId = base.lastUpdateId + 1 ∧
    diff.lastUpdateId + 1 = diff.firstUpdateId + (diff.bids.length + diff.asks.length) := by
  intro marked base tracker current diff
  have follows : tracker.Follows base := (follows_markSnapshot _).updates after
  refine ⟨⟨?_, ?_⟩, ⟨fullSnapshot_bids_fall tracker, fullSnapshot_asks_rise tracker⟩, ?_, ?_⟩
  · exact follows.bids.trans (fullSnapshot_bids tracker).symm
  · exact follows.asks.trans (fullSnapshot_asks tracker).symm
  · exact congrArg (· + 1) follows.marked
  · have counted := follows.counted
    have first : diff.firstUpdateId = base.lastUpdateId + 1 := congrArg (· + 1) follows.marked
    rw [first]
    change tracker.updateId + 1 = _ + (tracker.diffBids.length + tracker.diffAsks.length)
    omega

end DepthTracker
end Exg
