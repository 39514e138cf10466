import Exg.Clearing.Position
import Exg.Common.DecimalValue
import Exg.Support.Machine
import Mathlib.Algebra.Order.BigOperators.Group.List
import Mathlib.Data.List.MinMax

/-!
# The average entry price

Every increase of a position truncates three times: the two notionals and their quotient.
The stored entry price never exceeds the exact volume-weighted average, and each increase
takes it further away by less than one unit for the quotient and two units shared out over
the new size.
-/

namespace Exg

open Support

namespace PositionManager

open Decimal128

/-- The calls that grow and shrink one position. -/
inductive PositionCall where
  | openOrIncrease (quantity price leverage : Decimal128) (marginMode : MarginMode)
  | reduceOrClose (quantity exitPrice : Decimal128)
  deriving DecidableEq, Repr

/-- The manager, and beside it the exact volume-weighted average of what is held. -/
structure Averaged where
  manager : PositionManager
  average : ℚ

variable (userId : UserId) (symbol : SymbolId) (side : PositionSide)

/-- The size a user holds of a symbol. -/
def heldSize (manager : PositionManager) : ℚ :=
  (manager.getPosition userId symbol).elim 0 fun position => position.size.toRat

/-- One call.  An increase reports the size right after it. -/
def averagedStep (state : Averaged) : PositionCall → Averaged × List ℚ
  | .openOrIncrease quantity price leverage marginMode =>
      let next := state.manager.openOrIncrease userId symbol side quantity price leverage marginMode
      (⟨next, averaged (heldSize userId symbol state.manager) state.average quantity.toRat
          price.toRat⟩,
        [heldSize userId symbol next])
  | .reduceOrClose quantity exitPrice =>
      match state.manager.reduceOrClose userId symbol quantity exitPrice with
      | .error _ => (state, [])
      | .ok (_, next) => (⟨next, state.average⟩, [])

/-- Increases are positive, and reductions do not empty the position. -/
def Partial (state : Averaged) : PositionCall → Prop
  | .openOrIncrease quantity price _ _ => 0 < quantity ∧ 0 < price
  | .reduceOrClose quantity _ =>
      ∀ position, state.manager.getPosition userId symbol = some position →
        quantity ≠ position.size

/-- What the truncations of the increases that left these sizes may add up to. -/
def truncated (sizes : List ℚ) : ℚ := (sizes.map fun size => (1 + 2 / size) * unit).sum

private theorem truncated_concat (sizes : List ℚ) (size : ℚ) :
    truncated (sizes ++ [size]) = truncated sizes + (1 + 2 / size) * unit := by
  simp [truncated]

/-- The smallest size gives the largest share. -/
theorem truncated_le {sizes : List ℚ} {smallest : ℚ} (positive : 0 < smallest)
    (least : ∀ size ∈ sizes, smallest ≤ size) :
    truncated sizes ≤ sizes.length * (1 + 2 / smallest) * unit := by
  have each : ∀ term ∈ sizes.map (fun size => (1 + 2 / size) * unit),
      term ≤ (1 + 2 / smallest) * unit := by
    intro term member
    rw [List.mem_map] at member
    obtain ⟨size, reported, rfl⟩ := member
    apply mul_le_mul_of_nonneg_right _ (by norm_num [unit])
    apply add_le_add_right
    exact div_le_div_of_nonneg_left (by norm_num) positive (least size reported)
  have total := List.sum_le_card_nsmul _ _ each
  rw [List.length_map, nsmul_eq_mul, ← mul_assoc] at total
  exact total

/-- A stored entry price that the exact average does not exceed by more than a bound. -/
structure Drift (bound average : ℚ) (position : Position) : Prop where
  sizeNonneg : 0 ≤ position.size
  priceNonneg : 0 ≤ position.entryPrice
  below : position.entryPrice.toRat ≤ average
  within : average - position.entryPrice.toRat ≤ bound

/-- What holds of a position that increases have left at these sizes. -/
structure Tracked (sizes : List ℚ) (average : ℚ) (position : Position) : Prop
    extends Drift (truncated sizes) average position where
  sizePos : 0 < position.size
  strictly : average - position.entryPrice.toRat < truncated sizes

variable {userId symbol side}

/-- An increase averages the exact and the stored price alike, but for its three truncations. -/
theorem Drift.openOrIncrease {manager : PositionManager} {sizes : List ℚ} {average : ℚ}
    {quantity price leverage : Decimal128} {marginMode : MarginMode}
    (drift : Drift (truncated sizes) average ((manager.getPosition userId symbol).getD
      (emptyPosition userId symbol side leverage marginMode)))
    (added : 0 < quantity) (priced : 0 < price) :
    ∃ next, (manager.openOrIncrease userId symbol side quantity price leverage
        marginMode).getPosition userId symbol = some next ∧
      Tracked (sizes ++ [next.size.toRat])
        (averaged (heldSize userId symbol manager) average quantity.toRat price.toRat) next := by
  have held : heldSize userId symbol manager =
      ((manager.getPosition userId symbol).getD
        (emptyPosition userId symbol side leverage marginMode)).size.toRat := by
    rw [heldSize]
    cases manager.getPosition userId symbol with
    | none => exact toRat_zero.symm
    | some position => rfl
  rw [held]
  generalize start : (manager.getPosition userId symbol).getD
    (emptyPosition userId symbol side leverage marginMode) = position at drift
  have grown : 0 < position.size + quantity := add_pos_of_nonneg_of_pos drift.sizeNonneg added
  have oldNonneg : 0 ≤ position.size * position.entryPrice :=
    Int.tdiv_nonneg (mul_nonneg drift.sizeNonneg drift.priceNonneg) (by decide)
  have newNonneg : 0 ≤ quantity * price :=
    Int.tdiv_nonneg (mul_nonneg added.le priced.le) (by decide)
  have old := truncates_mul drift.sizeNonneg drift.priceNonneg
  have new := truncates_mul added.le priced.le
  have mean := truncates_div (add_nonneg oldNonneg newNonneg) grown
  rw [toRat_add, toRat_add] at mean
  have heldNonneg := toRat_nonneg drift.sizeNonneg
  have addedRat := toRat_pos added
  have closer := averaged_sub_next_lt heldNonneg addedRat old new mean drift.below
  have lower := next_le_averaged heldNonneg addedRat old new mean drift.below
  have within := drift.within
  refine ⟨_, (getPosition_insert _ _ _).trans (if_pos ⟨rfl, rfl⟩), ?_⟩
  rw [start, if_pos (isPositive_iff.2 grown)]
  have strictly : averaged position.size.toRat average quantity.toRat price.toRat -
      ((position.size * position.entryPrice + quantity * price) /
        (position.size + quantity)).toRat <
      truncated (sizes ++ [(position.size + quantity).toRat]) := by
    rw [truncated_concat, toRat_add]
    linarith
  constructor
  · constructor
    · exact grown.le
    · exact Int.tdiv_nonneg (mul_nonneg (add_nonneg oldNonneg newNonneg) (by decide)) grown.le
    · exact lower
    · exact strictly.le
  · exact grown
  · exact strictly

/-- A reduction that does not empty the position keeps its entry price. -/
theorem Tracked.reduceOrClose {manager next : PositionManager} {sizes : List ℚ} {average : ℚ}
    {position : Position} {quantity exitPrice pnl : Decimal128}
    (found : manager.getPosition userId symbol = some position)
    (tracked : Tracked sizes average position) (partly : quantity ≠ position.size)
    (reduced : manager.reduceOrClose userId symbol quantity exitPrice = .ok (pnl, next)) :
    ∃ smaller, next.getPosition userId symbol = some smaller ∧
      Tracked sizes average smaller := by
  have left : position.size - quantity ≠ 0 := sub_ne_zero.2 partly.symm
  obtain ⟨held, stored, enough, ⟨whole, -⟩ | ⟨-, rfl⟩⟩ :=
    PositionManager.reduceOrClose_ok reduced
  · obtain rfl := Option.some.inj (found.symm.trans stored)
    exact absurd whole left
  · obtain rfl := Option.some.inj (found.symm.trans stored)
    have remaining : 0 < position.size - quantity :=
      lt_of_le_of_ne (sub_nonneg.2 enough) left.symm
    rw [getPosition_insert, if_pos ⟨rfl, rfl⟩]
    refine ⟨_, rfl, ?_⟩
    constructor
    · exact ⟨remaining.le, tracked.priceNonneg, tracked.below, tracked.within⟩
    · exact remaining
    · exact tracked.strictly

/-- No increase yet, or a position that the increases have left. -/
def Tracks (userId : UserId) (symbol : SymbolId) (sizes : List ℚ) (state : Averaged) : Prop :=
  (state.manager.getPosition userId symbol).elim (sizes = [] ∧ state.average = 0)
    (Tracked sizes state.average)

theorem Tracks.step {sizes : List ℚ} {state : Averaged} {call : PositionCall}
    (side : PositionSide) (tracks : Tracks userId symbol sizes state)
    (met : Partial userId symbol state call) :
    Tracks userId symbol (sizes ++ (averagedStep userId symbol side state call).2)
        (averagedStep userId symbol side state call).1 ∧
      ∀ size ∈ (averagedStep userId symbol side state call).2, 0 < size := by
  cases call with
  | openOrIncrease quantity price leverage marginMode =>
      have drift : Drift (truncated sizes) state.average
          ((state.manager.getPosition userId symbol).getD
            (emptyPosition userId symbol side leverage marginMode)) := by
        rw [Tracks] at tracks
        cases found : state.manager.getPosition userId symbol with
        | some position =>
            rw [found] at tracks
            exact tracks.toDrift
        | none =>
            rw [found] at tracks
            obtain ⟨rfl, zero⟩ := tracks
            rw [zero]
            constructor <;> simp [emptyPosition, truncated]
      obtain ⟨next, stored, tracked⟩ := drift.openOrIncrease met.1 met.2
      have reported : heldSize userId symbol (state.manager.openOrIncrease userId symbol side
          quantity price leverage marginMode) = next.size.toRat := by
        rw [heldSize, stored]
        rfl
      simp only [averagedStep, reported, Tracks, stored, List.mem_singleton, forall_eq]
      exact ⟨tracked, toRat_pos tracked.sizePos⟩
  | reduceOrClose quantity exitPrice =>
      simp only [averagedStep]
      split
      · simpa using tracks
      · rename_i pnl next reduced
        have nothing : ∀ size ∈ ([] : List ℚ), 0 < size := fun size member => by cases member
        refine ⟨?_, nothing⟩
        rw [List.append_nil, Tracks]
        rw [Tracks] at tracks
        cases found : state.manager.getPosition userId symbol with
        | none =>
            obtain ⟨position, stored, -⟩ := PositionManager.reduceOrClose_ok reduced
            cases found.symm.trans stored
        | some position =>
            rw [found] at tracks
            obtain ⟨smaller, stored, tracked⟩ :=
              Tracked.reduceOrClose found tracks (met position found) reduced
            rw [stored]
            exact tracked

/-- However a position is increased and reduced on one side, the stored entry price never
exceeds the exact volume-weighted average, and lies below it by less than the truncations of its
increases. -/
theorem entry_price_drift {manager : PositionManager} {calls : List PositionCall}
    (unopened : manager.getPosition userId symbol = none)
    (meet : StepsMeet (averagedStep userId symbol side) (Partial userId symbol)
      ⟨manager, 0⟩ calls)
    {position : Position}
    (found : (run (averagedStep userId symbol side) ⟨manager, 0⟩ calls).1.manager.getPosition
      userId symbol = some position) :
    ∃ smallest,
      IsLeast {size | size ∈ (run (averagedStep userId symbol side) ⟨manager, 0⟩ calls).2}
        smallest ∧
      position.entryPrice.toRat ≤
        (run (averagedStep userId symbol side) ⟨manager, 0⟩ calls).1.average ∧
      (run (averagedStep userId symbol side) ⟨manager, 0⟩ calls).1.average -
          position.entryPrice.toRat <
        (run (averagedStep userId symbol side) ⟨manager, 0⟩ calls).2.length *
          (1 + 2 / smallest) * unit := by
  obtain ⟨tracks, positive⟩ : Tracks userId symbol
      (run (averagedStep userId symbol side) ⟨manager, 0⟩ calls).2
      (run (averagedStep userId symbol side) ⟨manager, 0⟩ calls).1 ∧
      ∀ size ∈ (run (averagedStep userId symbol side) ⟨manager, 0⟩ calls).2, 0 < size := by
    apply run_induction (averagedStep userId symbol side) (motive := fun _ state sizes =>
      Tracks userId symbol sizes state ∧ ∀ size ∈ sizes, 0 < size)
    · constructor
      · rw [Tracks, unopened]
        exact ⟨rfl, rfl⟩
      · exact fun size member => by cases member
    · intro before call isPrefix earlier
      obtain ⟨next, sized⟩ := earlier.1.step side (meet.of_prefix isPrefix)
      refine ⟨next, fun size member => ?_⟩
      exact (List.mem_append.1 member).elim (earlier.2 size) (sized size)
  rw [Tracks, found] at tracks
  generalize run (averagedStep userId symbol side) ⟨manager, 0⟩ calls = reached at *
  have increased : 0 < reached.2.length := by
    apply List.length_pos_of_ne_nil
    intro none
    have strictly := tracks.strictly
    have below := tracks.below
    rw [none] at strictly
    simp only [truncated, List.map_nil, List.sum_nil] at strictly
    linarith
  have member := List.minimum_mem (List.coe_minimum_of_length_pos increased).symm
  have least : ∀ size ∈ reached.2, reached.2.minimum_of_length_pos increased ≤ size :=
    fun size reported => List.minimum_of_length_pos_le_of_mem reported increased
  refine ⟨reached.2.minimum_of_length_pos increased, ⟨member, least⟩, tracks.below, ?_⟩
  exact tracks.strictly.trans_le (truncated_le (positive _ member) least)

/-- Three at ten, one of them sold, one more at eleven. -/
def thirds : List PositionCall :=
  [.openOrIncrease (.ofInt 3) (.ofInt 10) .one .cross, .reduceOrClose (.ofInt 1) (.ofInt 7),
    .openOrIncrease (.ofInt 1) (.ofInt 11) .one .cross]

/-- The position that they leave. -/
def thirdsPosition : Position where
  userId := 1
  symbol := 1
  side := .long
  size := .ofInt 3
  entryPrice := ⟨10333333333333333333⟩
  leverage := .one
  margin := .ofInt 31
  unrealizedPnl := 0
  accumulatedFunding := 0
  marginMode := .cross

theorem entry_price_drift_thirds :
    ∃ smallest,
      IsLeast {size | size ∈ (run (averagedStep 1 1 .long) ⟨new, 0⟩ thirds).2} smallest ∧
      thirdsPosition.entryPrice.toRat ≤
        (run (averagedStep 1 1 .long) ⟨new, 0⟩ thirds).1.average ∧
      (run (averagedStep 1 1 .long) ⟨new, 0⟩ thirds).1.average -
          thirdsPosition.entryPrice.toRat < (2 : ℕ) * (1 + 2 / smallest) * unit := by
  have partly : Partial 1 1 (averagedStep 1 1 .long ⟨new, 0⟩ thirds[0]).1 thirds[1] := by
    intro position found
    have held : ((averagedStep 1 1 .long ⟨new, 0⟩ thirds[0]).1.manager.getPosition 1 1).map
        Position.size = some (.ofInt 3) := by decide +kernel
    have size : some position.size = some (.ofInt 3) :=
      (congrArg (Option.map Position.size) found).symm.trans held
    rw [Option.some.inj size]
    decide
  have meet : StepsMeet (averagedStep 1 1 .long) (Partial 1 1) ⟨new, 0⟩ thirds :=
    ⟨⟨by decide, by decide⟩, partly, ⟨by decide, by decide⟩, trivial⟩
  have found : (run (averagedStep 1 1 .long) ⟨new, 0⟩ thirds).1.manager.getPosition 1 1 =
      some thirdsPosition := by decide +kernel
  exact entry_price_drift (by decide) meet found

end PositionManager
end Exg
