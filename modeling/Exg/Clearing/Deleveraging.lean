import Exg.Clearing.Atomicity
import Exg.Common.DecimalValue
import Mathlib.Algebra.Order.BigOperators.Group.List

/-!
# Deleveraging covers the deficit

A deleveraging goes down its ranking and takes off each counterparty what the deficit still
needs, as far as the position goes.  The needed quantity is a truncated quotient and what it
covers a truncated product, so that a counterparty who keeps something leaves less than a unit
of quantity and a unit of money uncovered.
-/

namespace Exg

open Support
open Decimal128

/-! ## Ranking -/

/-- The score by which deleveraging ranks a position. -/
def adlScore (position : Position) (markPrice : Decimal128) : Decimal128 :=
  calcUnrealizedPnl position.entryPrice markPrice position.size position.side *
      (position.size * markPrice) / (position.margin * position.margin)

private theorem calcAdlRanking_sorted (positions : List Position) (markPrice : Decimal128) :
    (calcAdlRanking positions markPrice).Pairwise fun first second => second.2 ≤ first.2 :=
  List.pairwise_insertionSort
    (fun first second : UserId × Decimal128 => second.2 ≤ first.2) _

private theorem mem_calcAdlRanking {positions : List Position} {markPrice : Decimal128}
    {entry : UserId × Decimal128} :
    entry ∈ calcAdlRanking positions markPrice ↔
      ∃ position ∈ positions, position.margin ≠ 0 ∧
        (position.userId, adlScore position markPrice) = entry := by
  rw [calcAdlRanking, List.mem_insertionSort, List.mem_map]
  simp only [List.mem_filter, Bool.not_eq_true', Decimal128.isZero, decide_eq_false_iff_not,
    and_assoc]
  rfl

/-! ## One turn -/

/-- What reductions cover at the mark price. -/
def coveredBy (markPrice : Decimal128) (reductions : List (UserId × Decimal128)) : Decimal128 :=
  (reductions.map fun reduction => reduction.2 * markPrice).sum

@[simp]
theorem coveredBy_nil (markPrice : Decimal128) : coveredBy markPrice [] = 0 := rfl

@[simp]
theorem coveredBy_cons (markPrice : Decimal128) (reduction : UserId × Decimal128)
    (rest : List (UserId × Decimal128)) :
    coveredBy markPrice (reduction :: rest) =
      reduction.2 * markPrice + coveredBy markPrice rest := rfl

private theorem coveredBy_append (markPrice : Decimal128)
    (before after : List (UserId × Decimal128)) :
    coveredBy markPrice (before ++ after) =
      coveredBy markPrice before + coveredBy markPrice after := by
  rw [coveredBy, List.map_append, List.sum_append, coveredBy, coveredBy]

/-- The uncovered part of a deficit is less than a unit of quantity and a unit of money. -/
def NearlyCovered (markPrice uncovered : Decimal128) : Prop :=
  uncovered.toRat < (markPrice.toRat + 1) * unit

section Turn

variable {deficit markPrice : Decimal128}

/-- What is needed covers the deficit up to the two truncations. -/
theorem nearlyCovered_needed (deficitNonneg : 0 ≤ deficit) (markPos : 0 < markPrice) :
    NearlyCovered markPrice (deficit - deficit / markPrice * markPrice) := by
  have markRat := toRat_pos markPos
  have quotient := (truncates_div deficitNonneg markPos).lt
  have neededNonneg := quotient_nonneg deficitNonneg markPos
  have product := (truncates_mul neededNonneg markPos.le).lt
  have enough : deficit.toRat < ((deficit / markPrice).toRat + unit) * markPrice.toRat :=
    (div_lt_iff₀ markRat).1 quotient
  rw [NearlyCovered, toRat_sub]
  linarith

end Turn

namespace PositionManager

/-! ## The reductions -/

section Reductions

variable {manager : PositionManager} {symbol : SymbolId} {deficit markPrice : Decimal128}

/-- All positions of a symbol have a size. -/
def Sizeable (manager : PositionManager) (symbol : SymbolId) : Prop :=
  ∀ userId position, manager.getPosition userId symbol = some position → 0 < position.size

private theorem adlReductions_of_covered (covered : deficit ≤ 0)
    (ranking : List (UserId × Decimal128)) :
    manager.adlReductions symbol markPrice ranking deficit = [] := by
  cases ranking with
  | nil => rfl
  | cons entry rest =>
      rw [adlReductions, if_pos]
      simpa [Decimal128.isPositive] using covered

/-- The rest of a ranking makes up for what its beginning leaves. -/
theorem adlReductions_append (front back : List (UserId × Decimal128)) :
    manager.adlReductions symbol markPrice (front ++ back) deficit =
      manager.adlReductions symbol markPrice front deficit ++
        manager.adlReductions symbol markPrice back
          (deficit - coveredBy markPrice
            (manager.adlReductions symbol markPrice front deficit)) := by
  induction front generalizing deficit with
  | nil => simp [adlReductions]
  | cons entry rest inductionHypothesis =>
      rw [List.cons_append, adlReductions, adlReductions]
      by_cases covered : !deficit.isPositive
      · have none : deficit ≤ 0 := by simpa [Decimal128.isPositive] using covered
        rw [if_pos covered, if_pos covered, coveredBy_nil, sub_zero,
          adlReductions_of_covered none, List.append_nil]
      · rw [if_neg covered, if_neg covered]
        cases manager.getPosition entry.1 symbol with
        | none => exact inductionHypothesis
        | some position =>
            simp only
            split
            · exact inductionHypothesis
            · rw [inductionHypothesis, List.cons_append, coveredBy_cons, sub_sub]

/-- The reductions take something off, and never cover more than the deficit. -/
theorem adlReductions_within (sizeable : manager.Sizeable symbol) (markPos : 0 < markPrice)
    (deficitNonneg : 0 ≤ deficit) (ranking : List (UserId × Decimal128)) :
    (∀ reduction ∈ manager.adlReductions symbol markPrice ranking deficit, 0 < reduction.2) ∧
      coveredBy markPrice (manager.adlReductions symbol markPrice ranking deficit) ≤ deficit := by
  induction ranking generalizing deficit with
  | nil => exact ⟨by simp [adlReductions], deficitNonneg⟩
  | cons entry rest inductionHypothesis =>
      rw [adlReductions]
      split
      · exact ⟨by simp, deficitNonneg⟩
      · cases found : manager.getPosition entry.1 symbol with
        | none => exact inductionHypothesis deficitNonneg
        | some position =>
            simp only
            split
            · exact inductionHypothesis deficitNonneg
            · rename_i something
              have takenNonneg : 0 ≤ min (deficit / markPrice) position.size :=
                le_min (quotient_nonneg deficitNonneg markPos) (sizeable _ _ found).le
              have taken : min (deficit / markPrice) position.size ≠ 0 := by
                simpa [Decimal128.isZero] using something
              have within := mul_le_of_le_div deficitNonneg markPos takenNonneg (min_le_left _ _)
              obtain ⟨positive, covers⟩ := inductionHypothesis (sub_nonneg.2 within)
              refine ⟨List.forall_mem_cons.2 ⟨lt_of_le_of_ne takenNonneg taken.symm, positive⟩, ?_⟩
              rw [coveredBy_cons, ← le_sub_iff_add_le']
              exact covers

/-- After the turn of a counterparty whose position is not closed, the deficit is nearly
covered. -/
theorem adlReductions_turn (sizeable : manager.Sizeable symbol) (markPos : 0 < markPrice)
    (deficitNonneg : 0 ≤ deficit) {userId : UserId} {position : Position}
    (found : manager.getPosition userId symbol = some position) (score : Decimal128)
    (back : List (UserId × Decimal128)) :
    ∃ own later,
      manager.adlReductions symbol markPrice ((userId, score) :: back) deficit = own ++ later ∧
        (∀ reduction ∈ own, reduction.1 = userId) ∧
        (later.map Prod.fst).Sublist (back.map Prod.fst) ∧
        ((userId, position.size) ∉ own →
          NearlyCovered markPrice (deficit - coveredBy markPrice own)) := by
  have users : ∀ remaining,
      ((manager.adlReductions symbol markPrice back remaining).map Prod.fst).Sublist
        (back.map Prod.fst) := adlReductions_users symbol markPrice back
  by_cases covered : deficit ≤ 0
  · refine ⟨[], [], adlReductions_of_covered covered _, by simp, List.nil_sublist _, fun _ => ?_⟩
    have none : deficit = 0 := le_antisymm covered deficitNonneg
    have step : 0 < (markPrice.toRat + 1) * unit :=
      mul_pos (add_pos (toRat_pos markPos) one_pos) unit_pos
    simpa [NearlyCovered, none] using step
  · have open_ : ¬(!deficit.isPositive) = true := by simpa [Decimal128.isPositive] using covered
    rw [adlReductions, if_neg open_]
    simp only [found]
    by_cases nothing : (min (deficit / markPrice) position.size).isZero
    · rw [if_pos nothing]
      refine ⟨[], _, rfl, by simp, users deficit, fun _ => ?_⟩
      have size := sizeable userId position found
      have zero : deficit / markPrice = 0 := by
        rcases min_choice (deficit / markPrice) position.size with needed | whole
        · rw [← needed]
          simpa [Decimal128.isZero] using nothing
        · rw [whole] at nothing
          exact absurd (by simpa [Decimal128.isZero] using nothing) size.ne'
      have nearly := nearlyCovered_needed deficitNonneg markPos
      rwa [zero, zero_product] at nearly
    · rw [if_neg nothing]
      refine ⟨[(userId, min (deficit / markPrice) position.size)], _, rfl, by simp, users _,
        fun kept => ?_⟩
      have partly : min (deficit / markPrice) position.size = deficit / markPrice := by
        rcases min_choice (deficit / markPrice) position.size with needed | whole
        · exact needed
        · rw [whole] at kept
          exact absurd (List.mem_singleton_self _) kept
      rw [partly, coveredBy_cons, coveredBy_nil, add_zero]
      exact nearlyCovered_needed deficitNonneg markPos

end Reductions

/-! ## The positions that are left -/

section After

variable {manager : PositionManager} {symbol : SymbolId} {markPrice : Decimal128}

/-- The positions after reductions. -/
def afterReductions (manager : PositionManager) (symbol : SymbolId) (markPrice : Decimal128)
    (reductions : List (UserId × Decimal128)) : PositionManager :=
  reductions.foldl (fun current reduction =>
    current.afterReduction reduction.1 symbol reduction.2 markPrice) manager

private theorem getPosition_afterReductions_of_fresh {reductions : List (UserId × Decimal128)}
    {userId : UserId} {other : SymbolId}
    (fresh : ¬(other = symbol ∧ userId ∈ reductions.map Prod.fst)) :
    (manager.afterReductions symbol markPrice reductions).getPosition userId other =
      manager.getPosition userId other := by
  induction reductions generalizing manager with
  | nil => rfl
  | cons reduction rest inductionHypothesis =>
      rw [List.map_cons, List.mem_cons] at fresh
      rw [afterReductions, List.foldl_cons]
      refine (inductionHypothesis fun both => fresh ⟨both.1, Or.inr both.2⟩).trans ?_
      exact getPosition_afterReduction_of_ne
        (fun same => fresh ⟨same.2.symm, Or.inl same.1.symm⟩) _ _

/-- A reduced position has lost what was taken off it. -/
theorem getPosition_afterReductions {reductions : List (UserId × Decimal128)}
    (distinct : (reductions.map Prod.fst).Nodup) {userId : UserId} {quantity : Decimal128}
    (member : (userId, quantity) ∈ reductions) {position : Position}
    (found : manager.getPosition userId symbol = some position)
    (within : quantity ≤ position.size) :
    (manager.afterReductions symbol markPrice reductions).getPosition userId symbol =
      if position.size - quantity = 0 then none
      else some { position with
        size := position.size - quantity
        margin := position.margin - position.margin * quantity / position.size } := by
  induction reductions generalizing manager with
  | nil => cases member
  | cons reduction rest inductionHypothesis =>
      rw [List.map_cons, List.nodup_cons] at distinct
      rw [afterReductions, List.foldl_cons]
      rcases List.mem_cons.1 member with rfl | later
      · refine (getPosition_afterReductions_of_fresh fun both => distinct.1 both.2).trans ?_
        exact getPosition_afterReduction found within markPrice
      · have apart : ¬(reduction.1 = userId ∧ symbol = symbol) := fun same =>
          distinct.1 (same.1 ▸ List.mem_map_of_mem later)
        refine inductionHypothesis distinct.2 later ?_
        rw [getPosition_afterReduction_of_ne apart, found]

end After

end PositionManager

namespace ClearingService

variable {service : ClearingService}

/-- A deleveraging that succeeds has made the reductions of its ranking. -/
theorem executeAdlEach_ok {bankruptUser : UserId} {symbol : SymbolId} {markPrice : Decimal128}
    {timestamp : UnixMicros} {ranking : List (UserId × Decimal128)} {remainingDeficit : Decimal128}
    {results : List (UserId × Decimal128)} (distinct : (ranking.map Prod.fst).Nodup)
    (ok : (executeAdlEach bankruptUser symbol markPrice timestamp ranking remainingDeficit []
      service).2 = .ok results) :
    results = service.positionManager.adlReductions symbol markPrice ranking remainingDeficit ∧
      (executeAdlEach bankruptUser symbol markPrice timestamp ranking remainingDeficit []
          service).1.positionManager =
        service.positionManager.afterReductions symbol markPrice
          (service.positionManager.adlReductions symbol markPrice ranking remainingDeficit) := by
  have ends := executeAdlEach_endsAs service.positionManager bankruptUser symbol markPrice timestamp
    ranking remainingDeficit [] service distinct fun _ _ => rfl
  generalize executeAdlEach bankruptUser symbol markPrice timestamp ranking remainingDeficit []
    service = outcome at ok ends ⊢
  have reached : outcome.1.positionManager = (service.runOn _).1.1 :=
    congrArg (fun outcome => outcome.1.positionManager) ends.same
  have succeeded := congrArg Prod.snd ends.same
  rw [withoutValue, ok] at succeeded
  refine ⟨ends.value results ok, ?_⟩
  rw [reached, runOn, runStages_own_of_finished (ofStages_ok_iff.1 succeeded.symm),
    PositionManager.adlStages, List.foldl_map]
  · rfl
  · intro stage member
    obtain ⟨reduction, -, rfl⟩ := List.mem_map.1 member
    exact fun _ _ => rfl

/-! ## Coverage -/

/-- A position that deleveraging may reduce. -/
structure IsCounterparty (manager : PositionManager) (bankruptUser : UserId) (symbol : SymbolId)
    (bankruptSide : PositionSide) (userId : UserId) (position : Position) : Prop where
  held : manager.getPosition userId symbol = some position
  side : position.side = adlSide bankruptSide
  other : userId ≠ bankruptUser

/-- The score of a user's position. -/
def scoreOf (manager : PositionManager) (symbol : SymbolId) (markPrice : Decimal128)
    (userId : UserId) : Decimal128 :=
  (manager.getPosition userId symbol).elim 0 fun position => adlScore position markPrice

/-- A user has had their turn, behind the higher scores and before the lower ones, and has left
the deficit nearly covered. -/
def HadTurn (manager : PositionManager) (symbol : SymbolId) (deficit markPrice : Decimal128)
    (results : List (UserId × Decimal128)) (userId : UserId) : Prop :=
  ∃ earlier later, results = earlier ++ later ∧ userId ∉ later.map Prod.fst ∧
    (∀ reduction ∈ earlier, scoreOf manager symbol markPrice userId ≤
      scoreOf manager symbol markPrice reduction.1) ∧
    (∀ reduction ∈ later, scoreOf manager symbol markPrice reduction.1 ≤
      scoreOf manager symbol markPrice userId) ∧
    NearlyCovered markPrice (deficit - coveredBy markPrice earlier)

/-- What a deleveraging does with positions and a deficit. -/
structure CoversDeficit (before after : PositionManager) (bankruptUser : UserId)
    (symbol : SymbolId) (bankruptSide : PositionSide) (deficit markPrice : Decimal128)
    (results : List (UserId × Decimal128)) : Prop where
  /-- Nobody is reduced twice. -/
  distinct : (results.map Prod.fst).Nodup
  reduced : ∀ userId quantity, (userId, quantity) ∈ results → ∃ position,
    IsCounterparty before bankruptUser symbol bankruptSide userId position ∧ 0 < quantity ∧
      quantity ≤ position.size ∧
      (after.getPosition userId symbol).elim 0 Position.size = position.size - quantity
  ranked : results.Pairwise fun first second =>
    scoreOf before symbol markPrice second.1 ≤ scoreOf before symbol markPrice first.1
  /-- Whoever keeps something has left the deficit nearly covered. -/
  kept : ∀ userId position,
    IsCounterparty before bankruptUser symbol bankruptSide userId position →
    0 < position.margin → after.getPosition userId symbol ≠ none →
    HadTurn before symbol deficit markPrice results userId
  within : coveredBy markPrice results ≤ deficit
  covered : NearlyCovered markPrice (deficit - coveredBy markPrice results) ∨
    ∀ userId position,
      IsCounterparty before bankruptUser symbol bankruptSide userId position →
      0 < position.margin → after.getPosition userId symbol = none
  /-- All other positions are unchanged. -/
  others : ∀ userId other, ¬(other = symbol ∧ userId ∈ results.map Prod.fst) →
    after.getPosition userId other = before.getPosition userId other

/-- Who is ranked is a counterparty with a margin, and every such is ranked. -/
theorem mem_ranking (tidy : service.positionManager.Tidy) (order : IterationOrder)
    (bankruptUser : UserId) (symbol : SymbolId) (bankruptSide : PositionSide)
    (markPrice : Decimal128) (entry : UserId × Decimal128) :
    entry ∈ calcAdlRanking (service.counterpartyPositions order bankruptUser symbol bankruptSide)
        markPrice ↔
      ∃ position, IsCounterparty service.positionManager bankruptUser symbol bankruptSide entry.1
          position ∧
        position.margin ≠ 0 ∧
          scoreOf service.positionManager symbol markPrice entry.1 = entry.2 := by
  rw [mem_calcAdlRanking]
  constructor
  · rintro ⟨position, member, margin, rfl⟩
    have held := tidy.keyed.getPosition_of_visited member
    obtain ⟨rfl, side, other⟩ : position.symbol = symbol ∧ position.side = adlSide bankruptSide ∧
        position.userId ≠ bankruptUser := of_decide_eq_true (List.mem_filter.1 member).2
    refine ⟨position, ⟨held, side, other⟩, margin, ?_⟩
    simp only [scoreOf, held, Option.elim_some]
  · rintro ⟨position, ⟨held, side, other⟩, margin, score⟩
    obtain ⟨user, own⟩ := tidy.keyed entry.1 symbol position held
    refine ⟨position, ?_, margin, ?_⟩
    · have stored : position ∈ service.positionManager.allPositions := by
        refine List.mem_map.2 ⟨((entry.1, symbol), position), ?_, rfl⟩
        exact Std.ExtTreeMap.mem_toList_iff_getElem?_eq_some.2 held
      refine List.mem_filter.2 ⟨(order.perm 0 _).mem_iff.2 stored, decide_eq_true ⟨own, side, ?_⟩⟩
      rwa [user]
    · simp only [scoreOf, held, Option.elim_some] at score
      exact Prod.ext user score

private theorem sizeable (tidy : service.positionManager.Tidy) (symbol : SymbolId) :
    service.positionManager.Sizeable symbol :=
  fun userId position found => tidy.positive userId symbol position found

theorem NearlyCovered.mono {markPrice uncovered less : Decimal128}
    (nearly : NearlyCovered markPrice uncovered) (le : less ≤ uncovered) :
    NearlyCovered markPrice less :=
  lt_of_le_of_lt (toRat_le_iff.2 le) nearly

private theorem coveredBy_nonneg {markPrice : Decimal128} (markPos : 0 < markPrice)
    {reductions : List (UserId × Decimal128)} (positive : ∀ reduction ∈ reductions,
      0 < reduction.2) :
    0 ≤ coveredBy markPrice reductions := by
  apply List.sum_nonneg
  intro value member
  obtain ⟨reduction, inside, rfl⟩ := List.mem_map.1 member
  exact product_nonneg (positive reduction inside).le markPos.le

/-- The scores of ranked users fall. -/
theorem ranking_scores {manager : PositionManager} {symbol : SymbolId} {markPrice : Decimal128}
    {ranking : List (UserId × Decimal128)}
    (sorted : ranking.Pairwise fun first second => second.2 ≤ first.2)
    (scores : ∀ entry ∈ ranking, scoreOf manager symbol markPrice entry.1 = entry.2) :
    (ranking.map Prod.fst).Pairwise fun first second =>
      scoreOf manager symbol markPrice second ≤ scoreOf manager symbol markPrice first := by
  rw [List.pairwise_map]
  refine sorted.imp_of_mem fun {first second} firstMember secondMember falls => ?_
  rw [scores first firstMember, scores second secondMember]
  exact falls

/-- A ranking has the counterparties with a margin, once each, and the higher scores first. -/
structure IsRanking (manager : PositionManager) (bankruptUser : UserId) (symbol : SymbolId)
    (bankruptSide : PositionSide) (markPrice : Decimal128)
    (ranking : List (UserId × Decimal128)) : Prop where
  distinct : (ranking.map Prod.fst).Nodup
  falls : (ranking.map Prod.fst).Pairwise fun first second =>
    scoreOf manager symbol markPrice second ≤ scoreOf manager symbol markPrice first
  counterparty : ∀ userId ∈ ranking.map Prod.fst, ∃ position,
    IsCounterparty manager bankruptUser symbol bankruptSide userId position
  ranked : ∀ userId position,
    IsCounterparty manager bankruptUser symbol bankruptSide userId position →
    0 < position.margin → userId ∈ ranking.map Prod.fst

private theorem isRanking_calcAdlRanking (tidy : service.positionManager.Tidy)
    (order : IterationOrder)
    (bankruptUser : UserId) (symbol : SymbolId) (bankruptSide : PositionSide)
    (markPrice : Decimal128) :
    IsRanking service.positionManager bankruptUser symbol bankruptSide markPrice
      (calcAdlRanking (service.counterpartyPositions order bankruptUser symbol bankruptSide)
        markPrice) := by
  have inRanking := mem_ranking tidy order bankruptUser symbol bankruptSide markPrice
  refine ⟨ranking_distinct tidy order bankruptUser symbol bankruptSide markPrice,
    ranking_scores (calcAdlRanking_sorted _ markPrice) fun entry member => ?_,
    fun userId member => ?_, fun userId position counterparty margin => ?_⟩
  · obtain ⟨-, -, -, score⟩ := (inRanking entry).1 member
    exact score
  · obtain ⟨entry, inside, rfl⟩ := List.mem_map.1 member
    obtain ⟨position, counterparty, -, -⟩ := (inRanking entry).1 inside
    exact ⟨position, counterparty⟩
  · exact List.mem_map_of_mem
      ((inRanking (userId, scoreOf service.positionManager symbol markPrice userId)).2
        ⟨position, counterparty, margin.ne', rfl⟩)

section Plan

variable {manager : PositionManager} {symbol : SymbolId} {deficit markPrice : Decimal128}
  {ranking : List (UserId × Decimal128)}

/-- The turn of a user whose position is not closed. -/
theorem kept_turn (sizeable : manager.Sizeable symbol) (markPos : 0 < markPrice)
    (deficitNonneg : 0 ≤ deficit) (distinct : (ranking.map Prod.fst).Nodup)
    (falls : (ranking.map Prod.fst).Pairwise fun first second =>
      scoreOf manager symbol markPrice second ≤ scoreOf manager symbol markPrice first)
    {userId : UserId} {position : Position}
    (found : manager.getPosition userId symbol = some position)
    (ranked : userId ∈ ranking.map Prod.fst)
    (open_ : (userId, position.size) ∉ manager.adlReductions symbol markPrice ranking deficit) :
    HadTurn manager symbol deficit markPrice
      (manager.adlReductions symbol markPrice ranking deficit) userId := by
  obtain ⟨⟨user, score⟩, member, rfl⟩ := List.mem_map.1 ranked
  obtain ⟨front, back, rfl⟩ := List.append_of_mem member
  rw [List.map_append, List.map_cons] at distinct falls
  obtain ⟨-, backDistinct, -⟩ := List.nodup_append.1 distinct
  obtain ⟨-, backFalls, across⟩ := List.pairwise_append.1 falls
  have frontUsers : ((manager.adlReductions symbol markPrice front deficit).map Prod.fst).Sublist
      (front.map Prod.fst) := PositionManager.adlReductions_users _ _ _ _
  have left := sub_nonneg.2
    (PositionManager.adlReductions_within sizeable markPos deficitNonneg front).2
  obtain ⟨own, later, turn, owners, backUsers, nearly⟩ :=
    PositionManager.adlReductions_turn sizeable markPos left found score back
  rw [HadTurn]
  rw [PositionManager.adlReductions_append, turn, ← List.append_assoc] at open_ ⊢
  refine ⟨_, later, rfl, ?_, ?_, ?_, ?_⟩
  · exact fun again => (List.nodup_cons.1 backDistinct).1 (backUsers.subset again)
  · intro reduction earlier
    rcases List.mem_append.1 earlier with inFront | inOwn
    · exact across reduction.1 (frontUsers.subset (List.mem_map_of_mem inFront)) user
        List.mem_cons_self
    · rw [owners reduction inOwn]
  · intro reduction afterwards
    exact (List.pairwise_cons.1 backFalls).1 reduction.1
      (backUsers.subset (List.mem_map_of_mem afterwards))
  · rw [coveredBy_append, ← sub_sub]
    exact nearly fun closed => open_ (List.mem_append_left _ (List.mem_append_right _ closed))

variable {bankruptUser : UserId} {bankruptSide : PositionSide}
  {results : List (UserId × Decimal128)}

/-- Who is reduced is a counterparty, and is left with the rest of their position. -/
theorem IsRanking.reduced
    (ranks : IsRanking manager bankruptUser symbol bankruptSide markPrice ranking)
    (sizeable : manager.Sizeable symbol) (markPos : 0 < markPrice) (deficitNonneg : 0 ≤ deficit)
    (planned : results = manager.adlReductions symbol markPrice ranking deficit)
    {userId : UserId} {quantity : Decimal128} (member : (userId, quantity) ∈ results) :
    ∃ position, IsCounterparty manager bankruptUser symbol bankruptSide userId position ∧
      0 < quantity ∧ quantity ≤ position.size ∧
      ((manager.afterReductions symbol markPrice results).getPosition userId symbol).elim 0
        Position.size = position.size - quantity := by
  subst planned
  have users : ((manager.adlReductions symbol markPrice ranking deficit).map Prod.fst).Sublist
      (ranking.map Prod.fst) := PositionManager.adlReductions_users _ _ _ _
  obtain ⟨position, counterparty⟩ :=
    ranks.counterparty userId (users.subset (List.mem_map_of_mem member))
  obtain ⟨found, held, less, -⟩ := PositionManager.mem_adlReductions member
  obtain rfl := Option.some.inj (counterparty.held.symm.trans held)
  have positive := (PositionManager.adlReductions_within sizeable markPos deficitNonneg ranking).1
  refine ⟨position, counterparty, positive _ member, less, ?_⟩
  rw [PositionManager.getPosition_afterReductions (ranks.distinct.sublist users) member held less]
  split
  · rename_i whole
    exact whole.symm
  · rfl

/-- Who keeps something has had their turn. -/
theorem IsRanking.kept
    (ranks : IsRanking manager bankruptUser symbol bankruptSide markPrice ranking)
    (sizeable : manager.Sizeable symbol) (markPos : 0 < markPrice) (deficitNonneg : 0 ≤ deficit)
    (planned : results = manager.adlReductions symbol markPrice ranking deficit)
    {userId : UserId} {position : Position}
    (counterparty : IsCounterparty manager bankruptUser symbol bankruptSide userId position)
    (margin : 0 < position.margin)
    (left : (manager.afterReductions symbol markPrice results).getPosition userId symbol ≠ none) :
    HadTurn manager symbol deficit markPrice results userId := by
  subst planned
  have users : ((manager.adlReductions symbol markPrice ranking deficit).map Prod.fst).Sublist
      (ranking.map Prod.fst) := PositionManager.adlReductions_users _ _ _ _
  refine kept_turn sizeable markPos deficitNonneg ranks.distinct ranks.falls counterparty.held
    (ranks.ranked userId position counterparty margin) fun whole => left ?_
  rw [PositionManager.getPosition_afterReductions (ranks.distinct.sublist users) whole
    counterparty.held le_rfl, sub_self, if_pos rfl]

/-- What has been left after somebody's turn is more than what is left in the end. -/
theorem HadTurn.nearlyCovered {userId : UserId} (markPos : 0 < markPrice)
    (turn : HadTurn manager symbol deficit markPrice results userId)
    (positive : ∀ reduction ∈ results, 0 < reduction.2) :
    NearlyCovered markPrice (deficit - coveredBy markPrice results) := by
  obtain ⟨earlier, later, rfl, -, -, -, nearly⟩ := turn
  refine NearlyCovered.mono nearly (sub_le_sub_left ?_ deficit)
  rw [coveredBy_append]
  exact le_add_of_nonneg_right (coveredBy_nonneg markPos fun reduction member =>
    positive reduction (List.mem_append_right earlier member))

private theorem IsRanking.coversDeficit
    (ranks : IsRanking manager bankruptUser symbol bankruptSide markPrice ranking)
    (sizeable : manager.Sizeable symbol) (markPos : 0 < markPrice) (deficitNonneg : 0 ≤ deficit)
    (planned : results = manager.adlReductions symbol markPrice ranking deficit) :
    CoversDeficit manager (manager.afterReductions symbol markPrice results) bankruptUser symbol
      bankruptSide deficit markPrice results := by
  have users : (results.map Prod.fst).Sublist (ranking.map Prod.fst) :=
    planned ▸ PositionManager.adlReductions_users symbol markPrice ranking deficit
  obtain ⟨positive, within⟩ :=
    PositionManager.adlReductions_within sizeable markPos deficitNonneg ranking
  rw [← planned] at positive within
  refine {
    distinct := ranks.distinct.sublist users
    reduced := fun userId quantity => ranks.reduced sizeable markPos deficitNonneg planned
    ranked := List.pairwise_map.1 (ranks.falls.sublist users)
    kept := fun userId position => ranks.kept sizeable markPos deficitNonneg planned
    within := within
    covered := ?_
    others := fun userId other fresh =>
      PositionManager.getPosition_afterReductions_of_fresh fresh }
  by_cases closed : ∀ userId position,
      IsCounterparty manager bankruptUser symbol bankruptSide userId position →
      0 < position.margin →
      (manager.afterReductions symbol markPrice results).getPosition userId symbol = none
  · exact Or.inr closed
  · push Not at closed
    obtain ⟨userId, position, counterparty, margin, left⟩ := closed
    have turn := ranks.kept sizeable markPos deficitNonneg planned counterparty margin left
    exact Or.inl (turn.nearlyCovered markPos positive)

end Plan

/-- Deleveraging covers the deficit down the ranking: each counterparty is reduced at most once
and by no more than they have, and either the deficit is covered up to the truncations or every
counterparty with a margin is closed. -/
theorem adl_covers_deficit (tidy : service.positionManager.Tidy) (order : IterationOrder)
    (bankruptUser : UserId) (symbol : SymbolId) (bankruptSide : PositionSide)
    {deficit markPrice : Decimal128} (deficitPos : 0 < deficit) (markPos : 0 < markPrice)
    (timestamp : UnixMicros) {results : List (UserId × Decimal128)}
    (ok : (service.executeAdl order bankruptUser symbol bankruptSide deficit markPrice
      timestamp).2 = .ok results) :
    CoversDeficit service.positionManager
      (service.executeAdl order bankruptUser symbol bankruptSide deficit markPrice
        timestamp).1.positionManager
      bankruptUser symbol bankruptSide deficit markPrice results := by
  have somebody : service.counterpartyPositions order bankruptUser symbol bankruptSide ≠ [] := by
    intro nobody
    simp [executeAdl, nobody] at ok
  rw [executeAdl, if_neg (by simpa using somebody)] at ok ⊢
  have ranks := isRanking_calcAdlRanking tidy order bankruptUser symbol bankruptSide markPrice
  obtain ⟨planned, reached⟩ := executeAdlEach_ok ranks.distinct ok
  rw [reached, ← planned]
  exact ranks.coversDeficit (sizeable tidy symbol) markPos deficitPos.le planned

/-- The seller makes up for a deficit of 400 at a mark price of 95. -/
theorem adl_covers_deficit_traded :
    CoversDeficit (run step new tradedRun).1.positionManager
      ((run step new tradedRun).1.executeAdl .stored 1 1 .long (.ofInt 400) (.ofInt 95)
        300).1.positionManager
      1 1 .long (.ofInt 400) (.ofInt 95) [(2, ⟨4210526315789473684⟩)] :=
  adl_covers_deficit (tidy_run tradedRun) .stored 1 1 .long (by decide) (by decide) 300
    (by decide +kernel)

end ClearingService

end Exg
