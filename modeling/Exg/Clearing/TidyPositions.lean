import Exg.Clearing.ServiceStages
import Exg.Support.Machine

/-!
# Tidy positions

Whatever the ledger says, an operation leaves every position under its own user and symbol
and none of them empty.  So the positions of one symbol belong to different users, and a
deleveraging is the stages that its ranking plans.
-/

namespace Exg

open Support

namespace PositionManager

/-- Every position is filed under its owner and is not empty. -/
structure Tidy (manager : PositionManager) : Prop where
  keyed : manager.Keyed
  positive : ∀ userId symbol position, manager.getPosition userId symbol = some position →
    0 < position.size

theorem tidy_new : new.Tidy := ⟨keyed_new, by simp [new, getPosition]⟩

variable {manager : PositionManager} {userId : UserId} {symbol : SymbolId}

theorem Tidy.insert (tidy : manager.Tidy) {position : Position}
    (own : position.userId = userId ∧ position.symbol = symbol) (positive : 0 < position.size) :
    Tidy ⟨manager.positions.insert (userId, symbol) position⟩ where
  keyed := tidy.keyed.insert own
  positive := everyPosition_insert tidy.positive positive

theorem Tidy.erase (tidy : manager.Tidy) :
    Tidy ⟨manager.positions.erase (userId, symbol)⟩ where
  keyed := tidy.keyed.erase
  positive := everyPosition_erase tidy.positive

theorem Tidy.afterReduction (tidy : manager.Tidy) (quantity price : Decimal128) :
    (manager.afterReduction userId symbol quantity price).Tidy := by
  rw [PositionManager.afterReduction]
  split
  · exact tidy
  · rename_i pnl reduced outcome
    obtain ⟨position, found, within, ⟨-, rfl⟩ | ⟨left, rfl⟩⟩ := reduceOrClose_ok outcome
    · exact tidy.erase
    · refine tidy.insert (tidy.keyed userId symbol position found) ?_
      exact lt_of_le_of_ne (sub_nonneg.2 within) left.symm

theorem Tidy.openOrIncrease (tidy : manager.Tidy) (side : PositionSide)
    {quantity : Decimal128} (positive : 0 < quantity) (price leverage : Decimal128)
    (marginMode : MarginMode) :
    (manager.openOrIncrease userId symbol side quantity price leverage marginMode).Tidy := by
  rw [PositionManager.openOrIncrease]
  cases found : manager.getPosition userId symbol with
  | none =>
      apply tidy.insert
      · exact ⟨rfl, rfl⟩
      · simpa [emptyPosition] using positive
  | some position =>
      apply tidy.insert
      · exact tidy.keyed userId symbol position found
      · exact add_pos (tidy.positive userId symbol position found) positive

theorem Tidy.recordFunding (tidy : manager.Tidy) (payment : Decimal128) (ledger : Ledger) :
    (ClearingService.recordFunding userId symbol payment ledger manager).Tidy := by
  rw [ClearingService.recordFunding]
  cases found : manager.getPosition userId symbol with
  | none => exact tidy
  | some position =>
      apply tidy.insert
      · exact tidy.keyed userId symbol position found
      · exact tidy.positive userId symbol position found

/-! ## The positions of one symbol -/

/-- What is visited is stored where its owner looks for it. -/
theorem Keyed.getPosition_of_visited (keyed : manager.Keyed) {order : IterationOrder}
    {keep : Position → Bool} {position : Position}
    (visited : position ∈ (order.visit 0 manager.allPositions).filter keep) :
    manager.getPosition position.userId position.symbol = some position := by
  have listed := (order.perm 0 manager.allPositions).mem_iff.1 (List.mem_filter.1 visited).1
  obtain ⟨⟨⟨ownUser, ownSymbol⟩, stored⟩, member, rfl⟩ := List.mem_map.1 listed
  rw [Std.ExtTreeMap.mem_toList_iff_getElem?_eq_some] at member
  obtain ⟨user, symbol⟩ := keyed ownUser ownSymbol stored member
  simp only [user, symbol]
  exact member

/-- The visited positions of one symbol belong to different users. -/
theorem Keyed.visited_distinct (keyed : manager.Keyed) (order : IterationOrder)
    (keep : Position → Bool) (one : ∀ position, keep position = true → position.symbol = symbol) :
    (((order.visit 0 manager.allPositions).filter keep).map Position.userId).Nodup := by
  have owners : (((order.visit 0 manager.allPositions).filter keep).map fun position =>
      (position.userId, position.symbol)).Nodup := by
    have listed := ((order.perm 0 manager.allPositions).map fun position =>
      (position.userId, position.symbol)).nodup_iff.2 keyed.owners_nodup
    exact listed.sublist (List.filter_sublist.map _)
  have paired : ((order.visit 0 manager.allPositions).filter keep).map (fun position =>
      (position.userId, position.symbol)) =
        (((order.visit 0 manager.allPositions).filter keep).map Position.userId).map fun userId =>
          (userId, symbol) := by
    rw [List.map_map]
    apply List.map_congr_left
    intro position member
    exact Prod.ext rfl (one position (List.mem_filter.1 member).2)
  rw [paired] at owners
  exact owners.of_map _

end PositionManager

/-- The ranking lists users it was given, each as often as it was given them. -/
theorem calcAdlRanking_users (positions : List Position) (markPrice : Decimal128) :
    ((calcAdlRanking positions markPrice).map Prod.fst).Perm
      ((positions.filter fun position => !position.margin.isZero).map Position.userId) := by
  rw [calcAdlRanking]
  refine ((List.perm_insertionSort _ _).map Prod.fst).trans ?_
  rw [List.map_map]
  exact List.Perm.refl _

namespace ClearingService

variable {service : ClearingService}

theorem ranking_distinct (tidy : service.positionManager.Tidy) (order : IterationOrder)
    (bankruptUser : UserId) (symbol : SymbolId) (bankruptSide : PositionSide)
    (markPrice : Decimal128) :
    ((calcAdlRanking (service.counterpartyPositions order bankruptUser symbol bankruptSide)
      markPrice).map Prod.fst).Nodup := by
  rw [(calcAdlRanking_users _ _).nodup_iff]
  have one : ∀ position : Position, decide (position.symbol = symbol ∧
      position.side = adlSide bankruptSide ∧ position.userId ≠ bankruptUser) = true →
        position.symbol = symbol := fun position kept => (of_decide_eq_true kept).1
  have users := tidy.keyed.visited_distinct order _ one
  exact users.sublist (List.filter_sublist.map _)

theorem executeAdl_eq (tidy : service.positionManager.Tidy) (order : IterationOrder)
    (bankruptUser : UserId) (symbol : SymbolId) (bankruptSide : PositionSide)
    (deficit markPrice : Decimal128) (timestamp : UnixMicros)
    (some : service.counterpartyPositions order bankruptUser symbol bankruptSide ≠ []) :
    withoutValue (service.executeAdl order bankruptUser symbol bankruptSide deficit markPrice
        timestamp) =
      ofStages (service.runOn (service.adlOf order bankruptUser symbol bankruptSide deficit
        markPrice timestamp)) := by
  rw [executeAdl, if_neg (by simpa using some)]
  apply (executeAdlEach_endsAs _ _ _ _ _ _ _ _ _ ?_ ?_).same
  · exact ranking_distinct tidy order bankruptUser symbol bankruptSide markPrice
  · exact fun entry member => rfl

/-- The users that a deleveraging reduces are different. -/
theorem adlReductions_distinct (tidy : service.positionManager.Tidy) (order : IterationOrder)
    (bankruptUser : UserId) (symbol : SymbolId) (bankruptSide : PositionSide)
    (deficit markPrice : Decimal128) :
    ((service.adlReductionsOf order bankruptUser symbol bankruptSide deficit markPrice).map
      Prod.fst).Nodup :=
  (ranking_distinct tidy order bankruptUser symbol bankruptSide markPrice).sublist
    (PositionManager.adlReductions_users _ _ _ _)

/-! ## Every operation keeps the positions tidy -/

/-- A stage that keeps the positions tidy before and after its call. -/
def Tidies (stage : ClearingStage) : Prop :=
  (∀ manager : PositionManager, manager.Tidy → (stage.prepare manager).Tidy) ∧
    ∀ (ledger : Ledger) (manager : PositionManager), manager.Tidy →
      (stage.conclude ledger manager).Tidy

private theorem tidy_runOn (tidy : service.positionManager.Tidy) {stages : List ClearingStage}
    (tidies : ∀ stage ∈ stages, Tidies stage) :
    (ofStages (service.runOn stages)).1.positionManager.Tidy :=
  runStages_own (fun stage member => (tidies stage member).1)
    (fun stage member => (tidies stage member).2) tidy

private theorem tidies_reduction (manager : PositionManager) (userId : UserId) (symbol : SymbolId)
    (quantity price fee : Decimal128) (key : String) (timestamp : UnixMicros) :
    Tidies (.reduction manager userId symbol quantity price fee key timestamp) :=
  ⟨fun _ tidy => tidy.afterReduction quantity price, fun _ _ tidy => tidy⟩

private theorem tidies_sideStages (manager : PositionManager) (side : TradeSide) :
    ∀ stage ∈ manager.sideStages side, Tidies stage := by
  intro stage member
  obtain rfl | ⟨positive, rfl⟩ := PositionManager.mem_sideStages member
  · exact tidies_reduction _ _ _ _ _ _ _ _
  · exact ⟨fun _ tidy => tidy, fun _ _ tidy =>
      tidy.openOrIncrease _ (Decimal128.isPositive_iff.1 positive) _ _ _⟩

/-- No operation leaves an untidy position, whether it succeeds or not. -/
theorem tidy_perform (tidy : service.positionManager.Tidy) (call : ClearingCall) :
    (service.perform call).1.positionManager.Tidy := by
  cases call with
  | funds call => exact tidy
  | processTrade trade =>
      rw [perform, processTrade_eq]
      apply tidy_runOn tidy
      intro stage member
      rcases List.mem_append.1 member with buyer | seller
      · exact tidies_sideStages _ _ stage buyer
      · exact tidies_sideStages _ _ stage seller
  | processLiquidation userId symbol exitPrice now =>
      rw [perform]
      cases found : service.positionManager.getPosition userId symbol with
      | none =>
          rw [processLiquidation, PositionManager.forceClose, found]
          exact tidy
      | some position =>
          rw [processLiquidation_eq found]
          apply tidy_runOn tidy
          intro stage member
          rw [PositionManager.liquidationStages, found] at member
          obtain rfl := List.mem_singleton.1 member
          exact ⟨fun _ tidy => tidy.erase, fun _ _ tidy => tidy⟩
  | settleFunding order symbol fundingRate markPrice fundingPeriodId timestamp =>
      rw [perform, settleFunding_eq]
      apply tidy_runOn tidy
      intro stage member
      obtain ⟨position, -, rfl⟩ := List.mem_map.1 member
      exact ⟨fun _ tidy => tidy, fun ledger _ tidy => tidy.recordFunding _ ledger⟩
  | executeAdl order bankruptUser symbol bankruptSide deficit markPrice timestamp =>
      rw [perform]
      by_cases some : service.counterpartyPositions order bankruptUser symbol bankruptSide = []
      · rw [executeAdl, some]
        exact tidy
      · rw [executeAdl_eq tidy order bankruptUser symbol bankruptSide deficit markPrice timestamp
          some]
        apply tidy_runOn tidy
        intro stage member
        obtain ⟨reduction, -, rfl⟩ := List.mem_map.1 member
        exact tidies_reduction _ _ _ _ _ _ _ _

theorem tidy_run (calls : List ClearingCall) :
    (run step new calls).1.positionManager.Tidy := by
  apply run_induction (motive := fun _ (reached : ClearingService) _ =>
    reached.positionManager.Tidy) step
  · exact PositionManager.tidy_new
  · exact fun before call isPrefix tidy => tidy_perform tidy call

end ClearingService
end Exg
