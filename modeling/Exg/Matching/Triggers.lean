import Exg.Matching.BookOperations

/-!
# Triggering waiting orders

`check_stop_triggers_internal` splits the waiting orders by their trigger condition at the
mark price.  A trailing stop keeps the extreme of the marks it has seen in its own record,
so its trigger condition can be read off the marks alone: `Reverses` says that a mark has
come back from the extreme by the order's delta, and `Quiet` that none has so far.
-/

namespace Exg

open Support

namespace MatchingEngine

variable {engine : MatchingEngine}

/-! ## The trigger pass -/

/-- Check stop/take-profit triggers. Returns orders that should be activated. -/
def checkStopTriggersInternal (engine : MatchingEngine) : MatchingEngine × List BookOrder :=
  let scanned := swapScanLoop (shouldTrigger engine.markPrice) engine.stopOrders.length 0
    engine.stopOrders []
  ({ engine with stopOrders := scanned.2 }, scanned.1)

private theorem checkStopTriggersInternal_eq (engine : MatchingEngine) :
    engine.checkStopTriggersInternal =
      ({ engine with
          stopOrders := (swapScan (shouldTrigger engine.markPrice) engine.stopOrders).2 },
        (swapScan (shouldTrigger engine.markPrice) engine.stopOrders).1) := by
  have scanned := swapScanLoop_eq (shouldTrigger engine.markPrice) engine.stopOrders.length []
    engine.stopOrders [] (Nat.le_refl _)
  rw [checkStopTriggersInternal]
  exact congrArg (fun split : List BookOrder × List BookOrder =>
    ({ engine with stopOrders := split.2 }, split.1)) scanned

/-- The orders a step takes off the waiting list and runs through the matcher. -/
def triggered (engine : MatchingEngine) : EngineInput → List BookOrder
  | .command (.updateMarkPrice _ mark index _) =>
      (engine.applyMarkIndexPassive mark index).checkStopTriggersInternal.2
  | _ => []

private theorem mem_triggered {input : EngineInput} {order : BookOrder} :
    order ∈ engine.triggered input ↔
      ∃ mark, input.mark? = some mark ∧ shouldTrigger mark order = true ∧
        ∃ old ∈ engine.stopOrders, order = updateTrailingPeak mark old := by
  cases input with
  | expirySweep now => simp [triggered, EngineInput.mark?]
  | command issued =>
      cases issued with
      | updateMarkPrice symbol mark index timestamp =>
          have taken := (swapScan_fst_perm (shouldTrigger mark)
            (engine.applyMarkIndexPassive mark index).stopOrders).mem_iff (a := order)
          rw [List.mem_filter] at taken
          rw [triggered, checkStopTriggersInternal_eq]
          constructor
          · intro member
            obtain ⟨moved, hit⟩ := taken.1 member
            obtain ⟨old, before, rfl⟩ := List.mem_map.1 moved
            exact ⟨mark, rfl, hit, old, before, rfl⟩
          · rintro ⟨_, ⟨⟩, hit, old, before, rfl⟩
            exact taken.2 ⟨List.mem_map.2 ⟨old, before, rfl⟩, hit⟩
      | newOrder order => simp [triggered, EngineInput.mark?]
      | cancelOrder orderId userId symbol timestamp => simp [triggered, EngineInput.mark?]
      | amendOrder amend => simp [triggered, EngineInput.mark?]
      | cancelAllOrders userId symbol timestamp => simp [triggered, EngineInput.mark?]
      | computeFunding symbol timestamp => simp [triggered, EngineInput.mark?]
      | adminCredit userId amount key timestamp => simp [triggered, EngineInput.mark?]

end MatchingEngine

/-! ## The extreme of the marks -/

/-- The order with another trailing peak price. -/
@[simps]
def BookOrder.withPeak (order : BookOrder) (peak : Decimal128) : BookOrder :=
  { order with trailingPeakPrice := some peak }

/-- The extreme of the marks seen since the first: the highest for a sell, the lowest for a
buy. -/
def extreme : Side → Decimal128 → List Decimal128 → Decimal128
  | .sell, first, marks => marks.foldl max first
  | .buy, first, marks => marks.foldl min first

/-- A mark has come back from the extreme by the trailing delta. -/
def Reverses (side : Side) (delta first : Decimal128) (earlier : List Decimal128)
    (mark : Decimal128) : Prop :=
  match side with
  | .sell => mark ≤ extreme .sell first (earlier ++ [mark]) - delta
  | .buy => extreme .buy first (earlier ++ [mark]) + delta ≤ mark

/-- No mark has come back so far. -/
def Quiet (side : Side) (delta first : Decimal128) (marks : List Decimal128) : Prop :=
  ∀ earlier mark, earlier ++ [mark] <+: marks → ¬Reverses side delta first earlier mark

instance (side : Side) (delta first : Decimal128) (earlier : List Decimal128)
    (mark : Decimal128) : Decidable (Reverses side delta first earlier mark) := by
  cases side <;> exact inferInstanceAs (Decidable (_ ≤ _))

section Extreme

variable {side : Side} {delta first mark : Decimal128} {marks : List Decimal128}

theorem quiet_nil : Quiet side delta first [] := by
  intro earlier mark isPrefix
  exact absurd (List.prefix_nil.1 isPrefix) (by simp)

theorem quiet_concat :
    Quiet side delta first (marks ++ [mark]) ↔
      Quiet side delta first marks ∧ ¬Reverses side delta first marks mark := by
  constructor
  · intro quiet
    refine ⟨fun earlier other isPrefix => ?_, quiet marks mark (List.prefix_refl _)⟩
    exact quiet earlier other (isPrefix.trans (List.prefix_append _ _))
  · rintro ⟨quiet, still⟩ earlier other isPrefix
    rcases List.prefix_concat_iff.1 isPrefix with whole | before
    · obtain ⟨rfl, rfl⟩ := List.append_singleton_inj.1 whole
      exact still
    · exact quiet earlier other before

theorem updateTrailingPeak_withPeak {stop : BookOrder} (kind : stop.orderType = .trailingStop)
    (first mark : Decimal128) (marks : List Decimal128) :
    MatchingEngine.updateTrailingPeak mark (stop.withPeak (extreme stop.side first marks)) =
      stop.withPeak (extreme stop.side first (marks ++ [mark])) := by
  cases side : stop.side with
  | sell =>
      simp [MatchingEngine.updateTrailingPeak, BookOrder.withPeak, kind, side, extreme, max_comm]
  | buy =>
      simp [MatchingEngine.updateTrailingPeak, BookOrder.withPeak, kind, side, extreme, min_comm]

theorem shouldTrigger_withPeak {stop : BookOrder} (kind : stop.orderType = .trailingStop)
    (trails : stop.trailingDelta = some delta) :
    MatchingEngine.shouldTrigger mark
        (stop.withPeak (extreme stop.side first (marks ++ [mark]))) = true ↔
      Reverses stop.side delta first marks mark := by
  cases side : stop.side with
  | sell => simp [MatchingEngine.shouldTrigger, BookOrder.withPeak, kind, side, trails, Reverses]
  | buy => simp [MatchingEngine.shouldTrigger, BookOrder.withPeak, kind, side, trails, Reverses]

end Extreme

namespace MatchingEngine

variable {engine : MatchingEngine}

/-! ## A trailing stop over a run -/

/-- The marks that a list of inputs sets. -/
def marksSet (inputs : List EngineInput) : List Decimal128 := inputs.filterMap EngineInput.mark?

private theorem marksSet_concat (before : List EngineInput) (input : EngineInput) :
    marksSet (before ++ [input]) = marksSet before ++ input.mark?.toList := by
  rw [marksSet, List.filterMap_append, ← marksSet]
  cases mark : input.mark? <;> simp [mark]

/-- The inputs by which the owner of a waiting order cancels it. -/
def Cancels (stop : BookOrder) : EngineInput → Prop
  | .command (.cancelOrder orderId userId _ _) => orderId = stop.orderId ∧ userId = stop.userId
  | .command (.cancelAllOrders userId symbol _) => userId = stop.userId ∧ symbol = stop.symbol
  | _ => False

private theorem cancels_withPeak (stop : BookOrder) (peak : Decimal128) (input : EngineInput) :
    Cancels (stop.withPeak peak) input ↔ Cancels stop input := by
  cases input with
  | expirySweep now => exact Iff.rfl
  | command issued => cases issued <;> exact Iff.rfl

/-- An order waits on while the mark price does not change and its owner does not cancel it. -/
theorem waits_on {input : EngineInput} {stop : BookOrder} (waits : stop ∈ engine.stopOrders)
    (spared : ¬Cancels stop input) (unmarked : input.mark? = none) :
    stop ∈ (engine.step input).1.stopOrders := by
  cases input with
  | expirySweep now => exact waits
  | command issued =>
      let counted : MatchingEngine := { engine with sequence := engine.sequence + 1 }
      cases issued with
      | newOrder order =>
          change stop ∈ (counted.handleNewOrder order).1.stopOrders
          rcases counted.handleNewOrder_cases order with
            ⟨reason, same⟩ | ⟨price, -, -, -, -, ⟨-, same⟩ | ⟨-, same⟩⟩
          · rwa [same]
          · rw [same]
            exact List.mem_append_left _ waits
          · rwa [same, matchNewOrder_stopOrders]
      | cancelOrder orderId userId symbol timestamp =>
          change stop ∈ (counted.handleCancelOrder orderId userId timestamp).1.stopOrders
          have moved {order : BookOrder}
              (found : (engine.stopOrders.find? fun other => other.orderId = orderId) =
                some order) :
              stop = order ∨
                stop ∈ engine.stopOrders.eraseP fun other => other.orderId = orderId :=
            List.mem_cons.1 ((find_cons_eraseP_perm found).symm.subset waits)
          rcases counted.handleCancelOrder_cases orderId userId timestamp with
            ⟨-, -, same⟩ | ⟨order, -, -, same⟩ | ⟨order, -, -, same⟩ |
              ⟨order, -, found, owner, same⟩ | ⟨order, -, found, -, same⟩
          · rwa [same]
          · rwa [same]
          · rwa [same]
          · rw [same]
            rcases moved found with rfl | kept
            · exact absurd ⟨(by simpa using List.find?_some found : stop.orderId = orderId).symm,
                owner.symm⟩ spared
            · exact kept
          · rw [same]
            rcases moved found with rfl | kept
            · exact List.mem_append_right _ (List.mem_singleton_self _)
            · exact List.mem_append_left _ kept
      | amendOrder amend =>
          change stop ∈ (counted.handleAmendOrder amend).1.stopOrders
          rwa [handleAmendOrder_stopOrders]
      | cancelAllOrders userId symbol timestamp =>
          refine (swapScan_snd_perm _ _).symm.subset (List.mem_filter.2 ⟨waits, ?_⟩)
          rw [Bool.not_eq_true', ← Bool.decide_and, decide_eq_false_iff_not]
          exact fun hit => spared ⟨hit.1.symm, hit.2.symm⟩
      | updateMarkPrice symbol mark index timestamp => cases unmarked
      | computeFunding symbol timestamp => exact waits
      | adminCredit userId amount key timestamp => exact waits

/-- The orders that wait after a new mark price: those it does not trigger, with their peaks
moved. -/
theorem mem_stopOrders_marked {input : EngineInput} {mark : Decimal128} {stop : BookOrder}
    (marked : input.mark? = some mark) :
    stop ∈ (engine.step input).1.stopOrders ↔
      shouldTrigger mark stop = false ∧
        ∃ old ∈ engine.stopOrders, stop = updateTrailingPeak mark old := by
  cases input with
  | expirySweep now => cases marked
  | command issued =>
      cases issued with
      | updateMarkPrice symbol other index timestamp =>
          cases marked
          let counted : MatchingEngine := { engine with sequence := engine.sequence + 1 }
          have kept := (swapScan_snd_perm (shouldTrigger mark)
            (counted.applyMarkIndexPassive mark index).stopOrders).mem_iff (a := stop)
          change stop ∈ (counted.updateMarkPrice symbol mark index timestamp).1.stopOrders ↔ _
          rw [updateMarkPrice, triggerAndMatchStops, triggerAll_stopOrders]
          apply kept.trans
          rw [List.mem_filter, Bool.not_eq_true', and_comm]
          apply and_congr_right
          intro _
          constructor
          · intro moved
            obtain ⟨old, before, rfl⟩ := List.mem_map.1 moved
            exact ⟨old, before, rfl⟩
          · rintro ⟨old, before, rfl⟩
            exact List.mem_map.2 ⟨old, before, rfl⟩
      | _ => cases marked

/-- The order waits, and its peak is the extreme of the marks. -/
def Trails (stop : BookOrder) (first : Decimal128) (marks : List Decimal128)
    (engine : MatchingEngine) : Prop :=
  stop.withPeak (extreme stop.side first marks) ∈ engine.stopOrders

section Trailing

variable {stop : BookOrder} {delta first : Decimal128} {marks : List Decimal128}

/-- A mark that has not come back moves the peak to the new extreme, and the order waits on. -/
theorem Trails.untriggered (trails : Trails stop first marks engine)
    (kind : stop.orderType = .trailingStop) (byDelta : stop.trailingDelta = some delta)
    {input : EngineInput} {mark : Decimal128} (marked : input.mark? = some mark)
    (still : ¬Reverses stop.side delta first marks mark) :
    stop.withPeak (extreme stop.side first (marks ++ [mark])) ∉ engine.triggered input ∧
      Trails stop first (marks ++ [mark]) (engine.step input).1 := by
  have missed : ¬MatchingEngine.shouldTrigger mark
      (stop.withPeak (extreme stop.side first (marks ++ [mark]))) = true :=
    (shouldTrigger_withPeak kind byDelta).not.2 still
  constructor
  · intro taken
    obtain ⟨other, sameMark, hit, -⟩ := mem_triggered.1 taken
    cases marked.symm.trans sameMark
    exact missed hit
  · refine (mem_stopOrders_marked marked).2 ⟨Bool.eq_false_iff.2 missed, _, trails, ?_⟩
    exact (updateTrailingPeak_withPeak kind first mark marks).symm

/-- The mark that has come back triggers the order, and it waits no longer. -/
theorem Trails.triggered (trails : Trails stop first marks engine)
    (kind : stop.orderType = .trailingStop) (byDelta : stop.trailingDelta = some delta)
    {input : EngineInput} {mark : Decimal128} (marked : input.mark? = some mark)
    (reverses : Reverses stop.side delta first marks mark) :
    stop.withPeak (extreme stop.side first (marks ++ [mark])) ∈ engine.triggered input ∧
      ¬Trails stop first (marks ++ [mark]) (engine.step input).1 := by
  have hit : MatchingEngine.shouldTrigger mark
      (stop.withPeak (extreme stop.side first (marks ++ [mark]))) = true :=
    (shouldTrigger_withPeak kind byDelta).2 reverses
  refine ⟨mem_triggered.2 ⟨mark, marked, hit, _, trails, ?_⟩, fun kept => ?_⟩
  · exact (updateTrailingPeak_withPeak kind first mark marks).symm
  · have missed := ((mem_stopOrders_marked marked).1 kept).1
    rw [hit] at missed
    cases missed

theorem Trails.step (trails : Trails stop first marks engine)
    (kind : stop.orderType = .trailingStop) (byDelta : stop.trailingDelta = some delta)
    {input : EngineInput} (spared : ¬Cancels stop input)
    (still : ∀ mark, input.mark? = some mark → ¬Reverses stop.side delta first marks mark) :
    Trails stop first (marks ++ input.mark?.toList) (engine.step input).1 := by
  cases marked : input.mark? with
  | none =>
      rw [Option.toList_none, List.append_nil]
      exact waits_on trails ((cancels_withPeak stop _ input).not.2 spared) marked
  | some mark => exact (trails.untriggered kind byDelta marked (still mark marked)).2

/-- While no mark has come back, the order waits with its peak at the extreme. -/
theorem Trails.run (trails : Trails stop first [] engine) (kind : stop.orderType = .trailingStop)
    (byDelta : stop.trailingDelta = some delta) {inputs : List EngineInput}
    (spared : ∀ input ∈ inputs, ¬Cancels stop input)
    (quiet : Quiet stop.side delta first (marksSet inputs)) :
    Trails stop first (marksSet inputs) (Support.run MatchingEngine.step engine inputs).1 := by
  induction inputs using List.reverseRecOn with
  | nil => exact trails
  | append_singleton before input inductionHypothesis =>
      rw [marksSet_concat] at quiet
      rw [run_concat, marksSet_concat]
      have earlier : Quiet stop.side delta first (marksSet before) := by
        intro marks mark isPrefix
        exact quiet marks mark (isPrefix.trans (List.prefix_append _ _))
      refine (inductionHypothesis (fun other member => ?_) earlier).step kind byDelta ?_ ?_
      · exact spared other (List.mem_append_left _ member)
      · exact spared input (List.mem_append_right _ (List.mem_singleton_self _))
      · intro mark marked
        rw [marked] at quiet
        exact (quiet_concat.1 quiet).2

/-- If an order is the only one of its id, whatever waits under the id is that order, and no
mark has come back. -/
def OnlyTrails (stop : BookOrder) (delta first : Decimal128) (marks : List Decimal128)
    (engine : MatchingEngine) : Prop :=
  ∀ other ∈ engine.stopOrders, other.orderId = stop.orderId →
    other = stop.withPeak (extreme stop.side first marks) ∧ Quiet stop.side delta first marks

theorem OnlyTrails.moved (only : OnlyTrails stop delta first marks engine)
    (kind : stop.orderType = .trailingStop) {old other : BookOrder} {mark : Decimal128}
    (before : old ∈ engine.stopOrders) (same : other = updateTrailingPeak mark old)
    (sameId : other.orderId = stop.orderId) :
    other = stop.withPeak (extreme stop.side first (marks ++ [mark])) ∧
      Quiet stop.side delta first marks := by
  rw [same, updateTrailingPeak_orderId] at sameId
  obtain ⟨rfl, quiet⟩ := only old before sameId
  exact ⟨same.trans (updateTrailingPeak_withPeak kind first mark marks), quiet⟩

theorem OnlyTrails.step (only : OnlyTrails stop delta first marks engine)
    (kind : stop.orderType = .trailingStop) (byDelta : stop.trailingDelta = some delta)
    {input : EngineInput} (notAgain : input.newOrderId? ≠ some stop.orderId) :
    OnlyTrails stop delta first (marks ++ input.mark?.toList) (engine.step input).1 := by
  intro other waits sameId
  rcases engine.mem_stopOrders_step input waits with
    ⟨old, before, ⟨unmarked, rfl⟩ | ⟨mark, marked, same, missed⟩⟩ |
      ⟨order, price, rfl, -, rfl, -⟩
  · rw [unmarked, Option.toList_none, List.append_nil]
    exact only other before sameId
  · obtain ⟨atPeak, quiet⟩ := only.moved kind before same sameId
    rw [marked]
    refine ⟨atPeak, quiet_concat.2 ⟨quiet, fun reverses => ?_⟩⟩
    rw [atPeak, (shouldTrigger_withPeak kind byDelta).2 reverses] at missed
    cases missed
  · exact absurd (congrArg some sameId) notAgain

theorem OnlyTrails.run (only : OnlyTrails stop delta first [] engine)
    (kind : stop.orderType = .trailingStop) (byDelta : stop.trailingDelta = some delta)
    {inputs : List EngineInput}
    (notAgain : ∀ input ∈ inputs, input.newOrderId? ≠ some stop.orderId) :
    OnlyTrails stop delta first (marksSet inputs)
      (Support.run MatchingEngine.step engine inputs).1 := by
  induction inputs using List.reverseRecOn with
  | nil => exact only
  | append_singleton before input inductionHypothesis =>
      rw [run_concat, marksSet_concat]
      refine (inductionHypothesis fun other member => ?_).step kind byDelta ?_
      · exact notAgain other (List.mem_append_left _ member)
      · exact notAgain input (List.mem_append_right _ (List.mem_singleton_self _))

/-- What triggers the only order of its id is the first mark to come back. -/
theorem OnlyTrails.triggered (only : OnlyTrails stop delta first marks engine)
    (kind : stop.orderType = .trailingStop) (byDelta : stop.trailingDelta = some delta)
    {input : EngineInput} {other : BookOrder} (taken : other ∈ engine.triggered input)
    (sameId : other.orderId = stop.orderId) :
    Quiet stop.side delta first marks ∧
      ∃ mark, input.mark? = some mark ∧ Reverses stop.side delta first marks mark := by
  obtain ⟨mark, marked, hit, old, before, same⟩ := mem_triggered.1 taken
  obtain ⟨atPeak, quiet⟩ := only.moved kind before same sameId
  rw [atPeak] at hit
  exact ⟨quiet, mark, marked, (shouldTrigger_withPeak kind byDelta).1 hit⟩

end Trailing

/-- An accepted trailing stop waits. -/
theorem trailing_accepted (engine : MatchingEngine) (order : NewOrder)
    (kind : order.orderType = .trailingStop) {record : OrderAccepted}
    (accepted : .orderAccepted record ∈ (engine.step (.command (.newOrder order))).2) :
    ∃ price, effectivePrice order = some price ∧
      (engine.step (.command (.newOrder order))).1.stopOrders =
        engine.stopOrders ++ [newBookOrder engine.markPrice order price] := by
  let counted : MatchingEngine := { engine with sequence := engine.sequence + 1 }
  change .orderAccepted record ∈ (counted.handleNewOrder order).2 at accepted
  change ∃ price, _ ∧ (counted.handleNewOrder order).1.stopOrders = _
  rcases counted.handleNewOrder_cases order with
    ⟨reason, same⟩ | ⟨price, -, -, effective, -, ⟨-, same⟩ | ⟨unconditional, -⟩⟩
  · rw [same] at accepted
    cases List.mem_singleton.1 accepted
  · rw [same]
    exact ⟨price, effective, rfl⟩
  · rw [kind] at unconditional
    cases unconditional

theorem newBookOrder_withPeak (markPrice : Decimal128) {order : NewOrder} {delta : Decimal128}
    (byDelta : order.trailingDelta = some delta) (price : Decimal128) :
    (newBookOrder markPrice order price).withPeak (extreme order.side markPrice []) =
      newBookOrder markPrice order price := by
  cases side : order.side <;> simp [newBookOrder, BookOrder.withPeak, extreme, byDelta, side]

end MatchingEngine
end Exg
