import Exg.Matching.CheckedCommands
import Exg.Matching.Triggers

/-!
# Trailing stops, where their thresholds fit

The check of a waiting trailing stop computes the extreme of the marks minus or plus its delta.
Where that leaves the range, the engine panics before any order is triggered; at every other
mark the stop is triggered exactly when the mark has come back from the extreme by the delta.
-/

namespace Exg

open Support

namespace MatchingEngine

/-- The price at which a trailing stop is triggered once the marks have reached an extreme. -/
def trailingThreshold (side : Side) (delta reached : Decimal128) : Decimal128 :=
  match side with
  | .sell => reached - delta
  | .buy => reached + delta

/-- The check of a trailing stop at a mark is answered, and rightly. -/
def Answers (stop : BookOrder) (delta first : Decimal128) (earlier : List Decimal128)
    (mark : Decimal128) : Prop :=
  ∃ hit, shouldTrigger? mark (stop.withPeak (extreme stop.side first (earlier ++ [mark]))) =
      some hit ∧ (hit = true ↔ Reverses stop.side delta first earlier mark)

section Checks

variable {stop : BookOrder} {delta first mark : Decimal128} {earlier : List Decimal128}

private theorem computes_shouldTrigger (kind : stop.orderType = .trailingStop)
    (byDelta : stop.trailingDelta = some delta) (mark peak : Decimal128) :
    Computes (shouldTrigger? mark (stop.withPeak peak))
      (trailingThreshold stop.side delta peak).InRange
      (shouldTrigger mark (stop.withPeak peak)) := by
  have trails : (stop.withPeak peak).trailingDelta = some delta := byDelta
  have trailing : (stop.withPeak peak).orderType = .trailingStop := kind
  have peaks : (stop.withPeak peak).trailingPeakPrice = some peak := rfl
  have sides : (stop.withPeak peak).side = stop.side := rfl
  rw [shouldTrigger?, shouldTrigger, trailing, trails, peaks, sides]
  cases stop.side with
  | sell => exact (Decimal128.computes_sub peak delta).map fun threshold =>
      decide (mark ≤ threshold)
  | buy => exact (Decimal128.computes_add peak delta).map fun threshold =>
      decide (threshold ≤ mark)

private theorem answers_iff (kind : stop.orderType = .trailingStop)
    (byDelta : stop.trailingDelta = some delta) :
    Answers stop delta first earlier mark ↔
      (trailingThreshold stop.side delta
        (extreme stop.side first (earlier ++ [mark]))).InRange := by
  have computes := computes_shouldTrigger kind byDelta mark
    (extreme stop.side first (earlier ++ [mark]))
  constructor
  · rintro ⟨hit, computed, -⟩
    exact ((computes hit).1 computed).1
  · intro fits
    exact ⟨_, computes.eq_some fits, shouldTrigger_withPeak kind byDelta⟩

end Checks

variable {engine : MatchingEngine}

/-- A step that sets a mark looks at every order that waits. -/
theorem step?_looks {input : EngineInput} {mark : Decimal128} (marked : input.mark? = some mark)
    {next : MatchingEngine × List Event} (stepped : engine.step? input = some next)
    {stop : BookOrder} (waits : stop ∈ engine.stopOrders) :
    (shouldTrigger? mark (updateTrailingPeak mark stop)).isSome := by
  cases input with
  | expirySweep now => cases marked
  | command issued =>
      cases issued with
      | updateMarkPrice symbol other index timestamp =>
          cases marked
          obtain ⟨counted, -, handled⟩ := Option.bind_eq_some_iff.1 stepped
          obtain ⟨triggered, triggers, -⟩ := Option.map_eq_some_iff.1 handled
          obtain ⟨checked, checks, -⟩ := Option.bind_eq_some_iff.1 triggers
          obtain ⟨answers, looked, -⟩ := Option.bind_eq_some_iff.1 checks
          exact isSome_of_mapM looked _ (List.mem_map_of_mem waits)
      | _ => cases marked

/-- Up to any state of a run without a panic in which no mark has come back, an accepted trailing
stop waits with its peak at the extreme.  The next mark's check of it is answered as it should be
if and only if the threshold is in range; else the engine panics.  The first mark to come back
triggers it, and nothing else does. -/
theorem trailing_stop_follows_extreme_iff {engine started : MatchingEngine} {order : NewOrder}
    {delta : Decimal128} (kind : order.orderType = .trailingStop)
    (byDelta : order.trailingDelta = some delta) {record : OrderAccepted} {events : List Event}
    (stepped : engine.step? (.command (.newOrder order)) = some (started, events))
    (accepted : .orderAccepted record ∈ events) :
    ∃ price, effectivePrice order = some price ∧
      let stop := newBookOrder engine.markPrice order price
      stop ∈ started.stopOrders ∧
      (∀ (before : List EngineInput) (reached : MatchingEngine) (log : List Event),
        runPartial step? started before = some (reached, log) →
        (∀ input ∈ before, ¬Cancels stop input) →
        Quiet order.side delta engine.markPrice (marksSet before) →
        Trails stop engine.markPrice (marksSet before) reached ∧
        ∀ input mark, input.mark? = some mark →
          let peak := extreme order.side engine.markPrice (marksSet before ++ [mark])
          (Answers stop delta engine.markPrice (marksSet before) mark ↔
            (trailingThreshold order.side delta peak).InRange) ∧
          (¬(trailingThreshold order.side delta peak).InRange → reached.step? input = none) ∧
          ∀ next, reached.step? input = some next →
            (Reverses order.side delta engine.markPrice (marksSet before) mark →
              stop.withPeak peak ∈ reached.triggered input ∧
                stop.withPeak peak ∉ next.1.stopOrders) ∧
            (¬Reverses order.side delta engine.markPrice (marksSet before) mark →
              stop.withPeak peak ∉ reached.triggered input ∧
                stop.withPeak peak ∈ next.1.stopOrders)) ∧
      ((∀ other ∈ engine.stopOrders, other.orderId ≠ order.orderId) →
        ∀ (before : List EngineInput) (reached : MatchingEngine) (log : List Event),
          runPartial step? started before = some (reached, log) →
          (∀ earlier ∈ before, earlier.newOrderId? ≠ some order.orderId) →
          ∀ input, ∀ other ∈ reached.triggered input, other.orderId = order.orderId →
            Quiet order.side delta engine.markPrice (marksSet before) ∧
              ∃ mark, input.mark? = some mark ∧
                Reverses order.side delta engine.markPrice (marksSet before) mark) := by
  obtain rfl : started = (engine.step (.command (.newOrder order))).1 :=
    congrArg Prod.fst (agrees_step engine _ _ stepped)
  obtain rfl : events = (engine.step (.command (.newOrder order))).2 :=
    congrArg Prod.snd (agrees_step engine _ _ stepped)
  obtain ⟨price, effective, waits⟩ := engine.trailing_accepted order kind accepted
  have isTrailing : (newBookOrder engine.markPrice order price).orderType = .trailingStop := kind
  have trailsBy : (newBookOrder engine.markPrice order price).trailingDelta = some delta := byDelta
  have atMark := newBookOrder_withPeak engine.markPrice byDelta price
  have member : newBookOrder engine.markPrice order price ∈
      (engine.step (.command (.newOrder order))).1.stopOrders := by
    rw [waits]
    exact List.mem_append_right _ (List.mem_singleton_self _)
  refine ⟨price, effective, member, fun before reached log runs spared quiet => ?_,
    fun alone before reached log runs notAgain input other taken sameId => ?_⟩
  · have total := agrees_run agrees_step _ _ _ runs
    have startTrails : Trails (newBookOrder engine.markPrice order price) engine.markPrice []
        (engine.step (.command (.newOrder order))).1 := by
      rw [Trails]
      change (newBookOrder engine.markPrice order price).withPeak
        (extreme order.side engine.markPrice []) ∈ _
      rwa [atMark]
    have trails := startTrails.run isTrailing trailsBy spared quiet
    rw [← total] at trails
    refine ⟨trails, fun input mark marked => ?_⟩
    refine ⟨answers_iff isTrailing trailsBy, fun outside => ?_, fun next stepped => ?_⟩
    · rw [Option.eq_none_iff_forall_ne_some]
      intro next stepped
      have looked := step?_looks marked stepped trails
      rw [updateTrailingPeak_withPeak isTrailing] at looked
      exact outside ((computes_shouldTrigger isTrailing trailsBy mark _).domain_of_isSome looked)
    · rw [agrees_step reached input next stepped]
      exact ⟨trails.triggered isTrailing trailsBy marked,
        trails.untriggered isTrailing trailsBy marked⟩
  · have total := agrees_run agrees_step _ _ _ runs
    have startOnly : OnlyTrails (newBookOrder engine.markPrice order price) delta engine.markPrice
        [] (engine.step (.command (.newOrder order))).1 := by
      intro waiting waitingMember waitingId
      rw [waits] at waitingMember
      rcases List.mem_append.1 waitingMember with earlier | added
      · exact absurd waitingId (alone waiting earlier)
      · exact ⟨(List.mem_singleton.1 added).trans atMark.symm, quiet_nil⟩
    have only := startOnly.run isTrailing trailsBy notAgain
    rw [← total] at only
    exact only.triggered isTrailing trailsBy taken sameId

/-- A trailing order. -/
def trailingOrder (side : Side) (delta : Int) : NewOrder :=
  { gatewayOrder 1 10 side 0 1 with
    orderType := .trailingStop
    price := none
    trailingDelta := some (.ofInt delta) }

/-- A mark price and nothing else. -/
def setMark (mark : Int) : EngineInput :=
  .command (.updateMarkPrice 1 (.ofInt mark) (.ofInt mark) 0)

/-- The engine behind an accepted trailing sell. -/
def sellTrails : MatchingEngine :=
  ((new plainConfig id 0).step (.command (.newOrder (trailingOrder .sell 5)))).1

/-- A rise to 110 and a fall to 105: the second mark triggers the order. -/
theorem trailing_stop_follows_extreme_fall :
    let reached := (Support.run step sellTrails [setMark 110]).1
    ∃ taken ∈ reached.triggered (setMark 105), taken.trailingPeakPrice = some (.ofInt 110) := by
  have accepted : .orderAccepted (acceptedOf (newBookOrder 0 (trailingOrder .sell 5) 0) 1 0) ∈
      ((new plainConfig id 0).step (.command (.newOrder (trailingOrder .sell 5)))).2 := by
    decide +kernel
  have stepped : (new plainConfig id 0).step? (.command (.newOrder (trailingOrder .sell 5))) =
      some (sellTrails, _) :=
    (agrees_step _ _).eq_some (by decide +kernel)
  obtain ⟨price, -, -, waiting, -⟩ :=
    trailing_stop_follows_extreme_iff rfl rfl stepped accepted
  have quiet : Quiet .sell (.ofInt 5) 0 ([] ++ [.ofInt 110]) :=
    quiet_concat.2 ⟨quiet_nil, by decide +kernel⟩
  have spared : ∀ input ∈ [setMark 110], ¬Cancels
      (newBookOrder (new plainConfig id 0).markPrice (trailingOrder .sell 5) price) input := by
    intro input member
    rw [List.mem_singleton.1 member]
    exact not_false
  have runs : runPartial step? sellTrails [setMark 110] = some (_, _) :=
    (agrees_run agrees_step sellTrails _).eq_some (by decide +kernel)
  have marked := (waiting _ _ _ runs spared quiet).2 (setMark 105) (.ofInt 105) rfl
  have falls := (marked.2.2 _ ((agrees_step _ _).eq_some (by decide +kernel))).1
    (by decide +kernel)
  refine ⟨_, falls.1, ?_⟩
  change some (extreme .sell 0 [.ofInt 110, .ofInt 105]) = some (.ofInt 110)
  decide +kernel

/-- A trailing buy whose delta is as large as the mark: at the next mark the threshold leaves the
range, and the order that should go on waiting stops the engine. -/
theorem trailing_threshold_overflows :
    ∃ waiting log, runPartial step? (new plainConfig id 0)
        [setMark (10 ^ 20), .command (.newOrder (trailingOrder .buy (10 ^ 20)))] =
          some (waiting, log) ∧
      waiting.step? (setMark (10 ^ 20)) = none ∧
      ¬Reverses .buy (.ofInt (10 ^ 20)) (.ofInt (10 ^ 20)) [] (.ofInt (10 ^ 20)) ∧
      ¬Answers (newBookOrder (.ofInt (10 ^ 20)) (trailingOrder .buy (10 ^ 20)) 0)
        (.ofInt (10 ^ 20)) (.ofInt (10 ^ 20)) [] (.ofInt (10 ^ 20)) := by
  refine ⟨_, _, (agrees_run agrees_step _ _).eq_some (by decide +kernel),
    Option.isNone_iff_eq_none.1 (by decide +kernel), by decide +kernel, ?_⟩
  rw [answers_iff rfl rfl]
  decide +kernel

end MatchingEngine
end Exg
