import Exg.Clearing.Restart
import Exg.Clearing.ZeroSum

/-!
# What the funding pool pays

The facts of a batch tell every movement of money, user by user.  What the pool pays for a fill
is at least the profit that the fill realizes, and a funding tick between two batches of an
engine pays to the shorts what it takes from the longs but for two truncations a position.
-/

namespace Exg

open Support Decimal128

namespace Event

/-- What an event books to the Funding balance of a user. -/
def bookedTo (userId : UserId) : Event → Decimal128
  | .adminCredited credited amount _ _ => if credited = userId then amount else 0
  | .realizedPnl settled _ amount _ => if settled = userId then amount else 0
  | .fundingSettled settled _ _ amount _ => if settled = userId then -amount else 0
  | _ => 0

/-- What an event takes out of the funding pool. -/
def paidOut : Event → Decimal128
  | .realizedPnl _ _ amount _ => amount
  | .fundingSettled _ _ _ amount _ => -amount
  | _ => 0

end Event

private theorem sum_bookedTo_of_plain {events : List Event}
    (plain : ∀ event ∈ events, event.isFact = false) (userId : UserId) :
    (events.map (Event.bookedTo userId)).sum = 0 := by
  refine List.sum_eq_zero fun amount member => ?_
  obtain ⟨event, emitted, rfl⟩ := List.mem_map.1 member
  have unbooked := plain event emitted
  cases event <;> first | rfl | cases unbooked

private theorem sum_paidOut_of_plain {events : List Event}
    (plain : ∀ event ∈ events, event.isFact = false) : (events.map Event.paidOut).sum = 0 := by
  refine List.sum_eq_zero fun amount member => ?_
  obtain ⟨event, emitted, rfl⟩ := List.mem_map.1 member
  have unbooked := plain event emitted
  cases event <;> first | rfl | cases unbooked

/-! ## The facts tell every movement -/

/-- The facts that lead from one ledger to another. -/
structure Books (before : Ledger) (facts : List Event) (after : Ledger) : Prop where
  funding : ∀ userId, after.fundingBalance userId =
    before.fundingBalance userId + (facts.map (Event.bookedTo userId)).sum
  pool : after.systemBalance .funding =
    before.systemBalance .funding - (facts.map Event.paidOut).sum

namespace Books

variable {before middle after : Ledger} {facts more : List Event}

theorem refl (ledger : Ledger) : Books ledger [] ledger := ⟨by simp, by simp⟩

theorem trans (first : Books before facts middle) (second : Books middle more after) :
    Books before (facts ++ more) after := by
  constructor
  · intro userId
    rw [second.funding, first.funding, List.map_append, List.sum_append, add_assoc]
  · rw [second.pool, first.pool, List.map_append, List.sum_append, sub_sub]

/-- Events that book nothing may be added in front. -/
theorem behind (books : Books before facts after) {events : List Event}
    (plain : ∀ event ∈ events, event.isFact = false) : Books before (events ++ facts) after := by
  have nothing : Books before events before :=
    ⟨fun userId => by simp [sum_bookedTo_of_plain plain], by simp [sum_paidOut_of_plain plain]⟩
  exact nothing.trans books

end Books

namespace PostTradeProcessor

variable {live : PostTradeProcessor} {credits : List String} {only : SymbolId}

private theorem filledState_books (live : PostTradeProcessor) (filled : OrderFilled)
    (pnl : Decimal128) (positions : PositionManager) (timestamp : UnixMicros) :
    Books live.ledger (live.filledState filled pnl positions timestamp).2
      (live.filledState filled pnl positions timestamp).1.ledger := by
  rw [filledState]
  split
  · exact Books.refl live.ledger
  · constructor
    · intro userId
      by_cases own : filled.userId = userId
      · simp [Ledger.fundingBalance_settled, Event.bookedTo, own]
      · simp [Ledger.fundingBalance_settled, Event.bookedTo, own]
    · simp [Ledger.systemBalance_settled, Event.paidOut]

private theorem settledPosition_books {ledger : Ledger} (sound : ledger.Sound) (period : Nat)
    (mark rate : Decimal128) (timestamp : UnixMicros) (position : Position) :
    Books ledger (settledPosition period mark rate timestamp ledger position).2
      (settledPosition period mark rate timestamp ledger position).1 := by
  obtain ⟨funding, system, -⟩ :=
    settledPosition_effect period mark rate timestamp sound position
  have fact : (settledPosition period mark rate timestamp ledger position).2 =
      if tickMove mark rate ledger position = 0 then [] else
        [.fundingSettled position.userId position.symbol period
          (-tickMove mark rate ledger position) timestamp] := by
    by_cases free : fundingPayment mark rate position = 0
    · simp [settledPosition, free, tickMove_of_free mark rate sound free]
    · rw [settledPosition, if_neg free]
      rfl
  constructor
  · intro userId
    rw [funding, fact]
    by_cases still : tickMove mark rate ledger position = 0
    · simp [still]
    · simp [still, Event.bookedTo]
  · rw [system, fact]
    by_cases still : tickMove mark rate ledger position = 0
    · simp [still]
    · simp [still, Event.paidOut]

private theorem settledPositions_books {ledger : Ledger} (sound : ledger.Sound) (period : Nat)
    (mark rate : Decimal128) (timestamp : UnixMicros) (positions : List Position) :
    Books ledger (settledPositions period mark rate timestamp ledger positions).2
      (settledPositions period mark rate timestamp ledger positions).1 := by
  induction positions generalizing ledger with
  | nil => exact Books.refl ledger
  | cons position rest inductionHypothesis =>
      exact (settledPosition_books sound period mark rate timestamp position).trans
        (inductionHypothesis (settledPosition_sound sound position))

private theorem consumedState_books (ready : live.MoneyReady credits)
    (visit : List Position → List Position) (timestamp : UnixMicros) (event : Event) :
    Books live.ledger (live.consumedState visit timestamp event).2
      (live.consumedState visit timestamp event).1.ledger := by
  cases event with
  | orderFilled filled =>
      simp only [consumedState]
      split
      · exact filledState_books live filled _ _ timestamp
      · exact Books.refl live.ledger
  | fundingRateUpdate symbol rate stamped =>
      simp only [consumedState, fundedState]
      split
      · exact Books.refl live.ledger
      · exact settledPositions_books ready.sound _ live.markPrice rate timestamp _
  | _ => exact Books.refl live.ledger

private theorem consumedBatch_books (ready : live.Ready credits only) {events : List Event}
    (fromEngine : ∀ event ∈ events, FromEngine only event) (order : IterationOrder)
    (timestamp : UnixMicros) :
    Books live.ledger (consumedBatch order timestamp live events).2
      (consumedBatch order timestamp live events).1.ledger := by
  induction events generalizing live order with
  | nil => exact Books.refl live.ledger
  | cons event rest inductionHypothesis =>
      have next := (consumedState_ready ready (fromEngine event List.mem_cons_self)
        (order.perm 0 live.positions.allPositions) timestamp).1
      exact (consumedState_books ready.money (order.visit 0) timestamp event).trans
        (inductionHypothesis next
          (fun other member => fromEngine other (List.mem_cons_of_mem event member)) order.later)

private theorem creditedState_books (live : PostTradeProcessor) (userId : UserId)
    (amount : Decimal128) (key : String) (timestamp : UnixMicros) :
    Books live.ledger [.adminCredited userId amount key timestamp]
      (live.creditedState userId amount key timestamp).ledger := by
  constructor
  · intro other
    by_cases own : userId = other
    · simp [creditedState, Ledger.fundingBalance_deposited, Event.bookedTo, own]
    · simp [creditedState, Ledger.fundingBalance_deposited, Event.bookedTo, own]
  · simp [creditedState, Ledger.systemBalance_deposited, Event.paidOut]

end PostTradeProcessor

/-- What an input books is in its facts. -/
theorem ClearingInput.handled_books {live : PostTradeProcessor} {credits : List String}
    {only : SymbolId} (ready : live.Ready credits only) {input : ClearingInput}
    (admissible : input.Admissible only) (order : IterationOrder) :
    Books live.ledger (input.handled order live).2 (input.handled order live).1.ledger := by
  cases input with
  | batch events timestamp =>
      exact PostTradeProcessor.consumedBatch_books ready admissible order timestamp
  | adminCredit userId amount key timestamp =>
      exact PostTradeProcessor.creditedState_books live userId amount key timestamp

/-! ## What a tick pays -/

/-- A payment is the rate of the position's worth, but for two truncations. -/
theorem PostTradeProcessor.fundingPayment_near {position : Position}
    (oneWay : position.side ≠ .both) (mark rate : Decimal128) :
    |(fundingPayment mark rate position).toRat -
        rate.toRat * (mark.toRat * position.signedSize.toRat)| ≤ (1 + |rate.toRat|) * unit := by
  have worth := abs_mul_sub_lt position.size mark
  have scaled : ∀ signedRate : Decimal128, |signedRate.toRat| = |rate.toRat| →
      |(position.size * mark * signedRate).toRat -
        signedRate.toRat * (mark.toRat * position.size.toRat)| ≤ (1 + |rate.toRat|) * unit := by
    intro signedRate same
    have near := abs_mul_sub_le (position.size * mark) signedRate
      (position.size.toRat * mark.toRat)
    rw [same] at near
    have carried := mul_le_mul_of_nonneg_right worth.le (abs_nonneg rate.toRat)
    rw [mul_comm signedRate.toRat, mul_comm mark.toRat]
    linarith
  rw [fundingPayment, Position.signedSize]
  cases side : position.side with
  | long => exact scaled rate rfl
  | both => exact absurd side oneWay
  | short =>
      have opposite := scaled (-rate) (by rw [toRat_neg, abs_neg])
      rw [toRat_neg] at opposite
      simp only [PositionSide.signed, toRat_neg]
      convert opposite using 3
      ring

namespace PositionManager

/-- What the truncations of a funding tick may add up to. -/
def tickSlack (manager : PositionManager) (rate : Decimal128) : ℚ :=
  manager.positions.size • ((1 + |rate.toRat|) * unit)

/-- The positions after an event, and what a tick may fail to pay back. -/
def allow (manager : PositionManager) (event : Event) : PositionManager × List ℚ :=
  ((manager.keep event).1,
    match event with
    | .fundingRateUpdate _ rate _ => [manager.tickSlack rate]
    | _ => [])

variable {manager : PositionManager}

private theorem tickSlack_nonneg (manager : PositionManager) (rate : Decimal128) :
    0 ≤ manager.tickSlack rate :=
  nsmul_nonneg (mul_nonneg (by positivity) unit_pos.le) _

/-- The longs pay what the shorts receive. -/
theorem Level.payments (level : manager.Level) (mark rate : Decimal128) :
    |((manager.allPositions.map (PostTradeProcessor.fundingPayment mark rate)).sum).toRat| ≤
      manager.tickSlack rate := by
  have total :
      ((manager.allPositions.map (PostTradeProcessor.fundingPayment mark rate)).sum).toRat =
        mapTotal (fun _ position => (PostTradeProcessor.fundingPayment mark rate position).toRat)
          manager.positions := by
    rw [toRat_sum, allPositions, List.map_map, List.map_map]
    rfl
  have near : |mapTotal _ manager.positions - manager.worth fun _ => rate.toRat * mark.toRat| ≤ _ :=
    abs_mapTotal_sub_le manager.positions fun key position found => by
      have each := PostTradeProcessor.fundingPayment_near (level.proper.directed _ _ _ found) mark
        rate
      rwa [← mul_assoc] at each
  rwa [level.worthless, sub_zero, ← total] at near

end PositionManager

namespace PostTradeProcessor

variable {live : PostTradeProcessor}

/-- A tick never pays out less than the positions are due. -/
theorem settledPositions_paid (period : Nat) (mark rate : Decimal128) (timestamp : UnixMicros)
    (ledger : Ledger) (positions : List Position) :
    -(positions.map (fundingPayment mark rate)).sum ≤
      ((settledPositions period mark rate timestamp ledger positions).2.map Event.paidOut).sum := by
  induction positions generalizing ledger with
  | nil => simp [settledPositions]
  | cons position rest inductionHypothesis =>
      have later := inductionHypothesis
        (settledPosition period mark rate timestamp ledger position).1
      have first : -fundingPayment mark rate position ≤
          ((settledPosition period mark rate timestamp ledger position).2.map
            Event.paidOut).sum := by
        have covers : -fundingPayment mark rate position ≤
            ledger.coveredMove position.userId (-fundingPayment mark rate position) :=
          le_max_left _ _
        rw [settledPosition]
        split
        · rename_i free
          simp [free]
        · dsimp only
          split
          · rename_i still
            simpa [still] using covers
          · simpa [Event.paidOut] using covers
      rw [settledPositions, List.map_append, List.sum_append, List.map_cons, List.sum_cons,
        neg_add]
      exact add_le_add first later

/-- Every open position is settled, in some order. -/
theorem openRows_perm (sized : live.positions.Sized) {visit : List Position → List Position}
    (perm : (visit live.positions.allPositions).Perm live.positions.allPositions) :
    (live.openRows visit).Perm live.positions.allPositions := by
  have all : live.openRows visit = visit live.positions.allPositions := by
    refine List.filter_eq_self.2 fun position member => ?_
    obtain ⟨entry, stored, rfl⟩ := List.mem_map.1 (perm.mem_iff.1 member)
    have found : live.positions.getPosition entry.1.1 entry.1.2 = some entry.2 :=
      Std.ExtTreeMap.mem_toList_iff_getElem?_eq_some.1 stored
    have positive := sized _ _ _ found
    simp [Decimal128.isZero, positive.ne']
  rw [all]
  exact perm

end PostTradeProcessor

/-! ## What a batch pays -/

open PositionManager (keep allow realized)

private theorem run_allow_positions (manager : PositionManager) (events : List Event) :
    (run allow manager events).1 = (run keep manager events).1 := by
  induction events generalizing manager with
  | nil => rfl
  | cons event rest inductionHypothesis => exact inductionHypothesis (manager.keep event).1

/-- The legs of trades leave level positions level. -/
theorem PositionManager.Level.run {manager : PositionManager} (level : manager.Level)
    {events : List Event} (paired : Paired events)
    (positive : MatchingEngine.PositiveFills events) : (run keep manager events).1.Level := by
  obtain ⟨proper, moved⟩ := PositionManager.keep_run_moved level.proper positive
  rw [worth_legs paired] at moved
  refine ⟨proper, fun marks => (moved.worth_eq marks).trans ?_⟩
  rw [level.worthless]
  exact zero_add 0

/-- The facts that follow some events pay at least the profits that these realize, less what
the funding ticks may fail to pay back. -/
structure Covers (before : PositionManager) (events : List Event) (after : PositionManager)
    (facts : List Event) : Prop where
  positions : after = (run keep before events).1
  paid : realized (run keep before events).2 - (run allow before events).2.sum ≤
    (facts.map Event.paidOut).sum.toRat

namespace Covers

variable {before middle after : PositionManager} {events more facts moreFacts : List Event}

theorem nothing (manager : PositionManager) : Covers manager [] manager [] :=
  ⟨rfl, by simp [realized]⟩

theorem trans (first : Covers before events middle facts)
    (second : Covers middle more after moreFacts) :
    Covers before (events ++ more) after (facts ++ moreFacts) := by
  obtain ⟨rfl, firstPaid⟩ := first
  obtain ⟨rfl, secondPaid⟩ := second
  constructor
  · rw [run_append]
  · simp only [run_append, run_allow_positions, PositionManager.realized_append, List.map_append,
      List.sum_append, toRat_add]
    linarith

theorem behind (covers : Covers before events after facts)
    (plain : ∀ event ∈ events, event.isFact = false) :
    Covers before events after (events ++ facts) := by
  refine ⟨covers.positions, covers.paid.trans_eq ?_⟩
  rw [List.map_append, List.sum_append, sum_paidOut_of_plain plain, zero_add]

end Covers

namespace PostTradeProcessor

variable {live : PostTradeProcessor}

private theorem consumedState_covers (live : PostTradeProcessor)
    {visit : List Position → List Position}
    (perm : (visit live.positions.allPositions).Perm live.positions.allPositions)
    (timestamp : UnixMicros) (event : Event)
    (level : event.legKey? = none → live.positions.Level) :
    Covers live.positions [event] (live.consumedState visit timestamp event).1.positions
      (live.consumedState visit timestamp event).2 := by
  cases event with
  | orderFilled filled =>
      simp only [consumedState]
      cases applied : live.positions.applyFill filled.userId filled.symbol filled.side
          filled.fillQty filled.fillPrice with
      | error error =>
          constructor <;> simp [run, keep, allow, applied, realized]
      | ok result =>
          obtain ⟨pnl, positions⟩ := result
          have covers : pnl ≤ live.ledger.coveredMove filled.userId pnl := le_max_left _ _
          dsimp only
          rw [filledState]
          split
          · rename_i still
            rw [still] at covers
            constructor
            · simp [run, keep, applied]
            · simpa [run, keep, allow, applied, realized] using toRat_le_iff.2 covers
          · constructor
            · simp [run, keep, applied]
            · simpa [run, keep, allow, applied, realized, Event.paidOut] using
                toRat_le_iff.2 covers
  | fundingRateUpdate symbol rate stamped =>
      have reached := level rfl
      have rows := openRows_perm reached.proper.sized perm
      have payments := (abs_le.1 (reached.payments live.markPrice rate)).2
      rw [← (rows.map _).sum_eq] at payments
      simp only [consumedState, fundedState]
      split
      · refine ⟨rfl, ?_⟩
        have spare := live.positions.tickSlack_nonneg rate
        simpa [run, keep, allow, realized] using spare
      · refine ⟨rfl, ?_⟩
        have paid := toRat_le_iff.2 (settledPositions_paid (live.fundingPeriodId + 1)
          live.markPrice rate timestamp live.ledger (live.openRows visit))
        rw [toRat_neg] at paid
        simp only [run, keep, allow, realized, List.append_nil, List.map_nil, List.sum_nil,
          List.sum_cons, add_zero, zero_sub]
        linarith
  | _ => exact ⟨rfl, by simp [run, keep, allow, realized, consumedState]⟩

/-- A batch whose fills are pairs of legs pays what it realizes. -/
theorem consumedBatch_covers {events : List Event} (paired : Paired events)
    (positive : MatchingEngine.PositiveFills events) (level : live.positions.Level)
    (order : IterationOrder) (timestamp : UnixMicros) :
    Covers live.positions events (consumedBatch order timestamp live events).1.positions
      (consumedBatch order timestamp live events).2 := by
  induction paired generalizing live order with
  | nil => exact Covers.nothing live.positions
  | plain unfilled later inductionHypothesis =>
      rename_i event rest
      obtain ⟨first, last⟩ := List.forall_mem_cons.1 positive
      have here := live.consumedState_covers (order.perm 0 live.positions.allPositions) timestamp
        event fun _ => level
      have next := level.run (.plain unfilled .nil) (List.forall_mem_singleton.2 first)
      rw [← here.positions] at next
      exact here.trans (inductionHypothesis last next order.later)
  | trade legs later inductionHypothesis =>
      -- the positions are not level between the two legs
      rename_i maker taker rest
      obtain ⟨first, second, last⟩ : _ ∧ _ ∧ _ := by
        simpa only [MatchingEngine.PositiveFills, List.forall_mem_cons] using positive
      let middle := (live.consumedState (order.visit 0) timestamp (.orderFilled maker)).1
      have makes := live.consumedState_covers (order.perm 0 live.positions.allPositions) timestamp
        (.orderFilled maker) nofun
      have takes := middle.consumedState_covers (order.later.perm 0 middle.positions.allPositions)
        timestamp (.orderFilled taker) nofun
      have both := makes.trans takes
      have next := level.run (.trade legs .nil)
        (List.forall_mem_cons.2 ⟨first, List.forall_mem_singleton.2 second⟩)
      rw [List.singleton_append] at both
      rw [← both.positions] at next
      have rest := both.trans (inductionHypothesis last next order.later.later)
      rw [List.append_assoc] at rest
      exact rest

end PostTradeProcessor
end Exg
