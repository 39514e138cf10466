import Exg.Clearing.Restart

/-!
# The counters of the post-trade processor

Live, `pnl_seq` and `funding_period_id` advance by computation; on replay they advance by
the recorded facts alone.  Every advance of `pnl_seq` leaves a fact.  A funding tick
advances the period whether or not anybody pays, so the replayed period is the live one
exactly if the last tick that advanced it found somebody who pays or is paid.
-/

namespace Exg

open Support

namespace PostTradeProcessor

/-! ## Ticks that leave a fact -/

/-- A position that money moves for: it is paid, or its owner can pay. -/
def Pays (ledger : Ledger) (mark rate : Decimal128) (position : Position) : Bool :=
  !(fundingPayment mark rate position).isZero &&
    ((fundingPayment mark rate position).isNegative ||
      !(ledger.fundingBalance position.userId).isZero)

/-- Some open position is paid or can pay. -/
def tickPays (processor : PostTradeProcessor) (rate : Decimal128) : Bool :=
  processor.positions.allPositions.any fun position =>
    !position.size.isZero && Pays processor.ledger processor.markPrice rate position

/-- The tick is skipped: there are open positions but no mark price. -/
def tickSkipped (processor : PostTradeProcessor) : Bool :=
  processor.markPrice.isZero &&
    processor.positions.allPositions.any fun position => !position.size.isZero

/-- Whether the period is recorded after an event, if it was or was not before. -/
def recordedAfter (processor : PostTradeProcessor) (recorded : Bool) : Event → Bool
  | .fundingRateUpdate _ rate _ =>
      if processor.tickSkipped then recorded else processor.tickPays rate
  | _ => recorded

variable {processor : PostTradeProcessor} {credits : List String}

private theorem pays_iff {ledger : Ledger} (sound : ledger.Sound) {mark rate : Decimal128}
    {position : Position} :
    Pays ledger mark rate position = true ↔
      fundingPayment mark rate position ≠ 0 ∧
        ledger.coveredMove position.userId (-fundingPayment mark rate position) ≠ 0 := by
  have covered := sound.fundingBalance_nonneg position.userId
  simp only [Pays, Bool.and_eq_true, Bool.or_eq_true, Bool.not_eq_true', ← Bool.not_eq_true,
    Decimal128.isZero_iff, Decimal128.isNegative_iff, Ledger.coveredMove]
  generalize fundingPayment mark rate position = payment
  generalize ledger.fundingBalance position.userId = balance at covered
  constructor
  · rintro ⟨nonzero, paid | able⟩
    · exact ⟨nonzero, (lt_max_of_lt_left (neg_pos.2 paid)).ne'⟩
    · refine ⟨nonzero, ?_⟩
      have positive : 0 < balance := lt_of_le_of_ne covered (Ne.symm able)
      rcases lt_or_gt_of_ne nonzero with negative | positivePayment
      · exact (lt_max_of_lt_left (neg_pos.2 negative)).ne'
      · exact (max_lt (neg_neg_of_pos positivePayment) (neg_neg_of_pos positive)).ne
  · rintro ⟨nonzero, moves⟩
    refine ⟨nonzero, ?_⟩
    by_contra neither
    rw [not_or, not_lt, not_not] at neither
    apply moves
    rw [neither.2, neg_zero]
    exact max_eq_right (neg_nonpos.2 neither.1)

/-- A position that moves nothing leaves every balance as it was. -/
theorem settledPosition_still {ledger : Ledger} (sound : ledger.Sound) (period : Nat)
    (timestamp : UnixMicros) {mark rate : Decimal128} {position : Position}
    (still : Pays ledger mark rate position = false) :
    (settledPosition period mark rate timestamp ledger position).2 = [] ∧
      ∀ userId, (settledPosition period mark rate timestamp ledger position).1.fundingBalance
        userId = ledger.fundingBalance userId := by
  rw [settledPosition]
  by_cases free : fundingPayment mark rate position = 0
  · rw [if_pos free]
    exact ⟨rfl, fun _ => rfl⟩
  · have nothing : ledger.coveredMove position.userId (-fundingPayment mark rate position) = 0 := by
      by_contra moves
      rw [(pays_iff sound).2 ⟨free, moves⟩] at still
      cases still
    rw [if_neg free, nothing]
    refine ⟨by simp, fun userId => ?_⟩
    rw [Ledger.fundingBalance_settled, add_zero]
    split
    · rename_i same
      rw [Ledger.fundingBalance_getOrCreateAccount, same]
    · rw [Ledger.fundingBalance_getOrCreateAccount]

/-- A tick leaves a fact exactly if some position is paid or can pay. -/
theorem settledPositions_facts {ledger : Ledger} (sound : ledger.Sound) {period : Nat}
    {mark rate : Decimal128} {timestamp : UnixMicros} {positions : List Position} :
    (settledPositions period mark rate timestamp ledger positions).2 ≠ [] ↔
      ∃ position ∈ positions, Pays ledger mark rate position = true := by
  induction positions generalizing ledger with
  | nil => simp [settledPositions]
  | cons position rest inductionHypothesis =>
      have next : (settledPosition period mark rate timestamp ledger position).1.Sound :=
        settledPosition_sound sound position
      cases paid : Pays ledger mark rate position with
      | true =>
          have moves := (pays_iff sound).1 paid
          have fact : (settledPosition period mark rate timestamp ledger position).2 ≠ [] := by
            rw [settledPosition, if_neg moves.1, if_neg moves.2]
            exact List.cons_ne_nil _ _
          constructor
          · exact fun _ => ⟨position, List.mem_cons_self, paid⟩
          · intro _ noFact
            exact fact (List.append_eq_nil_iff.1 noFact).1
      | false =>
          obtain ⟨noFact, balances⟩ := settledPosition_still sound period timestamp paid
          have sameBalances : ∀ other, Pays (settledPosition period mark rate timestamp ledger
              position).1 mark rate other = Pays ledger mark rate other := by
            intro other
            rw [Pays, Pays, balances]
          rw [settledPositions, noFact, List.nil_append, inductionHypothesis next]
          simp only [sameBalances, List.mem_cons, exists_eq_or_imp, paid, Bool.false_eq_true,
            false_or]

/-! ## Replaying the facts of a step -/

/-- The counters of a live and a replayed processor; `recorded` says whether the last
advance of the period has left a fact. -/
structure CountersMatch (recorded : Bool) (live replayed : PostTradeProcessor) : Prop where
  pnlSeq : replayed.pnlSeq = live.pnlSeq
  behind : replayed.fundingPeriodId ≤ live.fundingPeriodId
  caught : replayed.fundingPeriodId = live.fundingPeriodId ↔ recorded = true

/-- Replaying the facts of a live step brings matching counters to matching ones. -/
def Recounts (before : Bool) (live : PostTradeProcessor) (facts : List Event) (after : Bool)
    (next : PostTradeProcessor) : Prop :=
  ∀ replayed : PostTradeProcessor, CountersMatch before live replayed →
    ∃ final, follow applyEvent replayed facts = .ok final ∧ CountersMatch after next final ∧
      final.positions = replayed.positions ∧ final.markPrice = replayed.markPrice

variable {live middle next : PostTradeProcessor} {before between after : Bool}
variable {facts more : List Event}

theorem Recounts.nothing (pnlSeq : next.pnlSeq = live.pnlSeq)
    (period : next.fundingPeriodId = live.fundingPeriodId) :
    Recounts before live [] before next := by
  intro replayed counters
  refine ⟨replayed, rfl, ⟨?_, ?_, ?_⟩, rfl, rfl⟩
  · rw [pnlSeq]
    exact counters.pnlSeq
  · rw [period]
    exact counters.behind
  · rw [period]
    exact counters.caught

theorem Recounts.append (first : Recounts before live facts between middle)
    (second : Recounts between middle more after next) :
    Recounts before live (facts ++ more) after next := by
  intro replayed counters
  obtain ⟨halfway, followed, matching, positions, mark⟩ := first replayed counters
  obtain ⟨final, followedMore, matchingMore, positionsMore, markMore⟩ := second halfway matching
  refine ⟨final, ?_, matchingMore, positionsMore.trans positions, markMore.trans mark⟩
  rw [follow_append_of_ok followed, followedMore]

/-- The facts of one tick bring the replayed period up to that of the tick. -/
theorem follow_tickFacts {period : Nat} {timestamp : UnixMicros}
    (ofTick : ∀ fact ∈ facts,
      ∃ userId symbol amount, fact = .fundingSettled userId symbol period amount timestamp)
    (replayed : PostTradeProcessor) :
    ∃ final, follow applyEvent replayed facts = .ok final ∧ final.pnlSeq = replayed.pnlSeq ∧
      final.fundingPeriodId =
        (if facts = [] then replayed.fundingPeriodId else max replayed.fundingPeriodId period) ∧
      final.positions = replayed.positions ∧ final.markPrice = replayed.markPrice := by
  induction facts generalizing replayed with
  | nil => exact ⟨replayed, rfl, rfl, rfl, rfl, rfl⟩
  | cons fact rest inductionHypothesis =>
      obtain ⟨userId, symbol, amount, rfl⟩ := ofTick fact List.mem_cons_self
      let moved := (replayed.ledger.getOrCreateAccount userId).settleRealizedPnlCapped userId
        (-amount) (fundingKey period userId symbol) timestamp
      let stepped : PostTradeProcessor :=
        { replayed with
          ledger := moved.1
          fundingPeriodId :=
            if replayed.fundingPeriodId < period then period else replayed.fundingPeriodId }
      obtain ⟨final, followed, pnlSeq, caught, positions, mark⟩ := inductionHypothesis
        (fun other member => ofTick other (List.mem_cons_of_mem _ member)) stepped
      have reached : stepped.fundingPeriodId = max replayed.fundingPeriodId period := by
        change (if replayed.fundingPeriodId < period then period
          else replayed.fundingPeriodId) = _
        split <;> omega
      refine ⟨final, followed, pnlSeq, ?_, positions, mark⟩
      rw [caught, reached, if_neg (List.cons_ne_nil _ _), max_assoc, max_self, ite_self]

/-! ## One event -/

/-- A processor between two commands. -/
structure LiveReady (processor : PostTradeProcessor) (credits : List String) : Prop where
  money : processor.MoneyReady credits
  directed : processor.positions.Directed
  keyed : processor.positions.Keyed

private theorem liveReady_new : new.LiveReady [] :=
  ⟨moneyReady_new, PositionManager.directed_new, PositionManager.keyed_new⟩

variable {visit : List Position → List Position} {event : Event}

private theorem openRows_keys (ready : live.LiveReady credits)
    (perm : (visit live.positions.allPositions).Perm live.positions.allPositions) :
    TickKeys (live.fundingPeriodId + 1) live.ledger (live.openRows visit) where
  sound := ready.money.sound
  owners := by
    have visited := (perm.map fun position => (position.userId, position.symbol)).nodup_iff.2
      ready.keyed.owners_nodup
    exact visited.sublist (List.filter_sublist.map _)
  fresh := fun position _ => ready.money.funding_fresh (Nat.lt_succ_self _) _ _

private theorem consumeEvent_live (ready : live.LiveReady credits)
    (perm : (visit live.positions.allPositions).Perm live.positions.allPositions)
    (timestamp : UnixMicros) :
    live.consumeEvent visit timestamp event = .ok (live.consumedState visit timestamp event) := by
  cases event with
  | orderFilled filled =>
      obtain ⟨pnl, positions, applied, -⟩ := PositionManager.applyFill_spec ready.directed
        filled.userId filled.symbol filled.side filled.fillQty filled.fillPrice
      simp only [consumeEvent, consumedState, applied]
      exact consumeFill_eq ready.money applied timestamp
  | fundingRateUpdate _ rate _ =>
      exact settleFunding_eq_of_keys (openRows_keys ready perm) rate timestamp
  | _ => rfl

theorem MoneyReady.settledPositions (ready : live.MoneyReady credits) (mark rate : Decimal128)
    (timestamp : UnixMicros) (positions : List Position) :
    ({ live with ledger := (settledPositions live.fundingPeriodId mark rate timestamp live.ledger
      positions).1 } : PostTradeProcessor).MoneyReady credits := by
  induction positions generalizing live with
  | nil => exact ready
  | cons position rest inductionHypothesis =>
      let settled := settledPosition live.fundingPeriodId mark rate timestamp live.ledger position
      have next : ({ live with ledger := settled.1 } : PostTradeProcessor).MoneyReady credits := by
        refine ⟨settledPosition_sound ready.sound position, fun key member => ?_⟩
        rcases settledPosition_keys member with rfl | earlier
        · exact Or.inr (Or.inl ⟨_, _, _, le_rfl, rfl⟩)
        · exact ready.keys key earlier
      exact inductionHypothesis next

theorem MoneyReady.fundedState (ready : live.MoneyReady credits) (rows : List Position)
    (rate : Decimal128) (timestamp : UnixMicros) :
    (live.fundedState rows rate timestamp).1.MoneyReady credits := by
  rw [PostTradeProcessor.fundedState]
  split
  · exact ready
  · have bumped : ({ live with fundingPeriodId := live.fundingPeriodId + 1 } :
        PostTradeProcessor).MoneyReady credits :=
      ⟨ready.sound, fun key member =>
        (ready.keys key member).mono le_rfl (Nat.le_succ _) (List.Subset.refl _)⟩
    exact bumped.settledPositions live.markPrice rate timestamp rows

private theorem recounts_fill (filled : OrderFilled) (pnl : Decimal128)
    (positions : PositionManager) (timestamp : UnixMicros) :
    Recounts before live (live.filledState filled pnl positions timestamp).2 before
      (live.filledState filled pnl positions timestamp).1 := by
  rw [filledState]
  split
  · exact Recounts.nothing rfl rfl
  · intro replayed counters
    refine ⟨_, rfl, ⟨?_, counters.behind, counters.caught⟩, rfl, rfl⟩
    exact congrArg (· + 1) counters.pnlSeq

private theorem openRows_any
    (perm : (visit live.positions.allPositions).Perm live.positions.allPositions)
    (test : Position → Bool) :
    (∃ position ∈ live.openRows visit, test position = true) ↔
      (live.positions.allPositions.any fun position => !position.size.isZero && test position) =
        true := by
  simp only [openRows, List.mem_filter, perm.mem_iff, List.any_eq_true, Bool.and_eq_true,
    and_assoc]

private theorem tickSkipped_iff
    (perm : (visit live.positions.allPositions).Perm live.positions.allPositions) :
    live.tickSkipped = true ↔ live.openRows visit ≠ [] ∧ live.markPrice = 0 := by
  have opened := openRows_any perm fun _ => true
  simp only [and_true, Bool.and_true] at opened
  rw [tickSkipped, Bool.and_eq_true, Decimal128.isZero_iff, ← opened, and_comm, ne_eq,
    List.eq_nil_iff_forall_not_mem, not_forall]
  simp only [not_not]

private theorem recounts_tick (ready : live.LiveReady credits)
    (perm : (visit live.positions.allPositions).Perm live.positions.allPositions)
    (rate : Decimal128) (timestamp : UnixMicros) :
    Recounts before live (live.fundedState (live.openRows visit) rate timestamp).2
      (if live.tickSkipped then before else live.tickPays rate)
      (live.fundedState (live.openRows visit) rate timestamp).1 := by
  rw [fundedState]
  by_cases skipped : live.openRows visit ≠ [] ∧ live.markPrice = 0
  · rw [if_pos skipped, if_pos ((tickSkipped_iff perm).2 skipped)]
    exact Recounts.nothing rfl rfl
  · rw [if_neg skipped, if_neg (mt (tickSkipped_iff perm).1 skipped)]
    intro replayed counters
    let settled := settledPositions (live.fundingPeriodId + 1) live.markPrice rate timestamp
      live.ledger (live.openRows visit)
    have leavesFact : settled.2 ≠ [] ↔ live.tickPays rate = true :=
      (settledPositions_facts ready.money.sound).trans (openRows_any perm _)
    obtain ⟨final, followed, pnlSeq, period, positions, mark⟩ :=
      follow_tickFacts settledPositions_fact replayed
    have behind := counters.behind
    refine ⟨final, followed, ⟨pnlSeq.trans counters.pnlSeq, ?_, ?_⟩, positions, mark⟩
    · change final.fundingPeriodId ≤ live.fundingPeriodId + 1
      rw [period]
      split <;> omega
    · change final.fundingPeriodId = live.fundingPeriodId + 1 ↔ _
      rw [← leavesFact, period]
      split
      · rename_i noFact
        exact ⟨fun caught => by omega, fun fact => absurd noFact fact⟩
      · rename_i fact
        exact ⟨fun _ => fact, fun _ => by omega⟩

/-- Consuming an event keeps the processor ready and the counters matched. -/
theorem consumedState_recounts (ready : live.LiveReady credits)
    (perm : (visit live.positions.allPositions).Perm live.positions.allPositions)
    (timestamp : UnixMicros) (before : Bool) (event : Event) :
    (live.consumedState visit timestamp event).1.LiveReady credits ∧
      Recounts before live (live.consumedState visit timestamp event).2
        (live.recordedAfter before event) (live.consumedState visit timestamp event).1 := by
  cases event with
  | orderFilled filled =>
      obtain ⟨pnl, positions, applied, directed, -⟩ := PositionManager.applyFill_spec ready.directed
        filled.userId filled.symbol filled.side filled.fillQty filled.fillPrice
      have money := (reproduces_filledState ready.money filled pnl positions timestamp).2
      have keyed : positions.Keyed := ready.keyed.applyFill applied
      have moved : (live.filledState filled pnl positions timestamp).1.positions = positions := by
        rw [filledState]
        split <;> rfl
      simp only [consumedState, applied]
      exact ⟨⟨money, by rwa [moved], by rwa [moved]⟩, recounts_fill filled pnl positions timestamp⟩
  | fundingRateUpdate _ rate _ =>
      have money := ready.money.fundedState (live.openRows visit) rate timestamp
      have kept : (live.fundedState (live.openRows visit) rate timestamp).1.positions =
          live.positions := by
        rw [fundedState]
        split <;> rfl
      refine ⟨⟨money, ?_, ?_⟩, recounts_tick ready perm rate timestamp⟩
      · simpa only [consumedState, kept] using ready.directed
      · simpa only [consumedState, kept] using ready.keyed
  | markPriceUpdate _ markPrice _ _ =>
      exact ⟨⟨⟨ready.money.sound, ready.money.keys⟩, ready.directed, ready.keyed⟩,
        Recounts.nothing rfl rfl⟩
  | _ => exact ⟨ready, Recounts.nothing rfl rfl⟩

/-! ## Batches -/

/-- Whether the period is recorded after a batch. -/
def batchRecorded (order : IterationOrder) (timestamp : UnixMicros) :
    PostTradeProcessor → Bool → List Event → Bool
  | _, recorded, [] => recorded
  | processor, recorded, event :: rest =>
      match processor.consumeEvent (order.visit 0) timestamp event with
      | .error _ => recorded
      | .ok (next, _) =>
          batchRecorded order.later timestamp next (processor.recordedAfter recorded event) rest

private theorem consume_recounts (ready : live.LiveReady credits) (events : List Event)
    (order : IterationOrder) (timestamp : UnixMicros) (before : Bool) :
    consume order timestamp live events = .ok (consumedBatch order timestamp live events) ∧
      (consumedBatch order timestamp live events).1.LiveReady credits ∧
      Recounts before live (consumedBatch order timestamp live events).2
        (batchRecorded order timestamp live before events)
        (consumedBatch order timestamp live events).1 := by
  induction events generalizing live order before with
  | nil => exact ⟨rfl, ready, Recounts.nothing rfl rfl⟩
  | cons event rest inductionHypothesis =>
      have perm := order.perm 0 live.positions.allPositions
      have here : live.consumeEvent (order.visit 0) timestamp event =
          .ok (live.consumedState (order.visit 0) timestamp event) :=
        consumeEvent_live ready perm timestamp
      obtain ⟨next, recounts⟩ := consumedState_recounts ready perm timestamp before event
      obtain ⟨later, final, recountsLater⟩ := inductionHypothesis next order.later
        (live.recordedAfter before event)
      refine ⟨by simp only [consume, here, later, consumedBatch], final, ?_⟩
      rw [batchRecorded, here]
      exact recounts.append recountsLater

/-- A replayed processor with the positions and the counters of the live one. -/
structure SameCounters (recorded : Bool) (live replayed : PostTradeProcessor) : Prop where
  counters : CountersMatch recorded live replayed
  positions : replayed.positions = live.positions
  markPrice : replayed.markPrice = live.markPrice

theorem SameCounters.batch {replayed : PostTradeProcessor}
    (same : SameCounters before live replayed) (ready : live.LiveReady credits)
    {events : List Event} (noFact : ∀ event ∈ events, event.isFact = false)
    (order : IterationOrder) (timestamp : UnixMicros) :
    ∃ final, follow applyEvent replayed
        (events ++ (consumedBatch order timestamp live events).2) = .ok final ∧
      SameCounters (batchRecorded order timestamp live before events)
        (consumedBatch order timestamp live events).1 final := by
  have recounts := (consume_recounts ready events order timestamp before).2.2
  have view := consumedBatch_projected order timestamp live events
  let view' := events.foldl projected (replayed.positions, replayed.markPrice)
  let positioned : PostTradeProcessor :=
    { replayed with positions := view'.1, markPrice := view'.2 }
  have directed : replayed.positions.Directed := by
    rw [same.positions]
    exact ready.directed
  have followed : follow applyEvent replayed events = .ok positioned :=
    follow_projected directed noFact
  have sameView : view' = ((consumedBatch order timestamp live events).1.positions,
      (consumedBatch order timestamp live events).1.markPrice) := by
    rw [view, ← same.positions, ← same.markPrice]
  have counters : CountersMatch before live positioned :=
    ⟨same.counters.pnlSeq, same.counters.behind, same.counters.caught⟩
  obtain ⟨final, followedFacts, matching, positions, markPrice⟩ := recounts positioned counters
  refine ⟨final, by rw [follow_append_of_ok followed, followedFacts], matching, ?_, ?_⟩
  · exact positions.trans (congrArg Prod.fst sameView)
  · exact markPrice.trans (congrArg Prod.snd sameView)

theorem SameCounters.credit {replayed : PostTradeProcessor}
    (same : SameCounters before live replayed) (userId : UserId) (amount : Decimal128)
    (key : String) (timestamp : UnixMicros) :
    ∃ final, follow applyEvent replayed [.adminCredited userId amount key timestamp] = .ok final ∧
      SameCounters before (live.creditedState userId amount key timestamp) final := by
  cases credited : (replayed.ledger.getOrCreateAccount userId).deposit userId amount key
      timestamp with
  | error error =>
      refine ⟨{ replayed with ledger := replayed.ledger.getOrCreateAccount userId }, ?_,
        ⟨same.counters.pnlSeq, same.counters.behind, same.counters.caught⟩, same.positions,
        same.markPrice⟩
      simp only [follow, applyEvent, credited]
  | ok ledger =>
      refine ⟨{ replayed with ledger := ledger }, ?_,
        ⟨same.counters.pnlSeq, same.counters.behind, same.counters.caught⟩, same.positions,
        same.markPrice⟩
      simp only [follow, applyEvent, credited]

end PostTradeProcessor

/-! ## Whole runs -/

open PostTradeProcessor

/-- Batches of engine events, and the credits the gateway lets through. -/
def ClearingInput.FromOutside : ClearingInput → Prop
  | .batch events _ => ∀ event ∈ events, event.isFact = false
  | .adminCredit _ amount key _ => 0 < amount ∧ GatewayKey key

/-- Handle the inputs one after another.  Returns the log. -/
def handleAll : PostTradeProcessor → List (IterationOrder × ClearingInput) →
    Except ClearingPanic (PostTradeProcessor × List Event)
  | processor, [] => .ok (processor, [])
  | processor, (order, input) :: rest =>
      match input.handle order processor with
      | .error panic => .error panic
      | .ok (next, facts) =>
          match handleAll next rest with
          | .error panic => .error panic
          | .ok (final, log) => .ok (final, input.records facts ++ log)

/-- Whether the last funding tick that advanced the period found somebody who pays or is
paid, or there was no such tick. -/
def periodRecorded : PostTradeProcessor → Bool → List (IterationOrder × ClearingInput) → Bool
  | _, recorded, [] => recorded
  | processor, recorded, (order, input) :: rest =>
      let now :=
        match input with
        | .batch events timestamp => batchRecorded order timestamp processor recorded events
        | .adminCredit .. => recorded
      match input.handle order processor with
      | .error _ => now
      | .ok (next, _) => periodRecorded next now rest

private theorem sameCounters_run {inputs : List (IterationOrder × ClearingInput)}
    {live replayed : PostTradeProcessor} {credits : List String} {recorded : Bool}
    (ready : live.LiveReady credits) (same : SameCounters recorded live replayed)
    (fromOutside : ∀ input ∈ inputs, input.2.FromOutside)
    (distinct : (credits ++ inputs.filterMap fun input => input.2.creditKey).Nodup) :
    ∃ final log restored, handleAll live inputs = .ok (final, log) ∧
      follow applyEvent replayed log = .ok restored ∧
      SameCounters (periodRecorded live recorded inputs) final restored := by
  induction inputs generalizing live replayed credits recorded with
  | nil => exact ⟨live, [], replayed, rfl, rfl, same⟩
  | cons head rest inductionHypothesis =>
      obtain ⟨order, input⟩ := head
      have mine : input.FromOutside := fromOutside _ List.mem_cons_self
      have others : ∀ input ∈ rest, input.2.FromOutside :=
        fun other member => fromOutside other (List.mem_cons_of_mem _ member)
      cases input with
      | batch events timestamp =>
          obtain ⟨handled, readyNext, -⟩ :=
            consume_recounts ready events order timestamp recorded
          obtain ⟨middle, followed, sameNext⟩ := same.batch ready mine order timestamp
          obtain ⟨final, log, restored, handledRest, followedRest, sameRest⟩ :=
            inductionHypothesis readyNext sameNext others distinct
          refine ⟨final, events ++ (consumedBatch order timestamp live events).2 ++ log, restored,
            ?_, ?_, ?_⟩
          · simp only [handleAll, ClearingInput.handle, handled, handledRest,
              ClearingInput.records]
          · rw [follow_append_of_ok followed, followedRest]
          · simpa only [periodRecorded, ClearingInput.handle, handled] using sameRest
      | adminCredit userId amount key timestamp =>
          have keys : (credits ++ [key] ++
              rest.filterMap fun input => input.2.creditKey).Nodup := by
            simpa [ClearingInput.creditKey] using distinct
          have unused : key ∉ credits := by
            intro member
            have initial := (List.nodup_append.1 keys).1
            exact (List.nodup_append.1 initial).2.2 key member key List.mem_cons_self rfl
          have handled : live.handleAdminCredit userId amount key timestamp =
              .ok (live.creditedState userId amount key timestamp,
                [.adminCredited userId amount key timestamp]) :=
            handleAdminCredit_eq ready.money mine.1 mine.2 unused timestamp
          have readyNext : (live.creditedState userId amount key timestamp).LiveReady
              (credits ++ [key]) :=
            ⟨creditedState_ready ready.money mine.1 mine.2 timestamp, ready.directed, ready.keyed⟩
          obtain ⟨middle, followed, sameNext⟩ := same.credit userId amount key timestamp
          obtain ⟨final, log, restored, handledRest, followedRest, sameRest⟩ :=
            inductionHypothesis readyNext sameNext others keys
          refine ⟨final, [.adminCredited userId amount key timestamp] ++ log, restored, ?_, ?_, ?_⟩
          · simp only [handleAll, ClearingInput.handle, handled, handledRest,
              ClearingInput.records]
          · rw [follow_append_of_ok followed, followedRest]
          · simpa only [periodRecorded, ClearingInput.handle, handled] using sameRest

/-- Replaying the log of a run restores `pnl_seq`, and it restores `funding_period_id`
exactly if the last tick that advanced it left a fact. -/
theorem replay_counters (inputs : List (IterationOrder × ClearingInput))
    (fromOutside : ∀ input ∈ inputs, input.2.FromOutside)
    (distinct : (inputs.filterMap fun input => input.2.creditKey).Nodup) :
    ∃ live log replayed, handleAll .new inputs = .ok (live, log) ∧
      follow applyEvent .new log = .ok replayed ∧ replayed.pnlSeq = live.pnlSeq ∧
      (replayed.fundingPeriodId = live.fundingPeriodId ↔
        periodRecorded .new true inputs = true) := by
  have start : SameCounters true PostTradeProcessor.new PostTradeProcessor.new :=
    ⟨⟨rfl, le_rfl, by simp⟩, rfl, rfl⟩
  obtain ⟨live, log, replayed, handled, followed, same⟩ :=
    sameCounters_run liveReady_new start fromOutside distinct
  exact ⟨live, log, replayed, handled, followed, same.counters.pnlSeq, same.counters.caught⟩

/-- A credited user buys and pays funding. -/
def paidTickInputs : List (IterationOrder × ClearingInput) :=
  [(.stored, .adminCredit 7 (.ofInt 100) (adminCreditKey 7 0 0) 0),
    (.stored, .batch [ClearingRun.tradedFill 7 .buy 10,
      .markPriceUpdate 1 (.ofInt 10) (.ofInt 10) 1] 1),
    (.stored, .batch [.fundingRateUpdate 1 ⟨1000000000000000⟩ 2] 2)]

theorem replay_counters_paidTick :
    ∃ live log replayed, handleAll .new paidTickInputs = .ok (live, log) ∧
      follow applyEvent .new log = .ok replayed ∧
      replayed.fundingPeriodId = live.fundingPeriodId := by
  have fromOutside : ∀ input ∈ paidTickInputs, input.2.FromOutside := by
    intro input member
    simp only [paidTickInputs, List.mem_cons, List.not_mem_nil, or_false] at member
    rcases member with rfl | rfl | rfl
    · exact ⟨by decide, 7, 0, 0, rfl⟩
    · intro event member
      simp only [List.mem_cons, List.not_mem_nil, or_false] at member
      rcases member with rfl | rfl <;> rfl
    · intro event member
      rw [List.mem_singleton.1 member]
      rfl
  obtain ⟨live, log, replayed, handled, followed, -, caught⟩ :=
    replay_counters paidTickInputs fromOutside (by decide +kernel)
  exact ⟨live, log, replayed, handled, followed, caught.2 (by decide +kernel)⟩

/-- A funding tick while there is no open position. -/
def emptyTickInputs : List (IterationOrder × ClearingInput) :=
  [(.stored, .batch [.fundingRateUpdate 1 0 1] 1)]

/-- It advances the period and leaves no fact. -/
theorem replay_counters_emptyTick :
    ¬∀ (inputs : List (IterationOrder × ClearingInput)) (live replayed : PostTradeProcessor)
      (log : List Event), handleAll .new inputs = .ok (live, log) →
      follow applyEvent .new log = .ok replayed →
      replayed.fundingPeriodId = live.fundingPeriodId := by
  intro restores
  have claimed := restores emptyTickInputs { PostTradeProcessor.new with fundingPeriodId := 1 }
    .new [.fundingRateUpdate 1 0 1] rfl rfl
  exact absurd claimed (by decide)

end Exg
