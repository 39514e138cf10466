import Exg.Clearing.OpenInterest

/-!
# Clearing keeps the ledger sound

The live path, admin credits and the replay of records may be mixed in any order.  None of
them stops the processor, and after each of them the checks of the ledger pass.  Positions
keep a positive size, so that the one division by a position's size is defined.
-/

namespace Exg

/-! ## Positions have a size -/

namespace PositionManager

/-- No position of size zero, or below, is stored. -/
def Sized (manager : PositionManager) : Prop :=
  ∀ userId symbol position, manager.getPosition userId symbol = some position →
    0 < position.size

theorem sized_new : new.Sized := by
  simp [Sized, new, getPosition]

variable {manager : PositionManager} {userId : UserId} {symbol : SymbolId}

theorem Sized.insert (sized : manager.Sized) {position : Position} (positive : 0 < position.size) :
    Sized ⟨manager.positions.insert (userId, symbol) position⟩ :=
  everyPosition_insert sized positive

theorem Sized.erase (sized : manager.Sized) :
    Sized ⟨manager.positions.erase (userId, symbol)⟩ :=
  everyPosition_erase sized

theorem Sized.openOrIncrease (sized : manager.Sized) {quantity : Decimal128}
    (positive : 0 < quantity) (side : PositionSide) (price leverage : Decimal128)
    (marginMode : MarginMode) :
    (manager.openOrIncrease userId symbol side quantity price leverage marginMode).Sized := by
  refine sized.insert ?_
  cases found : manager.getPosition userId symbol with
  | none => exact add_pos_of_nonneg_of_pos le_rfl positive
  | some position => exact add_pos (sized userId symbol position found) positive

theorem Sized.reduceOrClose (sized : manager.Sized) {quantity exitPrice pnl : Decimal128}
    {reduced : PositionManager}
    (outcome : manager.reduceOrClose userId symbol quantity exitPrice = .ok (pnl, reduced)) :
    reduced.Sized := by
  obtain ⟨position, found, within, ⟨-, rfl⟩ | ⟨remains, rfl⟩⟩ := reduceOrClose_ok outcome
  · exact sized.erase
  · exact sized.insert (lt_of_le_of_ne (sub_nonneg.2 within) remains.symm)

theorem Sized.applyFill (sized : manager.Sized) {side : Side} {quantity price pnl : Decimal128}
    {next : PositionManager} (positive : 0 < quantity)
    (applied : manager.applyFill userId symbol side quantity price = .ok (pnl, next)) :
    next.Sized := by
  rcases applyFill_ok applied with rfl | ⟨_, reduced, outcome, rfl | ⟨leftover, rfl⟩⟩
  · exact sized.openOrIncrease positive _ _ _ _
  · exact sized.reduceOrClose outcome
  · exact (sized.reduceOrClose outcome).openOrIncrease leftover _ _ _ _

end PositionManager

namespace PostTradeProcessor

open PositionManager (Sized)

variable {processor : PostTradeProcessor}

/-! ## Calls of the processor -/

/-- What the server calls the processor with. -/
inductive PostTradeCall where
  | consume (order : IterationOrder) (timestamp : UnixMicros) (events : List Event)
  | handleAdminCredit (userId : UserId) (amount : Decimal128) (idempotencyKey : String)
      (timestamp : UnixMicros)
  | applyEvent (event : Event)

/-- Fills have a positive quantity. -/
def PositiveFill : Event → Prop
  | .orderFilled filled => 0 < filled.fillQty
  | _ => True

/-- Fills and live credits are positive; nothing is asked of the other arguments. -/
def PostTradeCall.Admissible : PostTradeCall → Prop
  | .consume _ _ events => ∀ event ∈ events, PositiveFill event
  | .handleAdminCredit _ amount _ _ => 0 < amount
  | .applyEvent event => PositiveFill event

/-- Answer one call.  Returns the emitted facts. -/
def answer (processor : PostTradeProcessor) :
    PostTradeCall → Except ClearingPanic (PostTradeProcessor × List Event)
  | .consume order timestamp events => consume order timestamp processor events
  | .handleAdminCredit userId amount idempotencyKey timestamp =>
      processor.handleAdminCredit userId amount idempotencyKey timestamp
  | .applyEvent event =>
      match processor.applyEvent event with
      | .error panic => .error panic
      | .ok next => .ok (next, [])

/-- Answer calls until one of them panics. -/
def answerAll : PostTradeProcessor → List PostTradeCall → Except ClearingPanic PostTradeProcessor
  | processor, [] => .ok processor
  | processor, call :: rest =>
      match processor.answer call with
      | .error panic => .error panic
      | .ok (next, _) => answerAll next rest

/-! ## One call -/

theorem settleRealizedPnl_positions {moved pnl : Decimal128} {settled : PostTradeProcessor}
    {userId : UserId} {symbol : SymbolId} {seqTag : Nat} {timestamp : UnixMicros}
    (outcome : processor.settleRealizedPnl userId symbol pnl seqTag timestamp =
      .ok (moved, settled)) : settled.positions = processor.positions := by
  simp only [settleRealizedPnl] at outcome
  split at outcome
  · cases outcome
    rfl
  · split at outcome
    · cases outcome
      rfl
    · split at outcome
      · cases outcome
      · cases outcome
        rfl

private theorem applyFillToPosition_sized (sized : processor.positions.Sized) {filled : OrderFilled}
    (positive : 0 < filled.fillQty) {pnl : Decimal128} {positioned : PostTradeProcessor}
    (applied : processor.applyFillToPosition filled = .ok (pnl, positioned)) :
    positioned.positions.Sized := by
  rw [applyFillToPosition] at applied
  split at applied
  · cases applied
  · rename_i moved positions outcome
    cases applied
    exact sized.applyFill positive outcome

private theorem consumeFill_sized (sized : processor.positions.Sized) {filled : OrderFilled}
    (positive : 0 < filled.fillQty) {timestamp : UnixMicros} {next : PostTradeProcessor}
    {facts : List Event} (outcome : processor.consumeFill filled timestamp = .ok (next, facts)) :
    next.positions.Sized := by
  rw [consumeFill] at outcome
  split at outcome
  · cases outcome
  · rename_i pnl positioned applied
    have sizedPositioned := applyFillToPosition_sized sized positive applied
    split at outcome
    · cases outcome
      exact sizedPositioned
    · dsimp only at outcome
      split at outcome
      · cases outcome
      · rename_i moved settled settling
        rw [← settleRealizedPnl_positions settling] at sizedPositioned
        split at outcome <;> cases outcome <;> exact sizedPositioned

theorem settleFunding_positions {visit : List Position → List Position} {rate : Decimal128}
    {timestamp : UnixMicros} {next : PostTradeProcessor} {facts : List Event}
    (outcome : processor.settleFunding visit rate timestamp = .ok (next, facts)) :
    next.positions = processor.positions := by
  simp only [settleFunding] at outcome
  split at outcome
  · cases outcome
    rfl
  · split at outcome
    · cases outcome
    · split at outcome
      · cases outcome
      · cases outcome
        rfl

private theorem consumeEvent_sized (sized : processor.positions.Sized) {event : Event}
    (positive : PositiveFill event) {visit : List Position → List Position}
    {timestamp : UnixMicros} {next : PostTradeProcessor} {facts : List Event}
    (outcome : processor.consumeEvent visit timestamp event = .ok (next, facts)) :
    next.positions.Sized := by
  cases event with
  | orderFilled filled => exact consumeFill_sized sized positive outcome
  | fundingRateUpdate symbol rate stamped => rwa [settleFunding_positions outcome]
  | _ =>
      simp only [consumeEvent, Except.ok.injEq, Prod.mk.injEq] at outcome
      rw [← outcome.1]
      exact sized

private theorem consume_sized {events : List Event}
    (positive : ∀ event ∈ events, PositiveFill event)
    {order : IterationOrder} {timestamp : UnixMicros} {next : PostTradeProcessor}
    {facts : List Event} (sized : processor.positions.Sized)
    (outcome : consume order timestamp processor events = .ok (next, facts)) :
    next.positions.Sized := by
  induction events generalizing processor order facts with
  | nil =>
      cases outcome
      exact sized
  | cons event rest inductionHypothesis =>
      rw [consume] at outcome
      split at outcome
      · cases outcome
      · rename_i middle emitted consumed
        have sizedMiddle := consumeEvent_sized sized (positive event List.mem_cons_self) consumed
        split at outcome
        · cases outcome
        · rename_i final later laterOutcome
          cases outcome
          exact inductionHypothesis
            (fun other member => positive other (List.mem_cons_of_mem event member))
            sizedMiddle laterOutcome

/-- A live credit of a positive amount is booked, or already was. -/
theorem handleAdminCredit_sound (sound : processor.ledger.Sound) {amount : Decimal128}
    (positive : 0 < amount) (userId : UserId) (key : String) (timestamp : UnixMicros) :
    ∃ ledger, processor.handleAdminCredit userId amount key timestamp =
      .ok ({ processor with ledger := ledger }, [.adminCredited userId amount key timestamp]) ∧
        ledger.Sound := by
  have opened := sound.getOrCreateAccount userId
  by_cases used : key ∈ (processor.ledger.getOrCreateAccount userId).idempotencyKeys
  · refine ⟨processor.ledger.getOrCreateAccount userId, ?_, opened⟩
    rw [handleAdminCredit, Ledger.deposit, if_neg (by simpa using positive), if_pos used]
  · refine ⟨_, ?_, opened.deposited positive userId key timestamp⟩
    rw [handleAdminCredit, Ledger.deposit_eq _ positive used]

/-- A replayed settlement never stops, and keeps the ledger sound. -/
theorem sound_resettled {ledger : Ledger} (sound : ledger.Sound) (userId : UserId)
    (signed : Decimal128) (key : String) (timestamp : UnixMicros) :
    ((ledger.getOrCreateAccount userId).settleRealizedPnlCapped userId signed key
      timestamp).1.Sound := by
  obtain ⟨account, known⟩ := ledger.getOrCreateAccount_known userId
  obtain ⟨settled, moved, outcome, soundSettled⟩ :=
    (sound.getOrCreateAccount userId).settleRealizedPnlCapped known signed key timestamp
  rw [outcome]
  exact soundSettled

/-- A replayed credit keeps the ledger sound, whatever its amount. -/
theorem sound_recredited {ledger credited : Ledger} (sound : ledger.Sound) {userId : UserId}
    {amount : Decimal128} {key : String} {timestamp : UnixMicros}
    (outcome : ledger.deposit userId amount key timestamp = .ok credited) : credited.Sound := by
  by_cases positive : 0 < amount
  · by_cases used : key ∈ ledger.idempotencyKeys
    · rw [Ledger.deposit, if_neg (by simpa using positive), if_pos used] at outcome
      cases outcome
      exact sound
    · rw [Ledger.deposit_eq _ positive used] at outcome
      cases outcome
      exact sound.deposited positive userId key timestamp
  · rw [Ledger.deposit, if_pos (by simp [Decimal128.isPositive, positive])] at outcome
    cases outcome

private theorem applyEvent_solid (solid : processor.Solid) (sized : processor.positions.Sized)
    {event : Event} (positive : PositiveFill event) :
    ∃ next, processor.applyEvent event = .ok next ∧ next.Solid ∧ next.positions.Sized := by
  cases event with
  | orderFilled filled =>
      obtain ⟨pnl, positions, applied, directed, -⟩ := PositionManager.applyFill_spec
        solid.directed filled.userId filled.symbol filled.side filled.fillQty filled.fillPrice
      have fill : processor.applyFillToPosition filled =
          .ok (pnl, { processor with positions := positions }) := by
        rw [applyFillToPosition, applied]
      refine ⟨{ processor with positions := positions }, by rw [applyEvent, fill],
        ⟨solid.ledger, directed⟩, applyFillToPosition_sized sized positive fill⟩
  | adminCredited userId amount key timestamp =>
      have opened := solid.ledger.getOrCreateAccount userId
      simp only [applyEvent]
      split
      · exact ⟨_, rfl, ⟨opened, solid.directed⟩, sized⟩
      · rename_i credited outcome
        exact ⟨_, rfl, ⟨sound_recredited opened outcome, solid.directed⟩, sized⟩
  | realizedPnl userId symbol amount timestamp =>
      exact ⟨_, rfl, ⟨sound_resettled solid.ledger userId _ _ _, solid.directed⟩, sized⟩
  | fundingSettled userId symbol period amount timestamp =>
      exact ⟨_, rfl, ⟨sound_resettled solid.ledger userId _ _ _, solid.directed⟩, sized⟩
  | markPriceUpdate symbol markPrice indexPrice timestamp =>
      exact ⟨_, rfl, ⟨solid.ledger, solid.directed⟩, sized⟩
  | _ => exact ⟨processor, rfl, solid, sized⟩

private theorem answer_solid (solid : processor.Solid) (sized : processor.positions.Sized)
    {call : PostTradeCall} (admissible : call.Admissible) :
    ∃ next facts, processor.answer call = .ok (next, facts) ∧ next.Solid ∧
      next.positions.Sized := by
  cases call with
  | consume order timestamp events =>
      obtain ⟨next, facts, outcome, solidNext, -⟩ := consume_spec solid order timestamp events
      exact ⟨next, facts, outcome, solidNext, consume_sized admissible sized outcome⟩
  | handleAdminCredit userId amount key timestamp =>
      obtain ⟨ledger, outcome, sound⟩ :=
        handleAdminCredit_sound solid.ledger admissible userId key timestamp
      exact ⟨_, _, outcome, ⟨sound, solid.directed⟩, sized⟩
  | applyEvent event =>
      obtain ⟨next, outcome, solidNext, sizedNext⟩ := applyEvent_solid solid sized admissible
      exact ⟨next, [], by rw [answer, outcome], solidNext, sizedNext⟩

/-! ## Every run -/

private theorem answerAll_solid {calls : List PostTradeCall} (solid : processor.Solid)
    (sized : processor.positions.Sized) (admissible : ∀ call ∈ calls, call.Admissible) :
    ∃ final, answerAll processor calls = .ok final ∧ final.Solid ∧ final.positions.Sized := by
  induction calls generalizing processor with
  | nil => exact ⟨processor, rfl, solid, sized⟩
  | cons call rest inductionHypothesis =>
      obtain ⟨next, facts, outcome, solidNext, sizedNext⟩ :=
        answer_solid solid sized (admissible call List.mem_cons_self)
      obtain ⟨final, later, kept⟩ := inductionHypothesis solidNext sizedNext
        fun other member => admissible other (List.mem_cons_of_mem call member)
      exact ⟨final, by simp only [answerAll, outcome, later], kept⟩

/-- Whatever calls have been made, none of them stopped the processor, the ledger passes its
checks, no Funding balance is negative and no position has size zero. -/
theorem clearing_keeps_sound (calls : List PostTradeCall)
    (admissible : ∀ call ∈ calls, call.Admissible) :
    ∃ processor, answerAll .new calls = .ok processor ∧
      processor.ledger.verifyAllInvariants = .ok () ∧
      (∀ userId, 0 ≤ processor.ledger.fundingBalance userId) ∧
      processor.positions.Sized := by
  obtain ⟨processor, answered, solid, sized⟩ :=
    answerAll_solid solid_new PositionManager.sized_new admissible
  exact ⟨processor, answered, solid.ledger.verifyAllInvariants,
    solid.ledger.fundingBalance_nonneg, sized⟩

/-- A buy and a sell of 1 at 100 and 90, and the credit that pays the loss. -/
def lossCalls : List PostTradeCall :=
  let fill (side : Side) (price : Decimal128) : Event :=
    .orderFilled ⟨1, 1, 7, 1, side, price, .one, false, 0, 5⟩
  [.handleAdminCredit 7 (.ofInt 100) "credit" 5,
    .consume .stored 6 [fill .buy (.ofInt 100), fill .sell (.ofInt 90)],
    .applyEvent (fill .buy (.ofInt 100))]

theorem clearing_keeps_sound_lossCalls :
    ∃ processor, answerAll .new lossCalls = .ok processor ∧
      processor.ledger.verifyAllInvariants = .ok () ∧
      (∀ userId, 0 ≤ processor.ledger.fundingBalance userId) ∧
      processor.positions.Sized := by
  refine clearing_keeps_sound lossCalls ?_
  simp only [lossCalls, List.forall_mem_cons, PostTradeCall.Admissible, PositiveFill,
    List.not_mem_nil, false_imp_iff, implies_true, and_true]
  decide

end PostTradeProcessor
end Exg
