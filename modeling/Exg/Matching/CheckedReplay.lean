import Exg.Matching.CheckedCommands
import Exg.Matching.Replay
import Exg.Support.Overflow

/-!
# Replay, with its panics

`apply_event` of the engine as it runs when every operator may panic.
-/

namespace Exg

open Support

/-- What an acceptance lets the replay compute: the expiry and the hidden quantity. -/
def rebuiltOrder? (accepted : OrderAccepted) : Option BookOrder := do
  let _ ← defaultExpiry? accepted.timeInForce accepted.timestamp
  let _ ← accepted.visibleQuantity.elim (some 0) accepted.quantity.sub?
  some (rebuiltOrder accepted)

namespace MatchingEngine

variable (engine : MatchingEngine)

def applyAccepted? (accepted : OrderAccepted) : Option (Except ApplyError MatchingEngine) :=
  let applied := engine.applyAccepted accepted
  if (engine.orderbook.getOrder accepted.orderId).isSome then
    some applied
  else do
    let order ← rebuiltOrder? accepted
    if accepted.orderType.isConditional then
      some applied
    else
      (engine.orderbook.insertOrder? order).map fun _ => applied

def applyCanceled? (orderId : OrderId) : Option (Except ApplyError MatchingEngine) :=
  (engine.orderbook.removeOrder? orderId).map fun _ => engine.applyCanceled orderId

def applyFilled? (filled : OrderFilled) : Option (Except ApplyError MatchingEngine) :=
  let applied := engine.applyFilled filled
  match engine.orderbook.getOrder filled.orderId with
  | some existing =>
      if existing.remainingQty < filled.fillQty then
        some applied
      else if filled.remainingQty.isZero then
        (engine.orderbook.removeOrder? filled.orderId).map fun _ => applied
      else
        (engine.orderbook.updateQty? filled.orderId filled.remainingQty).map fun _ => applied
  | none =>
      match engine.stopOrders.find? fun stop => stop.orderId = filled.orderId with
      | none => some applied
      | some order =>
          let promoted := convertTriggered order
          if order.remainingQty < filled.fillQty then
            some applied
          else if !filled.remainingQty.isZero && promoted.orderType.isLimit then
            (engine.orderbook.insertOrder? (promoted.withRemaining filled.remainingQty)).map
              fun _ => applied
          else
            some applied

def applyEvent? : Event → Option (Except ApplyError MatchingEngine)
  | .orderAccepted accepted => engine.applyAccepted? accepted
  | .orderCanceled orderId _ _ _ _ => engine.applyCanceled? orderId
  | .orderFilled filled => engine.applyFilled? filled
  | event => some (engine.applyEvent event)

/-- A result that does not depend on what was computed for it. -/
theorem agrees_computed {α : Type} (outcome : Option α)
    (applied : Except ApplyError MatchingEngine) :
    Agrees (outcome.map fun _ => applied) applied := by
  intro result found
  obtain ⟨_, -, same⟩ := Option.map_eq_some_iff.1 found
  exact same.symm

private theorem agrees_applyFilled (filled : OrderFilled) :
    Agrees (engine.applyFilled? filled) (engine.applyFilled filled) := by
  rw [applyFilled?]
  cases engine.orderbook.getOrder filled.orderId with
  | some existing =>
      dsimp only
      split
      · exact .pure _
      · split <;> exact agrees_computed _ _
  | none =>
      dsimp only
      cases engine.stopOrders.find? fun stop => stop.orderId = filled.orderId with
      | none => exact .pure _
      | some order =>
          dsimp only
          split
          · exact .pure _
          · split
            · exact agrees_computed _ _
            · exact .pure _

theorem agrees_applyEvent (event : Event) :
    Agrees (engine.applyEvent? event) (engine.applyEvent event) := by
  cases event with
  | orderAccepted accepted =>
      rw [applyEvent?, applyAccepted?]
      split
      · exact .pure _
      · refine .after fun _ => ?_
        split
        · exact .pure _
        · exact agrees_computed _ _
  | orderCanceled orderId userId symbol remaining timestamp => exact agrees_computed _ _
  | orderFilled filled => exact engine.agrees_applyFilled filled
  | _ => exact .pure _

end MatchingEngine
end Exg
