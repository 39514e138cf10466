import Exg.Matching.Reachable
import Exg.OrderService.Indices

/-!
# Events that are delivered again

An event that is delivered twice in a row changes nothing the second time.  Delivered again later
it can: an acceptance makes an order active once more that has ended in between, and the end of an
order ends it once more when an amendment has put it back on the book.
-/

namespace Exg

open Support

/-- The order has moved on from being new, or it was stamped at this time and does not wait for a
trigger. -/
def Order.AcceptedAt (order : Order) (timestamp : UnixMicros) : Prop :=
  order.status ≠ .new ∨ order.fills ≠ [] ∨
    (order.orderType.isConditional = false ∧ order.updatedAt = timestamp)

namespace OrderService

/-- What the service has of an order makes it take an event without a change. -/
def Absorbs (service : OrderService) : Event → Prop
  | .orderAccepted accepted =>
      ∃ order, service.getOrder accepted.orderId = some order ∧
        order.AcceptedAt accepted.timestamp
  | .orderRejected orderId _ _ _ =>
      service.getOrder orderId = none ∧ ∃ order ∈ service.completedOrders, order.orderId = orderId
  | .orderFilled filled =>
      ∀ order, service.getOrder filled.orderId = some order →
        ∃ fill ∈ order.fills, fill.tradeId = filled.tradeId
  | .orderCanceled orderId _ _ _ _ => service.getOrder orderId = none
  | _ => True

section Exactly

variable {service : OrderService} {orderId : OrderId} {order : Order}

private theorem updateRecord_self (found : service.getOrder orderId = some order) :
    service.updateRecord orderId order = service := by
  have same : service.orders.insert orderId order = service.orders := by
    apply Std.ExtTreeMap.ext_getElem?
    intro other
    rw [Std.ExtTreeMap.getElem?_insert]
    split
    case isTrue own =>
      rw [← Std.LawfulEqCmp.eq_of_compare own]
      exact found.symm
    case isFalse => rfl
  rw [updateRecord, same]

/-- A record that is updated to another one is seen. -/
theorem eq_of_updateRecord_eq {updated : Order} (found : service.getOrder orderId = some order)
    (same : service.updateRecord orderId updated = service) : updated = order := by
  have seen : (service.updateRecord orderId updated).getOrder orderId = some updated :=
    getOrder_updated
  rw [same, found] at seen
  exact (Option.some_inj.1 seen).symm

private theorem insertRecord_ne (fresh : service.getOrder order.orderId = none) :
    service.insertRecord order ≠ service := by
  intro same
  have stored := getOrder_insertRecord service order order.orderId
  rw [same, fresh, if_pos rfl] at stored
  cases stored

private theorem completed_ne (found : service.getOrder orderId = some order) (updated : Order)
    (userId : UserId) :
    (service.updateRecord orderId updated).moveToCompleted orderId userId ≠ service := by
  intro same
  have gone := getOrder_completed service orderId updated orderId userId
  rw [same, found, if_pos rfl] at gone
  cases gone

/-- A record of an order that the history does not have changes the history. -/
theorem pushCompleted_ne
    (absent : ∀ completed ∈ service.completedOrders, completed.orderId ≠ order.orderId) :
    service.pushCompleted order ≠ service := by
  intro same
  have pushed : order ∈ (service.pushCompleted order).completedOrders :=
    List.mem_append_right _ List.mem_cons_self
  rw [same] at pushed
  exact absent order pushed rfl

private theorem accepted_eq_self_iff (accepted : OrderAccepted) :
    service.applyEvent (.orderAccepted accepted) = service ↔
      service.Absorbs (.orderAccepted accepted) := by
  rw [applyEvent, handleOrderAccepted, Absorbs]
  cases found : service.getOrder accepted.orderId with
  | none =>
      refine iff_of_false (insertRecord_ne ?_) (by simp)
      exact found
  | some order =>
      simp only [Option.some_inj, exists_eq_left', Order.AcceptedAt]
      by_cases settled : order.status ≠ .new ∨ order.fills ≠ []
      · rw [if_pos settled]
        exact iff_of_true rfl (or_assoc.1 (Or.inl settled))
      · rw [if_neg settled, ← or_assoc, or_iff_right settled]
        rw [not_or, not_not, not_not] at settled
        constructor
        · intro same
          have record := eq_of_updateRecord_eq found same
          have status := congrArg Order.status record
          refine ⟨?_, (congrArg Order.updatedAt record).symm⟩
          cases conditional : order.orderType.isConditional with
          | false => rfl
          | true => simp [conditional, settled.1] at status
        · rintro ⟨plain, stamped⟩
          rw [plain, ← stamped]
          exact updateRecord_self found

private theorem rejected_eq_self_iff (unfinished : service.Unfinished) (orderId : OrderId)
    (userId : UserId) (timestamp : UnixMicros) :
    service.handleOrderRejected orderId userId timestamp = service ↔
      service.getOrder orderId = none ∧
        ∃ order ∈ service.completedOrders, order.orderId = orderId := by
  rw [handleOrderRejected]
  cases found : service.getOrder orderId with
  | none =>
      dsimp only
      by_cases known : ∃ order ∈ service.completedOrders, order.orderId = orderId
      · rw [if_pos (by simpa using known)]
        exact iff_of_true rfl ⟨rfl, known⟩
      · rw [if_neg (by simpa using known)]
        refine iff_of_false (pushCompleted_ne fun completed member same => ?_) fun both =>
          known both.2
        exact known ⟨completed, member, same⟩
  | some order =>
      dsimp only
      rw [if_neg ((unfinished orderId).not_terminal found)]
      exact iff_of_false (completed_ne found _ userId) (by simp)

private theorem filled_eq_self_iff (unfinished : service.Unfinished) (filled : OrderFilled) :
    service.applyEvent (.orderFilled filled) = service ↔
      service.Absorbs (.orderFilled filled) := by
  rw [applyEvent, handleOrderFilled, Absorbs]
  cases found : service.getOrder filled.orderId with
  | none => simp
  | some order =>
      simp only [Option.some_inj, forall_eq']
      by_cases recorded : ∃ fill ∈ order.fills, fill.tradeId = filled.tradeId
      · rw [if_pos (by simpa using recorded)]
        exact iff_of_true rfl recorded
      · rw [if_neg (by simpa using recorded),
          if_neg ((unfinished filled.orderId).not_terminal found)]
        refine iff_of_false ?_ recorded
        split
        · exact completed_ne found _ order.userId
        · intro same
          have fills := congrArg Order.fills (eq_of_updateRecord_eq found same)
          simp [filledRecord] at fills

private theorem canceled_eq_self_iff (unfinished : service.Unfinished) (orderId : OrderId)
    (timestamp : UnixMicros) :
    service.handleOrderCanceled orderId timestamp = service ↔ service.getOrder orderId = none := by
  rw [handleOrderCanceled]
  cases found : service.getOrder orderId with
  | none => simp
  | some order =>
      dsimp only
      rw [if_neg ((unfinished orderId).not_terminal found)]
      exact iff_of_false (completed_ne found _ order.userId) (by simp)

/-- An event changes nothing exactly if what the service has of its order absorbs it. -/
theorem applyEvent_eq_self_iff (unfinished : service.Unfinished) (event : Event) :
    service.applyEvent event = service ↔ service.Absorbs event := by
  cases event with
  | orderAccepted accepted => exact accepted_eq_self_iff accepted
  | orderRejected orderId userId reason timestamp =>
      exact rejected_eq_self_iff unfinished orderId userId timestamp
  | orderFilled filled => exact filled_eq_self_iff unfinished filled
  | orderCanceled orderId userId symbol remainingQty timestamp =>
      exact canceled_eq_self_iff unfinished orderId timestamp
  | _ => exact iff_of_true rfl trivial

end Exactly

end OrderService

/-! ## What spares an event -/

/-- The input can make the order active. -/
def OrderInput.Opens (orderId : OrderId) : OrderInput → Prop
  | .create order => order.orderId = orderId
  | .event (.orderAccepted accepted) => accepted.orderId = orderId
  | _ => False

/-- The input ends the order, if it is active. -/
def OrderInput.Closes (orderId : OrderId) : OrderInput → Prop
  | .event (.orderRejected closed _ _ _) => closed = orderId
  | .event (.orderCanceled closed _ _ _ _) => closed = orderId
  | .event (.orderFilled filled) => filled.orderId = orderId ∧ filled.remainingQty.isZero = true
  | _ => False

/-- A later input does not undo what absorbs an event: it neither ends nor stamps the order of an
acceptance, and does not make the order of another event active again. -/
def OrderInput.Spares (input : OrderInput) : Event → Prop
  | .orderAccepted accepted => ¬ input.Closes accepted.orderId ∧
      ∀ later, input = .event (.orderAccepted later) → later.orderId = accepted.orderId →
        later.timestamp = accepted.timestamp
  | .orderRejected orderId _ _ _ => ¬ input.Opens orderId
  | .orderFilled filled => ¬ input.Opens filled.orderId
  | .orderCanceled orderId _ _ _ _ => ¬ input.Opens orderId
  | _ => True

namespace OrderService

/-! ## Runs -/

section Runs

variable {service : OrderService}

private theorem changes_step (unfinished : service.Unfinished) (input : OrderInput) :
    ∃ own, Changes own service (service.step input) := by
  cases input with
  | create order => exact ⟨True, changes_createOrder (.newOrder order)⟩
  | event event => exact ⟨_, changes_applyEvent unfinished event⟩

/-- What every reachable service keeps of its records. -/
structure Stores (service : OrderService) : Prop where
  unfinished : service.Unfinished
  keyed : service.Keyed

theorem stores_new (maxCompletedHistory : Nat) : (new maxCompletedHistory).Stores where
  unfinished := unfinished_new maxCompletedHistory
  keyed := keyed_new maxCompletedHistory

theorem Stores.step (stores : service.Stores) (input : OrderInput) :
    (service.step input).Stores := by
  obtain ⟨own, changes⟩ := changes_step stores.unfinished input
  exact ⟨stores.unfinished.changes changes, stores.keyed.changes changes⟩

theorem Stores.receive (stores : service.Stores) (inputs : List OrderInput) :
    (service.receive inputs).Stores := by
  induction inputs generalizing service with
  | nil => exact stores
  | cons input rest inductionHypothesis => exact inductionHypothesis (stores.step input)

private theorem getOrder_handleOrderAccepted_of_ne {orderId tested : OrderId}
    (other : orderId ≠ tested)
    (userId : UserId) (symbol : SymbolId) (clientOrderId : Option Nat) (timestamp : UnixMicros) :
    (service.handleOrderAccepted orderId userId symbol clientOrderId timestamp).getOrder tested =
      service.getOrder tested := by
  rw [handleOrderAccepted]
  cases service.getOrder orderId with
  | none =>
      refine (getOrder_insertRecord ..).trans (if_neg ?_)
      exact other
  | some order =>
      dsimp only
      split
      · rfl
      · rw [getOrder_updateRecord, if_neg other]

/-- A fill leaves an order as it is, ends it, or adds itself to its record. -/
theorem getOrder_orderFilled (filled : OrderFilled) (tested : OrderId) :
    (service.applyEvent (.orderFilled filled)).getOrder tested = service.getOrder tested ∨
      (filled.orderId = tested ∧
        ((filled.remainingQty.isZero = true ∧
            (service.applyEvent (.orderFilled filled)).getOrder tested = none) ∨
          ∃ order, service.getOrder tested = some order ∧
            (service.applyEvent (.orderFilled filled)).getOrder tested =
              some (filledRecord order filled.tradeId filled.fillPrice filled.fillQty
                filled.isMaker filled.remainingQty filled.timestamp))) := by
  rw [applyEvent, handleOrderFilled]
  cases found : service.getOrder filled.orderId with
  | none => exact Or.inl rfl
  | some order =>
      dsimp only
      split
      · exact Or.inl rfl
      · split
        · exact Or.inl rfl
        · by_cases own : filled.orderId = tested
          · subst own
            refine Or.inr ⟨rfl, ?_⟩
            split
            case isTrue nothing =>
              exact Or.inl ⟨nothing, by rw [getOrder_completed, if_pos rfl]⟩
            case isFalse => exact Or.inr ⟨order, found, getOrder_updated⟩
          · left
            split
            · rw [getOrder_completed, if_neg own]
            · rw [getOrder_updateRecord, if_neg own]

private theorem getOrder_create_of_ne {order : NewOrder} {tested : OrderId}
    (other : order.orderId ≠ tested) :
    (service.createOrder (.newOrder order)).1.getOrder tested = service.getOrder tested := by
  rw [createOrder]
  cases service.getOrder order.orderId with
  | some existing => rfl
  | none =>
      refine (getOrder_insertRecord ..).trans (if_neg ?_)
      exact other

/-- An order that is active after an input that does not open it was active before, and has lost
no fill. -/
theorem fills_step (unfinished : service.Unfinished) {input : OrderInput} {orderId : OrderId}
    (shut : ¬ input.Opens orderId) {order : Order}
    (active : (service.step input).getOrder orderId = some order) :
    ∃ earlier, service.getOrder orderId = some earlier ∧ earlier.fills ⊆ order.fills := by
  cases input with
  | create created =>
      rw [step, getOrder_create_of_ne shut] at active
      exact ⟨order, active, List.Subset.refl _⟩
  | event event =>
      cases event with
      | orderAccepted accepted =>
          rw [step, applyEvent, getOrder_handleOrderAccepted_of_ne shut] at active
          exact ⟨order, active, List.Subset.refl _⟩
      | orderRejected closed userId reason timestamp =>
          rw [step, applyEvent, getOrder_handleOrderRejected _ _ _ (unfinished _)] at active
          split at active
          · cases active
          · exact ⟨order, active, List.Subset.refl _⟩
      | orderCanceled closed userId symbol remainingQty timestamp =>
          rw [step, applyEvent, getOrder_handleOrderCanceled _ _ _ (unfinished _)] at active
          split at active
          · cases active
          · exact ⟨order, active, List.Subset.refl _⟩
      | orderFilled filled =>
          rw [step] at active
          rcases getOrder_orderFilled filled orderId with
            same | ⟨-, ⟨-, gone⟩ | ⟨earlier, found, updated⟩⟩
          · rw [same] at active
            exact ⟨order, active, List.Subset.refl _⟩
          · rw [gone] at active
            cases active
          · rw [updated] at active
            refine ⟨earlier, found, ?_⟩
            rw [← Option.some_inj.1 active]
            exact List.subset_append_left _ _
      | _ => exact ⟨order, active, List.Subset.refl _⟩

/-- An inactive order stays so under inputs that do not open it. -/
theorem inactive_step (unfinished : service.Unfinished) {input : OrderInput} {orderId : OrderId}
    (shut : ¬ input.Opens orderId) (inactive : service.getOrder orderId = none) :
    (service.step input).getOrder orderId = none := by
  cases active : (service.step input).getOrder orderId with
  | none => rfl
  | some order =>
      obtain ⟨earlier, found, -⟩ := fills_step unfinished shut active
      rw [inactive] at found
      cases found

/-- An order that is accepted stays so under inputs that neither end nor stamp it. -/
theorem accepted_step (unfinished : service.Unfinished) {accepted : OrderAccepted}
    (absorbs : service.Absorbs (.orderAccepted accepted)) {input : OrderInput}
    (spares : input.Spares (.orderAccepted accepted)) :
    (service.step input).Absorbs (.orderAccepted accepted) := by
  obtain ⟨order, found, stands⟩ := absorbs
  obtain ⟨opened, sameTime⟩ := spares
  -- most inputs do not even touch the record
  have kept : (service.step input).getOrder accepted.orderId =
      service.getOrder accepted.orderId →
      (service.step input).Absorbs (.orderAccepted accepted) := fun same =>
    ⟨order, same.trans found, stands⟩
  cases input with
  | create created =>
      apply kept
      rw [step]
      by_cases own : created.orderId = accepted.orderId
      · rw [createOrder, own, found]
        exact found
      · exact getOrder_create_of_ne own
  | event event =>
      cases event with
      | orderAccepted later =>
          apply kept
          rw [step]
          by_cases own : later.orderId = accepted.orderId
          · have again : service.Absorbs (.orderAccepted later) :=
              ⟨order, by rw [own, found], by rwa [sameTime later rfl own]⟩
            rw [(accepted_eq_self_iff later).2 again]
          · rw [applyEvent, getOrder_handleOrderAccepted_of_ne own]
      | orderRejected closed userId reason timestamp =>
          apply kept
          rw [step, applyEvent, getOrder_handleOrderRejected _ _ _ (unfinished _)]
          exact if_neg opened
      | orderCanceled closed userId symbol remainingQty timestamp =>
          apply kept
          rw [step, applyEvent, getOrder_handleOrderCanceled _ _ _ (unfinished _)]
          exact if_neg opened
      | orderFilled filled =>
          rcases getOrder_orderFilled filled accepted.orderId with
            same | ⟨own, ⟨nothing, -⟩ | ⟨earlier, -, updated⟩⟩
          · exact kept same
          · exact absurd ⟨own, nothing⟩ opened
          · exact ⟨_, updated, Or.inr (Or.inl (by simp [filledRecord]))⟩
      | _ => exact kept rfl

/-- The history stays as it is or gets one more record. -/
theorem history_changes {own : Prop} {next : OrderService} (changes : Changes own service next) :
    next.maxCompletedHistory = service.maxCompletedHistory ∧
      (next.completedOrders = service.completedOrders ∨
        ∃ order, next.completedOrders = (service.pushCompleted order).completedOrders) := by
  cases changes with
  | same => exact ⟨rfl, Or.inl rfl⟩
  | history order => exact ⟨rfl, Or.inr ⟨order, rfl⟩⟩
  | inserts => exact ⟨rfl, Or.inl rfl⟩
  | updates => exact ⟨rfl, Or.inl rfl⟩
  | completes found =>
      rw [moveToCompleted, getOrder_updated]
      exact ⟨rfl, Or.inr ⟨_, rfl⟩⟩

/-- While there is room in the history, it keeps its records. -/
theorem history_step (unfinished : service.Unfinished) (input : OrderInput)
    (room : service.completedOrders.length < service.maxCompletedHistory) :
    service.completedOrders ⊆ (service.step input).completedOrders := by
  obtain ⟨own, changes⟩ := changes_step unfinished input
  rcases (history_changes changes).2 with same | ⟨order, pushed⟩
  · rw [same]
    exact List.Subset.refl _
  · rw [pushed, pushCompleted, if_neg (by omega)]
    exact List.subset_append_left _ _

private theorem length_history_step (unfinished : service.Unfinished) (input : OrderInput) :
    (service.step input).completedOrders.length ≤ service.completedOrders.length + 1 := by
  obtain ⟨own, changes⟩ := changes_step unfinished input
  rcases (history_changes changes).2 with same | ⟨order, pushed⟩
  · rw [same]
    omega
  · rw [pushed, pushCompleted, List.length_append, List.length_singleton]
    split
    · rw [List.length_tail]
      omega
    · exact Nat.le_refl _

/-- An event that is absorbed stays so under an input that spares it. -/
theorem Absorbs.step (unfinished : service.Unfinished) {event : Event}
    (absorbs : service.Absorbs event) {input : OrderInput} (spares : input.Spares event)
    (room : service.completedOrders.length < service.maxCompletedHistory) :
    (service.step input).Absorbs event := by
  cases event with
  | orderAccepted accepted => exact accepted_step unfinished absorbs spares
  | orderRejected orderId userId reason timestamp =>
      obtain ⟨inactive, completed, member, own⟩ := absorbs
      exact ⟨inactive_step unfinished spares inactive, completed,
        history_step unfinished input room member, own⟩
  | orderFilled filled =>
      intro order active
      obtain ⟨earlier, found, kept⟩ := fills_step unfinished spares active
      obtain ⟨fill, member, own⟩ := absorbs earlier found
      exact ⟨fill, kept member, own⟩
  | orderCanceled orderId userId symbol remainingQty timestamp =>
      exact inactive_step unfinished spares absorbs
  | _ => trivial

private theorem mem_history_completed {orderId : OrderId} {userId : UserId} {order : Order} :
    order ∈
      ((service.updateRecord orderId order).moveToCompleted orderId userId).completedOrders := by
  rw [moveToCompleted, getOrder_updated]
  exact List.mem_append_right _ List.mem_cons_self

private theorem absorbs_accepted (accepted : OrderAccepted) :
    (service.applyEvent (.orderAccepted accepted)).Absorbs (.orderAccepted accepted) := by
  rw [applyEvent, handleOrderAccepted]
  cases found : service.getOrder accepted.orderId with
  | none =>
      refine ⟨_, (getOrder_insertRecord ..).trans (if_pos rfl), ?_⟩
      exact Or.inr (Or.inr ⟨rfl, rfl⟩)
  | some order =>
      dsimp only
      split
      case isTrue moved => exact ⟨order, found, or_assoc.1 (Or.inl moved)⟩
      case isFalse =>
        refine ⟨_, getOrder_updated, ?_⟩
        cases conditional : order.orderType.isConditional with
        | true => exact Or.inl (by simp)
        | false => exact Or.inr (Or.inr ⟨conditional, rfl⟩)

/-- A rejected order is in the history, be it the one that was active or a placeholder. -/
theorem history_rejected (stores : service.Stores) (orderId : OrderId) (userId : UserId)
    (timestamp : UnixMicros) :
    ∃ order ∈ (service.handleOrderRejected orderId userId timestamp).completedOrders,
      order.orderId = orderId := by
  rw [handleOrderRejected]
  cases found : service.getOrder orderId with
  | none =>
      dsimp only
      split
      case isTrue known => simpa using known
      case isFalse => exact ⟨_, List.mem_append_right _ List.mem_cons_self, rfl⟩
  | some order =>
      dsimp only
      rw [if_neg ((stores.unfinished orderId).not_terminal found)]
      exact ⟨_, mem_history_completed, stores.keyed orderId order found⟩

private theorem absorbs_filled (unfinished : service.Unfinished) (filled : OrderFilled) :
    (service.applyEvent (.orderFilled filled)).Absorbs (.orderFilled filled) := by
  intro order active
  rw [applyEvent, handleOrderFilled] at active
  cases found : service.getOrder filled.orderId with
  | none => simp [found] at active
  | some earlier =>
      rw [found] at active
      dsimp only at active
      split at active
      case isTrue recorded =>
        rw [found] at active
        simpa [Option.some_inj.1 active] using recorded
      case isFalse =>
        rw [if_neg ((unfinished filled.orderId).not_terminal found)] at active
        split at active
        · rw [getOrder_completed, if_pos rfl] at active
          cases active
        · rw [getOrder_updated] at active
          rw [← Option.some_inj.1 active]
          exact ⟨_, List.mem_append_right _ List.mem_cons_self, rfl⟩

/-- An event that was just delivered is absorbed. -/
theorem absorbs_applyEvent (stores : service.Stores) (event : Event) :
    (service.applyEvent event).Absorbs event := by
  cases event with
  | orderAccepted accepted => exact absorbs_accepted accepted
  | orderRejected orderId userId reason timestamp =>
      have gone := getOrder_handleOrderRejected service orderId orderId
        (stores.unfinished orderId) userId timestamp
      exact ⟨gone.trans (if_pos rfl), history_rejected stores orderId userId timestamp⟩
  | orderFilled filled => exact absorbs_filled stores.unfinished filled
  | orderCanceled orderId userId symbol remainingQty timestamp =>
      have gone := getOrder_handleOrderCanceled service orderId orderId
        (stores.unfinished orderId) timestamp
      exact gone.trans (if_pos rfl)
  | _ => trivial

theorem Absorbs.receive (stores : service.Stores) {event : Event}
    (absorbs : service.Absorbs event) {after : List OrderInput}
    (spared : ∀ input ∈ after, input.Spares event)
    (room : service.completedOrders.length + after.length ≤ service.maxCompletedHistory) :
    (service.receive after).Absorbs event := by
  induction after generalizing service with
  | nil => exact absorbs
  | cons input rest inductionHypothesis =>
      rw [List.length_cons] at room
      have space : service.completedOrders.length < service.maxCompletedHistory := by omega
      have grown := length_history_step stores.unfinished input
      obtain ⟨own, changes⟩ := changes_step stores.unfinished input
      refine inductionHypothesis (stores.step input)
        (absorbs.step stores.unfinished (spared input List.mem_cons_self) space)
        (fun later member => spared later (List.mem_cons_of_mem input member)) ?_
      rw [(history_changes changes).1]
      omega

private theorem length_history_receive (stores : service.Stores) (inputs : List OrderInput) :
    (service.receive inputs).maxCompletedHistory = service.maxCompletedHistory ∧
      (service.receive inputs).completedOrders.length ≤
        service.completedOrders.length + inputs.length := by
  induction inputs generalizing service with
  | nil => exact ⟨rfl, Nat.le_refl _⟩
  | cons input rest inductionHypothesis =>
      obtain ⟨bound, grown⟩ := inductionHypothesis (stores.step input)
      have once := length_history_step stores.unfinished input
      obtain ⟨own, changes⟩ := changes_step stores.unfinished input
      rw [(history_changes changes).1] at bound
      refine ⟨bound, ?_⟩
      rw [List.length_cons]
      change ((service.step input).receive rest).completedOrders.length ≤ _
      omega

/-- An event that no later input undoes is harmless when it is delivered again, as long as the
history has room for the orders of all inputs. -/
theorem redelivery_of_spared {maxCompletedHistory : Nat} {before after : List OrderInput}
    {event : Event} (room : (before ++ .event event :: after).length ≤ maxCompletedHistory)
    (spared : ∀ input ∈ after, input.Spares event) :
    let service := (new maxCompletedHistory).receive (before ++ .event event :: after)
    service.applyEvent event = service := by
  intro service
  have early := (stores_new maxCompletedHistory).receive before
  have stores := early.step (.event event)
  have split : service =
      (((new maxCompletedHistory).receive before).step (.event event)).receive after :=
    List.foldl_append
  obtain ⟨bound, grown⟩ := length_history_receive (stores_new maxCompletedHistory)
    (before ++ [.event event])
  have delivered : (new maxCompletedHistory).receive (before ++ [.event event]) =
      ((new maxCompletedHistory).receive before).step (.event event) := List.foldl_append
  rw [delivered] at bound grown
  rw [split, applyEvent_eq_self_iff (stores.receive after).unfinished]
  refine Absorbs.receive stores (absorbs_applyEvent early event) spared ?_
  rw [bound]
  simp only [new, List.length_append, List.length_cons, List.length_nil] at grown room ⊢
  omega

/-- Whatever a service has received, an event that it is given again leaves it as it is if and only
if what it has of the event's order absorbs it: an acceptance does so if the order is active and has
moved on from being new or was stamped by an acceptance of the same time, a rejection if the order
is not active and in the history, a fill if the order is not active or has the trade, a cancel if
the order is not active. -/
theorem redelivery_absorbed_iff (maxCompletedHistory : Nat) (inputs : List OrderInput)
    (event : Event) :
    ((new maxCompletedHistory).receive inputs).applyEvent event =
        (new maxCompletedHistory).receive inputs ↔
      ((new maxCompletedHistory).receive inputs).Absorbs event :=
  applyEvent_eq_self_iff ((stores_new maxCompletedHistory).receive inputs).unfinished event

end Runs

end OrderService

namespace MatchingEngine

/-- An order that is accepted and canceled by its user. -/
def canceledOrderInputs : List EngineInput :=
  [.command (.newOrder (gatewayOrder 1 7 .sell 100 5)), .command (.cancelOrder 1 7 1 0)]

/-- Delivered again, the acceptance makes the order active once more. -/
theorem reacceptance_reopens :
    ¬ ∀ (config : SymbolConfig) (ids : Nat → TradeId) (interestRate : Decimal128)
      (maxCompletedHistory : Nat) (inputs : List EngineInput),
      Function.Injective ids → 0 < config.lotSize → (newOrderIds inputs).Nodup →
        (newOrderIds inputs).length ≤ maxCompletedHistory →
        let events := (run step (new config ids interestRate) inputs).2
        let service := (OrderService.new maxCompletedHistory).receive (events.map .event)
        ∀ event ∈ events, service.applyEvent event = service := by
  intro tolerates
  have claimed := tolerates plainConfig id 0 1 canceledOrderInputs Function.injective_id
    (by decide) (by decide) (by decide)
  have reopened : ∃ event ∈ (run step (new plainConfig id 0) canceledOrderInputs).2,
      (((OrderService.new 1).receive ((run step (new plainConfig id 0)
        canceledOrderInputs).2.map .event)).applyEvent event).getOrder 1 ≠
      ((OrderService.new 1).receive ((run step (new plainConfig id 0)
        canceledOrderInputs).2.map .event)).getOrder 1 := by
    decide +kernel
  obtain ⟨event, emitted, changed⟩ := reopened
  exact changed (congrArg (·.getOrder 1) (claimed event emitted))

end MatchingEngine
end Exg
