import Exg.OrderService.ActiveOrders
import Exg.Support.ListMaps
import Exg.Support.Machine

/-!
# The indices of the order service

Every handler takes an order out of the indices by the user of its stored record, except for a
rejection, which does so by the user that the event names.  A rejection for another user, as the
matching engine emits it when someone else tries to cancel the order, leaves the order's id with
its owner.
-/

namespace Exg

open Support

namespace OrderService

/-- Cancel one order of a user. -/
def cancelOne (userId : UserId) (now : UnixMicros) (service : OrderService) (orderId : OrderId) :
    OrderService :=
  let canceled := match service.getOrder orderId with
    | none => service
    | some order =>
        if order.status.isTerminal then service
        else service.updateRecord orderId { order with status := .canceled, updatedAt := now }
  canceled.moveToCompleted orderId userId

/-- Cancel all orders for a user on a symbol, and return their ids. -/
def cancelUserSymbolOrders (service : OrderService) (userId : UserId) (symbol : SymbolId) :
    OrderService × List OrderId :=
  let orderIds := (((service.userActiveOrders[userId]?.getD []).filterMap service.getOrder).filter
    fun order => order.symbol = symbol ∧ order.status.isTerminal = false).map Order.orderId
  match orderIds.head? with
  | none => (service, [])
  | some first =>
      let now := ((service.getOrder first).map Order.updatedAt).getD 0
      (orderIds.foldl (cancelOne userId now) service, orderIds)

end OrderService

/-- A call of the order service. -/
inductive OrderCall where
  | createOrder (command : Command)
  | applyEvent (event : Event)
  | cancelUserSymbolOrders (userId : UserId) (symbol : SymbolId)

/-- What a call of the order service returns. -/
inductive OrderReply where
  | created (order : Option Order)
  | applied
  | canceled (orderIds : List OrderId)

namespace OrderService

def call (service : OrderService) : OrderCall → OrderService × List OrderReply
  | .createOrder command =>
      let result := service.createOrder command
      (result.1, [.created result.2])
  | .applyEvent event => (service.applyEvent event, [.applied])
  | .cancelUserSymbolOrders userId symbol =>
      let result := service.cancelUserSymbolOrders userId symbol
      (result.1, [.canceled result.2])

/-- The user has this active order. -/
def Owns (service : OrderService) (userId : UserId) (orderId : OrderId) : Prop :=
  ∃ order, service.getOrder orderId = some order ∧ order.userId = userId

/-- Every entry of a client order id points to an active order of that user with that id. -/
def ClientsPoint (service : OrderService) : Prop :=
  ∀ userId clientId orderId, service.clientOrderMap[(userId, clientId)]? = some orderId →
    ∃ order, service.getOrder orderId = some order ∧ order.userId = userId ∧
      order.clientOrderId = some clientId

/-- No active order has a terminal status. -/
def Unfinished (service : OrderService) : Prop :=
  ∀ orderId, service.Unended orderId

/-- Every record is stored under its own id. -/
def Keyed (service : OrderService) : Prop :=
  ∀ orderId order, service.getOrder orderId = some order → order.orderId = orderId

/-- The active orders of every user are listed, each once and without empty lists, and the entries
of client order ids point to active orders. -/
structure Indexed (service : OrderService) : Prop where
  listed : ListMap.Indexes service.userActiveOrders service.Owns
  clients : service.ClientsPoint

/-- The indices list the active orders and point to them, and no active order has a terminal
status. -/
structure IndicesAgree (service : OrderService) : Prop extends Indexed service where
  unfinished : service.Unfinished

/-! ## What a call changes -/

/-- A record takes the place of another: the same order, of the same user, with the same client
order id. -/
structure Continues (old order : Order) : Prop where
  orderId : order.orderId = old.orderId
  userId : order.userId = old.userId
  clientOrderId : order.clientOrderId = old.clientOrderId

/-- What a handler can make of a service; a completed order leaves the indices of its owner if
`own` holds. -/
inductive Changes (own : Prop) (service : OrderService) : OrderService → Prop where
  | same : Changes own service service
  | history (order : Order) : Changes own service (service.pushCompleted order)
  | inserts {order : Order} (fresh : service.getOrder order.orderId = none)
      (unfinished : order.status.isTerminal = false) :
      Changes own service (service.insertRecord order)
  | updates {orderId : OrderId} {old order : Order} (found : service.getOrder orderId = some old)
      (continues : Continues old order) (unfinished : order.status.isTerminal = false) :
      Changes own service (service.updateRecord orderId order)
  | completes {orderId : OrderId} {old order : Order} {userId : UserId}
      (found : service.getOrder orderId = some old) (continues : Continues old order)
      (owner : own → old.userId = userId) :
      Changes own service ((service.updateRecord orderId order).moveToCompleted orderId userId)

section Changed

variable {service next : OrderService} {orderId : OrderId} {userId : UserId} {order old : Order}
variable {own : Prop}

theorem unfinished_new (maxCompletedHistory : Nat) : (new maxCompletedHistory).Unfinished := by
  intro orderId order found
  simp [getOrder_new] at found

theorem keyed_new (maxCompletedHistory : Nat) : (new maxCompletedHistory).Keyed := by
  intro orderId order found
  simp [getOrder_new] at found

theorem getOrder_updated :
    (service.updateRecord orderId order).getOrder orderId = some order := by
  rw [getOrder_updateRecord, if_pos rfl]

/-- Whatever a handler does, no active order ends up in a terminal status. -/
theorem Unfinished.changes (unfinished : service.Unfinished)
    (changes : Changes own service next) : next.Unfinished := by
  intro tested stored active
  cases changes with
  | same => exact unfinished tested stored active
  | history order => exact unfinished tested stored active
  | inserts fresh begins =>
      rw [getOrder_insertRecord] at active
      split at active
      · rwa [← Option.some_inj.1 active]
      · exact unfinished tested stored active
  | updates found continues goesOn =>
      rw [getOrder_updateRecord] at active
      split at active
      · rwa [← Option.some_inj.1 active]
      · exact unfinished tested stored active
  | completes =>
      rw [getOrder_completed] at active
      split at active
      · cases active
      · exact unfinished tested stored active

theorem Keyed.changes (keyed : service.Keyed) (changes : Changes own service next) :
    next.Keyed := by
  intro tested stored active
  cases changes with
  | same => exact keyed tested stored active
  | history order => exact keyed tested stored active
  | inserts fresh begins =>
      rw [getOrder_insertRecord] at active
      split at active
      case isTrue here => rwa [← Option.some_inj.1 active]
      case isFalse => exact keyed tested stored active
  | updates found continues goesOn =>
      rw [getOrder_updateRecord] at active
      split at active
      case isTrue here =>
        rw [← Option.some_inj.1 active, continues.orderId, ← here]
        exact keyed _ _ found
      case isFalse => exact keyed tested stored active
  | completes =>
      rw [getOrder_completed] at active
      split at active
      · cases active
      · exact keyed tested stored active

/-- The indices agree, and every record is stored under its own id. -/
structure Sound (service : OrderService) : Prop extends IndicesAgree service where
  keyed : service.Keyed

theorem sound_new (maxCompletedHistory : Nat) : (new maxCompletedHistory).Sound where
  listed := ListMap.indexes_empty.congr fun userId orderId => by simp [Owns, getOrder_new]
  clients userId clientId orderId found := by simp [new] at found
  unfinished := unfinished_new maxCompletedHistory
  keyed := keyed_new maxCompletedHistory

private theorem userActiveOrders_moveToCompleted (found : service.getOrder orderId = some order) :
    (service.moveToCompleted orderId userId).userActiveOrders =
      ListMap.dropFrom service.userActiveOrders userId orderId := by
  rw [moveToCompleted, found]
  rfl

private theorem clientOrderMap_insertRecord (clientId : Nat) :
    (service.insertRecord order).clientOrderMap[(userId, clientId)]? =
      if order.userId = userId ∧ order.clientOrderId = some clientId then some order.orderId
      else service.clientOrderMap[(userId, clientId)]? := by
  rw [insertRecord]
  cases order.clientOrderId with
  | none => simp
  | some named =>
      simp only [Option.elim_some, Std.ExtTreeMap.getElem?_insert,
        Std.LawfulEqCmp.compare_eq_iff_eq, Prod.mk.injEq, Option.some_inj]

private theorem clientOrderMap_moveToCompleted (found : service.getOrder orderId = some order)
    (named : UserId) (clientId : Nat) :
    (service.moveToCompleted orderId named).clientOrderMap[(userId, clientId)]? =
      if named = userId ∧ order.clientOrderId = some clientId then none
      else service.clientOrderMap[(userId, clientId)]? := by
  rw [moveToCompleted, found]
  change (order.clientOrderId.elim service.clientOrderMap fun clientId =>
    service.clientOrderMap.erase (named, clientId))[(userId, clientId)]? = _
  cases order.clientOrderId with
  | none => simp
  | some named =>
      simp only [Option.elim_some, Std.ExtTreeMap.getElem?_erase,
        Std.LawfulEqCmp.compare_eq_iff_eq, Prod.mk.injEq, Option.some_inj]

theorem Indexed.inserts (indexed : service.Indexed)
    (fresh : service.getOrder order.orderId = none) : (service.insertRecord order).Indexed where
  listed := by
    have unowned : ¬ service.Owns order.userId order.orderId := by
      rintro ⟨stored, found, -⟩
      simp [fresh] at found
    refine (indexed.listed.appendTo unowned).congr fun userId orderId => ?_
    simp only [Owns, getOrder_insertRecord]
    by_cases own : order.orderId = orderId
    · subst own
      simp [fresh]
    · simp [own, Ne.symm own]
  clients userId clientId orderId found := by
    rw [clientOrderMap_insertRecord] at found
    rw [getOrder_insertRecord]
    split at found
    case isTrue named =>
      rw [if_pos (Option.some_inj.1 found)]
      exact ⟨order, rfl, named⟩
    case isFalse =>
      obtain ⟨stored, active, owned⟩ := indexed.clients userId clientId orderId found
      have other : order.orderId ≠ orderId := by
        rintro rfl
        simp [fresh] at active
      rw [if_neg other]
      exact ⟨stored, active, owned⟩

theorem Indexed.updates (indexed : service.Indexed) (found : service.getOrder orderId = some old)
    (continues : Continues old order) : (service.updateRecord orderId order).Indexed where
  listed := by
    refine indexed.listed.congr fun userId tested => ?_
    simp only [Owns, getOrder_updateRecord]
    by_cases own : orderId = tested
    · subst own
      simp [found, continues.userId]
    · simp [own]
  clients userId clientId tested points := by
    obtain ⟨stored, active, owner, named⟩ := indexed.clients userId clientId tested points
    rw [getOrder_updateRecord]
    by_cases own : orderId = tested
    · subst own
      obtain rfl := Option.some_inj.1 (found.symm.trans active)
      exact ⟨order, if_pos rfl, continues.userId.trans owner,
        continues.clientOrderId.trans named⟩
    · exact ⟨stored, (if_neg own).trans active, owner, named⟩

/-- An order that is completed leaves the indices. -/
theorem Indexed.completes (indexed : service.Indexed)
    (found : service.getOrder orderId = some old) (continues : Continues old order) :
    ((service.updateRecord orderId order).moveToCompleted orderId old.userId).Indexed where
  listed := by
    rw [userActiveOrders_moveToCompleted getOrder_updated]
    refine indexed.listed.dropFrom.congr fun userId tested => ?_
    simp only [Owns, getOrder_completed]
    by_cases own : orderId = tested
    · subst own
      simp [found]
    · simp [own, Ne.symm own]
  clients userId clientId tested points := by
    rw [clientOrderMap_moveToCompleted getOrder_updated] at points
    split at points
    case isTrue => cases points
    case isFalse other =>
      obtain ⟨stored, active, owner, named⟩ := indexed.clients userId clientId tested points
      rw [getOrder_completed, if_neg]
      · exact ⟨stored, active, owner, named⟩
      · rintro rfl
        obtain rfl := Option.some_inj.1 (found.symm.trans active)
        exact other ⟨owner, continues.clientOrderId.trans named⟩

theorem Indexed.changes (indexed : service.Indexed) (changes : Changes own service next)
    (holds : own) : next.Indexed := by
  cases changes with
  | same => exact indexed
  | history order => exact ⟨indexed.listed, indexed.clients⟩
  | inserts fresh => exact indexed.inserts fresh
  | updates found continues => exact indexed.updates found continues
  | completes found continues owner =>
      rw [← owner holds]
      exact indexed.completes found continues

theorem Sound.changes (sound : service.Sound) (changes : Changes own service next)
    (holds : own) : next.Sound where
  toIndexed := sound.toIndexed.changes changes holds
  unfinished := sound.unfinished.changes changes
  keyed := sound.keyed.changes changes

end Changed

/-! ## The calls -/

section Calls

variable {service : OrderService}

theorem changes_createOrder (command : Command) :
    Changes True service (service.createOrder command).1 := by
  cases command with
  | newOrder order =>
      rw [createOrder]
      cases found : service.getOrder order.orderId with
      | some existing => exact .same
      | none => exact .inserts found rfl
  | _ => exact .same

private theorem changes_handleOrderAccepted (unfinished : service.Unfinished) (orderId : OrderId)
    (userId : UserId) (symbol : SymbolId) (clientOrderId : Option Nat) (timestamp : UnixMicros) :
    Changes True service
      (service.handleOrderAccepted orderId userId symbol clientOrderId timestamp) := by
  rw [handleOrderAccepted]
  cases found : service.getOrder orderId with
  | none =>
      refine .inserts ?_ rfl
      exact found
  | some order =>
      dsimp only
      split
      · exact .same
      · refine .updates found ⟨rfl, rfl, rfl⟩ ?_
        dsimp only
        split
        · rfl
        · exact unfinished orderId order found

/-- A rejection that meets an active order names its owner. -/
def NamesOwner (service : OrderService) (orderId : OrderId) (userId : UserId) : Prop :=
  ∀ order, service.getOrder orderId = some order → order.userId = userId

private theorem changes_handleOrderRejected (orderId : OrderId) (userId : UserId)
    (timestamp : UnixMicros) :
    Changes (service.NamesOwner orderId userId) service
      (service.handleOrderRejected orderId userId timestamp) := by
  rw [handleOrderRejected]
  cases found : service.getOrder orderId with
  | none =>
      dsimp only
      split
      · exact .same
      · exact .history _
  | some order =>
      dsimp only
      split
      · exact .same
      · exact .completes found ⟨rfl, rfl, rfl⟩ fun owner => owner order found

private theorem changes_handleOrderCanceled (orderId : OrderId) (timestamp : UnixMicros) :
    Changes True service (service.handleOrderCanceled orderId timestamp) := by
  rw [handleOrderCanceled]
  cases found : service.getOrder orderId with
  | none => exact .same
  | some order =>
      dsimp only
      split
      · exact .same
      · exact .completes found ⟨rfl, rfl, rfl⟩ fun _ => rfl

private theorem changes_handleOrderFilled (orderId : OrderId) (tradeId : TradeId)
    (fillPrice fillQty : Decimal128) (isMaker : Bool) (remainingQty : Decimal128)
    (timestamp : UnixMicros) :
    Changes True service (service.handleOrderFilled orderId tradeId fillPrice fillQty isMaker
      remainingQty timestamp) := by
  rw [handleOrderFilled]
  cases found : service.getOrder orderId with
  | none => exact .same
  | some order =>
      dsimp only
      split
      · exact .same
      · split
        · exact .same
        · split
          case isTrue => exact .completes found ⟨rfl, rfl, rfl⟩ fun _ => rfl
          case isFalse left =>
            refine .updates found ⟨rfl, rfl, rfl⟩ ?_
            rw [filledRecord, if_neg left]
            rfl

/-- The event is not a rejection of an active order for another user than its owner. -/
def RejectsOwn (service : OrderService) : Event → Prop
  | .orderRejected orderId userId _ _ => service.NamesOwner orderId userId
  | _ => True

theorem changes_applyEvent (unfinished : service.Unfinished) (event : Event) :
    Changes (service.RejectsOwn event) service (service.applyEvent event) := by
  cases event with
  | orderAccepted accepted => exact changes_handleOrderAccepted unfinished _ _ _ _ _
  | orderRejected orderId userId reason timestamp =>
      exact changes_handleOrderRejected orderId userId timestamp
  | orderFilled filled => exact changes_handleOrderFilled _ _ _ _ _ _ _
  | orderCanceled orderId userId symbol remainingQty timestamp =>
      exact changes_handleOrderCanceled orderId timestamp
  | _ => exact .same

private theorem getOrder_cancelOne {userId : UserId} {now : UnixMicros} {orderId other : OrderId} :
    (cancelOne userId now service orderId).getOrder other =
      if orderId = other then none else service.getOrder other := by
  rw [cancelOne, getOrder_moveToCompleted]
  by_cases own : orderId = other
  · rw [if_pos own, if_pos own]
  · rw [if_neg own, if_neg own]
    cases service.getOrder orderId with
    | none => rfl
    | some order =>
        dsimp only
        split
        · rfl
        · rw [getOrder_updateRecord, if_neg own]

private theorem changes_cancelOne (unfinished : service.Unfinished) (userId : UserId)
    (now : UnixMicros) (orderId : OrderId) :
    Changes (service.NamesOwner orderId userId) service
      (cancelOne userId now service orderId) := by
  rw [cancelOne]
  cases found : service.getOrder orderId with
  | none =>
      rw [moveToCompleted, found]
      exact .same
  | some order =>
      dsimp only
      rw [if_neg ((unfinished orderId).not_terminal found)]
      exact .completes found ⟨rfl, rfl, rfl⟩ fun owner => owner order found

theorem Sound.cancelAll (sound : service.Sound) {userId : UserId} {orderIds : List OrderId}
    (owner : ∀ orderId ∈ orderIds, service.NamesOwner orderId userId) (now : UnixMicros) :
    (orderIds.foldl (cancelOne userId now) service).Sound := by
  induction orderIds generalizing service with
  | nil => exact sound
  | cons orderId rest inductionHypothesis =>
      have changes := changes_cancelOne sound.unfinished userId now orderId
      refine inductionHypothesis (sound.changes changes (owner orderId List.mem_cons_self)) ?_
      intro later member order found
      rw [getOrder_cancelOne] at found
      split at found
      · cases found
      · exact owner later (List.mem_cons_of_mem orderId member) order found

theorem Sound.cancelUserSymbolOrders (sound : service.Sound) (userId : UserId)
    (symbol : SymbolId) : (service.cancelUserSymbolOrders userId symbol).1.Sound := by
  rw [OrderService.cancelUserSymbolOrders]
  dsimp only
  split
  · exact sound
  · refine sound.cancelAll ?_ _
    intro orderId member order found
    obtain ⟨stored, kept, rfl⟩ := List.mem_map.1 member
    obtain ⟨listedId, listed, active⟩ := List.mem_filterMap.1 (List.mem_filter.1 kept).1
    obtain ⟨owned, stillActive, owner⟩ := (sound.listed.mem_iff userId listedId).1 listed
    obtain rfl := Option.some_inj.1 (active.symm.trans stillActive)
    rw [sound.keyed listedId stored active] at found
    obtain rfl := Option.some_inj.1 (active.symm.trans found)
    exact owner

end Calls

/-! ## Runs -/

/-- A rejection that meets an active order names its owner. -/
def MeetsOwner (service : OrderService) : OrderCall → Prop
  | .applyEvent event => service.RejectsOwn event
  | _ => True

theorem Sound.call {service : OrderService} (sound : service.Sound) {input : OrderCall}
    (own : service.MeetsOwner input) : (service.call input).1.Sound := by
  cases input with
  | createOrder command => exact sound.changes (changes_createOrder command) trivial
  | applyEvent event => exact sound.changes (changes_applyEvent sound.unfinished event) own
  | cancelUserSymbolOrders userId symbol => exact sound.cancelUserSymbolOrders userId symbol

/-- After a rejection for another user, the owner's list still has the order. -/
theorem namesOwner_of_agree {service : OrderService} (sound : service.Sound) {orderId : OrderId}
    {userId : UserId} {timestamp : UnixMicros}
    (agree : (service.handleOrderRejected orderId userId timestamp).IndicesAgree) :
    service.NamesOwner orderId userId := by
  intro order found
  by_contra other
  have listed : orderId ∈ ListMap.itemsAt service.userActiveOrders order.userId :=
    (sound.listed.mem_iff order.userId orderId).2 ⟨order, found, rfl⟩
  rw [handleOrderRejected, found] at agree
  dsimp only at agree
  rw [if_neg ((sound.unfinished orderId).not_terminal found)] at agree
  have still := (agree.listed.mem_iff order.userId orderId).1 (by
    rw [userActiveOrders_moveToCompleted getOrder_updated, ListMap.itemsAt_dropFrom,
      if_neg (Ne.symm other)]
    exact listed)
  obtain ⟨stored, active, -⟩ := still
  rw [getOrder_completed, if_pos rfl] at active
  cases active

private theorem meetsOwner_of_agree {service : OrderService} (sound : service.Sound)
    {input : OrderCall}
    (agree : (service.call input).1.IndicesAgree) : service.MeetsOwner input := by
  cases input with
  | applyEvent event =>
      cases event with
      | orderRejected => exact namesOwner_of_agree sound agree
      | _ => trivial
  | createOrder => trivial
  | cancelUserSymbolOrders => trivial

theorem sound_run {maxCompletedHistory : Nat} {calls : List OrderCall}
    (meet : StepsMeet call MeetsOwner (new maxCompletedHistory) calls) :
    (run call (new maxCompletedHistory) calls).1.Sound :=
  meet.run_keeps (fun _ _ own sound => sound.call own) (sound_new maxCompletedHistory)

/-- The indices agree in every state of a run if and only if every rejection that meets an active
order names its owner. -/
theorem indices_agree_iff (maxCompletedHistory : Nat) (calls : List OrderCall) :
    (∀ before, before <+: calls →
      (run call (new maxCompletedHistory) before).1.IndicesAgree) ↔
      StepsMeet call MeetsOwner (new maxCompletedHistory) calls := by
  constructor
  · intro agree
    -- at the first rejection that names someone else, the indices were still sound
    induction calls using List.reverseRecOn with
    | nil => trivial
    | append_singleton before input inductionHypothesis =>
        have meet := inductionHypothesis fun part isPrefix =>
          agree part (isPrefix.trans (List.prefix_append before [input]))
        refine StepsMeet.append_iff.2 ⟨meet, ?_, trivial⟩
        have last := agree _ (List.prefix_refl _)
        rw [run_concat] at last
        exact meetsOwner_of_agree (sound_run meet) last
  · intro meet before isPrefix
    exact (sound_run (meet.initial isPrefix)).toIndicesAgree

/-- Order 1 of user 1 is accepted; user 2 tries to cancel it and is refused. -/
def foreignRejectionCalls : List OrderCall :=
  [.applyEvent (.orderAccepted
    { orderId := 1
      userId := 1
      symbol := 1
      side := .buy
      orderType := .limit
      timeInForce := .gtc
      price := ⟨100⟩
      quantity := ⟨5⟩
      stopPrice := none
      reduceOnly := false
      visibleQuantity := none
      trailingDelta := none
      trailingPeakPrice := none
      clientOrderId := some 7
      timestamp := 5 }),
    .applyEvent (.orderRejected 1 2 .orderNotFound 6)]

/-- The list of user 1 still has the order, which is no longer active. -/
theorem foreignRejectionCalls_disagree :
    ¬ (run call (new 10) foreignRejectionCalls).1.IndicesAgree := by
  intro agree
  have listed :
      1 ∈ ListMap.itemsAt (run call (new 10) foreignRejectionCalls).1.userActiveOrders 1 := by
    decide
  obtain ⟨order, active, -⟩ := (agree.listed.mem_iff 1 1).1 listed
  have gone : (run call (new 10) foreignRejectionCalls).1.getOrder 1 = none := by decide
  rw [gone] at active
  cases active

end OrderService
end Exg
