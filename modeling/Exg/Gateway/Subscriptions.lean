import Exg.Support.Machine
import Exg.Support.SetMaps
import Mathlib.Data.List.Nodup

/-!
# Subscriptions

The gateway keeps the streams of each client and the clients of each stream.  Both maps store
one relation between clients and streams: `Mirrors` says so, and each call changes the relation
on both sides.
-/

namespace Exg

open Support

/-- Manages bidirectional mapping between client IDs and subscribed streams. -/
structure SubscriptionManager where
  /-- Client id to its subscribed streams. -/
  subscriptions : SetMap Nat String compare compare
  /-- Stream to the ids of its clients. -/
  streamClients : SetMap String Nat compare compare

/-- The order in which a hash set of streams is visited: any order is possible. -/
structure StreamOrder where
  visit : Std.ExtTreeSet String → List String
  perm : ∀ streams, (visit streams).Perm streams.toList

inductive SubscriptionInput where
  | subscribe (clientId : Nat) (streams : List String)
  | unsubscribe (clientId : Nat) (streams : List String)
  | removeClient (clientId : Nat) (order : StreamOrder)

namespace SubscriptionManager

def new : SubscriptionManager := ⟨∅, ∅⟩

/-- Get all client IDs subscribed to a given stream. -/
def getClientsForStream (manager : SubscriptionManager) (stream : String) :
    Option (Std.ExtTreeSet Nat) :=
  manager.streamClients[stream]?

/-- Get all streams a given client is subscribed to. -/
def getClientStreams (manager : SubscriptionManager) (clientId : Nat) :
    Option (Std.ExtTreeSet String) :=
  manager.subscriptions[clientId]?

/-- Whether the client's set of streams has the stream. -/
def hasStream (manager : SubscriptionManager) (clientId : Nat) (stream : String) : Bool :=
  (manager.getClientStreams clientId).any (·.contains stream)

/-- Take a client out of a stream's set, and the stream out of the map with its last client. -/
def leaveStream (clientId : Nat) (streamClients : SetMap String Nat compare compare)
    (stream : String) : SetMap String Nat compare compare :=
  (streamClients.takeFrom stream clientId).tidy stream

def subscribeOne (clientId : Nat) (state : SubscriptionManager × List String) (stream : String) :
    SubscriptionManager × List String :=
  if state.1.hasStream clientId stream then
    state
  else
    ({ subscriptions := state.1.subscriptions.addTo clientId stream
       streamClients := state.1.streamClients.addTo stream clientId }, state.2 ++ [stream])

/-- Subscribe a client to the given streams.  Returns the newly subscribed ones. -/
def subscribe (manager : SubscriptionManager) (clientId : Nat) (streams : List String) :
    SubscriptionManager × List String :=
  let opened := { manager with subscriptions := manager.subscriptions.openKey clientId }
  streams.foldl (subscribeOne clientId) (opened, [])

def unsubscribeOne (clientId : Nat) (state : SubscriptionManager × List String) (stream : String) :
    SubscriptionManager × List String :=
  if state.1.hasStream clientId stream then
    ({ subscriptions := state.1.subscriptions.takeFrom clientId stream
       streamClients := leaveStream clientId state.1.streamClients stream }, state.2 ++ [stream])
  else
    state

/-- Unsubscribe a client from the given streams.  Returns those it was subscribed to. -/
def unsubscribe (manager : SubscriptionManager) (clientId : Nat) (streams : List String) :
    SubscriptionManager × List String :=
  match manager.getClientStreams clientId with
  | none => (manager, [])
  | some _ =>
      let left := streams.foldl (unsubscribeOne clientId) (manager, [])
      ({ left.1 with subscriptions := left.1.subscriptions.tidy clientId }, left.2)

/-- Remove a client entirely, cleaning up all stream associations. -/
def removeClient (manager : SubscriptionManager) (clientId : Nat) (order : StreamOrder) :
    SubscriptionManager :=
  match manager.subscriptions[clientId]? with
  | none => manager
  | some streams =>
      { subscriptions := manager.subscriptions.erase clientId
        streamClients := (order.visit streams).foldl (leaveStream clientId) manager.streamClients }

/-- One call.  The log has the streams it returned. -/
def step (manager : SubscriptionManager) : SubscriptionInput → SubscriptionManager × List String
  | .subscribe clientId streams => manager.subscribe clientId streams
  | .unsubscribe clientId streams => manager.unsubscribe clientId streams
  | .removeClient clientId order => (manager.removeClient clientId order, [])

/-- The client's set of streams has the stream. -/
def Subscribed (manager : SubscriptionManager) (clientId : Nat) (stream : String) : Prop :=
  ∃ streams, manager.getClientStreams clientId = some streams ∧ stream ∈ streams

/-- The stream's set of clients has the client. -/
def Listed (manager : SubscriptionManager) (clientId : Nat) (stream : String) : Prop :=
  ∃ clients, manager.getClientsForStream stream = some clients ∧ clientId ∈ clients

/-! ## The relation that both maps store -/

/-- Both maps store the same relation, and the second has no empty sets. -/
structure Mirrors (manager : SubscriptionManager) (relation : Nat → String → Prop) : Prop where
  subscribed : ∀ clientId stream,
    manager.subscriptions.Related clientId stream ↔ relation clientId stream
  listed : ∀ clientId stream,
    manager.streamClients.Related stream clientId ↔ relation clientId stream
  noEmpty : manager.streamClients.NoEmpty

section Mirrors

variable {manager : SubscriptionManager} {relation other : Nat → String → Prop}

private theorem mirrors_new : new.Mirrors fun _ _ => False where
  subscribed _ _ := iff_false_intro SetMap.not_related_empty
  listed _ _ := iff_false_intro SetMap.not_related_empty
  noEmpty := SetMap.noEmpty_empty

theorem Mirrors.congr (mirrors : manager.Mirrors relation)
    (same : ∀ clientId stream, relation clientId stream ↔ other clientId stream) :
    manager.Mirrors other where
  subscribed clientId stream := (mirrors.subscribed clientId stream).trans (same clientId stream)
  listed clientId stream := (mirrors.listed clientId stream).trans (same clientId stream)
  noEmpty := mirrors.noEmpty

private theorem Mirrors.hasStream_iff (mirrors : manager.Mirrors relation) {clientId : Nat}
    {stream : String} : manager.hasStream clientId stream = true ↔ relation clientId stream := by
  rw [← mirrors.subscribed, hasStream, getClientStreams, SetMap.Related, Option.any_eq_true]
  simp only [Std.ExtTreeSet.mem_iff_contains]

/-- Every pair but one. -/
theorem related_leaveStream {streamClients : SetMap String Nat compare compare} {clientId : Nat}
    {stream : String} (testedClient : Nat) (testedStream : String) :
    (leaveStream clientId streamClients stream).Related testedStream testedClient ↔
      ¬ (stream = testedStream ∧ clientId = testedClient) ∧
        streamClients.Related testedStream testedClient := by
  rw [leaveStream, SetMap.related_tidy, SetMap.related_takeFrom]

/-! ## Subscribing -/

private theorem Mirrors.subscribeOne (mirrors : manager.Mirrors relation) {clientId : Nat}
    {newly : List String} {stream : String} :
    (subscribeOne clientId (manager, newly) stream).1.Mirrors fun client tested =>
      (clientId = client ∧ stream = tested) ∨ relation client tested := by
  rw [SubscriptionManager.subscribeOne]
  by_cases known : relation clientId stream
  · rw [if_pos (mirrors.hasStream_iff.2 known)]
    refine mirrors.congr fun client tested => (or_iff_right_of_imp ?_).symm
    rintro ⟨rfl, rfl⟩
    exact known
  · rw [if_neg (mt mirrors.hasStream_iff.1 known)]
    constructor
    · intro client tested
      rw [SetMap.related_addTo, mirrors.subscribed]
    · intro client tested
      rw [SetMap.related_addTo, mirrors.listed, and_comm]
    · exact mirrors.noEmpty.addTo

private theorem subscribeOne_returned (mirrors : manager.Mirrors relation) {clientId : Nat}
    {newly : List String} (stream : String) (nodup : newly.Nodup)
    (old : ∀ earlier ∈ newly, relation clientId earlier) :
    (subscribeOne clientId (manager, newly) stream).2.Nodup ∧
      ∀ tested, tested ∈ (subscribeOne clientId (manager, newly) stream).2 ↔
        tested ∈ newly ∨ (tested = stream ∧ ¬ relation clientId stream) := by
  rw [SubscriptionManager.subscribeOne]
  by_cases known : relation clientId stream
  · rw [if_pos (mirrors.hasStream_iff.2 known)]
    exact ⟨nodup, fun tested => by simp [known]⟩
  · rw [if_neg (mt mirrors.hasStream_iff.1 known)]
    refine ⟨List.nodup_append.2 ⟨nodup, List.nodup_singleton stream, ?_⟩, fun tested => by
      simp [known]⟩
    intro earlier member last lastMember same
    rw [List.mem_singleton] at lastMember
    exact known (lastMember ▸ same ▸ old earlier member)

theorem Mirrors.openKey (mirrors : manager.Mirrors relation) (clientId : Nat) :
    Mirrors { manager with subscriptions := manager.subscriptions.openKey clientId } relation where
  subscribed client stream := SetMap.related_openKey.trans (mirrors.subscribed client stream)
  listed := mirrors.listed
  noEmpty := mirrors.noEmpty

/-- Subscribing adds the pairs of the client with the given streams, and returns each stream
whose pair was not there. -/
theorem Mirrors.subscribe (mirrors : manager.Mirrors relation) (clientId : Nat)
    (streams : List String) :
    ((manager.subscribe clientId streams).1.Mirrors fun client stream =>
      (clientId = client ∧ stream ∈ streams) ∨ relation client stream) ∧
      (manager.subscribe clientId streams).2.Nodup ∧
      ∀ stream, stream ∈ (manager.subscribe clientId streams).2 ↔
        stream ∈ streams ∧ ¬ relation clientId stream := by
  rw [SubscriptionManager.subscribe]
  induction streams using List.reverseRecOn with
  | nil => exact ⟨(mirrors.openKey clientId).congr (by simp), List.nodup_nil, by simp⟩
  | append_singleton before last inductionHypothesis =>
      rw [List.foldl_append, List.foldl_cons, List.foldl_nil]
      obtain ⟨now, nodup, returned⟩ := inductionHypothesis
      obtain ⟨nodupNext, returnedNext⟩ := subscribeOne_returned now last nodup
        fun earlier member => Or.inl ⟨rfl, ((returned earlier).1 member).1⟩
      refine ⟨now.subscribeOne.congr fun client stream => ?_, nodupNext, fun stream => ?_⟩
      · rw [← or_assoc, ← and_or_left, List.mem_append, List.mem_singleton, or_comm (a := last = _),
          eq_comm (a := last)]
      · rw [returnedNext, returned, List.mem_append, List.mem_singleton]
        by_cases same : stream = last
        · subst same
          tauto
        · tauto

/-! ## Unsubscribing -/

private theorem Mirrors.unsubscribeOne (mirrors : manager.Mirrors relation) {clientId : Nat}
    {removed : List String} {stream : String} :
    (unsubscribeOne clientId (manager, removed) stream).1.Mirrors fun client tested =>
      ¬ (clientId = client ∧ stream = tested) ∧ relation client tested := by
  rw [SubscriptionManager.unsubscribeOne]
  by_cases known : relation clientId stream
  · rw [if_pos (mirrors.hasStream_iff.2 known)]
    constructor
    · intro client tested
      rw [SetMap.related_takeFrom, mirrors.subscribed]
    · intro client tested
      rw [related_leaveStream, mirrors.listed, and_comm (a := stream = tested)]
    · exact mirrors.noEmpty.tidy_takeFrom
  · rw [if_neg (mt mirrors.hasStream_iff.1 known)]
    refine mirrors.congr fun client tested => (and_iff_right_of_imp ?_).symm
    rintro holds ⟨rfl, rfl⟩
    exact known holds

private theorem unsubscribeOne_returned (mirrors : manager.Mirrors relation) {clientId : Nat}
    {removed : List String} (stream : String) (nodup : removed.Nodup)
    (old : ∀ earlier ∈ removed, ¬ relation clientId earlier) :
    (unsubscribeOne clientId (manager, removed) stream).2.Nodup ∧
      ∀ tested, tested ∈ (unsubscribeOne clientId (manager, removed) stream).2 ↔
        tested ∈ removed ∨ (tested = stream ∧ relation clientId stream) := by
  rw [SubscriptionManager.unsubscribeOne]
  by_cases known : relation clientId stream
  · rw [if_pos (mirrors.hasStream_iff.2 known)]
    refine ⟨List.nodup_append.2 ⟨nodup, List.nodup_singleton stream, ?_⟩, fun tested => by
      simp [known]⟩
    intro earlier member last lastMember same
    rw [List.mem_singleton] at lastMember
    exact old earlier member (same ▸ lastMember ▸ known)
  · rw [if_neg (mt mirrors.hasStream_iff.1 known)]
    exact ⟨nodup, fun tested => by simp [known]⟩

private theorem Mirrors.unsubscribeEach (mirrors : manager.Mirrors relation) (clientId : Nat)
    (streams : List String) :
    ((streams.foldl (SubscriptionManager.unsubscribeOne clientId) (manager, [])).1.Mirrors
      fun client stream => ¬ (clientId = client ∧ stream ∈ streams) ∧ relation client stream) ∧
      (streams.foldl (SubscriptionManager.unsubscribeOne clientId) (manager, [])).2.Nodup ∧
      ∀ stream,
        stream ∈ (streams.foldl (SubscriptionManager.unsubscribeOne clientId) (manager, [])).2 ↔
          stream ∈ streams ∧ relation clientId stream := by
  induction streams using List.reverseRecOn with
  | nil => exact ⟨mirrors.congr (by simp), List.nodup_nil, by simp⟩
  | append_singleton before last inductionHypothesis =>
      rw [List.foldl_append, List.foldl_cons, List.foldl_nil]
      obtain ⟨now, nodup, returned⟩ := inductionHypothesis
      obtain ⟨nodupNext, returnedNext⟩ := unsubscribeOne_returned now last nodup
        fun earlier member both => both.1 ⟨rfl, ((returned earlier).1 member).1⟩
      refine ⟨now.unsubscribeOne.congr fun client stream => ?_, nodupNext, fun stream => ?_⟩
      · rw [← and_assoc, ← not_or, ← and_or_left, List.mem_append, List.mem_singleton,
          or_comm (a := last = _), eq_comm (a := last)]
      · rw [returnedNext, returned, List.mem_append, List.mem_singleton]
        by_cases same : stream = last
        · subst same
          tauto
        · tauto

/-- Unsubscribing takes the pairs of the client with the given streams away, and returns each
stream whose pair was there. -/
theorem Mirrors.unsubscribe (mirrors : manager.Mirrors relation) (clientId : Nat)
    (streams : List String) :
    ((manager.unsubscribe clientId streams).1.Mirrors fun client stream =>
      ¬ (clientId = client ∧ stream ∈ streams) ∧ relation client stream) ∧
      (manager.unsubscribe clientId streams).2.Nodup ∧
      ∀ stream, stream ∈ (manager.unsubscribe clientId streams).2 ↔
        stream ∈ streams ∧ relation clientId stream := by
  rw [SubscriptionManager.unsubscribe]
  cases found : manager.getClientStreams clientId with
  | none =>
      have unrelated : ∀ stream, ¬ relation clientId stream := by
        intro stream holds
        obtain ⟨items, stored, -⟩ := (mirrors.subscribed clientId stream).2 holds
        rw [getClientStreams, stored] at found
        exact absurd found (by simp)
      refine ⟨mirrors.congr fun client stream => (and_iff_right_of_imp ?_).symm, List.nodup_nil,
        fun stream => by simp [unrelated]⟩
      rintro holds ⟨rfl, -⟩
      exact unrelated stream holds
  | some items =>
      obtain ⟨left, nodup, returned⟩ := mirrors.unsubscribeEach clientId streams
      refine ⟨⟨fun client stream => ?_, left.listed, left.noEmpty⟩, nodup, returned⟩
      exact SetMap.related_tidy.trans (left.subscribed client stream)

/-! ## Removing a client -/

private theorem leaveEach {streamClients : SetMap String Nat compare compare}
    (noEmpty : streamClients.NoEmpty) (clientId : Nat) (streams : List String) :
    (streams.foldl (leaveStream clientId) streamClients).NoEmpty ∧
      ∀ client stream,
        (streams.foldl (leaveStream clientId) streamClients).Related stream client ↔
          ¬ (stream ∈ streams ∧ clientId = client) ∧ streamClients.Related stream client := by
  induction streams using List.reverseRecOn with
  | nil => exact ⟨noEmpty, by simp⟩
  | append_singleton before last inductionHypothesis =>
      obtain ⟨tidyNow, relatedNow⟩ := inductionHypothesis
      rw [List.foldl_append, List.foldl_cons, List.foldl_nil]
      refine ⟨tidyNow.tidy_takeFrom, fun client stream => ?_⟩
      rw [related_leaveStream, relatedNow, ← and_assoc, ← not_or, ← or_and_right, List.mem_append,
        List.mem_singleton, or_comm (a := last = _), eq_comm (a := last)]

/-- Removing a client takes all its pairs away, in whatever order its streams are visited. -/
theorem Mirrors.removeClient (mirrors : manager.Mirrors relation) (clientId : Nat)
    (order : StreamOrder) :
    (manager.removeClient clientId order).Mirrors fun client stream =>
      clientId ≠ client ∧ relation client stream := by
  rw [SubscriptionManager.removeClient]
  cases found : manager.subscriptions[clientId]? with
  | none =>
      refine mirrors.congr fun client stream => (and_iff_right_of_imp ?_).symm
      rintro holds rfl
      obtain ⟨items, stored, -⟩ := (mirrors.subscribed clientId stream).2 holds
      rw [stored] at found
      exact absurd found (by simp)
  | some streams =>
      obtain ⟨tidyAfter, relatedAfter⟩ := leaveEach mirrors.noEmpty clientId (order.visit streams)
      refine ⟨fun client stream => ?_, fun client stream => ?_, tidyAfter⟩
      · rw [SetMap.related_erase, mirrors.subscribed]
      · rw [relatedAfter, mirrors.listed]
        refine and_congr_left fun holds => not_congr (and_iff_right_of_imp ?_)
        rintro rfl
        obtain ⟨items, stored, member⟩ := (mirrors.subscribed clientId stream).2 holds
        rw [found, Option.some_inj] at stored
        rw [(order.perm streams).mem_iff, Std.ExtTreeSet.mem_toList, stored]
        exact member

private theorem mirrors_run (inputs : List SubscriptionInput) :
    ∃ relation, (run step new inputs).1.Mirrors relation := by
  apply run_induction step (motive := fun _ manager _ => ∃ relation, manager.Mirrors relation)
  · exact ⟨_, mirrors_new⟩
  · rintro before input - ⟨relation, mirrors⟩
    cases input with
    | subscribe clientId streams => exact ⟨_, (mirrors.subscribe clientId streams).1⟩
    | unsubscribe clientId streams => exact ⟨_, (mirrors.unsubscribe clientId streams).1⟩
    | removeClient clientId order => exact ⟨_, mirrors.removeClient clientId order⟩

end Mirrors

/-- A call has changed the membership of the client in the returned streams, and no other. -/
structure Reports (before after : SubscriptionManager) (clientId : Nat) (returned : List String) :
    Prop where
  nodup : returned.Nodup
  changed : ∀ client stream, ¬ (before.Subscribed client stream ↔ after.Subscribed client stream) ↔
    client = clientId ∧ stream ∈ returned

/-- After every run the two maps mirror each other, no stream has an empty set of clients, and
the next `subscribe` or `unsubscribe` returns the streams whose membership it changes. -/
theorem subscriptions_mirrored (inputs : List SubscriptionInput) :
    let manager := (run step new inputs).1
    (∀ clientId stream, manager.Listed clientId stream ↔ manager.Subscribed clientId stream) ∧
      (∀ stream clients, manager.getClientsForStream stream = some clients → clients ≠ ∅) ∧
      ∀ clientId streams,
        manager.Reports (manager.subscribe clientId streams).1 clientId
          (manager.subscribe clientId streams).2 ∧
        manager.Reports (manager.unsubscribe clientId streams).1 clientId
          (manager.unsubscribe clientId streams).2 := by
  obtain ⟨relation, mirrors⟩ := mirrors_run inputs
  generalize (run step new inputs).1 = manager at mirrors
  refine ⟨fun clientId stream => ?_, mirrors.noEmpty, fun clientId streams => ⟨?_, ?_⟩⟩
  · exact (mirrors.listed clientId stream).trans (mirrors.subscribed clientId stream).symm
  · obtain ⟨after, nodup, returned⟩ := mirrors.subscribe clientId streams
    refine ⟨nodup, fun client stream => ?_⟩
    have now : manager.Subscribed client stream ↔ _ := mirrors.subscribed client stream
    have later : (manager.subscribe clientId streams).1.Subscribed client stream ↔ _ :=
      after.subscribed client stream
    rw [now, later, returned]
    by_cases same : client = clientId
    · subst same
      tauto
    · tauto
  · obtain ⟨after, nodup, returned⟩ := mirrors.unsubscribe clientId streams
    refine ⟨nodup, fun client stream => ?_⟩
    have now : manager.Subscribed client stream ↔ _ := mirrors.subscribed client stream
    have later : (manager.unsubscribe clientId streams).1.Subscribed client stream ↔ _ :=
      after.subscribed client stream
    rw [now, later, returned]
    by_cases same : client = clientId
    · subst same
      tauto
    · tauto

end SubscriptionManager
end Exg
