import Exg.Server.MatchingThread
import Exg.Support.Polling

/-!
# What the matching thread takes from the ring

Whatever the order of the parties' steps, the thread takes the accepted commands in the order
in which they were accepted, and each of them once.  When it stops, the commands that it leaves
in the ring are exactly those that were accepted after it had last found the ring empty.
-/

namespace Exg

open Support Ringbuffer

/-! ## What one step of a ring does -/

namespace Ringbuffer.RingBuffer

variable (ring : RingBuffer) (state : RingState)

private theorem tryPush_cases (data : List UInt8) :
    (∃ error, ring.tryPush state data = (state, [.pushFailed error])) ∨
      ring.tryPush state data = ({ state with producer := .loaded data state.tail }, []) := by
  rw [tryPush]
  split
  · exact Or.inl ⟨_, rfl⟩
  · exact Or.inr rfl

/-- A step of `try_push` goes on, publishes its message or fails. -/
theorem produce_cases :
    (ring.produce state).1.consumer = state.consumer ∧
      ((ring.produce state).2 = [] ∧
          (ring.produce state).1.producer.data = state.producer.data ∨
        (ring.produce state).1.producer.data = [] ∧
          ((∃ data tail, state.producer.data = [data] ∧
              (ring.produce state).2 = [.pushed tail data]) ∨
            ∃ error, (ring.produce state).2 = [.pushFailed error])) := by
  rw [produce]
  cases call : state.producer with
  | idle => exact ⟨rfl, Or.inl ⟨rfl, by simp only [call]⟩⟩
  | loaded data tail =>
      simp only
      split
      · exact ⟨rfl, Or.inr ⟨rfl, Or.inr ⟨_, rfl⟩⟩⟩
      · exact ⟨rfl, Or.inl ⟨rfl, rfl⟩⟩
  | admitted data tail => exact ⟨rfl, Or.inl ⟨rfl, rfl⟩⟩
  | written data tail => exact ⟨rfl, Or.inr ⟨rfl, Or.inl ⟨data, tail, rfl, rfl⟩⟩⟩

/-- A step of `try_pop` goes on, takes a message or finds the ring empty. -/
theorem consume_cases :
    (ring.consume state).1.producer = state.producer ∧
      ((ring.consume state).2 = [] ∨
        (ring.consume state).1.consumer = .idle ∧
          ((∃ message, (ring.consume state).2 = [.popped message]) ∨
            (ring.consume state).2 = [.popFailed .empty] ∧
              ∃ bufferLen, state.consumer = .loaded bufferLen state.tail)) := by
  rw [consume]
  cases call : state.consumer with
  | idle => exact ⟨rfl, Or.inl rfl⟩
  | loaded bufferLen head =>
      simp only
      split
      · rename_i same
        exact ⟨rfl, Or.inr ⟨rfl, Or.inr ⟨rfl, bufferLen, by rw [same]⟩⟩⟩
      · exact ⟨rfl, Or.inl rfl⟩
  | admitted bufferLen head => exact ⟨rfl, Or.inl rfl⟩
  | copied message head => exact ⟨rfl, Or.inr ⟨rfl, Or.inl ⟨message, rfl⟩⟩⟩

end Ringbuffer.RingBuffer

section Queue

variable {capacity : Nat} {queue next : List (List UInt8)}

private theorem Ringbuffer.queue_pushed {sequence : UInt64} {data : List UInt8}
    (trace : Trace (QueueStep capacity) queue [.pushed sequence data] next) :
    next = queue ++ [data] := by
  cases trace with
  | cons now later =>
      cases later
      cases now
      rfl

private theorem Ringbuffer.queue_popped {message : List UInt8}
    (trace : Trace (QueueStep capacity) queue [.popped message] next) :
    ∃ first, queue = first :: next ∧ message = delivered first := by
  cases trace with
  | cons now later =>
      cases later
      cases now
      exact ⟨_, rfl, rfl⟩

private theorem Ringbuffer.queue_pushFailed {error : RingBufferError}
    (trace : Trace (QueueStep capacity) queue [.pushFailed error] next) : next = queue := by
  cases trace with
  | cons now later =>
      cases later
      cases now
      rfl

private theorem Ringbuffer.queue_popFailed {error : RingBufferError}
    (trace : Trace (QueueStep capacity) queue [.popFailed error] next) : next = queue := by
  cases trace with
  | cons now later =>
      cases later
      cases now
      rfl

end Queue

namespace Ringbuffer.Related

variable {ring : RingBuffer} {state : RingState} {queue : List (List UInt8)}

/-- A consumer that loads a tail equal to its head has found the ring empty. -/
theorem queue_eq_nil (related : Related ring state queue) {bufferLen : Nat}
    (found : state.consumer = .loaded bufferLen state.tail) : queue = [] := by
  have known := related.consumer
  rw [ConsumerHolds, found] at known
  have inFlight := related.inFlight
  rw [known.1, UInt64.sub_self] at inFlight
  exact List.length_eq_zero_iff.1 inFlight.symm

end Ringbuffer.Related

/-! ## The thread as a polling worker -/

/-- Where the thread is in its loop; it handles a message before it polls again. -/
def ThreadPoint.worker : ThreadPoint → WorkerPoint
  | .deciding => .deciding
  | .stopped => .stopped
  | _ => .polling

/-- The thread has panicked before it had handled the message it had popped. -/
def ThreadPoint.Drops : ThreadPoint → Prop
  | .panicked (.append _) => False
  | .panicked _ => True
  | _ => False

namespace Server

variable (setup : ServerSetup)

/-- What an event means to the queue of commands. -/
def poll? : ServerEvent → Option (PollEvent Command)
  | .accepted command => some (.arrived command)
  | .popped message => (setup.commands.fromBytes message).toOption.map .taken
  | .emptied => some .emptied
  | .resumed => some .resumed
  | .stopped => some .stopped
  | _ => none

/-- A server against the queue that it keeps in its ring. -/
structure Coupled (server : Server) (polled : Polled Command) : Prop where
  ring : Related setup.ring server.ring (polled.queue.map setup.commands.toBytes)
  pushing : server.ring.producer.data = server.pushing.toList.map setup.commands.toBytes
  worker : polled.worker = server.thread.worker
  away : server.thread ≠ .popping → server.ring.consumer = .idle

variable {setup} {server : Server} {polled : Polled Command}

theorem Coupled.enqueue (coupled : Coupled setup server polled) (command : Command) :
    ((server.enqueue setup command).2.filterMap (poll? setup) = []) ∧
      Coupled setup (server.enqueue setup command).1 polled := by
  rw [Server.enqueue]
  split
  · rename_i admitted
    have related := (coupled.ring.tryPush (setup.commands.toBytes command)).2
    rcases setup.ring.tryPush_cases server.ring (setup.commands.toBytes command) with
      ⟨error, fails⟩ | starts
    · rw [fails]
      exact ⟨rfl, coupled.ring, coupled.pushing, coupled.worker, coupled.away⟩
    · rw [starts] at related ⊢
      exact ⟨rfl, related, rfl, coupled.worker, coupled.away⟩
  · exact ⟨rfl, coupled⟩

theorem Coupled.produce (coupled : Coupled setup server polled) :
    ∃ next, Trace PollStep polled ((server.produce setup).2.filterMap (poll? setup)) next ∧
      Coupled setup (server.produce setup).1 next := by
  obtain ⟨held, worker⟩ := polled
  rw [Server.produce]
  cases pushing : server.pushing with
  | none => exact ⟨_, .nil, coupled⟩
  | some command =>
      obtain ⟨queue, trace, related⟩ := coupled.ring.produce
      obtain ⟨consumer, goesOn | ⟨done, published | ⟨error, fails⟩⟩⟩ :=
        setup.ring.produce_cases server.ring
      all_goals have away := coupled.away
      all_goals rw [← consumer] at away
      · rw [goesOn.1] at trace
        cases trace
        simp only [goesOn.1, List.head?_nil]
        refine ⟨_, .nil, related, ?_, coupled.worker, away⟩
        rw [goesOn.2, coupled.pushing, pushing]
      · obtain ⟨data, tail, written, published⟩ := published
        have same := coupled.pushing
        rw [written, pushing] at same
        cases List.singleton_inj.1 same
        rw [published] at trace
        simp only [published, List.head?_cons]
        have longer : queue = (held ++ [command]).map setup.commands.toBytes := by
          rw [queue_pushed trace, List.map_append, List.map_singleton]
        rw [longer] at related
        exact ⟨_, .single .arrived, related, done, coupled.worker, away⟩
      · rw [fails] at trace
        simp only [fails, List.head?_cons]
        rw [queue_pushFailed trace] at related
        exact ⟨_, .nil, related, done, coupled.worker, away⟩

/-- Handling a message takes nothing from the ring. -/
theorem receive_frame (setup : ServerSetup) (server : Server) (now : UnixMicros)
    (order : IterationOrder) (message : List UInt8) :
    (server.receive setup now order message).2.filterMap (poll? setup) = [] ∧
      (server.receive setup now order message).1.ring = server.ring ∧
      (server.receive setup now order message).1.pushing = server.pushing ∧
      (server.receive setup now order message).1.thread.worker = .polling := by
  rw [receive]
  split
  · exact ⟨rfl, rfl, rfl, rfl⟩
  · split <;> exact ⟨rfl, rfl, rfl, rfl⟩

/-- The message that is taken from a queue of encoded commands. -/
theorem popped_first {capacity : Nat} {queue : List Command} {message : List UInt8}
    {rest : List (List UInt8)}
    (trace : Trace (QueueStep capacity) (queue.map setup.commands.toBytes) [.popped message]
      rest) :
    ∃ command others, queue = command :: others ∧ rest = others.map setup.commands.toBytes ∧
      message = delivered (setup.commands.toBytes command) := by
  obtain ⟨first, encoded, same⟩ := queue_popped trace
  obtain ⟨command, others, rfl, rfl, rfl⟩ := List.map_eq_cons_iff.1 encoded
  exact ⟨command, others, rfl, rfl, same⟩

/-- What a step of `try_pop` does: it goes on, takes the first command of the queue and handles
it, or finds the queue empty. -/
theorem Coupled.pop_cases (coupled : Coupled setup server polled)
    (slots : setup.ring.maxPayload < 2 ^ 32) (now : UnixMicros) (order : IterationOrder) :
    ∃ ring, ring.producer = server.ring.producer ∧
      ((server.pop setup now order = ({ server with ring }, []) ∧
          Related setup.ring ring (polled.queue.map setup.commands.toBytes)) ∨
        ring.consumer = .idle ∧
          ((∃ command rest, polled.queue = command :: rest ∧
              Related setup.ring ring (rest.map setup.commands.toBytes) ∧
              let received := { server with ring }.receive setup now order
                (setup.commands.toBytes command)
              server.pop setup now order =
                (received.1, .popped (setup.commands.toBytes command) :: received.2)) ∨
            polled.queue = [] ∧ Related setup.ring ring [] ∧
              server.pop setup now order =
                ({ server with ring, thread := .deciding }, [.emptied]))) := by
  rw [Server.pop]
  by_cases idle : server.ring.consumer = .idle
  · have related := coupled.ring.tryPop (Nat.sub_le setup.ring.slotSize msgHeaderSize)
    simp only [if_pos idle, RingBuffer.step, List.head?_nil]
    refine ⟨{ server.ring with consumer := .loaded setup.ring.slotSize server.ring.head }, rfl, ?_⟩
    exact Or.inl ⟨rfl, related⟩
  · simp only [if_neg idle, RingBuffer.step]
    obtain ⟨rest, trace, related⟩ := coupled.ring.consume
    obtain ⟨producer, goesOn | ⟨done, ⟨message, taken⟩ | ⟨empty, bufferLen, found⟩⟩⟩ :=
      setup.ring.consume_cases server.ring
    · rw [goesOn] at trace
      cases trace
      simp only [goesOn, List.head?_nil]
      exact ⟨_, producer, Or.inl ⟨rfl, related⟩⟩
    · rw [taken] at trace
      simp only [taken, List.head?_cons]
      obtain ⟨command, others, queue, rfl, rfl⟩ := popped_first trace
      have size := (coupled.ring.contents 0 (setup.commands.toBytes command) (by simp [queue])).size
      rw [delivered_of_short (lt_of_le_of_lt size slots)]
      exact ⟨_, producer, Or.inr ⟨done, Or.inl ⟨command, others, queue, related, rfl⟩⟩⟩
    · rw [empty] at trace
      simp only [empty, List.head?_cons]
      rw [queue_popFailed trace] at related
      have nothing := coupled.ring.queue_eq_nil found
      rw [nothing] at related
      exact ⟨_, producer, Or.inr ⟨done, Or.inr ⟨List.map_eq_nil_iff.1 nothing, related, rfl⟩⟩⟩

theorem Coupled.pop (coupled : Coupled setup server polled) (polling : server.thread = .popping)
    (slots : setup.ring.maxPayload < 2 ^ 32) (now : UnixMicros) (order : IterationOrder) :
    ∃ next, Trace PollStep polled ((server.pop setup now order).2.filterMap (poll? setup)) next ∧
      Coupled setup (server.pop setup now order).1 next := by
  have worker : polled.worker = .polling := by
    rw [coupled.worker, polling]
    rfl
  have pushing := coupled.pushing
  obtain ⟨ring, producer, ⟨outcome, related⟩ | ⟨idle, ⟨command, rest, queue, related, outcome⟩ |
    ⟨queue, related, outcome⟩⟩⟩ := coupled.pop_cases slots now order
  all_goals rw [← producer] at pushing
  all_goals rw [outcome]
  · exact ⟨polled, .nil, related, pushing, coupled.worker, fun away => absurd polling away⟩
  · obtain ⟨silent, sameRing, samePushing, polls⟩ := receive_frame setup
      { server with ring } now order (setup.commands.toBytes command)
    obtain ⟨held, point⟩ := polled
    cases worker
    cases queue
    refine ⟨⟨rest, .polling⟩, ?_, ?_, ?_, polls.symm, fun _ => ?_⟩
    · rw [List.filterMap_cons, poll?, setup.commands.fromBytes_toBytes, silent]
      exact .single .taken
    · rw [sameRing]
      exact related
    · rw [sameRing, samePushing]
      exact pushing
    · rw [sameRing]
      exact idle
  · obtain ⟨held, point⟩ := polled
    cases worker
    cases queue
    exact ⟨⟨[], .deciding⟩, .single .emptied, related, pushing, rfl, fun _ => idle⟩

/-- The thread panics before it has handled a command only when an operator or the processor
does. -/
theorem Coupled.pop_drops (coupled : Coupled setup server polled)
    (polling : server.thread = .popping) (slots : setup.ring.maxPayload < 2 ^ 32)
    {now : UnixMicros} {order : IterationOrder}
    (drops : (server.pop setup now order).1.thread.Drops) :
    (server.pop setup now order).1.thread = .panicked .overflow ∨
      ∃ command rest panic, polled.queue = command :: rest ∧
        server.loop.processOne? ⟨command, now, order⟩ = some (.error panic) := by
  obtain ⟨ring, -, ⟨outcome, -⟩ | ⟨-, ⟨command, rest, queue, -, outcome⟩ | ⟨-, -, outcome⟩⟩⟩ :=
    coupled.pop_cases slots now order
  all_goals rw [outcome] at drops
  · rw [polling] at drops
    cases drops
  · rw [outcome]
    simp only [receive, setup.commands.fromBytes_toBytes] at drops ⊢
    split at drops
    · exact Or.inl rfl
    · rename_i panic panics
      exact Or.inr ⟨command, rest, panic, queue, panics⟩
    · cases drops
  · cases drops

/-- Appending takes nothing from the ring. -/
theorem append_frame (setup : ServerSetup) (server : Server) (record : Event) (rest : List Event)
    (writing : server.thread.worker = .polling) :
    (server.append setup record rest).2.filterMap (poll? setup) = [] ∧
      (server.append setup record rest).1.ring = server.ring ∧
      (server.append setup record rest).1.pushing = server.pushing ∧
      (server.append setup record rest).1.thread.worker = .polling := by
  rw [append]
  split
  · exact ⟨rfl, rfl, rfl, writing⟩
  · dsimp only
    split <;> exact ⟨rfl, rfl, rfl, rfl⟩

theorem Coupled.work (coupled : Coupled setup server polled)
    (slots : setup.ring.maxPayload < 2 ^ 32) (now : UnixMicros) (order : IterationOrder) :
    ∃ next, Trace PollStep polled ((server.work setup now order).2.filterMap (poll? setup)) next ∧
      Coupled setup (server.work setup now order).1 next := by
  rw [Server.work]
  have worker := coupled.worker
  have away := coupled.away
  cases point : server.thread with
  | popping => exact coupled.pop point slots now order
  | deciding =>
      rw [point] at worker away
      obtain ⟨queue, _⟩ := polled
      cases worker
      simp only
      split
      · exact ⟨⟨queue, .stopped⟩, .single .stopped, coupled.ring, coupled.pushing, rfl,
          fun _ => away (by simp)⟩
      · exact ⟨⟨queue, .polling⟩, .single .resumed, coupled.ring, coupled.pushing, rfl,
          fun stays => absurd rfl stays⟩
  | appending records =>
      rw [point] at worker away
      cases records with
      | nil =>
          exact ⟨polled, .nil, coupled.ring, coupled.pushing, worker, fun stays => absurd rfl stays⟩
      | cons record rest =>
          obtain ⟨silent, ring, pushing, kept⟩ :=
            append_frame setup server record rest (by rw [point]; rfl)
          refine ⟨polled, ?_, ?_⟩
          · simp only [silent]
            exact .nil
          · refine ⟨by rw [ring]; exact coupled.ring, ?_, worker.trans kept.symm, fun _ => ?_⟩
            · rw [ring, pushing]
              exact coupled.pushing
            · rw [ring]
              exact away (by simp)
  | stopped => exact ⟨polled, .nil, coupled⟩
  | panicked cause => exact ⟨polled, .nil, coupled⟩

/-- `shutdown` moves nothing but its own phase. -/
theorem shutDown_frame (server : Server) :
    server.shutDown = { server with shutdown := server.shutDown.shutdown } := by
  rw [shutDown]
  repeat' split
  all_goals rfl

theorem Coupled.step (coupled : Coupled setup server polled)
    (slots : setup.ring.maxPayload < 2 ^ 32) (input : ServerInput) :
    ∃ next, Trace PollStep polled ((server.step setup input).2.filterMap (poll? setup)) next ∧
      Coupled setup (server.step setup input).1 next := by
  cases input with
  | enqueue command =>
      obtain ⟨silent, kept⟩ := coupled.enqueue command
      refine ⟨polled, ?_, kept⟩
      rw [Server.step, silent]
      exact .nil
  | produce => exact coupled.produce
  | work now order => exact coupled.work slots now order
  | shutdown =>
      refine ⟨polled, .nil, ?_⟩
      rw [Server.step, shutDown_frame]
      exact ⟨coupled.ring, coupled.pushing, coupled.worker, coupled.away⟩

theorem coupled_launch (setup : ServerSetup) (memory : Memory) (loop : CommandLoop)
    (wal : Wal.WalState) : Coupled setup (launch memory loop wal) ⟨[], .polling⟩ :=
  ⟨related_initial setup.ring memory 0, rfl, rfl, fun away => absurd rfl away⟩

end Server
end Exg
