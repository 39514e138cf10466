import Exg.Gateway.Conversion
import Exg.Ringbuffer.Fifo
import Exg.Server.CheckedLoop

/-!
# The matching thread and its shutdown

Handlers push encoded commands into the ring buffer, one at a time under the producer's lock.
The matching thread pops them, has the engine and the post-trade processor handle them, and
appends one record for each event.  It reads the shutdown flag only when a pop has found the
ring empty.  `shutdown` stops the admin server, then the main one, each of which waits for the
requests in progress, and sets the flag.  A schedule says whose step is next.

A step is one atomic access to the ring's counters or slots, one access to the flag, or one
append; the engine and the processor belong to the thread alone, so that a command is handled
in one step.
-/

namespace Exg

open Support Ringbuffer

/-- An encoding whose decoder gives every value back. -/
structure Codec (α : Type) where
  toBytes : α → List UInt8
  fromBytes : List UInt8 → Except String α
  fromBytes_toBytes : ∀ value, fromBytes (toBytes value) = .ok value

/-- What is fixed while a server runs. -/
structure ServerSetup where
  ring : RingBuffer
  crc : Wal.Checksum
  commands : Codec Command
  events : Codec Event

/-! ## States -/

/-- The panics of the matching thread. -/
inductive ThreadPanic where
  | decode (message : String)
  | ringBuffer (error : RingBufferError)
  /-- An operator of the engine or of the processor. -/
  | overflow
  | clearing (panic : ClearingPanic)
  | append (error : Wal.WalError)
  deriving DecidableEq, Repr

inductive ThreadPoint where
  /-- In `try_pop`, or about to call it. -/
  | popping
  /-- The ring was empty; the shutdown flag is still to be read. -/
  | deciding
  /-- The records of a command that are still to be appended. -/
  | appending (records : List Event)
  | stopped
  | panicked (cause : ThreadPanic)
  deriving DecidableEq, Repr

/-- How far `shutdown` has come. -/
inductive ShutdownPhase where
  | running
  | adminStopped
  | serversStopped
  | signalled
  | joined
  deriving DecidableEq, Repr

structure Server where
  ring : RingState
  /-- The command of the handler that holds the producer's lock. -/
  pushing : Option Command
  thread : ThreadPoint
  loop : CommandLoop
  wal : Wal.WalState
  shutdown : ShutdownPhase

/-- The matching thread's steps carry the time at which a command is popped and the order in
which its funding tick visits the positions. -/
inductive ServerInput where
  | enqueue (command : Command)
  | produce
  | work (now : UnixMicros) (order : IterationOrder)
  | shutdown

inductive ServerEvent where
  /-- The command is in the ring, and its request is answered with 200. -/
  | accepted (command : Command)
  | refused (command : Command) (error : ApiError)
  | popped (message : List UInt8)
  | processed (popped : Popped)
  | appended (record : Event)
  | emptied
  | resumed
  | stopped
  | panicked (cause : ThreadPanic)

/-! ## Handlers -/

/-- The commands that the admin server produces. -/
def Command.fromAdmin : Command → Bool
  | .updateMarkPrice .. | .computeFunding .. | .adminCredit .. => true
  | _ => false

/-- Whether the server that serves a command's request still takes it. -/
def ShutdownPhase.admits (phase : ShutdownPhase) (command : Command) : Bool :=
  match phase with
  | .running => true
  | .adminStopped => !command.fromAdmin
  | _ => false

/-- The flag that the matching thread reads. -/
def ShutdownPhase.flag : ShutdownPhase → Bool
  | .signalled | .joined => true
  | _ => false

def Ringbuffer.RingBufferError.text : RingBufferError → String
  | .wouldBlock => "buffer is full"
  | .empty => "buffer is empty"
  | .messageTooLarge size slotSize =>
      "message too large: " ++ toString size ++ " > slot_size " ++ toString slotSize

/-- What a handler answers when its command does not get into the ring. -/
def pushError : RingBufferError → ApiError
  | .wouldBlock => ⟨-1015, "Too many requests"⟩
  | .messageTooLarge .. => .badRequest "command too large for ring slot"
  | other => ⟨-1000, "ring buffer push: " ++ other.text⟩

namespace Server

variable (setup : ServerSetup) (server : Server)

/-- A handler takes the lock and calls `try_push`. -/
def enqueue (command : Command) : Server × List ServerEvent :=
  if server.pushing = none ∧ server.shutdown.admits command then
    let pushed := setup.ring.tryPush server.ring (setup.commands.toBytes command)
    match pushed.2.head? with
    | some (.pushFailed error) =>
        ({ server with ring := pushed.1 }, [.refused command (pushError error)])
    | _ => ({ server with ring := pushed.1, pushing := some command }, [])
  else (server, [])

/-- The next step of the `try_push` in progress. -/
def produce : Server × List ServerEvent :=
  match server.pushing with
  | none => (server, [])
  | some command =>
      let produced := setup.ring.produce server.ring
      match produced.2.head? with
      | some (.pushed _ _) =>
          ({ server with ring := produced.1, pushing := none }, [.accepted command])
      | some (.pushFailed error) =>
          ({ server with ring := produced.1, pushing := none },
            [.refused command (pushError error)])
      | _ => ({ server with ring := produced.1 }, [])

/-! ## The matching thread -/

def panic (cause : ThreadPanic) : Server × List ServerEvent :=
  ({ server with thread := .panicked cause }, [.panicked cause])

/-- Handle a popped message. -/
def receive (now : UnixMicros) (order : IterationOrder) (message : List UInt8) :
    Server × List ServerEvent :=
  match setup.commands.fromBytes message with
  | .error text => server.panic (.decode text)
  | .ok command =>
      match server.loop.processOne? ⟨command, now, order⟩ with
      | none => server.panic .overflow
      | some (.error panic) => server.panic (.clearing panic)
      | some (.ok (loop, records)) =>
          ({ server with loop, thread := .appending records },
            [.processed ⟨command, now, order⟩])

/-- The next step of `try_pop`, into a buffer of a slot's size. -/
def pop (now : UnixMicros) (order : IterationOrder) : Server × List ServerEvent :=
  let popping :=
    if server.ring.consumer = .idle then
      setup.ring.step server.ring (.pop setup.ring.slotSize)
    else setup.ring.step server.ring .consume
  let server := { server with ring := popping.1 }
  match popping.2.head? with
  | some (.popped message) =>
      let received := server.receive setup now order message
      (received.1, .popped message :: received.2)
  | some (.popFailed .empty) => ({ server with thread := .deciding }, [.emptied])
  | some (.popFailed error) => server.panic (.ringBuffer error)
  | _ => (server, [])

/-- Append one record. -/
def append (record : Event) (rest : List Event) : Server × List ServerEvent :=
  match server.wal.session with
  | none => (server, [])
  | some writer =>
      let payload := setup.events.toBytes record
      match writer.append setup.crc server.wal.directory payload with
      | .error error => server.panic (.append error)
      | .ok (_, directory, next) =>
          ({ server with wal := ⟨directory, some next⟩, thread := .appending rest },
            [.appended record])

/-- The next step of the matching thread. -/
def work (now : UnixMicros) (order : IterationOrder) : Server × List ServerEvent :=
  match server.thread with
  | .popping => server.pop setup now order
  | .deciding =>
      if server.shutdown.flag then
        -- Final WAL flush before exit.
        ({ server with
            wal := (server.wal.step setup.crc .flush).1
            thread := .stopped }, [.stopped])
      else ({ server with thread := .popping }, [.resumed])
  | .appending [] => ({ server with thread := .popping }, [])
  | .appending (record :: rest) => server.append setup record rest
  | .stopped | .panicked _ => (server, [])

/-! ## Shutting down -/

/-- The next step of `shutdown`, when what it waits for is there. -/
def shutDown : Server :=
  match server.shutdown with
  | .running =>
      if server.pushing.all (!·.fromAdmin) then { server with shutdown := .adminStopped }
      else server
  | .adminStopped =>
      if server.pushing = none then { server with shutdown := .serversStopped } else server
  | .serversStopped => { server with shutdown := .signalled }
  | .signalled =>
      match server.thread with
      | .stopped | .panicked _ => { server with shutdown := .joined }
      | _ => server
  | .joined => server

/-- One step of one party. -/
def step (input : ServerInput) : Server × List ServerEvent :=
  match input with
  | .enqueue command => server.enqueue setup command
  | .produce => server.produce setup
  | .work now order => server.work setup now order
  | .shutdown => (server.shutDown, [])

/-- A server whose threads have just been started. -/
def launch (memory : Memory) (loop : CommandLoop) (wal : Wal.WalState) : Server where
  ring := .initial memory 0
  pushing := none
  thread := .popping
  loop
  wal
  shutdown := .running

end Server
end Exg
