import Exg.Support.Bytes
import Exg.Support.Machine
import Exg.Support.Memory

/-!
# The ring buffer

One producer and one consumer share two 64-bit counters and a region of slots.  Each of
their calls is a sequence of atomic steps (load, load, slot access, store); a schedule says
whose step is next.
-/

namespace Exg.Ringbuffer

open Support

/-- A ring's dimensions, as `new` accepts them, with room for the header in each slot. -/
structure RingBuffer where
  slotCount : Nat
  slotSize : Nat
  powerOfTwo : ∃ bits < 64, slotCount = 2 ^ bits
  header : 4 ≤ slotSize

inductive RingBufferError where
  | wouldBlock
  | empty
  | messageTooLarge (size slotSize : Nat)
  deriving DecidableEq, Repr

/-- Start of the slots in the mapped memory. -/
def slotsOffset : Nat := 512

/-- Message header size within each slot. -/
def msgHeaderSize : Nat := 4

/-! ## Calls in progress -/

/-- What a `try_push` holds before its next step. -/
inductive Producer where
  | idle
  /-- The tail is loaded. -/
  | loaded (data : List UInt8) (tail : UInt64)
  /-- The head is loaded too, and there was room. -/
  | admitted (data : List UInt8) (tail : UInt64)
  /-- The slot is written. -/
  | written (data : List UInt8) (tail : UInt64)
  deriving DecidableEq, Repr

/-- What a `try_pop` into a buffer of some length holds before its next step. -/
inductive Consumer where
  | idle
  /-- The head is loaded. -/
  | loaded (bufferLen : Nat) (head : UInt64)
  /-- The tail is loaded too, and there was a message. -/
  | admitted (bufferLen : Nat) (head : UInt64)
  /-- The slot is copied. -/
  | copied (message : List UInt8) (head : UInt64)
  deriving DecidableEq, Repr

structure RingState where
  memory : Memory
  head : UInt64
  tail : UInt64
  producer : Producer
  consumer : Consumer

inductive RingInput where
  /-- The producer calls `try_push`. -/
  | push (data : List UInt8)
  /-- The producer's next step. -/
  | produce
  /-- The consumer calls `try_pop`. -/
  | pop (bufferLen : Nat)
  /-- The consumer's next step. -/
  | consume
  deriving DecidableEq, Repr

inductive RingEvent where
  | pushed (sequence : UInt64) (data : List UInt8)
  | pushFailed (error : RingBufferError)
  | popped (message : List UInt8)
  | popFailed (error : RingBufferError)
  deriving DecidableEq, Repr

namespace RingBuffer

variable (ring : RingBuffer)

def mask : Nat := ring.slotCount - 1

/-- Maximum payload bytes per slot. -/
def maxPayload : Nat := ring.slotSize - msgHeaderSize

/-- The slot of a counter's value. -/
def slotIndex (counter : UInt64) : Nat := counter.toNat &&& ring.mask

def slotPtr (index : Nat) : Nat := slotsOffset + index * ring.slotSize

/-- Write the message length and the payload. -/
def writeSlot (memory : Memory) (tail : UInt64) (data : List UInt8) : Memory :=
  let slot := ring.slotPtr (ring.slotIndex tail)
  (memory.write slot (leBytes 4 data.length)).write (slot + msgHeaderSize) data

/-- Read the message length and copy the payload. -/
def readSlot (memory : Memory) (head : UInt64) (bufferLen : Nat) : List UInt8 :=
  let slot := ring.slotPtr (ring.slotIndex head)
  let msgLen := leValue (memory.read slot msgHeaderSize)
  let copyLen := min (min msgLen bufferLen) ring.maxPayload
  memory.read (slot + msgHeaderSize) copyLen

/-- The first step of `try_push`: check the size and load the tail. -/
def tryPush (state : RingState) (data : List UInt8) : RingState × List RingEvent :=
  if data.length > ring.maxPayload then
    (state, [.pushFailed (.messageTooLarge data.length ring.slotSize)])
  else
    ({ state with producer := .loaded data state.tail }, [])

/-- The later steps of `try_push`. -/
def produce (state : RingState) : RingState × List RingEvent :=
  match state.producer with
  | .idle => (state, [])
  | .loaded data tail =>
      if (tail - state.head).toNat ≥ ring.slotCount then
        ({ state with producer := .idle }, [.pushFailed .wouldBlock])
      else
        ({ state with producer := .admitted data tail }, [])
  | .admitted data tail =>
      ({ state with
          memory := ring.writeSlot state.memory tail data
          producer := .written data tail }, [])
  | .written data tail =>
      ({ state with tail := tail + 1, producer := .idle }, [.pushed tail data])

/-- The later steps of `try_pop`. -/
def consume (state : RingState) : RingState × List RingEvent :=
  match state.consumer with
  | .idle => (state, [])
  | .loaded bufferLen head =>
      if head = state.tail then
        ({ state with consumer := .idle }, [.popFailed .empty])
      else
        ({ state with consumer := .admitted bufferLen head }, [])
  | .admitted bufferLen head =>
      let message := ring.readSlot state.memory head bufferLen
      ({ state with consumer := .copied message head }, [])
  | .copied message head =>
      ({ state with head := head + 1, consumer := .idle }, [.popped message])

/-- One atomic step.  A party with a call in progress starts no other one. -/
def step (state : RingState) (input : RingInput) : RingState × List RingEvent :=
  match input with
  | .push data => if state.producer = .idle then ring.tryPush state data else (state, [])
  | .produce => ring.produce state
  | .pop bufferLen =>
      if state.consumer = .idle then
        ({ state with consumer := .loaded bufferLen state.head }, [])
      else (state, [])
  | .consume => ring.consume state

end RingBuffer

/-- An empty ring whose counters start anywhere, over any memory. -/
def RingState.initial (memory : Memory) (start : UInt64) : RingState :=
  { memory, head := start, tail := start, producer := .idle, consumer := .idle }

end Exg.Ringbuffer
