import Exg.Ringbuffer.Buffer

/-!
# The ring buffer is a bounded queue

Every interleaving of the two parties' steps is a run of a bounded first-in first-out queue:
a message enters it when its tail is published and leaves it when the head moves on.  The
length header has 32 bits, so that a message arrives as the prefix of that length.
-/

namespace Exg.Ringbuffer

open Support

/-! ## The queue -/

/-- What is left of a message after its length went through the header. -/
def delivered (message : List UInt8) : List UInt8 := message.take (message.length % 2 ^ 32)

/-- The steps of a bounded queue.  A failed call changes nothing. -/
inductive QueueStep (capacity : Nat) :
    List (List UInt8) → RingEvent → List (List UInt8) → Prop where
  | pushed {queue : List (List UInt8)} {sequence : UInt64} {data : List UInt8}
      (room : queue.length < capacity) :
      QueueStep capacity queue (.pushed sequence data) (queue ++ [data])
  | popped {message : List UInt8} {rest : List (List UInt8)} :
      QueueStep capacity (message :: rest) (.popped (delivered message)) rest
  | pushFailed {queue : List (List UInt8)} {error : RingBufferError} :
      QueueStep capacity queue (.pushFailed error) queue
  | popFailed {queue : List (List UInt8)} {error : RingBufferError} :
      QueueStep capacity queue (.popFailed error) queue

def pushedMessages (log : List RingEvent) : List (List UInt8) :=
  log.filterMap fun
    | .pushed _ data => some data
    | _ => none

def poppedMessages (log : List RingEvent) : List (List UInt8) :=
  log.filterMap fun
    | .popped message => some message
    | _ => none

theorem delivered_of_short {message : List UInt8} (short : message.length < 2 ^ 32) :
    delivered message = message := by
  rw [delivered, Nat.mod_eq_of_lt short, List.take_length]

section Queue

variable {capacity : Nat} {queue final : List (List UInt8)} {log : List RingEvent}

/-- What a queue held and got is what left it and what it still holds, in this order. -/
theorem queue_trace (trace : Trace (QueueStep capacity) queue log final) :
    ∃ taken, queue ++ pushedMessages log = taken ++ final ∧
      poppedMessages log = taken.map delivered := by
  induction trace with
  | nil => exact ⟨[], by simp [pushedMessages], rfl⟩
  | @cons queue middle final event rest now _ inductionHypothesis =>
      obtain ⟨taken, balance, left⟩ := inductionHypothesis
      cases now with
      | @pushed _ sequence data room =>
          refine ⟨taken, ?_, left⟩
          rw [List.append_assoc] at balance
          exact balance
      | @popped message _ =>
          refine ⟨message :: taken, ?_, ?_⟩
          · exact congrArg (message :: ·) balance
          · exact congrArg (delivered message :: ·) left
      | pushFailed => exact ⟨taken, balance, left⟩
      | popFailed => exact ⟨taken, balance, left⟩

end Queue

/-! ## Counters and slots -/

section Ring

variable {ring : RingBuffer} {state : RingState} {queue : List (List UInt8)}
  {message : List UInt8}

namespace RingBuffer

private theorem slotCount_lt (ring : RingBuffer) : ring.slotCount < 2 ^ 64 := by
  obtain ⟨bits, small, power⟩ := ring.powerOfTwo
  rw [power]
  exact Nat.pow_lt_pow_right (by decide) small

/-- Masking is the remainder, across the counters' wrap-around. -/
theorem slotIndex_eq (ring : RingBuffer) (head : UInt64) (offset : Nat) :
    ring.slotIndex (head + .ofNat offset) = (head.toNat + offset) % ring.slotCount := by
  obtain ⟨bits, small, power⟩ := ring.powerOfTwo
  have divides : 2 ^ bits ∣ 2 ^ 64 := Nat.pow_dvd_pow 2 small.le
  rw [slotIndex, mask, power, Nat.and_two_pow_sub_one_eq_mod, UInt64.toNat_add,
    UInt64.toNat_ofNat', Nat.add_mod_mod, Nat.mod_mod_of_dvd _ divides]

/-- Counters less than a round apart have different slots. -/
theorem slotIndex_ne (ring : RingBuffer) (head : UInt64) {first second : Nat}
    (before : first < second) (near : second < first + ring.slotCount) :
    ring.slotIndex (head + .ofNat first) ≠ ring.slotIndex (head + .ofNat second) := by
  rw [slotIndex_eq, slotIndex_eq]
  intro same
  have apart := Nat.sub_mod_eq_zero_of_mod_eq same.symm
  rw [Nat.add_sub_add_left, Nat.mod_eq_of_lt (by omega)] at apart
  omega

/-- Different slots are disjoint. -/
theorem slotPtr_apart (ring : RingBuffer) {first second : Nat} (differ : first ≠ second) :
    ring.slotPtr first + ring.slotSize ≤ ring.slotPtr second ∨
      ring.slotPtr second + ring.slotSize ≤ ring.slotPtr first := by
  rw [slotPtr, slotPtr, Nat.add_assoc, Nat.add_assoc, ← Nat.succ_mul, ← Nat.succ_mul]
  cases Nat.lt_or_gt_of_ne differ with
  | inl before => exact Or.inl (Nat.add_le_add_left (Nat.mul_le_mul_right _ before) _)
  | inr behind => exact Or.inr (Nat.add_le_add_left (Nat.mul_le_mul_right _ behind) _)

/-! ## Messages in slots -/

/-- The slot of a counter's value holds a message. -/
structure Holds (ring : RingBuffer) (memory : Memory) (counter : UInt64) (message : List UInt8) :
    Prop where
  size : message.length ≤ ring.maxPayload
  header : memory.read (ring.slotPtr (ring.slotIndex counter)) msgHeaderSize =
    leBytes msgHeaderSize message.length
  payload : memory.read (ring.slotPtr (ring.slotIndex counter) + msgHeaderSize) message.length =
    message

private theorem holds_writeSlot (memory : Memory) (tail : UInt64)
    (size : message.length ≤ ring.maxPayload) :
    ring.Holds (ring.writeSlot memory tail message) tail message where
  size := size
  header := by
    rw [writeSlot, Memory.read_write_apart (Or.inl (Nat.le_refl _))]
    exact Memory.read_write memory _ (leBytes 4 message.length)
  payload := Memory.read_write _ _ message

/-- Writing one slot keeps the message in another. -/
theorem Holds.writeSlot {memory : Memory} {counter tail : UInt64}
    (holds : ring.Holds memory counter message) {data : List UInt8}
    (size : data.length ≤ ring.maxPayload)
    (differ : ring.slotIndex counter ≠ ring.slotIndex tail) :
    ring.Holds (ring.writeSlot memory tail data) counter message := by
  have apart := ring.slotPtr_apart differ
  have room := ring.header
  have fits := holds.size
  rw [maxPayload, msgHeaderSize] at fits size
  refine ⟨holds.size, ?_, ?_⟩
  · rw [RingBuffer.writeSlot, Memory.read_write_apart, Memory.read_write_apart, holds.header]
    · rw [length_leBytes, msgHeaderSize]
      omega
    · rw [msgHeaderSize]
      omega
  · rw [RingBuffer.writeSlot, Memory.read_write_apart, Memory.read_write_apart, holds.payload]
    · rw [length_leBytes, msgHeaderSize]
      omega
    · rw [msgHeaderSize]
      omega

theorem Holds.readSlot {memory : Memory} {head : UInt64}
    (holds : ring.Holds memory head message) {bufferLen : Nat}
    (large : ring.maxPayload ≤ bufferLen) :
    ring.readSlot memory head bufferLen = delivered message := by
  have length : message.length % 2 ^ 32 ≤ message.length := Nat.mod_le _ _
  have msgLen : leValue (leBytes msgHeaderSize message.length) = message.length % 2 ^ 32 :=
    leValue_leBytes_mod 4 message.length
  have copyLen : min (min (message.length % 2 ^ 32) bufferLen) ring.maxPayload =
      message.length % 2 ^ 32 := by
    have size := holds.size
    omega
  rw [RingBuffer.readSlot, holds.header, msgLen, copyLen, Memory.read_take length, holds.payload,
    delivered]

end RingBuffer

/-! ## The ring against the queue -/

/-- A consumer's buffer has room for every payload. -/
def RingInput.BufferFits (ring : RingBuffer) : RingInput → Prop
  | .pop bufferLen => ring.maxPayload ≤ bufferLen
  | _ => True

/-- A message that fits a slot has a length that the header can hold. -/
def RingInput.Short (ring : RingBuffer) : RingInput → Prop
  | .push data => data.length ≤ ring.maxPayload → data.length < 2 ^ 32
  | _ => True

instance (ring : RingBuffer) : DecidablePred (RingInput.BufferFits ring)
  | .push _ => isTrue trivial
  | .produce => isTrue trivial
  | .pop bufferLen => inferInstanceAs (Decidable (ring.maxPayload ≤ bufferLen))
  | .consume => isTrue trivial

instance (ring : RingBuffer) : DecidablePred (RingInput.Short ring)
  | .push data => inferInstanceAs (Decidable (data.length ≤ ring.maxPayload → _))
  | .produce => isTrue trivial
  | .pop _ => isTrue trivial
  | .consume => isTrue trivial

/-- What the producer knows: its tail is current, the room it saw stays, and the message it
wrote is in its slot. -/
def ProducerHolds (ring : RingBuffer) (state : RingState) (queue : List (List UInt8)) : Prop :=
  match state.producer with
  | .idle => True
  | .loaded data tail => tail = state.tail ∧ data.length ≤ ring.maxPayload
  | .admitted data tail =>
      tail = state.tail ∧ data.length ≤ ring.maxPayload ∧ queue.length < ring.slotCount
  | .written data tail =>
      tail = state.tail ∧ queue.length < ring.slotCount ∧ ring.Holds state.memory tail data

/-- What the consumer knows: its head is current, and the message it saw stays. -/
def ConsumerHolds (ring : RingBuffer) (state : RingState) (queue : List (List UInt8)) : Prop :=
  match state.consumer with
  | .idle => True
  | .loaded bufferLen head => head = state.head ∧ ring.maxPayload ≤ bufferLen
  | .admitted bufferLen head =>
      head = state.head ∧ ring.maxPayload ≤ bufferLen ∧ queue ≠ []
  | .copied message head => head = state.head ∧ queue.head?.map delivered = some message

structure Related (ring : RingBuffer) (state : RingState) (queue : List (List UInt8)) : Prop where
  tail : state.tail = state.head + .ofNat queue.length
  bound : queue.length ≤ ring.slotCount
  contents : ∀ index message, queue[index]? = some message →
    ring.Holds state.memory (state.head + .ofNat index) message
  producer : ProducerHolds ring state queue
  consumer : ConsumerHolds ring state queue

namespace Related

/-- The difference of the counters, across their wrap-around. -/
theorem inFlight (related : Related ring state queue) :
    (state.tail - state.head).toNat = queue.length := by
  have bound := related.bound
  have small := ring.slotCount_lt
  rw [related.tail, UInt64.add_comm, UInt64.add_sub_cancel, UInt64.toNat_ofNat',
    Nat.mod_eq_of_lt (by omega)]

private theorem queue_ne_nil (related : Related ring state queue)
    (differ : state.head ≠ state.tail) :
    queue ≠ [] := by
  intro empty
  have tail := related.tail
  rw [empty] at tail
  exact differ (tail.trans (UInt64.add_zero _)).symm

/-- The consumer's knowledge survives a push. -/
theorem consumer_concat (related : Related ring state queue) (data : List UInt8) :
    ConsumerHolds ring state (queue ++ [data]) := by
  have known := related.consumer
  rw [ConsumerHolds] at known ⊢
  cases call : state.consumer with
  | idle => trivial
  | loaded bufferLen head =>
      simp only [call] at known ⊢
      exact known
  | admitted bufferLen head =>
      simp only [call] at known ⊢
      exact ⟨known.1, known.2.1, by simp⟩
  | copied message head =>
      simp only [call] at known ⊢
      refine ⟨known.1, ?_⟩
      cases queue with
      | nil => cases known.2
      | cons first rest => exact known.2

/-- The producer's knowledge survives a pop. -/
theorem producer_tail {first : List UInt8} {rest : List (List UInt8)}
    (related : Related ring state (first :: rest)) : ProducerHolds ring state rest := by
  have known := related.producer
  have bound := related.bound
  rw [List.length_cons] at bound
  rw [ProducerHolds] at known ⊢
  cases call : state.producer with
  | idle => trivial
  | loaded data tail =>
      simp only [call] at known ⊢
      exact known
  | admitted data tail =>
      simp only [call] at known ⊢
      exact ⟨known.1, known.2.1, by omega⟩
  | written data tail =>
      simp only [call] at known ⊢
      exact ⟨known.1, by omega, known.2.2⟩

theorem tryPush (related : Related ring state queue) (data : List UInt8) :
    Trace (QueueStep ring.slotCount) queue (ring.tryPush state data).2 queue ∧
      Related ring (ring.tryPush state data).1 queue := by
  rw [RingBuffer.tryPush]
  split
  · exact ⟨.single .pushFailed, related⟩
  · rename_i fits
    exact ⟨.nil, related.tail, related.bound, related.contents, ⟨rfl, Nat.not_lt.1 fits⟩,
      related.consumer⟩

/-- The advanced tail makes the written message the last one of the queue. -/
theorem publish (related : Related ring state queue) {data : List UInt8}
    (room : queue.length < ring.slotCount) (holds : ring.Holds state.memory state.tail data) :
    Related ring { state with tail := state.tail + 1, producer := .idle } (queue ++ [data]) where
  tail := by
    rw [related.tail, List.length_append, List.length_singleton, UInt64.ofNat_add,
      UInt64.add_assoc]
    rfl
  bound := by
    rw [List.length_append]
    exact room
  contents := by
    intro index message present
    by_cases inside : index < queue.length
    · rw [List.getElem?_append_left inside] at present
      exact related.contents index message present
    · have last := (List.getElem?_eq_some_iff.1 present).1
      rw [List.length_append, List.length_singleton] at last
      obtain rfl : index = queue.length := by omega
      rw [List.getElem?_concat_length] at present
      cases present
      change ring.Holds state.memory (state.head + .ofNat queue.length) data
      rw [← related.tail]
      exact holds
  producer := trivial
  consumer := related.consumer_concat data

/-- The advanced head drops the first message of the queue. -/
theorem release {first : List UInt8} {rest : List (List UInt8)}
    (related : Related ring state (first :: rest)) :
    Related ring { state with head := state.head + 1, consumer := .idle } rest := by
  have bound := related.bound
  rw [List.length_cons] at bound
  have shift : ∀ index, state.head + 1 + UInt64.ofNat index =
      state.head + UInt64.ofNat (index + 1) := by
    intro index
    rw [UInt64.ofNat_add, UInt64.add_assoc, UInt64.add_comm 1]
    rfl
  constructor
  · change state.tail = state.head + 1 + UInt64.ofNat rest.length
    rw [shift]
    exact related.tail
  · omega
  · intro index message present
    change ring.Holds state.memory (state.head + 1 + .ofNat index) message
    rw [shift]
    exact related.contents (index + 1) message present
  · exact related.producer_tail
  · trivial

theorem produce (related : Related ring state queue) :
    ∃ next, Trace (QueueStep ring.slotCount) queue (ring.produce state).2 next ∧
      Related ring (ring.produce state).1 next := by
  have known := related.producer
  rw [ProducerHolds] at known
  rw [RingBuffer.produce]
  cases call : state.producer with
  | idle => exact ⟨queue, .nil, related⟩
  | loaded data tail =>
      simp only [call] at known ⊢
      obtain ⟨rfl, size⟩ := known
      rw [related.inFlight]
      split
      · exact ⟨queue, .single .pushFailed, related.tail, related.bound, related.contents, trivial,
          related.consumer⟩
      · rename_i room
        exact ⟨queue, .nil, related.tail, related.bound, related.contents,
          ⟨rfl, size, Nat.not_le.1 room⟩, related.consumer⟩
  | admitted data tail =>
      simp only [call] at known ⊢
      obtain ⟨rfl, size, room⟩ := known
      refine ⟨queue, .nil, related.tail, related.bound, ?_,
        ⟨rfl, room, ring.holds_writeSlot state.memory state.tail size⟩, related.consumer⟩
      intro index message present
      have inside := (List.getElem?_eq_some_iff.1 present).1
      apply (related.contents index message present).writeSlot size
      rw [related.tail]
      exact ring.slotIndex_ne state.head inside (by omega)
  | written data tail =>
      simp only [call] at known ⊢
      obtain ⟨rfl, room, holds⟩ := known
      exact ⟨queue ++ [data], .single (.pushed room), related.publish room holds⟩

theorem tryPop (related : Related ring state queue) {bufferLen : Nat}
    (large : ring.maxPayload ≤ bufferLen) :
    Related ring { state with consumer := .loaded bufferLen state.head } queue :=
  ⟨related.tail, related.bound, related.contents, related.producer, rfl, large⟩

theorem consume (related : Related ring state queue) :
    ∃ next, Trace (QueueStep ring.slotCount) queue (ring.consume state).2 next ∧
      Related ring (ring.consume state).1 next := by
  have known := related.consumer
  rw [ConsumerHolds] at known
  rw [RingBuffer.consume]
  cases call : state.consumer with
  | idle => exact ⟨queue, .nil, related⟩
  | loaded bufferLen head =>
      simp only [call] at known ⊢
      obtain ⟨rfl, large⟩ := known
      split
      · exact ⟨queue, .single .popFailed, related.tail, related.bound, related.contents,
          related.producer, trivial⟩
      · rename_i differ
        exact ⟨queue, .nil, related.tail, related.bound, related.contents, related.producer,
          rfl, large, related.queue_ne_nil differ⟩
  | admitted bufferLen head =>
      simp only [call] at known ⊢
      obtain ⟨rfl, large, some⟩ := known
      cases queue with
      | nil => exact absurd rfl some
      | cons first rest =>
          have holds := related.contents 0 first rfl
          have read := holds.readSlot large
          have unshifted : state.head + UInt64.ofNat 0 = state.head := UInt64.add_zero _
          rw [unshifted] at read
          rw [read]
          exact ⟨first :: rest, .nil, related.tail, related.bound, related.contents,
            related.producer, rfl, rfl⟩
  | copied message head =>
      simp only [call] at known ⊢
      obtain ⟨rfl, first⟩ := known
      cases queue with
      | nil => cases first
      | cons head rest =>
          cases first
          exact ⟨rest, .single .popped, related.release⟩

/-- One step of either party. -/
theorem step (related : Related ring state queue) {input : RingInput}
    (fits : input.BufferFits ring) :
    ∃ next, Trace (QueueStep ring.slotCount) queue (ring.step state input).2 next ∧
      Related ring (ring.step state input).1 next := by
  cases input with
  | push data =>
      rw [RingBuffer.step]
      split
      · exact ⟨queue, related.tryPush data⟩
      · exact ⟨queue, .nil, related⟩
  | produce => exact related.produce
  | pop bufferLen =>
      rw [RingBuffer.step]
      split
      · exact ⟨queue, .nil, related.tryPop fits⟩
      · exact ⟨queue, .nil, related⟩
  | consume => exact related.consume

end Related

/-! ## Every interleaving -/

theorem related_initial (ring : RingBuffer) (memory : Memory) (start : UInt64) :
    Related ring (.initial memory start) [] where
  tail := (UInt64.add_zero start).symm
  bound := Nat.zero_le _
  contents := fun _ _ present => by simp at present
  producer := trivial
  consumer := trivial

/-- A ring is a bounded queue, whatever the order of the steps. -/
theorem ring_refines (ring : RingBuffer) (memory : Memory) (start : UInt64)
    (inputs : List RingInput) (fit : ∀ input ∈ inputs, input.BufferFits ring) :
    ∃ queue, Trace (QueueStep ring.slotCount) []
        (run ring.step (.initial memory start) inputs).2 queue ∧
      Related ring (run ring.step (.initial memory start) inputs).1 queue := by
  apply run_refines (fun _ state queue => Related ring state queue) _ _ _
    (related_initial ring memory start)
  intro before input state queue isPrefix related
  exact related.step (fit input (isPrefix.subset (List.mem_append_right before List.mem_cons_self)))

/-- The message of a push in progress. -/
def Producer.data : Producer → List (List UInt8)
  | .idle => []
  | .loaded data _ => [data]
  | .admitted data _ => [data]
  | .written data _ => [data]

/-- A step takes messages from its input only, and none that is too large. -/
theorem data_step {meets : List UInt8 → Prop} {input : RingInput}
    (held : ∀ data ∈ state.producer.data, meets data)
    (given : ∀ data, input = .push data → data.length ≤ ring.maxPayload → meets data) :
    (∀ data ∈ (ring.step state input).1.producer.data, meets data) ∧
      ∀ data ∈ pushedMessages (ring.step state input).2, meets data := by
  cases input with
  | push data =>
      rw [RingBuffer.step]
      split
      · rw [RingBuffer.tryPush]
        split
        · exact ⟨held, by simp [pushedMessages]⟩
        · rename_i fits
          have admitted := given data rfl (Nat.not_lt.1 fits)
          exact ⟨List.forall_mem_singleton.2 admitted, by simp [pushedMessages]⟩
      · exact ⟨held, by simp [pushedMessages]⟩
  | produce =>
      rw [RingBuffer.step, RingBuffer.produce]
      cases call : state.producer with
      | idle =>
          simp only
          exact ⟨held, by simp [pushedMessages]⟩
      | loaded data tail =>
          rw [call] at held
          simp only
          split
          · exact ⟨by simp [Producer.data], by simp [pushedMessages]⟩
          · exact ⟨held, by simp [pushedMessages]⟩
      | admitted data tail =>
          rw [call] at held
          exact ⟨held, by simp [pushedMessages]⟩
      | written data tail =>
          rw [call] at held
          exact ⟨by simp [Producer.data], held⟩
  | pop bufferLen =>
      rw [RingBuffer.step]
      split <;> exact ⟨held, by simp [pushedMessages]⟩
  | consume =>
      rw [RingBuffer.step, RingBuffer.consume]
      split
      · exact ⟨held, by simp [pushedMessages]⟩
      · split <;> exact ⟨held, by simp [pushedMessages]⟩
      · exact ⟨held, by simp [pushedMessages]⟩
      · exact ⟨held, by simp [pushedMessages]⟩

private theorem pushed_run (meets : List UInt8 → Prop) {memory : Memory} {start : UInt64}
    (inputs : List RingInput)
    (given : ∀ data, .push data ∈ inputs → data.length ≤ ring.maxPayload → meets data) :
    ∀ data ∈ pushedMessages (run ring.step (.initial memory start) inputs).2, meets data := by
  suffices both : (∀ data ∈ (run ring.step (.initial memory start) inputs).1.producer.data,
      meets data) ∧
        ∀ data ∈ pushedMessages (run ring.step (.initial memory start) inputs).2, meets data from
    both.2
  apply run_induction ring.step (motive := fun _ state log =>
    (∀ data ∈ state.producer.data, meets data) ∧ ∀ data ∈ pushedMessages log, meets data)
  · exact ⟨by simp [RingState.initial, Producer.data], by simp [pushedMessages]⟩
  · rintro before input isPrefix ⟨held, earlier⟩
    have member := isPrefix.subset (List.mem_append_right before List.mem_cons_self)
    obtain ⟨kept, now⟩ := data_step held fun data same => given data (same ▸ member)
    refine ⟨kept, ?_⟩
    rw [pushedMessages, List.filterMap_append]
    exact List.forall_mem_append.2 ⟨earlier, now⟩

/-- A producer about to write has a slot of no message that is still to be read. -/
def RingBuffer.NeverOverwrites (ring : RingBuffer) (state : RingState) : Prop :=
  ∀ data tail, state.producer = .admitted data tail →
    ∀ offset < (state.tail - state.head).toNat,
      ring.slotIndex (state.head + .ofNat offset) ≠ ring.slotIndex tail

private theorem Related.neverOverwrites (related : Related ring state queue) :
    ring.NeverOverwrites state := by
  intro data tail call offset inside
  have known := related.producer
  rw [ProducerHolds, call] at known
  obtain ⟨rfl, -, room⟩ := known
  rw [related.inFlight] at inside
  rw [related.tail]
  exact ring.slotIndex_ne state.head inside (by omega)

/-- In every interleaving of pushes and pops in which what fits a slot is below 4 GiB: the
popped messages are the first of the published ones, the others are in flight and at most as
many as slots, and no unread slot is written. -/
theorem ring_is_fifo (ring : RingBuffer) (memory : Memory) (start : UInt64)
    (inputs : List RingInput) (fit : ∀ input ∈ inputs, input.BufferFits ring)
    (short : ∀ input ∈ inputs, input.Short ring) :
    let result := run ring.step (.initial memory start) inputs
    let inFlight := (result.1.tail - result.1.head).toNat
    poppedMessages result.2 <+: pushedMessages result.2 ∧
      (pushedMessages result.2).length = (poppedMessages result.2).length + inFlight ∧
      inFlight ≤ ring.slotCount ∧ ring.NeverOverwrites result.1 := by
  intro result inFlight
  obtain ⟨queue, trace, related⟩ := ring_refines ring memory start inputs fit
  obtain ⟨taken, balance, left⟩ := queue_trace trace
  rw [List.nil_append] at balance
  have whole : taken.map delivered = taken := by
    conv_rhs => rw [← List.map_id taken]
    apply List.map_congr_left
    intro message member
    apply delivered_of_short
    apply pushed_run (fun data => data.length < 2 ^ 32) inputs fun data member => short _ member
    rw [balance]
    exact List.mem_append_left queue member
  rw [whole] at left
  refine ⟨?_, ?_, ?_, related.neverOverwrites⟩
  · rw [left, balance]
    exact List.prefix_append taken queue
  · rw [left, balance, List.length_append]
    exact congrArg (taken.length + ·) related.inFlight.symm
  · exact related.inFlight.trans_le related.bound

/-- Two slots of eight bytes. -/
def smallRing : RingBuffer := ⟨2, 8, ⟨1, by decide⟩, by decide⟩

/-- A stale producer, a full ring and counters that wrap around. -/
def smallSchedule : List RingInput :=
  [.push [1], .produce, .produce, .produce, .push [2, 3], .produce, .pop 4, .produce, .consume,
    .produce, .push [4], .produce, .consume, .consume, .produce, .push [], .produce]

theorem smallRing_is_fifo :
    let result := run smallRing.step (.initial (fun _ => 0) 0xFFFFFFFFFFFFFFFF) smallSchedule
    let inFlight := (result.1.tail - result.1.head).toNat
    poppedMessages result.2 <+: pushedMessages result.2 ∧
      (pushedMessages result.2).length = (poppedMessages result.2).length + inFlight ∧
      inFlight ≤ smallRing.slotCount ∧ smallRing.NeverOverwrites result.1 :=
  ring_is_fifo smallRing _ _ smallSchedule (by decide) (by decide)

/-- A whole push and a whole pop. -/
def pushThenPop (data : List UInt8) (bufferLen : Nat) : List RingInput :=
  [.push data, .produce, .produce, .produce, .pop bufferLen, .consume, .consume, .consume]

/-- Whatever is pushed alone arrives cut to its length in the header. -/
theorem log_pushThenPop (memory : Memory) (start : UInt64) {data : List UInt8} {bufferLen : Nat}
    (size : data.length ≤ ring.maxPayload) (large : ring.maxPayload ≤ bufferLen) :
    (run ring.step (.initial memory start) (pushThenPop data bufferLen)).2 =
      [.pushed start data, .popped (delivered data)] := by
  have positive : 0 < ring.slotCount := by
    obtain ⟨bits, _, power⟩ := ring.powerOfTwo
    exact power ▸ Nat.two_pow_pos bits
  have read := (ring.holds_writeSlot memory start size).readSlot large
  have published : start ≠ start + 1 := by
    intro same
    have value := congrArg UInt64.toNat same
    have one : (1 : UInt64).toNat = 1 := rfl
    have bound := start.toNat_lt
    rw [UInt64.toNat_add, one] at value
    omega
  simp [pushThenPop, run, RingBuffer.step, RingState.initial, RingBuffer.tryPush,
    RingBuffer.produce, RingBuffer.consume, Nat.not_lt.2 size, positive.ne', read, published]

/-- One slot for a payload of 4 GiB. -/
def wideRing : RingBuffer := ⟨1, 2 ^ 32 + 4, ⟨0, by decide⟩, by decide⟩

/-- A message of 4 GiB arrives empty. -/
theorem wideRing_loses_message :
    let log := (run wideRing.step (.initial (fun _ => 0) 0)
      (pushThenPop (List.replicate (2 ^ 32) 7) (2 ^ 32))).2
    poppedMessages log = [[]] ∧ pushedMessages log = [List.replicate (2 ^ 32) 7] ∧
      ¬poppedMessages log <+: pushedMessages log := by
  intro log
  have size : wideRing.maxPayload = 2 ^ 32 := by decide
  have long : (List.replicate (2 ^ 32) (7 : UInt8)).length = 2 ^ 32 := List.length_replicate
  have events : log = [.pushed 0 (List.replicate (2 ^ 32) 7),
      .popped (delivered (List.replicate (2 ^ 32) 7))] :=
    log_pushThenPop _ 0 (long.trans size.symm).le size.le
  have nothing : delivered (List.replicate (2 ^ 32) 7) = [] := by
    rw [delivered, long, Nat.mod_self, List.take_zero]
  rw [nothing] at events
  have popped : poppedMessages log = [[]] := by
    rw [events]
    rfl
  have pushed : pushedMessages log = [List.replicate (2 ^ 32) 7] := by
    rw [events]
    rfl
  refine ⟨popped, pushed, fun isPrefix => ?_⟩
  rw [popped, pushed, List.cons_prefix_cons] at isPrefix
  have lengths := congrArg List.length isPrefix.1
  rw [long] at lengths
  cases lengths

end Ring
end Exg.Ringbuffer
