import Exg.Ringbuffer.Fifo

/-!
# Batches

`try_push_batch` pushes messages one after the other and counts them.  It returns the count
when the buffer is full, but a message that is too large makes it return the error, whatever
it has pushed before.  The consumer may take any of its steps between those of the batch.
-/

namespace Exg.Ringbuffer

open Support

/-- A batch in progress. -/
structure BatchState where
  ring : RingState
  /-- The messages that are still to be pushed. -/
  items : List (List UInt8)
  count : Nat
  result : Option (Except RingBufferError Nat)

inductive BatchInput where
  /-- The batch's next step. -/
  | produce
  /-- The consumer calls `try_pop`. -/
  | pop (bufferLen : Nat)
  /-- The consumer's next step. -/
  | consume
  deriving DecidableEq, Repr

namespace RingBuffer

variable (ring : RingBuffer)

/-- What the loop does with a step of its `try_push`. -/
def countPush (state : BatchState) (next : RingState) (events : List RingEvent) : BatchState :=
  match events with
  | [.pushed _ _] =>
      { state with ring := next, items := state.items.tail, count := state.count + 1 }
  | [.pushFailed .wouldBlock] =>
      { state with
        ring := next
        result := some (if 0 < state.count then .ok state.count else .error .wouldBlock) }
  | [.pushFailed error] => { state with ring := next, result := some (.error error) }
  | _ => { state with ring := next }

/-- The next step of `try_push_batch`. -/
def tryPushBatch (state : BatchState) : BatchState × List RingEvent :=
  match state.result, state.items with
  | some _, _ => (state, [])
  | none, [] => ({ state with result := some (.ok state.count) }, [])
  | none, item :: _ =>
      let next :=
        if state.ring.producer = .idle then ring.tryPush state.ring item
        else ring.produce state.ring
      (countPush state next.1 next.2, next.2)

/-- One step of the batch or of the consumer. -/
def batchStep (state : BatchState) (input : BatchInput) : BatchState × List RingEvent :=
  match input with
  | .produce => ring.tryPushBatch state
  | .pop bufferLen =>
      let next := ring.step state.ring (.pop bufferLen)
      ({ state with ring := next.1 }, next.2)
  | .consume =>
      let next := ring.step state.ring .consume
      ({ state with ring := next.1 }, next.2)

end RingBuffer

/-- A batch that is called on a ring. -/
def BatchState.called (ring : RingState) (items : List (List UInt8)) : BatchState :=
  { ring := { ring with producer := .idle }, items, count := 0, result := none }

/-- The batch has pushed the messages it says it has, and none when it reports an error. -/
def ReportsPushed (items : List (List UInt8)) (log : List RingEvent)
    (result : Except RingBufferError Nat) : Prop :=
  pushedMessages log <+: items ∧
    (∀ count, result = .ok count → (pushedMessages log).length = count) ∧
    ∀ error, result = .error error → pushedMessages log = []

/-- After it has pushed a message, the batch does not come to one that is too large. -/
def RingBuffer.StaysWithinSlots (ring : RingBuffer) (state : BatchState) (input : BatchInput) :
    Prop :=
  input = .produce → state.result = none → state.ring.producer = .idle → 0 < state.count →
    ∀ item ∈ state.items.head?, item.length ≤ ring.maxPayload

section Batch

variable {ring : RingBuffer} {state : BatchState} {items : List (List UInt8)}
  {log : List RingEvent}

/-- How many steps of its push a producer has done. -/
def Producer.phase : Producer → Nat
  | .idle => 0
  | .loaded _ _ => 1
  | .admitted _ _ => 2
  | .written _ _ => 3

/-- What a batch keeps: it has pushed the first messages and counted them, and the push in
progress is of the next one. -/
structure Pushes (items : List (List UInt8)) (log : List RingEvent) (state : BatchState) : Prop
    where
  drawn : pushedMessages log ++ state.items = items
  counted : (pushedMessages log).length = state.count
  current : ∀ data ∈ state.ring.producer.data, state.items.head? = some data

theorem Pushes.isPrefix (pushes : Pushes items log state) : pushedMessages log <+: items :=
  ⟨state.items, pushes.drawn⟩

private theorem pushes_called (ringState : RingState) (items : List (List UInt8)) :
    Pushes items [] (.called ringState items) :=
  ⟨rfl, rfl, by simp [BatchState.called, Producer.data]⟩

/-- Steps of the consumer push nothing and leave the producer alone. -/
theorem consumer_frame (ring : RingBuffer) (state : RingState) {input : RingInput}
    (ofConsumer : input = .consume ∨ ∃ bufferLen, input = .pop bufferLen) :
    (ring.step state input).1.producer = state.producer ∧
      pushedMessages (ring.step state input).2 = [] := by
  rcases ofConsumer with rfl | ⟨bufferLen, rfl⟩
  · rw [RingBuffer.step, RingBuffer.consume]
    split
    · exact ⟨rfl, rfl⟩
    · split <;> exact ⟨rfl, rfl⟩
    · exact ⟨rfl, rfl⟩
    · exact ⟨rfl, rfl⟩
  · rw [RingBuffer.step]
    split <;> exact ⟨rfl, rfl⟩

/-- The ways in which the batch's next step can go. -/
inductive PushOutcome (ring : RingBuffer) (state : BatchState) (item : List UInt8) :
    RingState × List RingEvent → Prop where
  | goesOn {next : RingState} (same : ∀ data ∈ next.producer.data, data = item)
      (fits : state.ring.producer = .idle → item.length ≤ ring.maxPayload)
      (further : next.producer.phase = state.ring.producer.phase + 1) :
      PushOutcome ring state item (next, [])
  | pushed {next : RingState} {sequence : UInt64} (idle : next.producer = .idle)
      (started : state.ring.producer ≠ .idle) (last : state.ring.producer.phase = 3) :
      PushOutcome ring state item (next, [.pushed sequence item])
  | full {next : RingState} (idle : next.producer = .idle)
      (started : state.ring.producer ≠ .idle) :
      PushOutcome ring state item (next, [.pushFailed .wouldBlock])
  | tooLarge (idle : state.ring.producer = .idle) (large : ring.maxPayload < item.length) :
      PushOutcome ring state item
        (state.ring, [.pushFailed (.messageTooLarge item.length ring.slotSize)])

private theorem pushOutcome (ring : RingBuffer) {item : List UInt8}
    (current : ∀ data ∈ state.ring.producer.data, data = item) :
    PushOutcome ring state item
      (if state.ring.producer = .idle then ring.tryPush state.ring item
        else ring.produce state.ring) := by
  by_cases idle : state.ring.producer = .idle
  · rw [if_pos idle, RingBuffer.tryPush]
    split
    · rename_i large
      exact .tooLarge idle large
    · rename_i fits
      refine .goesOn (fun data member => List.mem_singleton.1 member)
        (fun _ => not_lt.1 fits) ?_
      rw [idle]
      rfl
  · rw [if_neg idle, RingBuffer.produce]
    cases call : state.ring.producer with
    | idle => exact absurd call idle
    | loaded data tail =>
        rw [call] at current
        simp only
        split
        · exact .full rfl idle
        · refine .goesOn current (fun call => absurd call idle) ?_
          rw [call]
          rfl
    | admitted data tail =>
        rw [call] at current
        refine .goesOn current (fun call => absurd call idle) ?_
        rw [call]
        rfl
    | written data tail =>
        obtain rfl : data = item := current data (by rw [call]; exact List.mem_singleton_self _)
        exact .pushed rfl idle (by rw [call]; rfl)

/-- What a run of a batch has led to: until it returns, every step has brought it forward, and
it has returned only what it has pushed if and only if no step went beyond the slots. -/
structure Tells (items : List (List UInt8)) (log : List RingEvent) (state : BatchState)
    (steps : Nat) (within : Prop) : Prop where
  pushes : Pushes items log state
  paced : state.result = none → steps = 4 * state.count + state.ring.producer.phase
  running : state.result = none → within
  ended : ∀ result, state.result = some result → (ReportsPushed items log result ↔ within)

private theorem pushedMessages_append (before after : List RingEvent) :
    pushedMessages (before ++ after) = pushedMessages before ++ pushedMessages after :=
  List.filterMap_append

/-- Events that push nothing leave the batch where it is. -/
theorem Pushes.append (pushes : Pushes items log state) {events : List RingEvent}
    (nothing : pushedMessages events = []) {next : BatchState}
    (sameItems : next.items = state.items)
    (sameCount : next.count = state.count)
    (current : ∀ data ∈ next.ring.producer.data, state.items.head? = some data) :
    Pushes items (log ++ events) next := by
  have kept : pushedMessages (log ++ events) = pushedMessages log := by
    rw [pushedMessages_append, nothing, List.append_nil]
  refine ⟨?_, ?_, ?_⟩
  · rw [kept, sameItems]
    exact pushes.drawn
  · rw [kept, sameCount]
    exact pushes.counted
  · rw [sameItems]
    exact current

/-- A batch that has returned tells what it returns. -/
theorem Tells.of_returned {steps : Nat} {within : Prop} (pushes : Pushes items log state)
    {result : Except RingBufferError Nat} (returned : state.result = some result)
    (told : ReportsPushed items log result ↔ within) : Tells items log state steps within := by
  refine ⟨pushes, fun running => ?_, fun running => ?_, fun other same => ?_⟩
  · rw [returned] at running
    cases running
  · rw [returned] at running
    cases running
  · obtain rfl := Option.some.inj (returned.symm.trans same)
    exact told

/-- A batch that goes on has not gone beyond the slots. -/
theorem Tells.of_running {steps : Nat} {within : Prop} (pushes : Pushes items log state)
    (running : state.result = none)
    (paced : steps = 4 * state.count + state.ring.producer.phase) (stays : within) :
    Tells items log state steps within := by
  refine ⟨pushes, fun _ => paced, fun _ => stays, fun result returned => ?_⟩
  rw [running] at returned
  cases returned

/-- A step of the consumer changes nothing that the batch has told. -/
theorem Tells.quiet {steps : Nat} {within : Prop} (tells : Tells items log state steps within)
    {next : RingState} {events : List RingEvent}
    (same : next.producer = state.ring.producer) (nothing : pushedMessages events = []) :
    Tells items (log ++ events) { state with ring := next } steps within := by
  refine ⟨tells.pushes.append nothing rfl rfl ?_, ?_, tells.running, ?_⟩
  · simp only [same]
    exact tells.pushes.current
  · simp only [same]
    exact tells.paced
  · intro result returned
    rw [ReportsPushed, pushedMessages_append, nothing, List.append_nil]
    exact tells.ended result returned

private theorem reports_count {count : Nat} (isPrefix : pushedMessages log <+: items)
    (counted : (pushedMessages log).length = count) : ReportsPushed items log (.ok count) := by
  refine ⟨isPrefix, ?_, ?_⟩
  · rintro told ⟨⟩
    exact counted
  · rintro error ⟨⟩

private theorem reports_error_iff {count : Nat} (isPrefix : pushedMessages log <+: items)
    (counted : (pushedMessages log).length = count) (error : RingBufferError) :
    ReportsPushed items log (.error error) ↔ count = 0 := by
  rw [ReportsPushed, and_iff_right isPrefix, ← counted, List.length_eq_zero_iff]
  simp

/-- The next message of a batch goes through its `try_push`. -/
theorem Tells.item {steps : Nat} {within : Prop} (tells : Tells items log state steps within)
    (returned : state.result = none) {item : List UInt8} {rest : List (List UInt8)}
    (pending : state.items = item :: rest) {next : RingState × List RingEvent}
    (outcome : PushOutcome ring state item next) :
    Tells items (log ++ next.2) (RingBuffer.countPush state next.1 next.2) (steps + 1)
      (within ∧ ring.StaysWithinSlots state .produce) := by
  obtain ⟨pushes, paced, running, -⟩ := tells
  have steps' := paced returned
  rw [and_iff_right (running returned)]
  have drawn := pushes.drawn
  rw [pending] at drawn
  have started : state.ring.producer ≠ .idle → ring.StaysWithinSlots state .produce :=
    fun busy _ _ idle => absurd idle busy
  cases outcome with
  | goesOn same fits further =>
      have stays : ring.StaysWithinSlots state .produce := by
        intro _ _ idle _ other head
        rw [pending, List.head?_cons, Option.mem_some_iff] at head
        exact head ▸ fits idle
      refine .of_running (pushes.append rfl rfl rfl ?_) returned ?_ stays
      · intro data member
        rw [pending, same data member, List.head?_cons]
      · simp only [RingBuffer.countPush, further]
        omega
  | @pushed _ sequence idle busy last =>
      have more : pushedMessages (log ++ [.pushed sequence item]) =
          pushedMessages log ++ [item] := pushedMessages_append _ _
      refine .of_running ⟨?_, ?_, ?_⟩ returned ?_ (started busy)
      · rw [more]
        change pushedMessages log ++ [item] ++ state.items.tail = items
        rw [pending, List.tail_cons, List.append_assoc]
        exact drawn
      · rw [more, List.length_append, pushes.counted]
        rfl
      · intro data member
        rw [RingBuffer.countPush, idle] at member
        cases member
      · simp only [RingBuffer.countPush, idle, Producer.phase]
        omega
  | @full next idle busy =>
      have ended : Pushes items (log ++ [.pushFailed .wouldBlock])
          (RingBuffer.countPush state next [.pushFailed .wouldBlock]) := by
        refine pushes.append rfl rfl rfl ?_
        intro data member
        rw [RingBuffer.countPush, idle] at member
        cases member
      refine .of_returned ended rfl (iff_of_true ?_ (started busy))
      by_cases some : 0 < state.count
      · rw [if_pos some]
        exact reports_count ended.isPrefix ended.counted
      · rw [if_neg some]
        exact (reports_error_iff ended.isPrefix ended.counted _).2 (Nat.eq_zero_of_not_pos some)
  | tooLarge idle large =>
      have ended : Pushes items
          (log ++ [.pushFailed (.messageTooLarge item.length ring.slotSize)])
          (RingBuffer.countPush state state.ring
            [.pushFailed (.messageTooLarge item.length ring.slotSize)]) :=
        pushes.append rfl rfl rfl pushes.current
      have beyond : ring.StaysWithinSlots state .produce ↔ state.count = 0 := by
        constructor
        · intro stays
          by_contra some
          have fits := stays rfl returned idle (Nat.pos_of_ne_zero some) item
            (by rw [pending]; rfl)
          exact absurd fits (not_le.2 large)
        · intro zero _ _ _ some
          rw [zero] at some
          cases some
      refine .of_returned ended rfl ?_
      rw [beyond]
      exact reports_error_iff ended.isPrefix ended.counted _

/-- A step of the batch. -/
theorem Tells.produce {steps : Nat} {within : Prop}
    (tells : Tells items log state steps within) :
    Tells items (log ++ (ring.tryPushBatch state).2) (ring.tryPushBatch state).1 (steps + 1)
      (within ∧ ring.StaysWithinSlots state .produce) := by
  cases returned : state.result with
  | some result =>
      have quiet : ring.StaysWithinSlots state .produce := by
        intro _ open'
        rw [returned] at open'
        cases open'
      simp only [RingBuffer.tryPushBatch, returned, List.append_nil, and_iff_left quiet]
      refine ⟨tells.pushes, ?_, tells.running, tells.ended⟩
      intro open'
      rw [returned] at open'
      cases open'
  | none =>
      cases pending : state.items with
      | nil =>
          have nothing : ring.StaysWithinSlots state .produce := by
            intro _ _ _ _ item head
            rw [pending] at head
            cases head
          simp only [RingBuffer.tryPushBatch, returned, pending, List.append_nil,
            and_iff_left nothing]
          refine .of_returned ⟨by simpa [pending] using tells.pushes.drawn, tells.pushes.counted,
            by simpa [pending] using tells.pushes.current⟩ rfl ?_
          exact iff_of_true (reports_count tells.pushes.isPrefix tells.pushes.counted)
            (tells.running returned)
      | cons item rest =>
          have current : ∀ data ∈ state.ring.producer.data, data = item := by
            intro data member
            have head := tells.pushes.current data member
            rw [pending] at head
            exact (Option.some.inj head).symm
          have step := tells.item returned pending (pushOutcome ring current)
          simp only [RingBuffer.tryPushBatch, returned, pending]
          exact step

/-- A batch that has not returned has done at most four steps for each message. -/
theorem Tells.steps_le {steps : Nat} {within : Prop} (tells : Tells items log state steps within)
    (returned : state.result = none) : steps ≤ 4 * items.length := by
  have paced := tells.paced returned
  have drawn := congrArg List.length tells.pushes.drawn
  rw [List.length_append, tells.pushes.counted] at drawn
  cases call : state.ring.producer with
  | idle =>
      rw [call, Producer.phase] at paced
      omega
  | loaded data tail | admitted data tail | written data tail =>
      have head := tells.pushes.current data (by rw [call]; exact List.mem_singleton_self _)
      obtain ⟨rest, pending⟩ := List.head?_eq_some_iff.1 head
      rw [pending, List.length_cons] at drawn
      rw [call, Producer.phase] at paced
      omega

end Batch

/-! ## Every interleaving -/

theorem tells_run (ring : RingBuffer) (state : RingState) (items : List (List UInt8))
    (schedule : List BatchInput) :
    Tells items (run ring.batchStep (.called state items) schedule).2
      (run ring.batchStep (.called state items) schedule).1 (schedule.count .produce)
      (StepsMeet ring.batchStep ring.StaysWithinSlots (.called state items) schedule) := by
  apply run_induction ring.batchStep (motive := fun before reached log =>
    Tells items log reached (before.count .produce)
      (StepsMeet ring.batchStep ring.StaysWithinSlots (.called state items) before))
  · exact ⟨pushes_called state items, fun _ => rfl, fun _ => trivial,
      fun result other => by cases other⟩
  · intro before input _ tells
    rw [StepsMeet.append_iff, List.count_append]
    simp only [StepsMeet, and_true]
    cases input with
    | produce => exact tells.produce
    | pop bufferLen =>
        have frame := consumer_frame ring (run ring.batchStep (.called state items) before).1.ring
          (Or.inr ⟨bufferLen, rfl⟩)
        have quiet : ring.StaysWithinSlots
            (run ring.batchStep (.called state items) before).1 (.pop bufferLen) := by
          rintro ⟨⟩
        rw [and_iff_left quiet]
        exact tells.quiet frame.1 frame.2
    | consume =>
        have frame := consumer_frame ring (run ring.batchStep (.called state items) before).1.ring
          (Or.inl rfl)
        have quiet : ring.StaysWithinSlots
            (run ring.batchStep (.called state items) before).1 .consume := by
          rintro ⟨⟩
        rw [and_iff_left quiet]
        exact tells.quiet frame.1 frame.2

/-- However the consumer's steps fall between those of a batch, it pushes a first part of the
messages and returns after at most four steps for each and one more.  What it returns is the
number of messages pushed, or an error if there is none, exactly if it has not come to a
message that is too large after it had pushed one. -/
theorem batch_reports_iff (ring : RingBuffer) (state : RingState) (items : List (List UInt8))
    (schedule : List BatchInput) :
    let final := run ring.batchStep (.called state items) schedule
    pushedMessages final.2 <+: items ∧
      (4 * items.length < schedule.count .produce → final.1.result.isSome) ∧
      ∀ result, final.1.result = some result →
        (ReportsPushed items final.2 result ↔
          StepsMeet ring.batchStep ring.StaysWithinSlots (.called state items) schedule) := by
  intro final
  have tells := tells_run ring state items schedule
  refine ⟨tells.pushes.isPrefix, fun enough => ?_, tells.ended⟩
  by_contra running
  have returned : final.1.result = none := Option.not_isSome_iff_eq_none.1 running
  exact absurd (tells.steps_le returned) (not_le.2 enough)

/-- One message fits into a slot of eight bytes, and the next one does not. -/
def fitsThenTooLarge : List (List UInt8) := [[1], [1, 2, 3, 4, 5]]

/-- The first message is in the ring, and the batch reports an error. -/
theorem batch_loses_count :
    let schedule := List.replicate 5 BatchInput.produce
    let final := run smallRing.batchStep (.called (.initial (fun _ => 0) 0) fitsThenTooLarge)
      schedule
    final.1.result = some (.error (.messageTooLarge 5 8)) ∧
      pushedMessages final.2 = [[1]] ∧
      ¬ReportsPushed fitsThenTooLarge final.2 (.error (.messageTooLarge 5 8)) := by
  intro schedule final
  have pushed : pushedMessages final.2 = [[1]] := by decide
  refine ⟨by decide, pushed, fun reports => ?_⟩
  have nothing := reports.2.2 _ rfl
  rw [pushed] at nothing
  cases nothing

end Exg.Ringbuffer
