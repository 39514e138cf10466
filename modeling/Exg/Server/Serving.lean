import Exg.Server.Drain
import Exg.Wal.BoundedLoss

/-!
# What the matching thread keeps

Whatever the order of the parties' steps, the engine and the processor are where the commands
handled so far lead, and the log holds the records of these commands up to those that the
thread still has to append.
-/

namespace Exg

open Support Ringbuffer

/-! ## What a server has done -/

/-- The commands whose requests were answered with 200, in the order of the answers. -/
def acceptedCommands (log : List ServerEvent) : List Command :=
  log.filterMap fun
    | .accepted command => some command
    | _ => none

/-- The commands handled by the engine and the processor. -/
def processedInputs (log : List ServerEvent) : List Popped :=
  log.filterMap fun
    | .processed popped => some popped
    | _ => none

/-- The records appended to the log. -/
def appendedRecords (log : List ServerEvent) : List Event :=
  log.filterMap fun
    | .appended record => some record
    | _ => none

/-- The commands accepted since the thread last found the ring empty. -/
def acceptedSinceEmptied (setup : ServerSetup) (log : List ServerEvent) : List Command :=
  sinceEmptied (log.filterMap (Server.poll? setup))

/-- What the thread still has to append, or failed to. -/
def ThreadPoint.Leaves (setup : ServerSetup) : ThreadPoint → List Event → Prop
  | .appending records, left => left = records
  | .panicked (.append error), left =>
      ∃ record rest, left = record :: rest ∧
        error = .payloadTooLarge (setup.events.toBytes record).length ∧
        (setup.events.toBytes record).length > Wal.maxPayloadSize
  | _, left => left = []

/-- Nothing is left to append while the thread is at a point of its polling loop. -/
theorem ThreadPoint.Leaves.none {setup : ServerSetup} {left : List Event} {point : ThreadPoint}
    (leaves : point.Leaves setup left) (polls : point = .popping ∨ point = .deciding) :
    left = [] := by
  rcases polls with rfl | rfl <;> exact leaves

theorem arrivals_poll (setup : ServerSetup) (log : List ServerEvent) :
    arrivals (log.filterMap (Server.poll? setup)) = acceptedCommands log := by
  rw [arrivals, acceptedCommands, List.filterMap_filterMap]
  apply List.filterMap_congr
  intro event _
  cases event with
  | popped message =>
      rw [Server.poll?]
      cases setup.commands.fromBytes message <;> rfl
  | _ => rfl

/-! ## What holds in every schedule -/

namespace Server

variable (setup : ServerSetup)

/-- The engine and the processor are where the commands handled so far have led, and the log
holds the records of these commands, up to those that are still to be appended. -/
structure Keeps (start : CommandLoop) (inputs : List ServerInput) (server : Server)
    (log : List ServerEvent) : Prop where
  served : ∃ left, follow CommandLoop.serve ⟨start, []⟩ (processedInputs log) =
      .ok ⟨server.loop, appendedRecords log ++ left⟩ ∧ server.thread.Leaves setup left
  /-- A command that the thread has taken and not handled has made it panic. -/
  taken : ∃ stuck, takings (log.filterMap (poll? setup)) =
      (processedInputs log).map (·.command) ++ stuck ∧
    stuck.length ≤ 1 ∧ (¬server.thread.Drops → stuck = [])
  live : server.wal.session.isSome
  stored : ∃ durable, Wal.Related setup.crc server.wal durable ∧
    Wal.CountsUnflushed server.wal durable ∧ durable.survived = [] ∧
    durable.appended = (appendedRecords log).map setup.events.toBytes ∧
    (server.thread = .stopped → durable.flushed = durable.appended.length)
  count : (appendedRecords log).length ≤ inputs.length

/-- Events that say nothing of a command that was handled or a record that was appended. -/
structure Silent (events : List ServerEvent) : Prop where
  processed : processedInputs events = []
  appended : appendedRecords events = []

variable {setup} {start : CommandLoop} {inputs : List ServerInput} {server next : Server}
  {log events : List ServerEvent}

theorem processedInputs_append (before after : List ServerEvent) :
    processedInputs (before ++ after) = processedInputs before ++ processedInputs after :=
  List.filterMap_append

private theorem appendedRecords_append (before after : List ServerEvent) :
    appendedRecords (before ++ after) = appendedRecords before ++ appendedRecords after :=
  List.filterMap_append

private theorem takings_append (setup : ServerSetup) (before after : List ServerEvent) :
    takings ((before ++ after).filterMap (poll? setup)) =
      takings (before.filterMap (poll? setup)) ++ takings (after.filterMap (poll? setup)) := by
  rw [List.filterMap_append]
  exact List.filterMap_append

/-- A step that handles and appends nothing. -/
theorem Keeps.silent (keeps : Keeps setup start inputs server log) (silent : Silent events)
    (input : ServerInput) (loop : next.loop = server.loop) (wal : next.wal = server.wal)
    (running : next.thread = .stopped → server.thread = .stopped)
    (leaves : ∀ left, server.thread.Leaves setup left → next.thread.Leaves setup left)
    (taken : (takings (events.filterMap (poll? setup)) = [] ∧
        (server.thread.Drops → next.thread.Drops)) ∨
      (¬server.thread.Drops ∧ next.thread.Drops ∧
        (takings (events.filterMap (poll? setup))).length ≤ 1)) :
    Keeps setup start (inputs ++ [input]) next (log ++ events) := by
  obtain ⟨left, served, leavesBefore⟩ := keeps.served
  obtain ⟨durable, related, counts, survived, appended, flushed⟩ := keeps.stored
  have sameInputs : processedInputs (log ++ events) = processedInputs log := by
    rw [processedInputs_append, silent.processed, List.append_nil]
  have sameRecords : appendedRecords (log ++ events) = appendedRecords log := by
    rw [appendedRecords_append, silent.appended, List.append_nil]
  constructor
  · rw [sameInputs, sameRecords, loop]
    exact ⟨left, served, leaves left leavesBefore⟩
  · obtain ⟨stuck, takenBefore, atMost, whole⟩ := keeps.taken
    rw [takings_append, takenBefore, sameInputs]
    rcases taken with ⟨nothing, drops⟩ | ⟨calm, drops, one⟩
    · rw [nothing, List.append_nil]
      exact ⟨stuck, rfl, atMost, fun calm => whole fun dropped => calm (drops dropped)⟩
    · rw [whole calm, List.append_nil]
      exact ⟨_, rfl, one, fun calm => absurd drops calm⟩
  · rw [wal]
    exact keeps.live
  · rw [wal, sameRecords]
    exact ⟨durable, related, counts, survived, appended,
      fun stopped => flushed (running stopped)⟩
  · rw [sameRecords, List.length_append]
    exact keeps.count.trans (Nat.le_add_right _ _)

/-- A step that leaves the thread where it is. -/
theorem Keeps.still (keeps : Keeps setup start inputs server log) (silent : Silent events)
    (input : ServerInput) (loop : next.loop = server.loop) (wal : next.wal = server.wal)
    (thread : next.thread = server.thread)
    (nothing : takings (events.filterMap (poll? setup)) = []) :
    Keeps setup start (inputs ++ [input]) next (log ++ events) := by
  refine keeps.silent silent input loop wal ?_ ?_ ?_ <;> rw [thread]
  · exact id
  · exact fun _ leaves => leaves
  · exact Or.inl ⟨nothing, id⟩

theorem Keeps.enqueue (keeps : Keeps setup start inputs server log) (command : Command) :
    Keeps setup start (inputs ++ [.enqueue command]) (server.step setup (.enqueue command)).1
      (log ++ (server.step setup (.enqueue command)).2) := by
  rw [Server.step, Server.enqueue]
  split
  · dsimp only
    split
    · exact keeps.still ⟨rfl, rfl⟩ _ rfl rfl rfl rfl
    · exact keeps.still ⟨rfl, rfl⟩ _ rfl rfl rfl rfl
  · exact keeps.still ⟨rfl, rfl⟩ _ rfl rfl rfl rfl

theorem Keeps.produce (keeps : Keeps setup start inputs server log) :
    Keeps setup start (inputs ++ [.produce]) (server.step setup .produce).1
      (log ++ (server.step setup .produce).2) := by
  rw [Server.step, Server.produce]
  split
  · exact keeps.still ⟨rfl, rfl⟩ _ rfl rfl rfl rfl
  · dsimp only
    split
    · exact keeps.still ⟨rfl, rfl⟩ _ rfl rfl rfl rfl
    · exact keeps.still ⟨rfl, rfl⟩ _ rfl rfl rfl rfl
    · exact keeps.still ⟨rfl, rfl⟩ _ rfl rfl rfl rfl

/-- The thread handles the message it has popped. -/
theorem Keeps.receive (keeps : Keeps setup start inputs server log)
    (popping : server.thread = .popping) (input : ServerInput) (ring : RingState)
    (now : UnixMicros) (order : IterationOrder) (message : List UInt8) :
    let received := Server.receive setup { server with ring } now order message
    Keeps setup start (inputs ++ [input]) received.1
      (log ++ (.popped message :: received.2)) := by
  intro received
  have whole : ¬server.thread.Drops := by
    rw [popping]
    exact id
  obtain ⟨left, served, leaves⟩ := keeps.served
  cases leaves.none (Or.inl popping)
  rw [List.append_nil] at served
  have result : received = Server.receive setup { server with ring } now order message := rfl
  rw [Server.receive] at result
  split at result
  · rename_i text undecoded
    rw [result]
    refine keeps.silent ⟨rfl, rfl⟩ _ rfl rfl (fun stopped => by cases stopped) ?_
      (Or.inr ⟨whole, trivial, ?_⟩)
    · rw [popping]
      exact fun _ nothing => nothing
    · rw [List.filterMap_cons, poll?, undecoded]
      exact Nat.zero_le 1
  · rename_i command decoded
    have single (cause : ThreadPanic) :
        takings ([ServerEvent.popped message, .panicked cause].filterMap (poll? setup)) =
          [command] := by
      rw [List.filterMap_cons, poll?, decoded]
      rfl
    split at result
    · rw [result]
      refine keeps.silent ⟨rfl, rfl⟩ _ rfl rfl (fun stopped => by cases stopped) ?_
        (Or.inr ⟨whole, trivial, (congrArg List.length (single .overflow)).le⟩)
      rw [popping]
      exact fun _ nothing => nothing
    · rename_i panic panics
      rw [result]
      refine keeps.silent ⟨rfl, rfl⟩ _ rfl rfl (fun stopped => by cases stopped) ?_
        (Or.inr ⟨whole, trivial, (congrArg List.length (single (.clearing panic))).le⟩)
      rw [popping]
      exact fun _ nothing => nothing
    · rename_i loop records handled
      obtain ⟨durable, related, counts, survived, appended, -⟩ := keeps.stored
      have sameRecords :
          appendedRecords (log ++ [.popped message, .processed ⟨command, now, order⟩]) =
            appendedRecords log := by
        rw [appendedRecords_append]
        exact List.append_nil _
      have oneMore :
          processedInputs (log ++ [.popped message, .processed ⟨command, now, order⟩]) =
            processedInputs log ++ [⟨command, now, order⟩] :=
        processedInputs_append _ _
      have oneTaken : takings ((log ++ [ServerEvent.popped message,
            .processed ⟨command, now, order⟩]).filterMap (poll? setup)) =
          takings (log.filterMap (poll? setup)) ++ [command] := by
        rw [takings_append, List.filterMap_cons, poll?, decoded]
        rfl
      rw [result]
      have exact : server.loop.processOne ⟨command, now, order⟩ = .ok (loop, records) :=
        (CommandLoop.agrees_processOne _ handled).symm
      obtain ⟨stuck, taken, -, nothing⟩ := keeps.taken
      refine ⟨⟨records, ?_, rfl⟩, ⟨[], ?_, Nat.zero_le 1, fun _ => rfl⟩, keeps.live, ?_, ?_⟩
      · rw [oneMore, sameRecords, follow_append_of_ok served]
        simp only [follow, CommandLoop.serve, exact]
      · rw [oneTaken, oneMore, taken, nothing whole, List.map_append, List.append_nil,
          List.append_nil]
        rfl
      · rw [sameRecords]
        exact ⟨durable, related, counts, survived, appended, fun stopped => by cases stopped⟩
      · rw [sameRecords, List.length_append]
        exact keeps.count.trans (Nat.le_add_right _ _)

theorem Keeps.pop (keeps : Keeps setup start inputs server log)
    (popping : server.thread = .popping) (input : ServerInput) (now : UnixMicros)
    (order : IterationOrder) :
    Keeps setup start (inputs ++ [input]) (server.pop setup now order).1
      (log ++ (server.pop setup now order).2) := by
  have whole : ¬server.thread.Drops := by
    rw [popping]
    exact id
  rw [Server.pop]
  dsimp only
  split
  · exact keeps.receive popping input _ now order _
  · refine keeps.silent ⟨rfl, rfl⟩ _ rfl rfl (fun stopped => by cases stopped) ?_
      (Or.inl ⟨rfl, fun drops => absurd drops whole⟩)
    rw [popping]
    exact fun _ nothing => nothing
  · refine keeps.silent ⟨rfl, rfl⟩ _ rfl rfl (fun stopped => by cases stopped) ?_
      (Or.inl ⟨rfl, fun drops => absurd drops whole⟩)
    rw [popping]
    exact fun _ nothing => nothing
  · exact keeps.still ⟨rfl, rfl⟩ _ rfl rfl rfl rfl

/-- A log of so few records is related to one that its session has written whole. -/
theorem Keeps.bound (keeps : Keeps setup start inputs server log) {durable : Wal.DurableLog}
    (survived : durable.survived = [])
    (appended : durable.appended = (appendedRecords log).map setup.events.toBytes)
    {input : ServerInput} (few : (inputs ++ [input]).length < 2 ^ 64) :
    durable.payloads.length + 1 < 2 ^ 64 := by
  have count := keeps.count
  rw [List.length_append, List.length_singleton] at few
  rw [Wal.DurableLog.payloads, survived, appended, List.nil_append, List.length_map]
  omega

theorem Keeps.append (keeps : Keeps setup start inputs server log) {record : Event}
    {rest : List Event} (writing : server.thread = .appending (record :: rest))
    (input : ServerInput) (few : (inputs ++ [input]).length < 2 ^ 64) :
    Keeps setup start (inputs ++ [input]) (server.append setup record rest).1
      (log ++ (server.append setup record rest).2) := by
  have whole : ¬server.thread.Drops := by
    rw [writing]
    exact id
  have live := keeps.live
  rw [Server.append]
  cases session : server.wal.session with
  | none =>
      rw [session] at live
      cases live
  | some writer =>
      dsimp only
      split
      · rename_i error appends
        refine keeps.silent ⟨rfl, rfl⟩ _ rfl rfl (fun stopped => by cases stopped) ?_
          (Or.inl ⟨rfl, fun drops => absurd drops whole⟩)
        rw [writing]
        rintro left rfl
        rw [Wal.WalWriter.append] at appends
        split at appends
        · rename_i large
          cases appends
          exact ⟨record, rest, rfl, rfl, large⟩
        · cases appends
      · rename_i sequence directory current appends
        obtain ⟨left, served, leaves⟩ := keeps.served
        obtain ⟨durable, related, counts, survived, appended, -⟩ := keeps.stored
        rw [writing] at leaves
        cases leaves
        have wal : server.wal = ⟨server.wal.directory, some writer⟩ := by rw [← session]
        rw [wal] at related counts
        obtain ⟨final, kept, countsNext, survivedNext, appendedNext⟩ :=
          related.appended counts (keeps.bound survived appended few) appends
        have oneMore : appendedRecords (log ++ [.appended record]) =
            appendedRecords log ++ [record] := appendedRecords_append _ _
        have sameInputs : processedInputs (log ++ [.appended record]) = processedInputs log := by
          rw [processedInputs_append]
          exact List.append_nil _
        obtain ⟨stuck, taken, -, nothing⟩ := keeps.taken
        refine ⟨⟨rest, ?_, rfl⟩, ⟨[], ?_, Nat.zero_le 1, fun _ => rfl⟩, rfl,
          ⟨final, kept, countsNext, ?_, ?_, ?_⟩, ?_⟩
        · rw [sameInputs, oneMore, List.append_assoc, List.singleton_append]
          exact served
        · rw [sameInputs, takings_append, taken, nothing whole]
          exact List.append_nil _
        · rw [survivedNext, survived]
        · rw [appendedNext, appended, oneMore, List.map_append, List.map_singleton]
        · exact fun stopped => by cases stopped
        · rw [oneMore, List.length_append, List.length_append]
          exact Nat.add_le_add_right keeps.count 1

theorem Keeps.stop (keeps : Keeps setup start inputs server log)
    (deciding : server.thread = .deciding) (input : ServerInput)
    (few : (inputs ++ [input]).length < 2 ^ 64) :
    Keeps setup start (inputs ++ [input])
      { server with wal := (server.wal.step setup.crc .flush).1, thread := .stopped }
      (log ++ [.stopped]) := by
  have whole : ¬server.thread.Drops := by
    rw [deciding]
    exact id
  obtain ⟨left, served, leaves⟩ := keeps.served
  obtain ⟨durable, related, counts, survived, appended, -⟩ := keeps.stored
  cases leaves.none (Or.inr deciding)
  obtain ⟨writer, session⟩ := Option.isSome_iff_exists.1 keeps.live
  have wal : server.wal = ⟨server.wal.directory, some writer⟩ := by rw [← session]
  rw [wal] at related ⊢
  obtain ⟨kept, countsNext⟩ := related.flushed (keeps.bound survived appended few)
  have sameInputs : processedInputs (log ++ [.stopped]) = processedInputs log := by
    rw [processedInputs_append]
    exact List.append_nil _
  have sameRecords : appendedRecords (log ++ [.stopped]) = appendedRecords log := by
    rw [appendedRecords_append]
    exact List.append_nil _
  obtain ⟨stuck, taken, -, nothing⟩ := keeps.taken
  refine ⟨⟨[], ?_, rfl⟩, ⟨[], ?_, Nat.zero_le 1, fun _ => rfl⟩, rfl,
    ⟨_, kept, countsNext, survived, ?_, fun _ => rfl⟩, ?_⟩
  · rw [sameInputs, sameRecords]
    exact served
  · rw [sameInputs, takings_append, taken, nothing whole]
    exact List.append_nil _
  · rw [sameRecords]
    exact appended
  · rw [sameRecords, List.length_append]
    exact keeps.count.trans (Nat.le_add_right _ _)

theorem Keeps.work (keeps : Keeps setup start inputs server log) (now : UnixMicros)
    (order : IterationOrder) (few : (inputs ++ [ServerInput.work now order]).length < 2 ^ 64) :
    Keeps setup start (inputs ++ [.work now order]) (server.work setup now order).1
      (log ++ (server.work setup now order).2) := by
  rw [Server.work]
  cases point : server.thread with
  | popping => exact keeps.pop point _ now order
  | deciding =>
      dsimp only
      split
      · exact keeps.stop point _ few
      · refine keeps.silent ⟨rfl, rfl⟩ _ rfl rfl (fun stopped => by cases stopped) ?_ ?_
        · rw [point]
          exact fun _ nothing => nothing
        · rw [point]
          exact Or.inl ⟨rfl, id⟩
  | appending records =>
      cases records with
      | nil =>
          refine keeps.silent ⟨rfl, rfl⟩ _ rfl rfl (fun stopped => by cases stopped) ?_ ?_
          · rw [point]
            exact fun _ nothing => nothing
          · rw [point]
            exact Or.inl ⟨rfl, id⟩
      | cons record rest => exact keeps.append point _ few
  | stopped => exact keeps.still ⟨rfl, rfl⟩ _ rfl rfl rfl rfl
  | panicked cause => exact keeps.still ⟨rfl, rfl⟩ _ rfl rfl rfl rfl

theorem Keeps.step (keeps : Keeps setup start inputs server log) (input : ServerInput)
    (few : (inputs ++ [input]).length < 2 ^ 64) :
    Keeps setup start (inputs ++ [input]) (server.step setup input).1
      (log ++ (server.step setup input).2) := by
  cases input with
  | enqueue command => exact keeps.enqueue command
  | produce => exact keeps.produce
  | work now order => exact keeps.work now order few
  | shutdown =>
      rw [Server.step, shutDown_frame]
      exact keeps.still ⟨rfl, rfl⟩ _ rfl rfl rfl rfl

/-- A server that has booted on an empty log has handled and appended nothing. -/
theorem keeps_launch (setup : ServerSetup) (memory : Memory) {loop : CommandLoop}
    {wal : Wal.WalState} (live : wal.session.isSome)
    (related : Wal.Related setup.crc wal .empty) (counts : Wal.CountsUnflushed wal .empty) :
    Keeps setup loop [] (launch memory loop wal) [] where
  served := ⟨[], rfl, rfl⟩
  taken := ⟨[], rfl, Nat.zero_le 1, fun _ => rfl⟩
  live := live
  stored := ⟨.empty, related, counts, rfl, rfl, fun stopped => by cases stopped⟩
  count := Nat.le_refl 0

end Server
end Exg
