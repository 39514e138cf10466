import Exg.Wal.Seeking

/-!
# What a crash can lose

The writer counts the records that it has appended since its last flush, and flushes when they
are `flush_every_n`.  Rotations, further flushes and openings only start the count again, so
that no crash loses as many records as that (`crash_loses_few`).
-/

namespace Exg.Wal

open Support

variable {crc : Checksum}

/-- The records that are not flushed are those that the writer counts, and they are few. -/
def CountsUnflushed (state : WalState) (log : DurableLog) : Prop :=
  ∀ writer, state.session = some writer →
    log.appended.length = log.flushed + writer.recordsSinceFlush ∧
      writer.recordsSinceFlush < max 1 writer.config.flushEveryN

/-- Without a writer there is nothing to count. -/
theorem counts_closed (directory : Directory) (log : DurableLog) :
    CountsUnflushed ⟨directory, none⟩ log := by
  intro writer live
  cases live

theorem recordsSinceFlush_open {config : WalConfig} {directory opened : Directory}
    {writer : WalWriter} (opens : WalWriter.open crc config directory = .ok (opened, writer)) :
    writer.recordsSinceFlush = 0 := by
  rw [WalWriter.open] at opens
  split at opens
  · cases opens
  · rw [← (Prod.mk.inj (Except.ok.inj opens)).2]

/-! ## The steps of a session -/

private theorem makeRoom_count (writer : WalWriter) (directory : Directory) (payload : Bytes) :
    (writer.makeRoom directory payload).2.config = writer.config ∧
      (writer.makeRoom directory payload).2.recordsSinceFlush =
        if writer.mustRotate payload then 0 else writer.recordsSinceFlush := by
  rw [WalWriter.makeRoom]
  split <;> exact ⟨rfl, rfl⟩

private theorem autoFlush_count (writer : WalWriter) (directory : Directory) :
    (writer.autoFlush directory).2.config = writer.config ∧
      (writer.autoFlush directory).2.recordsSinceFlush =
        if writer.mustFlush then 0 else writer.recordsSinceFlush := by
  rw [WalWriter.autoFlush]
  split <;> exact ⟨rfl, rfl⟩

/-- The log behind an optional flush. -/
theorem of_trace_flush {due : Bool} {log final : DurableLog}
    (trace : Trace DurableLog.Step log (if due then [.flushed] else []) final) :
    final = { log with flushed := if due then log.appended.length else log.flushed } := by
  cases due with
  | false =>
      cases trace
      rfl
  | true =>
      cases trace with
      | cons now later =>
          cases later
          cases now
          rfl

/-- The log behind a record that is appended, with the flushes around it. -/
theorem of_trace_append {writer : WalWriter} {directory : Directory} {payload : Bytes}
    {sequence : Nat} {log final : DurableLog}
    (trace : Trace DurableLog.Step log (appendEvents crc writer directory payload sequence)
      final) :
    let current := (writer.makeRoom directory payload).2.writeRecord crc payload
    final.survived = log.survived ∧ final.appended = log.appended ++ [payload] ∧
      final.flushed = if current.mustFlush then log.appended.length + 1
        else if writer.mustRotate payload then log.appended.length else log.flushed := by
  intro current
  obtain ⟨roomy, early, late⟩ := trace.split
  cases late with
  | cons now later =>
      have before := of_trace_flush early
      have after := of_trace_flush later
      cases now
      subst before after
      refine ⟨rfl, rfl, ?_⟩
      rw [List.length_append, List.length_singleton]

private theorem of_trace_opened {count : Nat}
    {read : Progress (List (Nat × Bytes)) × Except WalError Nat}
    {log final : DurableLog} (trace : Trace DurableLog.Step log [.opened count read] final) :
    final.appended = [] ∧ final.flushed = 0 := by
  generalize found : WalEvent.opened count read = event at trace
  cases trace with
  | cons now later =>
      cases later
      cases now with
      | opened _ _ _ => exact ⟨rfl, rfl⟩
      | _ => cases found

/-- An append keeps the count. -/
theorem CountsUnflushed.append {directory next : Directory} {writer current : WalWriter}
    {payload : Bytes} {sequence : Nat} {log final : DurableLog}
    (counts : CountsUnflushed ⟨directory, some writer⟩ log)
    (appends : writer.append crc directory payload = .ok (sequence, next, current))
    (trace : Trace DurableLog.Step log (appendEvents crc writer directory payload sequence)
      final) :
    CountsUnflushed ⟨next, some current⟩ final := by
  obtain ⟨unflushed, few⟩ := counts writer rfl
  obtain ⟨-, appended, flushed⟩ := of_trace_append trace
  rw [WalWriter.append] at appends
  split at appends
  · cases appends
  · obtain ⟨config, count⟩ := makeRoom_count writer directory payload
    let written := (writer.makeRoom directory payload).2.writeRecord crc payload
    have counted : written.recordsSinceFlush =
        (writer.makeRoom directory payload).2.recordsSinceFlush + 1 := rfl
    have sameConfig : written.config = (writer.makeRoom directory payload).2.config := rfl
    obtain ⟨configNow, countNow⟩ :=
      autoFlush_count written (writer.makeRoom directory payload).1
    have outcome := (Prod.mk.inj (Except.ok.inj appends)).2
    have same : current = (written.autoFlush (writer.makeRoom directory payload).1).2 :=
      (congrArg Prod.snd outcome).symm
    rintro _ ⟨⟩
    rw [appended, flushed, same, countNow, configNow, counted, sameConfig, config, count,
      List.length_append, List.length_singleton]
    by_cases due : written.mustFlush = true
    · rw [if_pos due, if_pos due]
      omega
    · have below : ¬written.recordsSinceFlush ≥ written.config.flushEveryN :=
        fun enough => due (decide_eq_true enough)
      rw [counted, count, sameConfig, config] at below
      rw [if_neg due, if_neg due]
      split_ifs at below ⊢ <;> omega

/-- An append that succeeds adds its payload to the log. -/
theorem Related.appended {directory next : Directory} {writer current : WalWriter}
    {payload : Bytes} {sequence : Nat} {log : DurableLog}
    (related : Related crc ⟨directory, some writer⟩ log)
    (counts : CountsUnflushed ⟨directory, some writer⟩ log)
    (bound : log.payloads.length + 1 < 2 ^ 64)
    (appends : writer.append crc directory payload = .ok (sequence, next, current)) :
    ∃ final, Related crc ⟨next, some current⟩ final ∧
      CountsUnflushed ⟨next, some current⟩ final ∧ final.survived = log.survived ∧
      final.appended = log.appended ++ [payload] := by
  obtain ⟨final, trace, kept, -⟩ := related.step bound (.append payload)
  simp only [WalState.step, WalState.append, appends] at trace kept
  obtain ⟨survived, appended, -⟩ := of_trace_append trace
  exact ⟨final, kept, counts.append appends trace, survived, appended⟩

/-- A flush puts everything that was appended on disk. -/
theorem Related.flushed {directory : Directory} {writer : WalWriter} {log : DurableLog}
    (related : Related crc ⟨directory, some writer⟩ log)
    (bound : log.payloads.length + 1 < 2 ^ 64) :
    let state := (WalState.step crc ⟨directory, some writer⟩ .flush).1
    let final := { log with flushed := log.appended.length }
    Related crc state final ∧ CountsUnflushed state final := by
  intro state final
  obtain ⟨reached, trace, kept, -⟩ := related.step bound .flush
  have same : reached = final := @of_trace_flush true log reached trace
  rw [same] at kept
  refine ⟨kept, ?_⟩
  rintro _ ⟨⟩
  exact ⟨rfl, Nat.lt_of_lt_of_le Nat.one_pos (Nat.le_max_left _ _)⟩

/-- Whatever step the writer takes, its count stays right. -/
theorem CountsUnflushed.step {state : WalState} {log final : DurableLog}
    (counts : CountsUnflushed state log) {input : WalInput}
    (trace : Trace DurableLog.Step log (state.step crc input).2 final) :
    CountsUnflushed (state.step crc input).1 final := by
  obtain ⟨directory, session⟩ := state
  cases input with
  | «open» config =>
      rw [WalState.step, WalState.open] at trace ⊢
      split at trace
      · exact counts_closed _ final
      · rename_i opened writer opens
        obtain ⟨appended, flushed⟩ := of_trace_opened trace
        rintro _ ⟨⟩
        rw [recordsSinceFlush_open opens, appended, flushed]
        exact ⟨rfl, Nat.lt_of_lt_of_le Nat.one_pos (Nat.le_max_left _ _)⟩
  | append payload =>
      cases session with
      | none => exact counts_closed directory final
      | some writer =>
          simp only [WalState.step, WalState.append] at trace ⊢
          cases appends : writer.append crc directory payload with
          | error error =>
              rw [appends] at trace
              cases trace with
              | cons now later =>
                  cases later
                  cases now
                  exact counts
          | ok outcome =>
              obtain ⟨sequence, next, current⟩ := outcome
              rw [appends] at trace
              exact counts.append appends trace
  | flush =>
      cases session with
      | none => exact counts_closed directory final
      | some writer =>
          cases trace with
          | cons now later =>
              cases later
              cases now
              rintro _ ⟨⟩
              exact ⟨rfl, Nat.lt_of_lt_of_le Nat.one_pos (Nat.le_max_left _ _)⟩
  | crash cut missing =>
      cases session with
      | none => exact counts_closed directory final
      | some writer => exact counts_closed _ final

private theorem counts_run (crc : Checksum) (inputs : List WalInput)
    (few : inputs.length < 2 ^ 64) :
    ∃ log, Trace DurableLog.Step .empty (run (WalState.step crc) .initial inputs).2 log ∧
      Related crc (run (WalState.step crc) .initial inputs).1 log ∧
      CountsUnflushed (run (WalState.step crc) .initial inputs).1 log ∧
      log.payloads.length ≤ inputs.length := by
  apply run_refines fun before state log =>
    Related crc state log ∧ CountsUnflushed state log ∧ log.payloads.length ≤ before.length
  · exact ⟨.closed .none ⟨List.nil_prefix, Nat.le_refl 0⟩, counts_closed [] .empty, Nat.le_refl 0⟩
  · rintro before input state log isPrefix ⟨related, counts, count⟩
    have length := isPrefix.length_le
    rw [List.length_append, List.length_singleton] at length
    obtain ⟨final, trace, kept, more⟩ := related.step (by omega) input
    rw [List.length_append, List.length_singleton]
    exact ⟨final, trace, kept, counts.step trace, by omega⟩

/-! ## Crashes -/

/-- What is on disk after a crash, of a log that still has its writer. -/
theorem Related.crashed {directory : Directory} {writer : WalWriter} {log : DurableLog}
    (related : Related crc ⟨directory, some writer⟩ log)
    (counts : CountsUnflushed ⟨directory, some writer⟩ log) (bound : log.payloads.length < 2 ^ 64)
    (cut : Nat) (missing : Bool) :
    ∃ found, Stored crc (crash directory writer cut missing) found ∧ found <+: log.payloads ∧
      log.survived.length + log.flushed ≤ found.length ∧
      log.payloads.length < found.length + max 1 writer.config.flushEveryN := by
  obtain ⟨unflushed, few⟩ := counts writer rfl
  cases related with
  | live holds =>
      obtain ⟨found, stored, isPrefix, flushed⟩ := holds.crash bound cut missing
      refine ⟨found, stored, isPrefix, flushed, ?_⟩
      rw [DurableLog.payloads, List.length_append]
      omega

/-- Once its buffer is written out, a log is read whole. -/
theorem Related.closed_stored {directory : Directory} {writer : WalWriter} {log : DurableLog}
    (related : Related crc ⟨directory, some writer⟩ log) (bound : log.payloads.length < 2 ^ 64) :
    Stored crc (WalState.close ⟨directory, some writer⟩) log.payloads := by
  cases related with
  | live holds =>
      obtain ⟨full, kept, buffered, live, payloads, -⟩ := holds
      have flushed := live.flush (by
        rw [payloads, live.length, live.next] at bound
        omega)
      have written : (writer.flush directory).1 = _ := flushed.directory
      rw [payloads, WalState.close]
      dsimp only
      rw [written, ← List.append_nil (frames _ _ _)]
      exact .some flushed.nonempty live.sizes TornTail.nil

private theorem length_numbered (first : Nat) (payloads : List Bytes) :
    (numbered first payloads).length = payloads.length := by
  rw [← List.length_map (f := Prod.snd), map_snd_numbered]

private theorem Stored.reads_all {directory : Directory} {payloads : List Bytes}
    (stored : Stored crc directory payloads) (bound : payloads.length < 2 ^ 64) :
    readFrom crc collect 0 directory [] =
      (⟨numbered 0 payloads, (numbered 0 payloads).length⟩, .ok (numbered 0 payloads).length) := by
  rw [stored.readFrom_seek bound, recordsFrom_zero, deliver_collect, List.nil_append,
    Nat.zero_add]

/-- A crash at any moment of a session, whatever it keeps of the writer's buffer, loses fewer
records than `flush_every_n`, and those from the end: a boot finds the others in their order. -/
theorem crash_loses_few (crc : Checksum) (inputs : List WalInput) (few : inputs.length < 2 ^ 64)
    {writer : WalWriter}
    (live : (run (WalState.step crc) .initial inputs).1.session = some writer)
    (cut : Nat) (missing : Bool) (config : WalConfig) :
    let state := (run (WalState.step crc) .initial inputs).1
    ∃ records kept opened next,
      readFrom crc collect 0 state.close [] = (⟨records, records.length⟩, .ok records.length) ∧
      WalWriter.open crc config (crash state.directory writer cut missing) = .ok (opened, next) ∧
      readFrom crc collect 0 opened [] = (⟨kept, kept.length⟩, .ok kept.length) ∧
      next.nextSequence = kept.length ∧ kept <+: records ∧
      records.length < kept.length + max 1 writer.config.flushEveryN := by
  intro state
  obtain ⟨log, -, related, counts, count⟩ := counts_run crc inputs few
  have bound := lt_of_le_of_lt count few
  have known : state = ⟨state.directory, some writer⟩ := by rw [← live]
  rw [show (run (WalState.step crc) .initial inputs).1 = _ from known] at related counts
  obtain ⟨found, stored, isPrefix, -, loss⟩ := related.crashed counts bound cut missing
  have fewer := isPrefix.length_le
  obtain ⟨opened, next, -, -, opens, -, -⟩ := stored.opens (by omega) config
  obtain ⟨distinct, tail, recoverable⟩ := stored.recoverable (by omega)
  obtain ⟨number, reads⟩ := open_recoverable distinct recoverable opens
  have whole := related.closed_stored bound
  rw [← known] at whole
  obtain ⟨lost, same⟩ := isPrefix
  refine ⟨numbered 0 log.payloads, numbered 0 found, opened, next, whole.reads_all bound, opens, ?_,
    ?_, ?_, ?_⟩
  · rw [readFrom_collect (reads collect), length_numbered]
  · rw [number, length_numbered]
  · rw [← same, numbered_append]
    exact List.prefix_append _ _
  · rwa [length_numbered, length_numbered]

/-- Three records, of which the flush after the second has saved two. -/
theorem crash_loses_few_third :
    ∃ records kept opened next,
      readFrom crc32 collect 0 (run (WalState.step crc32) .initial
          [.open ⟨1000, 2⟩, .append [1], .append [2], .append [3]]).1.close [] =
        (⟨records, records.length⟩, .ok records.length) ∧
      WalWriter.open crc32 ⟨1000, 2⟩ (crash (run (WalState.step crc32) .initial
          [.open ⟨1000, 2⟩, .append [1], .append [2], .append [3]]).1.directory
        { config := ⟨1000, 2⟩
          writer := encodeRecord crc32 2 [3]
          currentSegmentPath := segmentFilename 0
          currentSegmentFirstSeq := 0
          currentSegmentBytes := 51
          nextSequence := 3
          recordsSinceFlush := 1 } 0 true) = .ok (opened, next) ∧
      readFrom crc32 collect 0 opened [] = (⟨kept, kept.length⟩, .ok kept.length) ∧
      next.nextSequence = kept.length ∧ kept <+: records ∧
      records.length < kept.length + max 1 2 :=
  crash_loses_few crc32 [.open ⟨1000, 2⟩, .append [1], .append [2], .append [3]] (by decide)
    (by decide +kernel) 0 true ⟨1000, 2⟩

end Exg.Wal
