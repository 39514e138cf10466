import Exg.Support.Machine
import Exg.Wal.Layout

/-!
# Crashes

A log lives through appends, flushes, crashes and openings.  A crash keeps what is flushed
and any part of what is still in the buffer; a segment file without flushed bytes may be
lost.  `DurableLog` says what a log promises across all that, and `WalState.refines` that
the writer and its recovery keep it.
-/

namespace Exg.Wal

open Support

/-! ## The log and its crashes -/

/-- A directory and its writer, when one is open.  What an opening finds counts as flushed. -/
structure WalState where
  directory : Directory
  session : Option WalWriter
  deriving DecidableEq, Repr

inductive WalInput where
  | open (config : WalConfig)
  | append (payload : Bytes)
  | flush
  /-- The buffered bytes that reach the disk, and whether a segment file that was only just
  created is lost. -/
  | crash (cut : Nat) (missing : Bool)
  deriving DecidableEq, Repr

inductive WalEvent where
  /-- The writer's next sequence number, and what a reader delivers. -/
  | opened (nextSequence : Nat) (read : Progress (List (Nat × Bytes)) × Except WalError Nat)
  | openFailed (error : WalError)
  | appended (sequence : Nat) (payload : Bytes)
  | appendFailed (error : WalError)
  | flushed
  deriving DecidableEq, Repr

section Machine

variable (crc : Checksum)

/-- What a crash leaves. -/
def crash (directory : Directory) (writer : WalWriter) (cut : Nat) (missing : Bool) : Directory :=
  let path := writer.currentSegmentPath
  if missing ∧ ⟨path, []⟩ ∈ directory then
    directory.filter fun file => file.name ≠ path
  else
    directory.writeAll path (writer.writer.take cut)

/-- The directory once a writer is dropped, which writes its buffer out. -/
def WalState.close (state : WalState) : Directory :=
  match state.session with
  | none => state.directory
  | some writer => (writer.flush state.directory).1

def WalState.open (state : WalState) (config : WalConfig) : WalState × List WalEvent :=
  let directory := state.close
  match WalWriter.open crc config directory with
  | .error error => (⟨directory, none⟩, [.openFailed error])
  | .ok (opened, writer) =>
      (⟨opened, some writer⟩,
        [.opened writer.nextSequence (readFrom crc collect 0 opened [])])

/-- The flushes around an appended record. -/
def appendEvents (writer : WalWriter) (directory : Directory) (payload : Bytes) (sequence : Nat) :
    List WalEvent :=
  let current := (writer.makeRoom directory payload).2.writeRecord crc payload
  (if writer.mustRotate payload then [.flushed] else []) ++
    .appended sequence payload :: (if current.mustFlush then [.flushed] else [])

def WalState.append (directory : Directory) (writer : WalWriter) (payload : Bytes) :
    WalState × List WalEvent :=
  match writer.append crc directory payload with
  | .error error => (⟨directory, some writer⟩, [.appendFailed error])
  | .ok (sequence, appended, next) =>
      (⟨appended, some next⟩, appendEvents crc writer directory payload sequence)

def WalState.step (state : WalState) (input : WalInput) : WalState × List WalEvent :=
  match input, state.session with
  | .open config, _ => state.open crc config
  | .append payload, some writer => WalState.append crc state.directory writer payload
  | .flush, some writer =>
      let (directory, next) := writer.flush state.directory
      (⟨directory, some next⟩, [.flushed])
  | .crash cut missing, some writer => (⟨crash state.directory writer cut missing, none⟩, [])
  | _, none => (state, [])

end Machine

/-! ## What a log promises -/

/-- The payloads found by the last opening, those appended since, and how many of these were
flushed. -/
structure DurableLog where
  survived : List Bytes
  appended : List Bytes
  flushed : Nat

namespace DurableLog

def empty : DurableLog := ⟨[], [], 0⟩

def payloads (log : DurableLog) : List Bytes := log.survived ++ log.appended

inductive Step : DurableLog → WalEvent → DurableLog → Prop where
  /-- An opening finds what survived and a prefix of the appended payloads that contains the
  flushed ones; it delivers them under the numbers `0, 1, …`. -/
  | opened {log : DurableLog} {kept : Nat} {found : List Bytes} (flushed : log.flushed ≤ kept)
      (bound : kept ≤ log.appended.length)
      (finds : found = log.survived ++ log.appended.take kept) :
      Step log (.opened found.length (⟨numbered 0 found, found.length⟩, .ok found.length))
        ⟨found, [], 0⟩
  | appended {log : DurableLog} {payload : Bytes} :
      Step log (.appended log.payloads.length payload)
        { log with appended := log.appended ++ [payload] }
  | rejected {log : DurableLog} {payload : Bytes} (large : payload.length > maxPayloadSize) :
      Step log (.appendFailed (.payloadTooLarge payload.length)) log
  | flushed {log : DurableLog} : Step log .flushed { log with flushed := log.appended.length }

end DurableLog

/-! ## The invariant -/

section Invariant

variable {crc : Checksum}

/-- An open writer, the payloads in its sealed segments, the flushed ones in the current
segment, and the buffered ones. -/
structure Live (crc : Checksum) (directory : Directory) (writer : WalWriter)
    (full : List (List Bytes)) (kept buffered : List Bytes) : Prop where
  nonempty : ∀ payloads ∈ full, payloads ≠ []
  sizes : ∀ payload ∈ full.flatten ++ (kept ++ buffered), payload.length < 2 ^ 32
  directory : directory = files (layout crc full (frames crc (sealedCount full) kept))
  path : writer.currentSegmentPath = segmentFilename (sealedCount full)
  buffer : writer.writer = frames crc (sealedCount full + kept.length) buffered
  bytes : writer.currentSegmentBytes = (frames crc (sealedCount full) (kept ++ buffered)).length
  next : writer.nextSequence = sealedCount full + (kept.length + buffered.length)

/-- An open log holds these payloads, and at least so many of them are flushed. -/
def Holds (crc : Checksum) (directory : Directory) (writer : WalWriter) (payloads : List Bytes)
    (flushed : Nat) : Prop :=
  ∃ full kept buffered, Live crc directory writer full kept buffered ∧
    payloads = full.flatten ++ (kept ++ buffered) ∧ flushed ≤ sealedCount full + kept.length

/-- A log without a writer, and the payloads of its whole records. -/
inductive Stored (crc : Checksum) : Directory → List Bytes → Prop where
  | none : Stored crc [] []
  | some {full : List (List Bytes)} {kept : List Bytes} {tail : Bytes}
      (nonempty : ∀ payloads ∈ full, payloads ≠ [])
      (sizes : ∀ payload ∈ full.flatten ++ kept, payload.length < 2 ^ 32)
      (torn : TornTail crc tail) :
      Stored crc (files (layout crc full (frames crc (sealedCount full) kept ++ tail)))
        (full.flatten ++ kept)

/-- Payloads that a log may lose no more of: all flushed ones and no others than the log's. -/
structure Persists (log : DurableLog) (payloads : List Bytes) : Prop where
  isPrefix : payloads <+: log.payloads
  flushed : log.survived.length + log.flushed ≤ payloads.length

/-- The writer's state against the promised one. -/
inductive Related (crc : Checksum) : WalState → DurableLog → Prop where
  | closed {directory : Directory} {payloads : List Bytes} {log : DurableLog}
      (stored : Stored crc directory payloads) (persists : Persists log payloads) :
      Related crc ⟨directory, none⟩ log
  | live {directory : Directory} {writer : WalWriter} {log : DurableLog}
      (holds : Holds crc directory writer log.payloads (log.survived.length + log.flushed)) :
      Related crc ⟨directory, some writer⟩ log

variable {directory : Directory} {writer : WalWriter} {full : List (List Bytes)}
  {kept buffered : List Bytes}

/-! ## Opening -/

private theorem tailStart_layout (full : List (List Bytes)) (bytes tail : Bytes) :
    tailStart (layout crc full (bytes ++ tail)) tail =
      if tail = [] then none else some (segmentFilename (sealedCount full), bytes.length) := by
  rw [tailStart, layout, List.getLast?_concat, Option.map_some, List.length_append,
    Nat.add_sub_cancel_right]

private theorem truncateTail_layout (nonempty : ∀ payloads ∈ full, payloads ≠ [])
    (bound : sealedCount full < 2 ^ 64) (bytes tail : Bytes) :
    truncateTail (files (layout crc full (bytes ++ tail)))
        (tailStart (layout crc full (bytes ++ tail)) tail) =
      files (layout crc full bytes) := by
  rw [tailStart_layout]
  split
  · rename_i clean
    rw [clean, List.append_nil, truncateTail]
  · rw [truncateTail, Directory.setLen, modify_layout nonempty bound, List.take_left]

private theorem chooseSegment_layout (config : WalConfig) (nextSequence : Nat)
    (bytes tail : Bytes) :
    chooseSegment config (layout crc full (bytes ++ tail)) nextSequence
        (tailStart (layout crc full (bytes ++ tail)) tail) =
      if bytes.length ≥ config.segmentSize then
        (nextSequence, segmentFilename nextSequence, 0)
      else
        (sealedCount full, segmentFilename (sealedCount full), bytes.length) := by
  have length : lengthAfter (tailStart (layout crc full (bytes ++ tail)) tail)
      ⟨segmentFilename (sealedCount full), bytes ++ tail⟩ = bytes.length := by
    rw [tailStart_layout]
    split
    · rename_i clean
      simp [lengthAfter, clean]
    · simp [lengthAfter]
  have last : (layout crc full (bytes ++ tail)).getLast? =
      some (sealedCount full, ⟨segmentFilename (sealedCount full), bytes ++ tail⟩) := by
    rw [layout, List.getLast?_concat]
  simp only [chooseSegment, last, length]

theorem Stored.fit {payloads : List Bytes} (stored : Stored crc directory payloads)
    (bound : payloads.length < 2 ^ 64) : FramesFit 0 payloads := by
  cases stored with
  | none => exact FramesFit.nil (Nat.zero_le _)
  | some _ sizes _ => exact ⟨by omega, sizes⟩

/-- A stored log has segments that recovery accepts. -/
theorem Stored.recoverable {payloads : List Bytes} (stored : Stored crc directory payloads)
    (bound : payloads.length < 2 ^ 64) :
    DistinctSegments directory ∧
      ∃ tail, Recoverable crc 0 (listSegments directory) payloads tail := by
  have fit := stored.fit bound
  cases stored with
  | none => exact ⟨List.nodup_nil, [], .none⟩
  | @some full kept tail nonempty _ torn =>
      rw [List.length_append] at bound
      have canonical : Canonical (layout crc full (frames crc (sealedCount full) kept ++ tail)) :=
        canonical_layout nonempty (by rw [sealedCount]; omega)
      refine ⟨canonical.distinct, tail, ?_⟩
      rw [canonical.listSegments_files]
      exact recoverable_layout fit torn

/-- Opening a stored log. -/
theorem Stored.opens {payloads : List Bytes} (stored : Stored crc directory payloads)
    (bound : payloads.length < 2 ^ 64) (config : WalConfig) :
    ∃ opened writer full kept, WalWriter.open crc config directory = .ok (opened, writer) ∧
      Live crc opened writer full kept [] ∧ full.flatten ++ kept = payloads := by
  have fit := stored.fit bound
  cases stored with
  | none =>
      have recoverable : Recoverable crc 0 (listSegments []) [] [] := .none
      refine ⟨_, _, [], [], WalWriter.open_of_recoverable config recoverable, ?_, rfl⟩
      exact ⟨by simp, by simp, rfl, rfl, rfl, rfl, rfl⟩
  | @some full kept tail nonempty sizes torn =>
      have total : (full.flatten ++ kept).length = sealedCount full + kept.length :=
        List.length_append
      rw [total] at bound
      have canonical : Canonical (layout crc full (frames crc (sealedCount full) kept ++ tail)) :=
        canonical_layout nonempty (by omega)
      have recoverable := recoverable_layout fit torn
      rw [← canonical.listSegments_files] at recoverable
      have opens := WalWriter.open_of_recoverable config recoverable
      simp only [canonical.listSegments_files, truncateTail_layout nonempty (by omega),
        chooseSegment_layout, total] at opens
      by_cases isFull : (frames crc (sealedCount full) kept).length ≥ config.segmentSize
      · simp only [if_pos isFull] at opens
        by_cases none : kept = []
        · subst none
          rw [List.length_nil, Nat.add_zero, frames_nil, create_current] at opens
          refine ⟨_, _, full, [], opens, ⟨nonempty, ?_, rfl, rfl, rfl, rfl, rfl⟩, rfl⟩
          simpa using sizes
        · rw [create_next nonempty none (by omega)] at opens
          refine ⟨_, _, full ++ [kept], [], opens, ⟨?_, ?_, rfl, ?_, rfl, rfl, ?_⟩, ?_⟩
          · exact List.forall_mem_append.2 ⟨nonempty, List.forall_mem_singleton.2 none⟩
          · simpa using sizes
          · rw [sealedCount_concat]
          · rw [sealedCount_concat]
            rfl
          · rw [List.flatten_concat, List.append_nil]
      · simp only [if_neg isFull, create_current] at opens
        refine ⟨_, _, full, kept, opens, ⟨nonempty, ?_, rfl, rfl, rfl, ?_, rfl⟩, rfl⟩
        · rwa [List.append_nil]
        · rw [List.append_nil]

/-! ## Appending -/

theorem Live.flush (live : Live crc directory writer full kept buffered)
    (bound : sealedCount full < 2 ^ 64) :
    Live crc (writer.flush directory).1 (writer.flush directory).2 full (kept ++ buffered) [] where
  nonempty := live.nonempty
  sizes := by
    rw [List.append_nil]
    exact live.sizes
  directory := by
    rw [WalWriter.flush, Directory.writeAll, live.directory, live.path,
      modify_layout live.nonempty bound, live.buffer, frames_append]
  path := live.path
  buffer := rfl
  bytes := by
    rw [List.append_nil]
    exact live.bytes
  next := by
    rw [List.length_append]
    exact live.next

private theorem Live.rotate (live : Live crc directory writer full kept []) (some : kept ≠ [])
    (bound : sealedCount full + kept.length < 2 ^ 64) :
    Live crc (writer.rotateSegment directory).1 (writer.rotateSegment directory).2
      (full ++ [kept]) [] [] where
  nonempty := List.forall_mem_append.2 ⟨live.nonempty, List.forall_mem_singleton.2 some⟩
  sizes := by simpa using live.sizes
  directory := by
    have next : writer.nextSequence = sealedCount full + kept.length := live.next
    rw [WalWriter.rotateSegment, live.directory, next, create_next live.nonempty some bound]
    rfl
  path := by
    rw [WalWriter.rotateSegment, sealedCount_concat]
    exact congrArg segmentFilename live.next
  buffer := rfl
  bytes := rfl
  next := by
    rw [sealedCount_concat]
    exact live.next

theorem Live.writeRecord (live : Live crc directory writer full kept buffered) {payload : Bytes}
    (size : payload.length < 2 ^ 32) :
    Live crc directory (writer.writeRecord crc payload) full kept (buffered ++ [payload]) where
  nonempty := live.nonempty
  sizes := by
    rw [← List.append_assoc, ← List.append_assoc]
    refine List.forall_mem_append.2 ⟨?_, List.forall_mem_singleton.2 size⟩
    rw [List.append_assoc]
    exact live.sizes
  directory := live.directory
  path := live.path
  buffer := by
    have number : writer.nextSequence = sealedCount full + kept.length + buffered.length := by
      rw [live.next, Nat.add_assoc]
    rw [WalWriter.writeRecord, live.buffer, number, frames_append, frames, frames_nil,
      List.append_nil]
  bytes := by
    have length := congrArg List.length
      (frames_append crc (sealedCount full) (kept ++ buffered) [payload])
    rw [List.length_append, frames, frames_nil, List.append_nil, length_encodeRecord,
      ← live.bytes, List.append_assoc] at length
    exact length.symm
  next := by
    have number : writer.nextSequence + 1 =
        sealedCount full + (kept.length + (buffered ++ [payload]).length) := by
      rw [live.next, List.length_append, List.length_singleton]
      omega
    exact number

/-! ## Steps of an open log -/

variable {payloads : List Bytes} {flushed : Nat}

theorem Live.length (live : Live crc directory writer full kept buffered) :
    (full.flatten ++ (kept ++ buffered)).length = writer.nextSequence := by
  rw [live.next, List.length_append, List.length_append, sealedCount]

theorem Holds.next (holds : Holds crc directory writer payloads flushed) :
    writer.nextSequence = payloads.length := by
  obtain ⟨full, kept, buffered, live, rfl, -⟩ := holds
  exact live.length.symm

theorem Holds.flush (holds : Holds crc directory writer payloads flushed)
    (bound : payloads.length < 2 ^ 64) :
    Holds crc (writer.flush directory).1 (writer.flush directory).2 payloads payloads.length := by
  obtain ⟨full, kept, buffered, live, rfl, -⟩ := holds
  rw [live.length, live.next] at bound
  refine ⟨full, kept ++ buffered, [], live.flush (by omega), by rw [List.append_nil], ?_⟩
  rw [List.length_append, sealedCount]

theorem Holds.makeRoom (holds : Holds crc directory writer payloads flushed)
    (bound : payloads.length < 2 ^ 64) (payload : Bytes) :
    Holds crc (writer.makeRoom directory payload).1 (writer.makeRoom directory payload).2 payloads
      (if writer.mustRotate payload then payloads.length else flushed) := by
  rw [WalWriter.makeRoom]
  by_cases rotates : writer.mustRotate payload = true
  · rw [if_pos rotates, if_pos rotates]
    obtain ⟨full, kept, buffered, live, rfl, -⟩ := holds
    rw [live.length, live.next] at bound
    have some : kept ++ buffered ≠ [] := by
      intro nothing
      have bytes := live.bytes
      rw [nothing, frames_nil] at bytes
      simp [WalWriter.mustRotate, bytes] at rotates
    have sealedOff := (live.flush (by omega)).rotate some (by rw [List.length_append]; omega)
    refine ⟨full ++ [kept ++ buffered], [], [], sealedOff, ?_, ?_⟩
    · rw [List.flatten_concat, List.append_nil, List.append_nil]
    · rw [sealedCount_concat, List.length_append, sealedCount]
      exact Nat.le_refl _
  · rw [if_neg rotates, if_neg rotates]
    exact holds

theorem Holds.writeRecord (holds : Holds crc directory writer payloads flushed) {payload : Bytes}
    (size : payload.length < 2 ^ 32) :
    Holds crc directory (writer.writeRecord crc payload) (payloads ++ [payload]) flushed := by
  obtain ⟨full, kept, buffered, live, rfl, few⟩ := holds
  refine ⟨full, kept, buffered ++ [payload], live.writeRecord size, ?_, few⟩
  simp only [List.append_assoc]

theorem Holds.autoFlush (holds : Holds crc directory writer payloads flushed)
    (bound : payloads.length < 2 ^ 64) :
    Holds crc (writer.autoFlush directory).1 (writer.autoFlush directory).2 payloads
      (if writer.mustFlush then payloads.length else flushed) := by
  rw [WalWriter.autoFlush]
  by_cases due : writer.mustFlush = true
  · rw [if_pos due, if_pos due]
    exact holds.flush bound
  · rw [if_neg due, if_neg due]
    exact holds

private theorem Stored.sealed (nonempty : ∀ payloads ∈ full, payloads ≠ [])
    (sizes : ∀ payload ∈ full.flatten, payload.length < 2 ^ 32) :
    Stored crc (files (sealedSegments crc 0 full)) full.flatten := by
  cases full using List.reverseRecOn with
  | nil => exact .none
  | append_singleton earlier last =>
      rw [List.flatten_concat] at sizes ⊢
      rw [sealedSegments_concat_zero, ← List.append_nil (frames _ _ _)]
      exact .some (List.forall_mem_append.1 nonempty).1 sizes TornTail.nil

/-- The current segment's file has no bytes only when nothing in it is flushed. -/
theorem kept_of_mem_layout (nonempty : ∀ payloads ∈ full, payloads ≠ [])
    (bound : sealedCount full < 2 ^ 64)
    (empty : ⟨segmentFilename (sealedCount full), []⟩ ∈
      files (layout crc full (frames crc (sealedCount full) kept))) : kept = [] := by
  by_contra some
  obtain ⟨segment, member, same⟩ := List.mem_map.1 empty
  cases List.mem_append.1 member with
  | inl inside =>
      have name : segment.2.name = segmentFilename (sealedCount full) := by rw [same]
      exact name_sealedSegments_ne nonempty (Nat.le_refl _) bound inside name
  | inr last =>
      have bytes : segment.2.bytes = [] := by rw [same]
      rw [List.mem_singleton.1 last] at bytes
      exact frames_ne_nil some bytes

/-- A crash keeps the flushed payloads and a prefix of the buffered ones. -/
theorem Holds.crash (holds : Holds crc directory writer payloads flushed)
    (bound : payloads.length < 2 ^ 64) (cut : Nat) (missing : Bool) :
    ∃ found, Stored crc (crash directory writer cut missing) found ∧ found <+: payloads ∧
      flushed ≤ found.length := by
  obtain ⟨full, kept, buffered, live, rfl, few⟩ := holds
  rw [live.length, live.next] at bound
  have room : sealedCount full < 2 ^ 64 := by omega
  rw [Wal.crash, live.path, live.directory]
  split
  · rename_i lost
    have nothing : kept = [] := kept_of_mem_layout live.nonempty room lost.2
    rw [nothing, List.length_nil] at few
    refine ⟨full.flatten, ?_, List.prefix_append _ _, few⟩
    rw [filter_layout live.nonempty room]
    exact Stored.sealed live.nonempty (List.forall_mem_append.1 live.sizes).1
  · have sizes := live.sizes
    rw [← List.append_assoc] at sizes
    have fit : FramesFit (sealedCount full + kept.length) buffered :=
      ⟨by omega, (List.forall_mem_append.1 sizes).2⟩
    obtain ⟨written, lost, tail, split, cutBytes, torn⟩ := take_frames fit cut
    subst split
    refine ⟨full.flatten ++ (kept ++ written), ?_, ?_, ?_⟩
    · rw [Directory.writeAll, modify_layout live.nonempty room, live.buffer, cutBytes,
        ← List.append_assoc, ← frames_append]
      refine .some live.nonempty (fun payload member => live.sizes payload ?_) torn
      rw [← List.append_assoc kept, ← List.append_assoc]
      exact List.mem_append_left lost member
    · refine ⟨lost, ?_⟩
      simp only [List.append_assoc]
    · rw [List.length_append, List.length_append, ← sealedCount]
      omega

/-! ## Every run -/

/-- Closing keeps everything. -/
theorem Related.close {state : WalState} {log : DurableLog} (related : Related crc state log)
    (bound : log.payloads.length < 2 ^ 64) :
    ∃ found, Stored crc state.close found ∧ Persists log found := by
  cases related with
  | @closed directory payloads log stored persists => exact ⟨payloads, stored, persists⟩
  | @live directory writer log holds =>
      obtain ⟨full, kept, buffered, live, payloads, few⟩ := holds
      have flushed := live.flush (by
        rw [payloads, live.length, live.next] at bound
        omega)
      refine ⟨log.payloads, ?_, List.prefix_refl _, ?_⟩
      · have written : (writer.flush directory).1 = _ := flushed.directory
        rw [payloads, WalState.close]
        dsimp only
        rw [written, ← List.append_nil (frames _ _ _)]
        exact .some flushed.nonempty live.sizes TornTail.nil
      · rw [payloads, List.length_append, List.length_append, ← sealedCount]
        omega

theorem Persists.take {log : DurableLog} {found : List Bytes} (persists : Persists log found) :
    log.flushed ≤ found.length - log.survived.length ∧
      found.length - log.survived.length ≤ log.appended.length ∧
      found = log.survived ++ log.appended.take (found.length - log.survived.length) := by
  have enough := persists.flushed
  have length := persists.isPrefix.length_le
  rw [DurableLog.payloads, List.length_append] at length
  refine ⟨by omega, by omega, ?_⟩
  have whole := List.prefix_iff_eq_take.1 persists.isPrefix
  rw [DurableLog.payloads, List.take_append, List.take_of_length_le (by omega)] at whole
  exact whole

theorem Related.open {state : WalState} {log : DurableLog} (related : Related crc state log)
    (bound : log.payloads.length < 2 ^ 64) (config : WalConfig) :
    ∃ final, Trace DurableLog.Step log (state.open crc config).2 final ∧
      Related crc (state.open crc config).1 final ∧
      final.payloads.length ≤ log.payloads.length := by
  obtain ⟨found, stored, persists⟩ := related.close bound
  have fewer := persists.isPrefix.length_le
  obtain ⟨flushed, most, finds⟩ := persists.take
  obtain ⟨opened, writer, full, kept, opens, live, payloads⟩ := stored.opens (by omega) config
  obtain ⟨distinct, tail, recoverable⟩ := stored.recoverable (by omega)
  obtain ⟨count, reads⟩ := open_recoverable distinct recoverable opens
  refine ⟨⟨found, [], 0⟩, ?_, ?_, ?_⟩
  · rw [WalState.open, opens]
    dsimp only
    rw [count, readFrom_collect (reads collect)]
    exact .single (.opened flushed most finds)
  · rw [WalState.open, opens]
    refine .live ⟨full, kept, [], live, ?_, ?_⟩
    · rw [DurableLog.payloads, List.append_nil, List.append_nil, payloads]
    · rw [← payloads, List.length_append, ← sealedCount]
      exact Nat.le_refl _
  · rw [DurableLog.payloads, List.append_nil]
    exact fewer

/-- An optional flush is a trace of the log. -/
theorem trace_flushed (due : Bool) (log : DurableLog) :
    Trace DurableLog.Step log (if due then [.flushed] else [])
      { log with flushed := if due then log.appended.length else log.flushed } := by
  cases due with
  | true => exact .single .flushed
  | false => exact .nil

private theorem maxPayloadSize_lt : maxPayloadSize < 2 ^ 32 := by decide

theorem Holds.mono {fewer : Nat} (holds : Holds crc directory writer payloads flushed)
    (less : fewer ≤ flushed) : Holds crc directory writer payloads fewer := by
  obtain ⟨full, kept, buffered, live, same, few⟩ := holds
  exact ⟨full, kept, buffered, live, same, less.trans few⟩

/-- Appending may flush before and behind the new record. -/
theorem Related.append {log : DurableLog} {payload : Bytes}
    (holds : Holds crc directory writer log.payloads (log.survived.length + log.flushed))
    (bound : log.payloads.length + 1 < 2 ^ 64) :
    ∃ final, Trace DurableLog.Step log (WalState.append crc directory writer payload).2 final ∧
      Related crc (WalState.append crc directory writer payload).1 final ∧
      final.payloads.length ≤ log.payloads.length + 1 := by
  by_cases large : payload.length > maxPayloadSize
  · rw [WalState.append, WalWriter.append, if_pos large]
    exact ⟨log, .single (.rejected large), .live holds, Nat.le_succ _⟩
  · have size := lt_of_le_of_lt (Nat.not_lt.1 large) maxPayloadSize_lt
    have room := holds.makeRoom (by omega) payload
    have written := room.writeRecord size
    have length : (log.payloads ++ [payload]).length = log.payloads.length + 1 := by
      rw [List.length_append, List.length_singleton]
    rw [WalState.append, WalWriter.append, if_neg large]
    dsimp only
    rw [appendEvents, room.next]
    refine ⟨_, (trace_flushed _ log).append (.cons .appended (trace_flushed _ _)), ?_, ?_⟩
    · refine .live ?_
      simp only [DurableLog.payloads, ← List.append_assoc log.survived] at written length ⊢
      refine (written.autoFlush (by rw [length]; exact bound)).mono ?_
      rw [length, List.length_append, List.length_append, List.length_singleton]
      split_ifs <;> omega
    · simp only [DurableLog.payloads, ← List.append_assoc log.survived]
      exact Nat.le_of_eq length

theorem Related.step {state : WalState} {log : DurableLog} (related : Related crc state log)
    (bound : log.payloads.length + 1 < 2 ^ 64) (input : WalInput) :
    ∃ final, Trace DurableLog.Step log (state.step crc input).2 final ∧
      Related crc (state.step crc input).1 final ∧
      final.payloads.length ≤ log.payloads.length + 1 := by
  cases input with
  | «open» config =>
      obtain ⟨final, trace, kept, fewer⟩ := related.open (by omega) config
      exact ⟨final, trace, kept, by omega⟩
  | append payload =>
      cases related with
      | closed stored persists => exact ⟨log, .nil, .closed stored persists, Nat.le_succ _⟩
      | live holds => exact Related.append holds bound
  | flush =>
      cases related with
      | closed stored persists => exact ⟨log, .nil, .closed stored persists, Nat.le_succ _⟩
      | live holds =>
          refine ⟨_, .single .flushed, .live ((holds.flush (by omega)).mono ?_), Nat.le_succ _⟩
          rw [DurableLog.payloads, List.length_append]
  | crash cut missing =>
      cases related with
      | closed stored persists => exact ⟨log, .nil, .closed stored persists, Nat.le_succ _⟩
      | live holds =>
          obtain ⟨found, stored, isPrefix, flushed⟩ := holds.crash (by omega) cut missing
          exact ⟨log, .nil, .closed stored ⟨isPrefix, flushed⟩, Nat.le_succ _⟩

/-- A log starts without any files. -/
def WalState.initial : WalState := ⟨[], none⟩

theorem related_run (inputs : List WalInput) (few : inputs.length < 2 ^ 64) :
    ∃ log, Trace DurableLog.Step .empty (run (WalState.step crc) .initial inputs).2 log ∧
      Related crc (run (WalState.step crc) .initial inputs).1 log ∧
      log.payloads.length ≤ inputs.length := by
  apply run_refines fun before state log =>
    Related crc state log ∧ log.payloads.length ≤ before.length
  · exact ⟨.closed .none ⟨List.nil_prefix, Nat.le_refl 0⟩, Nat.zero_le _⟩
  · rintro before input state log isPrefix ⟨related, count⟩
    have length := isPrefix.length_le
    rw [List.length_append, List.length_singleton] at length
    obtain ⟨final, trace, kept, more⟩ := related.step (by omega) input
    rw [List.length_append, List.length_singleton]
    exact ⟨final, trace, kept, by omega⟩

private theorem crash_run (crc : Checksum) (inputs : List WalInput) (few : inputs.length < 2 ^ 64) :
    ∃ log, Trace DurableLog.Step .empty (run (WalState.step crc) .initial inputs).2 log := by
  obtain ⟨log, trace, -⟩ := related_run inputs few
  exact ⟨log, trace⟩

/-- Whatever is appended and flushed, however often the log crashes and is opened again: every
opening succeeds and finds what the last one found, and behind it a prefix of what was
appended since with all that was flushed. -/
theorem crash_recovery (crc : Checksum) (inputs : List WalInput) (few : inputs.length < 2 ^ 64) :
    ∃ log, Trace DurableLog.Step .empty (run (WalState.step crc) .initial inputs).2 log :=
  crash_run crc inputs few

theorem crash_recovery_twice : ∃ log, Trace DurableLog.Step .empty
    (run (WalState.step crc32) .initial
      [.open ⟨40, 2⟩, .append [1], .append [2], .append [3], .crash 7 false, .open ⟨40, 2⟩,
        .append [4], .crash 0 true, .open ⟨0, 0⟩, .append [5]]).2 log :=
  crash_recovery crc32 _ (by decide)

/-! ## Records that are not flushed yet -/

/-- What a payload takes up in its segment. -/
def recordSize (payload : Bytes) : Nat := recordOverhead + payload.length

/-- Appends that neither fill the segment nor reach the flush count flush nothing. -/
theorem appends_unflushed {directory : Directory} {writer : WalWriter} {payloads : List Bytes}
    (few : writer.recordsSinceFlush + payloads.length < writer.config.flushEveryN)
    (room : writer.currentSegmentBytes + (payloads.map recordSize).sum ≤
      writer.config.segmentSize) :
    .flushed ∉ (run (WalState.step crc) ⟨directory, some writer⟩
      (payloads.map WalInput.append)).2 := by
  induction payloads generalizing directory writer with
  | nil => exact List.not_mem_nil
  | cons payload rest inductionHypothesis =>
      rw [List.map_cons, List.sum_cons, recordSize] at room
      rw [List.length_cons] at few
      have stays : writer.mustRotate payload = false := by
        rw [WalWriter.mustRotate, decide_eq_false_iff_not]
        omega
      have quiet : (writer.writeRecord crc payload).mustFlush = false := by
        rw [WalWriter.mustFlush, decide_eq_false_iff_not, WalWriter.writeRecord]
        dsimp only
        omega
      rw [List.map_cons, run, List.mem_append, not_or]
      simp only [WalState.step, WalState.append, WalWriter.append, appendEvents, WalWriter.makeRoom,
        WalWriter.autoFlush, stays, Bool.false_eq_true, if_false]
      by_cases large : payload.length > maxPayloadSize
      · simp only [if_pos large]
        exact ⟨by simp, inductionHypothesis (by omega) (by omega)⟩
      · simp only [if_neg large, quiet, Bool.false_eq_true, if_false]
        refine ⟨by simp, inductionHypothesis ?_ ?_⟩
        · rw [WalWriter.writeRecord]
          dsimp only
          omega
        · rw [WalWriter.writeRecord]
          dsimp only
          omega

/-- Without a flush, no record is flushed. -/
theorem flushed_of_trace {before after : DurableLog} {events : List WalEvent}
    (trace : Trace DurableLog.Step before events after) (unflushed : .flushed ∉ events)
    (none : before.flushed = 0) : after.flushed = 0 := by
  induction trace with
  | nil => exact none
  | cons now later inductionHypothesis =>
      rw [List.mem_cons, not_or] at unflushed
      apply inductionHypothesis unflushed.2
      cases now with
      | opened _ _ _ => rfl
      | appended => exact none
      | rejected _ => exact none
      | flushed => exact absurd rfl unflushed.1

/-- A log that was just created flushes nothing before its segment or its count is full. -/
theorem unflushed_run (crc : Checksum) (config : WalConfig) (payloads : List Bytes)
    (few : payloads.length < config.flushEveryN)
    (room : (payloads.map recordSize).sum ≤ config.segmentSize)
    (short : payloads.length + 1 < 2 ^ 64) :
    ∃ log, Trace DurableLog.Step .empty
      (run (WalState.step crc) .initial (.open config :: payloads.map WalInput.append)).2 log ∧
      log.flushed = 0 := by
  obtain ⟨log, trace⟩ := crash_run crc (.open config :: payloads.map WalInput.append)
    (by simpa using short)
  refine ⟨log, trace, flushed_of_trace trace ?_ rfl⟩
  have opens : WalState.step crc .initial (.open config) = (⟨[⟨segmentFilename 0, []⟩],
      some { config, writer := [], currentSegmentPath := segmentFilename 0
             currentSegmentFirstSeq := 0, currentSegmentBytes := 0, nextSequence := 0
             recordsSinceFlush := 0 }⟩, _) := rfl
  rw [run, opens, List.mem_append, not_or]
  exact ⟨by simp, appends_unflushed (by simpa using few) (by simpa using room)⟩

end Invariant
end Exg.Wal
