import Exg.Wal.Segment

/-!
# The log writer

`recoverState` scans the segments for the next sequence number and a torn tail;
`WalWriter.open` cuts the tail off and goes on in the last segment, or in a new one when
that is full.  A segment file holds what is flushed; what the writer was given since is in
its buffer, so that a crash can leave any part of it.  File operations do not fail.
-/

namespace Exg.Wal

open Support

/-- Configuration for the WAL. -/
structure WalConfig where
  /-- Maximum segment file size in bytes. -/
  segmentSize : Nat
  /-- Flush after every so many appended records. -/
  flushEveryN : Nat
  deriving DecidableEq, Repr

inductive WalError where
  | corrupt (sequence : Nat) (reason : String)
  | sequenceGap (expected found : Nat)
  | payloadTooLarge (size : Nat)
  deriving DecidableEq, Repr

structure WalWriter where
  config : WalConfig
  /-- Bytes written to the current segment and not flushed yet. -/
  writer : Bytes
  currentSegmentPath : String
  /-- First sequence number in the current segment. -/
  currentSegmentFirstSeq : Nat
  /-- Bytes written to the current segment. -/
  currentSegmentBytes : Nat
  /-- Next sequence number to assign. -/
  nextSequence : Nat
  recordsSinceFlush : Nat
  deriving DecidableEq, Repr

/-! ## File operations -/

/-- Change the bytes of the file under a path. -/
def SegmentFile.modify (path : String) (change : Bytes → Bytes) (file : SegmentFile) :
    SegmentFile :=
  if file.name = path then { file with bytes := change file.bytes } else file

namespace Directory

/-- Open for appending; a missing file is created empty. -/
def create (directory : Directory) (path : String) : Directory :=
  if path ∈ directory.map (·.name) then directory else directory ++ [⟨path, []⟩]

def setLen (directory : Directory) (path : String) (size : Nat) : Directory :=
  directory.map (SegmentFile.modify path (·.take size))

def writeAll (directory : Directory) (path : String) (bytes : Bytes) : Directory :=
  directory.map (SegmentFile.modify path (· ++ bytes))

end Directory

section Writer

variable (crc : Checksum)

/-! ## Recovery -/

/-- Scan one segment: the next sequence number, and where to truncate. -/
def scanSegment (file : SegmentFile) (isLastSegment : Bool) (offset nextSequence : Nat) :
    Except WalError (Nat × Option Nat) :=
  if offset ≥ file.bytes.length then
    .ok (nextSequence, none)
  else
    match decoded : decodeRecord crc file.bytes offset with
    | .ok (seq, _, consumed) =>
        if seq ≠ nextSequence then
          .error (.sequenceGap nextSequence seq)
        else
          scanSegment file isLastSegment (offset + consumed) (seq + 1)
    | .error .incomplete =>
        if isLastSegment then
          -- A torn tail: the append died before a durable commit.
          .ok (nextSequence, some offset)
        else
          .error (.corrupt nextSequence
            ("incomplete record in non-trailing segment " ++ file.name))
    | .error (.crcMismatch sequence) =>
        .error (.corrupt sequence
          ("CRC mismatch in segment " ++ file.name ++ " (confirmed data loss)"))
termination_by file.bytes.length - offset
decreasing_by
  have advanced := decodeRecord_consumed crc decoded
  omega

/-- Scan the segments from a sequence number on. -/
def recoverFrom (nextSequence : Nat) :
    List (Nat × SegmentFile) → Except WalError (Nat × Option (String × Nat))
  | [] => .ok (nextSequence, none)
  | (_, file) :: rest =>
      match scanSegment crc file rest.isEmpty 0 nextSequence with
      | .error error => .error error
      | .ok (next, some offset) => .ok (next, some (file.name, offset))
      | .ok (next, none) => recoverFrom next rest

/-- Scan all segments to find the next valid sequence and detect partial writes. -/
def recoverState (segments : List (Nat × SegmentFile)) :
    Except WalError (Nat × Option (String × Nat)) :=
  recoverFrom crc 0 segments

/-- The current segment's length after truncation. -/
def lengthAfter (truncateInfo : Option (String × Nat)) (file : SegmentFile) : Nat :=
  match truncateInfo with
  | some (truncatePath, validSize) =>
      if truncatePath = file.name then validSize else file.bytes.length
  | none => file.bytes.length

def truncateTail (directory : Directory) : Option (String × Nat) → Directory
  | some (path, validSize) => directory.setLen path validSize
  | none => directory

/-- The segment to go on in: its first sequence number, its path and its length. -/
def chooseSegment (config : WalConfig) (segments : List (Nat × SegmentFile)) (nextSequence : Nat)
    (truncateInfo : Option (String × Nat)) : Nat × String × Nat :=
  match segments.getLast? with
  | some (firstSeq, file) =>
      let fileLen := lengthAfter truncateInfo file
      if fileLen ≥ config.segmentSize then
        (nextSequence, segmentFilename nextSequence, 0)
      else
        (firstSeq, file.name, fileLen)
  | none => (0, segmentFilename 0, 0)

def WalWriter.open (config : WalConfig) (directory : Directory) :
    Except WalError (Directory × WalWriter) :=
  let segments := listSegments directory
  match recoverState crc segments with
  | .error error => .error error
  | .ok (nextSequence, truncateInfo) =>
      let (segmentFirstSeq, segmentPath, segmentBytes) :=
        chooseSegment config segments nextSequence truncateInfo
      .ok ((truncateTail directory truncateInfo).create segmentPath,
        { config
          writer := []
          currentSegmentPath := segmentPath
          currentSegmentFirstSeq := segmentFirstSeq
          currentSegmentBytes := segmentBytes
          nextSequence
          recordsSinceFlush := 0 })

/-! ## Appending -/

namespace WalWriter

/-- Flush buffered writes to disk. -/
def flush (writer : WalWriter) (directory : Directory) : Directory × WalWriter :=
  (directory.writeAll writer.currentSegmentPath writer.writer,
    { writer with writer := [], recordsSinceFlush := 0 })

/-- Rotate to a new segment file. -/
def rotateSegment (writer : WalWriter) (directory : Directory) : Directory × WalWriter :=
  let newPath := segmentFilename writer.nextSequence
  (directory.create newPath,
    { writer with
      writer := []
      currentSegmentPath := newPath
      currentSegmentFirstSeq := writer.nextSequence
      currentSegmentBytes := 0 })

def mustRotate (writer : WalWriter) (payload : Bytes) : Bool :=
  writer.currentSegmentBytes > 0 ∧
    writer.currentSegmentBytes + (recordOverhead + payload.length) > writer.config.segmentSize

/-- Rotate the segment if the record does not fit. -/
def makeRoom (writer : WalWriter) (directory : Directory) (payload : Bytes) :
    Directory × WalWriter :=
  if writer.mustRotate payload then
    let (flushed, idle) := writer.flush directory
    idle.rotateSegment flushed
  else
    (directory, writer)

def writeRecord (writer : WalWriter) (payload : Bytes) : WalWriter :=
  { writer with
    writer := writer.writer ++ encodeRecord crc writer.nextSequence payload
    currentSegmentBytes := writer.currentSegmentBytes + (recordOverhead + payload.length)
    nextSequence := writer.nextSequence + 1
    recordsSinceFlush := writer.recordsSinceFlush + 1 }

def mustFlush (writer : WalWriter) : Bool :=
  writer.recordsSinceFlush ≥ writer.config.flushEveryN

/-- Auto-flush. -/
def autoFlush (writer : WalWriter) (directory : Directory) : Directory × WalWriter :=
  if writer.mustFlush then writer.flush directory else (directory, writer)

/-- Append a record.  Returns the assigned sequence number. -/
def append (writer : WalWriter) (directory : Directory) (payload : Bytes) :
    Except WalError (Nat × Directory × WalWriter) :=
  if payload.length > maxPayloadSize then
    .error (.payloadTooLarge payload.length)
  else
    let (roomy, current) := writer.makeRoom directory payload
    .ok (current.nextSequence, (current.writeRecord crc payload).autoFlush roomy)

end WalWriter
end Writer
end Exg.Wal
