import Exg.Wal.Writer

/-!
# The log reader

`readFrom` hands the records to a callback that can stop it.  An incomplete record ends its
segment only: the reader goes on with the next one, where the writer's recovery stops.
-/

namespace Exg.Wal

section Reader

variable {σ : Type} (crc : Checksum) (callback : σ → Nat → Bytes → σ × Bool)
  (startSequence : Nat)

/-- What a reader has done so far: the callback's state and the number of records read. -/
structure Progress (σ : Type) where
  state : σ
  recordsRead : Nat
  deriving DecidableEq, Repr

/-- Read one segment; false when the callback stops. -/
def readSegment (data : Bytes) (offset : Nat) (progress : Progress σ) :
    Progress σ × Except WalError Bool :=
  if offset ≥ data.length then
    (progress, .ok true)
  else
    match _decoded : decodeRecord crc data offset with
    | .ok (seq, payload, consumed) =>
        if seq < startSequence then
          readSegment data (offset + consumed) progress
        else
          let (state, continues) := callback progress.state seq payload
          let next := { state, recordsRead := progress.recordsRead + 1 }
          if continues then readSegment data (offset + consumed) next else (next, .ok false)
    | .error .incomplete => (progress, .ok true)
    | .error (.crcMismatch sequence) => (progress, .error (.corrupt sequence "CRC mismatch"))
termination_by data.length - offset
decreasing_by
  · have advanced := decodeRecord_consumed crc _decoded
    omega
  · have advanced := decodeRecord_consumed crc _decoded
    omega

def readSegments (progress : Progress σ) :
    List (Nat × SegmentFile) → Progress σ × Except WalError Nat
  | [] => (progress, .ok progress.recordsRead)
  | (_, file) :: rest =>
      match readSegment crc callback startSequence file.bytes 0 progress with
      | (next, .ok true) => readSegments next rest
      | (next, .ok false) => (next, .ok next.recordsRead)
      | (next, .error error) => (next, .error error)

/-- The segment with the largest first sequence number up to the start, else the first. -/
def startIndex (segments : List (Nat × SegmentFile)) : Nat :=
  segments.countP (fun segment => segment.1 ≤ startSequence) - 1

/-- Read records starting from `startSequence`.  Returns the number of records read. -/
def readFrom (directory : Directory) (state : σ) : Progress σ × Except WalError Nat :=
  let segments := listSegments directory
  readSegments crc callback startSequence ⟨state, 0⟩
    (segments.drop (startIndex startSequence segments))

end Reader

/-- The callback that keeps every record. -/
def collect (records : List (Nat × Bytes)) (sequence : Nat) (payload : Bytes) :
    List (Nat × Bytes) × Bool :=
  (records ++ [(sequence, payload)], true)

/-! ## Replay at boot -/

inductive ReplayError where
  | sequenceGap (expected got : Nat)
  | decode (seq : Nat) (message : String)
  | apply (seq : Nat) (message : String)
  deriving DecidableEq, Repr

/-- The state that the replay at boot builds up. -/
structure BootReplay (σ : Type) where
  restored : σ
  expectedSeq : Nat
  replayedCount : Nat
  replayErr : Option ReplayError
  deriving DecidableEq, Repr

namespace BootReplay

variable {σ ε : Type} (fromBytes : Bytes → Except String ε) (applyEvent : σ → ε → Except String σ)

def initial (restored : σ) : BootReplay σ :=
  { restored, expectedSeq := 0, replayedCount := 0, replayErr := none }

/-- The callback of the replay, for given decoding and application of an event. -/
def record (boot : BootReplay σ) (seq : Nat) (payload : Bytes) : BootReplay σ × Bool :=
  if seq ≠ boot.expectedSeq then
    ({ boot with replayErr := some (.sequenceGap boot.expectedSeq seq) }, false)
  else
    match fromBytes payload with
    | .error message => ({ boot with replayErr := some (.decode seq message) }, false)
    | .ok event =>
        match applyEvent boot.restored event with
        | .error message => ({ boot with replayErr := some (.apply seq message) }, false)
        | .ok restored =>
            ({ boot with
                restored
                expectedSeq := seq + 1
                replayedCount := boot.replayedCount + 1 }, true)

end BootReplay
end Exg.Wal
