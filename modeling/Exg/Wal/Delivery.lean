import Exg.Wal.Reader
import Exg.Wal.Recovery

/-!
# Delivery

Reading recoverable segments from the start hands the callback their records in order, one
by one, until it stops.  A torn tail changes nothing.
-/

namespace Exg.Wal

open Support

/-- Payloads with their sequence numbers. -/
def numbered (first : Nat) : List Bytes → List (Nat × Bytes)
  | [] => []
  | payload :: rest => (first, payload) :: numbered (first + 1) rest

theorem numbered_append (first : Nat) (before after : List Bytes) :
    numbered first (before ++ after) =
      numbered first before ++ numbered (first + before.length) after := by
  induction before generalizing first with
  | nil => rfl
  | cons payload rest inductionHypothesis =>
      rw [List.cons_append, numbered, numbered, inductionHypothesis, List.length_cons,
        List.cons_append, Nat.add_assoc, Nat.add_comm 1]

theorem map_fst_numbered (first : Nat) (payloads : List Bytes) :
    (numbered first payloads).map Prod.fst = List.range' first payloads.length := by
  induction payloads generalizing first with
  | nil => rfl
  | cons payload rest inductionHypothesis =>
      rw [numbered, List.map_cons, inductionHypothesis, List.length_cons, List.range'_succ]

theorem map_snd_numbered (first : Nat) (payloads : List Bytes) :
    (numbered first payloads).map Prod.snd = payloads := by
  induction payloads generalizing first with
  | nil => rfl
  | cons payload rest inductionHypothesis => rw [numbered, List.map_cons, inductionHypothesis]

theorem mem_numbered {first number : Nat} {payload : Bytes} {payloads : List Bytes} :
    (number, payload) ∈ numbered first payloads ↔
      ∃ index, number = first + index ∧ payloads[index]? = some payload := by
  induction payloads generalizing first with
  | nil => simp [numbered]
  | cons head others inductionHypothesis =>
      rw [numbered, List.mem_cons, inductionHypothesis]
      constructor
      · rintro (same | ⟨index, rfl, found⟩)
        · cases same
          exact ⟨0, rfl, rfl⟩
        · exact ⟨index + 1, by omega, found⟩
      · rintro ⟨index, rfl, found⟩
        cases index with
        | zero =>
            left
            rw [List.getElem?_cons_zero] at found
            rw [Option.some.inj found, Nat.add_zero]
        | succ index =>
            right
            rw [List.getElem?_cons_succ] at found
            exact ⟨index, by omega, found⟩

section Delivery

variable {σ : Type} {crc : Checksum}

/-- Hand records to a callback until it stops; false when it does. -/
def deliver (callback : σ → Nat → Bytes → σ × Bool) (progress : Progress σ) :
    List (Nat × Bytes) → Progress σ × Bool
  | [] => (progress, true)
  | (sequence, payload) :: rest =>
      let outcome := callback progress.state sequence payload
      let next := { state := outcome.1, recordsRead := progress.recordsRead + 1 }
      if outcome.2 then deliver callback next rest else (next, false)

variable {callback : σ → Nat → Bytes → σ × Bool}

private theorem deliver_append (progress : Progress σ) (before after : List (Nat × Bytes)) :
    deliver callback progress (before ++ after) =
      if (deliver callback progress before).2 then
        deliver callback (deliver callback progress before).1 after
      else deliver callback progress before := by
  induction before generalizing progress with
  | nil => rfl
  | cons record rest inductionHypothesis =>
      obtain ⟨sequence, payload⟩ := record
      rw [List.cons_append, deliver, deliver]
      cases (callback progress.state sequence payload).2 with
      | true =>
          simp only [if_true]
          exact inductionHypothesis _
      | false => simp

theorem deliver_collect (progress : Progress (List (Nat × Bytes))) (records : List (Nat × Bytes)) :
    deliver collect progress records =
      ({ state := progress.state ++ records
         recordsRead := progress.recordsRead + records.length }, true) := by
  induction records generalizing progress with
  | nil => simp [deliver]
  | cons record rest inductionHypothesis =>
      rw [deliver]
      simp only [collect, if_true, inductionHypothesis, List.append_assoc, List.singleton_append,
        List.length_cons]
      rw [Nat.add_assoc, Nat.add_comm 1]

/-- The records that a reader does not skip. -/
def recordsFrom (startSequence : Nat) (records : List (Nat × Bytes)) : List (Nat × Bytes) :=
  records.filter fun record => startSequence ≤ record.1

@[simp]
theorem recordsFrom_zero (records : List (Nat × Bytes)) : recordsFrom 0 records = records :=
  List.filter_eq_self.2 fun record _ => decide_eq_true (Nat.zero_le record.1)

theorem recordsFrom_append (startSequence : Nat) (before after : List (Nat × Bytes)) :
    recordsFrom startSequence (before ++ after) =
      recordsFrom startSequence before ++ recordsFrom startSequence after :=
  List.filter_append before after

/-! ## One segment -/

variable {data : Bytes} {offset startSequence : Nat} {progress : Progress σ}

private theorem readSegment_past (past : offset ≥ data.length) :
    readSegment crc callback startSequence data offset progress = (progress, .ok true) := by
  rw [readSegment.eq_def, if_pos past]

/-- A read goes by what the next record decodes to. -/
theorem readSegment_eq (inside : ¬offset ≥ data.length) :
    readSegment crc callback startSequence data offset progress =
      match decodeRecord crc data offset with
      | .ok (seq, payload, consumed) =>
          if seq < startSequence then
            readSegment crc callback startSequence data (offset + consumed) progress
          else
            let next : Progress σ :=
              { state := (callback progress.state seq payload).1
                recordsRead := progress.recordsRead + 1 }
            if (callback progress.state seq payload).2 then
              readSegment crc callback startSequence data (offset + consumed) next
            else (next, .ok false)
      | .error .incomplete => (progress, .ok true)
      | .error (.crcMismatch sequence) =>
          (progress, .error (.corrupt sequence "CRC mismatch")) := by
  rw [readSegment.eq_def, if_neg inside]
  split <;> rename_i decoded <;> rw [decoded]

private theorem readSegment_incomplete
    (decoded : decodeRecord crc data offset = .error .incomplete) :
    readSegment crc callback startSequence data offset progress = (progress, .ok true) := by
  by_cases past : offset ≥ data.length
  · exact readSegment_past past
  · rw [readSegment_eq past, decoded]

private theorem readSegment_record {seq consumed : Nat} {payload : Bytes}
    (inside : ¬offset ≥ data.length)
    (decoded : decodeRecord crc data offset = .ok (seq, payload, consumed)) :
    readSegment crc callback startSequence data offset progress =
      if seq < startSequence then
        readSegment crc callback startSequence data (offset + consumed) progress
      else
        let next : Progress σ :=
          { state := (callback progress.state seq payload).1
            recordsRead := progress.recordsRead + 1 }
        if (callback progress.state seq payload).2 then
          readSegment crc callback startSequence data (offset + consumed) next
        else (next, .ok false) := by
  rw [readSegment_eq inside, decoded]

private theorem readSegment_frames {first : Nat} {payloads : List Bytes} {tail : Bytes}
    (before : Bytes) (fit : FramesFit first payloads)
    (layout : data = before ++ (frames crc first payloads ++ tail)) (torn : TornTail crc tail) :
    readSegment crc callback startSequence data before.length progress =
      ((deliver callback progress (recordsFrom startSequence (numbered first payloads))).1,
        .ok (deliver callback progress
          (recordsFrom startSequence (numbered first payloads))).2) := by
  induction payloads generalizing first before progress with
  | nil =>
      apply readSegment_incomplete
      rw [decodeRecord_drop, layout, List.drop_left]
      exact torn
  | cons payload rest inductionHypothesis =>
      rw [frames, List.append_assoc] at layout
      have decoded : decodeRecord crc data before.length =
          .ok (first, payload, recordOverhead + payload.length) := by
        rw [decodeRecord_drop, layout, List.drop_left]
        exact decodeRecord_encodeRecord fit.head _
      have inside : ¬before.length ≥ data.length := by
        rw [layout, List.length_append, List.length_append, length_encodeRecord, recordOverhead,
          headerSize, trailerSize]
        omega
      have later : ∀ next : Progress σ,
          readSegment crc callback startSequence data
            (before ++ encodeRecord crc first payload).length next = _ := fun next =>
        inductionHypothesis (before ++ encodeRecord crc first payload) fit.tail
          (by rw [layout, List.append_assoc])
      simp only [List.length_append, length_encodeRecord] at later
      rw [readSegment_record inside decoded, numbered, recordsFrom]
      by_cases early : first < startSequence
      · rw [if_pos early, List.filter_cons_of_neg (by simpa using early)]
        exact later progress
      · rw [if_neg early, List.filter_cons_of_pos (by simpa using early), deliver]
        cases (callback progress.state first payload).2 with
        | true =>
            simp only [if_true]
            exact later _
        | false => simp

/-! ## All segments -/

theorem readSegments_from {first : Nat} {segments : List (Nat × SegmentFile)}
    {payloads : List Bytes} {tail : Bytes}
    (recoverable : Recoverable crc first segments payloads tail) :
    readSegments crc callback startSequence progress segments =
      ((deliver callback progress (recordsFrom startSequence (numbered first payloads))).1,
        .ok (deliver callback progress
          (recordsFrom startSequence (numbered first payloads))).1.recordsRead) := by
  induction recoverable generalizing progress with
  | none => rfl
  | @last first key file payloads tail fit layout torn =>
      have read : readSegment crc callback startSequence file.bytes 0 progress = _ :=
        readSegment_frames [] fit layout torn
      rw [readSegments, read]
      cases (deliver callback progress (recordsFrom startSequence (numbered first payloads))).2
        <;> rfl
  | @more first key file payloads later tail rest _ fit layout others inductionHypothesis =>
      have whole : file.bytes = [] ++ (frames crc first payloads ++ []) := by
        rw [List.append_nil, layout, List.nil_append]
      have read : readSegment crc callback startSequence file.bytes 0 progress = _ :=
        readSegment_frames [] fit whole TornTail.nil
      rw [readSegments, read, numbered_append, recordsFrom_append, deliver_append]
      cases (deliver callback progress (recordsFrom startSequence (numbered first payloads))).2 with
      | true => exact inductionHypothesis
      | false => rfl

theorem readSegments_recoverable {first : Nat} {segments : List (Nat × SegmentFile)}
    {payloads : List Bytes} {tail : Bytes}
    (recoverable : Recoverable crc first segments payloads tail) :
    readSegments crc callback 0 progress segments =
      ((deliver callback progress (numbered first payloads)).1,
        .ok (deliver callback progress (numbered first payloads)).1.recordsRead) := by
  rw [readSegments_from recoverable, recordsFrom_zero]

/-- Empty segments are skipped. -/
theorem readSegments_filter (segments : List (Nat × SegmentFile)) :
    readSegments crc callback 0 progress (segments.filter fun segment => segment.2.bytes ≠ []) =
      readSegments crc callback 0 progress segments := by
  induction segments generalizing progress with
  | nil => rfl
  | cons segment rest inductionHypothesis =>
      obtain ⟨key, file⟩ := segment
      by_cases empty : file.bytes = []
      · have skipped : readSegment crc callback 0 file.bytes 0 progress = (progress, .ok true) := by
          apply readSegment_past
          rw [empty]
          exact Nat.le_refl 0
        rw [List.filter_cons_of_neg (by simpa using empty), readSegments, skipped]
        exact inductionHypothesis
      · rw [List.filter_cons_of_pos (by simpa using empty), readSegments, readSegments]
        split
        · exact inductionHypothesis
        · rfl
        · rfl

end Delivery
end Exg.Wal
