import Exg.Wal.Durability

/-!
# A changed byte

Recovery is meant to truncate a torn tail only, and to fail on damage.  The checksum exposes a
changed byte everywhere but in a length field: a length that runs past the end of the last
segment makes the records from there on look like a torn tail, and one that happens to frame
a record with a right checksum replaces the old one.  `Unnoticed` is exactly when.
-/

namespace Exg.Wal

open Support

section Corruption

variable (crc : Checksum)

/-- Opening a changed log fails, or every flushed record is still delivered. -/
def KeepsFlushed (config : WalConfig) (flushed changed : Directory) : Prop :=
  ∀ opened writer, WalWriter.open crc config changed = .ok (opened, writer) →
    ∀ record ∈ (readFrom crc collect 0 flushed []).1.state,
      record ∈ (readFrom crc collect 0 opened []).1.state

/-- The bytes from a record's start to the end of its segment, when they are too short for
their length field in the last segment, or begin with an encoded record of the same number
and go on with a recoverable log. -/
inductive Reframes (number key : Nat) (name : String) (later : List (Nat × SegmentFile))
    (behind : Bytes) : Prop where
  | torn (last : later = [])
      (short : behind.length < recordOverhead + leValue (slice behind 8 4))
  | framed {other rest : Bytes} {payloads : List Bytes} {tail : Bytes}
      (fits : RecordFits number other) (bytes : behind = encodeRecord crc number other ++ rest)
      (continues : Recoverable crc (number + 1) ((key, ⟨name, rest⟩) :: later) payloads tail)

/-- A new byte behind `prior` is one of a record's length field, and recovery takes it. -/
inductive Unnoticed (key : Nat) (file : SegmentFile) (later : List (Nat × SegmentFile))
    (prior : Bytes) (new : UInt8) (rest : Bytes) : Prop where
  | lengthField {first : Nat} {kept lost : List Bytes} {payload : Bytes}
      (fit : FramesFit first (kept ++ payload :: lost))
      (content : file.bytes = frames crc first (kept ++ payload :: lost))
      (above : (frames crc first kept).length + 8 ≤ prior.length)
      (below : prior.length < (frames crc first kept).length + 12)
      (reframes : Reframes crc (first + kept.length) key file.name later
        ((prior ++ new :: rest).drop (frames crc first kept).length))

variable {crc} {first key : Nat} {file : SegmentFile} {later front : List (Nat × SegmentFile)}
  {payloads : List Bytes} {tail prior rest : Bytes} {old new : UInt8}

/-! ## The record of a byte -/

private theorem split_byte {left right : Bytes} (content : left ++ right = prior ++ old :: rest) :
    (∃ after, left = prior ++ old :: after ∧ rest = after ++ right) ∨
      ∃ inner, right = inner ++ old :: rest ∧ prior = left ++ inner := by
  obtain ⟨middle, isPrior, isRight⟩ | ⟨middle, isLeft, isRest⟩ :=
    List.append_eq_append_iff.1 content
  · exact Or.inr ⟨middle, isRight, isPrior⟩
  · cases middle with
    | nil =>
        rw [List.append_nil] at isLeft
        exact Or.inr ⟨[], isRest.symm, by rw [isLeft, List.append_nil]⟩
    | cons byte after =>
        rw [List.cons_append] at isRest
        cases isRest
        exact Or.inl ⟨after, isLeft, rfl⟩

/-- Every byte of whole records is in one of them. -/
theorem locate_byte (content : frames crc first payloads = prior ++ old :: rest) :
    ∃ kept payload lost inner after, payloads = kept ++ payload :: lost ∧
      encodeRecord crc (first + kept.length) payload = inner ++ old :: after ∧
      prior = frames crc first kept ++ inner ∧
      rest = after ++ frames crc (first + kept.length + 1) lost := by
  induction payloads generalizing first prior with
  | nil =>
      rw [frames_nil] at content
      simp at content
  | cons payload others inductionHypothesis =>
      rw [frames] at content
      obtain ⟨after, record, isRest⟩ | ⟨inner, isRight, isPrior⟩ := split_byte content
      · exact ⟨[], payload, others, prior, after, rfl, record, rfl, isRest⟩
      · obtain ⟨kept, hit, lost, inside, after, isPayloads, record, isInner, isRest⟩ :=
          inductionHypothesis isRight
        have number : first + 1 + kept.length = first + (payload :: kept).length := by
          rw [List.length_cons, Nat.add_assoc, Nat.add_comm 1]
        rw [number] at record isRest
        refine ⟨payload :: kept, hit, lost, inside, after, ?_, record, ?_, isRest⟩
        · rw [isPayloads, List.cons_append]
        · rw [isPrior, isInner, frames, List.append_assoc]

/-! ## The checksum -/

section Decoding

variable {number : Nat} {payload inner left : Bytes}

private theorem decodeRecord_sequenceChanged (detects : DetectsByteChange crc)
    (fits : RecordFits number payload) (changes : old ≠ new)
    (field : leBytes 8 number = inner ++ old :: left) (behind : Bytes) :
    decodeRecord crc ((inner ++ new :: left) ++ (leBytes 4 payload.length ++
        (payload ++ (leBytes 4 (computeCrc crc number payload).toNat ++ behind)))) 0 =
      .error (.crcMismatch (leValue (inner ++ new :: left))) := by
  have width : (inner ++ new :: left).length = 8 := length_changed field
  have whole := leBytes_leValue (inner ++ new :: left)
  rw [width] at whole
  have differs : (computeCrc crc number payload).toNat ≠
      (computeCrc crc (leValue (inner ++ new :: left)) payload).toNat := by
    intro same
    have equal := UInt32.toNat_inj.1 same
    rw [computeCrc, computeCrc, whole, field, List.append_assoc, List.append_assoc] at equal
    exact detects _ _ _ _ changes equal
  rw [decodeRecord_fields crc _ _ _ _ _ width (length_leBytes 4 _) fits.lengthField
    (length_leBytes 4 _), checksumField, if_pos differs]

private theorem decodeRecord_payloadChanged (detects : DetectsByteChange crc)
    (changes : old ≠ new) (fits : RecordFits number (inner ++ old :: left)) (behind : Bytes) :
    decodeRecord crc (leBytes 8 number ++ (leBytes 4 (inner ++ old :: left).length ++
        ((inner ++ new :: left) ++
          (leBytes 4 (computeCrc crc number (inner ++ old :: left)).toNat ++ behind)))) 0 =
      .error (.crcMismatch number) := by
  have length : (inner ++ old :: left).length = (inner ++ new :: left).length := by
    rw [List.length_append, List.length_append]
    rfl
  have differs : (computeCrc crc number (inner ++ old :: left)).toNat ≠
      (computeCrc crc number (inner ++ new :: left)).toNat := by
    intro same
    have equal := UInt32.toNat_inj.1 same
    rw [computeCrc, computeCrc, length, ← List.append_assoc, ← List.append_assoc,
      ← List.append_assoc, ← List.append_assoc] at equal
    exact detects _ _ _ _ changes equal
  rw [decodeRecord_fields crc _ _ _ _ _ (length_leBytes 8 _) (length_leBytes 4 _)
    (fits.lengthField.trans length) (length_leBytes 4 _), fits.sequenceField, checksumField,
    if_pos differs]

private theorem decodeRecord_checksumChanged (fits : RecordFits number payload)
    (changes : old ≠ new)
    (field : leBytes 4 (computeCrc crc number payload).toNat = inner ++ old :: left)
    (behind : Bytes) :
    decodeRecord crc (leBytes 8 number ++ (leBytes 4 payload.length ++
        (payload ++ ((inner ++ new :: left) ++ behind)))) 0 = .error (.crcMismatch number) := by
  have differs := leValue_changed field (computeCrc crc number payload).toNat_lt changes
  rw [decodeRecord_fields crc _ _ _ _ _ (length_leBytes 8 _) (length_leBytes 4 _)
    fits.lengthField (length_changed field), fits.sequenceField, if_pos differs]

/-- A change outside of the length field leaves no record that decodes. -/
theorem decodeRecord_changed {after : Bytes} (detects : DetectsByteChange crc)
    (fits : RecordFits number payload) (changes : old ≠ new)
    (record : encodeRecord crc number payload = inner ++ old :: after)
    (outside : inner.length < 8 ∨ 12 ≤ inner.length) (behind : Bytes) :
    ∃ sequence, decodeRecord crc (inner ++ new :: (after ++ behind)) 0 =
      .error (.crcMismatch sequence) := by
  rw [encodeRecord] at record
  obtain ⟨left, isNumber, isAfter⟩ | ⟨beyond, isRight, isInner⟩ := split_byte record
  · have mismatch := decodeRecord_sequenceChanged detects fits changes isNumber behind
    simp only [List.append_assoc, List.cons_append] at mismatch
    rw [isAfter]
    simp only [List.append_assoc]
    exact ⟨_, mismatch⟩
  · subst isInner
    rw [List.length_append, length_leBytes] at outside
    obtain ⟨left, isSize, -⟩ | ⟨inside, isBody, isBeyond⟩ := split_byte isRight
    · have width := congrArg List.length isSize
      rw [length_leBytes, List.length_append, List.length_cons] at width
      omega
    · subst isBeyond
      obtain ⟨left, isPayload, isAfter⟩ | ⟨early, isCheck, isInside⟩ := split_byte isBody
      · subst isPayload
        have mismatch := decodeRecord_payloadChanged detects changes fits behind
        simp only [List.append_assoc, List.cons_append] at mismatch
        rw [isAfter]
        simp only [List.append_assoc]
        exact ⟨number, mismatch⟩
      · subst isInside
        have mismatch := decodeRecord_checksumChanged fits changes isCheck behind
        simp only [List.append_assoc, List.cons_append] at mismatch
        simp only [List.append_assoc]
        exact ⟨number, mismatch⟩

end Decoding

/-! ## Segments in front of the change -/

/-- Recovery comes to a segment in one way only. -/
theorem Recoverable.split
    (recoverable : Recoverable crc first (front ++ (key, file) :: later) payloads tail) :
    ∃ early late, payloads = early ++ late ∧
      Recoverable crc (first + early.length) ((key, file) :: later) late tail ∧
      ∀ changed found torn,
        Recoverable crc first (front ++ (key, changed) :: later) found torn ↔
          ∃ others, found = early ++ others ∧
            Recoverable crc (first + early.length) ((key, changed) :: later) others torn := by
  induction front generalizing first payloads with
  | nil =>
      refine ⟨[], payloads, rfl, recoverable, fun changed found torn => ?_⟩
      simp
  | cons segment others inductionHypothesis =>
      have nonempty : ∀ changed, others ++ (key, changed) :: later ≠ [] := fun changed =>
        List.append_ne_nil_of_right_ne_nil others (List.cons_ne_nil _ later)
      rw [List.cons_append, Recoverable.cons_iff (nonempty file)] at recoverable
      obtain ⟨own, behind, rfl, fit, layout, rest⟩ := recoverable
      obtain ⟨early, late, rfl, here, transfers⟩ := inductionHypothesis rest
      have count : first + own.length + early.length = first + (own ++ early).length := by
        rw [List.length_append, Nat.add_assoc]
      rw [count] at here
      refine ⟨own ++ early, late, (List.append_assoc _ _ _).symm, here,
        fun changed found torn => ?_⟩
      rw [List.cons_append, Recoverable.cons_iff (nonempty changed)]
      constructor
      · rintro ⟨same, behind, rfl, fit', layout', changedRest⟩
        have equal : own = same := frames_injective fit fit' (layout.symm.trans layout')
        subst equal
        obtain ⟨found, rfl, changedHere⟩ := (transfers changed behind torn).1 changedRest
        rw [count] at changedHere
        exact ⟨found, (List.append_assoc _ _ _).symm, changedHere⟩
      · rintro ⟨found, rfl, changedHere⟩
        rw [← count] at changedHere
        exact ⟨own, early ++ found, List.append_assoc _ _ _, fit, layout,
          (transfers changed _ torn).2 ⟨found, rfl, changedHere⟩⟩

/-- The records of a segment without a torn tail. -/
theorem Recoverable.own (recoverable : Recoverable crc first ((key, file) :: later) payloads []) :
    ∃ own others, payloads = own ++ others ∧ FramesFit first own ∧
      file.bytes = frames crc first own := by
  cases recoverable with
  | last fit layout _ =>
      rw [List.append_nil] at layout
      exact ⟨payloads, [], (List.append_nil _).symm, fit, layout⟩
  | @more _ _ _ own others _ _ _ fit layout _ => exact ⟨own, others, rfl, fit, layout⟩

/-! ## Bytes that recovery takes -/

variable {kept : List Bytes} {behind : Bytes}

/-- A segment that recovery takes begins anew at any of its records. -/
theorem Recoverable.reframes
    (recoverable : Recoverable crc first ((key, file) :: later) payloads tail)
    (fit : FramesFit first kept) (content : file.bytes = frames crc first kept ++ behind)
    (some : behind ≠ []) : Reframes crc (first + kept.length) key file.name later behind := by
  cases recoverable with
  | last fit' layout torn =>
      obtain ⟨others, split, bytes⟩ := frames_cancel fit fit' torn (content.symm.trans layout)
      subst split
      cases others with
      | nil =>
          rw [frames_nil, List.nil_append] at bytes
          rw [← bytes] at torn
          exact .torn rfl ((decodeRecord_incomplete_iff crc behind).1 torn)
      | cons other more =>
          have late := (FramesFit.append_iff.1 fit').2
          rw [frames, List.append_assoc] at bytes
          exact .framed late.head bytes (.last late.tail rfl torn)
  | @more _ _ _ own found _ _ nonempty fit' layout others =>
      have whole : frames crc first kept ++ behind = frames crc first own ++ [] := by
        rw [← content, layout, List.append_nil]
      obtain ⟨own', split, bytes⟩ := frames_cancel fit fit' TornTail.nil whole
      subst split
      rw [List.append_nil] at bytes
      cases own' with
      | nil => exact absurd bytes some
      | cons other more =>
          have late := (FramesFit.append_iff.1 fit').2
          have count : first + (kept ++ other :: more).length =
              first + kept.length + 1 + more.length := by
            rw [List.length_append, List.length_cons]
            omega
          rw [count] at others
          exact .framed late.head bytes (.more nonempty late.tail rfl others)

/-- What recovery finds in a segment that it takes: another record under the number, if any. -/
theorem Reframes.recoverable (file : SegmentFile)
    (reframes : Reframes crc (first + kept.length) key file.name later behind)
    (fit : FramesFit first kept) (content : file.bytes = frames crc first kept ++ behind) :
    ∃ others tail, Recoverable crc first ((key, file) :: later) (kept ++ others) tail ∧
      ∀ other ∈ others.head?, leValue (slice behind 8 4) = other.length := by
  cases reframes with
  | torn last short =>
      subst last
      refine ⟨[], behind, ?_, fun other member => nomatch member⟩
      rw [List.append_nil]
      exact .last fit content ((decodeRecord_incomplete_iff crc behind).2 short)
  | @framed other rest payloads tail fits bytes continues =>
      refine ⟨other :: payloads, tail, ?_, ?_⟩
      · cases continues with
        | last fit' layout torn =>
            dsimp only at layout
            refine .last (FramesFit.append_iff.2 ⟨fit, .cons fits fit'⟩) ?_ torn
            rw [content, bytes, layout, frames_append, frames, List.append_assoc, List.append_assoc]
        | @more _ _ _ own found _ _ nonempty fit' layout others =>
            dsimp only at layout
            have count : first + kept.length + 1 + own.length =
                first + (kept ++ other :: own).length := by
              rw [List.length_append, List.length_cons]
              omega
            rw [count] at others
            rw [← List.cons_append, ← List.append_assoc]
            refine .more nonempty (FramesFit.append_iff.2 ⟨fit, .cons fits fit'⟩) ?_ others
            rw [content, bytes, layout, frames_append, frames]
      · intro head member
        cases member
        rw [bytes, encodeRecord, List.append_assoc, List.append_assoc, slice,
          List.drop_left' (length_leBytes 8 _), List.take_left' (length_leBytes 4 _),
          leValue_leBytes fits.payload]

/-! ## A changed segment -/

variable {directory : Directory}

/-- A directory with one changed segment. -/
theorem listSegments_changed (distinct : DistinctSegments directory)
    (listed : listSegments directory = front ++ (key, file) :: later) (bytes : Bytes) :
    listSegments (directory.map (SegmentFile.modify file.name fun _ => bytes)) =
      front ++ (key, ⟨file.name, bytes⟩) :: later := by
  have names := distinct.names
  rw [listed, List.map_append, List.map_cons, List.nodup_append] at names
  obtain ⟨-, behind, apart⟩ := names
  have fresh := (List.nodup_cons.1 behind).1
  have untouched : ∀ segments : List (Nat × SegmentFile),
      (∀ segment ∈ segments, segment.2.name ≠ file.name) →
        (segments.map fun segment =>
          (segment.1, segment.2.modify file.name fun _ => bytes)) = segments := by
    intro segments others
    conv_rhs => rw [← List.map_id segments]
    apply List.map_congr_left
    intro segment member
    rw [SegmentFile.modify, if_neg (others segment member)]
    rfl
  rw [listSegments_map_modify, listed, List.map_append, List.map_cons, untouched front,
    untouched later, SegmentFile.modify, if_pos rfl]
  · intro segment member same
    exact fresh (List.mem_map.2 ⟨segment, member, same⟩)
  · intro segment member same
    exact apart _ (List.mem_map_of_mem member) _ List.mem_cons_self same

/-! ## Noticed and unnoticed changes -/

/-- The length field of a record around a changed byte. -/
theorem lengthField_changed {number : Nat} {payload inner : Bytes} {after : Bytes}
    (content : encodeRecord crc number payload ++ after = inner ++ old :: rest)
    (fits : RecordFits number payload) (changes : old ≠ new) (above : 8 ≤ inner.length)
    (below : inner.length < 12) :
    leValue (slice (inner ++ new :: rest) 8 4) ≠ payload.length := by
  rw [encodeRecord, List.append_assoc, List.append_assoc, List.append_assoc] at content
  obtain ⟨left, isNumber, -⟩ | ⟨beyond, isRight, isInner⟩ := split_byte content
  · have width := congrArg List.length isNumber
    rw [length_leBytes, List.length_append, List.length_cons] at width
    omega
  · subst isInner
    rw [List.length_append, length_leBytes] at below
    obtain ⟨left, isSize, isRest⟩ | ⟨inside, -, isBeyond⟩ := split_byte isRight
    · have regroup : beyond ++ new :: rest = (beyond ++ new :: left) ++
          (payload ++ (leBytes 4 (computeCrc crc number payload).toNat ++ after)) := by
        rw [isRest, List.append_assoc, List.cons_append]
      have field : slice (leBytes 8 number ++ beyond ++ new :: rest) 8 4 =
          beyond ++ new :: left := by
        rw [slice, List.append_assoc, List.drop_left' (length_leBytes 8 _), regroup,
          List.take_left' (length_changed isSize)]
      rw [field]
      exact leValue_changed isSize fits.payload changes
    · have width := congrArg List.length isBeyond
      rw [List.length_append, length_leBytes] at width
      omega

/-- A change that recovery takes is one of a length field. -/
theorem unnoticed_of_recoverable (detects : DetectsByteChange crc)
    (whole : Recoverable crc first ((key, file) :: later) payloads [])
    (content : file.bytes = prior ++ old :: rest) (changes : old ≠ new)
    {others : List Bytes}
    (taken : Recoverable crc first ((key, ⟨file.name, prior ++ new :: rest⟩) :: later) others
      tail) : Unnoticed crc key file later prior new rest := by
  obtain ⟨own, -, -, fit, bytes⟩ := whole.own
  obtain ⟨kept, payload, lost, inner, after, rfl, record, rfl, rfl⟩ :=
    locate_byte (bytes.symm.trans content)
  have parts := FramesFit.append_iff.1 fit
  have begins : frames crc first kept ++ inner ++ new ::
      (after ++ frames crc (first + kept.length + 1) lost) = frames crc first kept ++
        (inner ++ new :: (after ++ frames crc (first + kept.length + 1) lost)) :=
    List.append_assoc _ _ _
  have reframes := taken.reframes parts.1 begins (by simp)
  by_cases outside : inner.length < 8 ∨ 12 ≤ inner.length
  · obtain ⟨sequence, mismatch⟩ := decodeRecord_changed detects parts.2.head changes record outside
      (frames crc (first + kept.length + 1) lost)
    cases reframes with
    | torn last short =>
        rw [(decodeRecord_incomplete_iff crc _).2 short] at mismatch
        cases mismatch
    | framed fits same continues =>
        rw [same, decodeRecord_encodeRecord fits] at mismatch
        cases mismatch
  · refine .lengthField fit bytes ?_ ?_ ?_
    · rw [List.length_append]
      omega
    · rw [List.length_append]
      omega
    · rw [begins, List.drop_left]
      exact reframes

/-- An unnoticed change loses a record. -/
theorem lost_of_unnoticed
    (whole : Recoverable crc first ((key, file) :: later) payloads [])
    (content : file.bytes = prior ++ old :: rest) (changes : old ≠ new)
    (unnoticed : Unnoticed crc key file later prior new rest) :
    ∃ (index : Nat) (payload : Bytes) (others : List Bytes) (tail : Bytes),
      payloads[index]? = some payload ∧
      Recoverable crc first ((key, ⟨file.name, prior ++ new :: rest⟩) :: later) others tail ∧
      others[index]? ≠ some payload := by
  obtain ⟨own, found, rfl, fit, bytes⟩ := whole.own
  cases unnoticed with
  | @lengthField number kept lost payload fit' bytes' above below reframes =>
      obtain ⟨rfl, rfl⟩ := frames_inj fit' fit (by simp) (bytes'.symm.trans bytes)
      have parts := FramesFit.append_iff.1 fit
      have layout : frames crc number kept ++
          (encodeRecord crc (number + kept.length) payload ++
            frames crc (number + kept.length + 1) lost) = prior ++ old :: rest := by
        rw [← content, bytes, frames_append, frames]
      obtain ⟨left, isFrames, -⟩ | ⟨inner, isRecord, isPrior⟩ := split_byte layout
      · have width := congrArg List.length isFrames
        rw [List.length_append, List.length_cons] at width
        omega
      · subst isPrior
        have begins : frames crc number kept ++ inner ++ new :: rest =
            frames crc number kept ++ (inner ++ new :: rest) := List.append_assoc _ _ _
        rw [List.length_append] at above below
        rw [begins, List.drop_left] at reframes
        have sized := lengthField_changed isRecord parts.2.head changes (by omega) (by omega)
        obtain ⟨others, tail, taken, head⟩ := 
          reframes.recoverable ⟨file.name, frames crc number kept ++ inner ++ new :: rest⟩ parts.1
            begins
        refine ⟨kept.length, payload, kept ++ others, tail, ?_, taken, ?_⟩
        · rw [List.append_assoc, List.getElem?_append_right (Nat.le_refl _), Nat.sub_self]
          rfl
        · rw [List.getElem?_append_right (Nat.le_refl _), Nat.sub_self, ← List.head?_eq_getElem?]
          exact fun same => sized (head payload same)

variable {directory : Directory}

private theorem keepsFlushed_iff (detects : DetectsByteChange crc) (config : WalConfig)
    (distinct : DistinctSegments directory)
    (recoverable : Recoverable crc 0 (listSegments directory) payloads [])
    (listed : listSegments directory = front ++ (key, file) :: later)
    (content : file.bytes = prior ++ old :: rest) (changes : old ≠ new) :
    KeepsFlushed crc config directory
        (directory.map (SegmentFile.modify file.name fun _ => prior ++ new :: rest)) ↔
      ¬Unnoticed crc key file later prior new rest := by
  have changedListing := listSegments_changed distinct listed (prior ++ new :: rest)
  have changedDistinct := distinct.changed file.name fun _ => prior ++ new :: rest
  have flushed := readFrom_recoverable distinct recoverable
  rw [listed] at recoverable
  obtain ⟨early, late, rfl, here, transfers⟩ := recoverable.split
  constructor
  · intro keeps unnoticed
    obtain ⟨index, payload, others, torn, present, taken, absent⟩ :=
      lost_of_unnoticed here content changes unnoticed
    have found := (transfers _ _ torn).2 ⟨others, rfl, taken⟩
    rw [← changedListing] at found
    have opens := WalWriter.open_of_recoverable config found
    have reads := (open_recoverable changedDistinct found opens).2 collect
    have delivered := keeps _ _ opens (0 + early.length + index, payload)
    rw [flushed, readFrom_collect reads, mem_numbered, mem_numbered] at delivered
    obtain ⟨position, same, still⟩ := delivered ⟨early.length + index, Nat.add_assoc _ _ _, by
      rw [List.getElem?_append_right (Nat.le_add_right _ _), Nat.add_sub_cancel_left, present]⟩
    obtain rfl : position = early.length + index := by omega
    rw [List.getElem?_append_right (Nat.le_add_right _ _), Nat.add_sub_cancel_left] at still
    exact absent still
  · intro noticed opened writer opens
    obtain ⟨found, torn, taken⟩ := recoverable_of_open opens
    rw [changedListing, transfers] at taken
    obtain ⟨others, -, takenHere⟩ := taken
    exact absurd (unnoticed_of_recoverable detects here content changes takenHere) noticed

/-! ## Flushed logs -/

/-- An open log with nothing left in its buffer. -/
def WalState.Flushed (state : WalState) : Prop :=
  ∃ writer, state.session = some writer ∧ writer.writer = []

theorem Related.recoverable {state : WalState} {log : DurableLog} (related : Related crc state log)
    (bound : log.payloads.length < 2 ^ 64) (flushed : state.Flushed) :
    DistinctSegments state.directory ∧
      Recoverable crc 0 (listSegments state.directory) log.payloads [] := by
  obtain ⟨writer, session, empty⟩ := flushed
  cases related with
  | closed stored persists => cases session
  | live holds =>
      cases session
      obtain ⟨full, kept, buffered, live, payloads, -⟩ := holds
      have nothing : buffered = [] := by
        by_contra some
        rw [live.buffer] at empty
        exact frames_ne_nil some empty
      subst nothing
      rw [List.append_nil] at payloads
      have total : log.payloads.length = sealedCount full + kept.length := by
        rw [payloads, List.length_append, sealedCount]
      have sizes := live.sizes
      rw [List.append_nil, ← payloads] at sizes
      have fit : FramesFit 0 log.payloads := ⟨by omega, sizes⟩
      have canonical : Canonical (layout crc full (frames crc (sealedCount full) kept ++ [])) :=
        canonical_layout live.nonempty (by omega)
      rw [payloads] at fit ⊢
      have recoverable : Recoverable crc 0 _ _ [] := recoverable_layout fit TornTail.nil
      rw [live.directory, ← List.append_nil (frames _ _ _), canonical.listSegments_files]
      exact ⟨canonical.distinct, recoverable⟩

/-- A changed byte of a flushed log makes opening fail or loses nothing, unless it is one of a
length field that recovery takes. -/
theorem flushed_kept_iff (crc : Checksum) (detects : DetectsByteChange crc)
    (inputs : List WalInput) (few : inputs.length < 2 ^ 64)
    (flushed : (run (WalState.step crc) .initial inputs).1.Flushed) (config : WalConfig)
    (front later : List (Nat × SegmentFile)) (key : Nat) (file : SegmentFile)
    (listed : listSegments (run (WalState.step crc) .initial inputs).1.directory =
      front ++ (key, file) :: later)
    (prior rest : Bytes) (old new : UInt8) (content : file.bytes = prior ++ old :: rest)
    (changes : old ≠ new) :
    KeepsFlushed crc config (run (WalState.step crc) .initial inputs).1.directory
        ((run (WalState.step crc) .initial inputs).1.directory.map
          (SegmentFile.modify file.name fun _ => prior ++ new :: rest)) ↔
      ¬Unnoticed crc key file later prior new rest := by
  obtain ⟨log, -, related, count⟩ := related_run inputs few
  obtain ⟨distinct, recoverable⟩ := related.recoverable (lt_of_le_of_lt count few) flushed
  exact keepsFlushed_iff detects config distinct recoverable listed content changes

/-- Two flushed records. -/
def flushedInputs : List WalInput := [.open ⟨64, 1⟩, .append [1], .append [2, 3]]

def flushedFile : SegmentFile :=
  ⟨segmentFilename 0, encodeRecord crc32 0 [1] ++ encodeRecord crc32 1 [2, 3]⟩

private theorem flushedInputs_flushed :
    (run (WalState.step crc32) .initial flushedInputs).1.Flushed := by
  have state : (run (WalState.step crc32) .initial flushedInputs).1 =
      ⟨[flushedFile], some ⟨⟨64, 1⟩, [], segmentFilename 0, 0, 35, 2, 0⟩⟩ := by
    decide +kernel
  rw [state]
  exact ⟨_, rfl, rfl⟩

theorem flushed_kept_flushedInputs :
    KeepsFlushed crc32 ⟨64, 1⟩ (run (WalState.step crc32) .initial flushedInputs).1.directory
        ((run (WalState.step crc32) .initial flushedInputs).1.directory.map
          (SegmentFile.modify flushedFile.name fun _ =>
            flushedFile.bytes.take 8 ++ 200 :: flushedFile.bytes.drop 9)) ↔
      ¬Unnoticed crc32 0 flushedFile [] (flushedFile.bytes.take 8) 200
        (flushedFile.bytes.drop 9) :=
  flushed_kept_iff crc32 crc32_detects flushedInputs (by decide) flushedInputs_flushed ⟨64, 1⟩ [] []
    0 flushedFile (by decide +kernel) _ _ 1 200 (by decide +kernel) (by decide)

/-- The first record's length now runs past the end of the file: both records are gone. -/
theorem flushed_lost_flushedInputs :
    DetectsByteChange crc32 ∧ (run (WalState.step crc32) .initial flushedInputs).1.Flushed ∧
      ¬KeepsFlushed crc32 ⟨64, 1⟩ (run (WalState.step crc32) .initial flushedInputs).1.directory
        ((run (WalState.step crc32) .initial flushedInputs).1.directory.map
          (SegmentFile.modify flushedFile.name fun _ =>
            flushedFile.bytes.take 8 ++ 200 :: flushedFile.bytes.drop 9)) := by
  have opens : WalWriter.open crc32 ⟨64, 1⟩
      ((run (WalState.step crc32) .initial flushedInputs).1.directory.map
        (SegmentFile.modify flushedFile.name fun _ =>
          flushedFile.bytes.take 8 ++ 200 :: flushedFile.bytes.drop 9)) =
      .ok ([⟨segmentFilename 0, []⟩], ⟨⟨64, 1⟩, [], segmentFilename 0, 0, 0, 0, 0⟩) := by
    decide +kernel
  refine ⟨crc32_detects, flushedInputs_flushed, fun keeps => ?_⟩
  have delivered := keeps _ _ opens (0, [1]) (by decide +kernel)
  revert delivered
  decide +kernel

end Corruption
end Exg.Wal
