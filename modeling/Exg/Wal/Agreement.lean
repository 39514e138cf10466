import Exg.Support.Crc32
import Exg.Wal.Delivery
import Mathlib.Data.List.Nodup

/-!
# Reader and writer agree

Opening a writer truncates the torn tail and may add an empty segment.  What recovery found
is then exactly what a reader delivers: `open_recoverable`.
-/

namespace Exg.Wal

open Support

/-! ## Listing the segments -/

/-- The segments of a directory in the order of its listing. -/
def unsortedSegments (directory : Directory) : List (Nat × SegmentFile) :=
  directory.filterMap fun file =>
    (parseSegmentFilename file.name).map fun first => (first, file)

/-- No two segments of a directory have one first sequence number in their names. -/
def DistinctSegments (directory : Directory) : Prop :=
  (directory.filterMap fun file => parseSegmentFilename file.name).Nodup

instance (directory : Directory) : Decidable (DistinctSegments directory) :=
  inferInstanceAs (Decidable (List.Nodup _))

section Listing

variable {directory : Directory}

private theorem listSegments_perm (directory : Directory) :
    (listSegments directory).Perm (unsortedSegments directory) := List.perm_insertionSort _ _

private theorem listSegments_sorted (directory : Directory) :
    (listSegments directory).Pairwise FirstLe :=
  List.pairwise_insertionSort FirstLe _

private theorem mem_listSegments {segment : Nat × SegmentFile}
    (member : segment ∈ listSegments directory) :
    parseSegmentFilename segment.2.name = some segment.1 ∧ segment.2 ∈ directory := by
  rw [(listSegments_perm directory).mem_iff, unsortedSegments, List.mem_filterMap] at member
  obtain ⟨file, inside, parsed⟩ := member
  obtain ⟨first, number, rfl⟩ := Option.map_eq_some_iff.1 parsed
  exact ⟨number, inside⟩

theorem map_fst_unsortedSegments (directory : Directory) :
    (unsortedSegments directory).map Prod.fst =
      directory.filterMap fun file => parseSegmentFilename file.name := by
  rw [unsortedSegments, List.map_filterMap]
  congr
  funext file
  cases parseSegmentFilename file.name <;> rfl

theorem DistinctSegments.keys (distinct : DistinctSegments directory) :
    ((listSegments directory).map Prod.fst).Nodup := by
  rw [((listSegments_perm directory).map Prod.fst).nodup_iff, map_fst_unsortedSegments]
  exact distinct

/-- Segments with different numbers have different names. -/
theorem DistinctSegments.names (distinct : DistinctSegments directory) :
    ((listSegments directory).map fun segment => segment.2.name).Nodup := by
  rw [List.Nodup, List.pairwise_map]
  apply (List.pairwise_map.1 distinct.keys).imp_of_mem
  intro left right leftMember rightMember differ same
  have numbered := (mem_listSegments leftMember).1
  rw [same, (mem_listSegments rightMember).1] at numbered
  exact differ (Option.some.inj numbered).symm

@[simp]
theorem name_modify (path : String) (change : Bytes → Bytes) (file : SegmentFile) :
    (file.modify path change).name = file.name := by
  rw [SegmentFile.modify]
  split <;> rfl

theorem DistinctSegments.changed (distinct : DistinctSegments directory) (path : String)
    (change : Bytes → Bytes) :
    DistinctSegments (directory.map (SegmentFile.modify path change)) := by
  rw [DistinctSegments, List.filterMap_map]
  simp only [Function.comp_def, name_modify]
  exact distinct

theorem listSegments_map_modify (path : String) (change : Bytes → Bytes) :
    listSegments (directory.map (SegmentFile.modify path change)) =
      (listSegments directory).map fun segment =>
        (segment.1, segment.2.modify path change) := by
  rw [listSegments, listSegments, List.map_insertionSort FirstLe FirstLe]
  · congr 1
    rw [List.filterMap_map, List.map_filterMap]
    congr
    funext file
    rw [Function.comp_apply, name_modify]
    cases parseSegmentFilename file.name <;> rfl
  · exact fun _ _ _ _ => Iff.rfl

end Listing

/-! ## Truncation -/

section Truncation

variable {crc : Checksum} {first : Nat} {segments : List (Nat × SegmentFile)}
  {payloads : List Bytes} {tail : Bytes}

def truncateSegments (segments : List (Nat × SegmentFile)) :
    Option (String × Nat) → List (Nat × SegmentFile)
  | some (path, size) =>
      segments.map fun segment => (segment.1, segment.2.modify path (·.take size))
  | none => segments

private theorem listSegments_truncateTail (directory : Directory)
    (truncateInfo : Option (String × Nat)) :
    listSegments (truncateTail directory truncateInfo) =
      truncateSegments (listSegments directory) truncateInfo := by
  cases truncateInfo with
  | none => rfl
  | some cut => exact listSegments_map_modify cut.1 (·.take cut.2)

private theorem map_name_truncateTail (directory : Directory)
    (truncateInfo : Option (String × Nat)) :
    (truncateTail directory truncateInfo).map (·.name) = directory.map (·.name) := by
  cases truncateInfo with
  | none => rfl
  | some cut => simp [truncateTail, Directory.setLen]

theorem DistinctSegments.truncateTail {directory : Directory}
    (distinct : DistinctSegments directory) (truncateInfo : Option (String × Nat)) :
    DistinctSegments (truncateTail directory truncateInfo) := by
  cases truncateInfo with
  | none => exact distinct
  | some cut => exact distinct.changed cut.1 (·.take cut.2)

/-- After truncation no tail is left. -/
theorem Recoverable.truncate (recoverable : Recoverable crc first segments payloads tail)
    (names : (segments.map fun segment => segment.2.name).Nodup) :
    Recoverable crc first (truncateSegments segments (tailStart segments tail)) payloads [] := by
  by_cases clean : tail = []
  · rw [tailStart, if_pos clean, truncateSegments, ← clean]
    exact recoverable
  · induction recoverable with
    | none => exact .none
    | @last first key file payloads tail fit layout torn =>
        have kept : file.bytes.take (file.bytes.length - tail.length) =
            frames crc first payloads := by
          rw [layout, List.length_append, Nat.add_sub_cancel_right, List.take_left]
        simp only [tailStart, if_neg clean, List.getLast?_singleton, Option.map_some,
          truncateSegments, List.map_cons, List.map_nil, SegmentFile.modify, if_true, kept]
        exact .last fit (List.append_nil _).symm TornTail.nil
    | @more first key file payloads later tail rest nonempty fit layout others
        inductionHypothesis =>
        obtain ⟨fresh, distinct⟩ := List.nodup_cons.1 names
        have cut := inductionHypothesis distinct clean
        have member := List.getLast_mem nonempty
        have sameLast : tailStart ((key, file) :: rest) tail = tailStart rest tail := by
          rw [tailStart, tailStart, List.getLast?_cons_of_ne_nil nonempty]
        have info : tailStart rest tail = some ((rest.getLast nonempty).2.name,
            (rest.getLast nonempty).2.bytes.length - tail.length) := by
          rw [tailStart, if_neg clean, List.getLast?_eq_getLast_of_ne_nil nonempty, Option.map_some]
        have other : file.name ≠ (rest.getLast nonempty).2.name := fun same =>
          fresh (List.mem_map.2 ⟨_, member, same.symm⟩)
        rw [sameLast, info, truncateSegments, List.map_cons, SegmentFile.modify, if_neg other]
        rw [info, truncateSegments] at cut
        exact .more (by simpa using nonempty) fit layout cut

theorem Recoverable.length_le (recoverable : Recoverable crc first segments payloads tail)
    (bound : first ≤ 2 ^ 64) : first + payloads.length ≤ 2 ^ 64 := by
  induction recoverable with
  | none => exact bound
  | last fit _ _ => exact fit.sequence
  | more _ fit _ _ inductionHypothesis =>
      rw [List.length_append, ← Nat.add_assoc]
      exact inductionHypothesis fit.sequence

/-- A log without records has empty segments only. -/
theorem Recoverable.empty (recoverable : Recoverable crc first segments payloads [])
    (nothing : payloads = []) : ∀ segment ∈ segments, segment.2.bytes = [] := by
  generalize none : ([] : Bytes) = tail at recoverable
  induction recoverable with
  | none => simp
  | last fit layout torn =>
      subst none nothing
      simp [layout]
  | more nonempty fit layout others inductionHypothesis =>
      obtain ⟨nothing, nothingLater⟩ := List.append_eq_nil_iff.1 nothing
      rw [nothing, frames_nil] at layout
      rw [← none] at inductionHypothesis ⊢
      exact List.forall_mem_cons.2 ⟨layout, inductionHypothesis nothingLater rfl⟩

end Truncation

/-! ## An added segment -/

section Creation

variable {σ : Type} {crc : Checksum} {callback : σ → Nat → Bytes → σ × Bool}
  {directory : Directory}

private theorem countP_keys_le (distinct : DistinctSegments directory) :
    (unsortedSegments directory).countP (fun segment => segment.1 ≤ 0) ≤ 1 := by
  have counted : ((unsortedSegments directory).map Prod.fst).count 0 ≤ 1 := by
    apply List.nodup_iff_count.1
    rw [map_fst_unsortedSegments]
    exact distinct
  rw [List.count, List.countP_map] at counted
  apply le_trans (List.countP_mono_left _) counted
  intro segment _ low
  simpa using low

private theorem startIndex_zero (distinct : DistinctSegments directory) :
    startIndex 0 (listSegments directory) = 0 := by
  have few := countP_keys_le distinct
  rw [startIndex, (listSegments_perm directory).countP_eq]
  omega

theorem readFrom_recoverable {payloads : List Bytes} {tail : Bytes}
    (distinct : DistinctSegments directory)
    (recoverable : Recoverable crc 0 (listSegments directory) payloads tail) :
    (readFrom crc collect 0 directory []).1.state = numbered 0 payloads := by
  rw [readFrom, startIndex_zero distinct, List.drop_zero, readSegments_recoverable recoverable,
    deliver_collect]
  exact List.nil_append _

/-- A new file adds nothing to what is read: it is empty. -/
theorem filter_listSegments_create (distinct : DistinctSegments directory) (path : String) :
    (listSegments (directory.create path)).filter (fun segment => segment.2.bytes ≠ []) =
      (listSegments directory).filter fun segment => segment.2.bytes ≠ [] := by
  rw [Directory.create]
  split
  · rfl
  · have added : (unsortedSegments (directory ++ [⟨path, []⟩])).filter
        (fun segment => segment.2.bytes ≠ []) =
          (unsortedSegments directory).filter fun segment => segment.2.bytes ≠ [] := by
      rw [unsortedSegments, List.filterMap_append, List.filter_append]
      apply List.append_right_eq_self.2
      rw [List.filter_eq_nil_iff]
      intro segment member
      obtain ⟨file, inside, parsed⟩ := List.mem_filterMap.1 member
      obtain ⟨first, -, rfl⟩ := Option.map_eq_some_iff.1 parsed
      simp [List.mem_singleton.1 inside]
    have filtered : ((listSegments (directory ++ [⟨path, []⟩])).filter
        fun segment => segment.2.bytes ≠ []).Perm
          ((listSegments directory).filter fun segment => segment.2.bytes ≠ []) := by
      apply ((listSegments_perm _).filter _).trans
      rw [added]
      exact ((listSegments_perm directory).filter _).symm
    apply filtered.eq_of_pairwise _ ((listSegments_sorted _).filter _)
      ((listSegments_sorted _).filter _)
    intro left right leftMember rightMember below above
    have leftOld := List.mem_of_mem_filter (filtered.mem_iff.1 leftMember)
    have rightOld := List.mem_of_mem_filter rightMember
    exact List.inj_on_of_nodup_map distinct.keys leftOld rightOld (Nat.le_antisymm below above)

/-- A new file moves the reader's start only when it has the number zero itself. -/
theorem startIndex_create (distinct : DistinctSegments directory) {path : String}
    (moved : startIndex 0 (listSegments (directory.create path)) ≠ 0) :
    path ∉ directory.map (·.name) ∧ parseSegmentFilename path = some 0 := by
  have few := countP_keys_le distinct
  rw [startIndex, (listSegments_perm _).countP_eq, Directory.create] at moved
  split at moved
  · omega
  · rename_i fresh
    rw [unsortedSegments, List.filterMap_append, List.countP_append] at moved
    change List.countP _ (unsortedSegments directory) + _ - 1 ≠ 0 at moved
    cases parsed : parseSegmentFilename path with
    | none =>
        simp [parsed] at few moved
        omega
    | some number =>
        by_cases isZero : number = 0
        · exact ⟨fresh, congrArg some isZero⟩
        · simp [parsed, isZero] at few moved
          omega

private theorem readFrom_create {payloads : List Bytes} (distinct : DistinctSegments directory)
    (recoverable : Recoverable crc 0 (listSegments directory) payloads [])
    (path : String) (zero : path ∉ directory.map (·.name) →
      parseSegmentFilename path = some 0 → payloads = []) (state : σ) :
    readFrom crc callback 0 (directory.create path) state =
      ((deliver callback ⟨state, 0⟩ (numbered 0 payloads)).1,
        .ok (deliver callback ⟨state, 0⟩ (numbered 0 payloads)).1.recordsRead) := by
  have same := filter_listSegments_create distinct path
  have dropped : ((listSegments (directory.create path)).drop
      (startIndex 0 (listSegments (directory.create path)))).filter
        (fun segment => segment.2.bytes ≠ []) =
      (listSegments directory).filter fun segment => segment.2.bytes ≠ [] := by
    by_cases noneDropped : startIndex 0 (listSegments (directory.create path)) = 0
    · rw [noneDropped, List.drop_zero, same]
    · obtain ⟨fresh, isZero⟩ := startIndex_create distinct noneDropped
      have empty := recoverable.empty (zero fresh isZero)
      have nothing : (listSegments directory).filter (fun segment => segment.2.bytes ≠ []) = [] :=
        List.filter_eq_nil_iff.2 fun segment member => by simpa using empty segment member
      rw [nothing] at same ⊢
      apply List.filter_eq_nil_iff.2
      intro segment member
      exact List.filter_eq_nil_iff.1 same segment (List.mem_of_mem_drop member)
  rw [readFrom, ← readSegments_filter, dropped, readSegments_filter]
  exact readSegments_recoverable recoverable

end Creation

/-! ## Opening -/

section Opening

variable {crc : Checksum} {config : WalConfig} {directory opened : Directory} {writer : WalWriter}

/-- The segment to go on in is the last one or an empty one. -/
theorem path_chooseSegment {payloads : List Bytes} {tail : Bytes}
    (recoverable : Recoverable crc 0 (listSegments directory) payloads tail) :
    let path := (chooseSegment config (listSegments directory) payloads.length
      (tailStart (listSegments directory) tail)).2.1
    path ∉ directory.map (·.name) → parseSegmentFilename path = some 0 → payloads = [] := by
  intro path fresh isZero
  have bound := recoverable.length_le (Nat.zero_le _)
  rw [Nat.zero_add] at bound
  simp only [path, chooseSegment] at fresh isZero
  cases last : (listSegments directory).getLast? with
  | none =>
      rw [List.getLast?_eq_none_iff] at last
      rw [last] at recoverable
      cases recoverable
      rfl
  | some segment =>
      rw [last] at fresh isZero
      dsimp only at fresh isZero
      split at isZero
      · rw [parseSegmentFilename_segmentFilename (lt_of_le_of_lt bound (by decide))] at isZero
        exact List.length_eq_zero_iff.1 (Option.some.inj (Option.filter_eq_some_iff.1 isZero).1)
      · rename_i room
        rw [if_neg room] at fresh
        have member := (mem_listSegments (List.mem_of_getLast? last)).2
        exact absurd (List.mem_map_of_mem member) fresh

/-- Opening succeeds on recoverable segments. -/
theorem WalWriter.open_of_recoverable {payloads : List Bytes} {tail : Bytes}
    (config : WalConfig)
    (recoverable : Recoverable crc 0 (listSegments directory) payloads tail) :
    WalWriter.open crc config directory =
      let truncateInfo := tailStart (listSegments directory) tail
      let choice := chooseSegment config (listSegments directory) payloads.length truncateInfo
      .ok ((truncateTail directory truncateInfo).create choice.2.1,
        { config
          writer := []
          currentSegmentPath := choice.2.1
          currentSegmentFirstSeq := choice.1
          currentSegmentBytes := choice.2.2
          nextSequence := payloads.length
          recordsSinceFlush := 0 }) := by
  rw [WalWriter.open, recoverState_ok_iff.2 ⟨payloads, tail, recoverable, rfl, rfl⟩]

theorem recoverable_of_open (opens : WalWriter.open crc config directory = .ok (opened, writer)) :
    ∃ payloads tail, Recoverable crc 0 (listSegments directory) payloads tail := by
  rw [WalWriter.open] at opens
  split at opens
  · cases opens
  · rename_i nextSequence truncateInfo recovered
    obtain ⟨payloads, tail, recoverable, -, -⟩ := recoverState_ok_iff.1 recovered
    exact ⟨payloads, tail, recoverable⟩

variable {payloads : List Bytes} {tail : Bytes}

/-- What an opened log holds: the writer counts it, and a reader delivers it. -/
theorem open_recoverable (distinct : DistinctSegments directory)
    (recoverable : Recoverable crc 0 (listSegments directory) payloads tail)
    (opens : WalWriter.open crc config directory = .ok (opened, writer)) :
    writer.nextSequence = payloads.length ∧
      ∀ {σ : Type} (callback : σ → Nat → Bytes → σ × Bool) (state : σ),
        readFrom crc callback 0 opened state =
          ((deliver callback ⟨state, 0⟩ (numbered 0 payloads)).1,
            .ok (deliver callback ⟨state, 0⟩ (numbered 0 payloads)).1.recordsRead) := by
  rw [WalWriter.open_of_recoverable config recoverable] at opens
  cases opens
  refine ⟨rfl, fun callback state => ?_⟩
  have whole := recoverable.truncate distinct.names
  rw [← listSegments_truncateTail] at whole
  apply readFrom_create (distinct.truncateTail _) whole
  rw [map_name_truncateTail]
  exact path_chooseSegment recoverable

theorem readFrom_collect
    (reads : ∀ state : List (Nat × Bytes), readFrom crc collect 0 opened state =
      ((deliver collect ⟨state, 0⟩ (numbered 0 payloads)).1,
        .ok (deliver collect ⟨state, 0⟩ (numbered 0 payloads)).1.recordsRead)) :
    readFrom crc collect 0 opened [] =
      (⟨numbered 0 payloads, payloads.length⟩, .ok payloads.length) := by
  have length := congrArg List.length (map_snd_numbered 0 payloads)
  rw [List.length_map] at length
  rw [reads, deliver_collect]
  simp only [List.nil_append, Nat.zero_add, length]

/-! ## The check at boot -/

/-- A replay without an error has counted every record. -/
theorem deliver_bootReplay {σ ε : Type} (fromBytes : Bytes → Except String ε)
    (applyEvent : σ → ε → Except String σ) {progress : Progress (BootReplay σ)}
    (clean : (deliver (BootReplay.record fromBytes applyEvent) progress
      (numbered progress.state.expectedSeq payloads)).1.state.replayErr = none) :
    (deliver (BootReplay.record fromBytes applyEvent) progress
      (numbered progress.state.expectedSeq payloads)).1.state.replayedCount =
        progress.state.replayedCount + payloads.length := by
  induction payloads generalizing progress with
  | nil => rfl
  | cons payload rest inductionHypothesis =>
      rw [numbered, deliver] at clean ⊢
      simp only [BootReplay.record, ne_eq, not_true, if_false] at clean ⊢
      cases decoded : fromBytes payload with
      | error message => simp [decoded] at clean
      | ok event =>
          cases applied : applyEvent progress.state.restored event with
          | error message => simp [decoded, applied] at clean
          | ok restored =>
              simp only [decoded, applied, if_true] at clean ⊢
              rw [inductionHypothesis clean, List.length_cons, Nat.add_assoc, Nat.add_comm 1]

/-- A reader delivers the records `0, 1, …` that the writer has counted, and the replay at
boot counts as many unless it fails itself. -/
theorem reader_agrees_with_writer (distinct : DistinctSegments directory)
    (opens : WalWriter.open crc config directory = .ok (opened, writer)) :
    (∃ records, readFrom crc collect 0 opened [] =
        (⟨records, writer.nextSequence⟩, .ok writer.nextSequence) ∧
      records.map Prod.fst = List.range writer.nextSequence) ∧
    ∀ {σ ε : Type} (fromBytes : Bytes → Except String ε) (applyEvent : σ → ε → Except String σ)
      (restored : σ),
      let replay := readFrom crc (BootReplay.record fromBytes applyEvent) 0 opened
        (BootReplay.initial restored)
      replay.1.state.replayErr = none → replay.1.state.replayedCount = writer.nextSequence := by
  obtain ⟨payloads, tail, recoverable⟩ := recoverable_of_open opens
  obtain ⟨count, reads⟩ := open_recoverable distinct recoverable opens
  rw [count]
  constructor
  · refine ⟨numbered 0 payloads, readFrom_collect (reads collect), ?_⟩
    rw [map_fst_numbered, List.range_eq_range']
  · intro σ ε fromBytes applyEvent restored replay clean
    simp only [replay, reads] at clean ⊢
    exact (deliver_bootReplay fromBytes applyEvent clean).trans (Nat.zero_add _)

/-- A full first segment under a short name, and a second one that ends in a torn record. -/
def tornDirectory : Directory :=
  [⟨"wal-+7.log", encodeRecord crc32 1 [1, 2] ++ [5, 0, 0]⟩,
    ⟨"snapshot-3.bin", [9]⟩, ⟨"wal-0.log", encodeRecord crc32 0 []⟩]

private theorem open_tornDirectory : WalWriter.open crc32 ⟨18, 1⟩ tornDirectory =
    .ok (tornDirectory.setLen "wal-+7.log" 18 ++ [⟨segmentFilename 2, []⟩],
      ⟨⟨18, 1⟩, [], segmentFilename 2, 2, 0, 2, 0⟩) := by
  decide +kernel

theorem reader_agrees_on_tornDirectory :
    (∃ records, readFrom crc32 collect 0
          (tornDirectory.setLen "wal-+7.log" 18 ++ [⟨segmentFilename 2, []⟩]) [] =
        (⟨records, 2⟩, .ok 2) ∧
      records.map Prod.fst = List.range 2) ∧
    ∀ {σ ε : Type} (fromBytes : Bytes → Except String ε) (applyEvent : σ → ε → Except String σ)
      (restored : σ),
      let replay := readFrom crc32 (BootReplay.record fromBytes applyEvent) 0
        (tornDirectory.setLen "wal-+7.log" 18 ++ [⟨segmentFilename 2, []⟩])
        (BootReplay.initial restored)
      replay.1.state.replayErr = none → replay.1.state.replayedCount = 2 :=
  reader_agrees_with_writer (by decide +kernel) open_tornDirectory

end Opening
end Exg.Wal
