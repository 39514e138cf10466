import Exg.Wal.Durability

/-!
# Reading from a sequence number

The reader looks up the segment to start in by the file names.  In a log that a writer has
written, the segments before that one hold records with smaller numbers only, so that reading
from a sequence number leaves out exactly the records before it.
-/

namespace Exg.Wal

open Support

/-! ## The search -/

/-- What `binary_search_by_key` promises on sorted keys: where the target is, or where it could
be inserted. -/
def Searched (keys : List Nat) (target : Nat) : Except Nat Nat → Prop
  | .ok index => keys[index]? = some target
  | .error index =>
      index ≤ keys.length ∧ (∀ key ∈ keys.take index, key < target) ∧
        ∀ key ∈ keys.drop index, target < key

/-- Where the reader starts, by the result of its search. -/
def startIdx : Except Nat Nat → Nat
  | .ok index => index
  | .error index => index - 1

section Found

variable (crc : Checksum) {σ : Type} (callback : σ → Nat → Bytes → σ × Bool) (startSequence : Nat)

/-- `readFrom`, when the search of the names has found this. -/
def readFound (found : Except Nat Nat) (directory : Directory) (state : σ) :
    Progress σ × Except WalError Nat :=
  let segments := listSegments directory
  readSegments crc callback startSequence ⟨state, 0⟩ (segments.drop (startIdx found))

end Found

private theorem countP_of_split {keys : List Nat} {target index : Nat}
    (inside : index ≤ keys.length) (below : ∀ key ∈ keys.take index, key ≤ target)
    (above : ∀ key ∈ keys.drop index, target < key) :
    keys.countP (· ≤ target) = index := by
  rw [← List.take_append_drop index keys, List.countP_append,
    List.countP_eq_length.2 (by simpa using below), List.countP_eq_zero.2 (by simpa using above),
    List.length_take, Nat.add_zero, Nat.min_eq_left inside]

/-- Whatever the search finds, the reader starts at `startIndex`. -/
theorem startIdx_eq {segments : List (Nat × SegmentFile)} {startSequence : Nat}
    (increasing : segments.Pairwise fun left right => left.1 < right.1)
    {found : Except Nat Nat} (searched : Searched (segments.map Prod.fst) startSequence found) :
    startIdx found = startIndex startSequence segments := by
  have sorted : (segments.map Prod.fst).Pairwise (· < ·) := List.pairwise_map.2 increasing
  have counted : segments.countP (fun segment => segment.1 ≤ startSequence) =
      (segments.map Prod.fst).countP (· ≤ startSequence) := by
    rw [List.countP_map]
    rfl
  rw [startIndex, counted]
  cases found with
  | error index =>
      obtain ⟨inside, below, above⟩ := searched
      rw [countP_of_split inside (fun key member => Nat.le_of_lt (below key member)) above]
      rfl
  | ok index =>
      obtain ⟨inside, here⟩ := List.getElem?_eq_some_iff.1 searched
      have split := List.take_append_drop (index + 1) (segments.map Prod.fst)
      rw [← split, List.take_succ_eq_append_getElem inside, here] at sorted
      obtain ⟨early, -, apart⟩ := List.pairwise_append.1 sorted
      have below : ∀ key ∈ (segments.map Prod.fst).take (index + 1), key ≤ startSequence := by
        intro key member
        rw [List.take_succ_eq_append_getElem inside, here] at member
        rcases List.mem_append.1 member with member | member
        · exact Nat.le_of_lt ((List.pairwise_append.1 early).2.2 key member startSequence
            (List.mem_singleton_self startSequence))
        · exact Nat.le_of_eq (List.mem_singleton.1 member)
      have above : ∀ key ∈ (segments.map Prod.fst).drop (index + 1), startSequence < key :=
        fun key member => apart startSequence (by simp) key member
      rw [countP_of_split inside below above]
      rfl

/-! ## Reading the writer's segments -/

section Seeking

variable {crc : Checksum} {σ : Type} {callback : σ → Nat → Bytes → σ × Bool} {startSequence : Nat}

/-- Records before the start are not read. -/
theorem recordsFrom_numbered {first : Nat} {payloads : List Bytes}
    (early : first + payloads.length ≤ startSequence) :
    recordsFrom startSequence (numbered first payloads) = [] := by
  rw [recordsFrom, List.filter_eq_nil_iff]
  intro record member
  have number : record.1 ∈ (numbered first payloads).map Prod.fst := List.mem_map_of_mem member
  rw [map_fst_numbered, List.mem_range'_1] at number
  simp only [decide_eq_true_eq, not_le]
  omega

/-- The first segment is passed over when a later one starts early enough. -/
theorem startIndex_cons_pass {segment : Nat × SegmentFile} {rest : List (Nat × SegmentFile)}
    (low : segment.1 ≤ startSequence) (someLater : ∃ later ∈ rest, later.1 ≤ startSequence) :
    startIndex startSequence (segment :: rest) = startIndex startSequence rest + 1 := by
  have counted : 0 < rest.countP (fun segment => segment.1 ≤ startSequence) := by
    rw [List.countP_pos_iff]
    obtain ⟨later, member, early⟩ := someLater
    exact ⟨later, member, decide_eq_true early⟩
  rw [startIndex, startIndex, List.countP_cons, if_pos (decide_eq_true low)]
  omega

private theorem startIndex_cons_stay {segment : Nat × SegmentFile} {rest : List (Nat × SegmentFile)}
    (noneLater : ∀ later ∈ rest, startSequence < later.1) :
    startIndex startSequence (segment :: rest) = 0 := by
  have counted : rest.countP (fun segment => segment.1 ≤ startSequence) = 0 := by
    rw [List.countP_eq_zero]
    intro later member
    simpa using noneLater later member
  rw [startIndex, List.countP_cons, counted]
  split <;> rfl

variable {first : Nat} {full : List (List Bytes)} {last : Nat × SegmentFile}
  {payloads : List Bytes} {tail : Bytes}

/-- Reading from a sequence number delivers what the whole log has from there on. -/
theorem readSegments_seek {progress : Progress σ} (nonempty : ∀ payloads ∈ full, payloads ≠ [])
    (fit : FramesFit first (full.flatten ++ payloads))
    (named : last.1 = first + sealedCount full)
    (content : last.2.bytes = frames crc (first + sealedCount full) payloads ++ tail)
    (torn : TornTail crc tail) :
    readSegments crc callback startSequence progress
        ((sealedSegments crc first full ++ [last]).drop
          (startIndex startSequence (sealedSegments crc first full ++ [last]))) =
      ((deliver callback progress
          (recordsFrom startSequence (numbered first (full.flatten ++ payloads)))).1,
        .ok (deliver callback progress (recordsFrom startSequence
          (numbered first (full.flatten ++ payloads)))).1.recordsRead) := by
  have recoverable := recoverable_sealed full last fit content torn
  induction full generalizing first with
  | nil =>
      rw [sealedSegments, List.nil_append, startIndex_cons_stay (by simp), List.drop_zero]
      exact readSegments_from recoverable
  | cons own rest inductionHypothesis =>
      have count : first + sealedCount (own :: rest) =
          first + own.length + sealedCount rest := by
        rw [sealedCount, sealedCount, List.flatten_cons, List.length_append, Nat.add_assoc]
      obtain ⟨some, others⟩ := List.forall_mem_cons.1 nonempty
      rw [sealedSegments, List.cons_append]
      by_cases someLater : ∃ later ∈ sealedSegments crc (first + own.length) rest ++ [last],
          later.1 ≤ startSequence
      · -- Every later name is at least that of the next segment.
        have next : first + own.length ≤ startSequence := by
          obtain ⟨later, member, early⟩ := someLater
          refine le_trans ?_ early
          rcases List.mem_append.1 member with inside | isLast
          · exact (mem_sealedSegments others inside).2.1
          · rw [List.mem_singleton.1 isLast, named, count]
            exact Nat.le_add_right _ _
        rw [startIndex_cons_pass ((Nat.le_add_right _ _).trans next) someLater,
          List.drop_succ_cons, List.flatten_cons, List.append_assoc, numbered_append,
          recordsFrom_append, recordsFrom_numbered next, List.nil_append]
        rw [List.flatten_cons, List.append_assoc] at fit
        have fitLater := (FramesFit.append_iff.1 fit).2
        rw [count] at content
        exact inductionHypothesis others fitLater (by rw [named, count]) content
          (recoverable_sealed rest last fitLater content torn)
      · have noneLater := fun later member => not_le.1 fun early =>
          someLater ⟨later, member, early⟩
        rw [startIndex_cons_stay noneLater, List.drop_zero]
        exact readSegments_from recoverable

/-- A stored log is read from every sequence number on as it is read from the beginning. -/
theorem Stored.readFrom_seek {directory : Directory} (stored : Stored crc directory payloads)
    (bound : payloads.length < 2 ^ 64) (state : σ) :
    readFrom crc callback startSequence directory state =
      ((deliver callback ⟨state, 0⟩ (recordsFrom startSequence (numbered 0 payloads))).1,
        .ok (deliver callback ⟨state, 0⟩
          (recordsFrom startSequence (numbered 0 payloads))).1.recordsRead) := by
  have fit := stored.fit bound
  cases stored with
  | none => rfl
  | @some full kept tail nonempty _ torn =>
      rw [List.length_append] at bound
      have canonical : Canonical (layout crc full (frames crc (sealedCount full) kept ++ tail)) :=
        canonical_layout nonempty (by rw [sealedCount]; omega)
      rw [readFrom, canonical.listSegments_files, layout]
      exact readSegments_seek nonempty fit (Nat.zero_add _).symm (by rw [Nat.zero_add]) torn

/-- The names of a stored log have no two segments in one place. -/
theorem Stored.increasing {directory : Directory} (stored : Stored crc directory payloads)
    (bound : payloads.length < 2 ^ 64) :
    (listSegments directory).Pairwise fun left right => left.1 < right.1 := by
  cases stored with
  | none => exact List.Pairwise.nil
  | @some full kept tail nonempty _ torn =>
      rw [List.length_append] at bound
      have canonical : Canonical (layout crc full (frames crc (sealedCount full) kept ++ tail)) :=
        canonical_layout nonempty (by rw [sealedCount]; omega)
      rw [canonical.listSegments_files]
      exact canonical.increasing

/-- A stored log is read alike whatever the search has found. -/
theorem Stored.readFound_eq {directory : Directory} (stored : Stored crc directory payloads)
    (bound : payloads.length < 2 ^ 64) (state : σ) {found : Except Nat Nat}
    (searched : Searched ((listSegments directory).map Prod.fst) startSequence found) :
    readFound crc callback startSequence found directory state =
      readFrom crc callback startSequence directory state := by
  rw [readFound, readFrom, startIdx_eq (stored.increasing bound) searched]

/-- What is on disk, with or without what a writer has in its buffer, is a stored log. -/
theorem Related.stored {state : WalState} {log : DurableLog} (related : Related crc state log)
    (bound : log.payloads.length < 2 ^ 64) {directory : Directory}
    (produced : directory = state.directory ∨ directory = state.close) :
    ∃ found, Stored crc directory found ∧ found.length < 2 ^ 64 := by
  rcases produced with rfl | rfl
  · cases related with
    | @closed directory payloads log stored persists =>
        exact ⟨payloads, stored, lt_of_le_of_lt persists.isPrefix.length_le bound⟩
    | @live directory writer log holds =>
        obtain ⟨full, kept, buffered, live, payloads, -⟩ := holds
        rw [payloads, ← List.append_assoc, List.length_append] at bound
        have sizes := live.sizes
        rw [← List.append_assoc] at sizes
        refine ⟨full.flatten ++ kept, ?_, by omega⟩
        rw [live.directory, ← List.append_nil (frames _ _ _)]
        exact .some live.nonempty (List.forall_mem_append.1 sizes).1 TornTail.nil
  · obtain ⟨found, stored, persists⟩ := related.close bound
    exact ⟨found, stored, lt_of_le_of_lt persists.isPrefix.length_le bound⟩

/-- However a log came about, reading it from a sequence number delivers the records of a read
from the beginning that have at least that number, in their order, and counts them, whatever
its search of the names finds.  This holds for the files as they are, and as they are once the
writer's buffer is written out. -/
theorem reads_suffix (crc : Checksum) (inputs : List WalInput) (few : inputs.length < 2 ^ 64)
    (startSequence : Nat) :
    ∀ directory ∈ [(run (WalState.step crc) .initial inputs).1.directory,
        (run (WalState.step crc) .initial inputs).1.close],
      ∃ records, readFrom crc collect 0 directory [] =
          (⟨records, records.length⟩, .ok records.length) ∧
        readFrom crc collect startSequence directory [] =
          (⟨records.filter fun record => startSequence ≤ record.1,
              (records.filter fun record => startSequence ≤ record.1).length⟩,
            .ok (records.filter fun record => startSequence ≤ record.1).length) ∧
        ∀ found, Searched ((listSegments directory).map Prod.fst) startSequence found →
          readFound crc collect startSequence found directory [] =
            readFrom crc collect startSequence directory [] := by
  intro directory produced
  obtain ⟨log, -, related, count⟩ := related_run inputs few
  obtain ⟨found, stored, bound⟩ := related.stored (lt_of_le_of_lt count few)
    (by simpa using produced)
  refine ⟨numbered 0 found, ?_, ?_, fun _ searched => stored.readFound_eq bound [] searched⟩
  · rw [stored.readFrom_seek bound, recordsFrom_zero, deliver_collect, List.nil_append,
      Nat.zero_add]
  · rw [stored.readFrom_seek bound, deliver_collect, List.nil_append, Nat.zero_add]
    rfl

/-- Two records fill a segment, the log is opened again on the full one, and the last record is
still in the buffer. -/
def seekInputs : List WalInput :=
  [.open ⟨34, 8⟩, .append [1], .append [2], .append [3], .open ⟨17, 8⟩, .append [4]]

/-- The search finds the name of the second segment. -/
theorem searched_seekInputs :
    Searched ((listSegments (run (WalState.step crc32) .initial seekInputs).1.close).map Prod.fst)
      2 (.ok 1) := by
  have names : ((listSegments (run (WalState.step crc32) .initial seekInputs).1.close).map
      Prod.fst)[1]? = some 2 := by decide +kernel
  exact names

theorem reads_suffix_seekInputs :
    (∃ records, readFrom crc32 collect 0
          (run (WalState.step crc32) .initial seekInputs).1.directory [] =
          (⟨records, records.length⟩, .ok records.length) ∧
        readFrom crc32 collect 2
            (run (WalState.step crc32) .initial seekInputs).1.directory [] =
          (⟨records.filter fun record => 2 ≤ record.1,
              (records.filter fun record => 2 ≤ record.1).length⟩,
            .ok (records.filter fun record => 2 ≤ record.1).length)) ∧
      ∃ records, readFrom crc32 collect 0
          (run (WalState.step crc32) .initial seekInputs).1.close [] =
          (⟨records, records.length⟩, .ok records.length) ∧
        readFound crc32 collect 2 (.ok 1)
            (run (WalState.step crc32) .initial seekInputs).1.close [] =
          (⟨records.filter fun record => 2 ≤ record.1,
              (records.filter fun record => 2 ≤ record.1).length⟩,
            .ok (records.filter fun record => 2 ≤ record.1).length) := by
  have suffix := reads_suffix crc32 seekInputs (by decide) 2
  obtain ⟨early, earlyWhole, earlySuffix, -⟩ := suffix _ List.mem_cons_self
  obtain ⟨records, whole, late, search⟩ := suffix _ (List.mem_cons_of_mem _ List.mem_cons_self)
  exact ⟨⟨early, earlyWhole, earlySuffix⟩, records, whole,
    (search _ searched_seekInputs).trans late⟩

end Seeking
end Exg.Wal
