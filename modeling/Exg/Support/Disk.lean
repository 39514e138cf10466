import Mathlib.Data.List.Basic
import Mathlib.Data.List.Nodup
import Mathlib.Tactic.Common

/-!
# Files and power losses

A directory is a list of names with the files that they stand for.  A change of the directory
is pending until the directory is synced, and the bytes of a file are until the file is: a
power loss keeps any of the pending changes, in their order, and leaves anything in a file
that is not synced.

Some names are published.  A disk is tidy when, whatever a power loss keeps, a published name
stands for a synced file, and a file that is still written to has no published name.
-/

namespace Support

universe u v

/-- The names of a directory and the files that they stand for. -/
abbrev Entries (ν : Type u) := List (ν × Nat)

/-- A change of a directory. -/
inductive DirOp (ν : Type u) where
  | link (name : ν) (file : Nat)
  | move (source target : ν) (file : Nat)
  | unlink (name : ν)

structure Disk (ν : Type u) (α : Type v) where
  /-- The directory without the pending changes. -/
  stable : Entries ν
  pending : List (DirOp ν)
  bytes : Nat → List α
  /-- The file has been synced since it was last written to. -/
  durable : Nat → Bool
  /-- The number of the next new file. -/
  fresh : Nat

/-- What a program asks of the file system. -/
inductive FileOp (ν : Type u) (α : Type v) where
  | create (name : ν)
  | append (name : ν) (bytes : List α)
  | sync (name : ν)
  | rename (source target : ν)
  | syncDirectory
  | remove (name : ν)

/-- What a power loss keeps: which of the pending changes, by their position, and what it
leaves in a file that is not synced. -/
structure PowerLoss (α : Type v) where
  survives : Nat → Bool
  left : Nat → List α

variable {ν : Type u} {α : Type v}

section Operations

variable [DecidableEq ν]

def without (entries : Entries ν) (name : ν) : Entries ν :=
  entries.filter fun entry => entry.1 ≠ name

def DirOp.apply (entries : Entries ν) : DirOp ν → Entries ν
  | .link name file => (name, file) :: without entries name
  | .move source target file => (target, file) :: without (without entries source) target
  | .unlink name => without entries name

def keptOps (survives : Nat → Bool) (ops : List (DirOp ν)) : List (DirOp ν) :=
  (ops.zipIdx.filter fun entry => survives entry.2).map Prod.fst

namespace Disk

/-- The directory after some of the pending changes. -/
def outcome (disk : Disk ν α) (ops : List (DirOp ν)) : Entries ν :=
  ops.foldl DirOp.apply disk.stable

def visible (disk : Disk ν α) : Entries ν := disk.outcome disk.pending

def fileAt (disk : Disk ν α) (name : ν) : Option Nat := disk.visible.lookup name

def push (disk : Disk ν α) (op : DirOp ν) : Disk ν α :=
  { disk with pending := disk.pending ++ [op] }

def store (disk : Disk ν α) (file : Nat) (bytes : List α) (durable : Bool) : Disk ν α :=
  { disk with
    bytes := fun other => if other = file then bytes else disk.bytes other
    durable := fun other => if other = file then durable else disk.durable other }

/-- A new file under a name. -/
def link (disk : Disk ν α) (name : ν) : Disk ν α :=
  { (disk.store disk.fresh [] false).push (.link name disk.fresh) with fresh := disk.fresh + 1 }

def settle (disk : Disk ν α) : Disk ν α := { disk with stable := disk.visible, pending := [] }

/-- One operation of a program.  Creating a file truncates one that has the name. -/
def perform (disk : Disk ν α) : FileOp ν α → Disk ν α
  | .create name =>
      match disk.fileAt name with
      | some file => disk.store file [] false
      | none => disk.link name
  | .append name bytes =>
      match disk.fileAt name with
      | some file => disk.store file (disk.bytes file ++ bytes) false
      | none => disk
  | .sync name =>
      match disk.fileAt name with
      | some file => disk.store file (disk.bytes file) true
      | none => disk
  | .rename source target =>
      match disk.fileAt source with
      | some file => disk.push (.move source target file)
      | none => disk
  | .syncDirectory => disk.settle
  | .remove name => if (disk.fileAt name).isSome then disk.push (.unlink name) else disk

def powerLoss (disk : Disk ν α) (loss : PowerLoss α) : Disk ν α where
  stable := disk.outcome (keptOps loss.survives disk.pending)
  pending := []
  bytes file := if disk.durable file then disk.bytes file else loss.left file
  durable _ := true
  fresh := disk.fresh

end Disk
end Operations

/-! ## Directories -/

section Directories

variable {entries : Entries ν} {name : ν} {file : Nat}

/-- No two names are the same, and no two names stand for the same file. -/
structure Distinct (entries : Entries ν) : Prop where
  names : (entries.map Prod.fst).Nodup
  files : (entries.map Prod.snd).Nodup

theorem Distinct.cons (distinct : Distinct entries) (newName : ∀ entry ∈ entries, entry.1 ≠ name)
    (newFile : ∀ entry ∈ entries, entry.2 ≠ file) : Distinct ((name, file) :: entries) where
  names := by
    refine List.nodup_cons.2 ⟨?_, distinct.names⟩
    intro member
    obtain ⟨entry, inside, same⟩ := List.mem_map.1 member
    exact newName entry inside same
  files := by
    refine List.nodup_cons.2 ⟨?_, distinct.files⟩
    intro member
    obtain ⟨entry, inside, same⟩ := List.mem_map.1 member
    exact newFile entry inside same

theorem Distinct.name_unique (distinct : Distinct entries) {first second : ν × Nat}
    (left : first ∈ entries) (right : second ∈ entries) (same : first.1 = second.1) :
    first = second :=
  List.inj_on_of_nodup_map distinct.names left right same

theorem Distinct.file_unique (distinct : Distinct entries) {first second : ν × Nat}
    (left : first ∈ entries) (right : second ∈ entries) (same : first.2 = second.2) :
    first = second :=
  List.inj_on_of_nodup_map distinct.files left right same

variable [DecidableEq ν]

@[simp]
theorem mem_without {entry : ν × Nat} :
    entry ∈ without entries name ↔ entry ∈ entries ∧ entry.1 ≠ name := by
  simp [without]

theorem Distinct.without (distinct : Distinct entries) (name : ν) :
    Distinct (without entries name) where
  names := distinct.names.sublist (List.filter_sublist.map Prod.fst)
  files := distinct.files.sublist (List.filter_sublist.map Prod.snd)

theorem mem_of_lookup (found : entries.lookup name = some file) : (name, file) ∈ entries := by
  obtain ⟨before, after, split, _⟩ := List.lookup_eq_some_iff.1 found
  rw [split]
  exact List.mem_append_right before List.mem_cons_self

theorem Distinct.lookup_iff (distinct : Distinct entries) :
    entries.lookup name = some file ↔ (name, file) ∈ entries := by
  refine ⟨mem_of_lookup, fun member => ?_⟩
  cases found : entries.lookup name with
  | none =>
      have absent := List.lookup_eq_none_iff.1 found _ member
      simp at absent
  | some other =>
      have same := distinct.name_unique (mem_of_lookup found) member rfl
      rw [(Prod.mk.inj same).2]

end Directories

/-! ## What a power loss may keep -/

section Outcomes

variable {op : DirOp ν}

theorem keptOps_sublist (survives : Nat → Bool) (ops : List (DirOp ν)) :
    List.Sublist (keptOps survives ops) ops := by
  have sublist := (List.filter_sublist (p := fun entry => survives entry.2)
    (l := ops.zipIdx)).map Prod.fst
  rwa [List.zipIdx_map_fst] at sublist

/-- A power loss keeps a new pending change or does not. -/
theorem forall_sublist_concat {motive : List (DirOp ν) → Prop} {pending : List (DirOp ν)} :
    (∀ ops, List.Sublist ops (pending ++ [op]) → motive ops) ↔
      ∀ ops, List.Sublist ops pending → motive ops ∧ motive (ops ++ [op]) := by
  constructor
  · intro every ops sublist
    exact ⟨every ops (sublist.trans (List.sublist_append_left _ _)),
      every _ (sublist.append (List.Sublist.refl _))⟩
  · intro every ops sublist
    obtain ⟨early, late, rfl, inside, single⟩ := List.sublist_append_iff.1 sublist
    cases List.sublist_singleton.1 single with
    | inl none =>
        rw [none, List.append_nil]
        exact (every early inside).1
    | inr kept =>
        rw [kept]
        exact (every early inside).2

end Outcomes

/-! ## Tidy disks -/

namespace Disk

section Tidy

variable [DecidableEq ν] (published : ν → Prop)

/-- Whatever a power loss keeps, the names and the files are distinct, every published name
stands for a synced file, and the file of a visible name that is not published has no other
name. -/
structure Tidy (disk : Disk ν α) : Prop where
  distinct : ∀ ops, List.Sublist ops disk.pending → Distinct (disk.outcome ops)
  known : ∀ ops, List.Sublist ops disk.pending → ∀ entry ∈ disk.outcome ops, entry.2 < disk.fresh
  durable : ∀ ops, List.Sublist ops disk.pending → ∀ entry ∈ disk.outcome ops,
    published entry.1 → disk.durable entry.2 = true
  drafts : ∀ draft ∈ disk.visible, ¬ published draft.1 → ∀ ops, List.Sublist ops disk.pending →
    ∀ entry ∈ disk.outcome ops, entry.2 = draft.2 → entry.1 = draft.1

variable {published} {disk : Disk ν α} {name source target : ν} {file : Nat}

theorem outcome_concat (disk : Disk ν α) (ops : List (DirOp ν)) (op : DirOp ν) :
    disk.outcome (ops ++ [op]) = op.apply (disk.outcome ops) := List.foldl_concat ..

theorem visible_push (disk : Disk ν α) (op : DirOp ν) :
    (disk.push op).visible = op.apply disk.visible := outcome_concat ..

theorem perform_rename (named : disk.fileAt source = some file) :
    disk.perform (.rename source target) = disk.push (.move source target file) := by
  simp only [perform, named]

theorem visible_link (disk : Disk ν α) (name : ν) :
    (disk.link name).visible = (name, disk.fresh) :: without disk.visible name :=
  visible_push (disk.store disk.fresh [] false) (.link name disk.fresh)

/-- No outcome has a published name for the file. -/
def Unpublished (published : ν → Prop) (disk : Disk ν α) (file : Nat) : Prop :=
  ∀ ops, List.Sublist ops disk.pending → ∀ entry ∈ disk.outcome ops,
    published entry.1 → entry.2 ≠ file

theorem Tidy.visible (tidy : Tidy published disk) : Distinct disk.visible :=
  tidy.distinct _ (List.Sublist.refl _)

theorem Tidy.fileAt_iff (tidy : Tidy published disk) :
    disk.fileAt name = some file ↔ (name, file) ∈ disk.visible := tidy.visible.lookup_iff

theorem Tidy.unpublished (tidy : Tidy published disk) (named : disk.fileAt name = some file)
    (draft : ¬ published name) : Unpublished published disk file := by
  intro ops sublist entry member isPublished same
  have name := tidy.drafts _ (tidy.fileAt_iff.1 named) draft ops sublist entry member same
  rw [name] at isPublished
  exact draft isPublished

theorem Tidy.unpublished_fresh (tidy : Tidy published disk) :
    Unpublished published disk disk.fresh := by
  intro ops sublist entry member _ same
  have known := tidy.known ops sublist entry member
  omega

theorem Tidy.store (tidy : Tidy published disk) (unpublished : Unpublished published disk file)
    (bytes : List α) (durable : Bool) : Tidy published (disk.store file bytes durable) where
  distinct := tidy.distinct
  known := tidy.known
  durable := by
    intro ops sublist entry member isPublished
    have other := unpublished ops sublist entry member isPublished
    have kept := tidy.durable ops sublist entry member isPublished
    simpa only [Disk.store, if_neg other] using kept
  drafts := tidy.drafts

theorem Tidy.link (tidy : Tidy published disk) (draft : ¬ published name) :
    Tidy published (disk.link name) where
  distinct := by
    refine forall_sublist_concat.2 fun ops sublist => ⟨tidy.distinct ops sublist, ?_⟩
    rw [outcome_concat]
    refine ((tidy.distinct ops sublist).without name).cons ?_ ?_
    · rintro entry member
      exact (mem_without.1 member).2
    · intro entry member
      exact Nat.ne_of_lt (tidy.known ops sublist entry (mem_without.1 member).1)
  known := by
    refine forall_sublist_concat.2 fun ops sublist => ⟨?_, ?_⟩
    · intro entry member
      exact Nat.lt_succ_of_lt (tidy.known ops sublist entry member)
    · rw [outcome_concat]
      intro entry member
      cases List.mem_cons.1 member with
      | inl new =>
          rw [new]
          exact Nat.lt_succ_self _
      | inr old => exact Nat.lt_succ_of_lt (tidy.known ops sublist entry (mem_without.1 old).1)
  durable := by
    have kept := (tidy.store tidy.unpublished_fresh [] false).durable
    refine forall_sublist_concat.2 fun ops sublist => ⟨kept ops sublist, ?_⟩
    rw [outcome_concat]
    intro entry member isPublished
    cases List.mem_cons.1 member with
    | inl new =>
        rw [new] at isPublished
        exact absurd isPublished draft
    | inr old => exact kept ops sublist entry (mem_without.1 old).1 isPublished
  drafts := by
    intro visible seen isDraft
    rw [visible_link, List.mem_cons, mem_without] at seen
    refine forall_sublist_concat.2 fun ops sublist => ⟨?_, ?_⟩
    · intro entry member same
      rcases seen with rfl | ⟨seen, _⟩
      · have known := tidy.known ops sublist entry member
        exact absurd same (Nat.ne_of_lt known)
      · exact tidy.drafts visible seen isDraft ops sublist entry member same
    · rw [outcome_concat]
      intro entry member same
      rcases List.mem_cons.1 member with rfl | old
      · rcases seen with rfl | ⟨seen, _⟩
        · rfl
        · have known := tidy.known _ (List.Sublist.refl _) visible seen
          exact absurd same.symm (Nat.ne_of_lt known)
      · rcases seen with rfl | ⟨seen, _⟩
        · have known := tidy.known ops sublist entry (mem_without.1 old).1
          exact absurd same (Nat.ne_of_lt known)
        · exact tidy.drafts visible seen isDraft ops sublist entry (mem_without.1 old).1 same

/-- A synced file with a name of its own is published by one change. -/
theorem Tidy.move (tidy : Tidy published disk) (named : disk.fileAt source = some file)
    (draft : ¬ published source) (synced : disk.durable file = true) (target : ν)
    (isPublished : published target) : Tidy published (disk.push (.move source target file)) where
  distinct := by
    refine forall_sublist_concat.2 fun ops sublist => ⟨tidy.distinct ops sublist, ?_⟩
    rw [outcome_concat]
    refine (((tidy.distinct ops sublist).without source).without target).cons ?_ ?_
    · intro entry member
      exact (mem_without.1 member).2
    · intro entry member same
      obtain ⟨inside, notSource⟩ := mem_without.1 (mem_without.1 member).1
      exact notSource (tidy.drafts _ (tidy.fileAt_iff.1 named) draft ops sublist entry inside same)
  known := by
    refine forall_sublist_concat.2 fun ops sublist => ⟨tidy.known ops sublist, ?_⟩
    rw [outcome_concat]
    intro entry member
    rcases List.mem_cons.1 member with rfl | old
    · have known := tidy.known _ (List.Sublist.refl _) _ (tidy.fileAt_iff.1 named)
      exact known
    · exact tidy.known ops sublist entry (mem_without.1 (mem_without.1 old).1).1
  durable := by
    refine forall_sublist_concat.2 fun ops sublist => ⟨tidy.durable ops sublist, ?_⟩
    rw [outcome_concat]
    intro entry member
    rcases List.mem_cons.1 member with rfl | old
    · exact fun _ => synced
    · exact tidy.durable ops sublist entry (mem_without.1 (mem_without.1 old).1).1
  drafts := by
    intro visible seen isDraft
    rw [visible_push] at seen
    rcases List.mem_cons.1 seen with rfl | seen
    · exact absurd isPublished isDraft
    · obtain ⟨seen, notSource⟩ := mem_without.1 (mem_without.1 seen).1
      have kept := tidy.drafts visible seen isDraft
      refine forall_sublist_concat.2 fun ops sublist => ⟨kept ops sublist, ?_⟩
      rw [outcome_concat]
      intro entry member same
      rcases List.mem_cons.1 member with rfl | old
      · have alone := tidy.visible.file_unique (tidy.fileAt_iff.1 named) seen same
        exact absurd (congrArg Prod.fst alone).symm notSource
      · exact kept ops sublist entry (mem_without.1 (mem_without.1 old).1).1 same

theorem Tidy.unlink (tidy : Tidy published disk) (name : ν) :
    Tidy published (disk.push (.unlink name)) where
  distinct := by
    refine forall_sublist_concat.2 fun ops sublist => ⟨tidy.distinct ops sublist, ?_⟩
    rw [outcome_concat]
    exact (tidy.distinct ops sublist).without name
  known := by
    refine forall_sublist_concat.2 fun ops sublist => ⟨tidy.known ops sublist, ?_⟩
    rw [outcome_concat]
    exact fun entry member => tidy.known ops sublist entry (mem_without.1 member).1
  durable := by
    refine forall_sublist_concat.2 fun ops sublist => ⟨tidy.durable ops sublist, ?_⟩
    rw [outcome_concat]
    exact fun entry member => tidy.durable ops sublist entry (mem_without.1 member).1
  drafts := by
    intro visible seen isDraft
    rw [visible_push] at seen
    have kept := tidy.drafts visible (mem_without.1 seen).1 isDraft
    refine forall_sublist_concat.2 fun ops sublist => ⟨kept ops sublist, ?_⟩
    rw [outcome_concat]
    exact fun entry member => kept ops sublist entry (mem_without.1 member).1

/-- A directory without pending changes is tidy as it is. -/
theorem Tidy.of_rested (rested : disk.pending = []) (distinct : Distinct disk.stable)
    (known : ∀ entry ∈ disk.stable, entry.2 < disk.fresh)
    (durable : ∀ entry ∈ disk.stable, published entry.1 → disk.durable entry.2 = true) :
    Tidy published disk := by
  have only : ∀ ops, List.Sublist ops disk.pending → disk.outcome ops = disk.stable := by
    intro ops sublist
    rw [rested] at sublist
    rw [List.sublist_nil.1 sublist]
    rfl
  refine ⟨?_, ?_, ?_, ?_⟩
  · intro ops sublist
    rw [only ops sublist]
    exact distinct
  · intro ops sublist
    rw [only ops sublist]
    exact known
  · intro ops sublist
    rw [only ops sublist]
    exact durable
  · intro visible seen _ ops sublist entry member same
    rw [only ops sublist] at member
    rw [Disk.visible, only _ (List.Sublist.refl _)] at seen
    rw [distinct.file_unique member seen same]

theorem Tidy.settle (tidy : Tidy published disk) : Tidy published disk.settle :=
  .of_rested rfl tidy.visible (tidy.known _ (List.Sublist.refl _))
    (tidy.durable _ (List.Sublist.refl _))

theorem Tidy.powerLoss (tidy : Tidy published disk) (loss : PowerLoss α) :
    Tidy published (disk.powerLoss loss) :=
  have kept := keptOps_sublist loss.survives disk.pending
  .of_rested rfl (tidy.distinct _ kept) (tidy.known _ kept) fun _ _ _ => rfl

end Tidy
end Disk
end Support
