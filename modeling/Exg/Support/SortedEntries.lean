import Mathlib.Data.List.Sort
import Std.Data.ExtTreeMap
import Mathlib.Tactic.Common

/-!
# Sorted lists of entries

A finite map listed in the order of its keys, and the two changes that keep such a list sorted:
setting an entry and removing one.  A listing is fixed by the lookups of the map.
-/

namespace Support

universe u v

variable {κ : Type u} {β : Type v} {cmp : κ → κ → Ordering}

/-- Put an entry in its place, over the one with its key if there is one. -/
def setEntry (cmp : κ → κ → Ordering) (key : κ) (value : β) : List (κ × β) → List (κ × β)
  | [] => [(key, value)]
  | entry :: rest =>
      match cmp key entry.1 with
      | .lt => (key, value) :: entry :: rest
      | .eq => (key, value) :: rest
      | .gt => entry :: setEntry cmp key value rest

/-- Take the entry with a key out, if there is one. -/
def removeEntry (cmp : κ → κ → Ordering) (key : κ) (entries : List (κ × β)) : List (κ × β) :=
  entries.filter fun entry => cmp key entry.1 ≠ .eq

/-- The keys rise. -/
def KeysRise (cmp : κ → κ → Ordering) (entries : List (κ × β)) : Prop :=
  entries.Pairwise fun first second => cmp first.1 second.1 = .lt

section Sorted

variable [Std.TransCmp cmp] [Std.LawfulEqCmp cmp]
variable {entries other : List (κ × β)} {key : κ} {value : β}

omit [Std.LawfulEqCmp cmp] in
theorem ne_of_before {first second : κ} (before : cmp first second = .lt) : first ≠ second := by
  rintro rfl
  have self : cmp first first = .eq := Std.ReflCmp.compare_self
  rw [self] at before
  exact absurd before (by decide)

theorem mem_setEntry (rise : KeysRise cmp entries) {entry : κ × β} :
    entry ∈ setEntry cmp key value entries ↔
      entry = (key, value) ∨ (entry.1 ≠ key ∧ entry ∈ entries) := by
  induction entries with
  | nil => simp [setEntry]
  | cons head rest inductionHypothesis =>
      obtain ⟨headKey, headValue⟩ := head
      have later := inductionHypothesis rise.of_cons
      rw [setEntry]
      cases order : cmp key headKey with
      | lt =>
          have apart : ∀ tested ∈ (headKey, headValue) :: rest, tested.1 ≠ key := by
            intro tested member
            have before : cmp key tested.1 = .lt := by
              rcases List.mem_cons.1 member with rfl | inRest
              · exact order
              · exact Std.TransCmp.lt_trans order (List.rel_of_pairwise_cons rise inRest)
            exact (ne_of_before before).symm
          rw [List.mem_cons]
          exact or_congr_right (and_iff_right_of_imp (apart entry)).symm
      | eq =>
          have same : key = headKey := Std.LawfulEqCmp.eq_of_compare order
          subst same
          rw [List.mem_cons, List.mem_cons]
          refine or_congr_right ⟨fun member => ⟨?_, Or.inr member⟩, ?_⟩
          · exact (ne_of_before (List.rel_of_pairwise_cons rise member)).symm
          · rintro ⟨apart, rfl | member⟩
            · exact absurd rfl apart
            · exact member
      | gt =>
          have apart : headKey ≠ key := ne_of_before (Std.OrientedCmp.lt_of_gt order)
          rw [List.mem_cons, later, List.mem_cons, or_left_comm, and_or_left]
          refine or_congr_right (or_congr_left (and_iff_right_of_imp ?_).symm)
          rintro rfl
          exact apart

theorem keysRise_setEntry (rise : KeysRise cmp entries) :
    KeysRise cmp (setEntry cmp key value entries) := by
  induction entries with
  | nil => exact List.pairwise_singleton _ _
  | cons head rest inductionHypothesis =>
      have later := inductionHypothesis rise.of_cons
      rw [setEntry]
      cases order : cmp key head.1 with
      | lt =>
          refine List.Pairwise.cons (fun tested member => ?_) rise
          rcases List.mem_cons.1 member with rfl | inRest
          · exact order
          · exact Std.TransCmp.lt_trans order (List.rel_of_pairwise_cons rise inRest)
      | eq =>
          refine List.Pairwise.cons (fun tested member => ?_) rise.of_cons
          rw [Std.LawfulEqCmp.eq_of_compare order]
          exact List.rel_of_pairwise_cons rise member
      | gt =>
          refine List.Pairwise.cons (fun tested member => ?_) later
          rcases (mem_setEntry rise.of_cons).1 member with rfl | ⟨-, inRest⟩
          · exact Std.OrientedCmp.lt_of_gt order
          · exact List.rel_of_pairwise_cons rise inRest

omit [Std.TransCmp cmp] in
theorem mem_removeEntry {entry : κ × β} :
    entry ∈ removeEntry cmp key entries ↔ entry.1 ≠ key ∧ entry ∈ entries := by
  rw [removeEntry, List.mem_filter, and_comm, decide_eq_true_eq, ne_eq,
    Std.LawfulEqCmp.compare_eq_iff_eq, ne_comm]

omit [Std.TransCmp cmp] [Std.LawfulEqCmp cmp] in
theorem KeysRise.removeEntry (rise : KeysRise cmp entries) :
    KeysRise cmp (removeEntry cmp key entries) :=
  List.Pairwise.filter _ rise

end Sorted

/-! ## Listings -/

/-- A sorted list of all entries that lookups find. -/
structure Lists (cmp : κ → κ → Ordering) (entries : List (κ × β)) (lookup : κ → Option β) :
    Prop where
  rise : KeysRise cmp entries
  mem_iff : ∀ key value, (key, value) ∈ entries ↔ lookup key = some value

section Lists

variable [Std.TransCmp cmp] [Std.LawfulEqCmp cmp]
variable {entries other : List (κ × β)} {lookup : κ → Option β} {key : κ} {value : β}

omit [Std.LawfulEqCmp cmp] in
/-- There is one listing. -/
theorem Lists.unique (lists : Lists cmp entries lookup) (listsToo : Lists cmp other lookup) :
    entries = other := by
  let before (first second : κ × β) : Prop := cmp first.1 second.1 = .lt
  have irreflexive : Std.Irrefl before := ⟨fun entry selfBefore => ne_of_before selfBefore rfl⟩
  have antisymmetric : Std.Antisymm before := ⟨fun first second forth back =>
    absurd rfl (ne_of_before (Std.TransCmp.lt_trans forth back))⟩
  refine List.Pairwise.eq_of_mem_iff (r := before) lists.rise listsToo.rise fun entry => ?_
  exact (lists.mem_iff entry.1 entry.2).trans (listsToo.mem_iff entry.1 entry.2).symm

theorem Lists.setEntry [DecidableEq κ] (lists : Lists cmp entries lookup) :
    Lists cmp (setEntry cmp key value entries)
      fun tested => if key = tested then some value else lookup tested where
  rise := keysRise_setEntry lists.rise
  mem_iff tested found := by
    rw [mem_setEntry lists.rise, lists.mem_iff, Prod.mk.injEq]
    by_cases same : key = tested
    · subst same
      simp [eq_comm]
    · simp [same, Ne.symm same]

omit [Std.TransCmp cmp] in
theorem Lists.removeEntry [DecidableEq κ] (lists : Lists cmp entries lookup) :
    Lists cmp (removeEntry cmp key entries)
      fun tested => if key = tested then none else lookup tested where
  rise := lists.rise.removeEntry
  mem_iff tested found := by
    rw [mem_removeEntry, lists.mem_iff]
    by_cases same : key = tested
    · subst same
      simp
    · simp [same, Ne.symm same]

omit [Std.TransCmp cmp] [Std.LawfulEqCmp cmp] in
theorem Lists.reverse {flipped : κ → κ → Ordering} (lists : Lists cmp entries lookup)
    (flips : ∀ first second, flipped first second = cmp second first) :
    Lists flipped entries.reverse lookup where
  rise := by
    rw [KeysRise, List.pairwise_reverse]
    refine List.Pairwise.imp (fun before => ?_) lists.rise
    rw [flips]
    exact before
  mem_iff key value := by rw [List.mem_reverse, lists.mem_iff]

theorem lists_toList (map : Std.ExtTreeMap κ β cmp) :
    Lists cmp map.toList fun key => map[key]? where
  rise := Std.ExtTreeMap.ordered_keys_toList
  mem_iff _ _ := Std.ExtTreeMap.mem_toList_iff_getElem?_eq_some

end Lists
end Support
