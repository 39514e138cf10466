import Mathlib.Algebra.BigOperators.Group.List.Basic
import Mathlib.Data.List.Perm.Basic
import Mathlib.Data.List.Nodup
import Mathlib.Algebra.Order.BigOperators.Group.List
import Mathlib.Algebra.Order.Group.Abs
import Std.Data.ExtTreeMap
import Mathlib.Tactic.Abel
import Mathlib.Tactic.Common

/-!
# Totals over a map

The sum of a measure over the entries of a finite map, and what inserting or erasing an
entry does to it.  Both are stated without subtraction, so that they hold in every
commutative monoid.
-/

namespace Support

universe u v w

variable {κ : Type u} {β : Type v} {M : Type w} {cmp : κ → κ → Ordering}
variable [Std.TransCmp cmp]

section Total

variable [AddCommMonoid M]

/-- The sum of a measure over all entries. -/
def mapTotal (measure : κ → β → M) (entries : Std.ExtTreeMap κ β cmp) : M :=
  (entries.toList.map fun entry => measure entry.1 entry.2).sum

@[simp]
theorem mapTotal_empty (measure : κ → β → M) :
    mapTotal measure (∅ : Std.ExtTreeMap κ β cmp) = 0 := by
  simp [mapTotal, Std.ExtTreeMap.toList_eq_nil_iff.2 rfl]

end Total

theorem nodup_toList (entries : Std.ExtTreeMap κ β cmp) : entries.toList.Nodup := by
  refine List.Pairwise.imp ?_ (Std.ExtTreeMap.distinct_keys_toList (t := entries))
  intro first second apart same
  subst same
  exact apart Std.ReflCmp.compare_self

/-- The other entries of a map. -/
def othersOf [DecidableEq κ] (entries : Std.ExtTreeMap κ β cmp) (key : κ) : List (κ × β) :=
  entries.toList.filter fun entry => entry.1 ≠ key

section Entries

variable [Std.LawfulEqCmp cmp] [DecidableEq κ] (entries : Std.ExtTreeMap κ β cmp) (key : κ)

theorem toList_perm_others :
    entries.toList.Perm ((entries[key]?.map fun value => (key, value)).toList ++
      othersOf entries key) := by
  have nodup := nodup_toList entries
  refine (List.perm_ext_iff_of_nodup nodup ?_).2 ?_
  · refine List.nodup_append.2 ⟨?_, nodup.filter _, ?_⟩
    · cases entries[key]? <;> simp
    · intro first own second other same
      obtain ⟨value, -, rfl⟩ : ∃ value, entries[key]? = some value ∧ (key, value) = first := by
        simpa using own
      subst same
      simp [othersOf] at other
  · rintro ⟨other, value⟩
    by_cases same : other = key
    · subst same
      simp [othersOf]
    · simp [othersOf, same, Ne.symm same]

theorem othersOf_insert (value : β) :
    (othersOf (entries.insert key value) key).Perm (othersOf entries key) := by
  refine (List.perm_ext_iff_of_nodup ((nodup_toList _).filter _) ((nodup_toList _).filter _)).2 ?_
  rintro ⟨other, stored⟩
  by_cases same : other = key
  · simp [same]
  · simp [same, Std.ExtTreeMap.getElem?_insert, Ne.symm same]

theorem othersOf_erase :
    (othersOf (entries.erase key) key).Perm (othersOf entries key) := by
  refine (List.perm_ext_iff_of_nodup ((nodup_toList _).filter _) ((nodup_toList _).filter _)).2 ?_
  rintro ⟨other, stored⟩
  by_cases same : other = key
  · simp [same]
  · simp [same, Std.ExtTreeMap.getElem?_erase, Ne.symm same]

end Entries

variable [Std.LawfulEqCmp cmp] [DecidableEq κ] [AddCommMonoid M]
variable (measure : κ → β → M) (entries : Std.ExtTreeMap κ β cmp) (key : κ)

/-- One entry of the sum, taken out. -/
theorem mapTotal_split :
    mapTotal measure entries =
      entries[key]?.elim 0 (measure key) +
        ((othersOf entries key).map fun entry => measure entry.1 entry.2).sum := by
  rw [mapTotal, ((toList_perm_others entries key).map _).sum_eq, List.map_append, List.sum_append]
  cases entries[key]? <;> simp

theorem mapTotal_insert (value : β) :
    mapTotal measure (entries.insert key value) + entries[key]?.elim 0 (measure key) =
      mapTotal measure entries + measure key value := by
  rw [mapTotal_split measure (entries.insert key value) key, mapTotal_split measure entries key,
    ((othersOf_insert entries key value).map _).sum_eq]
  simp only [Std.ExtTreeMap.getElem?_insert_self, Option.elim_some]
  abel

theorem mapTotal_erase :
    mapTotal measure (entries.erase key) + entries[key]?.elim 0 (measure key) =
      mapTotal measure entries := by
  rw [mapTotal_split measure (entries.erase key) key, mapTotal_split measure entries key,
    ((othersOf_erase entries key).map _).sum_eq]
  simp [add_comm]

/-! ## Differences -/

section Differences

variable {G : Type w} [AddCommGroup G] (change : κ → β → G)

theorem mapTotal_insert_eq (value : β) :
    mapTotal change (entries.insert key value) =
      mapTotal change entries + (change key value - entries[key]?.elim 0 (change key)) := by
  rw [← add_sub_assoc]
  exact eq_sub_of_add_eq (mapTotal_insert change entries key value)

theorem mapTotal_erase_eq :
    mapTotal change (entries.erase key) =
      mapTotal change entries - entries[key]?.elim 0 (change key) :=
  eq_sub_of_add_eq (mapTotal_erase change entries key)

omit [Std.LawfulEqCmp cmp] [DecidableEq κ] in
theorem mapTotal_sub (first second : κ → β → G) :
    mapTotal (fun key value => first key value - second key value) entries =
      mapTotal first entries - mapTotal second entries := by
  simp only [mapTotal]
  induction entries.toList with
  | nil => simp
  | cons entry rest inductionHypothesis =>
      simp only [List.map_cons, List.sum_cons, inductionHypothesis, add_sub_add_comm]

end Differences

/-! ## Errors -/

section Errors

variable {G : Type w} [AddCommGroup G] [LinearOrder G] [IsOrderedAddMonoid G] {error : G}

theorem abs_sum_sub_sum_le {α : Type u} {first second : α → G} {entries : List α}
    (near : ∀ entry ∈ entries, |first entry - second entry| ≤ error) :
    |(entries.map first).sum - (entries.map second).sum| ≤ entries.length • error := by
  induction entries with
  | nil => simp
  | cons entry rest inductionHypothesis =>
      have here := near entry List.mem_cons_self
      have there := inductionHypothesis fun other member =>
        near other (List.mem_cons_of_mem entry member)
      rw [List.map_cons, List.map_cons, List.sum_cons, List.sum_cons, add_sub_add_comm,
        List.length_cons, succ_nsmul']
      exact (abs_add_le _ _).trans (add_le_add here there)

omit [DecidableEq κ] in
/-- Measures that differ by at most an error have totals that differ by at most it for each
entry. -/
theorem abs_mapTotal_sub_le {first second : κ → β → G}
    (near : ∀ key value, entries[key]? = some value →
      |first key value - second key value| ≤ error) :
    |mapTotal first entries - mapTotal second entries| ≤ entries.size • error := by
  rw [← Std.ExtTreeMap.length_toList]
  refine abs_sum_sub_sum_le fun entry member => near entry.1 entry.2 ?_
  exact Std.ExtTreeMap.mem_toList_iff_getElem?_eq_some.1 member

end Errors
end Support
