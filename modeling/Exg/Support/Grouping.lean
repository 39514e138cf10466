import Mathlib.Data.List.Induction
import Mathlib.Data.List.Nodup
import Mathlib.Data.List.Perm.Basic
import Mathlib.Tactic.Common
import Std.Data.ExtTreeMap

/-!
# Grouping a list by a key

A map from keys to the items that have them, in their order, built by pushing one item after the
other.  What is produced group by group, in whatever order the groups come, can be taken apart
again by the key.
-/

namespace Support

section Grouping

variable {κ α β ω : Type} {cmp : κ → κ → Ordering} [Std.TransCmp cmp]

/-- Collect entries into a map: a later entry replaces an earlier one with the same key. -/
def collectMap (cmp : κ → κ → Ordering) [Std.TransCmp cmp] (entries : List (κ × β)) :
    Std.ExtTreeMap κ β cmp :=
  entries.foldl (fun collected entry => collected.insert entry.1 entry.2) ∅

/-- Push each item to the list of its key. -/
def groupBy (cmp : κ → κ → Ordering) [Std.TransCmp cmp] (key : α → κ) (items : List α) :
    Std.ExtTreeMap κ (List α) cmp :=
  items.foldl
    (fun groups item => groups.insert (key item) (groups.getD (key item) [] ++ [item])) ∅

theorem distinct_keys (map : Std.ExtTreeMap κ β cmp) : (map.toList.map Prod.fst).Nodup := by
  rw [List.nodup_iff_pairwise_ne, List.pairwise_map]
  refine (Std.ExtTreeMap.distinct_keys_toList (t := map)).imp fun apart same => apart ?_
  rw [same]
  exact Std.ReflCmp.compare_self

variable [Std.LawfulEqCmp cmp] [DecidableEq κ]

theorem mem_of_collectMap {entries : List (κ × β)} {key : κ} {value : β}
    (found : (collectMap cmp entries)[key]? = some value) : (key, value) ∈ entries := by
  induction entries using List.reverseRecOn with
  | nil => simp [collectMap] at found
  | append_singleton before entry inductionHypothesis =>
      rw [collectMap, List.foldl_concat, Std.ExtTreeMap.getElem?_insert] at found
      rw [List.mem_append, List.mem_singleton]
      by_cases same : entry.1 = key
      · rw [if_pos (Std.LawfulEqCmp.compare_eq_iff_eq.2 same)] at found
        exact Or.inr (Prod.ext same.symm (Option.some.inj found).symm)
      · rw [if_neg fun equal => same (Std.LawfulEqCmp.compare_eq_iff_eq.1 equal)] at found
        exact Or.inl (inductionHypothesis found)

/-- The items of a key. -/
def itemsOf (key : α → κ) (items : List α) (wanted : κ) : List α :=
  items.filter fun item => decide (key item = wanted)

theorem getElem?_groupBy (key : α → κ) (items : List α) (wanted : κ) :
    (groupBy cmp key items)[wanted]? =
      if itemsOf key items wanted = [] then none else some (itemsOf key items wanted) := by
  induction items using List.reverseRecOn with
  | nil => simp [groupBy, itemsOf]
  | append_singleton before item inductionHypothesis =>
      have step : groupBy cmp key (before ++ [item]) = (groupBy cmp key before).insert (key item)
          ((groupBy cmp key before).getD (key item) [] ++ [item]) := List.foldl_concat _ _ _ _
      rw [step, Std.ExtTreeMap.getElem?_insert, itemsOf, List.filter_append]
      by_cases same : key item = wanted
      · have before : (groupBy cmp key before).getD wanted [] = itemsOf key before wanted := by
          rw [Std.ExtTreeMap.getD_eq_getD_getElem?, inductionHypothesis]
          split
          · rename_i none
            exact none.symm
          · rfl
        rw [if_pos (Std.LawfulEqCmp.compare_eq_iff_eq.2 same), same, before]
        simp [itemsOf, same]
      · rw [if_neg fun equal => same (Std.LawfulEqCmp.compare_eq_iff_eq.1 equal),
          inductionHypothesis]
        simp [itemsOf, same]

/-- The groups are the items of the keys that there are. -/
theorem mem_groups_iff {key : α → κ} {items : List α} {entry : κ × List α} :
    entry ∈ (groupBy cmp key items).toList ↔
      entry.2 = itemsOf key items entry.1 ∧ itemsOf key items entry.1 ≠ [] := by
  rw [Std.ExtTreeMap.mem_toList_iff_getElem?_eq_some, getElem?_groupBy]
  split
  · rename_i none
    simp [none]
  · rename_i some
    rw [Option.some.injEq, and_iff_left some, eq_comm]

/-! ## Taking apart by key what is produced group by group -/

section Produced

variable {produce : κ × β → List ω} {tag : ω → κ} {groups : List (κ × β)} {wanted : κ}

theorem itemsOf_flatMap_of_absent
    (tagged : ∀ entry ∈ groups, ∀ out ∈ produce entry, tag out = entry.1)
    (absent : wanted ∉ groups.map Prod.fst) :
    itemsOf tag (groups.flatMap produce) wanted = [] := by
  apply List.filter_eq_nil_iff.2
  intro out member
  obtain ⟨entry, inGroups, produced⟩ := List.mem_flatMap.1 member
  rw [decide_eq_true_iff, tagged entry inGroups out produced]
  exact fun same => absent (List.mem_map.2 ⟨entry, inGroups, same⟩)

theorem itemsOf_flatMap_of_mem (distinct : (groups.map Prod.fst).Nodup)
    (tagged : ∀ entry ∈ groups, ∀ out ∈ produce entry, tag out = entry.1) {value : β}
    (member : (wanted, value) ∈ groups) :
    itemsOf tag (groups.flatMap produce) wanted = produce (wanted, value) := by
  induction groups with
  | nil => cases member
  | cons first rest inductionHypothesis =>
      rw [List.map_cons, List.nodup_cons] at distinct
      have others : ∀ entry ∈ rest, ∀ out ∈ produce entry, tag out = entry.1 :=
        fun entry inRest => tagged entry (List.mem_cons_of_mem first inRest)
      have own := tagged first List.mem_cons_self
      rw [List.flatMap_cons, itemsOf, List.filter_append]
      rcases List.mem_cons.1 member with rfl | inRest
      · have later := itemsOf_flatMap_of_absent others distinct.1
        rw [itemsOf] at later
        rw [later, List.append_nil]
        exact List.filter_eq_self.2 fun out produced => decide_eq_true (own out produced)
      · have apart : first.1 ≠ wanted := by
          rintro rfl
          exact distinct.1 (List.mem_map.2 ⟨_, inRest, rfl⟩)
        have none : (produce first).filter (fun out => decide (tag out = wanted)) = [] := by
          apply List.filter_eq_nil_iff.2
          intro out produced
          rw [decide_eq_true_iff, own out produced]
          exact apart
        rw [none, List.nil_append]
        exact inductionHypothesis distinct.2 others inRest

end Produced

/-- What the groups of a list produce for one key, in whatever order the groups come. -/
theorem itemsOf_groups {key : α → κ} {items : List α} {groups : List (κ × List α)}
    (perm : groups.Perm (groupBy cmp key items).toList) {produce : κ × List α → List ω}
    {tag : ω → κ} (tagged : ∀ entry, ∀ out ∈ produce entry, tag out = entry.1)
    (nothing : ∀ wanted, produce (wanted, []) = []) (wanted : κ) :
    itemsOf tag (groups.flatMap produce) wanted = produce (wanted, itemsOf key items wanted) := by
  have distinct : (groups.map Prod.fst).Nodup :=
    ((perm.map Prod.fst).nodup_iff).2 (distinct_keys _)
  by_cases empty : itemsOf key items wanted = []
  · rw [empty, nothing]
    refine itemsOf_flatMap_of_absent (fun entry _ => tagged entry) fun found => ?_
    obtain ⟨entry, inGroups, rfl⟩ := List.mem_map.1 found
    exact (mem_groups_iff.1 (perm.mem_iff.1 inGroups)).2 empty
  · exact itemsOf_flatMap_of_mem distinct (fun entry _ => tagged entry)
      (perm.mem_iff.2 (mem_groups_iff.2 ⟨rfl, empty⟩))

end Grouping

end Support
