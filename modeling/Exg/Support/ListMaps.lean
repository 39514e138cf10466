import Std.Data.ExtTreeMap
import Mathlib.Tactic.Common

/-!
# Maps of lists

A map from keys to lists of items indexes a relation when the list of a key has the related
items, each once, and no key has an empty list.  The operations append an item to the list of a
key and drop it again, with the key when nothing is left.
-/

namespace Support

universe u v

variable {κ : Type u} {α : Type v} {cmp : κ → κ → Ordering} [Std.TransCmp cmp]

/-- A map from keys to lists of items. -/
abbrev ListMap (κ : Type u) (α : Type v) (cmp : κ → κ → Ordering) :=
  Std.ExtTreeMap κ (List α) cmp

namespace ListMap

def itemsAt (map : ListMap κ α cmp) (key : κ) : List α := map[key]?.getD []

/-- Append an item to the list of a key. -/
def appendTo (map : ListMap κ α cmp) (key : κ) (item : α) : ListMap κ α cmp :=
  map.alter key fun items => some (items.getD [] ++ [item])

/-- Drop an item from the list of a key, and the key with an empty list. -/
def dropFrom [DecidableEq α] (map : ListMap κ α cmp) (key : κ) (item : α) : ListMap κ α cmp :=
  map.alter key fun items => items.bind fun items =>
    let kept := items.filter (· ≠ item)
    if kept.isEmpty then none else some kept

/-- The lists have the related items, each once, and none is empty. -/
structure Indexes (map : ListMap κ α cmp) (related : κ → α → Prop) : Prop where
  mem_iff : ∀ key item, item ∈ itemsAt map key ↔ related key item
  nodup : ∀ key, (itemsAt map key).Nodup
  nonempty : ∀ key : κ, map[key]? ≠ some []

variable {map : ListMap κ α cmp} {related other : κ → α → Prop} {key tested : κ} {item : α}

theorem indexes_empty : Indexes (∅ : ListMap κ α cmp) fun _ _ => False where
  mem_iff key item := by simp [itemsAt]
  nodup key := by simp [itemsAt]
  nonempty key := by simp

theorem Indexes.congr (indexes : Indexes map related)
    (same : ∀ key item, related key item ↔ other key item) : Indexes map other where
  mem_iff key item := (indexes.mem_iff key item).trans (same key item)
  nodup := indexes.nodup
  nonempty := indexes.nonempty

variable [Std.LawfulEqCmp cmp]

theorem getElem?_alter {change : Option (List α) → Option (List α)} [Decidable (key = tested)] :
    (map.alter key change)[tested]? = if key = tested then change map[key]? else map[tested]? := by
  rw [Std.ExtTreeMap.getElem?_alter]
  simp only [Std.LawfulEqCmp.compare_eq_iff_eq]

theorem itemsAt_appendTo [Decidable (key = tested)] :
    itemsAt (appendTo map key item) tested =
      if key = tested then itemsAt map key ++ [item] else itemsAt map tested := by
  rw [itemsAt, appendTo, getElem?_alter]
  split <;> rfl

/-- A new item is appended to the list of one key. -/
theorem Indexes.appendTo (indexes : Indexes map related) (fresh : ¬ related key item) :
    Indexes (appendTo map key item) fun tested other =>
      (key = tested ∧ other = item) ∨ related tested other where
  mem_iff tested other := by
    classical
    rw [itemsAt_appendTo]
    by_cases same : key = tested
    · subst same
      simp [indexes.mem_iff, or_comm]
    · simp [same, indexes.mem_iff]
  nodup tested := by
    classical
    rw [itemsAt_appendTo]
    split
    · refine List.nodup_append.2 ⟨indexes.nodup key, by simp, ?_⟩
      rintro earlier member last added rfl
      rw [List.mem_singleton.1 added, indexes.mem_iff] at member
      exact fresh member
    · exact indexes.nodup tested
  nonempty tested := by
    classical
    rw [ListMap.appendTo, getElem?_alter]
    split
    · simp
    · exact indexes.nonempty tested

variable [DecidableEq α]

theorem itemsAt_dropFrom [Decidable (key = tested)] :
    itemsAt (dropFrom map key item) tested =
      if key = tested then (itemsAt map key).filter (· ≠ item) else itemsAt map tested := by
  rw [itemsAt, dropFrom, getElem?_alter]
  split
  · rw [itemsAt]
    cases map[key]? with
    | none => rfl
    | some items =>
        rw [Option.bind_some, Option.getD_some]
        dsimp only
        split
        · rename_i empty
          exact (List.isEmpty_iff.1 empty).symm
        · rfl
  · rfl

theorem Indexes.dropFrom (indexes : Indexes map related) :
    Indexes (dropFrom map key item) fun tested other =>
      related tested other ∧ ¬ (key = tested ∧ other = item) where
  mem_iff tested other := by
    classical
    rw [itemsAt_dropFrom]
    by_cases same : key = tested
    · subst same
      simp [indexes.mem_iff]
    · simp [same, indexes.mem_iff]
  nodup tested := by
    classical
    rw [itemsAt_dropFrom]
    split
    · exact (indexes.nodup key).filter _
    · exact indexes.nodup tested
  nonempty tested := by
    classical
    rw [ListMap.dropFrom, getElem?_alter]
    split
    · cases map[key]? with
      | none => simp
      | some items =>
          rw [Option.bind_some]
          dsimp only
          split
          · simp
          · rename_i left
            intro empty
            exact left (List.isEmpty_iff.2 (Option.some_inj.1 empty))
    · exact indexes.nonempty tested

end ListMap
end Support
