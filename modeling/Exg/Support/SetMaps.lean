import Std.Data.ExtTreeMap
import Std.Data.ExtTreeSet
import Mathlib.Tactic.Common

/-!
# Maps of sets

A map from keys to sets of items stores a relation.  The operations put an item into the set
of a key and take it out again, with or without the key when its set becomes empty.
-/

namespace Support

universe u v

variable {κ : Type u} {α : Type v} {cmpKey : κ → κ → Ordering} {cmpItem : α → α → Ordering}
variable [Std.TransCmp cmpKey] [Std.TransCmp cmpItem]

/-- A map from keys to sets of items. -/
abbrev SetMap (κ : Type u) (α : Type v) (cmpKey : κ → κ → Ordering)
    (cmpItem : α → α → Ordering) := Std.ExtTreeMap κ (Std.ExtTreeSet α cmpItem) cmpKey

namespace SetMap

/-- The item is in the set of the key. -/
def Related (map : SetMap κ α cmpKey cmpItem) (key : κ) (item : α) : Prop :=
  ∃ items, map[key]? = some items ∧ item ∈ items

/-- Give a key a set, if it has none. -/
def openKey (map : SetMap κ α cmpKey cmpItem) (key : κ) : SetMap κ α cmpKey cmpItem :=
  map.alter key fun items => some (items.getD ∅)

/-- Put an item into the set of a key. -/
def addTo (map : SetMap κ α cmpKey cmpItem) (key : κ) (item : α) : SetMap κ α cmpKey cmpItem :=
  map.alter key fun items => some ((items.getD ∅).insert item)

/-- Take an item out of the set of a key, if it has one. -/
def takeFrom (map : SetMap κ α cmpKey cmpItem) (key : κ) (item : α) : SetMap κ α cmpKey cmpItem :=
  map.alter key fun items => items.map (·.erase item)

/-- Forget a key whose set is empty. -/
def tidy (map : SetMap κ α cmpKey cmpItem) (key : κ) : SetMap κ α cmpKey cmpItem :=
  map.alter key fun items => items.filter fun items => !items.isEmpty

/-- No key has an empty set. -/
def NoEmpty (map : SetMap κ α cmpKey cmpItem) : Prop :=
  ∀ (key : κ) (items : Std.ExtTreeSet α cmpItem), map[key]? = some items → items ≠ ∅

variable {map : SetMap κ α cmpKey cmpItem} {key tested : κ} {item other : α}

theorem not_related_empty : ¬ Related (∅ : SetMap κ α cmpKey cmpItem) key item := by
  rintro ⟨items, found, -⟩
  simp at found

omit [Std.TransCmp cmpItem] in
theorem noEmpty_empty : NoEmpty (∅ : SetMap κ α cmpKey cmpItem) := by
  intro key items found
  simp at found

variable [Std.LawfulEqCmp cmpKey]

omit [Std.TransCmp cmpItem] in
theorem getElem?_alter
    {change : Option (Std.ExtTreeSet α cmpItem) → Option (Std.ExtTreeSet α cmpItem)}
    (map : SetMap κ α cmpKey cmpItem) (key tested : κ) [Decidable (key = tested)] :
    (map.alter key change)[tested]? = if key = tested then change map[key]? else map[tested]? := by
  rw [Std.ExtTreeMap.getElem?_alter]
  simp only [Std.LawfulEqCmp.compare_eq_iff_eq]

theorem related_openKey : Related (openKey map key) tested item ↔ Related map tested item := by
  classical
  rw [Related, Related, openKey, getElem?_alter]
  by_cases same : key = tested
  · subst same
    rw [if_pos rfl]
    cases map[key]? <;> simp
  · rw [if_neg same]

theorem related_tidy : Related (tidy map key) tested item ↔ Related map tested item := by
  classical
  rw [Related, Related, tidy, getElem?_alter]
  by_cases same : key = tested
  · subst same
    rw [if_pos rfl]
    cases map[key]? with
    | none => simp
    | some items =>
        simp only [Option.filter_some, Option.some.injEq, exists_eq_left']
        by_cases empty : items.isEmpty = true
        · simp [Std.ExtTreeSet.isEmpty_iff.1 empty]
        · simp [empty]
  · rw [if_neg same]

theorem related_erase :
    Related (map.erase key) tested item ↔ key ≠ tested ∧ Related map tested item := by
  classical
  rw [Related, Related, Std.ExtTreeMap.getElem?_erase]
  by_cases same : key = tested
  · simp [same]
  · simp [same]

theorem NoEmpty.addTo (noEmpty : NoEmpty map) : NoEmpty (addTo map key item) := by
  classical
  intro tested items found
  rw [SetMap.addTo, getElem?_alter] at found
  by_cases same : key = tested
  · rw [if_pos same, Option.some_inj] at found
    intro empty
    have member : item ∈ items := by
      rw [← found]
      exact Std.ExtTreeSet.mem_insert_self
    rw [empty] at member
    exact Std.ExtTreeSet.not_mem_empty member
  · rw [if_neg same] at found
    exact noEmpty tested items found

theorem NoEmpty.tidy_takeFrom (noEmpty : NoEmpty map) :
    NoEmpty (tidy (takeFrom map key item) key) := by
  classical
  intro tested items found
  rw [tidy, getElem?_alter] at found
  by_cases same : key = tested
  · rw [if_pos same] at found
    obtain ⟨-, kept⟩ := Option.filter_eq_some_iff.1 found
    intro empty
    simp [empty] at kept
  · rw [if_neg same, takeFrom, getElem?_alter, if_neg same] at found
    exact noEmpty tested items found

variable [Std.LawfulEqCmp cmpItem]

theorem related_addTo :
    Related (addTo map key item) tested other ↔
      (key = tested ∧ item = other) ∨ Related map tested other := by
  classical
  rw [Related, Related, addTo, getElem?_alter]
  by_cases same : key = tested
  · subst same
    rw [if_pos rfl]
    cases map[key]? <;> simp [Std.ExtTreeSet.mem_insert]
  · rw [if_neg same]
    simp [same]

theorem related_takeFrom :
    Related (takeFrom map key item) tested other ↔
      ¬ (key = tested ∧ item = other) ∧ Related map tested other := by
  classical
  rw [Related, Related, takeFrom, getElem?_alter]
  by_cases same : key = tested
  · subst same
    rw [if_pos rfl]
    cases map[key]? <;> simp [Std.ExtTreeSet.mem_erase]
  · rw [if_neg same]
    simp [same]

end SetMap
end Support
