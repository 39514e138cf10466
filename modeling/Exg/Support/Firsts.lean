import Mathlib.Data.List.Induction
import Mathlib.Data.List.Nodup
import Mathlib.Tactic.Common

/-!
# First items with their key

A store that refuses a key which it has keeps, of a list of requests, the first with each
key.
-/

namespace Support

universe u v

variable {α : Type u} {κ : Type v} [DecidableEq κ]

/-- Add an item unless its key is there. -/
def keepNew (key : α → κ) (kept : List α) (item : α) : List α :=
  if key item ∈ kept.map key then kept else kept ++ [item]

/-- The items that are the first with their key. -/
def firstsBy (key : α → κ) (items : List α) : List α := items.foldl (keepNew key) []

variable {key : α → κ} {items kept : List α} {item : α}

@[simp]
theorem firstsBy_nil : firstsBy key [] = [] := rfl

theorem firstsBy_concat (items : List α) (item : α) :
    firstsBy key (items ++ [item]) = keepNew key (firstsBy key items) item := by
  rw [firstsBy, List.foldl_append]
  rfl

theorem keepNew_of_mem (known : key item ∈ kept.map key) : keepNew key kept item = kept :=
  if_pos known

theorem keepNew_of_not_mem (fresh : key item ∉ kept.map key) :
    keepNew key kept item = kept ++ [item] :=
  if_neg fresh

theorem mem_map_keepNew {tested : κ} :
    tested ∈ (keepNew key kept item).map key ↔ tested ∈ kept.map key ∨ tested = key item := by
  by_cases known : key item ∈ kept.map key
  · rw [keepNew_of_mem known]
    exact (or_iff_left_of_imp fun same => same ▸ known).symm
  · rw [keepNew_of_not_mem known, List.map_append, List.mem_append, List.map_singleton,
      List.mem_singleton]

theorem nodup_keepNew (nodup : (kept.map key).Nodup) : ((keepNew key kept item).map key).Nodup := by
  by_cases known : key item ∈ kept.map key
  · rwa [keepNew_of_mem known]
  · rw [keepNew_of_not_mem known, List.map_append, List.map_singleton]
    exact List.nodup_append.2 ⟨nodup, List.nodup_singleton _, fun first member second other =>
      fun same => known (List.mem_singleton.1 other ▸ same ▸ member)⟩

theorem nodup_firstsBy : ((firstsBy key items).map key).Nodup := by
  induction items using List.reverseRecOn with
  | nil => exact List.nodup_nil
  | append_singleton before last inductionHypothesis =>
      rw [firstsBy_concat]
      exact nodup_keepNew inductionHypothesis

/-- Items whose keys differ are all kept. -/
theorem firstsBy_of_nodup (nodup : (items.map key).Nodup) : firstsBy key items = items := by
  induction items using List.reverseRecOn with
  | nil => rfl
  | append_singleton before last inductionHypothesis =>
      rw [List.map_append, List.map_singleton] at nodup
      obtain ⟨earlier, -, apart⟩ := List.nodup_append.1 nodup
      rw [firstsBy_concat, inductionHypothesis earlier]
      exact keepNew_of_not_mem fun known => apart _ known _ List.mem_cons_self rfl

/-! ## Looking items up -/

/-- The oldest item with a key. -/
def oldestWith (key : α → κ) (items : List α) (tested : κ) : Option α :=
  items.find? fun item => key item = tested

/-- The newest item with a key. -/
def newestWith (key : α → κ) (items : List α) (tested : κ) : Option α :=
  items.reverse.find? fun item => key item = tested

section Lookup

variable {tested : κ}

@[simp]
theorem oldestWith_nil : oldestWith key [] tested = none := rfl

@[simp]
theorem newestWith_nil : newestWith key [] tested = none := rfl

theorem oldestWith_isSome_iff :
    (oldestWith key items tested).isSome = true ↔ tested ∈ items.map key := by
  rw [oldestWith, List.find?_isSome]
  simp [eq_comm]

theorem oldestWith_concat (fresh : key item ∉ items.map key) :
    oldestWith key (items ++ [item]) tested =
      if key item = tested then some item else oldestWith key items tested := by
  rw [oldestWith, List.find?_append]
  by_cases same : key item = tested
  · have absent : items.find? (fun other => key other = tested) = none := by
      rw [← Option.not_isSome_iff_eq_none]
      exact fun present => fresh (same ▸ oldestWith_isSome_iff.1 present)
    simp [same, absent]
  · simp [same, oldestWith]

theorem newestWith_concat :
    newestWith key (items ++ [item]) tested =
      if key item = tested then some item else newestWith key items tested := by
  rw [newestWith, List.reverse_append, List.reverse_singleton, List.singleton_append,
    List.find?_cons]
  by_cases same : key item = tested
  · simp [same]
  · simp [same, newestWith]

theorem of_oldestWith (found : oldestWith key items tested = some item) :
    item ∈ items ∧ key item = tested :=
  ⟨List.mem_of_find?_eq_some found, by simpa using List.find?_some found⟩

theorem oldestWith_of_mem (nodup : (items.map key).Nodup) (member : item ∈ items) :
    oldestWith key items (key item) = some item := by
  obtain ⟨other, found⟩ := Option.isSome_iff_exists.1
    (oldestWith_isSome_iff.2 (List.mem_map_of_mem (f := key) member))
  obtain ⟨otherMember, same⟩ := of_oldestWith found
  rw [found, List.inj_on_of_nodup_map nodup otherMember member same]

theorem newestWith_of_mem (nodup : (items.map key).Nodup) (member : item ∈ items) :
    newestWith key items (key item) = some item := by
  have reversed : (items.reverse.map key).Nodup := by rwa [List.map_reverse, List.nodup_reverse]
  exact oldestWith_of_mem reversed (List.mem_reverse.2 member)

end Lookup

end Support
