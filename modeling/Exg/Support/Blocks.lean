import Mathlib.Data.List.Induction
import Mathlib.Data.List.Infix
import Mathlib.Tactic.Common

/-!
# Blocks of a list

The items of a list that satisfy a predicate fall into blocks of neighbours.  They are found
from left to right: those that have ended, and the one that reaches the end of the list.
-/

namespace Support

universe u

variable {α : Type u}

/-- The blocks that have ended, and the items of the open one. -/
structure Blocks (α : Type u) where
  ended : List (List α)
  last : List α

namespace Blocks

/-- The next item joins the open block, or ends it. -/
def push (found : α → Bool) (blocks : Blocks α) (item : α) : Blocks α :=
  if found item then
    { blocks with last := blocks.last ++ [item] }
  else if blocks.last.isEmpty then
    blocks
  else
    ⟨blocks.ended ++ [blocks.last], []⟩

/-- All blocks in order. -/
def all (blocks : Blocks α) : List (List α) :=
  if blocks.last.isEmpty then blocks.ended else blocks.ended ++ [blocks.last]

end Blocks

/-- The blocks of the items that satisfy a predicate. -/
def blocksOf (found : α → Bool) (items : List α) : Blocks α :=
  items.foldl (Blocks.push found) ⟨[], []⟩

variable {found : α → Bool} {items : List α} {item : α} {blocks : Blocks α}

namespace Blocks

theorem push_found (holds : found item = true) :
    blocks.push found item = { blocks with last := blocks.last ++ [item] } :=
  if_pos holds

theorem push_other_open (fails : found item = false) (isOpen : blocks.last ≠ []) :
    blocks.push found item = ⟨blocks.ended ++ [blocks.last], []⟩ := by
  rw [push, if_neg (Bool.eq_false_iff.1 fails), if_neg (mt List.isEmpty_iff.1 isOpen)]

theorem push_other_closed (fails : found item = false) (closed : blocks.last = []) :
    blocks.push found item = blocks := by
  rw [push, if_neg (Bool.eq_false_iff.1 fails), if_pos (List.isEmpty_iff.2 closed)]

theorem all_of_closed (closed : blocks.last = []) : blocks.all = blocks.ended :=
  if_pos (List.isEmpty_iff.2 closed)

theorem all_of_open (isOpen : blocks.last ≠ []) :
    blocks.all = blocks.ended ++ [blocks.last] :=
  if_neg (mt List.isEmpty_iff.1 isOpen)

theorem all_flatten (blocks : Blocks α) :
    blocks.all.flatten = blocks.ended.flatten ++ blocks.last := by
  by_cases closed : blocks.last = []
  · rw [all_of_closed closed, closed, List.append_nil]
  · rw [all_of_open closed, List.flatten_append, List.flatten_singleton]

theorem mem_all {block : List α} :
    block ∈ blocks.all ↔ block ∈ blocks.ended ∨ (blocks.last ≠ [] ∧ block = blocks.last) := by
  by_cases closed : blocks.last = []
  · rw [all_of_closed closed]
    simp [closed]
  · rw [all_of_open closed]
    simp [closed]

end Blocks

theorem blocksOf_concat (items : List α) (item : α) :
    blocksOf found (items ++ [item]) = (blocksOf found items).push found item := by
  rw [blocksOf, List.foldl_append]
  rfl

/-- The blocks hold the items that satisfy the predicate, in order. -/
theorem flatten_blocksOf (items : List α) :
    (blocksOf found items).all.flatten = items.filter found := by
  rw [Blocks.all_flatten]
  induction items using List.reverseRecOn with
  | nil => rfl
  | append_singleton before last inductionHypothesis =>
      rw [blocksOf_concat, List.filter_append, ← inductionHypothesis]
      cases holds : found last with
      | true =>
          rw [Blocks.push_found holds, List.filter_cons_of_pos holds, List.append_assoc]
          rfl
      | false =>
          rw [List.filter_cons_of_neg (Bool.eq_false_iff.1 holds), List.filter_nil, List.append_nil]
          by_cases closed : (blocksOf found before).last = []
          · rw [Blocks.push_other_closed holds closed]
          · rw [Blocks.push_other_open holds closed, List.flatten_append, List.flatten_singleton,
              List.append_nil]

/-- The open block is at the end of the list, and the others are inside it. -/
theorem blocksOf_within (items : List α) :
    (blocksOf found items).last <:+ items ∧
      ∀ block ∈ (blocksOf found items).ended, block ≠ [] ∧ block <:+: items := by
  induction items using List.reverseRecOn with
  | nil => exact ⟨List.suffix_rfl, fun block member => absurd member List.not_mem_nil⟩
  | append_singleton before last inductionHypothesis =>
      obtain ⟨atEnd, inside⟩ := inductionHypothesis
      have shorter : before <:+: before ++ [last] := (List.prefix_append before [last]).isInfix
      have insideNow : ∀ block ∈ (blocksOf found before).ended,
          block ≠ [] ∧ block <:+: before ++ [last] :=
        fun block member => ⟨(inside block member).1, (inside block member).2.trans shorter⟩
      rw [blocksOf_concat]
      cases holds : found last with
      | true =>
          rw [Blocks.push_found holds]
          obtain ⟨earlier, whole⟩ := atEnd
          exact ⟨⟨earlier, by rw [← List.append_assoc, whole]⟩, insideNow⟩
      | false =>
          by_cases closed : (blocksOf found before).last = []
          · rw [Blocks.push_other_closed holds closed, closed]
            exact ⟨List.nil_suffix, insideNow⟩
          · rw [Blocks.push_other_open holds closed]
            refine ⟨List.nil_suffix, fun block member => ?_⟩
            rcases List.mem_append.1 member with old | new
            · exact insideNow block old
            · rw [List.mem_singleton.1 new]
              exact ⟨closed, atEnd.isInfix.trans shorter⟩

theorem block_ne_nil {block : List α} (member : block ∈ (blocksOf found items).all) :
    block ≠ [] := by
  rcases Blocks.mem_all.1 member with ended | ⟨isOpen, rfl⟩
  · exact ((blocksOf_within items).2 block ended).1
  · exact isOpen

theorem block_infix {block : List α} (member : block ∈ (blocksOf found items).all) :
    block <:+: items := by
  rcases Blocks.mem_all.1 member with ended | ⟨-, rfl⟩
  · exact ((blocksOf_within items).2 block ended).2
  · exact (blocksOf_within items).1.isInfix

/-! ## One block -/

theorem foldl_push_found (holds : ∀ item ∈ items, found item = true) :
    items.foldl (Blocks.push found) blocks = { blocks with last := blocks.last ++ items } := by
  induction items generalizing blocks with
  | nil => rw [List.foldl_nil, List.append_nil]
  | cons head rest inductionHypothesis =>
      rw [List.foldl_cons, Blocks.push_found (holds head List.mem_cons_self),
        inductionHypothesis fun item member => holds item (List.mem_cons_of_mem head member),
        List.append_assoc, List.singleton_append]

theorem foldl_push_closed (fails : ∀ item ∈ items, found item = false)
    (closed : blocks.last = []) : items.foldl (Blocks.push found) blocks = blocks := by
  induction items with
  | nil => rfl
  | cons head rest inductionHypothesis =>
      rw [List.foldl_cons, Blocks.push_other_closed (fails head List.mem_cons_self) closed]
      exact inductionHypothesis fun item member => fails item (List.mem_cons_of_mem head member)

theorem all_foldl_push_other (fails : ∀ item ∈ items, found item = false) :
    (items.foldl (Blocks.push found) blocks).all = blocks.all := by
  cases items with
  | nil => rfl
  | cons head rest =>
      have others : ∀ item ∈ rest, found item = false :=
        fun item member => fails item (List.mem_cons_of_mem head member)
      rw [List.foldl_cons]
      by_cases closed : blocks.last = []
      · rw [Blocks.push_other_closed (fails head List.mem_cons_self) closed,
          foldl_push_closed others closed]
      · rw [Blocks.push_other_open (fails head List.mem_cons_self) closed,
          foldl_push_closed others rfl, Blocks.all_of_open closed]
        rfl

theorem found_of_filter_append {before middle after : List α}
    (whole : middle = (before ++ middle ++ after).filter found) :
    (∀ item ∈ before, found item = false) ∧ (∀ item ∈ middle, found item = true) ∧
      ∀ item ∈ after, found item = false := by
  have satisfied : ∀ item ∈ middle, found item = true := by
    intro item member
    rw [whole] at member
    exact (List.mem_filter.1 member).2
  have same : middle.filter found = middle := List.filter_eq_self.2 satisfied
  rw [List.filter_append, List.filter_append, same] at whole
  have lengths := congrArg List.length whole
  rw [List.length_append, List.length_append] at lengths
  have noneBefore : before.filter found = [] := List.length_eq_zero_iff.1 (by omega)
  have noneAfter : after.filter found = [] := List.length_eq_zero_iff.1 (by omega)
  rw [List.filter_eq_nil_iff] at noneBefore noneAfter
  exact ⟨fun item member => Bool.eq_false_iff.2 (noneBefore item member), satisfied,
    fun item member => Bool.eq_false_iff.2 (noneAfter item member)⟩

/-- There is at most one block if and only if the items that satisfy the predicate are
neighbours in the list. -/
theorem length_blocksOf_le_one_iff :
    (blocksOf found items).all.length ≤ 1 ↔ items.filter found <:+: items := by
  constructor
  · intro few
    rw [← flatten_blocksOf]
    match shape : (blocksOf found items).all with
    | [] => exact List.nil_infix
    | [block] =>
        rw [List.flatten_singleton]
        exact block_infix (by rw [shape]; exact List.mem_cons_self)
    | first :: second :: rest =>
        rw [shape] at few
        exact absurd few (by simp)
  · rintro ⟨before, after, parts⟩
    obtain ⟨noneBefore, satisfied, noneAfter⟩ := found_of_filter_append
      (congrArg (List.filter found) parts).symm
    rw [← parts, blocksOf, List.foldl_append, List.foldl_append,
      all_foldl_push_other noneAfter, foldl_push_closed noneBefore rfl,
      foldl_push_found satisfied, List.nil_append, Blocks.all]
    split <;> simp

end Support
