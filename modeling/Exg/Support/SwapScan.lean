import Mathlib.Data.List.Induction
import Mathlib.Data.List.Perm.Basic
import Mathlib.Data.List.Perm.Subperm
import Mathlib.Tactic.Common

/-!
# Vectors that remove by swapping

`Vec::swap_remove` fills the hole with the last element.  `swapScanLoop` is the loop that
walks a vector by index, swap-removes what satisfies a predicate without advancing, and
steps past everything else; `swapScan` is the same walk by recursion on what is still to
visit.  Both reorder what stays, so the lemmas speak of permutations.
-/

namespace Support

universe u

variable {α : Type u}

/-- Bring the last element of a vector's tail to its front, where `swap_remove` has
just left a hole. -/
def fillHole (rest : List α) : List α :=
  match rest.getLast? with
  | none => []
  | some last => last :: rest.dropLast

theorem fillHole_perm (rest : List α) : (fillHole rest).Perm rest := by
  cases rest using List.reverseRecOn with
  | nil => exact List.Perm.refl _
  | append_singleton initial last =>
      simpa [fillHole] using (List.perm_append_singleton last initial).symm

@[simp]
theorem length_fillHole (rest : List α) : (fillHole rest).length = rest.length :=
  (fillHole_perm rest).length_eq

/-- `swap_remove` of the first element satisfying a predicate. -/
def swapRemoveFirst (found : α → Bool) : List α → List α
  | [] => []
  | item :: rest =>
      if found item then fillHole rest else item :: swapRemoveFirst found rest

theorem swapRemoveFirst_perm (found : α → Bool) (items : List α) :
    (swapRemoveFirst found items).Perm (items.eraseP found) := by
  induction items with
  | nil => exact List.Perm.refl _
  | cons item rest inductionHypothesis =>
      by_cases hit : found item = true
      · simpa [swapRemoveFirst, hit] using fillHole_perm rest
      · simpa [swapRemoveFirst, hit] using inductionHypothesis.cons item

/-- The scan itself: what was taken out, and what stays.  The first argument bounds the
number of elements still to visit. -/
def swapScanFrom (taken : α → Bool) : Nat → List α → List α × List α
  | 0, _ => ([], [])
  | _ + 1, [] => ([], [])
  | left + 1, item :: rest =>
      if taken item then
        let later := swapScanFrom taken left (fillHole rest)
        (item :: later.1, later.2)
      else
        let later := swapScanFrom taken left rest
        (later.1, item :: later.2)

def swapScan (taken : α → Bool) (items : List α) : List α × List α :=
  swapScanFrom taken items.length items

theorem swapScanFrom_perm (taken : α → Bool) {left : Nat} {items : List α}
    (visits : items.length ≤ left) :
    ((swapScanFrom taken left items).1 ++ (swapScanFrom taken left items).2).Perm items := by
  induction left generalizing items with
  | zero =>
      have empty : items = [] := List.length_eq_zero_iff.1 (Nat.le_zero.1 visits)
      subst empty
      exact List.Perm.refl _
  | succ left inductionHypothesis =>
      cases items with
      | nil => exact List.Perm.refl _
      | cons item rest =>
          have restVisits : rest.length ≤ left := Nat.le_of_succ_le_succ visits
          by_cases hit : taken item = true
          · have holeVisits : (fillHole rest).length ≤ left := by simpa using restVisits
            have later := inductionHypothesis holeVisits
            simpa [swapScanFrom, hit] using (later.trans (fillHole_perm rest)).cons item
          · have later := inductionHypothesis restVisits
            simpa [swapScanFrom, hit] using
              List.perm_middle.trans (later.cons item)

theorem swapScanFrom_sorted (taken : α → Bool) (left : Nat) (items : List α) :
    (∀ item ∈ (swapScanFrom taken left items).1, taken item = true) ∧
      ∀ item ∈ (swapScanFrom taken left items).2, taken item = false := by
  induction left generalizing items with
  | zero => simp [swapScanFrom]
  | succ left inductionHypothesis =>
      cases items with
      | nil => simp [swapScanFrom]
      | cons item rest =>
          by_cases hit : taken item = true
          · simpa [swapScanFrom, hit] using inductionHypothesis (fillHole rest)
          · have missed : taken item = false := by simpa using hit
            simpa [swapScanFrom, missed] using inductionHypothesis rest

/-- The scan partitions the vector. -/
theorem swapScan_perm (taken : α → Bool) (items : List α) :
    ((swapScan taken items).1 ++ (swapScan taken items).2).Perm items :=
  swapScanFrom_perm taken (Nat.le_refl _)

theorem swapScan_taken {taken : α → Bool} {items : List α} {item : α}
    (member : item ∈ (swapScan taken items).1) : taken item = true :=
  (swapScanFrom_sorted taken items.length items).1 item member

theorem swapScan_kept {taken : α → Bool} {items : List α} {item : α}
    (member : item ∈ (swapScan taken items).2) : taken item = false :=
  (swapScanFrom_sorted taken items.length items).2 item member

theorem swapScan_fst_perm (taken : α → Bool) (items : List α) :
    (swapScan taken items).1.Perm (items.filter taken) := by
  have partition := (swapScan_perm taken items).filter taken
  rw [List.filter_append] at partition
  have takenAll : (swapScan taken items).1.filter taken = (swapScan taken items).1 :=
    List.filter_eq_self.2 fun _ member => swapScan_taken member
  have keptNone : (swapScan taken items).2.filter taken = [] :=
    List.filter_eq_nil_iff.2 fun _ member => by simp [swapScan_kept member]
  rwa [takenAll, keptNone, List.append_nil] at partition

theorem swapScan_snd_perm (taken : α → Bool) (items : List α) :
    (swapScan taken items).2.Perm (items.filter fun item => !taken item) := by
  have partition := (swapScan_perm taken items).filter fun item => !taken item
  rw [List.filter_append] at partition
  have takenNone : (swapScan taken items).1.filter (fun item => !taken item) = [] :=
    List.filter_eq_nil_iff.2 fun _ member => by simp [swapScan_taken member]
  have keptAll : (swapScan taken items).2.filter (fun item => !taken item) =
      (swapScan taken items).2 :=
    List.filter_eq_self.2 fun _ member => by simp [swapScan_kept member]
  rwa [takenNone, keptAll, List.nil_append] at partition

/-! ## The loop over indices -/

/-- `Vec::swap_remove`: the last element takes the place of the one at `index`. -/
def swapRemove (items : List α) (index : Nat) : List α :=
  match items.getLast? with
  | none => []
  | some last => (items.set index last).dropLast

/-- The loop as it is written, over the whole vector: the index stays put after a removal
and advances otherwise. -/
def swapScanLoop (taken : α → Bool) : Nat → Nat → List α → List α → List α × List α
  | 0, _, items, out => (out, items)
  | left + 1, index, items, out =>
      match items[index]? with
      | none => (out, items)
      | some item =>
          if taken item then
            swapScanLoop taken left index (swapRemove items index) (out ++ [item])
          else
            swapScanLoop taken left (index + 1) items out

theorem swapRemove_middle (before rest : List α) (item : α) :
    swapRemove (before ++ item :: rest) before.length = before ++ fillHole rest := by
  cases rest using List.reverseRecOn with
  | nil => simp [swapRemove, fillHole]
  | append_singleton initial last =>
      have ending : (before ++ item :: (initial ++ [last])).getLast? = some last := by
        rw [← List.cons_append, ← List.append_assoc, List.getLast?_concat]
      have shorter : (last :: initial ++ [last]).dropLast = last :: initial := by
        rw [List.dropLast_concat]
      rw [swapRemove, ending]
      simpa [fillHole, List.set_append_right] using shorter

/-- The loop takes out what `swapScanFrom` does, behind the elements it has stepped past. -/
theorem swapScanLoop_eq (taken : α → Bool) (left : Nat) (before rest out : List α)
    (visits : rest.length ≤ left) :
    swapScanLoop taken left before.length (before ++ rest) out =
      (out ++ (swapScanFrom taken left rest).1, before ++ (swapScanFrom taken left rest).2) := by
  induction left generalizing before rest out with
  | zero =>
      have empty : rest = [] := List.length_eq_zero_iff.1 (Nat.le_zero.1 visits)
      subst empty
      simp [swapScanLoop, swapScanFrom]
  | succ left inductionHypothesis =>
      cases rest with
      | nil => simp [swapScanLoop, swapScanFrom]
      | cons item rest =>
          have restVisits : rest.length ≤ left := Nat.le_of_succ_le_succ visits
          have here : (before ++ item :: rest)[before.length]? = some item := by simp
          by_cases hit : taken item = true
          · have holeVisits : (fillHole rest).length ≤ left := by simpa using restVisits
            rw [swapScanLoop, here]
            simp only [hit, if_true, swapRemove_middle, swapScanFrom]
            rw [inductionHypothesis before (fillHole rest) (out ++ [item]) holeVisits]
            simp
          · have stepped := inductionHypothesis (before ++ [item]) rest out restVisits
            rw [List.length_append, List.append_assoc] at stepped
            rw [swapScanLoop, here]
            simp only [hit, swapScanFrom]
            simpa using stepped
/-! ## Searching a permuted list -/

/-- Taking the first match out and putting it anywhere is a permutation. -/
theorem find_cons_eraseP_perm {found : α → Bool} {items : List α} {item : α}
    (hit : items.find? found = some item) : (item :: items.eraseP found).Perm items := by
  induction items with
  | nil => cases hit
  | cons head tail inductionHypothesis =>
      by_cases here : found head = true
      · rw [List.find?_cons_of_pos here] at hit
        cases hit
        rw [List.eraseP_cons_of_pos here]
      · rw [List.find?_cons_of_neg here] at hit
        rw [List.eraseP_cons_of_neg here]
        exact (List.Perm.swap head item _).trans ((inductionHypothesis hit).cons head)

/-- The only match is the first one, wherever it stands. -/
theorem find_eq_of_unique {found : α → Bool} {items rest : List α} {item : α}
    (perm : items.Perm (item :: rest)) (hit : found item = true)
    (unique : ∀ other ∈ rest, found other = false) : items.find? found = some item := by
  cases firstHit : items.find? found with
  | none =>
      have missed := List.find?_eq_none.1 firstHit item (perm.symm.subset List.mem_cons_self)
      exact absurd hit missed
  | some first =>
      rcases List.mem_cons.1 (perm.subset (List.mem_of_find?_eq_some firstHit)) with same | later
      · rw [same]
      · have missed := unique first later
        rw [List.find?_some firstHit] at missed
        cases missed

/-- Taking out the only match leaves the others. -/
theorem eraseP_perm_of_unique {found : α → Bool} {items rest : List α} {item : α}
    (perm : items.Perm (item :: rest)) (hit : found item = true)
    (unique : ∀ other ∈ rest, found other = false) : (items.eraseP found).Perm rest :=
  ((find_cons_eraseP_perm (find_eq_of_unique perm hit unique)).trans perm).cons_inv

end Support
