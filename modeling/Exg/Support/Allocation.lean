import Mathlib.Algebra.Order.BigOperators.Group.List
import Mathlib.Algebra.Order.Group.MinMax
import Mathlib.Tactic.Common

/-!
# Greedy allocation of a demand over a queue of supplies

A demand is met from a queue of sources, front to back, each giving as much as it has
until nothing is wanted any more.  The lemmas say what is handed out: every share is the
smaller of what both sides have left, the shares come from an initial part of the queue,
and the allocation is maximal.
-/

namespace Support

universe u v

variable {κ : Type u} {α : Type v} [AddCommGroup α]

/-- The shares of the sources that are drawn on, in queue order. -/
def allocate [LinearOrder α] (supply : κ → α) : α → List κ → List (κ × α)
  | _, [] => []
  | demand, source :: rest =>
      if demand = 0 then
        []
      else
        (source, min demand (supply source)) ::
          allocate supply (demand - min demand (supply source)) rest

/-- What the shares add up to. -/
def allocated (shares : List (κ × α)) : α := (shares.map Prod.snd).sum

@[simp]
theorem allocated_nil : allocated ([] : List (κ × α)) = 0 := rfl

@[simp]
theorem allocated_cons (share : κ × α) (shares : List (κ × α)) :
    allocated (share :: shares) = share.2 + allocated shares := by
  simp [allocated]

section

variable [LinearOrder α] {supply : κ → α}

@[simp]
theorem allocate_nil (demand : α) : allocate supply demand [] = [] := rfl

@[simp]
theorem allocate_zero (queue : List κ) : allocate supply 0 queue = [] := by
  cases queue <;> simp [allocate]

theorem allocate_cons {demand : α} (wanted : demand ≠ 0) (source : κ) (rest : List κ) :
    allocate supply demand (source :: rest) =
      (source, min demand (supply source)) ::
        allocate supply (demand - min demand (supply source)) rest := by
  simp [allocate, wanted]

theorem allocate_eq_nil_iff {demand : α} {queue : List κ} :
    allocate supply demand queue = [] ↔ demand = 0 ∨ queue = [] := by
  cases queue with
  | nil => simp
  | cons source rest =>
      by_cases wanted : demand = 0
      · simp [wanted]
      · simp [allocate_cons wanted, wanted]

/-- Only the supplies of the queue matter. -/
theorem allocate_congr {other : κ → α} {demand : α} {queue : List κ}
    (same : ∀ source ∈ queue, supply source = other source) :
    allocate supply demand queue = allocate other demand queue := by
  induction queue generalizing demand with
  | nil => rfl
  | cons source rest inductionHypothesis =>
      have restSame : ∀ left, allocate supply left rest = allocate other left rest :=
        fun left => inductionHypothesis fun later member =>
          same later (List.mem_cons_of_mem source member)
      simp only [allocate, same source List.mem_cons_self, restSame]

/-- The sources drawn on are an initial part of the queue. -/
theorem sources_isPrefix (demand : α) (queue : List κ) :
    (allocate supply demand queue).map Prod.fst <+: queue := by
  induction queue generalizing demand with
  | nil => simp
  | cons source rest inductionHypothesis =>
      by_cases wanted : demand = 0
      · simp [wanted]
      · rw [allocate_cons wanted, List.map_cons, List.prefix_cons_inj]
        exact inductionHypothesis _

theorem source_mem {demand : α} {queue : List κ} {share : κ × α}
    (drawn : share ∈ allocate supply demand queue) : share.1 ∈ queue :=
  (sources_isPrefix demand queue).subset (List.mem_map_of_mem drawn)

variable [IsOrderedAddMonoid α]

theorem demand_left_nonneg (supply : κ → α) (demand : α) (source : κ) :
    0 ≤ demand - min demand (supply source) :=
  sub_nonneg.2 (min_le_left _ _)

/-- Every share is positive and at most its source's supply. -/
theorem share_bounds {demand : α} {queue : List κ} (nonneg : 0 ≤ demand)
    (positive : ∀ source ∈ queue, 0 < supply source) :
    ∀ share ∈ allocate supply demand queue,
      0 < share.2 ∧ share.2 ≤ supply share.1 := by
  induction queue generalizing demand with
  | nil => simp
  | cons source rest inductionHypothesis =>
      by_cases wanted : demand = 0
      · simp [wanted]
      · intro share drawn
        rw [allocate_cons wanted, List.mem_cons] at drawn
        rcases drawn with rfl | drawn
        · exact ⟨lt_min (lt_of_le_of_ne nonneg (Ne.symm wanted))
            (positive source List.mem_cons_self), min_le_right _ _⟩
        · exact inductionHypothesis (demand_left_nonneg supply demand source)
            (fun other member => positive other (List.mem_cons_of_mem source member))
            share drawn

/-- No more is handed out than was wanted. -/
theorem allocated_le (supply : κ → α) {demand : α} (nonneg : 0 ≤ demand) (queue : List κ) :
    allocated (allocate supply demand queue) ≤ demand := by
  induction queue generalizing demand with
  | nil => simpa using nonneg
  | cons source rest inductionHypothesis =>
      by_cases wanted : demand = 0
      · simp [wanted]
      · rw [allocate_cons wanted, allocated_cons]
        have later := inductionHypothesis (demand_left_nonneg supply demand source)
        calc min demand (supply source) +
              allocated (allocate supply (demand - min demand (supply source)) rest)
            ≤ min demand (supply source) + (demand - min demand (supply source)) := by
              gcongr
          _ = demand := add_sub_cancel _ _

/-- Each share is at most what is wanted in total. -/
theorem share_le_demand {demand : α} {queue : List κ} (nonneg : 0 ≤ demand)
    (positive : ∀ source ∈ queue, 0 < supply source) :
    ∀ share ∈ allocate supply demand queue, share.2 ≤ demand := by
  intro share drawn
  have total := allocated_le supply nonneg queue
  have single : share.2 ≤ allocated (allocate supply demand queue) := by
    refine List.single_le_sum ?_ _ (List.mem_map_of_mem drawn)
    intro quantity member
    obtain ⟨other, otherDrawn, rfl⟩ := List.mem_map.1 member
    exact (share_bounds nonneg positive other otherDrawn).1.le
  exact single.trans total

/-- Maximality: the demand is met in full, or every source gives all it has. -/
theorem allocate_maximal (supply : κ → α) {demand : α} (nonneg : 0 ≤ demand) (queue : List κ) :
    allocated (allocate supply demand queue) = demand ∨
      allocate supply demand queue = queue.map fun source => (source, supply source) := by
  induction queue generalizing demand with
  | nil => exact Or.inr rfl
  | cons source rest inductionHypothesis =>
      by_cases wanted : demand = 0
      · exact Or.inl (by simp [wanted])
      · rw [allocate_cons wanted, allocated_cons]
        rcases inductionHypothesis (demand_left_nonneg supply demand source) with
          met | exhausted
        · exact Or.inl (by rw [met, add_sub_cancel])
        · rcases le_total demand (supply source) with enough | short
          · exact Or.inl (by simp [min_eq_left enough])
          · refine Or.inr ?_
            rw [exhausted, min_eq_right short, List.map_cons]

/-- A source that gives all it has is reached: what stands ahead of it and its own supply
fit in the demand. -/
theorem exhausted_fits {demand : α} {queue : List κ} (nonneg : 0 ≤ demand)
    (positive : ∀ source ∈ queue, 0 < supply source) {source : κ}
    (exhausted : (source, supply source) ∈ allocate supply demand queue) :
    ∃ ahead behind, queue = ahead ++ source :: behind ∧
      (ahead.map supply).sum + supply source ≤ demand := by
  induction queue generalizing demand with
  | nil => cases exhausted
  | cons head rest inductionHypothesis =>
      by_cases wanted : demand = 0
      · rw [wanted, allocate_zero] at exhausted
        cases exhausted
      · rw [allocate_cons wanted, List.mem_cons] at exhausted
        rcases exhausted with here | later
        · obtain ⟨rfl, whole⟩ := Prod.mk.inj here
          exact ⟨[], rest, rfl, by simpa using whole.trans_le (min_le_left _ _)⟩
        · have drained : min demand (supply head) = supply head := by
            rcases le_total demand (supply head) with enough | short
            · rw [min_eq_left enough, sub_self, allocate_zero] at later
              cases later
            · exact min_eq_right short
          rw [drained] at later
          have left : 0 ≤ demand - supply head := by
            rw [← drained]
            exact demand_left_nonneg supply demand head
          obtain ⟨ahead, behind, rfl, fits⟩ := inductionHypothesis left
            (fun other member => positive other (List.mem_cons_of_mem head member)) later
          refine ⟨head :: ahead, behind, rfl, ?_⟩
          rw [List.map_cons, List.sum_cons, add_assoc]
          exact (le_sub_iff_add_le'.1 fits)

/-- A source that keeps a part stands where the demand ends. -/
theorem share_between {demand : α} {queue : List κ} (nonneg : 0 ≤ demand)
    {source : κ} {quantity : α} (drawn : (source, quantity) ∈ allocate supply demand queue)
    (part : quantity < supply source) :
    ∃ ahead behind, queue = ahead ++ source :: behind ∧
      (ahead.map supply).sum < demand ∧ demand < (ahead.map supply).sum + supply source := by
  induction queue generalizing demand with
  | nil => cases drawn
  | cons head rest inductionHypothesis =>
      by_cases wanted : demand = 0
      · rw [wanted, allocate_zero] at drawn
        cases drawn
      · rw [allocate_cons wanted, List.mem_cons] at drawn
        rcases drawn with here | later
        · obtain ⟨rfl, taken⟩ := Prod.mk.inj here
          have short : demand < supply source := by
            rw [taken] at part
            exact (min_lt_iff.1 part).resolve_right (lt_irrefl _)
          refine ⟨[], rest, rfl, ?_, ?_⟩
          · exact lt_of_le_of_ne nonneg (Ne.symm wanted)
          · rwa [List.map_nil, List.sum_nil, zero_add]
        · have drained : min demand (supply head) = supply head := by
            rcases le_total demand (supply head) with enough | short
            · rw [min_eq_left enough, sub_self, allocate_zero] at later
              cases later
            · exact min_eq_right short
          have left : 0 ≤ demand - min demand (supply head) := demand_left_nonneg supply demand head
          obtain ⟨ahead, behind, rfl, above, below⟩ := inductionHypothesis left later
          rw [drained] at above below
          refine ⟨head :: ahead, behind, rfl, ?_, ?_⟩
          · rw [List.map_cons, List.sum_cons]
            exact lt_sub_iff_add_lt'.1 above
          · rw [List.map_cons, List.sum_cons, add_assoc]
            exact sub_lt_iff_lt_add'.1 below

/-- A source gives all it has when that fits in the demand behind what stands ahead of it. -/
theorem exhausted_of_fits {demand : α} {ahead behind : List κ} {source : κ}
    (positive : ∀ other ∈ ahead ++ source :: behind, 0 < supply other)
    (fits : (ahead.map supply).sum + supply source ≤ demand) :
    (source, supply source) ∈ allocate supply demand (ahead ++ source :: behind) := by
  induction ahead generalizing demand with
  | nil =>
      rw [List.map_nil, List.sum_nil, zero_add] at fits
      have wanted : demand ≠ 0 := ((positive source (by simp)).trans_le fits).ne'
      rw [List.nil_append, allocate_cons wanted, min_eq_right fits]
      exact List.mem_cons_self
  | cons head rest inductionHypothesis =>
      have restPositive : ∀ other ∈ rest ++ source :: behind, 0 < supply other :=
        fun other member => positive other (List.mem_cons_of_mem head member)
      have headPositive : 0 < supply head := positive head List.mem_cons_self
      have restNonneg : 0 ≤ (rest.map supply).sum + supply source := by
        apply add_nonneg
        · apply List.sum_nonneg
          intro quantity member
          obtain ⟨other, otherMember, rfl⟩ := List.mem_map.1 member
          exact (restPositive other (List.mem_append_left _ otherMember)).le
        · exact (restPositive source (by simp)).le
      rw [List.map_cons, List.sum_cons, add_assoc] at fits
      have covered : supply head ≤ demand := (le_add_of_nonneg_right restNonneg).trans fits
      have wanted : demand ≠ 0 := (headPositive.trans_le covered).ne'
      rw [List.cons_append, allocate_cons wanted, min_eq_right covered]
      exact List.mem_cons_of_mem _
        (inductionHypothesis restPositive (le_sub_iff_add_le'.2 fits))

/-- Every source gives all it has when all of it is wanted. -/
theorem allocate_of_covered {demand : α} {queue : List κ}
    (positive : ∀ source ∈ queue, 0 < supply source) (covered : (queue.map supply).sum ≤ demand) :
    ∀ source ∈ queue, (source, supply source) ∈ allocate supply demand queue := by
  intro source member
  obtain ⟨ahead, behind, rfl⟩ := List.append_of_mem member
  apply exhausted_of_fits positive
  rw [List.map_append, List.sum_append, List.map_cons, List.sum_cons, ← add_assoc] at covered
  apply (le_add_of_nonneg_right _).trans covered
  apply List.sum_nonneg
  intro quantity listed
  obtain ⟨other, otherMember, rfl⟩ := List.mem_map.1 listed
  exact (positive other (by simp [otherMember])).le

/-- All of it is wanted when every source gives all it has. -/
theorem covered_of_exhausted {demand : α} {queue : List κ} (nonneg : 0 ≤ demand)
    (nodup : queue.Nodup)
    (exhausted : ∀ source ∈ queue, (source, supply source) ∈ allocate supply demand queue) :
    (queue.map supply).sum ≤ demand := by
  induction queue generalizing demand with
  | nil => exact nonneg
  | cons source rest inductionHypothesis =>
      obtain ⟨apart, restNodup⟩ := List.nodup_cons.1 nodup
      have wanted : demand ≠ 0 := by
        intro nothing
        have here := exhausted source List.mem_cons_self
        rw [nothing, allocate_zero] at here
        cases here
      rw [allocate_cons wanted] at exhausted
      have covered : min demand (supply source) = supply source := by
        rcases List.mem_cons.1 (exhausted source List.mem_cons_self) with own | later
        · exact (congrArg Prod.snd own).symm
        · exact absurd (source_mem later) apart
      rw [covered] at exhausted
      have left : 0 ≤ demand - supply source := by
        rw [← covered]
        exact demand_left_nonneg supply demand source
      rw [List.map_cons, List.sum_cons]
      apply le_sub_iff_add_le'.1
      apply inductionHypothesis left restNodup
      intro other member
      rcases List.mem_cons.1 (exhausted other (List.mem_cons_of_mem source member)) with own | later
      · obtain ⟨rfl, -⟩ := Prod.mk.inj own
        exact absurd member apart
      · exact later

/-- The amount handed out is the smaller of the demand and all there is. -/
theorem allocated_eq_min {demand : α} {queue : List κ} (nonneg : 0 ≤ demand)
    (positive : ∀ source ∈ queue, 0 < supply source) :
    allocated (allocate supply demand queue) = min demand (queue.map supply).sum := by
  induction queue generalizing demand with
  | nil => simpa using nonneg
  | cons source rest inductionHypothesis =>
      have restPositive : ∀ other ∈ rest, 0 < supply other :=
        fun other member => positive other (List.mem_cons_of_mem source member)
      have restNonneg : 0 ≤ (rest.map supply).sum := by
        refine List.sum_nonneg ?_
        intro quantity member
        obtain ⟨other, otherMember, rfl⟩ := List.mem_map.1 member
        exact (restPositive other otherMember).le
      have sourcePositive := positive source List.mem_cons_self
      by_cases wanted : demand = 0
      · subst wanted
        simp only [allocate_zero, allocated_nil, List.map_cons, List.sum_cons]
        exact (min_eq_left (add_nonneg sourcePositive.le restNonneg)).symm
      · rw [allocate_cons wanted, allocated_cons,
          inductionHypothesis (demand_left_nonneg supply demand source) restPositive,
          List.map_cons, List.sum_cons]
        rcases le_total demand (supply source) with enough | short
        · have covered : demand ≤ supply source + (rest.map supply).sum :=
            enough.trans (le_add_of_nonneg_right restNonneg)
          simp [min_eq_left enough, min_eq_left covered, min_eq_left restNonneg]
        · rw [min_eq_right short, ← min_add_add_left]
          simp

end
end Support
