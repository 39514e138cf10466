import Mathlib.Data.List.Chain
import Mathlib.Order.Lattice

/-!
# Half-open intervals in a row

A list of items, each of which covers the points from its lower bound up to its upper one.  Where
the bounds never fall along the list, the items cover every point from the first lower bound to
the last upper bound exactly once if and only if each item begins where the one before it ends.
-/

namespace Support

section Intervals

variable {α β : Type} [LinearOrder α] (lower upper : β → α)

/-- The items that cover a point. -/
def covering (items : List β) (point : α) : List β :=
  items.filter fun item => decide (lower item ≤ point ∧ point < upper item)

/-- No item ends before it begins, and the bounds never fall. -/
structure Rising (items : List β) : Prop where
  ordered : ∀ item ∈ items, lower item ≤ upper item
  lowers : items.Pairwise fun left right => lower left ≤ lower right
  uppers : items.Pairwise fun left right => upper left ≤ upper right

/-- Each item begins where the one before it ends. -/
def Adjoining (items : List β) : Prop :=
  items.IsChain fun left right => upper left = lower right

/-- One item covers the point, or the point lies at or above the last upper bound. -/
def CoveredOnce (items : List β) (point : α) : Prop :=
  (∃ item, covering lower upper items point = [item]) ∨
    ∃ last, items.getLast? = some last ∧ upper last ≤ point

variable {lower upper} {items rest : List β} {first item : β} {point : α}

theorem mem_covering : item ∈ covering lower upper items point ↔
    item ∈ items ∧ lower item ≤ point ∧ point < upper item := by
  simp [covering]

theorem covering_append (left right : List β) :
    covering lower upper (left ++ right) point =
      covering lower upper left point ++ covering lower upper right point :=
  List.filter_append left right

theorem covering_cons_of_covers (covers : lower first ≤ point ∧ point < upper first) :
    covering lower upper (first :: rest) point = first :: covering lower upper rest point :=
  List.filter_cons_of_pos (decide_eq_true covers)

theorem covering_cons_of_ended (ended : ¬point < upper first) :
    covering lower upper (first :: rest) point = covering lower upper rest point :=
  List.filter_cons_of_neg (by simp [ended])

theorem Rising.tail (rising : Rising lower upper (first :: rest)) : Rising lower upper rest where
  ordered item member := rising.ordered item (List.mem_cons_of_mem first member)
  lowers := (List.pairwise_cons.1 rising.lowers).2
  uppers := (List.pairwise_cons.1 rising.uppers).2

/-- No item begins before the first. -/
theorem Rising.first_le (rising : Rising lower upper (first :: rest))
    (member : item ∈ first :: rest) : lower first ≤ lower item := by
  rcases List.mem_cons.1 member with rfl | inRest
  · exact le_rfl
  · exact (List.pairwise_cons.1 rising.lowers).1 item inRest

theorem rising_nil : Rising lower upper [] where
  ordered _ member := absurd member List.not_mem_nil
  lowers := List.Pairwise.nil
  uppers := List.Pairwise.nil

/-- It is enough to compare an item with the next one. -/
theorem Rising.cons (rising : Rising lower upper rest) (ordered : lower first ≤ upper first)
    (next : ∀ second ∈ rest.head?, lower first ≤ lower second ∧ upper first ≤ upper second) :
    Rising lower upper (first :: rest) := by
  have later : ∀ item ∈ rest, lower first ≤ lower item ∧ upper first ≤ upper item := by
    cases rest with
    | nil => exact fun item member => absurd member List.not_mem_nil
    | cons second others =>
        have nearby := next second rfl
        intro item member
        rcases List.mem_cons.1 member with rfl | inOthers
        · exact nearby
        · exact ⟨nearby.1.trans ((List.pairwise_cons.1 rising.lowers).1 item inOthers),
            nearby.2.trans ((List.pairwise_cons.1 rising.uppers).1 item inOthers)⟩
  refine ⟨fun item member => ?_, ?_, ?_⟩
  · rcases List.mem_cons.1 member with rfl | inRest
    · exact ordered
    · exact rising.ordered item inRest
  · exact List.pairwise_cons.2 ⟨fun item member => (later item member).1, rising.lowers⟩
  · exact List.pairwise_cons.2 ⟨fun item member => (later item member).2, rising.uppers⟩

/-- At or above the last upper bound, no item covers a point. -/
theorem Rising.covering_eq_nil {last : β} (rising : Rising lower upper items)
    (isLast : items.getLast? = some last) (ended : upper last ≤ point) :
    covering lower upper items point = [] := by
  obtain ⟨before, rfl⟩ := List.getLast?_eq_some_iff.1 isLast
  obtain ⟨-, -, across⟩ := List.pairwise_append.1 rising.uppers
  apply List.eq_nil_iff_forall_not_mem.2
  intro item member
  obtain ⟨inside, -, unended⟩ := mem_covering.1 member
  rcases List.mem_append.1 inside with inBefore | isItem
  · exact (unended.trans_le (across item inBefore last List.mem_cons_self)).not_ge ended
  · rw [List.mem_singleton.1 isItem] at unended
    exact unended.not_ge ended

/-- Items that adjoin cover each point from the first lower bound on once, up to the last upper
bound. -/
theorem Adjoining.coveredOnce (rising : Rising lower upper (first :: rest))
    (adjoining : Adjoining lower upper (first :: rest)) (above : lower first ≤ point) :
    CoveredOnce lower upper (first :: rest) point := by
  induction rest generalizing first with
  | nil =>
      by_cases below : point < upper first
      · exact Or.inl ⟨first, by simp [covering, above, below]⟩
      · exact Or.inr ⟨first, rfl, not_lt.1 below⟩
  | cons second rest inductionHypothesis =>
      obtain ⟨meets, others⟩ := List.isChain_cons_cons.1 adjoining
      by_cases below : point < upper first
      · -- the later items begin after the point
        have none : covering lower upper (second :: rest) point = [] := by
          apply List.eq_nil_iff_forall_not_mem.2
          intro item member
          obtain ⟨inside, begun, -⟩ := mem_covering.1 member
          have later := rising.tail.first_le inside
          exact absurd (later.trans begun) (not_le.2 (meets ▸ below))
        exact Or.inl ⟨first, by rw [covering_cons_of_covers ⟨above, below⟩, none]⟩
      · rw [CoveredOnce, covering_cons_of_ended below, List.getLast?_cons_cons]
        exact inductionHypothesis rising.tail others (meets ▸ not_lt.1 below)

/-- If the bounds are covered once, then the items adjoin: a gap leaves its lower end uncovered,
and an overlap covers its lower end twice. -/
theorem adjoining_of_coveredOnce (rising : Rising lower upper items)
    (covered : ∀ item ∈ items, CoveredOnce lower upper items (lower item) ∧
      CoveredOnce lower upper items (upper item)) :
    Adjoining lower upper items := by
  apply List.isChain_iff_forall_rel_of_append_cons_cons.2
  rintro left right before after rfl
  have leftMember : left ∈ before ++ left :: right :: after := by simp
  have rightMember : right ∈ before ++ left :: right :: after := by simp
  obtain ⟨-, lowers, -⟩ := List.pairwise_append.1 rising.lowers
  obtain ⟨-, uppers, across⟩ := List.pairwise_append.1 rising.uppers
  obtain ⟨leftFirst, laterLowers⟩ := List.pairwise_cons.1 lowers
  have later : ∀ item ∈ right :: after, lower right ≤ lower item := by
    intro item member
    rcases List.mem_cons.1 member with rfl | inAfter
    · exact le_rfl
    · exact (List.pairwise_cons.1 laterLowers).1 item inAfter
  have noGap : lower right ≤ upper left := by
    by_contra gap
    rcases (covered left leftMember).2 with ⟨item, only⟩ | ⟨last, isLast, ended⟩
    · obtain ⟨member, begun, unended⟩ := mem_covering.1 (only ▸ List.mem_singleton_self item)
      rcases List.mem_append.1 member with inBefore | inRest
      · exact absurd (across item inBefore left List.mem_cons_self) (not_le.2 unended)
      · rcases List.mem_cons.1 inRest with rfl | inLater
        · exact unended.false
        · exact gap ((later item inLater).trans begun)
    · rw [List.getLast?_append_cons, List.getLast?_cons_cons] at isLast
      have inLater := List.mem_of_getLast? isLast
      have member : last ∈ before ++ left :: right :: after := by simp [inLater]
      exact gap ((later last inLater).trans ((rising.ordered last member).trans ended))
  have noOverlap : upper left ≤ lower right := by
    by_contra overlap
    have leftCovers : lower left ≤ lower right ∧ lower right < upper left :=
      ⟨leftFirst right List.mem_cons_self, not_le.1 overlap⟩
    have rightCovers : lower right ≤ lower right ∧ lower right < upper right :=
      ⟨le_rfl, leftCovers.2.trans_le ((List.pairwise_cons.1 uppers).1 right List.mem_cons_self)⟩
    have both : covering lower upper (before ++ left :: right :: after) (lower right) =
        covering lower upper before (lower right) ++
          left :: right :: covering lower upper after (lower right) := by
      rw [covering_append, covering_cons_of_covers leftCovers, covering_cons_of_covers rightCovers]
    rcases (covered right rightMember).1 with ⟨item, only⟩ | ⟨last, isLast, ended⟩
    · have length := congrArg List.length (both.symm.trans only)
      simp only [List.length_append, List.length_cons, List.length_nil] at length
      omega
    · exact absurd (both.symm.trans (rising.covering_eq_nil isLast ended)) (by simp)
  exact le_antisymm noOverlap noGap

end Intervals

end Support
