import Mathlib.Data.List.Basic
import Std.Data.String.ToNat
import Mathlib.Tactic.Common

/-!
# Fields with a separator

Fields that do not contain a separator can be read back from their joined form.  The
instance used here joins three numbers with underscores.
-/

namespace Support

universe u

/-- The first field ends at the first separator. -/
theorem append_separator_inj {α : Type u} {separator : α} {first second : List α}
    {firstRest secondRest : List α} (firstClean : separator ∉ first)
    (secondClean : separator ∉ second)
    (same : first ++ separator :: firstRest = second ++ separator :: secondRest) :
    first = second ∧ firstRest = secondRest := by
  induction first generalizing second with
  | nil =>
      cases second with
      | nil => exact ⟨rfl, (List.cons.inj same).2⟩
      | cons item rest =>
          have head : separator = item := (List.cons.inj same).1
          exact absurd (head ▸ List.mem_cons_self) secondClean
  | cons item rest inductionHypothesis =>
      cases second with
      | nil =>
          have head : item = separator := (List.cons.inj same).1
          exact absurd (head ▸ List.mem_cons_self) firstClean
      | cons other others =>
          obtain ⟨head, tail⟩ := List.cons.inj same
          obtain ⟨sameRest, sameEnd⟩ := inductionHypothesis
            (fun member => firstClean (List.mem_cons_of_mem item member))
            (fun member => secondClean (List.mem_cons_of_mem other member)) tail
          exact ⟨by rw [head, sameRest], sameEnd⟩

/-- A decimal numeral contains no underscore. -/
theorem underscore_not_mem_repr (value : Nat) : '_' ∉ (Nat.repr value).toList := by
  intro member
  rw [Nat.toList_repr] at member
  have digit := Nat.isDigit_of_mem_toDigits (by decide) (by decide) member
  exact absurd digit (by decide)

/-- Three numbers after a tag, separated by underscores. -/
def underscored (tag : String) (first second third : Nat) : String :=
  tag ++ toString first ++ "_" ++ toString second ++ "_" ++ toString third

theorem toList_underscored (tag : String) (first second third : Nat) :
    (underscored tag first second third).toList =
      tag.toList ++ ((Nat.repr first).toList ++ '_' ::
        ((Nat.repr second).toList ++ '_' :: (Nat.repr third).toList)) := by
  simp [underscored, Nat.toString_eq_repr]

theorem underscored_inj {tag : String} {first second third first' second' third' : Nat}
    (same : underscored tag first second third = underscored tag first' second' third') :
    first = first' ∧ second = second' ∧ third = third' := by
  have characters := congrArg String.toList same
  rw [toList_underscored, toList_underscored, List.append_cancel_left_eq] at characters
  obtain ⟨firstSame, rest⟩ := append_separator_inj (underscore_not_mem_repr first)
    (underscore_not_mem_repr first') characters
  obtain ⟨secondSame, thirdSame⟩ := append_separator_inj (underscore_not_mem_repr second)
    (underscore_not_mem_repr second') rest
  exact ⟨Nat.repr_inj.1 (String.toList_inj.1 firstSame),
    Nat.repr_inj.1 (String.toList_inj.1 secondSame),
    Nat.repr_inj.1 (String.toList_inj.1 thirdSame)⟩

/-- Tags that start with different letters give different keys. -/
theorem underscored_ne {tag tag' : String} (apart : tag.toList.head? ≠ tag'.toList.head?)
    (tagged : tag.toList ≠ []) (tagged' : tag'.toList ≠ [])
    (first second third first' second' third' : Nat) :
    underscored tag first second third ≠ underscored tag' first' second' third' := by
  intro same
  have characters := congrArg (fun key : String => key.toList.head?) same
  simp only [toList_underscored, List.head?_append_of_ne_nil _ tagged,
    List.head?_append_of_ne_nil _ tagged'] at characters
  exact apart characters

end Support
