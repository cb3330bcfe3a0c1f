import Mathlib.Algebra.BigOperators.Group.Finset.Basic
import Mathlib.Data.Fintype.BigOperators

/-!
# Counting the members of a family

How many members of a finite family have a property, and how the number changes with one member.
-/

/-- The number of members of a family with a property. -/
def census {ι α : Type*} [Fintype ι] (property : α → Bool) (family : ι → α) : Nat :=
  ∑ i, (property (family i)).toNat

theorem census_update {ι α : Type*} [Fintype ι] [DecidableEq ι] (property : α → Bool)
    (family : ι → α) (i : ι) (member : α) :
    census property (Function.update family i member) + (property (family i)).toNat =
      census property family + (property member).toNat := by
  have others : ∑ j ∈ Finset.univ.erase i, (property (Function.update family i member j)).toNat =
      ∑ j ∈ Finset.univ.erase i, (property (family j)).toNat := by
    apply Finset.sum_congr rfl
    intro j different
    rw [Function.update_of_ne (Finset.ne_of_mem_erase different)]
  rw [census, census, ← Finset.add_sum_erase _ _ (Finset.mem_univ i),
    ← Finset.add_sum_erase _ (fun j => (property (family j)).toNat) (Finset.mem_univ i), others,
    Function.update_self]
  omega

theorem exists_of_census_pos {ι α : Type*} [Fintype ι] {property : α → Bool} {family : ι → α}
    (positive : 0 < census property family) : ∃ i, property (family i) = true := by
  obtain ⟨i, -, counted⟩ := Finset.exists_ne_zero_of_sum_ne_zero positive.ne'
  refine ⟨i, ?_⟩
  cases holds : property (family i) with
  | true => rfl
  | false =>
      rw [holds] at counted
      exact absurd rfl counted
