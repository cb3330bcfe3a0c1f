import Mathlib.Data.List.Range
import Mathlib.Data.Nat.Notation

/-!
# Scanning a set of numbers

A scan visits the members of a set from zero on.  Its state is a bound: the members below it were
visited, in ascending order.  The bound moves behind the next member, or to the end if there is
none.
-/

namespace AscendingScan

variable {set : ℕ → Bool}

/-- The members of a set below a bound, in ascending order. -/
def below (set : ℕ → Bool) (bound : ℕ) : List ℕ := (List.range bound).filter set

/-- The first member from some number on, below a limit. -/
def next (set : ℕ → Bool) (limit start : ℕ) : Option ℕ :=
  (List.range limit).find? fun member => decide (start ≤ member) && set member

@[simp]
theorem below_zero (set : ℕ → Bool) : below set 0 = [] := rfl

theorem below_succ_of_member {member : ℕ} (inside : set member = true) :
    below set (member + 1) = below set member ++ [member] := by
  rw [below, List.range_succ, List.filter_append, List.filter_singleton, inside]
  rfl

theorem below_succ_of_not {other : ℕ} (outside : set other = false) :
    below set (other + 1) = below set other := by
  rw [below, List.range_succ, List.filter_append, List.filter_singleton, outside]
  exact List.append_nil _

/-- A gap adds nothing. -/
theorem below_eq_of_gap {start stop : ℕ} (ascending : start ≤ stop)
    (gap : ∀ other, start ≤ other → other < stop → set other = false) :
    below set stop = below set start := by
  induction stop, ascending using Nat.le_induction with
  | base => rfl
  | succ stop ascending ih =>
      rw [below_succ_of_not (gap stop ascending stop.lt_succ_self)]
      exact ih fun other from' before => gap other from' (Nat.lt_succ_of_lt before)

theorem below_isPrefix {start stop : ℕ} (ascending : start ≤ stop) :
    below set start <+: below set stop := by
  induction stop, ascending using Nat.le_induction with
  | base => exact List.prefix_rfl
  | succ stop ascending ih =>
      cases inside : set stop with
      | false => exact (below_succ_of_not inside).symm ▸ ih
      | true => exact ih.trans (below_succ_of_member inside ▸ List.prefix_append _ _)

/-- Nothing is visited twice or out of order. -/
theorem below_pairwise (set : ℕ → Bool) (bound : ℕ) : (below set bound).Pairwise (· < ·) :=
  List.pairwise_lt_range.filter set

theorem next_eq_some {limit start member : ℕ} (found : next set limit start = some member) :
    start ≤ member ∧ member < limit ∧ set member = true ∧
      below set member = below set start := by
  obtain ⟨isNext, inside, earlier⟩ := List.find?_range_eq_some.mp found
  rw [Bool.and_eq_true, decide_eq_true_eq] at isNext
  refine ⟨isNext.1, List.mem_range.mp inside, isNext.2, below_eq_of_gap isNext.1 ?_⟩
  intro other from' before
  simpa [from'] using earlier other before

theorem next_eq_none {limit start : ℕ} (within : start ≤ limit)
    (missing : next set limit start = none) : below set limit = below set start := by
  apply below_eq_of_gap within
  intro other from' before
  simpa [from'] using List.find?_range_eq_none.mp missing other before

/-- From a member on, there is a next member. -/
theorem next_isSome {limit start member : ℕ} (from' : start ≤ member) (before : member < limit)
    (inside : set member = true) : ∃ first, next set limit start = some first ∧ first ≤ member := by
  cases found : next set limit start with
  | none =>
      have outside := List.find?_range_eq_none.mp found member before
      simp [from', inside] at outside
  | some first =>
      refine ⟨first, rfl, ?_⟩
      by_contra later
      obtain ⟨-, -, earlier⟩ := List.find?_range_eq_some.mp found
      simpa [from', inside] using earlier member (by omega)

end AscendingScan
