import Mathlib.Data.List.Induction
import Mathlib.Data.List.Perm.Subperm
import Mathlib.Data.List.Sort

/-!
# Turns in one order

Turns are taken one behind another, and each is due to some receivers.  A log of what was handed out
that is a prefix of what is due shows every receiver the turns in one common order, each at most
once, and reaches a turn only when the turns before it are complete.
-/

namespace Turns

variable {κ β γ : Type*} {turns : List (List κ)} {log : List (ℕ × κ)}

/-- What is due: the receivers of each turn under its number, turn by turn. -/
def schedule (turns : List (List κ)) : List (ℕ × κ) :=
  turns.zipIdx.flatMap fun turn => turn.1.map (turn.2, ·)

/-- The numbers of the turns in which a receiver was handed something. -/
def seen [DecidableEq κ] (log : List (ℕ × κ)) (receiver : κ) : List ℕ :=
  (log.filter fun entry => decide (entry.2 = receiver)).map Prod.fst

@[simp]
theorem schedule_nil : schedule ([] : List (List κ)) = [] := rfl

theorem schedule_concat (turns : List (List κ)) (receivers : List κ) :
    schedule (turns ++ [receivers]) = schedule turns ++ receivers.map (turns.length, ·) := by
  simp [schedule, List.zipIdx_append]

theorem mem_schedule {number : ℕ} {receiver : κ} :
    (number, receiver) ∈ schedule turns ↔
      ∃ receivers, turns[number]? = some receivers ∧ receiver ∈ receivers := by
  simp only [schedule, List.mem_flatMap, List.mem_map, Prod.mk.injEq, Prod.exists,
    List.mem_zipIdx_iff_getElem?]
  constructor
  · rintro ⟨receivers, _, here, _, member, rfl, rfl⟩
    exact ⟨receivers, here, member⟩
  · rintro ⟨receivers, here, member⟩
    exact ⟨receivers, number, here, receiver, member, rfl, rfl⟩

theorem lt_length_of_mem {number : ℕ} {receiver : κ} (due : (number, receiver) ∈ schedule turns) :
    number < turns.length := by
  obtain ⟨receivers, here, -⟩ := mem_schedule.mp due
  exact (List.getElem?_eq_some_iff.mp here).1

/-- Earlier turns come first. -/
theorem schedule_ordered (turns : List (List κ)) :
    (schedule turns).Pairwise fun left right => left.1 ≤ right.1 := by
  induction turns using List.reverseRecOn with
  | nil => exact .nil
  | append_singleton turns receivers ih =>
      rw [schedule_concat, List.pairwise_append]
      refine ⟨ih, ?_, ?_⟩
      · rw [List.pairwise_map]
        exact List.pairwise_of_forall fun _ _ => le_rfl
      · rintro ⟨number, receiver⟩ due entry new
        obtain ⟨_, -, rfl⟩ := List.mem_map.mp new
        exact (lt_length_of_mem due).le

/-- Nothing is due twice if nobody appears twice in a turn. -/
theorem schedule_nodup (once : ∀ receivers ∈ turns, receivers.Nodup) : (schedule turns).Nodup := by
  induction turns using List.reverseRecOn with
  | nil => exact .nil
  | append_singleton turns receivers ih =>
      rw [schedule_concat, List.nodup_append]
      refine ⟨ih fun others member => once others (List.mem_append_left _ member), ?_, ?_⟩
      · apply (once receivers (List.mem_append_right _ List.mem_cons_self)).map
        exact Prod.mk_right_injective _
      · rintro ⟨number, receiver⟩ due entry new rfl
        obtain ⟨_, -, same⟩ := List.mem_map.mp new
        have earlier := lt_length_of_mem due
        rw [← (Prod.mk.inj same).1] at earlier
        exact earlier.false

/-- A receiver sees the turns in their order and none of them twice. -/
theorem seen_pairwise [DecidableEq κ] (once : ∀ receivers ∈ turns, receivers.Nodup)
    (kept : log <+: schedule turns) (receiver : κ) : (seen log receiver).Pairwise (· < ·) := by
  have ordered := (schedule_ordered turns).sublist kept.sublist
  have distinct := (schedule_nodup once).sublist kept.sublist
  rw [seen, List.pairwise_map]
  refine ((ordered.and distinct).filter _).imp_of_mem ?_
  intro left right inLeft inRight apart
  have toLeft := of_decide_eq_true (List.mem_filter.mp inLeft).2
  have toRight := of_decide_eq_true (List.mem_filter.mp inRight).2
  exact apart.1.lt_of_ne fun same => apart.2 (Prod.ext same (toLeft.trans toRight.symm))

/-- Once a turn was begun, whatever is due in the turns before it has been handed out. -/
theorem complete_of_later (kept : log <+: schedule turns) {earlier later : ℕ} {receiver other : κ}
    (before : earlier < later) (begun : (later, other) ∈ log)
    (due : (earlier, receiver) ∈ schedule turns) : (earlier, receiver) ∈ log := by
  have ordered := schedule_ordered turns
  obtain ⟨rest, whole⟩ := kept
  rw [← whole, List.pairwise_append] at ordered
  rw [← whole, List.mem_append] at due
  refine due.resolve_right fun missing => ?_
  exact absurd (ordered.2.2 _ begun _ missing) before.not_ge

/-- Items picked from a list at ascending places stand in the order of the list. -/
theorem picked_sublist {contents : List γ} {entries : List β} {place : β → ℕ} {content : β → γ}
    (ascending : (entries.map place).Pairwise (· < ·))
    (picked : ∀ entry ∈ entries, contents[place entry]? = some (content entry)) :
    (entries.map content).Sublist contents := by
  have inside : (entries.map place).Sublist (List.range contents.length) := by
    apply List.sublist_of_subperm_of_pairwise _ ascending List.pairwise_lt_range
    have distinct : (entries.map place).Nodup := ascending.imp fun smaller => smaller.ne
    apply distinct.subperm
    intro number member
    obtain ⟨entry, here, rfl⟩ := List.mem_map.mp member
    exact List.mem_range.mpr (List.getElem?_eq_some_iff.mp (picked entry here)).1
  have whole : (List.range contents.length).filterMap (contents[·]?) = contents := by
    clear inside picked
    induction contents with
    | nil => rfl
    | cons first contents ih =>
        rw [List.length_cons, List.range_succ_eq_map, List.filterMap_cons, List.filterMap_map]
        exact congrArg (first :: ·) ih
  have taken : (entries.map place).filterMap (contents[·]?) = entries.map content := by
    rw [List.filterMap_map, ← List.filterMap_eq_map]
    exact List.filterMap_congr picked
  rw [← whole, ← taken]
  exact inside.filterMap _

end Turns
