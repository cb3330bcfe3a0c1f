import CmyMessage.Foundation.LabelledSystem
import Mathlib.Order.RelClasses

/-!
# Progress

Some steps may be taken and some are relied upon: the system does not rest while one of the latter
is enabled.  A goal is inevitable from a state when every run of steps that may be taken comes to
it, and a step that is relied upon is enabled until then.  For this it is enough that such a step is
enabled wherever the goal is not met, and that every step that may be taken there lowers a measure.
-/

namespace LabelledSystem

variable {σ ι : Type*} (system : LabelledSystem σ ι) (must may : σ → ι → Prop) (goal : σ → Prop)

/-- Whatever steps are taken of those that may be, and as long as those that must be are not put off
for ever, the goal is met. -/
inductive Inevitable : σ → Prop
  | met {state : σ} (here : goal state) : Inevitable state
  | onwards {state : σ}
      (enabled : ∃ label after, must state label ∧ system.step state label = some after)
      (leads : ∀ label after, may state label → system.step state label = some after →
        Inevitable after) : Inevitable state

variable {system must may goal}

/-- The progress rule. -/
theorem Inevitable.of_measure {α : Type*} [LT α] [WellFoundedLT α] (measure : σ → α)
    (assertion : σ → Prop)
    (progresses : ∀ state, assertion state → ¬ goal state →
      ∃ label after, must state label ∧ system.step state label = some after)
    (lowers : ∀ state label after, assertion state → ¬ goal state → may state label →
      system.step state label = some after → assertion after ∧ measure after < measure state)
    {state : σ} (holds : assertion state) : system.Inevitable must may goal state := by
  generalize height : measure state = level
  induction level using WellFoundedLT.induction generalizing state with
  | ind level ih =>
      by_cases here : goal state
      · exact .met here
      · refine .onwards (progresses state holds here) fun label after allows step => ?_
        obtain ⟨kept, lower⟩ := lowers state label after holds here allows step
        exact ih _ (height ▸ lower) kept rfl

end LabelledSystem
