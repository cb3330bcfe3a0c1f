import Mathlib.Logic.Relation

/-!
# Labelled transition systems and guarded runs

A label resolves every choice of a step, so a step is a partial function.  A run is guarded when
each of its labels meets a condition in the state where it is taken.  An assertion that holds at the
start and survives every guarded step holds in every state a guarded run reaches; the unguarded
notions are the case of the trivial guard.
-/

/-- A transition system whose labels resolve every choice of a step. -/
structure LabelledSystem (σ ι : Type*) where
  /-- The states in which a run may start. -/
  Initial : σ → Prop
  /-- The successor under a label, if the label is enabled. -/
  step : σ → ι → Option σ

namespace LabelledSystem

variable {σ ι : Type*} (system : LabelledSystem σ ι)

/-- States reached by a run all of whose steps meet `guard`. -/
inductive ReachesVia (guard : σ → ι → Prop) : σ → Prop
  | start {state : σ} (initial : system.Initial state) : ReachesVia guard state
  | next {before after : σ} {label : ι} (earlier : ReachesVia guard before)
      (guarded : guard before label) (step : system.step before label = some after) :
      ReachesVia guard after

/-- States reached by an arbitrary run. -/
def Reaches (state : σ) : Prop := system.ReachesVia (fun _ _ => True) state

variable {system} {guard : σ → ι → Prop}

theorem ReachesVia.weaken {weaker : σ → ι → Prop} {state : σ}
    (implies : ∀ before label, guard before label → weaker before label)
    (reached : system.ReachesVia guard state) : system.ReachesVia weaker state := by
  induction reached with
  | start initial => exact .start initial
  | next _ guarded step ih => exact .next ih (implies _ _ guarded) step

/-- A guard that every reached state provides may be added to a run. -/
theorem ReachesVia.strengthen {stronger : σ → ι → Prop} {state : σ}
    (implies : ∀ before label, system.ReachesVia guard before → guard before label →
      stronger before label) (reached : system.ReachesVia guard state) :
    system.ReachesVia stronger state := by
  induction reached with
  | start initial => exact .start initial
  | next earlier guarded step ih => exact .next ih (implies _ _ earlier guarded) step

theorem ReachesVia.reaches {state : σ} (reached : system.ReachesVia guard state) :
    system.Reaches state :=
  reached.weaken fun _ _ _ => trivial

/-- The invariant rule.  A step may use that the state it leaves was itself reached. -/
theorem ReachesVia.invariant {assertion : σ → Prop}
    (initially : ∀ state, system.Initial state → assertion state)
    (preserved : ∀ before label after, system.ReachesVia guard before → assertion before →
      guard before label → system.step before label = some after → assertion after)
    {state : σ} (reached : system.ReachesVia guard state) : assertion state := by
  induction reached with
  | start initial => exact initially _ initial
  | next earlier guarded step ih => exact preserved _ _ _ earlier ih guarded step

/-- The invariant rule for arbitrary runs. -/
theorem Reaches.invariant {assertion : σ → Prop}
    (initially : ∀ state, system.Initial state → assertion state)
    (preserved : ∀ before label after, system.Reaches before → assertion before →
      system.step before label = some after → assertion after)
    {state : σ} (reached : system.Reaches state) : assertion state :=
  ReachesVia.invariant initially
    (fun before label after earlier holds _ step => preserved before label after earlier holds step)
    reached

/-- The rule for systems that stop.  If every step starts in a running state and ends in one exactly
when it meets the guard, the running states are those reached by guarded steps. -/
theorem Reaches.running_iff {running : σ → Prop}
    (initially : ∀ state, system.Initial state → running state)
    (stops : ∀ before label after, system.step before label = some after →
      running before ∧ (running after ↔ guard before label))
    {state : σ} (reached : system.Reaches state) :
    running state ↔ system.ReachesVia guard state := by
  constructor
  · intro runs
    induction reached with
    | start initial => exact .start initial
    | next earlier _ step ih =>
        obtain ⟨ran, spares⟩ := stops _ _ _ step
        exact (ih ran).next (spares.mp runs) step
  · intro spared
    apply spared.invariant initially
    intro before label after _ _ guarded step
    exact (stops _ _ _ step).2.mpr guarded

/-- The rule for harm that stays.  If what is harmed stays so, and a step harms an unharmed state
exactly when it misses the guard, the unharmed states are those reached by guarded steps. -/
theorem Reaches.unharmed_iff {harmed : σ → Prop}
    (initially : ∀ state, system.Initial state → ¬ harmed state)
    (stays : ∀ before label after, system.Reaches before → harmed before →
      system.step before label = some after → harmed after)
    (strikes : ∀ before label after, system.Reaches before → ¬ harmed before →
      system.step before label = some after → (harmed after ↔ ¬ guard before label))
    {state : σ} (reached : system.Reaches state) :
    ¬ harmed state ↔ system.ReachesVia guard state := by
  constructor
  · intro unharmed
    induction reached with
    | start initial => exact .start initial
    | next earlier _ step ih =>
        have before := mt (fun was => stays _ _ _ earlier was step) unharmed
        have guarded := Classical.not_not.mp (mt (strikes _ _ _ earlier before step).mpr unharmed)
        exact (ih before).next guarded step
  · intro spared
    apply spared.invariant initially
    intro before label after earlier unharmed guarded step was
    exact (strikes before label after earlier.reaches unharmed step).mp was guarded

variable (system) in
/-- One state is reached from another. -/
def Follows : σ → σ → Prop :=
  Relation.ReflTransGen fun before after => ∃ label, system.step before label = some after

theorem Follows.invariant {assertion : σ → Prop}
    (preserved : ∀ before label after, assertion before →
      system.step before label = some after → assertion after)
    {state later : σ} (initially : assertion state) (follows : system.Follows state later) :
    assertion later := by
  induction follows with
  | refl => exact initially
  | tail _ step ih =>
      obtain ⟨label, step⟩ := step
      exact preserved _ label _ ih step

theorem Reaches.follows {state later : σ} (reached : system.Reaches state)
    (follows : system.Follows state later) : system.Reaches later :=
  follows.invariant (fun _ _ _ earlier step => earlier.next trivial step) reached

variable (system) in
/-- Execute labels, failing at the first one that is not enabled or does not meet a condition. -/
def execute (condition : σ → ι → Bool) : σ → List ι → Option σ
  | state, [] => some state
  | state, label :: labels =>
      if condition state label then
        (system.step state label).bind fun next => execute condition next labels
      else
        none

theorem Follows.execute {condition : σ → ι → Bool} {before after : σ} {labels : List ι}
    (executed : system.execute condition before labels = some after) :
    system.Follows before after := by
  induction labels generalizing before with
  | nil =>
      cases executed
      exact .refl
  | cons label labels ih =>
      rw [LabelledSystem.execute] at executed
      split at executed
      · obtain ⟨middle, step, rest⟩ := Option.bind_eq_some_iff.mp executed
        exact .head ⟨label, step⟩ (ih rest)
      · cases executed

theorem ReachesVia.execute {condition : σ → ι → Bool} {before after : σ} {labels : List ι}
    (reached : system.ReachesVia (fun state label => condition state label = true) before)
    (executed : system.execute condition before labels = some after) :
    system.ReachesVia (fun state label => condition state label = true) after := by
  induction labels generalizing before with
  | nil => exact (Option.some.inj executed) ▸ reached
  | cons label labels ih =>
      rw [LabelledSystem.execute] at executed
      split at executed
      · obtain ⟨middle, step, rest⟩ := Option.bind_eq_some_iff.mp executed
        exact ih (reached.next ‹_› step) rest
      · cases executed

/-- An execution that does not fail ends in a reached state. -/
theorem ReachesVia.execute_getD {condition : σ → ι → Bool} {before : σ} {labels : List ι}
    (reached : system.ReachesVia (fun state label => condition state label = true) before)
    (executes : (system.execute condition before labels).isSome = true) :
    system.ReachesVia (fun state label => condition state label = true)
      ((system.execute condition before labels).getD before) := by
  obtain ⟨after, executed⟩ := Option.isSome_iff_exists.mp executes
  rw [executed]
  exact reached.execute executed

end LabelledSystem
