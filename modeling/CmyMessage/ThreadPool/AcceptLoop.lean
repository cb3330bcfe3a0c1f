import CmyMessage.ThreadPool.Steps

/-!
# Leaving the accept loop

The loop of `accept_incoming_connections` ends on `quit_signal_val`, which is read from the quit
signal only in an iteration that accepted a connection.  A record of the iterations of a run keeps,
beside what `accept` returned, the signal that the test at the end of the iteration should see: the
value read under the mutex, or the value at the time of the `continue`.
-/

namespace CmyMessage

/-- The thread is in the loop of `accept_incoming_connections`. -/
def AcceptorPc.inLoop : AcceptorPc → Bool
  | lockPending | reject | unlockPending | finished => false
  | _ => true

/-- An iteration of the accept loop that has ended. -/
structure Iteration where
  /-- `accept_connection` returned a client. -/
  accepted : Bool
  /-- The quit signal at its end. -/
  signal : Bool
  /-- The loop was left. -/
  left : Bool
  deriving DecidableEq

/-- What `quit_signal_val` holds after some iterations that began with it holding `start`. -/
def lastRead (start : Bool) (iterations : List Iteration) : Bool :=
  iterations.foldl (fun value iteration => if iteration.accepted then iteration.signal else value)
    start

@[simp]
theorem lastRead_concat (start : Bool) (iterations : List Iteration) (iteration : Iteration) :
    lastRead start (iterations ++ [iteration]) =
      if iteration.accepted then iteration.signal else lastRead start iterations := by
  simp [lastRead]

namespace ThreadPool

variable {size : Nat}

/-- A pool with a record of its accept loop. -/
structure Recorded (size : Nat) where
  /-- The pool. -/
  pool : ThreadPool size
  /-- What `quit_signal_val` held when the thread started. -/
  start : Bool
  /-- The quit signal when the current iteration read it. -/
  seen : Bool
  /-- The iterations that have ended. -/
  iterations : List Iteration

namespace Recorded

/-- Record the end of an iteration with a step of the pool. -/
def ends (state : Recorded size) (after : ThreadPool size) (accepted signal : Bool) :
    Recorded size :=
  { state with
    pool := after
    iterations := state.iterations ++ [⟨accepted, signal, !after.acceptor.pc.inLoop⟩] }

/-- Record a step of the accepting thread. -/
def follow (state : Recorded size) (after : ThreadPool size) : AcceptorPc → AcceptorInput size →
    Recorded size
  | .accept, .accepted false => state.ends after false state.pool.quitSignal
  | .readQuit, .tick => { state with pool := after, seen := state.pool.quitSignal }
  | .unlockQuit, .tick => state.ends after true state.seen
  | _, _ => { state with pool := after }

end Recorded

/-- The accept loop of a pool, step by step with its record. -/
def acceptLoop (size : Nat) : LabelledSystem (Recorded size) (Label size) where
  Initial state := state.pool.Starts ∧ state.start = state.pool.acceptor.quitSignalVal ∧
    state.iterations = []
  step state label := (state.pool.step label).map fun after =>
    match label with
    | .accept input => state.follow after state.pool.acceptor.pc input
    | _ => { state with pool := after }

theorem Recorded.follow_pool (state : Recorded size) (after : ThreadPool size) (pc : AcceptorPc)
    (input : AcceptorInput size) : (state.follow after pc input).pool = after := by
  unfold Recorded.follow
  split <;> rfl

/-- The record does not hold the pool up. -/
theorem acceptLoop_step_pool {state : Recorded size} {label : Label size}
    {after : ThreadPool size} (step : (threadPool size).step state.pool label = some after) :
    ∃ next, (acceptLoop size).step state label = some next ∧ next.pool = after := by
  refine ⟨_, congrArg (Option.map _) step, ?_⟩
  cases label with
  | accept input => exact state.follow_pool after state.pool.acceptor.pc input
  | work worker => rfl
  | quit => rfl

/-- Every run of the pool has a record. -/
theorem exists_recorded {pool : ThreadPool size} (reached : (threadPool size).Reaches pool) :
    ∃ state, (acceptLoop size).Reaches state ∧ state.pool = pool := by
  induction reached with
  | @start pool initial =>
      exact ⟨⟨pool, pool.acceptor.quitSignalVal, false, []⟩, .start ⟨initial, rfl, rfl⟩, rfl⟩
  | next _ _ step ih =>
      obtain ⟨state, reached, rfl⟩ := ih
      obtain ⟨next, followed, same⟩ := acceptLoop_step_pool step
      exact ⟨next, reached.next trivial followed, same⟩

/-! ## What a step does to the loop -/

/-- Everything a step can do to the accept loop. -/
inductive LoopStep (state : Recorded size) : Recorded size → Prop
  /-- `continue` -/
  | fails {after : ThreadPool size} (position : state.pool.acceptor.pc = .accept)
      (acceptor : after.acceptor = ⟨acceptAgain state.pool.acceptor,
        state.pool.acceptor.quitSignalVal⟩) :
      LoopStep state (state.ends after false state.pool.quitSignal)
  /-- `quit_signal_val = *p_quit_signal` -/
  | reads {after : ThreadPool size} (position : state.pool.acceptor.pc = .readQuit)
      (acceptor : after.acceptor = ⟨.unlockQuit, state.pool.quitSignal⟩) :
      LoopStep state { state with pool := after, seen := state.pool.quitSignal }
  /-- The condition of the loop after a read. -/
  | tests {after : ThreadPool size} (position : state.pool.acceptor.pc = .unlockQuit)
      (acceptor : after.acceptor = ⟨acceptAgain state.pool.acceptor,
        state.pool.acceptor.quitSignalVal⟩) :
      LoopStep state (state.ends after true state.seen)
  /-- Any other step. -/
  | moves {after : ThreadPool size}
      (loop : after.acceptor.pc.inLoop = state.pool.acceptor.pc.inLoop)
      (value : after.acceptor.quitSignalVal = state.pool.acceptor.quitSignalVal)
      (tests : after.acceptor.pc = .unlockQuit ↔ state.pool.acceptor.pc = .unlockQuit) :
      LoopStep state { state with pool := after }

theorem acceptor_loopStep {state : Recorded size} {after : ThreadPool size}
    {input : AcceptorInput size}
    (step : state.pool.acceptIncomingConnections state.pool.acceptor.pc input = some after) :
    LoopStep state (state.follow after state.pool.acceptor.pc input) := by
  revert step
  generalize position : state.pool.acceptor.pc = pc
  fun_cases acceptIncomingConnections
  all_goals
    intro step
    first
    | obtain ⟨locked, taken, rfl⟩ := Option.map_eq_some_iff.mp step
      obtain ⟨-, rfl⟩ := lock_eq_some taken
    | cases step
  all_goals first
    | exact .fails position rfl
    | exact .reads position rfl
    | exact .tests position rfl
    | refine .moves ?_ rfl ?_ <;>
        simp [acceptorTo, unlock, dequeueBy, workerTo, position, AcceptorPc.inLoop]

theorem loop_cases {state next : Recorded size} {label : Label size}
    (step : (acceptLoop size).step state label = some next) : LoopStep state next := by
  obtain ⟨after, moved, rfl⟩ := Option.map_eq_some_iff.mp step
  cases label with
  | accept input => exact acceptor_loopStep moved
  | work worker =>
      have same := (worker_step moved).acceptor
      exact .moves (by rw [same]) (by rw [same]) (by rw [same])
  | quit =>
      cases moved
      exact .moves rfl rfl Iff.rfl

theorem acceptAgain_inLoop (acceptor : Acceptor) :
    (acceptAgain acceptor).inLoop = !acceptor.quitSignalVal := by
  rw [acceptAgain]
  cases acceptor.quitSignalVal <;> rfl

theorem acceptAgain_ne_unlockQuit (acceptor : Acceptor) : acceptAgain acceptor ≠ .unlockQuit := by
  rw [acceptAgain]
  cases acceptor.quitSignalVal <;> simp

/-- An iteration in a list with one more at its end is that one, or was there before. -/
theorem concat_eq_append_cons {iterations earlier later : List Iteration}
    {added iteration : Iteration} (split : iterations ++ [added] = earlier ++ iteration :: later) :
    earlier = iterations ∧ iteration = added ∧ later = [] ∨
      ∃ before, later = before ++ [added] ∧ iterations = earlier ++ iteration :: before := by
  rcases List.eq_nil_or_concat' later with rfl | ⟨before, last, rfl⟩
  · obtain ⟨same, one⟩ := List.append_inj' split rfl
    exact .inl ⟨same.symm, (List.singleton_inj.mp one).symm, rfl⟩
  · rw [← List.cons_append, ← List.append_assoc] at split
    obtain ⟨same, one⟩ := List.append_inj' split rfl
    exact .inr ⟨before, by rw [List.singleton_inj.mp one], same⟩

/-- How the iterations that have ended explain where the accepting thread is. -/
structure Explained (state : Recorded size) : Prop where
  value : state.pool.acceptor.pc ≠ .unlockQuit →
    state.pool.acceptor.quitSignalVal = lastRead state.start state.iterations
  fresh : state.pool.acceptor.pc = .unlockQuit → state.pool.acceptor.quitSignalVal = state.seen
  looping : state.pool.acceptor.pc.inLoop = true ↔
    ∀ iteration ∈ state.iterations, iteration.left = false
  decided : ∀ earlier iteration later, state.iterations = earlier ++ iteration :: later →
    iteration.left =
      if iteration.accepted then iteration.signal else lastRead state.start earlier
  last : ∀ earlier iteration later, state.iterations = earlier ++ iteration :: later →
    iteration.left = true → later = []

/-- An iteration ends as the value of `quit_signal_val` decides. -/
theorem Explained.ends {state : Recorded size} {after : ThreadPool size} {accepted signal : Bool}
    (explained : Explained state) (loops : state.pool.acceptor.pc.inLoop = true)
    (acceptor : after.acceptor = ⟨acceptAgain state.pool.acceptor,
      state.pool.acceptor.quitSignalVal⟩)
    (decides : state.pool.acceptor.quitSignalVal =
      if accepted then signal else lastRead state.start state.iterations) :
    Explained (state.ends after accepted signal) := by
  have left : (!after.acceptor.pc.inLoop) = state.pool.acceptor.quitSignalVal := by
    rw [acceptor, acceptAgain_inLoop, Bool.not_not]
  have before := explained.looping.mp loops
  constructor
  · intro _
    simp only [Recorded.ends, lastRead_concat]
    rw [acceptor, ← decides]
  · intro position
    simp only [Recorded.ends] at position
    rw [acceptor] at position
    exact absurd position (acceptAgain_ne_unlockQuit _)
  · simp only [Recorded.ends, List.mem_append, List.mem_singleton]
    constructor
    · rintro inLoop iteration (member | rfl)
      · exact before iteration member
      · rw [inLoop]
        rfl
    · intro none
      have ended := none _ (.inr rfl)
      simpa using ended
  · intro earlier iteration later split
    rcases concat_eq_append_cons split with ⟨rfl, rfl, -⟩ | ⟨previous, -, inner⟩
    · exact left.trans decides
    · exact explained.decided earlier iteration previous inner
  · intro earlier iteration later split isLeft
    rcases concat_eq_append_cons split with ⟨-, -, none⟩ | ⟨previous, -, inner⟩
    · exact none
    · have notLeft := before iteration (inner ▸ by simp)
      rw [notLeft] at isLeft
      cases isLeft

theorem Explained.step {state next : Recorded size} {label : Label size}
    (explained : Explained state) (step : (acceptLoop size).step state label = some next) :
    Explained next := by
  cases loop_cases step with
  | fails position acceptor =>
      refine explained.ends (by rw [position]; rfl) acceptor ?_
      exact explained.value (by rw [position]; simp)
  | tests position acceptor =>
      exact explained.ends (by rw [position]; rfl) acceptor (explained.fresh position)
  | reads position acceptor =>
      have loops : state.pool.acceptor.pc.inLoop = true := by rw [position]; rfl
      constructor
      · intro other
        exact absurd (congrArg Acceptor.pc acceptor) other
      · intro _
        exact congrArg Acceptor.quitSignalVal acceptor
      · refine iff_of_true ?_ (explained.looping.mp loops)
        rw [acceptor]
        rfl
      · exact explained.decided
      · exact explained.last
  | moves loop value tests =>
      constructor
      · intro other
        exact value.trans (explained.value (mt tests.mpr other))
      · intro position
        exact value.trans (explained.fresh (tests.mp position))
      · rw [loop]
        exact explained.looping
      · exact explained.decided
      · exact explained.last

theorem explained {state : Recorded size} (reached : (acceptLoop size).Reaches state) :
    Explained state := by
  apply reached.invariant
  · intro state initial
    obtain ⟨starts, value, none⟩ := initial
    have position := starts.acceptor
    constructor
    · intro _
      rw [none, value]
      rfl
    · intro other
      rw [position] at other
      cases other
    · rw [none, position]
      simp [AcceptorPc.inLoop]
    · intro earlier iteration later split
      simp [none] at split
    · intro earlier iteration later split
      simp [none] at split
  · intro before label after _ explained step
    exact explained.step step

/-- The loop was left at the end of the first iteration that should see the quit signal, and only
then. -/
structure LeavesOnSignal (state : Recorded size) : Prop where
  each : ∀ iteration ∈ state.iterations, iteration.left = iteration.signal
  first : ∀ earlier iteration later, state.iterations = earlier ++ iteration :: later →
    iteration.signal = true → later = []
  now : state.pool.acceptor.pc.inLoop = false ↔
    ∃ iteration ∈ state.iterations, iteration.signal = true

/-- The accept loop follows the quit signal exactly in the runs whose failed calls of `accept` all
find the signal as it was last read: no call fails before the first success unless the value left in
`quit_signal_val` is right, and none fails once the signal is set. -/
theorem acceptLoop_leaves_on_signal_iff {state : Recorded size}
    (reached : (acceptLoop size).Reaches state) :
    LeavesOnSignal state ↔ ∀ earlier iteration later,
      state.iterations = earlier ++ iteration :: later →
        iteration.accepted = true ∨ iteration.signal = lastRead state.start earlier := by
  have explained := explained reached
  constructor
  · intro leaves earlier iteration later split
    have decided := explained.decided earlier iteration later split
    rw [leaves.each iteration (split ▸ by simp)] at decided
    cases accepted : iteration.accepted with
    | true => exact .inl rfl
    | false =>
        rw [accepted] at decided
        exact .inr decided
  · intro follows
    have each : ∀ iteration ∈ state.iterations, iteration.left = iteration.signal := by
      intro iteration member
      obtain ⟨earlier, later, split⟩ := List.append_of_mem member
      rw [explained.decided earlier iteration later split]
      split
      · rfl
      · rename_i failed
        exact ((follows earlier iteration later split).resolve_left failed).symm
    refine ⟨each, ?_, ?_⟩
    · intro earlier iteration later split signal
      apply explained.last earlier iteration later split
      rw [each iteration (split ▸ by simp), signal]
    · rw [← Bool.not_eq_true, explained.looping]
      constructor
      · intro left
        by_contra! unset
        refine left fun iteration member => ?_
        rw [each iteration member]
        exact Bool.not_eq_true _ ▸ unset iteration member
      · rintro ⟨iteration, member, signal⟩ none
        rw [← each iteration member, none iteration member] at signal
        cases signal

/-- A pool whose accepting thread finds some value in `quit_signal_val`. -/
def beforeLoop (size : Nat) (value : Bool) : Recorded size where
  pool := { beforePool size with acceptor := ⟨.accept, value⟩ }
  start := value
  seen := false
  iterations := []

theorem beforeLoop_initial (size : Nat) (value : Bool) :
    (acceptLoop size).Initial (beforeLoop size value) :=
  ⟨⟨rfl, rfl, fun _ => .inl rfl, rfl, rfl, rfl, rfl, rfl⟩, rfl, rfl⟩

/-- What a script does from there, when the observations are the expected ones. -/
theorem exists_reached_of_executes {size : Nat} {value : Bool} {labels : List (Label size)}
    {observed : Bool × List Iteration}
    (executes : ((acceptLoop size).execute (fun _ _ => true) (beforeLoop size value) labels).map
      (fun state => (state.pool.quitSignal, state.iterations)) = some observed) :
    ∃ state, (acceptLoop size).Reaches state ∧ state.pool.quitSignal = observed.1 ∧
      state.iterations = observed.2 := by
  obtain ⟨state, executed, facts⟩ := Option.map_eq_some_iff.mp executes
  refine ⟨state, ?_, congrArg Prod.fst facts, congrArg Prod.snd facts⟩
  exact (LabelledSystem.ReachesVia.execute (.start (beforeLoop_initial size value))
    executed).reaches

/-- Two connections are accepted, and the quit signal is set between them. -/
def twoConnectionsScript : List (Label 1) :=
  offerScript ++ [.accept (.woken none)] ++ acceptTicks 4 ++ [.quit] ++ offerScript ++
    [.accept (.woken none)] ++ acceptTicks 4

theorem acceptLoop_leaves_on_signal_two :
    ∃ state, (acceptLoop 1).Reaches state ∧
      state.iterations = [⟨true, false, false⟩, ⟨true, true, true⟩] ∧ LeavesOnSignal state := by
  obtain ⟨state, reached, -, iterations⟩ :=
    exists_reached_of_executes (show ((acceptLoop 1).execute (fun _ _ => true)
      (beforeLoop 1 false) twoConnectionsScript).map
        (fun state => (state.pool.quitSignal, state.iterations)) =
          some (true, [⟨true, false, false⟩, ⟨true, true, true⟩]) by decide +kernel)
  refine ⟨state, reached, iterations, ?_⟩
  refine (acceptLoop_leaves_on_signal_iff reached).mpr fun earlier iteration later split => ?_
  have accepted : ∀ iteration ∈ state.iterations, iteration.accepted = true := by
    rw [iterations]
    decide
  exact .inl (accepted iteration (split ▸ by simp))

/-- The first call of `accept` fails with a leftover in `quit_signal_val`, and the loop is left
while the signal is not set; and a call that fails after the signal was set does not leave it. -/
theorem acceptLoop_misses_signal :
    (∃ state, (acceptLoop 1).Reaches state ∧ state.pool.quitSignal = false ∧
      state.iterations = [⟨false, false, true⟩] ∧ ¬ LeavesOnSignal state) ∧
    ∃ state, (acceptLoop 1).Reaches state ∧ state.pool.quitSignal = true ∧
      state.iterations = [⟨false, true, false⟩] ∧ ¬ LeavesOnSignal state := by
  constructor
  · obtain ⟨state, reached, signal, iterations⟩ :=
      exists_reached_of_executes (show ((acceptLoop 1).execute (fun _ _ => true)
        (beforeLoop 1 true) [.accept (.accepted false)]).map
          (fun state => (state.pool.quitSignal, state.iterations)) =
            some (false, [⟨false, false, true⟩]) by decide +kernel)
    refine ⟨state, reached, signal, iterations, fun leaves => ?_⟩
    have wrong := leaves.each ⟨false, false, true⟩ (by rw [iterations]; simp)
    cases wrong
  · obtain ⟨state, reached, signal, iterations⟩ :=
      exists_reached_of_executes (show ((acceptLoop 1).execute (fun _ _ => true)
        (beforeLoop 1 false) [.quit, .accept (.accepted false)]).map
          (fun state => (state.pool.quitSignal, state.iterations)) =
            some (true, [⟨false, true, false⟩]) by decide +kernel)
    refine ⟨state, reached, signal, iterations, fun leaves => ?_⟩
    have wrong := leaves.each ⟨false, true, false⟩ (by rw [iterations]; simp)
    cases wrong

end ThreadPool
end CmyMessage
