import CmyMessage.ThreadPool.Wakeups

/-!
# Shutdown of the thread pool

Once the accepting thread has rejected the pending clients nobody signals the condition variable any
more.  A worker that trusts an old test of the queue then calls `dequeue` in vain and sleeps for
good, and a worker that sleeps already sleeps on.  Both are excluded exactly if no worker trusts
such a test when the accepting thread lets go of the queue for the last time.
-/

namespace CmyMessage
namespace ThreadPool

variable {size : Nat}

/-- No worker sleeps in this state or in a later one. -/
def NobodyStranded (pool : ThreadPool size) : Prop :=
  ∀ later, (threadPool size).Follows pool later →
    ∀ worker, (later.workers worker).pc ≠ .waiting

/-- The accepting thread lets go of the queue for the last time only while no worker trusts an old
test of the queue. -/
def leavesNobody (pool : ThreadPool size) : Label size → Bool
  | .accept _ => decide (pool.acceptor.pc = .unlockPending →
      ∀ worker, (pool.workers worker).pc.trusts = false)
  | _ => true

/-- The queue is empty from the last test in the rejection loop on. -/
def Emptied (pool : ThreadPool size) : Prop :=
  pool.acceptor.pc = .unlockPending ∨ pool.acceptor.pc = .finished → pool.queue.clients = []

theorem WorkerQueue.clients_eq_nil {pool after : ThreadPool size} {worker : Fin size}
    (step : pool.WorkerQueue after worker) (accounted : pool.Accounted)
    (empty : pool.queue.clients = []) : after.queue.clients = [] := by
  cases step with
  | untouched queue _ _ _ => rw [queue, empty]
  | dequeues takes _ =>
      rw [(takes.ledger accounted).2.2, empty]
      rfl

theorem Emptied.step {before after : ThreadPool size} {label : Label size}
    (accounted : before.Accounted) (emptied : before.Emptied)
    (step : (threadPool size).step before label = some after) : after.Emptied := by
  cases step_cases step with
  | accept step =>
      rintro (position | position)
      · obtain ⟨empty, queue⟩ := step.empties position
        rw [queue]
        exact accounted.holds.isEmptyQueue_iff.mp empty
      · obtain ⟨last, queue⟩ := step.finishes position
        rw [queue]
        exact emptied (.inl last)
  | work step =>
      intro position
      rw [step.acceptor] at position
      exact step.queue.clients_eq_nil accounted (emptied position)
  | quit => exact emptied

theorem emptied {pool : ThreadPool size} (reached : (threadPool size).Reaches pool) :
    pool.Emptied :=
  reached.invariant
    (fun _ starts position => by
      rcases position with last | last <;> simp [starts.acceptor] at last)
    fun _ _ _ earlier emptied step => emptied.step (accounted earlier) step

/-- The accepting thread has returned and every worker has seen that nothing is left. -/
structure Deserted (pool : ThreadPool size) : Prop where
  books : pool.Accounted
  finished : pool.acceptor.pc = .finished
  empty : pool.queue.clients = []
  trusts : ∀ worker, (pool.workers worker).pc.trusts = false

theorem Deserted.step {before after : ThreadPool size} {label : Label size}
    (deserted : before.Deserted) (step : (threadPool size).step before label = some after) :
    after.Deserted := by
  have accounted := deserted.books.step step
  cases step_cases step with
  | accept step => exact absurd deserted.finished step.running
  | @work worker _ step =>
      obtain ⟨moved, workers⟩ := step.others
      refine ⟨accounted, step.acceptor ▸ deserted.finished,
        step.queue.clients_eq_nil deserted.books deserted.empty, fun other => ?_⟩
      rcases eq_or_ne other worker with rfl | different
      · by_contra trusts
        rcases step.trusts (by simpa using trusts) with old | waiting
        · simp [deserted.trusts other] at old
        · have empty := deserted.books.holds.isEmptyQueue_iff.mpr deserted.empty
          simp [empty] at waiting
      · rw [workers, Function.update_of_ne different]
        exact deserted.trusts other
  | quit => exact ⟨accounted, deserted.finished, deserted.empty, deserted.trusts⟩

theorem Deserted.nobodyStranded {pool : ThreadPool size} (deserted : pool.Deserted) :
    pool.NobodyStranded := by
  intro later follows worker asleep
  have still : later.Deserted :=
    follows.invariant (fun _ _ _ deserted step => deserted.step step) deserted
  have awake := still.trusts worker
  rw [asleep] at awake
  cases awake

/-- A call of `dequeue` in vain puts the worker to sleep. -/
theorem dequeue_in_vain {pool : ThreadPool size} {worker : Fin size}
    (nothing : pool.queue.dequeue.1 = none) (position : (pool.workers worker).pc = .dequeue) :
    ∃ later, (threadPool size).step pool (.work worker) = some later ∧
      (later.workers worker).pc = .waiting := by
  refine ⟨((pool.dequeueBy (.worker worker)).unlock .queue).workerTo worker .waiting, ?_, ?_⟩
  · change pool.searchForThreadWork worker (pool.workers worker).pc = _
    rw [position, searchForThreadWork, nothing]
  · simp [workerTo]

/-- A worker that trusts an old test of an empty queue goes to sleep, if it does not sleep yet. -/
theorem stranded_of_trusts {pool : ThreadPool size} (accounted : pool.Accounted)
    (free : pool.holder .queue = none) (empty : pool.queue.clients = []) {worker : Fin size}
    (trusts : (pool.workers worker).pc.trusts) : ¬ pool.NobodyStranded := by
  have nothing : pool.queue.dequeue.1 = none := by
    rw [(accounted.holds.dequeue).1, empty]
    rfl
  intro nobody
  cases position : (pool.workers worker).pc with
  | waiting => exact nobody pool .refl worker position
  | dequeue =>
      obtain ⟨later, step, asleep⟩ := dequeue_in_vain nothing position
      exact nobody later (.single ⟨_, step⟩) worker asleep
  | lockQueue =>
      let locked := ({ pool with
        holder := Function.update pool.holder .queue (some (.worker worker)) }).workerTo worker
          .dequeue
      have locks : (threadPool size).step pool (.work worker) = some locked := by
        change pool.searchForThreadWork worker (pool.workers worker).pc = _
        rw [position, searchForThreadWork, lock, if_pos free]
        rfl
      have atDequeue : (locked.workers worker).pc = .dequeue := by
        simp [locked, workerTo]
      have nothingLeft : locked.queue.dequeue.1 = none := nothing
      obtain ⟨later, step, asleep⟩ := dequeue_in_vain nothingLeft atDequeue
      exact nobody later (.tail (.single ⟨_, locks⟩) ⟨_, step⟩) worker asleep
  | _ => simp [position, WorkerPc.trusts] at trusts

/-- The last step of the accepting thread leaves the positions of the workers and frees the queue.
-/
theorem last_step {pool after : ThreadPool size} {label : Label size}
    (step : (threadPool size).step pool label = some after)
    (running : pool.acceptor.pc ≠ .finished) (finished : after.acceptor.pc = .finished) :
    pool.acceptor.pc = .unlockPending ∧ (∃ input, label = .accept input) ∧
      after.workers = pool.workers ∧ after.holder .queue = none := by
  cases label with
  | accept input =>
      have last := ((acceptor_step step).finishes finished).1
      change pool.acceptIncomingConnections pool.acceptor.pc input = some after at step
      rw [last] at step
      cases input with
      | tick =>
          cases step
          exact ⟨last, ⟨_, rfl⟩, rfl, by simp [unlock, acceptorTo]⟩
      | _ => cases step
  | work worker => exact absurd ((worker_step step).acceptor ▸ finished) running
  | quit =>
      cases step
      exact absurd finished running

/-- If no worker trusts an old test at the last step of the accepting thread, the pool is deserted.
-/
theorem Deserted.of_last {pool after : ThreadPool size} {label : Label size}
    (reached : (threadPool size).Reaches pool)
    (step : (threadPool size).step pool label = some after)
    (running : pool.acceptor.pc ≠ .finished) (finished : after.acceptor.pc = .finished)
    (leaves : pool.leavesNobody label = true) : after.Deserted := by
  obtain ⟨last, ⟨input, rfl⟩, workers, -⟩ := last_step step running finished
  refine ⟨(accounted reached).step step, finished, ?_, ?_⟩
  · exact (emptied reached).step (accounted reached) step (.inr finished)
  · rw [workers]
    exact of_decide_eq_true leaves last

/-- In a run in which the accepting thread lets go of the queue for the last time only while no
worker trusts an old test of it, nobody is stranded once that thread has returned; and where it lets
go otherwise, somebody is. -/
theorem nobody_stranded {pool : ThreadPool size}
    (reached : (threadPool size).ReachesVia
      (fun state label => state.leavesNobody label = true) pool) :
    (pool.acceptor.pc = .finished → pool.NobodyStranded) ∧
    ∀ label after, (threadPool size).step pool label = some after →
      after.acceptor.pc = .finished →
      (after.NobodyStranded ↔ pool.leavesNobody label = true) := by
  have deserts : pool.acceptor.pc = .finished → pool.Deserted := by
    induction reached with
    | start starts =>
        intro finished
        rw [starts.acceptor] at finished
        cases finished
    | @next before after label earlier leaves step ih =>
        intro finished
        by_cases running : before.acceptor.pc = .finished
        · exact (ih running).step step
        · exact .of_last earlier.reaches step running finished leaves
  refine ⟨fun finished => (deserts finished).nobodyStranded, ?_⟩
  intro label after step finished
  by_cases running : pool.acceptor.pc = .finished
  · apply iff_of_true ((deserts running).step step).nobodyStranded
    cases label with
    | accept input => exact decide_eq_true fun last => by simp [running] at last
    | work worker => rfl
    | quit => rfl
  · refine ⟨fun nobody => ?_, fun leaves =>
      (Deserted.of_last reached.reaches step running finished leaves).nobodyStranded⟩
    obtain ⟨-, ⟨input, rfl⟩, workers, free⟩ := last_step step running finished
    refine decide_eq_true fun last worker => Bool.eq_false_iff.mpr fun trusts => ?_
    have counted := (accounted reached.reaches).step step
    have empty := (emptied reached.reaches).step (accounted reached.reaches) step (.inr finished)
    exact stranded_of_trusts counted free empty (workers ▸ trusts) nobody

/-- The only worker serves the only client while the accepting thread returns. -/
theorem nobody_stranded_served :
    ∃ pool : ThreadPool 1, (threadPool 1).Reaches pool ∧ pool.acceptor.pc = .finished ∧
      (pool.workers 0).pc = .serving 0 ∧ pool.NobodyStranded := by
  let script : List (Label 1) :=
    offerScript ++ [.accept (.woken none)] ++ acceptTicks 1 ++ works 0 4 ++ [.quit] ++
      acceptTicks 6
  have executes : ((((threadPool 1).execute leavesNobody (beforePool 1) script).map fun pool =>
      (pool.acceptor.pc, (pool.workers 0).pc))) = some (.finished, .serving 0) := by
    decide +kernel
  obtain ⟨pool, executed, facts⟩ := Option.map_eq_some_iff.mp executes
  obtain ⟨finished, serves⟩ := Prod.mk.inj facts
  have reached := LabelledSystem.ReachesVia.execute (.start (beforePool_starts 1)) executed
  exact ⟨pool, reached.reaches, finished, serves, (nobody_stranded reached).1 finished⟩

/-- The only worker sees the only client, which the accepting thread then rejects. -/
theorem worker_stranded :
    ∃ pool : ThreadPool 1, (threadPool 1).Reaches pool ∧ pool.quitSignal = true ∧
      pool.acceptor.pc = .finished ∧ (pool.workers 0).pc = .waiting := by
  let script : List (Label 1) :=
    offerScript ++ [.accept (.woken none)] ++ acceptTicks 1 ++ [.quit] ++ acceptTicks 3 ++
      works 0 1 ++ acceptTicks 4 ++ works 0 2
  have executes : ((((threadPool 1).execute (fun _ _ => true) (beforePool 1) script).map fun pool =>
      (pool.quitSignal, pool.acceptor.pc, (pool.workers 0).pc))) =
      some (true, .finished, .waiting) := by
    decide +kernel
  obtain ⟨pool, executed, facts⟩ := Option.map_eq_some_iff.mp executes
  obtain ⟨quits, facts⟩ := Prod.mk.inj facts
  exact ⟨pool, (LabelledSystem.ReachesVia.execute (.start (beforePool_starts 1)) executed).reaches,
    quits, Prod.mk.inj facts⟩

end ThreadPool
end CmyMessage
