import CmyMessage.Foundation.Progress
import CmyMessage.ThreadPool.Wakeups
import Mathlib.Algebra.Order.BigOperators.Group.Finset
import Mathlib.Data.Prod.Lex

/-!
# Queued clients are taken

A client waits in the queue only while every worker serves another one.  Whatever the threads do
apart from accepting further connections, and even if no service returns and nobody wakes without a
signal, the queue becomes empty or all workers come to serve.  A thread blocks on a mutex only while
another one is about to unlock it, and with a client in the queue every step of a worker brings it
closer to taking one.
-/

namespace CmyMessage

/-- The thread stands inside the critical section of a mutex. -/
def AcceptorPc.holds : AcceptorPc → PoolMutex → Bool
  | .enqueue _, .queue => true
  | .signal, .queue => true
  | .unlockQueue, .queue => true
  | .reject, .queue => true
  | .unlockPending, .queue => true
  | .readQuit, .quitSignal => true
  | .unlockQuit, .quitSignal => true
  | _, _ => false

/-- The thread stands inside the critical section of a mutex. -/
def WorkerPc.holds : WorkerPc → PoolMutex → Bool
  | .dequeue, .queue => true
  | .dequeueAgain, .queue => true
  | .unlockQueue _, .queue => true
  | .readQuit, .quitSignal => true
  | .unlockQuit, .quitSignal => true
  | _, _ => false

/-- The mutex the thread is about to lock. -/
def AcceptorPc.locks : AcceptorPc → Option PoolMutex
  | .lockQueue _ => some .queue
  | .lockQuit => some .quitSignal
  | .lockPending => some .queue
  | _ => none

/-- The mutex the thread is about to lock. -/
def WorkerPc.locks : WorkerPc → Option PoolMutex
  | .lockQueue => some .queue
  | .relockQueue => some .queue
  | .lockQuit => some .quitSignal
  | _ => none

/-- The thread is neither asleep nor in the function of the service, nor has it returned. -/
def WorkerPc.goesOn : WorkerPc → Bool
  | .waiting => false
  | .serving _ => false
  | .finished => false
  | _ => true

namespace ThreadPool

variable {size : Nat}

/-! ## Critical sections -/

/-- A thread stands inside the critical section of a mutex. -/
def inside (pool : ThreadPool size) : PoolThread size → PoolMutex → Bool
  | .acceptor, mutex => pool.acceptor.pc.holds mutex
  | .worker worker, mutex => (pool.workers worker).pc.holds mutex

/-- Who holds a mutex stands inside its critical section. -/
def Guarded (pool : ThreadPool size) : Prop :=
  ∀ mutex thread, pool.holder mutex = some thread → pool.inside thread mutex = true

theorem Guarded.accept {pool after : ThreadPool size} (guarded : pool.Guarded)
    {input : AcceptorInput size}
    (step : pool.acceptIncomingConnections pool.acceptor.pc input = some after) :
    after.Guarded := by
  revert step
  generalize position : pool.acceptor.pc = pc
  fun_cases acceptIncomingConnections
  all_goals
    intro step
    first
    | obtain ⟨locked, taken, rfl⟩ := Option.map_eq_some_iff.mp step
      obtain ⟨-, rfl⟩ := lock_eq_some taken
    | cases step
  all_goals
    intro mutex thread holds
    have before := guarded mutex thread
    cases mutex <;> cases thread <;>
      simp_all [acceptorTo, workerTo, unlock, dequeueBy, inside, AcceptorPc.holds]
  -- a worker that is woken holds nothing
  all_goals
    rw [Function.update_of_ne, before]
    rintro rfl
    simp_all [WorkerPc.holds]

theorem Guarded.work {pool after : ThreadPool size} (guarded : pool.Guarded) {worker : Fin size}
    (step : pool.searchForThreadWork worker (pool.workers worker).pc = some after) :
    after.Guarded := by
  revert step
  generalize position : (pool.workers worker).pc = pc
  fun_cases searchForThreadWork
  all_goals
    intro step
    first
    | obtain ⟨locked, taken, rfl⟩ := Option.map_eq_some_iff.mp step
      obtain ⟨-, rfl⟩ := lock_eq_some taken
    | cases step
  all_goals
    intro mutex thread holds
    have before := guarded mutex thread
    by_cases self : thread = .worker worker
    · subst self
      cases mutex <;> simp_all [workerTo, unlock, dequeueBy, inside, WorkerPc.holds]
    · cases mutex <;> cases thread <;>
        simp_all [workerTo, unlock, dequeueBy, inside, Function.update_of_ne]

theorem guarded {pool : ThreadPool size} (reached : (threadPool size).Reaches pool) :
    pool.Guarded := by
  refine reached.invariant (fun state starts mutex thread holds => ?_)
    fun before label after _ guarded step => ?_
  · rw [starts.holder] at holds
    cases holds
  · cases label with
    | accept input => exact guarded.accept step
    | work worker => exact guarded.work step
    | quit => exact Option.some.inj step ▸ guarded

/-! ## Who can go on -/

/-- Any step may be taken, except that no further connection is accepted and the quit signal is not
set. -/
def MayHappen (pool : ThreadPool size) : Label size → Prop
  | .accept _ => pool.acceptor.pc ≠ .accept
  | .work _ => True
  | .quit => False

/-- Of these, the steps of threads that go on by themselves are relied upon: neither does a service
have to return, nor does a worker have to wake without a signal. -/
def MustHappen (pool : ThreadPool size) : Label size → Prop
  | .accept _ => pool.acceptor.pc ≠ .accept
  | .work worker => (pool.workers worker).pc.goesOn = true
  | .quit => False

/-- Some thread can go on by itself. -/
def Enabled (pool : ThreadPool size) : Prop :=
  ∃ label after, pool.MustHappen label ∧ (threadPool size).step pool label = some after

theorem lock_of_free {pool : ThreadPool size} {mutex : PoolMutex}
    (free : pool.holder mutex = none) (thread : PoolThread size) :
    ∃ locked, pool.lock mutex thread = some locked := ⟨_, if_pos free⟩

theorem acceptor_enabled {pool : ThreadPool size} (offers : pool.acceptor.pc ≠ .accept)
    (runs : pool.acceptor.pc ≠ .finished)
    (free : ∀ mutex, pool.acceptor.pc.locks = some mutex → pool.holder mutex = none) :
    pool.Enabled := by
  suffices moves : ∃ input after,
      pool.acceptIncomingConnections pool.acceptor.pc input = some after by
    obtain ⟨input, after, moves⟩ := moves
    exact ⟨.accept input, after, offers, moves⟩
  cases position : pool.acceptor.pc with
  | accept => exact absurd position offers
  | lockQueue client =>
      obtain ⟨locked, taken⟩ := lock_of_free (free .queue (by rw [position]; rfl)) .acceptor
      exact ⟨.tick, _, congrArg (Option.map _) taken⟩
  | enqueue client => exact ⟨.allocated true, _, rfl⟩
  | signal =>
      by_cases asleep : ∃ worker, (pool.workers worker).pc = .waiting
      · obtain ⟨worker, asleep⟩ := asleep
        exact ⟨.woken (some worker), _, if_pos asleep⟩
      · exact ⟨.woken none, _, if_pos (not_exists.mp asleep)⟩
  | unlockQueue => exact ⟨.tick, _, rfl⟩
  | lockQuit =>
      obtain ⟨locked, taken⟩ := lock_of_free (free .quitSignal (by rw [position]; rfl)) .acceptor
      exact ⟨.tick, _, congrArg (Option.map _) taken⟩
  | readQuit => exact ⟨.tick, _, rfl⟩
  | unlockQuit => exact ⟨.tick, _, rfl⟩
  | lockPending =>
      obtain ⟨locked, taken⟩ := lock_of_free (free .queue (by rw [position]; rfl)) .acceptor
      exact ⟨.tick, _, congrArg (Option.map _) taken⟩
  | reject =>
      cases empty : pool.queue.isEmptyQueue with
      | true => exact ⟨.tick, _, if_pos empty⟩
      | false => exact ⟨.tick, _, if_neg (by simp [empty])⟩
  | unlockPending => exact ⟨.tick, _, rfl⟩
  | finished => exact absurd position runs

theorem worker_enabled {pool : ThreadPool size} {worker : Fin size}
    (goes : (pool.workers worker).pc.goesOn = true)
    (free : ∀ mutex, (pool.workers worker).pc.locks = some mutex → pool.holder mutex = none) :
    pool.Enabled := by
  suffices moves : ∃ after,
      pool.searchForThreadWork worker (pool.workers worker).pc = some after by
    obtain ⟨after, moves⟩ := moves
    exact ⟨.work worker, after, goes, moves⟩
  cases position : (pool.workers worker).pc with
  | testQueue =>
      rw [searchForThreadWork]
      split <;> exact ⟨_, rfl⟩
  | lockQueue =>
      obtain ⟨locked, taken⟩ := lock_of_free (free .queue (by rw [position]; rfl)) (.worker worker)
      exact ⟨_, congrArg (Option.map _) taken⟩
  | dequeue =>
      rw [searchForThreadWork]
      split <;> exact ⟨_, rfl⟩
  | relockQueue =>
      obtain ⟨locked, taken⟩ := lock_of_free (free .queue (by rw [position]; rfl)) (.worker worker)
      exact ⟨_, congrArg (Option.map _) taken⟩
  | dequeueAgain => exact ⟨_, rfl⟩
  | unlockQueue client => cases client <;> exact ⟨_, rfl⟩
  | lockQuit =>
      obtain ⟨locked, taken⟩ := lock_of_free (free .quitSignal (by rw [position]; rfl))
        (.worker worker)
      exact ⟨_, congrArg (Option.map _) taken⟩
  | readQuit => exact ⟨_, rfl⟩
  | unlockQuit =>
      rw [searchForThreadWork]
      split <;> exact ⟨_, rfl⟩
  | _ =>
      rw [position] at goes
      cases goes

/-- Who holds a mutex can go on. -/
theorem enabled_of_held {pool : ThreadPool size} (guarded : pool.Guarded) {mutex : PoolMutex}
    (held : pool.holder mutex ≠ none) : pool.Enabled := by
  obtain ⟨thread, holds⟩ := Option.ne_none_iff_exists'.mp held
  have inside := guarded mutex thread holds
  cases thread with
  | acceptor =>
      rw [ThreadPool.inside] at inside
      apply acceptor_enabled
      all_goals
        cases position : pool.acceptor.pc <;> cases mutex <;>
          simp_all [AcceptorPc.holds, AcceptorPc.locks]
  | worker worker =>
      rw [ThreadPool.inside] at inside
      apply @worker_enabled _ _ worker
      all_goals
        cases position : (pool.workers worker).pc <;> cases mutex <;>
          simp_all [WorkerPc.holds, WorkerPc.locks, WorkerPc.goesOn]

theorem enabled_of_acceptor {pool : ThreadPool size} (guarded : pool.Guarded)
    (offers : pool.acceptor.pc ≠ .accept) (runs : pool.acceptor.pc ≠ .finished) :
    pool.Enabled := by
  by_cases blocked : ∃ mutex, pool.holder mutex ≠ none
  · obtain ⟨mutex, held⟩ := blocked
    exact enabled_of_held guarded held
  · exact acceptor_enabled offers runs fun mutex _ => not_not.mp (not_exists.mp blocked mutex)

theorem enabled_of_worker {pool : ThreadPool size} (guarded : pool.Guarded) {worker : Fin size}
    (goes : (pool.workers worker).pc.goesOn = true) : pool.Enabled := by
  by_cases blocked : ∃ mutex, pool.holder mutex ≠ none
  · obtain ⟨mutex, held⟩ := blocked
    exact enabled_of_held guarded held
  · exact worker_enabled goes fun mutex _ => not_not.mp (not_exists.mp blocked mutex)

/-- Nothing is left to do for a client in the queue: there is none, or all workers that were created
serve. -/
def Drained (pool : ThreadPool size) : Prop :=
  pool.queue.clients = [] ∨ ∀ worker,
    (∃ client, (pool.workers worker).pc = .serving client) ∨ (pool.workers worker).pc = .finished

/-- While a client is in the queue and some worker does not serve, some thread can go on. -/
theorem enabled_of_queued {pool : ThreadPool size} (reached : (threadPool size).Reaches pool)
    (running : pool.quitSignal = false) (undrained : ¬ pool.Drained) : pool.Enabled := by
  have guarded := guarded reached
  obtain ⟨queued, free⟩ := not_or.mp undrained
  obtain ⟨worker, free⟩ := not_forall.mp free
  by_cases offers : pool.acceptor.pc = .accept ∨ pool.acceptor.pc = .finished
  · by_cases goes : (pool.workers worker).pc.goesOn = true
    · exact enabled_of_worker guarded goes
    · have asleep : (pool.workers worker).pc = .waiting := by
        revert goes free
        cases (pool.workers worker).pc <;> simp [WorkerPc.goesOn]
      have signalled : pool.unsignalled = 0 :=
        if_neg (by rcases offers with here | here <;> simp [here])
      have attended := attended reached running worker asleep
      have some_queued := List.length_pos_of_ne_nil queued
      obtain ⟨other, idle⟩ := exists_of_census_pos (show 0 < pool.idle by omega)
      apply @enabled_of_worker _ _ guarded other
      revert idle
      cases (pool.workers other).pc <;> simp [WorkerPc.goesOn, WorkerPc.isIdle, WorkerPc.client]
  · obtain ⟨offers, runs⟩ := not_or.mp offers
    exact enabled_of_acceptor guarded offers runs

/-! ## Every step counts -/

end ThreadPool

/-- How many steps the thread has before it, other than those in which it takes a client off the
queue, until it accepts a further connection or returns. -/
def AcceptorPc.ahead : AcceptorPc → Nat
  | .lockQueue _ => 10
  | .enqueue _ => 9
  | .signal => 8
  | .unlockQueue => 7
  | .lockQuit => 6
  | .readQuit => 5
  | .unlockQuit => 4
  | .lockPending => 3
  | .reject => 2
  | .unlockPending => 1
  | .accept => 0
  | .finished => 0

/-- How many steps the thread has before it until it takes a client off the queue, if there is
one. -/
def WorkerPc.ahead : WorkerPc → Nat
  | .unlockQueue _ => 8
  | .serving _ => 7
  | .lockQuit => 6
  | .readQuit => 5
  | .unlockQuit => 4
  | .testQueue => 3
  | .lockQueue => 2
  | .dequeue => 1
  | .waiting => 3
  | .relockQueue => 2
  | .dequeueAgain => 1
  | .finished => 0

namespace ThreadPool

variable {size : Nat}

/-- What is left to do until the queue is empty. -/
def ahead (pool : ThreadPool size) : Nat ×ₗ Nat ×ₗ Nat :=
  toLex (pool.acceptor.pc.ahead,
    toLex (pool.queue.clients.length, ∑ worker, (pool.workers worker).pc.ahead))

theorem acceptor_lowers {pool after : ThreadPool size} {input : AcceptorInput size}
    (offers : pool.acceptor.pc ≠ .accept)
    (step : pool.acceptIncomingConnections pool.acceptor.pc input = some after) :
    after.acceptor.pc.ahead < pool.acceptor.pc.ahead ∨
      after.acceptor = pool.acceptor ∧ pool.queue.isEmptyQueue = false ∧
        pool.Takes after .acceptor := by
  revert step offers
  generalize position : pool.acceptor.pc = pc
  fun_cases acceptIncomingConnections
  all_goals
    intro offers step
    first
    | obtain ⟨locked, taken, rfl⟩ := Option.map_eq_some_iff.mp step
      obtain ⟨-, rfl⟩ := lock_eq_some taken
    | cases step
  all_goals first
    | exact absurd rfl offers
    | exact .inr ⟨rfl, eq_false_of_ne_true ‹_›, rfl, rfl⟩
    | left
      simp [acceptorTo, AcceptorPc.ahead, acceptAgain]
      done
    | left
      simp only [acceptorTo, acceptAgain]
      split <;> decide

theorem worker_lowers {pool after : ThreadPool size} {worker : Fin size}
    (pending : pool.queue.isEmptyQueue = false)
    (step : pool.searchForThreadWork worker (pool.workers worker).pc = some after) :
    pool.Takes after (.worker worker) ∨ after.queue = pool.queue ∧
      ∃ moved, after.workers = Function.update pool.workers worker moved ∧
        moved.pc.ahead < (pool.workers worker).pc.ahead := by
  revert step
  generalize position : (pool.workers worker).pc = pc
  fun_cases searchForThreadWork
  all_goals
    intro step
    first
    | obtain ⟨locked, taken, rfl⟩ := Option.map_eq_some_iff.mp step
      obtain ⟨-, rfl⟩ := lock_eq_some taken
    | cases step
  all_goals first
    | exact .inl ⟨rfl, rfl⟩
    | refine .inr ⟨rfl, _, rfl, ?_⟩
      simp [WorkerPc.ahead]
      done
    | exact absurd ‹pool.queue.isEmptyQueue = true› (by simp [pending])

/-- A client that is taken off the queue leaves it shorter. -/
theorem Takes.shorter {pool after : ThreadPool size} {thread : PoolThread size}
    (takes : pool.Takes after thread) (accounted : pool.Accounted)
    (queued : pool.queue.clients ≠ []) :
    after.queue.clients.length < pool.queue.clients.length := by
  rw [(takes.ledger accounted).2.2, List.length_tail]
  exact Nat.sub_lt (List.length_pos_of_ne_nil queued) Nat.zero_lt_one

/-- Every step that may be taken while a client is in the queue leaves less to do. -/
theorem ahead_lt {pool after : ThreadPool size} {label : Label size} (accounted : pool.Accounted)
    (queued : pool.queue.clients ≠ []) (may : pool.MayHappen label)
    (step : (threadPool size).step pool label = some after) : after.ahead < pool.ahead := by
  cases label with
  | accept input =>
      rcases acceptor_lowers may step with lower | ⟨same, -, takes⟩
      · exact Prod.Lex.toLex_lt_toLex.mpr (.inl lower)
      · exact Prod.Lex.toLex_lt_toLex.mpr (.inr ⟨congrArg (·.pc.ahead) same,
          Prod.Lex.toLex_lt_toLex.mpr (.inl (takes.shorter accounted queued))⟩)
  | work worker =>
      have pending : pool.queue.isEmptyQueue = false :=
        Bool.eq_false_iff.mpr (mt accounted.holds.isEmptyQueue_iff.mp queued)
      refine Prod.Lex.toLex_lt_toLex.mpr (.inr ⟨congrArg (·.pc.ahead) (worker_step step).acceptor,
        Prod.Lex.toLex_lt_toLex.mpr ?_⟩)
      rcases worker_lowers pending step with takes | ⟨same, moved, workers, lower⟩
      · exact .inl (takes.shorter accounted queued)
      · refine .inr ⟨congrArg (·.clients.length) same, ?_⟩
        show ∑ other, (after.workers other).pc.ahead < ∑ other, (pool.workers other).pc.ahead
        rw [workers]
        apply Finset.sum_lt_sum
        · intro other _
          rcases eq_or_ne other worker with rfl | different
          · rw [Function.update_self]
            exact lower.le
          · rw [Function.update_of_ne different]
        · exact ⟨worker, Finset.mem_univ worker, by rwa [Function.update_self]⟩
  | quit => exact absurd may not_false

/-- While the quit signal is not set, whatever the threads do until a further connection is
accepted, and though no service returns and nobody wakes without a signal, the queue becomes empty
or all workers come to serve. -/
theorem queued_clients_taken {pool : ThreadPool size} (reached : (threadPool size).Reaches pool)
    (running : pool.quitSignal = false) :
    (threadPool size).Inevitable MustHappen MayHappen Drained pool := by
  refine .of_measure ahead
    (fun state => (threadPool size).Reaches state ∧ state.quitSignal = false) ?_ ?_
    ⟨reached, running⟩
  · rintro state ⟨reached, running⟩ undrained
    exact enabled_of_queued reached running undrained
  · rintro state label after ⟨reached, running⟩ undrained may step
    refine ⟨⟨reached.next trivial step, ?_⟩,
      ahead_lt (accounted reached) (not_or.mp undrained).1 may step⟩
    cases step_cases step with
    | accept acceptor => exact acceptor.quitSignal.trans running
    | work works => exact works.quitSignal.trans running
    | quit => exact absurd may not_false

/-- One of two workers serves and the other one sleeps, and the signal for a client in the queue is
due. -/
theorem queued_clients_taken_due_signal :
    ∃ pool : ThreadPool 2, (pool.workers 1).pc = .waiting ∧ pool.queue.clients ≠ [] ∧
      (threadPool 2).Inevitable MustHappen MayHappen Drained pool := by
  have executes : ((((threadPool 2).execute (fun _ _ => true) (beforePool 2)
      dueSignalScript).map fun pool =>
        (pool.quitSignal, (pool.workers 1).pc, pool.queue.clients.length))) =
      some (false, .waiting, 1) := by
    decide +kernel
  obtain ⟨pool, executed, facts⟩ := Option.map_eq_some_iff.mp executes
  obtain ⟨running, facts⟩ := Prod.mk.inj facts
  obtain ⟨asleep, queued⟩ := Prod.mk.inj facts
  have reached : (threadPool 2).Reaches pool :=
    (LabelledSystem.ReachesVia.execute (.start (beforePool_starts 2)) executed).reaches
  refine ⟨pool, asleep, fun nothing => ?_, queued_clients_taken reached running⟩
  rw [nothing] at queued
  cases queued

end ThreadPool
end CmyMessage
