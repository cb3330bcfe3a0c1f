import CmyMessage.ThreadPool.Pool

/-!
# Inverting a step of the thread pool

What a step of the accepting thread and a step of a worker can do to the queue, to the positions and
to the records.  Proofs about runs use these facts and never unfold the step function.
-/

namespace CmyMessage

/-- The client a worker has taken off the queue and not let go of. -/
def WorkerPc.client : WorkerPc → Option Nat
  | unlockQueue client => client
  | serving client => some client
  | _ => none

/-- Awake and not serving a client. -/
def WorkerPc.isIdle (pc : WorkerPc) : Bool :=
  pc.client.isNone && decide (pc ≠ .waiting) && decide (pc ≠ .finished)

/-- The worker has found the queue not empty, and has neither called `dequeue` since nor woken from
the sleep that follows a call in vain. -/
def WorkerPc.trusts : WorkerPc → Bool
  | lockQueue | dequeue | waiting => true
  | _ => false

/-- The client of a connection that was accepted and not offered to the queue yet. -/
def AcceptorPc.client : AcceptorPc → Option Nat
  | lockQueue client => some client
  | enqueue client => some client
  | _ => none

/-- The thread has begun to reject the pending clients. -/
def AcceptorPc.rejects : AcceptorPc → Bool
  | reject | unlockPending | finished => true
  | _ => false

namespace ThreadPool

variable {size : Nat}

/-- A call of `dequeue` and its record. -/
structure Takes (pool after : ThreadPool size) (thread : PoolThread size) : Prop where
  queue : after.queue = pool.queue.dequeue.2
  dequeued : after.dequeued = pool.dequeued ++ (pool.queue.dequeue.1.map (Prod.mk thread)).toList

/-- What a step of the accepting thread does to the queue. -/
inductive AcceptorQueue (pool after : ThreadPool size) : Prop
  | untouched (queue : after.queue = pool.queue) (enqueued : after.enqueued = pool.enqueued)
      (dequeued : after.dequeued = pool.dequeued)
  | enqueues (client : Nat) (succeeded : Bool) (offers : pool.acceptor.pc = .enqueue client)
      (signals : after.acceptor.pc = .signal)
      (queue : after.queue = (pool.queue.enqueue size client succeeded).queue)
      (enqueued : after.enqueued =
        if (pool.queue.enqueue size client succeeded).status = none then pool.enqueued ++ [client]
        else pool.enqueued)
      (dequeued : after.dequeued = pool.dequeued)
  | rejects (takes : pool.Takes after .acceptor) (rejecting : after.acceptor.pc = .reject)
      (enqueued : after.enqueued = pool.enqueued)

/-- What a step of the accepting thread does to the workers. -/
inductive AcceptorWakes (pool after : ThreadPool size) : Prop
  | nobody (workers : after.workers = pool.workers)
      (awake : pool.acceptor.pc = .signal → ∀ worker, (pool.workers worker).pc ≠ .waiting)
  | one (worker : Fin size) (asleep : (pool.workers worker).pc = .waiting)
      (workers : after.workers = Function.update pool.workers worker
        { pool.workers worker with pc := .relockQueue })

/-- What a step of the accepting thread does. -/
structure AcceptorStep (pool after : ThreadPool size) : Prop where
  running : pool.acceptor.pc ≠ .finished
  quitSignal : after.quitSignal = pool.quitSignal
  accepts : after.connections = pool.connections ∧
      (after.acceptor.pc.client = none ∨ after.acceptor.pc.client = pool.acceptor.pc.client) ∨
    after.connections = pool.connections + 1 ∧
      after.acceptor.pc.client = some pool.connections
  queue : pool.AcceptorQueue after
  wakes : pool.AcceptorWakes after
  signals : after.acceptor.pc = .signal → pool.acceptor.pc ≠ .signal
  rejects : pool.acceptor.pc.rejects → after.acceptor.pc.rejects
  empties : after.acceptor.pc = .unlockPending → pool.queue.isEmptyQueue ∧
    after.queue = pool.queue
  finishes : after.acceptor.pc = .finished → pool.acceptor.pc = .unlockPending ∧
    after.queue = pool.queue

/-- What a step of a worker does to the queue, and whether the worker stays idle. -/
inductive WorkerQueue (pool after : ThreadPool size) (worker : Fin size) : Prop
  | untouched (queue : after.queue = pool.queue) (dequeued : after.dequeued = pool.dequeued)
      (keeps : (after.workers worker).pc.client = none ∨
        (after.workers worker).pc.client = (pool.workers worker).pc.client)
      (idles : (pool.workers worker).pc.isIdle → (after.workers worker).pc.isIdle ∨
        (pool.workers worker).pc = .unlockQuit ∧ (pool.workers worker).quitSignalVal)
  | dequeues (takes : pool.Takes after (.worker worker))
      (client : (after.workers worker).pc.client = pool.queue.dequeue.1)

/-- What a step of a worker does. -/
structure WorkerStep (pool after : ThreadPool size) (worker : Fin size) : Prop where
  acceptor : after.acceptor = pool.acceptor
  quitSignal : after.quitSignal = pool.quitSignal
  connections : after.connections = pool.connections
  enqueued : after.enqueued = pool.enqueued
  others : ∃ moved, after.workers = Function.update pool.workers worker moved
  queue : pool.WorkerQueue after worker
  waits : (after.workers worker).pc = .waiting →
    (pool.workers worker).pc = .dequeue ∧ pool.queue.dequeue.1 = none
  reads : (after.workers worker).pc = .unlockQuit →
    (after.workers worker).quitSignalVal = pool.quitSignal
  trusts : (after.workers worker).pc.trusts →
    (pool.workers worker).pc.trusts ∨ pool.queue.isEmptyQueue = false

theorem lock_eq_some {pool locked : ThreadPool size} {mutex : PoolMutex}
    {thread : PoolThread size} (taken : pool.lock mutex thread = some locked) :
    pool.holder mutex = none ∧
      locked = { pool with holder := Function.update pool.holder mutex (some thread) } := by
  rw [lock, Option.ite_none_right_eq_some, Option.some.injEq] at taken
  exact ⟨taken.1, taken.2.symm⟩

theorem acceptor_step {pool after : ThreadPool size} {input : AcceptorInput size}
    (step : pool.acceptIncomingConnections pool.acceptor.pc input = some after) :
    pool.AcceptorStep after := by
  revert step
  generalize position : pool.acceptor.pc = pc
  fun_cases acceptIncomingConnections
  all_goals
    intro step
    first
    | obtain ⟨locked, taken, rfl⟩ := Option.map_eq_some_iff.mp step
      obtain ⟨-, rfl⟩ := lock_eq_some taken
    | cases step
  all_goals
    constructor
    case queue => first
      | exact .untouched rfl rfl rfl
      | exact .enqueues _ _ position rfl rfl rfl rfl
      | exact .rejects ⟨rfl, rfl⟩ position rfl
    case wakes => first
      | exact .one _ ‹_› rfl
      | exact .nobody rfl fun _ => ‹_›
      | exact .nobody rfl fun signals => by simp [position] at signals
  all_goals
    try unfold acceptAgain
    try split
  all_goals
    simp_all [acceptorTo, workerTo, unlock, dequeueBy, AcceptorPc.client, AcceptorPc.rejects]

theorem worker_step {pool after : ThreadPool size} {worker : Fin size}
    (step : pool.searchForThreadWork worker (pool.workers worker).pc = some after) :
    pool.WorkerStep after worker := by
  revert step
  generalize position : (pool.workers worker).pc = pc
  fun_cases searchForThreadWork
  all_goals
    intro step
    first
    | obtain ⟨locked, taken, rfl⟩ := Option.map_eq_some_iff.mp step
      obtain ⟨-, rfl⟩ := lock_eq_some taken
    | cases step
  all_goals
    constructor
    case others => exact ⟨_, rfl⟩
    case queue => first
      | refine .untouched rfl rfl ?_ ?_ <;>
          simp_all [workerTo, unlock, WorkerPc.client, WorkerPc.isIdle]
      | refine .dequeues ⟨rfl, rfl⟩ ?_
        simp_all [workerTo, unlock, dequeueBy, WorkerPc.client]
  all_goals simp_all [workerTo, unlock, dequeueBy, WorkerPc.trusts]

/-- Everything a step can be. -/
inductive Steps (pool : ThreadPool size) : Label size → ThreadPool size → Prop
  | accept {input : AcceptorInput size} {after : ThreadPool size}
      (acceptor : pool.AcceptorStep after) : Steps pool (.accept input) after
  | work {worker : Fin size} {after : ThreadPool size} (works : pool.WorkerStep after worker) :
      Steps pool (.work worker) after
  | quit : Steps pool .quit { pool with quitSignal := true }

theorem step_cases {pool after : ThreadPool size} {label : Label size}
    (step : (threadPool size).step pool label = some after) : pool.Steps label after := by
  cases label with
  | accept input => exact .accept (acceptor_step step)
  | work worker => exact .work (worker_step step)
  | quit => exact Option.some.inj step ▸ .quit

/-! ## A start state and a script -/

/-- A pool all of whose threads were created. -/
def beforePool (size : Nat) : ThreadPool size where
  queue := .initial
  acceptor := ⟨.accept, false⟩
  workers _ := ⟨.testQueue, false⟩
  holder _ := none
  quitSignal := false
  connections := 0
  enqueued := []
  dequeued := []

theorem beforePool_starts (size : Nat) : (threadPool size).Initial (beforePool size) :=
  ⟨rfl, rfl, fun _ => .inl rfl, rfl, rfl, rfl, rfl, rfl⟩

/-- A connection is accepted and its client put into the queue. -/
def offerScript : List (Label size) :=
  [.accept (.accepted true), .accept .tick, .accept (.allocated true)]

/-- A number of steps of the accepting thread that need nothing from the environment. -/
def acceptTicks (count : Nat) : List (Label size) := List.replicate count (.accept .tick)

/-- A number of steps of a worker. -/
def works (worker : Fin size) (count : Nat) : List (Label size) :=
  List.replicate count (.work worker)

end ThreadPool
end CmyMessage
