import CmyMessage.Foundation.LabelledSystem
import CmyMessage.ThreadPool.Queue

/-!
# The thread pool

`service_utils.c` as a labelled transition system: the thread that accepts connections and the
workers that take clients off the queue.  A thread makes at most one access to shared memory, to a
mutex or to the condition variable in a step; the calls of `queue.c`, which are made under the mutex
of the queue, are one step each, and so is the test of the queue made without it.  What a service
does with a client is left open: it returns at some time, or never.  Clients are numbered in the
order in which their connections were accepted.
-/

namespace CmyMessage

/-- The threads of a pool. -/
inductive PoolThread (size : Nat)
  | acceptor
  | worker (worker : Fin size)
  deriving DecidableEq

/-- The mutexes of a pool. -/
inductive PoolMutex
  /-- `p_mutex_queue` -/
  | queue
  /-- `p_mutex_quit_signal` -/
  | quitSignal
  deriving DecidableEq

/-- Positions in `accept_incoming_connections` and `gracefully_reject_pending_clients`. -/
inductive AcceptorPc
  | accept | lockQueue (client : Nat) | enqueue (client : Nat) | signal | unlockQueue
  | lockQuit | readQuit | unlockQuit
  | lockPending | reject | unlockPending
  /-- `accept_incoming_connections` has returned. -/
  | finished
  deriving DecidableEq

/-- Positions in `search_for_thread_work`. -/
inductive WorkerPc
  | testQueue | lockQueue | dequeue
  /-- Asleep in `pthread_cond_wait`. -/
  | waiting
  /-- Awake in `pthread_cond_wait`, which takes the mutex again. -/
  | relockQueue
  | dequeueAgain | unlockQueue (client : Option Nat)
  /-- In the function of the service. -/
  | serving (client : Nat)
  | lockQuit | readQuit | unlockQuit
  /-- `search_for_thread_work` has returned, or the thread was never created. -/
  | finished
  deriving DecidableEq

/-- The thread of `accept_incoming_connections`. -/
structure Acceptor where
  /-- Where the thread stands. -/
  pc : AcceptorPc
  /-- `quit_signal_val`, which nobody has written before it is read first. -/
  quitSignalVal : Bool

/-- A thread of `search_for_thread_work`. -/
structure Worker where
  /-- Where the thread stands. -/
  pc : WorkerPc
  /-- `quit_signal_val` -/
  quitSignalVal : Bool

/-- A pool of `SIZE_THREAD_POOL` workers. -/
structure ThreadPool (size : Nat) where
  /-- The pending clients. -/
  queue : Queue Nat
  /-- The accepting thread. -/
  acceptor : Acceptor
  /-- The workers. -/
  workers : Fin size → Worker
  /-- The thread that holds a mutex. -/
  holder : PoolMutex → Option (PoolThread size)
  /-- `p_quit_signal` -/
  quitSignal : Bool
  /-- How many connections were accepted so far. -/
  connections : Nat
  /-- Record of the clients put into the queue. -/
  enqueued : List Nat
  /-- Record of the clients taken off the queue, each with the thread that took it. -/
  dequeued : List (PoolThread size × Nat)

/-- What the environment contributes to a step of the accepting thread. -/
inductive AcceptorInput (size : Nat)
  | tick
  /-- Whether `accept_connection` returns a client. -/
  | accepted (succeeded : Bool)
  /-- Whether the allocation of a node succeeds. -/
  | allocated (succeeded : Bool)
  /-- The worker woken by `pthread_cond_signal`, unless none is waiting. -/
  | woken (worker : Option (Fin size))

namespace ThreadPool

variable {size : Nat}

/-- Move the accepting thread. -/
def acceptorTo (pool : ThreadPool size) (pc : AcceptorPc) : ThreadPool size :=
  { pool with acceptor := { pool.acceptor with pc } }

/-- Move a worker. -/
def workerTo (pool : ThreadPool size) (worker : Fin size) (pc : WorkerPc) : ThreadPool size :=
  { pool with
    workers := Function.update pool.workers worker { pool.workers worker with pc } }

/-- `pthread_mutex_lock`, which blocks while the mutex is held. -/
def lock (pool : ThreadPool size) (mutex : PoolMutex) (thread : PoolThread size) :
    Option (ThreadPool size) :=
  if pool.holder mutex = none then
    some { pool with holder := Function.update pool.holder mutex (some thread) }
  else
    none

/-- `pthread_mutex_unlock` -/
def unlock (pool : ThreadPool size) (mutex : PoolMutex) : ThreadPool size :=
  { pool with holder := Function.update pool.holder mutex none }

/-- `dequeue`, called by a thread. -/
def dequeueBy (pool : ThreadPool size) (thread : PoolThread size) : ThreadPool size :=
  { pool with
    queue := pool.queue.dequeue.2
    dequeued := pool.dequeued ++ (pool.queue.dequeue.1.map (Prod.mk thread)).toList }

/-! ## The functions of the source -/

/-- The condition of the loop of `accept_incoming_connections`. -/
def acceptAgain (acceptor : Acceptor) : AcceptorPc :=
  if acceptor.quitSignalVal then .lockPending else .accept

/-- `accept_incoming_connections` with `gracefully_reject_pending_clients`. -/
def acceptIncomingConnections (pool : ThreadPool size) :
    AcceptorPc → AcceptorInput size → Option (ThreadPool size)
  | .accept, .accepted true =>
      some ({ pool with connections := pool.connections + 1 }.acceptorTo
        (.lockQueue pool.connections))
  -- `continue` evaluates the condition of the loop without reading the signal.
  | .accept, .accepted false => some (pool.acceptorTo (acceptAgain pool.acceptor))
  | .lockQueue client, .tick =>
      (pool.lock .queue .acceptor).map fun locked => locked.acceptorTo (.enqueue client)
  | .enqueue client, .allocated succeeded =>
      let result := pool.queue.enqueue size client succeeded
      some ({ pool with
        queue := result.queue
        enqueued := if result.status = none then pool.enqueued ++ [client] else pool.enqueued
        }.acceptorTo .signal)
  | .signal, .woken none =>
      if ∀ worker, (pool.workers worker).pc ≠ .waiting then
        some (pool.acceptorTo .unlockQueue)
      else
        none
  | .signal, .woken (some worker) =>
      if (pool.workers worker).pc = .waiting then
        some ((pool.workerTo worker .relockQueue).acceptorTo .unlockQueue)
      else
        none
  | .unlockQueue, .tick => some ((pool.unlock .queue).acceptorTo .lockQuit)
  | .lockQuit, .tick =>
      (pool.lock .quitSignal .acceptor).map fun locked => locked.acceptorTo .readQuit
  | .readQuit, .tick =>
      some { pool with acceptor := ⟨.unlockQuit, pool.quitSignal⟩ }
  | .unlockQuit, .tick => some ((pool.unlock .quitSignal).acceptorTo (acceptAgain pool.acceptor))
  | .lockPending, .tick =>
      (pool.lock .queue .acceptor).map fun locked => locked.acceptorTo .reject
  | .reject, .tick =>
      if pool.queue.isEmptyQueue then
        some (pool.acceptorTo .unlockPending)
      else
        some (pool.dequeueBy .acceptor)
  | .unlockPending, .tick => some ((pool.unlock .queue).acceptorTo .finished)
  | _, _ => none

/-- `search_for_thread_work` -/
def searchForThreadWork (pool : ThreadPool size) (worker : Fin size) :
    WorkerPc → Option (ThreadPool size)
  | .testQueue =>
      if pool.queue.isEmptyQueue then
        some (pool.workerTo worker .lockQuit)
      else
        some (pool.workerTo worker .lockQueue)
  | .lockQueue =>
      (pool.lock .queue (.worker worker)).map fun locked => locked.workerTo worker .dequeue
  | .dequeue =>
      match pool.queue.dequeue.1 with
      | none =>
          some (((pool.dequeueBy (.worker worker)).unlock .queue).workerTo worker .waiting)
      | some client =>
          some ((pool.dequeueBy (.worker worker)).workerTo worker (.unlockQueue (some client)))
  -- A signal moves the thread as well, and it may wake without one.
  | .waiting => some (pool.workerTo worker .relockQueue)
  | .relockQueue =>
      (pool.lock .queue (.worker worker)).map fun locked => locked.workerTo worker .dequeueAgain
  | .dequeueAgain =>
      some ((pool.dequeueBy (.worker worker)).workerTo worker
        (.unlockQueue pool.queue.dequeue.1))
  | .unlockQueue none => some ((pool.unlock .queue).workerTo worker .lockQuit)
  | .unlockQueue (some client) => some ((pool.unlock .queue).workerTo worker (.serving client))
  | .serving _ => some (pool.workerTo worker .lockQuit)
  | .lockQuit =>
      (pool.lock .quitSignal (.worker worker)).map fun locked => locked.workerTo worker .readQuit
  | .readQuit =>
      some { pool with
        workers := Function.update pool.workers worker ⟨.unlockQuit, pool.quitSignal⟩ }
  | .unlockQuit =>
      if (pool.workers worker).quitSignalVal then
        some ((pool.unlock .quitSignal).workerTo worker .finished)
      else
        some ((pool.unlock .quitSignal).workerTo worker .testQueue)
  | .finished => none

/-! ## Steps -/

/-- What can happen next. -/
inductive Label (size : Nat)
  /-- The accepting thread takes a step. -/
  | accept (input : AcceptorInput size)
  /-- A worker takes a step. -/
  | work (worker : Fin size)
  /-- The quit signal is set. -/
  | quit

/-- The step relation, resolved by labels. -/
def step (pool : ThreadPool size) : Label size → Option (ThreadPool size)
  | .accept input => pool.acceptIncomingConnections pool.acceptor.pc input
  | .work worker => pool.searchForThreadWork worker (pool.workers worker).pc
  | .quit => some { pool with quitSignal := true }

/-- The pool before its threads run; some of them may not have been created. -/
structure Starts (pool : ThreadPool size) : Prop where
  queue : pool.queue = .initial
  acceptor : pool.acceptor.pc = .accept
  workers : ∀ worker, (pool.workers worker).pc = .testQueue ∨ (pool.workers worker).pc = .finished
  holder : pool.holder = fun _ => none
  quitSignal : pool.quitSignal = false
  connections : pool.connections = 0
  enqueued : pool.enqueued = []
  dequeued : pool.dequeued = []

end ThreadPool

/-- The thread pool as a transition system. -/
def threadPool (size : Nat) : LabelledSystem (ThreadPool size) (ThreadPool.Label size) where
  Initial := ThreadPool.Starts
  step := ThreadPool.step

end CmyMessage
