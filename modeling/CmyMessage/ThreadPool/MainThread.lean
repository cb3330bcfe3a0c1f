import CmyMessage.ThreadPool.AcceptLoop
import CmyMessage.ThreadPool.Hosting

/-!
# The main thread of a service

`start_service` with all it calls: the main thread allocates what its threads share, creates the
workers and the accepting thread, waits for the latter to return, and closes the service then.
Nothing else sets the quit signal, and the accepting thread, once it has accepted a connection,
leaves its loop on that signal alone.  So a service that has accepted a connection is never closed.
-/

namespace CmyMessage

/-- What `initialize_server_concurrency_and_thread_pool` allocates. -/
inductive Resource
  | threadPool | conditionVar | mutexQueue | mutexQuitSignal | mutexUsernamesHt
  | mutexOnlineClientsSet | mutexCommonMsgBuffer | quitSignal
  deriving DecidableEq

/-- The order in which it does. -/
def serverConcurrency : List Resource :=
  [.threadPool, .conditionVar, .mutexQueue, .mutexQuitSignal, .mutexUsernamesHt,
    .mutexOnlineClientsSet, .mutexCommonMsgBuffer, .quitSignal]

/-- Positions of the main thread. -/
inductive MainPc
  | createSocketStruct | getUsernamesHashTablePtr | getSetOfClientsDescriptors
  /-- The allocations of `p_max_socket_so_far` and `p_common_msg_buffer`, which nobody checks. -/
  | allocateBuffers
  /-- In `initialize_server_concurrency_and_thread_pool`, with what is left to allocate. -/
  | concurrency (left : List Resource)
  /-- In the loop of that function which creates the workers. -/
  | createWorker (i : Nat)
  | createListener | joinListener
  /-- In `close_service`. -/
  | setQuitSignal | destroyUsernames | closeServerSocket
  /-- `start_service` has returned, where it can with a status. -/
  | returned (status : Option Int)
  /-- The process has ended, and its threads with it. -/
  | exited
  deriving DecidableEq

/-- What the environment contributes to a step of the main thread. -/
inductive MainInput
  | tick
  /-- Whether an allocation, and the initialisation of its block, succeed. -/
  | succeeded (succeeded : Bool)
  /-- What `pthread_create` returns: zero or the number of an error. -/
  | status (creationStatus : Nat)
  /-- What `pthread_join` returns and reports about the thread, and what a call gives that ends
  without a `return`. -/
  | joined (joinStatus : Nat) (threadReturnVal : Option Int) (unspecified : Int)

/-- A service from the start of its process. -/
structure ServiceProcess (size : Nat) (σ : Type) where
  /-- Where the main thread stands. -/
  main : MainPc
  /-- The pool and its service. -/
  host : Hosting size σ
  /-- The workers whose creation succeeds. -/
  threads : Fin size → Bool
  /-- How many workers the main thread has called `pthread_create` for. -/
  created : Nat
  /-- The accepting thread was created. -/
  listening : Bool
  /-- What `quit_signal_val` holds before the accepting thread writes it. -/
  leftover : Bool
  /-- The usernames table exists. -/
  usernamesHt : Bool
  /-- The server socket is open. -/
  serverSocket : Bool

namespace ServiceProcess

variable {size : Nat} {σ ι : Type}

/-- Move the main thread. -/
def mainTo (process : ServiceProcess size σ) (main : MainPc) : ServiceProcess size σ :=
  { process with main }

/-! ## The functions of the source -/

/-- `join_thread_and_handle_errors`, after `pthread_join` -/
def joinThreadAndHandleErrors (joinStatus : Int) (threadReturnVal : Option Int) : Int :=
  if joinStatus < 0 then joinStatus else threadReturnVal.getD (-1)

/-- `listen_for_connections_on_separate_thread`, after the join -/
def listenForConnectionsOnSeparateThread (joinStatus : Int) : Int :=
  if joinStatus < 0 then joinStatus else 0

/-- The end of `start_accepting_incoming_connections`, which returns zero in the FTP service and
nothing in the broadcast service. -/
def startAcceptingIncomingConnections (returnsZero : Bool) (listenExitStatus unspecified : Int) :
    Int :=
  if listenExitStatus < 0 then listenExitStatus else if returnsZero then 0 else unspecified

/-- `start_service` with the functions it calls, and the end of `main`.  The mutexes that
`close_service` takes can only delay it. -/
def startService (service : HostedService σ ι) (returnsZero : Bool)
    (process : ServiceProcess size σ) : MainPc → MainInput → Option (ServiceProcess size σ)
  | .createSocketStruct, .succeeded true =>
      some { process with main := .getUsernamesHashTablePtr, serverSocket := true }
  | .createSocketStruct, .succeeded false => some (process.mainTo (.returned (some (-1))))
  | .getUsernamesHashTablePtr, .succeeded true =>
      some { process with main := .getSetOfClientsDescriptors, usernamesHt := true }
  | .getUsernamesHashTablePtr, .succeeded false => some (process.mainTo (.returned (some (-1))))
  | .getSetOfClientsDescriptors, .succeeded true => some (process.mainTo .allocateBuffers)
  | .getSetOfClientsDescriptors, .succeeded false => some (process.mainTo (.returned (some (-1))))
  | .allocateBuffers, .tick => some (process.mainTo (.concurrency serverConcurrency))
  | .concurrency (_ :: left), .succeeded true => some (process.mainTo (.concurrency left))
  -- `exit(EXIT_FAILURE)`
  | .concurrency (_ :: _), .succeeded false => some (process.mainTo .exited)
  | .concurrency [], .tick => some (process.mainTo (.createWorker 0))
  -- `creation_status < 0` never holds, and would only be logged.
  | .createWorker i, .status creationStatus =>
      if within : i < size then
        if process.threads ⟨i, within⟩ = decide (creationStatus = 0) then
          some { process with main := .createWorker (i + 1), created := i + 1 }
        else
          none
      else
        none
  | .createWorker i, .tick =>
      if i < size then none else some (process.mainTo .createListener)
  | .createListener, .status creationStatus =>
      if (creationStatus : Int) < 0 then
        some (process.mainTo (.returned (some creationStatus)))
      else
        some { process with main := .joinListener, listening := decide (creationStatus = 0) }
  -- The identifier of a thread that was not created is anything, and so is the outcome of its join.
  | .joinListener, .joined joinStatus threadReturnVal unspecified =>
      if process.listening = true →
          process.host.pool.acceptor.pc = .finished ∧ joinStatus = 0 then
        let listenExitStatus := listenForConnectionsOnSeparateThread
          (joinThreadAndHandleErrors joinStatus threadReturnVal)
        let errorStatus :=
          startAcceptingIncomingConnections returnsZero listenExitStatus unspecified
        if errorStatus < 0 then
          some (process.mainTo (.returned (some errorStatus)))
        else
          some (process.mainTo .setQuitSignal)
      else
        none
  | .setQuitSignal, .tick =>
      (process.host.step service .quit).map fun host =>
        { process with main := .destroyUsernames, host }
  | .destroyUsernames, .tick =>
      some { process with main := .closeServerSocket, usernamesHt := false }
  | .closeServerSocket, .tick =>
      some { process with main := .returned none, serverSocket := false }
  | .returned _, .tick => some (process.mainTo .exited)
  | _, _ => none

/-! ## Steps -/

/-- What can happen next. -/
inductive Label (size : Nat) (ι : Type)
  /-- The main thread takes a step. -/
  | main (input : MainInput)
  /-- Another thread takes a step. -/
  | host (label : Hosting.Label size ι)

/-- The thread of a step was created; the quit signal is left to the main thread. -/
def hasThread (process : ServiceProcess size σ) : Hosting.Label size ι → Bool
  | .accept _ | .pool (.accept _) => process.listening
  | .pool (.work worker) => decide (worker < process.created) && process.threads worker
  | .serve _ _ => true
  | .quit | .pool .quit => false

/-- The step relation, resolved by labels. -/
def step (service : HostedService σ ι) (returnsZero : Bool) (process : ServiceProcess size σ)
    (label : Label size ι) : Option (ServiceProcess size σ) :=
  if process.main ≠ .exited ∧ service.runs process.host.service = true then
    match label with
    | .main input => process.startService service returnsZero process.main input
    | .host label =>
        if process.hasThread label then
          (process.host.step service label).map fun host => { process with host }
        else
          none
  else
    none

/-- The process before its main thread runs. -/
structure Starts (service : HostedService σ ι) (ServiceStarts : σ → Prop)
    (process : ServiceProcess size σ) : Prop where
  main : process.main = .createSocketStruct
  host : (hosting service ServiceStarts size).Initial process.host
  threads : ∀ worker, (process.host.pool.workers worker).pc =
    if process.threads worker then .testQueue else .finished
  created : process.created = 0
  listening : process.listening = false
  leftover : process.host.pool.acceptor.quitSignalVal = process.leftover
  usernamesHt : process.usernamesHt = false
  serverSocket : process.serverSocket = false

end ServiceProcess

/-- A service with its main thread, as a transition system. -/
def serviceProcess {σ ι : Type} (service : HostedService σ ι) (Starts : σ → Prop)
    (returnsZero : Bool) (size : Nat) :
    LabelledSystem (ServiceProcess size σ) (ServiceProcess.Label size ι) where
  Initial process := process.Starts service Starts
  step := ServiceProcess.step service returnsZero

namespace ThreadPool

variable {size : Nat} {pool after : ThreadPool size}

/-- What a step of the accepting thread does to its own variables. -/
inductive AcceptorMoves (pool after : ThreadPool size) : Prop
  /-- The condition of the loop is evaluated. -/
  | tests (position : pool.acceptor.pc = .accept ∨ pool.acceptor.pc = .unlockQuit)
      (acceptor : after.acceptor = ⟨acceptAgain pool.acceptor, pool.acceptor.quitSignalVal⟩)
      (connections : after.connections = pool.connections)
  | reads (position : pool.acceptor.pc = .readQuit)
      (acceptor : after.acceptor = ⟨.unlockQuit, pool.quitSignal⟩)
      (connections : after.connections = pool.connections)
  | moves (value : after.acceptor.quitSignalVal = pool.acceptor.quitSignalVal)
      (loop : after.acceptor.pc.inLoop = pool.acceptor.pc.inLoop)
      (accepting : after.acceptor.pc ≠ .accept) (tested : after.acceptor.pc ≠ .unlockQuit)
      (counts : pool.acceptor.pc = .accept ∧ after.connections = pool.connections + 1 ∨
        pool.acceptor.pc ≠ .accept ∧ after.connections = pool.connections)

theorem acceptor_moves {input : AcceptorInput size}
    (step : pool.acceptIncomingConnections pool.acceptor.pc input = some after) :
    pool.AcceptorMoves after := by
  revert step
  generalize position : pool.acceptor.pc = pc
  fun_cases acceptIncomingConnections
  all_goals
    intro step
    first
    | obtain ⟨locked, taken, rfl⟩ := Option.map_eq_some_iff.mp step
      obtain ⟨-, rfl⟩ := lock_eq_some taken
    | cases step
  all_goals first
    | exact .tests (.inl position) rfl rfl
    | exact .tests (.inr position) rfl rfl
    | exact .reads position rfl rfl
    | refine .moves rfl ?_ ?_ ?_ ?_ <;>
        simp [acceptorTo, unlock, dequeueBy, workerTo, position, AcceptorPc.inLoop]

/-- What the accepting thread has found in `quit_signal_val`, while the quit signal is not set. -/
structure Accepting (pool : ThreadPool size) (leftover : Bool) : Prop where
  counted : pool.acceptor.pc.inLoop = true → pool.acceptor.pc ≠ .accept → 0 < pool.connections
  fresh : pool.acceptor.pc = .unlockQuit → pool.acceptor.quitSignalVal = false
  again : pool.acceptor.pc = .accept → 0 < pool.connections → pool.acceptor.quitSignalVal = false
  value : pool.connections = 0 → pool.acceptor.quitSignalVal = leftover
  left : pool.acceptor.pc.inLoop = false → pool.connections = 0 ∧ leftover = true

theorem Accepting.of_eq {leftover : Bool} (accepting : pool.Accepting leftover)
    (acceptor : after.acceptor = pool.acceptor)
    (connections : after.connections = pool.connections) :
    after.Accepting leftover := by
  constructor <;> rw [acceptor]
  · exact connections ▸ accepting.counted
  · exact accepting.fresh
  · exact connections ▸ accepting.again
  · exact connections ▸ accepting.value
  · exact connections ▸ accepting.left

theorem Accepting.moves {leftover : Bool} (accepting : pool.Accepting leftover)
    (unset : pool.quitSignal = false) (moves : pool.AcceptorMoves after) :
    after.Accepting leftover := by
  cases moves with
  | tests position acceptor connections =>
      have untested : 0 < pool.connections → pool.acceptor.quitSignalVal = false := fun accepted =>
        position.elim (accepting.again · accepted) accepting.fresh
      constructor <;> rw [acceptor]
      · rw [acceptAgain_inLoop, acceptAgain]
        cases pool.acceptor.quitSignalVal <;> simp
      · exact fun tested => absurd tested (acceptAgain_ne_unlockQuit _)
      · exact fun _ => connections ▸ untested
      · exact connections ▸ accepting.value
      · rw [acceptAgain_inLoop, connections]
        intro left
        have none : pool.connections = 0 := by
          by_contra some
          simp [untested (Nat.pos_of_ne_zero some)] at left
        refine ⟨none, ?_⟩
        rw [← accepting.value none]
        simpa using left
  | reads position acceptor connections =>
      have accepted := accepting.counted (by rw [position]; rfl) (by rw [position]; simp)
      constructor <;> rw [acceptor, ← connections] at *
      · exact fun _ _ => accepted
      · exact fun _ => unset
      · intro elsewhere
        cases elsewhere
      · exact fun none => absurd none accepted.ne'
      · intro outside
        cases outside
  | moves value loop accepting' tested counts =>
      constructor
      · intro inLoop _
        rcases counts with ⟨-, more⟩ | ⟨elsewhere, same⟩
        · omega
        · rw [same]
          exact accepting.counted (loop ▸ inLoop) elsewhere
      · exact fun position => absurd position tested
      · exact fun position => absurd position accepting'
      · intro none
        rw [value]
        exact accepting.value (by omega)
      · intro outside
        rw [loop] at outside
        rcases counts with ⟨position, -⟩ | ⟨-, same⟩
        · rw [position] at outside
          cases outside
        · rw [same]
          exact accepting.left outside

/-- A worker returns once it has read the quit signal as set. -/
theorem worker_finishes {worker : Fin size}
    (step : pool.searchForThreadWork worker (pool.workers worker).pc = some after) :
    (pool.workers worker).pc ≠ .finished ∧
      ((after.workers worker).pc = .finished →
        (pool.workers worker).pc = .unlockQuit ∧ (pool.workers worker).quitSignalVal = true) := by
  revert step
  generalize position : (pool.workers worker).pc = pc
  fun_cases searchForThreadWork
  all_goals
    intro step
    first
    | obtain ⟨locked, taken, rfl⟩ := Option.map_eq_some_iff.mp step
      obtain ⟨-, rfl⟩ := lock_eq_some taken
    | cases step
  all_goals simp_all [workerTo, unlock, dequeueBy]

/-- Of the threads that were created, none has seen the quit signal. -/
def Unsignalled (pool : ThreadPool size) (threads : Fin size → Bool) : Prop :=
  ∀ worker, ((pool.workers worker).pc = .finished ↔ threads worker = false) ∧
    ((pool.workers worker).pc = .unlockQuit → (pool.workers worker).quitSignalVal = false)

theorem Unsignalled.step {threads : Fin size → Bool} {label : Label size}
    (unsignalled : pool.Unsignalled threads) (unset : pool.quitSignal = false)
    (step : (threadPool size).step pool label = some after) : after.Unsignalled threads := by
  intro worker
  cases label with
  | accept input =>
      cases (acceptor_step step).wakes with
      | nobody workers _ => rw [workers]; exact unsignalled worker
      | one woken asleep workers =>
          rw [workers]
          rcases eq_or_ne worker woken with rfl | different
          · have created := (unsignalled worker).1
            simp_all
          · rw [Function.update_of_ne different]
            exact unsignalled worker
  | work mover =>
      have moved := worker_step step
      obtain ⟨running, finishes⟩ := worker_finishes step
      obtain ⟨_, workers⟩ := moved.others
      rcases eq_or_ne worker mover with rfl | different
      · refine ⟨?_, fun position => (moved.reads position).trans unset⟩
        have created : threads worker ≠ false := mt (unsignalled worker).1.mpr running
        refine iff_of_false (fun finished => ?_) created
        obtain ⟨position, value⟩ := finishes finished
        rw [(unsignalled worker).2 position] at value
        cases value
      · rw [workers, Function.update_of_ne different]
        exact unsignalled worker
  | quit =>
      cases step
      exact unsignalled worker

end ThreadPool

/-- The accepting thread was not called for yet. -/
def MainPc.starts : MainPc → Bool
  | createSocketStruct | getUsernamesHashTablePtr | getSetOfClientsDescriptors | allocateBuffers
  | concurrency _ | createWorker _ | createListener => true
  | _ => false

/-- The usernames table was created and not destroyed yet. -/
def MainPc.hasTable : MainPc → Bool
  | getSetOfClientsDescriptors | allocateBuffers | concurrency _ | createWorker _
  | createListener | joinListener => true
  | _ => false

/-- The server socket was created and not closed yet. -/
def MainPc.hasSocket : MainPc → Bool
  | getUsernamesHashTablePtr => true
  | main => main.hasTable

namespace ServiceProcess

variable {size : Nat} {σ ι : Type} {service : HostedService σ ι} {ServiceStarts : σ → Prop}
  {returnsZero : Bool} {process after : ServiceProcess size σ}

/-- What a step of the main thread does. -/
structure MainStep (service : HostedService σ ι) (process after : ServiceProcess size σ) :
    Prop where
  host : process.main ≠ .setQuitSignal ∧ after.host = process.host ∨
    process.main = .setQuitSignal ∧ process.host.step service .quit = some after.host
  threads : after.threads = process.threads
  leftover : after.leftover = process.leftover
  listening : after.listening = process.listening ∨
    process.main = .createListener ∧ after.main = .joinListener
  starts : after.main.starts = true →
    process.main.starts = true ∧ after.listening = process.listening
  joins : after.main = .joinListener → process.main = .createListener
  joined : process.main = .joinListener → process.listening = true →
    process.host.pool.acceptor.pc = .finished
  table : after.main.hasTable = true → after.usernamesHt = true ∨
    process.main.hasTable = true ∧ after.usernamesHt = process.usernamesHt
  socket : after.main.hasSocket = true → after.serverSocket = true ∨
    process.main.hasSocket = true ∧ after.serverSocket = process.serverSocket

theorem main_step {input : MainInput}
    (step : process.startService service returnsZero process.main input = some after) :
    process.MainStep service after := by
  revert step
  generalize position : process.main = pc
  fun_cases startService
  all_goals
    intro step
    first
    | obtain ⟨host, quits, rfl⟩ := Option.map_eq_some_iff.mp step
    | cases step
  all_goals
    constructor <;>
      simp_all [mainTo, MainPc.starts, MainPc.hasTable, MainPc.hasSocket]

/-- A step of a thread other than the main thread, as the pool sees it. -/
inductive ThreadStep (process : ServiceProcess size σ) (after : ThreadPool size) : Prop
  | accepts {input : AcceptorInput size} (listening : process.listening = true)
      (step : (threadPool size).step process.host.pool (.accept input) = some after)
  | works {worker : Fin size}
      (step : (threadPool size).step process.host.pool (.work worker) = some after)
  | serves (same : after = process.host.pool)

theorem thread_step {label : Hosting.Label size ι} {host : Hosting size σ}
    (thread : process.hasThread label = true)
    (step : process.host.step service label = some host) : process.ThreadStep host.pool := by
  obtain ⟨-, steps⟩ := Hosting.step_cases
    (show (hosting service (fun _ => True) size).step process.host label = some host from step)
  cases steps with
  | accept moved _ => exact .accepts thread moved
  | @pool label pool _ moved =>
      cases label with
      | accept input => exact .accepts thread moved
      | work worker => exact .works moved
      | quit => cases thread
  | quit _ _ => cases thread
  | serve _ _ => exact .serves rfl

/-- How the main thread and the accepting thread wait for each other. -/
structure Lasting (process : ServiceProcess size σ) : Prop where
  waits : process.listening = true → process.host.pool.acceptor.pc ≠ .finished →
    process.main = .joinListener
  silent : process.listening = false →
    process.host.pool.acceptor.pc = .accept ∧ process.host.pool.connections = 0
  starting : process.main.starts = true → process.listening = false
  unset : process.main.starts = true ∨ process.main = .joinListener →
    process.host.pool.quitSignal = false
  accepting : process.host.pool.Accepting process.leftover
  workers : process.host.pool.quitSignal = false →
    process.host.pool.Unsignalled process.threads
  table : process.main.hasTable = true → process.usernamesHt = true
  socket : process.main.hasSocket = true → process.serverSocket = true

theorem Lasting.start (starts : process.Starts service ServiceStarts) : process.Lasting := by
  have pool := starts.host.1
  constructor
  · intro listening
    simp [starts.listening] at listening
  · exact fun _ => ⟨pool.acceptor, pool.connections⟩
  · exact fun _ => starts.listening
  · exact fun _ => pool.quitSignal
  · constructor <;> simp [pool.acceptor, pool.connections, AcceptorPc.inLoop]
    exact starts.leftover
  · intro _ worker
    rw [starts.threads worker]
    cases process.threads worker <;> simp
  · intro hasTable
    simp [starts.main, MainPc.hasTable] at hasTable
  · intro hasSocket
    simp [starts.main, MainPc.hasSocket, MainPc.hasTable] at hasSocket

/-- The quit signal changes nothing else in the pool. -/
theorem quits_pool {host : Hosting size σ} (quits : process.host.step service .quit = some host) :
    host.pool = { process.host.pool with quitSignal := true } := by
  obtain ⟨-, steps⟩ := Hosting.step_cases
    (show (hosting service (fun _ => True) size).step process.host .quit = some host from quits)
  cases steps with
  | quit moved _ =>
      cases moved
      rfl

/-- The main thread never leaves the accepting thread alone. -/
theorem Lasting.main (lasting : process.Lasting) (moved : process.MainStep service after) :
    after.Lasting := by
  have pool : after.host.pool.acceptor = process.host.pool.acceptor ∧
      after.host.pool.connections = process.host.pool.connections ∧
      after.host.pool.workers = process.host.pool.workers ∧
      (after.host.pool.quitSignal = true ∨
        after.host.pool.quitSignal = process.host.pool.quitSignal) := by
    rcases moved.host with ⟨-, same⟩ | ⟨-, quits⟩
    · simp [same]
    · simp [quits_pool quits]
  obtain ⟨acceptor, connections, workers, signal⟩ := pool
  constructor
  · intro listening running
    rw [acceptor] at running
    rcases moved.listening with same | ⟨-, joins⟩
    · rw [same] at listening
      have position := lasting.waits listening running
      exact absurd (moved.joined position listening) running
    · exact joins
  · intro silent
    rw [acceptor, connections]
    apply lasting.silent
    rcases moved.listening with same | ⟨position, -⟩
    · rwa [← same]
    · exact lasting.starting (by rw [position]; rfl)
  · intro starts
    obtain ⟨started, same⟩ := moved.starts starts
    rw [same]
    exact lasting.starting started
  · intro waiting
    have started : process.main.starts = true := by
      rcases waiting with starts | joins
      · exact (moved.starts starts).1
      · rw [moved.joins joins]
        rfl
    rcases moved.host with ⟨-, same⟩ | ⟨position, -⟩
    · rw [same]
      exact lasting.unset (.inl started)
    · rw [position] at started
      cases started
  · rw [moved.leftover]
    exact lasting.accepting.of_eq acceptor connections
  · intro unset
    rw [moved.threads, ThreadPool.Unsignalled, workers]
    rcases signal with set | same
    · rw [set] at unset
      cases unset
    · exact lasting.workers (same ▸ unset)
  · intro hasTable
    rcases moved.table hasTable with created | ⟨had, same⟩
    · exact created
    · rw [same]
      exact lasting.table had
  · intro hasSocket
    rcases moved.socket hasSocket with opened | ⟨had, same⟩
    · exact opened
    · rw [same]
      exact lasting.socket had

/-- The other threads take their steps while the main thread starts them or waits. -/
theorem Lasting.thread (lasting : process.Lasting) {host : Hosting size σ}
    (moved : process.ThreadStep host.pool) :
    ({ process with host } : ServiceProcess size σ).Lasting := by
  have finishes : host.pool.acceptor.pc ≠ .finished →
      process.host.pool.acceptor.pc ≠ .finished := by
    intro running
    cases moved with
    | accepts _ step => exact (ThreadPool.acceptor_step step).running
    | works step => rwa [← (ThreadPool.worker_step step).acceptor]
    | serves same => rwa [← same]
  have signal : host.pool.quitSignal = process.host.pool.quitSignal := by
    cases moved with
    | accepts _ step => exact (ThreadPool.acceptor_step step).quitSignal
    | works step => exact (ThreadPool.worker_step step).quitSignal
    | serves same => rw [same]
  constructor
  · exact fun listening running => lasting.waits listening (finishes running)
  · intro silent
    obtain ⟨position, none⟩ := lasting.silent silent
    cases moved with
    | accepts listening _ => exact absurd listening (Bool.not_eq_true _ ▸ silent)
    | works step =>
        rw [(ThreadPool.worker_step step).acceptor, (ThreadPool.worker_step step).connections]
        exact ⟨position, none⟩
    | serves same => exact same ▸ ⟨position, none⟩
  · exact lasting.starting
  · exact fun waiting => signal.trans (lasting.unset waiting)
  · cases moved with
    | accepts listening step =>
        have waiting := lasting.waits listening (ThreadPool.acceptor_step step).running
        exact lasting.accepting.moves (lasting.unset (.inr waiting))
          (ThreadPool.acceptor_moves step)
    | works step =>
        exact lasting.accepting.of_eq (ThreadPool.worker_step step).acceptor
          (ThreadPool.worker_step step).connections
    | serves same => exact same ▸ lasting.accepting
  · intro unset
    rw [signal] at unset
    cases moved with
    | accepts _ step => exact (lasting.workers unset).step unset step
    | works step => exact (lasting.workers unset).step unset step
    | serves same => exact same ▸ lasting.workers unset
  · exact lasting.table
  · exact lasting.socket

/-- Everything a step can be. -/
inductive Steps (service : HostedService σ ι) (process : ServiceProcess size σ) :
    Label size ι → ServiceProcess size σ → Prop
  | main {input : MainInput} {after : ServiceProcess size σ}
      (moved : process.MainStep service after) : Steps service process (.main input) after
  | host {label : Hosting.Label size ι} {host : Hosting size σ}
      (thread : process.hasThread label = true)
      (step : (hosting service (fun _ => True) size).step process.host label = some host) :
      Steps service process (.host label) { process with host }

theorem step_cases {label : Label size ι}
    (step : (serviceProcess service ServiceStarts returnsZero size).step process label =
      some after) : process.main ≠ .exited ∧ process.Steps service label after := by
  simp only [serviceProcess, ServiceProcess.step] at step
  split at step
  · refine ⟨(‹_ ∧ _› : _ ∧ _).1, ?_⟩
    cases label with
    | main input => exact .main (main_step step)
    | host label =>
        simp only at step
        split at step
        · obtain ⟨host, moved, rfl⟩ := Option.map_eq_some_iff.mp step
          exact .host ‹_› moved
        · cases step
  · cases step

theorem lasting
    (reached : (serviceProcess service ServiceStarts returnsZero size).Reaches process) :
    process.Lasting := by
  apply reached.invariant
  · exact fun _ starts => Lasting.start starts
  · intro before label after _ lasting step
    cases (step_cases step).2 with
    | main moved => exact lasting.main moved
    | host thread moved => exact lasting.thread (thread_step thread moved)

end ServiceProcess

end CmyMessage
