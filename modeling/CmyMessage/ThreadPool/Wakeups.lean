import CmyMessage.Foundation.Census
import CmyMessage.ThreadPool.Steps

/-!
# Wakeups of the thread pool

A worker tests the queue without its mutex, waits at most once, and may find that another worker has
taken the client it was woken for.  Still no wakeup is lost: a worker goes to sleep only when the
queue is empty, every client put into the queue is followed by a signal, and a worker that is awake
and free looks at the queue again.  So while a worker sleeps there are at least as many idle workers
as clients, up to the client whose signal is due.
-/

namespace CmyMessage
namespace ThreadPool

variable {size : Nat}

/-! ## Who has which client -/

/-- Every client that was accepted is offered, queued, or in the hands of the one thread that took
it off the queue. -/
structure Accounted (pool : ThreadPool size) : Prop where
  holds : pool.queue.Holds pool.queue.clients
  ledger : pool.dequeued.map Prod.snd ++ pool.queue.clients = pool.enqueued
  distinct : pool.enqueued.Nodup
  numbered : ∀ client ∈ pool.enqueued, client < pool.connections
  offered : ∀ client, pool.acceptor.pc.client = some client →
    client < pool.connections ∧ client ∉ pool.enqueued
  held : ∀ worker client, (pool.workers worker).pc.client = some client →
    (.worker worker, client) ∈ pool.dequeued
  rejected : ∀ client, (.acceptor, client) ∈ pool.dequeued → pool.acceptor.pc.rejects
  quits : ∀ worker, (pool.workers worker).pc = .unlockQuit →
    (pool.workers worker).quitSignalVal → pool.quitSignal

theorem Accounted.start {pool : ThreadPool size} (starts : pool.Starts) : pool.Accounted := by
  have holds : pool.queue.Holds [] := starts.queue ▸ Queue.Holds.initial
  constructor
  · exact holds.self
  · rw [holds.clients_eq, starts.dequeued, starts.enqueued]
    rfl
  · simp [starts.enqueued]
  · simp [starts.enqueued]
  · simp [starts.acceptor, AcceptorPc.client]
  · intro worker client holding
    rcases starts.workers worker with position | position <;>
      simp [position, WorkerPc.client] at holding
  · simp [starts.dequeued]
  · intro worker position
    rcases starts.workers worker with start | start <;> simp [start] at position

/-- Taking the oldest client off the queue keeps the books. -/
theorem Takes.ledger {pool after : ThreadPool size} {thread : PoolThread size}
    (takes : pool.Takes after thread) (accounted : pool.Accounted) :
    after.queue.Holds after.queue.clients ∧
      after.dequeued.map Prod.snd ++ after.queue.clients = pool.enqueued ∧
      after.queue.clients = pool.queue.clients.tail := by
  obtain ⟨oldest, left⟩ := accounted.holds.dequeue
  rw [takes.queue, takes.dequeued, oldest, left.clients_eq, ← accounted.ledger]
  refine ⟨left, ?_, rfl⟩
  cases pool.queue.clients with
  | nil => simp
  | cons client clients => simp

theorem Takes.mem_dequeued {pool after : ThreadPool size} {thread : PoolThread size}
    (takes : pool.Takes after thread) {taker : PoolThread size} {client : Nat} :
    (taker, client) ∈ after.dequeued ↔ (taker, client) ∈ pool.dequeued ∨
      taker = thread ∧ pool.queue.dequeue.1 = some client := by
  rw [takes.dequeued, List.mem_append, Option.mem_toList, Option.map_eq_some_iff]
  simp only [Prod.mk.injEq]
  constructor
  · rintro (old | ⟨taken, oldest, rfl, rfl⟩)
    · exact .inl old
    · exact .inr ⟨rfl, oldest⟩
  · rintro (old | ⟨rfl, oldest⟩)
    · exact .inl old
    · exact .inr ⟨client, oldest, rfl, rfl⟩

/-- A woken worker is where it was but for its position. -/
theorem AcceptorWakes.worker_eq {pool after : ThreadPool size} (wakes : pool.AcceptorWakes after)
    (worker : Fin size) : after.workers worker = pool.workers worker ∨
      after.workers worker = { pool.workers worker with pc := .relockQueue } := by
  cases wakes with
  | nobody workers => exact .inl (by rw [workers])
  | one woken _ workers =>
      rw [workers]
      rcases eq_or_ne worker woken with rfl | different
      · exact .inr (Function.update_self _ _ _)
      · exact .inl (Function.update_of_ne different _ _)

theorem AcceptorQueue.books {pool after : ThreadPool size} (queue : pool.AcceptorQueue after)
    (accounted : pool.Accounted) :
    after.queue.Holds after.queue.clients ∧
      after.dequeued.map Prod.snd ++ after.queue.clients = after.enqueued := by
  cases queue with
  | untouched queue enqueued dequeued =>
      rw [queue, enqueued, dequeued]
      exact ⟨accounted.holds, accounted.ledger⟩
  | enqueues client succeeded offers signals queue enqueued dequeued =>
      have appended := accounted.holds.enqueue size client succeeded
      rw [queue, enqueued, dequeued]
      refine ⟨appended.self, ?_⟩
      rw [appended.clients_eq, ← accounted.ledger]
      split
      · rw [List.append_assoc]
      · rfl
  | rejects takes rejecting enqueued =>
      obtain ⟨holds, ledger, -⟩ := takes.ledger accounted
      rw [enqueued]
      exact ⟨holds, ledger⟩

/-- The only client that the accepting thread puts into the queue is the one it offers. -/
theorem AcceptorQueue.enqueued_cases {pool after : ThreadPool size}
    (queue : pool.AcceptorQueue after) : after.enqueued = pool.enqueued ∨
      ∃ client, pool.acceptor.pc.client = some client ∧ after.acceptor.pc.client = none ∧
        after.enqueued = pool.enqueued ++ [client] := by
  cases queue with
  | untouched queue enqueued dequeued => exact .inl enqueued
  | enqueues client succeeded offers signals queue enqueued dequeued =>
      split at enqueued
      · exact .inr ⟨client, by rw [offers]; rfl, by rw [signals]; rfl, enqueued⟩
      · exact .inl enqueued
  | rejects takes rejecting enqueued => exact .inl enqueued

/-- The accepting thread takes a client off the queue to reject it. -/
theorem AcceptorQueue.mem_dequeued {pool after : ThreadPool size}
    (queue : pool.AcceptorQueue after) {taker : PoolThread size} {client : Nat} :
    ((taker, client) ∈ pool.dequeued → (taker, client) ∈ after.dequeued) ∧
      ((taker, client) ∈ after.dequeued → (taker, client) ∈ pool.dequeued ∨
        taker = .acceptor ∧ after.acceptor.pc.rejects) := by
  cases queue with
  | untouched queue enqueued dequeued =>
      rw [dequeued]
      exact ⟨id, .inl⟩
  | enqueues client succeeded offers signals queue enqueued dequeued =>
      rw [dequeued]
      exact ⟨id, .inl⟩
  | rejects takes rejecting enqueued =>
      rw [takes.mem_dequeued]
      refine ⟨.inl, Or.imp_right fun taken => ⟨taken.1, ?_⟩⟩
      rw [rejecting]
      rfl

/-- What the accepting thread offers behind a step was not put into the queue before. -/
theorem AcceptorStep.offered {pool after : ThreadPool size} (step : pool.AcceptorStep after)
    (accounted : pool.Accounted) {client : Nat}
    (offers : after.acceptor.pc.client = some client) :
    client < after.connections ∧ client ∉ pool.enqueued := by
  rcases step.accepts with ⟨connections, nobody | old⟩ | ⟨connections, new⟩
  · rw [nobody] at offers
    cases offers
  · rw [connections]
    exact accounted.offered client (old ▸ offers)
  · obtain rfl := Option.some.inj (new.symm.trans offers)
    exact ⟨by omega, fun member => (accounted.numbered _ member).ne rfl⟩

theorem Accounted.accept {pool after : ThreadPool size} (accounted : pool.Accounted)
    (step : pool.AcceptorStep after) : after.Accounted := by
  have grows : pool.connections ≤ after.connections := by
    rcases step.accepts with ⟨same, -⟩ | ⟨more, -⟩ <;> omega
  obtain ⟨holds, ledger⟩ := step.queue.books accounted
  refine ⟨holds, ledger, ?_, ?_, ?_, ?_, ?_, ?_⟩
  · rcases step.queue.enqueued_cases with same | ⟨client, offers, -, appended⟩
    · rw [same]
      exact accounted.distinct
    · rw [appended, List.nodup_append]
      refine ⟨accounted.distinct, List.nodup_singleton client, ?_⟩
      rintro old member new isNew rfl
      rw [List.mem_singleton.mp isNew] at member
      exact (accounted.offered client offers).2 member
  · intro other member
    rcases step.queue.enqueued_cases with same | ⟨client, offers, -, appended⟩
    · exact (accounted.numbered other (same ▸ member)).trans_le grows
    · rw [appended] at member
      rcases List.mem_append.mp member with old | new
      · exact (accounted.numbered other old).trans_le grows
      · rw [List.mem_singleton.mp new]
        exact (accounted.offered client offers).1.trans_le grows
  · intro other offers'
    rcases step.queue.enqueued_cases with same | ⟨client, -, nobody, -⟩
    · rw [same]
      exact step.offered accounted offers'
    · rw [nobody] at offers'
      cases offers'
  · intro worker client holding
    rcases step.wakes.worker_eq worker with same | woken
    · exact step.queue.mem_dequeued.1 (accounted.held worker client (same ▸ holding))
    · simp [woken, WorkerPc.client] at holding
  · intro client member
    rcases step.queue.mem_dequeued.2 member with old | ⟨-, rejects⟩
    · exact step.rejects (accounted.rejected client old)
    · exact rejects
  · intro worker position
    rcases step.wakes.worker_eq worker with same | woken
    · rw [same, step.quitSignal]
      exact accounted.quits worker (same ▸ position)
    · simp [woken] at position

theorem WorkerQueue.books {pool after : ThreadPool size} {worker : Fin size}
    (queue : pool.WorkerQueue after worker) (accounted : pool.Accounted) :
    after.queue.Holds after.queue.clients ∧
      after.dequeued.map Prod.snd ++ after.queue.clients = pool.enqueued := by
  cases queue with
  | untouched queue dequeued _ _ =>
      rw [queue, dequeued]
      exact ⟨accounted.holds, accounted.ledger⟩
  | dequeues takes _ =>
      obtain ⟨holds, ledger, -⟩ := takes.ledger accounted
      exact ⟨holds, ledger⟩

/-- A worker takes the client off the queue that it has in its hands then. -/
theorem WorkerQueue.mem_dequeued {pool after : ThreadPool size} {worker : Fin size}
    (queue : pool.WorkerQueue after worker) {taker : PoolThread size} {client : Nat} :
    ((taker, client) ∈ pool.dequeued → (taker, client) ∈ after.dequeued) ∧
      ((taker, client) ∈ after.dequeued → (taker, client) ∈ pool.dequeued ∨
        taker = .worker worker) := by
  cases queue with
  | untouched queue dequeued _ _ =>
      rw [dequeued]
      exact ⟨id, .inl⟩
  | dequeues takes _ =>
      rw [takes.mem_dequeued]
      exact ⟨.inl, Or.imp_right And.left⟩

/-- The client in the hands of the worker that took a step. -/
theorem WorkerQueue.held {pool after : ThreadPool size} {worker : Fin size}
    (queue : pool.WorkerQueue after worker) (accounted : pool.Accounted) {client : Nat}
    (holding : (after.workers worker).pc.client = some client) :
    (.worker worker, client) ∈ after.dequeued := by
  cases queue with
  | untouched queue dequeued keeps _ =>
      rw [dequeued]
      rcases keeps with nobody | same
      · rw [nobody] at holding
        cases holding
      · exact accounted.held worker client (same ▸ holding)
  | dequeues takes taken => exact takes.mem_dequeued.mpr (.inr ⟨rfl, taken ▸ holding⟩)

theorem Accounted.work {pool after : ThreadPool size} {worker : Fin size}
    (accounted : pool.Accounted) (step : pool.WorkerStep after worker) : after.Accounted := by
  have others : ∀ other, other ≠ worker → after.workers other = pool.workers other := by
    obtain ⟨moved, workers⟩ := step.others
    intro other different
    rw [workers, Function.update_of_ne different]
  obtain ⟨holds, ledger⟩ := step.queue.books accounted
  refine ⟨holds, ledger.trans step.enqueued.symm, ?_, ?_, ?_, ?_, ?_, ?_⟩
  · rw [step.enqueued]
    exact accounted.distinct
  · rw [step.connections, step.enqueued]
    exact accounted.numbered
  · rw [step.acceptor, step.connections, step.enqueued]
    exact accounted.offered
  · intro other client holding
    rcases eq_or_ne other worker with rfl | different
    · exact step.queue.held accounted holding
    · rw [others other different] at holding
      exact step.queue.mem_dequeued.1 (accounted.held other client holding)
  · intro client member
    rw [step.acceptor]
    rcases step.queue.mem_dequeued.2 member with old | impossible
    · exact accounted.rejected client old
    · cases impossible
  · intro other position value
    rw [step.quitSignal]
    rcases eq_or_ne other worker with rfl | different
    · rwa [step.reads position] at value
    · rw [others other different] at position value
      exact accounted.quits other position value

theorem Accounted.step {before after : ThreadPool size} {label : Label size}
    (accounted : before.Accounted) (step : (threadPool size).step before label = some after) :
    after.Accounted := by
  cases step_cases step with
  | accept step => exact accounted.accept step
  | work step => exact accounted.work step
  | quit => exact { accounted with quits := fun _ _ _ => rfl }

theorem accounted {pool : ThreadPool size} (reached : (threadPool size).Reaches pool) :
    pool.Accounted :=
  reached.invariant (fun _ starts => Accounted.start starts)
    fun _ _ _ _ accounted step => accounted.step step

/-! ## Sleeping workers -/

/-- How many workers are awake and not serving a client. -/
def idle (pool : ThreadPool size) : Nat := census (fun worker => worker.pc.isIdle) pool.workers

/-- A client was put into the queue and the signal that follows was not sent yet. -/
def unsignalled (pool : ThreadPool size) : Nat := if pool.acceptor.pc = .signal then 1 else 0

/-- While the service is open and a worker sleeps, every client in the queue has an idle worker or a
signal that is due. -/
def Attended (pool : ThreadPool size) : Prop :=
  pool.quitSignal = false → ∀ sleeper, (pool.workers sleeper).pc = .waiting →
    pool.queue.clients.length ≤ pool.idle + pool.unsignalled

theorem Attended.start {pool : ThreadPool size} (starts : pool.Starts) : pool.Attended := by
  intro _ sleeper asleep
  rcases starts.workers sleeper with position | position <;> simp [position] at asleep

theorem idle_update {pool after : ThreadPool size} {worker : Fin size} {moved : Worker}
    (workers : after.workers = Function.update pool.workers worker moved) :
    after.idle + (pool.workers worker).pc.isIdle.toNat = pool.idle + moved.pc.isIdle.toNat := by
  rw [idle, idle, workers]
  exact census_update _ _ _ _

theorem AcceptorQueue.length_le {pool after : ThreadPool size} (accounted : pool.Accounted)
    (step : pool.AcceptorQueue after) :
    after.queue.clients.length ≤ pool.queue.clients.length + after.unsignalled := by
  cases step with
  | untouched queue _ _ =>
      rw [queue]
      exact Nat.le_add_right _ _
  | enqueues client succeeded _ signals queue _ _ =>
      rw [queue, (accounted.holds.enqueue size client succeeded).clients_eq, unsignalled,
        if_pos signals]
      split
      · rw [List.length_append, List.length_singleton]
      · exact Nat.le_add_right _ _
  | rejects takes _ _ =>
      rw [(takes.ledger accounted).2.2, List.length_tail]
      omega

theorem Attended.accept {pool after : ThreadPool size} (accounted : pool.Accounted)
    (attended : pool.Attended) (step : pool.AcceptorStep after) : after.Attended := by
  have grows := step.queue.length_le accounted
  have settled : pool.unsignalled = 0 ∨ after.unsignalled = 0 := by
    unfold unsignalled
    by_cases signals : after.acceptor.pc = .signal
    · exact .inl (if_neg (step.signals signals))
    · exact .inr (if_neg signals)
  intro running sleeper asleep
  rw [step.quitSignal] at running
  cases step.wakes with
  | nobody workers awake =>
      rw [workers] at asleep
      have before := attended running sleeper asleep
      have idle_eq : after.idle = pool.idle := by rw [idle, idle, workers]
      -- Between the two, the only step from a due signal is the signal, and somebody sleeps.
      have unsignalled_eq : pool.unsignalled = 0 :=
        if_neg fun signals => awake signals sleeper asleep
      omega
  | one worker woken workers =>
      have different : sleeper ≠ worker := by
        rintro rfl
        simp [workers] at asleep
      rw [workers, Function.update_of_ne different] at asleep
      have before := attended running sleeper asleep
      have counted := idle_update workers
      have one_more : after.idle = pool.idle + 1 := by
        simpa [woken, WorkerPc.isIdle, WorkerPc.client] using counted
      have bound : pool.unsignalled ≤ 1 := by
        unfold unsignalled
        split <;> omega
      omega

theorem Attended.work {pool after : ThreadPool size} {worker : Fin size}
    (accounted : pool.Accounted) (attended : pool.Attended)
    (step : pool.WorkerStep after worker) : after.Attended := by
  obtain ⟨moved, workers⟩ := step.others
  have position : after.workers worker = moved := by rw [workers, Function.update_self]
  have counted := idle_update workers
  have unsignalled_eq : after.unsignalled = pool.unsignalled := by
    rw [unsignalled, unsignalled, step.acceptor]
  intro running sleeper asleep
  rw [step.quitSignal] at running
  cases step.queue with
  | untouched queue _ _ idles =>
      rcases eq_or_ne sleeper worker with rfl | different
      · -- A worker goes to sleep in the step in which it calls `dequeue`, on an empty queue.
        have missed := (step.waits asleep).2
        rw [(accounted.holds.dequeue).1, List.head?_eq_none_iff] at missed
        simp [queue, missed]
      · rw [workers, Function.update_of_ne different] at asleep
        have before := attended running sleeper asleep
        have stays : (pool.workers worker).pc.isIdle → moved.pc.isIdle := by
          intro idled
          rcases idles idled with still | ⟨leaves, quitting⟩
          · exact position ▸ still
          · simp [accounted.quits worker leaves quitting] at running
        have fewer : (pool.workers worker).pc.isIdle.toNat ≤ moved.pc.isIdle.toNat :=
          Bool.toNat_le_toNat stays
        rw [queue]
        omega
  | dequeues takes _ =>
      rw [(takes.ledger accounted).2.2, List.length_tail]
      rcases eq_or_ne sleeper worker with rfl | different
      · have missed := (step.waits asleep).2
        rw [(accounted.holds.dequeue).1, List.head?_eq_none_iff] at missed
        simp [missed]
      · rw [workers, Function.update_of_ne different] at asleep
        have before := attended running sleeper asleep
        have one := Bool.toNat_le (pool.workers worker).pc.isIdle
        omega

theorem Attended.step {before after : ThreadPool size} {label : Label size}
    (accounted : before.Accounted) (attended : before.Attended)
    (step : (threadPool size).step before label = some after) : after.Attended := by
  cases step_cases step with
  | accept step => exact attended.accept accounted step
  | work step => exact attended.work accounted step
  | quit => exact fun closed => by cases closed

theorem attended {pool : ThreadPool size} (reached : (threadPool size).Reaches pool) :
    pool.Attended :=
  reached.invariant (fun _ starts => Attended.start starts)
    fun _ _ _ earlier attended step => attended.step (accounted earlier) step

/-- Two workers see the first client; one serves it and the other one goes to sleep.  Then a second
client is put into the queue. -/
def dueSignalScript : List (Label 2) :=
  offerScript ++ [.accept (.woken none)] ++ acceptTicks 1 ++ works 0 1 ++ works 1 1 ++ works 0 3 ++
    works 1 2 ++ acceptTicks 3 ++ offerScript

end ThreadPool
end CmyMessage
