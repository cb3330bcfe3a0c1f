import CmyMessage.ThreadPool.Wakeups

/-!
# A thread pool and the service it hosts

A service is a transition system of its own whose threads are the workers of the pool: it takes a
step on behalf of a client while a worker serves the client, and the worker lets go of the client
once the function of the service has returned.  A client that was accepted is in the hands of the
accepting thread, in the queue or in the hands of a worker, unless it was turned away or the
function of the service has returned for it.
-/

namespace CmyMessage

/-- A service as its pool sees it. -/
structure HostedService (σ ι : Type) where
  /-- The process has not ended. -/
  runs : σ → Bool
  /-- A connection is accepted for a client, under a descriptor. -/
  accept : σ → Nat → Nat → Option σ
  /-- The quit signal is set. -/
  quit : σ → Option σ
  /-- The thread that serves a client takes a step. -/
  serve : σ → Nat → ι → Option σ
  /-- The client whose connection such a step closes. -/
  closes : σ → Nat → ι → Option Nat
  /-- The function of the service has returned for a client. -/
  returned : σ → Nat → Bool

/-- A pool with the state of its service. -/
structure Hosting (size : Nat) (σ : Type) where
  /-- The pool. -/
  pool : ThreadPool size
  /-- The state of the service. -/
  service : σ
  /-- Record of how often the connection of a client was closed. -/
  closings : Nat → Nat

namespace ThreadPool

variable {size : Nat}

/-- A thread has the client, or the client is in the queue. -/
def Keeps (pool : ThreadPool size) (client : Nat) : Prop :=
  pool.acceptor.pc.client = some client ∨ client ∈ pool.queue.clients ∨
    ∃ worker, (pool.workers worker).pc.client = some client

instance (pool : ThreadPool size) (client : Nat) : Decidable (pool.Keeps client) :=
  inferInstanceAs (Decidable (_ ∨ _ ∨ _))

/-- The step neither refuses a client in `enqueue` nor rejects a pending one. -/
def turnsNobodyAway (pool : ThreadPool size) : Label size → Bool
  | .accept input =>
      match pool.acceptor.pc, input with
      | .enqueue client, .allocated succeeded =>
          decide ((pool.queue.enqueue size client succeeded).status = none)
      | .reject, _ => pool.queue.isEmptyQueue
      | _, _ => true
  | _ => true

end ThreadPool

namespace Hosting

variable {size : Nat} {σ ι : Type}

/-- What can happen next. -/
inductive Label (size : Nat) (ι : Type)
  /-- `accept_connection` returns a client with a descriptor. -/
  | accept (fd : Nat)
  /-- A thread of the pool takes another step outside the service. -/
  | pool (label : ThreadPool.Label size)
  /-- The quit signal is set. -/
  | quit
  /-- The thread that serves a client takes a step. -/
  | serve (client : Nat) (input : ι)

/-- A worker serves the client. -/
def isServed (pool : ThreadPool size) (client : Nat) : Bool :=
  decide (∃ worker, (pool.workers worker).pc = .serving client)

/-- A worker returns from a client only when the function of the service has. -/
def mayMove (service : HostedService σ ι) (host : Hosting size σ) : ThreadPool.Label size → Bool
  | .accept (.accepted true) => false
  | .quit => false
  | .work worker =>
      match (host.pool.workers worker).pc with
      | .serving client => service.returned host.service client
      | _ => true
  | _ => true

/-- The record behind a step of the service. -/
def closingsAfter (service : HostedService σ ι) (host : Hosting size σ) (client : Nat) (input : ι) :
    Nat → Nat :=
  match service.closes host.service client input with
  | some closed => Function.update host.closings closed (host.closings closed + 1)
  | none => host.closings

/-- The step relation, resolved by labels. -/
def step (service : HostedService σ ι) (host : Hosting size σ) (label : Label size ι) :
    Option (Hosting size σ) :=
  if service.runs host.service then
    match label with
    | .accept fd => do
        let pool ← host.pool.step (.accept (.accepted true))
        let accepted ← service.accept host.service host.pool.connections fd
        some { host with pool, service := accepted }
    | .pool label =>
        if host.mayMove service label then
          (host.pool.step label).map fun pool => { host with pool }
        else
          none
    | .quit => do
        let pool ← host.pool.step .quit
        let signalled ← service.quit host.service
        some { host with pool, service := signalled }
    | .serve client input =>
        if isServed host.pool client then
          (service.serve host.service client input).map fun served => { host with
            service := served
            closings := host.closingsAfter service client input }
        else
          none
  else
    none

/-- The descriptor of every accepted connection that no thread has any more was closed once. -/
def Released (host : Hosting size σ) : Prop :=
  ∀ client, client < host.pool.connections → ¬ host.pool.Keeps client → host.closings client = 1

/-- The pool turns nobody away in a step. -/
def turnsNobodyAway (host : Hosting size σ) : Label size ι → Bool
  | .pool label => host.pool.turnsNobodyAway label
  | _ => true

end Hosting

/-- A pool that hosts a service, as a transition system. -/
def hosting {σ ι : Type} (service : HostedService σ ι) (Starts : σ → Prop) (size : Nat) :
    LabelledSystem (Hosting size σ) (Hosting.Label size ι) where
  Initial host := (threadPool size).Initial host.pool ∧ Starts host.service ∧
    host.closings = fun _ => 0
  step := Hosting.step service

/-! ## Who has a client -/

namespace ThreadPool

variable {size : Nat} {pool after : ThreadPool size} {client : Nat}

theorem Accounted.mem_clients_enqueue (accounted : pool.Accounted)
    {input : AcceptorInput size} (position : pool.acceptor.pc = .enqueue client)
    (stays : pool.turnsNobodyAway (.accept input) = true)
    (step : pool.acceptIncomingConnections pool.acceptor.pc input = some after) :
    client ∈ after.queue.clients := by
  rw [position] at step
  cases input with
  | allocated succeeded =>
      cases step
      have taken : (pool.queue.enqueue size client succeeded).status = none := by
        simpa [turnsNobodyAway, position] using stays
      have appended := accounted.holds.enqueue size client succeeded
      rw [if_pos taken] at appended
      change client ∈ (pool.queue.enqueue size client succeeded).queue.clients
      rw [appended.clients_eq]
      exact List.mem_append_right _ List.mem_cons_self
  | _ => cases step

/-- The accepting thread keeps the client it offers until it calls `enqueue`. -/
theorem acceptor_keeps {input : AcceptorInput size} (offers : pool.acceptor.pc.client = some client)
    (step : pool.acceptIncomingConnections pool.acceptor.pc input = some after) :
    after.acceptor.pc.client = some client ∨ pool.acceptor.pc = .enqueue client := by
  cases position : pool.acceptor.pc with
  | lockQueue offered =>
      rw [position] at offers step
      cases input with
      | tick =>
          obtain ⟨locked, -, rfl⟩ := Option.map_eq_some_iff.mp step
          exact .inl offers
      | _ => cases step
  | enqueue offered =>
      rw [position] at offers
      obtain rfl := Option.some.inj offers
      exact .inr rfl
  | _ => simp [position, AcceptorPc.client] at offers

/-- A worker keeps its client until the function of the service returns. -/
theorem worker_keeps {worker : Fin size} (holding : (pool.workers worker).pc.client = some client)
    (step : pool.searchForThreadWork worker (pool.workers worker).pc = some after) :
    (after.workers worker).pc.client = some client ∨
      (pool.workers worker).pc = .serving client := by
  cases position : (pool.workers worker).pc with
  | unlockQueue taken =>
      rw [position] at holding step
      obtain rfl : taken = some client := holding
      cases step
      exact .inl (by simp [workerTo, WorkerPc.client])
  | serving served =>
      rw [position] at holding
      obtain rfl := Option.some.inj holding
      exact .inr rfl
  | _ => simp [position, WorkerPc.client] at holding

/-- The accepting thread dequeues a client only in its last loop. -/
theorem dequeues_from_reject {input : AcceptorInput size} (rejecting : after.acceptor.pc = .reject)
    (step : pool.acceptIncomingConnections pool.acceptor.pc input = some after) :
    pool.acceptor.pc = .reject ∨ after.queue = pool.queue := by
  revert rejecting step
  generalize position : pool.acceptor.pc = pc
  fun_cases acceptIncomingConnections
  all_goals
    intro rejecting step
    first
    | obtain ⟨locked, taken, rfl⟩ := Option.map_eq_some_iff.mp step
      obtain ⟨-, rfl⟩ := lock_eq_some taken
    | cases step
  all_goals simp_all [acceptorTo, workerTo, unlock]

/-- The accepting thread turns nobody away. -/
theorem Keeps.accept (kept : pool.Keeps client) (accounted : pool.Accounted)
    {input : AcceptorInput size} (stays : pool.turnsNobodyAway (.accept input) = true)
    (step : pool.acceptIncomingConnections pool.acceptor.pc input = some after) :
    after.Keeps client := by
  have moved := acceptor_step step
  rcases kept with offers | queued | ⟨worker, holding⟩
  · rcases acceptor_keeps offers step with still | offered
    · exact .inl still
    · exact .inr (.inl (accounted.mem_clients_enqueue offered stays step))
  · refine .inr (.inl ?_)
    cases moved.queue with
    | untouched queue _ _ => rwa [queue]
    | enqueues offered succeeded _ _ queue _ _ =>
        rw [queue, (accounted.holds.enqueue size offered succeeded).clients_eq]
        split
        · exact List.mem_append_left _ queued
        · exact queued
    | rejects takes rejecting _ =>
        rcases dequeues_from_reject rejecting step with position | queue
        · have empty : pool.queue.isEmptyQueue = true := by
            simpa [turnsNobodyAway, position] using stays
          rw [accounted.holds.isEmptyQueue_iff.mp empty] at queued
          cases queued
        · rwa [queue]
  · refine .inr (.inr ⟨worker, ?_⟩)
    cases moved.wakes with
    | nobody workers _ => rwa [workers]
    | one woken asleep workers =>
        have different : worker ≠ woken := by
          rintro rfl
          simp [asleep, WorkerPc.client] at holding
        rwa [workers, Function.update_of_ne different]

/-- A worker takes a client off the queue or lets go of the one it has served. -/
theorem Keeps.work (kept : pool.Keeps client) (accounted : pool.Accounted) {worker : Fin size}
    (serves : (pool.workers worker).pc ≠ .serving client)
    (step : pool.searchForThreadWork worker (pool.workers worker).pc = some after) :
    after.Keeps client := by
  have moved := worker_step step
  obtain ⟨_, workers⟩ := moved.others
  rcases kept with offers | queued | ⟨other, holding⟩
  · exact .inl (moved.acceptor ▸ offers)
  · cases moved.queue with
    | untouched queue _ _ _ => exact .inr (.inl (queue ▸ queued))
    | dequeues takes taken =>
        have left := (takes.ledger accounted).2.2
        have oldest := accounted.holds.dequeue.1
        cases split : pool.queue.clients with
        | nil => simp [split] at queued
        | cons first rest =>
            rw [split] at queued left oldest
            rcases List.mem_cons.mp queued with rfl | later
            · exact .inr (.inr ⟨worker, taken.trans oldest⟩)
            · exact .inr (.inl (left ▸ later))
  · refine .inr (.inr ⟨other, ?_⟩)
    rcases eq_or_ne other worker with rfl | different
    · exact (worker_keeps holding step).resolve_right serves
    · rwa [workers, Function.update_of_ne different]

theorem accepts_at_accept
    (step : pool.acceptIncomingConnections pool.acceptor.pc (.accepted true) = some after) :
    pool.acceptor.pc = .accept := by
  cases position : pool.acceptor.pc with
  | accept => rfl
  | _ =>
      rw [position] at step
      cases step

/-- The next client is in the hands of the accepting thread. -/
theorem kept_of_accept {input : AcceptorInput size}
    (step : pool.acceptIncomingConnections pool.acceptor.pc input = some after)
    (accepted : client < after.connections) : client < pool.connections ∨ after.Keeps client := by
  rcases (acceptor_step step).accepts with ⟨connections, -⟩ | ⟨connections, offers⟩
  · exact .inl (connections ▸ accepted)
  · rw [connections] at accepted
    rcases Nat.lt_succ_iff_lt_or_eq.mp accepted with old | rfl
    · exact .inl old
    · exact .inr (.inl offers)

end ThreadPool

/-! ## Steps -/

/-- For a client that the function of a service has returned for it does not return again. -/
structure HostedService.Stable {σ ι : Type} (service : HostedService σ ι) : Prop where
  accept : ∀ before client fd after other, service.accept before client fd = some after →
    service.returned before other = true → service.returned after other = true
  quit : ∀ before after other, service.quit before = some after →
    service.returned before other = true → service.returned after other = true
  serve : ∀ before client input after other, service.serve before client input = some after →
    service.returned before other = true → service.returned after other = true

namespace Hosting

variable {size : Nat} {σ ι : Type} {service : HostedService σ ι} {Starts : σ → Prop}

/-- Everything a step can be. -/
inductive Steps (service : HostedService σ ι) (host : Hosting size σ) :
    Label size ι → Hosting size σ → Prop
  | accept {fd : Nat} {pool : ThreadPool size} {accepted : σ}
      (step : (threadPool size).step host.pool (.accept (.accepted true)) = some pool)
      (taken : service.accept host.service host.pool.connections fd = some accepted) :
      Steps service host (.accept fd) { host with pool, service := accepted }
  | pool {label : ThreadPool.Label size} {pool : ThreadPool size}
      (moves : host.mayMove service label = true)
      (step : (threadPool size).step host.pool label = some pool) :
      Steps service host (.pool label) { host with pool }
  | quit {pool : ThreadPool size} {signalled : σ}
      (step : (threadPool size).step host.pool .quit = some pool)
      (signals : service.quit host.service = some signalled) :
      Steps service host .quit { host with pool, service := signalled }
  | serve {client : Nat} {input : ι} {served : σ} (isServed : isServed host.pool client = true)
      (step : service.serve host.service client input = some served) :
      Steps service host (.serve client input)
        { host with service := served, closings := host.closingsAfter service client input }

theorem step_cases {host after : Hosting size σ} {label : Label size ι}
    (step : (hosting service Starts size).step host label = some after) :
    service.runs host.service = true ∧ host.Steps service label after := by
  simp only [hosting, Hosting.step] at step
  split at step
  · refine ⟨‹_›, ?_⟩
    cases label with
    | accept fd =>
        obtain ⟨pool, moved, rest⟩ := Option.bind_eq_some_iff.mp step
        obtain ⟨accepted, taken, rest⟩ := Option.bind_eq_some_iff.mp rest
        cases rest
        exact .accept moved taken
    | pool label =>
        simp only at step
        split at step
        · obtain ⟨pool, moved, rfl⟩ := Option.map_eq_some_iff.mp step
          exact .pool ‹_› moved
        · cases step
    | quit =>
        obtain ⟨pool, moved, rest⟩ := Option.bind_eq_some_iff.mp step
        obtain ⟨signalled, signals, rest⟩ := Option.bind_eq_some_iff.mp rest
        cases rest
        exact .quit moved signals
    | serve client input =>
        simp only at step
        split at step
        · obtain ⟨served, moved, rfl⟩ := Option.map_eq_some_iff.mp step
          exact .serve ‹_› moved
        · cases step
  · cases step

theorem accounted {guard : Hosting size σ → Label size ι → Prop} {host : Hosting size σ}
    (reached : (hosting service Starts size).ReachesVia guard host) : host.pool.Accounted := by
  induction reached with
  | start initial => exact ThreadPool.Accounted.start initial.1
  | next _ _ step accounted =>
      obtain ⟨-, steps⟩ := step_cases step
      cases steps with
      | accept moved _ => exact accounted.step moved
      | pool _ moved => exact accounted.step moved
      | quit moved _ => exact accounted.step moved
      | serve _ _ => exact accounted

/-- While nobody is turned away, an accepted client is in the pool unless the function of the
service has returned for it. -/
theorem kept_or_returned (stable : service.Stable) {guard : Hosting size σ → Label size ι → Prop}
    (stays : ∀ host label, guard host label → host.turnsNobodyAway label = true)
    {host : Hosting size σ} (reached : (hosting service Starts size).ReachesVia guard host)
    {client : Nat} (accepted : client < host.pool.connections) :
    host.pool.Keeps client ∨ service.returned host.service client = true := by
  induction reached with
  | start initial =>
      rw [initial.1.connections] at accepted
      cases accepted
  | @next before after label earlier guarded step ih =>
      have nobody := stays before label guarded
      have books := accounted earlier
      obtain ⟨-, steps⟩ := step_cases step
      cases steps with
      | @accept fd pool state moved taken =>
          have accepting := ThreadPool.accepts_at_accept moved
          rcases ThreadPool.kept_of_accept moved accepted with old | new
          · rcases ih old with kept | returned
            · exact .inl (kept.accept books (by simp [ThreadPool.turnsNobodyAway, accepting]) moved)
            · exact .inr (stable.accept _ _ _ _ _ taken returned)
          · exact .inl new
      | @pool label pool moves moved =>
          cases label with
          | accept input =>
              rcases ThreadPool.kept_of_accept moved accepted with old | new
              · exact (ih old).imp_left fun kept => kept.accept books nobody moved
              · exact .inl new
          | work worker =>
              change client < pool.connections at accepted
              rw [(ThreadPool.worker_step moved).connections] at accepted
              rcases ih accepted with kept | returned
              · by_cases serves : (before.pool.workers worker).pc = .serving client
                · refine .inr ?_
                  simpa only [mayMove, serves] using moves
                · exact .inl (kept.work books serves moved)
              · exact .inr returned
          | quit => cases moves
      | quit moved signals =>
          cases moved
          exact (ih accepted).imp_right fun returned => stable.quit _ _ _ signals returned
      | serve _ moved =>
          exact (ih accepted).imp_right fun returned => stable.serve _ _ _ _ _ moved returned

end Hosting
end CmyMessage
