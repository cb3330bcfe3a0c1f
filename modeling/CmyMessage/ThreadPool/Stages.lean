import CmyMessage.ThreadPool.Tending

/-!
# The stages of the memory of a client

While every step is careful, the memory of a client is untouched until its connection is accepted,
unprepared until the service prepares it, prepared until somebody frees it, and released after
that.  A step that is not careful misuses the memory at once.
-/

namespace CmyMessage

/-! ## What the threads of the pool do with the clients -/

namespace ThreadPool

variable {size : Nat} {pool after : ThreadPool size} {client : Nat}

/-- The client was taken off the queue. -/
def Taken (pool : ThreadPool size) (client : Nat) : Prop := client ∈ pool.dequeued.map Prod.snd

/-- A worker has the client. -/
def Held (pool : ThreadPool size) (client : Nat) : Prop :=
  ∃ worker, (pool.workers worker).pc.client = some client

instance (pool : ThreadPool size) (client : Nat) : Decidable (pool.Taken client) :=
  inferInstanceAs (Decidable (_ ∈ _))

instance (pool : ThreadPool size) (client : Nat) : Decidable (pool.Held client) :=
  inferInstanceAs (Decidable (∃ _, _))

theorem Accounted.accepted_of_taken (accounted : pool.Accounted) (taken : pool.Taken client) :
    client < pool.connections := by
  apply accounted.numbered
  rw [← accounted.ledger]
  exact List.mem_append_left _ taken

theorem Accounted.accepted_of_queued (accounted : pool.Accounted)
    (queued : client ∈ pool.queue.clients) : client < pool.connections := by
  apply accounted.numbered
  rw [← accounted.ledger]
  exact List.mem_append_right _ queued

theorem Accounted.not_taken_of_queued (accounted : pool.Accounted)
    (queued : client ∈ pool.queue.clients) : ¬ pool.Taken client := by
  have distinct := accounted.distinct
  rw [← accounted.ledger] at distinct
  exact fun taken => (List.nodup_append.mp distinct).2.2 client taken client queued rfl

theorem Accounted.queued_of_dequeue (accounted : pool.Accounted)
    (oldest : pool.queue.dequeue.1 = some client) : client ∈ pool.queue.clients := by
  rw [accounted.holds.dequeue.1] at oldest
  exact List.mem_of_head? oldest

theorem Accounted.taken_of_held (accounted : pool.Accounted) (held : pool.Held client) :
    pool.Taken client := by
  obtain ⟨worker, holding⟩ := held
  exact List.mem_map_of_mem (accounted.held worker client holding)

/-- Clients are passed on to the workers, and a worker has its client until it lets go of it. -/
structure Passes (pool after : ThreadPool size) (letGo : Option Nat) : Prop where
  taken : ∀ client, pool.Taken client → after.Taken client
  new : ∀ client, after.Taken client → pool.Taken client ∨ after.Held client
  held : ∀ client, pool.Held client → after.Held client ∨ letGo = some client

theorem work_passes {worker : Fin size}
    (step : pool.searchForThreadWork worker (pool.workers worker).pc = some after) :
    pool.Passes after (pool.workers worker).pc.served := by
  have moved := worker_step step
  obtain ⟨_, workers⟩ := moved.others
  refine ⟨?_, ?_, ?_⟩
  · intro client taken
    cases moved.queue with
    | untouched queue dequeued _ _ => rwa [Taken, dequeued]
    | dequeues takes _ =>
        rw [Taken, takes.dequeued, List.map_append]
        exact List.mem_append_left _ taken
  · intro client taken
    cases moved.queue with
    | untouched queue dequeued _ _ =>
        rw [Taken, dequeued] at taken
        exact .inl taken
    | dequeues takes has =>
        rw [Taken, takes.dequeued, List.map_append] at taken
        rcases List.mem_append.mp taken with before | now
        · exact .inl before
        · refine .inr ⟨worker, ?_⟩
          rw [has]
          simpa using now
  · rintro client ⟨other, holding⟩
    rcases eq_or_ne other worker with rfl | different
    · rcases worker_keeps holding step with still | serving
      · exact .inl ⟨other, still⟩
      · rw [serving]
        exact .inr rfl
    · refine .inl ⟨other, ?_⟩
      rwa [workers, Function.update_of_ne different]

/-- The accepting thread takes clients off the queue to reject them. -/
theorem acceptor_dequeued {input : AcceptorInput size}
    (step : pool.acceptIncomingConnections pool.acceptor.pc input = some after)
    (nobody : pool.acceptor.pc = .reject → pool.queue.dequeue.1 = none) :
    after.dequeued = pool.dequeued := by
  revert nobody step
  generalize position : pool.acceptor.pc = pc
  fun_cases acceptIncomingConnections
  all_goals
    intro step nobody
    first
    | obtain ⟨locked, taken, rfl⟩ := Option.map_eq_some_iff.mp step
      obtain ⟨-, rfl⟩ := lock_eq_some taken
    | cases step
  all_goals simp_all [acceptorTo, workerTo, unlock, dequeueBy]

theorem acceptor_connections {input : AcceptorInput size}
    (step : pool.acceptIncomingConnections pool.acceptor.pc input = some after)
    (refuses : input ≠ .accepted true) : after.connections = pool.connections := by
  revert refuses step
  generalize pool.acceptor.pc = pc
  fun_cases acceptIncomingConnections
  all_goals
    intro step refuses
    first
    | obtain ⟨locked, taken, rfl⟩ := Option.map_eq_some_iff.mp step
      obtain ⟨-, rfl⟩ := lock_eq_some taken
    | cases step
  case case1 => exact absurd rfl refuses
  all_goals rfl

theorem connections_accept
    (step : pool.acceptIncomingConnections pool.acceptor.pc (.accepted true) = some after) :
    after.connections = pool.connections + 1 := by
  rw [accepts_at_accept step] at step
  cases step
  rfl

theorem accept_passes {input : AcceptorInput size}
    (step : pool.acceptIncomingConnections pool.acceptor.pc input = some after)
    (nobody : pool.acceptor.pc = .reject → pool.queue.dequeue.1 = none) :
    pool.Passes after none := by
  have dequeued := acceptor_dequeued step nobody
  refine ⟨?_, ?_, ?_⟩
  · intro client taken
    rwa [Taken, dequeued]
  · intro client taken
    rw [Taken, dequeued] at taken
    exact .inl taken
  · rintro client ⟨worker, holding⟩
    refine .inl ⟨worker, ?_⟩
    cases (acceptor_step step).wakes with
    | nobody workers _ => rwa [workers]
    | one woken asleep workers =>
        have different : worker ≠ woken := by
          rintro rfl
          simp [asleep, WorkerPc.client] at holding
        rwa [workers, Function.update_of_ne different]

end ThreadPool

/-! ## Stages -/

namespace Tended

variable {size : Nat} {σ ι : Type} {service : HostedService σ ι} {Starts : σ → Prop}
  {calls : σ → Nat → ι → List MemoryCall} {Tells : σ → Nat → MemoryPhase → Prop}
  {tended after : Tended size σ}

/-- The memory of each client is as the calls for the client left it. -/
structure Stages (Tells : σ → Nat → MemoryPhase → Prop) (tended : Tended size σ) : Prop where
  stands : ∀ client, (tended.accounts client).Stands (client < tended.host.pool.connections)
  tells : ∀ client, Tells tended.host.service client (tended.accounts client).phase
  begun : ∀ client, (tended.accounts client).phase ≠ .fresh → tended.host.pool.Taken client
  freed : ∀ client, tended.host.pool.Taken client →
    (tended.accounts client).phase = .freed ∨ tended.host.pool.Held client

theorem Stages.start (manages : service.Manages Starts calls Tells)
    (initial : (tending service Starts calls size).Initial tended) : tended.Stages Tells := by
  obtain ⟨⟨pool, starts, -⟩, accounts⟩ := initial
  refine ⟨fun client => ?_, fun client => ?_, fun client => ?_, fun client taken => ?_⟩
  · rw [accounts, pool.connections]
    exact ⟨rfl, fun accepted => absurd accepted (Nat.not_lt_zero _), fun _ =>
      ⟨fun _ => rfl, fun _ => rfl⟩⟩
  · rw [accounts]
    exact manages.start _ _ starts
  · rw [accounts]
    exact fun begun => absurd rfl begun
  · rw [ThreadPool.Taken, pool.dequeued] at taken
    cases taken

theorem Stages.unharmed (stages : tended.Stages Tells) : ¬ tended.Misused := by
  rintro ⟨client, violated⟩
  rw [(stages.stands client).1] at violated
  cases violated

theorem Stages.fresh_of_not_taken (stages : tended.Stages Tells) {client : Nat}
    (waits : ¬ tended.host.pool.Taken client) : (tended.accounts client).phase = .fresh :=
  not_not.mp (mt (stages.begun client) waits)

theorem step_cases {label : Hosting.Label size ι × Outcomes}
    (step : (tending service Starts calls size).step tended label = some after) :
    tended.agrees calls label.2 label.1 = true ∧
      ∃ host, (hosting service Starts size).step tended.host label.1 = some host ∧
        after = ⟨host, tended.accountsAfter calls label.2 label.1⟩ := by
  simp only [tending] at step
  split at step
  · obtain ⟨host, moved, rfl⟩ := Option.map_eq_some_iff.mp step
    exact ⟨‹_›, host, moved, rfl⟩
  · cases step

theorem reaches_host {guard : Tended size σ → Hosting.Label size ι × Outcomes → Prop}
    (reached : (tending service Starts calls size).ReachesVia guard tended) :
    (hosting service Starts size).Reaches tended.host := by
  induction reached with
  | start initial => exact .start initial.1
  | next _ _ step ih =>
      obtain ⟨-, host, moved, rfl⟩ := step_cases step
      exact ih.next trivial moved

/-- Nothing happens to the memory. -/
theorem Stages.pass (stages : tended.Stages Tells) {host : Hosting size σ}
    (passes : tended.host.pool.Passes host.pool none)
    (connections : host.pool.connections = tended.host.pool.connections)
    (tells : ∀ client phase, Tells tended.host.service client phase →
      Tells host.service client phase) : (Tended.mk host tended.accounts).Stages Tells := by
  refine ⟨fun client => ?_, fun client => tells _ _ (stages.tells client),
    fun client begun => passes.taken _ (stages.begun client begun), fun client now => ?_⟩
  · rw [connections]
    exact stages.stands client
  · rcases passes.new client now with taken | held
    · refine (stages.freed client taken).imp_right fun held => ?_
      exact (passes.held client held).resolve_right (by simp)
    · exact .inr held

/-- Something happens to the memory of one client. -/
theorem Stages.update (stages : tended.Stages Tells) {host : Hosting size σ} {client : Nat}
    {account : ClientAccount} {letGo : Option Nat}
    (passes : tended.host.pool.Passes host.pool letGo)
    (tells : ∀ other phase, other ≠ client → Tells tended.host.service other phase →
      Tells host.service other phase)
    (others : ∀ other, other ≠ client → letGo ≠ some other ∧
      (other < tended.host.pool.connections ↔ other < host.pool.connections))
    (stands : account.Stands (client < host.pool.connections))
    (told : Tells host.service client account.phase)
    (begun : account.phase ≠ .fresh → host.pool.Taken client)
    (freed : host.pool.Taken client → account.phase = .freed ∨ host.pool.Held client) :
    (Tended.mk host (Function.update tended.accounts client account)).Stages Tells := by
  refine ⟨fun other => ?_, fun other => ?_, fun other => ?_, fun other now => ?_⟩
  · rcases eq_or_ne other client with rfl | different
    · simpa using stands
    · simpa [different] using (stages.stands other).congr (others other different).2
  · rcases eq_or_ne other client with rfl | different
    · simpa using told
    · simpa [different] using tells other _ different (stages.tells other)
  · rcases eq_or_ne other client with rfl | different
    · simpa using begun
    · simpa [different] using fun begun => passes.taken _ (stages.begun other begun)
  · rcases eq_or_ne other client with rfl | different
    · simpa using freed now
    · simp only [Function.update_of_ne different]
      rcases passes.new other now with was | held
      · refine (stages.freed other was).imp_right fun held => ?_
        exact (passes.held other held).resolve_right (others other different).1
      · exact .inr held

/-- A connection is accepted. -/
theorem Stages.accept (stages : tended.Stages Tells) (accounted : tended.host.pool.Accounted)
    {pool : ThreadPool size} {accepted : σ} {outcomes : Outcomes}
    (moved : (threadPool size).step tended.host.pool (.accept (.accepted true)) = some pool)
    (tells : ∀ client phase, Tells tended.host.service client phase →
      Tells accepted client phase) (accepts : outcomes.accepts = true) :
    (Tended.mk { tended.host with pool, service := accepted }
      (Function.update tended.accounts tended.host.pool.connections
        ((tended.accounts tended.host.pool.connections).accept outcomes))).Stages Tells := by
  have unknown : ¬ tended.host.pool.Taken tended.host.pool.connections :=
    fun taken => (accounted.accepted_of_taken taken).false
  have fresh := stages.fresh_of_not_taken unknown
  have passes := ThreadPool.accept_passes moved fun rejecting => by
    simp [ThreadPool.accepts_at_accept moved] at rejecting
  have connections := ThreadPool.connections_accept moved
  have new := @ClientAccount.Stands.accept _ _ outcomes
    (stages.stands tended.host.pool.connections) fresh (lt_irrefl _)
  rw [if_pos accepts] at new
  apply stages.update passes
  · exact fun other phase _ => tells other phase
  · intro other different
    refine ⟨by simp, ?_⟩
    change _ ↔ other < pool.connections
    omega
  · refine new.congr (iff_of_true trivial ?_)
    change _ < pool.connections
    omega
  · exact tells _ _ (stages.tells _)
  · exact fun begun => absurd fresh begun
  · intro taken
    exact .inr ((passes.new _ taken).resolve_left unknown)

/-- A step for a client that a worker serves. -/
theorem Stages.serve (stages : tended.Stages Tells) (accounted : tended.host.pool.Accounted)
    (manages : service.Manages Starts calls Tells) {client : Nat} {input : ι} {served : σ}
    {outcomes : Outcomes} (isServed : Hosting.isServed tended.host.pool client = true)
    (moved : service.serve tended.host.service client input = some served)
    (agrees : tended.agrees calls outcomes (.serve client input) = true)
    {closings : Nat → Nat} :
    if (calls tended.host.service client input).all (MemoryCall.named outcomes) then
      (Tended.mk ⟨tended.host.pool, served, closings⟩
        (tended.accountsAfter calls outcomes (.serve client input))).Stages Tells
    else (Tended.mk ⟨tended.host.pool, served, closings⟩
        (tended.accountsAfter calls outcomes (.serve client input))).Misused := by
  obtain ⟨worker, serving⟩ := of_decide_eq_true isServed
  have held : tended.host.pool.Held client := ⟨worker, by rw [serving]; rfl⟩
  have taken := accounted.taken_of_held held
  have accepted := accounted.accepted_of_taken taken
  obtain ⟨allowed, told⟩ := manages.serve _ _ _ _ _ _ moved agrees (stages.tells client)
  have performed := (stages.stands client).performs accepted allowed
  split
  · next named =>
      rw [if_pos named] at performed
      rw [← ClientAccount.performs_phase _ outcomes] at told
      have passes : tended.host.pool.Passes (Hosting.mk tended.host.pool served closings).pool
          none := ⟨fun _ => id, fun _ => .inl, fun _ => .inl⟩
      apply stages.update passes
      · exact fun other phase different => manages.others _ _ _ _ other phase moved different
      · exact fun other _ => ⟨(Option.some_ne_none other).symm, Iff.rfl⟩
      · exact performed
      · exact told
      · exact fun _ => taken
      · exact fun _ => .inr held
  · next unnamed =>
      rw [if_neg unnamed] at performed
      refine ⟨client, ?_⟩
      simpa [accountsAfter] using performed

/-- A worker takes a step outside the service. -/
theorem Stages.work (stages : tended.Stages Tells) (accounted : tended.host.pool.Accounted)
    (manages : service.Manages Starts calls Tells) {worker : Fin size} {pool : ThreadPool size}
    {outcomes : Outcomes}
    (moves : tended.host.mayMove service (.work worker) = true)
    (moved : (threadPool size).step tended.host.pool (.work worker) = some pool) :
    if tended.careful calls (.pool (.work worker), outcomes) then
      (Tended.mk { tended.host with pool }
        (tended.accountsAfter calls outcomes (.pool (.work worker)))).Stages Tells
    else (Tended.mk { tended.host with pool }
        (tended.accountsAfter calls outcomes (.pool (.work worker)))).Misused := by
  have passes := ThreadPool.work_passes moved
  have connections := (ThreadPool.worker_step moved).connections
  cases position : (tended.host.pool.workers worker).pc with
  | serving client =>
      have held : tended.host.pool.Held client := ⟨worker, by rw [position]; rfl⟩
      have taken := accounted.taken_of_held held
      have accepted := accounted.accepted_of_taken taken
      have stands := stages.stands client
      simp only [careful, accountsAfter, Hosting.letsGo, position, WorkerPc.served, hasBegun,
        release]
      split
      · next begun =>
          have begun : (tended.accounts client).phase ≠ .fresh := of_decide_eq_true begun
          have kept := @ClientAccount.Stands.perform _ _ outcomes .free stands accepted begun rfl
          simp only [Hosting.mayMove, position] at moves
          rw [position] at passes
          apply stages.update passes
          · exact fun _ _ _ => id
          · intro other different
            refine ⟨fun same => different (Option.some.inj same).symm, ?_⟩
            change _ ↔ other < pool.connections
            rw [connections]
          · exact kept.congr (by change _ ↔ _ < pool.connections; rw [connections])
          · exact manages.free _ _ _ moves (stages.tells client)
          · exact fun _ => passes.taken _ taken
          · exact fun _ => .inl rfl
      · next fresh =>
          have fresh : (tended.accounts client).phase = .fresh := by simpa using fresh
          refine ⟨client, ?_⟩
          simpa using stands.free_fresh accepted fresh
  | _ =>
      simp only [careful, accountsAfter, Hosting.letsGo, position, WorkerPc.served, hasBegun,
        release, if_true]
      rw [position] at passes
      exact stages.pass passes connections fun _ _ => id

/-- The accepting thread takes a step that accepts no connection. -/
theorem Stages.acceptor (stages : tended.Stages Tells) (accounted : tended.host.pool.Accounted)
    {input : AcceptorInput size} {pool : ThreadPool size} {outcomes : Outcomes}
    (moved : (threadPool size).step tended.host.pool (.accept input) = some pool)
    (agrees : tended.agrees calls outcomes (.pool (.accept input)) = true) :
    if tended.careful calls (.pool (.accept input), outcomes) then
      (Tended.mk { tended.host with pool }
        (tended.accountsAfter calls outcomes (.pool (.accept input)))).Stages Tells
    else (Tended.mk { tended.host with pool }
        (tended.accountsAfter calls outcomes (.pool (.accept input)))).Misused := by
  cases input with
  | accepted succeeded =>
      have refuses : outcomes.accepts = false := by simpa [Tended.agrees] using agrees
      have unknown : ¬ tended.host.pool.Taken tended.host.pool.connections :=
        fun taken => (accounted.accepted_of_taken taken).false
      have harmed := @ClientAccount.Stands.accept _ _ outcomes (stages.stands _)
        (stages.fresh_of_not_taken unknown) (lt_irrefl _)
      rw [refuses, if_neg Bool.false_ne_true] at harmed
      simp only [careful]
      refine ⟨tended.host.pool.connections, ?_⟩
      simpa [accountsAfter] using harmed
  | tick =>
      have connections := ThreadPool.acceptor_connections moved (by simp)
      have guarded : tended.careful calls (.pool (.accept .tick), outcomes) =
          tended.hasBegun (tended.host.letsGo (.pool (.accept .tick) : Hosting.Label size ι)) := rfl
      rw [guarded]
      simp only [accountsAfter]
      cases letGo : tended.host.letsGo (.pool (.accept .tick) : Hosting.Label size ι) with
      | none =>
          have passes := ThreadPool.accept_passes moved fun rejecting => by
            rwa [Hosting.letsGo, if_pos rejecting] at letGo
          exact stages.pass passes connections fun _ _ => id
      | some client =>
          rw [Hosting.letsGo, Option.ite_none_right_eq_some] at letGo
          have queued := accounted.queued_of_dequeue letGo.2
          have fresh := stages.fresh_of_not_taken (accounted.not_taken_of_queued queued)
          have accepted := accounted.accepted_of_queued queued
          rw [hasBegun, fresh, if_neg (by simp)]
          refine ⟨client, ?_⟩
          simpa [release] using (stages.stands client).free_fresh accepted fresh
  | allocated succeeded =>
      have passes := ThreadPool.accept_passes moved fun rejecting => by
        simp [threadPool, ThreadPool.step, rejecting, ThreadPool.acceptIncomingConnections] at moved
      exact stages.pass passes (ThreadPool.acceptor_connections moved (by simp)) fun _ _ => id
  | woken worker =>
      have passes := ThreadPool.accept_passes moved fun rejecting => by
        simp [threadPool, ThreadPool.step, rejecting, ThreadPool.acceptIncomingConnections] at moved
      exact stages.pass passes (ThreadPool.acceptor_connections moved (by simp)) fun _ _ => id

theorem Stages.step (stages : tended.Stages Tells) (accounted : tended.host.pool.Accounted)
    (manages : service.Manages Starts calls Tells) {label : Hosting.Label size ι × Outcomes}
    (step : (tending service Starts calls size).step tended label = some after) :
    if tended.careful calls label then after.Stages Tells else after.Misused := by
  obtain ⟨label, outcomes⟩ := label
  obtain ⟨agrees, host, hosted, rfl⟩ := step_cases step
  cases (Hosting.step_cases hosted).2 with
  | accept moved taken =>
      exact stages.accept accounted moved
        (fun client phase => manages.accept _ _ _ _ _ _ taken) agrees
  | @pool label pool moves moved =>
      cases label with
      | accept input => exact stages.acceptor accounted moved agrees
      | work worker => exact stages.work accounted manages moves moved
      | quit => cases moves
  | @quit pool signalled moved signals =>
      cases moved
      exact stages.pass ⟨fun _ => id, fun _ => .inl, fun _ => .inl⟩ rfl
        fun client phase => manages.quit _ _ _ _ signals
  | serve isServed moved => exact stages.serve accounted manages isServed moved agrees

/-! ## Runs -/

theorem violated_update {client other : Nat} {account : ClientAccount}
    (violated : (tended.accounts client).memory.violated = true)
    (stays : (tended.accounts other).memory.violated = true → account.memory.violated = true) :
    (Function.update tended.accounts other account client).memory.violated = true := by
  rcases eq_or_ne client other with rfl | different
  · rw [Function.update_self]
    exact stays violated
  · rwa [Function.update_of_ne different]

theorem violated_accountsAfter {client : Nat} {outcomes : Outcomes} {label : Hosting.Label size ι}
    (violated : (tended.accounts client).memory.violated = true) :
    (tended.accountsAfter calls outcomes label client).memory.violated = true := by
  rw [accountsAfter.eq_def]
  split
  · exact violated_update violated fun violated => ClientMemory.violated_accept violated _ _
  · exact violated_update violated fun violated => ClientMemory.violated_accept violated _ _
  · exact violated_update violated ClientAccount.violated_performs
  · cases tended.host.letsGo label with
    | some client => exact violated_update violated ClientAccount.violated_perform
    | none => exact violated

theorem misused_stays {label : Hosting.Label size ι × Outcomes} (misused : tended.Misused)
    (step : (tending service Starts calls size).step tended label = some after) :
    after.Misused := by
  obtain ⟨client, violated⟩ := misused
  obtain ⟨-, host, -, rfl⟩ := step_cases step
  exact ⟨client, violated_accountsAfter violated⟩

/-- The memory was misused, or it is as the calls left it. -/
theorem misused_or_stages (manages : service.Manages Starts calls Tells)
    (reached : (tending service Starts calls size).Reaches tended) :
    tended.Misused ∨ tended.Stages Tells := by
  induction reached with
  | start initial => exact .inr (.start manages initial)
  | next earlier _ step ih =>
      rcases ih with misused | stages
      · exact .inl (misused_stays misused step)
      · have accounted := Hosting.accounted (reaches_host earlier)
        have stepped := stages.step accounted manages step
        split at stepped
        · exact .inr stepped
        · exact .inl stepped

/-- The memory is misused exactly where a step is not careful. -/
theorem not_misused_iff (manages : service.Manages Starts calls Tells)
    (reached : (tending service Starts calls size).Reaches tended) :
    ¬ tended.Misused ↔ (tending service Starts calls size).ReachesVia
      (fun tended label => tended.careful calls label = true) tended := by
  apply reached.unharmed_iff
  · exact fun _ initial => (Stages.start manages initial).unharmed
  · exact fun _ _ _ _ misused step => misused_stays misused step
  · intro before label after earlier unharmed step
    have stages := (misused_or_stages manages earlier).resolve_left unharmed
    have stepped := stages.step (Hosting.accounted (reaches_host earlier)) manages step
    split at stepped
    · next guarded => exact iff_of_false stepped.unharmed (not_not.mpr guarded)
    · next careless => exact iff_of_true stepped careless

end Tended

end CmyMessage
