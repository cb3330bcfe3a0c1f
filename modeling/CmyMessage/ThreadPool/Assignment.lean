import CmyMessage.ThreadPool.Hosting

/-!
# Who serves whom

Clients leave the queue in the order in which their connections were accepted, and each of them is
in one pair of hands at a time.  A service makes its steps for a client in those hands, so at no
time are there more clients than workers for which the function of the service has been entered and
not left.
-/

namespace CmyMessage
namespace ThreadPool

variable {size : Nat} {pool after : ThreadPool size}

/-- The clients put into the queue are in the order of their numbers, and the client that the
accepting thread offers has the last one. -/
structure Ascending (pool : ThreadPool size) : Prop where
  enqueued : pool.enqueued.Pairwise (· < ·)
  latest : ∀ client, pool.acceptor.pc.client = some client → client + 1 = pool.connections

theorem Ascending.start (starts : pool.Starts) : pool.Ascending := by
  constructor
  · rw [starts.enqueued]
    exact .nil
  · simp [starts.acceptor, AcceptorPc.client]

theorem Ascending.step {label : Label size} (ascending : pool.Ascending)
    (accounted : pool.Accounted) (step : (threadPool size).step pool label = some after) :
    after.Ascending := by
  cases step_cases step with
  | accept moved =>
      constructor
      · rcases moved.queue.enqueued_cases with same | ⟨client, offers, -, appended⟩
        · exact same ▸ ascending.enqueued
        · rw [appended, List.pairwise_append]
          refine ⟨ascending.enqueued, List.pairwise_singleton _ _, ?_⟩
          intro earlier member new isNew
          obtain rfl := List.mem_singleton.mp isNew
          have last := ascending.latest new offers
          have numbered := accounted.numbered earlier member
          have fresh := (accounted.offered new offers).2
          have different : earlier ≠ new := fun same => fresh (same ▸ member)
          omega
      · intro client offers
        rcases moved.accepts with ⟨same, none | still⟩ | ⟨more, new⟩
        · rw [offers] at none
          cases none
        · rw [same]
          exact ascending.latest client (still ▸ offers)
        · rw [new, Option.some.injEq] at offers
          rw [more, offers]
  | work moved =>
      constructor
      · rw [moved.enqueued]
        exact ascending.enqueued
      · rw [moved.acceptor, moved.connections]
        exact ascending.latest
  | quit => exact ⟨ascending.enqueued, ascending.latest⟩

/-- Clients are taken off the queue in the order of their numbers, by at most one thread, and a
worker has one client which nobody else has. -/
structure Orderly (pool : ThreadPool size) : Prop where
  ordered : (pool.dequeued.map Prod.snd ++ pool.queue.clients).Pairwise (· < ·)
  accepted : ∀ client ∈ pool.dequeued.map Prod.snd ++ pool.queue.clients,
    client < pool.connections
  alone : ∀ left right client, (pool.workers left).pc.client = some client →
    (pool.workers right).pc.client = some client → left = right
  apart : ∀ worker client, (pool.workers worker).pc.client = some client →
    client ∉ pool.queue.clients ∧ pool.acceptor.pc.client ≠ some client

theorem Accounted.orderly (accounted : pool.Accounted) (ascending : pool.Ascending) :
    pool.Orderly := by
  have ordered := ascending.enqueued
  have distinct := accounted.distinct
  rw [← accounted.ledger] at ordered distinct
  constructor
  · exact ordered
  · rw [accounted.ledger]
    exact accounted.numbered
  · intro left right client holdsLeft holdsRight
    have inLeft := accounted.held left client holdsLeft
    have inRight := accounted.held right client holdsRight
    have same := List.inj_on_of_nodup_map (List.nodup_append.mp distinct).1 inLeft inRight rfl
    exact PoolThread.worker.inj (congrArg Prod.fst same)
  · intro worker client holds
    have taken : client ∈ pool.dequeued.map Prod.snd :=
      List.mem_map_of_mem (accounted.held worker client holds)
    refine ⟨fun queued => (List.nodup_append.mp distinct).2.2 client taken client queued rfl,
      fun offers => (accounted.offered client offers).2 ?_⟩
    rw [← accounted.ledger]
    exact List.mem_append_left _ taken

/-- In every run, whatever the interleaving of the accepting thread and the workers. -/
theorem clients_served_in_order (reached : (threadPool size).Reaches pool) : pool.Orderly := by
  have ascending : pool.Ascending := by
    apply reached.invariant
    · exact fun _ starts => Ascending.start starts
    · exact fun _ _ _ earlier ascending step => ascending.step (accounted earlier) step
  exact (accounted reached).orderly ascending

/-- Two workers take a client each. -/
theorem clients_served_in_order_two :
    ∃ pool : ThreadPool 2, (threadPool 2).Reaches pool ∧
      pool.dequeued = [(.worker 1, 0), (.worker 0, 1)] ∧ pool.Orderly := by
  let offered : List (Label 2) := offerScript ++ [.accept (.woken none)] ++ acceptTicks 4
  have executes : ((threadPool 2).execute (fun _ _ => true) (beforePool 2)
      (offered ++ works 1 4 ++ offered ++ works 0 4)).map (fun pool => pool.dequeued) =
      some [(.worker 1, 0), (.worker 0, 1)] := by
    decide +kernel
  obtain ⟨pool, executed, taken⟩ := Option.map_eq_some_iff.mp executes
  have reached : (threadPool 2).Reaches pool :=
    (LabelledSystem.ReachesVia.execute (.start (beforePool_starts 2)) executed).reaches
  exact ⟨pool, reached, taken, clients_served_in_order reached⟩

/-- A worker in the function of the service stays there in the steps of the other threads. -/
theorem serving_stays {label : Label size} {worker : Fin size} {client : Nat}
    (serving : (pool.workers worker).pc = .serving client) (other : label ≠ .work worker)
    (step : (threadPool size).step pool label = some after) :
    (after.workers worker).pc = .serving client := by
  cases step_cases step with
  | accept moved =>
      cases moved.wakes with
      | nobody workers _ => rwa [workers]
      | one woken asleep workers =>
          have different : worker ≠ woken := by
            rintro rfl
            rw [serving] at asleep
            cases asleep
          rwa [workers, Function.update_of_ne different]
  | @work mover _ moved =>
      obtain ⟨_, workers⟩ := moved.others
      have different : worker ≠ mover := fun same => other (same ▸ rfl)
      rwa [workers, Function.update_of_ne different]
  | quit => exact serving

end ThreadPool

/-- The function of a service is entered for a client in a step for that client. -/
structure HostedService.Begins {σ ι : Type} (service : HostedService σ ι) (Starts : σ → Prop)
    (begun : σ → Nat → Prop) : Prop where
  start : ∀ state client, Starts state → ¬ begun state client
  accept : ∀ before client fd after other, service.accept before client fd = some after →
    begun after other → begun before other
  quit : ∀ before after other, service.quit before = some after →
    begun after other → begun before other
  serve : ∀ before client input after other, service.serve before client input = some after →
    begun after other → begun before other ∨ other = client

namespace Hosting

variable {size : Nat} {σ ι : Type} {service : HostedService σ ι} {Starts : σ → Prop}
  {begun : σ → Nat → Prop}

/-- The function of the service is left with a worker inside. -/
theorem serving_of_begun (begins : service.Begins Starts begun) (stable : service.Stable)
    {guard : Hosting size σ → Label size ι → Prop} {host : Hosting size σ}
    (reached : (hosting service Starts size).ReachesVia guard host) {client : Nat}
    (entered : begun host.service client)
    (inside : service.returned host.service client ≠ true) :
    ∃ worker, (host.pool.workers worker).pc = .serving client := by
  induction reached with
  | start initial => exact absurd entered (begins.start _ client initial.2.1)
  | @next before after label earlier _ step ih =>
      cases (step_cases step).2 with
      | accept moved taken =>
          obtain ⟨worker, serving⟩ := ih (begins.accept _ _ _ _ _ taken entered)
            fun returned => inside (stable.accept _ _ _ _ _ taken returned)
          exact ⟨worker, ThreadPool.serving_stays serving (by simp) moved⟩
      | @pool label pool moves moved =>
          obtain ⟨worker, serving⟩ := ih entered inside
          refine ⟨worker, ThreadPool.serving_stays serving ?_ moved⟩
          -- The worker itself moves on only when the function has returned.
          rintro rfl
          simp only [mayMove, serving] at moves
          exact inside moves
      | quit moved signals =>
          obtain ⟨worker, serving⟩ := ih (begins.quit _ _ _ signals entered)
            fun returned => inside (stable.quit _ _ _ signals returned)
          exact ⟨worker, ThreadPool.serving_stays serving (by simp) moved⟩
      | @serve served input state isServed moved =>
          rcases begins.serve _ _ _ _ _ moved entered with before | rfl
          · exact ih before fun returned => inside (stable.serve _ _ _ _ _ moved returned)
          · exact of_decide_eq_true isServed

/-- At most as many clients as the pool has workers are inside the function of the service. -/
theorem card_le_of_begun (begins : service.Begins Starts begun) (stable : service.Stable)
    {guard : Hosting size σ → Label size ι → Prop} {host : Hosting size σ}
    (reached : (hosting service Starts size).ReachesVia guard host) {clients : Finset Nat}
    (active : ∀ client ∈ clients, begun host.service client ∧
      service.returned host.service client ≠ true) : clients.card ≤ size := by
  have served : ∀ client ∈ clients, ∃ worker, (host.pool.workers worker).pc = .serving client :=
    fun client member =>
      serving_of_begun begins stable reached (active client member).1 (active client member).2
  choose worker serving using served
  have injective : Function.Injective fun client : clients => worker client client.2 := by
    intro left right same
    have position := serving left left.2
    rw [show worker left left.2 = worker right right.2 from same, serving right right.2] at position
    exact Subtype.ext (WorkerPc.serving.inj position).symm
  calc clients.card = Fintype.card clients := (Fintype.card_coe clients).symm
    _ ≤ Fintype.card (Fin size) := Fintype.card_le_of_injective _ injective
    _ = size := Fintype.card_fin size

end Hosting
end CmyMessage
