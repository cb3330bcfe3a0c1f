import CmyMessage.ThreadPool.Assignment
import CmyMessage.ThreadPool.ClientMemory

/-!
# The memory of the clients of a pool

The accepting thread allocates the struct of a client, the service allocates the blocks it works
with, and whoever lets go of the client frees its memory.  What the services do with a client is one
of a few sequences of calls, so the memory of each client goes through a few stages, unless a call
comes at the wrong stage.
-/

namespace CmyMessage

/-- How far the calls for a client have come. -/
inductive MemoryPhase
  | fresh | inUse | freed
  deriving DecidableEq

/-- A call of a service about the memory of a client. -/
inductive MemoryCall
  /-- `prepare_client_structs_for_data` and what its caller sees, which without a `return` on the
  successful path may be a failure. -/
  | prepare (succeeded : Bool)
  /-- `free_client_memory_with_ptr_to_ptr` -/
  | free

/-- How the allocations in a step end, and how `accept` or `inet_ntop` does. -/
structure Outcomes where
  /-- The block is allocated. -/
  allocates : ClientBlock → Bool
  /-- The call behind the allocations succeeds. -/
  other : Bool

/-- `accept_connection` returns a client. -/
def Outcomes.accepts (outcomes : Outcomes) : Bool :=
  outcomes.allocates .info && outcomes.allocates .pAddr && outcomes.allocates .pAddrLen &&
    outcomes.other

/-- `prepare_client_structs_for_data` succeeds. -/
def Outcomes.prepares (outcomes : Outcomes) : Bool :=
  outcomes.allocates .name && outcomes.allocates .buffer && outcomes.other

namespace MemoryCall

/-- The call succeeds only if the allocations do. -/
def agrees (outcomes : Outcomes) : MemoryCall → Bool
  | prepare succeeded => !succeeded || outcomes.prepares
  | free => true

/-- The name of the client is allocated. -/
def named (outcomes : Outcomes) : MemoryCall → Bool
  | prepare _ => outcomes.allocates .name
  | free => true

/-- The phase behind a call. -/
def phase (outcomes : Outcomes) : MemoryCall → MemoryPhase
  | prepare _ => if outcomes.prepares then .inUse else .freed
  | free => .freed

theorem phase_ne_fresh (outcomes : Outcomes) (call : MemoryCall) :
    call.phase outcomes ≠ .fresh := by
  cases call with
  | prepare succeeded =>
      rw [phase]
      split <;> exact MemoryPhase.noConfusion
  | free => exact MemoryPhase.noConfusion

/-- The phase in which a service makes a call. -/
def MayFollow (before : MemoryPhase) : MemoryCall → Prop
  | prepare _ => before = .fresh
  | free => before ≠ .fresh

end MemoryCall

namespace MemoryPhase

/-- The phase behind some calls. -/
def after (outcomes : Outcomes) (before : MemoryPhase) (calls : List MemoryCall) : MemoryPhase :=
  calls.foldl (fun _ call => call.phase outcomes) before

/-- The calls come in their phases. -/
def Allows (outcomes : Outcomes) : MemoryPhase → List MemoryCall → Prop
  | _, [] => True
  | before, call :: calls => call.MayFollow before ∧ (call.phase outcomes).Allows outcomes calls

end MemoryPhase

/-- The memory of a client with a record of the calls for it. -/
structure ClientAccount where
  /-- The memory. -/
  memory : ClientMemory := {}
  /-- How far the calls have come. -/
  phase : MemoryPhase := .fresh

namespace ClientAccount

/-- `accept_connection` is called for the client. -/
def accept (account : ClientAccount) (outcomes : Outcomes) : ClientAccount :=
  { account with
    memory := (account.memory.acceptConnection outcomes.allocates outcomes.other).2 }

/-- A call is made for the client. -/
def perform (outcomes : Outcomes) (account : ClientAccount) (call : MemoryCall) :
    ClientAccount where
  memory :=
    match call with
    | .prepare _ =>
        account.memory.prepareClientStructsForData outcomes.allocates outcomes.other
          (.address .info)
    | .free => account.memory.freeClientMemoryWithPtrToPtr (.address .info)
  phase := call.phase outcomes

/-- The memory is as the calls left it, and was not misused. -/
def Stands (account : ClientAccount) (accepted : Prop) : Prop :=
  account.memory.violated = false ∧
    match account.phase with
    | .fresh => (accepted → account.memory.Unprepared) ∧ (¬ accepted → account.memory.Untouched)
    | .inUse => account.memory.Prepared
    | .freed => account.memory.Released

end ClientAccount

/-- A pool with its service and the memory of the clients. -/
structure Tended (size : Nat) (σ : Type) where
  /-- The pool and the service. -/
  host : Hosting size σ
  /-- The memory of the clients. -/
  accounts : Nat → ClientAccount

/-- The client that a worker lets go of in its next step. -/
def WorkerPc.served : WorkerPc → Option Nat
  | serving client => some client
  | _ => none

namespace Hosting

variable {size : Nat} {σ ι : Type}

/-- The client whose memory a thread of the pool frees. -/
def letsGo (host : Hosting size σ) : Label size ι → Option Nat
  | .pool (.accept .tick) =>
      if host.pool.acceptor.pc = .reject then host.pool.queue.dequeue.1 else none
  | .pool (.work worker) => (host.pool.workers worker).pc.served
  | _ => none

end Hosting

namespace Tended

variable {size : Nat} {σ ι : Type}

/-- A thread of the pool frees the memory of a client. -/
def release (tended : Tended size σ) (outcomes : Outcomes) : Option Nat → Nat → ClientAccount
  | some client =>
      Function.update tended.accounts client ((tended.accounts client).perform outcomes .free)
  | none => tended.accounts

/-- The service has made calls for the client that a thread of the pool frees. -/
def hasBegun (tended : Tended size σ) : Option Nat → Bool
  | some client => decide ((tended.accounts client).phase ≠ .fresh)
  | none => true

/-- The memory behind a step. -/
def accountsAfter (calls : σ → Nat → ι → List MemoryCall) (tended : Tended size σ)
    (outcomes : Outcomes) : Hosting.Label size ι → Nat → ClientAccount
  | .accept _ | .pool (.accept (.accepted _)) =>
      Function.update tended.accounts tended.host.pool.connections
        ((tended.accounts tended.host.pool.connections).accept outcomes)
  | .serve client input =>
      Function.update tended.accounts client
        ((calls tended.host.service client input).foldl (ClientAccount.perform outcomes)
          (tended.accounts client))
  | label => tended.release outcomes (tended.host.letsGo label)

/-- The allocations end as the label of the step says. -/
def agrees (calls : σ → Nat → ι → List MemoryCall) (tended : Tended size σ)
    (outcomes : Outcomes) : Hosting.Label size ι → Bool
  | .accept _ => outcomes.accepts
  | .pool (.accept (.accepted _)) => !outcomes.accepts
  | .serve client input => (calls tended.host.service client input).all (MemoryCall.agrees outcomes)
  | _ => true

/-- No connection fails to be accepted, the name of a client is allocated, and a thread of the pool
frees a client only after the service has made calls for it. -/
def careful (calls : σ → Nat → ι → List MemoryCall) (tended : Tended size σ) :
    Hosting.Label size ι × Outcomes → Bool
  | (.pool (.accept (.accepted _)), _) => false
  | (.serve client input, outcomes) =>
      (calls tended.host.service client input).all (MemoryCall.named outcomes)
  | (label, _) => tended.hasBegun (tended.host.letsGo label)

/-- A pointer to no allocated block was followed or freed. -/
def Misused (tended : Tended size σ) : Prop :=
  ∃ client, (tended.accounts client).memory.violated = true

end Tended

/-- A pool that hosts a service, with the memory of the clients. -/
def tending {σ ι : Type} (service : HostedService σ ι) (Starts : σ → Prop)
    (calls : σ → Nat → ι → List MemoryCall) (size : Nat) :
    LabelledSystem (Tended size σ) (Hosting.Label size ι × Outcomes) where
  Initial tended := (hosting service Starts size).Initial tended.host ∧
    tended.accounts = fun _ => {}
  step tended label :=
    if tended.agrees calls label.2 label.1 then
      (Hosting.step service tended.host label.1).map fun host =>
        ⟨host, tended.accountsAfter calls label.2 label.1⟩
    else
      none

/-- A service makes its calls for a client in their phases; what the state of the service says about
the phase of a client. -/
structure HostedService.Manages {σ ι : Type} (service : HostedService σ ι) (Starts : σ → Prop)
    (calls : σ → Nat → ι → List MemoryCall) (Tells : σ → Nat → MemoryPhase → Prop) : Prop where
  start : ∀ state client, Starts state → Tells state client .fresh
  accept : ∀ before client fd after other phase, service.accept before client fd = some after →
    Tells before other phase → Tells after other phase
  quit : ∀ before after other phase, service.quit before = some after →
    Tells before other phase → Tells after other phase
  others : ∀ before client input after other phase,
    service.serve before client input = some after → other ≠ client →
    Tells before other phase → Tells after other phase
  serve : ∀ before client input after phase outcomes,
    service.serve before client input = some after →
    (calls before client input).all (MemoryCall.agrees outcomes) = true →
    Tells before client phase →
    phase.Allows outcomes (calls before client input) ∧
      Tells after client (phase.after outcomes (calls before client input))
  free : ∀ state client phase, service.returned state client = true →
    Tells state client phase → Tells state client .freed

/-! ## Calls -/

namespace ClientAccount

variable {account : ClientAccount} {accepted : Prop} {outcomes : Outcomes} {call : MemoryCall}

theorem performs_phase (account : ClientAccount) (outcomes : Outcomes) (calls : List MemoryCall) :
    (calls.foldl (perform outcomes) account).phase = account.phase.after outcomes calls := by
  induction calls generalizing account with
  | nil => rfl
  | cons call calls ih => exact ih _

/-- A call in its phase, for a client that was accepted. -/
theorem Stands.perform (stands : account.Stands accepted) (was : accepted)
    (follows : call.MayFollow account.phase) (named : call.named outcomes = true) :
    (account.perform outcomes call).Stands accepted := by
  obtain ⟨unharmed, stage⟩ := stands
  cases call with
  | prepare succeeded =>
      rw [show account.phase = .fresh from follows] at stage
      have prepared := @ClientMemory.Unprepared.prepare _ (stage.1 was) outcomes.allocates
        outcomes.other named
      refine ⟨prepared.1.trans unharmed, ?_⟩
      have right := prepared.2
      have allocated : outcomes.allocates .name = true := named
      by_cases succeeds : outcomes.allocates .buffer = true ∧ outcomes.other = true
      · rw [if_pos succeeds] at right
        have prepares : outcomes.prepares = true := by
          simp [Outcomes.prepares, allocated, succeeds.1, succeeds.2]
        simp only [ClientAccount.perform, MemoryCall.phase, prepares]
        exact right
      · rw [if_neg succeeds] at right
        have fails : outcomes.prepares = false := by
          simpa [Outcomes.prepares, allocated] using succeeds
        simp only [ClientAccount.perform, MemoryCall.phase, fails]
        exact right
  | free =>
      have freed : (account.memory.freeClientMemoryWithPtrToPtr (.address .info)).Released ∧
          (account.memory.freeClientMemoryWithPtrToPtr (.address .info)).violated =
            account.memory.violated := by
        cases phase : account.phase with
        | fresh => exact absurd phase follows
        | inUse =>
            rw [phase] at stage
            exact ClientMemory.Prepared.free stage
        | freed =>
            rw [phase] at stage
            exact ClientMemory.Released.free stage
      exact ⟨freed.2.trans unharmed, freed.1⟩

theorem Stands.perform_unnamed (stands : account.Stands accepted) (was : accepted)
    (follows : call.MayFollow account.phase) (unnamed : call.named outcomes = false) :
    (account.perform outcomes call).memory.violated = true := by
  cases call with
  | prepare succeeded =>
      have stage := stands.2
      rw [show account.phase = .fresh from follows] at stage
      exact (stage.1 was).prepare_unnamed unnamed
  | free => cases unnamed

/-- A client that no service has made a call for is freed. -/
theorem Stands.free_fresh (stands : account.Stands accepted) (was : accepted)
    (fresh : account.phase = .fresh) :
    (account.perform outcomes .free).memory.violated = true := by
  have stage := stands.2
  rw [fresh] at stage
  exact (stage.1 was).free

theorem violated_perform (violated : account.memory.violated = true) :
    (account.perform outcomes call).memory.violated = true := by
  cases call with
  | prepare succeeded => exact ClientMemory.violated_prepare violated _ _ _
  | free => exact ClientMemory.violated_freeClientMemory violated _

theorem violated_performs {calls : List MemoryCall} (violated : account.memory.violated = true) :
    (calls.foldl (perform outcomes) account).memory.violated = true := by
  induction calls generalizing account with
  | nil => exact violated
  | cons call calls ih => exact ih (violated_perform violated)

/-- The calls of a service in a step harm the memory exactly where the name is not allocated. -/
theorem Stands.performs {calls : List MemoryCall} (stands : account.Stands accepted)
    (was : accepted) (follow : account.phase.Allows outcomes calls) :
    if calls.all (MemoryCall.named outcomes) then
      (calls.foldl (ClientAccount.perform outcomes) account).Stands accepted
    else (calls.foldl (ClientAccount.perform outcomes) account).memory.violated = true := by
  induction calls generalizing account with
  | nil => exact stands
  | cons call calls ih =>
      cases named : call.named outcomes with
      | false =>
          rw [List.all_cons, named, if_neg (by simp), List.foldl_cons]
          exact violated_performs (stands.perform_unnamed was follow.1 named)
      | true =>
          rw [List.all_cons, named, Bool.true_and]
          exact ih (stands.perform was follow.1 named) follow.2

/-- A connection is accepted, or not. -/
theorem Stands.accept (stands : account.Stands accepted) (fresh : account.phase = .fresh)
    (new : ¬ accepted) :
    if outcomes.accepts then (account.accept outcomes).Stands True
    else (account.accept outcomes).memory.violated = true := by
  obtain ⟨unharmed, stage⟩ := stands
  rw [fresh] at stage
  have untouched := stage.2 new
  split
  · next accepts =>
      simp only [Outcomes.accepts, Bool.and_eq_true] at accepts
      obtain ⟨⟨⟨info, pAddr⟩, pAddrLen⟩, other⟩ := accepts
      have taken := untouched.accept ⟨info, pAddr, pAddrLen⟩
      rw [ClientAccount.accept, other, Stands, fresh]
      exact ⟨taken.2.trans unharmed, fun _ => taken.1, fun never => absurd trivial never⟩
  · next refuses =>
      refine untouched.accept_fails fun accepts => refuses ?_
      simp [Outcomes.accepts, accepts]

theorem Stands.congr {other : Prop} (stands : account.Stands accepted) (same : accepted ↔ other) :
    account.Stands other := propext same ▸ stands

end ClientAccount

end CmyMessage
