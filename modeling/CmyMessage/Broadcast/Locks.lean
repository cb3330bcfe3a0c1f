import CmyMessage.Broadcast.Registry
import CmyMessage.Foundation.LockOrder

/-!
# The mutexes of the broadcast service

The client threads together with a thread in `close_service`.  The lock called `g_mutex_server` that
`close_service` takes is the one of `service_utils.c`, not the one of the client threads; what the
two sides share is the mutex of the usernames table.  What a thread holds is determined by where it
stands, and every thread requests its mutexes in one order.
-/

namespace CmyMessage

/-! ## Closing the service -/

/-- Positions in `close_service`. -/
inductive ClosePc
  | lockServer | setQuitSignal | unlockServer | lockUsernames | destroyTable | unlockUsernames
  | closeServerSocket | returned
  deriving DecidableEq

/-- The mutexes that the client threads and `close_service` take. -/
inductive ServiceMutex
  /-- The mutexes of `broadcast_chat_service.c`. -/
  | chat (mutex : Mutex)
  /-- `g_mutex_server` of `service_utils.c` -/
  | serviceUtils
  deriving DecidableEq

/-- The threads that take them. -/
inductive ServiceThread
  | client (session : Nat)
  | closer
  deriving DecidableEq

/-- The mutex `close_service` takes next. -/
def ClosePc.requests : ClosePc → Option ServiceMutex
  | lockServer => some .serviceUtils
  | lockUsernames => some (.chat .usernamesHt)
  | _ => none

/-- The mutex `close_service` holds. -/
def ClosePc.holds : ClosePc → Option ServiceMutex
  | setQuitSignal | unlockServer => some .serviceUtils
  | destroyTable | unlockUsernames => some (.chat .usernamesHt)
  | _ => none

/-- The client threads and a thread that closes the service. -/
structure ClosableService where
  /-- The client threads and what they share. -/
  chat : ChatServer
  /-- Where the closing thread stands. -/
  closer : ClosePc

namespace ClosableService

/-- What can happen next. -/
inductive Label
  /-- A connection is accepted, or a client thread takes a step. -/
  | chat (label : ChatServer.Label)
  /-- `close_service` goes on; the client threads keep their pointer to the table it frees, and find
  anything behind it. -/
  | close (leftover : HashTable Nat)

/-- A thread of the service is about to take a mutex. -/
def requests (service : ClosableService) : ServiceThread → ServiceMutex → Prop
  | .client session, .chat mutex => ∃ client client' input,
      service.chat.clients session = some client ∧
        service.chat.next session client input = some (client', .lock mutex)
  | .client _, .serviceUtils => False
  | .closer, mutex => service.closer.requests = some mutex

/-- A thread of the service has taken a mutex and not released it. -/
def holds (service : ClosableService) : ServiceThread → ServiceMutex → Prop
  | .client session, .chat mutex => service.chat.holder mutex = some session
  | .client _, .serviceUtils => False
  | .closer, mutex => service.closer.holds = some mutex

/-- A step would take the mutex of the usernames table. -/
def takesUsernames (server : ChatServer) : ChatServer.Label → Bool
  | .run session input =>
      match server.clients session with
      | some client =>
          match server.next session client input with
          | some (_, .lock .usernamesHt) => true
          | _ => false
      | none => false
  | _ => false

/-- `close_service` -/
def closeService (service : ClosableService) (leftover : HashTable Nat) : Option ClosableService :=
  match service.closer with
  | .lockServer => some { service with closer := .setQuitSignal }
  | .setQuitSignal =>
      some { service with
        chat := { service.chat with quitSignal := true }
        closer := .unlockServer }
  | .unlockServer => some { service with closer := .lockUsernames }
  | .lockUsernames =>
      if (service.chat.holder .usernamesHt).isNone then
        some { service with closer := .destroyTable }
      else
        none
  | .destroyTable => some { service with
      chat := { service.chat with usernamesHt := leftover }
      closer := .unlockUsernames }
  | .unlockUsernames => some { service with closer := .closeServerSocket }
  | .closeServerSocket => some { service with closer := .returned }
  | .returned => none

/-- The step relation, resolved by labels.  The quit signal is set by the closing thread alone. -/
def step (service : ClosableService) : Label → Option ClosableService
  | .chat .closeService => none
  | .chat label =>
      if service.closer.holds = some (.chat .usernamesHt) ∧ takesUsernames service.chat label then
        none
      else
        (service.chat.step label).map fun chat => { service with chat }
  | .close leftover =>
      if service.chat.terminated.isSome then none else service.closeService leftover

/-- No allocation of a client thread fails. -/
def Label.allocates : Label → Bool
  | chat (.run _ (.allocation succeeded)) => succeeded
  | _ => true

end ClosableService

/-- The broadcast service with a thread that closes it. -/
def closableService : LabelledSystem ClosableService ClosableService.Label where
  Initial service := chatService.Initial service.chat ∧ service.closer = .lockServer
  step := ClosableService.step

/-! ## What a client thread holds -/

/-- The mutexes a client thread holds where it stands. -/
def Pc.held : Pc → List Mutex
  | .prepare pc =>
      match pc with
      | .firstAllocation | .unlockServer => [.server]
      | _ => []
  | .ask pc =>
      match pc with
      | .lookup | .unlockUsernames _ => [.usernamesHt]
      | _ => []
  | .accept pc =>
      match pc with
      | .insert | .unlockUsernames => [.usernamesHt]
      | .relate | .unlockServer => [.server]
      | _ => []
  | .wait pc =>
      match pc with
      | .test | .unlockServer => [.server]
      | _ => []
  | .remove pc _ _ =>
      match pc with
      | .lockServer => []
      | .clear | .unlockOnline => [.server, .onlineClientsSet]
      | .delete | .unlockUsernames => [.server, .usernamesHt]
      | _ => [.server]
  | .broadcast pc =>
      match pc with
      | .lockServer => []
      | .send _ | .unlockUsernames => [.server, .usernamesHt]
      | _ => [.server]
  | .gather pc =>
      match pc with
      | .join | .unlockOnline => [.onlineClientsSet]
      | .append | .unlockCommonMsg => [.commonMsgBuffer]
      | .readQuit | .unlockQuit => [.quitSignal]
      | .delete | .unlockUsernames => [.usernamesHt]
      | _ => []
  | _ => []

/-- The order in which mutexes are requested. -/
def ServiceMutex.rank : ServiceMutex → Nat
  | chat .server => 0
  | serviceUtils => 0
  | _ => 1

namespace ChatServer

/-- What a step of a thread does to the mutexes it holds. -/
structure LockStep (client : ClientInfo) (input : Input) (client' : ClientInfo)
    (command : Command) : Prop where
  locks : ∀ mutex, command = .lock mutex → mutex ∈ client'.pc.held
  keeps : ∀ mutex ∈ client.pc.held,
    mutex ∈ client'.pc.held ∨ command = .unlock mutex ∨ input = .allocation false
  ascends : ∀ mutex, command = .lock mutex → ∀ held ∈ client.pc.held,
    (ServiceMutex.chat held).rank < (ServiceMutex.chat mutex).rank
  held : ∀ mutex ∈ client'.pc.held,
    (mutex ∈ client.pc.held ∨ command = .lock mutex) ∧ command ≠ .unlock mutex
  unlocks : ∀ mutex, command = .unlock mutex → mutex ∈ client.pc.held
  inserts : ∀ leftover, command = .insertUsername leftover → .usernamesHt ∈ client.pc.held
  deletes : ∀ key departing, command = .deleteUsername key departing →
    .usernamesHt ∈ client.pc.held

theorem next_lock {server : ChatServer} {session : Nat} {client client' : ClientInfo}
    {input : Input} {command : Command}
    (next : server.next session client input = some (client', command)) :
    LockStep client input client' command := by
  revert next
  fun_cases ChatServer.next <;>
    [fun_cases prepareClientForBroadcastAndStart; fun_cases askAndAssignUsername;
      fun_cases acceptAndStoreClientUsername; fun_cases getMessagesFromActiveClients;
      fun_cases waitForThreadWork; fun_cases startRemovingClientFromBroadcast;
      fun_cases broadcastMessageToOnlineClients; skip; skip]
  all_goals rintro ⟨⟩
  all_goals
    constructor <;> simp_all [ClientInfo.goto, Pc.held, ServiceMutex.rank]

/-- Whoever stands where a mutex is held holds it. -/
def Excludes (server : ChatServer) : Prop :=
  ∀ session client mutex, server.clients session = some client → mutex ∈ client.pc.held →
    server.holder mutex = some session

theorem Excludes.start {server : ChatServer} (starts : server.Starts) : server.Excludes := by
  intro session client mutex here
  simp [starts.clients] at here

theorem Excludes.step {before after : ChatServer} {label : Label} (excludes : before.Excludes)
    (step : chatService.step before label = some after) : after.Excludes := by
  obtain ⟨-, steps⟩ := step_cases step
  intro session client mutex here held
  cases steps with
  | accept fresh free small =>
      rcases update_eq_some here with ⟨-, rfl⟩ | ⟨-, here⟩
      · cases held
      · exact excludes session client mutex here held
  | close => exact excludes session client mutex here held
  | @run runner input client₀ client' command inside next free =>
      have moved := next_lock next
      rw [perform_holder]
      rcases update_eq_some here with ⟨rfl, rfl⟩ | ⟨different, was⟩
      · obtain ⟨old, kept⟩ := moved.held mutex held
        have holds (was : mutex ∈ client₀.pc.held) := excludes session client₀ mutex inside was
        split
        · rename_i locked
          rcases eq_or_ne mutex locked with rfl | other
          · exact Function.update_self _ _ _
          · rw [Function.update_of_ne other]
            exact holds (old.resolve_right fun same => other (Command.lock.inj same).symm)
        · rename_i unlocked
          have other : mutex ≠ unlocked := fun same => kept (same ▸ rfl)
          rw [Function.update_of_ne other]
          exact holds (old.resolve_right Command.noConfusion)
        · rename_i noLock _
          exact holds (old.resolve_right fun locks => noLock mutex locks)
      · have holds := excludes session client mutex was held
        split
        · rename_i locked
          rcases eq_or_ne mutex locked with rfl | other
          · simp [canPerform, holds] at free
          · rwa [Function.update_of_ne other]
        · rename_i unlocked
          rcases eq_or_ne mutex unlocked with rfl | other
          · have rival := excludes runner client₀ mutex inside (moved.unlocks mutex rfl)
            exact absurd (Option.some.inj (holds.symm.trans rival)) different
          · rwa [Function.update_of_ne other]
        · exact holds

theorem excludes {server : ChatServer} (reached : chatService.Reaches server) : server.Excludes :=
  reached.invariant (fun _ starts => Excludes.start starts)
    fun _ _ _ _ excludes step => excludes.step step

/-- Only the first initialization can fail where a mutex is held. -/
theorem abandons_of_next {server : ChatServer} {session : Nat} {client client' : ClientInfo}
    {input : Input} {command : Command} {mutex : Mutex}
    (next : server.next session client input = some (client', command))
    (fails : input = .allocation false) (held : mutex ∈ client.pc.held)
    (leaves : mutex ∉ client'.pc.held) :
    client.pc = .prepare .firstAllocation ∧ server.didFirstAllocation = false ∧
      client'.pc = .abandoned := by
  revert next
  fun_cases ChatServer.next <;>
    [fun_cases prepareClientForBroadcastAndStart; fun_cases askAndAssignUsername;
      fun_cases acceptAndStoreClientUsername; fun_cases getMessagesFromActiveClients;
      fun_cases waitForThreadWork; fun_cases startRemovingClientFromBroadcast;
      fun_cases broadcastMessageToOnlineClients; skip; skip]
  all_goals rintro ⟨⟩
  all_goals simp_all [ClientInfo.goto, Pc.held]

/-- Whoever holds a mutex after a step stands where it is held, or held it before; and a thread that
moved on from there with it returned from a failed allocation. -/
theorem holder_of_step {before after : ChatServer} {label : Label}
    (step : chatService.step before label = some after) {mutex : Mutex} {session : Nat}
    (holds : after.holder mutex = some session) :
    (∃ client, after.clients session = some client ∧ mutex ∈ client.pc.held) ∨
      before.holder mutex = some session ∧ ∀ client, before.clients session = some client →
        after.clients session = some client ∨
          client.pc ≠ .abandoned ∧ (mutex ∈ client.pc.held →
            label = .run session (.allocation false) ∧ client.pc = .prepare .firstAllocation ∧
              before.didFirstAllocation = false ∧
              ∃ client', after.clients session = some client' ∧ client'.pc = .abandoned) := by
  obtain ⟨-, steps⟩ := step_cases step
  cases steps with
  | @accept newcomer fd fresh free small =>
      refine .inr ⟨holds, fun client here => .inl ?_⟩
      exact (Function.update_of_ne (ne_of_fresh fresh here) _ _).trans here
  | close => exact .inr ⟨holds, fun client here => .inl here⟩
  | @run runner input client client' command here next free =>
      have moved := next_lock next
      by_cases locks : command = .lock mutex ∧ session = runner
      · obtain ⟨isLock, rfl⟩ := locks
        exact .inl ⟨client', by simp, moved.locks mutex isLock⟩
      have held : before.holder mutex = some session ∧ command ≠ .unlock mutex := by
        rw [perform_holder] at holds
        split at holds
        · rename_i locked
          rw [Function.update_apply] at holds
          split at holds
          · simp_all
          · exact ⟨holds, Command.noConfusion⟩
        · rename_i unlocked
          rw [Function.update_apply] at holds
          split at holds
          · cases holds
          · exact ⟨holds, by simpa using Ne.symm ‹_›⟩
        · rename_i noUnlock
          exact ⟨holds, noUnlock mutex⟩
      rcases eq_or_ne session runner with rfl | different
      · by_cases still : mutex ∈ client'.pc.held
        · exact .inl ⟨client', by simp, still⟩
        refine .inr ⟨held.1, fun holder inside => .inr ?_⟩
        obtain rfl : client = holder := Option.some.inj (here.symm.trans inside)
        constructor
        · intro abandoned
          rw [ChatServer.next, abandoned] at next
          cases next
        · intro stands
          obtain rfl : input = .allocation false :=
            ((moved.keeps mutex stands).resolve_left still).resolve_left held.2
          obtain ⟨position, first, abandoned⟩ := abandons_of_next next rfl stands still
          exact ⟨rfl, position, first, client', by simp, abandoned⟩
      · refine .inr ⟨held.1, fun holder inside => .inl ?_⟩
        exact (Function.update_of_ne different _ _).trans inside

/-- Whoever holds a mutex stands where it is held. -/
def HeldInPlace (server : ChatServer) : Prop :=
  ∀ mutex session, server.holder mutex = some session →
    ∃ client, server.clients session = some client ∧ mutex ∈ client.pc.held

theorem HeldInPlace.step {before after : ChatServer} {label : Label}
    (inPlace : before.HeldInPlace) (step : chatService.step before label = some after)
    (allocates : (ClosableService.Label.chat label).allocates = true) : after.HeldInPlace := by
  intro mutex session holds
  rcases holder_of_step step holds with inPlace' | ⟨held, moves⟩
  · exact inPlace'
  · obtain ⟨client, here, stands⟩ := inPlace mutex session held
    rcases moves client here with stays | ⟨-, fails⟩
    · exact ⟨client, stays, stands⟩
    · obtain ⟨rfl, -⟩ := fails stands
      cases allocates

end ChatServer

namespace ClosableService

theorem heldInPlace {service : ClosableService}
    (reached : closableService.ReachesVia (fun _ label => label.allocates = true) service) :
    service.chat.HeldInPlace := by
  induction reached with
  | start starts =>
      intro mutex session holds
      simp [starts.1.holder] at holds
  | @next before after label _ allocates step ih =>
      cases label with
      | chat label =>
          have stepped : ∃ chat, chatService.step before.chat label = some chat ∧
              after.chat = chat := by
            cases label with
            | closeService => cases step
            | _ =>
                simp only [closableService, ClosableService.step] at step
                split at step
                · cases step
                · obtain ⟨chat, stepped, rfl⟩ := Option.map_eq_some_iff.mp step
                  exact ⟨chat, stepped, rfl⟩
          obtain ⟨chat, stepped, rfl⟩ := stepped
          exact ih.step stepped allocates
      | close leftover =>
          have same : after.chat.holder = before.chat.holder ∧
              after.chat.clients = before.chat.clients := by
            simp only [closableService, ClosableService.step] at step
            split at step
            · cases step
            · revert step
              fun_cases ClosableService.closeService <;> rintro ⟨⟩ <;> exact ⟨rfl, rfl⟩
          intro mutex session holds
          rw [same.1] at holds
          rw [same.2]
          exact ih mutex session holds

/-- Mutexes are requested in order. -/
theorem ordered {service : ClosableService} (inPlace : service.chat.HeldInPlace) :
    LockOrder.Ordered service.holds service.requests ServiceMutex.rank := by
  intro thread requested held requests holds
  cases thread with
  | client session =>
      cases requested with
      | serviceUtils => exact requests.elim
      | chat mutex =>
          cases held with
          | serviceUtils => exact holds.elim
          | chat other =>
              obtain ⟨client, client', input, here, next⟩ := requests
              obtain ⟨found, inside, stands⟩ := inPlace other session holds
              obtain rfl : client = found := Option.some.inj (here.symm.trans inside)
              exact (ChatServer.next_lock next).ascends mutex rfl other stands
  | closer =>
      simp only [ClosableService.requests, ClosableService.holds] at requests holds
      cases position : service.closer <;>
        simp [position, ClosePc.requests, ClosePc.holds] at requests holds

/-- While no allocation fails, no threads wait for each other's mutexes in a circle, and no thread
requests a mutex that it holds. -/
theorem no_mutex_deadlock {service : ClosableService}
    (reached : closableService.ReachesVia (fun _ label => label.allocates = true) service) :
    (∀ thread, ¬ Relation.TransGen (LockOrder.WaitsFor service.holds service.requests)
        thread thread) ∧
      ∀ thread mutex, service.requests thread mutex → ¬ service.holds thread mutex := by
  have ordered := ordered (heldInPlace reached)
  exact ⟨ordered.acyclic, fun _ _ requests => ordered.not_holds requests⟩

/-- The closing thread holds the mutex of the table, for which the first client's thread waits with
the server's mutex, for which the second one's would wait if it woke. -/
theorem no_mutex_deadlock_in_a_row :
    ∃ service, closableService.Reaches service ∧
      service.holds .closer (.chat .usernamesHt) ∧
      service.requests (.client 1) (.chat .usernamesHt) ∧
      service.holds (.client 1) (.chat .server) ∧
      service.requests (.client 2) (.chat .server) ∧
      ∀ thread, ¬ Relation.TransGen (LockOrder.WaitsFor service.holds service.requests)
        thread thread := by
  let table : HashTable Nat := hashTableCreate 1024 murmur3_32Hash
  let clients : List ChatServer.Label := ChatServer.twoClientsScript ++ ChatServer.ticks 1 1 ++
    [.run 1 (.selected (some fun _ => false))] ++ ChatServer.ticks 1 3
  let script : List Label := clients.map .chat ++ List.replicate 4 (.close table)
  let start : ClosableService := ⟨ChatServer.beforeService, .lockServer⟩
  have executes : ((closableService.execute (fun _ label => label.allocates) start script).map
      fun service => (service.closer, service.chat.holder .server,
        (service.chat.clients 1).map fun client => client.pc,
        (service.chat.clients 2).map fun client => client.pc)) =
      some (.destroyTable, some 1, some (.broadcast .lockUsernames), some (.wait .blocked)) := by
    decide +kernel
  obtain ⟨service, executed, facts⟩ := Option.map_eq_some_iff.mp executes
  simp only [Prod.mk.injEq, Option.map_eq_some_iff] at facts
  obtain ⟨closing, held, ⟨first, inFirst, atTable⟩, ⟨second, inSecond, blocked⟩⟩ := facts
  have starts : closableService.Initial start := ⟨ChatServer.beforeService_starts, rfl⟩
  have reached := LabelledSystem.ReachesVia.execute (.start starts) executed
  refine ⟨service, reached.reaches, ?_, ?_, held, ?_, (no_mutex_deadlock reached).1⟩
  · simp only [holds, closing, ClosePc.holds]
  · exact ⟨first, _, .tick, inFirst, by rw [ChatServer.next, atTable]; rfl⟩
  · exact ⟨second, _, .tick, inSecond, by rw [ChatServer.next, blocked]; rfl⟩

end ClosableService
end CmyMessage
