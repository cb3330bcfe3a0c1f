import CmyMessage.Participants
import CmyMessage.ThreadPool.Stages

/-!
# The memory of the clients of the two services

Neither service frees the struct or the name of a client.  While every step is careful, this is all
that is left of a client that a worker has let go of, and the usernames table leads to structs that
are still allocated.
-/

namespace CmyMessage

/-! ## The broadcast service -/

/-- The calls in a step of a client thread, by the positions around it. -/
def Pc.memoryCalls : Pc → Pc → List MemoryCall
  | prepare .clientStructs, ask _ => [.prepare true]
  | prepare .clientStructs, abandoned => [.prepare false, .free]
  | _, finished => [.free]
  | _, _ => []

/-- The thread is behind the preparations and has not returned. -/
def Pc.usesBlocks : Pc → Bool
  | prepare _ | finished | abandoned => false
  | _ => true

/-- What the position of a thread says about the memory of its client. -/
def Pc.Tells : Pc → MemoryPhase → Prop
  | prepare _, phase => phase = .fresh
  | abandoned, phase => phase ≠ .inUse
  | finished, phase => phase = .freed
  | _, phase => phase = .inUse

namespace ChatServer

/-- The calls in a step on behalf of a client. -/
def memoryCalls (server : ChatServer) (session : Nat) (input : Input) : List MemoryCall :=
  match server.clients session with
  | none => []
  | some client =>
      match server.next session client input with
      | none => []
      | some (moved, _) => client.pc.memoryCalls moved.pc

/-- The thread of a client works with the blocks of the client. -/
def usesBlocks (server : ChatServer) (session : Nat) : Bool :=
  match server.clients session with
  | none => false
  | some client => client.pc.usesBlocks

/-- What the state of the service says about the memory of a client. -/
def Tells (server : ChatServer) (session : Nat) (phase : MemoryPhase) : Prop :=
  match server.clients session with
  | none => phase = .fresh
  | some client => client.pc.Tells phase

theorem tells_of_clients {before after : ChatServer} {session : Nat} {phase : MemoryPhase}
    (same : after.clients session = before.clients session) (tells : before.Tells session phase) :
    after.Tells session phase := by
  rwa [Tells, same]

/-- A thread makes its calls in their phases. -/
theorem next_tells {server : ChatServer} {session : Nat} {client client' : ClientInfo}
    {input : Input} {command : Command} {phase : MemoryPhase} {outcomes : Outcomes}
    (next : server.next session client input = some (client', command))
    (agrees : (client.pc.memoryCalls client'.pc).all (MemoryCall.agrees outcomes) = true)
    (tells : client.pc.Tells phase) :
    phase.Allows outcomes (client.pc.memoryCalls client'.pc) ∧
      client'.pc.Tells (phase.after outcomes (client.pc.memoryCalls client'.pc)) := by
  revert next agrees
  fun_cases ChatServer.next <;>
    [fun_cases prepareClientForBroadcastAndStart; fun_cases askAndAssignUsername;
      fun_cases acceptAndStoreClientUsername; fun_cases getMessagesFromActiveClients;
      fun_cases waitForThreadWork; fun_cases startRemovingClientFromBroadcast;
      fun_cases broadcastMessageToOnlineClients; skip; skip]
  all_goals rintro ⟨⟩ agrees
  all_goals simp_all [Pc.Tells, Pc.memoryCalls, ClientInfo.goto, MemoryPhase.Allows,
    MemoryPhase.after, MemoryCall.MayFollow, MemoryCall.phase, MemoryCall.agrees]
  -- The caller frees what the preparation that it took for a failure may have freed before.
  exact MemoryCall.phase_ne_fresh outcomes (.prepare false)

end ChatServer

theorem hostedChat_manages :
    hostedChat.Manages ChatServer.Starts ChatServer.memoryCalls ChatServer.Tells where
  start server session starts := by simp [ChatServer.Tells, starts.clients]
  accept before session fd after other phase taken tells := by
    have step : chatService.step before (.acceptConnection session fd) = some after := taken
    cases (ChatServer.step_cases step).2 with
    | accept fresh free small =>
        rcases eq_or_ne other session with rfl | different
        · rw [ChatServer.Tells, fresh] at tells
          simpa [ChatServer.Tells, ChatServer.enroll, Pc.Tells] using tells
        · exact ChatServer.tells_of_clients (Function.update_of_ne different _ _) tells
  quit before after other phase signals tells := by
    have step : chatService.step before .closeService = some after := signals
    cases (ChatServer.step_cases step).2
    exact tells
  others before session input after other phase moved different tells := by
    have step : chatService.step before (.run session input) = some after := moved
    cases (ChatServer.step_cases step).2 with
    | run here next free =>
        exact ChatServer.tells_of_clients (Function.update_of_ne different _ _) tells
  serve before session input after phase outcomes moved agrees tells := by
    have step : chatService.step before (.run session input) = some after := moved
    cases (ChatServer.step_cases step).2 with
    | @run session input client client' command here next free =>
        simp only [ChatServer.memoryCalls, here, next] at agrees ⊢
        rw [ChatServer.Tells, here] at tells
        have told := ChatServer.next_tells next agrees tells
        simpa [ChatServer.Tells, ChatServer.perform] using told
  free server session phase returned tells := by
    have returned : server.returned session = true := returned
    obtain ⟨client, here, -⟩ := ChatServer.returned_leaves returned
    simp only [ChatServer.returned, here, decide_eq_true_eq] at returned
    rw [ChatServer.Tells, here] at tells ⊢
    rcases returned with position | position <;> simp [position, Pc.Tells]

/-! ## The FTP service -/

/-- The thread has prepared its client and has not returned. -/
def FtpPc.usesBlocks : FtpPc → Bool
  | finished _ | exited | aborted => false
  | _ => true

/-- What the position of a thread says about the memory of its client. -/
def FtpPc.Tells (pc : FtpPc) (phase : MemoryPhase) : Prop :=
  if pc.usesBlocks then phase = .inUse else phase ≠ .fresh

theorem FtpPc.usesBlocks_of_reads {pc : FtpPc} (reads : 0 < pc.capacity) :
    pc.usesBlocks = true := by
  cases pc with
  | finished status => cases reads
  | exited => cases reads
  | aborted => cases reads
  | _ => rfl

namespace FtpProcess

/-- The calls in a step on behalf of a client. -/
def memoryCalls (host : Nat → Host) (process : FtpProcess) (client : Nat) :
    FtpInput → List MemoryCall
  | .prepared succeeded => [.prepare succeeded]
  | .received result =>
      match process.sessions client with
      | none => []
      | some session =>
          match ((host client).advance session result).pc with
          | .finished status => if status < 0 then [] else [.free]
          | _ => []

/-- The thread of a client works with the blocks of the client. -/
def usesBlocks (process : FtpProcess) (client : Nat) : Bool :=
  match process.sessions client with
  | none => false
  | some session => session.pc.usesBlocks

/-- What the state of the service says about the memory of a client. -/
def Tells (process : FtpProcess) (client : Nat) (phase : MemoryPhase) : Prop :=
  match process.sessions client with
  | none => phase = .fresh
  | some session => session.pc.Tells phase

end FtpProcess

theorem hostedFtp_manages (host : Nat → Host) :
    (hostedFtp host).Manages (fun process => process = ⟨fun _ => none, false⟩)
      (FtpProcess.memoryCalls host) FtpProcess.Tells where
  start process client starts := by simp [FtpProcess.Tells, starts]
  accept before client fd after other phase taken tells := by
    cases taken
    exact tells
  quit before after other phase signals tells := by
    cases signals
    exact tells
  others before client input after other phase moved different tells := by
    rw [← FtpProcess.label_client client input] at different
    rw [FtpProcess.Tells, FtpProcess.step_sessions moved different]
    exact tells
  serve before client input after phase outcomes moved agrees tells := by
    have step : (ftpService host).step before (FtpProcess.label client input) = some after := moved
    cases input with
    | prepared succeeded =>
        cases (FtpProcess.step_cases step).2 with
        | connect fresh =>
            rw [FtpProcess.Tells, fresh] at tells
            refine ⟨⟨tells, trivial⟩, ?_⟩
            simp only [FtpProcess.Tells, FtpProcess.put, Function.update_self]
            cases succeeded with
            | true =>
                have prepares : outcomes.prepares = true := by
                  simpa [hostedFtp, FtpProcess.memoryCalls, MemoryCall.agrees] using agrees
                have position : (serveClientWithFTP true).pc = .name := rfl
                simp [FtpProcess.memoryCalls, MemoryPhase.after, MemoryCall.phase, prepares,
                  position, FtpPc.Tells, FtpPc.usesBlocks]
            | false => exact MemoryCall.phase_ne_fresh outcomes (.prepare false)
    | received result =>
        cases (FtpProcess.step_cases step).2 with
        | @received client result session here reads fits =>
            have used := FtpPc.usesBlocks_of_reads reads
            rw [FtpProcess.Tells, here] at tells
            have inUse : phase = .inUse := by simpa [FtpPc.Tells, used] using tells
            subst inUse
            simp only [FtpProcess.Tells, FtpProcess.put, Function.update_self]
            simp only [FtpProcess.memoryCalls, here, FtpPc.Tells]
            cases position : ((host client).advance session result).pc with
            | finished status =>
                simp only [FtpPc.usesBlocks]
                split <;> simp [MemoryPhase.Allows, MemoryPhase.after, MemoryCall.phase,
                  MemoryCall.MayFollow]
            | _ => simp [FtpPc.usesBlocks, MemoryPhase.Allows, MemoryPhase.after]
  free process client phase returned tells := by
    have returned : process.returned client = true := returned
    cases here : process.sessions client with
    | none => simp [FtpProcess.returned, here] at returned
    | some session =>
        simp only [FtpProcess.returned, here] at returned
        simp only [FtpProcess.Tells, here]
        split at returned
        · next status position => simp [position, FtpPc.Tells, FtpPc.usesBlocks]
        · cases returned

/-! ## The objects of the usernames table -/

namespace HashTable

variable {α : Type*} {table : HashTable α} {accepts : α → Prop}

/-- Every object that was stored in the table meets a condition. -/
def HoldsOnly (accepts : α → Prop) (table : HashTable α) : Prop :=
  ∀ address c, table.heap.cell address = some c → accepts c.value.object

theorem HoldsOnly.create (size : UInt32) (hashFunc : StringBuffer → UInt32) :
    (hashTableCreate size hashFunc).HoldsOnly accepts := by
  rintro address c ⟨⟩

theorem HoldsOnly.insert (holds : table.HoldsOnly accepts) (leftover : List UInt8)
    (key : StringBuffer) {object : α} (new : accepts object) :
    (hashTableInsert table leftover (some key) (some object)).2.HoldsOnly accepts := by
  simp only [hashTableInsert]
  split
  · exact holds
  · intro address c stored
    rcases eq_or_ne address table.heap.fresh with rfl | different
    · simp only [CellHeap.allocate, Function.update_self, Option.some.injEq] at stored
      exact stored ▸ new
    · simp only [CellHeap.allocate, Function.update_of_ne different] at stored
      exact holds address c stored

theorem HoldsOnly.delete (holds : table.HoldsOnly accepts) (key : StringBuffer) :
    (hashTableDeleteElement table (some key)).2.HoldsOnly accepts := by
  simp only [hashTableDeleteElement]
  split
  · exact holds
  · split
    · exact holds
    · rename_i previous _
      intro address c stored
      rcases eq_or_ne address previous with rfl | different
      · simp only [CellHeap.setNext, Function.update_self, Option.map_eq_some_iff] at stored
        obtain ⟨old, here, rfl⟩ := stored
        exact holds address old here
      · simp only [CellHeap.setNext, Function.update_of_ne different] at stored
        exact holds address c stored

theorem HoldsOnly.lookup (holds : table.HoldsOnly accepts) {key : StringBuffer} {object : α}
    (found : hashTableLookup table (some key) = some object) : accepts object := by
  simp only [hashTableLookup] at found
  split at found
  · cases found
  · obtain ⟨c, stored, rfl⟩ := Option.map_eq_some_iff.mp found
    exact holds _ c stored

end HashTable

/-- The clients the service knows and the objects of its table are clients that were accepted. -/
structure ChatServer.Knows (server : ChatServer) (connections : Nat) : Prop where
  clients : ∀ session client, server.clients session = some client → session < connections
  objects : server.usernamesHt.HoldsOnly (· < connections)

theorem ChatServer.Knows.perform {server : ChatServer} {connections session : Nat}
    {client client' : ClientInfo} {command : Command} (knows : server.Knows connections)
    (here : server.clients session = some client) :
    (server.perform session client' command).Knows connections := by
  have accepted := knows.clients session client here
  constructor
  · intro other found inside
    rcases update_eq_some inside with ⟨rfl, -⟩ | ⟨-, was⟩
    · exact accepted
    · exact knows.clients other found was
  · rw [perform_usernamesHt]
    split
    · exact knows.objects.insert _ _ accepted
    · exact knows.objects.delete _
    · exact knows.objects

theorem ChatServer.Knows.mono {server : ChatServer} {few many : Nat} (knows : server.Knows few)
    (fewer : few ≤ many) : server.Knows many where
  clients session client here := (knows.clients session client here).trans_le fewer
  objects address c stored := (knows.objects address c stored).trans_le fewer

namespace ThreadPool

theorem connections_le {size : Nat} {pool after : ThreadPool size} {label : Label size}
    (step : (threadPool size).step pool label = some after) :
    pool.connections ≤ after.connections := by
  cases step_cases step with
  | accept moved =>
      rcases moved.accepts with ⟨same, -⟩ | ⟨more, -⟩
      · exact same.ge
      · exact more ▸ Nat.le_succ _
  | work moved => exact moved.connections.ge
  | quit => exact le_rfl

end ThreadPool

theorem Hosting.chat_knows {size : Nat} {guard : Hosting size ChatServer → Label size Input → Prop}
    {host : Hosting size ChatServer} (reached : (chatHosting size).ReachesVia guard host) :
    host.service.Knows host.pool.connections := by
  induction reached with
  | start initial =>
      constructor
      · intro session client here
        rw [initial.2.1.clients] at here
        cases here
      · rw [initial.2.1.usernamesHt]
        exact .create _ _
  | @next before after label _ _ step knows =>
      cases (step_cases step).2 with
      | @accept fd pool accepted moved taken =>
          have connections := ThreadPool.connections_accept moved
          have accepts : chatService.step before.service
              (.acceptConnection before.pool.connections fd) = some accepted := taken
          cases (ChatServer.step_cases accepts).2 with
          | accept fresh free small =>
              refine ⟨fun session client here => ?_, ?_⟩
              · change session < pool.connections
                rcases ChatServer.update_eq_some here with ⟨rfl, -⟩ | ⟨-, was⟩
                · omega
                · have := knows.clients session client was
                  omega
              · exact (knows.mono (connections ▸ Nat.le_succ _)).objects
      | pool _ moved => exact knows.mono (ThreadPool.connections_le moved)
      | quit moved signals =>
          have closes : chatService.step before.service .closeService = some _ := signals
          cases (ChatServer.step_cases closes).2
          cases moved
          exact ⟨knows.clients, knows.objects⟩
      | @serve session input served _ moved =>
          have runs : chatService.step before.service (.run session input) = some served := moved
          cases (ChatServer.step_cases runs).2 with
          | run here next free => exact knows.perform here

/-! ## What is allocated -/

namespace Tended

variable {size : Nat} {σ ι : Type}

/-- What is allocated for the clients: the struct of every accepted client, each block of a client
that the service works with, and of a client that a worker has let go of nothing but the struct and
the name. -/
structure Allocated (usesBlocks : σ → Nat → Bool) (tended : Tended size σ) : Prop where
  struct : ∀ client, client < tended.host.pool.connections →
    (tended.accounts client).memory.live .info = true
  used : ∀ client, usesBlocks tended.host.service client = true → ∀ block,
    (tended.accounts client).memory.live block = true
  left : ∀ client, tended.host.pool.Taken client → ¬ tended.host.pool.Held client → ∀ block,
    (tended.accounts client).memory.live block = decide (block = .info ∨ block = .name)

theorem Stages.allocated {Tells : σ → Nat → MemoryPhase → Prop} {usesBlocks : σ → Nat → Bool}
    {tended : Tended size σ} (stages : tended.Stages Tells)
    (inUse : ∀ state client phase, usesBlocks state client = true → Tells state client phase →
      phase = .inUse) : tended.Allocated usesBlocks := by
  refine ⟨fun client accepted => ?_, fun client uses block => ?_,
    fun client taken letGo block => ?_⟩
  · have stage := (stages.stands client).2
    cases phase : (tended.accounts client).phase with
    | fresh =>
        rw [phase] at stage
        exact (stage.1 accepted).live _
    | inUse =>
        rw [phase] at stage
        exact ClientMemory.Prepared.live stage _
    | freed =>
        rw [phase] at stage
        exact ClientMemory.Released.live stage _
  · have stage := (stages.stands client).2
    rw [inUse _ _ _ uses (stages.tells client)] at stage
    exact ClientMemory.Prepared.live stage _
  · have stage := (stages.stands client).2
    rw [(stages.freed client taken).resolve_right letGo] at stage
    exact ClientMemory.Released.live stage _

end Tended

/-- The broadcast service in a pool, with the memory of the clients. -/
def chatTending (size : Nat) :
    LabelledSystem (Tended size ChatServer) (Hosting.Label size Input × Outcomes) :=
  tending hostedChat ChatServer.Starts ChatServer.memoryCalls size

/-- The FTP service in a pool, with the memory of the clients. -/
def ftpTending (host : Nat → Host) (size : Nat) :
    LabelledSystem (Tended size FtpProcess) (Hosting.Label size FtpInput × Outcomes) :=
  tending (hostedFtp host) (fun process => process = ⟨fun _ => none, false⟩)
    (FtpProcess.memoryCalls host) size

theorem ChatServer.inUse_of_usesBlocks (server : ChatServer) (session : Nat) (phase : MemoryPhase)
    (uses : server.usesBlocks session = true) (tells : server.Tells session phase) :
    phase = .inUse := by
  rw [ChatServer.usesBlocks] at uses
  rw [ChatServer.Tells] at tells
  split at uses
  · cases uses
  · next client here =>
      rw [here] at tells
      cases position : client.pc <;> simp_all [Pc.usesBlocks, Pc.Tells]

theorem FtpProcess.inUse_of_usesBlocks (process : FtpProcess) (client : Nat) (phase : MemoryPhase)
    (uses : process.usesBlocks client = true) (tells : process.Tells client phase) :
    phase = .inUse := by
  rw [FtpProcess.usesBlocks] at uses
  rw [FtpProcess.Tells] at tells
  split at uses
  · cases uses
  · next session here =>
      rw [here] at tells
      simpa [FtpPc.Tells, uses] using tells

namespace Tended

variable {chatSize ftpSize : Nat} {host : Nat → Host} {chat : Tended chatSize ChatServer}
  {ftp : Tended ftpSize FtpProcess}

/-- In both services a pointer to no allocated block is followed or freed exactly where a connection
is not accepted, the name of a client is not allocated, or the pool frees a client before the
service has prepared it. -/
theorem misused_where_careless (chatReached : (chatTending chatSize).Reaches chat)
    (ftpReached : (ftpTending host ftpSize).Reaches ftp) :
    (¬ chat.Misused ↔ (chatTending chatSize).ReachesVia
      (fun tended label => tended.careful ChatServer.memoryCalls label = true) chat) ∧
    (¬ ftp.Misused ↔ (ftpTending host ftpSize).ReachesVia
      (fun tended label => tended.careful (FtpProcess.memoryCalls host) label = true) ftp) :=
  ⟨not_misused_iff hostedChat_manages chatReached,
    not_misused_iff (hostedFtp_manages host) ftpReached⟩

/-- A pool of one worker whose threads have not run, with a service and no client. -/
def beforeTending {σ : Type} (service : σ) : Tended 1 σ :=
  ⟨Hosting.beforeHosting service, fun _ => {}⟩

theorem chatTending_initial : (chatTending 1).Initial (beforeTending ChatServer.beforeService) :=
  ⟨Hosting.chat_initial, rfl⟩

theorem ftpTending_initial (host : Nat → Host) :
    (ftpTending host 1).Initial (beforeTending ⟨fun _ => none, false⟩) :=
  ⟨Hosting.ftp_initial host, rfl⟩

/-- A host without files. -/
def noFiles (_client : Nat) : Host := .steady (.holding [])

/-- The steps of a pool in which everything succeeds. -/
def succeeding {ι : Type} (labels : List (Hosting.Label 1 ι)) :
    List (Hosting.Label 1 ι × Outcomes) :=
  labels.map fun label => (label, ⟨fun _ => true, true⟩)

/-- A chat client is pending when the service closes, and an FTP client is at the prompt. -/
theorem misused_where_careless_pending :
    ∃ chat ftp, (chatTending 1).Reaches chat ∧
      (ftpTending noFiles 1).Reaches ftp ∧ chat.Misused ∧
      ¬ (chatTending 1).ReachesVia
        (fun tended label => tended.careful ChatServer.memoryCalls label = true) chat ∧
      ¬ ftp.Misused := by
  have chats : ((chatTending 1).execute (fun _ _ => true) (beforeTending ChatServer.beforeService)
      (succeeding (Hosting.pendingScript ++ [.quit] ++
        List.replicate 6 (.pool (.accept .tick))))).map
          (fun chat => (chat.accounts 0).memory.violated) = some true := by
    decide +kernel
  have transfers : ((ftpTending noFiles 1).execute
      (fun tended label => tended.careful (FtpProcess.memoryCalls noFiles) label)
      (beforeTending ⟨fun _ => none, false⟩)
      (succeeding (Hosting.pendingScript ++ Hosting.serveScript [.prepared true]))).map
        (fun ftp => ftp.host.pool.connections) = some 1 := by
    decide +kernel
  obtain ⟨chat, chatExecuted, violated⟩ := Option.map_eq_some_iff.mp chats
  obtain ⟨ftp, ftpExecuted, -⟩ := Option.map_eq_some_iff.mp transfers
  have chatReached := (LabelledSystem.ReachesVia.execute
    (.start chatTending_initial) chatExecuted).reaches
  have ftpCareful := LabelledSystem.ReachesVia.execute
    (.start (ftpTending_initial _)) ftpExecuted
  have settled := misused_where_careless chatReached ftpCareful.reaches
  have misused : chat.Misused := ⟨0, violated⟩
  exact ⟨chat, ftp, chatReached, ftpCareful.reaches, misused,
    fun careful => settled.1.mpr careful misused, settled.2.mpr ftpCareful⟩

/-- As long as the memory of the clients is not misused, of every client that a worker has let go
of the struct and the name are left and nothing else, the blocks that a service works with are
allocated, and the usernames table leads to allocated structs. -/
theorem structs_and_names_left (chatReached : (chatTending chatSize).Reaches chat)
    (ftpReached : (ftpTending host ftpSize).Reaches ftp) (chatUnharmed : ¬ chat.Misused)
    (ftpUnharmed : ¬ ftp.Misused) :
    chat.Allocated ChatServer.usesBlocks ∧ ftp.Allocated FtpProcess.usesBlocks ∧
      ∀ key session, hashTableLookup chat.host.service.usernamesHt (some key) = some session →
        (chat.accounts session).memory.live .info = true := by
  have chatStages := (misused_or_stages hostedChat_manages chatReached).resolve_left chatUnharmed
  have ftpStages := (misused_or_stages (hostedFtp_manages host) ftpReached).resolve_left ftpUnharmed
  have allocated := chatStages.allocated ChatServer.inUse_of_usesBlocks
  refine ⟨allocated, ftpStages.allocated FtpProcess.inUse_of_usesBlocks, ?_⟩
  intro key session found
  exact allocated.struct session
    ((Hosting.chat_knows (reaches_host chatReached)).objects.lookup found)

/-- A chat client hangs up and an FTP client leaves with `--exit`, and their workers let go of
them. -/
theorem structs_and_names_left_behind :
    ∃ chat ftp, (chatTending 1).Reaches chat ∧
      (ftpTending noFiles 1).Reaches ftp ∧
      chat.host.pool.Taken 0 ∧ ¬ chat.host.pool.Held 0 ∧
      ftp.host.pool.Taken 0 ∧ ¬ ftp.host.pool.Held 0 ∧
      chat.Allocated ChatServer.usesBlocks ∧ ftp.Allocated FtpProcess.usesBlocks := by
  let hangsUp : List Input := [.received .closed] ++ List.replicate 11 .tick ++
    [.received .error] ++ List.replicate 10 .tick
  have chats : ((chatTending 1).execute
      (fun tended label => tended.careful ChatServer.memoryCalls label)
      (beforeTending ChatServer.beforeService)
      (succeeding (Hosting.pendingScript ++
        Hosting.serveScript (Hosting.joinInputs ++ hangsUp) ++ [.pool (.work 0)]))).map
        (fun chat => (decide (chat.host.pool.Taken 0), decide (chat.host.pool.Held 0))) =
      some (true, false) := by
    decide +kernel
  have transfers : ((ftpTending noFiles 1).execute
      (fun tended label => tended.careful (FtpProcess.memoryCalls noFiles) label)
      (beforeTending ⟨fun _ => none, false⟩)
      (succeeding (Hosting.pendingScript ++ Hosting.serveScript
        [.prepared true, .received (.data (literal "bob")),
          .received (.data (literal "--exit"))] ++ [.pool (.work 0)]))).map
        (fun ftp => (decide (ftp.host.pool.Taken 0), decide (ftp.host.pool.Held 0))) =
      some (true, false) := by
    decide +kernel
  obtain ⟨chat, chatExecuted, chatFacts⟩ := Option.map_eq_some_iff.mp chats
  obtain ⟨ftp, ftpExecuted, ftpFacts⟩ := Option.map_eq_some_iff.mp transfers
  obtain ⟨chatTaken, chatLetGo⟩ := Prod.mk.inj chatFacts
  obtain ⟨ftpTaken, ftpLetGo⟩ := Prod.mk.inj ftpFacts
  have chatCareful := LabelledSystem.ReachesVia.execute (.start chatTending_initial) chatExecuted
  have ftpCareful := LabelledSystem.ReachesVia.execute (.start (ftpTending_initial _)) ftpExecuted
  have chatUnharmed := (not_misused_iff hostedChat_manages chatCareful.reaches).mpr chatCareful
  have ftpUnharmed := (not_misused_iff (hostedFtp_manages _) ftpCareful.reaches).mpr ftpCareful
  have left := structs_and_names_left chatCareful.reaches ftpCareful.reaches chatUnharmed
    ftpUnharmed
  exact ⟨chat, ftp, chatCareful.reaches, ftpCareful.reaches, of_decide_eq_true chatTaken,
    of_decide_eq_false chatLetGo, of_decide_eq_true ftpTaken, of_decide_eq_false ftpLetGo,
    left.1, left.2.1⟩

end Tended

end CmyMessage
