import CmyMessage.Broadcast.Registry
import CmyMessage.FileTransfer.Process
import CmyMessage.ThreadPool.Hosting

/-!
# Release of descriptors

The descriptor of an accepted connection is closed by one function alone, the gather loop of the
broadcast service, and there on one of its exits alone.  `free_client_memory_with_ptr_to_ptr`, which
every other way of letting go of a client ends in, frees the memory of the client and leaves its
descriptor open.
-/

namespace CmyMessage

/-! ## The broadcast service in its pool -/

namespace ChatServer

/-- The client whose connection an access closes. -/
def closed (server : ChatServer) : Command → Option Nat
  | .closeSocket fd => server.openFD fd
  | _ => none

/-- `prepare_client_for_broadcast_and_start` has returned for a client. -/
def returned (server : ChatServer) (session : Nat) : Bool :=
  match server.clients session with
  | some client => decide (client.pc = .finished ∨ client.pc = .abandoned)
  | none => false

/-- A step of a thread does not give up a client whose connection is open: its preparations do not
fail, and it leaves the gather loop, on an error of its own `recv` or on the quit signal, only if
its connection was closed before. -/
def closesFirst (server : ChatServer) (session : Nat) (input : Input) : Bool :=
  match server.clients session with
  | none => true
  | some client =>
      match client.pc, input with
      | .prepare .firstAllocation, .allocation succeeded => succeeded || server.didFirstAllocation
      | .prepare .clientStructs, .allocation succeeded => succeeded
      | .gather .receive, .received .error =>
          decide (client.i = client.sockFD → server.openFD client.sockFD ≠ some session)
      | .gather .unlockQuit, _ =>
          decide (client.quitSignalVal = true → server.openFD client.sockFD ≠ some session)
      | _, _ => true

end ChatServer

/-- The broadcast service as its pool sees it. -/
def hostedChat : HostedService ChatServer Input where
  runs server := server.terminated.isNone
  accept server session fd := server.step (.acceptConnection session fd)
  quit server := server.step .closeService
  serve server session input := server.step (.run session input)
  closes server session input := do
    let client ← server.clients session
    let (_, command) ← server.next session client input
    server.closed command
  returned := ChatServer.returned

/-- The broadcast service in a pool of some size. -/
def chatHosting (size : Nat) :
    LabelledSystem (Hosting size ChatServer) (Hosting.Label size Input) :=
  hosting hostedChat ChatServer.Starts size

/-- The pool turns nobody away, and no thread gives up a client whose connection is open. -/
def Hosting.closesFirst {size : Nat} (host : Hosting size ChatServer) (label : Label size Input) :
    Bool :=
  host.turnsNobodyAway label &&
    match label with
    | .serve session input => host.service.closesFirst session input
    | _ => true

/-! ## The FTP service in its pool -/

/-- What the environment contributes to a step of an FTP thread. -/
inductive FtpInput
  /-- What `serve_client_with_FTP` sees of `prepare_client_structs_for_data`. -/
  | prepared (succeeded : Bool)
  | received (result : RecvResult)

namespace FtpProcess

/-- `serve_client_with_FTP` has returned for a client. -/
def returned (process : FtpProcess) (client : Nat) : Bool :=
  match process.sessions client with
  | some session =>
      match session.pc with
      | .finished _ => true
      | _ => false
  | none => false

/-- The label of a step on behalf of a client. -/
def label (client : Nat) : FtpInput → Label
  | .prepared succeeded => .connect client succeeded
  | .received result => .received client result

end FtpProcess

/-- The FTP service as its pool sees it.  None of its functions closes the connection of a client.
-/
def hostedFtp (host : Nat → Host) : HostedService FtpProcess FtpInput where
  runs process := !process.ended
  accept process _ _ := some process
  quit process := some process
  serve process client input := process.step host (FtpProcess.label client input)
  closes _ _ _ := none
  returned := FtpProcess.returned

/-- The FTP service in a pool of some size. -/
def ftpHosting (host : Nat → Host) (size : Nat) :
    LabelledSystem (Hosting size FtpProcess) (Hosting.Label size FtpInput) :=
  hosting (hostedFtp host) (fun process => process = ⟨fun _ => none, false⟩) size

/-! ## The books of the broadcast service -/

/-- On the way out of the function of the service. -/
def ClientInfo.Leaves (client : ClientInfo) : Prop :=
  match client.pc with
  | .remove _ closed _ | .gather (.depart closed) => closed = false ∧ client.i = client.sockFD
  | .gather .lockUsernames | .gather .delete | .gather .unlockUsernames => True
  | .finished | .abandoned => True
  | _ => False

namespace ChatServer

/-- A connection is open until it is closed, once, and stays its client's while it is open. -/
structure Booked (server : ChatServer) (closings : Nat → Nat) : Prop where
  owner : ∀ fd session, server.openFD fd = some session →
    ∃ client, server.clients session = some client ∧ client.sockFD = fd
  closed : ∀ session client, server.clients session = some client →
    closings session = if server.openFD client.sockFD = some session then 0 else 1
  unknown : ∀ session, server.clients session = none → closings session = 0

/-- A connection that its thread gives up is not open. -/
def LeavesClosed (server : ChatServer) : Prop :=
  ∀ session client, server.clients session = some client → client.Leaves →
    server.openFD client.sockFD ≠ some session

theorem Booked.start {server : ChatServer} (starts : server.Starts) :
    server.Booked fun _ => 0 := by
  constructor <;> simp [starts.clients, starts.openFD]

theorem Booked.accept {server : ChatServer} {closings : Nat → Nat} {session fd : Nat}
    (booked : server.Booked closings) (fresh : server.clients session = none)
    (free : server.openFD fd = none) : (server.enroll session fd).Booked closings := by
  constructor
  · intro other owner opened
    rcases eq_or_ne other fd with rfl | different
    · simp only [enroll, Function.update_self, Option.some.injEq] at opened
      subst opened
      exact ⟨_, Function.update_self _ _ _, rfl⟩
    · simp only [enroll, Function.update_of_ne different] at opened
      obtain ⟨client, here, sockFD⟩ := booked.owner other owner opened
      exact ⟨client, (Function.update_of_ne (ne_of_fresh fresh here) _ _).trans here, sockFD⟩
  · intro other client here
    rcases update_eq_some here with ⟨rfl, rfl⟩ | ⟨different, here⟩
    · simp only [enroll, Function.update_self, if_true]
      exact booked.unknown other fresh
    · rw [booked.closed other client here]
      rcases eq_or_ne client.sockFD fd with same | apart
      · simp [enroll, same, free, different.symm]
      · simp [enroll, Function.update_of_ne apart]
  · intro other unknown
    rcases eq_or_ne other session with rfl | different
    · simp [enroll] at unknown
    · exact booked.unknown other ((Function.update_of_ne different _ _).symm.trans unknown)

theorem LeavesClosed.accept {server : ChatServer} {session fd : Nat}
    (leavesClosed : server.LeavesClosed) : (server.enroll session fd).LeavesClosed := by
  intro other client here leaves
  rcases update_eq_some here with ⟨rfl, rfl⟩ | ⟨different, here⟩
  · cases leaves
  · have notOpen := leavesClosed other client here leaves
    rcases eq_or_ne client.sockFD fd with same | apart
    · simp [enroll, same, different.symm]
    · simpa [enroll, Function.update_of_ne apart] using notOpen

/-- An access closes the connection that a descriptor belongs to, or none. -/
theorem openFD_perform (server : ChatServer) (session : Nat) (client : ClientInfo)
    (command : Command) :
    server.closed command = none ∧
        (server.perform session client command).openFD = server.openFD ∨
      ∃ fd owner, server.closed command = some owner ∧ server.openFD fd = some owner ∧
        (server.perform session client command).openFD = Function.update server.openFD fd none := by
  rw [perform_openFD]
  cases command with
  | closeSocket fd =>
      cases opened : server.openFD fd with
      | none =>
          refine .inl ⟨opened, ?_⟩
          simp only [← opened, Function.update_eq_self]
      | some owner => exact .inr ⟨fd, owner, opened, opened, rfl⟩
  | _ => exact .inl ⟨rfl, rfl⟩

/-- The books behind an access that closes nothing. -/
theorem Booked.keep {server : ChatServer} {closings : Nat → Nat} {session : Nat}
    {client client' : ClientInfo} {command : Command} (booked : server.Booked closings)
    (here : server.clients session = some client) (sockFD : client'.sockFD = client.sockFD)
    (same : (server.perform session client' command).openFD = server.openFD) :
    (server.perform session client' command).Booked closings := by
  constructor
  · intro other owner opened
    rw [same] at opened
    obtain ⟨was, inside, isFD⟩ := booked.owner other owner opened
    obtain ⟨found, inside', keeps⟩ := after_perform command here sockFD inside
    exact ⟨found, inside', keeps.trans isFD⟩
  · intro other found inside
    obtain ⟨was, inside', keeps⟩ := before_perform here sockFD inside
    rw [same, keeps]
    exact booked.closed other was inside'
  · exact fun other absent => booked.unknown other (unknown_perform absent)

/-- The books behind an access that closes a connection. -/
theorem Booked.close {server : ChatServer} {closings : Nat → Nat} {session fd owner : Nat}
    {client client' : ClientInfo} {command : Command} (booked : server.Booked closings)
    (here : server.clients session = some client) (sockFD : client'.sockFD = client.sockFD)
    (opened : server.openFD fd = some owner)
    (updated : (server.perform session client' command).openFD =
      Function.update server.openFD fd none) :
    (server.perform session client' command).Booked
      (Function.update closings owner (closings owner + 1)) := by
  obtain ⟨ownerClient, ownerInside, ownerFD⟩ := booked.owner fd owner opened
  have wasOpen : closings owner = 0 := by
    rw [booked.closed owner ownerClient ownerInside, ownerFD, if_pos opened]
  constructor
  · intro other session' opened'
    rw [updated, Function.update_apply] at opened'
    split at opened'
    · cases opened'
    · obtain ⟨was, inside, isFD⟩ := booked.owner other session' opened'
      obtain ⟨found, inside', keeps⟩ := after_perform command here sockFD inside
      exact ⟨found, inside', keeps.trans isFD⟩
  · intro other found inside
    obtain ⟨was, inside', keeps⟩ := before_perform here sockFD inside
    rw [updated, keeps]
    rcases eq_or_ne other owner with rfl | different
    · obtain rfl : was = ownerClient := Option.some.inj (inside'.symm.trans ownerInside)
      rw [Function.update_self, wasOpen, ownerFD, Function.update_self]
      rfl
    · rw [Function.update_of_ne different, booked.closed other was inside']
      rcases eq_or_ne was.sockFD fd with isFD | apart
      · simp [isFD, opened, different.symm]
      · rw [Function.update_of_ne apart]
  · intro other absent
    have different : other ≠ owner := by
      rintro rfl
      simp [unknown_perform absent] at ownerInside
    rw [Function.update_of_ne different]
    exact booked.unknown other (unknown_perform absent)

/-- The books behind an access of a thread. -/
theorem Booked.perform {server : ChatServer} {closings : Nat → Nat} {session : Nat}
    {client client' : ClientInfo} {command : Command} (booked : server.Booked closings)
    (here : server.clients session = some client) (sockFD : client'.sockFD = client.sockFD) :
    (server.perform session client' command).Booked
      (match server.closed command with
        | some owner => Function.update closings owner (closings owner + 1)
        | none => closings) := by
  rcases server.openFD_perform session client' command with
    ⟨closes, same⟩ | ⟨fd, owner, closes, opened, updated⟩
  · rw [closes]
    exact booked.keep here sockFD same
  · rw [closes]
    exact booked.close here sockFD opened updated

/-- A thread gives up its client only once its connection is closed. -/
theorem next_leaves {server : ChatServer} {session : Nat} {client client' : ClientInfo}
    {input : Input} {command : Command} (here : server.clients session = some client)
    (guarded : server.closesFirst session input = true)
    (next : server.next session client input = some (client', command))
    (leaves : client'.Leaves) :
    client.Leaves ∨ server.openFD client.sockFD ≠ some session := by
  revert next leaves
  simp only [closesFirst, here] at guarded
  fun_cases ChatServer.next <;>
    [fun_cases prepareClientForBroadcastAndStart; fun_cases askAndAssignUsername;
      fun_cases acceptAndStoreClientUsername; fun_cases getMessagesFromActiveClients;
      fun_cases waitForThreadWork; fun_cases startRemovingClientFromBroadcast;
      fun_cases broadcastMessageToOnlineClients; skip; skip]
  all_goals rintro ⟨⟩ leaves
  all_goals simp_all [ClientInfo.Leaves, ClientInfo.goto]

theorem LeavesClosed.perform {server : ChatServer} {session : Nat} {client client' : ClientInfo}
    {input : Input} {command : Command} (leavesClosed : server.LeavesClosed)
    (here : server.clients session = some client)
    (guarded : server.closesFirst session input = true)
    (next : server.next session client input = some (client', command)) :
    (server.perform session client' command).LeavesClosed := by
  intro other found inside leaves
  have wasClosed : server.openFD found.sockFD ≠ some other := by
    rcases update_eq_some inside with ⟨rfl, rfl⟩ | ⟨-, was⟩
    · rw [(next_registry next).sockFD]
      rcases next_leaves here guarded next leaves with before | notOpen
      · exact leavesClosed other client here before
      · exact notOpen
    · exact leavesClosed other found was leaves
  rcases server.openFD_perform session client' command with
    ⟨-, same⟩ | ⟨fd, owner, -, -, updated⟩
  · rwa [same]
  · rw [updated, Function.update_apply]
    split
    · exact (Option.some_ne_none other).symm
    · exact wasClosed

end ChatServer

theorem hostedChat_closes {server : ChatServer} {session : Nat} {client client' : ClientInfo}
    {input : Input} {command : Command} (here : server.clients session = some client)
    (next : server.next session client input = some (client', command)) :
    hostedChat.closes server session input = server.closed command := by
  simp only [hostedChat, here, next, Option.bind_eq_bind, Option.bind_some]

namespace Hosting

variable {size : Nat}

theorem chat_booked {guard : Hosting size ChatServer → Label size Input → Prop}
    {host : Hosting size ChatServer} (reached : (chatHosting size).ReachesVia guard host) :
    host.service.Booked host.closings := by
  induction reached with
  | start initial =>
      rw [initial.2.2]
      exact .start initial.2.1
  | next _ _ step booked =>
      obtain ⟨-, steps⟩ := step_cases step
      cases steps with
      | accept _ taken =>
          obtain ⟨-, accepts⟩ := ChatServer.step_cases taken
          cases accepts with
          | accept fresh free small => exact booked.accept fresh free
      | pool _ _ => exact booked
      | quit _ signals =>
          obtain ⟨-, closes⟩ := ChatServer.step_cases signals
          cases closes
          exact ⟨booked.owner, booked.closed, booked.unknown⟩
      | @serve session input served _ moved =>
          obtain ⟨-, runs⟩ := ChatServer.step_cases moved
          cases runs with
          | run here next free =>
              rw [closingsAfter, hostedChat_closes here next]
              exact booked.perform here (ChatServer.next_registry next).sockFD

/-- No thread has given up a client whose connection is open. -/
theorem chat_leavesClosed {host : Hosting size ChatServer}
    (reached : (chatHosting size).ReachesVia
      (fun host label => host.closesFirst label = true) host) :
    host.service.LeavesClosed := by
  induction reached with
  | start initial =>
      intro session client here
      simp [initial.2.1.clients] at here
  | next _ guarded step leavesClosed =>
      obtain ⟨-, guarded⟩ := Bool.and_eq_true_iff.mp guarded
      obtain ⟨-, steps⟩ := step_cases step
      cases steps with
      | accept _ taken =>
          obtain ⟨-, accepts⟩ := ChatServer.step_cases taken
          cases accepts with
          | accept fresh free small => exact leavesClosed.accept
      | pool _ _ => exact leavesClosed
      | quit _ signals =>
          obtain ⟨-, closes⟩ := ChatServer.step_cases signals
          cases closes
          exact leavesClosed
      | serve _ moved =>
          obtain ⟨-, runs⟩ := ChatServer.step_cases moved
          cases runs with
          | run here next free => exact leavesClosed.perform here guarded next

end Hosting

theorem ChatServer.returned_leaves {server : ChatServer} {session : Nat}
    (returned : server.returned session = true) :
    ∃ client, server.clients session = some client ∧ client.Leaves := by
  rw [ChatServer.returned] at returned
  split at returned
  · rename_i client here
    refine ⟨client, here, ?_⟩
    rcases of_decide_eq_true returned with position | position <;>
      simp [ClientInfo.Leaves, position]
  · cases returned

/-- A thread that has returned takes no step. -/
theorem ChatServer.returned_stays {before after : ChatServer} {label : ChatServer.Label}
    (step : chatService.step before label = some after) {session : Nat}
    (returned : before.returned session = true) : after.returned session = true := by
  obtain ⟨-, steps⟩ := step_cases step
  have unmoved (same : after.clients session = before.clients session) :
      after.returned session = true := by
    rwa [ChatServer.returned, same]
  cases steps with
  | @accept newcomer fd fresh free small =>
      refine unmoved (Function.update_of_ne ?_ _ _)
      rintro rfl
      simp [ChatServer.returned, fresh] at returned
  | close => exact unmoved rfl
  | @run runner input client client' command here next free =>
      refine unmoved (Function.update_of_ne ?_ _ _)
      rintro rfl
      simp only [ChatServer.returned, here, decide_eq_true_eq] at returned
      rcases returned with position | position
      · simp [ChatServer.next, position] at next
      · simp [ChatServer.next, position] at next

theorem hostedChat_stable : hostedChat.Stable where
  accept _ _ _ _ _ taken := ChatServer.returned_stays taken
  quit _ _ _ signals := ChatServer.returned_stays signals
  serve _ _ _ _ _ moved := ChatServer.returned_stays moved

/-! ## Released connections -/

namespace Hosting

theorem chat_released {size : Nat} {host : Hosting size ChatServer}
    (reached : (chatHosting size).ReachesVia
      (fun host label => host.closesFirst label = true) host) :
    host.Released := by
  intro client accepted letGo
  have kept := kept_or_returned hostedChat_stable
    (fun _ _ guarded => (Bool.and_eq_true_iff.mp guarded).1) reached accepted
  obtain ⟨info, here, leaves⟩ := ChatServer.returned_leaves (kept.resolve_left letGo)
  have notOpen := chat_leavesClosed reached client info here leaves
  rw [(chat_booked reached).closed client info here, if_neg notOpen]

theorem ftp_closings {host : Nat → Host} {size : Nat} {ftp : Hosting size FtpProcess}
    (reached : (ftpHosting host size).Reaches ftp) (client : Nat) : ftp.closings client = 0 := by
  induction reached with
  | start initial => rw [initial.2.2]
  | next _ _ step ih =>
      obtain ⟨-, steps⟩ := step_cases step
      cases steps with
      | accept _ _ => exact ih
      | pool _ _ => exact ih
      | quit _ _ => exact ih
      | serve _ _ => exact ih

/-- In the broadcast service every connection that no thread has any more was closed once, as long
as nobody is turned away and no thread gives up a client whose connection is open.  In the FTP
service this is so exactly as long as no accepted connection has been let go. -/
theorem descriptors_released {chatSize ftpSize : Nat} {host : Nat → Host}
    {chat : Hosting chatSize ChatServer} {ftp : Hosting ftpSize FtpProcess}
    (chatReached : (chatHosting chatSize).ReachesVia
      (fun host label => host.closesFirst label = true) chat)
    (ftpReached : (ftpHosting host ftpSize).Reaches ftp) :
    chat.Released ∧
      (ftp.Released ↔ ∀ client, client < ftp.pool.connections → ftp.pool.Keeps client) := by
  refine ⟨chat_released chatReached, ?_⟩
  constructor
  · intro released client accepted
    by_contra letGo
    have once := released client accepted letGo
    rw [ftp_closings ftpReached] at once
    cases once
  · intro keeps client accepted letGo
    exact absurd (keeps client accepted) letGo

/-- A pool of one worker whose threads have not run, with a service. -/
def beforeHosting {σ : Type} (service : σ) : Hosting 1 σ :=
  ⟨ThreadPool.beforePool 1, service, fun _ => 0⟩

theorem chat_initial : (chatHosting 1).Initial (beforeHosting ChatServer.beforeService) :=
  ⟨ThreadPool.beforePool_starts 1, ChatServer.beforeService_starts, rfl⟩

theorem ftp_initial (host : Nat → Host) :
    (ftpHosting host 1).Initial (beforeHosting ⟨fun _ => none, false⟩) :=
  ⟨ThreadPool.beforePool_starts 1, rfl, rfl⟩

/-- The first connection is accepted and its client put into the queue. -/
def pendingScript {ι : Type} : List (Label 1 ι) :=
  .accept 4 :: [.accept .tick, .accept (.allocated true), .accept (.woken none),
    .accept .tick].map .pool

/-- The worker takes the client off the queue and makes some steps for it. -/
def serveScript {ι : Type} (inputs : List ι) : List (Label 1 ι) :=
  List.replicate 4 (.pool (.work 0)) ++ inputs.map (.serve 0)

/-- A chat client joins the broadcast, and `select` reports its descriptor. -/
def joinInputs : List Input :=
  [.tick, .allocation true, .tick, .allocation true, .sent .taken, .received (.data [97, 10]),
    .tick, .tick, .tick, .sent .taken, .tick, .memory [], .tick, .tick, .tick, .tick,
    .sent .taken] ++ List.replicate 7 .tick ++ [.selected (some fun fd => fd == 4), .tick, .tick]

/-- The first client was accepted, nobody has it, and its connection was not closed. -/
def leaks {σ : Type} (host : Hosting 1 σ) : Bool :=
  decide (0 < host.pool.connections ∧ ¬ host.pool.Keeps 0 ∧ host.closings 0 = 0)

theorem not_released_of_leaks {σ : Type} {host : Hosting 1 σ} (leaks : host.leaks = true) :
    ¬ host.Released := by
  obtain ⟨accepted, letGo, never⟩ := of_decide_eq_true leaks
  intro released
  have once := released 0 accepted letGo
  rw [never] at once
  cases once

/-- A chat client hangs up while its own thread broadcasts.  The thread closes the connection,
starts its scan again and returns on the error of the closed descriptor.  An FTP client is at the
prompt. -/
theorem descriptors_released_hang_up :
    ∃ chat ftp, (chatHosting 1).Reaches chat ∧
      (ftpHosting (fun _ => .steady (.holding [])) 1).Reaches ftp ∧
      ¬ chat.pool.Keeps 0 ∧ chat.closings 0 = 1 ∧ ftp.pool.Keeps 0 ∧ chat.Released := by
  let hangsUp : List Input := [.received .closed] ++ List.replicate 11 .tick ++
    [.received .error] ++ List.replicate 10 .tick
  have chats : ((chatHosting 1).execute (fun host label => host.closesFirst label)
      (beforeHosting ChatServer.beforeService)
      (pendingScript ++ serveScript (joinInputs ++ hangsUp) ++ [.pool (.work 0)])).map
        (fun chat => (decide (chat.pool.Keeps 0), chat.closings 0)) = some (false, 1) := by
    decide +kernel
  have transfers : ((ftpHosting (fun _ => .steady (.holding [])) 1).execute (fun _ _ => true)
      (beforeHosting ⟨fun _ => none, false⟩)
      (pendingScript ++ serveScript [.prepared true])).map
        (fun ftp => decide (ftp.pool.Keeps 0)) = some true := by
    decide +kernel
  obtain ⟨chat, chatExecuted, facts⟩ := Option.map_eq_some_iff.mp chats
  obtain ⟨ftp, ftpExecuted, keeps⟩ := Option.map_eq_some_iff.mp transfers
  obtain ⟨letGo, once⟩ := Prod.mk.inj facts
  have chatReached := LabelledSystem.ReachesVia.execute (.start chat_initial) chatExecuted
  have ftpReached := LabelledSystem.ReachesVia.execute (.start (ftp_initial _)) ftpExecuted
  exact ⟨chat, ftp, chatReached.reaches, ftpReached.reaches, of_decide_eq_false letGo, once,
    of_decide_eq_true keeps, (descriptors_released chatReached ftpReached.reaches).1⟩

/-- An FTP client that leaves with `--exit`, an FTP client that is pending when the service closes,
and a chat client whose `recv` fails in the gather loop of its own thread: nobody has the client any
more, and its descriptor is open. -/
theorem descriptors_leak :
    (∃ ftp, (ftpHosting (fun _ => .steady (.holding [])) 1).Reaches ftp ∧
      (ftp.service.sessions 0).map FtpSession.pc = some (.finished 0) ∧ ¬ ftp.Released) ∧
    (∃ ftp, (ftpHosting (fun _ => .steady (.holding [])) 1).Reaches ftp ∧
      ftp.pool.acceptor.pc = .unlockPending ∧ ¬ ftp.Released) ∧
    ∃ chat, (chatHosting 1).Reaches chat ∧ chat.service.returned 0 = true ∧ ¬ chat.Released := by
  refine ⟨?_, ?_, ?_⟩
  · have executes : ((ftpHosting (fun _ => .steady (.holding [])) 1).execute (fun _ _ => true)
        (beforeHosting ⟨fun _ => none, false⟩)
        (pendingScript ++ serveScript [.prepared true, .received (.data (literal "bob")),
          .received (.data (literal "--exit"))] ++ [.pool (.work 0)])).map
          (fun ftp => ((ftp.service.sessions 0).map FtpSession.pc, ftp.leaks)) =
        some (some (.finished 0), true) := by
      decide +kernel
    obtain ⟨ftp, executed, facts⟩ := Option.map_eq_some_iff.mp executes
    obtain ⟨exits, leaks⟩ := Prod.mk.inj facts
    exact ⟨ftp, (LabelledSystem.ReachesVia.execute (.start (ftp_initial _)) executed).reaches,
      exits, not_released_of_leaks leaks⟩
  · have executes : ((ftpHosting (fun _ => .steady (.holding [])) 1).execute (fun _ _ => true)
        (beforeHosting ⟨fun _ => none, false⟩)
        (pendingScript ++ [.quit] ++ List.replicate 6 (.pool (.accept .tick)))).map
          (fun ftp => (ftp.pool.acceptor.pc, ftp.leaks)) = some (.unlockPending, true) := by
      decide +kernel
    obtain ⟨ftp, executed, facts⟩ := Option.map_eq_some_iff.mp executes
    obtain ⟨rejects, leaks⟩ := Prod.mk.inj facts
    exact ⟨ftp, (LabelledSystem.ReachesVia.execute (.start (ftp_initial _)) executed).reaches,
      rejects, not_released_of_leaks leaks⟩
  · have executes : ((chatHosting 1).execute (fun _ _ => true)
        (beforeHosting ChatServer.beforeService)
        (pendingScript ++
          serveScript (joinInputs ++ [.received .error] ++ List.replicate 10 .tick) ++
          [.pool (.work 0)])).map (fun chat => (chat.service.returned 0, chat.leaks)) =
        some (true, true) := by
      decide +kernel
    obtain ⟨chat, executed, facts⟩ := Option.map_eq_some_iff.mp executes
    obtain ⟨returned, leaks⟩ := Prod.mk.inj facts
    exact ⟨chat, (LabelledSystem.ReachesVia.execute (.start chat_initial) executed).reaches,
      returned, not_released_of_leaks leaks⟩

end Hosting
end CmyMessage
