import CmyMessage.Foundation.LabelledSystem
import CmyMessage.Foundation.Socket
import CmyMessage.HashTable.Murmur
import CmyMessage.Settings

/-!
# The broadcast chat service

The client threads of `broadcast_chat_service.c` as a labelled transition system.  A thread stands
at a position of one of the source's functions; a step performs the local work up to its next access
to shared memory, a lock, a socket or the heap, and at most one such access.  A label fixes what the
environment contributes to a step: the result of a system call or of an allocation, and the old
content of a heap block.  Descriptors are owned by the client they were accepted for until a thread
closes them, and may then be accepted again.
-/

namespace CmyMessage

/-- `FD_SETSIZE` -/
def fdSetSize : Nat := 1024

/-- `MAX_NUM_CLIENTS` -/
def maxNumClients : Nat := 5

/-- A set of descriptors. -/
abbrev FdSet := Nat → Bool

/-- The mutexes of the service. -/
inductive Mutex
  /-- `g_mutex_server` -/
  | server
  /-- `p_mutex_usernames_ht` -/
  | usernamesHt
  /-- `p_mutex_online_clients_set` -/
  | onlineClientsSet
  /-- `p_mutex_common_msg_buffer` -/
  | commonMsgBuffer
  /-- `p_mutex_quit_signal` -/
  | quitSignal
  deriving DecidableEq

/-! ## Positions -/

/-- Positions in `prepare_client_for_broadcast_and_start` before the handshake. -/
inductive PreparePc
  | lockServer | firstAllocation | unlockServer | clientStructs
  deriving DecidableEq

/-- Positions in `ask_and_assign_username`. -/
inductive AskPc
  | prompt | receive | lockUsernames | lookup | unlockUsernames (present : Bool) | reject
  deriving DecidableEq

/-- Positions in `accept_and_store_client_username`. -/
inductive AcceptPc
  | inform | lockUsernames | insert | unlockUsernames | lockServer | relate | unlockServer
  deriving DecidableEq

/-- Positions in `wait_for_thread_work`. -/
inductive WaitPc
  | lockServer | test | blocked | unlockServer
  deriving DecidableEq

/-- Positions in `start_removing_client_from_broadcast` and `remove_socket_from_sets`. -/
inductive RemovePc
  | lockServer | lockOnline | clear | unlockOnline | lockUsernames | delete | unlockUsernames
  | release | unlockServer
  deriving DecidableEq

/-- Positions in `broadcast_message_to_online_clients`; the walk holds the keys still to visit. -/
inductive BroadcastPc
  | lockServer | lockUsernames | send (keys : List StringBuffer) | unlockUsernames | unlockServer
  deriving DecidableEq

/-- Positions in `get_messages_from_active_clients` outside the functions it calls. -/
inductive GatherPc
  | welcome | lockOnline | join | unlockOnline
  | snapshot | select | reset | scan | receive | lockCommonMsg | append | unlockCommonMsg
  | depart (closed : Bool)
  | lockQuit | readQuit | unlockQuit | lockUsernames | delete | unlockUsernames
  deriving DecidableEq

/-- Where the thread that serves a client stands. -/
inductive Pc
  | prepare (pc : PreparePc)
  | ask (pc : AskPc)
  | accept (pc : AcceptPc)
  | gather (pc : GatherPc)
  | wait (pc : WaitPc)
  /-- Removing a client whose `recv` reported an error or, when `closed`, the end of the stream;
  `departing` records the owner of the descriptor at that `recv`. -/
  | remove (pc : RemovePc) (closed : Bool) (departing : Option Nat)
  | broadcast (pc : BroadcastPc)
  /-- `get_messages_from_active_clients` has returned. -/
  | finished
  /-- `prepare_client_for_broadcast_and_start` has returned an error before the handshake. -/
  | abandoned
  deriving DecidableEq

/-! ## State -/

/-- `ClientInfo_t` with the local variables of the thread that serves the client.  The bytes of a
block beyond the listed ones are zero. -/
structure ClientInfo where
  /-- Where the thread stands. -/
  pc : Pc
  /-- `sock_FD` -/
  sockFD : Nat
  /-- `name` -/
  name : List UInt8 := []
  /-- `buffer` -/
  buffer : List UInt8 := []
  /-- `ready_sockets_set` -/
  ready : FdSet := fun _ => false
  /-- The loop variable of the gather loop. -/
  i : Int := 0
  /-- `tot_num_bytes_recv` -/
  totNumBytesRecv : Nat := 0
  /-- `quit_signal_val` -/
  quitSignalVal : Bool := false

/-- Why the process has ended. -/
inductive Termination
  | exitSuccess
  | exitFailure
  | brokenPipe
  deriving DecidableEq

/-- The memory shared by the client threads, the threads themselves, and the open connections. -/
structure ChatServer where
  /-- The client threads by client. -/
  clients : Nat → Option ClientInfo
  /-- The client whose connection a descriptor is, while it is open. -/
  openFD : Nat → Option Nat
  /-- The client whose thread holds a mutex. -/
  holder : Mutex → Option Nat
  /-- `did_first_allocation` -/
  didFirstAllocation : Bool
  /-- `is_broadcasting` -/
  isBroadcasting : Bool
  /-- `p_usernames_ht`, with clients as objects. -/
  usernamesHt : HashTable Nat
  /-- `usernames_by_FD_arr` -/
  usernamesByFD : Nat → List UInt8
  /-- `p_online_clients_set` -/
  onlineClients : FdSet
  /-- `p_common_msg_buffer` -/
  commonMsgBuffer : List UInt8
  /-- `p_quit_signal` -/
  quitSignal : Bool
  /-- Set when the process has ended. -/
  terminated : Option Termination
  /-- Record of the clients whose table entry was deleted on their own departure. -/
  removed : Nat → Bool

/-- What the environment contributes to a step of a thread. -/
inductive Input
  | tick
  /-- Whether the allocations succeed. -/
  | allocation (succeeded : Bool)
  /-- The old content of a block, behind the string copied into it. -/
  | memory (leftover : List UInt8)
  | received (result : RecvResult)
  | sent (result : SendResult)
  /-- The descriptors reported by `select`, unless it fails. -/
  | selected (reported : Option FdSet)

/-- One access to shared memory, to a mutex or to a socket. -/
inductive Command
  | skip
  | lock (mutex : Mutex)
  | unlock (mutex : Mutex)
  | firstAllocation
  /-- A `send` whose result is dropped or only logged. -/
  | send (fd : Nat) (text : List UInt8) (result : SendResult)
  | insertUsername (leftover : List UInt8)
  | relateUsername
  | joinOnline
  | leaveOnline (fd : Nat)
  /-- Delete the entry under `key` on behalf of a departing client. -/
  | deleteUsername (key : List UInt8) (departing : Option Nat)
  | claimBroadcast
  | releaseBroadcast
  | closeSocket (fd : Nat)
  | clearCommonMsg
  | appendCommonMsg (text : List UInt8)
  | terminate (reason : Termination)

/-! ## The functions of the source -/

namespace ClientInfo

/-- The client with its thread moved to another position. -/
def goto (client : ClientInfo) (pc : Pc) : ClientInfo := { client with pc }

end ClientInfo

namespace ChatServer

/-- The results a `recv` on a descriptor can have. -/
def canReceive (server : ChatServer) (fd : Nat) (result : RecvResult) : Bool :=
  result.fits bufferSize && ((server.openFD fd).isSome || decide (result = .error))

/-- `prepare_client_for_broadcast_and_start`, up to the handshake.
`prepare_client_structs_for_data` has no `return` on its successful path, so what its caller sees
there is up to the environment. -/
def prepareClientForBroadcastAndStart (server : ChatServer) (client : ClientInfo) :
    PreparePc → Input → Option (ClientInfo × Command)
  | .lockServer, .tick => some (client.goto (.prepare .firstAllocation), .lock .server)
  | .firstAllocation, .allocation succeeded =>
      if server.didFirstAllocation then
        some (client.goto (.prepare .unlockServer), .skip)
      else if succeeded then
        some (client.goto (.prepare .unlockServer), .firstAllocation)
      else
        some (client.goto .abandoned, .skip)
  | .unlockServer, .tick => some (client.goto (.prepare .clientStructs), .unlock .server)
  | .clientStructs, .allocation true => some (client.goto (.ask .prompt), .skip)
  | .clientStructs, .allocation false => some (client.goto .abandoned, .skip)
  | _, _ => none

/-- `init_msg` -/
def initMsg : List UInt8 := literal "\nOur newest guest! How can we call you? "

/-- `rejection_msg` -/
def rejectionMsg : List UInt8 :=
  literal "\nThat username is present in the session...\nPlease, choose another: "

/-- `accepted_msg` -/
def acceptedMsg : List UInt8 := literal "\nUsername accepted!\n"

/-- `ask_and_assign_username` -/
def askAndAssignUsername (server : ChatServer) (client : ClientInfo) :
    AskPc → Input → Option (ClientInfo × Command)
  | .prompt, .sent result =>
      let buffer := CString.strncpy client.buffer initMsg initMsg.length
      some ({ client with buffer }.goto (.ask .receive),
        .send client.sockFD (CString.text buffer) result)
  | .receive, .received result =>
      if server.canReceive client.sockFD result then
        match result with
        | .error => some (client, .terminate .exitFailure)
        | .closed => some (client, .terminate .exitSuccess)
        | .data bytes =>
            some ({ client with buffer := bytes.set (bytes.length - 1) 0 }.goto
              (.ask .lockUsernames), .skip)
      else
        none
  | .lockUsernames, .tick => some (client.goto (.ask .lookup), .lock .usernamesHt)
  | .lookup, .tick =>
      match hashTableLookup server.usernamesHt (some (.ofBlock client.buffer)) with
      | some _ => some (client.goto (.ask (.unlockUsernames true)), .skip)
      | none => some (client.goto (.ask (.unlockUsernames false)), .skip)
  | .unlockUsernames true, .tick => some (client.goto (.ask .reject), .unlock .usernamesHt)
  | .unlockUsernames false, .tick => some (client.goto (.accept .inform), .unlock .usernamesHt)
  | .reject, .sent result =>
      let buffer := CString.strncpy [] rejectionMsg rejectionMsg.length
      some ({ client with buffer }.goto (.ask .receive),
        .send client.sockFD (CString.text buffer) result)
  | _, _ => none

/-- The bytes of `name` once the string in `buffer` was copied into the zeroed block and cut. -/
def storedName (buffer : List UInt8) : List UInt8 :=
  (CString.strncpy [] buffer (CString.text buffer).length).set (maxUsernameLength - 1) 0

/-- `accept_and_store_client_username` -/
def acceptAndStoreClientUsername (client : ClientInfo) :
    AcceptPc → Input → Option (ClientInfo × Command)
  | .inform, .sent result =>
      let buffer := (CString.strncpy [] acceptedMsg acceptedMsg.length).set acceptedMsg.length 0
      some ({ client with name := storedName client.buffer, buffer }.goto (.accept .lockUsernames),
        .send client.sockFD (CString.text buffer) result)
  | .lockUsernames, .tick => some (client.goto (.accept .insert), .lock .usernamesHt)
  | .insert, .memory leftover =>
      some (client.goto (.accept .unlockUsernames), .insertUsername leftover)
  | .unlockUsernames, .tick => some (client.goto (.accept .lockServer), .unlock .usernamesHt)
  | .lockServer, .tick => some (client.goto (.accept .relate), .lock .server)
  | .relate, .tick => some (client.goto (.accept .unlockServer), .relateUsername)
  | .unlockServer, .tick => some (client.goto (.gather .welcome), .unlock .server)
  | _, _ => none

/-- `wait_for_thread_work`.  A blocked thread may wake at any time, as the condition variable
allows, and then competes for the mutex it gave up. -/
def waitForThreadWork (server : ChatServer) (client : ClientInfo) :
    WaitPc → Input → Option (ClientInfo × Command)
  | .lockServer, .tick => some (client.goto (.wait .test), .lock .server)
  | .test, .tick =>
      if server.isBroadcasting then
        some (client.goto (.wait .blocked), .unlock .server)
      else
        some (client.goto (.wait .unlockServer), .claimBroadcast)
  | .blocked, .tick => some (client.goto (.wait .test), .lock .server)
  | .unlockServer, .tick => some (client.goto (.gather .snapshot), .unlock .server)
  | _, _ => none

/-- `start_removing_client_from_broadcast` with `remove_socket_from_sets`.  The set of ready
descriptors is passed by value, so the caller's copy keeps the removed one. -/
def startRemovingClientFromBroadcast (server : ChatServer) (client : ClientInfo) (closed : Bool)
    (departing : Option Nat) : RemovePc → Input → Option (ClientInfo × Command)
  | .lockServer, .tick => some (client.goto (.remove .lockOnline closed departing), .lock .server)
  | .lockOnline, .tick =>
      some (client.goto (.remove .clear closed departing), .lock .onlineClientsSet)
  | .clear, .tick =>
      some (client.goto (.remove .unlockOnline closed departing), .leaveOnline client.i.toNat)
  | .unlockOnline, .tick =>
      some (client.goto (.remove .lockUsernames closed departing), .unlock .onlineClientsSet)
  | .lockUsernames, .tick =>
      some (client.goto (.remove .delete closed departing), .lock .usernamesHt)
  | .delete, .tick =>
      some (client.goto (.remove .unlockUsernames closed departing),
        .deleteUsername (server.usernamesByFD client.i.toNat) (server.openFD client.i.toNat))
  | .unlockUsernames, .tick =>
      some (client.goto (.remove .release closed departing), .unlock .usernamesHt)
  | .release, .tick =>
      some (client.goto (.remove .unlockServer closed departing), .releaseBroadcast)
  | .unlockServer, .tick => some (client.goto (.gather (.depart closed)), .unlock .server)
  | _, _ => none

/-- `broadcast_message_to_online_clients` -/
def broadcastMessageToOnlineClients (server : ChatServer) (client : ClientInfo) :
    BroadcastPc → Input → Option (ClientInfo × Command)
  -- After a round without bytes the terminator is written in front of the block.
  | .lockServer, .tick =>
      let buffer := if client.totNumBytesRecv = 0 then client.buffer else
        client.buffer.set (client.totNumBytesRecv - 1) 0
      some ({ client with buffer }.goto (.broadcast .lockUsernames), .lock .server)
  | .lockUsernames, .tick =>
      some (client.goto (.broadcast (.send (server.usernamesHt.entries.map Entry.key))),
        .lock .usernamesHt)
  | .send [], .tick => some (client.goto (.broadcast .unlockUsernames), .skip)
  | .send (key :: keys), input =>
      match (hashTableLookup server.usernamesHt (some key)).bind server.clients, input with
      | none, .tick => some (client.goto (.broadcast (.send keys)), .skip)
      | some target, .sent result =>
          some (client.goto (.broadcast (.send keys)),
            .send target.sockFD (CString.text server.commonMsgBuffer) result)
      | _, _ => none
  | .unlockUsernames, .tick =>
      some (client.goto (.broadcast .unlockServer), .unlock .usernamesHt)
  | .unlockServer, .tick => some (client.goto (.gather .lockQuit), .unlock .server)
  | _, _ => none

/-- The first ready descriptor from `i` on. -/
def nextReady (ready : FdSet) (i : Int) : Option Nat :=
  (List.range fdSetSize).find? fun fd => decide (i ≤ fd) && ready fd

/-- `welcome_msg` -/
def welcomeMsg (name : List UInt8) : List UInt8 :=
  literal "Welcome to the broadcast channel, " ++ CString.text name ++ literal "!\n"

/-- `p_client_msg_edited` -/
def clientMsgEdited (name message : List UInt8) : List UInt8 :=
  CString.text name ++ literal "> " ++ CString.text message

/-- `get_messages_from_active_clients` -/
def getMessagesFromActiveClients (server : ChatServer) (session : Nat) (client : ClientInfo) :
    GatherPc → Input → Option (ClientInfo × Command)
  | .welcome, .sent result =>
      let buffer := CString.strncpy [] (welcomeMsg client.name) (welcomeMsg client.name).length
      some ({ client with buffer }.goto (.gather .lockOnline),
        .send client.sockFD (welcomeMsg client.name) result)
  | .lockOnline, .tick => some (client.goto (.gather .join), .lock .onlineClientsSet)
  | .join, .tick => some (client.goto (.gather .unlockOnline), .joinOnline)
  | .unlockOnline, .tick => some (client.goto (.wait .lockServer), .unlock .onlineClientsSet)
  | .snapshot, .tick =>
      some ({ client with ready := server.onlineClients }.goto (.gather .select), .skip)
  | .select, .selected none => some (client, .terminate .exitFailure)
  | .select, .selected (some reported) =>
      some ({ client with ready := fun fd => client.ready fd && reported fd }.goto
        (.gather .reset), .skip)
  | .reset, .tick =>
      some ({ client with totNumBytesRecv := 0, i := 0 }.goto (.gather .scan), .clearCommonMsg)
  | .scan, .tick =>
      match nextReady client.ready client.i with
      | some fd => some ({ client with i := fd }.goto (.gather .receive), .skip)
      | none => some (client.goto (.broadcast .lockServer), .skip)
  | .receive, .received result =>
      let fd := client.i.toNat
      if server.canReceive fd result then
        match result with
        | .error =>
            some ({ client with buffer := [] }.goto (.remove .lockServer false (server.openFD fd)),
              .skip)
        | .closed =>
            some ({ client with buffer := [] }.goto (.remove .lockServer true (server.openFD fd)),
              .skip)
        | .data bytes =>
            some ({ client with
              buffer := bytes
              totNumBytesRecv := client.totNumBytesRecv + bytes.length }.goto
                (.gather .lockCommonMsg), .skip)
      else
        none
  | .lockCommonMsg, .tick => some (client.goto (.gather .append), .lock .commonMsgBuffer)
  | .append, .tick =>
      some (client.goto (.gather .unlockCommonMsg), .appendCommonMsg
        (clientMsgEdited (server.usernamesByFD client.i.toNat) client.buffer))
  | .unlockCommonMsg, .tick =>
      some ({ client with i := client.i + 1 }.goto (.gather .scan), .unlock .commonMsgBuffer)
  | .depart false, .tick =>
      if client.i = client.sockFD then
        some (client.goto .finished, .skip)
      else
        some ({ client with i := client.i + 1 }.goto (.gather .scan), .skip)
  -- `close_socket_with_ptr_if_open(&i)` resets the loop variable before it is compared.
  | .depart true, .tick =>
      if (-1 : Int) = client.sockFD then
        some ({ client with i := -1 }.goto .finished, .closeSocket client.i.toNat)
      else
        some ({ client with i := -1 + 1 }.goto (.gather .scan), .closeSocket client.i.toNat)
  | .lockQuit, .tick => some (client.goto (.gather .readQuit), .lock .quitSignal)
  | .readQuit, .tick =>
      some ({ client with quitSignalVal := server.quitSignal }.goto (.gather .unlockQuit), .skip)
  | .unlockQuit, .tick =>
      if client.quitSignalVal then
        some (client.goto (.gather .lockUsernames), .unlock .quitSignal)
      else
        some (client.goto (.gather .snapshot), .unlock .quitSignal)
  | .lockUsernames, .tick => some (client.goto (.gather .delete), .lock .usernamesHt)
  | .delete, .tick =>
      some (client.goto (.gather .unlockUsernames), .deleteUsername client.name (some session))
  | .unlockUsernames, .tick => some (client.goto .finished, .unlock .usernamesHt)
  | _, _ => none

/-! ## Steps -/

/-- The next access of a thread, with its local state behind it. -/
def next (server : ChatServer) (session : Nat) (client : ClientInfo) (input : Input) :
    Option (ClientInfo × Command) :=
  match client.pc with
  | .prepare pc => server.prepareClientForBroadcastAndStart client pc input
  | .ask pc => server.askAndAssignUsername client pc input
  | .accept pc => acceptAndStoreClientUsername client pc input
  | .gather pc => server.getMessagesFromActiveClients session client pc input
  | .wait pc => server.waitForThreadWork client pc input
  | .remove pc closed departing =>
      server.startRemovingClientFromBroadcast client closed departing pc input
  | .broadcast pc => server.broadcastMessageToOnlineClients client pc input
  | .finished => none
  | .abandoned => none

/-- A mutex can be locked while nobody holds it. -/
def canPerform (server : ChatServer) : Command → Bool
  | .lock mutex => (server.holder mutex).isNone
  | _ => true

/-- The effect of an access on everything but the thread that makes it. -/
def access (server : ChatServer) (session : Nat) (client : ClientInfo) : Command → ChatServer
  | .skip => server
  | .lock mutex => { server with holder := Function.update server.holder mutex (some session) }
  | .unlock mutex => { server with holder := Function.update server.holder mutex none }
  | .firstAllocation => { server with didFirstAllocation := true, isBroadcasting := false }
  | .send _ _ .brokenPipe => { server with terminated := some .brokenPipe }
  | .send _ _ _ => server
  | .insertUsername leftover =>
      { server with
        usernamesHt := (hashTableInsert server.usernamesHt leftover (some (.ofBlock client.name))
          (some session)).2 }
  | .relateUsername =>
      { server with
        usernamesByFD := Function.update server.usernamesByFD client.sockFD
          (CString.strncpy [] client.name maxUsernameLength) }
  | .joinOnline =>
      { server with onlineClients := Function.update server.onlineClients client.sockFD true }
  | .leaveOnline fd =>
      { server with onlineClients := Function.update server.onlineClients fd false }
  | .deleteUsername key departing =>
      { server with
        usernamesHt := (hashTableDeleteElement server.usernamesHt (some (.ofBlock key))).2
        removed := fun other => server.removed other || decide (departing = some other ∧
          hashTableLookup server.usernamesHt (some (.ofBlock key)) = some other) }
  | .claimBroadcast => { server with isBroadcasting := true }
  | .releaseBroadcast => { server with isBroadcasting := false }
  | .closeSocket fd => { server with openFD := Function.update server.openFD fd none }
  -- The block is larger than the part of it that is cleared between two rounds.
  | .clearCommonMsg =>
      { server with
        commonMsgBuffer := CString.clear server.commonMsgBuffer (bufferSize + maxNumClients + 3) }
  | .appendCommonMsg text =>
      { server with commonMsgBuffer := CString.strcat server.commonMsgBuffer text }
  | .terminate reason => { server with terminated := some reason }

/-- Store the local state of a thread and make its access. -/
def perform (server : ChatServer) (session : Nat) (client : ClientInfo) (command : Command) :
    ChatServer :=
  { server.access session client command with
    clients := Function.update server.clients session (some client) }

/-- A connection is accepted and its client handed to a thread. -/
def enroll (server : ChatServer) (session fd : Nat) : ChatServer :=
  { server with
    clients := Function.update server.clients session
      (some { pc := .prepare .lockServer, sockFD := fd })
    openFD := Function.update server.openFD fd (some session) }

/-- What can happen next. -/
inductive Label
  /-- A connection is accepted for a new client. -/
  | acceptConnection (session fd : Nat)
  /-- `close_service` sets the quit signal. -/
  | closeService
  /-- A client thread takes a step. -/
  | run (session : Nat) (input : Input)

/-- The step relation, resolved by labels. -/
def step (server : ChatServer) (label : Label) : Option ChatServer :=
  if server.terminated.isSome then
    none
  else
    match label with
    | .acceptConnection session fd =>
        if (server.clients session).isNone ∧ (server.openFD fd).isNone ∧ fd < fdSetSize then
          some (server.enroll session fd)
        else
          none
    | .closeService => some { server with quitSignal := true }
    | .run session input => do
        let client ← server.clients session
        let (client, command) ← server.next session client input
        if server.canPerform command then some (server.perform session client command) else none

/-- The service before its first client; nobody has written the blocks of `usernames_by_FD_arr`. -/
structure Starts (server : ChatServer) : Prop where
  clients : server.clients = fun _ => none
  openFD : server.openFD = fun _ => none
  holder : server.holder = fun _ => none
  didFirstAllocation : server.didFirstAllocation = false
  usernamesHt : server.usernamesHt = hashTableCreate 1024 murmur3_32Hash
  onlineClients : server.onlineClients = fun _ => false
  quitSignal : server.quitSignal = false
  terminated : server.terminated = none
  removed : server.removed = fun _ => false

end ChatServer

/-- The broadcast chat service as a transition system. -/
def chatService : LabelledSystem ChatServer ChatServer.Label where
  Initial := ChatServer.Starts
  step := ChatServer.step

end CmyMessage
