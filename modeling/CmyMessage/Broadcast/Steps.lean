import CmyMessage.Broadcast.Service
import CmyMessage.Foundation.AscendingScan

/-!
# Inverting a step of the broadcast service

The three kinds of steps, the clients a step leaves behind, and the parts of the shared memory an
access leaves alone.  Proofs about runs use these facts and never unfold the step function.
-/

namespace CmyMessage
namespace ChatServer

/-- Everything a step can be. -/
inductive Steps (server : ChatServer) : Label → ChatServer → Prop
  | accept {session fd : Nat} (fresh : server.clients session = none)
      (free : server.openFD fd = none) (small : fd < fdSetSize) :
      Steps server (.acceptConnection session fd) (server.enroll session fd)
  | close : Steps server .closeService { server with quitSignal := true }
  | run {session : Nat} {input : Input} {client client' : ClientInfo} {command : Command}
      (here : server.clients session = some client)
      (next : server.next session client input = some (client', command))
      (free : server.canPerform command = true) :
      Steps server (.run session input) (server.perform session client' command)

theorem step_cases {server after : ChatServer} {label : Label}
    (step : chatService.step server label = some after) :
    server.terminated = none ∧ server.Steps label after := by
  change server.step label = some after at step
  unfold ChatServer.step at step
  split at step
  · cases step
  · rename_i running
    refine ⟨by simpa using running, ?_⟩
    cases label with
    | acceptConnection session fd =>
        simp only at step
        split at step
        · rename_i enabled
          obtain ⟨fresh, free, small⟩ := enabled
          cases step
          exact .accept (Option.isNone_iff_eq_none.mp fresh) (Option.isNone_iff_eq_none.mp free)
            small
        · cases step
    | closeService =>
        cases step
        exact .close
    | run session input =>
        obtain ⟨client, here, rest⟩ := Option.bind_eq_some_iff.mp step
        obtain ⟨⟨client', command⟩, next, rest⟩ := Option.bind_eq_some_iff.mp rest
        simp only at rest
        split at rest
        · cases rest
          exact .run here next ‹_›
        · cases rest

/-- The step of a thread whose next access is free. -/
theorem run_step {server : ChatServer} {session : Nat} {input : Input}
    {client client' : ClientInfo} {command : Command} (running : server.terminated = none)
    (here : server.clients session = some client)
    (next : server.next session client input = some (client', command))
    (free : server.canPerform command = true) :
    chatService.step server (.run session input) =
      some (server.perform session client' command) := by
  change server.step (.run session input) = _
  simp only [ChatServer.step, running, here, Option.isSome_none, Bool.false_eq_true, if_false,
    Option.bind_eq_bind, Option.bind_some, next, free, if_true]

/-! ## What an access leaves alone -/

section Perform

variable (server : ChatServer) (session : Nat) (client : ClientInfo) (command : Command)

@[simp]
theorem perform_clients : (server.perform session client command).clients =
    Function.update server.clients session (some client) := rfl

theorem perform_didFirstAllocation :
    (server.perform session client command).didFirstAllocation =
      match command with
      | .firstAllocation => true
      | _ => server.didFirstAllocation := by
  rw [perform]
  fun_cases access <;> rfl

theorem perform_isBroadcasting :
    (server.perform session client command).isBroadcasting =
      match command with
      | .firstAllocation => false
      | .claimBroadcast => true
      | .releaseBroadcast => false
      | _ => server.isBroadcasting := by
  rw [perform]
  fun_cases access <;> rfl

theorem perform_openFD :
    (server.perform session client command).openFD =
      match command with
      | .closeSocket fd => Function.update server.openFD fd none
      | _ => server.openFD := by
  rw [perform]
  fun_cases access <;> rfl

theorem perform_holder :
    (server.perform session client command).holder =
      match command with
      | .lock mutex => Function.update server.holder mutex (some session)
      | .unlock mutex => Function.update server.holder mutex none
      | _ => server.holder := by
  rw [perform]
  fun_cases access <;> rfl

theorem perform_usernamesHt :
    (server.perform session client command).usernamesHt =
      match command with
      | .insertUsername leftover =>
          (hashTableInsert server.usernamesHt leftover (some (.ofBlock client.name))
            (some session)).2
      | .deleteUsername key _ =>
          (hashTableDeleteElement server.usernamesHt (some (.ofBlock key))).2
      | _ => server.usernamesHt := by
  rw [perform]
  fun_cases access <;> rfl

theorem perform_usernamesByFD :
    (server.perform session client command).usernamesByFD =
      match command with
      | .relateUsername =>
          Function.update server.usernamesByFD client.sockFD
            (CString.strncpy [] client.name maxUsernameLength)
      | _ => server.usernamesByFD := by
  rw [perform]
  fun_cases access <;> rfl

theorem perform_onlineClients :
    (server.perform session client command).onlineClients =
      match command with
      | .joinOnline => Function.update server.onlineClients client.sockFD true
      | .leaveOnline fd => Function.update server.onlineClients fd false
      | _ => server.onlineClients := by
  rw [perform]
  fun_cases access <;> rfl

theorem perform_commonMsgBuffer :
    (server.perform session client command).commonMsgBuffer =
      match command with
      | .clearCommonMsg =>
          CString.clear server.commonMsgBuffer (bufferSize + maxNumClients + 3)
      | .appendCommonMsg text => CString.strcat server.commonMsgBuffer text
      | _ => server.commonMsgBuffer := by
  rw [perform]
  fun_cases access <;> rfl

theorem perform_removed :
    (server.perform session client command).removed =
      match command with
      | .deleteUsername key departing => fun other =>
          server.removed other || decide (departing = some other ∧
            hashTableLookup server.usernamesHt (some (.ofBlock key)) = some other)
      | _ => server.removed := by
  rw [perform]
  fun_cases access <;> rfl

theorem perform_terminated :
    (server.perform session client command).terminated =
      match command with
      | .terminate reason => some reason
      | .send _ _ .brokenPipe => some .brokenPipe
      | _ => server.terminated := by
  rw [perform]
  fun_cases access <;> simp_all

end Perform

/-- A client found after one was stored is that one, or was there before. -/
theorem update_eq_some {clients : Nat → Option ClientInfo} {session other : Nat}
    {client found : ClientInfo}
    (here : Function.update clients session (some client) other = some found) :
    other = session ∧ found = client ∨ other ≠ session ∧ clients other = some found := by
  by_cases same : other = session
  · subst same
    rw [Function.update_self] at here
    exact .inl ⟨rfl, (Option.some.inj here).symm⟩
  · rw [Function.update_of_ne same] at here
    exact .inr ⟨same, here⟩

/-- A client found behind an accept has just been accepted, or was there before. -/
theorem enroll_cases {server : ChatServer} {newcomer fd session : Nat} {client : ClientInfo}
    (here : (server.enroll newcomer fd).clients session = some client) :
    client.pc = .prepare .lockServer ∨ server.clients session = some client := by
  rcases update_eq_some here with ⟨-, rfl⟩ | ⟨-, old⟩
  · exact .inl rfl
  · exact .inr old

/-- A connection that is open stays open behind an accept. -/
theorem openFD_enroll {server : ChatServer} {newcomer fd other owner : Nat}
    (free : server.openFD fd = none) (isOpen : server.openFD other = some owner) :
    (server.enroll newcomer fd).openFD other = some owner := by
  have different : other ≠ fd := by
    rintro rfl
    rw [free] at isOpen
    cases isOpen
  exact (Function.update_of_ne different _ _).trans isOpen

theorem ne_of_fresh {clients : Nat → Option ClientInfo} {session newcomer : Nat}
    {client : ClientInfo} (fresh : clients newcomer = none)
    (here : clients session = some client) : session ≠ newcomer := by
  rintro rfl
  rw [fresh] at here
  cases here

/-- Whoever is there behind an access was there before, with the same descriptor. -/
theorem before_perform {server : ChatServer} {session other : Nat}
    {client client' found : ClientInfo} {command : Command}
    (here : server.clients session = some client) (sockFD : client'.sockFD = client.sockFD)
    (inside : (server.perform session client' command).clients other = some found) :
    ∃ was, server.clients other = some was ∧ found.sockFD = was.sockFD := by
  rcases update_eq_some inside with ⟨rfl, rfl⟩ | ⟨-, was⟩
  · exact ⟨client, here, sockFD⟩
  · exact ⟨found, was, rfl⟩

theorem after_perform {server : ChatServer} {session other : Nat}
    {client client' was : ClientInfo} (command : Command)
    (here : server.clients session = some client) (sockFD : client'.sockFD = client.sockFD)
    (inside : server.clients other = some was) :
    ∃ found, (server.perform session client' command).clients other = some found ∧
      found.sockFD = was.sockFD := by
  rcases eq_or_ne other session with rfl | different
  · obtain rfl : client = was := Option.some.inj (here.symm.trans inside)
    exact ⟨client', Function.update_self _ _ _, sockFD⟩
  · exact ⟨was, (Function.update_of_ne different _ _).trans inside, rfl⟩

/-- No access makes a client disappear. -/
theorem unknown_perform {server : ChatServer} {session other : Nat} {client : ClientInfo}
    {command : Command} (absent : (server.perform session client command).clients other = none) :
    server.clients other = none := by
  rcases eq_or_ne other session with rfl | different
  · simp at absent
  · exact (Function.update_of_ne different _ _).symm.trans absent

/-! ## The gather loop -/

theorem nextReady_eq (ready : FdSet) (i : Int) :
    nextReady ready i = AscendingScan.next ready fdSetSize i.toNat := by
  have same : (fun fd : Nat => decide (i ≤ fd) && ready fd) =
      fun fd => decide (i.toNat ≤ fd) && ready fd := by
    funext fd
    rw [decide_eq_decide.mpr (Int.toNat_le.symm : i ≤ (fd : Int) ↔ i.toNat ≤ fd)]
  rw [nextReady, AscendingScan.next, same]

section Gather

variable {server : ChatServer} {session : Nat} {client client' : ClientInfo} {command : Command}

/-- The scan goes on to the next ready descriptor, or to the broadcast. -/
theorem scan_next
    (next : server.getMessagesFromActiveClients session client .scan .tick =
      some (client', command)) :
    command = .skip ∧
      ((∃ fd, AscendingScan.next client.ready fdSetSize client.i.toNat = some fd ∧
          client' = { client with i := fd }.goto (.gather .receive)) ∨
        AscendingScan.next client.ready fdSetSize client.i.toNat = none ∧
          client' = client.goto (.broadcast .lockServer)) := by
  unfold getMessagesFromActiveClients at next
  rw [nextReady_eq] at next
  generalize AscendingScan.next client.ready fdSetSize client.i.toNat = chosen at next ⊢
  cases chosen with
  | some fd =>
      cases next
      exact ⟨rfl, .inl ⟨fd, rfl, rfl⟩⟩
  | none =>
      cases next
      exact ⟨rfl, .inr ⟨rfl, rfl⟩⟩

/-- What a `recv` of the gather loop leads to. -/
theorem receive_next {result : RecvResult}
    (next : server.getMessagesFromActiveClients session client .receive (.received result) =
      some (client', command)) :
    server.canReceive client.i.toNat result = true ∧ command = .skip ∧
      (result = .error → client' = { client with buffer := [] }.goto
        (.remove .lockServer false (server.openFD client.i.toNat))) ∧
      (result = .closed → client' = { client with buffer := [] }.goto
        (.remove .lockServer true (server.openFD client.i.toNat))) ∧
      ∀ bytes, result = .data bytes → client' = { client with
        buffer := bytes
        totNumBytesRecv := client.totNumBytesRecv + bytes.length }.goto
          (.gather .lockCommonMsg) := by
  unfold getMessagesFromActiveClients at next
  dsimp only at next
  split at next
  · cases result <;> cases next <;> simp_all
  · cases next

/-- After a removal the loop variable is compared, but on a disconnect it was reset before. -/
theorem depart_next {closed : Bool} {input : Input}
    (next : server.getMessagesFromActiveClients session client (.depart closed) input =
      some (client', command)) :
    closed = false ∧ client.i = client.sockFD ∧ client' = client.goto .finished ∨
      closed = false ∧ client.i ≠ client.sockFD ∧
        client' = { client with i := client.i + 1 }.goto (.gather .scan) ∨
      closed = true ∧ client' = { client with i := 0 }.goto (.gather .scan) := by
  cases closed with
  | false =>
      cases input with
      | tick =>
          unfold getMessagesFromActiveClients at next
          dsimp only at next
          split at next
          · cases next
            exact .inl ⟨rfl, ‹_›, rfl⟩
          · cases next
            exact .inr (.inl ⟨rfl, ‹_›, rfl⟩)
      | _ => cases next
  | true =>
      cases input with
      | tick =>
          unfold getMessagesFromActiveClients at next
          dsimp only at next
          rw [if_neg (by omega)] at next
          cases next
          exact .inr (.inr ⟨rfl, rfl⟩)
      | _ => cases next

/-- A removal keeps the set and the loop variable, and ends where the reason is looked at. -/
theorem removal_keeps {closed : Bool} {departing : Option Nat} {pc : RemovePc} {input : Input}
    (next : server.startRemovingClientFromBroadcast client closed departing pc input =
      some (client', command)) :
    client'.ready = client.ready ∧ client'.i = client.i ∧
      ((∃ pc', client'.pc = .remove pc' closed departing) ∨
        client'.pc = .gather (.depart closed)) := by
  revert next
  fun_cases startRemovingClientFromBroadcast server client closed departing pc input <;>
    rintro ⟨⟩ <;> simp [ClientInfo.goto]

end Gather

/-! ## A start state and a script -/

/-- A service before its first client. -/
def beforeService : ChatServer where
  clients _ := none
  openFD _ := none
  holder _ := none
  didFirstAllocation := false
  isBroadcasting := false
  usernamesHt := hashTableCreate 1024 murmur3_32Hash
  usernamesByFD _ := []
  onlineClients _ := false
  commonMsgBuffer := []
  quitSignal := false
  terminated := none
  removed _ := false

theorem beforeService_starts : chatService.Initial beforeService :=
  ⟨rfl, rfl, rfl, rfl, rfl, rfl, rfl, rfl, rfl⟩

/-- A script that can be executed, whatever its steps are to meet, is a run of the service. -/
theorem executed_reaches {condition : ChatServer → Label → Bool} {labels : List Label}
    {server : ChatServer} (executed : chatService.execute condition beforeService labels =
      some server) : chatService.Reaches server :=
  (LabelledSystem.ReachesVia.execute (.start beforeService_starts) executed).reaches

/-- The client a label brings into the service. -/
def Label.newcomer : Label → Option Nat
  | acceptConnection session _ => some session
  | _ => none

/-- A client connects and its thread has looked up the name it sends. -/
def connectScript (session fd : Nat) (name : List UInt8) : List Label :=
  [.acceptConnection session fd] ++
    [.tick, .allocation true, .tick, .allocation true, .sent .taken,
      .received (.data (name ++ [10])), .tick, .tick, .tick].map (.run session)

/-- A client that found its name free registers and reaches `wait_for_thread_work`. -/
def registerScript (session : Nat) : List Label :=
  [.sent .taken, .tick, .memory [], .tick, .tick, .tick, .tick, .sent .taken, .tick, .tick,
    .tick].map (.run session)

/-- A number of steps that need nothing from the environment. -/
def ticks (session count : Nat) : List Label := List.replicate count (.run session .tick)

/-- Two clients register; the first one's thread broadcasts and the second one's is blocked. -/
def twoClientsScript : List Label :=
  connectScript 1 4 [97] ++ registerScript 1 ++ ticks 1 3 ++
    connectScript 2 5 [98] ++ registerScript 2 ++ ticks 2 2

end ChatServer
end CmyMessage
