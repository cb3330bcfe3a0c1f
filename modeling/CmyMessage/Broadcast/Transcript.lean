import CmyMessage.Broadcast.TotalOrder

/-!
# What the clients are told

The messages the gather loops receive, beside the broadcasts.  While the loops receive strings that
fit their blocks and nobody departs, every broadcast carries the messages heard since the one before
it, in the order in which they were heard and each under the name of the client whose connection it
came from; and no message is cleared away or broadcast twice.
-/

namespace CmyMessage

/-- A message with the client whose connection it came from. -/
structure Utterance where
  /-- The client. -/
  sender : Nat
  /-- The bytes received. -/
  message : List UInt8
  deriving DecidableEq

/-- The broadcasts with a record of the messages received. -/
structure Transcript where
  /-- The service and its broadcasts. -/
  broadcasts : Broadcasts
  /-- The messages received by the gather loops. -/
  heard : List Utterance := []
  /-- The messages each broadcast was begun with. -/
  rounds : List (List Utterance) := []

/-- From the clearing of the common buffer up to the start of the broadcast. -/
def Pc.collecting : Pc → Bool
  | .gather pc =>
      match pc with
      | .scan | .receive | .lockCommonMsg | .append | .unlockCommonMsg => true
      | _ => false
  | .broadcast pc =>
      match pc with
      | .lockServer | .lockUsernames => true
      | _ => false
  | _ => false

/-- The line of the last message was not appended yet. -/
def Pc.pending : Pc → Bool
  | .gather .lockCommonMsg | .gather .append => true
  | _ => false

/-- An access that leaves the common buffer alone. -/
def Command.sparesBuffer : Command → Bool
  | .clearCommonMsg | .appendCommonMsg _ => false
  | _ => true

namespace ChatServer

/-- The name a client was registered under. -/
def nameOf (server : ChatServer) (session : Nat) : List UInt8 :=
  match server.clients session with
  | some client => client.name
  | none => []

/-- `<name>> <message>` for each message. -/
def lines (server : ChatServer) (utterances : List Utterance) : List UInt8 :=
  utterances.flatMap fun utterance =>
    roundLine (server.nameOf utterance.sender) utterance.message

/-- The step belongs to an ordinary round of the thread that makes it: every `recv` of the gather
loop returns data without NUL bytes, and the lines and the terminators fit their blocks. -/
def fitsBlocks (server : ChatServer) (label : Label) : Bool :=
  match label with
  | .run session _ => Round.ordinary { server } session label
  | _ => true

end ChatServer

namespace Transcript

/-- The service. -/
def server (transcript : Transcript) : ChatServer := transcript.broadcasts.server

/-- The messages heard since the last broadcast began. -/
def unsaid (transcript : Transcript) : List Utterance :=
  transcript.heard.drop transcript.rounds.flatten.length

/-- Record a step of a thread. -/
def note (transcript : Transcript) (client : ClientInfo) (input : Input) (after : Broadcasts) :
    Transcript :=
  match client.pc, input with
  | .gather .receive, .received (.data message) =>
      { transcript with
        broadcasts := after
        heard := transcript.heard ++
          (transcript.server.openFD client.i.toNat).toList.map fun sender => { sender, message } }
  | .broadcast .lockUsernames, _ =>
      { transcript with
        broadcasts := after
        rounds := transcript.rounds ++ [transcript.unsaid] }
  | _, _ => { transcript with broadcasts := after }

/-- Record a step. -/
def observe (transcript : Transcript) (label : ChatServer.Label) (after : Broadcasts) :
    Transcript :=
  match label with
  | .run session input =>
      match transcript.server.clients session with
      | none => { transcript with broadcasts := after }
      | some client => transcript.note client input after
  | _ => { transcript with broadcasts := after }

/-- The step is ordinary. -/
def fitsBlocks (transcript : Transcript) (label : ChatServer.Label) : Bool :=
  transcript.server.fitsBlocks label

end Transcript

/-- The broadcast chat service with a record of its messages and broadcasts. -/
def transcripts : LabelledSystem Transcript ChatServer.Label where
  Initial transcript :=
    ∃ server : ChatServer, server.Starts ∧ transcript = { broadcasts := { server } }
  step transcript label :=
    (recordedBroadcasts.step transcript.broadcasts label).map (transcript.observe label)

/-! ## The clients stay -/

namespace ChatServer

/-- The owner of a descriptor has joined, and goes on to own it. -/
theorem OwnerJoined.step {before after : ChatServer} {label : Label} {fd : Nat}
    (joined : before.OwnerJoined fd) (step : chatService.step before label = some after)
    (opened : ∀ owner, before.openFD fd = some owner → after.openFD fd = some owner) :
    after.OwnerJoined fd := by
  obtain ⟨owner, client, isOpen, here, joined⟩ := joined
  obtain ⟨-, steps⟩ := step_cases step
  cases steps with
  | accept fresh free small =>
      exact ⟨owner, client, opened owner isOpen,
        (Function.update_of_ne (ne_of_fresh fresh here) _ _).trans here, joined⟩
  | close => exact ⟨owner, client, isOpen, here, joined⟩
  | @run session input runner runner' command inside next free =>
      rcases eq_or_ne owner session with rfl | different
      · obtain rfl : runner = client := Option.some.inj (inside.symm.trans here)
        exact ⟨owner, runner', opened owner isOpen, Function.update_self _ _ _,
          (next_registry next).joinedStays joined⟩
      · exact ⟨owner, client, opened owner isOpen,
          (Function.update_of_ne different _ _).trans here, joined⟩

/-- Where the gather loop deals with one descriptor. -/
def addressing : Pc → Bool
  | .gather .receive | .gather .lockCommonMsg | .gather .append => true
  | _ => false

theorem ready_of_nextReady {ready : FdSet} {i : Int} {fd : Nat}
    (found : nextReady ready i = some fd) : ready fd = true := by
  have member := List.find?_some found
  simp only [Bool.and_eq_true] at member
  exact member.2

/-- What a step of a thread does to its set of ready descriptors. -/
structure ReadyStep (server : ChatServer) (client client' : ClientInfo) : Prop where
  ready : ∀ fd, client'.ready fd = true → client.ready fd = true ∨ server.onlineClients fd = true
  addresses : addressing client'.pc = true → client'.ready client'.i.toNat = true ∨
    addressing client.pc = true ∧ client'.ready = client.ready ∧ client'.i = client.i

theorem next_ready {server : ChatServer} {session : Nat} {client client' : ClientInfo}
    {input : Input} {command : Command}
    (next : server.next session client input = some (client', command)) :
    server.ReadyStep client client' := by
  revert next
  fun_cases ChatServer.next <;>
    [fun_cases prepareClientForBroadcastAndStart; fun_cases askAndAssignUsername;
      fun_cases acceptAndStoreClientUsername; fun_cases getMessagesFromActiveClients;
      fun_cases waitForThreadWork; fun_cases startRemovingClientFromBroadcast;
      fun_cases broadcastMessageToOnlineClients; skip; skip]
  all_goals rintro ⟨⟩
  all_goals
    constructor <;> simp_all [ClientInfo.goto, addressing]
  rename_i fd found position
  exact ready_of_nextReady found

/-- Whoever a gather loop deals with has joined, under its own descriptor and with its name. -/
structure Attributes (server : ChatServer) : Prop where
  ownership : server.Ownership
  online : ∀ fd, server.onlineClients fd = true → server.OwnerJoined fd
  ready : ∀ session client fd, server.clients session = some client → client.ready fd = true →
    server.OwnerJoined fd
  addressed : ∀ session client, server.clients session = some client →
    addressing client.pc = true → client.ready client.i.toNat = true

theorem Attributes.start {server : ChatServer} (starts : server.Starts) : server.Attributes := by
  refine ⟨.start starts, ?_, ?_, ?_⟩ <;> simp [starts.clients, starts.onlineClients]

/-- No descriptor is closed while nobody departs. -/
theorem Attributes.step {before after : ChatServer} {label : Label} (attributes : before.Attributes)
    (kept : before.RoleKept) (step : chatService.step before label = some after) :
    after.Attributes := by
  have closes : before.ClosesJoined label := by
    intro session input client _ here at_close
    have stays := kept.staying session client here
    rw [at_close] at stays
    cases stays
  have ownership := attributes.ownership.step closes step
  obtain ⟨-, steps⟩ := step_cases step
  cases steps with
  | accept fresh free small =>
      have joined {fd : Nat} (joined : before.OwnerJoined fd) := joined.step step
        fun owner opened => openFD_enroll free opened
      refine ⟨ownership, fun fd online => joined (attributes.online fd online), ?_, ?_⟩
      · intro session client fd here isReady
        rcases update_eq_some here with ⟨-, rfl⟩ | ⟨-, here⟩
        · cases isReady
        · exact joined (attributes.ready session client fd here isReady)
      · intro session client here addresses
        rcases update_eq_some here with ⟨-, rfl⟩ | ⟨-, here⟩
        · cases addresses
        · exact attributes.addressed session client here addresses
  | close =>
      exact ⟨ownership, attributes.online, attributes.ready, attributes.addressed⟩
  | @run session input client client' command here next free =>
      have moved := next_registry next
      have turned := next_ready next
      have opened : (before.perform session client' command).openFD = before.openFD := by
        rw [perform_openFD]
        split
        · rename_i closed
          have stays := kept.staying session client here
          rw [(moved.closes closed rfl).1] at stays
          cases stays
        · rfl
      have joined {fd : Nat} (joined : before.OwnerJoined fd) := joined.step step
        fun owner isOpen => (congrFun opened fd).trans isOpen
      refine ⟨ownership, ?_, ?_, ?_⟩
      · intro fd online
        rw [perform_onlineClients] at online
        split at online
        · rcases eq_or_ne fd client'.sockFD with rfl | other
          · obtain ⟨position, isJoined⟩ := moved.joins rfl
            have owns := attributes.ownership.owns session client here (by rw [position]; rfl)
            rw [← moved.sockFD, ← opened] at owns
            exact ⟨session, client', owns, Function.update_self _ _ _, isJoined⟩
          · rw [Function.update_of_ne other] at online
            exact joined (attributes.online fd online)
        · rename_i left
          rcases eq_or_ne fd left with rfl | other
          · rw [Function.update_self] at online
            cases online
          · rw [Function.update_of_ne other] at online
            exact joined (attributes.online fd online)
        · exact joined (attributes.online fd online)
      · intro other found fd inside isReady
        rcases update_eq_some inside with ⟨rfl, rfl⟩ | ⟨-, inside⟩
        · rcases turned.ready fd isReady with old | online
          · exact joined (attributes.ready _ client fd here old)
          · exact joined (attributes.online fd online)
        · exact joined (attributes.ready other found fd inside isReady)
      · intro other found inside addresses
        rcases update_eq_some inside with ⟨rfl, rfl⟩ | ⟨-, inside⟩
        · rcases turned.addresses addresses with isReady | ⟨was, ready, same⟩
          · exact isReady
          · rw [ready, same]
            exact attributes.addressed _ client here was
        · exact attributes.addressed other found inside addresses

/-! ## The common buffer -/

/-- What a step of a thread does to the messages it collects. -/
inductive CollectStep (server : ChatServer) (client client' : ClientInfo) (input : Input)
    (command : Command) : Prop
  | clears (position : client.pc = .gather .reset) (moves : client'.pc = .gather .scan)
      (clears : command = .clearCommonMsg)
  | goesOn (position : client.pc.collecting = true ∧ client.pc.pending = false)
      (moves : client'.pc.collecting = true ∧ client'.pc.pending = false)
      (apart : client.pc ≠ .gather .receive ∧ client.pc ≠ .broadcast .lockUsernames)
      (spares : command.sparesBuffer = true)
  | hears {message : List UInt8} (position : client.pc = .gather .receive)
      (receives : input = .received (.data message))
      (opened : (server.openFD client.i.toNat).isSome = true)
      (moves : client'.pc = .gather .lockCommonMsg) (buffer : client'.buffer = message)
      (keeps : client'.i = client.i) (spares : command.sparesBuffer = true)
  | locks (position : client.pc = .gather .lockCommonMsg) (moves : client'.pc = .gather .append)
      (buffer : client'.buffer = client.buffer) (keeps : client'.i = client.i)
      (spares : command.sparesBuffer = true)
  | appends (position : client.pc = .gather .append) (moves : client'.pc = .gather .unlockCommonMsg)
      (appends : command = .appendCommonMsg
        (clientMsgEdited (server.usernamesByFD client.i.toNat) client.buffer))
  | speaks (position : client.pc = .broadcast .lockUsernames)
      (moves : client'.pc.collecting = false) (spares : command.sparesBuffer = true)
  | elsewhere (position : client.pc.collecting = false) (stays : client'.pc.collecting = false)
      (spares : command.sparesBuffer = true)

theorem gather_collect {server : ChatServer} {session : Nat} {client client' : ClientInfo}
    {pc : GatherPc} {input : Input} {command : Command} (position : client.pc = .gather pc)
    (receives : client.pc = .gather .receive → ∃ message, input = .received (.data message))
    (staying : client.pc.departing = false)
    (next : server.getMessagesFromActiveClients session client pc input =
      some (client', command)) : server.CollectStep client client' input command := by
  revert next
  fun_cases getMessagesFromActiveClients <;> rintro ⟨⟩
  all_goals try simp [position, Pc.departing] at staying receives
  all_goals first
    | exact .elsewhere (by rw [position]; rfl) rfl rfl
    | exact .elsewhere (by rw [position]; rfl) (by rw [position]; rfl) rfl
    | exact .clears position rfl rfl
    | exact .goesOn (by rw [position]; exact ⟨rfl, rfl⟩) ⟨rfl, rfl⟩ (by simp [position]) rfl
    | exact .locks position rfl rfl rfl rfl
    | exact .appends position rfl rfl
    | skip
  · rename_i possible
    refine .hears position rfl ?_ rfl rfl rfl rfl
    simp [canReceive] at possible
    exact possible.2

/-- Outside of the two functions that collect and broadcast nothing is collected. -/
theorem outside_collect {server : ChatServer} {session : Nat} {client client' : ClientInfo}
    {input : Input} {command : Command}
    (next : server.next session client input = some (client', command))
    (noGather : ∀ pc, client.pc ≠ .gather pc) (noBroadcast : ∀ pc, client.pc ≠ .broadcast pc) :
    client'.pc.collecting = false ∧ command.sparesBuffer = true := by
  revert next
  fun_cases ChatServer.next <;>
    [fun_cases prepareClientForBroadcastAndStart; fun_cases askAndAssignUsername;
      fun_cases acceptAndStoreClientUsername; fun_cases getMessagesFromActiveClients;
      fun_cases waitForThreadWork; fun_cases startRemovingClientFromBroadcast;
      fun_cases broadcastMessageToOnlineClients; skip; skip]
  all_goals rintro ⟨⟩
  all_goals simp_all [ClientInfo.goto, Pc.collecting, Command.sparesBuffer]

theorem next_collect {server : ChatServer} {session : Nat} {client client' : ClientInfo}
    {input : Input} {command : Command}
    (receives : client.pc = .gather .receive → ∃ message, input = .received (.data message))
    (staying : client.pc.departing = false)
    (next : server.next session client input = some (client', command)) :
    server.CollectStep client client' input command := by
  cases position : client.pc with
  | gather pc =>
      rw [ChatServer.next, position] at next
      exact gather_collect position receives staying next
  | broadcast pc =>
      rw [ChatServer.next, position] at next
      revert next
      dsimp only
      fun_cases broadcastMessageToOnlineClients <;> rintro ⟨⟩
      all_goals first
        | exact .elsewhere (by rw [position]; rfl) rfl rfl
        | exact .goesOn (by rw [position]; exact ⟨rfl, rfl⟩) ⟨rfl, rfl⟩ (by simp [position]) rfl
        | exact .speaks position rfl rfl
  | _ =>
      obtain ⟨stays, spares⟩ := outside_collect next (by simp [position]) (by simp [position])
      exact .elsewhere (by rw [position]; rfl) stays spares

theorem commonMsgBuffer_spared (server : ChatServer) (session : Nat) (client : ClientInfo)
    {command : Command} (spares : command.sparesBuffer = true) :
    (server.perform session client command).commonMsgBuffer = server.commonMsgBuffer := by
  rw [perform_commonMsgBuffer]
  split
  · cases spares
  · cases spares
  · rfl

/-! ## Names and lines -/

/-- The client was told that its name is accepted. -/
def Told (server : ChatServer) (session : Nat) : Prop :=
  ∃ client, server.clients session = some client ∧ client.pc.told

/-- A name stays as it is once it was accepted. -/
theorem nameOf_step {before after : ChatServer} {label : Label} {session : Nat}
    (told : before.Told session) (step : chatService.step before label = some after) :
    after.Told session ∧ after.nameOf session = before.nameOf session := by
  obtain ⟨client, here, told⟩ := told
  obtain ⟨-, steps⟩ := step_cases step
  have still (server : ChatServer) (same : server.clients session = before.clients session) :
      server.Told session ∧ server.nameOf session = before.nameOf session :=
    ⟨⟨client, same.trans here, told⟩, by rw [nameOf, nameOf, same]⟩
  cases steps with
  | accept fresh free small =>
      exact still _ (Function.update_of_ne (ne_of_fresh fresh here) _ _)
  | close => exact still _ rfl
  | @run runner input was client' command inside next free =>
      rcases eq_or_ne session runner with rfl | different
      · obtain rfl : was = client := Option.some.inj (inside.symm.trans here)
        obtain ⟨told', name⟩ := (next_registry next).told told
        refine ⟨⟨client', Function.update_self _ _ _, told'⟩, ?_⟩
        rw [nameOf, nameOf, here, perform_clients, Function.update_self]
        exact name
      · exact still _ (Function.update_of_ne different _ _)

theorem lines_step {before after : ChatServer} {label : Label} {utterances : List Utterance}
    (told : ∀ utterance ∈ utterances, before.Told utterance.sender)
    (step : chatService.step before label = some after) :
    after.lines utterances = before.lines utterances := by
  refine List.flatMap_congr fun utterance member => ?_
  rw [(nameOf_step (told utterance member) step).2]

/-- The line of a message carries the name of the client it came from. -/
theorem Attributes.text_line {server : ChatServer} (attributes : server.Attributes)
    (names : server.NamesShort) {fd sender : Nat} {message : List UInt8}
    (joined : server.OwnerJoined fd) (opened : server.openFD fd = some sender)
    (nonzero : 0 ∉ message) :
    CString.text (clientMsgEdited (server.usernamesByFD fd) message) =
      server.lines [⟨sender, message⟩] := by
  obtain ⟨owner, client, isOpen, here, joined⟩ := joined
  obtain rfl : sender = owner := Option.some.inj (opened.symm.trans isOpen)
  obtain ⟨client', here', rfl⟩ := attributes.ownership.owner fd sender opened
  obtain rfl : client = client' := Option.some.inj (here.symm.trans here')
  have related := Pc.related_of_joined joined
  obtain ⟨buffer, stored⟩ := names.stored sender client here
    (Pc.told_of_inserted (Pc.inserted_of_related related))
  have named : CString.text (server.usernamesByFD client.sockFD) = CString.text client.name := by
    rw [attributes.ownership.named sender client here related opened, stored]
    exact text_relatedName buffer
  have name : server.nameOf sender = client.name := by rw [nameOf, here]
  rw [text_roundLine _ nonzero, lines, List.flatMap_cons, List.flatMap_nil, List.append_nil, name,
    roundLine, roundLine, named]

theorem OwnerJoined.told {server : ChatServer} {fd owner : Nat} (joined : server.OwnerJoined fd)
    (opened : server.openFD fd = some owner) : server.Told owner := by
  obtain ⟨other, client, isOpen, here, joined⟩ := joined
  obtain rfl : owner = other := Option.some.inj (opened.symm.trans isOpen)
  exact ⟨client, here, Pc.told_of_inserted (Pc.inserted_of_related (Pc.related_of_joined joined))⟩

/-- What the common buffer holds of the messages heard since the last broadcast began. -/
def Collected (server : ChatServer) (client : ClientInfo) (unsaid : List Utterance) : Prop :=
  if client.pc.pending then
    ∃ earlier sender, unsaid = earlier ++ [⟨sender, client.buffer⟩] ∧
      server.openFD client.i.toNat = some sender ∧ 0 ∉ client.buffer ∧
      CString.text server.commonMsgBuffer = server.lines earlier
  else CString.text server.commonMsgBuffer = server.lines unsaid

end ChatServer

namespace Transcript

/-! ## Steps -/

@[simp]
theorem note_broadcasts (transcript : Transcript) (client : ClientInfo) (input : Input)
    (after : Broadcasts) : (transcript.note client input after).broadcasts = after := by
  fun_cases note <;> rfl

theorem observe_run {transcript : Transcript} {session : Nat} {input : Input} {client : ClientInfo}
    (here : transcript.server.clients session = some client) (after : Broadcasts) :
    transcript.observe (.run session input) after = transcript.note client input after := by
  rw [observe, here]

theorem step_broadcasts {before after : Transcript} {label : ChatServer.Label}
    (step : transcripts.step before label = some after) :
    recordedBroadcasts.step before.broadcasts label = some after.broadcasts ∧
      after = before.observe label after.broadcasts := by
  obtain ⟨broadcasts, stepped, rfl⟩ := Option.map_eq_some_iff.mp step
  have keeps : (before.observe label broadcasts).broadcasts = broadcasts := by
    fun_cases observe before label broadcasts with
    | case1 => rfl
    | case2 => exact note_broadcasts _ _ _ _
    | case3 => rfl
  exact ⟨keeps.symm ▸ stepped, by rw [keeps]⟩

/-- A step at which nothing is heard and no broadcast begins. -/
theorem note_quiet {transcript : Transcript} {client : ClientInfo} (input : Input)
    (after : Broadcasts)
    (apart : client.pc ≠ .gather .receive ∧ client.pc ≠ .broadcast .lockUsernames) :
    transcript.note client input after = { transcript with broadcasts := after } := by
  fun_cases note <;> simp_all

theorem texts_extend {record : Broadcasts} {client : ClientInfo} (session : Nat)
    (command : Command) (after : ChatServer) (apart : client.pc ≠ .broadcast .lockUsernames) :
    (record.extend session client command after).texts = record.texts := by
  fun_cases Broadcasts.extend <;> first | rfl | contradiction

/-! ## The invariant -/

/-- Every broadcast so far was begun with the lines of its messages, and the common buffer holds the
lines of those heard since. -/
structure Keeps (transcript : Transcript) : Prop where
  attributes : transcript.server.Attributes
  told : ∀ utterance ∈ transcript.heard, transcript.server.Told utterance.sender
  whole : transcript.rounds.flatten <+: transcript.heard
  collected : ∀ session client, transcript.server.clients session = some client →
    client.pc.collecting → transcript.server.Collected client transcript.unsaid
  settled : (∀ session client, transcript.server.clients session = some client →
    client.pc.collecting = false) → transcript.unsaid = []
  spoken : transcript.broadcasts.texts = transcript.rounds.map transcript.server.lines

theorem Keeps.start {server : ChatServer} (starts : server.Starts) :
    Keeps { broadcasts := { server } } where
  attributes := .start starts
  told := by simp
  whole := List.prefix_rfl
  collected := by simp [Transcript.server, starts.clients]
  settled _ := rfl
  spoken := rfl

theorem Keeps.heard_eq {transcript : Transcript} (keeps : transcript.Keeps) :
    transcript.rounds.flatten ++ transcript.unsaid = transcript.heard := by
  obtain ⟨rest, whole⟩ := keeps.whole
  rw [unsaid, ← whole, List.drop_left]

theorem inLoop_of_collecting {pc : Pc} (collects : pc.collecting) : pc.inLoop := by
  revert collects
  fun_cases Pc.collecting pc <;> simp [Pc.inLoop]

section Step

variable {transcript : Transcript} {session : Nat} {client client' : ClientInfo} {input : Input}
  {command : Command}

/-- While one thread collects, no other thread that holds the role does. -/
theorem Keeps.alone {server : ChatServer} (kept : server.RoleKept)
    (here : server.clients session = some client) (loops : client.pc.inLoop) {other : Nat}
    {found : ClientInfo} (inside : server.clients other = some found)
    (collects : found.pc.collecting) : other = session := by
  apply kept.unique other session found client inside here
  · rw [Pc.holdsRole, inLoop_of_collecting collects, Bool.true_or]
  · rw [Pc.holdsRole, loops, Bool.true_or]

/-- A service in which every client went on with its name and its connection. -/
structure Succeeds (before after : ChatServer) : Prop where
  attributes : after.Attributes
  opened : ∀ fd owner, before.openFD fd = some owner → after.openFD fd = some owner
  told : ∀ sender, before.Told sender → after.Told sender
  lines : ∀ utterances : List Utterance, (∀ utterance ∈ utterances, before.Told utterance.sender) →
    after.lines utterances = before.lines utterances

/-- The service behind an access, in a run in which nobody departs. -/
structure Access (transcript : Transcript) (session : Nat) (client client' : ClientInfo)
    (command : Command) (after : ChatServer) : Prop extends
    Succeeds transcript.server after where
  kept : transcript.server.RoleKept
  here : transcript.server.clients session = some client
  performed : after = transcript.server.perform session client' command

/-- A thread that collects goes on with a buffer and a message that did not change. -/
theorem Keeps.congr {after : ChatServer} (keeps : transcript.Keeps)
    (succeeds : Succeeds transcript.server after) {found : ClientInfo} {unsaid : List Utterance}
    (member : ∀ utterance ∈ unsaid, utterance ∈ transcript.heard)
    (buffer : after.commonMsgBuffer = transcript.server.commonMsgBuffer)
    (collected : transcript.server.Collected found unsaid) : after.Collected found unsaid := by
  rw [ChatServer.Collected] at collected ⊢
  split at collected
  · rename_i pending
    obtain ⟨earlier, sender, rfl, opened, nonzero, text⟩ := collected
    have same := succeeds.lines earlier fun utterance inside =>
      keeps.told utterance (member utterance (List.mem_append_left _ inside))
    rw [if_pos pending, buffer]
    exact ⟨earlier, sender, rfl, succeeds.opened _ _ opened, nonzero, same.symm ▸ text⟩
  · rename_i gathered
    rw [if_neg gathered, buffer, succeeds.lines unsaid fun utterance inside =>
      keeps.told utterance (member utterance inside)]
    exact collected

theorem Keeps.mem_heard (keeps : transcript.Keeps) {utterance : Utterance} :
    utterance ∈ transcript.heard ↔
      utterance ∈ transcript.rounds.flatten ∨ utterance ∈ transcript.unsaid := by
  rw [← keeps.heard_eq, List.mem_append]

/-- The lines of the broadcasts so far stay as they are. -/
theorem Keeps.spoken_step {after : ChatServer} (keeps : transcript.Keeps)
    (succeeds : Succeeds transcript.server after) :
    transcript.rounds.map after.lines = transcript.rounds.map transcript.server.lines := by
  refine List.map_congr_left fun round member => succeeds.lines round fun utterance inside => ?_
  have said := List.mem_flatten.mpr ⟨round, member, inside⟩
  exact keeps.told utterance (keeps.mem_heard.mpr (.inl said))

/-- A step at which nothing is heard and no broadcast begins. -/
theorem Keeps.quiet (keeps : transcript.Keeps) {broadcasts : Broadcasts}
    (access : transcript.Access session client client' command broadcasts.server)
    (texts : broadcasts.texts = transcript.broadcasts.texts)
    (mine : client'.pc.collecting → broadcasts.server.Collected client' transcript.unsaid)
    (others : ∀ other found, other ≠ session → transcript.server.clients other = some found →
      found.pc.collecting →
        broadcasts.server.commonMsgBuffer = transcript.server.commonMsgBuffer)
    (settles : client'.pc.collecting = false → client.pc.collecting = false) :
    Keeps { transcript with broadcasts } where
  attributes := access.attributes
  told utterance member := access.told _ (keeps.told utterance member)
  whole := keeps.whole
  collected := by
    intro other found inside collects
    change broadcasts.server.clients other = some found at inside
    rw [access.performed] at inside
    rcases ChatServer.update_eq_some inside with ⟨rfl, rfl⟩ | ⟨different, was⟩
    · exact mine collects
    · exact keeps.congr access.toSucceeds (fun _ member => keeps.mem_heard.mpr (.inr member))
        (others other found different was collects) (keeps.collected other found was collects)
  settled := by
    intro nobody
    change ∀ other found, broadcasts.server.clients other = some found → _ at nobody
    rw [access.performed] at nobody
    refine keeps.settled fun other found inside => ?_
    rcases eq_or_ne other session with rfl | different
    · obtain rfl : client = found := Option.some.inj (access.here.symm.trans inside)
      exact settles (nobody other client' (Function.update_self _ _ _))
    · exact nobody other found ((Function.update_of_ne different _ _).trans inside)
  spoken := texts.trans (keeps.spoken.trans (keeps.spoken_step access.toSucceeds).symm)

/-- A message is heard from the connection of a client that has joined. -/
theorem Keeps.hears (keeps : transcript.Keeps) {broadcasts : Broadcasts} {sender : Nat}
    {message : List UInt8}
    (access : transcript.Access session client client' command broadcasts.server)
    (texts : broadcasts.texts = transcript.broadcasts.texts)
    (position : client.pc = .gather .receive) (moves : client'.pc = .gather .lockCommonMsg)
    (buffer : client'.buffer = message) (same : client'.i = client.i) (nonzero : 0 ∉ message)
    (opened : transcript.server.openFD client.i.toNat = some sender)
    (common : broadcasts.server.commonMsgBuffer = transcript.server.commonMsgBuffer) :
    Keeps { transcript with broadcasts, heard := transcript.heard ++ [⟨sender, message⟩] } := by
  have joined := keeps.attributes.ready session client _ access.here
    (keeps.attributes.addressed session client access.here (by rw [position]; rfl))
  have unsaid_eq : unsaid { transcript with
      broadcasts, heard := transcript.heard ++ [⟨sender, message⟩] } =
        transcript.unsaid ++ [⟨sender, message⟩] := by
    rw [unsaid, unsaid, List.drop_append_of_le_length keeps.whole.length_le]
  have gathered := keeps.collected session client access.here (by rw [position]; rfl)
  rw [ChatServer.Collected, if_neg (by rw [position]; exact Bool.false_ne_true)] at gathered
  refine ⟨access.attributes, ?_, keeps.whole.trans (List.prefix_append _ _), ?_, ?_,
    texts.trans (keeps.spoken.trans (keeps.spoken_step access.toSucceeds).symm)⟩
  · intro utterance member
    rcases List.mem_append.mp member with old | new
    · exact access.told _ (keeps.told utterance old)
    · rw [List.mem_singleton.mp new]
      exact access.told _ (joined.told opened)
  · intro other found inside collects
    change broadcasts.server.clients other = some found at inside
    rw [access.performed] at inside
    rcases ChatServer.update_eq_some inside with ⟨rfl, rfl⟩ | ⟨different, was⟩
    · rw [unsaid_eq, ChatServer.Collected, if_pos (by rw [moves]; rfl)]
      refine ⟨transcript.unsaid, sender, by rw [buffer], ?_, buffer ▸ nonzero, ?_⟩
      · rw [same]
        exact access.opened _ _ opened
      · have lines := access.lines transcript.unsaid fun utterance member =>
          keeps.told utterance (keeps.mem_heard.mpr (.inr member))
        exact (congrArg CString.text common).trans (gathered.trans lines.symm)
    · exact absurd (Keeps.alone access.kept access.here (by rw [position]; rfl) was collects)
        different
  · intro nobody
    change ∀ other found, broadcasts.server.clients other = some found → _ at nobody
    rw [access.performed] at nobody
    have collects := nobody session client' (Function.update_self _ _ _)
    rw [moves] at collects
    cases collects

/-- A broadcast begins with everything heard since the last one. -/
theorem Keeps.speaks (keeps : transcript.Keeps) {broadcasts : Broadcasts}
    (access : transcript.Access session client client' command broadcasts.server)
    (position : client.pc = .broadcast .lockUsernames) (moves : client'.pc.collecting = false)
    (texts : broadcasts.texts = transcript.broadcasts.texts ++
      [CString.text transcript.server.commonMsgBuffer]) :
    Keeps { transcript with broadcasts, rounds := transcript.rounds ++ [transcript.unsaid] } := by
  have flat : (transcript.rounds ++ [transcript.unsaid]).flatten = transcript.heard := by
    rw [List.flatten_append, List.flatten_singleton]
    exact keeps.heard_eq
  have nothing : unsaid { transcript with
      broadcasts, rounds := transcript.rounds ++ [transcript.unsaid] } = [] := by
    rw [unsaid, flat, List.drop_length]
  have gathered := keeps.collected session client access.here (by rw [position]; rfl)
  rw [ChatServer.Collected, if_neg (by rw [position]; exact Bool.false_ne_true)] at gathered
  refine ⟨access.attributes, fun utterance member => access.told _ (keeps.told utterance member),
    flat ▸ List.prefix_rfl, ?_, fun _ => nothing, ?_⟩
  · intro other found inside collects
    change broadcasts.server.clients other = some found at inside
    rw [access.performed] at inside
    rcases ChatServer.update_eq_some inside with ⟨rfl, rfl⟩ | ⟨different, was⟩
    · rw [moves] at collects
      cases collects
    · exact absurd (Keeps.alone access.kept access.here (by rw [position]; rfl) was collects)
        different
  · have lines := access.lines transcript.unsaid fun utterance member =>
      keeps.told utterance (keeps.mem_heard.mpr (.inr member))
    rw [List.map_append, List.map_singleton, texts, keeps.spoken, gathered]
    exact congrArg₂ (· ++ ·) (keeps.spoken_step access.toSucceeds).symm (by rw [← lines]; rfl)

end Step

section Run

variable {transcript : Transcript} {session : Nat} {client client' : ClientInfo} {input : Input}
  {command : Command} {broadcasts : Broadcasts}

/-- The thread that is about to clear the common buffer finds everything said. -/
theorem Keeps.clears (keeps : transcript.Keeps)
    (access : transcript.Access session client client' command broadcasts.server)
    (texts : broadcasts.texts = transcript.broadcasts.texts)
    (position : client.pc = .gather .reset) (moves : client'.pc = .gather .scan)
    (clears : command = .clearCommonMsg) : Keeps { transcript with broadcasts } := by
  have alone {other : Nat} {found : ClientInfo}
      (inside : transcript.server.clients other = some found) (collects : found.pc.collecting) :
      other = session :=
    Keeps.alone access.kept access.here (by rw [position]; rfl) inside collects
  have said : transcript.unsaid = [] := by
    refine keeps.settled fun other found inside => ?_
    by_contra collects
    obtain rfl := alone inside (Bool.eq_true_of_not_eq_false collects)
    obtain rfl : client = found := Option.some.inj (access.here.symm.trans inside)
    rw [position] at collects
    exact collects rfl
  refine keeps.quiet access texts ?_ ?_ ?_
  · intro _
    rw [said, ChatServer.Collected, if_neg (by rw [moves]; exact Bool.false_ne_true),
      access.performed, ChatServer.perform_commonMsgBuffer, clears]
    exact CString.text_clear _ (by decide)
  · intro other found different inside collects
    exact absurd (alone inside collects) different
  · intro stays
    rw [moves] at stays
    cases stays

/-- The line of the last message is appended. -/
theorem Keeps.appends (keeps : transcript.Keeps) (names : transcript.server.NamesShort)
    (access : transcript.Access session client client' command broadcasts.server)
    (texts : broadcasts.texts = transcript.broadcasts.texts)
    (position : client.pc = .gather .append) (moves : client'.pc = .gather .unlockCommonMsg)
    (appends : command = .appendCommonMsg (ChatServer.clientMsgEdited
      (transcript.server.usernamesByFD client.i.toNat) client.buffer)) :
    Keeps { transcript with broadcasts } := by
  have pending := keeps.collected session client access.here (by rw [position]; rfl)
  rw [ChatServer.Collected, if_pos (by rw [position]; rfl)] at pending
  obtain ⟨earlier, sender, split, opened, nonzero, text⟩ := pending
  have joined := keeps.attributes.ready session client _ access.here
    (keeps.attributes.addressed session client access.here (by rw [position]; rfl))
  refine keeps.quiet access texts ?_ ?_ ?_
  · intro _
    have lines := access.lines transcript.unsaid fun utterance member =>
      keeps.told utterance (keeps.mem_heard.mpr (.inr member))
    rw [ChatServer.Collected, if_neg (by rw [moves]; exact Bool.false_ne_true), lines,
      access.performed, ChatServer.perform_commonMsgBuffer, appends]
    rw [CString.text_strcat, text, keeps.attributes.text_line names joined opened nonzero, split,
      ChatServer.lines, ChatServer.lines, ChatServer.lines, List.flatMap_append]
  · intro other found different inside collects
    exact absurd (Keeps.alone access.kept access.here (by rw [position]; rfl) inside collects)
      different
  · intro stays
    rw [moves] at stays
    cases stays

/-- A step that leaves the common buffer alone and keeps what the thread has collected. -/
theorem Keeps.spares (keeps : transcript.Keeps)
    (access : transcript.Access session client client' command broadcasts.server)
    (texts : broadcasts.texts = transcript.broadcasts.texts) (spares : command.sparesBuffer = true)
    (same : client'.pc.collecting → client.pc.collecting ∧ client'.pc.pending = client.pc.pending ∧
      (client.pc.pending → client'.buffer = client.buffer ∧ client'.i = client.i))
    (settles : client'.pc.collecting = false → client.pc.collecting = false) :
    Keeps { transcript with broadcasts } := by
  have buffer : broadcasts.server.commonMsgBuffer = transcript.server.commonMsgBuffer := by
    rw [access.performed]
    exact ChatServer.commonMsgBuffer_spared _ _ _ spares
  refine keeps.quiet access texts (fun collects => ?_) (fun _ _ _ _ _ => buffer) settles
  obtain ⟨collected, pending, unchanged⟩ := same collects
  have went := keeps.congr access.toSucceeds (fun _ member => keeps.mem_heard.mpr (.inr member))
    buffer (keeps.collected session client access.here collected)
  rw [ChatServer.Collected] at went ⊢
  rw [pending]
  split at went
  · obtain ⟨sameBuffer, sameI⟩ := unchanged ‹_›
    rw [if_pos ‹_›, sameBuffer, sameI]
    exact went
  · rw [if_neg ‹_›]
    exact went

end Run

theorem Keeps.succeeds {before : Transcript} {after : ChatServer} {label : ChatServer.Label}
    (keeps : before.Keeps) (uniform : before.broadcasts.Uniform)
    (stepped : chatService.step before.server label = some after)
    (opened : ∀ fd owner, before.server.openFD fd = some owner → after.openFD fd = some owner) :
    Succeeds before.server after where
  attributes := keeps.attributes.step uniform.kept stepped
  opened := opened
  told _ told := (ChatServer.nameOf_step told stepped).1
  lines _ told := ChatServer.lines_step told stepped

/-- A step of a thread. -/
theorem Keeps.run {transcript : Transcript} {session : Nat} {client client' : ClientInfo}
    {input : Input} {command : Command} {broadcasts : Broadcasts} (keeps : transcript.Keeps)
    (names : transcript.server.NamesShort)
    (access : transcript.Access session client client' command broadcasts.server)
    (fits : transcript.fitsBlocks (.run session input) = true)
    (texts : client.pc ≠ .broadcast .lockUsernames →
      broadcasts.texts = transcript.broadcasts.texts)
    (begins : client.pc = .broadcast .lockUsernames → broadcasts.texts =
      transcript.broadcasts.texts ++ [CString.text transcript.server.commonMsgBuffer])
    (next : transcript.server.next session client input = some (client', command)) :
    (transcript.note client input broadcasts).Keeps := by
  have ordinary : Round.ordinary { server := transcript.server } session (.run session input) =
      true := fits
  have receives (position : client.pc = .gather .receive) :
      ∃ message, input = .received (.data message) ∧ 0 ∉ message :=
    Round.receives_string access.here position ordinary
  have data (position : client.pc = .gather .receive) :
      ∃ message, input = .received (.data message) :=
    (receives position).imp fun _ received => received.1
  cases ChatServer.next_collect data (access.kept.staying session client access.here) next with
  | clears position moves clears =>
      rw [note_quiet _ _ (by simp [position])]
      exact keeps.clears access (texts (by simp [position])) position moves clears
  | goesOn position moves apart spares =>
      rw [note_quiet _ _ apart]
      refine keeps.spares access (texts apart.2) spares (fun _ => ⟨position.1, ?_, ?_⟩) ?_
      · rw [position.2, moves.2]
      · rw [position.2]
        intro pending
        cases pending
      · rw [moves.1]
        intro stays
        cases stays
  | @hears message position received opened moves buffer same spares =>
      obtain ⟨other, isOther, nonzero⟩ := receives position
      obtain rfl : message = other := by
        rw [received] at isOther
        simpa using isOther
      obtain ⟨sender, owned⟩ := Option.isSome_iff_exists.mp opened
      have common : broadcasts.server.commonMsgBuffer = transcript.server.commonMsgBuffer := by
        rw [access.performed]
        exact ChatServer.commonMsgBuffer_spared _ _ _ spares
      have noted : transcript.note client input broadcasts = { transcript with
          broadcasts, heard := transcript.heard ++ [⟨sender, message⟩] } := by
        simp only [note, position, received, owned, Option.toList_some, List.map_cons, List.map_nil]
      rw [noted]
      exact keeps.hears access (texts (by simp [position])) position moves buffer same nonzero owned
        common
  | locks position moves buffer same spares =>
      rw [note_quiet _ _ (by simp [position])]
      refine keeps.spares access (texts (by simp [position])) spares
        (fun _ => ⟨by rw [position]; rfl, by rw [position, moves]; rfl, fun _ => ⟨buffer, same⟩⟩) ?_
      rw [moves]
      intro stays
      cases stays
  | appends position moves appends =>
      rw [note_quiet _ _ (by simp [position])]
      exact keeps.appends names access (texts (by simp [position])) position moves appends
  | speaks position moves spares =>
      have noted : transcript.note client input broadcasts = { transcript with
          broadcasts, rounds := transcript.rounds ++ [transcript.unsaid] } := by
        simp only [note, position]
      rw [noted]
      exact keeps.speaks access position moves (begins position)
  | elsewhere position stays spares =>
      have apart : client.pc ≠ .gather .receive ∧ client.pc ≠ .broadcast .lockUsernames := by
        constructor <;> intro same <;> rw [same] at position <;> cases position
      rw [note_quiet _ _ apart]
      refine keeps.spares access (texts apart.2) spares ?_ fun _ => position
      rw [stays]
      intro collects
      cases collects

theorem Keeps.step {before after : Transcript} {label : ChatServer.Label} (keeps : before.Keeps)
    (names : before.server.NamesShort) (uniform : before.broadcasts.Uniform)
    (fits : before.fitsBlocks label = true)
    (step : transcripts.step before label = some after) : after.Keeps := by
  obtain ⟨stepped, observed⟩ := step_broadcasts step
  obtain ⟨served, steps⟩ := Broadcasts.step_cases stepped
  have succeeds := keeps.succeeds uniform served
  rw [observed]
  generalize after.broadcasts = broadcasts at *
  cases steps with
  | @accept newcomer fd fresh free =>
      have follows := succeeds fun _ _ opened => ChatServer.openFD_enroll free opened
      refine ⟨follows.attributes, fun utterance member => follows.told _
        (keeps.told utterance member), keeps.whole, ?_, ?_,
        keeps.spoken.trans (keeps.spoken_step follows).symm⟩
      · intro session client inside collects
        rcases ChatServer.update_eq_some inside with ⟨-, rfl⟩ | ⟨-, inside⟩
        · cases collects
        · exact keeps.congr follows (fun _ member => keeps.mem_heard.mpr (.inr member)) rfl
            (keeps.collected session client inside collects)
      · intro nobody
        refine keeps.settled fun session client inside => nobody session client ?_
        exact (Function.update_of_ne (ChatServer.ne_of_fresh fresh inside) _ _).trans inside
  | close =>
      have follows := succeeds fun _ _ opened => opened
      refine ⟨follows.attributes, keeps.told, keeps.whole, ?_, keeps.settled, keeps.spoken⟩
      intro session client inside collects
      exact keeps.congr follows (fun _ member => keeps.mem_heard.mpr (.inr member)) rfl
        (keeps.collected session client inside collects)
  | @run session input client client' command here next free =>
      have follows := succeeds fun fd owner opened => by
        rw [Broadcasts.extend_server]
        exact (congrFun (uniform.openFD_perform here next) fd).trans opened
      rw [observe_run here]
      refine keeps.run names ⟨follows, uniform.kept, here, Broadcasts.extend_server _ _ _ _ _⟩ fits
        (fun apart => texts_extend _ _ _ apart) (fun position => ?_) next
      simp only [Broadcasts.texts, Broadcasts.extend, position, List.map_append, List.map_singleton,
        server]

/-! ## What is delivered -/

end Transcript

end CmyMessage
