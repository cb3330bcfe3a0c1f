import CmyMessage.Broadcast.Locks
import CmyMessage.Broadcast.Role
import CmyMessage.Broadcast.Scan

/-!
# One round of the broadcast

A broadcaster gathers a line from every ready descriptor in the common buffer and sends the buffer
to every client of the usernames table.  The scan appends in ascending order of the descriptors; the
walk over the table looks every key up again, which finds the entry it came from when the hash sees
the string of a key only.
-/

namespace CmyMessage

/-- `DEFAULT_MAX_NUM_CLIENTS` -/
def defaultMaxNumClients : Nat := 30

/-- The service during one round, with a record of what the broadcaster does. -/
structure Round where
  /-- The service. -/
  server : ChatServer
  /-- The descriptors received from, with the messages. -/
  received : List (Nat × List UInt8) := []
  /-- The descriptors whose messages were formatted, with the blocks that hold their names. -/
  named : List (Nat × List UInt8) := []
  /-- The descriptors sent to, with the texts. -/
  sent : List (Nat × List UInt8) := []

/-- The message that a step of the gather loop receives. -/
def ClientInfo.messages (client : ClientInfo) : Input → List (Nat × List UInt8)
  | .received (.data bytes) =>
      if client.pc = .gather .receive then [(client.i.toNat, bytes)] else []
  | _ => []

/-- The name that a step of the gather loop formats a message with. -/
def ChatServer.names (server : ChatServer) (client : ClientInfo) : List (Nat × List UInt8) :=
  if client.pc = .gather .append then [(client.i.toNat, server.usernamesByFD client.i.toNat)]
  else []

/-- The text that an access sends. -/
def Command.texts : Command → List (Nat × List UInt8)
  | .send fd text _ => [(fd, text)]
  | _ => []

/-- `<name>> <message>` -/
def roundLine (name message : List UInt8) : List UInt8 :=
  CString.text name ++ literal "> " ++ message

namespace Round

/-- The lines formatted so far, one behind the other. -/
def text (round : Round) : List UInt8 :=
  (List.zipWith (fun name message => roundLine name.2 message.2) round.named round.received).flatten

/-- Record a step of the broadcaster. -/
def extend (round : Round) (client : ClientInfo) (input : Input) (command : Command)
    (after : ChatServer) : Round where
  server := after
  received := round.received ++ client.messages input
  named := round.named ++ round.server.names client
  sent := round.sent ++ command.texts

/-- Record a step of any thread. -/
def record (round : Round) (session : Nat) (label : ChatServer.Label) (after : ChatServer) :
    Round :=
  match label with
  | .run other input =>
      match round.server.clients other with
      | none => { round with server := after }
      | some client =>
          match round.server.next other client input with
          | none => { round with server := after }
          | some (_, command) =>
              if other = session then round.extend client input command after
              else { round with server := after }
  | _ => { round with server := after }

/-- The broadcaster is through with the usernames table. -/
def ended (round : Round) (session : Nat) : Bool :=
  match round.server.clients session with
  | some client => decide (client.pc = .broadcast .unlockUsernames)
  | none => false

/-- The step belongs to an ordinary round: no other thread broadcasts, every `recv` of the gather
loop returns data without NUL bytes, and the lines and the terminators fit their blocks. -/
def ordinary (round : Round) (session : Nat) : ChatServer.Label → Bool
  | .run other input =>
      match round.server.clients other with
      | none => true
      | some client =>
          if other = session then
            match client.pc, input with
            | .gather .receive, .received (.data bytes) => decide (0 ∉ bytes)
            | .gather .receive, _ => false
            | .gather .append, _ =>
                let line := ChatServer.clientMsgEdited (round.server.usernamesByFD client.i.toNat)
                  client.buffer
                decide (line.length + 1 ≤ bufferSize + maxNumClients + 3 ∧
                  (CString.text round.server.commonMsgBuffer).length + line.length + 1 ≤
                    bufferSize * defaultMaxNumClients)
            | .broadcast .lockServer, _ =>
                decide (1 ≤ client.totNumBytesRecv ∧ client.totNumBytesRecv ≤ bufferSize)
            | _, _ => true
          else
            !client.pc.inLoop
  | _ => true

end Round

namespace ChatServer

/-- The usernames table was made by insertions and deletions under a hash of the string of a key.
Every client in it was inserted once, by its own thread. -/
structure ListedBy (server : ChatServer) (size : UInt32) (hashFunc : StringBuffer → UInt32)
    (calls : List (TableCall Nat)) : Prop where
  size_pos : 0 < size
  textOnly : TextOnly hashFunc
  table : server.usernamesHt = (runCalls HashTable.call (hashTableCreate size hashFunc) calls).2
  once : (calls.filterMap TableCall.inserted).Nodup
  known : ∀ owner ∈ calls.filterMap TableCall.inserted,
    ∃ client, server.clients owner = some client ∧ client.pc.inserted

/-- The usernames table was made by insertions and deletions. -/
def Listed (server : ChatServer) : Prop :=
  ∃ size hashFunc calls, server.ListedBy size hashFunc calls

end ChatServer

/-- One round of a broadcaster that `select` has told which descriptors are ready, until it is
through with the usernames table. -/
def broadcastRound (session : Nat) (ready : FdSet) : LabelledSystem Round ChatServer.Label where
  Initial round := ∃ server : ChatServer, round = { server } ∧ server.Excludes ∧ server.Listed ∧
    ∃ client, server.clients session = some client ∧ client.pc = .gather .reset ∧
      client.ready = ready
  step round label :=
    if round.ended session then none
    else (round.server.step label).map (round.record session label)

namespace Round

/-- The text of the round has been sent to the socket of a client. -/
def SentTo (round : Round) (owner : Nat) (sending : Nat × List UInt8) : Prop :=
  ∃ client, round.server.clients owner = some client ∧ sending = (client.sockFD, round.text)

end Round

/-! ## The usernames table -/

namespace ChatServer

/-- The table of a service whose clients were inserted. -/
theorem ListedBy.holds {server : ChatServer} {size : UInt32} {hashFunc : StringBuffer → UInt32}
    {calls : List (TableCall Nat)} (listed : server.ListedBy size hashFunc calls) :
    server.usernamesHt.Holds (runCalls StringMap.call (fun _ => none) calls).2 ∧
      server.usernamesHt.size = size ∧ server.usernamesHt.hashFunc = hashFunc := by
  obtain ⟨-, holds, size_eq, hashFunc_eq⟩ :=
    (hashTableCreate_holds size hashFunc).runCalls listed.textOnly calls
  rw [← listed.table] at holds size_eq hashFunc_eq
  exact ⟨holds, size_eq, hashFunc_eq⟩

/-- The walk finds the entry it came from, and the client of that entry. -/
theorem ListedBy.lookup_entry {server : ChatServer} {size : UInt32}
    {hashFunc : StringBuffer → UInt32} {calls : List (TableCall Nat)}
    (listed : server.ListedBy size hashFunc calls) {entry : Entry Nat}
    (member : entry ∈ server.usernamesHt.entries) :
    hashTableLookup server.usernamesHt (some entry.key) = some entry.object ∧
      ∃ target, server.clients entry.object = some target := by
  obtain ⟨holds, size_eq, hashFunc_eq⟩ := listed.holds
  have textOnly : TextOnly server.usernamesHt.hashFunc := hashFunc_eq.symm ▸ listed.textOnly
  have size_pos : 0 < server.usernamesHt.size := size_eq.symm ▸ listed.size_pos
  have bound := (holds.bound_iff size_pos).mpr ⟨entry, member, rfl, rfl⟩
  obtain ⟨target, here, -⟩ := listed.known _ (inserted_of_runCalls bound)
  exact ⟨(holds.lookup_of_assigns (textOnly.assigns entry.key)).trans bound, target, here⟩

/-- One more call, which inserts nothing or a client that was not inserted before. -/
theorem ListedBy.call {server after : ChatServer} {size : UInt32}
    {hashFunc : StringBuffer → UInt32} {calls : List (TableCall Nat)}
    (listed : server.ListedBy size hashFunc calls) (call : TableCall Nat)
    (table : after.usernamesHt = (server.usernamesHt.call call).2)
    (stays : ∀ owner client, server.clients owner = some client → client.pc.inserted →
      ∃ client', after.clients owner = some client' ∧ client'.pc.inserted)
    (fresh : ∀ owner, call.inserted = some owner →
      (∃ client, after.clients owner = some client ∧ client.pc.inserted) ∧
        ¬ ∃ client, server.clients owner = some client ∧ client.pc.inserted) :
    after.ListedBy size hashFunc (calls ++ [call]) := by
  have last (owner : Nat) : owner ∈ [call].filterMap TableCall.inserted ↔
      call.inserted = some owner := by
    simp only [List.mem_filterMap, List.mem_singleton, exists_eq_left]
  refine ⟨listed.size_pos, listed.textOnly, ?_, ?_, ?_⟩
  · rw [table, runCalls_append, listed.table]
    rfl
  · rw [List.filterMap_append, List.nodup_append]
    refine ⟨listed.once, ?_, ?_⟩
    · cases inserted : call.inserted <;> simp [inserted]
    · rintro owner old _ new rfl
      exact (fresh owner ((last owner).mp new)).2 (listed.known owner old)
  · intro owner member
    rw [List.filterMap_append, List.mem_append] at member
    rcases member with old | new
    · obtain ⟨client, here, inserted⟩ := listed.known owner old
      exact stays owner client here inserted
    · exact (fresh owner ((last owner).mp new)).1

theorem Listed.step {before after : ChatServer} {label : Label} (listed : before.Listed)
    (step : chatService.step before label = some after) : after.Listed := by
  obtain ⟨size, hashFunc, calls, listed⟩ := listed
  have stays (owner : Nat) (client : ClientInfo) (here : before.clients owner = some client)
      (inserted : client.pc.inserted) :
      ∃ client', after.clients owner = some client' ∧ client'.pc.inserted := by
    obtain ⟨client', here', -, keeps⟩ := client_stays step here
    exact ⟨client', here', keeps inserted⟩
  have unchanged (same : after.usernamesHt = before.usernamesHt) : after.Listed := by
    refine ⟨size, hashFunc, calls, listed.size_pos, listed.textOnly, same.trans listed.table,
      listed.once, fun owner member => ?_⟩
    obtain ⟨client, here, inserted⟩ := listed.known owner member
    exact stays owner client here inserted
  obtain ⟨-, steps⟩ := step_cases step
  cases steps with
  | accept fresh free small => exact unchanged rfl
  | close => exact unchanged rfl
  | @run session input client client' command here next free =>
      have moved := next_registry next
      have table := perform_usernamesHt before session client' command
      split at table
      · rename_i leftover
        have at_insert := moved.inserts leftover rfl
        refine ⟨size, hashFunc, _,
          listed.call (.insert (.ofBlock client'.name) session leftover) table stays ?_⟩
        rintro owner ⟨⟩
        refine ⟨⟨client', Function.update_self _ _ _, at_insert.2⟩, ?_⟩
        rintro ⟨old, inside, inserted⟩
        obtain rfl : client = old := Option.some.inj (here.symm.trans inside)
        simp [at_insert.1, Pc.inserted] at inserted
      · rename_i key departing
        refine ⟨size, hashFunc, _, listed.call (.delete (.ofBlock key)) table stays ?_⟩
        rintro owner ⟨⟩
      · exact unchanged table

end ChatServer

/-! ## The common buffer -/

/-- A formatted line is a string. -/
theorem ChatServer.zero_notMem_clientMsgEdited (name message : List UInt8) :
    0 ∉ ChatServer.clientMsgEdited name message := by
  have space : (0 : UInt8) ∉ literal "> " := by decide
  intro member
  rcases List.mem_append.mp member with front | inMessage
  · rcases List.mem_append.mp front with inName | inSpace
    · exact CString.zero_notMem_text name inName
    · exact space inSpace
  · exact CString.zero_notMem_text message inMessage

theorem text_roundLine (name : List UInt8) {message : List UInt8} (nonzero : 0 ∉ message) :
    CString.text (ChatServer.clientMsgEdited name message) = roundLine name message := by
  rw [CString.text_eq_self (ChatServer.zero_notMem_clientMsgEdited name message),
    ChatServer.clientMsgEdited, CString.text_eq_self nonzero]
  rfl

/-- Outside the gather loop the common buffer is left alone. -/
theorem ChatServer.commonMsgBuffer_perform {server : ChatServer} {session : Nat}
    {client client' : ClientInfo} {input : Input} {command : Command}
    (next : server.next session client input = some (client', command))
    (elsewhere : client.pc.inLoop = false) :
    (server.perform session client' command).commonMsgBuffer = server.commonMsgBuffer := by
  have leaves : command ≠ .clearCommonMsg ∧ ∀ text, command ≠ .appendCommonMsg text := by
    revert next
    fun_cases ChatServer.next <;>
      [fun_cases prepareClientForBroadcastAndStart; fun_cases askAndAssignUsername;
        fun_cases acceptAndStoreClientUsername; fun_cases getMessagesFromActiveClients;
        fun_cases waitForThreadWork; fun_cases startRemovingClientFromBroadcast;
        fun_cases broadcastMessageToOnlineClients; skip; skip]
    all_goals rintro ⟨⟩
    all_goals simp_all [Pc.inLoop]
  rw [perform_commonMsgBuffer]
  split
  · exact absurd rfl leaves.1
  · exact absurd rfl (leaves.2 _)
  · rfl

namespace Round

/-- Every line received so far is in the common buffer. -/
structure Gathered (ready : FdSet) (round : Round) (bound : Int) : Prop where
  visited : ChatServer.Visited ready (round.received.map Prod.fst) bound
  named : round.named.map Prod.fst = round.received.map Prod.fst
  text : CString.text round.server.commonMsgBuffer = round.text

/-- Every line received so far is in the common buffer, but for the one of the last message. -/
structure Pending (ready : FdSet) (round : Round) (i : Int) (message : List UInt8) : Prop where
  visited : ChatServer.Visited ready (round.received.map Prod.fst) (i + 1)
  named : round.named.map Prod.fst ++ [i.toNat] = round.received.map Prod.fst
  last : ∃ earlier, round.received = earlier ++ [(i.toNat, message)]
  nonzero : 0 ∉ message
  text : CString.text round.server.commonMsgBuffer = round.text

/-- The clients of the entries in front of the keys still to visit were sent to. -/
def Walked (round : Round) (keys : List StringBuffer) : Prop :=
  ∃ front back, round.server.usernamesHt.entries = front ++ back ∧
    keys = back.map Entry.key ∧
    List.Forall₂ round.SentTo (front.map Entry.object) round.sent

/-- How far a round has got. -/
def Progress (ready : FdSet) (round : Round) (client : ClientInfo) : Prop :=
  client.ready = ready ∧
    match client.pc with
    | .gather .reset => round.received = [] ∧ round.named = [] ∧ round.sent = []
    | .gather .scan => round.Gathered ready client.i ∧ round.sent = []
    | .gather .receive => round.Gathered ready client.i ∧ client.i < fdSetSize ∧
        ready client.i.toNat = true ∧ round.sent = []
    | .gather .lockCommonMsg | .gather .append =>
        round.Pending ready client.i client.buffer ∧ round.sent = []
    | .gather .unlockCommonMsg => round.Gathered ready (client.i + 1) ∧ round.sent = []
    | .broadcast .lockServer | .broadcast .lockUsernames =>
        round.Gathered ready fdSetSize ∧ round.sent = []
    | .broadcast (.send keys) => round.Gathered ready fdSetSize ∧ round.Walked keys
    | .broadcast .unlockUsernames => round.Gathered ready fdSetSize ∧ round.Walked []
    | _ => False

theorem text_congr {left right : Round} (named : left.named = right.named)
    (received : left.received = right.received) : left.text = right.text := by
  rw [text, text, named, received]

theorem Gathered.congr {ready : FdSet} {round after : Round} {bound : Int}
    (gathered : round.Gathered ready bound) (received : after.received = round.received)
    (named : after.named = round.named)
    (buffer : after.server.commonMsgBuffer = round.server.commonMsgBuffer) :
    after.Gathered ready bound := by
  refine ⟨received ▸ gathered.visited, ?_, ?_⟩
  · rw [named, received, gathered.named]
  · rw [buffer, gathered.text, text_congr named received]

theorem Pending.congr {ready : FdSet} {round after : Round} {i : Int} {message : List UInt8}
    (pending : round.Pending ready i message) (received : after.received = round.received)
    (named : after.named = round.named)
    (buffer : after.server.commonMsgBuffer = round.server.commonMsgBuffer) :
    after.Pending ready i message := by
  refine ⟨received ▸ pending.visited, ?_, received ▸ pending.last, pending.nonzero, ?_⟩
  · rw [named, received, pending.named]
  · rw [buffer, pending.text, text_congr named received]

theorem SentTo.stays {round after : Round} {owner : Nat} {sending : Nat × List UInt8}
    (sentTo : round.SentTo owner sending) (text : after.text = round.text)
    (stays : ∀ owner client, round.server.clients owner = some client →
      ∃ client', after.server.clients owner = some client' ∧ client'.sockFD = client.sockFD) :
    after.SentTo owner sending := by
  obtain ⟨client, here, isSending⟩ := sentTo
  obtain ⟨client', here', sockFD⟩ := stays owner client here
  exact ⟨client', here', by rw [isSending, sockFD, text]⟩

/-- A step of another thread that leaves the common buffer and the locked table alone. -/
theorem Progress.other {ready : FdSet} {round : Round} {client : ClientInfo} {server : ChatServer}
    (progress : round.Progress ready client)
    (buffer : server.commonMsgBuffer = round.server.commonMsgBuffer)
    (table : .usernamesHt ∈ client.pc.held → server.usernamesHt = round.server.usernamesHt)
    (stays : ∀ owner client, round.server.clients owner = some client →
      ∃ client', server.clients owner = some client' ∧ client'.sockFD = client.sockFD) :
    Progress ready { round with server } client := by
  obtain ⟨isReady, progress⟩ := progress
  refine ⟨isReady, ?_⟩
  have walked {keys : List StringBuffer} (locked : .usernamesHt ∈ client.pc.held)
      (walked : round.Walked keys) : Walked { round with server } keys := by
    obtain ⟨front, back, split, isKeys, sentTo⟩ := walked
    refine ⟨front, back, (table locked).symm ▸ split, isKeys, ?_⟩
    exact sentTo.imp fun owner sending sent => sent.stays rfl stays
  cases position : client.pc with
  | gather pc =>
      rw [position] at progress
      cases pc with
      | reset => exact progress
      | scan | unlockCommonMsg => exact ⟨progress.1.congr rfl rfl buffer, progress.2⟩
      | receive => exact ⟨progress.1.congr rfl rfl buffer, progress.2⟩
      | lockCommonMsg | append => exact ⟨progress.1.congr rfl rfl buffer, progress.2⟩
      | _ => exact progress
  | broadcast pc =>
      rw [position] at progress walked
      cases pc with
      | lockServer | lockUsernames => exact ⟨progress.1.congr rfl rfl buffer, progress.2⟩
      | send keys =>
          exact ⟨progress.1.congr rfl rfl buffer, walked (by simp [Pc.held]) progress.2⟩
      | unlockUsernames =>
          exact ⟨progress.1.congr rfl rfl buffer, walked (by simp [Pc.held]) progress.2⟩
      | unlockServer => exact progress
  | _ =>
      rw [position] at progress
      exact progress

/-! ## The steps of the broadcaster -/

theorem messages_eq_nil {client : ClientInfo} (elsewhere : client.pc ≠ .gather .receive)
    (input : Input) : client.messages input = [] := by
  cases input with
  | received result =>
      cases result with
      | data bytes => exact if_neg elsewhere
      | _ => rfl
  | _ => rfl

/-- A message without a name adds nothing to the text. -/
theorem text_receive {round after : Round} {message : Nat × List UInt8}
    (lengths : round.named.length = round.received.length) (named : after.named = round.named)
    (received : after.received = round.received ++ [message]) : after.text = round.text := by
  rw [text, named, received, ← List.append_nil round.named, List.zipWith_append lengths,
    List.zipWith_nil_left, List.append_nil]
  rfl

/-- The name of the last message adds its line. -/
theorem text_format {round after : Round} {earlier : List (Nat × List UInt8)}
    {name message : Nat × List UInt8} (lengths : round.named.length = earlier.length)
    (last : round.received = earlier ++ [message]) (named : after.named = round.named ++ [name])
    (received : after.received = round.received) :
    after.text = round.text ++ roundLine name.2 message.2 := by
  let base : Round := { after with named := round.named, received := earlier }
  have without : round.text = base.text := text_receive lengths rfl last
  rw [without, text, text, named, received, last, List.zipWith_append lengths, List.flatten_append]
  simp [base]

theorem Gathered.start {ready : FdSet} {round : Round} (received : round.received = [])
    (named : round.named = []) (cleared : CString.text round.server.commonMsgBuffer = []) :
    round.Gathered ready 0 := by
  refine ⟨?_, ?_, ?_⟩
  · rw [received]
    exact ChatServer.Visited.start ready
  · rw [received, named]
  · rw [cleared, Round.text, received, List.zipWith_nil_right]
    rfl

theorem Gathered.lengths {ready : FdSet} {round : Round} {bound : Int}
    (gathered : round.Gathered ready bound) : round.named.length = round.received.length := by
  simpa using congrArg List.length gathered.named

theorem Gathered.receive {ready : FdSet} {round after : Round} {i : Int} {message : List UInt8}
    (gathered : round.Gathered ready i) (small : i < fdSetSize) (isReady : ready i.toNat = true)
    (nonzero : 0 ∉ message) (received : after.received = round.received ++ [(i.toNat, message)])
    (named : after.named = round.named)
    (buffer : after.server.commonMsgBuffer = round.server.commonMsgBuffer) :
    after.Pending ready i message := by
  have fds : after.received.map Prod.fst = round.received.map Prod.fst ++ [i.toNat] := by
    rw [received, List.map_append]
    rfl
  refine ⟨?_, ?_, ⟨round.received, received⟩, nonzero, ?_⟩
  · rw [fds]
    exact gathered.visited.visit small isReady
  · rw [named, fds, gathered.named]
  · rw [buffer, text_receive gathered.lengths named received, gathered.text]

theorem Pending.format {ready : FdSet} {round after : Round} {i : Int} {name message : List UInt8}
    (pending : round.Pending ready i message) (received : after.received = round.received)
    (named : after.named = round.named ++ [(i.toNat, name)])
    (buffer : after.server.commonMsgBuffer = CString.strcat round.server.commonMsgBuffer
      (ChatServer.clientMsgEdited name message)) : after.Gathered ready (i + 1) := by
  obtain ⟨earlier, last⟩ := pending.last
  have fds : round.named.map Prod.fst = earlier.map Prod.fst := by
    have both := pending.named
    rw [last, List.map_append] at both
    exact List.append_cancel_right both
  have lengths : round.named.length = earlier.length := by
    simpa using congrArg List.length fds
  refine ⟨received ▸ pending.visited, ?_, ?_⟩
  · rw [named, received, ← pending.named, List.map_append]
    rfl
  · rw [buffer, CString.text_strcat, pending.text, text_roundLine name pending.nonzero,
      text_format lengths last named received]

/-- The walk sends to the client of the next entry. -/
theorem Walked.visit {round after : Round} {key : StringBuffer} {keys : List StringBuffer}
    {target : ClientInfo} {contents : List UInt8} (walked : round.Walked (key :: keys))
    (listed : round.server.Listed)
    (found : (hashTableLookup round.server.usernamesHt (some key)).bind round.server.clients =
      some target)
    (table : after.server.usernamesHt = round.server.usernamesHt)
    (stays : ∀ owner client, round.server.clients owner = some client →
      ∃ client', after.server.clients owner = some client' ∧ client'.sockFD = client.sockFD)
    (same : after.text = round.text) (isText : contents = round.text)
    (sent : after.sent = round.sent ++ [(target.sockFD, contents)]) : after.Walked keys := by
  obtain ⟨front, back, split, isKeys, sentTo⟩ := walked
  obtain ⟨size, hashFunc, calls, listed⟩ := listed
  cases back with
  | nil => cases isKeys
  | cons entry back =>
      obtain ⟨rfl, rest⟩ := List.cons.inj isKeys
      have member : entry ∈ round.server.usernamesHt.entries := by simp [split]
      rw [(listed.lookup_entry member).1, Option.bind_some] at found
      refine ⟨front ++ [entry], back, ?_, rest, ?_⟩
      · rw [table, split, List.append_assoc]
        rfl
      · rw [sent, List.map_append]
        refine List.rel_append (sentTo.imp fun owner sending was => was.stays same stays) ?_
        refine List.Forall₂.cons ?_ .nil
        exact SentTo.stays ⟨target, found, by rw [isText]⟩ same stays

/-- The walk finds a client for every key. -/
theorem Walked.finds {round : Round} {key : StringBuffer} {keys : List StringBuffer}
    (walked : round.Walked (key :: keys)) (listed : round.server.Listed) :
    ∃ target, (hashTableLookup round.server.usernamesHt (some key)).bind round.server.clients =
      some target := by
  obtain ⟨front, back, split, isKeys, -⟩ := walked
  obtain ⟨size, hashFunc, calls, listed⟩ := listed
  cases back with
  | nil => cases isKeys
  | cons entry back =>
      obtain ⟨rfl, -⟩ := List.cons.inj isKeys
      have member : entry ∈ round.server.usernamesHt.entries := by simp [split]
      obtain ⟨found, target, here⟩ := listed.lookup_entry member
      exact ⟨target, by rw [found, Option.bind_some, here]⟩

/-- A step that neither receives nor formats a message. -/
theorem extend_of_ne {round : Round} {client : ClientInfo}
    (notReceive : client.pc ≠ .gather .receive) (notAppend : client.pc ≠ .gather .append)
    (input : Input) (command : Command) (after : ChatServer) :
    round.extend client input command after =
      { round with server := after, sent := round.sent ++ command.texts } := by
  rw [extend, messages_eq_nil notReceive, ChatServer.names, if_neg notAppend, List.append_nil,
    List.append_nil]

/-- A step that does not send either. -/
theorem extend_quiet {round : Round} {client : ClientInfo} {command : Command}
    (notReceive : client.pc ≠ .gather .receive) (notAppend : client.pc ≠ .gather .append)
    (silent : command.texts = []) (input : Input) (after : ChatServer) :
    round.extend client input command after = { round with server := after } := by
  rw [extend_of_ne notReceive notAppend, silent, List.append_nil]

section Step

variable {session : Nat} {ready : FdSet} {round : Round} {client client' : ClientInfo}
  {input : Input} {command : Command}

/-- In an ordinary round the gather loop receives strings. -/
theorem receives_string (here : round.server.clients session = some client)
    (at_recv : client.pc = .gather .receive)
    (ordinary : round.ordinary session (.run session input) = true) :
    ∃ bytes, input = .received (.data bytes) ∧ 0 ∉ bytes := by
  simp only [Round.ordinary, here, at_recv, if_true] at ordinary
  split at ordinary
  · exact ⟨_, rfl, of_decide_eq_true ordinary⟩
  · cases ordinary
  all_goals simp_all

theorem Progress.gather (progress : round.Progress ready client) {pc : GatherPc}
    (position : client.pc = .gather pc) (here : round.server.clients session = some client)
    (ordinary : round.ordinary session (.run session input) = true)
    (next : round.server.getMessagesFromActiveClients session client pc input =
      some (client', command)) :
    (round.extend client input command (round.server.perform session client' command)).Progress
      ready client' := by
  obtain ⟨isReady, progress⟩ := progress
  rw [position] at progress
  cases pc with
  | reset =>
      obtain ⟨received, named, sent⟩ := progress
      cases input <;> cases next
      rw [extend_quiet (by simp [position]) (by simp [position]) rfl]
      refine ⟨isReady, Gathered.start received named ?_, sent⟩
      rw [ChatServer.perform_commonMsgBuffer]
      exact CString.text_clear _ (by decide)
  | scan =>
      obtain ⟨gathered, sent⟩ := progress
      cases input with
      | tick =>
          obtain ⟨rfl, moved⟩ := ChatServer.scan_next next
          rw [extend_quiet (by simp [position]) (by simp [position]) rfl]
          rcases moved with ⟨fd, found, rfl⟩ | ⟨missing, rfl⟩
          · obtain ⟨visited, small, member⟩ := gathered.visited.found (isReady ▸ found)
            exact ⟨isReady, ⟨visited, gathered.named, gathered.text⟩, small, member, sent⟩
          · have visited := gathered.visited.missing (isReady ▸ missing)
            exact ⟨isReady, ⟨visited, gathered.named, gathered.text⟩, sent⟩
      | _ => cases next
  | receive =>
      obtain ⟨gathered, small, member, sent⟩ := progress
      obtain ⟨bytes, rfl, nonzero⟩ := receives_string here position ordinary
      obtain ⟨-, rfl, -, -, onData⟩ := ChatServer.receive_next next
      obtain rfl := onData bytes rfl
      have received : client.messages (.received (.data bytes)) = [(client.i.toNat, bytes)] :=
        if_pos position
      have named : round.server.names client = [] := if_neg (by simp [position])
      refine ⟨isReady, ?_, ?_⟩
      · refine gathered.receive small member nonzero ?_ ?_ rfl
        · rw [extend, received]
          rfl
        · rw [extend, named, List.append_nil]
      · rw [extend, sent]
        rfl
  | lockCommonMsg =>
      cases input <;> cases next
      rw [extend_quiet (by simp [position]) (by simp [position]) rfl]
      exact ⟨isReady, progress.1.congr rfl rfl rfl, progress.2⟩
  | append =>
      obtain ⟨pending, sent⟩ := progress
      cases input <;> cases next
      have named : round.server.names client =
          [(client.i.toNat, round.server.usernamesByFD client.i.toNat)] := if_pos position
      refine ⟨isReady, ?_, ?_⟩
      · refine pending.format ?_ ?_ rfl
        · rw [extend, messages_eq_nil (by simp [position]), List.append_nil]
        · rw [extend, named]
      · rw [extend, sent]
        rfl
  | unlockCommonMsg =>
      cases input <;> cases next
      rw [extend_quiet (by simp [position]) (by simp [position]) rfl]
      exact ⟨isReady, progress.1.congr rfl rfl rfl, progress.2⟩
  | _ => exact progress.elim

theorem Progress.broadcast (progress : round.Progress ready client) {pc : BroadcastPc}
    (position : client.pc = .broadcast pc) (running : pc ≠ .unlockUsernames)
    (here : round.server.clients session = some client) (listed : round.server.Listed)
    (next : round.server.broadcastMessageToOnlineClients client pc input =
      some (client', command)) :
    (round.extend client input command (round.server.perform session client' command)).Progress
      ready client' := by
  have moved : round.server.next session client input = some (client', command) := by
    rw [ChatServer.next, position]
    exact next
  have stays (owner : Nat) (found : ClientInfo)
      (inside : round.server.clients owner = some found) :=
    ChatServer.after_perform command here (ChatServer.next_registry moved).sockFD inside
  have notReceive : client.pc ≠ .gather .receive := by simp [position]
  have notAppend : client.pc ≠ .gather .append := by simp [position]
  obtain ⟨isReady, progress⟩ := progress
  rw [position] at progress
  cases pc with
  | lockServer =>
      cases input <;> cases next
      rw [extend_quiet notReceive notAppend rfl]
      exact ⟨isReady, progress.1.congr rfl rfl rfl, progress.2⟩
  | lockUsernames =>
      cases input <;> cases next
      rw [extend_quiet notReceive notAppend rfl]
      refine ⟨isReady, progress.1.congr rfl rfl rfl, [], _, rfl, rfl, ?_⟩
      rw [progress.2]
      exact .nil
  | send keys =>
      obtain ⟨gathered, walked⟩ := progress
      cases keys with
      | nil =>
          cases input <;> cases next
          rw [extend_quiet notReceive notAppend rfl]
          obtain ⟨front, back, split, isKeys, sentTo⟩ := walked
          refine ⟨isReady, gathered.congr rfl rfl rfl, front, back, split, isKeys, ?_⟩
          exact sentTo.imp fun owner sending was => was.stays rfl stays
      | cons key keys =>
          obtain ⟨target, found⟩ := walked.finds listed
          unfold ChatServer.broadcastMessageToOnlineClients at next
          simp only [found] at next
          cases input with
          | sent result =>
              cases next
              rw [extend_of_ne notReceive notAppend]
              refine ⟨isReady, gathered.congr rfl rfl ?_, ?_⟩
              · exact ChatServer.perform_commonMsgBuffer _ _ _ _
              · exact walked.visit listed found (ChatServer.perform_usernamesHt _ _ _ _) stays
                  (text_congr rfl rfl) gathered.text rfl
          | _ => cases next
  | unlockUsernames => exact absurd rfl running
  | unlockServer => exact progress.elim

theorem Progress.step (progress : round.Progress ready client)
    (here : round.server.clients session = some client) (listed : round.server.Listed)
    (ordinary : round.ordinary session (.run session input) = true)
    (running : client.pc ≠ .broadcast .unlockUsernames)
    (next : round.server.next session client input = some (client', command)) :
    (round.extend client input command (round.server.perform session client' command)).Progress
      ready client' := by
  rw [ChatServer.next] at next
  cases position : client.pc with
  | gather pc =>
      rw [position] at next
      exact progress.gather position here ordinary next
  | broadcast pc =>
      rw [position] at next running
      exact progress.broadcast position (fun same => running (same ▸ rfl)) here listed next
  | _ =>
      have impossible := progress.2
      rw [position] at impossible
      exact impossible.elim

end Step

/-- A thread other than the broadcaster leaves the table alone while the broadcaster has locked it.
-/
theorem usernamesHt_of_locked {server : ChatServer} {session other : Nat}
    {client rival rival' : ClientInfo} {input : Input} {command : Command}
    (excludes : server.Excludes) (here : server.clients session = some client)
    (inside : server.clients other = some rival) (different : other ≠ session)
    (next : server.next other rival input = some (rival', command))
    (locked : .usernamesHt ∈ client.pc.held) :
    (server.perform other rival' command).usernamesHt = server.usernamesHt := by
  have unlocked : Mutex.usernamesHt ∉ rival.pc.held := by
    intro held
    have own := excludes session client .usernamesHt here locked
    have others := excludes other rival .usernamesHt inside held
    exact different (Option.some.inj (others.symm.trans own))
  have moved := ChatServer.next_lock next
  rw [ChatServer.perform_usernamesHt]
  split
  · exact absurd (moved.inserts _ rfl) unlocked
  · exact absurd (moved.deletes _ _ rfl) unlocked
  · rfl

/-- A round has got somewhere, with a table that was made by insertions and deletions. -/
def GoesOn (session : Nat) (ready : FdSet) (round : Round) : Prop :=
  round.server.Excludes ∧ round.server.Listed ∧
    ∃ client, round.server.clients session = some client ∧ round.Progress ready client

theorem GoesOn.step {session : Nat} {ready : FdSet} {label : ChatServer.Label}
    {before after : Round} (goesOn : GoesOn session ready before)
    (ordinary : before.ordinary session label = true)
    (step : (broadcastRound session ready).step before label = some after) :
    GoesOn session ready after := by
  obtain ⟨excludes, listed, client, here, progress⟩ := goesOn
  simp only [broadcastRound] at step
  split at step
  · cases step
  · rename_i running
    obtain ⟨server, stepped, rfl⟩ := Option.map_eq_some_iff.mp step
    have stays (owner : Nat) (found : ClientInfo)
        (inside : before.server.clients owner = some found) :
        ∃ found', server.clients owner = some found' ∧ found'.sockFD = found.sockFD := by
      obtain ⟨found', inside', sockFD, -⟩ := ChatServer.client_stays stepped inside
      exact ⟨found', inside', sockFD⟩
    have excludes' := excludes.step stepped
    have listed' := listed.step stepped
    obtain ⟨-, steps⟩ := ChatServer.step_cases stepped
    cases steps with
    | @accept newcomer fd fresh free small =>
        have different := ChatServer.ne_of_fresh fresh here
        refine ⟨excludes', listed', client, (Function.update_of_ne different _ _).trans here, ?_⟩
        exact progress.other rfl (fun _ => rfl) stays
    | close => exact ⟨excludes', listed', client, here, progress.other rfl (fun _ => rfl) stays⟩
    | @run runner input moving client' command inside next free =>
        rcases eq_or_ne runner session with rfl | different
        · obtain rfl : client = moving := Option.some.inj (here.symm.trans inside)
          have recorded : before.record runner (.run runner input)
              (before.server.perform runner client' command) =
                before.extend client input command
                  (before.server.perform runner client' command) := by
            simp only [record, here, next, if_true]
          rw [recorded]
          refine ⟨excludes', listed', client', Function.update_self _ _ _, ?_⟩
          refine progress.step here listed ordinary ?_ next
          simpa [ended, here] using running
        · have recorded : before.record session (.run runner input)
              (before.server.perform runner client' command) =
                { before with server := before.server.perform runner client' command } := by
            simp only [record, inside, next, if_neg different]
          have elsewhere : moving.pc.inLoop = false := by
            simpa [Round.ordinary, inside, different] using ordinary
          rw [recorded]
          refine ⟨excludes', listed', client,
            (Function.update_of_ne different.symm _ _).trans here, ?_⟩
          refine progress.other (ChatServer.commonMsgBuffer_perform next elsewhere) ?_ stays
          exact usernamesHt_of_locked excludes here inside different next

end Round
end CmyMessage
