import CmyMessage.Broadcast.Acceptance
import CmyMessage.Broadcast.Round
import CmyMessage.Foundation.Schedule

/-!
# The order of the broadcasts

A broadcaster holds the mutex of the usernames table while it walks over the entries, so the walks
of all threads follow one another, even when the role was given away and two threads broadcast.
Every client is sent the broadcasts in that one order.  What they are sent is one text for each
broadcast as long as nobody else writes to the common buffer, which the role is there to prevent.
-/

namespace CmyMessage

/-- A broadcast as it begins. -/
structure Announcement where
  /-- What the common buffer holds. -/
  text : List UInt8
  /-- The clients that the keys of the table lead to. -/
  recipients : List Nat

/-- A `send` of a broadcast. -/
structure BroadcastDelivery where
  /-- The number of the broadcast. -/
  number : Nat
  /-- The client whose entry was found. -/
  recipient : Nat
  /-- The descriptor sent to. -/
  fd : Nat
  /-- What was sent. -/
  text : List UInt8

/-- The service with a record of its broadcasts. -/
structure Broadcasts where
  /-- The service. -/
  server : ChatServer
  /-- The broadcasts begun, under their numbers. -/
  begun : List Announcement := []
  /-- The number of the broadcast a thread began last. -/
  current : Nat → Nat := fun _ => 0
  /-- What was sent, and to whom. -/
  deliveries : List BroadcastDelivery := []

/-- The keys a thread still has to visit while it walks over the table. -/
def Pc.walk : Pc → Option (List StringBuffer)
  | .broadcast (.send keys) => some keys
  | _ => none

/-- The objects that keys lead to. -/
def HashTable.found {α : Type*} (table : HashTable α) (keys : List StringBuffer) : List α :=
  keys.filterMap fun key => hashTableLookup table (some key)

namespace Broadcasts

/-- The broadcasts and the clients of the deliveries. -/
def log (record : Broadcasts) : List (Nat × Nat) :=
  record.deliveries.map fun delivery => (delivery.number, delivery.recipient)

/-- What is due to whom, in the order of the broadcasts. -/
def due (record : Broadcasts) : List (Nat × Nat) :=
  Turns.schedule (record.begun.map Announcement.recipients)

/-- The texts sent to a client. -/
def receivedBy (record : Broadcasts) (recipient : Nat) : List (List UInt8) :=
  (record.deliveries.filter fun delivery => decide (delivery.recipient = recipient)).map
    BroadcastDelivery.text

/-- Record an access of a thread. -/
def extend (record : Broadcasts) (session : Nat) (client : ClientInfo) (command : Command)
    (after : ChatServer) : Broadcasts :=
  match client.pc, command with
  | .broadcast .lockUsernames, _ =>
      let table := record.server.usernamesHt
      { record with
        server := after
        begun := record.begun ++ [{
          text := CString.text record.server.commonMsgBuffer
          recipients := table.found (table.entries.map Entry.key) }]
        current := Function.update record.current session record.begun.length }
  | .broadcast (.send (key :: _)), .send fd text _ =>
      { record with
        server := after
        deliveries := record.deliveries ++ (record.server.usernamesHt.found [key]).map
          fun recipient => { number := record.current session, recipient, fd, text } }
  | _, _ => { record with server := after }

/-- Record a step. -/
def observe (record : Broadcasts) (label : ChatServer.Label) (after : ChatServer) : Broadcasts :=
  match label with
  | .run session input =>
      match record.server.clients session with
      | none => { record with server := after }
      | some client =>
          match record.server.next session client input with
          | none => { record with server := after }
          | some (_, command) => record.extend session client command after
  | _ => { record with server := after }

end Broadcasts

/-- The broadcast chat service with a record of its broadcasts. -/
def recordedBroadcasts : LabelledSystem Broadcasts ChatServer.Label where
  Initial record := ∃ server : ChatServer, server.Starts ∧ record = { server }
  step record label := (record.server.step label).map (record.observe label)

/-! ## The walk over the table -/

namespace ChatServer

/-- What a step of a thread does to its walk over the table. -/
inductive WalkStep (server : ChatServer) (client client' : ClientInfo) (command : Command) : Prop
  | begins (position : client.pc = .broadcast .lockUsernames)
      (walks : client'.pc = .broadcast (.send (server.usernamesHt.entries.map Entry.key)))
      (locks : command = .lock .usernamesHt)
  | misses {key : StringBuffer} {keys : List StringBuffer}
      (position : client.pc = .broadcast (.send (key :: keys)))
      (walks : client'.pc = .broadcast (.send keys)) (skips : command = .skip)
      (missing : (hashTableLookup server.usernamesHt (some key)).bind server.clients = none)
  | sends {key : StringBuffer} {keys : List StringBuffer} {target : ClientInfo}
      {result : SendResult} (position : client.pc = .broadcast (.send (key :: keys)))
      (walks : client'.pc = .broadcast (.send keys))
      (sends : command = .send target.sockFD (CString.text server.commonMsgBuffer) result)
      (hit : (hashTableLookup server.usernamesHt (some key)).bind server.clients = some target)
  | ends (position : client.pc = .broadcast (.send []))
      (walks : client'.pc = .broadcast .unlockUsernames) (skips : command = .skip)
  | elsewhere (position : client.pc ≠ .broadcast .lockUsernames) (stays : client.pc.walk = none)
      (walks : client'.pc.walk = none)

theorem broadcast_walk {server : ChatServer} {client client' : ClientInfo} {pc : BroadcastPc}
    {input : Input} {command : Command} (position : client.pc = .broadcast pc)
    (next : server.broadcastMessageToOnlineClients client pc input = some (client', command)) :
    server.WalkStep client client' command := by
  revert next
  fun_cases broadcastMessageToOnlineClients <;> rintro ⟨⟩
  · exact .elsewhere (by simp [position]) (by simp [position, Pc.walk]) rfl
  · exact .begins position rfl rfl
  · exact .ends position rfl rfl
  · exact .misses position rfl rfl ‹_›
  · exact .sends position rfl rfl ‹_›
  · exact .elsewhere (by simp [position]) (by simp [position, Pc.walk]) rfl
  · exact .elsewhere (by simp [position]) (by simp [position, Pc.walk]) rfl

/-- Nobody enters a walk from outside of the function that makes it. -/
theorem outside_walk {server : ChatServer} {session : Nat} {client client' : ClientInfo}
    {input : Input} {command : Command}
    (next : server.next session client input = some (client', command))
    (outside : ∀ pc, client.pc ≠ .broadcast pc) : client'.pc.walk = none := by
  revert next
  fun_cases ChatServer.next <;>
    [fun_cases prepareClientForBroadcastAndStart; fun_cases askAndAssignUsername;
      fun_cases acceptAndStoreClientUsername; fun_cases getMessagesFromActiveClients;
      fun_cases waitForThreadWork; fun_cases startRemovingClientFromBroadcast;
      fun_cases broadcastMessageToOnlineClients; skip; skip]
  all_goals rintro ⟨⟩
  all_goals simp_all [ClientInfo.goto, Pc.walk]

theorem next_walk {server : ChatServer} {session : Nat} {client client' : ClientInfo}
    {input : Input} {command : Command}
    (next : server.next session client input = some (client', command)) :
    server.WalkStep client client' command := by
  cases position : client.pc with
  | broadcast pc =>
      rw [ChatServer.next, position] at next
      exact broadcast_walk position next
  | _ =>
      have outside := outside_walk next (by simp [position])
      exact .elsewhere (by simp [position]) (by simp [position, Pc.walk]) outside

/-! ## The clients of the table -/

/-- A string is bound to nobody but an inserted client with that name. -/
structure Bound (server : ChatServer) : Prop where
  names : server.NamesShort
  owner : ∀ string session, server.usernamesHt.contents string = some session →
    server.Binds session string

theorem Bound.start {server : ChatServer} (starts : server.Starts) : server.Bound := by
  refine ⟨.start starts, fun string session found => ?_⟩
  simp [starts.usernamesHt, UsernamesTable.create_contents] at found

theorem Bound.step {before after : ChatServer} {label : Label} (bound : before.Bound)
    (step : chatService.step before label = some after) : after.Bound := by
  refine ⟨bound.names.step step, ?_⟩
  obtain ⟨-, steps⟩ := step_cases step
  cases steps with
  | accept fresh free small =>
      intro string owner found
      exact (binds_enroll fresh).mpr (bound.owner string owner found)
  | close => exact bound.owner
  | @run session input client client' command here next free =>
      have moved := next_registry next
      intro string owner found
      rw [binds_perform here moved]
      by_cases inserts : ∃ leftover, command = .insertUsername leftover
      · obtain ⟨leftover, rfl⟩ := inserts
        obtain ⟨same, buffer, isStored⟩ := inserting_stored bound.names.stored here moved rfl
        have filled := storedName_zeroFilled buffer
        rw [← isStored, ← same] at filled
        rw [perform_usernamesHt, (bound.names.table.insert filled leftover session).2,
          StringBuffer.ofBlock_text] at found
        rcases StringMap.insert_eq_some found with old | ⟨rfl, rfl⟩
        · exact .inl (bound.owner string owner old)
        · exact .inr ⟨⟨leftover, rfl⟩, rfl, rfl⟩
      by_cases deletes : ∃ key departing, command = .deleteUsername key departing
      · obtain ⟨key, departing, rfl⟩ := deletes
        rw [perform_usernamesHt, (bound.names.table.delete (.ofBlock key)).2] at found
        split at found
        · by_cases same : string = (StringBuffer.ofBlock key).text
          · rw [same, Function.update_self] at found
            cases found
          · rw [Function.update_of_ne same] at found
            exact .inl (bound.owner string owner found)
        · exact .inl (bound.owner string owner found)
      push Not at inserts deletes
      rw [(registry_unchanged here moved inserts deletes).1] at found
      exact .inl (bound.owner string owner found)

/-- Whoever a key leads to is a client under the string of the key. -/
theorem Bound.lookup {server : ChatServer} (bound : server.Bound) {key : StringBuffer} {owner : Nat}
    (found : hashTableLookup server.usernamesHt (some key) = some owner) :
    server.Binds owner key.text :=
  bound.owner _ _ (bound.names.table.lookup_eq_some found)

/-- The keys of the table lead to different clients. -/
theorem Bound.found_nodup {server : ChatServer} (bound : server.Bound) :
    (server.usernamesHt.found (server.usernamesHt.entries.map Entry.key)).Nodup := by
  have distinct := List.pairwise_map.mp bound.names.table.holds.distinct
  rw [HashTable.found, List.filterMap_map, List.nodup_iff_pairwise_ne, List.pairwise_filterMap]
  refine distinct.imp ?_
  intro left right different owner toLeft other toRight same
  subst same
  exact different (binds_unique (bound.lookup toLeft) (bound.lookup toRight))

end ChatServer

/-! ## Steps -/

namespace Broadcasts

/-- Everything a recorded step can be. -/
inductive Steps (record : Broadcasts) : ChatServer.Label → Broadcasts → Prop
  | accept {session fd : Nat} (fresh : record.server.clients session = none)
      (free : record.server.openFD fd = none) :
      Steps record (.acceptConnection session fd)
        { record with server := record.server.enroll session fd }
  | close : Steps record .closeService
      { record with server := { record.server with quitSignal := true } }
  | run {session : Nat} {input : Input} {client client' : ClientInfo} {command : Command}
      (here : record.server.clients session = some client)
      (next : record.server.next session client input = some (client', command))
      (free : record.server.canPerform command = true) :
      Steps record (.run session input)
        (record.extend session client command (record.server.perform session client' command))

@[simp]
theorem extend_server (record : Broadcasts) (session : Nat) (client : ClientInfo)
    (command : Command) (after : ChatServer) :
    (record.extend session client command after).server = after := by
  fun_cases extend <;> rfl

theorem step_cases {before after : Broadcasts} {label : ChatServer.Label}
    (step : recordedBroadcasts.step before label = some after) :
    chatService.step before.server label = some after.server ∧ before.Steps label after := by
  obtain ⟨server, stepped, rfl⟩ := Option.map_eq_some_iff.mp step
  have keeps : (before.observe label server).server = server := by
    cases label with
    | run session input =>
        rw [observe]
        split
        · rfl
        · split
          · rfl
          · exact extend_server _ _ _ _ _
    | _ => rfl
  refine ⟨keeps.symm ▸ stepped, ?_⟩
  obtain ⟨-, steps⟩ := ChatServer.step_cases stepped
  cases steps with
  | accept fresh free small => exact .accept fresh free
  | close => exact .close
  | @run session input client client' command here next free =>
      have observed : before.observe (.run session input)
          (before.server.perform session client' command) =
            before.extend session client command
              (before.server.perform session client' command) := by
        simp only [observe, here, next]
      exact observed ▸ .run here next free

/-- The service of a recorded run has taken the same steps. -/
theorem reaches {record : Broadcasts} {guard : ChatServer → ChatServer.Label → Prop}
    (reached : recordedBroadcasts.ReachesVia (fun record label => guard record.server label)
      record) : chatService.ReachesVia guard record.server := by
  induction reached with
  | start initial =>
      obtain ⟨server, starts, rfl⟩ := initial
      exact .start starts
  | next _ guarded step ih => exact ih.next guarded (step_cases step).1

/-! ## The order -/

theorem held_of_walk {pc : Pc} {keys : List StringBuffer} (walks : pc.walk = some keys) :
    .usernamesHt ∈ pc.held := by
  revert walks
  fun_cases Pc.walk pc <;> simp [Pc.held]

/-- Nobody walks over the table. -/
def Idle (record : Broadcasts) : Prop :=
  ∀ session client, record.server.clients session = some client → client.pc.walk = none

/-- Everything due was handed out, but for what the walk of one thread still leads to. -/
structure InOrder (record : Broadcasts) : Prop where
  bound : record.server.Bound
  excludes : record.server.Excludes
  once : ∀ announcement ∈ record.begun, announcement.recipients.Nodup
  walking : ∀ session client keys, record.server.clients session = some client →
    client.pc.walk = some keys → record.current session + 1 = record.begun.length ∧
      record.log ++ (record.server.usernamesHt.found keys).map (record.current session, ·) =
        record.due
  idle : record.Idle → record.log = record.due

/-- Two threads do not walk at once. -/
theorem walk_unique {server : ChatServer} (excludes : server.Excludes) {left right : Nat}
    {leftClient rightClient : ClientInfo} {keys : List StringBuffer}
    (inLeft : server.clients left = some leftClient)
    (inRight : server.clients right = some rightClient) (leftWalks : leftClient.pc.walk = some keys)
    (holds : .usernamesHt ∈ rightClient.pc.held) : left = right :=
  Option.some.inj ((excludes left leftClient _ inLeft (held_of_walk leftWalks)).symm.trans
    (excludes right rightClient _ inRight holds))

theorem InOrder.start {server : ChatServer} (starts : server.Starts) :
    InOrder { server } where
  bound := .start starts
  excludes := .start starts
  once := by simp
  walking := by simp [starts.clients]
  idle _ := rfl

section Step

variable {record : Broadcasts} {session : Nat} {client client' : ClientInfo} {command : Command}

/-- A thread that can lock the table finds nobody walking over it. -/
theorem InOrder.nobody_walks (inOrder : record.InOrder)
    (free : record.server.canPerform (.lock .usernamesHt) = true) : record.Idle := by
  intro other found inside
  by_contra moves
  obtain ⟨keys, walks⟩ := Option.ne_none_iff_exists'.mp moves
  have holds := inOrder.excludes other found _ inside (held_of_walk walks)
  simp [ChatServer.canPerform, holds] at free

theorem InOrder.begins (inOrder : record.InOrder)
    (free : record.server.canPerform (.lock .usernamesHt) = true)
    (position : client.pc = .broadcast .lockUsernames)
    (walks : client'.pc = .broadcast (.send (record.server.usernamesHt.entries.map Entry.key)))
    (bound : (record.server.perform session client' (.lock .usernamesHt)).Bound)
    (excludes : (record.server.perform session client' (.lock .usernamesHt)).Excludes) :
    (record.extend session client (.lock .usernamesHt)
      (record.server.perform session client' (.lock .usernamesHt))).InOrder := by
  have nobody := inOrder.nobody_walks free
  simp only [extend, position]
  refine ⟨bound, excludes, ?_, ?_, ?_⟩
  · intro announcement member
    rcases List.mem_append.mp member with old | new
    · exact inOrder.once announcement old
    · rw [List.mem_singleton.mp new]
      exact inOrder.bound.found_nodup
  · intro other found keys inside isWalk
    rcases ChatServer.update_eq_some inside with ⟨rfl, rfl⟩ | ⟨-, inside⟩
    · rw [walks, Pc.walk, Option.some.injEq] at isWalk
      subst isWalk
      refine ⟨by simp, ?_⟩
      simp only [due, List.map_append, List.map_singleton, Turns.schedule_concat, List.length_map,
        Function.update_self]
      exact congrArg (· ++ _) (inOrder.idle nobody)
    · rw [nobody other found inside] at isWalk
      cases isWalk
  · intro idle
    have stays := idle session client' (Function.update_self _ _ _)
    rw [walks, Pc.walk] at stays
    cases stays

/-- A walk goes on with what is still due, and other threads do not walk. -/
theorem InOrder.advances (inOrder : record.InOrder) {keys keys' : List StringBuffer}
    {deliveries : List BroadcastDelivery} (here : record.server.clients session = some client)
    (stays : client.pc.walk = some keys) (walks : client'.pc.walk = some keys')
    (table : (record.server.perform session client' command).usernamesHt =
      record.server.usernamesHt)
    (hands : log { record with deliveries } ++
        (record.server.usernamesHt.found keys').map (record.current session, ·) =
      record.log ++ (record.server.usernamesHt.found keys).map (record.current session, ·))
    (bound : (record.server.perform session client' command).Bound)
    (excludes : (record.server.perform session client' command).Excludes) :
    InOrder { record with
      server := record.server.perform session client' command
      deliveries } := by
  obtain ⟨number, whole⟩ := inOrder.walking session client keys here stays
  refine ⟨bound, excludes, inOrder.once, ?_, ?_⟩
  · intro other found rest inside isWalk
    rcases ChatServer.update_eq_some inside with ⟨rfl, rfl⟩ | ⟨different, inside⟩
    · obtain rfl : keys' = rest := Option.some.inj (walks.symm.trans isWalk)
      refine ⟨number, ?_⟩
      rw [table]
      exact hands.trans whole
    · have same := walk_unique inOrder.excludes inside here isWalk (held_of_walk stays)
      exact absurd same different
  · intro idle
    have outside := idle session client' (Function.update_self _ _ _)
    rw [walks] at outside
    cases outside

/-- A walk that has visited all keys has handed out all that was due. -/
theorem InOrder.ends (inOrder : record.InOrder)
    (here : record.server.clients session = some client) (stays : client.pc.walk = some [])
    (walks : client'.pc.walk = none)
    (bound : (record.server.perform session client' command).Bound)
    (excludes : (record.server.perform session client' command).Excludes) :
    InOrder { record with server := record.server.perform session client' command } := by
  obtain ⟨-, whole⟩ := inOrder.walking session client [] here stays
  refine ⟨bound, excludes, inOrder.once, ?_, fun _ => (List.append_nil _).symm.trans whole⟩
  intro other found keys inside isWalk
  rcases ChatServer.update_eq_some inside with ⟨rfl, rfl⟩ | ⟨different, inside⟩
  · rw [walks] at isWalk
    cases isWalk
  · have same := walk_unique inOrder.excludes inside here isWalk (held_of_walk stays)
    exact absurd same different

/-- A step of a thread that stays outside of the table. -/
theorem InOrder.elsewhere (inOrder : record.InOrder) {input : Input}
    (here : record.server.clients session = some client)
    (next : record.server.next session client input = some (client', command))
    (stays : client.pc.walk = none) (walks : client'.pc.walk = none)
    (bound : (record.server.perform session client' command).Bound)
    (excludes : (record.server.perform session client' command).Excludes) :
    InOrder { record with server := record.server.perform session client' command } := by
  refine ⟨bound, excludes, inOrder.once, ?_, ?_⟩
  · intro other found keys inside isWalk
    rcases ChatServer.update_eq_some inside with ⟨rfl, rfl⟩ | ⟨different, inside⟩
    · rw [walks] at isWalk
      cases isWalk
    · have table := Round.usernamesHt_of_locked inOrder.excludes inside here different.symm next
        (held_of_walk isWalk)
      rw [table]
      exact inOrder.walking other found keys inside isWalk
  · intro idle
    refine inOrder.idle fun other found inside => ?_
    rcases eq_or_ne other session with rfl | different
    · obtain rfl : client = found := Option.some.inj (here.symm.trans inside)
      exact stays
    · exact idle other found ((Function.update_of_ne different _ _).trans inside)

/-- What an access that no walk makes leaves of a record. -/
theorem extend_quiet (after : ChatServer) (position : client.pc ≠ .broadcast .lockUsernames)
    (silent : client.pc.walk = none ∨ command = .skip) :
    record.extend session client command after = { record with server := after } := by
  fun_cases extend <;> simp_all [Pc.walk]

theorem found_cons_none {table : HashTable Nat} {key : StringBuffer} (keys : List StringBuffer)
    (missing : hashTableLookup table (some key) = none) :
    table.found (key :: keys) = table.found keys :=
  List.filterMap_cons_none missing

theorem found_cons_some {table : HashTable Nat} {key : StringBuffer} {owner : Nat}
    (keys : List StringBuffer) (hit : hashTableLookup table (some key) = some owner) :
    table.found (key :: keys) = owner :: table.found keys :=
  List.filterMap_cons_some hit

end Step

theorem InOrder.step {before after : Broadcasts} {label : ChatServer.Label}
    (inOrder : before.InOrder) (step : recordedBroadcasts.step before label = some after) :
    after.InOrder := by
  obtain ⟨stepped, steps⟩ := step_cases step
  have bound := inOrder.bound.step stepped
  have excludes := inOrder.excludes.step stepped
  cases steps with
  | @accept newcomer fd fresh free =>
      refine ⟨bound, excludes, inOrder.once, ?_, ?_⟩
      · intro session client keys here walks
        rcases ChatServer.update_eq_some here with ⟨-, rfl⟩ | ⟨-, here⟩
        · cases walks
        · exact inOrder.walking session client keys here walks
      · intro idle
        refine inOrder.idle fun session client here => idle session client ?_
        exact (Function.update_of_ne (ChatServer.ne_of_fresh fresh here) _ _).trans here
  | close => exact ⟨bound, excludes, inOrder.once, inOrder.walking, inOrder.idle⟩
  | @run session input client client' command here next free =>
      rw [extend_server] at bound excludes
      cases ChatServer.next_walk next with
      | begins position walks locks =>
          subst locks
          exact inOrder.begins free position walks bound excludes
      | @misses key keys position walks skips missing =>
          subst skips
          rw [extend_quiet _ (by simp [position]) (.inr rfl)]
          have absent : hashTableLookup before.server.usernamesHt (some key) = none := by
            by_contra present
            obtain ⟨owner, found⟩ := Option.ne_none_iff_exists'.mp present
            obtain ⟨target, inside, -⟩ := inOrder.bound.lookup found
            simp [found, inside] at missing
          refine inOrder.advances here (by rw [position, Pc.walk]) (by rw [walks, Pc.walk]) rfl ?_
            bound excludes
          rw [found_cons_none keys absent]
      | @sends key keys target result position walks sends hit =>
          subst sends
          obtain ⟨owner, found, -⟩ := Option.bind_eq_some_iff.mp hit
          simp only [extend, position]
          refine inOrder.advances here (by rw [position, Pc.walk]) (by rw [walks, Pc.walk]) ?_ ?_
            bound excludes
          · exact ChatServer.perform_usernamesHt _ _ _ _
          · have one : before.server.usernamesHt.found [key] = [owner] := found_cons_some [] found
            rw [one, found_cons_some keys found, log, List.map_append, List.append_assoc]
            rfl
      | ends position walks skips =>
          subst skips
          rw [extend_quiet _ (by simp [position]) (.inr rfl)]
          exact inOrder.ends here (by rw [position, Pc.walk]) (by simp [walks, Pc.walk]) bound
            excludes
      | elsewhere position stays walks =>
          rw [extend_quiet _ position (.inl stays)]
          exact inOrder.elsewhere here next stays walks bound excludes

theorem inOrder {record : Broadcasts} (reached : recordedBroadcasts.Reaches record) :
    record.InOrder := by
  refine reached.invariant ?_ fun _ _ _ _ inOrder step => inOrder.step step
  rintro _ ⟨server, starts, rfl⟩
  exact .start starts

theorem InOrder.isPrefix {record : Broadcasts} (inOrder : record.InOrder) :
    record.log <+: record.due := by
  by_cases idle : record.Idle
  · exact (inOrder.idle idle) ▸ List.prefix_rfl
  · simp only [Idle, not_forall] at idle
    obtain ⟨session, client, here, moves⟩ := idle
    obtain ⟨keys, walks⟩ := Option.ne_none_iff_exists'.mp moves
    exact ⟨_, (inOrder.walking session client keys here walks).2⟩

theorem InOrder.distinct {record : Broadcasts} (inOrder : record.InOrder) :
    ∀ recipients ∈ record.begun.map Announcement.recipients, recipients.Nodup := by
  intro recipients member
  obtain ⟨announcement, begun, rfl⟩ := List.mem_map.mp member
  exact inOrder.once announcement begun

/-- The broadcasts of all threads are one sequence of complete walks: what was sent is a prefix of
what is due, and all of it once nobody walks; every client is sent the broadcasts in ascending
order, none of them twice; and nothing of a broadcast is sent before the earlier ones are through.
-/
structure TotallyOrdered (record : Broadcasts) : Prop where
  kept : record.log <+: record.due
  settled : record.Idle → record.log = record.due
  ascending : ∀ client, (Turns.seen record.log client).Pairwise (· < ·)
  complete : ∀ earlier later client other, earlier < later → (later, other) ∈ record.log →
    (earlier, client) ∈ record.due → (earlier, client) ∈ record.log

/-- In every run all clients see the broadcasts in one order, even when several threads are in the
gather-and-broadcast loop. -/
theorem broadcasts_totally_ordered {record : Broadcasts}
    (reached : recordedBroadcasts.Reaches record) : record.TotallyOrdered := by
  have order := inOrder reached
  refine ⟨order.isPrefix, order.idle, ?_, ?_⟩
  · intro client
    exact Turns.seen_pairwise order.distinct order.isPrefix client
  · intro earlier later client other before begun due
    exact Turns.complete_of_later order.isPrefix before begun due

/-- Two clients, the second of which says something in each of two rounds. -/
def twoRoundsScript : List ChatServer.Label :=
  let round (message : List UInt8) : List ChatServer.Label :=
    ChatServer.ticks 1 1 ++ [.run 1 (.selected (some fun fd => fd == 5))] ++
      ChatServer.ticks 1 2 ++ [.run 1 (.received (.data message))] ++ ChatServer.ticks 1 6 ++
      [.run 1 (.sent .taken), .run 1 (.sent .taken)] ++ ChatServer.ticks 1 6
  ChatServer.twoClientsScript ++ round (literal "hi\n") ++ round (literal "ho\n")

theorem beforeService_initial :
    recordedBroadcasts.Initial { server := ChatServer.beforeService } :=
  ⟨_, ChatServer.beforeService_starts, rfl⟩

theorem broadcasts_totally_ordered_two_rounds :
    ∃ record, recordedBroadcasts.Reaches record ∧ record.TotallyOrdered ∧
      record.log = [(0, 2), (0, 1), (1, 2), (1, 1)] := by
  have executes : ((recordedBroadcasts.execute (fun _ _ => true)
      { server := ChatServer.beforeService } twoRoundsScript).map fun record => record.log) =
      some [(0, 2), (0, 1), (1, 2), (1, 1)] := by
    decide +kernel
  obtain ⟨record, executed, logged⟩ := Option.map_eq_some_iff.mp executes
  have reached := (LabelledSystem.ReachesVia.execute (.start beforeService_initial)
    executed).reaches
  exact ⟨record, reached, broadcasts_totally_ordered reached, logged⟩

/-! ## The texts -/

/-- The texts of the broadcasts under their numbers. -/
def texts (record : Broadcasts) : List (List UInt8) := record.begun.map Announcement.text

/-- Every `recv` of the gather loop returns data. -/
def receivesData (record : Broadcasts) (label : ChatServer.Label) : Bool :=
  record.server.gatherReceivesData label

/-- Whoever walks over the table finds its text in the common buffer, and every client is still
reached under its descriptor. -/
structure Uniform (record : Broadcasts) : Prop where
  kept : record.server.RoleKept
  walking : ∀ session client keys, record.server.clients session = some client →
    client.pc.walk = some keys → record.texts[record.current session]? =
      some (CString.text record.server.commonMsgBuffer)
  connected : ∀ session client, record.server.clients session = some client →
    record.server.openFD client.sockFD = some session
  sent : ∀ delivery ∈ record.deliveries, record.texts[delivery.number]? = some delivery.text ∧
    record.server.openFD delivery.fd = some delivery.recipient

theorem inLoop_of_walk {pc : Pc} {keys : List StringBuffer} (walks : pc.walk = some keys) :
    pc.inLoop := by
  revert walks
  fun_cases Pc.walk pc <;> simp [Pc.inLoop]

theorem Uniform.start {server : ChatServer} (starts : server.Starts) : Uniform { server } where
  kept := .start starts
  walking := by simp [starts.clients]
  connected := by simp [starts.clients]
  sent := by simp

section Texts

variable {record : Broadcasts} {session : Nat} {client client' : ClientInfo} {input : Input}
  {command : Command}

/-- Nobody departs, so no descriptor is closed. -/
theorem Uniform.openFD_perform (uniform : record.Uniform)
    (here : record.server.clients session = some client)
    (next : record.server.next session client input = some (client', command)) :
    (record.server.perform session client' command).openFD = record.server.openFD := by
  rw [ChatServer.perform_openFD]
  split
  · rename_i closed
    obtain ⟨position, -⟩ := (ChatServer.next_registry next).closes closed rfl
    have stays := uniform.kept.staying session client here
    rw [position] at stays
    cases stays
  · rfl

theorem Uniform.connected_perform (uniform : record.Uniform)
    (here : record.server.clients session = some client)
    (next : record.server.next session client input = some (client', command)) {other : Nat}
    {found : ClientInfo}
    (inside : (record.server.perform session client' command).clients other = some found) :
    (record.server.perform session client' command).openFD found.sockFD = some other := by
  rw [uniform.openFD_perform here next]
  rcases ChatServer.update_eq_some inside with ⟨rfl, rfl⟩ | ⟨-, inside⟩
  · rw [(ChatServer.next_registry next).sockFD]
    exact uniform.connected other client here
  · exact uniform.connected other found inside

/-- While a thread walks over the table the common buffer is left alone. -/
theorem Uniform.buffer_perform (uniform : record.Uniform)
    (here : record.server.clients session = some client)
    (next : record.server.next session client input = some (client', command)) {other : Nat}
    {found : ClientInfo} {keys : List StringBuffer}
    (inside : record.server.clients other = some found) (walks : found.pc.walk = some keys) :
    (record.server.perform session client' command).commonMsgBuffer =
      record.server.commonMsgBuffer := by
  rcases eq_or_ne other session with rfl | different
  · obtain rfl : client = found := Option.some.inj (here.symm.trans inside)
    rw [ChatServer.perform_commonMsgBuffer]
    cases ChatServer.next_walk next with
    | begins position => simp [position, Pc.walk] at walks
    | misses _ _ skips => rw [skips]
    | sends _ _ sends => rw [sends]
    | ends _ _ skips => rw [skips]
    | elsewhere _ stays =>
        rw [stays] at walks
        cases walks
  · apply ChatServer.commonMsgBuffer_perform next
    by_contra loops
    refine different (uniform.kept.unique other session found client inside here ?_ ?_)
    · rw [Pc.holdsRole, inLoop_of_walk walks, Bool.true_or]
    · rw [Pc.holdsRole, Bool.eq_true_of_not_eq_false loops, Bool.true_or]

/-- The record goes on with the same broadcasts. -/
theorem Uniform.goesOn (uniform : record.Uniform)
    (here : record.server.clients session = some client)
    (next : record.server.next session client input = some (client', command))
    (kept : (record.server.perform session client' command).RoleKept)
    {deliveries : List BroadcastDelivery}
    (stays : client'.pc.walk ≠ none → client.pc.walk ≠ none)
    (sent : ∀ delivery ∈ deliveries, record.texts[delivery.number]? = some delivery.text ∧
      record.server.openFD delivery.fd = some delivery.recipient) :
    Uniform { record with
      server := record.server.perform session client' command
      deliveries } where
  kept := kept
  walking := by
    intro other found keys inside walks
    have before : ∃ was keys, record.server.clients other = some was ∧
        was.pc.walk = some keys := by
      rcases ChatServer.update_eq_some inside with ⟨rfl, rfl⟩ | ⟨-, inside⟩
      · obtain ⟨keys, walked⟩ := Option.ne_none_iff_exists'.mp (stays (by simp [walks]))
        exact ⟨client, keys, here, walked⟩
      · exact ⟨found, keys, inside, walks⟩
    obtain ⟨was, keys, wasHere, walked⟩ := before
    have buffer := uniform.buffer_perform here next wasHere walked
    rw [buffer]
    exact uniform.walking other was keys wasHere walked
  connected _ _ inside := uniform.connected_perform here next inside
  sent delivery member := by
    rw [uniform.openFD_perform here next]
    exact sent delivery member

/-- A broadcast begins with the text it finds in the common buffer. -/
theorem Uniform.begins (uniform : record.Uniform) (inOrder : record.InOrder)
    (here : record.server.clients session = some client)
    (next : record.server.next session client input = some (client', .lock .usernamesHt))
    (free : record.server.canPerform (.lock .usernamesHt) = true)
    (position : client.pc = .broadcast .lockUsernames)
    (kept : (record.server.perform session client' (.lock .usernamesHt)).RoleKept) :
    (record.extend session client (.lock .usernamesHt)
      (record.server.perform session client' (.lock .usernamesHt))).Uniform := by
  have nobody := inOrder.nobody_walks free
  simp only [extend, position]
  refine ⟨kept, ?_, fun _ _ inside => uniform.connected_perform here next inside, ?_⟩
  · intro other found keys inside walks
    rcases ChatServer.update_eq_some inside with ⟨rfl, rfl⟩ | ⟨-, inside⟩
    · simp [texts, ChatServer.perform_commonMsgBuffer]
    · rw [nobody other found inside] at walks
      cases walks
  · intro delivery member
    obtain ⟨text, own⟩ := uniform.sent delivery member
    rw [uniform.openFD_perform here next]
    refine ⟨?_, own⟩
    have inside := (List.getElem?_eq_some_iff.mp text).1
    rw [texts, List.map_append]
    exact (List.getElem?_append_left inside).trans text

end Texts

theorem Uniform.step {before after : Broadcasts} {label : ChatServer.Label}
    (uniform : before.Uniform) (inOrder : before.InOrder)
    (receives : before.receivesData label = true)
    (step : recordedBroadcasts.step before label = some after) : after.Uniform := by
  obtain ⟨stepped, steps⟩ := step_cases step
  have kept := uniform.kept.step receives stepped
  cases steps with
  | @accept newcomer fd fresh free =>
      refine ⟨kept, ?_, ?_, ?_⟩
      · intro session client keys here walks
        rcases ChatServer.update_eq_some here with ⟨-, rfl⟩ | ⟨-, here⟩
        · cases walks
        · exact uniform.walking session client keys here walks
      · intro session client here
        rcases ChatServer.update_eq_some here with ⟨rfl, rfl⟩ | ⟨-, here⟩
        · exact Function.update_self _ _ _
        · exact ChatServer.openFD_enroll free (uniform.connected session client here)
      · intro delivery member
        obtain ⟨text, own⟩ := uniform.sent delivery member
        exact ⟨text, ChatServer.openFD_enroll free own⟩
  | close => exact ⟨kept, uniform.walking, uniform.connected, uniform.sent⟩
  | @run session input client client' command here next free =>
      rw [extend_server] at kept
      cases ChatServer.next_walk next with
      | begins position walks locks =>
          subst locks
          exact uniform.begins inOrder here next free position kept
      | @misses key keys position walks skips missing =>
          subst skips
          rw [extend_quiet _ (by simp [position]) (.inr rfl)]
          exact uniform.goesOn here next kept (by simp [position, Pc.walk]) uniform.sent
      | @sends key keys target result position walks sends hit =>
          subst sends
          obtain ⟨owner, found, isTarget⟩ := Option.bind_eq_some_iff.mp hit
          simp only [extend, position]
          refine uniform.goesOn here next kept (by simp [position, Pc.walk]) ?_
          intro delivery member
          rcases List.mem_append.mp member with old | new
          · exact uniform.sent delivery old
          · have one : before.server.usernamesHt.found [key] = [owner] := found_cons_some [] found
            rw [one] at new
            rw [List.mem_singleton.mp new]
            exact ⟨uniform.walking session client _ here (by rw [position, Pc.walk]),
              uniform.connected owner target isTarget⟩
      | ends position walks skips =>
          subst skips
          rw [extend_quiet _ (by simp [position]) (.inr rfl)]
          exact uniform.goesOn here next kept (by simp [position, Pc.walk]) uniform.sent
      | elsewhere position stays walks =>
          rw [extend_quiet _ position (.inl stays)]
          exact uniform.goesOn here next kept (by simp [walks]) uniform.sent

theorem seen_log (record : Broadcasts) (recipient : Nat) :
    Turns.seen record.log recipient = (record.deliveries.filter fun delivery =>
      decide (delivery.recipient = recipient)).map BroadcastDelivery.number := by
  rw [Turns.seen, log, List.filter_map, List.map_map]
  rfl

theorem uniform {record : Broadcasts} (reached : recordedBroadcasts.ReachesVia
    (fun record label => record.receivesData label = true) record) : record.Uniform := by
  refine reached.invariant ?_ fun _ _ _ earlier uniform receives step =>
    uniform.step (inOrder earlier.reaches) receives step
  rintro _ ⟨server, starts, rfl⟩
  exact .start starts

/-- What a client was sent is a part of the sequence of texts. -/
theorem Uniform.receivedBy {record : Broadcasts} (uniform : record.Uniform)
    (inOrder : record.InOrder) (client : Nat) :
    (record.receivedBy client).Sublist record.texts := by
  have ascending := Turns.seen_pairwise inOrder.distinct inOrder.isPrefix client
  rw [seen_log] at ascending
  refine Turns.picked_sublist ascending fun delivery member => ?_
  exact (uniform.sent delivery (List.mem_of_mem_filter member)).1

/-- Every text sent is the text of its broadcast and goes to the connection of the client it is for,
and what a client was sent is a part, in the same order, of the one sequence of broadcast texts. -/
structure OneSequence (record : Broadcasts) : Prop where
  text : ∀ delivery ∈ record.deliveries, record.texts[delivery.number]? = some delivery.text
  own : ∀ delivery ∈ record.deliveries,
    record.server.openFD delivery.fd = some delivery.recipient
  received : ∀ client, (record.receivedBy client).Sublist record.texts

/-- While the gather loops receive data only, all clients are sent parts of one sequence of texts.
-/
theorem clients_receive_one_sequence {record : Broadcasts}
    (reached : recordedBroadcasts.ReachesVia
      (fun record label => record.receivesData label = true) record) : record.OneSequence := by
  have order := inOrder reached.reaches
  have same := uniform reached
  exact ⟨fun delivery member => (same.sent delivery member).1,
    fun delivery member => (same.sent delivery member).2, same.receivedBy order⟩

theorem clients_receive_one_sequence_two_rounds :
    ∃ record, recordedBroadcasts.Reaches record ∧ record.OneSequence ∧
      record.receivedBy 1 = [literal "b> hi\n", literal "b> ho\n"] := by
  have executes : ((recordedBroadcasts.execute (fun record label => record.receivesData label)
      { server := ChatServer.beforeService } twoRoundsScript).map fun record =>
        record.receivedBy 1) = some [literal "b> hi\n", literal "b> ho\n"] := by
    decide +kernel
  obtain ⟨record, executed, received⟩ := Option.map_eq_some_iff.mp executes
  have reached := LabelledSystem.ReachesVia.execute (.start beforeService_initial) executed
  exact ⟨record, reached.reaches, clients_receive_one_sequence reached, received⟩

end Broadcasts
end CmyMessage
