import CmyMessage.Broadcast.Registry

/-!
# Acceptance and registration

A name is looked up in the receive buffer and inserted as its copy cut to nineteen bytes.  The copy
hashes like the string alone, the buffer only if no byte behind the terminator falls into the hashed
window, and a string longer than nineteen bytes is never found.  The two answers are compared over
the steps a thread takes by itself after it has received a name.
-/

namespace CmyMessage
namespace ChatServer

/-! ## Names in the table -/

/-- Every name in the table fits its client's block. -/
structure NamesShort (server : ChatServer) : Prop where
  table : UsernamesTable server.usernamesHt
  stored : ∀ session client, server.clients session = some client → client.pc.told →
    ∃ buffer, client.name = storedName buffer
  short : ∀ string session, server.usernamesHt.contents string = some session →
    string.length ≤ maxUsernameLength - 1

theorem NamesShort.start {server : ChatServer} (starts : server.Starts) : server.NamesShort := by
  refine ⟨?_, by simp [starts.clients], ?_⟩
  · rw [starts.usernamesHt]
    exact .create
  · intro string session found
    simp [starts.usernamesHt, UsernamesTable.create_contents] at found

theorem NamesShort.step {before after : ChatServer} {label : Label} (names : before.NamesShort)
    (step : chatService.step before label = some after) : after.NamesShort := by
  obtain ⟨-, steps⟩ := step_cases step
  cases steps with
  | accept fresh free small =>
      refine ⟨names.table, ?_, names.short⟩
      intro other client inside told
      rcases update_eq_some inside with ⟨-, rfl⟩ | ⟨-, inside⟩
      · simp [Pc.told] at told
      · exact names.stored other client inside told
  | close => exact ⟨names.table, names.stored, names.short⟩
  | @run session input client client' command here next free =>
      have moved := next_registry next
      have stored := stored_perform names.stored here moved
      by_cases inserts : ∃ leftover, command = .insertUsername leftover
      · obtain ⟨leftover, rfl⟩ := inserts
        obtain ⟨same, buffer, isStored⟩ := inserting_stored names.stored here moved rfl
        rw [isStored] at same
        have filled := storedName_zeroFilled buffer
        rw [← same] at filled
        obtain ⟨table, contents⟩ := names.table.insert filled leftover session
        refine ⟨by rw [perform_usernamesHt]; exact table, stored, ?_⟩
        intro string owner found
        rw [perform_usernamesHt, contents, StringBuffer.ofBlock_text] at found
        rcases StringMap.insert_eq_some found with old | ⟨rfl, -⟩
        · exact names.short string owner old
        · rw [same]
          exact text_storedName_length buffer
      by_cases deletes : ∃ key departing, command = .deleteUsername key departing
      · obtain ⟨key, departing, rfl⟩ := deletes
        obtain ⟨table, contents⟩ := names.table.delete (.ofBlock key)
        refine ⟨by rw [perform_usernamesHt]; exact table, stored, ?_⟩
        intro string owner found
        rw [perform_usernamesHt, contents] at found
        split at found
        · by_cases same : string = (StringBuffer.ofBlock key).text
          · rw [same, Function.update_self] at found
            cases found
          · exact names.short string owner (by rwa [Function.update_of_ne same] at found)
        · exact names.short string owner found
      push Not at inserts deletes
      obtain ⟨table, -, -⟩ := registry_unchanged here moved inserts deletes
      exact ⟨table ▸ names.table, stored, table ▸ names.short⟩

theorem namesShort {server : ChatServer} (reached : chatService.Reaches server) :
    server.NamesShort :=
  reached.invariant (fun _ starts => NamesShort.start starts)
    fun _ _ _ _ names step => names.step step

/-! ## The handshake alone -/

/-- Steps of one thread that receive nothing, with no other client acting in between. -/
def ActsAlone (session : Nat) : ChatServer → ChatServer → Prop :=
  Relation.ReflTransGen fun before after => ∃ input, (∀ result, input ≠ .received result) ∧
    chatService.step before (.run session input) = some after

theorem ActsAlone.execute {session : Nat} {before after : ChatServer} {inputs : List Input}
    (silent : ∀ input ∈ inputs, ∀ result, input ≠ .received result)
    (executed : chatService.execute (fun _ _ => true) before (inputs.map (.run session)) =
      some after) : ActsAlone session before after := by
  induction inputs generalizing before with
  | nil =>
      cases executed
      exact .refl
  | cons input inputs ih =>
      obtain ⟨middle, step, rest⟩ := Option.bind_eq_some_iff.mp executed
      exact .head ⟨input, silent input List.mem_cons_self, step⟩
        (ih (fun other member => silent other (List.mem_cons_of_mem _ member)) rest)

/-- The insertion of an accepted name succeeds, and a thread that found the name in the table asks
its client for another one. -/
def AnswersTruly (server : ChatServer) (session : Nat) : Prop :=
  ∀ client, server.clients session = some client →
    (client.pc = .accept .insert → ∀ leftover, (hashTableInsert server.usernamesHt leftover
      (some (.ofBlock client.name)) (some session)).1 = true) ∧
    (client.pc = .ask .reject → ∀ result, ∃ client',
      server.next session client (.sent result) =
        some (client', .send client.sockFD rejectionMsg result))

/-- A thread that looked a buffer up in the table, up to the insertion. -/
def Answering (table : HashTable Nat) (buffer : List UInt8) (server : ChatServer)
    (client : ClientInfo) : Prop :=
  client.pc.inserted ∨ client.pc = .ask .receive ∨
    server.usernamesHt = table ∧
      match client.pc with
      | .ask .lockUsernames => client.buffer = buffer
      | .ask .lookup => client.buffer = buffer
      | .ask (.unlockUsernames present) =>
          client.buffer = buffer ∧ (hashTableLookup table (some (.ofBlock buffer))).isSome = present
      | .ask .reject => (hashTableLookup table (some (.ofBlock buffer))).isSome = true
      | .accept .inform =>
          client.buffer = buffer ∧ hashTableLookup table (some (.ofBlock buffer)) = none
      | .accept .lockUsernames | .accept .insert =>
          client.name = storedName buffer ∧ hashTableLookup table (some (.ofBlock buffer)) = none
      | _ => False

theorem Answering.step {table : HashTable Nat} {buffer : List UInt8} {server : ChatServer}
    {session : Nat} {client client' : ClientInfo} {input : Input} {command : Command}
    (answering : Answering table buffer server client) (silent : ∀ result, input ≠ .received result)
    (next : server.next session client input = some (client', command)) :
    Answering table buffer (server.perform session client' command) client' := by
  rcases answering with inserted | asks | ⟨same, answering⟩
  · exact .inl ((next_registry next).insertedStays inserted)
  · rw [ChatServer.next, asks] at next
    cases input with
    | received result => exact absurd rfl (silent result)
    | _ => cases next
  · revert next
    rw [ChatServer.next]
    cases position : client.pc with
    | ask pc =>
        simp only [position] at answering ⊢
        fun_cases askAndAssignUsername server client pc input <;> rintro ⟨⟩ <;>
          simp_all [Answering, ClientInfo.goto, perform_usernamesHt, Pc.inserted]
    | accept pc =>
        simp only [position] at answering ⊢
        fun_cases acceptAndStoreClientUsername client pc input <;> rintro ⟨⟩ <;>
          simp_all [Answering, ClientInfo.goto, perform_usernamesHt, Pc.inserted]
    | _ => simp [position] at answering

theorem Answering.alone {table : HashTable Nat} {buffer : List UInt8} {session : Nat}
    {received after : ChatServer} {client : ClientInfo}
    (answering : Answering table buffer received client)
    (alone : ActsAlone session received after)
    (here : received.clients session = some client) :
    ∃ client', after.clients session = some client' ∧ Answering table buffer after client' := by
  induction alone with
  | refl => exact ⟨client, here, answering⟩
  | tail _ acts ih =>
      obtain ⟨client', inside, answering⟩ := ih
      obtain ⟨input, silent, step⟩ := acts
      obtain ⟨-, steps⟩ := step_cases step
      cases steps with
      | @run _ _ found client'' command found_here next free =>
          obtain rfl : client' = found := Option.some.inj (inside.symm.trans found_here)
          exact ⟨client'', by simp, answering.step silent next⟩

/-- Behind its `recv`, a thread stands before the lookup. -/
theorem name_received {server received : ChatServer} {session : Nat} {client : ClientInfo}
    (here : server.clients session = some client) (asks : client.pc = .ask .receive)
    {bytes : List UInt8}
    (step : chatService.step server (.run session (.received (.data bytes))) = some received) :
    server.terminated = none ∧ received = server.perform session
      ({ client with buffer := bytes.set (bytes.length - 1) 0 }.goto (.ask .lockUsernames))
      .skip := by
  obtain ⟨running, steps⟩ := step_cases step
  refine ⟨running, ?_⟩
  cases steps with
  | @run _ _ found client' command found_here next free =>
      obtain rfl : client = found := Option.some.inj (here.symm.trans found_here)
      rw [ChatServer.next, asks] at next
      simp only [askAndAssignUsername] at next
      split at next <;> cases next
      rfl

/-- A thread has come somewhere by itself, and nobody holds the table if it does not. -/
structure ComesTo (session : Nat) (received : ChatServer) (client : ClientInfo) (holds : Bool) :
    Prop where
  comes : ∃ server, ActsAlone session received server ∧ server.terminated = none ∧
    server.clients session = some client ∧ server.usernamesHt = received.usernamesHt ∧
    (holds = false → server.holder .usernamesHt = none)

namespace ComesTo

variable {session : Nat} {received : ChatServer} {client client' : ClientInfo} {input : Input}

theorem skip {holds : Bool} (comes : ComesTo session received client holds)
    (silent : ∀ result, input ≠ .received result)
    (next : ∀ server : ChatServer, server.usernamesHt = received.usernamesHt →
      server.next session client input = some (client', .skip)) :
    ComesTo session received client' holds := by
  obtain ⟨server, alone, running, here, table, free⟩ := comes
  have step := run_step running here (next server table) rfl
  exact ⟨_, alone.tail ⟨input, silent, step⟩, running, by simp, table, free⟩

theorem send {holds : Bool} {fd : Nat} {text : List UInt8}
    (comes : ComesTo session received client holds)
    (silent : ∀ result, input ≠ .received result)
    (next : ∀ server : ChatServer,
      server.next session client input = some (client', .send fd text .taken)) :
    ComesTo session received client' holds := by
  obtain ⟨server, alone, running, here, table, free⟩ := comes
  have step := run_step running here (next server) rfl
  exact ⟨_, alone.tail ⟨input, silent, step⟩, running, by simp, table, free⟩

theorem lock (comes : ComesTo session received client false)
    (silent : ∀ result, input ≠ .received result)
    (next : ∀ server : ChatServer,
      server.next session client input = some (client', .lock .usernamesHt)) :
    ComesTo session received client' true := by
  obtain ⟨server, alone, running, here, table, free⟩ := comes
  have step := run_step running here (next server) (Option.isNone_iff_eq_none.mpr (free rfl))
  exact ⟨_, alone.tail ⟨input, silent, step⟩, running, by simp, table,
    fun held => by cases held⟩

theorem unlock (comes : ComesTo session received client true)
    (silent : ∀ result, input ≠ .received result)
    (next : ∀ server : ChatServer,
      server.next session client input = some (client', .unlock .usernamesHt)) :
    ComesTo session received client' false := by
  obtain ⟨server, alone, running, here, table, -⟩ := comes
  have step := run_step running here (next server) rfl
  exact ⟨_, alone.tail ⟨input, silent, step⟩, running, by simp, table,
    fun _ => by simp [perform_holder]⟩

end ComesTo

/-- Once its lookup has missed, a thread gets to its insertion by itself. -/
theorem comes_to_insertion {received : ChatServer} {session : Nat} {client : ClientInfo}
    (comes : ComesTo session received client false) (looks : client.pc = .ask .lockUsernames)
    (missed : hashTableLookup received.usernamesHt (some (.ofBlock client.buffer)) = none) :
    ∃ client', ComesTo session received client' true ∧ client'.pc = .accept .insert ∧
      client'.name = storedName client.buffer := by
  have silent : ∀ result, Input.tick ≠ .received result := fun _ => Input.noConfusion
  have locked : ComesTo session received (client.goto (.ask .lookup)) true :=
    comes.lock silent fun server => by rw [next, looks]; rfl
  have looked : ComesTo session received (client.goto (.ask (.unlockUsernames false))) true :=
    locked.skip silent fun server same => by
      change server.askAndAssignUsername (client.goto (.ask .lookup)) .lookup .tick = _
      rw [askAndAssignUsername, same]
      simp only [ClientInfo.goto, missed]
  have unlocked : ComesTo session received (client.goto (.accept .inform)) false :=
    looked.unlock silent fun server => rfl
  have taken : ∀ result, Input.sent .taken ≠ .received result := fun _ => Input.noConfusion
  have told := unlocked.send taken fun server => rfl
  exact ⟨_, told.lock silent fun server => rfl, rfl, rfl⟩

/-! ## When the answers agree -/

/-- If the lookup misses, the insertion succeeds exactly when the name as it is stored is free. -/
theorem insert_stored_iff {table : HashTable Nat} (usernames : UsernamesTable table)
    (buffer leftover : List UInt8) (session : Nat) :
    (hashTableInsert table leftover (some (.ofBlock (storedName buffer))) (some session)).1 = true ↔
      table.contents ((CString.text buffer).take (maxUsernameLength - 1)) = none := by
  obtain ⟨answer, -⟩ := usernames.holds.insert
    (usernames.assigns (storedName_zeroFilled buffer)) leftover session
  rw [answer, StringBuffer.ofBlock_text, text_storedName, StringMap.insert]
  split <;> simp_all

/-- The lookup sees to it that the stored name is free exactly when that name is free anyway, or
when nothing was cut off and the buffer hashes into the bucket of its string. -/
theorem lookup_suffices_iff {table : HashTable Nat} (usernames : UsernamesTable table)
    (short : ∀ string session, table.contents string = some session →
      string.length ≤ maxUsernameLength - 1) (key : StringBuffer) :
    (hashTableLookup table (some key) = none →
      table.contents (key.text.take (maxUsernameLength - 1)) = none) ↔
      table.contents (key.text.take (maxUsernameLength - 1)) = none ∨
        key.text.length ≤ maxUsernameLength - 1 ∧ table.Assigns key := by
  constructor
  · intro suffices'
    cases found : hashTableLookup table (some key) with
    | none => exact .inl (suffices' found)
    | some owner =>
        obtain ⟨assigned, bound⟩ := usernames.holds.lookup_eq_some found
        exact .inr ⟨short _ owner bound, assigned⟩
  · rintro (unbound | ⟨uncut, assigned⟩) missed
    · exact unbound
    · rw [List.take_of_length_le uncut, ← usernames.holds.lookup_of_assigns assigned, missed]

theorem text_rejectionMsg :
    CString.text (CString.strncpy [] rejectionMsg rejectionMsg.length) = rejectionMsg := by
  decide +kernel

theorem reject_sends (server : ChatServer) (session : Nat) {client : ClientInfo}
    (rejects : client.pc = .ask .reject) (result : SendResult) :
    ∃ client', server.next session client (.sent result) =
      some (client', .send client.sockFD rejectionMsg result) := by
  let asking : ClientInfo :=
    { client with buffer := CString.strncpy [] rejectionMsg rejectionMsg.length }
  refine ⟨asking.goto (.ask .receive), ?_⟩
  rw [next, rejects]
  simp only [askAndAssignUsername, text_rejectionMsg, asking]

/-- A name that a thread accepts is registered, and a name it does not accept is refused, exactly if
the name as it is stored is free, or nothing was cut off and the bytes of the receive buffer hash
into the bucket of the string in them. -/
theorem acceptance_registers_iff {server received : ChatServer}
    (reached : chatService.Reaches server) {session : Nat} {client : ClientInfo}
    (here : server.clients session = some client) (asks : client.pc = .ask .receive)
    (bytes : List UInt8)
    (step : chatService.step server (.run session (.received (.data bytes))) = some received)
    (free : server.holder .usernamesHt = none) :
    (∀ after, ActsAlone session received after → after.AnswersTruly session) ↔
      let key := StringBuffer.ofBlock (bytes.set (bytes.length - 1) 0)
      server.usernamesHt.contents (key.text.take (maxUsernameLength - 1)) = none ∨
        key.text.length ≤ maxUsernameLength - 1 ∧ server.usernamesHt.Assigns key := by
  have names := (namesShort reached).step step
  obtain ⟨running, isReceived⟩ := name_received here asks step
  set buffer := bytes.set (bytes.length - 1) 0
  set named := { client with buffer }.goto (.ask .lockUsernames)
  have inside : received.clients session = some named := by
    rw [isReceived, perform_clients, Function.update_self]
  have table : received.usernamesHt = server.usernamesHt := by
    rw [isReceived, perform_usernamesHt]
  rw [← table]
  refine Iff.trans ?_ (lookup_suffices_iff names.table names.short (.ofBlock buffer))
  constructor
  · intro truly missed
    have comes : ComesTo session received named false := by
      refine ⟨received, .refl, ?_, inside, rfl, fun _ => ?_⟩
      · rw [isReceived, perform_terminated]
        exact running
      · rw [isReceived, perform_holder]
        exact free
    obtain ⟨client', comes, at_insert, name⟩ := comes_to_insertion comes rfl missed
    obtain ⟨after, alone, -, inside', same, -⟩ := comes
    have inserted := (truly after alone client' inside').1 at_insert []
    rw [same, name] at inserted
    exact (insert_stored_iff names.table buffer [] session).mp inserted
  · intro suffices' after alone client' inside'
    have answering : Answering received.usernamesHt buffer received named := .inr (.inr ⟨rfl, rfl⟩)
    obtain ⟨found, found_here, answering⟩ := answering.alone alone inside
    obtain rfl : client' = found := Option.some.inj (inside'.symm.trans found_here)
    constructor
    · intro at_insert leftover
      rw [Answering, at_insert] at answering
      rcases answering with inserted | asks | ⟨same, name, missed⟩
      · simp [Pc.inserted] at inserted
      · cases asks
      · rw [same, name, insert_stored_iff names.table]
        exact suffices' missed
    · intro rejects result
      exact reject_sends after session rejects result

/-- The first client is called by nineteen bytes `a`, and the second one is asked for its name. -/
def nineteenScript : List Label :=
  connectScript 1 4 (List.replicate 19 97) ++ registerScript 1 ++ [.acceptConnection 2 5] ++
    [.tick, .allocation true, .tick, .allocation true, .sent .taken].map (.run 2)

/-- The second client is called `b`. -/
theorem acceptance_registers_iff_free_name :
    ∃ server received, chatService.Reaches server ∧
      chatService.step server (.run 2 (.received (.data [98, 10]))) = some received ∧
      ∀ after, ActsAlone 2 received after → after.AnswersTruly 2 := by
  have executes : ((chatService.execute (fun _ _ => true) beforeService nineteenScript).bind
      fun server => (chatService.step server (.run 2 (.received (.data [98, 10])))).map fun _ =>
        ((server.clients 2).map fun client => client.pc, server.holder .usernamesHt,
          server.usernamesHt.contents [98])) = some (some (.ask .receive), none, none) := by
    decide +kernel
  obtain ⟨server, executed, rest⟩ := Option.bind_eq_some_iff.mp executes
  obtain ⟨received, step, facts⟩ := Option.map_eq_some_iff.mp rest
  obtain ⟨position, facts⟩ := Prod.mk.inj facts
  obtain ⟨free, unbound⟩ := Prod.mk.inj facts
  obtain ⟨client, here, asks⟩ := Option.map_eq_some_iff.mp position
  have reached := executed_reaches executed
  exact ⟨server, received, reached, step,
    (acceptance_registers_iff reached here asks [98, 10] step free).mpr (.inl unbound)⟩

/-- The second client asks for twenty bytes `a`.  It is told that this is its name, and the
insertion of the first nineteen of them fails. -/
theorem accepted_not_registered :
    ∃ server received after, chatService.Reaches server ∧
      chatService.step server
        (.run 2 (.received (.data (List.replicate 20 97 ++ [10])))) = some received ∧
      ActsAlone 2 received after ∧ ¬ after.AnswersTruly 2 := by
  have executes : ((chatService.execute (fun _ _ => true) beforeService nineteenScript).bind
      fun server => (chatService.step server
        (.run 2 (.received (.data (List.replicate 20 97 ++ [10]))))).bind fun received =>
        (chatService.execute (fun _ _ => true) received
          ([.tick, .tick, .tick, .sent .taken, .tick].map (.run 2))).map fun after =>
            (after.clients 2).map fun client => (client.pc,
              (hashTableInsert after.usernamesHt [] (some (.ofBlock client.name)) (some 2)).1)) =
      some (some (.accept .insert, false)) := by
    decide +kernel
  obtain ⟨server, executed, rest⟩ := Option.bind_eq_some_iff.mp executes
  obtain ⟨received, step, rest⟩ := Option.bind_eq_some_iff.mp rest
  obtain ⟨after, alone, facts⟩ := Option.map_eq_some_iff.mp rest
  obtain ⟨client, here, facts⟩ := Option.map_eq_some_iff.mp facts
  obtain ⟨inserting, fails⟩ := Prod.mk.inj facts
  refine ⟨server, received, after, ?_, step, .execute (by simp) alone, fun truly => ?_⟩
  · exact executed_reaches executed
  · rw [(truly client here).1 inserting []] at fails
    cases fails

end ChatServer
end CmyMessage
