import CmyMessage.Broadcast.Acceptance

/-!
# Registering and removing a name

A name is inserted under the client's own block and later deleted under the copy in the array of
names by descriptor, or under the block again.  The three blocks are filled differently, but the
twenty bytes the table hashes are the same, so whatever happens to other names in between, the
deletion finds the entry and removes nothing else.
-/

namespace CmyMessage
namespace ChatServer

/-- Deleting under a key succeeds and removes the entry of one client and no other. -/
structure RemovesExactly (server : ChatServer) (session : Nat) (key : List UInt8) : Prop where
  found : hashTableLookup server.usernamesHt (some (.ofBlock key)) = some session
  succeeds : (hashTableDeleteElement server.usernamesHt (some (.ofBlock key))).1 = true
  leaves : ∀ other, hashTableLookup
      (hashTableDeleteElement server.usernamesHt (some (.ofBlock key))).2 (some other) =
    if other.text = CString.text key then none else hashTableLookup server.usernamesHt (some other)

/-- The service from the successful insertion of a client's name on. -/
def afterInsertion (session : Nat) (client : ClientInfo) : LabelledSystem ChatServer Label where
  Initial after := ∃ before leftover, chatService.Reaches before ∧
    before.clients session = some client ∧ client.pc = .accept .insert ∧
    (hashTableInsert before.usernamesHt leftover (some (.ofBlock client.name))
      (some session)).1 = true ∧
    chatService.step before (.run session (.memory leftover)) = some after
  step := chatService.step

/-- No other client registers under the descriptor, and every name that is deleted is another. -/
def sparesRegistration (session : Nat) (client : ClientInfo) (server : ChatServer) :
    Label → Bool
  | .run other _ =>
      match server.clients other with
      | none => true
      | some otherClient =>
          decide (otherClient.pc = .accept .relate → otherClient.sockFD = client.sockFD →
            other = session) &&
          match server.deletion other otherClient with
          | none => true
          | some (key, _) => decide (CString.text key ≠ CString.text client.name)
  | _ => true

theorem sparesRegistration_run {session other : Nat} {client otherClient : ClientInfo}
    {server : ChatServer} {input : Input} (here : server.clients other = some otherClient)
    (spares : server.sparesRegistration session client (.run other input) = true) :
    (otherClient.pc = .accept .relate → otherClient.sockFD = client.sockFD → other = session) ∧
      ∀ key departing, server.deletion other otherClient = some (key, departing) →
        CString.text key ≠ CString.text client.name := by
  simp only [sparesRegistration, here, Bool.and_eq_true, decide_eq_true_eq] at spares
  obtain ⟨unrelated, undeleted⟩ := spares
  refine ⟨unrelated, fun key departing deletes => ?_⟩
  simpa only [deletes, decide_eq_true_eq] using undeleted

/-- Where descriptors belong to the clients they were accepted for, a client that still owns its
descriptor is the only one to register under it. -/
theorem Ownership.sparesRegistration {server : ChatServer} (ownership : server.Ownership)
    {session other : Nat} {client otherClient : ClientInfo} {input : Input}
    (owned : server.openFD client.sockFD = some session)
    (here : server.clients other = some otherClient)
    (undeleted : ∀ key departing, server.deletion other otherClient = some (key, departing) →
      CString.text key ≠ CString.text client.name) :
    server.sparesRegistration session client (.run other input) = true := by
  simp only [ChatServer.sparesRegistration, here, Bool.and_eq_true, decide_eq_true_eq]
  constructor
  · intro at_relate same
    have owns := ownership.owns other otherClient here (by rw [at_relate]; rfl)
    rw [same, owned] at owns
    exact (Option.some.inj owns).symm
  · cases deletes : server.deletion other otherClient with
    | none => rfl
    | some pending => exact decide_eq_true (undeleted pending.1 pending.2 deletes)

/-! ## The registration along a run -/

/-- The client's entry is in the table, under the name that its block and, once it is written, the
array of names by descriptor hold. -/
structure Registration (session : Nat) (client : ClientInfo) (server : ChatServer) : Prop where
  names : server.NamesShort
  stored : ∃ buffer, client.name = storedName buffer
  bound : server.usernamesHt.contents (CString.text client.name) = some session
  stays : ∃ now, server.clients session = some now ∧ now.pc.inserted ∧
    now.sockFD = client.sockFD ∧ now.name = client.name ∧
    (now.pc.related → server.usernamesByFD client.sockFD =
      CString.strncpy [] client.name maxUsernameLength)

section Perform

variable {session runner : Nat} {server : ChatServer} {client mover mover' : ClientInfo}
  {input : Input} {command : Command}

theorem Registration.bound_perform (registration : server.Registration session client)
    (here : server.clients runner = some mover)
    (moved : server.RegistryStep runner mover mover' command)
    (spares : server.sparesRegistration session client (.run runner input) = true) :
    (server.perform runner mover' command).usernamesHt.contents (CString.text client.name) =
      some session := by
  have bound := registration.bound
  rw [perform_usernamesHt]
  split
  · rename_i leftover
    obtain ⟨same, buffer, isStored⟩ :=
      inserting_stored registration.names.stored here moved rfl
    have filled := storedName_zeroFilled buffer
    rw [← isStored, ← same] at filled
    rw [(registration.names.table.insert filled leftover runner).2]
    exact StringMap.insert_keeps bound _ _
  · rename_i key departing
    have different := (sparesRegistration_run here spares).2 key departing
      ((moved.deletes key departing).mp rfl)
    rw [(registration.names.table.delete (.ofBlock key)).2]
    split
    · rw [Function.update_of_ne (by exact different.symm)]
      exact bound
    · exact bound
  · exact bound

theorem Registration.stays_perform (registration : server.Registration session client)
    (here : server.clients runner = some mover)
    (moved : server.RegistryStep runner mover mover' command)
    (spares : server.sparesRegistration session client (.run runner input) = true) :
    ∃ now, (server.perform runner mover' command).clients session = some now ∧ now.pc.inserted ∧
      now.sockFD = client.sockFD ∧ now.name = client.name ∧
      (now.pc.related → (server.perform runner mover' command).usernamesByFD client.sockFD =
        CString.strncpy [] client.name maxUsernameLength) := by
  obtain ⟨now, inside, inserted, sockFD, name, written⟩ := registration.stays
  rcases eq_or_ne session runner with rfl | different
  · obtain rfl : now = mover := Option.some.inj (inside.symm.trans here)
    have name' : mover'.name = client.name :=
      (moved.told (Pc.told_of_inserted inserted)).2.trans name
    have sockFD' : mover'.sockFD = client.sockFD := moved.sockFD.trans sockFD
    refine ⟨mover', Function.update_self _ _ _, moved.insertedStays inserted, sockFD', name', ?_⟩
    intro related
    rw [perform_usernamesByFD]
    split
    · rw [sockFD', name', Function.update_self]
    · rename_i unrelated
      exact written ((moved.related related).resolve_right unrelated)
  · refine ⟨now, (Function.update_of_ne different _ _).trans inside, inserted, sockFD, name, ?_⟩
    intro related
    rw [perform_usernamesByFD]
    split
    · have elsewhere : client.sockFD ≠ mover'.sockFD := by
        intro same
        have relates := (sparesRegistration_run here spares).1 (moved.relates rfl)
        exact different (relates (moved.sockFD.symm.trans same.symm)).symm
      rw [Function.update_of_ne elsewhere]
      exact written related
    · exact written related

end Perform

theorem Registration.step {session : Nat} {client : ClientInfo} {before after : ChatServer}
    {label : Label} (registration : before.Registration session client)
    (spares : before.sparesRegistration session client label = true)
    (step : chatService.step before label = some after) : after.Registration session client := by
  have names := registration.names.step step
  obtain ⟨-, steps⟩ := step_cases step
  cases steps with
  | accept fresh free small =>
      obtain ⟨now, inside, kept⟩ := registration.stays
      have different := ne_of_fresh fresh inside
      exact ⟨names, registration.stored, registration.bound, now,
        (Function.update_of_ne different _ _).trans inside, kept⟩
  | close => exact ⟨names, registration.stored, registration.bound, registration.stays⟩
  | run here next free =>
      have moved := next_registry next
      exact ⟨names, registration.stored, registration.bound_perform here moved spares,
        registration.stays_perform here moved spares⟩

theorem Registration.start {session : Nat} {client : ClientInfo} {after : ChatServer}
    (initial : (afterInsertion session client).Initial after) :
    after.Registration session client := by
  obtain ⟨before, leftover, reached, here, at_insert, succeeds, step⟩ := initial
  have names := namesShort reached
  obtain ⟨buffer, isStored⟩ := names.stored session client here (by rw [at_insert]; rfl)
  obtain ⟨-, steps⟩ := step_cases step
  cases steps with
  | @run _ _ mover client' command inside next free =>
      obtain rfl : client = mover := Option.some.inj (here.symm.trans inside)
      have filled := storedName_zeroFilled buffer
      rw [← isStored] at filled
      have absent : before.usernamesHt.contents (CString.text client.name) = none := by
        rw [isStored, insert_stored_iff names.table] at succeeds
        rw [isStored, text_storedName]
        exact succeeds
      simp only [ChatServer.next, at_insert, acceptAndStoreClientUsername, Option.some.injEq,
        Prod.mk.injEq] at next
      obtain ⟨rfl, rfl⟩ := next
      refine ⟨names.step step, ⟨buffer, isStored⟩, ?_, _, Function.update_self _ _ _, rfl, rfl, rfl,
        ?_⟩
      · rw [perform_usernamesHt]
        have inserted := (names.table.insert filled leftover session).2
        rw [StringBuffer.ofBlock_text, StringMap.insert, absent] at inserted
        exact (congrFun inserted _).trans (Function.update_self _ _ _)
      · intro related
        simp [ClientInfo.goto, Pc.related] at related

/-! ## Removing the name -/

theorem Registration.removes {session : Nat} {client : ClientInfo} {server : ChatServer}
    (registration : server.Registration session client) {key : List UInt8}
    (same : CString.text key = CString.text client.name)
    (filled : (StringBuffer.ofBlock key).ZeroFilled murmurLen) :
    server.RemovesExactly session key := by
  have found : hashTableLookup server.usernamesHt (some (.ofBlock key)) = some session := by
    rw [registration.names.table.lookup filled, StringBuffer.ofBlock_text, same]
    exact registration.bound
  refine ⟨found, ?_, fun other => ?_⟩
  · rw [(registration.names.table.holds.delete _).1, found]
    rfl
  · rw [registration.names.table.lookup_delete_text (by rw [found]; rfl) other]
    rfl

/-- As long as no other client registers under its descriptor and only other names are deleted, the
entry of a registered client is found and removed, and no other one, under the name in the array of
names by descriptor and under the name in the client's own block. -/
theorem registered_name_removable {session : Nat} {client : ClientInfo} {server : ChatServer}
    (reached : (afterInsertion session client).ReachesVia
      (fun state label => state.sparesRegistration session client label = true) server) :
    ∃ now, server.clients session = some now ∧ now.sockFD = client.sockFD ∧
      server.RemovesExactly session now.name ∧
      (now.pc.related → server.RemovesExactly session (server.usernamesByFD now.sockFD)) := by
  have registration : server.Registration session client :=
    reached.invariant (fun _ initial => Registration.start initial)
      fun _ _ _ _ registration spares step => registration.step spares step
  obtain ⟨now, inside, -, sockFD, name, written⟩ := registration.stays
  obtain ⟨buffer, isStored⟩ := registration.stored
  refine ⟨now, inside, sockFD, ?_, fun related => ?_⟩
  · apply registration.removes (congrArg _ name)
    rw [name, isStored]
    exact storedName_zeroFilled buffer
  · rw [sockFD, written related, isStored]
    apply registration.removes
    · rw [isStored]
      exact text_relatedName buffer
    · exact relatedName_zeroFilled buffer

/-- The first client inserts its name `a`. -/
def insertionScript : List Label :=
  connectScript 1 4 [97] ++ [.sent .taken, .tick].map (.run 1)

/-- The second client is called `b`, and both names have been registered. -/
def laterNameScript : List Label :=
  (registerScript 1).drop 3 ++ connectScript 2 5 [98] ++ registerScript 2

theorem registered_name_removable_two_clients :
    ∃ server : ChatServer, server.RemovesExactly 1 (server.usernamesByFD 4) := by
  have executes : ((chatService.execute (fun _ _ => true) beforeService insertionScript).bind
      fun before => (chatService.step before (.run 1 (.memory [7]))).bind fun after =>
        (before.clients 1).bind fun client =>
          ((afterInsertion 1 client).execute (sparesRegistration 1 client) after
            laterNameScript).map fun server => (client.pc, client.sockFD,
              (hashTableInsert before.usernamesHt [7] (some (.ofBlock client.name)) (some 1)).1,
              (server.clients 1).map fun now => now.pc)) =
      some (.accept .insert, 4, true, some (.wait .lockServer)) := by
    decide +kernel
  obtain ⟨before, executed, rest⟩ := Option.bind_eq_some_iff.mp executes
  obtain ⟨after, step, rest⟩ := Option.bind_eq_some_iff.mp rest
  obtain ⟨client, here, rest⟩ := Option.bind_eq_some_iff.mp rest
  obtain ⟨server, later, facts⟩ := Option.map_eq_some_iff.mp rest
  simp only [Prod.mk.injEq, Option.map_eq_some_iff] at facts
  obtain ⟨at_insert, sockFD, succeeds, last, inside, waits⟩ := facts
  have reached := executed_reaches executed
  have initial : (afterInsertion 1 client).Initial after :=
    ⟨before, [7], reached, here, at_insert, succeeds, step⟩
  obtain ⟨now, inside', sockFD', -, related⟩ :=
    registered_name_removable (LabelledSystem.ReachesVia.execute (.start initial) later)
  obtain rfl : last = now := Option.some.inj (inside.symm.trans inside')
  rw [sockFD', sockFD] at related
  exact ⟨server, related (by rw [waits]; rfl)⟩

end ChatServer
end CmyMessage
