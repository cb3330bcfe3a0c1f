import CmyMessage.Broadcast.Steps
import CmyMessage.Broadcast.Usernames

/-!
# The registry of clients

A registered client appears in three structures: the usernames table, the array of names by
descriptor and the set of online descriptors.  The stages of a client's thread say which of them it
has written.  Two groups of facts about the structures survive every step that meets a side
condition: descriptors are owned by the clients they were accepted for, and the table binds the name
of every inserted client that was not removed to that client.
-/

namespace CmyMessage

/-! ## Stages -/

/-- The client was told that its name is accepted. -/
def Pc.told : Pc → Bool
  | .prepare _ | .ask _ | .accept .inform | .abandoned => false
  | _ => true

/-- The client's name was passed to `hash_table_insert`. -/
def Pc.inserted : Pc → Bool
  | .prepare _ | .ask _ | .abandoned => false
  | .accept pc =>
      match pc with
      | .inform | .lockUsernames | .insert => false
      | _ => true
  | _ => true

/-- The client's name was written to `usernames_by_FD_arr`. -/
def Pc.related : Pc → Bool
  | .prepare _ | .ask _ | .abandoned => false
  | .accept pc => decide (pc = .unlockServer)
  | _ => true

/-- The client's descriptor was added to the online set. -/
def Pc.joined : Pc → Bool
  | .prepare _ | .ask _ | .accept _ | .abandoned => false
  | .gather pc =>
      match pc with
      | .welcome | .lockOnline | .join => false
      | _ => true
  | _ => true

theorem Pc.related_of_joined {pc : Pc} (joined : pc.joined) : pc.related := by
  cases pc <;> simp_all [Pc.joined, Pc.related]

theorem Pc.inserted_of_related {pc : Pc} (related : pc.related) : pc.inserted := by
  cases pc <;> simp_all [Pc.related, Pc.inserted]

theorem Pc.told_of_inserted {pc : Pc} (inserted : pc.inserted) : pc.told := by
  revert inserted
  fun_cases Pc.inserted pc <;> simp_all [Pc.told]

namespace ChatServer

/-- What a thread is about to delete, and on whose behalf. -/
def deletion (server : ChatServer) (session : Nat) (client : ClientInfo) :
    Option (List UInt8 × Option Nat) :=
  match client.pc with
  | .remove .delete _ _ =>
      some (server.usernamesByFD client.i.toNat, server.openFD client.i.toNat)
  | .gather .delete => some (client.name, some session)
  | _ => none

/-- What a step of a thread does to the registry. -/
structure RegistryStep (server : ChatServer) (session : Nat) (client client' : ClientInfo)
    (command : Command) : Prop where
  sockFD : client'.sockFD = client.sockFD
  told : client.pc.told → client'.pc.told ∧ client'.name = client.name
  tells : client'.pc.told → client.pc.told ∨
    client.pc = .accept .inform ∧ client'.name = storedName client.buffer
  insertedStays : client.pc.inserted → client'.pc.inserted
  inserted : client'.pc.inserted →
    client.pc.inserted ∨ ∃ leftover, command = .insertUsername leftover
  related : client'.pc.related → client.pc.related ∨ command = .relateUsername
  joinedStays : client.pc.joined → client'.pc.joined
  joined : client'.pc.joined → client.pc.joined ∨ command = .joinOnline
  inserts : ∀ leftover, command = .insertUsername leftover →
    client.pc = .accept .insert ∧ client'.pc.inserted
  relates : command = .relateUsername → client.pc = .accept .relate
  joins : command = .joinOnline → client.pc = .gather .join ∧ client'.pc.joined
  leaves : ∀ fd, command = .leaveOnline fd →
    ∃ closed departing, client.pc = .remove .clear closed departing ∧ fd = client.i.toNat
  deletes : ∀ key departing, command = .deleteUsername key departing ↔
    server.deletion session client = some (key, departing)
  closes : ∀ fd, command = .closeSocket fd →
    client.pc = .gather (.depart true) ∧ fd = client.i.toNat

theorem next_registry {server : ChatServer} {session : Nat} {client client' : ClientInfo}
    {input : Input} {command : Command}
    (next : server.next session client input = some (client', command)) :
    server.RegistryStep session client client' command := by
  revert next
  fun_cases ChatServer.next <;>
    [fun_cases prepareClientForBroadcastAndStart; fun_cases askAndAssignUsername;
      fun_cases acceptAndStoreClientUsername; fun_cases getMessagesFromActiveClients;
      fun_cases waitForThreadWork; fun_cases startRemovingClientFromBroadcast;
      fun_cases broadcastMessageToOnlineClients; skip; skip]
  all_goals rintro ⟨⟩
  all_goals
    constructor <;>
      simp_all [ClientInfo.goto, Pc.told, Pc.inserted, Pc.related, Pc.joined, deletion]

/-- A client stays with its descriptor, and stays inserted. -/
theorem client_stays {before after : ChatServer} {label : Label}
    (step : chatService.step before label = some after) {session : Nat} {client : ClientInfo}
    (here : before.clients session = some client) :
    ∃ client', after.clients session = some client' ∧ client'.sockFD = client.sockFD ∧
      (client.pc.inserted → client'.pc.inserted) := by
  obtain ⟨-, steps⟩ := step_cases step
  cases steps with
  | @accept newcomer fd fresh free small =>
      have different := ne_of_fresh fresh here
      exact ⟨client, (Function.update_of_ne different _ _).trans here, rfl, id⟩
  | close => exact ⟨client, here, rfl, id⟩
  | @run runner input was client' command inside next free =>
      rcases eq_or_ne session runner with rfl | different
      · obtain rfl : was = client := Option.some.inj (inside.symm.trans here)
        have moved := next_registry next
        exact ⟨client', Function.update_self _ _ _, moved.sockFD, moved.insertedStays⟩
      · exact ⟨client, (Function.update_of_ne different _ _).trans here, rfl, id⟩

/-! ## Descriptors -/

/-- The descriptor belongs to a client that has joined the broadcast. -/
def OwnerJoined (server : ChatServer) (fd : Nat) : Prop :=
  ∃ owner client, server.openFD fd = some owner ∧ server.clients owner = some client ∧
    client.pc.joined

/-- A thread that closes a descriptor closes one whose owner has joined. -/
def ClosesJoined (server : ChatServer) (label : Label) : Prop :=
  ∀ session input client, label = .run session input → server.clients session = some client →
    client.pc = .gather (.depart true) → server.OwnerJoined client.i.toNat

/-- Open descriptors belong to the clients they were accepted for, at least until those have joined,
and then carry their names. -/
structure Ownership (server : ChatServer) : Prop where
  small : ∀ fd session, server.openFD fd = some session → fd < fdSetSize
  owner : ∀ fd session, server.openFD fd = some session →
    ∃ client, server.clients session = some client ∧ client.sockFD = fd
  owns : ∀ session client, server.clients session = some client → client.pc.joined = false →
    server.openFD client.sockFD = some session
  named : ∀ session client, server.clients session = some client → client.pc.related →
    server.openFD client.sockFD = some session →
    server.usernamesByFD client.sockFD = CString.strncpy [] client.name maxUsernameLength

theorem Ownership.start {server : ChatServer} (starts : server.Starts) : server.Ownership := by
  constructor <;> simp [starts.clients, starts.openFD]

theorem Ownership.enroll {server : ChatServer} {session fd : Nat} (ownership : server.Ownership)
    (fresh : server.clients session = none) (free : server.openFD fd = none)
    (small : fd < fdSetSize) : (server.enroll session fd).Ownership := by
  constructor
  · intro other owner opened
    by_cases same : other = fd
    · exact same ▸ small
    · simp only [ChatServer.enroll, Function.update_of_ne same] at opened
      exact ownership.small other owner opened
  · intro other owner opened
    by_cases same : other = fd
    · subst same
      simp only [ChatServer.enroll, Function.update_self, Option.some.injEq] at opened
      exact ⟨_, by simp only [ChatServer.enroll, opened, Function.update_self]; rfl, rfl⟩
    · simp only [ChatServer.enroll, Function.update_of_ne same] at opened
      obtain ⟨client, here, sockFD⟩ := ownership.owner other owner opened
      exact ⟨client, (Function.update_of_ne (ne_of_fresh fresh here) _ _).trans here, sockFD⟩
  · intro other client here waits
    rcases update_eq_some here with ⟨rfl, rfl⟩ | ⟨-, here⟩
    · simp only [ChatServer.enroll, Function.update_self]
    · exact openFD_enroll free (ownership.owns other client here waits)
  · intro other client here related opened
    rcases update_eq_some here with ⟨rfl, rfl⟩ | ⟨different, here⟩
    · simp [Pc.related] at related
    · by_cases same : client.sockFD = fd
      · simp only [ChatServer.enroll, same, Function.update_self, Option.some.injEq] at opened
        exact absurd opened.symm different
      · simp only [ChatServer.enroll, Function.update_of_ne same] at opened
        exact ownership.named other client here related opened

section Perform

variable {server : ChatServer} {session : Nat} {client client' : ClientInfo} {input : Input}
  {command : Command}

/-- An access opens no connection. -/
theorem wasOpen_perform {fd owner : Nat}
    (opened : (server.perform session client' command).openFD fd = some owner) :
    server.openFD fd = some owner := by
  rw [perform_openFD] at opened
  split at opened
  · rename_i closed
    rcases eq_or_ne fd closed with rfl | different
    · rw [Function.update_self] at opened
      cases opened
    · rwa [Function.update_of_ne different] at opened
  · exact opened

/-- Only a joined owner can lose its descriptor. -/
theorem ClosesJoined.stays (closes : server.ClosesJoined (.run session input))
    (here : server.clients session = some client)
    (moved : server.RegistryStep session client client' command) {other : Nat}
    {otherClient : ClientInfo} (inside : server.clients other = some otherClient)
    (waits : otherClient.pc.joined = false)
    (opened : server.openFD otherClient.sockFD = some other) :
    (server.perform session client' command).openFD otherClient.sockFD = some other := by
  rw [perform_openFD]
  split
  · rename_i closed
    obtain ⟨at_close, rfl⟩ := moved.closes closed rfl
    obtain ⟨owner, ownerClient, ownerOpened, ownerInside, joined⟩ :=
      closes session input client rfl here at_close
    have different : otherClient.sockFD ≠ client.i.toNat := by
      intro same
      rw [same, ownerOpened, Option.some.injEq] at opened
      subst opened
      rw [inside, Option.some.injEq] at ownerInside
      simp [← ownerInside, waits] at joined
    rwa [Function.update_of_ne different]
  · exact opened

/-- The array of names by descriptor behind an access. -/
theorem Ownership.named_perform (ownership : server.Ownership)
    (here : server.clients session = some client)
    (moved : server.RegistryStep session client client' command) {other : Nat}
    {otherClient : ClientInfo}
    (inside : (server.perform session client' command).clients other = some otherClient)
    (related : otherClient.pc.related) (wasOpen : server.openFD otherClient.sockFD = some other) :
    (server.perform session client' command).usernamesByFD otherClient.sockFD =
      CString.strncpy [] otherClient.name maxUsernameLength := by
  rw [perform_usernamesByFD]
  rcases update_eq_some inside with ⟨rfl, rfl⟩ | ⟨different, wasInside⟩
  · split
    · rw [Function.update_self]
    · rename_i unrelated
      have was : client.pc.related := (moved.related related).resolve_right unrelated
      rw [moved.sockFD] at wasOpen ⊢
      rw [(moved.told (Pc.told_of_inserted (Pc.inserted_of_related was))).2]
      exact ownership.named _ client here was wasOpen
  · split
    · have at_relate := moved.relates rfl
      have owned := ownership.owns session client here (by rw [at_relate]; rfl)
      have apart : otherClient.sockFD ≠ client'.sockFD := by
        intro same
        rw [same, moved.sockFD, owned, Option.some.injEq] at wasOpen
        exact different wasOpen.symm
      rw [Function.update_of_ne apart]
      exact ownership.named other otherClient wasInside related wasOpen
    · exact ownership.named other otherClient wasInside related wasOpen

theorem Ownership.perform (ownership : server.Ownership)
    (closes : server.ClosesJoined (.run session input))
    (here : server.clients session = some client)
    (moved : server.RegistryStep session client client' command) :
    (server.perform session client' command).Ownership := by
  constructor
  · exact fun fd owner opened => ownership.small fd owner (wasOpen_perform opened)
  · intro fd owner opened
    obtain ⟨was, inside, sockFD⟩ := ownership.owner fd owner (wasOpen_perform opened)
    obtain ⟨found, inside', keeps⟩ := after_perform command here moved.sockFD inside
    exact ⟨found, inside', keeps.trans sockFD⟩
  · intro other otherClient inside waits
    rcases update_eq_some inside with ⟨rfl, rfl⟩ | ⟨-, inside⟩
    · have waited : client.pc.joined = false := by
        by_contra joined
        simp [moved.joinedStays (by simpa using joined)] at waits
      rw [moved.sockFD]
      exact closes.stays here moved here waited (ownership.owns _ client here waited)
    · exact closes.stays here moved inside waits (ownership.owns other otherClient inside waits)
  · intro other otherClient inside related opened
    exact ownership.named_perform here moved inside related (wasOpen_perform opened)

end Perform

theorem Ownership.step {before after : ChatServer} {label : Label} (ownership : before.Ownership)
    (closes : before.ClosesJoined label) (step : chatService.step before label = some after) :
    after.Ownership := by
  obtain ⟨-, steps⟩ := step_cases step
  cases steps with
  | accept fresh free small => exact ownership.enroll fresh free small
  | close => exact ⟨ownership.small, ownership.owner, ownership.owns, ownership.named⟩
  | run here next free => exact ownership.perform closes here (next_registry next)

/-! ## The table -/

/-- The client's name was inserted and is the string. -/
def Binds (server : ChatServer) (session : Nat) (string : List UInt8) : Prop :=
  ∃ client, server.clients session = some client ∧ client.pc.inserted ∧
    CString.text client.name = string

/-- A deletion hits no entry, or the entry of the client on whose behalf it is made. -/
def deletesOwn (server : ChatServer) (session : Nat) (client : ClientInfo) : Bool :=
  match server.deletion session client with
  | none => true
  | some (key, departing) =>
      match hashTableLookup server.usernamesHt (some (.ofBlock key)) with
      | none => true
      | some found => decide (departing = some found)

theorem deletesOwn_iff {server : ChatServer} {session : Nat} {client : ClientInfo}
    {key : List UInt8} {departing : Option Nat}
    (deletes : server.deletion session client = some (key, departing)) :
    server.deletesOwn session client = true ↔
      ∀ found, hashTableLookup server.usernamesHt (some (.ofBlock key)) = some found →
        departing = some found := by
  simp only [deletesOwn, deletes]
  split <;> simp_all

/-- The table binds the names of the inserted clients that were not removed, and no others. -/
structure Registered (server : ChatServer) : Prop where
  table : UsernamesTable server.usernamesHt
  stored : ∀ session client, server.clients session = some client → client.pc.told →
    ∃ buffer, client.name = storedName buffer
  bound : ∀ session string, server.Binds session string → server.removed session = false →
    server.usernamesHt.contents string = some session
  entry : ∀ string session, server.usernamesHt.contents string = some session →
    server.Binds session string ∧ server.removed session = false
  gone : ∀ session, server.removed session = true → ∃ string, server.Binds session string

theorem Registered.start {server : ChatServer} (starts : server.Starts) : server.Registered := by
  constructor
  · rw [starts.usernamesHt]
    exact .create
  · simp [starts.clients]
  · rintro session string ⟨client, here, -⟩
    simp [starts.clients] at here
  · intro string session found
    simp [starts.usernamesHt, UsernamesTable.create_contents] at found
  · simp [starts.removed]

/-- A step that leaves what the table binds and who was removed alone. -/
theorem Registered.congr {before after : ChatServer} (registered : before.Registered)
    (table : UsernamesTable after.usernamesHt)
    (stored : ∀ session client, after.clients session = some client → client.pc.told →
      ∃ buffer, client.name = storedName buffer)
    (contents : after.usernamesHt.contents = before.usernamesHt.contents)
    (removed : after.removed = before.removed)
    (binds : ∀ session string, after.Binds session string ↔ before.Binds session string) :
    after.Registered := by
  refine ⟨table, stored, ?_, ?_, ?_⟩
  · intro session string isBound kept
    rw [contents]
    exact registered.bound session string ((binds session string).mp isBound) (removed ▸ kept)
  · intro string session found
    rw [binds, removed]
    exact registered.entry string session (contents ▸ found)
  · intro session isRemoved
    obtain ⟨string, was⟩ := registered.gone session (removed ▸ isRemoved)
    exact ⟨string, (binds session string).mpr was⟩

theorem binds_enroll {server : ChatServer} {session fd other : Nat} {string : List UInt8}
    (fresh : server.clients session = none) :
    (server.enroll session fd).Binds other string ↔ server.Binds other string := by
  constructor
  · rintro ⟨client, here, inserted, same⟩
    rcases update_eq_some here with ⟨rfl, rfl⟩ | ⟨-, here⟩
    · simp [Pc.inserted] at inserted
    · exact ⟨client, here, inserted, same⟩
  · rintro ⟨client, here, inserted, same⟩
    have different := ne_of_fresh fresh here
    exact ⟨client, by simpa [ChatServer.enroll, Function.update_of_ne different], inserted, same⟩

theorem Registered.enroll {server : ChatServer} {session fd : Nat} (registered : server.Registered)
    (fresh : server.clients session = none) : (server.enroll session fd).Registered := by
  refine registered.congr registered.table ?_ rfl rfl fun _ _ => binds_enroll fresh
  intro other client here told
  rcases enroll_cases here with new | here
  · simp [new, Pc.told] at told
  · exact registered.stored other client here told

section Perform

variable {server : ChatServer} {session : Nat} {client client' : ClientInfo} {command : Command}

theorem binds_perform (here : server.clients session = some client)
    (moved : server.RegistryStep session client client' command) (other : Nat)
    (string : List UInt8) :
    (server.perform session client' command).Binds other string ↔ server.Binds other string ∨
      (∃ leftover, command = .insertUsername leftover) ∧ other = session ∧
        CString.text client'.name = string := by
  constructor
  · rintro ⟨found, inside, inserted, same⟩
    rcases update_eq_some inside with ⟨rfl, rfl⟩ | ⟨-, inside⟩
    · rcases moved.inserted inserted with was | inserts
      · rw [(moved.told (Pc.told_of_inserted was)).2] at same
        exact .inl ⟨client, here, was, same⟩
      · exact .inr ⟨inserts, rfl, same⟩
    · exact .inl ⟨found, inside, inserted, same⟩
  · rintro (⟨found, inside, inserted, same⟩ | ⟨⟨leftover, inserts⟩, rfl, same⟩)
    · by_cases isSession : other = session
      · subst isSession
        obtain rfl : client = found := Option.some.inj (here.symm.trans inside)
        refine ⟨client', by simp, moved.insertedStays inserted, ?_⟩
        rw [(moved.told (Pc.told_of_inserted inserted)).2, same]
      · exact ⟨found, by simpa [Function.update_of_ne isSession] using inside, inserted, same⟩
    · exact ⟨client', by simp, (moved.inserts leftover inserts).2, same⟩

/-- A step that neither inserts nor deletes leaves table and record alone. -/
theorem registry_unchanged (here : server.clients session = some client)
    (moved : server.RegistryStep session client client' command)
    (noInsert : ∀ leftover, command ≠ .insertUsername leftover)
    (noDelete : ∀ key departing, command ≠ .deleteUsername key departing) :
    (server.perform session client' command).usernamesHt = server.usernamesHt ∧
      (server.perform session client' command).removed = server.removed ∧
      ∀ other string, (server.perform session client' command).Binds other string ↔
        server.Binds other string := by
  refine ⟨?_, ?_, fun other string => ?_⟩
  · rw [perform_usernamesHt]
    split
    · exact absurd rfl (noInsert _)
    · exact absurd rfl (noDelete _ _)
    · rfl
  · rw [perform_removed]
    split
    · exact absurd rfl (noDelete _ _)
    · rfl
  · rw [binds_perform here moved]
    exact or_iff_left fun inserts => inserts.1.elim noInsert

theorem binds_unique {left right : List UInt8} (binds : server.Binds session left)
    (binds' : server.Binds session right) : left = right := by
  obtain ⟨first, inFirst, -, rfl⟩ := binds
  obtain ⟨second, inSecond, -, rfl⟩ := binds'
  rw [Option.some.inj (inFirst.symm.trans inSecond)]

theorem stored_perform
    (stored : ∀ session client, server.clients session = some client → client.pc.told →
      ∃ buffer, client.name = storedName buffer)
    (here : server.clients session = some client)
    (moved : server.RegistryStep session client client' command) (other : Nat)
    (found : ClientInfo)
    (inside : (server.perform session client' command).clients other = some found)
    (told : found.pc.told) : ∃ buffer, found.name = storedName buffer := by
  rcases update_eq_some inside with ⟨rfl, rfl⟩ | ⟨-, inside⟩
  · rcases moved.tells told with was | ⟨-, name⟩
    · rw [(moved.told was).2]
      exact stored _ client here was
    · exact ⟨client.buffer, name⟩
  · exact stored other found inside told

/-- The name about to be inserted is the stored one, and is passed in a zero-filled block. -/
theorem inserting_stored
    (stored : ∀ session client, server.clients session = some client → client.pc.told →
      ∃ buffer, client.name = storedName buffer)
    (here : server.clients session = some client)
    (moved : server.RegistryStep session client client' command) {leftover : List UInt8}
    (inserts : command = .insertUsername leftover) :
    client'.name = client.name ∧ ∃ buffer, client.name = storedName buffer := by
  have told : client.pc.told := by rw [(moved.inserts leftover inserts).1]; rfl
  exact ⟨(moved.told told).2, stored session client here told⟩

theorem Registered.insert (registered : server.Registered)
    (here : server.clients session = some client) {leftover : List UInt8}
    (moved : server.RegistryStep session client client' (.insertUsername leftover))
    (free : server.usernamesHt.contents (CString.text client.name) = none) :
    (server.perform session client' (.insertUsername leftover)).Registered ∧
      (server.perform session client' (.insertUsername leftover)).usernamesHt.contents =
        Function.update server.usernamesHt.contents (CString.text client.name) (some session) := by
  obtain ⟨name, buffer, stored⟩ := inserting_stored registered.stored here moved rfl
  have filled : (StringBuffer.ofBlock client'.name).ZeroFilled murmurLen := by
    rw [name, stored]
    exact storedName_zeroFilled buffer
  obtain ⟨table, contents⟩ := registered.table.insert filled leftover session
  have values : (server.perform session client' (.insertUsername leftover)).usernamesHt.contents =
      Function.update server.usernamesHt.contents (CString.text client.name) (some session) := by
    rw [perform_usernamesHt, contents, StringBuffer.ofBlock_text, name, StringMap.insert, free]
  have binds := binds_perform here moved
  refine ⟨⟨?_, stored_perform registered.stored here moved, ?_, ?_, ?_⟩, values⟩
  · rw [perform_usernamesHt]
    exact table
  · intro other string isBound kept
    rw [perform_removed] at kept
    rw [values]
    rcases (binds other string).mp isBound with was | ⟨-, rfl, same⟩
    · have bound := registered.bound other string was kept
      rw [Function.update_of_ne fun same => by simp [same, free] at bound]
      exact bound
    · rw [← same, name, Function.update_self]
  · intro string other found
    rw [values] at found
    rw [perform_removed, binds]
    by_cases same : string = CString.text client.name
    · rw [same, Function.update_self, Option.some.injEq] at found
      subst found
      refine ⟨.inr ⟨⟨leftover, rfl⟩, rfl, by rw [name, same]⟩, ?_⟩
      by_contra removed
      obtain ⟨_, old, inside, inserted, -⟩ := registered.gone session (by simpa using removed)
      obtain rfl : client = old := Option.some.inj (here.symm.trans inside)
      simp [(moved.inserts leftover rfl).1, Pc.inserted] at inserted
    · rw [Function.update_of_ne same] at found
      exact (registered.entry string other found).imp_left .inl
  · intro other removed
    rw [perform_removed] at removed
    obtain ⟨string, was⟩ := registered.gone other removed
    exact ⟨string, (binds other string).mpr (.inl was)⟩

theorem binds_delete (here : server.clients session = some client) {key : List UInt8}
    {departing : Option Nat}
    (moved : server.RegistryStep session client client' (.deleteUsername key departing))
    (other : Nat) (string : List UInt8) :
    (server.perform session client' (.deleteUsername key departing)).Binds other string ↔
      server.Binds other string := by
  rw [binds_perform here moved]
  exact or_iff_left fun inserts => by simp at inserts

theorem Registered.delete_missing (registered : server.Registered)
    (here : server.clients session = some client) {key : List UInt8} {departing : Option Nat}
    (moved : server.RegistryStep session client client' (.deleteUsername key departing))
    (missed : hashTableLookup server.usernamesHt (some (.ofBlock key)) = none) :
    (server.perform session client' (.deleteUsername key departing)).Registered := by
  obtain ⟨table, contents⟩ := registered.table.delete (.ofBlock key)
  rw [missed] at contents
  refine registered.congr ?_ (stored_perform registered.stored here moved) ?_ ?_
    (binds_delete here moved)
  · rw [perform_usernamesHt]
    exact table
  · rw [perform_usernamesHt]
    exact contents
  · simp [perform_removed, missed]

theorem Registered.delete_own (registered : server.Registered)
    (here : server.clients session = some client) {key : List UInt8} {owner : Nat}
    (moved : server.RegistryStep session client client' (.deleteUsername key (some owner)))
    (found : hashTableLookup server.usernamesHt (some (.ofBlock key)) = some owner) :
    (server.perform session client' (.deleteUsername key (some owner))).Registered := by
  obtain ⟨table, contents⟩ := registered.table.delete (.ofBlock key)
  have binds := binds_delete here moved
  have bound := registered.table.lookup_eq_some found
  rw [StringBuffer.ofBlock_text] at bound
  obtain ⟨ownerBinds, -⟩ := registered.entry _ owner bound
  have values : (server.perform session client'
      (.deleteUsername key (some owner))).usernamesHt.contents =
        Function.update server.usernamesHt.contents (CString.text key) none := by
    simp [perform_usernamesHt, contents, found]
  have removed (other : Nat) : (server.perform session client'
      (.deleteUsername key (some owner))).removed other =
        (server.removed other || decide (owner = other)) := by
    simp [perform_removed, found]
  refine ⟨by rw [perform_usernamesHt]; exact table,
    stored_perform registered.stored here moved, ?_, ?_, ?_⟩
  · intro other string isBound kept
    rw [removed, Bool.or_eq_false_iff] at kept
    have was := registered.bound other string ((binds other string).mp isBound) kept.1
    rw [values, Function.update_of_ne]
    · exact was
    · rintro rfl
      simp [Option.some.inj (bound.symm.trans was)] at kept
  · intro string other isFound
    rw [values] at isFound
    have different : string ≠ CString.text key := by
      rintro rfl
      simp at isFound
    rw [Function.update_of_ne different] at isFound
    obtain ⟨otherBinds, kept⟩ := registered.entry string other isFound
    rw [removed, binds, kept, Bool.false_or, decide_eq_false_iff_not]
    refine ⟨otherBinds, ?_⟩
    rintro rfl
    exact different (binds_unique otherBinds ownerBinds)
  · intro other isRemoved
    rw [removed, Bool.or_eq_true, decide_eq_true_eq] at isRemoved
    rcases isRemoved with was | rfl
    · obtain ⟨string, binding⟩ := registered.gone other was
      exact ⟨string, (binds other string).mpr binding⟩
    · exact ⟨_, (binds _ _).mpr ownerBinds⟩

theorem Registered.delete (registered : server.Registered)
    (here : server.clients session = some client) {key : List UInt8} {departing : Option Nat}
    (moved : server.RegistryStep session client client' (.deleteUsername key departing))
    (own : ∀ found, hashTableLookup server.usernamesHt (some (.ofBlock key)) = some found →
      departing = some found) :
    (server.perform session client' (.deleteUsername key departing)).Registered := by
  cases found : hashTableLookup server.usernamesHt (some (.ofBlock key)) with
  | none => exact registered.delete_missing here moved found
  | some owner =>
      obtain rfl := own owner found
      exact registered.delete_own here moved found

/-- The table survives a step that inserts a free name only and deletes its own entry only. -/
theorem Registered.perform (registered : server.Registered)
    (here : server.clients session = some client)
    (moved : server.RegistryStep session client client' command)
    (free : client.pc = .accept .insert →
      server.usernamesHt.contents (CString.text client.name) = none)
    (own : server.deletesOwn session client = true) :
    (server.perform session client' command).Registered := by
  by_cases inserts : ∃ leftover, command = .insertUsername leftover
  · obtain ⟨leftover, rfl⟩ := inserts
    exact (registered.insert here moved (free (moved.inserts leftover rfl).1)).1
  by_cases deletes : ∃ key departing, command = .deleteUsername key departing
  · obtain ⟨key, departing, rfl⟩ := deletes
    exact registered.delete here moved ((deletesOwn_iff ((moved.deletes _ _).mp rfl)).mp own)
  push Not at inserts deletes
  obtain ⟨table, removed, binds⟩ := registry_unchanged here moved inserts deletes
  exact registered.congr (table ▸ registered.table)
    (stored_perform registered.stored here moved) (congrArg _ table) removed binds

/-- A string stays unbound unless it is the name being inserted. -/
theorem Registered.contents_perform_eq_none (registered : server.Registered)
    (here : server.clients session = some client)
    (moved : server.RegistryStep session client client' command)
    (free : client.pc = .accept .insert →
      server.usernamesHt.contents (CString.text client.name) = none)
    {string : List UInt8} (unbound : server.usernamesHt.contents string = none)
    (other : client.pc = .accept .insert → string ≠ CString.text client.name) :
    (server.perform session client' command).usernamesHt.contents string = none := by
  by_cases inserts : ∃ leftover, command = .insertUsername leftover
  · obtain ⟨leftover, rfl⟩ := inserts
    have at_insert := (moved.inserts leftover rfl).1
    rw [(registered.insert here moved (free at_insert)).2, Function.update_of_ne (other at_insert)]
    exact unbound
  by_cases deletes : ∃ key departing, command = .deleteUsername key departing
  · obtain ⟨key, departing, rfl⟩ := deletes
    rw [perform_usernamesHt, (registered.table.delete (.ofBlock key)).2]
    split
    · rw [Function.update_apply, unbound, ite_self]
    · exact unbound
  push Not at inserts deletes
  rw [(registry_unchanged here moved inserts deletes).1]
  exact unbound

end Perform

/-! ## Distinct names -/

/-- No two clients that were told their name is accepted and were not removed have one name. -/
def NamesDistinct (server : ChatServer) : Prop :=
  ∀ ⦃left right leftClient rightClient⦄, server.clients left = some leftClient →
    server.clients right = some rightClient → leftClient.pc.told → rightClient.pc.told →
    server.removed left = false → server.removed right = false →
    CString.text leftClient.name = CString.text rightClient.name → left = right

/-- Among the clients of the table names are distinct. -/
theorem Registered.inserted_distinct {server : ChatServer} (registered : server.Registered)
    {left right : Nat} {string : List UInt8} (leftBinds : server.Binds left string)
    (rightBinds : server.Binds right string) (leftKept : server.removed left = false)
    (rightKept : server.removed right = false) : left = right :=
  Option.some.inj ((registered.bound left string leftBinds leftKept).symm.trans
    (registered.bound right string rightBinds rightKept))

/-- The array holds the name of every related client that still owns its descriptor. -/
theorem Ownership.text_usernamesByFD {server : ChatServer} (ownership : server.Ownership)
    (registered : server.Registered) {session : Nat} {client : ClientInfo}
    (here : server.clients session = some client) (related : client.pc.related)
    (owns : server.openFD client.sockFD = some session) :
    CString.text (server.usernamesByFD client.sockFD) = CString.text client.name ∧
      (StringBuffer.ofBlock (server.usernamesByFD client.sockFD)).ZeroFilled murmurLen := by
  obtain ⟨buffer, name⟩ := registered.stored session client here
    (Pc.told_of_inserted (Pc.inserted_of_related related))
  rw [ownership.named session client here related owns, name]
  exact ⟨text_relatedName buffer, relatedName_zeroFilled buffer⟩

end ChatServer
end CmyMessage
