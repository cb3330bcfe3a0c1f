import CmyMessage.Broadcast.Registry

/-!
# Unique names

`ask_and_assign_username` looks a name up in one critical section and inserts it in another, and
drops the result of the insertion.  Names stay unique as long as no two clients are between a missed
lookup and the insertion with one name, and every deletion from the table hits the entry of the
departing client.
-/

namespace CmyMessage

/-- The receive buffer holds the name that the client sent. -/
def Pc.naming : Pc → Bool
  | .ask pc =>
      match pc with
      | .lockUsernames | .lookup | .unlockUsernames _ => true
      | _ => false
  | .accept .inform => true
  | _ => false

/-- The name a client found free and has not inserted yet. -/
def ClientInfo.claim (client : ClientInfo) : Option (List UInt8) :=
  match client.pc with
  | .ask (.unlockUsernames false) | .accept .inform => some (CString.text client.buffer)
  | .accept .lockUsernames | .accept .insert => some (CString.text client.name)
  | _ => none

namespace ChatServer

/-- The clients whose descriptors are open. -/
def owners (server : ChatServer) : List Nat := (List.range fdSetSize).filterMap server.openFD

/-- No other client has found the name free that this one is about to look up. -/
def unrivalled (server : ChatServer) (session : Nat) (client : ClientInfo) : Bool :=
  server.owners.all fun rival => decide (rival = session ∨
    (server.clients rival).bind ClientInfo.claim ≠ some (CString.text client.buffer))

/-- The owner of an open descriptor has joined the broadcast. -/
def ownerJoined (server : ChatServer) (fd : Nat) : Bool :=
  match (server.openFD fd).bind server.clients with
  | some client => client.pc.joined
  | none => false

/-- The steps that keep names apart: names sent are short and free of NUL, a name is looked up while
nobody else is about to insert it, deletions hit the entry of the departing client or none, and only
descriptors of joined clients are closed. -/
def keepsNamesApart (server : ChatServer) : Label → Bool
  | .run session input =>
      match server.clients session with
      | none => true
      | some client =>
          match client.pc, input with
          | .ask .receive, .received (.data bytes) => plainMessage bytes
          | .ask .lookup, _ => server.unrivalled session client
          | .gather (.depart true), _ => server.ownerJoined client.i.toNat
          | _, _ => server.deletesOwn session client
  | _ => true

/-- What a step of a thread does to the name it claims. -/
structure ClaimStep (server : ChatServer) (client : ClientInfo) (input : Input)
    (client' : ClientInfo) (command : Command) : Prop where
  plain : client'.pc.naming → client.pc.naming ∧ client'.buffer = client.buffer ∨
    client.pc = .ask .receive ∧ ∃ bytes, input = .received (.data bytes) ∧
      client'.buffer = bytes.set (bytes.length - 1) 0
  claim : ∀ string, client'.claim = some string → client.claim = some string ∨
    client.pc = .accept .inform ∧ string = CString.text (storedName client.buffer) ∨
    client.pc = .ask .lookup ∧ string = CString.text client.buffer ∧
      hashTableLookup server.usernamesHt (some (.ofBlock client.buffer)) = none
  settles : client.pc = .accept .insert → client'.claim = none

theorem next_claim {server : ChatServer} {session : Nat} {client client' : ClientInfo}
    {input : Input} {command : Command}
    (next : server.next session client input = some (client', command)) :
    server.ClaimStep client input client' command := by
  revert next
  fun_cases ChatServer.next <;>
    [fun_cases prepareClientForBroadcastAndStart; fun_cases askAndAssignUsername;
      fun_cases acceptAndStoreClientUsername; fun_cases getMessagesFromActiveClients;
      fun_cases waitForThreadWork; fun_cases startRemovingClientFromBroadcast;
      fun_cases broadcastMessageToOnlineClients; skip; skip]
  all_goals rintro ⟨⟩
  all_goals
    constructor <;>
      simp_all [ClientInfo.goto, Pc.naming, ClientInfo.claim]

/-! ## The invariant -/

/-- Names that were found free are still free and pairwise distinct. -/
structure NamesApart (server : ChatServer) : Prop where
  ownership : server.Ownership
  registered : server.Registered
  plain : ∀ session client, server.clients session = some client → client.pc.naming →
    PlainBuffer client.buffer
  awaited : ∀ session client string, server.clients session = some client →
    client.claim = some string → server.usernamesHt.contents string = none
  apart : ∀ left right leftClient rightClient string, server.clients left = some leftClient →
    server.clients right = some rightClient → leftClient.claim = some string →
    rightClient.claim = some string → left = right

theorem NamesApart.start {server : ChatServer} (starts : server.Starts) : server.NamesApart := by
  refine ⟨.start starts, .start starts, ?_, ?_, ?_⟩ <;> simp [starts.clients]

theorem Ownership.mem_owners {server : ChatServer} (ownership : server.Ownership) {session : Nat}
    {client : ClientInfo} (here : server.clients session = some client)
    (waits : client.pc.joined = false) : session ∈ server.owners := by
  have opened := ownership.owns session client here waits
  exact List.mem_filterMap.mpr
    ⟨client.sockFD, List.mem_range.mpr (ownership.small _ _ opened), opened⟩

theorem claim_not_joined {client : ClientInfo} {string : List UInt8}
    (claims : client.claim = some string) : client.pc.joined = false := by
  revert claims
  fun_cases ClientInfo.claim client <;> simp_all [Pc.joined]

theorem told_inserted_or_claims {client : ClientInfo} (told : client.pc.told) :
    client.pc.inserted ∨ client.claim = some (CString.text client.name) := by
  rw [ClientInfo.claim]
  cases position : client.pc with
  | accept pc => cases pc <;> simp_all [Pc.told, Pc.inserted]
  | _ => simp_all [Pc.told, Pc.inserted]

theorem ownerJoined_iff (server : ChatServer) (fd : Nat) :
    server.ownerJoined fd = true ↔ server.OwnerJoined fd := by
  rw [ownerJoined, OwnerJoined]
  cases opened : server.openFD fd with
  | none => simp
  | some owner => cases here : server.clients owner <;> simp [here]

/-- The condition on a step of a thread, by the position of the thread. -/
structure KeepsNamesApart (server : ChatServer) (session : Nat) (client : ClientInfo)
    (input : Input) : Prop where
  plain : client.pc = .ask .receive → ∀ bytes, input = .received (.data bytes) →
    plainMessage bytes = true
  unrivalled : client.pc = .ask .lookup → server.unrivalled session client = true
  closes : client.pc = .gather (.depart true) → server.OwnerJoined client.i.toNat
  own : server.deletesOwn session client = true

theorem keepsNamesApart_run {server : ChatServer} {session : Nat} {client : ClientInfo}
    {input : Input} (here : server.clients session = some client)
    (keeps : server.keepsNamesApart (.run session input) = true) :
    server.KeepsNamesApart session client input := by
  simp only [keepsNamesApart, here] at keeps
  split at keeps
  · constructor <;> simp_all [deletesOwn, deletion]
  · constructor <;> simp_all [deletesOwn, deletion]
  · constructor <;> simp_all [deletesOwn, deletion, ownerJoined_iff]
  · constructor <;> simp_all

theorem NamesApart.enroll {server : ChatServer} {newcomer fd : Nat} (apart : server.NamesApart)
    (fresh : server.clients newcomer = none) (free : server.openFD fd = none)
    (small : fd < fdSetSize) : (server.enroll newcomer fd).NamesApart := by
  refine ⟨apart.ownership.enroll fresh free small, apart.registered.enroll fresh, ?_, ?_, ?_⟩
  · intro session client here naming
    rcases enroll_cases here with new | here
    · simp [new, Pc.naming] at naming
    · exact apart.plain session client here naming
  · intro session client string here claims
    rcases enroll_cases here with new | here
    · simp [ClientInfo.claim, new] at claims
    · exact apart.awaited session client string here claims
  · intro left right leftClient rightClient string inLeft inRight leftClaims rightClaims
    rcases enroll_cases inLeft with new | inLeft
    · simp [ClientInfo.claim, new] at leftClaims
    rcases enroll_cases inRight with new | inRight
    · simp [ClientInfo.claim, new] at rightClaims
    exact apart.apart left right leftClient rightClient string inLeft inRight leftClaims rightClaims

section Perform

variable {server : ChatServer} {session : Nat} {client client' : ClientInfo} {input : Input}
  {command : Command}

/-- A claim is carried over, or made by a lookup that found the name free. -/
theorem NamesApart.claim (apart : server.NamesApart) (here : server.clients session = some client)
    (claiming : server.ClaimStep client input client' command) {string : List UInt8}
    (claims' : client'.claim = some string) :
    client.claim = some string ∨ client.pc = .ask .lookup ∧
      string = CString.text client.buffer ∧ server.usernamesHt.contents string = none := by
  have plain (naming : client.pc.naming) : PlainBuffer client.buffer :=
    apart.plain session client here naming
  rcases claiming.claim string claims' with old | ⟨at_inform, rfl⟩ | ⟨at_lookup, rfl, missed⟩
  · exact .inl old
  · rw [(plain (by rw [at_inform]; rfl)).text_storedName]
    exact .inl (by simp [ClientInfo.claim, at_inform])
  · have filled := (plain (by rw [at_lookup]; rfl)).zeroFilled
    exact .inr ⟨at_lookup, rfl, (apart.registered.table.lookup filled).symm.trans missed⟩

/-- Nobody else claims what a thread claims before or behind its step. -/
theorem NamesApart.alone (apart : server.NamesApart) (here : server.clients session = some client)
    (claiming : server.ClaimStep client input client' command)
    (condition : server.KeepsNamesApart session client input) {other : Nat}
    {otherClient : ClientInfo} {string : List UInt8} (different : other ≠ session)
    (inside : server.clients other = some otherClient)
    (otherClaims : otherClient.claim = some string) :
    client.claim ≠ some string ∧ client'.claim ≠ some string := by
  have old : client.claim ≠ some string := by
    intro claims
    exact different (apart.apart other session otherClient client string inside here otherClaims
      claims)
  refine ⟨old, fun claims' => ?_⟩
  rcases apart.claim here claiming claims' with was | ⟨at_lookup, rfl, -⟩
  · exact old was
  · have rival := List.all_eq_true.mp (condition.unrivalled at_lookup) other
      (apart.ownership.mem_owners inside (claim_not_joined otherClaims))
    simp [inside, otherClaims, different] at rival

theorem NamesApart.perform (apart : server.NamesApart)
    (here : server.clients session = some client)
    (condition : server.KeepsNamesApart session client input)
    (next : server.next session client input = some (client', command)) :
    (server.perform session client' command).NamesApart := by
  have moved := next_registry next
  have claiming := next_claim next
  have closes : server.ClosesJoined (.run session input) := by
    rintro _ _ found ⟨⟩ inside at_close
    obtain rfl : client = found := Option.some.inj (here.symm.trans inside)
    exact condition.closes at_close
  have inserting (at_insert : client.pc = .accept .insert) :
      client.claim = some (CString.text client.name) := by
    simp [ClientInfo.claim, at_insert]
  have unbound (at_insert : client.pc = .accept .insert) :
      server.usernamesHt.contents (CString.text client.name) = none :=
    apart.awaited session client _ here (inserting at_insert)
  refine ⟨apart.ownership.perform closes here moved,
    apart.registered.perform here moved unbound condition.own, ?_, ?_, ?_⟩
  · intro other otherClient inside naming
    rcases update_eq_some inside with ⟨rfl, rfl⟩ | ⟨-, inside⟩
    · rcases claiming.plain naming with ⟨was, same⟩ | ⟨at_receive, bytes, rfl, buffer⟩
      · exact same ▸ apart.plain _ client here was
      · exact buffer ▸ plainMessage_buffer (condition.plain at_receive bytes rfl)
    · exact apart.plain other otherClient inside naming
  · intro other otherClient string inside claims'
    rcases update_eq_some inside with ⟨rfl, rfl⟩ | ⟨different, inside⟩
    · refine apart.registered.contents_perform_eq_none here moved unbound ?_ fun at_insert => ?_
      · rcases apart.claim here claiming claims' with was | ⟨-, -, missed⟩
        · exact apart.awaited _ client string here was
        · exact missed
      · simp [claiming.settles at_insert] at claims'
    · refine apart.registered.contents_perform_eq_none here moved unbound
        (apart.awaited other otherClient string inside claims') fun at_insert => ?_
      rintro rfl
      exact (apart.alone here claiming condition different inside claims').1 (inserting at_insert)
  · intro left right leftClient rightClient string inLeft inRight leftClaims rightClaims
    rcases update_eq_some inLeft with ⟨rfl, rfl⟩ | ⟨leftOther, wasLeft⟩ <;>
      rcases update_eq_some inRight with ⟨rfl, rfl⟩ | ⟨rightOther, wasRight⟩
    · rfl
    · exact absurd leftClaims
        (apart.alone here claiming condition rightOther wasRight rightClaims).2
    · exact absurd rightClaims
        (apart.alone here claiming condition leftOther wasLeft leftClaims).2
    · exact apart.apart left right leftClient rightClient string wasLeft wasRight leftClaims
        rightClaims

end Perform

theorem NamesApart.step {before after : ChatServer} {label : Label} (apart : before.NamesApart)
    (keeps : before.keepsNamesApart label = true)
    (step : chatService.step before label = some after) : after.NamesApart := by
  obtain ⟨-, steps⟩ := step_cases step
  cases steps with
  | accept fresh free small => exact apart.enroll fresh free small
  | close => exact ⟨⟨apart.ownership.small, apart.ownership.owner, apart.ownership.owns,
      apart.ownership.named⟩, ⟨apart.registered.table, apart.registered.stored,
      apart.registered.bound, apart.registered.entry, apart.registered.gone⟩, apart.plain,
      apart.awaited, apart.apart⟩
  | run here next free => exact apart.perform here (keepsNamesApart_run here keeps) next

theorem NamesApart.namesDistinct {server : ChatServer} (apart : server.NamesApart) :
    server.NamesDistinct := by
  intro left right leftClient rightClient inLeft inRight leftTold rightTold leftKept rightKept same
  rcases told_inserted_or_claims leftTold with leftInserted | leftClaims <;>
    rcases told_inserted_or_claims rightTold with rightInserted | rightClaims
  · exact apart.registered.inserted_distinct ⟨leftClient, inLeft, leftInserted, same⟩
      ⟨rightClient, inRight, rightInserted, rfl⟩ leftKept rightKept
  · have bound := apart.registered.bound left _ ⟨leftClient, inLeft, leftInserted, same⟩ leftKept
    simp [apart.awaited right rightClient _ inRight rightClaims] at bound
  · have bound := apart.registered.bound right _ ⟨rightClient, inRight, rightInserted, rfl⟩
      rightKept
    simp [apart.awaited left leftClient _ inLeft (same ▸ leftClaims)] at bound
  · exact apart.apart left right leftClient rightClient _ inLeft inRight (same ▸ leftClaims)
      rightClaims

theorem namesApart {server : ChatServer}
    (reached : chatService.ReachesVia
      (fun state label => state.keepsNamesApart label = true) server) : server.NamesApart :=
  reached.invariant (fun _ starts => NamesApart.start starts)
    fun _ _ _ _ apart keeps step => apart.step keeps step

/-- In runs that keep names apart, no two accepted clients hold one name, and the array of names by
descriptor agrees for the clients that own their descriptors. -/
theorem usernames_unique {server : ChatServer}
    (reached : chatService.ReachesVia
      (fun state label => state.keepsNamesApart label = true) server) :
    server.NamesDistinct ∧ ∀ session client, server.clients session = some client →
      client.pc.related → server.openFD client.sockFD = some session →
      CString.text (server.usernamesByFD client.sockFD) = CString.text client.name := by
  have apart := namesApart reached
  exact ⟨apart.namesDistinct, fun session client here related owns =>
    (apart.ownership.text_usernamesByFD apart.registered here related owns).1⟩

/-- Two clients, one after the other, ask for different names. -/
def distinctNamesScript : List Label :=
  connectScript 1 4 [97] ++ registerScript 1 ++ connectScript 2 5 [98] ++ registerScript 2

theorem usernames_unique_two_clients :
    (chatService.execute keepsNamesApart beforeService distinctNamesScript).isSome ∧
      ((chatService.execute keepsNamesApart beforeService distinctNamesScript).getD
        beforeService).NamesDistinct := by
  have executes :
      (chatService.execute keepsNamesApart beforeService distinctNamesScript).isSome = true := by
    decide +kernel
  exact ⟨executes,
    (usernames_unique (.execute_getD (.start beforeService_starts) executes)).1⟩

/-- Two clients look the same name up before either inserts it, and both are told it is theirs. -/
theorem usernames_not_unique :
    ∃ server, chatService.Reaches server ∧ ¬ server.NamesDistinct := by
  have executes : ((chatService.execute (fun _ _ => true) beforeService
      (connectScript 1 4 [98, 111, 98] ++ connectScript 2 5 [98, 111, 98] ++ registerScript 1 ++
        registerScript 2)).map fun server =>
          ((server.clients 1).map fun client => (client.pc, CString.text client.name),
            (server.clients 2).map fun client => (client.pc, CString.text client.name),
            server.removed 1, server.removed 2)) =
      some (some (.wait .lockServer, [98, 111, 98]), some (.wait .lockServer, [98, 111, 98]), false,
        false) := by
    decide +kernel
  obtain ⟨server, executed, facts⟩ := Option.map_eq_some_iff.mp executes
  simp only [Prod.mk.injEq, Option.map_eq_some_iff] at facts
  obtain ⟨⟨first, inFirst, firstPc, firstName⟩, ⟨second, inSecond, secondPc, secondName⟩, firstKept,
    secondKept⟩ := facts
  refine ⟨server, ?_, fun distinct => ?_⟩
  · exact executed_reaches executed
  · have same := distinct inFirst inSecond (by rw [firstPc]; rfl) (by rw [secondPc]; rfl) firstKept
      secondKept (firstName.trans secondName.symm)
    exact absurd same (by decide)

end ChatServer
end CmyMessage
