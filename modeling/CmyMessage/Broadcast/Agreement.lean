import CmyMessage.Broadcast.Uniqueness

/-!
# Agreement of the registry

The online set, the array of names by descriptor and the usernames table agree on the online clients
as long as a removal strikes the online client whose `recv` ended, and nobody leaves on the quit
signal while its name is in the table.  The scan that restarts behind a closed socket removes a
descriptor twice, and the quit exit leaves its descriptor online.
-/

namespace CmyMessage

/-- The thread has cleared the descriptor of a departing client and is not done with it. -/
def Pc.cleared : Pc → Bool
  | .remove pc _ _ =>
      match pc with
      | .lockServer | .lockOnline | .clear => false
      | _ => true
  | .gather (.depart _) => true
  | _ => false

/-- The departing client whose entry the thread is about to delete. -/
def Pc.condemned : Pc → Option (Option Nat)
  | .remove pc _ departing =>
      match pc with
      | .unlockOnline | .lockUsernames | .delete => some departing
      | _ => none
  | _ => none

theorem Pc.cleared_of_condemned {pc : Pc} {departing : Option Nat}
    (condemned : pc.condemned = some departing) : pc.cleared := by
  revert condemned
  fun_cases Pc.condemned pc <;> simp_all [Pc.cleared]

namespace ChatServer

/-- Every online descriptor carries the name under which the table binds the client that owns it. -/
def RegistryAgrees (server : ChatServer) : Prop :=
  ∀ fd, server.onlineClients fd = true → ∃ session client,
    server.clients session = some client ∧ client.sockFD = fd ∧
    hashTableLookup server.usernamesHt (some (.ofBlock (server.usernamesByFD fd))) = some session

/-- A step leaves no entry of the departing client and every other entry as it was. -/
def RemovesEntryOf (before after : ChatServer) (departing : Nat) : Prop :=
  ∀ key, hashTableLookup after.usernamesHt (some key) =
    if hashTableLookup before.usernamesHt (some key) = some departing then none
    else hashTableLookup before.usernamesHt (some key)

/-- A removal strikes an online descriptor that still belongs to the client whose `recv` ended, and
a thread leaves on the quit signal when its client was removed and its name is not in use. -/
def removesOnline (server : ChatServer) : Label → Bool
  | .run session _ =>
      match server.clients session with
      | none => true
      | some client =>
          match client.pc with
          | .remove .clear _ departing =>
              server.onlineClients client.i.toNat && departing.isSome &&
                decide (server.openFD client.i.toNat = departing)
          | .gather .delete => server.removed session &&
              (hashTableLookup server.usernamesHt (some (.ofBlock client.name))).isNone
          | _ => true
  | _ => true

/-- What a step of a thread does to the client it is removing. -/
structure ClearStep (client client' : ClientInfo) (command : Command) : Prop where
  cleared : client'.pc.cleared → client'.i = client.i ∧ (client.pc.cleared ∨
    (∃ closed departing, client.pc = .remove .clear closed departing) ∧
      command = .leaveOnline client.i.toNat)
  condemned : ∀ departing, client'.pc.condemned = some departing →
    client.pc.condemned = some departing ∨
      ∃ closed, client.pc = .remove .clear closed departing
  deletes : ∀ closed departing, client.pc = .remove .delete closed departing →
    client'.pc.condemned = none
  closes : client.pc = .gather (.depart true) → client'.pc.cleared = false

theorem next_clear {server : ChatServer} {session : Nat} {client client' : ClientInfo}
    {input : Input} {command : Command}
    (next : server.next session client input = some (client', command)) :
    ClearStep client client' command := by
  revert next
  fun_cases ChatServer.next <;>
    [fun_cases prepareClientForBroadcastAndStart; fun_cases askAndAssignUsername;
      fun_cases acceptAndStoreClientUsername; fun_cases getMessagesFromActiveClients;
      fun_cases waitForThreadWork; fun_cases startRemovingClientFromBroadcast;
      fun_cases broadcastMessageToOnlineClients; skip; skip]
  all_goals rintro ⟨⟩
  all_goals
    constructor <;>
      simp_all [ClientInfo.goto, Pc.cleared, Pc.condemned]

/-! ## The invariant -/

/-- Online clients are registered, and a client being removed is offline, owns its descriptor until
the remover is done with it, and has one remover. -/
structure Agreement (server : ChatServer) : Prop where
  ownership : server.Ownership
  registered : server.Registered
  online : ∀ fd, server.onlineClients fd = true → server.OwnerJoined fd ∧
    ∀ session, server.openFD fd = some session → server.removed session = false
  left : ∀ session client, server.clients session = some client → server.removed session = true →
    client.pc.joined
  clearing : ∀ session client, server.clients session = some client → client.pc.cleared →
    server.onlineClients client.i.toNat = false ∧ server.OwnerJoined client.i.toNat
  condemned : ∀ session client departing, server.clients session = some client →
    client.pc.condemned = some departing → ∃ owner, departing = some owner ∧
      server.openFD client.i.toNat = some owner ∧ server.removed owner = false
  separate : ∀ left right leftClient rightClient, server.clients left = some leftClient →
    server.clients right = some rightClient → leftClient.pc.cleared → rightClient.pc.cleared →
    leftClient.i.toNat = rightClient.i.toNat → left = right

theorem Agreement.start {server : ChatServer} (starts : server.Starts) : server.Agreement := by
  refine ⟨.start starts, .start starts, ?_, ?_, ?_, ?_, ?_⟩ <;>
    simp [starts.clients, starts.onlineClients]

/-- A client owns at most one descriptor. -/
theorem Ownership.injective {server : ChatServer} (ownership : server.Ownership)
    {left right session : Nat} (leftOpen : server.openFD left = some session)
    (rightOpen : server.openFD right = some session) : left = right := by
  obtain ⟨leftClient, inLeft, leftFD⟩ := ownership.owner left session leftOpen
  obtain ⟨rightClient, inRight, rightFD⟩ := ownership.owner right session rightOpen
  rw [← leftFD, ← rightFD, Option.some.inj (inLeft.symm.trans inRight)]

/-- The name in the array finds the entry of the client that owns the descriptor. -/
theorem Agreement.lookup_usernamesByFD {server : ChatServer} (agreement : server.Agreement)
    {fd owner : Nat} (joined : server.OwnerJoined fd) (opened : server.openFD fd = some owner)
    (kept : server.removed owner = false) :
    ∃ client, server.clients owner = some client ∧ client.sockFD = fd ∧
      hashTableLookup server.usernamesHt (some (.ofBlock (server.usernamesByFD fd))) =
        some owner := by
  obtain ⟨other, client, opened', here, joined⟩ := joined
  obtain rfl : owner = other := Option.some.inj (opened.symm.trans opened')
  obtain ⟨client', here', sockFD⟩ := agreement.ownership.owner fd owner opened
  obtain rfl : client = client' := Option.some.inj (here.symm.trans here')
  have related := Pc.related_of_joined joined
  have inserted := Pc.inserted_of_related related
  obtain ⟨text, filled⟩ := agreement.ownership.text_usernamesByFD agreement.registered here related
    (sockFD.symm ▸ opened)
  rw [sockFD] at text filled
  refine ⟨client, here, sockFD, ?_⟩
  rw [agreement.registered.table.lookup filled, StringBuffer.ofBlock_text, text]
  exact agreement.registered.bound owner _ ⟨client, here, inserted, rfl⟩ kept

theorem Agreement.registryAgrees {server : ChatServer} (agreement : server.Agreement) :
    server.RegistryAgrees := by
  intro fd online
  obtain ⟨joined, kept⟩ := agreement.online fd online
  have ⟨owner, _, opened, _⟩ := joined
  obtain ⟨client, here, sockFD, found⟩ :=
    agreement.lookup_usernamesByFD joined opened (kept owner opened)
  exact ⟨owner, client, here, sockFD, found⟩

/-- The condition on a step of a thread, by the position of the thread. -/
structure RemovesOnline (server : ChatServer) (session : Nat) (client : ClientInfo) : Prop where
  clear : ∀ closed departing, client.pc = .remove .clear closed departing →
    server.onlineClients client.i.toNat = true ∧
      ∃ owner, departing = some owner ∧ server.openFD client.i.toNat = some owner
  quit : client.pc = .gather .delete → server.removed session = true ∧
    hashTableLookup server.usernamesHt (some (.ofBlock client.name)) = none

theorem removesOnline_run {server : ChatServer} {session : Nat} {client : ClientInfo}
    {input : Input} (here : server.clients session = some client)
    (removes : server.removesOnline (.run session input) = true) :
    server.RemovesOnline session client := by
  simp only [removesOnline, here] at removes
  split at removes
  · constructor
    · rintro _ departing at_clear
      simp_all [Option.isSome_iff_exists]
    · simp_all
  · constructor <;> simp_all
  · constructor <;> simp_all

/-- The facts about one thread's step that the invariant is carried by. -/
structure AgreementStep (server : ChatServer) (session : Nat) (client client' : ClientInfo)
    (command : Command) : Prop where
  agreement : server.Agreement
  here : server.clients session = some client
  moved : server.RegistryStep session client client' command
  clears : ClearStep client client' command
  removes : server.RemovesOnline session client

namespace AgreementStep

variable {server : ChatServer} {session : Nat} {client client' : ClientInfo} {command : Command}

/-- A deletion by descriptor finds the entry of the descriptor's owner. -/
theorem finds (step : server.AgreementStep session client client' command) {closed : Bool}
    {departing : Option Nat} (at_delete : client.pc = .remove .delete closed departing) :
    ∃ owner ownerClient, departing = some owner ∧ server.openFD client.i.toNat = some owner ∧
      server.clients owner = some ownerClient ∧ ownerClient.sockFD = client.i.toNat ∧
      hashTableLookup server.usernamesHt
        (some (.ofBlock (server.usernamesByFD client.i.toNat))) = some owner := by
  obtain ⟨owner, recorded, opened, kept⟩ := step.agreement.condemned session client departing
    step.here (by rw [at_delete]; rfl)
  obtain ⟨-, joined⟩ := step.agreement.clearing session client step.here (by rw [at_delete]; rfl)
  obtain ⟨ownerClient, inside, sockFD, found⟩ :=
    step.agreement.lookup_usernamesByFD joined opened kept
  exact ⟨owner, ownerClient, recorded, opened, inside, sockFD, found⟩

theorem deletesOwn (step : server.AgreementStep session client client' command) :
    server.deletesOwn session client = true := by
  cases deletes : server.deletion session client with
  | none => simp [ChatServer.deletesOwn, deletes]
  | some deletion =>
      obtain ⟨key, departing⟩ := deletion
      apply (deletesOwn_iff deletes).mpr
      intro found isFound
      revert deletes
      fun_cases ChatServer.deletion server session client with
      | case1 closed recorded at_delete =>
          intro deletes
          obtain ⟨rfl, rfl⟩ := Prod.mk.inj (Option.some.inj deletes)
          obtain ⟨owner, _, -, opened, -, -, finds⟩ := step.finds at_delete
          rw [opened, ← isFound, finds]
      | case2 at_delete =>
          intro deletes
          obtain ⟨rfl, rfl⟩ := Prod.mk.inj (Option.some.inj deletes)
          simp [(step.removes.quit at_delete).2] at isFound
      | case3 => simp

/-- A record of removal is new only for the owner of the descriptor being removed. -/
theorem removed (step : server.AgreementStep session client client' command) {other : Nat}
    (isRemoved : (server.perform session client' command).removed other = true) :
    server.removed other = true ∨
      (∃ closed departing, client.pc = .remove .delete closed departing) ∧
      server.openFD client.i.toNat = some other := by
  rw [perform_removed] at isRemoved
  split at isRemoved
  · rename_i key departing
    rw [Bool.or_eq_true, decide_eq_true_eq] at isRemoved
    apply isRemoved.imp_right
    intro owned
    obtain ⟨owner, found⟩ := owned
    have deletes := (step.moved.deletes key departing).mp rfl
    revert deletes
    fun_cases ChatServer.deletion server session client with
    | case1 closed recorded at_delete =>
        intro deletes
        obtain ⟨rfl, rfl⟩ := Prod.mk.inj (Option.some.inj deletes)
        exact ⟨⟨closed, recorded, at_delete⟩, owner⟩
    | case2 at_delete =>
        intro deletes
        obtain ⟨rfl, rfl⟩ := Prod.mk.inj (Option.some.inj deletes)
        simp [(step.removes.quit at_delete).2] at found
    | case3 => simp
  · exact .inl isRemoved

/-- Descriptors are closed by threads that have cleared them. -/
theorem openFD (step : server.AgreementStep session client client' command) (fd : Nat)
    (kept : client.pc = .gather (.depart true) → fd ≠ client.i.toNat) :
    (server.perform session client' command).openFD fd = server.openFD fd := by
  rw [perform_openFD]
  split
  · obtain ⟨at_close, rfl⟩ := step.moved.closes _ rfl
    rw [Function.update_of_ne (kept at_close)]
  · rfl

/-- Joined owners keep their descriptors unless one is closed. -/
theorem ownerJoined (step : server.AgreementStep session client client' command) {fd : Nat}
    (kept : client.pc = .gather (.depart true) → fd ≠ client.i.toNat)
    (joined : server.OwnerJoined fd) : (server.perform session client' command).OwnerJoined fd := by
  obtain ⟨owner, ownerClient, opened, inside, joined⟩ := joined
  by_cases same : owner = session
  · subst same
    obtain rfl : client = ownerClient := Option.some.inj (step.here.symm.trans inside)
    exact ⟨owner, client', (step.openFD fd kept).trans opened, by simp,
      step.moved.joinedStays joined⟩
  · exact ⟨owner, ownerClient, (step.openFD fd kept).trans opened,
      by simpa [Function.update_of_ne same] using inside, joined⟩

/-- A descriptor goes online only when its owner joins. -/
theorem onlineClients (step : server.AgreementStep session client client' command) {fd : Nat}
    (online : (server.perform session client' command).onlineClients fd = true) :
    client.pc = .gather .join ∧ client'.pc.joined ∧ fd = client.sockFD ∨
      server.onlineClients fd = true ∧ command ≠ .leaveOnline fd := by
  rw [perform_onlineClients] at online
  split at online
  · by_cases same : fd = client'.sockFD
    · obtain ⟨at_join, joined⟩ := step.moved.joins rfl
      exact .inl ⟨at_join, joined, same.trans step.moved.sockFD⟩
    · rw [Function.update_of_ne same] at online
      exact .inr ⟨online, by simp⟩
  · rename_i cleared
    by_cases same : fd = cleared
    · simp [same] at online
    · rw [Function.update_of_ne same] at online
      exact .inr ⟨online, by simpa using Ne.symm same⟩
  · rename_i noJoin noLeave
    exact .inr ⟨online, noLeave fd⟩

/-- With distinct names in use, the name about to be inserted is free. -/
theorem free (step : server.AgreementStep session client client' command)
    (distinct : server.NamesDistinct) (at_insert : client.pc = .accept .insert) :
    server.usernamesHt.contents (CString.text client.name) = none := by
  have registered := step.agreement.registered
  have absent {string : List UInt8} (binds : server.Binds session string) : False := by
    obtain ⟨found, inside, inserted, -⟩ := binds
    obtain rfl : client = found := Option.some.inj (step.here.symm.trans inside)
    simp [at_insert, Pc.inserted] at inserted
  apply Option.eq_none_iff_forall_ne_some.mpr
  intro owner found
  obtain ⟨binds, kept⟩ := registered.entry _ owner found
  have keptSession : server.removed session = false := by
    by_contra removed
    obtain ⟨string, binds⟩ := registered.gone session (by simpa using removed)
    exact absent binds
  have bound := binds
  obtain ⟨ownerClient, inside, inserted, same⟩ := bound
  obtain rfl := distinct inside step.here (Pc.told_of_inserted inserted) (by rw [at_insert]; rfl)
    kept keptSession same
  exact absent binds

theorem registered (step : server.AgreementStep session client client' command)
    (distinct : server.NamesDistinct) : (server.perform session client' command).Registered :=
  step.agreement.registered.perform step.here step.moved (step.free distinct) step.deletesOwn

theorem closing (step : server.AgreementStep session client client' command) {other : Nat}
    {otherClient : ClientInfo} (different : other ≠ session)
    (inside : server.clients other = some otherClient) (cleared : otherClient.pc.cleared) :
    client.pc.cleared → otherClient.i.toNat ≠ client.i.toNat := fun cleared' same =>
  different (step.agreement.separate other session otherClient client inside step.here cleared
    cleared' same)

/-- The owner of a cleared descriptor is not the client that joins. -/
theorem offline (step : server.AgreementStep session client client' command) {fd : Nat}
    (offline : server.onlineClients fd = false) (joined : server.OwnerJoined fd) :
    (server.perform session client' command).onlineClients fd = false := by
  by_contra online
  rcases step.onlineClients (by simpa using online) with ⟨at_join, -, rfl⟩ | ⟨was, -⟩
  · obtain ⟨owner, ownerClient, opened, inside, joined⟩ := joined
    have owns := step.agreement.ownership.owns session client step.here (by rw [at_join]; rfl)
    obtain rfl := Option.some.inj (owns.symm.trans opened)
    obtain rfl := Option.some.inj (step.here.symm.trans inside)
    simp [at_join, Pc.joined] at joined
  · simp [offline] at was

/-- A thread that closes a descriptor closes an offline one. -/
theorem at_close (step : server.AgreementStep session client client' command) {fd : Nat}
    (online : server.onlineClients fd = true) (at_close : client.pc = .gather (.depart true)) :
    fd ≠ client.i.toNat := by
  rintro rfl
  simp [(step.agreement.clearing session client step.here (by rw [at_close]; rfl)).1] at online

theorem online (step : server.AgreementStep session client client' command) (fd : Nat)
    (online : (server.perform session client' command).onlineClients fd = true) :
    (server.perform session client' command).OwnerJoined fd ∧
      ∀ other, (server.perform session client' command).openFD fd = some other →
        (server.perform session client' command).removed other = false := by
  have agreement := step.agreement
  rcases step.onlineClients online with ⟨at_join, joined, rfl⟩ | ⟨was, -⟩
  · have owns := agreement.ownership.owns session client step.here (by rw [at_join]; rfl)
    have opened := step.openFD client.sockFD fun at_close => by simp [at_join] at at_close
    rw [owns] at opened
    refine ⟨⟨session, client', opened, by simp, joined⟩, fun other isOpen => ?_⟩
    obtain rfl := Option.some.inj (opened.symm.trans isOpen)
    by_contra removed
    rcases step.removed (by simpa using removed) with was | ⟨⟨closed, recorded, at_delete⟩, -⟩
    · have joined := agreement.left _ client step.here was
      simp [at_join, Pc.joined] at joined
    · simp [at_join] at at_delete
  · obtain ⟨joined, kept⟩ := agreement.online fd was
    refine ⟨step.ownerJoined (step.at_close was) joined, fun other isOpen => ?_⟩
    rw [step.openFD fd (step.at_close was)] at isOpen
    by_contra removed
    rcases step.removed (by simpa using removed) with old | ⟨⟨closed, recorded, at_delete⟩, opened⟩
    · simp [kept other isOpen] at old
    · obtain rfl := agreement.ownership.injective isOpen opened
      simp [(agreement.clearing session client step.here (by rw [at_delete]; rfl)).1] at was

theorem left (step : server.AgreementStep session client client' command) (other : Nat)
    (otherClient : ClientInfo)
    (inside : (server.perform session client' command).clients other = some otherClient)
    (removed : (server.perform session client' command).removed other = true) :
    otherClient.pc.joined := by
  have agreement := step.agreement
  have joined : ∃ found, server.clients other = some found ∧ found.pc.joined := by
    rcases step.removed removed with was | ⟨⟨closed, recorded, at_delete⟩, opened⟩
    · obtain ⟨string, found, inside, -⟩ := agreement.registered.gone other was
      exact ⟨found, inside, agreement.left other found inside was⟩
    · obtain ⟨owner, found, opened', inside, joined⟩ :=
        (agreement.clearing session client step.here (by rw [at_delete]; rfl)).2
      obtain rfl := Option.some.inj (opened.symm.trans opened')
      exact ⟨found, inside, joined⟩
  obtain ⟨found, was, joined⟩ := joined
  rcases update_eq_some inside with ⟨rfl, rfl⟩ | ⟨-, inside⟩
  · obtain rfl := Option.some.inj (step.here.symm.trans was)
    exact step.moved.joinedStays joined
  · obtain rfl := Option.some.inj (inside.symm.trans was)
    exact joined

theorem clearing (step : server.AgreementStep session client client' command) (other : Nat)
    (otherClient : ClientInfo)
    (inside : (server.perform session client' command).clients other = some otherClient)
    (cleared : otherClient.pc.cleared) :
    (server.perform session client' command).onlineClients otherClient.i.toNat = false ∧
      (server.perform session client' command).OwnerJoined otherClient.i.toNat := by
  have agreement := step.agreement
  rcases update_eq_some inside with ⟨rfl, rfl⟩ | ⟨different, inside⟩
  · have apart : client.pc = .gather (.depart true) → client.i.toNat ≠ client.i.toNat :=
      fun at_close => by simp [step.clears.closes at_close] at cleared
    obtain ⟨same, was | ⟨⟨closed, departing, at_clear⟩, rfl⟩⟩ := step.clears.cleared cleared
    · obtain ⟨offline, joined⟩ := agreement.clearing _ client step.here was
      rw [same]
      exact ⟨step.offline offline joined, step.ownerJoined apart joined⟩
    · rw [same, perform_onlineClients]
      refine ⟨Function.update_self .., step.ownerJoined apart ?_⟩
      exact (agreement.online _ (step.removes.clear closed departing at_clear).1).1
  · obtain ⟨offline, joined⟩ := agreement.clearing other otherClient inside cleared
    refine ⟨step.offline offline joined, step.ownerJoined (fun at_close => ?_) joined⟩
    exact step.closing different inside cleared (by rw [at_close]; rfl)

theorem condemned (step : server.AgreementStep session client client' command) (other : Nat)
    (otherClient : ClientInfo) (departing : Option Nat)
    (inside : (server.perform session client' command).clients other = some otherClient)
    (condemned : otherClient.pc.condemned = some departing) :
    ∃ owner, departing = some owner ∧
      (server.perform session client' command).openFD otherClient.i.toNat = some owner ∧
      (server.perform session client' command).removed owner = false := by
  have agreement := step.agreement
  have cleared := Pc.cleared_of_condemned condemned
  rcases update_eq_some inside with ⟨rfl, rfl⟩ | ⟨different, inside⟩
  · have apart : client.pc = .gather (.depart true) → client.i.toNat ≠ client.i.toNat :=
      fun at_close => by simp [step.clears.closes at_close] at cleared
    have fresh (owner : Nat) (was : server.removed owner = false) :
        (server.perform other otherClient command).removed owner = false := by
      by_contra removed
      rcases step.removed (by simpa using removed) with old | ⟨⟨closed, recorded, at_delete⟩, -⟩
      · simp [was] at old
      · simp [step.clears.deletes closed recorded at_delete] at condemned
    rw [(step.clears.cleared cleared).1, step.openFD _ apart]
    rcases step.clears.condemned departing condemned with was | ⟨closed, at_clear⟩
    · obtain ⟨owner, recorded, opened, kept⟩ :=
        agreement.condemned _ client departing step.here was
      exact ⟨owner, recorded, opened, fresh owner kept⟩
    · obtain ⟨online, owner, recorded, opened⟩ := step.removes.clear closed departing at_clear
      exact ⟨owner, recorded, opened, fresh owner ((agreement.online _ online).2 owner opened)⟩
  · obtain ⟨owner, recorded, opened, kept⟩ :=
      agreement.condemned other otherClient departing inside condemned
    rw [step.openFD _ fun at_close =>
      step.closing different inside cleared (by rw [at_close]; rfl)]
    refine ⟨owner, recorded, opened, ?_⟩
    by_contra removed
    rcases step.removed (by simpa using removed) with old | ⟨⟨closed, _, at_delete⟩, opened'⟩
    · simp [kept] at old
    · exact step.closing different inside cleared (by rw [at_delete]; rfl)
        (agreement.ownership.injective opened opened')

/-- A remover and a thread that starts removing work on different descriptors. -/
theorem alone (step : server.AgreementStep session client client' command) {other : Nat}
    {otherClient : ClientInfo} (different : other ≠ session)
    (inside : server.clients other = some otherClient) (cleared : otherClient.pc.cleared)
    (cleared' : client'.pc.cleared) : otherClient.i.toNat ≠ client'.i.toNat := by
  obtain ⟨same, was | ⟨⟨closed, departing, at_clear⟩, -⟩⟩ := step.clears.cleared cleared'
  · rw [same]
    exact step.closing different inside cleared was
  · intro equal
    have online := (step.removes.clear closed departing at_clear).1
    rw [← same, ← equal, (step.agreement.clearing other otherClient inside cleared).1] at online
    cases online

theorem separate (step : server.AgreementStep session client client' command) (left right : Nat)
    (leftClient rightClient : ClientInfo)
    (inLeft : (server.perform session client' command).clients left = some leftClient)
    (inRight : (server.perform session client' command).clients right = some rightClient)
    (leftCleared : leftClient.pc.cleared) (rightCleared : rightClient.pc.cleared)
    (same : leftClient.i.toNat = rightClient.i.toNat) : left = right := by
  rcases update_eq_some inLeft with ⟨rfl, rfl⟩ | ⟨leftOther, wasLeft⟩ <;>
    rcases update_eq_some inRight with ⟨rfl, rfl⟩ | ⟨rightOther, wasRight⟩
  · rfl
  · exact absurd same.symm (step.alone rightOther wasRight rightCleared leftCleared)
  · exact absurd same (step.alone leftOther wasLeft leftCleared rightCleared)
  · exact step.agreement.separate left right leftClient rightClient wasLeft wasRight leftCleared
      rightCleared same

/-- A removal deletes the entry of the client whose `recv` ended, and no other. -/
theorem removes_departing (step : server.AgreementStep session client client' command)
    {closed : Bool} {departing : Option Nat}
    (at_delete : client.pc = .remove .delete closed departing) :
    ∃ owner ownerClient, departing = some owner ∧ server.clients owner = some ownerClient ∧
      ownerClient.sockFD = client.i.toNat ∧
      hashTableLookup server.usernamesHt
        (some (.ofBlock (server.usernamesByFD client.i.toNat))) = some owner ∧
      server.RemovesEntryOf (server.perform session client' command) owner := by
  have registered := step.agreement.registered
  obtain ⟨owner, ownerClient, recorded, opened, inside, sockFD, found⟩ := step.finds at_delete
  refine ⟨owner, ownerClient, recorded, inside, sockFD, found, fun key => ?_⟩
  have text := registered.table.lookup_eq_some found
  obtain ⟨binds, -⟩ := registered.entry _ owner text
  obtain rfl : command = .deleteUsername (server.usernamesByFD client.i.toNat)
      (server.openFD client.i.toNat) :=
    (step.moved.deletes _ _).mpr (by rw [ChatServer.deletion, at_delete])
  rw [perform_usernamesHt]
  refine registered.table.lookup_delete (fun other isFound => ?_) (fun string bound => ?_) key
  · exact Option.some.inj (isFound.symm.trans found)
  · exact ⟨binds_unique (registered.entry string owner bound).1 binds, found⟩

/-- The deletion on the quit exit finds no entry any more. -/
theorem removes_session (step : server.AgreementStep session client client' command)
    (at_delete : client.pc = .gather .delete) :
    server.RemovesEntryOf (server.perform session client' command) session := by
  have registered := step.agreement.registered
  obtain ⟨removed, missed⟩ := step.removes.quit at_delete
  intro key
  obtain rfl : command = .deleteUsername client.name (some session) :=
    (step.moved.deletes _ _).mpr (by rw [ChatServer.deletion, at_delete])
  rw [perform_usernamesHt]
  refine registered.table.lookup_delete (fun other isFound => ?_) (fun string bound => ?_) key
  · simp [missed] at isFound
  · have kept := (registered.entry string session bound).2
    simp [removed] at kept

end AgreementStep

theorem Agreement.enroll {server : ChatServer} {session fd : Nat} (agreement : server.Agreement)
    (fresh : server.clients session = none) (free : server.openFD fd = none)
    (small : fd < fdSetSize) : (server.enroll session fd).Agreement := by
  have joined {other : Nat} (joined : server.OwnerJoined other) :
      (server.enroll session fd).OwnerJoined other := by
    obtain ⟨owner, client, isOpen, here, joined⟩ := joined
    exact ⟨owner, client, openFD_enroll free isOpen,
      (Function.update_of_ne (ne_of_fresh fresh here) _ _).trans here, joined⟩
  refine ⟨agreement.ownership.enroll fresh free small, agreement.registered.enroll fresh,
    ?_, ?_, ?_, ?_, ?_⟩
  · intro other online
    obtain ⟨ownerJoined, kept⟩ := agreement.online other online
    refine ⟨joined ownerJoined, fun found isFound => ?_⟩
    obtain ⟨owner, _, isOpen, _⟩ := ownerJoined
    obtain rfl := Option.some.inj ((openFD_enroll free isOpen).symm.trans isFound)
    exact kept owner isOpen
  · intro other client here removed
    rcases update_eq_some here with ⟨rfl, -⟩ | ⟨-, here⟩
    · obtain ⟨string, found, inside, -⟩ := agreement.registered.gone _ removed
      simp [fresh] at inside
    · exact agreement.left other client here removed
  · intro other client here cleared
    rcases enroll_cases here with new | here
    · simp [new, Pc.cleared] at cleared
    · obtain ⟨offline, ownerJoined⟩ := agreement.clearing other client here cleared
      exact ⟨offline, joined ownerJoined⟩
  · intro other client departing here condemned
    rcases enroll_cases here with new | here
    · simp [new, Pc.condemned] at condemned
    · obtain ⟨owner, recorded, isOpen, kept⟩ :=
        agreement.condemned other client departing here condemned
      exact ⟨owner, recorded, openFD_enroll free isOpen, kept⟩
  · intro left right leftClient rightClient inLeft inRight leftCleared rightCleared same
    rcases enroll_cases inLeft with new | inLeft
    · simp [new, Pc.cleared] at leftCleared
    rcases enroll_cases inRight with new | inRight
    · simp [new, Pc.cleared] at rightCleared
    exact agreement.separate left right leftClient rightClient inLeft inRight leftCleared
      rightCleared same

/-- The steps under which the registry agrees: the names in use are distinct, and a client is
removed only while it is online. -/
def KeepsAgreement (server : ChatServer) (label : Label) : Prop :=
  server.NamesDistinct ∧ server.removesOnline label = true

theorem Agreement.agreementStep {server : ChatServer} (agreement : server.Agreement)
    {session : Nat} {input : Input} {client client' : ClientInfo} {command : Command}
    (here : server.clients session = some client)
    (next : server.next session client input = some (client', command))
    (removes : server.removesOnline (.run session input) = true) :
    server.AgreementStep session client client' command :=
  ⟨agreement, here, next_registry next, next_clear next, removesOnline_run here removes⟩

theorem Agreement.step {before after : ChatServer} {label : Label} (agreement : before.Agreement)
    (keeps : before.KeepsAgreement label) (step : chatService.step before label = some after) :
    after.Agreement := by
  obtain ⟨distinct, removes⟩ := keeps
  have ownership : after.Ownership := by
    refine agreement.ownership.step ?_ step
    rintro session input client rfl here at_close
    exact (agreement.clearing session client here (by rw [at_close]; rfl)).2
  obtain ⟨-, steps⟩ := step_cases step
  cases steps with
  | accept fresh free small => exact agreement.enroll fresh free small
  | close => exact ⟨ownership, ⟨agreement.registered.table, agreement.registered.stored,
      agreement.registered.bound, agreement.registered.entry, agreement.registered.gone⟩,
      agreement.online, agreement.left, agreement.clearing, agreement.condemned,
      agreement.separate⟩
  | run here next free =>
      have step := agreement.agreementStep here next removes
      exact ⟨ownership, step.registered distinct, step.online, step.left, step.clearing,
        step.condemned, step.separate⟩

theorem agreement_of_reached {server : ChatServer}
    (reached : chatService.ReachesVia KeepsAgreement server) : server.Agreement :=
  reached.invariant (fun _ starts => Agreement.start starts)
    fun _ _ _ _ agreement keeps step => agreement.step keeps step

/-- While names are distinct and clients are removed only while online, every online descriptor
leads to the client that owns it, every removal deletes the entry of the client whose `recv` ended
and no other, and the deletion on the quit exit deletes the entry of no other client. -/
theorem registry_agreement {server : ChatServer}
    (reached : chatService.ReachesVia KeepsAgreement server) :
    server.RegistryAgrees ∧
      ∀ session input client after, server.clients session = some client →
        server.KeepsAgreement (.run session input) →
        chatService.step server (.run session input) = some after →
        (∀ closed departing, client.pc = .remove .delete closed departing →
          ∃ owner ownerClient, departing = some owner ∧ server.clients owner = some ownerClient ∧
            ownerClient.sockFD = client.i.toNat ∧
            hashTableLookup server.usernamesHt
              (some (.ofBlock (server.usernamesByFD client.i.toNat))) = some owner ∧
            server.RemovesEntryOf after owner) ∧
        (client.pc = .gather .delete → server.RemovesEntryOf after session) := by
  have agreement := agreement_of_reached reached
  refine ⟨agreement.registryAgrees, fun session input client after here keeps step => ?_⟩
  obtain ⟨-, steps⟩ := step_cases step
  cases steps with
  | run here' next free =>
      obtain rfl := Option.some.inj (here.symm.trans here')
      have step := agreement.agreementStep here next keeps.2
      exact ⟨fun closed departing at_delete => step.removes_departing at_delete,
        step.removes_session⟩

/-! ## Runs -/

/-- Two clients with different names join, and the second one hangs up and is removed by the thread
of the first. -/
def hangUpScript : List Label :=
  connectScript 1 4 [97] ++ registerScript 1 ++ ticks 1 3 ++
    connectScript 2 5 [98] ++ registerScript 2 ++ ticks 1 1 ++
    [.run 1 (.selected (some fun fd => fd == 5))] ++ ticks 1 2 ++ [.run 1 (.received .closed)] ++
    ticks 1 10

/-- A run that keeps names apart has distinct names throughout. -/
theorem namesDistinct_of_reached {condition : ChatServer → Label → Prop} {server : ChatServer}
    (reached : chatService.ReachesVia
      (fun state label => state.keepsNamesApart label = true ∧ condition state label) server) :
    chatService.ReachesVia (fun state label => state.NamesDistinct ∧ condition state label)
      server := by
  induction reached with
  | start initial => exact .start initial
  | next earlier guarded step ih =>
      have apart := namesApart (earlier.weaken fun _ _ both => both.1)
      exact ih.next ⟨apart.namesDistinct, guarded.2⟩ step

theorem registry_agreement_hang_up :
    ((chatService.execute (fun server label => server.keepsNamesApart label &&
        server.removesOnline label) beforeService hangUpScript).getD beforeService).RegistryAgrees ∧
      ∃ before after, chatService.step before (.run 1 .tick) = some after ∧
        hashTableLookup before.usernamesHt (some (.ofBlock (before.usernamesByFD 5))) = some 2 ∧
        before.RemovesEntryOf after 2 := by
  let condition (server : ChatServer) (label : Label) :=
    server.keepsNamesApart label && server.removesOnline label
  have agrees {server : ChatServer} {labels : List Label}
      (executed : chatService.execute condition beforeService labels = some server) :
      chatService.ReachesVia KeepsAgreement server ∧ server.NamesDistinct := by
    have reached := LabelledSystem.ReachesVia.execute (.start beforeService_starts) executed
    simp only [condition, Bool.and_eq_true] at reached
    exact ⟨namesDistinct_of_reached reached,
      (namesApart (reached.weaken fun _ _ both => both.1)).namesDistinct⟩
  have ends : (chatService.execute condition beforeService hangUpScript).isSome = true := by
    decide +kernel
  have deletes : ((chatService.execute condition beforeService (hangUpScript.take 55)).map
      fun before => ((before.clients 1).map fun client => (client.pc, client.i),
        hashTableLookup before.usernamesHt (some (.ofBlock (before.usernamesByFD 5))),
        before.removesOnline (.run 1 .tick),
        (chatService.step before (.run 1 .tick)).isSome)) =
      some (some (.remove .delete true (some 2), 5), some 2, true, true) := by
    decide +kernel
  refine ⟨?_, ?_⟩
  · obtain ⟨server, executed⟩ := Option.isSome_iff_exists.mp ends
    rw [executed]
    exact (registry_agreement (agrees executed).1).1
  · obtain ⟨before, executed, facts⟩ := Option.map_eq_some_iff.mp deletes
    simp only [Prod.mk.injEq, Option.map_eq_some_iff, Option.isSome_iff_exists] at facts
    obtain ⟨⟨client, here, at_delete, i⟩, found, removes, after, step⟩ := facts
    obtain ⟨reached, distinct⟩ := agrees executed
    obtain ⟨owner, _, recorded, -, -, -, removed⟩ :=
      ((registry_agreement reached).2 1 .tick client after here ⟨distinct, removes⟩ step).1 true
        (some 2) at_delete
    obtain rfl := Option.some.inj recorded
    exact ⟨before, after, step, found, removed⟩

/-- The only client goes once round the loop and leaves on the quit signal. -/
def quitScript : List Label :=
  connectScript 1 4 [97] ++ registerScript 1 ++ ticks 1 4 ++
    [.run 1 (.selected (some fun _ => false))]
    ++ ticks 1 4 ++ [.run 1 (.sent .taken)] ++ ticks 1 3 ++ [.closeService] ++ ticks 1 6

/-- Behind the closed socket the scan starts again and reads the closed descriptor, while a new
client registers under the name that has become free. -/
def rescanScript : List Label :=
  hangUpScript ++ connectScript 3 6 [98] ++ registerScript 3 ++ ticks 1 1 ++
    [.run 1 (.received .error)] ++ ticks 1 5

/-- The descriptor of a client that has left on the quit signal stays online, and a repeated removal
deletes the entry of another online client. -/
theorem registry_disagrees :
    (∃ server, chatService.ReachesVia (fun state _ => state.NamesDistinct) server ∧
      ¬ server.RegistryAgrees) ∧
    ∃ before client after, chatService.ReachesVia (fun state _ => state.NamesDistinct) before ∧
      before.NamesDistinct ∧ before.clients 1 = some client ∧
      client.pc = .remove .delete false none ∧
      chatService.step before (.run 1 .tick) = some after ∧ before.onlineClients 6 ∧
      hashTableLookup before.usernamesHt (some (.ofBlock (before.usernamesByFD 6))) = some 3 ∧
      hashTableLookup after.usernamesHt (some (.ofBlock (before.usernamesByFD 6))) = none := by
  have apart {server : ChatServer} {labels : List Label}
      (executed : chatService.execute keepsNamesApart beforeService labels = some server) :
      server.NamesApart := namesApart (.execute (.start beforeService_starts) executed)
  have distinct {server : ChatServer} {labels : List Label}
      (executed : chatService.execute keepsNamesApart beforeService labels = some server) :
      chatService.ReachesVia (fun state _ => state.NamesDistinct) server := by
    have reached : chatService.ReachesVia
        (fun state label => state.keepsNamesApart label = true ∧ True) server :=
      (LabelledSystem.ReachesVia.execute (.start beforeService_starts) executed).weaken
        fun _ _ keeps => ⟨keeps, trivial⟩
    exact (namesDistinct_of_reached reached).weaken fun _ _ both => both.1
  refine ⟨?_, ?_⟩
  · have ends : ((chatService.execute keepsNamesApart beforeService quitScript).map fun server =>
        (server.onlineClients 4, hashTableLookup server.usernamesHt
          (some (.ofBlock (server.usernamesByFD 4))))) = some (true, none) := by
      decide +kernel
    obtain ⟨server, executed, facts⟩ := Option.map_eq_some_iff.mp ends
    obtain ⟨online, missed⟩ := Prod.mk.inj facts
    refine ⟨server, distinct executed, fun agrees => ?_⟩
    obtain ⟨session, client, -, -, found⟩ := agrees 4 online
    simp [missed] at found
  · have ends : ((chatService.execute keepsNamesApart beforeService rescanScript).map fun before =>
        ((before.clients 1).map ClientInfo.pc, before.onlineClients 6,
          hashTableLookup before.usernamesHt (some (.ofBlock (before.usernamesByFD 6))),
          (chatService.step before (.run 1 .tick)).map fun after =>
            hashTableLookup after.usernamesHt (some (.ofBlock (before.usernamesByFD 6))))) =
        some (some (.remove .delete false none), true, some 3, some none) := by
      decide +kernel
    obtain ⟨before, executed, facts⟩ := Option.map_eq_some_iff.mp ends
    simp only [Prod.mk.injEq, Option.map_eq_some_iff] at facts
    obtain ⟨⟨client, here, at_delete⟩, online, found, after, step, missed⟩ := facts
    exact ⟨before, client, after, distinct executed, (apart executed).namesDistinct, here,
      at_delete, step, online, found, missed⟩

end ChatServer
end CmyMessage
