import CmyMessage.Broadcast.Registry

/-!
# The broadcaster role

`is_broadcasting` is claimed in `wait_for_thread_work` and given up inside
`start_removing_client_from_broadcast`.  As long as every `recv` of the gather loop returns data
nobody is removed, and at most one thread is inside the loop.  The removal of any client gives the
role away while the remover stays in the loop.
-/

namespace CmyMessage

/-- Inside the gather-and-broadcast loop: `wait_for_thread_work` has returned and
`get_messages_from_active_clients` has not. -/
def Pc.inLoop : Pc → Bool
  | .gather pc =>
      match pc with
      | .welcome | .lockOnline | .join | .unlockOnline => false
      | _ => true
  | .remove _ _ _ => true
  | .broadcast _ => true
  | _ => false

/-- The thread has set `is_broadcasting`. -/
def Pc.holdsRole (pc : Pc) : Bool := pc.inLoop || decide (pc = .wait .unlockServer)

/-- The thread has passed the first allocation. -/
def Pc.prepared : Pc → Bool
  | .prepare .lockServer | .prepare .firstAllocation | .abandoned => false
  | _ => true

/-- The thread is removing a client. -/
def Pc.departing : Pc → Bool
  | .remove _ _ _ => true
  | .gather (.depart _) => true
  | _ => false

namespace ChatServer

/-- At most one thread is inside the gather-and-broadcast loop. -/
def AtMostOneInLoop (server : ChatServer) : Prop :=
  ∀ ⦃left right leftClient rightClient⦄, server.clients left = some leftClient →
    server.clients right = some rightClient → leftClient.pc.inLoop → rightClient.pc.inLoop →
      left = right

/-- A `recv` of the gather loop returns data. -/
def gatherReceivesData (server : ChatServer) : Label → Bool
  | .run session (.received result) =>
      match server.clients session with
      | some client => decide (client.pc ≠ .gather .receive) || result.isData
      | none => true
  | _ => true

/-- What a step of a thread does to the role. -/
structure RoleStep (server : ChatServer) (client : ClientInfo) (input : Input)
    (client' : ClientInfo) (command : Command) : Prop where
  allocates : command = .firstAllocation → server.didFirstAllocation = false
  prepares : client'.pc.prepared →
    client.pc.prepared ∨ server.didFirstAllocation ∨ command = .firstAllocation
  claims : command = .claimBroadcast → server.isBroadcasting = false
  enters : client'.pc.holdsRole → client.pc.holdsRole ∨ command = .claimBroadcast
  releases : command = .releaseBroadcast → client.pc.departing
  departs : client'.pc.departing → client.pc.departing ∨
    client.pc = .gather .receive ∧ (input = .received .closed ∨ input = .received .error)

theorem next_role {server : ChatServer} {session : Nat} {client client' : ClientInfo}
    {input : Input} {command : Command}
    (next : server.next session client input = some (client', command)) :
    server.RoleStep client input client' command := by
  revert next
  fun_cases ChatServer.next <;>
    [fun_cases prepareClientForBroadcastAndStart; fun_cases askAndAssignUsername;
      fun_cases acceptAndStoreClientUsername; fun_cases getMessagesFromActiveClients;
      fun_cases waitForThreadWork; fun_cases startRemovingClientFromBroadcast;
      fun_cases broadcastMessageToOnlineClients; skip; skip]
  all_goals rintro ⟨⟩
  all_goals
    constructor <;>
      simp_all [ClientInfo.goto, Pc.prepared, Pc.holdsRole, Pc.inLoop, Pc.departing]

/-- The flag is up while some thread holds the role, one thread at most, and nobody departs. -/
structure RoleKept (server : ChatServer) : Prop where
  allocated : ∀ session client, server.clients session = some client → client.pc.prepared →
    server.didFirstAllocation
  staying : ∀ session client, server.clients session = some client → client.pc.departing = false
  raised : ∀ session client, server.clients session = some client → client.pc.holdsRole →
    server.isBroadcasting
  unique : ∀ left right leftClient rightClient, server.clients left = some leftClient →
    server.clients right = some rightClient → leftClient.pc.holdsRole →
    rightClient.pc.holdsRole → left = right

theorem RoleKept.start {server : ChatServer} (starts : server.Starts) : server.RoleKept := by
  constructor <;> simp [starts.clients]

theorem holdsRole_prepared {pc : Pc} (holds : pc.holdsRole) : pc.prepared := by
  cases pc <;> simp_all [Pc.holdsRole, Pc.inLoop, Pc.prepared]

theorem RoleKept.enroll {server : ChatServer} {newcomer fd : Nat} (kept : server.RoleKept) :
    (server.enroll newcomer fd).RoleKept := by
  constructor
  · intro session client here prepared
    rcases enroll_cases here with new | here
    · simp [new, Pc.prepared] at prepared
    · exact kept.allocated session client here prepared
  · intro session client here
    rcases enroll_cases here with new | here
    · simp [new, Pc.departing]
    · exact kept.staying session client here
  · intro session client here holds
    rcases enroll_cases here with new | here
    · simp [new, Pc.holdsRole, Pc.inLoop] at holds
    · exact kept.raised session client here holds
  · intro left right leftClient rightClient inLeft inRight holdsLeft holdsRight
    rcases enroll_cases inLeft with new | inLeft
    · simp [new, Pc.holdsRole, Pc.inLoop] at holdsLeft
    rcases enroll_cases inRight with new | inRight
    · simp [new, Pc.holdsRole, Pc.inLoop] at holdsRight
    exact kept.unique left right leftClient rightClient inLeft inRight holdsLeft holdsRight

section Perform

variable {server : ChatServer} {session : Nat} {client client' : ClientInfo} {input : Input}
  {command : Command}

/-- A raised flag stays up: nobody departs, and the allocation that lowers it comes before any
claim. -/
theorem RoleKept.flag_stays (kept : server.RoleKept) (here : server.clients session = some client)
    (moved : server.RoleStep client input client' command) (raised : server.isBroadcasting)
    (allocated : server.didFirstAllocation) :
    (server.perform session client' command).isBroadcasting := by
  rw [perform_isBroadcasting]
  split
  · simp [moved.allocates rfl] at allocated
  · rfl
  · have departs := moved.releases rfl
    rw [kept.staying session client here] at departs
    cases departs
  · exact raised

/-- While another thread holds the role, a thread does not come to hold it. -/
theorem RoleKept.alone (kept : server.RoleKept) (here : server.clients session = some client)
    (moved : server.RoleStep client input client' command) {other : Nat} {otherClient : ClientInfo}
    (different : other ≠ session) (inside : server.clients other = some otherClient)
    (holds : otherClient.pc.holdsRole) : ¬ client'.pc.holdsRole := by
  intro holds'
  rcases moved.enters holds' with old | claim
  · exact different (kept.unique other session otherClient client inside here holds old)
  · have raised := kept.raised other otherClient inside holds
    simp [moved.claims claim] at raised

theorem RoleKept.perform (kept : server.RoleKept) (here : server.clients session = some client)
    (receives : server.gatherReceivesData (.run session input))
    (moved : server.RoleStep client input client' command) :
    (server.perform session client' command).RoleKept := by
  constructor
  · intro other found inside prepared
    rw [perform_didFirstAllocation]
    split
    · rfl
    · rcases update_eq_some inside with ⟨rfl, rfl⟩ | ⟨-, inside⟩
      · rcases moved.prepares prepared with old | old | new
        · exact kept.allocated _ client here old
        · exact old
        · contradiction
      · exact kept.allocated other found inside prepared
  · intro other found inside
    rcases update_eq_some inside with ⟨rfl, rfl⟩ | ⟨-, inside⟩
    · by_contra departs
      rcases moved.departs (by simpa using departs) with old | ⟨at_recv, ended⟩
      · simp [kept.staying _ client here] at old
      · rcases ended with rfl | rfl <;>
          simp [gatherReceivesData, here, at_recv, RecvResult.isData] at receives
    · exact kept.staying other found inside
  · intro other found inside holds
    rcases update_eq_some inside with ⟨rfl, rfl⟩ | ⟨-, inside⟩
    · rcases moved.enters holds with old | claim
      · exact kept.flag_stays here moved (kept.raised _ client here old)
          (kept.allocated _ client here (holdsRole_prepared old))
      · rw [perform_isBroadcasting, claim]
    · exact kept.flag_stays here moved (kept.raised other found inside holds)
        (kept.allocated other found inside (holdsRole_prepared holds))
  · intro left right leftClient rightClient inLeft inRight holdsLeft holdsRight
    rcases update_eq_some inLeft with ⟨rfl, rfl⟩ | ⟨leftOther, wasLeft⟩ <;>
      rcases update_eq_some inRight with ⟨rfl, rfl⟩ | ⟨rightOther, wasRight⟩
    · rfl
    · exact absurd holdsLeft (kept.alone here moved rightOther wasRight holdsRight)
    · exact absurd holdsRight (kept.alone here moved leftOther wasLeft holdsLeft)
    · exact kept.unique left right leftClient rightClient wasLeft wasRight holdsLeft holdsRight

end Perform

theorem RoleKept.step {before after : ChatServer} {label : Label} (kept : before.RoleKept)
    (receives : before.gatherReceivesData label)
    (step : chatService.step before label = some after) : after.RoleKept := by
  obtain ⟨-, steps⟩ := step_cases step
  cases steps with
  | accept fresh free small => exact kept.enroll
  | close => exact ⟨kept.allocated, kept.staying, kept.raised, kept.unique⟩
  | run here next free => exact kept.perform here receives (next_role next)

/-- While the gather loops receive data only, at most one thread is inside the loop. -/
theorem broadcaster_unique {server : ChatServer}
    (reached : chatService.ReachesVia
      (fun state label => state.gatherReceivesData label = true) server) :
    server.AtMostOneInLoop := by
  have kept : server.RoleKept :=
    reached.invariant (fun _ starts => RoleKept.start starts)
      fun _ _ _ _ kept receives step => kept.step receives step
  intro left right leftClient rightClient inLeft inRight loopsLeft loopsRight
  exact kept.unique left right leftClient rightClient inLeft inRight
    (by simp [Pc.holdsRole, loopsLeft]) (by simp [Pc.holdsRole, loopsRight])

theorem broadcaster_unique_two_clients :
    (chatService.execute gatherReceivesData beforeService twoClientsScript).isSome ∧
      ((chatService.execute gatherReceivesData beforeService twoClientsScript).getD
        beforeService).AtMostOneInLoop := by
  have executes :
      (chatService.execute gatherReceivesData beforeService twoClientsScript).isSome = true := by
    decide +kernel
  exact ⟨executes, broadcaster_unique (.execute_getD (.start beforeService_starts) executes)⟩

/-- The second client hangs up.  Its removal gives the role away, and its own thread, woken, enters
the loop that the first thread has not left. -/
theorem broadcaster_not_unique :
    ∃ server, chatService.Reaches server ∧ ¬ server.AtMostOneInLoop := by
  let hangUp : List Label :=
    ticks 1 1 ++ [.run 1 (.selected (some fun fd => fd == 5))] ++ ticks 1 2 ++
      [.run 1 (.received .closed)] ++ ticks 1 9 ++ ticks 2 3
  have executes : ((chatService.execute (fun _ _ => true) beforeService
      (twoClientsScript ++ hangUp)).map fun server =>
        ((server.clients 1).map fun client => client.pc,
          (server.clients 2).map fun client => client.pc)) =
      some (some (.gather (.depart true)), some (.gather .snapshot)) := by
    decide +kernel
  obtain ⟨server, executed, positions⟩ := Option.map_eq_some_iff.mp executes
  refine ⟨server, ?_, fun unique => ?_⟩
  · exact executed_reaches executed
  · obtain ⟨first, second⟩ := Prod.mk.inj positions
    obtain ⟨firstClient, inFirst, firstPc⟩ := Option.map_eq_some_iff.mp first
    obtain ⟨secondClient, inSecond, secondPc⟩ := Option.map_eq_some_iff.mp second
    have same := unique inFirst inSecond (by rw [firstPc]; rfl) (by rw [secondPc]; rfl)
    exact absurd same (by decide)

end ChatServer
end CmyMessage
