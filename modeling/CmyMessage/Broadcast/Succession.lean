import CmyMessage.Broadcast.Role

/-!
# Handing the broadcaster role on

A thread that leaves the gather-and-broadcast loop because its own client's `recv` failed has
cleared `is_broadcasting` before.  A thread that leaves because of the quit signal has not, so the
flag may stay up with nobody inside, and the threads blocked in `wait_for_thread_work` look at
nothing else.
-/

namespace CmyMessage

/-- The loop of `get_messages_from_active_clients` has ended on the quit signal. -/
def Pc.quits : Pc → Bool
  | .gather .lockUsernames | .gather .delete | .gather .unlockUsernames => true
  | _ => false

/-- The thread has claimed the role and not left the loop since. -/
def Pc.broadcasts (pc : Pc) : Bool := pc.holdsRole && !pc.quits

/-- The thread has given the role up and will leave the loop: its own client's `recv` failed. -/
def ClientInfo.resigns (client : ClientInfo) : Bool :=
  match client.pc with
  | .remove .unlockServer closed _ | .gather (.depart closed) =>
      !closed && decide (client.i = client.sockFD)
  | _ => false

/-- The thread is in the loop and has not given the role up for good. -/
def ClientInfo.stays (client : ClientInfo) : Bool := client.pc.broadcasts && !client.resigns

/-- The next step of the thread ends the loop on the quit signal. -/
def ClientInfo.endsLoop (client : ClientInfo) : Bool :=
  decide (client.pc = .gather .unlockQuit) && client.quitSignalVal

namespace ChatServer

/-- Another thread stays in the loop. -/
def SomebodyElseStays (server : ChatServer) (session : Nat) : Prop :=
  ∃ other client, other ≠ session ∧ server.clients other = some client ∧ client.stays

/-- A thread that ends its loop on the quit signal leaves the flag down or somebody else inside. -/
def HandsRoleOn (server : ChatServer) (label : Label) : Prop :=
  ∀ session input client, label = .run session input → server.clients session = some client →
    client.endsLoop → server.isBroadcasting = false ∨ server.SomebodyElseStays session

/-- What a step of a thread does to its stay in the loop. -/
structure StayStep (client client' : ClientInfo) (command : Command) : Prop where
  stays : client.stays → client'.stays ∨ command = .releaseBroadcast ∨ client.endsLoop
  claims : command = .claimBroadcast → client'.stays
  ends : client.endsLoop → client'.pc.quits
  keeps : client.endsLoop → command = .unlock .quitSignal

theorem next_stay {server : ChatServer} {session : Nat} {client client' : ClientInfo}
    {input : Input} {command : Command}
    (next : server.next session client input = some (client', command)) :
    StayStep client client' command := by
  revert next
  fun_cases ChatServer.next <;>
    [fun_cases prepareClientForBroadcastAndStart; fun_cases askAndAssignUsername;
      fun_cases acceptAndStoreClientUsername; fun_cases getMessagesFromActiveClients;
      fun_cases waitForThreadWork; fun_cases startRemovingClientFromBroadcast;
      fun_cases broadcastMessageToOnlineClients; skip; skip]
  all_goals rintro ⟨⟩
  all_goals
    constructor <;>
      simp_all [ClientInfo.goto, ClientInfo.stays, ClientInfo.resigns, ClientInfo.endsLoop,
        Pc.broadcasts, Pc.holdsRole, Pc.inLoop, Pc.quits, -Bool.or_eq_true]

  -- The end of a removal moves a thread that resigns to the place where it leaves.
  exact id

/-- While the flag is up, somebody stays in the loop. -/
def RoleOccupied (server : ChatServer) : Prop :=
  server.didFirstAllocation → server.isBroadcasting →
    ∃ session client, server.clients session = some client ∧ client.stays

theorem RoleOccupied.step {before after : ChatServer} {label : Label}
    (occupied : before.RoleOccupied) (hands : before.HandsRoleOn label)
    (step : chatService.step before label = some after) : after.RoleOccupied := by
  obtain ⟨-, steps⟩ := step_cases step
  cases steps with
  | @accept newcomer fd fresh free small =>
      intro allocated raised
      obtain ⟨session, client, here, stays⟩ := occupied allocated raised
      have different := ne_of_fresh fresh here
      exact ⟨session, client, (Function.update_of_ne different _ _).trans here, stays⟩
  | close => exact occupied
  | @run session input client client' command here next free =>
      have moved := next_stay next
      intro allocated raised
      have inside {other : Nat} {otherClient : ClientInfo} (different : other ≠ session)
          (was : before.clients other = some otherClient) :
          (before.perform session client' command).clients other = some otherClient :=
        (Function.update_of_ne different _ _).trans was
      rw [perform_isBroadcasting] at raised
      rw [perform_didFirstAllocation] at allocated
      by_cases claims : command = .claimBroadcast
      · exact ⟨session, client', by simp, moved.claims claims⟩
      by_cases releases : command = .releaseBroadcast
      · simp [releases] at raised
      have before_up : before.didFirstAllocation ∧ before.isBroadcasting := by
        cases command <;> simp_all
      obtain ⟨other, otherClient, was, stays⟩ := occupied before_up.1 before_up.2
      rcases eq_or_ne other session with rfl | different
      · obtain rfl : client = otherClient := Option.some.inj (here.symm.trans was)
        rcases moved.stays stays with still | release | ends
        · exact ⟨other, client', by simp, still⟩
        · exact absurd release releases
        · rcases hands other input client rfl here ends with
            down | ⟨third, thirdClient, apart, here', thirdStays⟩
          · simp [down] at before_up
          · exact ⟨third, thirdClient, inside apart here', thirdStays⟩
      · exact ⟨other, otherClient, inside different was, stays⟩

theorem roleOccupied {server : ChatServer}
    (reached : chatService.ReachesVia HandsRoleOn server) : server.RoleOccupied :=
  reached.invariant
    (fun _ starts allocated => by simp [starts.didFirstAllocation] at allocated)
    fun _ _ _ _ occupied hands step => occupied.step hands step

/-- No thread ends its loop. -/
def loopGoesOn (server : ChatServer) : Label → Bool
  | .run session _ =>
      match server.clients session with
      | some client => !client.endsLoop
      | none => true
  | _ => true

theorem handsRoleOn_of_loopGoesOn {server : ChatServer} {label : Label}
    (goesOn : server.loopGoesOn label = true) : server.HandsRoleOn label := by
  intro session input client isRun here ends
  simp [isRun, loopGoesOn, here, ends] at goesOn

end ChatServer
end CmyMessage
