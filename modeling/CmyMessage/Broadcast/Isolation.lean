import CmyMessage.Broadcast.Registry

/-!
# Ends of the broadcast process

All client threads share one process, so an `exit` in one of them, or a signal, ends every session.
The process ends exactly at the first step that reads the end of the stream or an error at the
username prompt, at which `select` fails, or at which a `send` breaks a pipe.
-/

namespace CmyMessage
namespace ChatServer

/-- The steps that spare the process. -/
def sparesProcess (server : ChatServer) : Label → Bool
  | .run session input =>
      match server.clients session with
      | none => true
      | some client =>
          match client.pc, input with
          | .ask .receive, .received result => result.isData
          | .gather .select, .selected reported => reported.isSome
          | _, .sent result => decide (result ≠ .brokenPipe)
          | _, _ => true
  | _ => true

/-- The access by which a step ends the process. -/
def Ends (command : Command) : Prop :=
  (∃ reason, command = .terminate reason) ∨ ∃ fd text, command = .send fd text .brokenPipe

theorem next_ends {server : ChatServer} {session : Nat} {client client' : ClientInfo}
    {input : Input} {command : Command} (here : server.clients session = some client)
    (next : server.next session client input = some (client', command)) :
    Ends command ↔ server.sparesProcess (.run session input) = false := by
  revert next
  simp only [sparesProcess, here]
  fun_cases ChatServer.next <;>
    [fun_cases prepareClientForBroadcastAndStart; fun_cases askAndAssignUsername;
      fun_cases acceptAndStoreClientUsername; fun_cases getMessagesFromActiveClients;
      fun_cases waitForThreadWork; fun_cases startRemovingClientFromBroadcast;
      fun_cases broadcastMessageToOnlineClients; skip; skip]
  all_goals rintro ⟨⟩
  all_goals simp_all [Ends, RecvResult.isData]

theorem perform_ends (server : ChatServer) (session : Nat) (client : ClientInfo)
    (command : Command) (running : server.terminated = none) :
    (server.perform session client command).terminated = none ↔ ¬ Ends command := by
  rw [perform_terminated]
  split
  · simp [Ends]
  · simp [Ends]
  · rename_i noTerminate noBrokenPipe
    apply iff_of_true running
    rintro (⟨reason, rfl⟩ | ⟨fd, text, rfl⟩)
    · exact noTerminate reason rfl
    · exact noBrokenPipe fd text rfl

/-- A step ends the process or spares it, as its label says. -/
theorem step_spares {before after : ChatServer} {label : Label}
    (step : chatService.step before label = some after) :
    before.terminated = none ∧
      (after.terminated = none ↔ before.sparesProcess label = true) := by
  obtain ⟨running, steps⟩ := step_cases step
  refine ⟨running, ?_⟩
  cases steps with
  | accept fresh free small => exact iff_of_true running rfl
  | close => exact iff_of_true running rfl
  | run here next free =>
      rw [perform_ends _ _ _ _ running, next_ends here next, Bool.not_eq_false]

/-- The process is still running exactly in the states reached by steps that spare it. -/
theorem running_iff {server : ChatServer} (reached : chatService.Reaches server) :
    server.terminated = none ↔ chatService.ReachesVia
      (fun state label => state.sparesProcess label = true) server :=
  reached.running_iff (fun state (starts : state.Starts) => starts.terminated)
    fun _ _ _ step => step_spares step

/-- The client whose thread takes a step, or who is taken up. -/
def Label.session : Label → Option Nat
  | acceptConnection session _ => some session
  | closeService => none
  | run session _ => some session

/-- A step about one client leaves the sessions of the others where they are. -/
theorem step_clients {before after : ChatServer} {label : Label}
    (step : chatService.step before label = some after) {other : Nat}
    (different : label.session ≠ some other) : after.clients other = before.clients other := by
  have update {session : Nat} (client : ClientInfo) (apart : some session ≠ some other) :
      Function.update before.clients session (some client) other = before.clients other :=
    Function.update_of_ne (fun same => apart (congrArg some same.symm)) _ _
  cases (step_cases step).2 with
  | accept fresh free small => exact update _ different
  | close => rfl
  | run here next free => exact update _ different

/-- Once the process has ended no session takes a step. -/
theorem step_of_terminated {server : ChatServer} (ended : server.terminated ≠ none)
    (label : Label) : chatService.step server label = none := by
  by_contra enabled
  obtain ⟨after, step⟩ := Option.ne_none_iff_exists'.mp enabled
  exact ended (step_spares step).1

end ChatServer
end CmyMessage
