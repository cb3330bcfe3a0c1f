import CmyMessage.Broadcast.Isolation
import CmyMessage.FileTransfer.Process

/-!
# Isolation of clients

In both services a client's thread touches no session but its own, and yet a few of its steps end
the process, and every session with it.  Both systems stop, so the running states are those reached
by steps that spare the process.
-/

namespace CmyMessage

/-- Both processes are running exactly if every step of their runs spared them, and no step about
one client moves the session of another. -/
theorem clients_isolated_iff {server : ChatServer} {host : Nat → Host} {process : FtpProcess}
    (chatReached : chatService.Reaches server) (ftpReached : (ftpService host).Reaches process) :
    (server.terminated = none ∧ process.ended = false ↔
      chatService.ReachesVia (fun state label => state.sparesProcess label = true) server ∧
      (ftpService host).ReachesVia (fun state label => state.sparesProcess label = true) process) ∧
    (∀ label after other, chatService.step server label = some after →
      label.session ≠ some other → after.clients other = server.clients other) ∧
    ∀ label after other, (ftpService host).step process label = some after →
      other ≠ label.client → after.sessions other = process.sessions other := by
  refine ⟨and_congr (ChatServer.running_iff chatReached) (FtpProcess.running_iff ftpReached),
    ?_, ?_⟩
  · exact fun _ _ _ step => ChatServer.step_clients step
  · exact fun _ _ _ step => FtpProcess.step_sessions step

/-- A chat client is served by its own thread, which enters the loop. -/
def servedScript : List ChatServer.Label :=
  ChatServer.connectScript 1 4 [97] ++ ChatServer.registerScript 1 ++ ChatServer.ticks 1 3

/-- A chat client hangs up in the loop and an FTP client at the prompt for its name; both processes
go on. -/
theorem clients_isolated_iff_hang_up :
    let hangUp : List ChatServer.Label :=
      servedScript ++ ChatServer.ticks 1 1 ++ [.run 1 (.selected (some fun fd => fd == 4))] ++
        ChatServer.ticks 1 2 ++ [.run 1 (.received .closed)] ++ ChatServer.ticks 1 9
    let server := chatService.execute ChatServer.sparesProcess ChatServer.beforeService hangUp
    let process := (ftpService fun _ => .steady (.holding [])).execute FtpProcess.sparesProcess
      ⟨fun _ => none, false⟩ [.connect 1 true, .received 1 .closed]
    server.isSome ∧ process.isSome ∧
      (server.getD ChatServer.beforeService).terminated = none ∧
      (process.getD ⟨fun _ => none, false⟩).ended = false := by
  intro hangUp server process
  have chats : server.isSome = true := by
    decide +kernel
  have transfers : process.isSome = true := by
    decide +kernel
  have served := LabelledSystem.ReachesVia.execute_getD
    (.start ChatServer.beforeService_starts) chats
  have received := LabelledSystem.ReachesVia.execute_getD (.start rfl) transfers
  exact ⟨chats, transfers,
    (clients_isolated_iff served.reaches received.reaches).1.mpr ⟨served, received⟩⟩

/-- A chat client that hangs up at the prompt for its username ends the process, and so does an FTP
client whose connection fails at the prompt for its name, each while another client is served. -/
theorem clients_not_isolated :
    (∃ server, chatService.Reaches server ∧
      (server.clients 1).map (fun client => client.pc) = some (.gather .snapshot) ∧
      server.terminated = some .exitSuccess) ∧
    ∃ process, (ftpService fun _ => .steady (.holding [])).Reaches process ∧
      (process.sessions 1).map FtpSession.pc = some .command ∧ process.ended = true := by
  constructor
  · let hangUp : List ChatServer.Label :=
      [.acceptConnection 2 5] ++ [.tick, .allocation true, .tick, .allocation true, .sent .taken,
        .received .closed].map (.run 2)
    have executes : ((chatService.execute (fun _ _ => true) ChatServer.beforeService
        (servedScript ++ hangUp)).map fun server =>
          ((server.clients 1).map fun client => client.pc, server.terminated)) =
        some (some (.gather .snapshot), some .exitSuccess) := by
      decide +kernel
    obtain ⟨server, executed, outcome⟩ := Option.map_eq_some_iff.mp executes
    refine ⟨server, ?_, Prod.mk.inj outcome⟩
    exact ChatServer.executed_reaches executed
  · let failure : List FtpProcess.Label :=
      [.connect 1 true, .received 1 (.data (literal "bob")), .connect 2 true, .received 2 .error]
    have executes : (((ftpService fun _ => .steady (.holding [])).execute (fun _ _ => true)
        ⟨fun _ => none, false⟩ failure).map fun process =>
          ((process.sessions 1).map FtpSession.pc, process.ended)) =
        some (some .command, true) := by
      decide +kernel
    obtain ⟨process, executed, outcome⟩ := Option.map_eq_some_iff.mp executes
    exact ⟨process, (LabelledSystem.ReachesVia.execute (.start rfl) executed).reaches,
      Prod.mk.inj outcome⟩

end CmyMessage
