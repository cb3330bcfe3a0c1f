import CmyMessage.Descriptors
import CmyMessage.ThreadPool.Assignment

/-!
# How many clients take part

A client takes part in the broadcast service, or has an FTP session, while a worker is in the
function of the service for it.  The size of the thread pool therefore bounds the clients that take
part at the same time; all others are in the queue, or gone.
-/

namespace CmyMessage

/-- The thread of a client has entered `prepare_client_for_broadcast_and_start` and made a step. -/
def ChatServer.begun (server : ChatServer) (session : Nat) : Prop :=
  ∃ client, server.clients session = some client ∧ client.pc ≠ .prepare .lockServer

/-- The client has a session. -/
def FtpProcess.begun (process : FtpProcess) (client : Nat) : Prop :=
  (process.sessions client).isSome

theorem hostedChat_begins : hostedChat.Begins ChatServer.Starts ChatServer.begun where
  start server session starts := by
    rintro ⟨client, here, -⟩
    rw [starts.clients] at here
    cases here
  accept before client fd after other taken := by
    rintro ⟨found, inside, moved⟩
    have step : chatService.step before (.acceptConnection client fd) = some after := taken
    cases (ChatServer.step_cases step).2 with
    | accept fresh free small =>
        rcases ChatServer.enroll_cases inside with new | was
        · rw [new] at moved
          exact absurd rfl moved
        · exact ⟨found, was, moved⟩
  quit before after other signals := by
    have step : chatService.step before .closeService = some after := signals
    cases (ChatServer.step_cases step).2
    exact id
  serve before session input after other moved := by
    rintro ⟨found, inside, position⟩
    have step : chatService.step before (.run session input) = some after := moved
    cases (ChatServer.step_cases step).2 with
    | run here next free =>
        rcases ChatServer.update_eq_some inside with ⟨rfl, -⟩ | ⟨-, was⟩
        · exact .inr rfl
        · exact .inl ⟨found, was, position⟩

namespace FtpProcess

/-- A step is about a client whose session has not ended. -/
theorem unreturned_of_step {host : Nat → Host} {process after : FtpProcess} {label : Label}
    (step : (ftpService host).step process label = some after) :
    process.returned label.client = false := by
  cases (step_cases step).2 with
  | connect fresh => rw [returned, Label.client, fresh]
  | @received client result session here reads fits =>
      rw [returned, Label.client, here]
      cases position : session.pc with
      | finished status => simp [position, FtpPc.capacity] at reads
      | _ => simp [position]

end FtpProcess

theorem FtpProcess.label_client (client : Nat) (input : FtpInput) :
    (FtpProcess.label client input).client = client := by
  cases input <;> rfl

theorem hostedFtp_stable (host : Nat → Host) : (hostedFtp host).Stable where
  accept before client fd after other taken := by
    cases taken
    exact id
  quit before after other signals := by
    cases signals
    exact id
  serve before client input after other moved returned := by
    have unreturned := FtpProcess.unreturned_of_step moved
    have different : other ≠ (FtpProcess.label client input).client := by
      rintro rfl
      exact Bool.noConfusion (unreturned.symm.trans returned)
    change after.returned other = true
    rw [FtpProcess.returned, FtpProcess.step_sessions moved different]
    exact returned

theorem hostedFtp_begins (host : Nat → Host) :
    (hostedFtp host).Begins (fun process => process = ⟨fun _ => none, false⟩)
      FtpProcess.begun where
  start process client starts := by simp [FtpProcess.begun, starts]
  accept before client fd after other taken := by
    cases taken
    exact id
  quit before after other signals := by
    cases signals
    exact id
  serve before client input after other moved := by
    rcases eq_or_ne other client with same | different
    · exact fun _ => .inr same
    · rw [← FtpProcess.label_client client input] at different
      rw [FtpProcess.begun, FtpProcess.step_sessions moved different]
      exact .inl

/-- Among the clients for which the function of the broadcast service was entered and has not
returned, and among those whose FTP session was begun and has not ended, there are never more than
the pool of the service has workers. -/
theorem participants_bounded {chatSize ftpSize : Nat} {host : Nat → Host}
    {chat : Hosting chatSize ChatServer} {ftp : Hosting ftpSize FtpProcess}
    (chatReached : (chatHosting chatSize).Reaches chat)
    (ftpReached : (ftpHosting host ftpSize).Reaches ftp) (clients : Finset Nat) :
    ((∀ client ∈ clients, chat.service.begun client ∧ chat.service.returned client ≠ true) →
      clients.card ≤ chatSize) ∧
    ((∀ client ∈ clients, ftp.service.begun client ∧ ftp.service.returned client ≠ true) →
      clients.card ≤ ftpSize) :=
  ⟨Hosting.card_le_of_begun hostedChat_begins hostedChat_stable chatReached,
    Hosting.card_le_of_begun (hostedFtp_begins host) (hostedFtp_stable host) ftpReached⟩

/-- A client broadcasts in the one service and has a session of the other. -/
theorem participants_bounded_one :
    ∃ chat ftp, (chatHosting 1).Reaches chat ∧
      (ftpHosting (fun _ => .steady (.holding [])) 1).Reaches ftp ∧
      (∀ client ∈ ({0} : Finset Nat),
        chat.service.begun client ∧ chat.service.returned client ≠ true) ∧
      (∀ client ∈ ({0} : Finset Nat),
        ftp.service.begun client ∧ ftp.service.returned client ≠ true) ∧
      ({0} : Finset Nat).card ≤ 1 := by
  have chats : ((chatHosting 1).execute (fun _ _ => true)
      (Hosting.beforeHosting ChatServer.beforeService)
      (Hosting.pendingScript ++ Hosting.serveScript Hosting.joinInputs)).map
        (fun chat => ((chat.service.clients 0).map fun client =>
          decide (client.pc ≠ .prepare .lockServer), chat.service.returned 0)) =
      some (some true, false) := by
    decide +kernel
  have transfers : ((ftpHosting (fun _ => .steady (.holding [])) 1).execute (fun _ _ => true)
      (Hosting.beforeHosting ⟨fun _ => none, false⟩)
      (Hosting.pendingScript ++ Hosting.serveScript [.prepared true])).map
        (fun ftp => ((ftp.service.sessions 0).isSome, ftp.service.returned 0)) =
      some (true, false) := by
    decide +kernel
  obtain ⟨chat, chatExecuted, chatFacts⟩ := Option.map_eq_some_iff.mp chats
  obtain ⟨ftp, ftpExecuted, ftpFacts⟩ := Option.map_eq_some_iff.mp transfers
  obtain ⟨entered, inside⟩ := Prod.mk.inj chatFacts
  obtain ⟨began, goesOn⟩ := Prod.mk.inj ftpFacts
  obtain ⟨client, here, moved⟩ := Option.map_eq_some_iff.mp entered
  have chatReached := (LabelledSystem.ReachesVia.execute
    (.start Hosting.chat_initial) chatExecuted).reaches
  have ftpReached := (LabelledSystem.ReachesVia.execute
    (.start (Hosting.ftp_initial _)) ftpExecuted).reaches
  have chatActive : ∀ client ∈ ({0} : Finset Nat),
      chat.service.begun client ∧ chat.service.returned client ≠ true := by
    intro other member
    obtain rfl := Finset.mem_singleton.mp member
    exact ⟨⟨client, here, of_decide_eq_true moved⟩, by simp [inside]⟩
  have ftpActive : ∀ client ∈ ({0} : Finset Nat),
      ftp.service.begun client ∧ ftp.service.returned client ≠ true := by
    intro other member
    obtain rfl := Finset.mem_singleton.mp member
    exact ⟨began, by simp [goesOn]⟩
  exact ⟨chat, ftp, chatReached, ftpReached, chatActive, ftpActive,
    (participants_bounded chatReached ftpReached {0}).1 chatActive⟩

end CmyMessage
