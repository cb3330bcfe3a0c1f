import CmyMessage.Broadcast.Succession
import CmyMessage.Descriptors
import CmyMessage.ThreadPool.MainThread

/-!
# A service that is never closed

The main thread with the pool and its service, over whole runs.  The quit signal is set after the
accepting thread was joined, and the accepting thread waits for the quit signal.  Of the functions
that look at the signal none ever sees it set on behalf of a client, so the broadcaster role is not
lost on the way out of the service.
-/

namespace CmyMessage

/-- The accepting thread rejects pending clients once it has left its loop. -/
theorem AcceptorPc.inLoop_of_rejects {pc : AcceptorPc} (rejects : pc.rejects) :
    pc.inLoop = false := by
  cases pc <;> simp_all [AcceptorPc.rejects, AcceptorPc.inLoop]

namespace ServiceProcess

section

variable {size : Nat} {σ ι : Type} {service : HostedService σ ι} {ServiceStarts : σ → Prop}
  {returnsZero : Bool} {process : ServiceProcess size σ}

/-- A run of the process in which the service was not closed is a run of its pool and its service
without the quit signal. -/
theorem hosting_reached
    (reached : (serviceProcess service ServiceStarts returnsZero size).Reaches process)
    (unset : process.host.pool.quitSignal = false) :
    (hosting service ServiceStarts size).ReachesVia (fun _ label => label ≠ .quit)
      process.host := by
  induction reached with
  | start starts => exact .start starts.host
  | @next before after label earlier _ step ih =>
      cases (step_cases step).2 with
      | main moved =>
          rcases moved.host with ⟨-, same⟩ | ⟨-, quits⟩
          · rw [same] at unset ⊢
            exact ih unset
          · rw [quits_pool quits] at unset
            cases unset
      | @host label host thread moved =>
          have same : host.pool.quitSignal = before.host.pool.quitSignal := by
            cases thread_step thread moved with
            | accepts _ step => exact (ThreadPool.acceptor_step step).quitSignal
            | works step => exact (ThreadPool.worker_step step).quitSignal
            | serves same => rw [same]
          refine (ih (same ▸ unset)).next ?_ moved
          rintro rfl
          cases thread

theorem pool_reached
    (reached : (serviceProcess service ServiceStarts returnsZero size).Reaches process) :
    (threadPool size).Reaches process.host.pool := by
  induction reached with
  | start starts => exact .start starts.host.1
  | @next before after label earlier _ step ih =>
      cases (step_cases step).2 with
      | main moved =>
          rcases moved.host with ⟨-, same⟩ | ⟨-, quits⟩
          · rwa [same]
          · have signalled : (threadPool size).step before.host.pool .quit =
                some after.host.pool := by
              rw [quits_pool quits]
              rfl
            exact ih.next trivial signalled
      | host thread moved =>
          cases thread_step thread moved with
          | accepts _ step => exact ih.next trivial step
          | works step => exact ih.next trivial step
          | serves same => rwa [same]

/-- The service goes on: the main thread waits for the accepting thread, which goes on accepting
connections and has turned no pending client away, every worker that was created goes on, and what
they share is there. -/
structure Serves (process : ServiceProcess size σ) : Prop where
  waiting : process.main = .joinListener
  unset : process.host.pool.quitSignal = false
  accepting : process.host.pool.acceptor.pc.inLoop = true
  keeping : ∀ client, (PoolThread.acceptor, client) ∉ process.host.pool.dequeued
  working : ∀ worker,
    (process.host.pool.workers worker).pc = .finished ↔ process.threads worker = false
  table : process.usernamesHt = true
  socket : process.serverSocket = true

/-- The main thread waits for a thread that has accepted a connection. -/
theorem Lasting.waiting (lasting : process.Lasting)
    (accepted : 0 < process.host.pool.connections) :
    process.host.pool.acceptor.pc.inLoop = true ∧ process.main = .joinListener := by
  have listening : process.listening = true := by
    by_contra silent
    have none := (lasting.silent (Bool.not_eq_true _ ▸ silent)).2
    omega
  have accepting : process.host.pool.acceptor.pc.inLoop = true := by
    by_contra outside
    have none := (lasting.accepting.left (Bool.not_eq_true _ ▸ outside)).1
    omega
  refine ⟨accepting, lasting.waits listening fun finished => ?_⟩
  rw [finished] at accepting
  cases accepting

theorem Lasting.serves (lasting : process.Lasting)
    (accepted : 0 < process.host.pool.connections)
    (kept : process.host.pool.acceptor.pc.inLoop = true →
      ∀ client, (PoolThread.acceptor, client) ∉ process.host.pool.dequeued) : process.Serves := by
  obtain ⟨accepting, waiting⟩ := lasting.waiting accepted
  have unset := lasting.unset (.inr waiting)
  exact {
    waiting, unset, accepting
    keeping := kept accepting
    working := fun worker => (lasting.workers unset worker).1
    table := lasting.table (by rw [waiting]; rfl)
    socket := lasting.socket (by rw [waiting]; rfl) }

/-- Once a connection was accepted the service goes on for as long as its process; it is closed, if
at all, before, and then the accepting thread was not created or found a value left over in
`quit_signal_val`. -/
theorem service_never_closes
    (reached : (serviceProcess service ServiceStarts returnsZero size).Reaches process) :
    (0 < process.host.pool.connections → process.Serves) ∧
    (process.host.pool.quitSignal = true ∨ process.host.pool.acceptor.pc.inLoop = false →
      process.host.pool.connections = 0 ∧
        (process.listening = true → process.leftover = true)) := by
  have lasting := lasting reached
  have serves (accepted : 0 < process.host.pool.connections) : process.Serves := by
    refine lasting.serves accepted fun accepting client rejected => ?_
    have rejects := (ThreadPool.accounted (pool_reached reached)).rejected client rejected
    exact Bool.noConfusion (accepting.symm.trans (AcceptorPc.inLoop_of_rejects rejects))
  refine ⟨serves, fun closes => ⟨?_, fun listening => ?_⟩⟩
  · by_contra some
    have still := serves (Nat.pos_of_ne_zero some)
    rcases closes with set | left
    · exact Bool.noConfusion (still.unset.symm.trans set)
    · exact Bool.noConfusion (still.accepting.symm.trans left)
  · rcases closes with set | left
    · have finished : process.host.pool.acceptor.pc = .finished := by
        by_contra running
        have unset := lasting.unset (.inr (lasting.waits listening running))
        exact Bool.noConfusion (unset.symm.trans set)
      exact (lasting.accepting.left (by rw [finished]; rfl)).2
    · exact (lasting.accepting.left left).2

end

/-- The main thread of a pool of one worker before it runs, with what is left in `quit_signal_val`.
-/
def beforeProcess {σ : Type} (service : σ) (leftover : Bool) : ServiceProcess 1 σ where
  main := .createSocketStruct
  host := { Hosting.beforeHosting service with
    pool := { ThreadPool.beforePool 1 with acceptor := ⟨.accept, leftover⟩ } }
  threads _ := true
  created := 0
  listening := false
  leftover := leftover
  usernamesHt := false
  serverSocket := false

theorem beforeProcess_initial (leftover : Bool) :
    (serviceProcess hostedChat ChatServer.Starts false 1).Initial
      (beforeProcess ChatServer.beforeService leftover) :=
  ⟨rfl, ⟨⟨rfl, rfl, fun _ => .inl rfl, rfl, rfl, rfl, rfl, rfl⟩, ChatServer.beforeService_starts,
    rfl⟩, fun _ => rfl, rfl, rfl, rfl, rfl, rfl⟩

/-- The main thread comes to wait for the accepting thread. -/
def startInputs : List MainInput :=
  List.replicate 3 (.succeeded true) ++ [.tick] ++ List.replicate 8 (.succeeded true) ++
    [.tick, .status 0, .tick, .status 0]

/-- The first call of `accept` fails, and the accepting thread leaves its loop. -/
def failingScript : List (Hosting.Label 1 Input) :=
  .pool (.accept (.accepted false)) :: List.replicate 3 (.pool (.accept .tick))

/-- The main thread joins the accepting thread and closes the service. -/
def closeInputs : List MainInput := .joined 0 (some 1) 0 :: List.replicate 3 .tick

/-- A chat client is served; and a service whose first call of `accept` fails with a value left over
in `quit_signal_val` is closed. -/
theorem service_never_closes_chat :
    (∃ process, (serviceProcess hostedChat ChatServer.Starts false 1).Reaches process ∧
      process.host.pool.connections = 1 ∧ process.Serves) ∧
    ∃ process, (serviceProcess hostedChat ChatServer.Starts false 1).Reaches process ∧
      process.host.pool.quitSignal = true ∧ process.main = .returned none ∧
      process.host.pool.connections = 0 ∧
        (process.listening = true → process.leftover = true) := by
  constructor
  · have executes : ((serviceProcess hostedChat ChatServer.Starts false 1).execute
        (fun _ _ => true) (beforeProcess ChatServer.beforeService false)
        (startInputs.map .main ++
          (Hosting.pendingScript ++ Hosting.serveScript Hosting.joinInputs).map .host)).map
          (fun process => process.host.pool.connections) = some 1 := by
      decide +kernel
    obtain ⟨process, executed, accepted⟩ := Option.map_eq_some_iff.mp executes
    have reached := (LabelledSystem.ReachesVia.execute (.start (beforeProcess_initial false))
      executed).reaches
    exact ⟨process, reached, accepted,
      (service_never_closes reached).1 (by rw [accepted]; exact Nat.one_pos)⟩
  · have executes : ((serviceProcess hostedChat ChatServer.Starts false 1).execute
        (fun _ _ => true) (beforeProcess ChatServer.beforeService true)
        (startInputs.map .main ++ failingScript.map .host ++ closeInputs.map .main)).map
          (fun process => (process.host.pool.quitSignal, process.main)) =
        some (true, .returned none) := by
      decide +kernel
    obtain ⟨process, executed, facts⟩ := Option.map_eq_some_iff.mp executes
    obtain ⟨set, returned⟩ := Prod.mk.inj facts
    have reached := (LabelledSystem.ReachesVia.execute (.start (beforeProcess_initial true))
      executed).reaches
    exact ⟨process, reached, set, returned, (service_never_closes reached).2 (.inl set)⟩

end ServiceProcess

/-! ## The broadcaster role -/

namespace ChatServer

/-- Nobody has seen the quit signal. -/
structure Unsignalled (server : ChatServer) : Prop where
  unset : server.quitSignal = false
  unread : ∀ session client, server.clients session = some client →
    client.endsLoop = false ∧ client.pc.quits = false

/-- What a step of a thread learns about the quit signal. -/
structure QuitStep (server : ChatServer) (client client' : ClientInfo) : Prop where
  reads : client'.pc = .gather .unlockQuit → client'.quitSignalVal = server.quitSignal
  quits : client'.pc.quits = true → client.pc.quits = true ∨ client.endsLoop = true

theorem next_quit {server : ChatServer} {session : Nat} {client client' : ClientInfo}
    {input : Input} {command : Command}
    (next : server.next session client input = some (client', command)) :
    server.QuitStep client client' := by
  revert next
  fun_cases ChatServer.next <;>
    [fun_cases prepareClientForBroadcastAndStart; fun_cases askAndAssignUsername;
      fun_cases acceptAndStoreClientUsername; fun_cases getMessagesFromActiveClients;
      fun_cases waitForThreadWork; fun_cases startRemovingClientFromBroadcast;
      fun_cases broadcastMessageToOnlineClients; skip; skip]
  all_goals rintro ⟨⟩
  all_goals
    constructor <;> simp_all [ClientInfo.goto, Pc.quits, ClientInfo.endsLoop]

theorem perform_quitSignal (server : ChatServer) (session : Nat) (client : ClientInfo)
    (command : Command) :
    (server.perform session client command).quitSignal = server.quitSignal := by
  rw [perform]
  fun_cases access <;> rfl

theorem unsignalled {server : ChatServer}
    (reached : chatService.ReachesVia (fun _ label => label ≠ .closeService) server) :
    server.Unsignalled := by
  apply reached.invariant
  · intro server starts
    refine ⟨starts.quitSignal, fun session client here => ?_⟩
    rw [starts.clients] at here
    cases here
  · intro before label after _ unsignalled open_ step
    cases (step_cases step).2 with
    | accept _ _ _ =>
        refine ⟨unsignalled.unset, fun session client here => ?_⟩
        rcases enroll_cases here with new | here
        · simp [ClientInfo.endsLoop, new, Pc.quits]
        · exact unsignalled.unread session client here
    | close => exact absurd rfl open_
    | @run session input client client' command here next free =>
        refine ⟨(perform_quitSignal ..).trans unsignalled.unset, fun other found inside => ?_⟩
        rcases update_eq_some inside with ⟨rfl, rfl⟩ | ⟨-, was⟩
        · have moved := next_quit next
          obtain ⟨unended, unquit⟩ := unsignalled.unread other client here
          constructor
          · simp only [ClientInfo.endsLoop, Bool.and_eq_false_imp, decide_eq_true_eq]
            exact fun position => (moved.reads position).trans unsignalled.unset
          · by_contra quits
            rcases moved.quits (Bool.not_eq_false _ ▸ quits) with was | ended
            · exact Bool.noConfusion (unquit.symm.trans was)
            · exact Bool.noConfusion (unended.symm.trans ended)
        · exact unsignalled.unread other found was

end ChatServer

section

variable {size : Nat}

theorem chat_service_reached {host : Hosting size ChatServer}
    (reached : (chatHosting size).ReachesVia (fun _ label => label ≠ .quit) host) :
    chatService.ReachesVia (fun _ label => label ≠ .closeService) host.service := by
  induction reached with
  | start initial => exact .start initial.2.1
  | @next before after label _ guarded step ih =>
      cases (Hosting.step_cases step).2 with
      | @accept fd pool accepted _ taken =>
          have moved : chatService.step before.service
              (.acceptConnection before.pool.connections fd) = some accepted := taken
          exact ih.next (by simp) moved
      | pool _ _ => exact ih
      | quit _ _ => exact absurd rfl guarded
      | @serve client input served _ moved =>
          have moved : chatService.step before.service (.run client input) = some served := moved
          exact ih.next (by simp) moved

theorem loopGoesOn_of_unsignalled {server : ChatServer} (unsignalled : server.Unsignalled)
    (label : ChatServer.Label) : server.loopGoesOn label = true := by
  cases label with
  | run session input =>
      rw [ChatServer.loopGoesOn]
      cases here : server.clients session with
      | none => rfl
      | some client => simp [(unsignalled.unread session client here).1]
  | _ => rfl

/-- In the process of the broadcast service, once a connection was accepted, no thread leaves the
gather-and-broadcast loop on the quit signal, and whenever the broadcaster role is taken some thread
stays in the loop. -/
theorem chat_role_stays_occupied {process : ServiceProcess size ChatServer}
    (reached : (serviceProcess hostedChat ChatServer.Starts false size).Reaches process)
    (accepted : 0 < process.host.pool.connections) :
    process.host.service.Unsignalled ∧ process.host.service.RoleOccupied := by
  have lasting := ServiceProcess.lasting reached
  have unset := lasting.unset (.inr (lasting.waiting accepted).2)
  have chat := chat_service_reached (ServiceProcess.hosting_reached reached unset)
  refine ⟨ChatServer.unsignalled chat, ChatServer.roleOccupied ?_⟩
  exact chat.strengthen fun before label earlier _ =>
    ChatServer.handsRoleOn_of_loopGoesOn
      (loopGoesOn_of_unsignalled (ChatServer.unsignalled earlier) label)

/-- A chat client broadcasts. -/
theorem chat_role_stays_occupied_one :
    ∃ process : ServiceProcess 1 ChatServer,
      (serviceProcess hostedChat ChatServer.Starts false 1).Reaches process ∧
      process.host.service.isBroadcasting = true ∧ process.host.service.RoleOccupied := by
  have executes : ((serviceProcess hostedChat ChatServer.Starts false 1).execute
      (fun _ _ => true) (ServiceProcess.beforeProcess ChatServer.beforeService false)
      (ServiceProcess.startInputs.map .main ++
        (Hosting.pendingScript ++ Hosting.serveScript Hosting.joinInputs).map .host)).map
        (fun process => (process.host.pool.connections, process.host.service.isBroadcasting)) =
      some (1, true) := by
    decide +kernel
  obtain ⟨process, executed, facts⟩ := Option.map_eq_some_iff.mp executes
  obtain ⟨accepted, raised⟩ := Prod.mk.inj facts
  have reached := (LabelledSystem.ReachesVia.execute
    (.start (ServiceProcess.beforeProcess_initial false)) executed).reaches
  exact ⟨process, reached, raised,
    (chat_role_stays_occupied reached (by rw [accepted]; exact Nat.one_pos)).2⟩

end
end CmyMessage
