import CmyMessage.FileTransfer.Session
import CmyMessage.Foundation.LabelledSystem
import Mathlib.Logic.Function.Basic

/-!
# The process of the FTP service

The threads that serve the clients share one process.  It ends exactly at the first step that reads
an error at the name prompt or while a file is received, or that fails to prepare a client.
-/

namespace CmyMessage

/-- A session stopped with the process. -/
def FtpPc.endsProcess : FtpPc → Bool
  | exited => true
  | aborted => true
  | _ => false

/-- The process of the FTP service. -/
structure FtpProcess where
  /-- The sessions of the clients taken up so far. -/
  sessions : Nat → Option FtpSession
  /-- The process has ended. -/
  ended : Bool

namespace FtpProcess

/-- What can happen next. -/
inductive Label
  /-- A thread calls `serve_client_with_FTP` for a new client. -/
  | connect (client : Nat) (prepared : Bool)
  /-- The `recv` in which the thread of a client waits returns. -/
  | received (client : Nat) (result : RecvResult)

/-- The client a step is about. -/
def Label.client : Label → Nat
  | connect client _ => client
  | received client _ => client

/-- Store a session. -/
def put (process : FtpProcess) (client : Nat) (session : FtpSession) : FtpProcess where
  sessions := Function.update process.sessions client (some session)
  ended := session.pc.endsProcess

/-- The step relation, resolved by labels.  Each client has an environment of its own. -/
def step (host : Nat → Host) (process : FtpProcess) (label : Label) : Option FtpProcess :=
  if process.ended then
    none
  else
    match label with
    | .connect client prepared =>
        if (process.sessions client).isNone then
          some (process.put client (serveClientWithFTP prepared))
        else
          none
    | .received client result =>
        match process.sessions client with
        | none => none
        | some session =>
            if 0 < session.pc.capacity ∧ result.fits session.pc.capacity = true then
              some (process.put client ((host client).advance session result))
            else
              none

/-- The result of a `recv` at a position spares the process. -/
def sparesAt : FtpPc → RecvResult → Bool
  | .name, .error => false
  | .content _ _ _, .error => false
  | _, _ => true

/-- The steps that spare the process. -/
def sparesProcess (process : FtpProcess) : Label → Bool
  | .connect _ prepared => prepared
  | .received client result =>
      match process.sessions client with
      | none => true
      | some session => sparesAt session.pc result

end FtpProcess

/-- The FTP service as a transition system. -/
def ftpService (host : Nat → Host) : LabelledSystem FtpProcess FtpProcess.Label where
  Initial process := process = ⟨fun _ => none, false⟩
  step := FtpProcess.step host

/-! ## Where a session ends the process -/

theorem FtpSession.Prompts.spares {host : Host} {session : FtpSession}
    (prompts : session.Prompts host) : session.pc.endsProcess = false := by
  rcases prompts with prompt | ⟨-, status, finished⟩
  · rw [prompt]
    rfl
  · rw [finished]
    rfl

namespace Host

variable (host : Host)

theorem interpret_spares (session : FtpSession) (text : List UInt8) :
    (host.interpret session text).pc.endsProcess = false := by
  cases command : FtpCommand.parse text with
  | upload =>
      rw [interpret, command]
      rfl
  | download =>
      rw [interpret, command]
      rfl
  | exit =>
      rw [interpret, command]
      simp only [giveFeedback]
      split <;> rfl
  | _ => exact (host.interpret_returns _ (by simp [command]) (by simp [command])
      (by simp [command])).prompts.spares

theorem receiveFile_spares (session : FtpSession) (path : List UInt8) (remaining : Nat)
    (written : List UInt8) :
    (host.receiveFile session path remaining written).pc.endsProcess = false := by
  rw [receiveFile]
  split
  · rfl
  · exact (host.finishUpload_returns _ _ _).prompts.spares

theorem uploadFilesizeReceived_spares (session : FtpSession) (filename : List UInt8)
    (result : RecvResult) :
    (host.uploadFilesizeReceived session filename result).pc.endsProcess = false := by
  simp only [uploadFilesizeReceived]
  split
  · exact (host.afterCommand_returns _ _ _).prompts.spares
  · split
    · exact (host.afterCommand_returns _ _ _).prompts.spares
    · split
      · exact host.receiveFile_spares _ _ _ _
      · exact (host.afterCommand_returns _ _ _).prompts.spares

/-- Of the `recv` results, exactly two kinds of errors end the process. -/
theorem advance_ends {session : FtpSession} (reads : 0 < session.pc.capacity)
    (result : RecvResult) :
    (host.advance session result).pc.endsProcess = !FtpProcess.sparesAt session.pc result := by
  rw [advance]
  cases position : session.pc with
  | name => cases result with
    | data bytes => exact (host.welcomeClient_returns _).prompts.spares
    | closed => exact (host.welcomeClient_returns _).prompts.spares
    | error => rfl
  | command =>
      simp only [commandReceived]
      split
      · rfl
      · exact host.interpret_spares _ _
  | uploadFilename =>
      simp only [uploadFilenameReceived]
      split
      · exact (host.afterCommand_returns _ _ _).prompts.spares
      · rfl
  | uploadFilesize filename => exact host.uploadFilesizeReceived_spares _ _ _
  | downloadFilename => exact (host.downloadFile_returns _ _).prompts.spares
  | content path remaining written => cases result with
    | data bytes => exact host.receiveFile_spares _ _ _ _
    | closed => exact host.receiveFile_spares _ _ _ _
    | error => rfl
  | finished status => exact absurd reads (by rw [position]; exact Nat.lt_irrefl 0)
  | exited => exact absurd reads (by rw [position]; exact Nat.lt_irrefl 0)
  | aborted => exact absurd reads (by rw [position]; exact Nat.lt_irrefl 0)

end Host

/-! ## Runs -/

namespace FtpProcess

variable {host : Nat → Host}

/-- Everything a step can be. -/
inductive Steps (host : Nat → Host) (process : FtpProcess) : Label → FtpProcess → Prop
  | connect {client : Nat} {prepared : Bool} (fresh : process.sessions client = none) :
      Steps host process (.connect client prepared)
        (process.put client (serveClientWithFTP prepared))
  | received {client : Nat} {result : RecvResult} {session : FtpSession}
      (here : process.sessions client = some session) (reads : 0 < session.pc.capacity)
      (fits : result.fits session.pc.capacity = true) :
      Steps host process (.received client result)
        (process.put client ((host client).advance session result))

theorem step_cases {process after : FtpProcess} {label : Label}
    (step : (ftpService host).step process label = some after) :
    process.ended = false ∧ Steps host process label after := by
  change process.step host label = some after at step
  unfold FtpProcess.step at step
  split at step
  · cases step
  · rename_i running
    refine ⟨Bool.eq_false_iff.mpr running, ?_⟩
    cases label with
    | connect client prepared =>
        simp only [Option.ite_none_right_eq_some, Option.some.injEq] at step
        obtain ⟨fresh, rfl⟩ := step
        exact .connect (Option.isNone_iff_eq_none.mp fresh)
    | received client result =>
        cases here : process.sessions client with
        | none =>
            simp only [here] at step
            cases step
        | some session =>
            simp only [here, Option.ite_none_right_eq_some, Option.some.injEq] at step
            obtain ⟨⟨reads, fits⟩, rfl⟩ := step
            exact .received here reads fits

/-- A step ends the process or spares it, as its label says. -/
theorem step_spares {before after : FtpProcess} {label : Label}
    (step : (ftpService host).step before label = some after) :
    before.ended = false ∧ (after.ended = false ↔ before.sparesProcess label = true) := by
  obtain ⟨running, steps⟩ := step_cases step
  refine ⟨running, ?_⟩
  cases steps with
  | @connect client prepared fresh => cases prepared with
    | true => exact iff_of_true rfl rfl
    | false => exact iff_of_false Bool.false_ne_true.symm Bool.false_ne_true
  | @received client result session here reads fits =>
      simp only [put, (host client).advance_ends reads, sparesProcess, here, Bool.not_eq_false']

/-- A step about one client leaves the sessions of the others where they are. -/
theorem step_sessions {before after : FtpProcess} {label : Label}
    (step : (ftpService host).step before label = some after) {other : Nat}
    (different : other ≠ label.client) : after.sessions other = before.sessions other := by
  cases (step_cases step).2 <;> exact Function.update_of_ne different _ _

/-- The process is still running exactly in the states reached by steps that spare it. -/
theorem running_iff {process : FtpProcess} (reached : (ftpService host).Reaches process) :
    process.ended = false ↔ (ftpService host).ReachesVia
      (fun state label => state.sparesProcess label = true) process := by
  refine reached.running_iff ?_ fun _ _ _ step => step_spares step
  rintro _ rfl
  rfl

end FtpProcess

end CmyMessage
