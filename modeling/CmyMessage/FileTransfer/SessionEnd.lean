import CmyMessage.FileTransfer.Session
import CmyMessage.Foundation.LabelledSystem

/-!
# The end of a session

`fill_buffer_with_response` returns the number of bytes it received, or a negative number, and
`input_client_commands` compares that with a constant from another header.  The end of the stream
is never noticed at a prompt, and a command whose length is the constant is taken for it.
-/

namespace CmyMessage

/-- The `recv` calls of a session, one after the other. -/
def ftpSession (host : Host) : LabelledSystem FtpSession RecvResult where
  Initial session := session = serveClientWithFTP true
  step session result :=
    if 0 < session.pc.capacity ∧ result.fits session.pc.capacity = true then
      some (host.advance session result)
    else
      none

/-- The session does nothing any more. -/
def FtpPc.isOver : FtpPc → Bool
  | finished _ => true
  | exited => true
  | aborted => true
  | _ => false

theorem FtpPc.isOver_eq_false {pc : FtpPc} (asks : 0 < pc.capacity) : pc.isOver = false := by
  cases pc <;> first | rfl | cases asks

namespace FtpEvent

/-- The end of the stream at a prompt. -/
def isDisconnect : FtpEvent → Bool
  | read .name .closed => true
  | read .command .closed => true
  | _ => false

/-- A command whose length is the number that is to mark the end of the stream. -/
def isMiscounted : FtpEvent → Bool
  | read .command (.data bytes) => decide ((bytes.length : Int) = clientDisconnected)
  | _ => false

/-- Neither of the two. -/
def isOrdinary (event : FtpEvent) : Bool := !event.isDisconnect && !event.isMiscounted

theorem isOrdinary_iff {event : FtpEvent} :
    event.isOrdinary = true ↔ event.isDisconnect = false ∧ event.isMiscounted = false := by
  simp [isOrdinary]

theorem isOrdinary_of_isReply (event : FtpEvent) (reply : event.isReply = true) :
    event.isOrdinary = true := by
  cases event <;> first | rfl | cases reply

theorem isOrdinary_of_looksAt {path : List UInt8} (event : FtpEvent)
    (looks : event.looksAt path = true) : event.isOrdinary = true := by
  cases event <;> first | rfl | cases looks

theorem isMiscounted_of_isDisconnect {event : FtpEvent} (disconnect : event.isDisconnect = true) :
    event.isMiscounted = false := by
  cases event with
  | read site result =>
      cases site <;> cases result <;> first | rfl | cases disconnect
  | _ => cases disconnect

end FtpEvent

/-- The ways out of a session: a `send` has failed, or the client wanted to leave and was told
goodbye. -/
inductive WayOut (host : Host) : List FtpEvent → Prop
  | sendFailed {front : List FtpEvent} (text : List UInt8) (fails : host.sends front = false) :
      WayOut host (front ++ [.sent text])
  | exit (front : List FtpEvent) (text : List UInt8) :
      WayOut host (front ++ [.executed .exit, .sent text])

/-- A session ends with the first end of the stream at a prompt, without doing anything more, and
otherwise only by one of the ways out. -/
structure EndsTruly (host : Host) (session : FtpSession) : Prop where
  disconnects : ∀ front event back, session.history = front ++ event :: back →
    event.isDisconnect = true → back = [] ∧ session.pc.isOver = true
  leaves : session.pc.isOver = true →
    (∃ front event, session.history = front ++ [event] ∧ event.isDisconnect = true) ∨
      WayOut host session.history

/-- A way out is not found by counting bytes. -/
theorem WayOut.not_miscounted {host : Host} {history : List FtpEvent} (wayOut : WayOut host history)
    (front : List FtpEvent) (event : FtpEvent) (last : history = front ++ [event]) :
    event.isMiscounted = false := by
  have final : history.getLast? = some event := by
    rw [last, List.getLast?_concat]
  cases wayOut with
  | sendFailed text fails =>
      rw [List.getLast?_concat] at final
      cases final
      rfl
  | exit text =>
      rw [List.getLast?_append_of_ne_nil _ (List.cons_ne_nil _ _)] at final
      cases final
      rfl

/-! ## How a session is left -/

/-- If the session is over, then by one of the ways out. -/
def FtpSession.Leaves (host : Host) (session : FtpSession) : Prop :=
  session.pc.isOver = true → WayOut host session.history

theorem FtpSession.Returns.leaves {host : Host} {session : FtpSession}
    (returns : session.Returns host) : session.Leaves host := by
  intro isOver
  rcases returns with prompts | ⟨front, text, status, fails, history, -⟩
  · rw [prompts] at isOver
    cases isOver
  · rw [history]
    exact .sendFailed text fails

/-- Only the length of a message makes its status the mark of a disconnected client. -/
theorem fillBufferWithResponse_marks_iff (result : RecvResult) :
    (fillBufferWithResponse result).1 = clientDisconnected ↔
      (FtpEvent.read .command result).isMiscounted = true := by
  cases result with
  | data bytes => exact decide_eq_true_iff.symm
  | closed => decide
  | error => decide

namespace Host

variable (host : Host)

/-- A message that is not miscounted is interpreted. -/
theorem commandReceived_counted (session : FtpSession) {result : RecvResult}
    (counted : (FtpEvent.read .command result).isMiscounted = false) :
    host.commandReceived session result =
      host.interpret (session.record (.read .command result))
        (fillBufferWithResponse result).2 := by
  have unmarked : ¬ (fillBufferWithResponse result).1 = clientDisconnected := by
    rw [fillBufferWithResponse_marks_iff, counted]
    exact Bool.false_ne_true
  rw [commandReceived, if_neg unmarked]

/-- The client that wants to leave is told goodbye. -/
theorem giveFeedback_leaves (session : FtpSession) (feedbackMsg : List UInt8) :
    (host.giveFeedback (session.record (.executed .exit)) feedbackMsg true).Leaves host := by
  rw [giveFeedback, if_pos rfl]
  split
  · intro _
    rw [FtpSession.goto_history, FtpSession.send_history, FtpSession.record_history,
      List.append_assoc]
    exact .exit session.history feedbackMsg
  · intro _
    exact .sendFailed _ (Bool.eq_false_iff.mpr ‹_›)

theorem interpret_leaves (session : FtpSession) (text : List UInt8) :
    (host.interpret session text).Leaves host := by
  cases command : FtpCommand.parse text with
  | upload =>
      rw [interpret, command]
      intro ended
      cases ended
  | download =>
      rw [interpret, command]
      intro ended
      cases ended
  | exit =>
      rw [interpret, command]
      exact host.giveFeedback_leaves session _
  | _ => exact (host.interpret_returns session (by simp [command]) (by simp [command])
      (by simp [command])).leaves

theorem receiveFile_leaves (session : FtpSession) (path : List UInt8) (remaining : Nat)
    (written : List UInt8) : (host.receiveFile session path remaining written).Leaves host := by
  rw [receiveFile]
  split
  · intro ended
    cases ended
  · exact (host.afterCommand_returns _ _ _).leaves

theorem uploadFilesizeReceived_leaves (session : FtpSession) (filename : List UInt8)
    (result : RecvResult) : (host.uploadFilesizeReceived session filename result).Leaves host := by
  simp only [uploadFilesizeReceived]
  split
  · exact (host.afterCommand_returns _ _ _).leaves
  · split
    · exact (host.afterCommand_returns _ _ _).leaves
    · split
      · exact host.receiveFile_leaves _ _ _ _
      · exact (host.afterCommand_returns _ _ _).leaves

theorem nameReceived_leaves (session : FtpSession) {result : RecvResult}
    (arrives : result ≠ .error) : (host.nameReceived session result).Leaves host := by
  cases result with
  | data bytes => exact (host.welcomeClient_returns _).leaves
  | closed => exact (host.welcomeClient_returns _).leaves
  | error => exact absurd rfl arrives

theorem commandReceived_leaves (session : FtpSession) {result : RecvResult}
    (counted : (FtpEvent.read .command result).isMiscounted = false) :
    (host.commandReceived session result).Leaves host := by
  rw [host.commandReceived_counted session counted]
  exact host.interpret_leaves _ _

theorem uploadFilenameReceived_leaves (session : FtpSession) (result : RecvResult) :
    (host.uploadFilenameReceived session result).Leaves host := by
  rw [uploadFilenameReceived]
  split
  · exact (host.afterCommand_returns _ _ _).leaves
  · intro ended
    cases ended

theorem contentReceived_leaves (session : FtpSession) (path : List UInt8) (remaining : Nat)
    (written : List UInt8) {result : RecvResult} (arrives : result ≠ .error) :
    (host.contentReceived session path remaining written result).Leaves host := by
  cases result with
  | data bytes => exact host.receiveFile_leaves _ _ _ _
  | closed => exact host.receiveFile_leaves _ _ _ _
  | error => exact absurd rfl arrives

/-- Whatever a running session receives but an error and a miscounted command, it goes on or is left
by one of the ways out. -/
theorem advance_leaves {session : FtpSession} {result : RecvResult}
    (running : session.pc.isOver = false) (arrives : result ≠ .error)
    (counted : session.pc = .command → (FtpEvent.read .command result).isMiscounted = false) :
    (host.advance session result).Leaves host := by
  rw [advance]
  cases position : session.pc with
  | name => exact host.nameReceived_leaves session arrives
  | command => exact host.commandReceived_leaves session (counted position)
  | uploadFilename => exact host.uploadFilenameReceived_leaves session result
  | uploadFilesize filename => exact host.uploadFilesizeReceived_leaves session filename result
  | downloadFilename => exact (host.downloadFile_returns _ _).leaves
  | content path remaining written =>
      exact host.contentReceived_leaves session path remaining written arrives
  | finished status =>
      rw [position] at running
      cases running
  | exited =>
      rw [position] at running
      cases running
  | aborted =>
      rw [position] at running
      cases running

end Host

/-! ## What becomes of the messages at a prompt -/

/-- No command was miscounted, and the session did not stop at the end of the stream. -/
structure Heard (history : List FtpEvent) : Prop where
  counted : ∀ event ∈ history, event.isMiscounted = false
  answered : ∀ event, history.getLast? = some event → event.isDisconnect = false

namespace Heard

/-- What the session does for a message, whatever that is, answers it. -/
theorem answer {history : List FtpEvent} (heard : Heard history) {event next : FtpEvent}
    (counted : event.isMiscounted = false) (ordinary : next.isOrdinary = true) :
    Heard (history ++ [event, next]) := by
  obtain ⟨noDisconnect, noMiscount⟩ := FtpEvent.isOrdinary_iff.mp ordinary
  constructor
  · intro other member
    rcases List.mem_append.mp member with earlier | added
    · exact heard.counted other earlier
    · rcases List.mem_pair.mp added with rfl | rfl
      · exact counted
      · exact noMiscount
  · intro last isLast
    rw [List.getLast?_append_of_ne_nil _ (by simp)] at isLast
    cases isLast
    exact noDisconnect

theorem grows {before after : FtpSession} (heard : Heard before.history)
    (grows : before.Grows FtpEvent.isOrdinary after) : Heard after.history := by
  obtain ⟨events, grown, ordinary⟩ := grows
  rw [grown]
  constructor
  · intro event member
    rcases List.mem_append.mp member with earlier | added
    · exact heard.counted event earlier
    · exact (FtpEvent.isOrdinary_iff.mp (ordinary event added)).2
  · intro event isLast
    cases events with
    | nil =>
        rw [List.append_nil] at isLast
        exact heard.answered event isLast
    | cons first later =>
        rw [List.getLast?_append_of_ne_nil _ (List.cons_ne_nil _ _)] at isLast
        exact (FtpEvent.isOrdinary_iff.mp
          (ordinary event (List.mem_of_getLast? isLast))).1

theorem replies {before after : FtpSession} (heard : Heard before.history)
    (replies : before.Replies after) : Heard after.history :=
  heard.grows (replies.mono FtpEvent.isOrdinary_of_isReply)

end Heard

namespace Host

variable (host : Host)

theorem nameReceived_heard {session : FtpSession} (heard : Heard session.history)
    {result : RecvResult} (arrives : result ≠ .error) :
    Heard (host.nameReceived session result).history := by
  have welcomed (named : FtpSession)
      (read : named.history = session.history ++ [.read .name result]) :
      Heard (host.welcomeClient named).history := by
    have told (text : List UInt8) : Heard (named.send text).history := by
      rw [FtpSession.send_history, read, List.append_assoc]
      exact heard.answer rfl rfl
    simp only [welcomeClient]
    split
    · exact (told _).replies (host.promptCommand_replies _)
    · exact told _
  cases result with
  | data bytes => exact welcomed _ rfl
  | closed => exact welcomed _ rfl
  | error => exact absurd rfl arrives

theorem commandReceived_heard {session : FtpSession} (heard : Heard session.history)
    {result : RecvResult} (counted : (FtpEvent.read .command result).isMiscounted = false) :
    Heard (host.commandReceived session result).history := by
  rw [host.commandReceived_counted session counted]
  refine Heard.replies ?_ (host.interpret_grows _ _)
  rw [FtpSession.record_history, FtpSession.record_history, List.append_assoc]
  exact heard.answer counted rfl

theorem uploadFilenameReceived_heard {session : FtpSession} (heard : Heard session.history)
    (result : RecvResult) : Heard (host.uploadFilenameReceived session result).history := by
  have read : Heard (session.record (.read .uploadFilename result)).history :=
    heard.grows (.record _ (by cases result <;> rfl))
  rw [uploadFilenameReceived]
  split
  · exact read.replies (host.afterCommand_replies _ _ _)
  · exact read

theorem receiveFile_heard {session : FtpSession} (heard : Heard session.history)
    (path : List UInt8) (remaining : Nat) (written : List UInt8) :
    Heard (host.receiveFile session path remaining written).history := by
  rw [receiveFile]
  split
  · exact heard
  · exact (heard.grows (.record _ rfl)).replies (host.finishUpload_replies session path written)

theorem uploadFilesizeReceived_heard {session : FtpSession} (heard : Heard session.history)
    (filename : List UInt8) (result : RecvResult) :
    Heard (host.uploadFilesizeReceived session filename result).history := by
  have read : Heard (session.record (.read .uploadFilesize result)).history :=
    heard.grows (.record _ (by cases result <;> rfl))
  have opened : Heard ((session.record (.read .uploadFilesize result)).record
      (.openedForWriting (uploadPath filename))).history := read.grows (.record _ rfl)
  simp only [uploadFilesizeReceived]
  split
  · exact read.replies (host.afterCommand_replies _ _ _)
  · split
    · exact read.replies (host.afterCommand_replies _ _ _)
    · split
      · exact host.receiveFile_heard opened _ _ _
      · exact (opened.replies (FtpSession.send_replies _ _)).replies
          (host.afterCommand_replies _ _ _)

theorem downloadFile_heard {session : FtpSession} (heard : Heard session.history)
    (message : List UInt8) : Heard (host.downloadFile session message).history :=
  (heard.grows (.record session rfl)).grows
    ((host.downloadFile_grows session message).mono FtpEvent.isOrdinary_of_looksAt)

theorem contentReceived_heard {session : FtpSession} (heard : Heard session.history)
    (path : List UInt8) (remaining : Nat) (written : List UInt8) {result : RecvResult}
    (arrives : result ≠ .error) :
    Heard (host.contentReceived session path remaining written result).history := by
  cases result with
  | data bytes => exact host.receiveFile_heard heard _ _ _
  | closed => exact host.receiveFile_heard heard _ _ _
  | error => exact absurd rfl arrives

/-- Every message but a miscounted command is answered, the end of the stream too. -/
theorem advance_heard {session : FtpSession} (heard : Heard session.history) {result : RecvResult}
    (arrives : result ≠ .error)
    (counted : session.pc = .command → (FtpEvent.read .command result).isMiscounted = false) :
    Heard (host.advance session result).history := by
  rw [advance]
  cases position : session.pc with
  | name => exact host.nameReceived_heard heard arrives
  | command => exact host.commandReceived_heard heard (counted position)
  | uploadFilename => exact host.uploadFilenameReceived_heard heard result
  | uploadFilesize filename => exact host.uploadFilesizeReceived_heard heard filename result
  | downloadFilename =>
      exact host.downloadFile_heard (heard.grows (.record _ (by cases result <;> rfl))) _
  | content path remaining written =>
      exact host.contentReceived_heard heard path remaining written arrives
  | finished status => exact heard
  | exited => exact heard
  | aborted => exact heard

end Host

/-! ## Runs of a session -/

/-- A miscounted command is the last thing a session knows of. -/
def FtpSession.Miscounted (session : FtpSession) : Prop :=
  session.pc.isOver = true ∧
    ∃ front event, session.history = front ++ [event] ∧ event.isMiscounted = true

theorem Host.advance_miscounted (host : Host) {session : FtpSession} {result : RecvResult}
    (prompts : session.pc = .command)
    (miscounted : (FtpEvent.read .command result).isMiscounted = true) :
    host.advance session result =
      (session.record (.read .command result)).goto (.finished 0) := by
  rw [advance, prompts]
  exact if_pos ((fillBufferWithResponse_marks_iff result).mpr miscounted)

/-- A session that waits for a message may receive it. -/
theorem ftpSession_advance {host : Host} {session : FtpSession}
    (reached : (ftpSession host).ReachesVia (fun _ result => result ≠ .error) session)
    (result : RecvResult) (arrives : result ≠ .error)
    (receives : 0 < session.pc.capacity ∧ result.fits session.pc.capacity = true) :
    (ftpSession host).ReachesVia (fun _ result => result ≠ .error) (host.advance session result) :=
  reached.next arrives (if_pos receives)

theorem serveClientWithFTP_heard : Heard (serveClientWithFTP true).history := by
  rw [serveClientWithFTP, if_pos rfl]
  exact ⟨by simp [FtpEvent.isMiscounted], by simp [FtpEvent.isDisconnect]⟩

/-- Unless it stops at a miscounted command, a session answers every message and is left by the ways
out alone. -/
theorem ftpSession_ends (host : Host) {session : FtpSession}
    (reached : (ftpSession host).ReachesVia (fun _ result => result ≠ .error) session) :
    session.Miscounted ∨ Heard session.history ∧ session.Leaves host := by
  apply reached.invariant
  · intro session initial
    rw [initial]
    refine .inr ⟨serveClientWithFTP_heard, ?_⟩
    intro ended
    cases ended
  · intro before result after _ assertion arrives step
    obtain ⟨enabled, advanced⟩ := Option.ite_none_right_eq_some.mp step
    have running := FtpPc.isOver_eq_false enabled.1
    obtain ⟨heard, -⟩ : Heard before.history ∧ before.Leaves host := by
      apply assertion.resolve_left
      intro stopped
      rw [FtpSession.Miscounted, running] at stopped
      exact Bool.false_ne_true stopped.1
    cases advanced
    by_cases miscounts :
        before.pc = .command ∧ (FtpEvent.read .command result).isMiscounted = true
    · obtain ⟨prompts, miscounted⟩ := miscounts
      left
      rw [host.advance_miscounted prompts miscounted]
      exact ⟨rfl, before.history, _, rfl, miscounted⟩
    · right
      have counted : before.pc = .command →
          (FtpEvent.read .command result).isMiscounted = false := by
        intro prompts
        exact Bool.eq_false_iff.mpr fun miscounted => miscounts ⟨prompts, miscounted⟩
      exact ⟨host.advance_heard heard arrives counted,
        host.advance_leaves running arrives counted⟩

theorem FtpSession.Miscounted.not_endsTruly {host : Host} {session : FtpSession}
    (stopped : session.Miscounted) : ¬ EndsTruly host session := by
  intro truly
  obtain ⟨isOver, front, event, last, miscounted⟩ := stopped
  have uncounted : event.isMiscounted = false := by
    rcases truly.leaves isOver with ⟨front', other, ended, disconnect⟩ | wayOut
    · rw [last] at ended
      obtain ⟨-, same⟩ := List.append_inj' ended rfl
      cases same
      exact FtpEvent.isMiscounted_of_isDisconnect disconnect
    · exact wayOut.not_miscounted front event last
  rw [uncounted] at miscounted
  cases miscounted

/-- A session that answers every message ends as it should if it had no end of the stream to
answer. -/
theorem Heard.endsTruly_iff {host : Host} {session : FtpSession} (heard : Heard session.history)
    (leaves : session.Leaves host) :
    EndsTruly host session ↔ ∀ event ∈ session.history, event.isDisconnect = false := by
  constructor
  · intro truly event member
    apply Bool.eq_false_iff.mpr
    intro disconnect
    obtain ⟨front, back, split⟩ := List.append_of_mem member
    obtain ⟨rfl, -⟩ := truly.disconnects front event back split disconnect
    have last : session.history.getLast? = some event := by
      rw [split, List.getLast?_concat]
    rw [heard.answered event last] at disconnect
    cases disconnect
  · intro spared
    constructor
    · intro front event back split disconnect
      have member : event ∈ session.history := by
        rw [split]
        exact List.mem_append_right _ List.mem_cons_self
      rw [spared event member] at disconnect
      cases disconnect
    · intro isOver
      exact .inr (leaves isOver)

/-- Whatever messages arrive and wherever the client disconnects, a session ends as it should
exactly as long as the client has not disconnected at a prompt and no command has been as long as
the mark of a disconnected client. -/
theorem session_ends_truly_iff (host : Host) {session : FtpSession}
    (reached : (ftpSession host).ReachesVia (fun _ result => result ≠ .error) session) :
    EndsTruly host session ↔
      ∀ event ∈ session.history, event.isDisconnect = false ∧ event.isMiscounted = false := by
  rcases ftpSession_ends host reached with stopped | ⟨heard, leaves⟩
  · refine iff_of_false stopped.not_endsTruly ?_
    intro spared
    obtain ⟨-, front, event, last, miscounted⟩ := stopped
    have member : event ∈ session.history := by
      rw [last]
      exact List.mem_append_right _ List.mem_cons_self
    rw [(spared event member).2] at miscounted
    cases miscounted
  · rw [heard.endsTruly_iff leaves]
    constructor
    · intro spared event member
      exact ⟨spared event member, heard.counted event member⟩
    · intro spared event member
      exact (spared event member).1

/-- A session with a client that has given its name. -/
def FtpSession.named : FtpSession :=
  (Host.steady (.holding [])).advance (serveClientWithFTP true) (.data (literal "a"))

theorem FtpSession.named_reached : (ftpSession (.steady (.holding []))).ReachesVia
    (fun _ result => result ≠ .error) .named :=
  ftpSession_advance (.start rfl) (.data (literal "a")) (by decide) (by decide +kernel)

/-- The client asks for the end of the session. -/
theorem session_ends_truly_iff_exit :
    EndsTruly (.steady (.holding []))
      ((Host.steady (.holding [])).advance .named (.data (literal "--exit"))) := by
  have left := ftpSession_advance FtpSession.named_reached (.data (literal "--exit"))
    (by decide) (by decide +kernel)
  exact (session_ends_truly_iff _ left).mpr (by decide +kernel)

/-- A client that disconnects instead of giving its name is welcomed and prompted for a command,
and one whose command has 404 bytes is left without an answer. -/
theorem session_ends_falsely :
    (∃ session, (ftpSession (.steady (.holding []))).ReachesVia
        (fun _ result => result ≠ .error) session ∧
      .read .name .closed ∈ session.history ∧ session.pc = .command ∧
      ¬ EndsTruly (.steady (.holding [])) session) ∧
    ∃ session, (ftpSession (.steady (.holding []))).ReachesVia
        (fun _ result => result ≠ .error) session ∧
      session.history.getLast? = some (.read .command (.data (List.replicate 404 97))) ∧
      session.pc = .finished 0 ∧ ¬ EndsTruly (.steady (.holding [])) session := by
  constructor
  · refine ⟨_, ftpSession_advance (.start rfl) .closed (by decide) (by decide +kernel),
      by decide +kernel, by decide +kernel, ?_⟩
    intro truly
    obtain ⟨nothing, -⟩ := truly.disconnects _ (.read .name .closed) _
      (List.take_append_drop 1 _).symm rfl
    cases nothing
  · have miscounted :
        (FtpEvent.read .command (.data (List.replicate 404 97))).isMiscounted = true := by
      rw [FtpEvent.isMiscounted, List.length_replicate]
      rfl
    have left := ftpSession_advance FtpSession.named_reached (.data (List.replicate 404 97))
      RecvResult.noConfusion (by decide +kernel)
    rw [Host.advance_miscounted _ (by decide +kernel) miscounted] at left
    refine ⟨_, left, List.getLast?_concat, rfl, ?_⟩
    apply FtpSession.Miscounted.not_endsTruly
    exact ⟨rfl, FtpSession.named.history, _, rfl, miscounted⟩

end CmyMessage
