import CmyMessage.FileTransfer.Server

/-!
# What a session has done

The history of a session only grows.  What matters to its client is the messages it read, the
commands it executed and the files it stored.  Most functions add nothing but replies.  While its
sends succeed, a session comes back to the command prompt after every command that reads nothing
more.
-/

namespace CmyMessage

/-- A file system on which every path is a writable file with the same content. -/
def Disk.holding (content : List UInt8) : Disk where
  access _ := true
  stat _ := true
  openRead _ := some content
  ftell _ := content.length
  openWrite _ := true
  entries _ := some []

/-- A host whose sends succeed and whose file system does not change. -/
def Host.steady (disk : Disk) : Host := ⟨fun _ => disk, fun _ => true⟩

/-- What a session tells its client or its caller. -/
def FtpEvent.isReply : FtpEvent → Bool
  | sent _ => true
  | returned _ _ => true
  | _ => false

/-- Neither a message read, nor a command executed, nor a file stored. -/
def FtpEvent.isSilent : FtpEvent → Bool
  | read _ _ => false
  | executed _ => false
  | stored _ _ => false
  | _ => true

/-- A reply, or a look at the files under a path. -/
def FtpEvent.looksAt (path : List UInt8) : FtpEvent → Bool
  | measured other => decide (other = path)
  | openedForReading other => decide (other = path)
  | sent _ => true
  | returned _ _ => true
  | _ => false

theorem FtpEvent.isSilent_of_isReply {event : FtpEvent} (reply : event.isReply = true) :
    event.isSilent = true := by
  cases event <;> first | rfl | cases reply

/-- The messages read, with the places they were read at. -/
def messagesRead (history : List FtpEvent) : List (ReadSite × List UInt8) :=
  history.filterMap fun
    | .read site (.data bytes) => some (site, bytes)
    | _ => none

/-- A valid command executed or a file written. -/
def FtpEvent.isAction : FtpEvent → Bool
  | executed command => decide (command ≠ .invalid)
  | stored _ _ => true
  | _ => false

/-- The valid commands executed and the files written. -/
def actions (history : List FtpEvent) : List FtpEvent := history.filter FtpEvent.isAction

theorem messagesRead_append (front back : List FtpEvent) :
    messagesRead (front ++ back) = messagesRead front ++ messagesRead back :=
  List.filterMap_append

theorem actions_append (front back : List FtpEvent) :
    actions (front ++ back) = actions front ++ actions back := List.filter_append _ _

theorem messagesRead_silent {events : List FtpEvent}
    (silent : ∀ event ∈ events, event.isSilent = true) : messagesRead events = [] := by
  apply List.filterMap_eq_nil_iff.mpr
  intro event member
  have quiet := silent event member
  cases event with
  | read site result => cases quiet
  | _ => rfl

theorem actions_silent {events : List FtpEvent}
    (silent : ∀ event ∈ events, event.isSilent = true) : actions events = [] := by
  apply List.filter_eq_nil_iff.mpr
  intro event member
  have quiet := silent event member
  cases event with
  | executed command => cases quiet
  | stored path content => cases quiet
  | _ => exact Bool.false_ne_true

namespace FtpSession

@[simp]
theorem goto_pc (session : FtpSession) (pc : FtpPc) : (session.goto pc).pc = pc := rfl

@[simp]
theorem goto_history (session : FtpSession) (pc : FtpPc) :
    (session.goto pc).history = session.history := rfl

@[simp]
theorem goto_goto (session : FtpSession) (pc other : FtpPc) :
    (session.goto pc).goto other = session.goto other := rfl

@[simp]
theorem record_pc (session : FtpSession) (event : FtpEvent) :
    (session.record event).pc = session.pc := rfl

@[simp]
theorem record_history (session : FtpSession) (event : FtpEvent) :
    (session.record event).history = session.history ++ [event] := rfl

@[simp]
theorem record_goto (session : FtpSession) (event : FtpEvent) (pc : FtpPc) :
    (session.goto pc).record event = (session.record event).goto pc := rfl

@[simp]
theorem send_history (session : FtpSession) (text : List UInt8) :
    (session.send text).history = session.history ++ [.sent text] := rfl

@[simp]
theorem send_goto (session : FtpSession) (text : List UInt8) (pc : FtpPc) :
    (session.goto pc).send text = (session.send text).goto pc := rfl

/-- What a session did after an earlier state. -/
def eventsSince (before after : FtpSession) : List FtpEvent :=
  after.history.drop before.history.length

theorem eventsSince_eq {before after : FtpSession} {events : List FtpEvent}
    (grown : after.history = before.history ++ events) : before.eventsSince after = events := by
  rw [eventsSince, grown, List.drop_left]

/-- Between two states of a session only allowed events happened. -/
def Grows (allowed : FtpEvent → Bool) (before after : FtpSession) : Prop :=
  ∃ events, after.history = before.history ++ events ∧ ∀ event ∈ events, allowed event = true

namespace Grows

variable {allowed : FtpEvent → Bool} {before middle after : FtpSession}

theorem refl (session : FtpSession) : session.Grows allowed session := ⟨[], by simp, by simp⟩

theorem goto (session : FtpSession) (pc : FtpPc) : session.Grows allowed (session.goto pc) :=
  ⟨[], by simp, by simp⟩

theorem record (session : FtpSession) {event : FtpEvent} (allows : allowed event = true) :
    session.Grows allowed (session.record event) := ⟨[event], rfl, by simpa using allows⟩

theorem trans (first : before.Grows allowed middle) (second : middle.Grows allowed after) :
    before.Grows allowed after := by
  obtain ⟨front, grown, allows⟩ := first
  obtain ⟨back, grown', allows'⟩ := second
  refine ⟨front ++ back, by rw [grown', grown, List.append_assoc], fun event member => ?_⟩
  exact (List.mem_append.mp member).elim (allows event) (allows' event)

theorem mono {weaker : FtpEvent → Bool} (grows : before.Grows allowed after)
    (implies : ∀ event, allowed event = true → weaker event = true) :
    before.Grows weaker after := by
  obtain ⟨events, grown, allows⟩ := grows
  exact ⟨events, grown, fun event member => implies event (allows event member)⟩

theorem history (grows : before.Grows allowed after) : before.history <+: after.history := by
  obtain ⟨events, grown, -⟩ := grows
  exact ⟨events, grown.symm⟩

theorem messagesRead (grows : before.Grows FtpEvent.isSilent after) :
    messagesRead after.history = CmyMessage.messagesRead before.history := by
  obtain ⟨events, grown, silent⟩ := grows
  rw [grown, messagesRead_append, messagesRead_silent silent, List.append_nil]

theorem actions (grows : before.Grows FtpEvent.isSilent after) :
    actions after.history = CmyMessage.actions before.history := by
  obtain ⟨events, grown, silent⟩ := grows
  rw [grown, actions_append, actions_silent silent, List.append_nil]

end Grows

/-- A session only replied. -/
def Replies (before after : FtpSession) : Prop := before.Grows FtpEvent.isReply after

theorem Replies.silent {before after : FtpSession} (replies : before.Replies after) :
    before.Grows FtpEvent.isSilent after := replies.mono fun _ => FtpEvent.isSilent_of_isReply

theorem send_replies (session : FtpSession) (text : List UInt8) :
    session.Replies (session.send text) := .record session rfl

end FtpSession

/-- No size an `int` can hold is refused by the server. -/
theorem not_maxFileSize_lt_atoi (text : List UInt8) : ¬ maxFileSize < Decimal.atoi text := by
  have bound := Decimal.toInt32_lt (Decimal.strtol text)
  rw [maxFileSize, Decimal.atoi]
  omega

/-- A message without NUL bytes is read as it was sent. -/
theorem fillBufferWithResponse_data {text : List UInt8} (nonzero : 0 ∉ text) :
    fillBufferWithResponse (.data text) = (↑text.length, text) := by
  rw [fillBufferWithResponse, CString.text_eq_self nonzero]

theorem sendFile_replies (session : FtpSession) (content : List UInt8) (filesize : Int) :
    session.Replies (sendFile session content filesize) := by
  rw [sendFile]
  generalize chunks filesize.toNat filesize.toNat content = pieces
  induction pieces generalizing session with
  | nil => exact .refl session
  | cons piece pieces ih => exact (session.send_replies piece).trans (ih _)

namespace Host

variable (host : Host)

/-- The order of a move and of what the next prompt does is of no account. -/
@[simp]
theorem promptCommand_goto (session : FtpSession) (pc : FtpPc) :
    host.promptCommand (session.goto pc) = host.promptCommand session := rfl

@[simp]
theorem afterCommand_goto (session : FtpSession) (pc : FtpPc) (command : FtpCommand)
    (status : Int) :
    host.afterCommand (session.goto pc) command status = host.afterCommand session command status :=
  rfl

@[simp]
theorem finishUpload_goto (session : FtpSession) (pc : FtpPc) (path written : List UInt8) :
    host.finishUpload (session.goto pc) path written = host.finishUpload session path written := rfl

@[simp]
theorem receiveFile_goto (session : FtpSession) (pc : FtpPc) (path : List UInt8) (remaining : Nat)
    (written : List UInt8) : host.receiveFile (session.goto pc) path remaining written =
      host.receiveFile session path remaining written := by
  rw [receiveFile, receiveFile, FtpSession.goto_goto, finishUpload_goto]

/-! ### What the functions add to the history -/

theorem promptCommand_history (session : FtpSession) :
    (host.promptCommand session).history = session.history ++ [.sent (literal "> ")] := by
  rw [promptCommand]
  split <;> rfl

theorem promptCommand_replies (session : FtpSession) :
    session.Replies (host.promptCommand session) := by
  rw [promptCommand]
  split <;> exact (session.send_replies _).trans (.goto _ _)

theorem afterCommand_replies (session : FtpSession) (command : FtpCommand) (status : Int) :
    session.Replies (host.afterCommand session command status) :=
  FtpSession.Grows.trans (.record session rfl) (host.promptCommand_replies _)

theorem giveFeedback_replies (session : FtpSession) (feedbackMsg : List UInt8)
    (clientsWantsExit : Bool) :
    session.Replies (host.giveFeedback session feedbackMsg clientsWantsExit) := by
  rw [giveFeedback]
  have sent := session.send_replies feedbackMsg
  split
  · split
    · exact sent.trans (.goto _ _)
    · exact sent.trans (host.promptCommand_replies _)
  · exact sent.trans (.goto _ _)

theorem informClient_replies (session : FtpSession) : session.Replies (host.informClient session) :=
  (session.send_replies _).trans (host.afterCommand_replies _ _ _)

theorem sendEntries_replies (entries : List (List UInt8)) (fileIdx : Nat) (session : FtpSession) :
    session.Replies (host.sendEntries fileIdx entries session).1 := by
  induction entries generalizing fileIdx session with
  | nil => exact .refl session
  | cons entry entries ih =>
      rw [sendEntries]
      split
      · exact (session.send_replies _).trans (ih _ _)
      · exact session.send_replies _

theorem listFilesCurrDir_replies (session : FtpSession) :
    session.Replies (host.listFilesCurrDir session) := by
  rw [listFilesCurrDir]
  split
  · exact host.afterCommand_replies _ _ _
  · exact (host.sendEntries_replies _ _ session).trans (host.afterCommand_replies _ _ _)

theorem welcomeClient_replies (session : FtpSession) :
    session.Replies (host.welcomeClient session) := by
  simp only [welcomeClient]
  split
  · exact (session.send_replies _).trans (host.promptCommand_replies _)
  · exact (session.send_replies _).trans (.goto _ _)

theorem finishUpload_replies (session : FtpSession) (path written : List UInt8) :
    (session.record (.stored path written)).Replies (host.finishUpload session path written) :=
  FtpSession.Grows.trans (FtpSession.send_replies _ _) (host.afterCommand_replies _ _ _)

/-- Once it has measured a path, `download_file` replies, and looks at files under that path. -/
theorem downloadFile_grows (session : FtpSession) (message : List UInt8) :
    (session.record (.measured (downloadPath message))).Grows
      (FtpEvent.looksAt (downloadPath message)) (host.downloadFile session message) := by
  have replies {before after : FtpSession} (only : before.Replies after) :
      before.Grows (FtpEvent.looksAt (downloadPath message)) after :=
    only.mono fun event reply => by cases event <;> first | rfl | cases reply
  simp only [downloadFile]
  split
  · exact replies (host.afterCommand_replies _ _ _)
  · refine .trans (replies (FtpSession.send_replies _ ((Decimal.ofInt (getFileSize
      (host.disk session.history) (downloadPath message))).take (maxNumAlgsFilesize - 1)))) ?_
    split
    · exact replies (host.afterCommand_replies _ _ _)
    · have looks : FtpEvent.looksAt (downloadPath message)
          (.openedForReading (downloadPath message)) = true := by
        simp [FtpEvent.looksAt]
      refine .trans (.record _ looks) ?_
      split
      · exact replies ((sendFile_replies _ _ _).trans (host.afterCommand_replies _ _ _))
      · exact replies ((FtpSession.send_replies _ _).trans (host.afterCommand_replies _ _ _))

theorem downloadFile_silent (session : FtpSession) (message : List UInt8) :
    session.Grows FtpEvent.isSilent (host.downloadFile session message) := by
  refine .trans (.record session rfl) ((host.downloadFile_grows session message).mono
    fun event looks => ?_)
  cases event <;> first | rfl | cases looks

/-- A text is executed as the command it stands for before anything else happens. -/
theorem interpret_grows (session : FtpSession) (text : List UInt8) :
    (session.record (.executed (FtpCommand.parse text))).Replies (host.interpret session text) := by
  rw [interpret]
  cases FtpCommand.parse text with
  | help => exact host.informClient_replies _
  | upload => exact .goto _ _
  | download => exact .goto _ _
  | exit => exact host.giveFeedback_replies _ _ _
  | list => exact host.listFilesCurrDir_replies _
  | invalid => exact host.giveFeedback_replies _ _ _

theorem receiveFile_history (session : FtpSession) (path : List UInt8) (remaining : Nat)
    (written : List UInt8) :
    session.history <+: (host.receiveFile session path remaining written).history := by
  rw [receiveFile]
  split
  · exact List.prefix_rfl
  · exact (List.prefix_append _ _).trans (host.finishUpload_replies session path written).history

/-- Nothing that happened is undone. -/
theorem advance_history (session : FtpSession) (result : RecvResult) :
    session.history <+: (host.advance session result).history := by
  have recorded (before : FtpSession) (event : FtpEvent) :
      before.history <+: (before.record event).history := List.prefix_append _ _
  rw [advance]
  split
  · apply (recorded session (.read .name result)).trans
    cases result with
    | data bytes => exact (host.welcomeClient_replies
        { session.record (.read .name (.data bytes)) with name := CString.text bytes }).history
    | closed => exact (host.welcomeClient_replies _).history
    | error => exact List.prefix_rfl
  · rw [commandReceived]
    split
    · exact recorded _ _
    · exact ((recorded _ _).trans (recorded _ _)).trans (host.interpret_grows _ _).history
  · rw [uploadFilenameReceived]
    split
    · exact (recorded _ _).trans (host.afterCommand_replies _ _ _).history
    · exact recorded _ _
  · simp only [uploadFilesizeReceived]
    apply (recorded session (.read .uploadFilesize result)).trans
    split
    · exact (host.afterCommand_replies _ _ _).history
    · split
      · exact (host.afterCommand_replies _ _ _).history
      · split
        · exact (recorded _ _).trans (host.receiveFile_history _ _ _ _)
        · exact ((recorded _ _).trans (FtpSession.send_replies _ _).history).trans
            (host.afterCommand_replies _ _ _).history
  · exact ((recorded _ _).trans (recorded _ _)).trans (host.downloadFile_grows _ _).history
  · cases result with
    | data bytes => exact host.receiveFile_history _ _ _ _
    | closed => exact host.receiveFile_history _ _ _ _
    | error => exact (recorded _ _).trans (FtpSession.send_replies _ _).history
  all_goals exact List.prefix_rfl

/-! ### Back at the prompt -/

end Host

/-- The session is back at its prompt, unless a failed `send` has finished it. -/
def FtpSession.Prompts (host : Host) (session : FtpSession) : Prop :=
  session.pc = .command ∨
    (∃ history, host.sends history = false) ∧ ∃ status, session.pc = .finished status

/-- The session is back at its prompt, unless a `send` has failed and was the last thing it did. -/
def FtpSession.Returns (host : Host) (session : FtpSession) : Prop :=
  session.pc = .command ∨ ∃ front text status, host.sends front = false ∧
    session.history = front ++ [.sent text] ∧ session.pc = .finished status

theorem FtpSession.Returns.prompts {host : Host} {session : FtpSession}
    (returns : session.Returns host) : session.Prompts host := by
  apply returns.imp_right
  intro left
  obtain ⟨front, -, status, fails, -, finished⟩ := left
  exact ⟨⟨front, fails⟩, status, finished⟩

theorem FtpSession.Prompts.pc {host : Host} {session : FtpSession} (prompts : session.Prompts host)
    (sends : ∀ history, host.sends history = true) : session.pc = .command := by
  apply prompts.resolve_right
  intro failed
  obtain ⟨⟨history, fails⟩, -⟩ := failed
  simp [sends] at fails

namespace Host

variable (host : Host)

theorem promptCommand_returns (session : FtpSession) :
    (host.promptCommand session).Returns host := by
  rw [promptCommand]
  split
  · exact .inl rfl
  · exact .inr ⟨_, _, _, Bool.eq_false_iff.mpr ‹_›, rfl, rfl⟩

theorem afterCommand_returns (session : FtpSession) (command : FtpCommand) (status : Int) :
    (host.afterCommand session command status).Returns host := host.promptCommand_returns _

theorem welcomeClient_returns (session : FtpSession) :
    (host.welcomeClient session).Returns host := by
  simp only [welcomeClient]
  split
  · exact host.promptCommand_returns _
  · exact .inr ⟨_, _, _, Bool.eq_false_iff.mpr ‹_›, rfl, rfl⟩

theorem downloadFile_returns (session : FtpSession) (message : List UInt8) :
    (host.downloadFile session message).Returns host := by
  simp only [downloadFile]
  split
  · exact host.afterCommand_returns _ _ _
  · split
    · exact host.afterCommand_returns _ _ _
    · split <;> exact host.afterCommand_returns _ _ _

theorem finishUpload_returns (session : FtpSession) (path written : List UInt8) :
    (host.finishUpload session path written).Returns host := host.afterCommand_returns _ _ _

/-- A text that asks for no transfer and does not end the session brings the prompt back. -/
theorem interpret_returns (session : FtpSession) {text : List UInt8}
    (noUpload : FtpCommand.parse text ≠ .upload) (noDownload : FtpCommand.parse text ≠ .download)
    (noExit : FtpCommand.parse text ≠ .exit) : (host.interpret session text).Returns host := by
  rw [interpret]
  cases command : FtpCommand.parse text with
  | help => exact host.afterCommand_returns _ _ _
  | upload => exact absurd command noUpload
  | download => exact absurd command noDownload
  | exit => exact absurd command noExit
  | list =>
      simp only [listFilesCurrDir]
      split <;> exact host.afterCommand_returns _ _ _
  | invalid =>
      simp only [giveFeedback, Bool.false_eq_true, if_false]
      split
      · exact host.promptCommand_returns _
      · exact .inr ⟨_, _, _, Bool.eq_false_iff.mpr ‹_›, rfl, rfl⟩

end Host

end CmyMessage
