import CmyMessage.FileTransfer.Conversation

/-!
# Client and server in phase

The messages in flight are always a script that the server's position asks for.  Typing a line adds
a whole round to the script, and a `recv` takes its first message off at the place it was meant for.
-/

namespace CmyMessage

/-! ## Texts -/

/-- The texts taken for a command. -/
def FtpCommand.texts : FtpCommand → List (List UInt8)
  | help => cmdHelp
  | upload => cmdUpload
  | download => cmdDownload
  | exit => cmdExit
  | list => cmdList
  | invalid => []

theorem FtpCommand.mem_texts {text : List UInt8} (valid : FtpCommand.parse text ≠ .invalid) :
    text ∈ (FtpCommand.parse text).texts := by
  revert valid
  fun_cases FtpCommand.parse text <;> intro valid
  case case6 => exact absurd rfl valid
  all_goals assumption

theorem FtpCommand.parse_of_mem_exit : ∀ text ∈ cmdExit, FtpCommand.parse text = .exit := by
  decide +kernel

/-- The text of a command makes the server leave its loop: it asks for it, or its length is taken
for a disconnection. -/
def endsSession (text : List UInt8) : Bool :=
  decide (text ∈ cmdExit ∨ (text.length : Int) = clientDisconnected)

/-- A text the client can send as a message of its own, and the server can read as one. -/
structure Sendable (text : List UInt8) : Prop where
  nonempty : text ≠ []
  fits : text.length ≤ bufferSize
  nonzero : 0 ∉ text

theorem sendable_upload : Sendable (literal "--upload") := by
  constructor <;> decide +kernel

theorem sendable_download : Sendable (literal "--download") := by
  constructor <;> decide +kernel

/-! ## What the server asks for -/

/-- Where a position reads a control message. -/
def FtpPc.site : FtpPc → Option ReadSite
  | .name => some .name
  | .command => some .command
  | .uploadFilename => some .uploadFilename
  | .uploadFilesize _ => some .uploadFilesize
  | .downloadFilename => some .downloadFilename
  | _ => none

/-- The messages a position of the server asks for. -/
inductive Expects : FtpPc → List Message → Prop
  | unnamed : Expects .name []
  | name {text : List UInt8} {later : List Message} (sendable : Sendable text)
      (tail : Expects .command later) : Expects .name (.control .name text :: later)
  | idle : Expects .command []
  | ended (unread : List Message) : Expects (.finished 0) unread
  | last {text : List UInt8} (sendable : Sendable text) (ends : endsSession text = true)
      (unread : List Message) : Expects .command (.control .command text :: unread)
  | plain {text : List UInt8} {later : List Message} (sendable : Sendable text)
      (stays : endsSession text = false) (noUpload : text ∉ cmdUpload)
      (noDownload : text ∉ cmdDownload)
      (tail : Expects .command later) : Expects .command (.control .command text :: later)
  | upload {later : List Message} (tail : Expects .uploadFilename later) :
      Expects .command (.control .command (literal "--upload") :: later)
  | uploadFilename {text : List UInt8} {later : List Message} (sendable : Sendable text)
      (tail : Expects (.uploadFilesize (withoutNewline text)) later) :
      Expects .uploadFilename (.control .uploadFilename text :: later)
  | uploadFilesize {filename text bytes : List UInt8} {later : List Message}
      (sendable : Sendable text) (size : (Decimal.atoi text).toNat = bytes.length)
      (tail : Expects .command later) :
      Expects (.uploadFilesize filename)
        (.control .uploadFilesize text :: (transmitted [.content bytes] ++ later))
  | content {path written bytes : List UInt8} {later : List Message} (nonempty : bytes ≠ [])
      (tail : Expects .command later) :
      Expects (.content path bytes.length written) (.content bytes :: later)
  | download {later : List Message} (tail : Expects .downloadFilename later) :
      Expects .command (.control .command (literal "--download") :: later)
  | downloadFilename {text : List UInt8} {later : List Message} (sendable : Sendable text)
      (tail : Expects .command later) :
      Expects .downloadFilename (.control .downloadFilename text :: later)

/-- Where a script may be over. -/
theorem Expects.done {pc : FtpPc} (expects : Expects pc []) :
    pc = .name ∨ pc = .command ∨ pc = .finished 0 := by
  cases expects with
  | unnamed => exact .inl rfl
  | idle => exact .inr (.inl rfl)
  | ended => exact .inr (.inr rfl)

/-- Before the name is read, nothing but the name is in flight. -/
theorem Expects.silent {messages : List Message} (expects : Expects .name messages)
    (silence : Message.controls messages = []) : messages = [] := by
  cases expects with
  | unnamed => rfl
  | name sendable tail => cases silence

theorem controls_append (front back : List Message) :
    Message.controls (front ++ back) = Message.controls front ++ Message.controls back :=
  List.filterMap_append

theorem controls_content (bytes : List UInt8) :
    Message.controls (transmitted [.content bytes]) = [] := by
  cases bytes <;> rfl

/-- A script can be followed by another. -/
theorem Expects.append {pc : FtpPc} {messages block : List Message} (expects : Expects pc messages)
    (named : pc = .name → messages ≠ []) (following : Expects .command block) :
    Expects pc (messages ++ block) := by
  induction expects with
  | unnamed => exact absurd rfl (named rfl)
  | name sendable tail ih => exact .name sendable (ih (by simp))
  | idle => exact following
  | ended unread => exact .ended _
  | last sendable ends unread => exact .last sendable ends _
  | plain sendable stays noUpload noDownload tail ih =>
      exact .plain sendable stays noUpload noDownload (ih (by simp))
  | upload tail ih => exact .upload (ih (by simp))
  | uploadFilename sendable tail ih => exact .uploadFilename sendable (ih (by simp))
  | uploadFilesize sendable size tail ih =>
      rw [List.cons_append, List.append_assoc]
      exact .uploadFilesize sendable size (ih (by simp))
  | content nonempty tail ih => exact .content nonempty (ih (by simp))
  | download tail ih => exact .download (ih (by simp))
  | downloadFilename sendable tail ih => exact .downloadFilename sendable (ih (by simp))

namespace Host

/-! ## What the server reads -/

theorem messagesRead_record_read (session : FtpSession) (site : ReadSite) (bytes : List UInt8) :
    messagesRead (session.record (.read site (.data bytes))).history =
      messagesRead session.history ++ [(site, bytes)] := by
  rw [FtpSession.record_history, messagesRead_append]
  rfl

theorem receiveFile_messagesRead (host : Host) (session : FtpSession) (path : List UInt8)
    (remaining : Nat) (written : List UInt8) :
    messagesRead (host.receiveFile session path remaining written).history =
      messagesRead session.history := by
  rw [receiveFile]
  split
  · rfl
  · rw [(host.finishUpload_replies session path written).silent.messagesRead,
      FtpSession.record_history, messagesRead_append]
    exact List.append_nil _

/-- A `recv` that returns data is recorded as a message exactly at the places that read one. -/
theorem messagesRead_advance (host : Host) (session : FtpSession) (bytes : List UInt8) :
    messagesRead (host.advance session (.data bytes)).history =
      messagesRead session.history ++ (session.pc.site.map (·, bytes)).toList := by
  rw [advance]
  cases position : session.pc with
  | name =>
      exact (host.welcomeClient_replies { session.record (.read .name (.data bytes)) with
        name := CString.text bytes }).silent.messagesRead.trans
          (messagesRead_record_read session .name bytes)
  | command =>
      simp only [commandReceived]
      split
      · exact messagesRead_record_read session .command bytes
      · rw [(host.interpret_grows _ _).silent.messagesRead, FtpSession.record_history,
          messagesRead_append, messagesRead_record_read]
        exact List.append_nil _
  | uploadFilename =>
      simp only [uploadFilenameReceived]
      split
      · rw [(host.afterCommand_replies _ _ _).silent.messagesRead]
        exact messagesRead_record_read session .uploadFilename bytes
      · exact messagesRead_record_read session .uploadFilename bytes
  | uploadFilesize filename =>
      simp only [uploadFilesizeReceived]
      split
      · rw [(host.afterCommand_replies _ _ _).silent.messagesRead]
        exact messagesRead_record_read session .uploadFilesize bytes
      · split
        · rw [(host.afterCommand_replies _ _ _).silent.messagesRead]
          exact messagesRead_record_read session .uploadFilesize bytes
        · split
          · rw [receiveFile_messagesRead, FtpSession.record_history, messagesRead_append,
              messagesRead_record_read]
            exact List.append_nil _
          · rw [(host.afterCommand_replies _ _ _).silent.messagesRead,
              (FtpSession.send_replies _ _).silent.messagesRead, FtpSession.record_history,
              messagesRead_append, messagesRead_record_read]
            exact List.append_nil _
  | downloadFilename =>
      rw [(host.downloadFile_silent _ _).messagesRead]
      exact messagesRead_record_read session .downloadFilename bytes
  | content path remaining written =>
      exact (host.receiveFile_messagesRead _ _ _ _).trans (List.append_nil _).symm
  | finished status => exact (List.append_nil _).symm
  | exited => exact (List.append_nil _).symm
  | aborted => exact (List.append_nil _).symm

/-! ## Where the server goes -/

section Sends

variable {host : Host} (sends : ∀ history, host.sends history = true)
include sends

/-- A text that ends the session does. -/
theorem commandReceived_ends (session : FtpSession) {text : List UInt8} (nonzero : 0 ∉ text)
    (ends : endsSession text = true) :
    (host.commandReceived session (.data text)).pc = .finished 0 := by
  simp only [commandReceived, fillBufferWithResponse_data nonzero]
  split
  · rfl
  · rename_i notLong
    have exit := (of_decide_eq_true ends).resolve_right notLong
    simp only [interpret, FtpCommand.parse_of_mem_exit text exit, giveFeedback, sends, if_true]
    rfl

theorem commandReceived_stays (session : FtpSession) {text : List UInt8} (nonzero : 0 ∉ text)
    (stays : endsSession text = false) (noUpload : text ∉ cmdUpload)
    (noDownload : text ∉ cmdDownload) :
    (host.commandReceived session (.data text)).pc = .command := by
  have stays' := not_or.mp (of_decide_eq_false stays)
  have other (command : FtpCommand) (valid : command ≠ .invalid) (unlisted : text ∉ command.texts) :
      FtpCommand.parse text ≠ command := by
    rintro rfl
    exact unlisted (FtpCommand.mem_texts valid)
  simp only [commandReceived, fillBufferWithResponse_data nonzero]
  rw [if_neg stays'.2]
  exact (host.interpret_returns _ (other .upload (by decide) noUpload)
    (other .download (by decide) noDownload) (other .exit (by decide) stays'.1)).prompts.pc sends

/-- A size of zero brings the prompt back whether or not the file opens; any other size needs the
file to open, and then that many bytes are read. -/
theorem uploadFilesizeReceived_pc (session : FtpSession) (filename : List UInt8) {text : List UInt8}
    (nonzero : 0 ∉ text) {filesize : Nat} (size : (Decimal.atoi text).toNat = filesize)
    (opens : 0 < filesize → (host.disk (session.history ++
      [.read .uploadFilesize (.data text)])).openWrite (uploadPath filename) = true) :
    (host.uploadFilesizeReceived session filename (.data text)).pc =
      if 0 < filesize then .content (uploadPath filename) filesize [] else .command := by
  simp only [uploadFilesizeReceived, fillBufferWithResponse_data nonzero, size,
    FtpSession.record_history]
  rw [if_neg (by omega), if_neg (not_maxFileSize_lt_atoi text)]
  by_cases positive : 0 < filesize
  · rw [if_pos (opens positive), receiveFile, if_pos positive, if_pos positive]
    rfl
  · rw [if_neg positive]
    split
    · rw [receiveFile, if_neg positive]
      exact (host.finishUpload_returns _ _ _).prompts.pc sends
    · exact (host.afterCommand_returns _ _ _).prompts.pc sends

theorem contentReceived_pc (session : FtpSession) (path written bytes : List UInt8)
    (remaining : Nat) :
    (host.contentReceived session path remaining written (.data bytes)).pc =
      if 0 < remaining - bytes.length then
        .content path (remaining - bytes.length) (written ++ bytes)
      else .command := by
  simp only [contentReceived, receiveFile]
  split
  · rfl
  · exact (host.finishUpload_returns _ _ _).prompts.pc sends

end Sends

end Host

/-! ## One step -/

theorem Message.bounds_of_canReturn (message : Message) {capacity count : Nat}
    (returns : message.canReturn capacity count = true) : 0 < count ∧ count ≤ capacity := by
  cases message with
  | control site text =>
      obtain ⟨positive, rfl⟩ := of_decide_eq_true returns
      exact ⟨positive, Nat.min_le_left _ _⟩
  | content bytes =>
      obtain ⟨positive, bounded⟩ := of_decide_eq_true returns
      exact ⟨positive, bounded.trans (Nat.min_le_left _ _)⟩

/-- A control message that fits is returned whole. -/
theorem Sendable.returned {text : List UInt8} (sendable : Sendable text) {site : ReadSite}
    {count : Nat} (returns : (Message.control site text).canReturn bufferSize count = true) :
    text.take count = text ∧ transmitted [(Message.control site text).drop count] = [] := by
  have whole : count = min bufferSize text.length := (of_decide_eq_true returns).2
  rw [Nat.min_eq_right sendable.fits] at whole
  subst whole
  refine ⟨List.take_length, ?_⟩
  simp [transmitted, Message.drop, Message.bytes]

/-- A control message at the head of a script is meant for the place the server reads at. -/
theorem Expects.control {pc : FtpPc} {site : ReadSite} {text : List UInt8} {later : List Message}
    (expects : Expects pc (.control site text :: later)) (reads : 0 < pc.capacity) :
    pc.site = some site ∧ pc.capacity = bufferSize ∧ Sendable text := by
  cases expects with
  | ended => exact absurd reads (Nat.lt_irrefl 0)
  | upload tail => exact ⟨rfl, rfl, sendable_upload⟩
  | download tail => exact ⟨rfl, rfl, sendable_download⟩
  | _ => exact ⟨rfl, rfl, ‹_›⟩

theorem Expects.content_site {pc : FtpPc} {bytes : List UInt8} {later : List Message}
    (expects : Expects pc (.content bytes :: later)) : pc.site = none := by
  cases expects <;> rfl

/-- The bytes of a file that are left are read where the server waits for them. -/
theorem Expects.rest {path written bytes : List UInt8} {later : List Message}
    (tail : Expects .command later) :
    Expects (if 0 < bytes.length then .content path bytes.length written else .command)
      (transmitted [.content bytes] ++ later) := by
  cases bytes with
  | nil => exact tail
  | cons byte bytes => exact .content (List.cons_ne_nil byte bytes) tail

/-- What a `recv` reads and what it leaves are what was in flight. -/
theorem Expects.reads {pc : FtpPc} {message : Message} {later : List Message} {count : Nat}
    (expects : Expects pc (message :: later))
    (returns : message.canReturn pc.capacity count = true) :
    (pc.site.map (·, message.bytes.take count)).toList ++
        Message.controls (transmitted [message.drop count] ++ later) =
      Message.controls (message :: later) := by
  have bounds := message.bounds_of_canReturn returns
  cases message with
  | control site text =>
      obtain ⟨here, whole, sendable⟩ := expects.control (bounds.1.trans_le bounds.2)
      rw [whole] at returns
      obtain ⟨taken, nothing⟩ := sendable.returned returns
      rw [here, nothing, Message.bytes, taken]
      rfl
  | content bytes =>
      rw [expects.content_site, controls_append, Message.drop, controls_content]
      rfl

/-- A control message that arrives whole brings the session to where the rest of the script is
read. -/
theorem Expects.receive_control {host : Host} (sends : ∀ history, host.sends history = true)
    {session : FtpSession} {site : ReadSite} {text : List UInt8} {later : List Message}
    (expects : Expects session.pc (.control site text :: later)) (reads : 0 < session.pc.capacity)
    (opens : ∀ filename, session.pc = .uploadFilesize filename →
      0 < Decimal.atoi (CString.text text) → (host.disk (session.history ++
        [.read .uploadFilesize (.data text)])).openWrite (uploadPath filename) = true) :
    Expects (host.advance session (.data text)).pc later ∧
      (host.advance session (.data text)).pc ≠ .name ∧
      ((host.advance session (.data text)).pc = .finished 0 → session.pc = .command) := by
  rw [Host.advance]
  generalize session.pc = pc at expects reads opens
  cases expects with
  | name sendable tail =>
      simp only [Host.nameReceived, (host.welcomeClient_returns _).prompts.pc sends]
      exact ⟨tail, by simp, by simp⟩
  | ended => exact absurd reads (Nat.lt_irrefl 0)
  | last sendable ends unread =>
      simp only [Host.commandReceived_ends sends session sendable.nonzero ends]
      exact ⟨.ended _, by simp, fun _ => trivial⟩
  | plain sendable stays noUpload noDownload tail =>
      simp only [Host.commandReceived_stays sends session sendable.nonzero stays noUpload
        noDownload]
      exact ⟨tail, by simp, by simp⟩
  | upload tail =>
      have there : (host.commandReceived session (.data (literal "--upload"))).pc =
          .uploadFilename := rfl
      simp only [there]
      exact ⟨tail, by simp, by simp⟩
  | uploadFilename sendable tail =>
      simp only [Host.uploadFilenameReceived, fillBufferWithResponse_data sendable.nonzero]
      rw [if_neg (by omega)]
      exact ⟨tail, by simp, by simp⟩
  | @uploadFilesize filename text bytes later sendable size tail =>
      have opens' := opens filename rfl
      rw [CString.text_eq_self sendable.nonzero] at opens'
      simp only [Host.uploadFilesizeReceived_pc sends session filename sendable.nonzero size
        (fun positive => opens' (by omega))]
      refine ⟨tail.rest, ?_, ?_⟩ <;> split <;> simp
  | download tail =>
      have there : (host.commandReceived session (.data (literal "--download"))).pc =
          .downloadFilename := rfl
      simp only [there]
      exact ⟨tail, by simp, by simp⟩
  | downloadFilename sendable tail =>
      simp only [(host.downloadFile_returns _ _).prompts.pc sends]
      exact ⟨tail, by simp, by simp⟩

/-- A part of the bytes of a file leaves the session waiting for the others. -/
theorem Expects.receive_content {host : Host} (sends : ∀ history, host.sends history = true)
    {session : FtpSession} {bytes : List UInt8} {later : List Message} (count : Nat)
    (expects : Expects session.pc (.content bytes :: later)) (reads : 0 < session.pc.capacity) :
    Expects (host.advance session (.data (bytes.take count))).pc
        (transmitted [.content (bytes.drop count)] ++ later) ∧
      (host.advance session (.data (bytes.take count))).pc ≠ .name ∧
      ((host.advance session (.data (bytes.take count))).pc = .finished 0 →
        session.pc = .command) := by
  rw [Host.advance]
  generalize session.pc = pc at expects reads
  cases expects with
  | ended => exact absurd reads (Nat.lt_irrefl 0)
  | @content path written bytes later nonempty tail =>
      have left : bytes.length - (bytes.take count).length = (bytes.drop count).length := by
        rw [List.length_take, List.length_drop]
        omega
      simp only [Host.contentReceived_pc sends, left]
      refine ⟨tail.rest, ?_, ?_⟩ <;> split <;> simp

/-- A `recv` takes what it returns off the script.  The name is not asked for again, and only a
command ends the session. -/
theorem Expects.receive {host : Host} (sends : ∀ history, host.sends history = true)
    {session : FtpSession} {message : Message} {later : List Message} {count : Nat}
    (expects : Expects session.pc (message :: later))
    (returns : message.canReturn session.pc.capacity count = true)
    (opens : ∀ filename, session.pc = .uploadFilesize filename →
      0 < Decimal.atoi (CString.text message.bytes) → (host.disk (session.history ++
        [.read .uploadFilesize (.data message.bytes)])).openWrite (uploadPath filename) = true) :
    Expects (host.advance session (.data (message.bytes.take count))).pc
        (transmitted [message.drop count] ++ later) ∧
      (host.advance session (.data (message.bytes.take count))).pc ≠ .name ∧
      ((host.advance session (.data (message.bytes.take count))).pc = .finished 0 →
        session.pc = .command) := by
  have bounds := message.bounds_of_canReturn returns
  have reads : 0 < session.pc.capacity := bounds.1.trans_le bounds.2
  cases message with
  | control site text =>
      obtain ⟨-, whole, sendable⟩ := expects.control reads
      rw [whole] at returns
      obtain ⟨taken, nothing⟩ := sendable.returned returns
      rw [nothing, Message.bytes, taken]
      exact expects.receive_control sends reads opens
  | content bytes => exact expects.receive_content sends count reads

end CmyMessage
