import CmyMessage.FileTransfer.Terminal

/-!
# Faithful transfers

Over whole conversations, the files the server stores are the ones the client has uploaded, and the
files the client writes are what the server had under the names typed for them.  The script in
flight carries the uploads that are still to be stored; a download is alone on both streams from the
line typed for it to the last byte of its file.
-/

namespace CmyMessage

/-! ## What the server stores -/

theorem storedFiles_append (front back : List FtpEvent) :
    storedFiles (front ++ back) = storedFiles front ++ storedFiles back :=
  List.filterMap_append

theorem storedFiles_silent {events : List FtpEvent}
    (silent : ∀ event ∈ events, event.isSilent = true) : storedFiles events = [] := by
  apply List.filterMap_eq_nil_iff.mpr
  intro event member
  have quiet := silent event member
  cases event with
  | stored path content => cases quiet
  | _ => rfl

theorem FtpSession.Grows.storedFiles {before after : FtpSession}
    (grows : before.Grows FtpEvent.isSilent after) :
    storedFiles after.history = CmyMessage.storedFiles before.history := by
  obtain ⟨events, grown, silent⟩ := grows
  rw [grown, storedFiles_append, storedFiles_silent silent, List.append_nil]

theorem storedFiles_read (session : FtpSession) (site : ReadSite) (result : RecvResult) :
    storedFiles (session.record (.read site result)).history = storedFiles session.history := by
  rw [FtpSession.record_history, storedFiles_append]
  exact List.append_nil _

/-- What a `recv` that returns data stores. -/
def Host.stores (host : Host) (session : FtpSession) (bytes : List UInt8) :
    List (List UInt8 × List UInt8) :=
  match session.pc with
  | .uploadFilesize filename =>
      if (Decimal.atoi (CString.text bytes)).toNat = 0 ∧ (host.disk (session.history ++
          [.read .uploadFilesize (.data bytes)])).openWrite (uploadPath filename) = true then
        [(uploadPath filename, [])]
      else []
  | .content path remaining written =>
      if 0 < remaining - bytes.length then [] else [(path, written ++ bytes)]
  | _ => []

namespace Host

variable (host : Host)

theorem receiveFile_storedFiles (session : FtpSession) (path : List UInt8) (remaining : Nat)
    (written : List UInt8) :
    storedFiles (host.receiveFile session path remaining written).history =
      storedFiles session.history ++ if 0 < remaining then [] else [(path, written)] := by
  rw [receiveFile]
  split
  · exact (List.append_nil _).symm
  · rw [(host.finishUpload_replies session path written).silent.storedFiles,
      FtpSession.record_history, storedFiles_append]
    rfl

/-- The size of an upload is neither missing nor too large. -/
theorem uploadFilesizeReceived_data (session : FtpSession) (filename bytes : List UInt8) :
    host.uploadFilesizeReceived session filename (.data bytes) =
      let opened := (session.record (.read .uploadFilesize (.data bytes))).record
        (.openedForWriting (uploadPath filename))
      if (host.disk (session.history ++ [.read .uploadFilesize (.data bytes)])).openWrite
          (uploadPath filename) = true then
        host.receiveFile opened (uploadPath filename)
          (Decimal.atoi (CString.text bytes)).toNat []
      else
        host.afterCommand
          (opened.send ((literal "File '" ++ filename ++ literal "' may already exist.\n").take
            (bufferSize - 1)))
          .upload (if host.sends opened.history then -5 else -4) := by
  have counted : ¬ (bytes.length : Int) < 0 := by omega
  simp only [uploadFilesizeReceived, fillBufferWithResponse]
  exact (if_neg counted).trans (if_neg (not_maxFileSize_lt_atoi _))

theorem storedFiles_advance (session : FtpSession) (bytes : List UInt8) :
    storedFiles (host.advance session (.data bytes)).history =
      storedFiles session.history ++ host.stores session bytes := by
  rw [advance, stores]
  cases position : session.pc with
  | name =>
      have replied := (host.welcomeClient_replies { session.record (.read .name (.data bytes)) with
        name := CString.text bytes }).silent.storedFiles
      exact replied.trans ((storedFiles_read session _ _).trans (List.append_nil _).symm)
  | command =>
      simp only [commandReceived, List.append_nil]
      split
      · exact storedFiles_read session _ _
      · rw [(host.interpret_grows _ _).silent.storedFiles, FtpSession.record_history,
          storedFiles_append, storedFiles_read]
        exact List.append_nil _
  | uploadFilename =>
      simp only [uploadFilenameReceived, List.append_nil]
      split
      · rw [(host.afterCommand_replies _ _ _).silent.storedFiles, storedFiles_read]
      · exact storedFiles_read session _ _
  | uploadFilesize filename =>
      have read := storedFiles_read session .uploadFilesize (.data bytes)
      rw [FtpSession.record_history] at read
      simp only [uploadFilesizeReceived_data]
      split
      · rename_i opens
        rw [receiveFile_storedFiles, FtpSession.record_history, storedFiles_append,
          FtpSession.record_history, read]
        by_cases more : 0 < (Decimal.atoi (CString.text bytes)).toNat
        · rw [if_pos more, if_neg fun empty => by omega]
          exact List.append_nil _
        · rw [if_neg more, if_pos ⟨by omega, opens⟩]
          exact congrArg (· ++ _) (List.append_nil _)
      · rename_i closed
        rw [(host.afterCommand_replies _ _ _).silent.storedFiles,
          (FtpSession.send_replies _ _).silent.storedFiles, FtpSession.record_history,
          storedFiles_append, FtpSession.record_history, read, if_neg fun opens => closed opens.2]
        rfl
  | downloadFilename =>
      rw [(host.downloadFile_silent _ _).storedFiles, storedFiles_read, List.append_nil]
  | content path remaining written =>
      exact host.receiveFile_storedFiles _ _ _ _
  | finished status => exact (List.append_nil _).symm
  | exited => exact (List.append_nil _).symm
  | aborted => exact (List.append_nil _).symm

end Host

/-! ## The uploads in flight -/

/-- The messages in flight, outside a download, with the files the server stores when it has read
them.  Nothing is stored of what follows a command that ends the session. -/
inductive Carries : FtpPc → List Message → List (List UInt8 × List UInt8) → Prop
  | unnamed : Carries .name [] []
  | name {text : List UInt8} {later : List Message} {stores : List (List UInt8 × List UInt8)}
      (tail : Carries .command later stores) : Carries .name (.control .name text :: later) stores
  | idle : Carries .command [] []
  | ended (unread : List Message) (stores : List (List UInt8 × List UInt8))
      (settled : unread = [] → stores = []) : Carries (.finished 0) unread stores
  | last {text : List UInt8} (ends : endsSession text = true) (unread : List Message)
      (stores : List (List UInt8 × List UInt8)) (settled : unread = [] → stores = []) :
      Carries .command (.control .command text :: unread) stores
  | plain {text : List UInt8} {later : List Message} {stores : List (List UInt8 × List UInt8)}
      (stays : endsSession text = false) (noUpload : text ∉ cmdUpload)
      (noDownload : text ∉ cmdDownload) (tail : Carries .command later stores) :
      Carries .command (.control .command text :: later) stores
  | upload {later : List Message} {stores : List (List UInt8 × List UInt8)}
      (tail : Carries .uploadFilename later stores) :
      Carries .command (.control .command (literal "--upload") :: later) stores
  | uploadFilename {text : List UInt8} {later : List Message}
      {stores : List (List UInt8 × List UInt8)}
      (tail : Carries (.uploadFilesize (withoutNewline text)) later stores) :
      Carries .uploadFilename (.control .uploadFilename text :: later) stores
  | uploadFilesize {filename text bytes : List UInt8} {later : List Message}
      {stores : List (List UInt8 × List UInt8)} (size : (Decimal.atoi text).toNat = bytes.length)
      (tail : Carries .command later stores) :
      Carries (.uploadFilesize filename)
        (.control .uploadFilesize text :: (transmitted [.content bytes] ++ later))
        ((uploadPath filename, bytes) :: stores)
  | content {path written bytes : List UInt8} {later : List Message}
      {stores : List (List UInt8 × List UInt8)} (tail : Carries .command later stores) :
      Carries (.content path bytes.length written) (.content bytes :: later)
        ((path, written ++ bytes) :: stores)

/-- When nothing is in flight, everything is stored. -/
theorem Carries.settled {pc : FtpPc} {stores : List (List UInt8 × List UInt8)}
    (carries : Carries pc [] stores) : stores = [] := by
  cases carries with
  | unnamed => rfl
  | idle => rfl
  | ended _ _ settles => exact settles rfl

/-- When nothing is in flight, the server is not in the middle of a file. -/
theorem Carries.closed {pc : FtpPc} {stores : List (List UInt8 × List UInt8)}
    (carries : Carries pc [] stores) (path : List UInt8) (remaining : Nat)
    (written : List UInt8) : pc ≠ .content path remaining written := by
  cases carries <;> exact FtpPc.noConfusion

/-- The uploads of a script are followed by those of another. -/
theorem Carries.append {pc : FtpPc} {messages block : List Message}
    {stores others : List (List UInt8 × List UInt8)} (carries : Carries pc messages stores)
    (named : pc = .name → messages ≠ []) (following : Carries .command block others) :
    Carries pc (messages ++ block) (stores ++ others) := by
  have settles {unread : List Message} {stores : List (List UInt8 × List UInt8)}
      (settled : unread = [] → stores = []) (nothing : unread ++ block = []) :
      stores ++ others = [] := by
    obtain ⟨rfl, rfl⟩ := List.append_eq_nil_iff.mp nothing
    rw [settled rfl, following.settled]
    rfl
  induction carries with
  | unnamed => exact absurd rfl (named rfl)
  | name tail ih => exact .name (ih (by simp))
  | idle => exact following
  | ended unread stores settled => exact .ended _ _ (settles settled)
  | last ends unread stores settled => exact .last ends _ _ (settles settled)
  | plain stays noUpload noDownload tail ih => exact .plain stays noUpload noDownload (ih (by simp))
  | upload tail ih => exact .upload (ih (by simp))
  | uploadFilename tail ih => exact .uploadFilename (ih (by simp))
  | uploadFilesize size tail ih =>
      rw [List.cons_append, List.append_assoc]
      exact .uploadFilesize size (ih (by simp))
  | content tail ih => exact .content (ih (by simp))

/-- The rest of a file is stored together with what is written of it. -/
theorem Carries.rest {path written bytes : List UInt8} {later : List Message}
    {stores : List (List UInt8 × List UInt8)} (tail : Carries .command later stores) :
    Carries (if 0 < bytes.length then .content path bytes.length written else .command)
      (transmitted [.content bytes] ++ later)
      ((if 0 < bytes.length then [(path, written ++ bytes)] else []) ++ stores) := by
  cases bytes with
  | nil => exact tail
  | cons byte bytes => exact .content tail

/-- A control message that arrives whole stores what it completes. -/
theorem Carries.receive_control {host : Host} (sends : ∀ history, host.sends history = true)
    {session : FtpSession} {site : ReadSite} {text : List UInt8} {later : List Message}
    {stores : List (List UInt8 × List UInt8)}
    (carries : Carries session.pc (.control site text :: later) stores)
    (sendable : Sendable text) (reads : 0 < session.pc.capacity)
    (opens : ∀ filename, session.pc = .uploadFilesize filename → (host.disk (session.history ++
      [.read .uploadFilesize (.data text)])).openWrite (uploadPath filename) = true) :
    ∃ others, Carries (host.advance session (.data text)).pc later others ∧
      host.stores session text ++ others = stores := by
  rw [Host.advance, Host.stores]
  generalize session.pc = pc at carries reads opens
  cases carries with
  | name tail =>
      simp only [Host.nameReceived, (host.welcomeClient_returns _).prompts.pc sends]
      exact ⟨stores, tail, rfl⟩
  | ended => exact absurd reads (Nat.lt_irrefl 0)
  | last ends _ _ settled =>
      simp only [Host.commandReceived_ends sends session sendable.nonzero ends]
      exact ⟨stores, .ended _ _ settled, rfl⟩
  | plain stays noUpload noDownload tail =>
      simp only [Host.commandReceived_stays sends session sendable.nonzero stays noUpload
        noDownload]
      exact ⟨stores, tail, rfl⟩
  | upload tail => exact ⟨stores, tail, rfl⟩
  | uploadFilename tail =>
      simp only [Host.uploadFilenameReceived, fillBufferWithResponse_data sendable.nonzero]
      rw [if_neg (by omega)]
      exact ⟨stores, tail, rfl⟩
  | @uploadFilesize filename text bytes later stores size tail =>
      simp only [Host.uploadFilesizeReceived_pc sends session filename sendable.nonzero size
        (fun _ => opens filename rfl), CString.text_eq_self sendable.nonzero, size,
        opens filename rfl]
      refine ⟨_, tail.rest, ?_⟩
      cases bytes <;> rfl

/-- A part of the bytes of a file is written, and the last part stores it. -/
theorem Carries.receive_content {host : Host} (sends : ∀ history, host.sends history = true)
    {session : FtpSession} {bytes : List UInt8} {later : List Message} (count : Nat)
    {stores : List (List UInt8 × List UInt8)}
    (carries : Carries session.pc (.content bytes :: later) stores)
    (reads : 0 < session.pc.capacity) :
    ∃ others, Carries (host.advance session (.data (bytes.take count))).pc
        (transmitted [.content (bytes.drop count)] ++ later) others ∧
      host.stores session (bytes.take count) ++ others = stores := by
  rw [Host.advance, Host.stores]
  generalize session.pc = pc at carries reads
  cases carries with
  | ended => exact absurd reads (Nat.lt_irrefl 0)
  | @content path written bytes later stores tail =>
      have left : bytes.length - (bytes.take count).length = (bytes.drop count).length := by
        rw [List.length_take, List.length_drop]
        omega
      simp only [Host.contentReceived_pc sends, left]
      refine ⟨_, tail.rest, ?_⟩
      split
      · rw [List.append_assoc, List.take_append_drop]
        rfl
      · have all : bytes.take count = bytes := List.take_of_length_le (by
          rw [List.length_drop] at *
          omega)
        rw [all]
        rfl

theorem upload_ne_download : ∀ text ∈ cmdDownload, text ∉ cmdUpload := by
  decide +kernel

/-- A control message at the head of a script is read whole. -/
theorem Expects.received_whole {pc : FtpPc} {site : ReadSite} {text : List UInt8}
    {later : List Message} {count : Nat} (expects : Expects pc (.control site text :: later))
    (returns : (Message.control site text).canReturn pc.capacity count = true) :
    text.take count = text ∧ transmitted [(Message.control site text).drop count] = [] := by
  have bounds := (Message.control site text).bounds_of_canReturn returns
  obtain ⟨-, whole, sendable⟩ := expects.control (bounds.1.trans_le bounds.2)
  rw [whole] at returns
  exact sendable.returned returns

/-- A `recv` takes what it returns off the script, and what it completes is stored. -/
theorem Carries.receive {host : Host} (sends : ∀ history, host.sends history = true)
    {session : FtpSession} {message : Message} {later : List Message} {count : Nat}
    {stores : List (List UInt8 × List UInt8)}
    (carries : Carries session.pc (message :: later) stores)
    (expects : Expects session.pc (message :: later))
    (returns : message.canReturn session.pc.capacity count = true)
    (opens : ∀ filename, session.pc = .uploadFilesize filename → (host.disk (session.history ++
      [.read .uploadFilesize (.data message.bytes)])).openWrite (uploadPath filename) = true) :
    ∃ others, Carries (host.advance session (.data (message.bytes.take count))).pc
        (transmitted [message.drop count] ++ later) others ∧
      storedFiles (host.advance session (.data (message.bytes.take count))).history ++ others =
        storedFiles session.history ++ stores := by
  have bounds := message.bounds_of_canReturn returns
  have reads : 0 < session.pc.capacity := bounds.1.trans_le bounds.2
  have stored : ∃ others, Carries (host.advance session (.data (message.bytes.take count))).pc
      (transmitted [message.drop count] ++ later) others ∧
      host.stores session (message.bytes.take count) ++ others = stores := by
    cases message with
    | control site text =>
        obtain ⟨taken, nothing⟩ := expects.received_whole returns
        rw [nothing, Message.bytes, taken]
        exact carries.receive_control sends (expects.control reads).2.2 reads opens
    | content bytes => exact carries.receive_content sends count reads
  obtain ⟨others, carried, rfl⟩ := stored
  exact ⟨others, carried, by rw [Host.storedFiles_advance, List.append_assoc]⟩

/-- A script without a download does not lead to the name of a file to download. -/
theorem Carries.ne_downloadFilename {pc : FtpPc} {messages : List Message}
    {stores : List (List UInt8 × List UInt8)} (carries : Carries pc messages stores) :
    pc ≠ .downloadFilename := by
  cases carries <;> exact FtpPc.noConfusion

namespace FtpClient.Round

/-- What an upload that completes sends, and that the server reads its size. -/
theorem upload_script (round : Round) (upload : round.buffer ∈ cmdUpload)
    (completes : round.completes = true) :
    (Decimal.atoi (Decimal.ofInt round.filesize)).toNat = round.content.length ∧
      transmitted (round.messages .command) =
        .control .command (literal "--upload") :: .control .uploadFilename round.filename ::
          .control .uploadFilesize (Decimal.ofInt round.filesize) ::
            transmitted [.content round.content] := by
  rw [Round.completes, if_pos upload] at completes
  rw [messages, if_pos upload, content, filesize, filename]
  cases answered : round.answer with
  | none =>
      rw [answered] at completes
      cases completes
  | some line =>
      rw [answered] at completes
      obtain ⟨nonempty, natural, bounded, size⟩ := of_decide_eq_true completes
      have sent := uploadFile_eq round.opened rfl rfl natural bounded
      rw [Option.getD_some]
      generalize getFileSize round.checked _ = filesize at *
      rw [maxFileSize] at bounded
      refine ⟨?_, ?_⟩
      · rw [Decimal.atoi_ofInt (by omega) (by omega)]
        exact size
      · rw [sent, ← transmitted_content]
        simp [transmitted, Message.bytes, nonempty, Decimal.ofInt_ne_nil, sendable_upload.nonempty]

/-- What a download that completes sends. -/
theorem download_script (round : Round) (download : round.buffer ∈ cmdDownload)
    (completes : round.completes = true) :
    transmitted (round.messages .command) =
      [.control .command (literal "--download"), .control .downloadFilename round.target] := by
  have noUpload := upload_ne_download _ download
  rw [Round.completes, if_neg noUpload, if_pos download, decide_eq_true_eq] at completes
  rw [messages, if_neg noUpload, if_pos download]
  simp [transmitted, downloadFile, target, Message.bytes, completes, sendable_download.nonempty]

/-- A line that asks for no download is a script that carries its upload. -/
theorem messages_carries (round : Round) (completes : round.completes = true)
    (noDownload : round.buffer ∉ cmdDownload)
    (named : round.buffer ∈ cmdUpload → 10 ∉ round.filename) :
    Carries .command (transmitted (round.messages .command)) round.upload.toList := by
  by_cases upload : round.buffer ∈ cmdUpload
  · obtain ⟨size, sent⟩ := round.upload_script upload completes
    rw [sent, ← List.append_nil (transmitted [.content round.content]), Round.upload,
      if_pos upload]
    have whole := withoutNewline_eq_self (named upload)
    refine .upload (.uploadFilename ?_)
    rw [whole]
    exact .uploadFilesize size .idle
  · rw [round.messages_plain (decide_eq_false (not_or.mpr ⟨upload, noDownload⟩)), Round.upload,
      if_neg upload]
    split
    · exact .idle
    · cases ends : endsSession round.buffer with
      | true => exact .last ends [] [] fun _ => rfl
      | false => exact .plain ends upload noDownload .idle

end FtpClient.Round

namespace Conversation

/-- Before anything was typed, nothing is in flight. -/
theorem Follows.unnamed {conversation : Conversation} (follows : conversation.Follows)
    (first : conversation.sent = []) :
    conversation.session.pc = .name ∧ conversation.inFlight = [] := by
  have silence := follows.reads
  rw [first, List.append_eq_nil_iff] at silence
  have here := follows.named.mpr silence.1
  have expects := follows.expects
  rw [here] at expects
  exact ⟨here, expects.silent silence.2⟩

/-- The name that the server waits for is in flight once it was typed. -/
theorem Follows.asks {conversation : Conversation} (follows : conversation.Follows)
    (later : conversation.sent ≠ []) (here : conversation.session.pc = .name) :
    conversation.inFlight ≠ [] := by
  intro nothing
  apply later
  rw [← follows.reads, follows.named.mp here, nothing]
  rfl

end Conversation

/-! ## The reply to a file name -/

theorem sentTexts_append (front back : List FtpEvent) :
    sentTexts (front ++ back) = sentTexts front ++ sentTexts back := List.filterMap_append

theorem sentTexts_flatten (history : List FtpEvent) :
    (sentTexts history).flatten = sentBytes history := by
  induction history with
  | nil => rfl
  | cons event history ih =>
      have here : sentTexts (event :: history) = sentTexts [event] ++ sentTexts history :=
        sentTexts_append [event] history
      have bytes : sentBytes (event :: history) = sentBytes [event] ++ sentBytes history :=
        sentBytes_append [event] history
      rw [here, bytes, List.flatten_append, ih]
      cases event with
      | sent text => simp [sentTexts, sentBytes]
      | _ => rfl

theorem sentTexts_sendFile (session : FtpSession) (content : List UInt8) (filesize : Int) :
    sentTexts (sendFile session content filesize).history =
      sentTexts session.history ++ chunks filesize.toNat filesize.toNat content := by
  rw [sendFile]
  generalize chunks filesize.toNat filesize.toNat content = pieces
  induction pieces generalizing session with
  | nil => exact (List.append_nil _).symm
  | cons piece pieces ih =>
      rw [List.foldl_cons, ih, FtpSession.send_history, sentTexts_append, List.append_assoc]
      rfl

/-- Where everything before a text was taken, the text is the next one. -/
theorem unreadText_append (front : List (List UInt8)) {text : List UInt8} (nonempty : text ≠ [])
    (back : List (List UInt8)) :
    unreadText front.flatten.length (front ++ text :: back) = text := by
  induction front with
  | nil => exact if_pos (List.length_pos_of_ne_nil nonempty)
  | cons other front ih =>
      rw [List.cons_append, unreadText, List.flatten_cons, List.length_append,
        if_neg (by omega), Nat.add_sub_cancel_left]
      exact ih

namespace Host

variable {host : Host} (sends : ∀ history, host.sends history = true)

theorem sentTexts_afterCommand (host : Host) (session : FtpSession) (command : FtpCommand)
    (status : Int) :
    sentTexts (host.afterCommand session command status).history =
      sentTexts session.history ++ [literal "> "] := by
  rw [afterCommand, promptCommand_history, sentTexts_append, FtpSession.record_history,
    sentTexts_append]
  exact congrArg (· ++ _) (List.append_nil _)

include sends in
/-- The reply to a file name starts with a text that is read as the length of what was found under
it, and goes on with that. -/
theorem downloadFile_replies (session : FtpSession) {message : List UInt8}
    (measured : getFileSize (host.disk (session.record
        (.read .downloadFilename (.data message))).history)
          (downloadPath (CString.text message)) < 0 ∨
      ∃ content, host.found session message = some content ∧ content.length < 2 ^ 31 ∧
        getFileSize (host.disk (session.record (.read .downloadFilename (.data message))).history)
          (downloadPath (CString.text message)) = content.length) :
    ∃ first back later, first ≠ [] ∧ first.length ≤ bufferSize ∧
      sentTexts (host.downloadFile (session.record (.read .downloadFilename (.data message)))
        (CString.text message)).history = sentTexts session.history ++ first :: back ∧
      back.flatten = (host.found session message).getD [] ++ later ∧
      (Decimal.atoi (CString.text first)).toNat =
        ((host.found session message).getD []).length := by
  rcases measured with missing | ⟨content, found, bounded, size⟩
  · refine ⟨literal "> ", [], [], by decide, by decide, ?_, ?_, ?_⟩
    · simp only [downloadFile]
      rw [if_pos missing, sentTexts_afterCommand]
      exact congrArg (· ++ _) (by simp [sentTexts])
    · rw [show host.found session message = none from if_pos missing]
      rfl
    · rw [show host.found session message = none from if_pos missing]
      decide +kernel
  · refine ⟨Decimal.ofInt content.length, chunks content.length content.length content ++
      [literal "> "], literal "> ", Decimal.ofInt_ne_nil _, ?_, ?_, ?_, ?_⟩
    · exact (Decimal.ofInt_length_le 10 (by decide) (by omega) (by omega)).trans (by decide)
    · rw [Host.found] at found
      simp only [size] at found
      rw [if_neg (by omega)] at found
      have printed : (Decimal.ofInt content.length).length ≤ maxNumAlgsFilesize - 1 :=
        Decimal.ofInt_length_le _ (by decide) (by omega) (by
          rw [maxNumAlgsFilesize]
          omega)
      simp only [downloadFile, size]
      rw [if_neg (by omega), if_neg (by simp [sends]), found]
      simp only [sentTexts_afterCommand, sentTexts_sendFile,
        Decimal.toInt32_eq_self (show -2 ^ 31 ≤ (content.length : Int) by omega) (by omega),
        Int.toNat_natCast, List.take_of_length_le printed]
      simp [sentTexts]
    · rw [List.flatten_append, chunks_flatten (Nat.le_refl _), List.take_length, found]
      rfl
    · rw [CString.text_eq_self (Decimal.zero_notMem_ofInt _),
        Decimal.atoi_ofInt (by omega) (by omega), Decimal.toInt32_eq_self (by omega) (by omega),
        found]
      rfl

end Host

/-! ## The state of the transfers -/

namespace Terminal

/-- How far a download of the client has come, from its own position. -/
inductive Fetches (terminal : Terminal) (filename : List UInt8) : FtpClient.DownloadPc → Prop
  /-- The command and the name are in flight. -/
  | asked (prompts : terminal.session.pc = .command)
      (flight : terminal.conversation.inFlight =
        [.control .command (literal "--download"), .control .downloadFilename filename])
      (read : terminal.unread = []) (fetched : terminal.fetched = terminal.files) :
      Fetches terminal filename .filesize
  /-- The name is in flight. -/
  | named (asks : terminal.session.pc = .downloadFilename)
      (flight : terminal.conversation.inFlight = [.control .downloadFilename filename])
      (read : terminal.unread = []) (fetched : terminal.fetched = terminal.files) :
      Fetches terminal filename .filesize
  /-- The reply is there. -/
  | answered {first content later : List UInt8} (prompts : terminal.session.pc = .command)
      (flight : terminal.conversation.inFlight = [])
      (stream : terminal.unread = first ++ (content ++ later))
      (border : unreadText terminal.taken (sentTexts terminal.session.history) = first)
      (size : (Decimal.atoi (CString.text first)).toNat = content.length)
      (fetched : terminal.fetched = terminal.files ++ [(filename, content)])
      (nonempty : first ≠ []) (fits : first.length ≤ bufferSize) :
      Fetches terminal filename .filesize
  /-- A part of the content is still to be taken. -/
  | copying {rest later written : List UInt8} (prompts : terminal.session.pc = .command)
      (flight : terminal.conversation.inFlight = []) (stream : terminal.unread = rest ++ later)
      (fetched : terminal.fetched = terminal.files ++ [(filename, written ++ rest)])
      (nonempty : rest ≠ []) : Fetches terminal filename (.content rest.length written)

/-- Either the client does not download, and the uploads typed are stored or in flight; or it does,
and all of them are stored. -/
inductive Transfers (terminal : Terminal) : Prop
  | apart {stores : List (List UInt8 × List UInt8)}
      (elsewhere : ∀ filename pc, terminal.pc ≠ .download filename pc)
      (carries : Carries terminal.session.pc terminal.conversation.inFlight stores)
      (stored : storedFiles terminal.session.history ++ stores = terminal.uploads)
      (fetched : terminal.fetched = terminal.files) : Transfers terminal
  | fetching {filename : List UInt8} {pc : FtpClient.DownloadPc}
      (here : terminal.pc = .download filename pc)
      (stored : storedFiles terminal.session.history = terminal.uploads)
      (fetches : terminal.Fetches filename pc) : Transfers terminal

/-- What holds after steps that keep the transfers faithful. -/
structure Sound (terminal : Terminal) : Prop where
  /-- Client and server are in phase. -/
  follows : terminal.conversation.Follows
  /-- The client has taken no more than was sent. -/
  bounded : terminal.taken ≤ (sentBytes terminal.session.history).length
  transfers : terminal.Transfers

/-! ### A line is typed -/

theorem type_elsewhere {terminal : Terminal} (waits : terminal.pc = .select)
    {round : FtpClient.Round} (noDownload : round.buffer ∉ cmdDownload) :
    terminal.type round =
      { terminal with
        conversation := terminal.conversation.type round
        lines := terminal.lines ++ [round]
        pc := if round.buffer ∈ cmdUpload ∧ round.sendsFile = true then .confirmation
          else .select } := by
  rw [type]
  by_cases upload : round.buffer ∈ cmdUpload
  · simp [upload]
  · simp [upload, noDownload, waits]

theorem type_download (terminal : Terminal) {round : FtpClient.Round}
    (download : round.buffer ∈ cmdDownload) (created : round.opened.openWrite round.target = true) :
    terminal.type round =
      { terminal with
        conversation := terminal.conversation.type round
        lines := terminal.lines ++ [round]
        pc := .download round.target .filesize } := by
  rw [type, if_neg (upload_ne_download _ download), if_pos download, created]
  rfl

/-- The uploads typed with one more line. -/
theorem uploads_concat (lines : List FtpClient.Round) (round : FtpClient.Round) :
    (lines ++ [round]).filterMap FtpClient.Round.upload =
      lines.filterMap FtpClient.Round.upload ++ round.upload.toList := by
  rw [List.filterMap_append]
  cases carried : round.upload <;> simp [carried]

/-- A line that asks for no download puts its upload in flight. -/
theorem carries_type {conversation : Conversation} (follows : conversation.Follows)
    {round : FtpClient.Round} {stores : List (List UInt8 × List UInt8)}
    (carries : Carries conversation.session.pc conversation.inFlight stores)
    (noDownload : round.buffer ∉ cmdDownload) (completes : round.completes = true)
    (given : round.isTransfer = true → conversation.sent ≠ [])
    (named : round.buffer ∈ cmdUpload → 10 ∉ round.filename) :
    Carries conversation.session.pc (conversation.type round).inFlight
      (stores ++ round.upload.toList) := by
  by_cases first : conversation.sent = []
  · obtain ⟨unnamed, nothing⟩ := follows.unnamed first
    have plain := Bool.eq_false_iff.mpr fun transfer => given transfer first
    have noUpload := (not_or.mp (of_decide_eq_false plain)).1
    rw [nothing] at carries
    rw [Conversation.type, Conversation.site, if_pos first, nothing, unnamed,
      round.messages_plain plain, carries.settled, FtpClient.Round.upload, if_neg noUpload]
    split
    · exact .unnamed
    · exact .name .idle
  · rw [Conversation.type, Conversation.site, if_neg first]
    exact carries.append (follows.asks first) (round.messages_carries completes noDownload named)

theorem Sound.type_elsewhere {terminal : Terminal} (sound : terminal.Sound)
    {round : FtpClient.Round} (waits : terminal.pc = .select)
    (noDownload : round.buffer ∉ cmdDownload) (completes : round.completes = true)
    (given : round.isTransfer = true → terminal.conversation.sent ≠ [])
    (named : round.buffer ∈ cmdUpload → 10 ∉ round.filename) : (terminal.type round).Sound := by
  rw [Terminal.type_elsewhere waits noDownload]
  refine ⟨sound.follows.type completes given, sound.bounded, ?_⟩
  cases sound.transfers with
  | fetching here => cases waits.symm.trans here
  | apart elsewhere carries stored fetched =>
      refine .apart ?_ (carries_type sound.follows carries noDownload completes given named) ?_
        fetched
      · intro filename pc here
        simp only at here
        split at here <;> cases here
      · rw [uploads, uploads_concat, ← List.append_assoc]
        exact congrArg (· ++ _) stored

/-- What a download adds to the messages in flight. -/
theorem flight_download {conversation : Conversation} {round : FtpClient.Round}
    (download : round.buffer ∈ cmdDownload) (completes : round.completes = true)
    (given : round.isTransfer = true → conversation.sent ≠ []) :
    (conversation.type round).inFlight = conversation.inFlight ++
      [.control .command (literal "--download"), .control .downloadFilename round.target] := by
  have first := given (decide_eq_true (.inr download))
  rw [← round.download_script download completes, Conversation.type, Conversation.site,
    if_neg first]

/-- A download typed at the server's prompt is alone on both streams. -/
theorem Sound.type_download {terminal : Terminal} (sound : terminal.Sound)
    {round : FtpClient.Round} (waits : terminal.pc = .select)
    (download : round.buffer ∈ cmdDownload) (completes : round.completes = true)
    (given : round.isTransfer = true → terminal.conversation.sent ≠ [])
    (prompts : terminal.session.pc = .command) (nothing : terminal.conversation.inFlight = [])
    (read : terminal.unread = []) (created : round.opened.openWrite round.target = true) :
    (terminal.type round).Sound := by
  rw [Terminal.type_download terminal download created]
  refine ⟨sound.follows.type completes given, sound.bounded, ?_⟩
  have noUpload := upload_ne_download _ download
  cases sound.transfers with
  | fetching here => cases waits.symm.trans here
  | apart elsewhere carries stored fetched =>
      rw [nothing] at carries
      refine .fetching rfl ?_ (.asked prompts ?_ read fetched)
      · rw [uploads, uploads_concat, FtpClient.Round.upload, if_neg noUpload]
        rw [carries.settled, List.append_nil] at stored
        exact stored.trans (List.append_nil _).symm
      · refine (flight_download download completes given).trans ?_
        rw [nothing, List.nil_append]

/-! ### The server receives -/

theorem fetches_elsewhere (host : Host) {terminal : Terminal} (count : Nat)
    (elsewhere : terminal.session.pc ≠ .downloadFilename) : terminal.fetches host count = [] := by
  rw [fetches]
  split
  · exact absurd ‹_› elsewhere
  · rfl

/-- What is unread after the server has gone on is what was unread and what it sent. -/
theorem unread_append {terminal : Terminal} (taken : terminal.unread = [])
    (bounded : terminal.taken ≤ (sentBytes terminal.session.history).length) (reply : List UInt8) :
    (sentBytes terminal.session.history ++ reply).drop terminal.taken = reply := by
  have all : terminal.taken = (sentBytes terminal.session.history).length :=
    Nat.le_antisymm bounded (List.drop_eq_nil_iff.mp taken)
  rw [all, List.drop_left]

/-- The server reads the command, and then asks for the name. -/
theorem Fetches.receive_command (host : Host) {terminal : Terminal} {filename : List UInt8}
    (prompts : terminal.session.pc = .command) (read : terminal.unread = [])
    (bounded : terminal.taken ≤ (sentBytes terminal.session.history).length)
    (fetched : terminal.fetched = terminal.files) {conversation : Conversation}
    (advanced : conversation.session =
      host.advance terminal.session (.data (literal "--download")))
    (flight : conversation.inFlight = [.control .downloadFilename filename]) :
    Fetches { terminal with conversation } filename .filesize := by
  have executed : host.advance terminal.session (.data (literal "--download")) =
      ((terminal.session.record (.read .command (.data (literal "--download")))).record
        (.executed .download)).goto .downloadFilename := by
    rw [Host.advance, prompts]
    rfl
  rw [executed] at advanced
  refine .named (congrArg FtpSession.pc advanced) flight ?_ fetched
  have quiet : sentBytes conversation.session.history =
      sentBytes terminal.session.history ++ [] := by
    rw [advanced, FtpSession.goto_history, FtpSession.record_history, FtpSession.record_history,
      sentBytes_append, sentBytes_append, List.append_assoc]
    rfl
  show (sentBytes conversation.session.history).drop terminal.taken = []
  rw [quiet, unread_append read bounded]

/-- The server reads the name, and then the reply is there. -/
theorem Fetches.receive_filename {host : Host} (sends : ∀ history, host.sends history = true)
    {terminal : Terminal} {filename : List UInt8}
    (asks : terminal.session.pc = .downloadFilename) (read : terminal.unread = [])
    (bounded : terminal.taken ≤ (sentBytes terminal.session.history).length)
    (measured : getFileSize (host.disk (terminal.session.record
        (.read .downloadFilename (.data filename))).history)
          (downloadPath (CString.text filename)) < 0 ∨
      ∃ content, host.found terminal.session filename = some content ∧ content.length < 2 ^ 31 ∧
        getFileSize (host.disk (terminal.session.record
          (.read .downloadFilename (.data filename))).history)
          (downloadPath (CString.text filename)) = content.length)
    {conversation : Conversation}
    (advanced : conversation.session = host.advance terminal.session (.data filename))
    (flight : conversation.inFlight = []) {fetched : List (List UInt8 × List UInt8)}
    (found : fetched =
      terminal.files ++ [(filename, (host.found terminal.session filename).getD [])]) :
    Fetches { terminal with conversation, fetched } filename .filesize := by
  have replied : host.advance terminal.session (.data filename) = host.downloadFile
      (terminal.session.record (.read .downloadFilename (.data filename)))
        (CString.text filename) := by
    rw [Host.advance, asks]
    rfl
  rw [replied] at advanced
  obtain ⟨first, back, later, nonempty, fits, texts, content, size⟩ :=
    Host.downloadFile_replies sends terminal.session measured
  rw [← advanced] at texts
  have all : terminal.taken = (sentTexts terminal.session.history).flatten.length := by
    rw [sentTexts_flatten]
    exact Nat.le_antisymm bounded (List.drop_eq_nil_iff.mp read)
  refine @Fetches.answered _ _ first _ later ?_ flight ?_ ?_ size found nonempty fits
  · exact (congrArg FtpSession.pc advanced).trans
      ((host.downloadFile_returns _ _).prompts.pc sends)
  · show (sentBytes conversation.session.history).drop terminal.taken = _
    rw [← sentTexts_flatten, texts, List.flatten_append, sentTexts_flatten,
      unread_append read bounded, List.flatten_cons, content]
  · show unreadText terminal.taken (sentTexts conversation.session.history) = first
    rw [texts, all]
    exact unreadText_append _ nonempty back

/-- What a `recv` of the server does to the conversation. -/
theorem receive_cases {host : Host} {terminal : Terminal} {after : Conversation} {count : Nat}
    (received : terminal.conversation.receive host count = some after) :
    ∃ message later, terminal.conversation.inFlight = message :: later ∧
      message.canReturn terminal.session.pc.capacity count = true ∧
      after.session = host.advance terminal.session (.data (message.bytes.take count)) ∧
      after.inFlight = transmitted [message.drop count] ++ later := by
  rw [Conversation.receive] at received
  cases flight : terminal.conversation.inFlight with
  | nil =>
      rw [flight] at received
      cases received
  | cons message later =>
      simp only [flight, Option.ite_none_right_eq_some, Option.some.injEq] at received
      obtain ⟨returns, rfl⟩ := received
      exact ⟨message, later, rfl, returns, rfl, rfl⟩

/-- A `recv` of the server advances a download, or reads from the uploads. -/
theorem Sound.receive {host : Host} (sends : ∀ history, host.sends history = true)
    {terminal : Terminal} (sound : terminal.Sound) {count : Nat} {conversation : Conversation}
    (guarded : terminal.keepsFiles host (.receive count) = true)
    (received : terminal.conversation.receive host count = some conversation) :
    Sound { terminal with
      conversation
      fetched := terminal.fetched ++ terminal.fetches host count } := by
  obtain ⟨inPhase, faithful⟩ := Bool.and_eq_true_iff.mp guarded
  obtain ⟨message, later, flight, returns, advanced, left⟩ := receive_cases received
  have grows : (sentBytes terminal.session.history).length ≤
      (sentBytes conversation.session.history).length := by
    obtain ⟨events, grown⟩ := host.advance_history terminal.session
      (.data (message.bytes.take count))
    rw [advanced, ← grown, sentBytes_append, List.length_append]
    exact Nat.le_add_right _ _
  refine ⟨sound.follows.receive sends inPhase received, sound.bounded.trans grows, ?_⟩
  have expects : Expects terminal.session.pc terminal.conversation.inFlight :=
    sound.follows.expects
  rw [flight] at expects faithful
  cases sound.transfers with
  | apart elsewhere carries stored fetched =>
      rw [flight] at carries
      have opens (filename : List UInt8) (pc : terminal.session.pc = .uploadFilesize filename) :
          (host.disk (terminal.session.history ++ [.read .uploadFilesize
            (.data message.bytes)])).openWrite (uploadPath filename) = true := by
        rw [pc] at faithful
        exact faithful
      obtain ⟨others, carried, same⟩ := carries.receive sends expects returns opens
      rw [← advanced] at carried same
      rw [← left] at carried
      refine .apart elsewhere carried (same.trans stored) ?_
      rw [fetches_elsewhere host count carries.ne_downloadFilename, List.append_nil]
      exact fetched
  | @fetching filename pc here stored fetches =>
      cases fetches with
      | asked prompts script read fetched =>
          obtain ⟨rfl, rfl⟩ := List.cons.inj (flight.symm.trans script)
          obtain ⟨taken, nothing⟩ := expects.received_whole returns
          rw [Message.bytes, taken] at advanced
          rw [nothing] at left
          refine .fetching here ?_ ?_
          · refine Eq.trans ?_ stored
            show storedFiles conversation.session.history = _
            rw [advanced, Host.storedFiles_advance, Host.stores, prompts, List.append_nil]
          · rw [fetches_elsewhere host count (by rw [prompts]; exact FtpPc.noConfusion),
              List.append_nil]
            exact .receive_command host prompts read sound.bounded fetched advanced left
      | named asks script read fetched =>
          obtain ⟨rfl, rfl⟩ := List.cons.inj (flight.symm.trans script)
          obtain ⟨taken, nothing⟩ := expects.received_whole returns
          rw [Message.bytes, taken] at advanced
          rw [nothing] at left
          refine .fetching here ?_ ?_
          · refine Eq.trans ?_ stored
            show storedFiles conversation.session.history = _
            rw [advanced, Host.storedFiles_advance, Host.stores, asks, List.append_nil]
          · apply Fetches.receive_filename sends asks read sound.bounded ?_ advanced left
            · rw [Terminal.fetches, asks, flight]
              simp only [Message.bytes, taken, fetched]
            · rw [asks] at faithful
              refine (Bool.or_eq_true _ _).mp faithful |>.imp of_decide_eq_true fun agrees => ?_
              simp only [Message.bytes] at agrees
              cases found : host.found terminal.session filename with
              | none =>
                  rw [found] at agrees
                  cases agrees
              | some content =>
                  rw [found] at agrees
                  obtain ⟨size, short⟩ := of_decide_eq_true agrees
                  exact ⟨content, rfl, short, size⟩
      | answered prompts script => cases flight.symm.trans script
      | copying prompts script => cases flight.symm.trans script

/-! ### The client receives -/

theorem Transfers.elsewhere {terminal : Terminal} (transfers : terminal.Transfers)
    (apart : ∀ filename pc, terminal.pc ≠ .download filename pc) :
    ∃ stores, Carries terminal.session.pc terminal.conversation.inFlight stores ∧
      storedFiles terminal.session.history ++ stores = terminal.uploads ∧
      terminal.fetched = terminal.files := by
  cases transfers with
  | apart _ carries stored fetched => exact ⟨_, carries, stored, fetched⟩
  | fetching here => exact absurd here (apart _ _)

/-- When nothing is in flight, the uploads are stored. -/
theorem Transfers.settled {terminal : Terminal} (transfers : terminal.Transfers)
    (nothing : terminal.conversation.inFlight = []) :
    storedFiles terminal.session.history = terminal.uploads := by
  cases transfers with
  | apart elsewhere carries stored fetched =>
      rw [nothing] at carries
      rw [← stored, carries.settled, List.append_nil]
  | fetching here stored fetches => exact stored

/-- During a download the server waits for the client. -/
theorem Fetches.asks {terminal : Terminal} {filename : List UInt8} {pc : FtpClient.DownloadPc}
    (fetches : terminal.Fetches filename pc) : 0 < terminal.session.pc.capacity := by
  cases fetches with
  | named asks => rw [asks]; decide
  | asked prompts => rw [prompts]; decide
  | answered prompts => rw [prompts]; decide
  | copying prompts => rw [prompts]; decide

/-- During a download the client has written what the server found before. -/
theorem Fetches.files_isPrefix {terminal : Terminal} {filename : List UInt8}
    {pc : FtpClient.DownloadPc} (fetches : terminal.Fetches filename pc) :
    terminal.files <+: terminal.fetched := by
  cases fetches with
  | asked _ _ _ fetched => exact fetched ▸ List.prefix_rfl
  | named _ _ _ fetched => exact fetched ▸ List.prefix_rfl
  | answered _ _ _ _ _ fetched _ _ => exact fetched ▸ List.prefix_append _ _
  | copying _ _ _ fetched _ => exact fetched ▸ List.prefix_append _ _

/-- The loop of `download_file` goes on with what is left, or is done with the file. -/
theorem Transfers.continueDownload {terminal : Terminal} {filename rest later written : List UInt8}
    (prompts : terminal.session.pc = .command) (flight : terminal.conversation.inFlight = [])
    (stream : terminal.unread = rest ++ later)
    (stored : storedFiles terminal.session.history = terminal.uploads)
    (fetched : terminal.fetched = terminal.files ++ [(filename, written ++ rest)]) :
    (terminal.continueDownload filename
      (FtpClient.receiveContent rest.length written)).Transfers := by
  rw [FtpClient.receiveContent]
  split
  · exact .fetching rfl stored
      (.copying prompts flight stream fetched (List.length_pos_iff.mp ‹_›))
  · rename_i done
    have nothing : rest = [] := List.length_eq_zero_iff.mp (by omega)
    subst nothing
    refine .apart (fun _ _ here => by cases here) ?_ ((List.append_nil _).trans stored) ?_
    · show Carries terminal.session.pc terminal.conversation.inFlight []
      rw [prompts, flight]
      exact .idle
    · rw [List.append_nil] at fetched
      exact fetched

/-- A `recv` of the client takes the size of a file whole, or a part of its content. -/
theorem Fetches.take {terminal : Terminal} {filename : List UInt8} {pc : FtpClient.DownloadPc}
    (stored : storedFiles terminal.session.history = terminal.uploads)
    (fetches : terminal.Fetches filename pc) {count : Nat} (positive : 0 < count)
    (asked : count ≤ pc.capacity) (there : count ≤ terminal.unread.length)
    (whole : pc = .filesize →
      count = (unreadText terminal.taken (sentTexts terminal.session.history)).length) :
    ({ terminal with taken := terminal.taken + count }.continueDownload filename
      (FtpClient.downloadReceived pc (.data (terminal.unread.take count)))).Transfers := by
  have moved : { terminal with taken := terminal.taken + count }.unread =
      terminal.unread.drop count := by
    rw [unread, unread, List.drop_drop]
    rfl
  cases fetches with
  | asked prompts flight read =>
      rw [read] at there
      exact absurd positive (Nat.not_lt.mpr there)
  | named asks flight read =>
      rw [read] at there
      exact absurd positive (Nat.not_lt.mpr there)
  | @answered first content later prompts flight stream border size fetched =>
      rw [border] at whole
      have all := whole rfl
      subst all
      rw [stream, List.take_left]
      simp only [FtpClient.downloadReceived, fillBufferWithResponse, size]
      rw [stream, List.drop_left] at moved
      exact @Transfers.continueDownload _ filename content later [] prompts flight moved stored
        fetched
  | @copying rest later written prompts flight stream fetched =>
      have part : count ≤ rest.length := asked.trans (Nat.min_le_left _ _)
      have counted : (rest.take count).length = count := by
        rw [List.length_take]
        omega
      have left : rest.length - count = (rest.drop count).length := List.length_drop.symm
      rw [stream, List.take_append_of_le_length part]
      simp only [FtpClient.downloadReceived, counted, left]
      rw [stream, List.drop_append_of_le_length part] at moved
      rw [← List.take_append_drop count rest, ← List.append_assoc] at fetched
      exact @Transfers.continueDownload _ filename (rest.drop count) later _ prompts flight moved
        stored fetched

/-- A client that is not downloading changes nothing but its position and its screen. -/
theorem Sound.elsewhere {terminal : Terminal} (sound : terminal.Sound)
    (apart : ∀ filename pc, terminal.pc ≠ .download filename pc) {pc : TerminalPc} {taken : Nat}
    {shown : List UInt8} (still : ∀ filename there, pc ≠ .download filename there)
    (bounded : taken ≤ (sentBytes terminal.session.history).length) :
    Sound { terminal with pc, taken, shown } := by
  obtain ⟨stores, carries, stored, fetched⟩ := sound.transfers.elsewhere apart
  exact ⟨sound.follows, bounded, .apart still carries stored fetched⟩

theorem received_elsewhere {terminal : Terminal}
    (apart : ∀ filename pc, terminal.pc ≠ .download filename pc) (result : RecvResult) :
    ∃ pc shown, (∀ filename there, pc ≠ .download filename there) ∧
      terminal.received result = { terminal with pc, shown } := by
  obtain ⟨conversation, pc, taken, shown, files, lines, fetched⟩ := terminal
  cases pc with
  | select =>
      cases result with
      | data bytes => exact ⟨.select, shown ++ CString.text bytes, by simp, rfl⟩
      | closed => exact ⟨.finished 0, shown, by simp, rfl⟩
      | error => exact ⟨.finished (-3), shown, by simp, rfl⟩
  | confirmation =>
      exact ⟨.select, shown ++ (fillBufferWithResponse result).2, by simp, rfl⟩
  | download filename pc => exact absurd rfl (apart filename pc)
  | finished status => exact ⟨.finished status, shown, by simp, rfl⟩

theorem received_download {terminal : Terminal} {filename : List UInt8}
    {pc : FtpClient.DownloadPc} (here : terminal.pc = .download filename pc)
    (result : RecvResult) :
    terminal.received result =
      terminal.continueDownload filename (FtpClient.downloadReceived pc result) := by
  cases terminal
  cases here
  rfl

/-! ### All steps -/

theorem Sound.type {host : Host} {terminal : Terminal} (sound : terminal.Sound)
    {round : FtpClient.Round} (waits : terminal.pc = .select)
    (guarded : terminal.keepsFiles host (.type round) = true) : (terminal.type round).Sound := by
  obtain ⟨inPhase, faithful⟩ := Bool.and_eq_true_iff.mp guarded
  obtain ⟨completes, given⟩ := Bool.and_eq_true_iff.mp inPhase
  have given' (transfer : round.isTransfer = true) : terminal.conversation.sent ≠ [] := by
    simpa [transfer] using given
  by_cases download : round.buffer ∈ cmdDownload
  · rw [if_neg (upload_ne_download _ download), if_pos download] at faithful
    obtain ⟨prompt, created⟩ := Bool.and_eq_true_iff.mp faithful
    obtain ⟨prompts, nothing, read⟩ := of_decide_eq_true prompt
    exact sound.type_download waits download completes given' prompts nothing read created
  · apply sound.type_elsewhere waits download completes given'
    intro upload
    rw [if_pos upload] at faithful
    exact of_decide_eq_true faithful

theorem continueDownload_eq (terminal : Terminal) (filename : List UInt8)
    (there : FtpClient.DownloadPc) :
    ∃ pc files, terminal.continueDownload filename there = { terminal with pc, files } := by
  cases there with
  | filesize => exact ⟨.download filename .filesize, terminal.files, rfl⟩
  | content remaining written =>
      exact ⟨.download filename (.content remaining written), terminal.files, rfl⟩
  | finished status file =>
      exact ⟨.select, terminal.files ++ file.toList.map fun content => (filename, content), rfl⟩

theorem Sound.take {host : Host} {terminal : Terminal} (sound : terminal.Sound) {count : Nat}
    (guarded : terminal.keepsFiles host (.take count) = true) (positive : 0 < count)
    (there : count ≤ min terminal.capacity terminal.unread.length) :
    ({ terminal with taken := terminal.taken + count }.received
      (.data (terminal.unread.take count))).Sound := by
  have asked : count ≤ terminal.capacity := there.trans (Nat.min_le_left _ _)
  have unread : count ≤ terminal.unread.length := there.trans (Nat.min_le_right _ _)
  have bounded : terminal.taken + count ≤ (sentBytes terminal.session.history).length := by
    rw [Terminal.unread, List.length_drop] at unread
    omega
  by_cases downloads : ∃ filename pc, terminal.pc = .download filename pc
  · obtain ⟨filename, pc, here⟩ := downloads
    rw [received_download (by exact here)]
    have moved := continueDownload_eq { terminal with taken := terminal.taken + count } filename
      (FtpClient.downloadReceived pc (.data (terminal.unread.take count)))
    refine ⟨?_, ?_, ?_⟩
    · obtain ⟨position, files, moved⟩ := moved
      rw [moved]
      exact sound.follows
    · obtain ⟨position, files, moved⟩ := moved
      rw [moved]
      exact bounded
    · cases sound.transfers with
      | apart elsewhere => exact absurd here (elsewhere _ _)
      | fetching there stored fetches =>
          obtain ⟨rfl, rfl⟩ := TerminalPc.download.inj (here.symm.trans there)
          rw [capacity, here] at asked
          apply fetches.take stored positive asked unread
          rintro rfl
          rw [keepsFiles, here] at guarded
          exact of_decide_eq_true guarded
  · have apart : ∀ filename pc, terminal.pc ≠ .download filename pc :=
      fun filename pc here => downloads ⟨filename, pc, here⟩
    obtain ⟨pc, shown, still, same⟩ := @received_elsewhere
      { terminal with taken := terminal.taken + count } apart (.data (terminal.unread.take count))
    rw [same]
    exact sound.elsewhere apart still bounded

theorem apart_of_fails {host : Host} {terminal : Terminal}
    (guarded : terminal.keepsFiles host .fails = true) (filename : List UInt8)
    (pc : FtpClient.DownloadPc) : terminal.pc ≠ .download filename pc := by
  intro here
  rw [keepsFiles, here] at guarded
  cases guarded

/-- A server that is done leaves no download behind. -/
theorem Sound.apart_of_over {terminal : Terminal} (sound : terminal.Sound)
    (ended : terminal.session.pc.capacity = 0) (filename : List UInt8)
    (pc : FtpClient.DownloadPc) : terminal.pc ≠ .download filename pc := by
  intro here
  cases sound.transfers with
  | apart elsewhere => exact elsewhere _ _ here
  | fetching there stored fetches => exact Nat.ne_of_gt fetches.asks ended

theorem Sound.step {host : Host} (sends : ∀ history, host.sends history = true)
    {terminal after : Terminal} {label : Label} (sound : terminal.Sound)
    (guarded : terminal.keepsFiles host label = true)
    (step : terminal.step host label = some after) : after.Sound := by
  cases label with
  | type round =>
      obtain ⟨waits, rfl⟩ := Option.ite_none_right_eq_some.mp step |>.imp_right Option.some.inj
      exact sound.type waits guarded
  | receive count =>
      obtain ⟨conversation, received, rfl⟩ := Option.map_eq_some_iff.mp step
      exact sound.receive sends guarded received
  | take count =>
      obtain ⟨⟨positive, there⟩, rfl⟩ :=
        Option.ite_none_right_eq_some.mp step |>.imp_right Option.some.inj
      exact sound.take guarded positive there
  | fails =>
      obtain ⟨-, rfl⟩ := Option.ite_none_right_eq_some.mp step |>.imp_right Option.some.inj
      have apart := apart_of_fails guarded
      obtain ⟨pc, shown, still, same⟩ := received_elsewhere apart .error
      rw [same]
      exact sound.elsewhere apart still sound.bounded
  | closed =>
      obtain ⟨⟨-, ended, -⟩, rfl⟩ :=
        Option.ite_none_right_eq_some.mp step |>.imp_right Option.some.inj
      have apart := sound.apart_of_over ended
      obtain ⟨pc, shown, still, same⟩ := received_elsewhere apart .closed
      rw [same]
      exact sound.elsewhere apart still sound.bounded
  | leaves status =>
      obtain ⟨waits, rfl⟩ := Option.ite_none_right_eq_some.mp step |>.imp_right Option.some.inj
      refine sound.elsewhere ?_ (by simp) sound.bounded
      rw [waits]
      simp

end Terminal

theorem Terminal.reaches_sound (host : Host) (sends : ∀ history, host.sends history = true)
    {terminal : Terminal} (reached : (terminals host).ReachesVia
      (fun state label => state.keepsFiles host label = true) terminal) : terminal.Sound := by
  refine reached.invariant ?_ fun before label after _ sound guarded step =>
    sound.step sends guarded step
  rintro _ rfl
  exact ⟨Conversation.reaches_follows host sends (.start rfl), Nat.zero_le _,
    .apart (by simp) .unnamed rfl rfl⟩

/-- The client has written what the server found, up to a file that is on its way. -/
theorem Terminal.Transfers.files_isPrefix {terminal : Terminal} (transfers : terminal.Transfers) :
    terminal.files <+: terminal.fetched := by
  cases transfers with
  | apart elsewhere carries stored fetched => exact fetched ▸ List.prefix_rfl
  | fetching here stored fetches => exact fetches.files_isPrefix

/-- The server stores the files uploaded, in the order they were typed, and has stored all of them
when it has read everything; the client writes what the server found under the names typed, and has
written all of it when it is back from its downloads. -/
theorem transfers_faithful (host : Host) (sends : ∀ history, host.sends history = true)
    {terminal : Terminal} (reached : (terminals host).ReachesVia
      (fun state label => state.keepsFiles host label = true) terminal) :
    (storedFiles terminal.session.history <+: terminal.uploads ∧
        (terminal.conversation.inFlight = [] →
          storedFiles terminal.session.history = terminal.uploads)) ∧
      terminal.files <+: terminal.fetched ∧
        ((∀ filename pc, terminal.pc ≠ .download filename pc) →
          terminal.files = terminal.fetched) := by
  have transfers := (Terminal.reaches_sound host sends reached).transfers
  refine ⟨⟨?_, transfers.settled⟩, transfers.files_isPrefix, fun apart => ?_⟩
  · cases transfers with
    | apart elsewhere carries stored fetched => exact ⟨_, stored⟩
    | fetching here stored fetches => exact stored ▸ List.prefix_rfl
  · obtain ⟨stores, carries, stored, fetched⟩ := transfers.elsewhere apart
    exact fetched.symm

namespace Terminal

/-- `fgets` leaves room for the terminator. -/
theorem length_fgets (line : List UInt8) : (line.take (bufferSize - 1)).length < bufferSize := by
  rw [List.length_take, bufferSize]
  omega

theorem length_answer (answer : List UInt8) :
    ∀ text ∈ some (answer.take (bufferSize - 1)), text.length < bufferSize := by
  intro text here
  rw [← Option.some.inj here]
  exact length_fgets answer

/-- A line typed, and the name typed after it, where every local file is `xyz`. -/
def typed (line answer : List UInt8) : Label :=
  .type ⟨line.take (bufferSize - 1), some (answer.take (bufferSize - 1)),
    .holding (literal "xyz"), .holding (literal "xyz"), length_fgets line, length_answer answer⟩

/-- The name is given, a file of three bytes is uploaded, and downloaded again in two pieces. -/
def transferScript : List Label :=
  [typed (literal "bob\n") [], .receive 3, .take 45, .take 142,
    typed (literal "-u\n") (literal "a\n"), .receive 8, .receive 1, .receive 1, .receive 2,
    .receive 1, .take 17,
    typed (literal "-d\n") (literal "a\n"), .receive 10, .receive 2, .take 1, .take 2, .take 1,
    .take 2]

end Terminal

theorem transfers_faithful_round_trip :
    let host : Host := .steady (.holding (literal "xyz"))
    let run := ((terminals host).execute (Terminal.keepsFiles host) {}
      Terminal.transferScript).getD {}
    run.files = [(literal "a\n", literal "xyz")] ∧ run.pc = .select ∧
      run.files = run.fetched ∧ storedFiles run.session.history = run.uploads := by
  have executes : ((terminals (.steady (.holding (literal "xyz")))).execute
      (Terminal.keepsFiles (.steady (.holding (literal "xyz")))) {}
      Terminal.transferScript).map (fun run => (run.files, run.pc, run.conversation.inFlight)) =
        some ([(literal "a\n", literal "xyz")], .select, []) := by
    decide +kernel
  obtain ⟨run, executed, outcome⟩ := Option.map_eq_some_iff.mp executes
  obtain ⟨files, position, nothing⟩ : run.files = [(literal "a\n", literal "xyz")] ∧
      run.pc = .select ∧ run.conversation.inFlight = [] := by simpa using outcome
  have reached := LabelledSystem.ReachesVia.execute (.start rfl) executed
  obtain ⟨stored, written⟩ := transfers_faithful _ (fun _ => rfl) reached
  simp only [executed, Option.getD_some]
  exact ⟨files, position, written.2 (by rw [position]; simp), stored.2 nothing⟩

end CmyMessage
