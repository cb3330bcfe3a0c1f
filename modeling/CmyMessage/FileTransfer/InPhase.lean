import CmyMessage.FileTransfer.Phases

/-!
# Conversations that stay in phase

As long as the client sends everything it announces and the server opens the files it is sent, a
typed line is a whole script, and the conversation is in phase whenever the server has read
everything.
-/

namespace CmyMessage

namespace FtpClient.Round

theorem buffer_fits (round : Round) : round.buffer.length ≤ bufferSize :=
  (withoutNewline_isPrefix _).length_le.trans
    ((CString.text_length_le _).trans (Nat.le_of_lt round.line_fits))

theorem zero_notMem_buffer (round : Round) : 0 ∉ round.buffer :=
  zero_notMem_withoutNewline (CString.zero_notMem_text round.line)

/-- A line that is no transfer is one message, or none if it is empty. -/
theorem messages_plain (round : Round) (plain : round.isTransfer = false) (site : ReadSite) :
    transmitted (round.messages site) =
      if round.buffer = [] then [] else [.control site round.buffer] := by
  obtain ⟨noUpload, noDownload⟩ := not_or.mp (of_decide_eq_false plain)
  rw [messages, if_neg noUpload, if_neg noDownload]
  by_cases empty : round.buffer = []
  · simp [transmitted, Message.bytes, empty]
  · simp [transmitted, Message.bytes, empty]

/-- A file that does not open is sent like an empty one. -/
theorem transmitted_content (opened : Option (List UInt8)) (count : Nat) :
    transmitted (opened.map fun content => Message.content (content.take count)).toList =
      transmitted [.content ((opened.getD []).take count)] := by
  cases opened with
  | none => simp [transmitted, Message.bytes]
  | some content => rfl

/-- An upload that completes is sent as three control messages and the content they announce. -/
theorem upload_messages (round : Round) (upload : round.buffer ∈ cmdUpload)
    (completes : round.completes = true) :
    ∃ filename filesize content, Sendable filename ∧ Sendable filesize ∧
      (Decimal.atoi filesize).toNat = content.length ∧
      transmitted (round.messages .command) =
        .control .command (literal "--upload") :: .control .uploadFilename filename ::
          .control .uploadFilesize filesize :: transmitted [.content content] := by
  rw [Round.completes, if_pos upload] at completes
  rw [messages, if_pos upload]
  cases answered : round.answer with
  | none =>
      rw [answered] at completes
      cases completes
  | some line =>
      rw [answered] at completes
      obtain ⟨nonempty, natural, bounded, size⟩ := of_decide_eq_true completes
      have fits : (withoutNewline (CString.text line)).length ≤ bufferSize :=
        (withoutNewline_isPrefix _).length_le.trans ((CString.text_length_le line).trans
          (Nat.le_of_lt (round.answer_fits line answered)))
      have nonzero := zero_notMem_withoutNewline (CString.zero_notMem_text line)
      have sent := uploadFile_eq round.opened rfl rfl natural bounded
      generalize getFileSize round.checked _ = filesize at *
      rw [maxFileSize] at bounded
      have short : (Decimal.ofInt filesize).length ≤ bufferSize :=
        (Decimal.ofInt_length_le 11 (by decide) natural (by omega)).trans (by decide)
      refine ⟨_, _, _, ⟨nonempty, fits, nonzero⟩,
        ⟨Decimal.ofInt_ne_nil filesize, short, Decimal.zero_notMem_ofInt filesize⟩,
        Eq.trans ?_ size, ?_⟩
      · rw [Decimal.atoi_ofInt (by omega) (by omega)]
      · rw [sent, ← transmitted_content]
        simp [transmitted, Message.bytes, nonempty, Decimal.ofInt_ne_nil, sendable_upload.nonempty]

/-- A download that completes is sent as two control messages. -/
theorem download_messages (round : Round) (noUpload : round.buffer ∉ cmdUpload)
    (download : round.buffer ∈ cmdDownload) (completes : round.completes = true) :
    ∃ filename, Sendable filename ∧ transmitted (round.messages .command) =
      [.control .command (literal "--download"), .control .downloadFilename filename] := by
  rw [Round.completes, if_neg noUpload, if_pos download, decide_eq_true_eq] at completes
  rw [messages, if_neg noUpload, if_pos download]
  refine ⟨_, ⟨completes, ?_, CString.zero_notMem_text _⟩, ?_⟩
  · cases answered : round.answer with
    | none => exact Nat.zero_le _
    | some line =>
        exact (CString.text_length_le line).trans (Nat.le_of_lt (round.answer_fits line answered))
  · simp [transmitted, downloadFile, Message.bytes, completes, sendable_download.nonempty]

/-- A line of which everything announced is sent is a whole script. -/
theorem messages_expects (round : Round) (completes : round.completes = true) :
    Expects .command (transmitted (round.messages .command)) := by
  by_cases upload : round.buffer ∈ cmdUpload
  · obtain ⟨filename, filesize, content, name, digits, size, sent⟩ :=
      round.upload_messages upload completes
    rw [sent, ← List.append_nil (transmitted [.content content])]
    exact .upload (.uploadFilename name (.uploadFilesize digits size .idle))
  · by_cases download : round.buffer ∈ cmdDownload
    · obtain ⟨filename, name, sent⟩ := round.download_messages upload download completes
      rw [sent]
      exact .download (.downloadFilename name .idle)
    · rw [round.messages_plain (decide_eq_false (not_or.mpr ⟨upload, download⟩))]
      split
      · exact .idle
      · have sendable : Sendable round.buffer := ⟨‹_›, round.buffer_fits, round.zero_notMem_buffer⟩
        cases ends : endsSession round.buffer with
        | true => exact .last sendable ends []
        | false => exact .plain sendable ends upload download .idle

/-- The answer to the question for the name. -/
theorem name_expects (round : Round) (plain : round.isTransfer = false) :
    Expects .name (transmitted (round.messages .name)) := by
  rw [round.messages_plain plain]
  split
  · exact .unnamed
  · exact .name ⟨‹_›, round.buffer_fits, round.zero_notMem_buffer⟩ .idle

/-- The last control message of a transfer is no command. -/
theorem controls_transfer (round : Round) (completes : round.completes = true)
    (transfer : round.isTransfer = true) (sent : List (ReadSite × List UInt8)) :
    ∃ site text, (sent ++ Message.controls (transmitted (round.messages .command))).getLast? =
      some (site, text) ∧ site ≠ .command := by
  by_cases upload : round.buffer ∈ cmdUpload
  · obtain ⟨filename, filesize, content, -, -, -, messages⟩ :=
      round.upload_messages upload completes
    have controls : Message.controls (transmitted (round.messages .command)) =
        [(.command, literal "--upload"), (.uploadFilename, filename),
          (.uploadFilesize, filesize)] := by
      rw [messages]
      exact congrArg (_ :: _ :: _ :: ·) (controls_content content)
    exact ⟨.uploadFilesize, filesize, by rw [controls]; simp, by simp⟩
  · have download := (of_decide_eq_true transfer).resolve_left upload
    obtain ⟨filename, -, messages⟩ := round.download_messages upload download completes
    exact ⟨.downloadFilename, filename, by simp [messages, Message.controls], by simp⟩

end FtpClient.Round

namespace Conversation

/-- What holds after steps that keep a conversation in phase. -/
structure Follows (conversation : Conversation) : Prop where
  /-- The messages in flight are what the server asks for. -/
  expects : Expects conversation.session.pc conversation.inFlight
  /-- The control messages sent were read or are in flight. -/
  reads : messagesRead conversation.session.history ++ Message.controls conversation.inFlight =
    conversation.sent
  /-- The server waits for the name as long as it has read nothing. -/
  named : conversation.session.pc = .name ↔ messagesRead conversation.session.history = []
  /-- The server is done when the last message it read was a command. -/
  ended : conversation.session.pc = .finished 0 →
    ∃ text, (messagesRead conversation.session.history).getLast? = some (.command, text)
  /-- The last message of a transfer is no command. -/
  transfers : conversation.transfer = true →
    ∃ site text, conversation.sent.getLast? = some (site, text) ∧ site ≠ .command

theorem Follows.inPhase {conversation : Conversation} (follows : conversation.Follows) :
    conversation.InPhase := by
  intro nothing
  have expects := follows.expects
  have reads := follows.reads
  rw [nothing] at expects reads
  rw [Message.controls, List.filterMap_nil, List.append_nil] at reads
  refine ⟨fun transfer => ?_, reads⟩
  obtain ⟨site, text, last, other⟩ := follows.transfers transfer
  rcases expects.done with unnamed | prompt | ended
  · rw [← reads, follows.named.mp unnamed] at last
    cases last
  · exact prompt
  · obtain ⟨ending, lastRead⟩ := follows.ended ended
    rw [reads, last] at lastRead
    cases lastRead
    exact absurd rfl other

/-- A line typed adds a script to the messages in flight. -/
theorem Follows.type {conversation : Conversation} (follows : conversation.Follows)
    {round : FtpClient.Round} (completes : round.completes = true)
    (waits : round.isTransfer = true → conversation.sent ≠ []) :
    (conversation.type round).Follows where
  expects := by
    by_cases first : conversation.sent = []
    · have silence := follows.reads
      rw [first, List.append_eq_nil_iff] at silence
      have unnamed := follows.named.mpr silence.1
      have plain := Bool.eq_false_iff.mpr fun transfer => waits transfer first
      have expects := follows.expects
      rw [unnamed] at expects
      rw [Conversation.type, site, if_pos first, expects.silent silence.2]
      simp only [unnamed]
      exact round.name_expects plain
    · have named : conversation.session.pc = .name → conversation.inFlight ≠ [] := by
        intro unnamed nothing
        apply first
        rw [← follows.reads, follows.named.mp unnamed, nothing]
        rfl
      rw [Conversation.type, site, if_neg first]
      exact follows.expects.append named (round.messages_expects completes)
  reads := by
    rw [Conversation.type]
    simp only [controls_append, ← follows.reads, List.append_assoc]
  named := follows.named
  ended := follows.ended
  transfers transfer := by
    rw [Conversation.type, site, if_neg (waits transfer)]
    exact round.controls_transfer completes transfer conversation.sent

/-- A `recv` takes what it reads off the messages in flight. -/
theorem Follows.receive {host : Host} (sends : ∀ history, host.sends history = true)
    {conversation after : Conversation} (follows : conversation.Follows) {count : Nat}
    (guarded : conversation.keepsPhase host (.receive count) = true)
    (received : conversation.receive host count = some after) : after.Follows := by
  rw [Conversation.receive] at received
  cases flight : conversation.inFlight with
  | nil =>
      rw [flight] at received
      cases received
  | cons message later =>
      simp only [flight, Option.ite_none_right_eq_some, Option.some.injEq] at received
      obtain ⟨returns, rfl⟩ := received
      have expects := follows.expects
      rw [flight] at expects
      have opens (filename : List UInt8)
          (pc : conversation.session.pc = .uploadFilesize filename)
          (positive : 0 < Decimal.atoi (CString.text message.bytes)) :
          (host.disk (conversation.session.history ++ [.read .uploadFilesize
            (.data message.bytes)])).openWrite (uploadPath filename) = true := by
        simp only [keepsPhase, pc, flight, Bool.or_eq_true, decide_eq_true_eq] at guarded
        exact guarded.resolve_left (by omega)
      obtain ⟨script, named, ended⟩ := expects.receive sends returns opens
      refine ⟨script, ?_, ?_, ?_, follows.transfers⟩
      · rw [Host.messagesRead_advance, List.append_assoc, expects.reads returns, ← flight]
        exact follows.reads
      · apply iff_of_false named
        rw [Host.messagesRead_advance, List.append_eq_nil_iff, not_and]
        intro unread
        rw [follows.named.mpr unread]
        exact List.cons_ne_nil _ _
      · intro finished
        rw [Host.messagesRead_advance, ended finished]
        exact ⟨_, List.getLast?_concat⟩

theorem reaches_follows (host : Host) (sends : ∀ history, host.sends history = true)
    {conversation : Conversation} (reached : (conversations host).ReachesVia
      (fun state label => state.keepsPhase host label = true) conversation) :
    conversation.Follows := by
  refine reached.invariant ?_ ?_
  · rintro _ rfl
    have here : Conversation.start.session.pc = .name := rfl
    exact ⟨.unnamed, rfl, iff_of_true rfl rfl, by simp [here], by simp [Conversation.start]⟩
  · intro before label after _ follows guarded step
    cases label with
    | type round =>
        obtain ⟨completes, waits⟩ := Bool.and_eq_true_iff.mp guarded
        cases step
        apply follows.type completes
        intro transfer
        simpa [transfer] using waits
    | receive count => exact follows.receive sends guarded step

end Conversation

/-- As long as the client sends what it announces and the server opens the files it is sent, client
and server agree on the phase whenever the server has read everything. -/
theorem phases_agree (host : Host) (sends : ∀ history, host.sends history = true)
    {conversation : Conversation} (reached : (conversations host).ReachesVia
      (fun state label => state.keepsPhase host label = true) conversation) :
    conversation.InPhase :=
  (Conversation.reaches_follows host sends reached).inPhase

namespace Conversation

/-- A line typed, and the name typed after it. -/
def typed (disk : Disk) (line : List UInt8) (line_fits : line.length < bufferSize)
    (answer : List UInt8) (answer_fits : answer.length < bufferSize) : Label :=
  .type ⟨line, some answer, disk, disk, line_fits, by simpa using answer_fits⟩

/-- The name is given, a file of three bytes is uploaded in two pieces and downloaded again. -/
def transferScript : List Label :=
  [typed (.holding (literal "xyz")) (literal "bob\n") (by decide) [] (by decide), .receive 3,
    typed (.holding (literal "xyz")) (literal "-u\n") (by decide) (literal "a\n") (by decide),
    .receive 8, .receive 1, .receive 1, .receive 2, .receive 1,
    typed (.holding (literal "xyz")) (literal "-d\n") (by decide) (literal "a\n") (by decide),
    .receive 10, .receive 2]

end Conversation

theorem phases_agree_upload_download :
    let host : Host := .steady (.holding (literal "xyz"))
    let run := (conversations host).execute (Conversation.keepsPhase host) .start
      Conversation.transferScript
    run.isSome ∧ (run.getD .start).inFlight = [] ∧ (run.getD .start).InPhase := by
  have executes : ((conversations (.steady (.holding (literal "xyz")))).execute
      (Conversation.keepsPhase (.steady (.holding (literal "xyz")))) .start
      Conversation.transferScript).isSome = true := by
    decide +kernel
  exact ⟨executes, by decide +kernel,
    phases_agree _ (fun _ => rfl) (.execute_getD (.start rfl) executes)⟩

/-- The file to upload does not exist.  The client has announced it and goes back to its loop,
and the server waits for the name of a file. -/
theorem phases_disagree :
    ¬ ∀ (host : Host), (∀ history, host.sends history = true) →
      ∀ conversation, (conversations host).Reaches conversation → conversation.InPhase := by
  intro agree
  let empty : Disk := { Disk.holding [] with access := fun _ => false }
  let missing : List Conversation.Label :=
    [Conversation.typed empty (literal "bob\n") (by decide) [] (by decide), .receive 3,
      Conversation.typed empty (literal "-u\n") (by decide) (literal "a\n") (by decide), .receive 8]
  have executes : ((conversations (.steady empty)).execute (fun _ _ => true) .start missing).map
      (fun after => (after.inFlight, after.transfer, after.session.pc)) =
      some ([], true, .uploadFilename) := by
    decide +kernel
  obtain ⟨conversation, executed, outcome⟩ := Option.map_eq_some_iff.mp executes
  obtain ⟨nothing, transfer, position⟩ := by simpa using outcome
  have reached := LabelledSystem.ReachesVia.execute (.start rfl) executed
  have prompt := (agree _ (fun _ => rfl) conversation reached.reaches nothing).1 transfer
  rw [position] at prompt
  cases prompt

end CmyMessage
