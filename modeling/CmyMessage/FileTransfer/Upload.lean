import CmyMessage.FileTransfer.Client
import CmyMessage.FileTransfer.Session

/-!
# Uploads

The client's `upload_file` against the server's.  The decimal size is read back as it was printed,
and the receiving loop never asks for more than what is missing, so wherever the borders fall in the
content it takes the content off the stream and nothing else.
-/

namespace CmyMessage

/-- Segments that carry some messages and then the bytes of `later`.  A control message is returned
whole by one `recv`; the borders inside the file content, and behind it, are arbitrary. -/
inductive Delivery (later : List UInt8) : List Message → List (List UInt8) → Prop
  | nothing {segments : List (List UInt8)} (stream : segments.flatten = later) :
      Delivery later [] segments
  | control {site : ReadSite} {text : List UInt8} {messages : List Message}
      {segments : List (List UInt8)} (tail : Delivery later messages segments) :
      Delivery later (.control site text :: messages) (text :: segments)
  | content {bytes : List UInt8} {segments : List (List UInt8)}
      (stream : segments.flatten = bytes ++ later) : Delivery later [.content bytes] segments

namespace Host

/-- The receiving loop takes the content off the stream, and only that. -/
theorem receiveFile_runs (host : Host) (session : FtpSession) (path : List UInt8)
    {content later : List UInt8} (written : List UInt8) {segments : List (List UInt8)}
    (stream : segments.flatten = content ++ later) :
    ∃ rest, rest.flatten = later ∧
      (ftpServer host).Runs (host.receiveFile session path content.length written, segments)
        (host.finishUpload session path (written ++ content), rest) := by
  have asks : ∀ remaining written, 0 < remaining →
      (ftpServer host).capacity (host.receiveFile session path remaining written) =
        min remaining bufferSize := by
    intro remaining written more
    rw [receiveFile, if_pos more]
    rfl
  have counts : ∀ remaining written symbols, 0 < remaining →
      (ftpServer host).advance (host.receiveFile session path remaining written) symbols =
        host.receiveFile session path (remaining - symbols.length) (written ++ symbols) := by
    intro remaining written symbols more
    rw [receiveFile, if_pos more]
    exact host.receiveFile_goto session _ path _ _
  exact SegmentedStream.Receiver.counting_runs (by decide) asks counts written stream

/-- A `recv` for a control message of the client returns it whole. -/
theorem control_runs (host : Host) {session after : FtpSession}
    (asks : session.pc.capacity = bufferSize) {text : List UInt8} (nonempty : text ≠ [])
    (fits : text.length ≤ bufferSize) (advances : host.advance session (.data text) = after)
    (segments : List (List UInt8)) :
    (ftpServer host).Runs (session, text :: segments) (after, segments) := by
  rw [← advances]
  exact .single (SegmentedStream.Receiver.receive_segment nonempty
    (fits.trans (Nat.le_of_eq asks.symm)) segments)

/-- The three control messages of an upload bring the server to its receiving loop: a printed size
is the size it sets out to receive, as long as that fits an `int`. -/
theorem upload_announced (host : Host) {session : FtpSession} (prompt : session.pc = .command)
    {command filename : List UInt8} (upload : command = literal "--upload")
    (nonempty : filename ≠ []) (nonzero : 0 ∉ filename) (fits : filename.length ≤ bufferSize)
    (filesize : Nat) (bounded : filesize < 2 ^ 31)
    (opens : ∀ history,
      (host.disk history).openWrite (uploadPath (withoutNewline filename)) = true)
    (segments : List (List UInt8)) :
    ∃ receiving, actions receiving.history = actions session.history ++ [.executed .upload] ∧
      (ftpServer host).Runs
        (session, command :: filename :: Decimal.ofInt filesize :: segments)
        (host.receiveFile receiving (uploadPath (withoutNewline filename)) filesize [],
          segments) := by
  have size : Decimal.atoi (Decimal.ofInt filesize) = filesize := by
    rw [Decimal.atoi_ofInt (by omega) (by omega), Decimal.toInt32_eq_self (by omega) (by omega)]
  have sizeFits : (Decimal.ofInt filesize).length ≤ bufferSize :=
    (Decimal.ofInt_length_le 10 (by decide) (by omega) (by omega)).trans (by decide)
  let commanded := (session.record (.read .command (.data command))).record (.executed .upload)
  let named := commanded.record (.read .uploadFilename (.data filename))
  let sized := named.record (.read .uploadFilesize (.data (Decimal.ofInt filesize)))
  have first : host.advance session (.data command) = commanded.goto .uploadFilename := by
    subst upload
    rw [advance, prompt]
    rfl
  have second : host.advance (commanded.goto .uploadFilename) (.data filename) =
      named.goto (.uploadFilesize (withoutNewline filename)) := by
    rw [advance, FtpSession.goto_pc]
    simp only [uploadFilenameReceived, fillBufferWithResponse_data nonzero]
    rw [if_neg (by omega)]
    rfl
  have third : host.advance (named.goto (.uploadFilesize (withoutNewline filename)))
      (.data (Decimal.ofInt filesize)) =
      host.receiveFile (sized.record (.openedForWriting (uploadPath (withoutNewline filename))))
        (uploadPath (withoutNewline filename)) filesize [] := by
    rw [advance, FtpSession.goto_pc]
    simp only [uploadFilesizeReceived, size,
      fillBufferWithResponse_data (Decimal.zero_notMem_ofInt filesize)]
    rw [if_neg (by omega), if_neg (by rw [maxFileSize]; omega), if_pos (opens _),
      Int.toNat_natCast]
    rw [FtpSession.record_goto, FtpSession.record_goto, receiveFile_goto]
  refine ⟨sized.record (.openedForWriting (uploadPath (withoutNewline filename))), ?_, ?_⟩
  · simp [sized, named, commanded, actions, FtpEvent.isAction]
  · have asks : session.pc.capacity = bufferSize := by
      rw [prompt]
      rfl
    have short : command ≠ [] ∧ command.length ≤ bufferSize := by
      rw [upload]
      decide
    apply (host.control_runs asks short.1 short.2 first _).trans
    apply (host.control_runs rfl nonempty fits second _).trans
    exact host.control_runs rfl (Decimal.ofInt_ne_nil _) sizeFits third _

end Host

/-- An upload whose control messages keep their borders stores the file under its name, reads
nothing of what is sent after it, and brings the server back to its prompt. -/
theorem upload_stores_file (host : Host) (sends : ∀ history, host.sends history = true)
    (session : FtpSession) (prompt : session.pc = .command) (filename content later : List UInt8)
    (nonempty : filename ≠ []) (newlineFree : 10 ∉ filename) (nonzero : 0 ∉ filename)
    (short : (pathAssetsFolder ++ filename).length < maxLenFilePath)
    (bounded : content.length ≤ 2 ^ 31 - 1) (checked opened : Disk)
    (measured : getFileSize checked (pathAssetsFolder ++ filename) = content.length)
    (openRead : opened.openRead (pathAssetsFolder ++ filename) = some content)
    (opens : ∀ history, (host.disk history).openWrite (pathAssetsFolder ++ filename) = true)
    (segments : List (List UInt8))
    (delivery : Delivery later
      (FtpClient.uploadFile checked opened (some (filename ++ [10]))) segments) :
    ∃ after rest, (ftpServer host).Runs (session, segments) (after, rest) ∧
      after.pc = .command ∧ rest.flatten = later ∧
      actions after.history = actions session.history ++
        [.executed .upload, .stored (pathAssetsFolder ++ filename) content] := by
  have path : uploadPath filename = pathAssetsFolder ++ filename :=
    List.take_of_length_le (Nat.le_sub_one_of_lt short)
  rw [← path] at measured openRead opens ⊢
  have typed : withoutNewline (CString.text (filename ++ [10])) = filename := by
    rw [CString.text_eq_self (by simpa using nonzero), withoutNewline_append_newline]
  rw [FtpClient.uploadFile_eq opened typed measured (by omega) (by rw [maxFileSize]; omega),
    openRead, Option.map_some, Option.toList_some, Int.toNat_natCast, List.take_length] at delivery
  cases delivery with
  | control delivery =>
  cases delivery with
  | control delivery =>
  cases delivery with
  | control delivery =>
  cases delivery with
  | content stream =>
  have named : withoutNewline filename = filename := withoutNewline_eq_self newlineFree
  have nameFits : filename.length ≤ bufferSize := by
    rw [List.length_append, maxLenFilePath] at short
    rw [bufferSize]
    omega
  obtain ⟨receiving, executed, announced⟩ := host.upload_announced prompt rfl nonempty nonzero
    nameFits content.length (by omega) (by rwa [named]) _
  rw [named] at announced
  obtain ⟨rest, left, received⟩ := host.receiveFile_runs receiving (uploadPath filename) [] stream
  rw [List.nil_append] at received
  have replied := host.finishUpload_replies receiving (uploadPath filename) content
  refine ⟨_, rest, announced.trans received, (host.finishUpload_returns _ _ _).prompts.pc sends,
    left, ?_⟩
  rw [replied.silent.actions, FtpSession.record_history, actions_append, executed,
    List.append_assoc]
  rfl

/-- The file `a` with the three bytes `xyz` arrives in two pieces, the second of which goes on with
the next command. -/
theorem upload_stores_file_two_pieces :
    ∃ after rest, (ftpServer (.steady (.holding []))).Runs
        ({ pc := .command, name := [], history := [] },
          [literal "--upload", literal "a", literal "3", literal "xy", literal "z-l"])
        (after, rest) ∧
      after.pc = .command ∧ rest.flatten = literal "-l" ∧
      actions after.history = actions [] ++
        [.executed .upload, .stored (pathAssetsFolder ++ literal "a") (literal "xyz")] :=
  upload_stores_file (.steady (.holding [])) (fun _ => rfl)
    { pc := .command, name := [], history := [] } rfl (literal "a") (literal "xyz") (literal "-l")
    (by decide) (by decide) (by decide) (by decide) (by decide) (.holding (literal "xyz"))
    (.holding (literal "xyz")) rfl rfl (fun _ => rfl) _
    (.control (.control (.control (.content rfl))))

end CmyMessage
