import CmyMessage.FileTransfer.Client
import CmyMessage.FileTransfer.Session

/-!
# Downloads

The server's `download_file` against the client's.  The size and the content leave the server with
nothing between them, and the client reads the size by one `recv`.  What it took then it never looks
at again, so the file arrives whole exactly when that `recv` ended at the border.
-/

namespace CmyMessage

/-- What a session has put on the stream to its client. -/
def sentBytes (history : List FtpEvent) : List UInt8 :=
  history.flatMap fun
    | .sent text => text
    | _ => []

namespace FtpClient

/-- Where the client's `download_file` stands once it has sent its command and the file name. -/
inductive DownloadPc
  /-- Before the `recv` of `fill_buffer_with_response`. -/
  | filesize
  /-- Before the `recv` of the loop. -/
  | content (remaining : Nat) (written : List UInt8)
  /-- Returned; the local file, if it was created. -/
  | finished (status : Int) (file : Option (List UInt8))
  deriving DecidableEq

/-- The test of the loop of `download_file`. -/
def receiveContent (remaining : Nat) (written : List UInt8) : DownloadPc :=
  if 0 < remaining then .content remaining written else .finished 0 (some written)

/-- `download_file` after its requests, where `fopen` for writing the local file succeeds or not. -/
def awaitDownload (created : Bool) : DownloadPc := if created then .filesize else .finished 0 none

/-- `download_file` after a `recv`.  Whether the size was received is not looked at. -/
def downloadReceived : DownloadPc → RecvResult → DownloadPc
  | .filesize, result => receiveContent (Decimal.atoi (fillBufferWithResponse result).2).toNat []
  | .content remaining written, .data bytes =>
      receiveContent (remaining - bytes.length) (written ++ bytes)
  | .content remaining written, .closed => .content remaining written
  | .content _ written, .error => .finished (-1) (some written)
  | .finished status file, _ => .finished status file

/-- How much the next `recv` asks for, or zero when there is none. -/
def DownloadPc.capacity : DownloadPc → Nat
  | filesize => bufferSize
  | content remaining _ => min remaining bufferSize
  | finished _ _ => 0

/-- A download as a receiver of a stream whose peer stays connected. -/
def download : SegmentedStream.Receiver DownloadPc UInt8 where
  capacity := DownloadPc.capacity
  advance pc bytes := downloadReceived pc (.data bytes)

/-- What a download has put into its local file. -/
def DownloadPc.written : DownloadPc → List UInt8
  | filesize => []
  | content _ written => written
  | finished _ file => file.getD []

@[simp]
theorem receiveContent_written (remaining : Nat) (written : List UInt8) :
    (receiveContent remaining written).written = written := by
  rw [receiveContent]
  split <;> rfl

/-- The loop takes the content off the stream, and only that. -/
theorem receiveContent_runs {content later : List UInt8} {segments : List (List UInt8)}
    (stream : segments.flatten = content ++ later) :
    ∃ rest, rest.flatten = later ∧
      download.Runs (receiveContent content.length [], segments)
        (.finished 0 (some content), rest) := by
  have asks : ∀ remaining written, 0 < remaining →
      download.capacity (receiveContent remaining written) = min remaining bufferSize := by
    intro remaining written more
    rw [receiveContent, if_pos more]
    rfl
  have counts : ∀ remaining written symbols, 0 < remaining →
      download.advance (receiveContent remaining written) symbols =
        receiveContent (remaining - symbols.length) (written ++ symbols) := by
    intro remaining written symbols more
    rw [receiveContent, if_pos more]
    rfl
  exact SegmentedStream.Receiver.counting_runs (by decide) asks counts [] stream

theorem receiveContent_ne_filesize (remaining : Nat) (written : List UInt8) :
    receiveContent remaining written ≠ .filesize := by
  rw [receiveContent]
  split <;> exact DownloadPc.noConfusion

/-- From the loop on, what is taken off the stream goes into the file. -/
theorem settle_written {pc : DownloadPc} (started : pc ≠ .filesize) (segments : List (List UInt8)) :
    pc.written ++ segments.flatten =
      (download.settle pc segments).1.written ++ (download.settle pc segments).2.flatten := by
  refine (SegmentedStream.Receiver.settle_induction download
    (fun now => now.1 ≠ .filesize ∧ pc.written ++ segments.flatten =
      now.1.written ++ now.2.flatten) ?_ pc segments ⟨started, rfl⟩).1.2
  intro before after assertion receives
  obtain ⟨symbols, reads, received, advanced⟩ :=
    SegmentedStream.Receiver.receive_eq_some receives
  obtain ⟨split, -, -⟩ := SegmentedStream.recv_eq_some reads received
  obtain ⟨begun, conserved⟩ := assertion
  rw [advanced, conserved, split]
  cases position : before.1 with
  | filesize => exact absurd position begun
  | content remaining written =>
      refine ⟨receiveContent_ne_filesize _ _, ?_⟩
      show written ++ _ = (receiveContent _ _).written ++ _
      rw [receiveContent_written, List.append_assoc]
  | finished status file =>
      rw [position] at reads
      exact absurd reads (Nat.lt_irrefl 0)

/-- The loop starts with what the first `recv` left, and with the number that was in its answer. -/
theorem settle_received {segments rest : List (List UInt8)} {first : List UInt8}
    (received : SegmentedStream.recv bufferSize segments = some (first, rest)) :
    download.settle (awaitDownload true) segments =
      download.settle (receiveContent (Decimal.atoi (CString.text first)).toNat []) rest := by
  have asked : download.receive (awaitDownload true, segments) = some (_, rest) :=
    SegmentedStream.Receiver.receive_of_recv (by decide) received
  exact SegmentedStream.Receiver.settle_of_receive asked

/-- Of a size, a content and what follows, the content alone ends up in the file exactly when the
first `recv` returned the size alone. -/
theorem settle_content_iff {content later : List UInt8} (bounded : content.length ≤ 2 ^ 31 - 1)
    {segments : List (List UInt8)}
    (stream : segments.flatten = Decimal.ofInt content.length ++ (content ++ later)) :
    (∃ rest, download.settle (awaitDownload true) segments = (.finished 0 (some content), rest) ∧
        rest.flatten = later) ↔
      ∃ rest, SegmentedStream.recv bufferSize segments =
        some (Decimal.ofInt content.length, rest) := by
  constructor
  · intro arrived
    obtain ⟨left, settled, untouched⟩ := arrived
    cases received : SegmentedStream.recv bufferSize segments with
    | none =>
        have nothing := SegmentedStream.recv_eq_none.mp received
        rw [stream] at nothing
        exact absurd (List.append_eq_nil_iff.mp nothing).1 (Decimal.ofInt_ne_nil _)
    | some answer =>
        obtain ⟨first, rest⟩ := answer
        obtain ⟨split, -, -⟩ := SegmentedStream.recv_eq_some (by decide) received
        have conserved := settle_written (receiveContent_ne_filesize
          (Decimal.atoi (CString.text first)).toNat []) rest
        rw [← settle_received received, settled, receiveContent_written, List.nil_append,
          untouched] at conserved
        rw [stream, conserved] at split
        have whole : Decimal.ofInt content.length = first := List.append_cancel_right split
        exact ⟨rest, by rw [whole]⟩
  · intro bordered
    obtain ⟨rest, received⟩ := bordered
    obtain ⟨split, -, -⟩ := SegmentedStream.recv_eq_some (by decide) received
    rw [stream] at split
    obtain ⟨left, untouched, runs⟩ := receiveContent_runs (List.append_cancel_left split).symm
    have size : Decimal.atoi (CString.text (Decimal.ofInt content.length)) = content.length := by
      rw [CString.text_eq_self (Decimal.zero_notMem_ofInt _),
        Decimal.atoi_ofInt (by omega) (by omega), Decimal.toInt32_eq_self (by omega) (by omega)]
    refine ⟨left, ?_, untouched⟩
    rw [settle_received received, size, Int.toNat_natCast]
    exact (SegmentedStream.Receiver.settle_of_runs runs).trans
      (SegmentedStream.Receiver.settle_of_blocked rfl)

end FtpClient

/-! ## What the server sends -/

theorem sentBytes_append (front back : List FtpEvent) :
    sentBytes (front ++ back) = sentBytes front ++ sentBytes back := List.flatMap_append

theorem sentBytes_send (session : FtpSession) (text : List UInt8) :
    sentBytes (session.send text).history = sentBytes session.history ++ text := by
  rw [FtpSession.send_history, sentBytes_append]
  exact congrArg _ (List.append_nil text)

theorem sendFile_sent (session : FtpSession) (content : List UInt8) (filesize : Int) :
    sentBytes (sendFile session content filesize).history =
      sentBytes session.history ++ content.take filesize.toNat := by
  rw [sendFile, ← chunks_flatten (Nat.le_refl _)]
  generalize chunks filesize.toNat filesize.toNat content = pieces
  induction pieces generalizing session with
  | nil => exact (List.append_nil _).symm
  | cons piece pieces ih =>
      rw [List.foldl_cons, ih, sentBytes_send, List.flatten_cons, List.append_assoc]

namespace Host

theorem afterCommand_sent (host : Host) (session : FtpSession) (command : FtpCommand)
    (status : Int) :
    sentBytes (host.afterCommand session command status).history =
      sentBytes session.history ++ literal "> " := by
  rw [afterCommand, promptCommand_history, sentBytes_append, FtpSession.record_history,
    sentBytes_append]
  exact congrArg (· ++ _) (List.append_nil _)

/-- The reply to a file name is the measured size as it is printed, as much of the content as the
size says when it is passed on as an `int`, and the next prompt. -/
theorem downloadFile_sent_measured (host : Host) (sends : ∀ history, host.sends history = true)
    (session : FtpSession) (message content : List UInt8) {filesize : Int} (natural : 0 ≤ filesize)
    (measured : getFileSize (host.disk session.history) (downloadPath message) = filesize)
    (opened : ∀ history, session.history <+: history →
      (host.disk history).openRead (downloadPath message) = some content) :
    sentBytes (host.downloadFile session message).history =
      sentBytes session.history ++ ((Decimal.ofInt filesize).take (maxNumAlgsFilesize - 1) ++
        (content.take (Decimal.toInt32 filesize).toNat ++ literal "> ")) := by
  simp only [downloadFile, measured]
  rw [if_neg (by omega), if_neg (by simp [sends]), opened, afterCommand_sent, sendFile_sent]
  · simp [sentBytes, FtpSession.send, List.append_assoc]
  · exact (List.prefix_append _ _).trans (List.prefix_append _ _)

/-- The reply to a file name is the size of the file, its content, and the next prompt. -/
theorem downloadFile_sent (host : Host) (sends : ∀ history, host.sends history = true)
    (session : FtpSession) (message content : List UInt8) (bounded : content.length ≤ 2 ^ 31 - 1)
    (measured : getFileSize (host.disk session.history) (downloadPath message) = content.length)
    (opened : ∀ history, session.history <+: history →
      (host.disk history).openRead (downloadPath message) = some content) :
    sentBytes (host.downloadFile session message).history =
      sentBytes session.history ++
        (Decimal.ofInt content.length ++ (content ++ literal "> ")) := by
  have printed : (Decimal.ofInt content.length).length ≤ maxNumAlgsFilesize - 1 :=
    Decimal.ofInt_length_le _ (by decide) (by omega) (by
      rw [maxNumAlgsFilesize]
      omega)
  rw [host.downloadFile_sent_measured sends session message content (by omega) measured opened,
    List.take_of_length_le printed, Decimal.toInt32_eq_self (by omega) (by omega),
    Int.toNat_natCast, List.take_length]

end Host

/-- With the whole reply on its way, the client writes the file and leaves the server's next bytes
alone exactly when its first `recv` returns the size and nothing else. -/
theorem download_exact_iff (host : Host) (sends : ∀ history, host.sends history = true)
    (session : FtpSession) (asked : session.pc = .downloadFilename)
    (message content later : List UInt8) (bounded : content.length ≤ 2 ^ 31 - 1)
    (measured : ∀ history, session.history <+: history →
      getFileSize (host.disk history) (downloadPath (CString.text message)) = content.length)
    (opened : ∀ history, session.history <+: history →
      (host.disk history).openRead (downloadPath (CString.text message)) = some content)
    (segments : List (List UInt8))
    (stream : sentBytes session.history ++ segments.flatten =
      sentBytes (host.advance session (.data message)).history ++ later) :
    (∃ rest, FtpClient.download.settle (FtpClient.awaitDownload true) segments =
        (.finished 0 (some content), rest) ∧ rest.flatten = literal "> " ++ later) ↔
      ∃ rest, SegmentedStream.recv bufferSize segments =
        some (Decimal.ofInt content.length, rest) := by
  have read : session.history <+:
      (session.record (.read .downloadFilename (.data message))).history := List.prefix_append _ _
  have sent := host.downloadFile_sent sends _ (CString.text message) content bounded
    (measured _ read) fun history longer => opened history (read.trans longer)
  have quiet : sentBytes (session.record (.read .downloadFilename (.data message))).history =
      sentBytes session.history := by
    rw [FtpSession.record_history, sentBytes_append]
    exact List.append_nil _
  rw [Host.advance, asked] at stream
  simp only [fillBufferWithResponse] at stream
  rw [sent, quiet, List.append_assoc] at stream
  apply FtpClient.settle_content_iff bounded
  simpa only [List.append_assoc] using List.append_cancel_left stream

/-- A session whose client has just asked for a file. -/
def FtpSession.downloading : FtpSession := { pc := .downloadFilename, name := [], history := [] }

/-- The content `xyz` in two pieces, the second of which goes on with the prompt. -/
theorem download_exact_iff_bordered :
    (∃ rest, FtpClient.download.settle (FtpClient.awaitDownload true)
        [literal "3", literal "xy", literal "z> "] =
        (.finished 0 (some (literal "xyz")), rest) ∧ rest.flatten = literal "> " ++ []) ↔
      ∃ rest, SegmentedStream.recv bufferSize [literal "3", literal "xy", literal "z> "] =
        some (Decimal.ofInt (literal "xyz").length, rest) :=
  download_exact_iff (.steady (.holding (literal "xyz"))) (fun _ => rfl) .downloading rfl
    (literal "a\n") (literal "xyz") [] (by decide) (fun _ _ => rfl) (fun _ _ => rfl) _
    (by decide +kernel)

/-- The size and the content `xyz` in one segment: the content is lost, and the client goes on to
take the prompt for it. -/
theorem download_coalesced :
    sentBytes ((Host.steady (.holding (literal "xyz"))).advance .downloading
        (.data (literal "a\n"))).history = [literal "3xyz", literal "> "].flatten ∧
      FtpClient.download.settle (FtpClient.awaitDownload true) [literal "3xyz", literal "> "] =
        (.content 1 (literal "> "), []) ∧
      ¬ ∃ rest, FtpClient.download.settle (FtpClient.awaitDownload true)
          [literal "3xyz", literal "> "] = (.finished 0 (some (literal "xyz")), rest) ∧
        rest.flatten = literal "> " := by
  have settled : FtpClient.download.settle (FtpClient.awaitDownload true)
      [literal "3xyz", literal "> "] = (.content 1 (literal "> "), []) := by decide +kernel
  refine ⟨by decide +kernel, settled, ?_⟩
  rw [settled]
  intro arrived
  obtain ⟨rest, finished, -⟩ := arrived
  exact FtpClient.DownloadPc.noConfusion (Prod.mk.inj finished).1

end CmyMessage
