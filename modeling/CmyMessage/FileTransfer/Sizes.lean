import CmyMessage.FileTransfer.Receiving

/-!
# File sizes on their way

A file size is measured as a 64-bit number, printed in decimal, sent, and read into an `int` by the
other side.  The client's `upload_file` counts its own 64-bit number down, the server's `send_file`
the `int` it is called with.
-/

namespace CmyMessage

/-- What the two sides of a transfer make of the size of a file. -/
structure SizeExchange where
  /-- What the sender counts down from. -/
  toSend : Int
  /-- The text the size is sent as. -/
  text : List UInt8
  /-- What the receiver counts down from. -/
  toReceive : Int

/-- The client's `upload_file` prints the `long` it has measured and counts it down as an `off_t`;
the server's `upload_file` reads an `int` and counts that down in `receive_file`. -/
def uploadSizes (filesize : Int) : SizeExchange :=
  let text := (Decimal.ofInt filesize).take (maxNumAlgsFilesize - 1)
  { toSend := filesize, text, toReceive := Decimal.atoi (fillBufferWithResponse (.data text)).2 }

/-- The server's `download_file` prints the `off_t` it has measured and passes it to `send_file` as
an `int`; the client's `download_file` reads an `int` and counts that down. -/
def downloadSizes (filesize : Int) : SizeExchange :=
  let text := (Decimal.ofInt filesize).take (maxNumAlgsFilesize - 1)
  { toSend := Decimal.toInt32 filesize, text,
    toReceive := Decimal.atoi (fillBufferWithResponse (.data text)).2 }

/-! ## The programs -/

/-- A size the client does not refuse is printed whole. -/
theorem take_ofInt {filesize : Int} (natural : 0 ≤ filesize) (bounded : filesize ≤ maxFileSize) :
    (Decimal.ofInt filesize).take (maxNumAlgsFilesize - 1) = Decimal.ofInt filesize := by
  apply List.take_of_length_le
  apply Decimal.ofInt_length_le _ (by decide) natural
  rw [maxFileSize] at bounded
  rw [maxNumAlgsFilesize]
  omega

/-- What the client sends for a file that it has measured and not refused. -/
theorem FtpClient.uploadFile_sizes {checked : Disk} (opened : Disk) {line filename : List UInt8}
    {filesize : Int} (named : withoutNewline (CString.text line) = filename)
    (measured : getFileSize checked (uploadPath filename) = filesize) (natural : 0 ≤ filesize)
    (bounded : filesize ≤ maxFileSize) :
    uploadFile checked opened (some line) =
      .control .command (literal "--upload") :: .control .uploadFilename filename ::
        .control .uploadFilesize (uploadSizes filesize).text ::
          ((opened.openRead (uploadPath filename)).map fun content =>
            .content (content.take (uploadSizes filesize).toSend.toNat)).toList := by
  rw [uploadFile_eq opened named measured natural bounded, uploadSizes, take_ofInt natural bounded]

/-- What the server sets out to receive on the text of the client. -/
theorem Host.uploadFilesizeReceived_sizes (host : Host) {session : FtpSession}
    {filename : List UInt8} (filesize : Int)
    (opens : (host.disk (session.history ++
      [.read .uploadFilesize (.data (uploadSizes filesize).text)])).openWrite
        (uploadPath filename) = true) :
    host.uploadFilesizeReceived session filename (.data (uploadSizes filesize).text) =
      host.resumeUpload
        ((session.record (.read .uploadFilesize (.data (uploadSizes filesize).text))).record
          (.openedForWriting (uploadPath filename)))
        (uploadPath filename) (CmyMessage.receiveFile (uploadSizes filesize).toReceive) :=
  host.uploadFilesizeReceived_resumes _ opens

/-- What the server sends for a file that it has measured. -/
theorem Host.downloadFile_sizes (host : Host) (sends : ∀ history, host.sends history = true)
    (session : FtpSession) (message content : List UInt8) {filesize : Int} (natural : 0 ≤ filesize)
    (measured : getFileSize (host.disk session.history) (downloadPath message) = filesize)
    (opened : ∀ history, session.history <+: history →
      (host.disk history).openRead (downloadPath message) = some content) :
    sentBytes (host.downloadFile session message).history =
      sentBytes session.history ++ ((downloadSizes filesize).text ++
        (content.take (downloadSizes filesize).toSend.toNat ++ literal "> ")) :=
  host.downloadFile_sent_measured sends session message content natural measured opened

/-- What the client sets out to receive on the text of the server. -/
theorem FtpClient.downloadReceived_sizes (filesize : Int) :
    downloadReceived .filesize (.data (downloadSizes filesize).text) =
      receiveContent (downloadSizes filesize).toReceive.toNat [] := by
  rw [downloadReceived, downloadSizes]

/-! ## Agreement -/

/-- An `int` holds the sizes below two gigabytes. -/
theorem toInt32_eq_iff {number : Int} (natural : 0 ≤ number) :
    Decimal.toInt32 number = number ↔ number ≤ 2 ^ 31 - 1 := by
  constructor
  · intro same
    have bound := Decimal.toInt32_lt number
    omega
  · intro small
    exact Decimal.toInt32_eq_self (by omega) (by omega)

/-- The number that is read back is the low half of the one that was printed. -/
theorem atoi_sizeText {filesize : Int} (natural : 0 ≤ filesize) (bounded : filesize ≤ maxFileSize) :
    Decimal.atoi (fillBufferWithResponse
      (.data ((Decimal.ofInt filesize).take (maxNumAlgsFilesize - 1)))).2 =
        Decimal.toInt32 filesize := by
  rw [maxFileSize] at bounded
  rw [take_ofInt natural bounded, fillBufferWithResponse_data (Decimal.zero_notMem_ofInt _),
    Decimal.atoi_ofInt (by omega) (by omega)]

/-- In either direction both sides count down the size of the file, of all the sizes up to
`MAX_FILE_SIZE`, exactly if an `int` can hold it. -/
theorem transfer_sizes_agree_iff {filesize : Int} (natural : 0 ≤ filesize)
    (bounded : filesize ≤ maxFileSize) :
    ((uploadSizes filesize).toSend = filesize ∧ (uploadSizes filesize).toReceive = filesize ↔
      filesize ≤ 2 ^ 31 - 1) ∧
    ((downloadSizes filesize).toSend = filesize ∧ (downloadSizes filesize).toReceive = filesize ↔
      filesize ≤ 2 ^ 31 - 1) := by
  have read := atoi_sizeText natural bounded
  rw [← toInt32_eq_iff natural]
  constructor
  · exact (and_iff_right rfl).trans (by rw [uploadSizes, read])
  · rw [downloadSizes, read]
    exact and_self_iff

theorem transfer_sizes_agree_iff_largest :
    ((uploadSizes 2147483647).toSend = 2147483647 ∧
      (uploadSizes 2147483647).toReceive = 2147483647) ∧
    (downloadSizes 2147483647).toSend = 2147483647 ∧
      (downloadSizes 2147483647).toReceive = 2147483647 := by
  have agree := transfer_sizes_agree_iff (show (0 : Int) ≤ 2147483647 by decide) (by decide)
  exact ⟨agree.1.mpr (by decide), agree.2.mpr (by decide)⟩

/-- Of a file of two gigabytes the server sets out to receive a negative number of bytes, and of a
file of five bytes more than four gigabytes both sides count down five. -/
theorem transfer_sizes_differ :
    ((2147483648 : Int) ≤ maxFileSize ∧ (uploadSizes 2147483648).toReceive = -2147483648 ∧
      ¬ ((uploadSizes 2147483648).toSend = 2147483648 ∧
        (uploadSizes 2147483648).toReceive = 2147483648)) ∧
    (4294967301 : Int) ≤ maxFileSize ∧ (downloadSizes 4294967301).toSend = 5 ∧
      ¬ ((downloadSizes 4294967301).toSend = 4294967301 ∧
        (downloadSizes 4294967301).toReceive = 4294967301) := by
  decide +kernel

end CmyMessage
