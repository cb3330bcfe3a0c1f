import CmyMessage.FileTransfer.Server
import CmyMessage.Foundation.SendLoop

/-!
# The FTP client

What `ftp_client.c` sends.  None of it depends on what the client receives, so a typed line, the
file name asked for after it and the answers of the client's file system determine it.
-/

namespace CmyMessage

/-- What the client sends between two `recv` results of the server that need not be one. -/
inductive Message
  /-- The text of one `send`, with the `recv` of the server it is meant for. -/
  | control (site : ReadSite) (text : List UInt8)
  /-- The file content sent by the loop of `upload_file`. -/
  | content (bytes : List UInt8)
  deriving DecidableEq

namespace Message

/-- The bytes put on the stream. -/
def bytes : Message → List UInt8
  | control _ text => text
  | content bytes => bytes

/-- What is left of a message of which `count` bytes were read. -/
def drop (count : Nat) : Message → Message
  | control site text => control site (text.drop count)
  | content bytes => content (bytes.drop count)

end Message

/-- A `send` of nothing leaves no trace on the stream. -/
def transmitted (messages : List Message) : List Message :=
  messages.filter fun message => decide (message.bytes ≠ [])

namespace FtpClient

/-- `upload_file`, where `fgets` reads `answer` and the file system answers as `checked` when the
size is asked for and as `opened` when the file is opened. -/
def uploadFile (checked opened : Disk) (answer : Option (List UInt8)) : List Message :=
  match answer with
  | none => [.control .command (literal "--upload")]
  | some line =>
      let filename := withoutNewline (CString.text line)
      let filesize := getFileSize checked (uploadPath filename)
      if filesize < 0 then [.control .command (literal "--upload")]
      else if maxFileSize < filesize then [.control .command (literal "--upload")]
      else
        [.control .command (literal "--upload"), .control .uploadFilename filename,
          .control .uploadFilesize ((Decimal.ofInt filesize).take (maxNumAlgsFilesize - 1))] ++
        match opened.openRead (uploadPath filename) with
        | none => []
        | some content => [.content (chunks filesize.toNat filesize.toNat content).flatten]

/-- `download_file`, where `fgets` reads `answer`; without one the zeroed buffer is sent. -/
def downloadFile (answer : Option (List UInt8)) : List Message :=
  [.control .command (literal "--download"),
    .control .downloadFilename (CString.text (answer.getD []))]

/-- One iteration of `keep_connection_with_server_cli` on a typed line. -/
structure Round where
  /-- The line `fgets` reads at the prompt. -/
  line : List UInt8
  /-- The line `fgets` reads for the name of a file, if it reads one. -/
  answer : Option (List UInt8)
  /-- The file system when the size of the file is asked for. -/
  checked : Disk
  /-- The file system when the file is opened. -/
  opened : Disk
  /-- `fgets` leaves room for the terminator. -/
  line_fits : line.length < bufferSize
  /-- `fgets` leaves room for the terminator. -/
  answer_fits : ∀ text ∈ answer, text.length < bufferSize

namespace Round

/-- The sanitized line. -/
def buffer (round : Round) : List UInt8 := withoutNewline (CString.text round.line)

/-- The line asks for an upload or a download. -/
def isTransfer (round : Round) : Bool :=
  decide (round.buffer ∈ cmdUpload ∨ round.buffer ∈ cmdDownload)

/-- What is sent for the line; a line that is no transfer answers the server's question `site`. -/
def messages (round : Round) (site : ReadSite) : List Message :=
  if round.buffer ∈ cmdUpload then uploadFile round.checked round.opened round.answer
  else if round.buffer ∈ cmdDownload then downloadFile round.answer
  else [.control site round.buffer]

end Round

/-- The bytes a client sends for some lines typed at the server's prompt. -/
def stream (rounds : List Round) : List UInt8 :=
  (rounds.flatMap fun round => round.messages .command).flatMap Message.bytes

end FtpClient

/-! ## Strings and chunks -/

theorem withoutNewline_append_newline (text : List UInt8) :
    withoutNewline (text ++ [10]) = text := by
  simp [withoutNewline]

theorem withoutNewline_eq_self {text : List UInt8} (free : 10 ∉ text) :
    withoutNewline text = text := by
  refine if_neg fun last => free ?_
  exact List.mem_of_getLast? last

theorem withoutNewline_isPrefix (text : List UInt8) : withoutNewline text <+: text := by
  rw [withoutNewline]
  split
  · exact List.dropLast_prefix text
  · exact List.prefix_rfl

theorem zero_notMem_withoutNewline {text : List UInt8} (nonzero : 0 ∉ text) :
    0 ∉ withoutNewline text := fun member => nonzero ((withoutNewline_isPrefix text).subset member)

/-- The chunks of a file are the bytes it was asked for, as far as they are there. -/
theorem chunks_flatten {fuel remaining : Nat} (enough : remaining ≤ fuel) (content : List UInt8) :
    (chunks fuel remaining content).flatten = content.take remaining := by
  fun_induction chunks with
  | case1 => simp [Nat.le_zero.mp enough]
  | case2 fuel remaining content done =>
      rcases done with rfl | rfl <;> simp
  | case3 fuel remaining content more ih =>
      rw [not_or, ← List.length_eq_zero_iff] at more
      have read : 0 < (content.take (min remaining bufferSize)).length := by
        rw [List.length_take, bufferSize]
        omega
      rw [List.flatten_cons, ih (by omega)]
      exact (SendLoop.take_eq_take_append (Nat.min_le_left remaining bufferSize) content).symm

/-- What is sent for a file that passes the checks of the client: its name, its size, and as much of
it as the size says, if it opens. -/
theorem FtpClient.uploadFile_eq {checked : Disk} (opened : Disk) {line filename : List UInt8}
    {filesize : Int} (named : withoutNewline (CString.text line) = filename)
    (measured : getFileSize checked (uploadPath filename) = filesize) (natural : 0 ≤ filesize)
    (bounded : filesize ≤ maxFileSize) :
    uploadFile checked opened (some line) =
      .control .command (literal "--upload") :: .control .uploadFilename filename ::
        .control .uploadFilesize (Decimal.ofInt filesize) ::
          ((opened.openRead (uploadPath filename)).map fun content =>
            .content (content.take filesize.toNat)).toList := by
  have printed : (Decimal.ofInt filesize).length ≤ maxNumAlgsFilesize - 1 :=
    Decimal.ofInt_length_le _ (by decide) natural (by
      rw [maxFileSize] at bounded
      rw [maxNumAlgsFilesize]
      omega)
  simp only [uploadFile, named, measured]
  rw [if_neg (by omega), if_neg (by omega), List.take_of_length_le printed]
  cases opened.openRead (uploadPath filename) with
  | none => rfl
  | some content =>
      simp only [chunks_flatten (Nat.le_refl _)]
      rfl

end CmyMessage
