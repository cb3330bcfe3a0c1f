import CmyMessage.FileTransfer.Download
import CmyMessage.FileTransfer.InPhase

/-!
# The client's terminal

`keep_connection_with_server_cli` with both of its branches, beside the conversation it drives.  A
typed line sends what it asks for; then the client is back in `select`, waits for the confirmation
of an upload, or receives a file.  What the server has sent and the client has not yet taken is a
stream of which a `recv` returns any part.
-/

namespace CmyMessage

/-- Where the client stands. -/
inductive TerminalPc
  /-- In `select`. -/
  | select
  /-- In the `recv` at the end of `upload_file`. -/
  | confirmation
  /-- In `download_file`, with the name of the local file. -/
  | download (filename : List UInt8) (pc : FtpClient.DownloadPc)
  /-- `keep_connection_with_server_cli` has returned. -/
  | finished (status : Int)
  deriving DecidableEq

/-- A client at its terminal and its server. -/
structure Terminal where
  /-- The server and the messages on their way to it. -/
  conversation : Conversation := .start
  /-- Where the client stands. -/
  pc : TerminalPc := .select
  /-- How many bytes of the server's the client has taken. -/
  taken : Nat := 0
  /-- What the client has printed of them. -/
  shown : List UInt8 := []
  /-- The files the client has written, under the names typed for them. -/
  files : List (List UInt8 × List UInt8) := []
  /-- Record of the lines typed. -/
  lines : List FtpClient.Round := []
  /-- Record of what the server found for each name asked for. -/
  fetched : List (List UInt8 × List UInt8) := []

/-- The texts a session has sent. -/
def sentTexts (history : List FtpEvent) : List (List UInt8) :=
  history.filterMap fun
    | .sent text => some text
    | _ => none

/-- The files a session has stored. -/
def storedFiles (history : List FtpEvent) : List (List UInt8 × List UInt8) :=
  history.filterMap fun
    | .stored path content => some (path, content)
    | _ => none

/-- What is left of the first text of which not everything was taken. -/
def unreadText : Nat → List (List UInt8) → List UInt8
  | _, [] => []
  | taken, text :: texts =>
      if taken < text.length then text.drop taken else unreadText (taken - text.length) texts

/-- What `download_file` finds for a message, if the file is there. -/
def Host.found (host : Host) (session : FtpSession) (message : List UInt8) :
    Option (List UInt8) :=
  let path := downloadPath (CString.text message)
  let read := session.record (.read .downloadFilename (.data message))
  let filesize := getFileSize (host.disk read.history) path
  if filesize < 0 then none
  else
    (host.disk ((read.record (.measured path)).send
      ((Decimal.ofInt filesize).take (maxNumAlgsFilesize - 1))).history).openRead path

namespace FtpClient.Round

/-- The name of the file to upload. -/
def filename (round : Round) : List UInt8 := withoutNewline (CString.text (round.answer.getD []))

/-- The name of the file to download. -/
def target (round : Round) : List UInt8 := CString.text (round.answer.getD [])

/-- The size announced for the local file. -/
def filesize (round : Round) : Int := getFileSize round.checked (uploadPath round.filename)

/-- The content of the local file, up to the size announced for it. -/
def content (round : Round) : List UInt8 :=
  ((round.opened.openRead (uploadPath round.filename)).getD []).take round.filesize.toNat

/-- `upload_file` sends a file and comes to its end. -/
def sendsFile (round : Round) : Bool :=
  round.answer.isSome && decide (0 ≤ round.filesize ∧ round.filesize ≤ maxFileSize) &&
    (round.opened.openRead (uploadPath round.filename)).isSome &&
    decide (round.content.length = round.filesize.toNat)

/-- The path on the server and the content of the file to upload, if the line asks for that. -/
def upload (round : Round) : Option (List UInt8 × List UInt8) :=
  if round.buffer ∈ cmdUpload then some (uploadPath round.filename, round.content) else none

end FtpClient.Round

namespace Terminal

/-- The server. -/
def session (terminal : Terminal) : FtpSession := terminal.conversation.session

/-- The uploads typed. -/
def uploads (terminal : Terminal) : List (List UInt8 × List UInt8) :=
  terminal.lines.filterMap FtpClient.Round.upload

/-- What the server has sent and the client has not taken. -/
def unread (terminal : Terminal) : List UInt8 :=
  (sentBytes terminal.session.history).drop terminal.taken

/-- The client goes on with a download, or comes back from it. -/
def continueDownload (terminal : Terminal) (filename : List UInt8) (pc : FtpClient.DownloadPc) :
    Terminal :=
  match pc with
  | .finished _ file =>
      { terminal with
        pc := .select
        files := terminal.files ++ file.toList.map fun content => (filename, content) }
  | _ => { terminal with pc := .download filename pc }

/-- The stdin branch of `keep_connection_with_server_cli`, up to the first `recv` it leads to. -/
def type (terminal : Terminal) (round : FtpClient.Round) : Terminal :=
  let asked :=
    { terminal with
      conversation := terminal.conversation.type round
      lines := terminal.lines ++ [round] }
  if round.buffer ∈ cmdUpload then
    { asked with pc := if round.sendsFile then .confirmation else .select }
  else if round.buffer ∈ cmdDownload then
    asked.continueDownload round.target
      (FtpClient.awaitDownload (round.opened.openWrite round.target))
  else asked

/-- The client's `recv` returns.  In `fill_buffer_with_response` the result is not looked at. -/
def received (terminal : Terminal) (result : RecvResult) : Terminal :=
  match terminal.pc, result with
  | .select, .error => { terminal with pc := .finished (-3) }
  | .select, .closed => { terminal with pc := .finished 0 }
  | .select, .data bytes => { terminal with shown := terminal.shown ++ CString.text bytes }
  | .confirmation, result =>
      { terminal with
        pc := .select
        shown := terminal.shown ++ (fillBufferWithResponse result).2 }
  | .download filename pc, result =>
      terminal.continueDownload filename (FtpClient.downloadReceived pc result)
  | .finished _, _ => terminal

/-- How much the client's next `recv` asks for, or zero when there is none. -/
def capacity (terminal : Terminal) : Nat :=
  match terminal.pc with
  | .download _ pc => pc.capacity
  | .finished _ => 0
  | _ => bufferSize

/-- What can happen next. -/
inductive Label
  /-- A line is typed, and what it asks for is sent. -/
  | type (round : FtpClient.Round)
  /-- The server's `recv` returns `count` bytes. -/
  | receive (count : Nat)
  /-- The client's `recv` returns `count` bytes. -/
  | take (count : Nat)
  /-- The client's `recv` reports an error. -/
  | fails
  /-- The client's `recv` reports that the server has closed the connection. -/
  | closed
  /-- `select` fails, or the client's input has ended. -/
  | leaves (status : Int)

/-- What the server finds for the name it reads next. -/
def fetches (host : Host) (terminal : Terminal) (count : Nat) :
    List (List UInt8 × List UInt8) :=
  match terminal.session.pc, terminal.conversation.inFlight with
  | .downloadFilename, message :: _ =>
      let text := message.bytes.take count
      [(text, (host.found terminal.session text).getD [])]
  | _, _ => []

/-- The step relation, resolved by labels. -/
def step (host : Host) (terminal : Terminal) : Label → Option Terminal
  | .type round => if terminal.pc = .select then some (terminal.type round) else none
  | .receive count =>
      (terminal.conversation.receive host count).map fun conversation =>
        { terminal with
          conversation
          fetched := terminal.fetched ++ terminal.fetches host count }
  | .take count =>
      if 0 < count ∧ count ≤ min terminal.capacity terminal.unread.length then
        some ({ terminal with taken := terminal.taken + count }.received
          (.data (terminal.unread.take count)))
      else none
  | .fails => if 0 < terminal.capacity then some (terminal.received .error) else none
  | .closed =>
      if 0 < terminal.capacity ∧ terminal.session.pc.capacity = 0 ∧ terminal.unread = [] then
        some (terminal.received .closed)
      else none
  | .leaves status =>
      if terminal.pc = .select then some { terminal with pc := .finished status } else none

/-- The steps that keep the transfers faithful, besides keeping the conversation in phase.  The
server opens what it is to write, and the file it reads is as long as it was measured.  `fgets`
leaves no newline inside a name.  A download is typed at the server's prompt, when everything sent
either way was taken, into a file that can be created; the `recv` for its size returns what the
server sent first, and no other fails. -/
def keepsFiles (host : Host) (terminal : Terminal) : Label → Bool
  | .type round =>
      terminal.conversation.keepsPhase host (.type round) &&
        if round.buffer ∈ cmdUpload then decide (10 ∉ round.filename)
        else if round.buffer ∈ cmdDownload then
          decide (terminal.session.pc = .command ∧ terminal.conversation.inFlight = [] ∧
            terminal.unread = []) && round.opened.openWrite round.target
        else true
  | .receive count =>
      terminal.conversation.keepsPhase host (.receive count) &&
        match terminal.session.pc, terminal.conversation.inFlight with
        | .uploadFilesize filename, message :: _ =>
            (host.disk (terminal.session.history ++
              [.read .uploadFilesize (.data message.bytes)])).openWrite (uploadPath filename)
        | .downloadFilename, message :: _ =>
            let filesize := getFileSize (host.disk (terminal.session.history ++
              [.read .downloadFilename (.data message.bytes)]))
                (downloadPath (CString.text message.bytes))
            decide (filesize < 0) ||
              match host.found terminal.session message.bytes with
              | none => false
              | some content => decide (filesize = content.length ∧ content.length < 2 ^ 31)
        | _, _ => true
  | .take count =>
      match terminal.pc with
      | .download _ .filesize =>
          decide (count = (unreadText terminal.taken
            (sentTexts terminal.session.history)).length)
      | _ => true
  | .fails =>
      match terminal.pc with
      | .download _ _ => false
      | _ => true
  | _ => true

end Terminal

/-- A client at its terminal and its server as a transition system. -/
def terminals (host : Host) : LabelledSystem Terminal Terminal.Label where
  Initial terminal := terminal = {}
  step := Terminal.step host

end CmyMessage
