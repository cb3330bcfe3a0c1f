import CmyMessage.Foundation.CString
import CmyMessage.Foundation.Decimal
import CmyMessage.Foundation.SegmentedStream
import CmyMessage.Foundation.Socket
import CmyMessage.Settings

/-!
# The FTP service

One session of `ftp_service.c`, cut at its `recv` calls: between two of them it is a function of the
result of the first.  A `Host` answers the calls on the file system and says which `send` succeeds;
its answers may depend on everything the session did before, which the session records.
-/

namespace CmyMessage

/-- `PATH_ASSETS_FOLDER` -/
def pathAssetsFolder : List UInt8 := literal "assets/"

/-- `MAX_FILE_SIZE` -/
def maxFileSize : Int := 1024 * 1024 * 10 * 1000

/-- `MAX_LEN_FILE_PATH` -/
def maxLenFilePath : Nat := 1000

/-- `MAX_NUM_ALGS_FILESIZE` -/
def maxNumAlgsFilesize : Nat := 20

/-- `CLIENT_DISCONNECTED` -/
def clientDisconnected : Int := 404

/-- What the file system answers. -/
structure Disk where
  /-- `access` with `F_OK` succeeds. -/
  access : List UInt8 → Bool
  /-- `stat` succeeds. -/
  stat : List UInt8 → Bool
  /-- The content behind a file opened with `fopen` for reading, if it opens. -/
  openRead : List UInt8 → Option (List UInt8)
  /-- `ftell` at the end of the file. -/
  ftell : List UInt8 → Int
  /-- `fopen` for writing succeeds. -/
  openWrite : List UInt8 → Bool
  /-- The names read from a directory, if `opendir` succeeds. -/
  entries : List UInt8 → Option (List (List UInt8))

/-- `get_file_size` -/
def getFileSize (disk : Disk) (fileCompletePath : List UInt8) : Int :=
  if disk.access fileCompletePath = false then -1
  else if maxLenFilePath - 1 < fileCompletePath.length then -2
  else if disk.stat fileCompletePath = false then -3
  else
    match disk.openRead fileCompletePath with
    | none => -1
    | some _ => disk.ftell fileCompletePath

/-! ## Commands -/

/-- What a command text asks for. -/
inductive FtpCommand
  | help | upload | download | exit | list
  /-- Any other text. -/
  | invalid
  deriving DecidableEq

/-- `CMD_HELP_SHORT` and `CMD_HELP_FULL` -/
def cmdHelp : List (List UInt8) := [literal "-h", literal "--help"]

/-- `CMD_UPLOAD_SHORT` and `CMD_UPLOAD_FULL` -/
def cmdUpload : List (List UInt8) := [literal "-u", literal "--upload"]

/-- `CMD_DOWNLOAD_SHORT` and `CMD_DOWNLOAD_FULL` -/
def cmdDownload : List (List UInt8) := [literal "-d", literal "--download"]

/-- `CMD_EXIT_FULL` -/
def cmdExit : List (List UInt8) := [literal "--exit"]

/-- `CMD_LIST_SHORT` and `CMD_LIST_FULL` -/
def cmdList : List (List UInt8) := [literal "-l", literal "--list"]

/-- A text is compared with each of some other texts by `strcmp`. -/
instance decidableMemTexts (text : List UInt8) (texts : List (List UInt8)) :
    Decidable (text ∈ texts) := List.instDecidableMemOfLawfulBEq text texts

/-- The comparisons of `input_client_commands`. -/
def FtpCommand.parse (text : List UInt8) : FtpCommand :=
  if text ∈ cmdHelp then .help
  else if text ∈ cmdUpload then .upload
  else if text ∈ cmdDownload then .download
  else if text ∈ cmdExit then .exit
  else if text ∈ cmdList then .list
  else .invalid

/-! ## State -/

/-- The `recv` calls that read a message of the client other than file content. -/
inductive ReadSite
  /-- In `ask_client_basic_details`. -/
  | name
  /-- In the loop of `input_client_commands`. -/
  | command
  | uploadFilename
  | uploadFilesize
  | downloadFilename
  deriving DecidableEq

/-- What a session does that others can observe. -/
inductive FtpEvent
  /-- A `recv` for a message. -/
  | read (site : ReadSite) (result : RecvResult)
  /-- A `send`. -/
  | sent (text : List UInt8)
  /-- The command a text was taken for. -/
  | executed (command : FtpCommand)
  /-- The status a function called for a command returned, which nobody reads. -/
  | returned (command : FtpCommand) (status : Int)
  /-- `get_file_size` was asked about a path. -/
  | measured (path : List UInt8)
  /-- `fopen` for reading. -/
  | openedForReading (path : List UInt8)
  /-- `fopen` for writing. -/
  | openedForWriting (path : List UInt8)
  /-- A file opened for writing was closed. -/
  | stored (path content : List UInt8)
  deriving DecidableEq

/-- Where a session stands. -/
inductive FtpPc
  /-- Before a `recv` for a message; an upload that waits for the size has read its name. -/
  | name
  | command
  | uploadFilename
  | uploadFilesize (filename : List UInt8)
  | downloadFilename
  /-- Before the `recv` of `receive_file`. -/
  | content (path : List UInt8) (remaining : Nat) (written : List UInt8)
  /-- `serve_client_with_FTP` has returned, after `input_client_commands` returned the status. -/
  | finished (status : Int)
  /-- `serve_client_with_FTP` has called `exit(EXIT_FAILURE)`. -/
  | exited
  /-- The block of a file name was freed twice, on which the allocator aborts the process. -/
  | aborted
  deriving DecidableEq

/-- A session of the FTP service. -/
structure FtpSession where
  /-- Where the session stands. -/
  pc : FtpPc
  /-- `name` -/
  name : List UInt8
  /-- What the session did so far. -/
  history : List FtpEvent
  deriving DecidableEq

/-- What the environment answers after a history. -/
structure Host where
  /-- The file system. -/
  disk : List FtpEvent → Disk
  /-- The next `send` succeeds. -/
  sends : List FtpEvent → Bool

namespace FtpSession

/-- Move to another position. -/
def goto (session : FtpSession) (pc : FtpPc) : FtpSession := { session with pc }

/-- Record an event. -/
def record (session : FtpSession) (event : FtpEvent) : FtpSession :=
  { session with history := session.history ++ [event] }

/-- `send`, whose result is `host.sends` of the history before it. -/
def send (session : FtpSession) (text : List UInt8) : FtpSession := session.record (.sent text)

end FtpSession

/-! ## The functions of the source -/

/-- `fill_buffer_with_response`: its status and the string it leaves in the buffer. -/
def fillBufferWithResponse : RecvResult → Int × List UInt8
  | .error => (-1, [])
  | .closed => (-2, [])
  | .data bytes => (bytes.length, CString.text bytes)

/-- The copy of a string without the newline at its end, if it has one. -/
def withoutNewline (text : List UInt8) : List UInt8 :=
  if text.getLast? = some 10 then text.dropLast else text

/-- The path `upload_file` opens for a file name. -/
def uploadPath (filename : List UInt8) : List UInt8 :=
  (pathAssetsFolder ++ filename).take (maxLenFilePath - 1)

/-- The path `download_file` measures and opens for a message.  The last byte of the string is
dropped, whatever it is; of an empty string, a byte in front of the block is overwritten. -/
def downloadPath (message : List UInt8) : List UInt8 := pathAssetsFolder ++ message.dropLast

/-- The chunks a file is sent in: each is what `fread` gives of at most `BUFFER_SIZE` bytes, until
`remaining` bytes are sent or nothing is left to read. -/
def chunks : Nat → Nat → List UInt8 → List (List UInt8)
  | 0, _, _ => []
  | fuel + 1, remaining, content =>
      if remaining = 0 ∨ content = [] then []
      else
        content.take (min remaining bufferSize) ::
          chunks fuel (remaining - (content.take (min remaining bufferSize)).length)
            (content.drop (min remaining bufferSize))

/-- `send_file`, where every `send` takes the whole chunk or its failure is not noticed. -/
def sendFile (session : FtpSession) (content : List UInt8) (filesize : Int) : FtpSession :=
  (chunks filesize.toNat filesize.toNat content).foldl FtpSession.send session

namespace Host

/-- The start of an iteration of `input_client_commands`, up to its `recv`. -/
def promptCommand (host : Host) (session : FtpSession) : FtpSession :=
  if host.sends session.history then
    (session.send (literal "> ")).goto .command
  else
    (session.send (literal "> ")).goto (.finished (-3))

/-- The end of an iteration of `input_client_commands` with a message for the client. -/
def giveFeedback (host : Host) (session : FtpSession) (feedbackMsg : List UInt8)
    (clientsWantsExit : Bool) : FtpSession :=
  if host.sends session.history then
    if clientsWantsExit then
      (session.send feedbackMsg).goto (.finished 0)
    else
      host.promptCommand (session.send feedbackMsg)
  else
    (session.send feedbackMsg).goto (.finished (-2))

/-- The end of an iteration in which a function returned a status. -/
def afterCommand (host : Host) (session : FtpSession) (command : FtpCommand) (status : Int) :
    FtpSession :=
  host.promptCommand (session.record (.returned command status))

/-- `inform_client` -/
def informClient (host : Host) (session : FtpSession) : FtpSession :=
  host.afterCommand
    (session.send (literal ("\t-u (--upload)\n" ++ "\t-d (--download)\n" ++ "\t-l (--list)\n" ++
      "\t--exit (finish the session)\n")))
    .help (if host.sends session.history then 0 else -1)

/-- The loop of `list_files_curr_dir`. -/
def sendEntries (host : Host) : Nat → List (List UInt8) → FtpSession → FtpSession × Int
  | _, [], session => (session, 0)
  | fileIdx, entry :: entries, session =>
      if host.sends session.history then
        host.sendEntries (fileIdx + 1) entries (session.send
          (literal "(" ++ Decimal.digits fileIdx ++ literal ") " ++ entry ++ literal "\n"))
      else
        (session.send
          (literal "(" ++ Decimal.digits fileIdx ++ literal ") " ++ entry ++ literal "\n"), -1)

/-- `list_files_curr_dir` -/
def listFilesCurrDir (host : Host) (session : FtpSession) : FtpSession :=
  match (host.disk session.history).entries pathAssetsFolder with
  | none => host.afterCommand session .list 1
  | some entries =>
      host.afterCommand (host.sendEntries 0 entries session).1 .list
        (host.sendEntries 0 entries session).2

/-- `input_client_commands` on a text it read. -/
def interpret (host : Host) (session : FtpSession) (text : List UInt8) : FtpSession :=
  match FtpCommand.parse text with
  | .help => host.informClient (session.record (.executed .help))
  | .upload => (session.record (.executed .upload)).goto .uploadFilename
  | .download => (session.record (.executed .download)).goto .downloadFilename
  | .exit =>
      host.giveFeedback (session.record (.executed .exit))
        (literal "'--exit' option selected. Have a nice day!\n") true
  | .list => host.listFilesCurrDir (session.record (.executed .list))
  | .invalid =>
      host.giveFeedback (session.record (.executed .invalid))
        (literal "Invalid option. Please, try again.\n") false

/-- `input_client_commands` after the `recv` of its loop. -/
def commandReceived (host : Host) (session : FtpSession) (result : RecvResult) : FtpSession :=
  if (fillBufferWithResponse result).1 = clientDisconnected then
    (session.record (.read .command result)).goto (.finished 0)
  else
    host.interpret (session.record (.read .command result)) (fillBufferWithResponse result).2

/-- `download_file` after its `recv`, whose failure is not noticed. -/
def downloadFile (host : Host) (session : FtpSession) (message : List UInt8) : FtpSession :=
  let filesize := getFileSize (host.disk session.history) (downloadPath message)
  let measured := session.record (.measured (downloadPath message))
  let replied := measured.send ((Decimal.ofInt filesize).take (maxNumAlgsFilesize - 1))
  let opened := replied.record (.openedForReading (downloadPath message))
  if filesize < 0 then host.afterCommand measured .download 0
  else if host.sends measured.history = false then host.afterCommand replied .download (-1)
  else
    match (host.disk replied.history).openRead (downloadPath message) with
    | some content =>
        host.afterCommand (sendFile opened content (Decimal.toInt32 filesize)) .download 0
    | none =>
        host.afterCommand
          (opened.send (literal "File " ++ message.dropLast ++
            literal " not found. Please, try again.\n"))
          .download (if host.sends opened.history then -1 else -2)

/-- `upload_file` after its first `recv`. -/
def uploadFilenameReceived (host : Host) (session : FtpSession) (result : RecvResult) :
    FtpSession :=
  if (fillBufferWithResponse result).1 < 0 then
    host.afterCommand (session.record (.read .uploadFilename result)) .upload (-1)
  else
    (session.record (.read .uploadFilename result)).goto
      (.uploadFilesize (withoutNewline (fillBufferWithResponse result).2))

/-- The end of `upload_file` with its message to the client. -/
def finishUpload (host : Host) (session : FtpSession) (path written : List UInt8) : FtpSession :=
  host.afterCommand ((session.record (.stored path written)).send (literal "File uploaded!\n"))
    .upload 0

/-- The test of the loop of `receive_file`. -/
def receiveFile (host : Host) (session : FtpSession) (path : List UInt8) (remaining : Nat)
    (written : List UInt8) : FtpSession :=
  if 0 < remaining then session.goto (.content path remaining written)
  else host.finishUpload session path written

/-- `receive_file` after its `recv`.  On an error it frees the file name, as its caller does after
the message to the client. -/
def contentReceived (host : Host) (session : FtpSession) (path : List UInt8) (remaining : Nat)
    (written : List UInt8) : RecvResult → FtpSession
  | .error =>
      ((session.record (.stored path written)).send (literal "File uploaded!\n")).goto .aborted
  | .closed => host.receiveFile session path remaining written
  | .data bytes => host.receiveFile session path (remaining - bytes.length) (written ++ bytes)

/-- `upload_file` after its second `recv`. -/
def uploadFilesizeReceived (host : Host) (session : FtpSession) (filename : List UInt8)
    (result : RecvResult) : FtpSession :=
  let filesize := Decimal.atoi (fillBufferWithResponse result).2
  let read := session.record (.read .uploadFilesize result)
  let opened := read.record (.openedForWriting (uploadPath filename))
  if (fillBufferWithResponse result).1 < 0 then host.afterCommand read .upload (-2)
  else if maxFileSize < filesize then host.afterCommand read .upload (-3)
  else if (host.disk read.history).openWrite (uploadPath filename) then
    host.receiveFile opened (uploadPath filename) filesize.toNat []
  else
    host.afterCommand
      (opened.send ((literal "File '" ++ filename ++ literal "' may already exist.\n").take
        (bufferSize - 1)))
      .upload (if host.sends opened.history then -5 else -4)

/-- The welcome of `input_client_commands`. -/
def welcomeClient (host : Host) (session : FtpSession) : FtpSession :=
  let welcome := session.send (literal "Welcome to the uploading service, " ++
    literal "\x1b[32m" ++ session.name ++ literal "\x1b[0m" ++ literal "!\n\n" ++
    literal "Insert the desired command after the '>'.\n" ++
    literal "Enter '-h' (or '--help') for available commands.\n")
  if host.sends session.history then host.promptCommand welcome else welcome.goto (.finished (-2))

/-- `ask_client_basic_details` after its `recv`, and what `serve_client_with_FTP` does then. -/
def nameReceived (host : Host) (session : FtpSession) (result : RecvResult) : FtpSession :=
  match result with
  | .error => (session.record (.read .name result)).goto .exited
  | .closed => host.welcomeClient (session.record (.read .name result))
  | .data bytes =>
      host.welcomeClient { session.record (.read .name result) with name := CString.text bytes }

/-- The work of a session on the result of its `recv`, up to its next one. -/
def advance (host : Host) (session : FtpSession) (result : RecvResult) : FtpSession :=
  match session.pc with
  | .name => host.nameReceived session result
  | .command => host.commandReceived session result
  | .uploadFilename => host.uploadFilenameReceived session result
  | .uploadFilesize filename => host.uploadFilesizeReceived session filename result
  | .downloadFilename =>
      host.downloadFile (session.record (.read .downloadFilename result))
        (fillBufferWithResponse result).2
  | .content path remaining written => host.contentReceived session path remaining written result
  | .finished _ => session
  | .exited => session
  | .aborted => session

end Host

/-- How much the next `recv` of a session asks for, or zero when there is none. -/
def FtpPc.capacity : FtpPc → Nat
  | .content _ remaining _ => min remaining bufferSize
  | .finished _ => 0
  | .exited => 0
  | .aborted => 0
  | _ => bufferSize

/-- `serve_client_with_FTP` up to its first `recv`.  `prepare_client_structs_for_data` has no
`return` on its successful path, so what its caller sees there is up to the environment. -/
def serveClientWithFTP (prepared : Bool) : FtpSession :=
  let session : FtpSession := { pc := .name, name := [], history := [] }
  if prepared then
    session.send (literal "This is the FTP server. How can we call you? ")
  else
    (session.send (literal ("There was an error preparing your connection. Sorry. " ++
      "Please, try again.\n"))).goto .exited

/-- A session as a receiver of a stream whose peer stays connected. -/
def ftpServer (host : Host) : SegmentedStream.Receiver FtpSession UInt8 where
  capacity session := session.pc.capacity
  advance session bytes := host.advance session (.data bytes)

end CmyMessage
