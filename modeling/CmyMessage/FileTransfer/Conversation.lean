import CmyMessage.FileTransfer.Client
import CmyMessage.FileTransfer.Session
import CmyMessage.Foundation.LabelledSystem

/-!
# A client and its server

The two programs with the messages between them.  A label is a line typed at the client, whose
messages are then in flight, or a `recv` of the server, which returns a control message whole and as
much of a file's content as the network likes.  A conversation is in phase when the server, having
read everything, has read every control message at the place it was meant for and stands at its
prompt after a transfer.
-/

namespace CmyMessage

namespace Message

/-- The control messages with the places they are meant for. -/
def controls (messages : List Message) : List (ReadSite × List UInt8) :=
  messages.filterMap fun
    | control site text => some (site, text)
    | content _ => none

/-- A `recv` for at most `capacity` bytes may return the first `count` bytes of the message. -/
def canReturn (capacity count : Nat) : Message → Bool
  | control _ text => decide (0 < count ∧ count = min capacity text.length)
  | content bytes => decide (0 < count ∧ count ≤ min capacity bytes.length)

end Message

/-- A client and its server. -/
structure Conversation where
  /-- The server. -/
  session : FtpSession
  /-- What was sent and not yet read, oldest first. -/
  inFlight : List Message
  /-- The control messages sent so far. -/
  sent : List (ReadSite × List UInt8)
  /-- The last line typed was an upload or a download. -/
  transfer : Bool

namespace Conversation

/-- Before anything is typed. -/
def start : Conversation := ⟨serveClientWithFTP true, [], [], false⟩

/-- What can happen next. -/
inductive Label
  /-- A line is typed at the client's prompt, and everything it asks for is sent. -/
  | type (round : FtpClient.Round)
  /-- The server's `recv` returns `count` bytes. -/
  | receive (count : Nat)

/-- The first message answers the question for the name. -/
def site (conversation : Conversation) : ReadSite :=
  if conversation.sent = [] then .name else .command

/-- One iteration of the client's loop. -/
def type (conversation : Conversation) (round : FtpClient.Round) : Conversation :=
  { conversation with
    inFlight := conversation.inFlight ++ transmitted (round.messages conversation.site)
    sent := conversation.sent ++
      Message.controls (transmitted (round.messages conversation.site))
    transfer := round.isTransfer }

/-- One `recv` of the server and the work after it. -/
def receive (host : Host) (conversation : Conversation) (count : Nat) : Option Conversation :=
  match conversation.inFlight with
  | [] => none
  | message :: later =>
      if message.canReturn conversation.session.pc.capacity count then
        some { conversation with
          session := host.advance conversation.session (.data (message.bytes.take count))
          inFlight := transmitted [message.drop count] ++ later }
      else
        none

/-- The step relation, resolved by labels. -/
def step (host : Host) (conversation : Conversation) : Label → Option Conversation
  | .type round => some (conversation.type round)
  | .receive count => conversation.receive host count

/-- Once everything sent was read, the server stands at its prompt after a transfer, and it has read
the control messages where they were meant to be read. -/
def InPhase (conversation : Conversation) : Prop :=
  conversation.inFlight = [] →
    (conversation.transfer = true → conversation.session.pc = .command) ∧
    messagesRead conversation.session.history = conversation.sent

end Conversation

/-- A client and its server as a transition system. -/
def conversations (host : Host) : LabelledSystem Conversation Conversation.Label where
  Initial conversation := conversation = .start
  step := Conversation.step host

namespace FtpClient.Round

/-- What the line announces is what is sent: a name, and for an upload a size that the server reads
as the number of bytes that follow. -/
def completes (round : Round) : Bool :=
  if round.buffer ∈ cmdUpload then
    match round.answer with
    | none => false
    | some line =>
        let filename := withoutNewline (CString.text line)
        let filesize := getFileSize round.checked (uploadPath filename)
        let content := ((round.opened.openRead (uploadPath filename)).getD []).take filesize.toNat
        decide (filename ≠ [] ∧ 0 ≤ filesize ∧ filesize ≤ maxFileSize ∧
          (Decimal.toInt32 filesize).toNat = content.length)
  else if round.buffer ∈ cmdDownload then
    decide (CString.text (round.answer.getD []) ≠ [])
  else
    true

end FtpClient.Round

namespace Conversation

/-- The steps that keep a conversation in phase.  A transfer is typed after the name was given, and
the client sends what it announces; the server opens the file of an upload unless its size is zero
or less. -/
def keepsPhase (host : Host) (conversation : Conversation) : Label → Bool
  | .type round =>
      round.completes && (!round.isTransfer || decide (conversation.sent ≠ []))
  | .receive _ =>
      match conversation.session.pc, conversation.inFlight with
      | .uploadFilesize filename, message :: _ =>
          decide (Decimal.atoi (CString.text message.bytes) ≤ 0) ||
            (host.disk (conversation.session.history ++
              [.read .uploadFilesize (.data message.bytes)])).openWrite (uploadPath filename)
      | _, _ => true

end Conversation

end CmyMessage
