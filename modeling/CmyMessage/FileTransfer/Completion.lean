import CmyMessage.FileTransfer.Transfers
import CmyMessage.Foundation.Progress
import Mathlib.Data.Prod.Lex

/-!
# Transfers come to rest

Client and server never wait for each other in vain.  Once nothing more is typed, every order in
which what is on its way arrives ends with the server at its prompt and the client in `select`, or
with the client gone: a download has something to take until its file is complete, and whoever waits
for the confirmation of an upload is answered.
-/

namespace CmyMessage

/-! ## The server replies -/

/-- After an earlier state, the session has come to a prompt of `input_client_commands`. -/
def Host.Prompted (host : Host) (before after : FtpSession) : Prop :=
  ∃ earlier : FtpSession, before.history <+: earlier.history ∧ after = host.promptCommand earlier

/-- A prompt is sent, whatever else was. -/
theorem Host.Prompted.speaks {host : Host} {before after : FtpSession}
    (prompted : host.Prompted before after) :
    (sentBytes before.history).length < (sentBytes after.history).length := by
  obtain ⟨earlier, ⟨events, grown⟩, rfl⟩ := prompted
  rw [host.promptCommand_history, ← grown, sentBytes_append, sentBytes_append, List.length_append,
    List.length_append]
  have prompt : (sentBytes [.sent (literal "> ")]).length = 2 := rfl
  omega

namespace Host

variable {host : Host}

end Host

/-! ## Where it ends -/

/-- How far a position is from the end of the client. -/
def TerminalPc.ahead : TerminalPc → Nat
  | .finished _ => 0
  | .select => 1
  | .download _ _ => 2
  | .confirmation => 3

namespace Terminal

/-- What is on its way arrives, or the end of the connection does. -/
def Label.delivers : Label → Bool
  | .receive _ => true
  | .take _ => true
  | .closed => true
  | _ => false

/-- A delivery that keeps the transfers faithful. -/
def Delivery (host : Host) (terminal : Terminal) (label : Label) : Prop :=
  label.delivers = true ∧ terminal.keepsFiles host label = true

/-- What the server reads next asks for a file that it cannot open for writing, or that is not as
long as it measures. -/
def Refused (host : Host) (terminal : Terminal) : Prop :=
  ∀ count, terminal.keepsFiles host (.receive count) = false

/-- Nothing is left to be delivered: the client is in `select`, has taken everything and has a
server that waits for it, or the client is gone and the server has read everything or is gone too.
What was uploaded is stored as far as the server has read it, and what was asked for is written. -/
structure AtRest (terminal : Terminal) : Prop where
  stands : (terminal.pc = .select ∧ terminal.unread = [] ∧ terminal.conversation.inFlight = [] ∧
      (terminal.session.pc = .name ∨ terminal.session.pc = .command)) ∨
    (∃ status, terminal.pc = .finished status) ∧
      (terminal.conversation.inFlight = [] ∨ terminal.session.pc = .finished 0)
  stored : terminal.conversation.inFlight = [] →
    storedFiles terminal.session.history = terminal.uploads
  written : terminal.files = terminal.fetched

/-- A client that waits for the confirmation of an upload is answered: what it has sent is on its
way, or something of the server's is, or the server is done. -/
def Attended (terminal : Terminal) : Prop :=
  terminal.pc = .confirmation → terminal.conversation.inFlight ≠ [] ∨ terminal.unread ≠ [] ∨
    terminal.session.pc.capacity = 0

/-! ## Nobody is forgotten -/

theorem continueDownload_pc (terminal : Terminal) (filename : List UInt8)
    (there : FtpClient.DownloadPc) :
    (terminal.continueDownload filename there).pc = .select ∨
      (terminal.continueDownload filename there).pc = .download filename there := by
  cases there with
  | filesize => exact .inr rfl
  | content remaining written => exact .inr rfl
  | finished status file => exact .inl rfl

theorem received_eq (terminal : Terminal) (result : RecvResult) :
    ∃ pc shown files, terminal.received result = { terminal with pc, shown, files } := by
  by_cases downloads : ∃ filename pc, terminal.pc = .download filename pc
  · obtain ⟨filename, pc, here⟩ := downloads
    obtain ⟨position, files, moved⟩ := terminal.continueDownload_eq filename
      (FtpClient.downloadReceived pc result)
    exact ⟨position, terminal.shown, files, (received_download here result).trans moved⟩
  · obtain ⟨pc, shown, -, same⟩ := received_elsewhere
      (fun filename pc here => downloads ⟨filename, pc, here⟩) result
    exact ⟨pc, shown, terminal.files, same⟩

theorem received_conversation (terminal : Terminal) (result : RecvResult) :
    (terminal.received result).conversation = terminal.conversation := by
  obtain ⟨pc, shown, files, same⟩ := terminal.received_eq result
  rw [same]

theorem received_unread (terminal : Terminal) (result : RecvResult) :
    (terminal.received result).unread = terminal.unread := by
  obtain ⟨pc, shown, files, same⟩ := terminal.received_eq result
  rw [same]
  rfl

/-- Whatever a `recv` returns, it leads away from a confirmation. -/
theorem received_ahead (terminal : Terminal) (result : RecvResult) :
    (terminal.received result).pc.ahead ≤ min 2 terminal.pc.ahead := by
  obtain ⟨conversation, pc, taken, shown, files, lines, fetched⟩ := terminal
  cases pc with
  | select =>
      cases result with
      | data bytes => exact Nat.le_refl 1
      | closed => exact Nat.zero_le _
      | error => exact Nat.zero_le _
  | confirmation => exact (by decide : TerminalPc.select.ahead ≤ 2)
  | download filename pc =>
      rcases continueDownload_pc ⟨conversation, .download filename pc, taken, shown, files, lines,
        fetched⟩ filename (FtpClient.downloadReceived pc result) with back | still
      · exact (congrArg TerminalPc.ahead back).trans_le (by decide : 1 ≤ 2)
      · exact (congrArg TerminalPc.ahead still).le
  | finished status => exact Nat.zero_le _

end Terminal

/-- The first message of a script is not empty, and a server that reads can read it. -/
theorem Expects.canReturn {pc : FtpPc} {message : Message} {later : List Message}
    (expects : Expects pc (message :: later)) (reads : 0 < pc.capacity) :
    message.canReturn pc.capacity (min pc.capacity message.bytes.length) = true := by
  cases message with
  | control site text =>
      obtain ⟨-, -, sendable⟩ := expects.control reads
      have nonempty := List.length_pos_of_ne_nil sendable.nonempty
      exact decide_eq_true ⟨lt_min reads nonempty, rfl⟩
  | content bytes =>
      have nonempty : bytes ≠ [] := by
        cases expects with
        | ended => exact absurd reads (Nat.lt_irrefl 0)
        | content nonempty tail => exact nonempty
      exact decide_eq_true ⟨lt_min reads (List.length_pos_of_ne_nil nonempty), Nat.le_refl _⟩

/-- A server that reads nothing more has left its loop. -/
theorem Expects.finished {pc : FtpPc} {messages : List Message} (expects : Expects pc messages)
    (ended : pc.capacity = 0) : pc = .finished 0 := by
  cases expects with
  | ended => rfl
  | @content path written bytes later nonempty tail =>
      have some_left := List.length_pos_of_ne_nil nonempty
      rw [FtpPc.capacity, bufferSize] at ended
      omega
  | _ => cases ended

namespace Terminal

/-- What is in flight can be read. -/
theorem Sound.receives {host : Host} {terminal : Terminal} (sound : terminal.Sound)
    (flight : terminal.conversation.inFlight ≠ []) (reads : 0 < terminal.session.pc.capacity)
    (served : ¬ terminal.Refused host) :
    ∃ label after, terminal.Delivery host label ∧ terminal.step host label = some after := by
  obtain ⟨message, later, script⟩ := List.exists_cons_of_ne_nil flight
  have expects : Expects terminal.session.pc terminal.conversation.inFlight :=
    sound.follows.expects
  rw [script] at expects
  obtain ⟨count, returns⟩ : ∃ count, message.canReturn terminal.session.pc.capacity count = true :=
    ⟨_, expects.canReturn reads⟩
  obtain ⟨conversation, received⟩ : ∃ conversation,
      terminal.conversation.receive host count = some conversation := by
    rw [Conversation.receive, script]
    exact ⟨_, if_pos returns⟩
  -- how much is read is of no account to the guard
  obtain ⟨any, guarded⟩ := not_forall.mp served
  exact ⟨.receive count, _, ⟨rfl, (Bool.not_eq_false _).mp guarded⟩,
    congrArg (Option.map _) received⟩

/-- What the server has sent can be taken. -/
theorem Sound.takes (host : Host) {terminal : Terminal} (sound : terminal.Sound)
    (stream : terminal.unread ≠ []) (here : ∀ status, terminal.pc ≠ .finished status) :
    ∃ label after, terminal.Delivery host label ∧ terminal.step host label = some after := by
  have positive := List.length_pos_of_ne_nil stream
  suffices enabled : ∃ count, terminal.keepsFiles host (.take count) = true ∧
      0 < count ∧ count ≤ min terminal.capacity terminal.unread.length by
    obtain ⟨count, guarded, bounds⟩ := enabled
    exact ⟨.take count, _, ⟨rfl, guarded⟩, if_pos bounds⟩
  cases position : terminal.pc with
  | select =>
      refine ⟨min bufferSize terminal.unread.length, ?_, lt_min (by decide) positive, ?_⟩
      · rw [keepsFiles, position]
      · rw [capacity, position]
  | confirmation =>
      refine ⟨min bufferSize terminal.unread.length, ?_, lt_min (by decide) positive, ?_⟩
      · rw [keepsFiles, position]
      · rw [capacity, position]
  | download filename pc =>
      cases sound.transfers with
      | apart elsewhere => exact absurd position (elsewhere _ _)
      | fetching there stored fetches =>
          obtain ⟨rfl, rfl⟩ := TerminalPc.download.inj (position.symm.trans there)
          cases fetches with
          | asked prompts flight read => exact absurd read stream
          | named asks flight read => exact absurd read stream
          | @answered first content later prompts flight reply border size fetched nonempty fits =>
              refine ⟨first.length, ?_, List.length_pos_of_ne_nil nonempty, le_min ?_ ?_⟩
              · rw [keepsFiles, position]
                exact decide_eq_true (congrArg List.length border.symm)
              · rw [capacity, position]
                exact fits
              · rw [reply, List.length_append]
                exact Nat.le_add_right _ _
          | @copying rest later written prompts flight reply fetched nonempty =>
              refine ⟨min rest.length bufferSize, ?_,
                lt_min (List.length_pos_of_ne_nil nonempty) (by decide), le_min ?_ ?_⟩
              · rw [keepsFiles, position]
              · rw [capacity, position]
                exact Nat.le_refl _
              · rw [reply, List.length_append]
                exact (Nat.min_le_left _ _).trans (Nat.le_add_right _ _)
  | finished status => exact absurd position (here status)

/-- A server that is done closes the connection, and a client that has taken everything sees it. -/
theorem Sound.closes (host : Host) {terminal : Terminal} (sound : terminal.Sound)
    (ended : terminal.session.pc.capacity = 0) (read : terminal.unread = [])
    (here : ∀ status, terminal.pc ≠ .finished status) :
    ∃ label after, terminal.Delivery host label ∧ terminal.step host label = some after := by
  have waits : 0 < terminal.capacity := by
    rw [capacity]
    cases position : terminal.pc with
    | download filename pc => exact absurd position (sound.apart_of_over ended _ _)
    | finished status => exact absurd position (here status)
    | _ => decide
  exact ⟨.closed, _, ⟨rfl, rfl⟩, if_pos ⟨waits, ended, read⟩⟩

/-- A download waits for what the server is about to read or has sent. -/
theorem Sound.downloads {terminal : Terminal} (sound : terminal.Sound) {filename : List UInt8}
    {pc : FtpClient.DownloadPc} (here : terminal.pc = .download filename pc) :
    terminal.conversation.inFlight ≠ [] ∨ terminal.unread ≠ [] := by
  cases sound.transfers with
  | apart elsewhere => exact absurd here (elsewhere _ _)
  | fetching there stored fetches =>
      cases fetches with
      | asked prompts flight => exact .inl (by simp [flight])
      | named asks flight => exact .inl (by simp [flight])
      | answered prompts flight reply border size fetched nonempty =>
          exact .inr (by simp [reply, nonempty])
      | copying prompts flight reply fetched nonempty =>
          exact .inr (by simp [reply, nonempty])

/-- As long as the conversation is not at rest, something can be delivered. -/
theorem Sound.progresses {host : Host} {terminal : Terminal} (sound : terminal.Sound)
    (attended : terminal.Attended) (unsettled : ¬ (terminal.AtRest ∨ terminal.Refused host)) :
    ∃ label after, terminal.Delivery host label ∧ terminal.step host label = some after := by
  obtain ⟨restless, served⟩ := not_or.mp unsettled
  have expects : Expects terminal.session.pc terminal.conversation.inFlight :=
    sound.follows.expects
  by_cases busy : terminal.conversation.inFlight ≠ [] ∧ 0 < terminal.session.pc.capacity
  · exact sound.receives busy.1 busy.2 served
  have quiet : terminal.conversation.inFlight = [] ∨ terminal.session.pc.capacity = 0 := by
    rcases not_and_or.mp busy with nothing | ended
    · exact .inl (not_not.mp nothing)
    · exact .inr (Nat.eq_zero_of_not_pos ended)
  by_cases gone : ∃ status, terminal.pc = .finished status
  · obtain ⟨stores, -, -, fetched⟩ := sound.transfers.elsewhere
      (by obtain ⟨status, here⟩ := gone; simp [here])
    exact absurd ⟨.inr ⟨gone, quiet.imp_right expects.finished⟩, sound.transfers.settled,
      fetched.symm⟩ restless
  have here := not_exists.mp gone
  by_cases read : terminal.unread = []
  · by_cases ended : terminal.session.pc.capacity = 0
    · exact sound.closes host ended read here
    · have nothing := quiet.resolve_right ended
      cases position : terminal.pc with
      | select =>
          obtain ⟨stores, -, -, fetched⟩ := sound.transfers.elsewhere (by simp [position])
          rw [nothing] at expects
          refine absurd ⟨.inl ⟨position, read, nothing, ?_⟩, sound.transfers.settled,
            fetched.symm⟩ restless
          rcases expects.done with unnamed | prompt | finished
          · exact .inl unnamed
          · exact .inr prompt
          · rw [finished] at ended
            exact absurd rfl ended
      | confirmation => rcases attended position with flight | stream | done <;> contradiction
      | download filename pc =>
          rcases sound.downloads position with flight | stream <;> contradiction
      | finished status => exact absurd position (here status)
  · exact sound.takes host read here

/-! ## Every delivery is one less -/

/-- How many bytes are on their way to the server. -/
def inFlightBytes (messages : List Message) : Nat :=
  (messages.flatMap Message.bytes).length

/-- What is left to be delivered.  A reply can be long, but the server needs bytes to give one. -/
def undelivered (terminal : Terminal) : Nat ×ₗ Nat :=
  toLex (inFlightBytes terminal.conversation.inFlight,
    terminal.unread.length + terminal.pc.ahead)

theorem inFlightBytes_receive {message : Message} {later : List Message} {capacity count : Nat}
    (returns : message.canReturn capacity count = true) :
    inFlightBytes (transmitted [message.drop count] ++ later) <
      inFlightBytes (message :: later) := by
  have shorter : 0 < count ∧ count ≤ message.bytes.length := by
    cases message with
    | control site text =>
        obtain ⟨positive, whole⟩ := of_decide_eq_true returns
        exact ⟨positive, whole.le.trans (Nat.min_le_right _ _)⟩
    | content bytes =>
        obtain ⟨positive, bounded⟩ := of_decide_eq_true returns
        exact ⟨positive, bounded.trans (Nat.min_le_right _ _)⟩
  have left : (message.drop count).bytes.length = message.bytes.length - count := by
    cases message <;> exact List.length_drop
  have sent : inFlightBytes (transmitted [message.drop count]) ≤
      (message.drop count).bytes.length := by
    simp only [transmitted, List.filter_cons, List.filter_nil]
    split <;> simp [inFlightBytes]
  simp only [inFlightBytes, List.flatMap_append, List.flatMap_cons, List.length_append] at sent ⊢
  omega

theorem Sound.lowers {host : Host} {terminal after : Terminal} {label : Label}
    (sound : terminal.Sound) (delivers : label.delivers = true)
    (step : terminal.step host label = some after) : after.undelivered < terminal.undelivered := by
  cases label with
  | receive count =>
      obtain ⟨conversation, received, rfl⟩ := Option.map_eq_some_iff.mp step
      obtain ⟨message, later, flight, returns, -, left⟩ := receive_cases received
      refine Prod.Lex.toLex_lt_toLex.mpr (.inl ?_)
      show inFlightBytes conversation.inFlight < inFlightBytes terminal.conversation.inFlight
      rw [flight, left]
      exact inFlightBytes_receive returns
  | take count =>
      obtain ⟨⟨positive, there⟩, rfl⟩ :=
        Option.ite_none_right_eq_some.mp step |>.imp_right Option.some.inj
      have ahead : ({ terminal with taken := terminal.taken + count }.received
          (.data (terminal.unread.take count))).pc.ahead ≤ terminal.pc.ahead :=
        (received_ahead _ _).trans (Nat.min_le_right _ _)
      have available := there.trans (Nat.min_le_right _ _)
      have left : ({ terminal with taken := terminal.taken + count } : Terminal).unread.length =
          terminal.unread.length - count := by
        rw [unread, unread, ← List.length_drop, List.drop_drop]
        rfl
      refine Prod.Lex.toLex_lt_toLex.mpr (.inr ⟨?_, ?_⟩)
      · rw [received_conversation]
      · simp only [received_unread, left]
        omega
  | closed =>
      obtain ⟨⟨waits, ended, -⟩, rfl⟩ :=
        Option.ite_none_right_eq_some.mp step |>.imp_right Option.some.inj
      have ahead := received_ahead terminal .closed
      refine Prod.Lex.toLex_lt_toLex.mpr (.inr ⟨?_, ?_⟩)
      · rw [received_conversation]
      · simp only [received_unread]
        apply Nat.add_lt_add_left
        cases position : terminal.pc with
        | select =>
            have gone : (terminal.received .closed).pc = .finished 0 := by
              simp [received, position]
            rw [gone]
            exact Nat.zero_lt_one
        | confirmation => exact (ahead.trans (Nat.min_le_left _ _)).trans_lt (Nat.lt_succ_self 2)
        | download filename pc => exact absurd position (sound.apart_of_over ended _ _)
        | finished status =>
            rw [capacity, position] at waits
            exact absurd waits (Nat.lt_irrefl 0)
  | _ => cases delivers

end Terminal

end CmyMessage
