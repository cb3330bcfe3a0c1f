import CmyMessage.FileTransfer.Upload

/-!
# How a stream is cut

The server takes what one `recv` returns for a whole message.  A stream in which no command text
occurs is never taken for anything; any other stream is taken for something when the command text
arrives alone, and for nothing when every byte does.
-/

namespace CmyMessage

open SegmentedStream (Receiver)

theorem singletons_flatten (bytes : List UInt8) : (bytes.map ([·])).flatten = bytes := by
  induction bytes with
  | nil => rfl
  | cons byte bytes ih => rw [List.map_cons, List.flatten_cons, ih, List.singleton_append]

/-- A stream in which none of these texts occurs contains no command. -/
def commandMarks : List (List UInt8) :=
  [literal "-h", literal "-u", literal "-d", literal "-l", literal "--exit"]

theorem exists_mark {text : List UInt8} (valid : FtpCommand.parse text ≠ .invalid) :
    ∃ mark ∈ commandMarks, mark <:+: text := by
  have listed : text ∈ cmdHelp ++ cmdUpload ++ cmdDownload ++ cmdExit ++ cmdList := by
    by_contra unlisted
    simp only [List.mem_append, not_or] at unlisted
    exact valid (by simp [FtpCommand.parse, unlisted])
  have marked : ∀ command ∈ cmdHelp ++ cmdUpload ++ cmdDownload ++ cmdExit ++ cmdList,
      ∃ mark ∈ commandMarks, mark <:+: command := by decide +kernel
  exact marked text listed

theorem text_isPrefix (bytes : List UInt8) : CString.text bytes <+: bytes := List.takeWhile_prefix _

namespace Host

variable {host : Host} (sends : ∀ history, host.sends history = true)
include sends

/-- A segment that is no command leaves the server at its prompt, unless its length ends the
session. -/
theorem advance_invalid {session : FtpSession} (prompt : session.pc = .command) {bytes : List UInt8}
    (invalid : FtpCommand.parse (CString.text bytes) = .invalid) :
    ((host.advance session (.data bytes)).pc = .command ∨
      bytes.length = 404 ∧ (host.advance session (.data bytes)).pc = .finished 0) ∧
    actions (host.advance session (.data bytes)).history = actions session.history := by
  rw [advance, prompt]
  simp only [commandReceived]
  split
  · rename_i ends
    have long : (bytes.length : Int) = 404 := ends
    exact ⟨.inr ⟨by omega, rfl⟩, by simp [actions, FtpEvent.isAction]⟩
  · refine ⟨.inl ((host.interpret_returns _ ?_ ?_ ?_).prompts.pc sends), ?_⟩
    · rw [fillBufferWithResponse, invalid]
      decide
    · rw [fillBufferWithResponse, invalid]
      decide
    · rw [fillBufferWithResponse, invalid]
      decide
    · rw [(host.interpret_grows _ _).silent.actions, fillBufferWithResponse, invalid]
      simp [actions, FtpEvent.isAction]

/-- Byte by byte, no stream is taken for a command. -/
theorem singletons_runs {session : FtpSession} (prompt : session.pc = .command)
    (bytes : List UInt8) (rest : List (List UInt8)) :
    ∃ after, (ftpServer host).Runs (session, bytes.map ([·]) ++ rest) (after, rest) ∧
      after.pc = .command ∧ actions after.history = actions session.history := by
  induction bytes generalizing session with
  | nil => exact ⟨session, .refl, prompt, rfl⟩
  | cons byte bytes ih =>
      have invalid : FtpCommand.parse (CString.text [byte]) = .invalid := by
        by_contra valid
        obtain ⟨mark, member, occurs⟩ := exists_mark valid
        have short := (occurs.trans (text_isPrefix [byte]).isInfix).length_le
        have long : ∀ mark ∈ commandMarks, 2 ≤ mark.length := by decide +kernel
        have least := long mark member
        simp only [List.length_singleton] at short
        omega
      obtain ⟨prompts, same⟩ := advance_invalid sends prompt invalid
      have prompt' := prompts.resolve_right fun ends => absurd ends.1 (by simp)
      obtain ⟨after, runs, prompt'', same'⟩ := ih prompt'
      refine ⟨after, .trans ?_ runs, prompt'', same'.trans same⟩
      exact host.control_runs (by rw [prompt]; rfl) (List.cons_ne_nil _ _) (by simp [bufferSize])
        rfl _

omit sends in
/-- A segment that is a command is executed. -/
theorem advance_command (host : Host) {session : FtpSession} (prompt : session.pc = .command)
    {bytes : List UInt8} (valid : FtpCommand.parse (CString.text bytes) ≠ .invalid)
    (short : bytes.length ≠ 404) :
    actions session.history ++ [.executed (FtpCommand.parse (CString.text bytes))] <+:
      actions (host.advance session (.data bytes)).history := by
  have notOver : ¬ (fillBufferWithResponse (.data bytes)).1 = clientDisconnected := fun ended =>
    short (Int.ofNat.inj ended)
  rw [advance, prompt]
  simp only [commandReceived]
  rw [if_neg notOver]
  have grown := (host.interpret_grows (session.record (.read .command (.data bytes)))
    (CString.text bytes)).history.filter FtpEvent.isAction
  refine List.IsPrefix.trans ?_ grown
  rw [FtpSession.record_history, FtpSession.record_history, List.filter_append, List.filter_append]
  simp [actions, FtpEvent.isAction, valid]

end Host

/-- Nothing that happened is undone before the session comes to rest. -/
theorem settle_history (host : Host) (session : FtpSession) (segments : List (List UInt8)) :
    session.history <+: ((ftpServer host).settle session segments).1.history := by
  refine ((ftpServer host).settle_induction (fun now => session.history <+: now.1.history)
    (fun before after held receives => ?_) session segments List.prefix_rfl).1
  obtain ⟨symbols, -, -, advanced⟩ := Receiver.receive_eq_some receives
  rw [advanced]
  exact held.trans (host.advance_history _ _)

theorem settle_nil (host : Host) (session : FtpSession) :
    (ftpServer host).settle session [] = (session, []) := by
  apply Receiver.settle_of_blocked
  rw [Receiver.receive]
  split <;> rfl

/-- Without a command text in the stream nothing is executed, however it is cut. -/
theorem settle_idle {host : Host} (sends : ∀ history, host.sends history = true)
    {session : FtpSession} (prompt : session.pc = .command) {segments : List (List UInt8)}
    (absent : ∀ mark ∈ commandMarks, ¬ mark <:+: segments.flatten) :
    actions ((ftpServer host).settle session segments).1.history = actions session.history := by
  have rule := (ftpServer host).settle_induction
    (fun now => (now.1.pc = .command ∨ now.1.pc = .finished 0) ∧
      actions now.1.history = actions session.history ∧ now.2.flatten <:+ segments.flatten)
    (fun before after held receives => ?_) session segments ⟨.inl prompt, rfl, List.suffix_rfl⟩
  · exact rule.1.2.1
  · obtain ⟨symbols, reads, received, advanced⟩ := Receiver.receive_eq_some receives
    obtain ⟨split, -, -⟩ := SegmentedStream.recv_eq_some reads received
    have atPrompt : before.1.pc = .command := by
      apply held.1.resolve_right
      intro ended
      have none : (ftpServer host).capacity before.1 = 0 := by
        change before.1.pc.capacity = 0
        rw [ended]
        rfl
      omega
    have invalid : FtpCommand.parse (CString.text symbols) = .invalid := by
      by_contra valid
      obtain ⟨mark, member, occurs⟩ := exists_mark valid
      refine absent mark member ((occurs.trans (text_isPrefix symbols).isInfix).trans ?_)
      exact (split ▸ List.prefix_append symbols _).isInfix.trans held.2.2.isInfix
    obtain ⟨prompts, same⟩ := Host.advance_invalid sends atPrompt invalid
    rw [advanced]
    refine ⟨prompts.imp_right And.right, same.trans held.2.1, ?_⟩
    exact (split ▸ List.suffix_append symbols _).trans held.2.2

/-- A command text that arrives alone, behind single bytes, is executed. -/
theorem settle_executes {host : Host} (sends : ∀ history, host.sends history = true)
    {session : FtpSession} (prompt : session.pc = .command) (front : List UInt8) {mark : List UInt8}
    (member : mark ∈ commandMarks) (rest : List (List UInt8)) :
    actions session.history ++ [.executed (FtpCommand.parse (CString.text mark))] <+:
      actions ((ftpServer host).settle session (front.map ([·]) ++ mark :: rest)).1.history := by
  have marks : ∀ mark ∈ commandMarks, mark ≠ [] ∧ mark.length ≤ bufferSize ∧ mark.length ≠ 404 ∧
      FtpCommand.parse (CString.text mark) ≠ .invalid := by decide +kernel
  obtain ⟨nonempty, fits, short, valid⟩ := marks mark member
  obtain ⟨before, runs, prompt', nothing⟩ := Host.singletons_runs sends prompt front (mark :: rest)
  have taken := host.control_runs (by rw [prompt']; rfl) nonempty fits rfl rest
  have executed := host.advance_command prompt' valid short
  rw [nothing] at executed
  rw [Receiver.settle_of_runs (runs.trans taken)]
  exact executed.trans ((settle_history host _ rest).filter FtpEvent.isAction)

/-- The server does the same for every cutting of a stream exactly when no command text occurs in
it, that is when it executes nothing at all. -/
theorem segmentation_independent_iff (host : Host) (sends : ∀ history, host.sends history = true)
    (session : FtpSession) (prompt : session.pc = .command) (stream : List UInt8) :
    (∀ first second : List (List UInt8), first.flatten = stream → second.flatten = stream →
      actions ((ftpServer host).settle session first).1.history =
        actions ((ftpServer host).settle session second).1.history) ↔
    ∀ mark ∈ commandMarks, ¬ mark <:+: stream := by
  constructor
  · intro independent mark member occurs
    obtain ⟨front, back, rfl⟩ := occurs
    obtain ⟨idle, runs, -, nothing⟩ := Host.singletons_runs sends prompt (front ++ mark ++ back) []
    have longer := (settle_executes sends prompt front member (back.map ([·]))).length_le
    have same := independent ((front ++ mark ++ back).map ([·]) ++ [])
      (front.map ([·]) ++ mark :: back.map ([·])) (by simp [singletons_flatten])
      (by simp [singletons_flatten])
    rw [Receiver.settle_of_runs runs, settle_nil, nothing] at same
    rw [← same, List.length_append, List.length_singleton] at longer
    omega
  · rintro absent first second rfl whole
    rw [settle_idle sends prompt absent, settle_idle sends prompt (whole.symm ▸ absent)]

/-- The stream `hello` is taken for nothing. -/
theorem segmentation_independent_iff_hello :
    (∀ first second : List (List UInt8),
      first.flatten = literal "hello" → second.flatten = literal "hello" →
      actions ((ftpServer (.steady (.holding []))).settle ⟨.command, [], []⟩ first).1.history =
        actions ((ftpServer (.steady (.holding []))).settle ⟨.command, [], []⟩ second).1.history) ↔
    ∀ mark ∈ commandMarks, ¬ mark <:+: literal "hello" :=
  segmentation_independent_iff (.steady (.holding [])) (fun _ => rfl) ⟨.command, [], []⟩ rfl
    (literal "hello")

/-- An upload of the file `a` with the one byte `x`. -/
def smallUpload : FtpClient.Round where
  line := literal "--upload\n"
  answer := some (literal "a\n")
  checked := .holding (literal "x")
  opened := .holding (literal "x")
  line_fits := by decide
  answer_fits := by decide

/-- The command and the name of an upload arrive in one segment. -/
theorem segmentation_dependent :
    ¬ ∀ (host : Host), (∀ history, host.sends history = true) →
      ∀ (session : FtpSession), session.pc = .command →
      ∀ (rounds : List FtpClient.Round) (first second : List (List UInt8)),
      first.flatten = FtpClient.stream rounds → second.flatten = FtpClient.stream rounds →
      actions ((ftpServer host).settle session first).1.history =
        actions ((ftpServer host).settle session second).1.history := by
  intro independent
  have same := independent (.steady (.holding [])) (fun _ => rfl) ⟨.command, [], []⟩ rfl
    [smallUpload]
    [literal "--upload", literal "a", literal "1", literal "x"]
    [literal "--uploada", literal "1", literal "x"] (by decide +kernel) (by decide +kernel)
  exact absurd same (by decide +kernel)

end CmyMessage
