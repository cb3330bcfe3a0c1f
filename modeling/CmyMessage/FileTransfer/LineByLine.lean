import CmyMessage.FileTransfer.Transfers

/-!
# One line after the other

On a file system that keeps what is written, the programs together do what the lines say: an upload
puts a content under a path, and a download brings back what is there, as if each line was carried
out at once.  While a file is open for writing it is empty, and nobody looks at it.
-/

namespace CmyMessage

/-- A file system: where a path leads, and what is there. -/
structure FileSystem (κ : Type*) where
  /-- The file a path leads to. -/
  locate : List UInt8 → κ
  /-- What is in a file, if it exists. -/
  files : κ → Option (List UInt8)
  /-- `fopen` for writing succeeds. -/
  writable : List UInt8 → Bool
  /-- The names read from a directory, if `opendir` succeeds. -/
  entries : List UInt8 → Option (List (List UInt8))

namespace FileSystem

variable {κ : Type*}

/-- What the calls of the programs answer. -/
def disk (system : FileSystem κ) : Disk where
  access path := (system.files (system.locate path)).isSome
  stat path := (system.files (system.locate path)).isSome
  openRead path := system.files (system.locate path)
  ftell path := ((system.files (system.locate path)).getD []).length
  openWrite := system.writable
  entries := system.entries

/-- What is found under a path that is not too long. -/
def fetch (system : FileSystem κ) (path : List UInt8) : Option (List UInt8) :=
  if maxLenFilePath - 1 < path.length then none else system.files (system.locate path)

/-- The size of a file is negative exactly when there is nothing to fetch. -/
theorem getFileSize_eq (system : FileSystem κ) (path : List UInt8) :
    getFileSize system.disk path < 0 ∧ system.fetch path = none ∨
      0 ≤ getFileSize system.disk path ∧
        system.fetch path = system.files (system.locate path) := by
  rw [getFileSize, fetch]
  cases there : system.files (system.locate path) with
  | none =>
      refine .inl ⟨?_, by simp⟩
      rw [if_pos (by simp [disk, there])]
      decide
  | some content =>
      rw [if_neg (by simp [disk, there])]
      split
      · exact .inl ⟨by decide, rfl⟩
      · rw [if_neg (by simp [disk, there])]
        simp [disk, there]

variable [DecidableEq κ]

/-- Put a content under a path. -/
def write (system : FileSystem κ) (file : List UInt8 × List UInt8) : FileSystem κ :=
  { system with files := Function.update system.files (system.locate file.1) (some file.2) }

/-- The effect of what a session does.  Opening a file for writing empties it. -/
def perform (system : FileSystem κ) : FtpEvent → FileSystem κ
  | .openedForWriting path => if system.writable path then system.write (path, []) else system
  | .stored path content => system.write (path, content)
  | _ => system

/-- The file system after a session did something. -/
def after (system : FileSystem κ) (history : List FtpEvent) : FileSystem κ :=
  history.foldl perform system

/-- A line carried out at once, with the files the client has written. -/
def carryOut (state : FileSystem κ × List (List UInt8 × List UInt8)) (round : FtpClient.Round) :
    FileSystem κ × List (List UInt8 × List UInt8) :=
  match round.upload with
  | some file => (state.1.write file, state.2)
  | none =>
      if round.buffer ∈ cmdDownload then
        (state.1, state.2 ++
          [(round.target, (state.1.fetch (downloadPath round.target)).getD [])])
      else state

theorem carryOut_upload (state : FileSystem κ × List (List UInt8 × List UInt8))
    {round : FtpClient.Round} {file : List UInt8 × List UInt8} (upload : round.upload = some file) :
    carryOut state round = (state.1.write file, state.2) := by
  rw [carryOut, upload]

theorem carryOut_download (state : FileSystem κ × List (List UInt8 × List UInt8))
    {round : FtpClient.Round} (download : round.buffer ∈ cmdDownload) :
    carryOut state round = (state.1, state.2 ++
      [(round.target, (state.1.fetch (downloadPath round.target)).getD [])]) := by
  rw [carryOut, FtpClient.Round.upload, if_neg (upload_ne_download _ download)]
  exact if_pos download

theorem carryOut_plain (state : FileSystem κ × List (List UInt8 × List UInt8))
    {round : FtpClient.Round} (noUpload : round.upload = none)
    (noDownload : round.buffer ∉ cmdDownload) : carryOut state round = state := by
  rw [carryOut, noUpload]
  exact if_neg noDownload

end FileSystem

/-- A host whose sends succeed and whose file system keeps what a session writes. -/
def Host.keeping {κ : Type*} [DecidableEq κ] (system : FileSystem κ) : Host :=
  ⟨fun history => (system.after history).disk, fun _ => true⟩

/-! ## The file system of a session -/

/-- The event may change a file. -/
def FtpEvent.touches : FtpEvent → Bool
  | openedForWriting _ => true
  | stored _ _ => true
  | _ => false

namespace FileSystem

variable {κ : Type*} [DecidableEq κ] (system : FileSystem κ)

theorem after_append (front back : List FtpEvent) :
    system.after (front ++ back) = (system.after front).after back := List.foldl_append

theorem after_untouched {events : List FtpEvent}
    (untouched : ∀ event ∈ events, event.touches = false) : system.after events = system := by
  induction events with
  | nil => rfl
  | cons event events ih =>
      have here : system.perform event = system := by
        have still := untouched event (List.mem_cons_self ..)
        cases event with
        | openedForWriting path => cases still
        | stored path content => cases still
        | _ => rfl
      have rest := ih fun other member => untouched other (List.mem_cons_of_mem event member)
      rw [after, List.foldl_cons, here]
      exact rest

/-- Writing a file again replaces its content. -/
theorem write_write (path content other : List UInt8) :
    (system.write (path, content)).write (path, other) = system.write (path, other) := by
  rw [write, write, write]
  congr 1
  exact Function.update_idem _ _ _

@[simp]
theorem perform_writable (event : FtpEvent) :
    (system.perform event).writable = system.writable := by
  cases event with
  | openedForWriting path =>
      rw [perform]
      split <;> rfl
  | _ => rfl

theorem after_writable (history : List FtpEvent) :
    (system.after history).writable = system.writable := by
  induction history generalizing system with
  | nil => rfl
  | cons event history ih => exact (ih (system.perform event)).trans (system.perform_writable event)

/-- The files that were stored are there, and no other was touched. -/
def Settled (history : List FtpEvent) : Prop :=
  system.after history = (storedFiles history).foldl write system

/-- What was stored is there, except that a file the session is still writing is empty. -/
def Holds (session : FtpSession) : Prop :=
  system.Settled session.history ∨ ∃ path remaining written,
    session.pc = .content path remaining written ∧
    system.after session.history =
      ((storedFiles session.history).foldl write system).write (path, [])

variable {system}

theorem Settled.grows {before after : FtpSession} (settled : system.Settled before.history)
    (grows : before.Grows (fun event => !event.touches) after) : system.Settled after.history := by
  obtain ⟨events, grown, untouched⟩ := grows
  have quiet : storedFiles events = [] := by
    apply List.filterMap_eq_nil_iff.mpr
    intro event member
    have still := untouched event member
    cases event with
    | stored path content => cases still
    | _ => rfl
  rw [Settled, grown, after_append, storedFiles_append, quiet, List.append_nil, settled]
  exact after_untouched _ fun event member => Bool.not_eq_true' _ |>.mp (untouched event member)

theorem Settled.replies {before after : FtpSession} (settled : system.Settled before.history)
    (replies : before.Replies after) : system.Settled after.history :=
  settled.grows (replies.mono fun event reply => by cases event <;> first | rfl | cases reply)

/-- A file that was open is stored with what was written into it. -/
theorem Settled.store {history : List FtpEvent} {path : List UInt8}
    (open_or : system.Settled history ∨ system.after history =
      ((storedFiles history).foldl write system).write (path, [])) (content : List UInt8) :
    system.Settled (history ++ [.stored path content]) := by
  rw [Settled, after_append, storedFiles_append, List.foldl_append]
  rcases open_or with settled | opened
  · rw [settled]
    rfl
  · rw [opened]
    exact write_write _ path [] content

theorem Holds.settled {session : FtpSession} (holds : system.Holds session)
    (closed : ∀ path remaining written, session.pc ≠ .content path remaining written) :
    system.Settled session.history := by
  apply holds.resolve_right
  intro opened
  obtain ⟨path, remaining, written, position, -⟩ := opened
  exact closed path remaining written position

/-- The test of the loop of `receive_file` leaves the file open or stores it. -/
theorem Holds.receiveFile (host : Host) {session : FtpSession} {path : List UInt8}
    (open_or : system.Settled session.history ∨ system.after session.history =
      ((storedFiles session.history).foldl write system).write (path, []))
    (remaining : Nat) (written : List UInt8) :
    system.Holds (host.receiveFile session path remaining written) := by
  rw [Host.receiveFile]
  split
  · exact open_or.imp_right fun opened => ⟨path, remaining, written, rfl, opened⟩
  · exact .inl ((Settled.store open_or written).replies (host.finishUpload_replies _ _ _))

theorem storedFiles_opened (session : FtpSession) (path : List UInt8) :
    storedFiles (session.record (.openedForWriting path)).history =
      storedFiles session.history := by
  rw [FtpSession.record_history, storedFiles_append]
  exact List.append_nil _

/-- Opening a file for writing empties it. -/
theorem Settled.opens {session : FtpSession} (settled : system.Settled session.history)
    {path : List UInt8} (writable : system.writable path = true) :
    system.after (session.record (.openedForWriting path)).history =
      ((storedFiles (session.record (.openedForWriting path)).history).foldl write system).write
        (path, []) := by
  rw [storedFiles_opened, ← settled, FtpSession.record_history, after_append]
  exact if_pos ((congrFun (system.after_writable _) path).trans writable)

/-- A file that does not open for writing stays as it is. -/
theorem Settled.refuses {session : FtpSession} (settled : system.Settled session.history)
    {path : List UInt8} (unwritable : ¬ system.writable path = true) :
    system.Settled (session.record (.openedForWriting path)).history := by
  rw [Settled, storedFiles_opened, ← settled, FtpSession.record_history, after_append]
  refine if_neg ?_
  rw [after_writable]
  exact unwritable

/-- A `recv` that returns data keeps what was stored. -/
theorem Holds.advance {session : FtpSession} (holds : system.Holds session)
    (bytes : List UInt8) : system.Holds ((Host.keeping system).advance session (.data bytes)) := by
  have read (site : ReadSite) : session.Grows (fun event => !event.touches)
      (session.record (.read site (.data bytes))) := .record session rfl
  rw [Host.advance]
  cases position : session.pc with
  | name =>
      have settled := holds.settled (by simp [position])
      exact .inl ((settled.grows (read .name)).replies ((Host.keeping system).welcomeClient_replies
        { session.record (.read .name (.data bytes)) with name := CString.text bytes }))
  | command =>
      have settled := (holds.settled (by simp [position])).grows (read .command)
      simp only [Host.commandReceived]
      split
      · exact .inl settled
      · refine .inl (Settled.replies ?_ ((Host.keeping system).interpret_grows _ _))
        exact settled.grows (.record _ rfl)
  | uploadFilename =>
      have settled := (holds.settled (by simp [position])).grows (read .uploadFilename)
      simp only [Host.uploadFilenameReceived]
      split
      · exact .inl (settled.replies ((Host.keeping system).afterCommand_replies _ _ _))
      · exact .inl settled
  | uploadFilesize filename =>
      have settled := (holds.settled (by simp [position])).grows (read .uploadFilesize)
      have same : ((Host.keeping system).disk (session.history ++
          [.read .uploadFilesize (.data bytes)])).openWrite = system.writable :=
        system.after_writable _
      simp only [Host.uploadFilesizeReceived_data, same]
      split
      · exact Holds.receiveFile _ (.inr (settled.opens ‹_›)) _ _
      · have refused := settled.refuses ‹_›
        exact .inl ((refused.replies (FtpSession.send_replies _ _)).replies
          ((Host.keeping system).afterCommand_replies _ _ _))
  | downloadFilename =>
      have settled := (holds.settled (by simp [position])).grows (read .downloadFilename)
      have grows := (Host.keeping system).downloadFile_grows
        (session.record (.read .downloadFilename (.data bytes))) (CString.text bytes)
      refine .inl ((settled.grows (.record _ rfl)).grows (grows.mono fun event looks => ?_))
      cases event <;> first | rfl | cases looks
  | content path remaining written =>
      apply Holds.receiveFile
      refine holds.imp_right fun opened => ?_
      obtain ⟨other, left, before, there, opened⟩ := opened
      obtain ⟨rfl, rfl, rfl⟩ := FtpPc.content.inj (position.symm.trans there)
      exact opened
  | finished status => exact holds
  | exited => exact holds
  | aborted => exact holds

/-- What looks at a file sees what was stored. -/
theorem Settled.disk {history : List FtpEvent} (settled : system.Settled history)
    {events : List FtpEvent} (untouched : ∀ event ∈ events, event.touches = false) :
    (Host.keeping system).disk (history ++ events) =
      ((storedFiles history).foldl write system).disk := by
  show (system.after (history ++ events)).disk = _
  rw [after_append, settled, after_untouched _ untouched]

/-- `download_file` finds what was stored. -/
theorem Settled.found {session : FtpSession} (settled : system.Settled session.history)
    (message : List UInt8) :
    (Host.keeping system).found session message =
      ((storedFiles session.history).foldl write system).fetch
        (downloadPath (CString.text message)) := by
  have measured : (Host.keeping system).disk (session.history ++
      [.read .downloadFilename (.data message)]) = _ := settled.disk (by simp [FtpEvent.touches])
  have opened (text : List UInt8) : (Host.keeping system).disk (session.history ++
      [.read .downloadFilename (.data message), .measured (downloadPath (CString.text message)),
        .sent text]) = _ := settled.disk (by simp [FtpEvent.touches])
  simp only [Host.found, FtpSession.record_history, FtpSession.send_history, List.append_assoc,
    List.cons_append, List.nil_append, measured, opened]
  rcases getFileSize_eq _ _ with ⟨missing, nothing⟩ | ⟨there, fetched⟩
  · rw [if_pos missing, nothing]
  · rw [if_neg (Int.not_lt.mpr there), fetched]
    rfl

end FileSystem

namespace Terminal

variable {κ : Type*} [DecidableEq κ] (system : FileSystem κ)

/-- What the lines typed come to when each is carried out at once. -/
def outcome (terminal : Terminal) : FileSystem κ × List (List UInt8 × List UInt8) :=
  terminal.lines.foldl FileSystem.carryOut (system, [])

theorem outcome_files (terminal : Terminal) :
    (terminal.outcome system).1 = terminal.uploads.foldl FileSystem.write system := by
  rw [outcome, uploads]
  generalize ([] : List (List UInt8 × List UInt8)) = files
  induction terminal.lines generalizing system files with
  | nil => rfl
  | cons round rounds ih =>
      rw [List.foldl_cons]
      cases carried : round.upload with
      | none =>
          rw [List.filterMap_cons_none carried]
          by_cases download : round.buffer ∈ cmdDownload
          · rw [FileSystem.carryOut_download _ download]
            exact ih _ _
          · rw [FileSystem.carryOut_plain _ carried download]
            exact ih _ _
      | some file =>
          rw [List.filterMap_cons_some carried, FileSystem.carryOut_upload _ carried]
          exact ih _ _

/-- What the lines bring back was found, up to the file whose name is in flight. -/
inductive Brings (terminal : Terminal) : Prop
  | pending {filename : List UInt8} {pc : FtpClient.DownloadPc}
      (here : terminal.pc = .download filename pc) (asked : terminal.conversation.inFlight ≠ [])
      (brought : terminal.fetched ++ [(filename,
        ((terminal.outcome system).1.fetch (downloadPath filename)).getD [])] =
          (terminal.outcome system).2) : Brings terminal
  | complete (free : ∀ filename pc, terminal.pc = .download filename pc →
        terminal.conversation.inFlight = [])
      (brought : terminal.fetched = (terminal.outcome system).2) : Brings terminal

/-- What holds of a run on a file system that keeps what is written. -/
structure Executes (terminal : Terminal) : Prop where
  holds : system.Holds terminal.session
  brings : terminal.Brings system

variable {system}

theorem Brings.apart {terminal : Terminal} (brings : terminal.Brings system)
    (apart : ∀ filename pc, terminal.pc ≠ .download filename pc) :
    terminal.fetched = (terminal.outcome system).2 := by
  cases brings with
  | pending here => exact absurd here (apart _ _)
  | complete free brought => exact brought

theorem outcome_concat (terminal : Terminal) (round : FtpClient.Round) :
    (terminal.lines ++ [round]).foldl FileSystem.carryOut (system, []) =
      FileSystem.carryOut (terminal.outcome system) round := by
  rw [List.foldl_append]
  rfl

/-- A line typed is carried out, or brings back a file whose name is in flight. -/
theorem Executes.type {terminal : Terminal} (executes : terminal.Executes system)
    {round : FtpClient.Round} (waits : terminal.pc = .select)
    (guarded : terminal.keepsFiles (Host.keeping system) (.type round) = true) :
    (terminal.type round).Executes system := by
  obtain ⟨inPhase, faithful⟩ := Bool.and_eq_true_iff.mp guarded
  obtain ⟨completes, given⟩ := Bool.and_eq_true_iff.mp inPhase
  have brought := executes.brings.apart (by simp [waits])
  by_cases download : round.buffer ∈ cmdDownload
  · rw [if_neg (upload_ne_download _ download), if_pos download] at faithful
    rw [type_download terminal download (Bool.and_eq_true_iff.mp faithful).2]
    refine ⟨executes.holds, .pending rfl ?_ ?_⟩
    · have flight := flight_download download completes fun transfer => by
        simpa [transfer] using given
      show (terminal.conversation.type round).inFlight ≠ []
      rw [flight]
      simp
    · rw [outcome, outcome_concat, FileSystem.carryOut_download _ download, brought]
  · rw [type_elsewhere waits download]
    refine ⟨executes.holds, .complete ?_ ?_⟩
    · intro filename pc here
      simp only at here
      split at here <;> cases here
    · rw [outcome, outcome_concat, brought]
      cases carried : round.upload with
      | none => rw [FileSystem.carryOut_plain _ carried download]
      | some file => rw [FileSystem.carryOut_upload _ carried]

/-- A client that is not downloading goes elsewhere. -/
theorem Executes.elsewhere {terminal : Terminal} (executes : terminal.Executes system)
    (apart : ∀ filename pc, terminal.pc ≠ .download filename pc) {pc : TerminalPc} {taken : Nat}
    {shown : List UInt8} (still : ∀ filename there, pc ≠ .download filename there) :
    Executes system { terminal with pc, taken, shown } :=
  ⟨executes.holds, .complete (fun filename pc here => absurd here (still filename pc))
    (executes.brings.apart apart)⟩

/-- A `recv` of the server keeps what was stored, and what it finds for a name is what the line
brings back. -/
theorem Executes.receive {terminal : Terminal} (executes : terminal.Executes system)
    (sound : terminal.Sound) {count : Nat} {conversation : Conversation}
    (received : terminal.conversation.receive (Host.keeping system) count = some conversation) :
    Executes system { terminal with
      conversation
      fetched := terminal.fetched ++ terminal.fetches (Host.keeping system) count } := by
  obtain ⟨message, later, flight, returns, advanced, left⟩ := receive_cases received
  refine ⟨?_, ?_⟩
  · show system.Holds conversation.session
    rw [advanced]
    exact executes.holds.advance _
  have expects : Expects terminal.session.pc terminal.conversation.inFlight :=
    sound.follows.expects
  rw [flight] at expects
  cases sound.transfers with
  | apart elsewhere carries stored fetched =>
      refine .complete (fun filename pc here => absurd here (elsewhere filename pc)) ?_
      rw [fetches_elsewhere _ count carries.ne_downloadFilename, List.append_nil]
      exact executes.brings.apart elsewhere
  | @fetching filename pc here stored fetches =>
      cases fetches with
      | asked prompts script read fetched =>
          obtain ⟨rfl, rfl⟩ := List.cons.inj (flight.symm.trans script)
          cases executes.brings with
          | complete free => cases flight.symm.trans (free _ _ here)
          | pending there asked brought =>
              refine .pending there ?_ ?_
              · show conversation.inFlight ≠ []
                simp [left]
              · rw [fetches_elsewhere _ count (by rw [prompts]; exact FtpPc.noConfusion),
                  List.append_nil]
                exact brought
      | named asks script read fetched =>
          obtain ⟨rfl, rfl⟩ := List.cons.inj (flight.symm.trans script)
          obtain ⟨taken, nothing⟩ := expects.received_whole returns
          rw [nothing] at left
          have bounds := (Message.control .downloadFilename filename).bounds_of_canReturn returns
          have sendable := (expects.control (bounds.1.trans_le bounds.2)).2.2
          cases executes.brings with
          | complete free => cases flight.symm.trans (free _ _ here)
          | pending there asked brought =>
              obtain ⟨rfl, -⟩ := TerminalPc.download.inj (here.symm.trans there)
              refine .complete (fun _ _ _ => left) ?_
              have settled := executes.holds.settled (by simp [asks])
              rw [Terminal.fetches, asks, flight]
              simp only [Message.bytes, taken]
              rw [settled.found, stored, ← outcome_files, CString.text_eq_self sendable.nonzero]
              exact brought
      | answered prompts script => cases flight.symm.trans script
      | copying prompts script => cases flight.symm.trans script

/-- What the client takes belongs to a file that was found before. -/
theorem Executes.take {terminal : Terminal} (executes : terminal.Executes system)
    (sound : terminal.Sound) {count : Nat} (positive : 0 < count)
    (there : count ≤ terminal.unread.length) :
    Executes system ({ terminal with taken := terminal.taken + count }.received
      (.data (terminal.unread.take count))) := by
  by_cases downloads : ∃ filename pc, terminal.pc = .download filename pc
  · obtain ⟨filename, pc, here⟩ := downloads
    have nothing : terminal.conversation.inFlight = [] := by
      cases sound.transfers with
      | apart elsewhere => exact absurd here (elsewhere _ _)
      | fetching here stored fetches =>
          cases fetches with
          | asked prompts flight read =>
              rw [read] at there
              exact absurd positive (Nat.not_lt.mpr there)
          | named asks flight read =>
              rw [read] at there
              exact absurd positive (Nat.not_lt.mpr there)
          | answered prompts flight => exact flight
          | copying prompts flight => exact flight
    obtain ⟨position, files, moved⟩ := continueDownload_eq
      { terminal with taken := terminal.taken + count } filename
        (FtpClient.downloadReceived pc (.data (terminal.unread.take count)))
    rw [received_download (by exact here), moved]
    cases executes.brings with
    | pending _ asked => exact absurd nothing asked
    | complete free brought => exact ⟨executes.holds, .complete (fun _ _ _ => nothing) brought⟩
  · have apart : ∀ filename pc, terminal.pc ≠ .download filename pc :=
      fun filename pc here => downloads ⟨filename, pc, here⟩
    obtain ⟨pc, shown, still, same⟩ := @received_elsewhere
      { terminal with taken := terminal.taken + count } apart (.data (terminal.unread.take count))
    rw [same]
    exact executes.elsewhere apart still

theorem Executes.step {terminal after : Terminal} {label : Label}
    (executes : terminal.Executes system) (sound : terminal.Sound)
    (guarded : terminal.keepsFiles (Host.keeping system) label = true)
    (step : terminal.step (Host.keeping system) label = some after) : after.Executes system := by
  cases label with
  | type round =>
      obtain ⟨waits, rfl⟩ := Option.ite_none_right_eq_some.mp step |>.imp_right Option.some.inj
      exact executes.type waits guarded
  | receive count =>
      obtain ⟨conversation, received, rfl⟩ := Option.map_eq_some_iff.mp step
      exact executes.receive sound received
  | take count =>
      obtain ⟨⟨positive, there⟩, rfl⟩ :=
        Option.ite_none_right_eq_some.mp step |>.imp_right Option.some.inj
      exact executes.take sound positive (there.trans (Nat.min_le_right _ _))
  | fails =>
      obtain ⟨-, rfl⟩ := Option.ite_none_right_eq_some.mp step |>.imp_right Option.some.inj
      have apart := apart_of_fails guarded
      obtain ⟨pc, shown, still, same⟩ := received_elsewhere apart .error
      rw [same]
      exact executes.elsewhere apart still
  | closed =>
      obtain ⟨⟨-, ended, -⟩, rfl⟩ :=
        Option.ite_none_right_eq_some.mp step |>.imp_right Option.some.inj
      have apart := sound.apart_of_over ended
      obtain ⟨pc, shown, still, same⟩ := received_elsewhere apart .closed
      rw [same]
      exact executes.elsewhere apart still
  | leaves status =>
      obtain ⟨waits, rfl⟩ := Option.ite_none_right_eq_some.mp step |>.imp_right Option.some.inj
      exact executes.elsewhere (by simp [waits]) (by simp)

theorem reaches_executes {terminal : Terminal}
    (reached : (terminals (Host.keeping system)).ReachesVia
      (fun state label => state.keepsFiles (Host.keeping system) label = true) terminal) :
    terminal.Executes system := by
  refine reached.invariant ?_ fun before label after earlier executes guarded step =>
    executes.step (reaches_sound _ (fun _ => rfl) earlier) guarded step
  rintro _ rfl
  exact ⟨.inl rfl, .complete (fun _ _ _ => rfl) rfl⟩

end Terminal

/-- On a file system that keeps what is written, the client's files are what the lines typed bring
back when each is carried out at once, up to a file that is on its way; and when nothing is on its
way, the server's file system is what the lines make of it. -/
theorem transfers_line_by_line {κ : Type*} [DecidableEq κ] (system : FileSystem κ)
    {terminal : Terminal} (reached : (terminals (Host.keeping system)).ReachesVia
      (fun state label => state.keepsFiles (Host.keeping system) label = true) terminal) :
    terminal.files <+: (terminal.outcome system).2 ∧
      (terminal.conversation.inFlight = [] →
        (∀ filename pc, terminal.pc ≠ .download filename pc) →
          (system.after terminal.session.history, terminal.files) = terminal.outcome system) := by
  have executes := Terminal.reaches_executes reached
  have transfers := (Terminal.reaches_sound _ (fun _ => rfl) reached).transfers
  refine ⟨?_, fun nothing apart => ?_⟩
  · cases executes.brings with
    | pending here asked brought =>
        exact transfers.files_isPrefix.trans (brought ▸ List.prefix_append _ _)
    | complete free brought => exact brought ▸ transfers.files_isPrefix
  · obtain ⟨stores, carries, stored, fetched⟩ := transfers.elsewhere apart
    rw [nothing] at carries
    have settled := executes.holds.settled carries.closed
    rw [carries.settled, List.append_nil] at stored
    refine Prod.ext ?_ (fetched.symm.trans (executes.brings.apart apart))
    rw [Terminal.outcome_files, ← stored]
    exact settled

/-- A file system without files, on which every path is a file of its own that can be written. -/
def FileSystem.empty : FileSystem (List UInt8) := ⟨id, fun _ => none, fun _ => true, fun _ => none⟩

/-- The file uploaded is downloaded again. -/
theorem transfers_line_by_line_round_trip :
    let run := ((terminals (.keeping .empty)).execute (Terminal.keepsFiles (.keeping .empty)) {}
      Terminal.transferScript).getD {}
    run.files = [(literal "a\n", literal "xyz")] ∧
      (FileSystem.empty.after run.session.history, run.files) = run.outcome .empty := by
  have executes : ((terminals (.keeping .empty)).execute (Terminal.keepsFiles (.keeping .empty)) {}
      Terminal.transferScript).map (fun run => (run.files, run.pc, run.conversation.inFlight)) =
        some ([(literal "a\n", literal "xyz")], .select, []) := by
    decide +kernel
  obtain ⟨run, executed, outcome⟩ := Option.map_eq_some_iff.mp executes
  obtain ⟨files, position, nothing⟩ : run.files = [(literal "a\n", literal "xyz")] ∧
      run.pc = .select ∧ run.conversation.inFlight = [] := by simpa using outcome
  have reached := LabelledSystem.ReachesVia.execute (.start rfl) executed
  simp only [executed, Option.getD_some]
  exact ⟨files, (transfers_line_by_line .empty reached).2 nothing (by rw [position]; simp)⟩

end CmyMessage
