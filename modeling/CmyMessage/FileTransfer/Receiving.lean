import CmyMessage.FileTransfer.Download
import CmyMessage.Foundation.ReceiveLoop

/-!
# The receiving loops

The server's `receive_file` and the loop of the client's `download_file` count down the size that
was announced to them.  Neither looks for the end of the stream, and the server's `upload_file`
does not look at what `receive_file` returns.
-/

namespace CmyMessage

/-- `receive_file` with the size it is called with. -/
def receiveFile (filesize : Int) : ReceiveLoop.Pc := ReceiveLoop.enter filesize.toNat []

/-- The status `receive_file` returns; there is no `return` behind its loop. -/
def receiveFileStatus : ReceiveLoop.Pc → Option Int
  | .returned false _ => some (-1)
  | _ => none

namespace Host

/-- `upload_file` where `receive_file` stands or has returned. -/
def resumeUpload (host : Host) (session : FtpSession) (path : List UInt8) :
    ReceiveLoop.Pc → FtpSession
  | .receiving remaining written => session.goto (.content path remaining written)
  | .returned true written => host.finishUpload session path written
  | .returned false written =>
      ((session.record (.stored path written)).send (literal "File uploaded!\n")).goto .aborted

theorem receiveFile_eq (host : Host) (session : FtpSession) (path : List UInt8) (remaining : Nat)
    (written : List UInt8) :
    host.receiveFile session path remaining written =
      host.resumeUpload session path (ReceiveLoop.enter remaining written) := by
  rw [Host.receiveFile, ReceiveLoop.enter]
  split <;> rfl

/-- A session that waits for content takes the steps of the loop. -/
theorem advance_resumeUpload (host : Host) (session : FtpSession) (path : List UInt8)
    {limit : Nat} {pc : ReceiveLoop.Pc} (asks : 0 < pc.asks limit) (result : RecvResult) :
    host.advance (host.resumeUpload session path pc) result =
      host.resumeUpload session path (ReceiveLoop.step pc result) := by
  cases pc with
  | receiving remaining written =>
      change host.contentReceived (session.goto _) path remaining written result = _
      cases result with
      | data bytes =>
          rw [contentReceived, receiveFile_goto, receiveFile_eq]
          rfl
      | closed =>
          rw [contentReceived, receiveFile_goto, receiveFile_eq]
          rfl
      | error => rfl
  | returned complete written => exact absurd asks (Nat.lt_irrefl 0)

/-- An upload from its announced size on runs the loop on the results of its calls. -/
theorem upload_runs (host : Host) (session : FtpSession) (path : List UInt8)
    {pc : ReceiveLoop.Pc} {results : List RecvResult}
    (admits : ReceiveLoop.Admits bufferSize pc results) :
    results.foldl host.advance (host.resumeUpload session path pc) =
      host.resumeUpload session path (ReceiveLoop.run pc results) := by
  induction results generalizing pc with
  | nil => rfl
  | cons result results ih =>
      obtain ⟨asks, -, rest⟩ := admits
      rw [List.foldl_cons, host.advance_resumeUpload session path asks, ih rest,
        ReceiveLoop.run_cons]

end Host

namespace FtpClient

/-- `download_file` of the client where its loop stands or is left. -/
def resumeDownload : ReceiveLoop.Pc → DownloadPc
  | .receiving remaining written => .content remaining written
  | .returned true written => .finished 0 (some written)
  | .returned false written => .finished (-1) (some written)

theorem receiveContent_eq (remaining : Nat) (written : List UInt8) :
    receiveContent remaining written = resumeDownload (ReceiveLoop.enter remaining written) := by
  rw [receiveContent, ReceiveLoop.enter]
  split <;> rfl

/-- The client's loop takes the same steps, whatever the result. -/
theorem downloadReceived_resume {pc : ReceiveLoop.Pc} (tested : ReceiveLoop.Tested pc)
    (result : RecvResult) :
    downloadReceived (resumeDownload pc) result = resumeDownload (ReceiveLoop.step pc result) := by
  cases pc with
  | receiving remaining written =>
      cases result with
      | data bytes => exact receiveContent_eq _ _
      | closed =>
          have more : 0 < remaining := tested
          rw [ReceiveLoop.step, ReceiveLoop.enter, if_pos more]
          rfl
      | error => rfl
  | returned complete written => cases complete <;> rfl

/-- A download from its announced size on runs the loop on what it receives. -/
theorem download_runs {pc : ReceiveLoop.Pc} (tested : ReceiveLoop.Tested pc)
    (results : List RecvResult) :
    results.foldl downloadReceived (resumeDownload pc) =
      resumeDownload (ReceiveLoop.run pc results) := by
  induction results generalizing pc with
  | nil => rfl
  | cons result results ih =>
      rw [List.foldl_cons, downloadReceived_resume tested, ih (tested.step result),
        ReceiveLoop.run_cons]

end FtpClient

/-! ## The end of the loops -/

/-- What the calls of a loop return: data, and then one answer over and over. -/
def arrivals (chunks : List (List UInt8)) (ending : RecvResult) (count : Nat) : List RecvResult :=
  chunks.map .data ++ List.replicate count ending

section Ends

variable {filesize : Int} {chunks : List (List UInt8)} {ending : RecvResult}

/-- The server's loop, where what it returns tells whether something is missing. -/
theorem receiveFile_ends_iff (count : Nat) :
    (∃ pc complete, ReceiveLoop.run (receiveFile filesize) (arrivals chunks ending count) = pc ∧
        pc = .returned complete chunks.flatten ∧
      ((chunks.flatten.length : Int) < filesize →
        ∃ status, receiveFileStatus pc = some status ∧ status < 0)) ↔
    ∃ complete, ReceiveLoop.run (receiveFile filesize) (arrivals chunks ending count) =
        .returned complete chunks.flatten ∧
      ((chunks.flatten.length : Int) < filesize → complete = false) := by
  constructor
  · rintro ⟨pc, complete, ran, rfl, reports⟩
    refine ⟨complete, ran, fun short => ?_⟩
    obtain ⟨status, isStatus, -⟩ := reports short
    cases complete with
    | true => cases isStatus
    | false => rfl
  · rintro ⟨complete, ran, incomplete⟩
    refine ⟨_, complete, ran, rfl, fun short => ?_⟩
    rw [incomplete short]
    exact ⟨-1, rfl, by decide⟩

/-- The client's loop, which is the same. -/
theorem receiveContent_ends_iff (count : Nat) :
    (∃ status, (arrivals chunks ending count).foldl FtpClient.downloadReceived
        (FtpClient.receiveContent filesize.toNat []) = .finished status (some chunks.flatten) ∧
      ((chunks.flatten.length : Int) < filesize → status < 0)) ↔
    ∃ complete, ReceiveLoop.run (receiveFile filesize) (arrivals chunks ending count) =
        .returned complete chunks.flatten ∧
      ((chunks.flatten.length : Int) < filesize → complete = false) := by
  have downloads : (arrivals chunks ending count).foldl FtpClient.downloadReceived
      (FtpClient.receiveContent filesize.toNat []) = FtpClient.resumeDownload
        (ReceiveLoop.run (receiveFile filesize) (arrivals chunks ending count)) := by
    rw [FtpClient.receiveContent_eq]
    exact FtpClient.download_runs (ReceiveLoop.tested_enter _ _) _
  rw [downloads]
  constructor
  · rintro ⟨status, finished, reports⟩
    cases ran : ReceiveLoop.run (receiveFile filesize) (arrivals chunks ending count) with
    | receiving remaining written =>
        rw [ran] at finished
        cases finished
    | returned complete written =>
        rw [ran] at finished
        cases complete with
        | true =>
            cases finished
            exact ⟨true, rfl, fun short => absurd (reports short) (by decide)⟩
        | false =>
            cases finished
            exact ⟨false, rfl, fun _ => rfl⟩
  · rintro ⟨complete, ran, incomplete⟩
    rw [ran]
    cases complete with
    | true => exact ⟨0, rfl, fun short => Bool.noConfusion (incomplete short)⟩
    | false => exact ⟨-1, rfl, fun _ => by decide⟩

end Ends

/-- Behind any data, `receive_file` and the loop of the client's `download_file` each return, with
the data written and a negative status if something is missing, exactly unless the end of the stream
comes before the announced size. -/
theorem receive_loops_end_iff {filesize : Int} {chunks : List (List UInt8)} {ending : RecvResult}
    (stops : ending.isData = false)
    (admits : ReceiveLoop.Admits bufferSize (receiveFile filesize) (chunks.map .data)) :
    ((∃ count pc complete, ReceiveLoop.run (receiveFile filesize) (arrivals chunks ending count) =
          pc ∧ pc = .returned complete chunks.flatten ∧
        ((chunks.flatten.length : Int) < filesize →
          ∃ status, receiveFileStatus pc = some status ∧ status < 0)) ↔
      ¬ (ending = .closed ∧ (chunks.flatten.length : Int) < filesize)) ∧
    ((∃ count status, (arrivals chunks ending count).foldl FtpClient.downloadReceived
          (FtpClient.receiveContent filesize.toNat []) = .finished status (some chunks.flatten) ∧
        ((chunks.flatten.length : Int) < filesize → status < 0)) ↔
      ¬ (ending = .closed ∧ (chunks.flatten.length : Int) < filesize)) := by
  have missing : (chunks.flatten.length : Int) < filesize ↔
      chunks.flatten.length < filesize.toNat := by omega
  have ends := ReceiveLoop.returns_iff stops admits
  rw [← missing] at ends
  constructor
  · exact (exists_congr receiveFile_ends_iff).trans ends
  · exact (exists_congr receiveContent_ends_iff).trans ends

/-- Of three announced bytes two arrive, and then an error. -/
theorem receive_loops_end_iff_error :
    (∃ count pc complete, ReceiveLoop.run (receiveFile 3) (arrivals [[120, 121]] .error count) =
        pc ∧ pc = .returned complete [120, 121] ∧
      ((2 : Int) < 3 → ∃ status, receiveFileStatus pc = some status ∧ status < 0)) ∧
    ∃ count status, (arrivals [[120, 121]] .error count).foldl FtpClient.downloadReceived
        (FtpClient.receiveContent 3 []) = .finished status (some [120, 121]) ∧
      ((2 : Int) < 3 → status < 0) := by
  have admits : ReceiveLoop.Admits bufferSize (receiveFile 3) ([[120, 121]].map .data) :=
    ⟨by decide, by decide, trivial⟩
  have both := receive_loops_end_iff (show RecvResult.error.isData = false from rfl) admits
  exact ⟨both.1.mpr (by simp), both.2.mpr (by simp)⟩

/-- One byte is announced and the stream ends: both loops go on asking for it. -/
theorem receive_loops_never_end :
    ReceiveLoop.Admits bufferSize (receiveFile 1) [] ∧
    (∀ count, ReceiveLoop.run (receiveFile 1) (arrivals [] .closed count) = .receiving 1 []) ∧
    ∀ count, (arrivals [] .closed count).foldl FtpClient.downloadReceived
      (FtpClient.receiveContent 1 []) = .content 1 [] := by
  have stays (count : Nat) : ReceiveLoop.run (receiveFile 1) (arrivals [] .closed count) =
      .receiving 1 [] := ReceiveLoop.run_closed 1 [] count
  refine ⟨trivial, stays, fun count => ?_⟩
  rw [FtpClient.receiveContent_eq, FtpClient.download_runs (ReceiveLoop.tested_enter _ _)]
  exact congrArg FtpClient.resumeDownload (stays count)

/-! ## The status of an upload -/

/-- The message and the status of an upload tell the truth: about success only if the announced
number of bytes was received and written, and about failure if a call of `receive_file` met the end
of the stream or an error, after which the file name is not freed a second time. -/
structure TruthfulUpload (before after : FtpSession) (filesize : Int)
    (results : List RecvResult) : Prop where
  success : .sent (literal "File uploaded!\n") ∈ before.eventsSince after ∨
      .returned .upload 0 ∈ before.eventsSince after →
    ((results.flatMap RecvResult.bytes).length : Int) = filesize ∧
      ∃ path, .stored path (results.flatMap RecvResult.bytes) ∈ before.eventsSince after
  failure : (∃ result ∈ results, result.isData = false) →
    .sent (literal "File uploaded!\n") ∉ before.eventsSince after ∧
      (∃ status, status < 0 ∧ .returned .upload status ∈ before.eventsSince after) ∧
      after.pc ≠ .aborted

namespace Host

theorem finishUpload_history (host : Host) (session : FtpSession) (path written : List UInt8) :
    (host.finishUpload session path written).history = session.history ++
      [.stored path written, .sent (literal "File uploaded!\n"), .returned .upload 0,
        .sent (literal "> ")] := by
  rw [finishUpload, afterCommand, promptCommand_history]
  simp

/-- An upload whose file opens goes on with `receive_file`. -/
theorem uploadFilesizeReceived_resumes (host : Host) {session : FtpSession} {filename : List UInt8}
    (bytes : List UInt8)
    (opens : (host.disk (session.history ++ [.read .uploadFilesize (.data bytes)])).openWrite
      (uploadPath filename) = true) :
    host.uploadFilesizeReceived session filename (.data bytes) =
      host.resumeUpload
        ((session.record (.read .uploadFilesize (.data bytes))).record
          (.openedForWriting (uploadPath filename)))
        (uploadPath filename) (CmyMessage.receiveFile (Decimal.atoi (CString.text bytes))) := by
  have received : ¬ (fillBufferWithResponse (.data bytes)).1 < 0 :=
    Int.not_lt.mpr (Int.natCast_nonneg bytes.length)
  have opens' : (host.disk (session.record (.read .uploadFilesize (.data bytes))).history).openWrite
      (uploadPath filename) = true := opens
  simp only [uploadFilesizeReceived]
  rw [if_neg received, if_neg (not_maxFileSize_lt_atoi _), if_pos opens', receiveFile_eq]
  rfl

end Host

namespace TruthfulUpload

variable {before after : FtpSession} {filesize : Int} {results : List RecvResult}

/-- While nothing is said, there has to be no failure to speak of. -/
theorem iff_of_silent
    (quiet : ∀ event ∈ before.eventsSince after, event.isReply = false) :
    TruthfulUpload before after filesize results ↔ ∀ result ∈ results, result.isData = true := by
  constructor
  · intro truthful result member
    by_contra failed
    obtain ⟨-, ⟨status, -, returned⟩, -⟩ :=
      truthful.failure ⟨result, member, Bool.eq_false_iff.mpr failed⟩
    cases quiet _ returned
  · intro every
    constructor
    · intro reported
      rcases reported with sent | returned
      · cases quiet _ sent
      · cases quiet _ returned
    · rintro ⟨result, member, failed⟩
      rw [every result member] at failed
      cases failed

/-- Where success is reported, it has to be what happened. -/
theorem iff_of_reported (path : List UInt8)
    (reported : .sent (literal "File uploaded!\n") ∈ before.eventsSince after)
    (stored : .stored path (results.flatMap RecvResult.bytes) ∈ before.eventsSince after) :
    TruthfulUpload before after filesize results ↔
      ((results.flatMap RecvResult.bytes).length : Int) = filesize ∧
        ∀ result ∈ results, result.isData = true := by
  constructor
  · intro truthful
    refine ⟨(truthful.success (.inl reported)).1, fun result member => ?_⟩
    by_contra failed
    exact (truthful.failure ⟨result, member, Bool.eq_false_iff.mpr failed⟩).1 reported
  · rintro ⟨whole, every⟩
    refine ⟨fun _ => ⟨whole, path, stored⟩, ?_⟩
    rintro ⟨result, member, failed⟩
    rw [every result member] at failed
    cases failed

end TruthfulUpload

/-- What an upload tells its client and its caller is true exactly if the announced number is not
negative and every `recv` of `receive_file` returns data. -/
theorem upload_truthful_iff (host : Host) {session : FtpSession} {filename : List UInt8}
    (asked : session.pc = .uploadFilesize filename) (bytes : List UInt8)
    (opens : (host.disk (session.history ++ [.read .uploadFilesize (.data bytes)])).openWrite
      (uploadPath filename) = true) {results : List RecvResult}
    (admits : ReceiveLoop.Admits bufferSize (receiveFile (Decimal.atoi (CString.text bytes)))
      results) :
    TruthfulUpload session (results.foldl host.advance (host.advance session (.data bytes)))
        (Decimal.atoi (CString.text bytes)) results ↔
      0 ≤ Decimal.atoi (CString.text bytes) ∧ ∀ result ∈ results, result.isData = true := by
  have begun : host.advance session (.data bytes) =
      host.uploadFilesizeReceived session filename (.data bytes) := by
    rw [Host.advance, asked]
  rw [begun, host.uploadFilesizeReceived_resumes bytes opens, host.upload_runs _ _ admits]
  generalize Decimal.atoi (CString.text bytes) = filesize at admits ⊢
  set opened := (session.record (.read .uploadFilesize (.data bytes))).record
    (.openedForWriting (uploadPath filename))
  have told {after : FtpSession} {events : List FtpEvent}
      (grown : after.history = opened.history ++ events) :
      session.eventsSince after = [.read .uploadFilesize (.data bytes),
        .openedForWriting (uploadPath filename)] ++ events :=
    FtpSession.eventsSince_eq (by rw [grown]; simp [opened])
  change (ReceiveLoop.Admits bufferSize (ReceiveLoop.enter filesize.toNat []) results) at admits
  rw [receiveFile]
  rcases ReceiveLoop.run_admitted admits with ⟨-, inside, ran⟩ | ⟨failed, -, ran⟩
  · rw [ran, List.nil_append, ReceiveLoop.enter]
    split
    -- The loop waits for more.
    · have quiet (pc : FtpPc) := told (List.append_nil (opened.goto pc).history).symm
      rw [Host.resumeUpload, TruthfulUpload.iff_of_silent (by rw [quiet]; simp [FtpEvent.isReply])]
      exact (and_iff_right (by omega)).symm
    -- The loop is through, also where it had nothing to do.
    · have finished := told (host.finishUpload_history opened (uploadPath filename)
        (results.flatMap RecvResult.bytes))
      rw [Host.resumeUpload, TruthfulUpload.iff_of_reported (uploadPath filename)
        (by rw [finished]; simp) (by rw [finished]; simp)]
      exact and_congr_left fun _ => by omega
  -- The loop has given up.
  · rw [ran, List.nil_append]
    have aborted : (host.resumeUpload opened (uploadPath filename)
        (.returned false (results.flatMap RecvResult.bytes))).pc = .aborted := rfl
    refine iff_of_false (fun truthful => ?_) fun condition => ?_
    · exact (truthful.failure ⟨.error, failed, rfl⟩).2.2 aborted
    · exact Bool.false_ne_true (condition.2 .error failed)

/-- A session whose client has named a file and is about to send its size. -/
def FtpSession.uploading : FtpSession := { pc := .uploadFilesize [97], name := [], history := [] }

/-- Three bytes are announced and arrive in two pieces. -/
theorem upload_truthful_iff_whole :
    TruthfulUpload .uploading
      ([RecvResult.data [120, 121], .data [122]].foldl (Host.steady (.holding [])).advance
        ((Host.steady (.holding [])).advance .uploading (.data (literal "3")))) 3
      [.data [120, 121], .data [122]] := by
  have size : Decimal.atoi (CString.text (literal "3")) = 3 := by decide +kernel
  have asked : FtpSession.uploading.pc = .uploadFilesize [97] := rfl
  have admits : ReceiveLoop.Admits bufferSize
      (receiveFile (Decimal.atoi (CString.text (literal "3"))))
      [.data [120, 121], .data [122]] := by
    rw [size]
    exact ⟨by decide, by decide, by decide, by decide, trivial⟩
  have truthful := upload_truthful_iff (.steady (.holding [])) asked (literal "3") rfl admits
  rw [size] at truthful
  exact truthful.mpr (by decide)

/-- Of three announced bytes two arrive before an error: the client is told that its file is
uploaded, and the file name is freed twice. -/
theorem failed_upload_reported :
    ReceiveLoop.Admits bufferSize (receiveFile 3) [.data [120, 121], .error] ∧
    ([RecvResult.data [120, 121], .error].foldl (Host.steady (.holding [])).advance
        ((Host.steady (.holding [])).advance .uploading (.data (literal "3")))).history.getLast? =
      some (.sent (literal "File uploaded!\n")) ∧
    ¬ TruthfulUpload .uploading
      ([RecvResult.data [120, 121], .error].foldl (Host.steady (.holding [])).advance
        ((Host.steady (.holding [])).advance .uploading (.data (literal "3")))) 3
      [.data [120, 121], .error] := by
  refine ⟨⟨by decide, by decide, by decide, by decide, trivial⟩, by decide +kernel, ?_⟩
  intro truthful
  exact (truthful.failure ⟨.error, by simp, rfl⟩).2.2 (by decide +kernel)

end CmyMessage
