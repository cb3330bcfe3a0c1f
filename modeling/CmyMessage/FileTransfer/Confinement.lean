import CmyMessage.FileTransfer.Session
import CmyMessage.Foundation.RelativePath

/-!
# Where the server's files are

The server puts the folder of its assets in front of whatever name it receives.  The name decides
whether the path still lies in that folder: its components may climb out by one level only, and have
to climb back through a component `assets`.
-/

namespace CmyMessage

open Location (ClimbsBack)
open PathText (steps)

/-- The path lies in the folder of the assets, once `.` and `..` are resolved. -/
def InAssets (path : List UInt8) : Prop := (PathText.location path).Inside (literal "assets")

instance (path : List UInt8) : Decidable (InAssets path) :=
  inferInstanceAs (Decidable (Location.Inside _ _))

theorem inAssets_iff (name : List UInt8) :
    InAssets (pathAssetsFolder ++ name) ↔ ClimbsBack (literal "assets") 1 (steps name) := by
  have folder : pathAssetsFolder ++ name = literal "assets" ++ 47 :: name := rfl
  rw [InAssets, folder, PathText.location_folder (by decide) (by decide)]
  exact Location.walk_from_inside_iff _ _

/-- `snprintf` cuts a long path, and with it the last components of the name. -/
theorem uploadPath_eq (filename : List UInt8) :
    uploadPath filename =
      pathAssetsFolder ++ filename.take (maxLenFilePath - 1 - pathAssetsFolder.length) := by
  rw [uploadPath, List.take_append, List.take_of_length_le (by decide)]

/-- No file is opened for writing. -/
def FtpEvent.opensNothing : FtpEvent → Bool
  | openedForWriting _ => false
  | _ => true

theorem FtpEvent.opensNothing_of_isReply (event : FtpEvent) (reply : event.isReply = true) :
    event.opensNothing = true := by
  cases event <;> first | rfl | cases reply

namespace Host

variable (host : Host)

theorem receiveFile_opensNothing (session : FtpSession) (path : List UInt8) (remaining : Nat)
    (written : List UInt8) :
    session.Grows FtpEvent.opensNothing (host.receiveFile session path remaining written) := by
  rw [receiveFile]
  split
  · exact .goto _ _
  · exact .trans (.record _ rfl)
      ((host.finishUpload_replies _ _ _).mono FtpEvent.opensNothing_of_isReply)

/-- Every size lets the server open the path of the name for writing, and no other. -/
theorem uploadFilesizeReceived_opens (session : FtpSession) (filename size : List UInt8) :
    ∃ later, (host.uploadFilesizeReceived session filename (.data size)).history =
        session.history ++ .read .uploadFilesize (.data size) ::
          .openedForWriting (uploadPath filename) :: later ∧
      ∀ event ∈ later, event.opensNothing = true := by
  have opened : ((session.record (.read .uploadFilesize (.data size))).record
      (.openedForWriting (uploadPath filename))).Grows FtpEvent.opensNothing
      (host.uploadFilesizeReceived session filename (.data size)) := by
    have received : ¬ (size.length : Int) < 0 := by omega
    have small := not_maxFileSize_lt_atoi (CString.text size)
    simp only [uploadFilesizeReceived, fillBufferWithResponse, received, small, if_false]
    split
    · exact host.receiveFile_opensNothing _ _ _ _
    · exact .trans (.record _ rfl)
        ((host.afterCommand_replies _ _ _).mono FtpEvent.opensNothing_of_isReply)
  obtain ⟨later, grown, quiet⟩ := opened
  refine ⟨later, ?_, quiet⟩
  simpa using grown

/-- The path opened for writing is the one of the name, whatever the size. -/
theorem upload_opens_iff {session : FtpSession} (prompt : session.pc = .uploadFilename)
    (message size path : List UInt8) :
    .openedForWriting path ∈ session.eventsSince
        (host.advance (host.advance session (.data message)) (.data size)) ↔
      path = uploadPath (withoutNewline (CString.text message)) := by
  have named : host.advance session (.data message) =
      (session.record (.read .uploadFilename (.data message))).goto
        (.uploadFilesize (withoutNewline (CString.text message))) := by
    rw [advance, prompt]
    exact if_neg (Int.not_lt.mpr (Int.natCast_nonneg message.length))
  obtain ⟨later, grown, quiet⟩ := host.uploadFilesizeReceived_opens
    (host.advance session (.data message)) (withoutNewline (CString.text message)) size
  rw [named, FtpSession.goto_history, FtpSession.record_history, List.append_assoc] at grown
  have absent : .openedForWriting path ∉ later := by
    intro member
    cases quiet _ member
  rw [named, advance, FtpSession.goto_pc]
  simp only
  rw [FtpSession.eventsSince_eq grown]
  simp [absent]

/-- The path measured and opened for reading is the one of the message. -/
theorem download_looks_iff {session : FtpSession} (prompt : session.pc = .downloadFilename)
    (message path : List UInt8) :
    (.measured path ∈ session.eventsSince (host.advance session (.data message)) ∨
        .openedForReading path ∈ session.eventsSince (host.advance session (.data message))) ↔
      path = downloadPath (CString.text message) := by
  have measured : host.advance session (.data message) =
      host.downloadFile (session.record (.read .downloadFilename (.data message)))
        (CString.text message) := by
    rw [advance, prompt]
    rfl
  obtain ⟨later, grown, looks⟩ := host.downloadFile_grows
    (session.record (.read .downloadFilename (.data message))) (CString.text message)
  rw [FtpSession.record_history, FtpSession.record_history, List.append_assoc,
    List.append_assoc] at grown
  rw [measured, FtpSession.eventsSince_eq grown]
  constructor
  · rintro (member | member) <;> simp at member
    · exact member.elim id fun member => of_decide_eq_true (looks _ member)
    · exact of_decide_eq_true (looks _ member)
  · rintro rfl
    simp

end Host

/-- A name keeps an upload in the folder of the assets exactly when its first 992 bytes climb back,
and a download exactly when the message without its last byte does. -/
theorem filename_confined_iff (host : Host) (message : List UInt8) (session : FtpSession) :
    (session.pc = .uploadFilename → ∀ size,
      ((∀ path, .openedForWriting path ∈ session.eventsSince
          (host.advance (host.advance session (.data message)) (.data size)) → InAssets path) ↔
        ClimbsBack (literal "assets") 1
          (steps ((withoutNewline (CString.text message)).take 992)))) ∧
    (session.pc = .downloadFilename →
      ((∀ path, (.measured path ∈ session.eventsSince (host.advance session (.data message)) ∨
          .openedForReading path ∈ session.eventsSince (host.advance session (.data message))) →
          InAssets path) ↔
        ClimbsBack (literal "assets") 1 (steps (CString.text message).dropLast))) := by
  constructor
  · intro prompt size
    simp only [host.upload_opens_iff prompt, forall_eq]
    rw [uploadPath_eq, ← inAssets_iff]
    rfl
  · intro prompt
    simp only [host.download_looks_iff prompt, forall_eq]
    rw [← inAssets_iff]
    rfl

/-- The name `b` in the folder `a` keeps an upload confined, also on the way through `..`. -/
theorem filename_confined_iff_inner_climb :
    (∀ path, .openedForWriting path ∈ FtpSession.eventsSince ⟨.uploadFilename, [], []⟩
        ((Host.steady (.holding [])).advance ((Host.steady (.holding [])).advance
          ⟨.uploadFilename, [], []⟩ (.data (literal "a/../b"))) (.data (literal "0"))) →
      InAssets path) ↔
    ClimbsBack (literal "assets") 1
      (steps ((withoutNewline (CString.text (literal "a/../b"))).take 992)) :=
  (filename_confined_iff (.steady (.holding [])) (literal "a/../b") ⟨.uploadFilename, [], []⟩).1 rfl
    (literal "0")

/-- The name `../x` leads out of the folder of the assets. -/
theorem filename_not_confined :
    ¬ ∀ (host : Host) (message : List UInt8) (session : FtpSession), message.length ≤ bufferSize →
      (session.pc = .uploadFilename → ∀ size path, .openedForWriting path ∈ session.eventsSince
        (host.advance (host.advance session (.data message)) (.data size)) → InAssets path) ∧
      (session.pc = .downloadFilename → ∀ path,
        (.measured path ∈ session.eventsSince (host.advance session (.data message)) ∨
          .openedForReading path ∈ session.eventsSince (host.advance session (.data message))) →
        InAssets path) := by
  intro confined
  have inside := (confined (.steady (.holding [])) (literal "../x") ⟨.uploadFilename, [], []⟩
    (by decide)).1 rfl (literal "0") (uploadPath (literal "../x")) (by decide)
  exact absurd inside (by decide)

end CmyMessage
