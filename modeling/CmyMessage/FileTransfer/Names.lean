import CmyMessage.FileTransfer.Client
import CmyMessage.FileTransfer.Confinement

/-!
# The names of transferred files

Four routines derive a file from one name.  Both sides of an upload drop a newline at the end of it.
The client's `download_file` keeps the line as it was typed, and the server's drops the last byte
whatever it is.
-/

namespace CmyMessage

open PathText (baseName)

namespace FtpClient

/-- A line as `fgets` reads it: it ends at its newline, and leaves room for the terminator. -/
structure TypedLine (line : List UInt8) : Prop where
  fits : line.length < bufferSize
  ended : 10 ∉ line.dropLast

/-- The file that `upload_file` measures and reads for a typed line. -/
def uploadSource (line : List UInt8) : List UInt8 :=
  uploadPath (withoutNewline (CString.text line))

/-- The file that `download_file` creates for a typed line. -/
def downloadTarget (line : List UInt8) : List UInt8 := CString.text line

/-- No other file is looked at. -/
theorem uploadFile_congr {checked checked' opened opened' : Disk} {line : List UInt8}
    (measured : getFileSize checked (uploadSource line) = getFileSize checked' (uploadSource line))
    (read : opened.openRead (uploadSource line) = opened'.openRead (uploadSource line)) :
    uploadFile checked opened (some line) = uploadFile checked' opened' (some line) := by
  simp only [uploadFile]
  rw [uploadSource] at measured read
  rw [measured, read]

/-- A newline before the end of a line is none the string of the line can end with. -/
theorem TypedLine.newline_notMem {line : List UInt8} (typed : TypedLine line) :
    10 ∉ withoutNewline (CString.text line) := by
  have inner : 10 ∉ (CString.text line).dropLast := by
    rcases CString.text_cases line with whole | ⟨rest, split⟩
    · rw [whole]
      exact typed.ended
    · intro member
      apply typed.ended
      rw [split, List.dropLast_append_of_ne_nil (List.cons_ne_nil _ _)]
      exact List.mem_append_left _ ((List.dropLast_prefix _).subset member)
  rw [withoutNewline]
  split
  · exact inner
  · rename_i other
    intro member
    rcases List.eq_nil_or_concat' (CString.text line) with empty | ⟨init, last, split⟩
    · rw [empty] at member
      exact absurd member List.not_mem_nil
    · rw [split, List.dropLast_concat] at inner
      rw [split, List.getLast?_concat] at other
      rw [split, List.mem_append, List.mem_singleton] at member
      rcases member with before | rfl
      · exact inner before
      · exact other rfl

/-- The server has nothing to drop from a name that an upload sends. -/
theorem TypedLine.withoutNewline_sent {line : List UInt8} (typed : TypedLine line) :
    withoutNewline (CString.text (withoutNewline (CString.text line))) =
      withoutNewline (CString.text line) := by
  rw [CString.text_eq_self (zero_notMem_withoutNewline (CString.zero_notMem_text line)),
    withoutNewline_eq_self typed.newline_notMem]

/-- The only name an upload sends is the typed one. -/
theorem eq_of_mem_uploadFile {checked opened : Disk} {line message : List UInt8}
    (sent : .control .uploadFilename message ∈ uploadFile checked opened (some line)) :
    message = withoutNewline (CString.text line) := by
  simp only [uploadFile] at sent
  split at sent
  · simp at sent
  split at sent
  · simp at sent
  · rcases List.mem_append.mp sent with control | content
    · simpa using control
    · exfalso
      split at content <;> simp at content

/-- The only name a download sends is the typed line. -/
theorem mem_downloadFile_iff {line message : List UInt8} :
    .control .downloadFilename message ∈ downloadFile (some line) ↔
      message = CString.text line := by
  simp [downloadFile]

end FtpClient

/-! ## What a name agrees on -/

/-- The session opens the path for writing when it gets the name and then the size. -/
def Host.Stores (host : Host) (session : FtpSession) (message size path : List UInt8) : Prop :=
  .openedForWriting path ∈ session.eventsSince
    (host.advance (host.advance session (.data message)) (.data size))

instance (host : Host) (session : FtpSession) (message size path : List UInt8) :
    Decidable (host.Stores session message size path) :=
  inferInstanceAs (Decidable (_ ∈ _))

/-- The session measures the path or opens it for reading when it gets the name. -/
def Host.Fetches (host : Host) (session : FtpSession) (message path : List UInt8) : Prop :=
  .measured path ∈ session.eventsSince (host.advance session (.data message)) ∨
    .openedForReading path ∈ session.eventsSince (host.advance session (.data message))

instance (host : Host) (session : FtpSession) (message path : List UInt8) :
    Decidable (host.Fetches session message path) :=
  inferInstanceAs (Decidable (_ ∨ _))

/-- The server stores an upload under the base name of the file that the client reads. -/
def UploadNamesAgree (host : Host) (session : FtpSession) (line : List UInt8) : Prop :=
  ∀ checked opened message size path,
    .control .uploadFilename message ∈ FtpClient.uploadFile checked opened (some line) →
    host.Stores session message size path →
    baseName path = baseName (FtpClient.uploadSource line)

/-- The client stores a download under the base name of the file that the server reads. -/
def DownloadNamesAgree (host : Host) (session : FtpSession) (line : List UInt8) : Prop :=
  ∀ message path, .control .downloadFilename message ∈ FtpClient.downloadFile (some line) →
    host.Fetches session message path →
    baseName path = baseName (FtpClient.downloadTarget line)

/-- The server looks for a download where it stores an upload of the name. -/
def ServerPathsAgree (host : Host) (uploading downloading : FtpSession) (message : List UInt8) :
    Prop :=
  ∀ size path, host.Stores uploading message size path ↔ host.Fetches downloading message path

theorem uploadNamesAgree {host : Host} {session : FtpSession}
    (prompt : session.pc = .uploadFilename) {line : List UInt8}
    (typed : FtpClient.TypedLine line) : UploadNamesAgree host session line := by
  intro checked opened message size path sent stores
  have stored := (host.upload_opens_iff prompt message size path).mp stores
  rw [FtpClient.eq_of_mem_uploadFile sent, typed.withoutNewline_sent] at stored
  rw [stored, FtpClient.uploadSource]

theorem downloadNamesAgree_iff {host : Host} {session : FtpSession}
    (prompt : session.pc = .downloadFilename) (line : List UInt8) :
    DownloadNamesAgree host session line ↔
      baseName (CString.text line) = [] ∧ baseName (CString.text line).dropLast = [] := by
  rw [← PathText.baseName_dropLast_iff]
  have folder : baseName (downloadPath (CString.text line)) =
      baseName (CString.text line).dropLast :=
    PathText.baseName_folder (literal "assets") _
  constructor
  · intro agree
    have looked := (host.download_looks_iff prompt (CString.text line)
      (downloadPath (CString.text (CString.text line)))).mpr rfl
    have same := agree _ _ (FtpClient.mem_downloadFile_iff.mpr rfl) looked
    rwa [CString.text_text, folder, FtpClient.downloadTarget] at same
  · intro same message path sent fetches
    have looked := (host.download_looks_iff prompt message path).mp fetches
    rw [FtpClient.mem_downloadFile_iff.mp sent, CString.text_text] at looked
    rw [looked, folder, FtpClient.downloadTarget, same]

/-- The two paths of a name are one when the byte dropped is a newline and nothing is cut off, or
when the byte dropped is what would be cut off. -/
theorem uploadPath_eq_downloadPath_iff (text : List UInt8) :
    uploadPath (withoutNewline text) = downloadPath text ↔
      text = [] ∨ text.length = 993 ∨ text.getLast? = some 10 ∧ text.length ≤ 993 := by
  rw [uploadPath_eq, downloadPath, List.append_cancel_left_eq,
    show maxLenFilePath - 1 - pathAssetsFolder.length = 992 from rfl]
  rcases List.eq_nil_or_concat' text with rfl | ⟨init, last, rfl⟩
  · simp [withoutNewline]
  have nonempty : init ++ [last] ≠ [] := List.concat_ne_nil last init
  rw [List.dropLast_concat, List.getLast?_concat, List.length_append, List.length_singleton,
    Option.some.injEq]
  simp only [nonempty, false_or]
  by_cases newline : last = 10
  · subst newline
    rw [withoutNewline_append_newline, List.take_eq_self_iff, eq_self_iff_true, true_and]
    omega
  · have kept : withoutNewline (init ++ [last]) = init ++ [last] := by
      rw [withoutNewline, if_neg]
      rwa [List.getLast?_concat, Option.some.injEq]
    rw [kept]
    constructor
    · intro same
      have lengths := congrArg List.length same
      rw [List.length_take, List.length_append, List.length_singleton] at lengths
      omega
    · intro bound
      have length : init.length = 992 := by
        rcases bound with exactly | ⟨newline', -⟩
        · omega
        · exact absurd newline' newline
      rw [← length, List.take_left]

theorem serverPathsAgree_iff {host : Host} {uploading downloading : FtpSession}
    (atUpload : uploading.pc = .uploadFilename) (atDownload : downloading.pc = .downloadFilename)
    (message : List UInt8) :
    ServerPathsAgree host uploading downloading message ↔
      uploadPath (withoutNewline (CString.text message)) = downloadPath (CString.text message) := by
  have stores := host.upload_opens_iff atUpload message
  have fetches := host.download_looks_iff atDownload message
  constructor
  · intro agree
    have looked := (agree [] _).mp ((stores [] _).mpr rfl)
    exact (fetches _).mp looked
  · intro same size path
    rw [Host.Stores, Host.Fetches, stores, fetches, same]

/-- An upload agrees on the base name of every typed line.  A download agrees exactly on a line with
nothing behind its last slash, with its last byte and without it, so on no line that names a file.
The server's two routines agree on a message exactly when it is empty, or has 993 bytes, or ends in
a newline and has no more. -/
theorem filenames_agree_iff (host : Host) (uploading downloading : FtpSession)
    (atUpload : uploading.pc = .uploadFilename)
    (atDownload : downloading.pc = .downloadFilename) :
    (∀ line, FtpClient.TypedLine line → UploadNamesAgree host uploading line) ∧
    (∀ line, FtpClient.TypedLine line →
      (DownloadNamesAgree host downloading line ↔
        baseName (CString.text line) = [] ∧ baseName (CString.text line).dropLast = [])) ∧
    (∀ message, ServerPathsAgree host uploading downloading message ↔
      CString.text message = [] ∨ (CString.text message).length = 993 ∨
        (CString.text message).getLast? = some 10 ∧ (CString.text message).length ≤ 993) := by
  refine ⟨?_, ?_, ?_⟩
  · intro line typed
    exact uploadNamesAgree atUpload typed
  · intro line _
    exact downloadNamesAgree_iff atDownload line
  · intro message
    rw [serverPathsAgree_iff atUpload atDownload, uploadPath_eq_downloadPath_iff]

/-- The message `notes` and a newline. -/
theorem filenames_agree_iff_notes :
    ServerPathsAgree (.steady (.holding [])) ⟨.uploadFilename, [], []⟩ ⟨.downloadFilename, [], []⟩
      (literal "notes\n") :=
  ((filenames_agree_iff (.steady (.holding [])) ⟨.uploadFilename, [], []⟩
    ⟨.downloadFilename, [], []⟩ rfl rfl).2.2 _).mpr (by decide)

/-- The line `notes` typed for a download: the client creates a file whose name ends in the newline.
The message `notes` without one: the server stores it as `notes` and looks for `note`. -/
theorem filenames_disagree :
    FtpClient.TypedLine (literal "notes\n") ∧
      ¬ DownloadNamesAgree (.steady (.holding [])) ⟨.downloadFilename, [], []⟩
        (literal "notes\n") ∧
      ¬ ServerPathsAgree (.steady (.holding [])) ⟨.uploadFilename, [], []⟩
        ⟨.downloadFilename, [], []⟩ (literal "notes") := by
  refine ⟨⟨by decide, by decide⟩, ?_, ?_⟩
  · intro agree
    have same := agree (literal "notes\n") (literal "assets/notes") (by decide) (.inl (by decide))
    revert same
    decide
  · intro agree
    have stores : Host.Stores (.steady (.holding [])) ⟨.uploadFilename, [], []⟩ (literal "notes")
        (literal "0") (literal "assets/notes") := by decide
    have fetches := (agree _ _).mp stores
    revert fetches
    decide

end CmyMessage
