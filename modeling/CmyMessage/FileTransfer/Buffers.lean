import CmyMessage.FileTransfer.Session
import CmyMessage.Foundation.Block

/-!
# The blocks of the FTP programs

What the two programs receive goes into a block of `BUFFER_SIZE` bytes and is terminated there.
What the server builds from it goes into blocks of other sizes, some of them by functions that do
not know the size.
-/

namespace CmyMessage

/-! ## Receiving into the buffer -/

/-- `memset` and a `recv` that returns a message. -/
def receiveInto (buffer : Block bufferSize) (message : List UInt8) : Option (Block bufferSize) :=
  (buffer.write 0 (List.replicate bufferSize 0)).bind fun cleared => cleared.write 0 message

/-- The places that receive a message and terminate it. -/
inductive BufferSite
  /-- `fill_buffer_with_response` of the server. -/
  | serverFillBufferWithResponse
  /-- `ask_client_basic_details` -/
  | askClientBasicDetails
  /-- `fill_buffer_with_response` of the client. -/
  | clientFillBufferWithResponse
  /-- The socket branch of `keep_connection_with_server_cli`. -/
  | keepConnectionWithServerCli

/-- The block behind the message and its terminator. -/
def BufferSite.receive (site : BufferSite) (buffer : Block bufferSize) (message : List UInt8) :
    Option (Block bufferSize) :=
  match site with
  | serverFillBufferWithResponse =>
      (receiveInto buffer message).bind fun filled => filled.write message.length [0]
  -- The test in front of the terminator is true of every message a `recv` can return.
  | askClientBasicDetails =>
      (receiveInto buffer message).bind fun filled =>
        if message.length ≤ bufferSize then filled.write message.length [0] else some filled
  | clientFillBufferWithResponse =>
      (receiveInto buffer message).bind fun filled => filled.write message.length [0]
  | keepConnectionWithServerCli =>
      (receiveInto buffer message).bind fun filled => filled.write message.length [0]

/-- The block holds the message and NUL bytes behind it, and what is read as a string is the string
that was received. -/
structure HoldsMessage (block : Block bufferSize) (message : List UInt8) : Prop where
  bytes : block.bytes = message ++ List.replicate (bufferSize - message.length) 0
  string : block.readString = some (fillBufferWithResponse (.data message)).2

theorem receiveInto_eq_some {buffer filled : Block bufferSize} {message : List UInt8}
    (received : receiveInto buffer message = some filled) :
    filled.bytes = message ++ List.replicate (bufferSize - message.length) 0 := by
  obtain ⟨cleared, clears, written⟩ := Option.bind_eq_some_iff.mp received
  have zeros := Block.bytes_of_write 0 clears
  rw [List.take_zero, List.nil_append, Nat.zero_add, List.length_replicate,
    List.drop_eq_nil_of_le (Nat.le_of_eq buffer.length_bytes), List.append_nil] at zeros
  rw [Block.bytes_of_write 0 written, zeros, List.take_zero, List.nil_append,
    Nat.zero_add, List.drop_replicate]

theorem receiveInto_isSome_iff (buffer : Block bufferSize) (message : List UInt8) :
    (receiveInto buffer message).isSome ↔ message.length ≤ bufferSize := by
  have clears := (buffer.write_isSome_iff 0 (List.replicate bufferSize 0)).mpr
    (by rw [List.length_replicate]; omega)
  obtain ⟨cleared, clears⟩ := Option.isSome_iff_exists.mp clears
  rw [receiveInto, clears, Option.bind_some, cleared.write_isSome_iff]
  omega

/-- Every site stores the terminator behind the message. -/
theorem BufferSite.receive_eq (site : BufferSite) (buffer : Block bufferSize)
    (message : List UInt8) :
    site.receive buffer message =
      (receiveInto buffer message).bind fun filled => filled.write message.length [0] := by
  cases site with
  | askClientBasicDetails =>
      rw [receive]
      cases received : receiveInto buffer message with
      | none => rw [Option.bind_none, Option.bind_none]
      | some filled =>
          have fits := (receiveInto_isSome_iff buffer message).mp (by rw [received]; rfl)
          rw [Option.bind_some, Option.bind_some, if_pos fits]
  | _ => rw [receive]

/-- A site writes only inside the buffer, and leaves the message in it as a string, exactly if the
message does not fill the buffer. -/
theorem receive_terminated_iff (site : BufferSite) (buffer : Block bufferSize)
    (message : List UInt8) :
    (∃ after, site.receive buffer message = some after ∧ HoldsMessage after message) ↔
      message.length < bufferSize := by
  rw [site.receive_eq]
  constructor
  · rintro ⟨after, received, -⟩
    obtain ⟨filled, -, terminated⟩ := Option.bind_eq_some_iff.mp received
    have inside := (filled.write_isSome_iff message.length [0]).mp (by rw [terminated]; rfl)
    rw [List.length_singleton] at inside
    omega
  · intro room
    obtain ⟨filled, received⟩ := Option.isSome_iff_exists.mp
      ((receiveInto_isSome_iff buffer message).mpr room.le)
    obtain ⟨rest, more⟩ := Nat.exists_eq_add_of_lt room
    have zeros : List.replicate (bufferSize - message.length) (0 : UInt8) =
        [0] ++ List.replicate rest 0 := by
      rw [more, Nat.add_assoc, Nat.add_sub_cancel_left]
      rfl
    have bytes := receiveInto_eq_some received
    rw [zeros, ← List.append_assoc] at bytes
    have one : [(0 : UInt8)].length = [(0 : UInt8)].length := rfl
    obtain ⟨after, written, bytes'⟩ := Block.write_append bytes one
    rw [List.append_assoc] at bytes'
    refine ⟨after, by rw [received, Option.bind_some, written], by rw [bytes', zeros], ?_⟩
    rw [Block.readString, if_pos (by simp [bytes']), bytes']
    exact congrArg some (CString.text_append_terminator message _)

/-- Behind a message as long as the buffer every site stores its terminator behind the block. -/
theorem BufferSite.receive_full (site : BufferSite) (buffer : Block bufferSize)
    {message : List UInt8} (full : bufferSize ≤ message.length) :
    site.receive buffer message = none := by
  rw [site.receive_eq, Option.eq_none_iff_forall_ne_some]
  intro after received
  obtain ⟨filled, -, terminated⟩ := Option.bind_eq_some_iff.mp received
  have inside := (filled.write_isSome_iff message.length [0]).mp (by rw [terminated]; rfl)
  rw [List.length_singleton] at inside
  omega

/-- No site has room for the terminator of 1500 bytes. -/
theorem full_message_overruns :
    (List.replicate bufferSize (97 : UInt8)).length ≤ bufferSize ∧
      BufferSite.serverFillBufferWithResponse.receive (.zeroed bufferSize)
        (List.replicate bufferSize 97) = none ∧
      BufferSite.askClientBasicDetails.receive (.zeroed bufferSize)
        (List.replicate bufferSize 97) = none ∧
      BufferSite.clientFillBufferWithResponse.receive (.zeroed bufferSize)
        (List.replicate bufferSize 97) = none ∧
      BufferSite.keepConnectionWithServerCli.receive (.zeroed bufferSize)
        (List.replicate bufferSize 97) = none := by
  have length : (List.replicate bufferSize (97 : UInt8)).length = bufferSize :=
    List.length_replicate
  refine ⟨length.le, ?_, ?_, ?_, ?_⟩
  all_goals exact BufferSite.receive_full _ _ length.ge

/-! ## Composing strings -/

/-- `strdup` -/
def strdupBlock (string : List UInt8) : Block (string.length + 1) :=
  ⟨string ++ [0], List.length_append⟩

/-- The trimming of the file name in `download_file`. -/
def trimDownload (reply : List UInt8) : Option (Block (reply.length + 1)) :=
  (strdupBlock reply).write ((reply.length : Int) - 1) [0]

/-- The trimming of the file name in `upload_file`. -/
def trimUpload (reply : List UInt8) : Option (Block (reply.length + 1)) :=
  if 0 < reply.length ∧ reply.getLast? = some 10 then
    (strdupBlock reply).write ((reply.length : Int) - 1) [0]
  else
    some (strdupBlock reply)

/-- `strcpy` and `strcat` of the path in `download_file`, into a block that was not cleared. -/
def composePath (path : Block maxLenFilePath) (reply : List UInt8) :
    Option (Block maxLenFilePath) :=
  (trimDownload reply).bind fun trimmed =>
    trimmed.readString.bind fun filename =>
      (path.writeString 0 pathAssetsFolder).bind fun path =>
        path.readString.bind fun folder => path.writeString folder.length filename

/-- The welcome of `input_client_commands`. -/
def welcomeText (name : List UInt8) : List UInt8 :=
  literal "Welcome to the uploading service, " ++ literal "\x1b[32m" ++ name ++
    literal "\x1b[0m" ++ literal "!\n\n" ++ literal "Insert the desired command after the '>'.\n" ++
    literal "Enter '-h' (or '--help') for available commands.\n"

/-- The reply of `download_file` about a file that does not open. -/
def notFoundText (filename : List UInt8) : List UInt8 :=
  literal "File " ++ filename ++ literal " not found. Please, try again.\n"

theorem Host.welcomeClient_eq (host : Host) (session : FtpSession) :
    host.welcomeClient session =
      if host.sends session.history then
        host.promptCommand (session.send (welcomeText session.name))
      else
        (session.send (welcomeText session.name)).goto (.finished (-2)) := by
  rw [welcomeClient, welcomeText]

/-- A file that was measured and does not open any more is reported. -/
theorem Host.downloadFile_missing (host : Host) (session : FtpSession) (message : List UInt8)
    (measured : 0 ≤ getFileSize (host.disk session.history) (downloadPath message))
    (sends : ∀ history, host.sends history = true)
    (missing : ∀ history, session.history <+: history →
      (host.disk history).openRead (downloadPath message) = none) :
    .sent (notFoundText message.dropLast) ∈ (host.downloadFile session message).history := by
  simp only [downloadFile]
  rw [if_neg (by omega), if_neg (by simp [sends]), missing]
  · exact (host.afterCommand_replies _ _ _).history.subset (by simp [notFoundText])
  · exact (List.prefix_append _ _).trans (List.prefix_append _ _)

/-- The strings the server builds from a name and from a reply about a file to download or to upload
stay in their blocks, whatever was in those before. -/
structure ComposedFit (name reply : List UInt8) : Prop where
  downloadTrim : (trimDownload reply).isSome
  uploadTrim : (trimUpload reply).isSome
  path : ∀ block, (composePath block reply).isSome
  welcome : ∀ buffer : Block bufferSize, (buffer.writeString 0 (welcomeText name)).isSome
  notFound : ∀ disk, 0 ≤ getFileSize disk (downloadPath reply) →
    ∀ buffer : Block bufferSize, (buffer.writeString 0 (notFoundText reply.dropLast)).isSome

/-- The last byte of a string is trimmed exactly if there is one. -/
theorem trimDownload_isSome_iff (reply : List UInt8) :
    (trimDownload reply).isSome ↔ 1 ≤ reply.length := by
  rw [trimDownload, Block.write_isSome_iff, List.length_singleton]
  omega

theorem trimUpload_isSome (reply : List UInt8) : (trimUpload reply).isSome := by
  rw [trimUpload]
  split
  · rename_i newline
    rw [Block.write_isSome_iff, List.length_singleton]
    omega
  · rfl

/-- What is left of a string without its last byte. -/
theorem readString_trimDownload {reply : List UInt8} (nonzero : 0 ∉ reply)
    {trimmed : Block (reply.length + 1)} (trims : trimDownload reply = some trimmed) :
    trimmed.readString = some reply.dropLast := by
  have some_byte := (trimDownload_isSome_iff reply).mp (by rw [trims]; rfl)
  have last : ((reply.length : Int) - 1) = ((reply.length - 1 : Nat) : Int) := by omega
  rw [trimDownload, last] at trims
  have bytes := Block.bytes_of_write (reply.length - 1) trims
  rw [strdupBlock, List.take_append_of_le_length (by omega), ← List.dropLast_eq_take,
    List.append_assoc] at bytes
  exact Block.readString_of_prefix
    (fun member => nonzero ((List.dropLast_sublist reply).subset member)) bytes

/-- The copied folder is what `strcat` goes on from. -/
theorem folder_written (path : Block maxLenFilePath) :
    ∃ after, path.writeString 0 pathAssetsFolder = some after ∧
      after.readString = some pathAssetsFolder := by
  have room := (path.writeString_isSome_iff 0 pathAssetsFolder).mpr (by decide)
  obtain ⟨after, written⟩ := Option.isSome_iff_exists.mp room
  exact ⟨after, written, Block.readString_of_writeString (by decide) written⟩

/-- The copy `upload_file` goes on with is the reply without its newline. -/
theorem readString_trimUpload {reply : List UInt8} (nonzero : 0 ∉ reply)
    {trimmed : Block (reply.length + 1)} (trims : trimUpload reply = some trimmed) :
    trimmed.readString = some (withoutNewline reply) := by
  rw [trimUpload] at trims
  rw [withoutNewline]
  split at trims
  · rename_i newline
    rw [if_pos newline.2]
    exact readString_trimDownload nonzero trims
  · rename_i noNewline
    have other : ¬ reply.getLast? = some 10 := by
      intro newline
      exact noNewline ⟨List.length_pos_of_mem (List.mem_of_getLast? newline), newline⟩
    rw [if_neg other, ← Option.some.inj trims]
    exact Block.readString_of_prefix nonzero rfl

/-- The path fits exactly if the reply is not empty and, with its last byte for the terminator, has
room behind the folder. -/
theorem composePath_isSome_iff (path : Block maxLenFilePath) {reply : List UInt8}
    (nonzero : 0 ∉ reply) :
    (composePath path reply).isSome ↔
      1 ≤ reply.length ∧ pathAssetsFolder.length + reply.length ≤ maxLenFilePath := by
  rw [composePath]
  cases trims : trimDownload reply with
  | none =>
      have empty := (trimDownload_isSome_iff reply).not.mp (by rw [trims]; exact Bool.false_ne_true)
      exact iff_of_false Bool.false_ne_true fun fits => empty fits.1
  | some trimmed =>
      have some_byte := (trimDownload_isSome_iff reply).mp (by rw [trims]; rfl)
      obtain ⟨after, written, folder⟩ := folder_written path
      rw [Option.bind_some, readString_trimDownload nonzero trims, Option.bind_some, written,
        Option.bind_some, folder, Option.bind_some, Block.writeString_isSome_iff,
        List.length_dropLast]
      omega

/-- A path that fits is the one that is measured and opened. -/
theorem readString_composePath {path after : Block maxLenFilePath} {reply : List UInt8}
    (nonzero : 0 ∉ reply) (composed : composePath path reply = some after) :
    after.readString = some (downloadPath reply) := by
  obtain ⟨trimmed, trims, rest⟩ := Option.bind_eq_some_iff.mp composed
  obtain ⟨copied, written, folder⟩ := folder_written path
  rw [readString_trimDownload nonzero trims, Option.bind_some, written, Option.bind_some, folder,
    Option.bind_some] at rest
  refine Block.readString_of_append folder (fun member => nonzero ?_) rest
  exact (List.dropLast_sublist reply).subset member

theorem length_welcomeText (name : List UInt8) :
    (welcomeText name).length = name.length + 137 := by
  have front :
      (literal "Welcome to the uploading service, " ++ literal "\x1b[32m").length = 39 := by
    decide +kernel
  have back : (literal "\x1b[0m" ++ literal "!\n\n" ++
      literal "Insert the desired command after the '>'.\n" ++
      literal "Enter '-h' (or '--help') for available commands.\n").length = 98 := by
    decide +kernel
  simp only [List.length_append] at front back
  simp only [welcomeText, List.length_append]
  omega

theorem length_notFoundText (filename : List UInt8) :
    (notFoundText filename).length = filename.length + 36 := by
  have front : (literal "File ").length = 5 := by decide
  have back : (literal " not found. Please, try again.\n").length = 31 := by decide +kernel
  rw [notFoundText, List.length_append, List.length_append, front, back]
  omega

/-- What is read from the buffer is a string. -/
theorem zero_notMem_response (result : RecvResult) : 0 ∉ (fillBufferWithResponse result).2 := by
  cases result with
  | data bytes => exact CString.zero_notMem_text bytes
  | _ => exact List.not_mem_nil

/-- Everything the server builds fits exactly if the reply is not empty and leaves room in the path,
and the name leaves room in the welcome. -/
theorem composed_strings_fit_iff (nameMessage : List UInt8) (result : RecvResult) :
    ComposedFit (CString.text nameMessage) (fillBufferWithResponse result).2 ↔
      (1 ≤ (fillBufferWithResponse result).2.length ∧
        (fillBufferWithResponse result).2.length ≤ 993) ∧
      (CString.text nameMessage).length ≤ 1362 := by
  have nonzero := zero_notMem_response result
  have folder : pathAssetsFolder.length = 7 := by decide
  generalize (fillBufferWithResponse result).2 = reply at nonzero ⊢
  generalize CString.text nameMessage = name
  constructor
  · intro fits
    have path := (composePath_isSome_iff (.zeroed _) nonzero).mp (fits.path _)
    have welcome := (Block.writeString_isSome_iff (.zeroed bufferSize) 0 _).mp (fits.welcome _)
    rw [folder, maxLenFilePath] at path
    rw [length_welcomeText, bufferSize] at welcome
    omega
  · rintro ⟨⟨some_byte, short⟩, fits⟩
    refine ⟨(trimDownload_isSome_iff reply).mpr some_byte, trimUpload_isSome reply, ?_, ?_, ?_⟩
    · intro block
      rw [composePath_isSome_iff block nonzero, folder, maxLenFilePath]
      omega
    · intro buffer
      rw [Block.writeString_isSome_iff, length_welcomeText, bufferSize]
      omega
    · intro disk _ buffer
      rw [Block.writeString_isSome_iff, length_notFoundText, List.length_dropLast, bufferSize]
      omega

/-- A client disconnects where a file name is expected, and one asks for a name as long as the
buffer allows. -/
theorem composed_strings_overrun :
    ¬ ComposedFit [97] (fillBufferWithResponse .closed).2 ∧
      trimDownload (fillBufferWithResponse .closed).2 = none ∧
      ∀ path, composePath path (List.replicate (bufferSize - 1) 97) = none := by
  have trims : trimDownload (fillBufferWithResponse .closed).2 = none := by decide
  refine ⟨fun fits => ?_, trims, fun path => ?_⟩
  · have inside := fits.downloadTrim
    rw [trims] at inside
    cases inside
  · rw [← Option.not_isSome_iff_eq_none, composePath_isSome_iff path (by simp),
      List.length_replicate]
    decide

end CmyMessage
