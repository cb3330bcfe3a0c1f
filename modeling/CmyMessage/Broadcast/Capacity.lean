import CmyMessage.Broadcast.Round
import CmyMessage.Foundation.Block

/-!
# Indices and lengths in a gather round

The bytes received from all senders of a round are added up, and the sum is used as an index into
the buffer of one client.  The messages are formatted in one block and collected in another, whose
sizes come from different constants.
-/

namespace CmyMessage

/-- The bytes that the calls of a gather loop received. -/
def receivedBytes (calls : List (Nat × RecvResult)) : Nat :=
  (calls.flatMap fun call => call.2.bytes).length

theorem receivedBytes_append (front back : List (Nat × RecvResult)) :
    receivedBytes (front ++ back) = receivedBytes front + receivedBytes back := by
  rw [receivedBytes, List.flatMap_append, List.length_append, receivedBytes, receivedBytes]

/-- The index at which `broadcast_message_to_online_clients` writes the terminator. -/
def ClientInfo.terminatorIndex (client : ClientInfo) : Int := client.totNumBytesRecv - 1

namespace ChatServer

/-! ## The terminator behind a round -/

/-- The terminator goes where the index says, if that is in the block at all. -/
theorem terminator_written {server : ChatServer} {session : Nat} {client client' : ClientInfo}
    {command : Command} (broadcasts : client.pc = .broadcast .lockServer)
    (next : server.next session client .tick = some (client', command))
    (natural : 0 ≤ client.terminatorIndex) :
    client'.buffer = client.buffer.set client.terminatorIndex.toNat 0 := by
  rw [ChatServer.next, broadcasts] at next
  cases next
  rw [ClientInfo.terminatorIndex] at natural ⊢
  change (if client.totNumBytesRecv = 0 then client.buffer else _) = _
  rw [if_neg (by omega)]
  congr 1
  omega

/-- A step of a scan adds what it received to the total. -/
theorem next_total {server : ChatServer} {session : Nat} {client client' : ClientInfo}
    {input : Input} {command : Command} (scans : client.pc.scans)
    (next : server.next session client input = some (client', command)) :
    client'.pc ≠ .gather .reset ∧ client'.totNumBytesRecv =
      (if client.pc = .gather .reset then 0 else client.totNumBytesRecv) +
        receivedBytes (client.gatherCall input) := by
  revert next
  fun_cases ChatServer.next <;>
    [skip; skip; skip; fun_cases getMessagesFromActiveClients; skip;
      fun_cases startRemovingClientFromBroadcast; skip; skip; skip]
  all_goals first | (simp_all [Pc.scans]; done) | skip
  all_goals rintro ⟨⟩
  all_goals
    simp_all [ClientInfo.goto, ClientInfo.gatherCall, receivedBytes, RecvResult.bytes]

/-- What the gather loop receives fits the buffer. -/
theorem gatherCall_fits {server : ChatServer} {session : Nat} {client client' : ClientInfo}
    {input : Input} {command : Command}
    (next : server.next session client input = some (client', command)) :
    ∀ call ∈ client.gatherCall input, call.2.fits bufferSize = true := by
  intro call member
  by_cases at_recv : client.pc = .gather .receive
  · cases input with
    | received result =>
        rw [ChatServer.next, at_recv] at next
        obtain ⟨possible, -⟩ := receive_next next
        rw [ClientInfo.gatherCall, if_pos at_recv, List.mem_singleton] at member
        rw [canReceive, Bool.and_eq_true] at possible
        exact member ▸ possible.1
    | _ => cases member
  · rw [ClientInfo.gatherCall_eq_nil at_recv] at member
    cases member

/-- The total of a scan is what it has received so far. -/
def Totals (session : Nat) (now : ChatServer × List (Nat × RecvResult)) : Prop :=
  (∀ call ∈ now.2, call.2.fits bufferSize = true) ∧
    ∃ client, now.1.clients session = some client ∧
      (client.pc = .gather .reset → now.2 = []) ∧
      (client.pc ≠ .gather .reset → client.totNumBytesRecv = receivedBytes now.2)

theorem Totals.step {session : Nat} {ready : FdSet} {label : Label}
    {before after : ChatServer × List (Nat × RecvResult)} (totals : Totals session before)
    (step : (gatherScan session ready).step before label = some after) : Totals session after := by
  obtain ⟨fits, client, here, fresh, total⟩ := totals
  obtain ⟨scans, ⟨input, client', command, next, here', calls⟩ | ⟨here', calls⟩⟩ :=
    gatherScan_cases here step
  · obtain ⟨moved, added⟩ := next_total scans next
    refine ⟨?_, client', here', fun at_reset => absurd at_reset moved, fun _ => ?_⟩
    · intro call member
      rw [calls, List.mem_append] at member
      exact member.elim (fits call) (gatherCall_fits next call)
    · rw [added, calls, receivedBytes_append]
      split
      · rename_i at_reset
        rw [fresh at_reset]
        rfl
      · rename_i elsewhere
        rw [total elsewhere]
  · exact ⟨calls ▸ fits, client, here', calls ▸ fresh, calls ▸ total⟩

theorem totals {session : Nat} {ready : FdSet} {now : ChatServer × List (Nat × RecvResult)}
    (reached : (gatherScan session ready).Reaches now) : Totals session now := by
  refine reached.invariant (fun start starts => ?_) fun _ _ _ _ totals step => totals.step step
  obtain ⟨⟨client, here, at_reset, -⟩, empty⟩ := starts
  exact ⟨by simp [empty], client, here, fun _ => empty, fun elsewhere => absurd at_reset elsewhere⟩

/-- Bytes were received exactly if some call returned data. -/
theorem receivedBytes_pos_iff {calls : List (Nat × RecvResult)}
    (fits : ∀ call ∈ calls, call.2.fits bufferSize = true) :
    1 ≤ receivedBytes calls ↔ ∃ call ∈ calls, call.2.isData = true := by
  rw [receivedBytes, Nat.succ_le_iff, List.length_pos_iff_exists_mem]
  constructor
  · rintro ⟨byte, member⟩
    obtain ⟨call, inside, byte_mem⟩ := List.mem_flatMap.mp member
    refine ⟨call, inside, ?_⟩
    cases result : call.2 <;> simp_all [RecvResult.isData, RecvResult.bytes]
  · rintro ⟨call, inside, isData⟩
    have arrived := fits call inside
    cases result : call.2 with
    | data bytes =>
        rw [result, RecvResult.fits, decide_eq_true_eq] at arrived
        obtain ⟨byte, member⟩ := List.length_pos_iff_exists_mem.mp arrived.1
        exact ⟨byte, List.mem_flatMap.mpr ⟨call, inside, by rw [result]; exact member⟩⟩
    | _ => simp [result, RecvResult.isData] at isData

/-- At the end of a round the terminator is written inside the buffer exactly if some `recv` of the
round returned data and all the data together would have fitted the buffer. -/
theorem terminator_inside_iff {session : Nat} {ready : FdSet} {server : ChatServer}
    {calls : List (Nat × RecvResult)}
    (reached : (gatherScan session ready).Reaches (server, calls)) {client : ClientInfo}
    (here : server.clients session = some client)
    (broadcasts : client.pc = .broadcast .lockServer) :
    (0 ≤ client.terminatorIndex ∧ client.terminatorIndex < bufferSize) ↔
      (∃ call ∈ calls, call.2.isData = true) ∧ receivedBytes calls ≤ bufferSize := by
  obtain ⟨fits, found, inside, -, total⟩ := totals reached
  obtain rfl : client = found := Option.some.inj (here.symm.trans inside)
  rw [← receivedBytes_pos_iff fits, ClientInfo.terminatorIndex, total (by simp [broadcasts])]
  change 0 ≤ (receivedBytes calls : Int) - 1 ∧ (receivedBytes calls : Int) - 1 < bufferSize ↔
    1 ≤ receivedBytes calls ∧ receivedBytes calls ≤ bufferSize
  omega

/-- The first client sends `x` and the stream of the second one reports an error. -/
theorem terminator_inside_iff_data_error :
    ∃ (ready : FdSet) (now : ChatServer × List (Nat × RecvResult)) (client : ClientInfo),
      (gatherScan 1 ready).Reaches now ∧ now.1.clients 1 = some client ∧
        0 ≤ client.terminatorIndex ∧ client.terminatorIndex < bufferSize := by
  have executes : scanRun bothReadyScript dataErrorScript (fun client => client.pc) =
      some (.gather .reset, some (.broadcast .lockServer), [(4, .data [120]), (5, .error)]) := by
    decide +kernel
  obtain ⟨start, ready, now, client, -, -, reached, here, broadcasts, calls⟩ :=
    scanRun_reaches executes
  refine ⟨ready, now, client, reached, here, ?_⟩
  apply (terminator_inside_iff reached here broadcasts).mpr
  rw [calls]
  exact ⟨⟨(4, .data [120]), by simp, rfl⟩, by decide⟩

/-- A round in which `select` times out: the terminator goes in front of the buffer. -/
theorem terminator_outside :
    ∃ (start : ChatServer) (ready : FdSet) (now : ChatServer × List (Nat × RecvResult))
      (client : ClientInfo), chatService.Reaches start ∧
        (gatherScan 1 ready).Initial (start, []) ∧ (gatherScan 1 ready).Reaches now ∧
          now.1.clients 1 = some client ∧ client.pc = .broadcast .lockServer ∧
            ¬ (0 ≤ client.terminatorIndex ∧ client.terminatorIndex < bufferSize) := by
  have executes : scanRun (connectScript 1 4 [97] ++ registerScript 1 ++ ticks 1 4 ++
        [.run 1 (.selected (some fun _ => false))]) (ticks 1 2)
        (fun client => (client.pc, client.terminatorIndex)) =
      some (.gather .reset, some (.broadcast .lockServer, -1), []) := by
    decide +kernel
  obtain ⟨start, ready, now, client, begins, starts, reached, here, viewed, -⟩ :=
    scanRun_reaches executes
  obtain ⟨broadcasts, index⟩ := Prod.mk.inj viewed
  exact ⟨start, ready, now, client, begins, starts, reached, here, broadcasts, by omega⟩

end ChatServer

/-! ## The lines of a round -/

/-- `p_client_msg_edited` and `p_common_msg_buffer` -/
structure LineBlocks where
  /-- `p_client_msg_edited` -/
  edited : Block (bufferSize + maxNumClients + 3)
  /-- `p_common_msg_buffer` -/
  common : Block (bufferSize * defaultMaxNumClients)

/-- A message on its way into the common buffer. -/
structure Formatting where
  /-- The block in `usernames_by_FD_arr` for the descriptor. -/
  name : List UInt8
  /-- What `recv` stored in the cleared buffer. -/
  message : List UInt8
  /-- The memory behind the buffer, which is read if the buffer holds no NUL byte. -/
  beyond : List UInt8

namespace Formatting

/-- The memory from the start of the receive buffer on. -/
def memory (formatting : Formatting) : List UInt8 :=
  formatting.message ++ List.replicate (bufferSize - formatting.message.length) 0 ++
    formatting.beyond

/-- What `sprintf` writes, without the terminator. -/
def line (formatting : Formatting) : List UInt8 :=
  ChatServer.clientMsgEdited formatting.name formatting.memory

theorem zero_notMem_line (formatting : Formatting) : 0 ∉ formatting.line :=
  ChatServer.zero_notMem_clientMsgEdited _ _

end Formatting

namespace LineBlocks

/-- `memset` at the start of a round, up to where the source clears the common buffer. -/
def clear (blocks : LineBlocks) : Option LineBlocks :=
  (blocks.common.write 0 (List.replicate (bufferSize + maxNumClients + 3) 0)).map fun common =>
    { blocks with common }

/-- `sprintf`, `strcat` and the `memset` behind them. -/
def format (blocks : LineBlocks) (formatting : Formatting) : Option LineBlocks :=
  (blocks.edited.writeString 0 formatting.line).bind fun edited =>
    edited.readString.bind fun line =>
      blocks.common.readString.bind fun text =>
        (blocks.common.writeString text.length line).bind fun common =>
          (edited.write 0 (List.replicate bufferSize 0)).map fun edited => { edited, common }

/-- The messages of a round, one behind the other. -/
def formatAll (blocks : LineBlocks) : List Formatting → Option LineBlocks
  | [] => some blocks
  | formatting :: formattings =>
      (blocks.format formatting).bind fun blocks => blocks.formatAll formattings

/-- What a round writes into the two blocks. -/
def gather (blocks : LineBlocks) (formattings : List Formatting) : Option LineBlocks :=
  blocks.clear.bind fun blocks => blocks.formatAll formattings

/-! ## What the lines need -/

variable {blocks after : LineBlocks} {text : List UInt8}

theorem format_eq_some (read : blocks.common.readString = some text) {formatting : Formatting}
    (formatted : blocks.format formatting = some after) :
    after.common.readString = some (text ++ formatting.line) := by
  obtain ⟨edited, written, rest⟩ := Option.bind_eq_some_iff.mp formatted
  rw [Block.readString_of_writeString formatting.zero_notMem_line written, read,
    Option.bind_some, Option.bind_some] at rest
  obtain ⟨common, appended, rest⟩ := Option.bind_eq_some_iff.mp rest
  obtain ⟨cleared, -, rfl⟩ := Option.map_eq_some_iff.mp rest
  exact Block.readString_of_append read formatting.zero_notMem_line appended

/-- One line has to fit the one block, and what is left of the other. -/
theorem format_isSome_iff (read : blocks.common.readString = some text) (formatting : Formatting) :
    (blocks.format formatting).isSome ↔
      formatting.line.length + 1 ≤ bufferSize + maxNumClients + 3 ∧
        text.length + formatting.line.length + 1 ≤ bufferSize * defaultMaxNumClients := by
  have first := blocks.edited.writeString_isSome_iff 0 formatting.line
  have second := blocks.common.writeString_isSome_iff text.length formatting.line
  rw [format]
  cases written : blocks.edited.writeString 0 formatting.line with
  | none =>
      rw [written] at first
      refine iff_of_false Bool.false_ne_true fun fits => ?_
      exact Bool.false_ne_true (first.mpr (by omega))
  | some edited =>
      rw [written] at first
      rw [Option.bind_some, Block.readString_of_writeString formatting.zero_notMem_line written,
        read, Option.bind_some, Option.bind_some]
      have inside := first.mp rfl
      have clears : (edited.write 0 (List.replicate bufferSize 0)).isSome :=
        (edited.write_isSome_iff 0 _).mpr (by rw [List.length_replicate]; omega)
      obtain ⟨cleared, clears⟩ := Option.isSome_iff_exists.mp clears
      rw [clears]
      cases appended : blocks.common.writeString text.length formatting.line with
      | none =>
          rw [appended] at second
          refine iff_of_false Bool.false_ne_true fun fits => ?_
          exact Bool.false_ne_true (second.mpr (by omega))
      | some common =>
          rw [appended] at second
          have room := second.mp rfl
          exact iff_of_true rfl (by omega)

theorem formatAll_isSome_iff (read : blocks.common.readString = some text)
    (formattings : List Formatting) :
    (blocks.formatAll formattings).isSome ↔
      (∀ formatting ∈ formattings,
        formatting.line.length + 1 ≤ bufferSize + maxNumClients + 3) ∧
      text.length + (formattings.flatMap Formatting.line).length + 1 ≤
        bufferSize * defaultMaxNumClients := by
  induction formattings generalizing blocks text with
  | nil =>
      have inside := Block.length_of_readString read
      exact iff_of_true rfl ⟨by simp, by simpa using inside⟩
  | cons formatting formattings ih =>
      have one := format_isSome_iff read formatting
      rw [formatAll, List.forall_mem_cons, List.flatMap_cons, List.length_append]
      cases formatted : blocks.format formatting with
      | none =>
          rw [formatted] at one
          refine iff_of_false Bool.false_ne_true fun fits => ?_
          exact Bool.false_ne_true (one.mpr ⟨fits.1.1, by omega⟩)
      | some after =>
          rw [formatted] at one
          have fits := one.mp rfl
          rw [Option.bind_some, ih (format_eq_some read formatted), List.length_append,
            ← Nat.add_assoc]
          exact and_congr_left fun _ => (and_iff_right fits.1).symm

/-- The round starts with an empty common buffer, whatever was in it. -/
theorem clear_eq_some (blocks : LineBlocks) :
    ∃ after, blocks.clear = some after ∧ after.common.readString = some [] := by
  have clears := (blocks.common.write_isSome_iff 0
    (List.replicate (bufferSize + maxNumClients + 3) 0)).mpr
      (by rw [List.length_replicate]; decide)
  obtain ⟨common, cleared⟩ := Option.isSome_iff_exists.mp clears
  refine ⟨{ blocks with common }, by rw [clear, cleared]; rfl, ?_⟩
  have bytes := Block.bytes_of_write 0 cleared
  exact Block.readString_of_prefix List.not_mem_nil bytes

theorem gather_isSome_iff (blocks : LineBlocks) (formattings : List Formatting) :
    (blocks.gather formattings).isSome ↔
      (∀ formatting ∈ formattings,
        formatting.line.length + 1 ≤ bufferSize + maxNumClients + 3) ∧
      (formattings.flatMap Formatting.line).length + 1 ≤
        bufferSize * defaultMaxNumClients := by
  obtain ⟨after, cleared, empty⟩ := blocks.clear_eq_some
  rw [gather, cleared, Option.bind_some, formatAll_isSome_iff empty, List.length_nil, Nat.zero_add]

end LineBlocks

/-- A message that leaves a NUL byte in the receive buffer is all that `sprintf` reads of it. -/
theorem Formatting.line_of_terminated (formatting : Formatting)
    (terminated : formatting.message.length < bufferSize ∨ 0 ∈ formatting.message) :
    formatting.line = ChatServer.clientMsgEdited formatting.name formatting.message := by
  rw [line, ChatServer.clientMsgEdited, ChatServer.clientMsgEdited]
  congr 1
  rcases terminated with short | inside
  · obtain ⟨room, more⟩ := Nat.exists_eq_add_of_lt short
    rw [memory, more, Nat.add_assoc, Nat.add_sub_cancel_left, List.replicate_succ,
      List.append_assoc, List.cons_append, CString.text_append_terminator]
  · rw [memory, List.append_assoc, CString.text_append_of_mem inside]

/-- With an unterminated buffer `sprintf` goes on reading behind it. -/
theorem Formatting.line_of_unterminated (formatting : Formatting)
    (full : bufferSize ≤ formatting.message.length) (nonzero : 0 ∉ formatting.message)
    (behind : 0 ∉ formatting.beyond) :
    formatting.line.length =
      (CString.text formatting.name).length + 2 + formatting.message.length +
        formatting.beyond.length := by
  have whole : CString.text formatting.memory = formatting.message ++ formatting.beyond := by
    rw [memory, Nat.sub_eq_zero_of_le full, List.replicate_zero, List.append_nil]
    exact CString.text_eq_self fun member => (List.mem_append.mp member).elim nonzero behind
  rw [line, ChatServer.clientMsgEdited, whole]
  simp only [List.length_append, literal]
  rw [← Nat.add_assoc]
  rfl

theorem length_clientMsgEdited (name message : List UInt8) :
    (ChatServer.clientMsgEdited name message).length =
      (CString.text name).length + 2 + (CString.text message).length := by
  rw [ChatServer.clientMsgEdited, List.length_append, List.length_append]
  rfl

/-- A terminated message fits the first block exactly if its line is no longer than the constants of
that block allow. -/
theorem Formatting.fits_iff (formatting : Formatting)
    (terminated : formatting.message.length < bufferSize ∨ 0 ∈ formatting.message) :
    formatting.line.length + 1 ≤ bufferSize + maxNumClients + 3 ↔
      (CString.text formatting.name).length + (CString.text formatting.message).length ≤
        bufferSize + maxNumClients := by
  rw [formatting.line_of_terminated terminated, length_clientMsgEdited]
  omega

/-- With enough memory without a NUL byte behind the buffer, only terminated messages fit. -/
theorem Formatting.terminated_of_fits (formatting : Formatting)
    (behind : formatting.beyond = List.replicate bufferSize 1)
    (fits : formatting.line.length + 1 ≤ bufferSize + maxNumClients + 3) :
    formatting.message.length < bufferSize ∨ 0 ∈ formatting.message := by
  by_contra unterminated
  push Not at unterminated
  have long := formatting.line_of_unterminated unterminated.1 unterminated.2 (by simp [behind])
  have full : bufferSize ≤ formatting.message.length := unterminated.1
  have room : maxNumClients < bufferSize := by decide
  rw [long, behind, List.length_replicate] at fits
  omega

theorem lines_of_terminated {formattings : List Formatting}
    (terminated : ∀ formatting ∈ formattings,
      formatting.message.length < bufferSize ∨ 0 ∈ formatting.message) :
    formattings.flatMap Formatting.line = formattings.flatMap fun formatting =>
      ChatServer.clientMsgEdited formatting.name formatting.message := by
  refine List.flatMap_congr fun formatting member => ?_
  exact formatting.line_of_terminated (terminated formatting member)

/-- Whatever lies behind the receive buffer, a round stays inside its two blocks exactly if no
message fills the receive buffer without a NUL byte, every name and message together are no longer
than the constants of the first block allow, and all lines together fit the second one. -/
theorem round_lines_fit_iff (blocks : LineBlocks) (messages : List (List UInt8 × List UInt8)) :
    (∀ formattings : List Formatting,
        formattings.map (fun formatting => (formatting.name, formatting.message)) = messages →
          (blocks.gather formattings).isSome) ↔
      (∀ sent ∈ messages, (sent.2.length < bufferSize ∨ 0 ∈ sent.2) ∧
        (CString.text sent.1).length + (CString.text sent.2).length ≤
          bufferSize + maxNumClients) ∧
      (messages.flatMap fun sent => ChatServer.clientMsgEdited sent.1 sent.2).length + 1 ≤
        bufferSize * defaultMaxNumClients := by
  constructor
  · intro stays
    let padded (sent : List UInt8 × List UInt8) : Formatting :=
      ⟨sent.1, sent.2, List.replicate bufferSize 1⟩
    have fits := (blocks.gather_isSome_iff (messages.map padded)).mp
      (stays (messages.map padded) (by simp [padded, Function.comp_def]))
    obtain ⟨each, together⟩ := fits
    rw [List.forall_mem_map] at each
    have terminated (sent : List UInt8 × List UInt8) (member : sent ∈ messages) :
        sent.2.length < bufferSize ∨ 0 ∈ sent.2 :=
      (padded sent).terminated_of_fits rfl (each sent member)
    rw [lines_of_terminated (List.forall_mem_map.mpr terminated), List.flatMap_map] at together
    refine ⟨fun sent member => ⟨terminated sent member, ?_⟩, together⟩
    exact ((padded sent).fits_iff (terminated sent member)).mp (each sent member)
  · rintro ⟨each, together⟩ formattings rfl
    rw [List.forall_mem_map] at each
    rw [LineBlocks.gather_isSome_iff, lines_of_terminated fun formatting member =>
      (each formatting member).1]
    rw [List.flatMap_map] at together
    refine ⟨fun formatting member => ?_, together⟩
    exact (formatting.fits_iff (each formatting member).1).mpr (each formatting member).2

/-- The block of nineteen bytes `a` as a name, and a message of one byte less than the buffer. -/
def longestLine : Formatting where
  name := List.replicate 19 97
  message := List.replicate (bufferSize - 1) 98
  beyond := []

theorem longest_line_outside :
    ¬ ∀ formattings : List Formatting,
        (∀ formatting ∈ formattings,
          (CString.text formatting.name).length ≤ maxUsernameLength - 1 ∧
            1 ≤ formatting.message.length ∧ formatting.message.length ≤ bufferSize) →
          ∀ blocks : LineBlocks, (blocks.gather formattings).isSome := by
  intro stays
  have name : CString.text longestLine.name = List.replicate 19 97 :=
    CString.text_eq_self (by simp [longestLine])
  have message : CString.text longestLine.message = List.replicate (bufferSize - 1) 98 :=
    CString.text_eq_self (by simp [longestLine])
  have length : longestLine.message.length = bufferSize - 1 := List.length_replicate
  have fits := stays [longestLine] (by
    intro formatting member
    rw [List.mem_singleton.mp member, name, length]
    decide) ⟨Block.zeroed _, Block.zeroed _⟩
  have bounded := (LineBlocks.gather_isSome_iff _ _).mp fits
  have terminated : longestLine.message.length < bufferSize := by
    rw [length]
    decide
  have line := (longestLine.fits_iff (.inl terminated)).mp
    (bounded.1 longestLine (List.mem_singleton_self _))
  rw [name, message, List.length_replicate, List.length_replicate] at line
  exact absurd line (by decide)

/-- The bounds on an ordinary round are those of the two blocks: a line of a string goes through
both, and the common block goes on holding what the common buffer of the service holds. -/
theorem Round.format_ordinary {session : Nat} {round : Round} {client : ClientInfo}
    (here : round.server.clients session = some client) (appends : client.pc = .gather .append)
    (ordinary : round.ordinary session (.run session .tick) = true)
    (terminated : client.buffer.length < bufferSize ∨ 0 ∈ client.buffer) {blocks : LineBlocks}
    (holds : blocks.common.readString = some (CString.text round.server.commonMsgBuffer))
    (beyond : List UInt8) :
    let name := round.server.usernamesByFD client.i.toNat
    ∃ after, blocks.format ⟨name, client.buffer, beyond⟩ = some after ∧
      after.common.readString = some (CString.text (CString.strcat round.server.commonMsgBuffer
        (ChatServer.clientMsgEdited name client.buffer))) := by
  simp only [Round.ordinary, here, appends, if_true, decide_eq_true_eq] at ordinary
  let formatting : Formatting :=
    ⟨round.server.usernamesByFD client.i.toNat, client.buffer, beyond⟩
  have line : formatting.line = ChatServer.clientMsgEdited formatting.name client.buffer :=
    Formatting.line_of_terminated formatting terminated
  have fits := (LineBlocks.format_isSome_iff holds formatting).mpr (by rw [line]; exact ordinary)
  obtain ⟨after, formatted⟩ := Option.isSome_iff_exists.mp fits
  refine ⟨after, formatted, ?_⟩
  rw [LineBlocks.format_eq_some holds formatted, CString.text_strcat, line,
    CString.text_eq_self (ChatServer.zero_notMem_clientMsgEdited _ _)]

end CmyMessage
