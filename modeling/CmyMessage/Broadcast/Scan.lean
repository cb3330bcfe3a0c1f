import CmyMessage.Broadcast.Steps

/-!
# One scan of the gather loop

Between the `select` and the broadcast a thread scans the descriptors it was told are ready.  The
loop variable is lent to `close_socket_with_ptr_if_open`, which resets it, so a disconnect starts
the scan again over the same set.
-/

namespace CmyMessage

/-- Between the `select` and the end of the gather loop. -/
def Pc.scans : Pc → Bool
  | .gather pc =>
      match pc with
      | .reset | .scan | .receive | .lockCommonMsg | .append | .unlockCommonMsg | .depart _ => true
      | _ => false
  | .remove _ _ _ => true
  | _ => false

/-- The `recv` of the gather loop that a step of a thread makes, with its result. -/
def ClientInfo.gatherCall (client : ClientInfo) : Input → List (Nat × RecvResult)
  | .received result => if client.pc = .gather .receive then [(client.i.toNat, result)] else []
  | _ => []

namespace ChatServer

/-- The `recv` that a step contributes to the gather loop of one thread. -/
def gatherCall (server : ChatServer) (session : Nat) : Label → List (Nat × RecvResult)
  | .run other input =>
      match server.clients session with
      | some client => if other = session then client.gatherCall input else []
      | none => []
  | _ => []

/-- A thread is between its `select` and the end of its gather loop. -/
def scans (server : ChatServer) (session : Nat) : Bool :=
  match server.clients session with
  | some client => client.pc.scans
  | none => false

end ChatServer

/-- The service from the moment `select` reported a set to a thread until the thread is through with
the set, with a record of what the thread received. -/
def gatherScan (session : Nat) (ready : FdSet) :
    LabelledSystem (ChatServer × List (Nat × RecvResult)) ChatServer.Label where
  Initial now := (∃ client, now.1.clients session = some client ∧ client.pc = .gather .reset ∧
    client.ready = ready) ∧ now.2 = []
  step now label :=
    if now.1.scans session then
      (now.1.step label).map fun after => (after, now.2 ++ now.1.gatherCall session label)
    else
      none

namespace ChatServer

/-- What one scan of a set has received, from a thread that is through with it: the ready
descriptors in ascending order and once each, all of them if the thread goes on to broadcast, and
nothing behind the end of its own stream, on which it has returned. -/
structure ReceivesOnce (ready : FdSet) (calls : List (Nat × RecvResult)) (client : ClientInfo) :
    Prop where
  ascending : calls.map Prod.fst <+: AscendingScan.below ready fdSetSize
  whole : client.pc = .broadcast .lockServer →
    calls.map Prod.fst = AscendingScan.below ready fdSetSize
  returns : (client.sockFD, .closed) ∈ calls →
    calls.getLast? = some (client.sockFD, .closed) ∧ client.pc = .finished

/-- The descriptors received from are the ready ones below a bound. -/
def Visited (ready : FdSet) (fds : List Nat) (bound : Int) : Prop :=
  0 ≤ bound ∧ bound ≤ fdSetSize ∧ fds = AscendingScan.below ready bound.toNat

/-- A scan in which no stream has ended. -/
def InOrder (ready : FdSet) (calls : List (Nat × RecvResult)) (client : ClientInfo) : Prop :=
  client.ready = ready ∧ (∀ call ∈ calls, call.2 ≠ .closed) ∧
    match client.pc with
    | .gather .reset => calls = []
    | .gather .scan => Visited ready (calls.map Prod.fst) client.i
    | .gather .receive => Visited ready (calls.map Prod.fst) client.i ∧ client.i < fdSetSize ∧
        ready client.i.toNat = true
    | .gather .lockCommonMsg | .gather .append | .gather .unlockCommonMsg =>
        Visited ready (calls.map Prod.fst) (client.i + 1)
    | .gather (.depart closed) | .remove _ closed _ =>
        closed = false ∧ Visited ready (calls.map Prod.fst) (client.i + 1)
    | .broadcast .lockServer => Visited ready (calls.map Prod.fst) fdSetSize
    | .finished => Visited ready (calls.map Prod.fst) (client.sockFD + 1)
    | _ => False

/-- A scan in which a stream has ended, up to the next `recv`. -/
def Restarted (ready : FdSet) (calls : List (Nat × RecvResult)) (client : ClientInfo) : Prop :=
  client.ready = ready ∧ ∃ earlier fd, calls = earlier ++ [(fd, .closed)] ∧ fd < fdSetSize ∧
    ready fd = true ∧
      match client.pc with
      | .gather .scan => client.i = 0
      | .gather .receive => client.i.toNat ≤ fd
      | .gather (.depart closed) | .remove _ closed _ => closed = true
      | _ => False

/-- A scan in which a stream has ended and a descriptor was received from out of order. -/
def Disordered (calls : List (Nat × RecvResult)) : Prop :=
  (∃ call ∈ calls, call.2 = .closed) ∧ ¬ (calls.map Prod.fst).Pairwise (· < ·)

theorem Disordered.append {calls : List (Nat × RecvResult)} (disordered : Disordered calls)
    (more : List (Nat × RecvResult)) : Disordered (calls ++ more) := by
  obtain ⟨⟨call, member, closed⟩, repeats⟩ := disordered
  refine ⟨⟨call, List.mem_append_left _ member, closed⟩, fun pairwise => repeats ?_⟩
  rw [List.map_append] at pairwise
  exact (List.pairwise_append.mp pairwise).1

/-- How far a scan has got. -/
def Scanned (ready : FdSet) (calls : List (Nat × RecvResult)) (client : ClientInfo) : Prop :=
  InOrder ready calls client ∨ Restarted ready calls client ∨ Disordered calls

theorem Visited.visit {ready : FdSet} {fds : List Nat} {i : Int} (visited : Visited ready fds i)
    (small : i < fdSetSize) (isReady : ready i.toNat = true) :
    Visited ready (fds ++ [i.toNat]) (i + 1) := by
  obtain ⟨natural, -, isBelow⟩ := visited
  have next : (i + 1).toNat = i.toNat + 1 := by omega
  refine ⟨by omega, by omega, ?_⟩
  rw [next, AscendingScan.below_succ_of_member isReady, isBelow]

theorem Visited.start (ready : FdSet) : Visited ready [] 0 :=
  ⟨Int.le_refl 0, Int.natCast_nonneg _, (AscendingScan.below_zero ready).symm⟩

/-- The scan goes on to a ready descriptor with nothing ready in between. -/
theorem Visited.found {ready : FdSet} {fds : List Nat} {i : Int} {fd : Nat}
    (visited : Visited ready fds i)
    (found : AscendingScan.next ready fdSetSize i.toNat = some fd) :
    Visited ready fds fd ∧ (fd : Int) < fdSetSize ∧ ready fd = true := by
  obtain ⟨-, small, member, same⟩ := AscendingScan.next_eq_some found
  refine ⟨⟨Int.natCast_nonneg fd, ?_, visited.2.2.trans same.symm⟩, ?_, member⟩
  · exact Int.ofNat_le.mpr small.le
  · exact Int.ofNat_lt.mpr small

/-- The scan is over when nothing is ready any more. -/
theorem Visited.missing {ready : FdSet} {fds : List Nat} {i : Int} (visited : Visited ready fds i)
    (missing : AscendingScan.next ready fdSetSize i.toNat = none) :
    Visited ready fds fdSetSize := by
  obtain ⟨natural, bounded, isBelow⟩ := visited
  have all := AscendingScan.next_eq_none (by omega) missing
  exact ⟨Int.natCast_nonneg _, Int.le_refl _, isBelow.trans all.symm⟩

theorem InOrder.isPrefix {ready : FdSet} {calls : List (Nat × RecvResult)} {client : ClientInfo}
    (inOrder : InOrder ready calls client) :
    calls.map Prod.fst <+: AscendingScan.below ready fdSetSize := by
  obtain ⟨-, -, progress⟩ := inOrder
  have visited {bound : Int} (visited : Visited ready (calls.map Prod.fst) bound) :
      calls.map Prod.fst <+: AscendingScan.below ready fdSetSize := by
    obtain ⟨natural, bounded, fds⟩ := visited
    rw [fds]
    exact AscendingScan.below_isPrefix (by omega)
  revert progress
  split
  · rintro rfl
    exact List.nil_prefix
  · exact visited
  · exact fun progress => visited progress.1
  · exact visited
  · exact visited
  · exact visited
  · exact fun progress => visited progress.2
  · exact fun progress => visited progress.2
  · exact visited
  · exact visited
  · exact False.elim

/-- Only the `recv` of the gather loop is recorded. -/
theorem ClientInfo.gatherCall_eq_nil {client : ClientInfo}
    (elsewhere : client.pc ≠ .gather .receive) (input : Input) : client.gatherCall input = [] := by
  cases input with
  | received result => exact if_neg elsewhere
  | _ => rfl

theorem InOrder.receive {server : ChatServer} {session : Nat} {ready : FdSet}
    {calls : List (Nat × RecvResult)} {client client' : ClientInfo} {result : RecvResult}
    {command : Command} (inOrder : InOrder ready calls client)
    (at_recv : client.pc = .gather .receive)
    (next : server.getMessagesFromActiveClients session client .receive (.received result) =
      some (client', command)) :
    Scanned ready (calls ++ [(client.i.toNat, result)]) client' := by
  obtain ⟨isReady, noneClosed, progress⟩ := inOrder
  rw [at_recv] at progress
  obtain ⟨visited, small, member⟩ := progress
  have visits : Visited ready ((calls ++ [(client.i.toNat, result)]).map Prod.fst)
      (client.i + 1) := by
    rw [List.map_append]
    exact visited.visit small member
  have still (open' : result ≠ .closed) :
      ∀ call ∈ calls ++ [(client.i.toNat, result)], call.2 ≠ .closed := by
    simpa [or_imp, forall_and] using And.intro noneClosed open'
  obtain ⟨-, -, onError, onClosed, onData⟩ := receive_next next
  cases result with
  | error =>
      obtain rfl := onError rfl
      exact .inl ⟨isReady, still RecvResult.noConfusion, rfl, visits⟩
  | closed =>
      obtain rfl := onClosed rfl
      have natural := visited.1
      have small' : client.i.toNat < fdSetSize := by omega
      exact .inr (.inl ⟨isReady, calls, client.i.toNat, rfl, small', member, rfl⟩)
  | data bytes =>
      obtain rfl := onData bytes rfl
      exact .inl ⟨isReady, still RecvResult.noConfusion, visits⟩

theorem InOrder.step {server : ChatServer} {session : Nat} {ready : FdSet}
    {calls : List (Nat × RecvResult)} {client client' : ClientInfo} {input : Input}
    {command : Command} (inOrder : InOrder ready calls client) (scans : client.pc.scans)
    (next : server.next session client input = some (client', command)) :
    Scanned ready (calls ++ client.gatherCall input) client' := by
  rw [ChatServer.next] at next
  by_cases at_recv : client.pc = .gather .receive
  · rw [at_recv] at next
    cases input with
    | received result =>
        rw [ClientInfo.gatherCall, if_pos at_recv]
        exact inOrder.receive at_recv next
    | _ => cases next
  rw [ClientInfo.gatherCall_eq_nil at_recv, List.append_nil]
  obtain ⟨isReady, noneClosed, progress⟩ := inOrder
  cases position : client.pc with
  | gather pc =>
      rw [position] at next progress scans at_recv
      cases pc with
      | reset =>
          cases input <;> cases next
          rw [progress]
          exact .inl ⟨isReady, by simp, Visited.start ready⟩
      | scan =>
          cases input with
          | tick =>
              rcases (scan_next next).2 with ⟨fd, found, rfl⟩ | ⟨missing, rfl⟩
              · exact .inl ⟨isReady, noneClosed, progress.found (isReady ▸ found)⟩
              · exact .inl ⟨isReady, noneClosed, progress.missing (isReady ▸ missing)⟩
          | _ => cases next
      | receive => exact absurd rfl at_recv
      | depart closed =>
          obtain ⟨rfl, visited⟩ := progress
          rcases depart_next next with ⟨-, own, rfl⟩ | ⟨-, -, rfl⟩ | ⟨closed, -⟩
          · exact .inl ⟨isReady, noneClosed, own ▸ visited⟩
          · exact .inl ⟨isReady, noneClosed, visited⟩
          · cases closed
      | lockCommonMsg | append | unlockCommonMsg =>
          cases input <;> cases next
          exact .inl ⟨isReady, noneClosed, progress⟩
      | _ => cases scans
  | remove pc closed departing =>
      rw [position] at next progress
      obtain ⟨sameReady, sameI, moved⟩ := removal_keeps next
      refine .inl ⟨sameReady.trans isReady, noneClosed, ?_⟩
      rw [← sameI] at progress
      rcases moved with ⟨pc', moved⟩ | moved <;> rwa [moved]
  | _ => simp [position, Pc.scans] at scans

/-- A scan that starts again gets to a descriptor it has received from. -/
theorem Restarted.step {server : ChatServer} {session : Nat} {ready : FdSet}
    {calls : List (Nat × RecvResult)} {client client' : ClientInfo} {input : Input}
    {command : Command} (restarted : Restarted ready calls client) (scans : client.pc.scans)
    (next : server.next session client input = some (client', command)) :
    Scanned ready (calls ++ client.gatherCall input) client' := by
  obtain ⟨isReady, earlier, fd, isCalls, small, member, progress⟩ := restarted
  rw [ChatServer.next] at next
  by_cases at_recv : client.pc = .gather .receive
  · rw [at_recv] at next progress
    cases input with
    | received result =>
        refine .inr (.inr ⟨⟨(fd, .closed), by simp [isCalls], rfl⟩, fun pairwise => ?_⟩)
        have recorded : client.gatherCall (.received result) = [(client.i.toNat, result)] :=
          if_pos at_recv
        rw [isCalls, recorded, List.append_assoc, List.map_append, List.pairwise_append] at pairwise
        have ordered : fd < client.i.toNat := by simpa using pairwise.2.1
        exact absurd ordered (Nat.not_lt.mpr progress)
    | _ => cases next
  rw [ClientInfo.gatherCall_eq_nil at_recv, List.append_nil]
  cases position : client.pc with
  | gather pc =>
      rw [position] at next progress at_recv
      cases pc with
      | scan =>
          cases input with
          | tick =>
              obtain ⟨first, found, before⟩ := AscendingScan.next_isSome fd.zero_le small member
              have moved := (scan_next next).2
              rw [isReady, progress, Int.toNat_zero, found] at moved
              rcases moved with ⟨fd', isFirst, rfl⟩ | ⟨missing, -⟩
              · obtain rfl := Option.some.inj isFirst
                exact .inr (.inl ⟨rfl, earlier, fd, isCalls, small, member, before⟩)
              · cases missing
          | _ => cases next
      | receive => exact absurd rfl at_recv
      | depart closed =>
          subst progress
          rcases depart_next next with ⟨error, -⟩ | ⟨error, -⟩ | ⟨-, rfl⟩
          · cases error
          · cases error
          · exact .inr (.inl ⟨isReady, earlier, fd, isCalls, small, member, rfl⟩)
      | _ => exact progress.elim
  | remove pc closed departing =>
      rw [position] at next progress
      obtain ⟨sameReady, -, moved⟩ := removal_keeps next
      refine .inr (.inl ⟨sameReady.trans isReady, earlier, fd, isCalls, small, member, ?_⟩)
      rcases moved with ⟨pc', moved⟩ | moved <;> rwa [moved]
  | _ => simp [position, Pc.scans] at scans

theorem Scanned.step {server : ChatServer} {session : Nat} {ready : FdSet}
    {calls : List (Nat × RecvResult)} {client client' : ClientInfo} {input : Input}
    {command : Command} (scanned : Scanned ready calls client) (scans : client.pc.scans)
    (next : server.next session client input = some (client', command)) :
    Scanned ready (calls ++ client.gatherCall input) client' := by
  rcases scanned with inOrder | restarted | disordered
  · exact inOrder.step scans next
  · exact restarted.step scans next
  · exact .inr (.inr (disordered.append _))

/-- A thread is somewhere in its scan. -/
def ScansOn (session : Nat) (ready : FdSet) (now : ChatServer × List (Nat × RecvResult)) : Prop :=
  ∃ client, now.1.clients session = some client ∧ Scanned ready now.2 client

/-- A step of a scan is one of the scanning thread, which may make a call, or of another one, which
neither moves the scanning thread nor makes its calls. -/
theorem gatherScan_cases {session : Nat} {ready : FdSet} {label : Label} {client : ClientInfo}
    {before after : ChatServer × List (Nat × RecvResult)}
    (here : before.1.clients session = some client)
    (step : (gatherScan session ready).step before label = some after) :
    client.pc.scans ∧
      ((∃ input client' command, before.1.next session client input = some (client', command) ∧
          after.1.clients session = some client' ∧
          after.2 = before.2 ++ client.gatherCall input) ∨
        after.1.clients session = some client ∧ after.2 = before.2) := by
  simp only [gatherScan, scans, here] at step
  split at step
  · refine ⟨‹_›, ?_⟩
    obtain ⟨server, stepped, rfl⟩ := Option.map_eq_some_iff.mp step
    obtain ⟨-, steps⟩ := step_cases stepped
    cases steps with
    | @accept newcomer fd fresh free small =>
        have different := ne_of_fresh fresh here
        exact .inr ⟨(Function.update_of_ne different _ _).trans here, by simp [gatherCall]⟩
    | close => exact .inr ⟨here, by simp [gatherCall]⟩
    | @run other input found client' command inside next free =>
        by_cases same : other = session
        · subst same
          obtain rfl : client = found := Option.some.inj (here.symm.trans inside)
          exact .inl ⟨input, client', command, next, by simp, by simp [gatherCall, here]⟩
        · refine .inr ⟨(Function.update_of_ne (Ne.symm same) _ _).trans here, ?_⟩
          simp [gatherCall, here, same]
  · cases step

theorem ScansOn.step {session : Nat} {ready : FdSet} {label : Label}
    {before after : ChatServer × List (Nat × RecvResult)} (scansOn : ScansOn session ready before)
    (step : (gatherScan session ready).step before label = some after) :
    ScansOn session ready after := by
  obtain ⟨client, here, scanned⟩ := scansOn
  obtain ⟨scans, ⟨input, client', command, next, here', calls⟩ | ⟨here', calls⟩⟩ :=
    gatherScan_cases here step
  · exact ⟨client', here', calls ▸ scanned.step scans next⟩
  · exact ⟨client, here', calls ▸ scanned⟩

theorem ScansOn.start {session : Nat} {ready : FdSet} {now : ChatServer × List (Nat × RecvResult)}
    (starts : (gatherScan session ready).Initial now) : ScansOn session ready now := by
  obtain ⟨⟨client, here, at_reset, isReady⟩, empty⟩ := starts
  refine ⟨client, here, .inl ⟨isReady, by simp [empty], ?_⟩⟩
  rw [at_reset]
  exact empty

theorem scansOn {session : Nat} {ready : FdSet} {now : ChatServer × List (Nat × RecvResult)}
    (reached : (gatherScan session ready).Reaches now) : ScansOn session ready now :=
  reached.invariant (fun _ starts => ScansOn.start starts)
    fun _ _ _ _ scansOn step => scansOn.step step

/-- While no stream ends, a scan receives from the ready descriptors in ascending order, once from
each; a scan that is over did so, and returned on the end of its own stream, only if none ended. -/
theorem scan_receives_once_iff {session : Nat} {ready : FdSet} {server : ChatServer}
    {calls : List (Nat × RecvResult)}
    (reached : (gatherScan session ready).Reaches (server, calls)) {client : ClientInfo}
    (here : server.clients session = some client) :
    ((∀ call ∈ calls, call.2 ≠ .closed) →
      calls.map Prod.fst <+: AscendingScan.below ready fdSetSize) ∧
    (client.pc.scans = false →
      (ReceivesOnce ready calls client ↔ ∀ call ∈ calls, call.2 ≠ .closed)) := by
  obtain ⟨found, inside, scanned⟩ := scansOn reached
  obtain rfl : client = found := Option.some.inj (here.symm.trans inside)
  rcases scanned with inOrder | restarted | ⟨⟨call, member, closed⟩, repeats⟩
  · have ascending := inOrder.isPrefix
    refine ⟨fun _ => ascending, fun through => iff_of_true ⟨ascending, ?_, ?_⟩ inOrder.2.1⟩
    · intro broadcasts
      obtain ⟨-, -, progress⟩ := inOrder
      rw [broadcasts] at progress
      exact progress.2.2
    · exact fun ended => absurd rfl (inOrder.2.1 _ ended)
  · obtain ⟨-, earlier, fd, rfl, -, -, progress⟩ := restarted
    refine ⟨fun still => ?_, fun through => ?_⟩
    · exact absurd rfl (still (fd, .closed) (by simp))
    · revert progress
      split <;> simp_all [Pc.scans]
  · refine ⟨fun still => absurd closed (still call member), fun _ => iff_of_false ?_ ?_⟩
    · intro once
      exact repeats ((AscendingScan.below_pairwise ready fdSetSize).sublist once.ascending.sublist)
    · exact fun still => still call member closed

/-- A scan by the first client's thread, as a script: where it stands before, what is seen of it
afterwards, and its calls. -/
def scanRun {α : Type} (script labels : List Label) (view : ClientInfo → α) :
    Option (Pc × Option α × List (Nat × RecvResult)) :=
  (chatService.execute (fun _ _ => true) beforeService script).bind fun start =>
    (start.clients 1).bind fun client =>
      ((gatherScan 1 client.ready).execute (fun _ _ => true) (start, []) labels).map fun now =>
        (client.pc, (now.1.clients 1).map view, now.2)

/-- What a script that can be executed reaches. -/
theorem scanRun_reaches {α : Type} {script labels : List Label} {view : ClientInfo → α} {seen : α}
    {calls : List (Nat × RecvResult)}
    (executes : scanRun script labels view = some (.gather .reset, some seen, calls)) :
    ∃ (start : ChatServer) (ready : FdSet) (now : ChatServer × List (Nat × RecvResult))
      (client : ClientInfo), chatService.Reaches start ∧
        (gatherScan 1 ready).Initial (start, []) ∧ (gatherScan 1 ready).Reaches now ∧
          now.1.clients 1 = some client ∧ view client = seen ∧ now.2 = calls := by
  obtain ⟨start, executed, rest⟩ := Option.bind_eq_some_iff.mp executes
  obtain ⟨chosen, inside, rest⟩ := Option.bind_eq_some_iff.mp rest
  obtain ⟨now, scan, facts⟩ := Option.map_eq_some_iff.mp rest
  obtain ⟨at_reset, facts⟩ := Prod.mk.inj facts
  obtain ⟨position, called⟩ := Prod.mk.inj facts
  obtain ⟨client, here, viewed⟩ := Option.map_eq_some_iff.mp position
  have starts : (gatherScan 1 chosen.ready).Initial (start, []) :=
    ⟨⟨chosen, inside, at_reset, rfl⟩, rfl⟩
  exact ⟨start, chosen.ready, now, client, executed_reaches executed, starts,
    (LabelledSystem.ReachesVia.execute (.start starts) scan).reaches, here, viewed, called⟩

/-- Two clients register, and `select` tells the first one's thread that both are ready. -/
def bothReadyScript : List Label :=
  connectScript 1 4 [97] ++ registerScript 1 ++ connectScript 2 5 [98] ++ registerScript 2 ++
    ticks 1 4 ++ [.run 1 (.selected (some fun fd => fd == 4 || fd == 5))]

/-- The first client sends `x` and the stream of the second one reports an error. -/
def dataErrorScript : List Label :=
  ticks 1 2 ++ [.run 1 (.received (.data [120]))] ++ ticks 1 4 ++ [.run 1 (.received .error)] ++
    ticks 1 11

theorem scan_receives_once_iff_data_error :
    ∃ (ready : FdSet) (now : ChatServer × List (Nat × RecvResult)) (client : ClientInfo),
      (gatherScan 1 ready).Reaches now ∧ now.1.clients 1 = some client ∧
        now.2 = [(4, .data [120]), (5, .error)] ∧ ReceivesOnce ready now.2 client := by
  have executes : scanRun bothReadyScript dataErrorScript (fun client => client.pc) =
      some (.gather .reset, some (.broadcast .lockServer), [(4, .data [120]), (5, .error)]) := by
    decide +kernel
  obtain ⟨start, ready, now, client, -, -, reached, here, broadcasts, calls⟩ :=
    scanRun_reaches executes
  refine ⟨ready, now, client, reached, here, calls, ?_⟩
  apply ((scan_receives_once_iff reached here).2 (by rw [broadcasts]; rfl)).mpr
  simp [calls]

/-- The stream of the first client ends.  Its thread does not return but receives from the closed
descriptor again. -/
theorem scan_receives_twice :
    ∃ (start : ChatServer) (ready : FdSet) (now : ChatServer × List (Nat × RecvResult))
      (client : ClientInfo), chatService.Reaches start ∧
        (gatherScan 1 ready).Initial (start, []) ∧ (gatherScan 1 ready).Reaches now ∧
          now.1.clients 1 = some client ∧ client.pc.scans = false ∧
            now.2 = [(4, .closed), (4, .error)] ∧ ¬ ReceivesOnce ready now.2 client := by
  have executes : scanRun bothReadyScript
      (ticks 1 2 ++ [.run 1 (.received .closed)] ++ ticks 1 11 ++
        [.run 1 (.received .error)] ++ ticks 1 10) (fun client => client.pc) =
      some (.gather .reset, some .finished, [(4, .closed), (4, .error)]) := by
    decide +kernel
  obtain ⟨start, ready, now, client, begins, starts, reached, here, finished, calls⟩ :=
    scanRun_reaches executes
  refine ⟨start, ready, now, client, begins, starts, reached, here, by rw [finished]; rfl, calls,
    ?_⟩
  intro once
  have ordered := (AscendingScan.below_pairwise ready fdSetSize).sublist once.ascending.sublist
  rw [calls] at ordered
  exact absurd ordered (by decide)

end ChatServer
end CmyMessage
