import CmyMessage.Broadcast.Locks

/-!
# The first initialization

`prepare_client_for_broadcast_and_start` allocates what the clients share while it holds
`g_mutex_server`, and returns without releasing it when one of more than a thousand allocations
fails.  From then on the mutex belongs to a thread that has returned.
-/

namespace CmyMessage

/-! ## The allocations -/

/-- `get_thread_control_struct_ptr` does not return null, where `malloc` says which allocation of
the function succeeds. -/
def getThreadControlStructPtr (malloc : Nat → Bool) : Bool :=
  -- `p_threads_t`, `p_broadcast_condition_var`, `is_broadcasting` and `did_prepare_service_data`
  if malloc 0 = false then false
  else if malloc 1 = false then false
  else if malloc 2 = false then false
  else if malloc 3 = false then false
  else true

/-- The loop over `usernames_by_FD_arr` reaches its end from `i` on. -/
def allocateUsernames (malloc : Nat → Bool) : Nat → Nat → Bool
  | 0, _ => true
  | remaining + 1, i =>
      if malloc i = false then false else allocateUsernames malloc remaining (i + 1)

/-- `get_broadcast_controls_struct_ptr` does not return null. -/
def getBroadcastControlsStructPtr (malloc : Nat → Bool) : Bool :=
  -- `p_broadcast_ctrls_t_s` and `usernames_by_FD_arr`
  if malloc 0 = false then false
  else if malloc 1 = false then false
  else if allocateUsernames (fun i => malloc (2 + i)) fdSetSize 0 = false then false
  else if getThreadControlStructPtr (fun i => malloc (2 + fdSetSize + i)) = false then false
  else true

/-- The allocations of the first initialization. -/
def initialAllocations : Nat := 2 + fdSetSize + 4

theorem allocateUsernames_iff (malloc : Nat → Bool) (remaining i : Nat) :
    allocateUsernames malloc remaining i = true ↔
      ∀ j, i ≤ j → j < i + remaining → malloc j = true := by
  induction remaining generalizing i with
  | zero =>
      refine iff_of_true rfl fun j above below => ?_
      omega
  | succ remaining ih =>
      rw [allocateUsernames]
      split
      · rename_i failed
        refine iff_of_false Bool.false_ne_true fun all => ?_
        rw [all i (Nat.le_refl i) (by omega)] at failed
        cases failed
      · rename_i succeeded
        rw [ih]
        constructor
        · intro rest j above below
          rcases Nat.eq_or_lt_of_le above with rfl | later
          · exact Bool.not_eq_false _ ▸ succeeded
          · exact rest j later (by omega)
        · intro all j above below
          exact all j (by omega) (by omega)

theorem getThreadControlStructPtr_iff (malloc : Nat → Bool) :
    getThreadControlStructPtr malloc = true ↔ ∀ j, j < 4 → malloc j = true := by
  have four : (∀ j, j < 4 → malloc j = true) ↔
      malloc 0 = true ∧ malloc 1 = true ∧ malloc 2 = true ∧ malloc 3 = true := by
    constructor
    · intro all
      exact ⟨all 0 (by omega), all 1 (by omega), all 2 (by omega), all 3 (by omega)⟩
    · rintro ⟨first, second, third, fourth⟩ j below
      have which : j = 0 ∨ j = 1 ∨ j = 2 ∨ j = 3 := by omega
      rcases which with rfl | rfl | rfl | rfl <;> assumption
  rw [four, getThreadControlStructPtr]
  cases malloc 0 <;> cases malloc 1 <;> cases malloc 2 <;> cases malloc 3 <;> simp

/-- One failing allocation, wherever it is, and only that makes the initialization fail. -/
theorem getBroadcastControlsStructPtr_iff (malloc : Nat → Bool) :
    getBroadcastControlsStructPtr malloc = true ↔
      ∀ j, j < initialAllocations → malloc j = true := by
  have usernames := allocateUsernames_iff (fun i => malloc (2 + i)) fdSetSize 0
  have threads := getThreadControlStructPtr_iff fun i => malloc (2 + fdSetSize + i)
  have parts : getBroadcastControlsStructPtr malloc = true ↔
      malloc 0 = true ∧ malloc 1 = true ∧
        allocateUsernames (fun i => malloc (2 + i)) fdSetSize 0 = true ∧
        getThreadControlStructPtr (fun i => malloc (2 + fdSetSize + i)) = true := by
    rw [getBroadcastControlsStructPtr]
    cases malloc 0 <;> cases malloc 1 <;>
      cases allocateUsernames (fun i => malloc (2 + i)) fdSetSize 0 <;> simp
  rw [parts, usernames, threads]
  constructor
  · rintro ⟨first, second, names, controls⟩ j below
    simp only [initialAllocations] at below
    by_cases early : j < 2
    · have which : j = 0 ∨ j = 1 := by omega
      rcases which with rfl | rfl <;> assumption
    by_cases inNames : j < 2 + fdSetSize
    · have name := names (j - 2) (by omega) (by omega)
      rwa [show 2 + (j - 2) = j by omega] at name
    · have control := controls (j - (2 + fdSetSize)) (by omega)
      rwa [show 2 + fdSetSize + (j - (2 + fdSetSize)) = j by omega] at control
  · intro all
    simp only [initialAllocations] at all
    exact ⟨all 0 (by omega), all 1 (by omega), fun j _ below => all (2 + j) (by omega),
      fun j below => all (2 + fdSetSize + j) (by omega)⟩

namespace ChatServer

/-- No allocation of a first initialization fails in this step. -/
def Initializes (server : ChatServer) (label : Label) : Prop :=
  ∀ session client malloc,
    label = .run session (.allocation (getBroadcastControlsStructPtr malloc)) →
    server.clients session = some client → client.pc = .prepare .firstAllocation →
    server.didFirstAllocation = false → ∀ j, j < initialAllocations → malloc j = true

theorem initializes_iff {server : ChatServer} {label : Label} :
    server.Initializes label ↔ ∀ session client, label = .run session (.allocation false) →
      server.clients session = some client → client.pc = .prepare .firstAllocation →
      server.didFirstAllocation ≠ false := by
  constructor
  · intro initializes session client isRun here position first
    have nothing : getBroadcastControlsStructPtr (fun _ => false) = false := rfl
    have all := initializes session client (fun _ => false) (nothing.symm ▸ isRun) here position
      first 0 (by decide)
    cases all
  · intro succeeds session client malloc isRun here position first
    rw [← getBroadcastControlsStructPtr_iff]
    cases outcome : getBroadcastControlsStructPtr malloc with
    | true => rfl
    | false => exact absurd first (succeeds session client (outcome ▸ isRun) here position)

/-! ## The mutex of the server -/

/-- A thread that has returned an error before the handshake holds the mutex of the server. -/
def Leaked (server : ChatServer) : Prop :=
  ∃ session client, server.clients session = some client ∧ client.pc = .abandoned ∧
    server.holder .server = some session

/-- Whoever holds a mutex stands where it is held, or has returned an error. -/
def HeldOrAbandoned (server : ChatServer) : Prop :=
  ∀ mutex session, server.holder mutex = some session →
    ∃ client, server.clients session = some client ∧
      (mutex ∈ client.pc.held ∨ client.pc = .abandoned)

theorem HeldOrAbandoned.step {before after : ChatServer} {label : Label}
    (held : before.HeldOrAbandoned) (step : chatService.step before label = some after) :
    after.HeldOrAbandoned := by
  intro mutex session holds
  rcases holder_of_step step holds with ⟨client, here, stands⟩ | ⟨held', moves⟩
  · exact ⟨client, here, .inl stands⟩
  · obtain ⟨client, here, place⟩ := held mutex session held'
    rcases moves client here with stays | ⟨running, fails⟩
    · exact ⟨client, stays, place⟩
    · obtain ⟨-, -, -, client', here', abandoned⟩ := fails (place.resolve_right running)
      exact ⟨client', here', .inr abandoned⟩

theorem heldOrAbandoned {server : ChatServer} (reached : chatService.Reaches server) :
    server.HeldOrAbandoned := by
  apply reached.invariant
  · intro state starts mutex session holds
    simp [starts.holder] at holds
  · intro before label after _ held step
    exact held.step step

/-- A thread that has returned never releases the mutex. -/
theorem Leaked.step {before after : ChatServer} {label : Label} (excludes : before.Excludes)
    (leaked : before.Leaked) (step : chatService.step before label = some after) :
    after.Leaked ∧ after.holder .server = before.holder .server := by
  obtain ⟨session, client, here, abandoned, holds⟩ := leaked
  obtain ⟨-, steps⟩ := step_cases step
  cases steps with
  | accept fresh free small =>
      refine ⟨⟨session, client, ?_, abandoned, holds⟩, rfl⟩
      exact (Function.update_of_ne (ne_of_fresh fresh here) _ _).trans here
  | close => exact ⟨⟨session, client, here, abandoned, holds⟩, rfl⟩
  | @run runner input mover mover' command inside next free =>
      have different : session ≠ runner := by
        rintro rfl
        obtain rfl : client = mover := Option.some.inj (here.symm.trans inside)
        rw [ChatServer.next, abandoned] at next
        cases next
      have kept : (before.perform runner mover' command).holder .server =
          before.holder .server := by
        rw [perform_holder]
        split
        · rename_i locked
          rw [Function.update_of_ne]
          rintro rfl
          simp [canPerform, holds] at free
        · rename_i unlocked
          rw [Function.update_of_ne]
          rintro rfl
          have rival := excludes runner mover .server inside
            ((next_lock next).unlocks .server rfl)
          exact different (Option.some.inj (holds.symm.trans rival))
        · rfl
      refine ⟨⟨session, client, ?_, abandoned, kept.trans holds⟩, kept⟩
      exact (Function.update_of_ne different _ _).trans here

/-- The mutex is lost by the step in which the first initialization fails, and by no other. -/
theorem leaked_iff_of_step {before after : ChatServer} {label : Label}
    (excludes : before.Excludes) (held : before.HeldOrAbandoned) (unharmed : ¬ before.Leaked)
    (step : chatService.step before label = some after) :
    after.Leaked ↔ ¬ before.Initializes label := by
  rw [initializes_iff]
  constructor
  · rintro ⟨session, client', here', abandoned, holds⟩ succeeds
    rcases holder_of_step step holds with ⟨client, here, stands⟩ | ⟨held', moves⟩
    · obtain rfl : client' = client := Option.some.inj (here'.symm.trans here)
      rw [abandoned] at stands
      cases stands
    · obtain ⟨client, here, place⟩ := held .server session held'
      have running : client.pc ≠ .abandoned := fun returned =>
        unharmed ⟨session, client, here, returned, held'⟩
      rcases moves client here with stays | ⟨-, fails⟩
      · obtain rfl : client' = client := Option.some.inj (here'.symm.trans stays)
        exact running abandoned
      · obtain ⟨isRun, position, first, -⟩ := fails (place.resolve_right running)
        exact succeeds session client isRun here position first
  · intro fails
    push Not at fails
    obtain ⟨session, client, rfl, here, position, first⟩ := fails
    obtain ⟨-, steps⟩ := step_cases step
    cases steps with
    | @run _ _ mover mover' command inside next free =>
        obtain rfl : client = mover := Option.some.inj (here.symm.trans inside)
        simp only [ChatServer.next, position, prepareClientForBroadcastAndStart, first,
          Bool.false_eq_true, if_false, Option.some.injEq, Prod.mk.injEq] at next
        obtain ⟨rfl, rfl⟩ := next
        refine ⟨session, client.goto .abandoned, by simp, rfl, ?_⟩
        rw [perform_holder]
        apply excludes session client .server here
        rw [position]
        exact List.mem_singleton_self _

theorem not_leaked_iff {server : ChatServer} (reached : chatService.Reaches server) :
    ¬ server.Leaked ↔ chatService.ReachesVia Initializes server := by
  apply reached.unharmed_iff
  · intro state starts leaked
    obtain ⟨session, client, here, -⟩ := leaked
    simp [starts.clients] at here
  · intro before label after earlier leaked step
    exact (leaked.step (excludes earlier) step).1
  · intro before label after earlier unharmed step
    exact leaked_iff_of_step (excludes earlier) (heldOrAbandoned earlier) unharmed step

/-- The service is usable as far as its mutex goes. -/
structure StaysUsable (server : ChatServer) : Prop where
  /-- A thread that has returned does not hold the mutex. -/
  unlocked : ∀ session client, server.clients session = some client →
    client.pc = .finished ∨ client.pc = .abandoned → server.holder .server ≠ some session
  /-- The next client finds the mutex free, or in the hands of a thread about to release it. -/
  retries : server.holder .server = none ∨ ∃ session client,
    server.clients session = some client ∧ .server ∈ client.pc.held ∧
      server.holder .server = some session

theorem staysUsable_iff {server : ChatServer} (reached : chatService.Reaches server) :
    server.StaysUsable ↔ ¬ server.Leaked := by
  constructor
  · rintro usable ⟨session, client, here, abandoned, holds⟩
    exact usable.unlocked session client here (.inr abandoned) holds
  · intro unharmed
    have stands (session : Nat) (holds : server.holder .server = some session) :
        ∃ client, server.clients session = some client ∧ .server ∈ client.pc.held := by
      obtain ⟨client, here, place⟩ := heldOrAbandoned reached .server session holds
      refine ⟨client, here, place.resolve_right fun abandoned => ?_⟩
      exact unharmed ⟨session, client, here, abandoned, holds⟩
    constructor
    · intro session client here returned holds
      obtain ⟨holder, here', place⟩ := stands session holds
      obtain rfl : client = holder := Option.some.inj (here.symm.trans here')
      rcases returned with finished | abandoned
      · rw [finished] at place
        cases place
      · rw [abandoned] at place
        cases place
    · cases holds : server.holder .server with
      | none => exact .inl rfl
      | some session =>
          obtain ⟨client, here, place⟩ := stands session holds
          exact .inr ⟨session, client, here, place, rfl⟩

/-- Once the mutex is lost, no client gets as far as the first initialization. -/
theorem Leaked.blocks {server : ChatServer} (leaked : server.Leaked) {session : Nat}
    {client : ClientInfo} (here : server.clients session = some client)
    (waits : client.pc = .prepare .lockServer) (input : Input) :
    chatService.step server (.run session input) = none := by
  obtain ⟨holder, -, -, -, holds⟩ := leaked
  cases stepped : chatService.step server (.run session input) with
  | none => rfl
  | some after =>
      exfalso
      obtain ⟨-, steps⟩ := step_cases stepped
      cases steps with
      | @run _ _ mover mover' command inside next free =>
          obtain rfl : client = mover := Option.some.inj (here.symm.trans inside)
          rw [ChatServer.next, waits] at next
          cases input <;> simp only [prepareClientForBroadcastAndStart] at next <;> cases next
          simp [canPerform, holds] at free

/-- `prepare_client_for_broadcast_and_start` leaves the mutex of the server usable, for any number
of clients, exactly in the runs in which no allocation of a first initialization fails.  After one
did, the mutex stays with the thread that returned, and no client can try again. -/
theorem initialization_leaves_usable_iff {server : ChatServer}
    (reached : chatService.Reaches server) :
    (server.StaysUsable ↔ chatService.ReachesVia Initializes server) ∧
    (¬ chatService.ReachesVia Initializes server → ∀ later, chatService.Follows server later →
      ¬ later.StaysUsable ∧ later.holder .server = server.holder .server ∧
        ∀ session client input, later.clients session = some client →
          client.pc = .prepare .lockServer →
          chatService.step later (.run session input) = none) := by
  refine ⟨(staysUsable_iff reached).trans (not_leaked_iff reached), fun failed later follows => ?_⟩
  have lost : (chatService.Reaches later ∧ later.Leaked) ∧
      later.holder .server = server.holder .server := by
    apply follows.invariant
    · intro before label after holds step
      obtain ⟨⟨earlier, leaked⟩, same⟩ := holds
      obtain ⟨leaked', kept⟩ := leaked.step (excludes earlier) step
      exact ⟨⟨earlier.next trivial step, leaked'⟩, kept.trans same⟩
    · exact ⟨⟨reached, Classical.not_not.mp (mt (not_leaked_iff reached).mp failed)⟩, rfl⟩
  obtain ⟨⟨reached', leaked⟩, same⟩ := lost
  refine ⟨fun usable => (staysUsable_iff reached').mp usable leaked, same, ?_⟩
  intro session client input here waits
  exact leaked.blocks here waits input

/-- A client whose connection was accepted and whose thread initialized the service. -/
def initializedScript : List Label :=
  [.acceptConnection 1 4, .run 1 .tick, .run 1 (.allocation true)]

/-- A step without a failing allocation is none in which the initialization fails. -/
theorem initializes_of_allocates {server : ChatServer} {label : Label}
    (allocates : (ClosableService.Label.chat label).allocates = true) :
    server.Initializes label := by
  rw [initializes_iff]
  rintro session client rfl
  cases allocates

/-- The first client has initialized the service and is about to release the mutex. -/
theorem initialization_leaves_usable_initialized :
    ∃ server, chatService.Reaches server ∧ server.didFirstAllocation = true ∧
      server.holder .server = some 1 ∧ server.StaysUsable := by
  have executes : (chatService.execute
      (fun _ label => (ClosableService.Label.chat label).allocates) beforeService
        initializedScript).map (fun server => (server.didFirstAllocation, server.holder .server)) =
      some (true, some 1) := by
    decide +kernel
  obtain ⟨server, executed, facts⟩ := Option.map_eq_some_iff.mp executes
  have spared : chatService.ReachesVia Initializes server :=
    (LabelledSystem.ReachesVia.execute (.start beforeService_starts) executed).weaken
      fun _ _ allocates => initializes_of_allocates allocates
  exact ⟨server, spared.reaches, congrArg Prod.fst facts, congrArg Prod.snd facts,
    (initialization_leaves_usable_iff spared.reaches).1.mpr spared⟩

/-- The allocation of the username of descriptor 500 fails. -/
def fiveHundredthFails (j : Nat) : Bool := decide (j ≠ 2 + 500)

/-- The first client's thread returns with the mutex of the server, and the second client waits for
it in vain. -/
theorem initialization_leaks_mutex :
    getBroadcastControlsStructPtr fiveHundredthFails = false ∧
      ∃ server, chatService.Reaches server ∧
        (server.clients 1).map ClientInfo.pc = some .abandoned ∧
        server.holder .server = some 1 ∧ ¬ server.StaysUsable ∧
        chatService.step server (.run 2 .tick) = none := by
  have fails : getBroadcastControlsStructPtr fiveHundredthFails = false := by
    rw [← Bool.not_eq_true, getBroadcastControlsStructPtr_iff]
    intro all
    cases all (2 + 500) (by decide)
  refine ⟨fails, ?_⟩
  have executes : (chatService.execute (fun _ _ => true) beforeService
      [.acceptConnection 1 4, .acceptConnection 2 5, .run 1 .tick, .run 1 (.allocation false)]).map
        (fun server => ((server.clients 1).map ClientInfo.pc, server.holder .server,
          (server.clients 2).map ClientInfo.pc)) =
      some (some .abandoned, some 1, some (.prepare .lockServer)) := by
    decide +kernel
  obtain ⟨server, executed, facts⟩ := Option.map_eq_some_iff.mp executes
  simp only [Prod.mk.injEq] at facts
  obtain ⟨returned, holds, waits⟩ := facts
  have reached : chatService.Reaches server :=
    (LabelledSystem.ReachesVia.execute (.start beforeService_starts) executed).reaches
  obtain ⟨client, here, abandoned⟩ := Option.map_eq_some_iff.mp returned
  obtain ⟨other, here', waits⟩ := Option.map_eq_some_iff.mp waits
  have leaked : server.Leaked := ⟨1, client, here, abandoned, holds⟩
  exact ⟨server, reached, returned, holds, fun usable => (staysUsable_iff reached).mp usable leaked,
    leaked.blocks here' waits .tick⟩

end ChatServer
end CmyMessage
