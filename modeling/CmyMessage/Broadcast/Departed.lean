import CmyMessage.Broadcast.Acceptance
import CmyMessage.Broadcast.Agreement
import CmyMessage.HashTable.Leaks

/-!
# Departed clients in the memory of the usernames table

A client that leaves has its entry taken out of the table, but not out of memory.  Every session is
entered at most once, so along any run the entries in memory are a growing list of distinct
sessions, and a table that is destroyed leaves exactly those of the sessions it does not bind.
-/

namespace CmyMessage
namespace ChatServer

open scoped List

/-- The sessions with an entry in the memory of the table, bound or not. -/
def remembered (server : ChatServer) : List Nat := heapObjects server.usernamesHt.heap

/-- No session is entered twice, and only clients behind their insertion are entered. -/
structure Remembers (server : ChatServer) : Prop where
  distinct : server.remembered.Nodup
  inserted : ∀ session ∈ server.remembered, ∃ client,
    server.clients session = some client ∧ client.pc.inserted

theorem Remembers.start {server : ChatServer} (starts : server.Starts) : server.Remembers := by
  have nothing : server.remembered = [] := by
    rw [remembered, starts.usernamesHt]
    rfl
  constructor
  · rw [nothing]
    exact .nil
  · rw [nothing]
    exact fun session member => absurd member List.not_mem_nil

/-- What a step adds to the entries in memory: the session that it inserts, or nothing. -/
theorem remembered_step {before after : ChatServer} {label : Label}
    (step : chatService.step before label = some after) :
    after.remembered = before.remembered ∨ ∃ session client client',
      after.remembered = before.remembered ++ [session] ∧
        before.clients session = some client ∧ client.pc = .accept .insert ∧
        after.clients session = some client' ∧ client'.pc.inserted := by
  obtain ⟨-, steps⟩ := step_cases step
  cases steps with
  | accept fresh free small => exact .inl rfl
  | close => exact .inl rfl
  | @run session input client client' command here next free =>
      have moved := next_registry next
      rw [remembered, remembered, perform_usernamesHt]
      split
      · rename_i leftover
        rw [hashTableInsert_objects]
        split
        · obtain ⟨at_insert, inserted⟩ := moved.inserts leftover rfl
          exact .inr ⟨session, client, client', rfl, here, at_insert, by simp, inserted⟩
        · exact .inl (List.append_nil _)
      · exact .inl (hashTableDeleteElement_objects _ _)
      · exact .inl rfl

theorem Remembers.step {before after : ChatServer} {label : Label} (remembers : before.Remembers)
    (step : chatService.step before label = some after) : after.Remembers := by
  have stays (session : Nat) (member : session ∈ before.remembered) :
      ∃ client, after.clients session = some client ∧ client.pc.inserted := by
    obtain ⟨client, here, inserted⟩ := remembers.inserted session member
    obtain ⟨client', here', -, still⟩ := client_stays step here
    exact ⟨client', here', still inserted⟩
  rcases remembered_step step with same | ⟨session, client, client', added, here, at_insert, here',
    inserted'⟩
  · exact ⟨same ▸ remembers.distinct, same ▸ stays⟩
  · have absent : session ∉ before.remembered := by
      intro member
      obtain ⟨found, inside, inserted⟩ := remembers.inserted session member
      obtain rfl : client = found := Option.some.inj (here.symm.trans inside)
      simp [at_insert, Pc.inserted] at inserted
    constructor
    · rw [added, List.nodup_append_comm]
      exact List.nodup_cons.mpr ⟨absent, remembers.distinct⟩
    · intro other member
      rw [added, List.mem_append, List.mem_singleton] at member
      rcases member with old | rfl
      · exact stays other old
      · exact ⟨client', here', inserted'⟩

theorem remembers {server : ChatServer} (reached : chatService.Reaches server) :
    server.Remembers :=
  reached.invariant (fun _ starts => Remembers.start starts)
    fun _ _ _ _ remembers step => remembers.step step

/-- No run takes an entry out of memory. -/
theorem remembered_grows {server later : ChatServer} (follows : chatService.Follows server later) :
    server.remembered <+: later.remembered := by
  apply follows.invariant
  · intro before label after grown step
    rcases remembered_step step with same | ⟨session, client, client', added, -⟩
    · exact same ▸ grown
    · rw [added]
      exact grown.trans (List.prefix_append _ _)
  · exact List.prefix_refl _

/-! ## The destroyed table -/

/-- The entries of the table are what its keys find. -/
theorem mem_entries_iff {table : HashTable Nat} (usernames : UsernamesTable table)
    {session : Nat} : session ∈ table.entries.map Entry.object ↔
      ∃ key, hashTableLookup table (some key) = some session := by
  have size_pos : 0 < table.size := by
    rw [usernames.size]
    decide
  have bound_iff (string : List UInt8) : table.contents string = some session ↔
      ∃ entry ∈ table.entries, entry.key.text = string ∧ entry.object = session :=
    usernames.holds.bound_iff size_pos
  constructor
  · intro member
    obtain ⟨entry, linked, isSession⟩ := List.mem_map.mp member
    have bound := (bound_iff entry.key.text).mpr ⟨entry, linked, rfl, isSession⟩
    rw [HashTable.contents, dif_pos entry.key.text_ne_zero] at bound
    exact ⟨_, bound⟩
  · rintro ⟨key, found⟩
    obtain ⟨entry, linked, -, isSession⟩ :=
      (bound_iff key.text).mp (usernames.lookup_eq_some found)
    exact List.mem_map.mpr ⟨entry, linked, isSession⟩

/-- What becomes of the sessions in memory when the table is destroyed in a reached state: those
that some key still finds are cleaned, the others are left, and none is both or comes twice. -/
theorem destroy_remembered {server : ChatServer} (reached : chatService.Reaches server) :
    ∃ cleaned left, hashTableDestroyWithPtrToPtr (cleanupFunc true) (some server.usernamesHt) =
        .ok (cleaned, some left) ∧
      (cleaned ++ heapObjects left).Nodup ∧ cleaned ++ heapObjects left ~ server.remembered ∧
      ∀ session, session ∈ cleaned ↔
        ∃ key, hashTableLookup server.usernamesHt (some key) = some session := by
  have usernames := (namesShort reached).table
  obtain ⟨chains, represents, -⟩ := usernames.holds
  obtain ⟨left, returned, parts⟩ := represents.destroy
  exact ⟨_, left, returned, parts.nodup_iff.mpr (remembers reached).distinct, parts,
    fun session => mem_entries_iff usernames⟩

/-- The usernames table loses the entries of clients that leave.  A session that a key of the table
once found has exactly one entry in memory at every later moment; when the table is destroyed then,
the session is cleaned if some key still finds it, and its entry is left in memory otherwise. -/
theorem departed_clients_leak {server later : ChatServer} (reached : chatService.Reaches server)
    (follows : chatService.Follows server later) {key : StringBuffer} {session : Nat}
    (found : hashTableLookup server.usernamesHt (some key) = some session) :
    ∃ cleaned left, hashTableDestroyWithPtrToPtr (cleanupFunc true) (some later.usernamesHt) =
        .ok (cleaned, some left) ∧
      (cleaned ++ heapObjects left).Nodup ∧
      (session ∈ cleaned ↔ ∃ key, hashTableLookup later.usernamesHt (some key) = some session) ∧
      (session ∈ heapObjects left ↔
        ∀ key, hashTableLookup later.usernamesHt (some key) ≠ some session) := by
  obtain ⟨bound, rest, -, -, parts, found_iff⟩ := destroy_remembered reached
  have listed : session ∈ server.remembered :=
    parts.subset (List.mem_append_left _ ((found_iff session).mpr ⟨key, found⟩))
  obtain ⟨cleaned, left, returned, distinct, parts', cleaned_iff⟩ :=
    destroy_remembered (reached.follows follows)
  have either : session ∈ cleaned ++ heapObjects left :=
    parts'.symm.subset ((remembered_grows follows).subset listed)
  refine ⟨cleaned, left, returned, distinct, cleaned_iff session, ?_⟩
  have apart := (List.nodup_append'.mp distinct).2.2
  constructor
  · intro isLeft other finds
    exact apart ((cleaned_iff session).mpr ⟨other, finds⟩) isLeft
  · intro lost
    refine (List.mem_append.mp either).resolve_left fun isCleaned => ?_
    obtain ⟨other, finds⟩ := (cleaned_iff session).mp isCleaned
    exact lost other finds

/-- The second of two clients hangs up, and its entry outlives the table. -/
theorem departed_clients_leak_hang_up :
    ∃ server later, chatService.Follows server later ∧
      hashTableLookup server.usernamesHt (some (.ofBlock (server.usernamesByFD 5))) = some 2 ∧
      (∀ key, hashTableLookup later.usernamesHt (some key) ≠ some 2) ∧
      ∃ cleaned left, hashTableDestroyWithPtrToPtr (cleanupFunc true) (some later.usernamesHt) =
        .ok (cleaned, some left) ∧ heapObjects left = [2] := by
  have executes : ((chatService.execute (fun _ _ => true) beforeService
      (hangUpScript.take 55)).bind fun server =>
        (chatService.execute (fun _ _ => true) server (ticks 1 1)).map fun later =>
          (hashTableLookup server.usernamesHt (some (.ofBlock (server.usernamesByFD 5))),
            (hashTableDestroyWithPtrToPtr (cleanupFunc true)
              (some later.usernamesHt)).toOption.map fun result => result.2.map heapObjects)) =
      some (some 2, some (some [2])) := by
    decide +kernel
  obtain ⟨server, executed, rest⟩ := Option.bind_eq_some_iff.mp executes
  obtain ⟨later, executed', facts⟩ := Option.map_eq_some_iff.mp rest
  obtain ⟨found, outlives⟩ := Prod.mk.inj facts
  have reached : chatService.Reaches server :=
    (LabelledSystem.ReachesVia.execute (.start beforeService_starts) executed).reaches
  have follows := LabelledSystem.Follows.execute executed'
  obtain ⟨cleaned, left, returned, -, -, left_iff⟩ := departed_clients_leak reached follows found
  rw [returned] at outlives
  have isLeft : heapObjects left = [2] := Option.some.inj (Option.some.inj outlives)
  exact ⟨server, later, follows, found, left_iff.mp (by simp [isLeft]), cleaned, left, returned,
    isLeft⟩

end ChatServer
end CmyMessage
