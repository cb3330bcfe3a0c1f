import CmyMessage.HashTable.Buckets

/-!
# The linked table refines a finite map

A table in memory represents the entry lists of its buckets when each bucket head starts a chain of
exactly those entries and no cell belongs to two buckets.  Every operation on the linked cells is
then the operation on the lists, and, for a hash function that sees the string of a key only, the
operation on the map from strings to objects.
-/

namespace CmyMessage

variable {α : Type*}

/-- The table links exactly the given cells into its buckets, and shares no cell between two. -/
structure HashTable.Represents (table : HashTable α) (chains : Nat → List (Nat × Entry α)) :
    Prop where
  linked : ∀ index, table.heap.Chain (table.elements index) (chains index)
  separate : ∀ left right, left ≠ right → ∀ address ∈ (chains left).map Prod.fst,
    address ∉ (chains right).map Prod.fst

/-- The entry lists of the linked cells. -/
def bucketsOf (chains : Nat → List (Nat × Entry α)) : Buckets α := fun index =>
  (chains index).map Prod.snd

theorem bucketsOf_update (chains : Nat → List (Nat × Entry α)) (index : Nat)
    (cells : List (Nat × Entry α)) :
    bucketsOf (Function.update chains index cells) =
      Function.update (bucketsOf chains) index (cells.map Prod.snd) := by
  funext other
  by_cases same : other = index
  · subst same
    rw [bucketsOf, Function.update_self, Function.update_self]
  · rw [bucketsOf, Function.update_of_ne same, Function.update_of_ne same, bucketsOf]

/-- Erasing the first entry with a key removes its cell. -/
theorem map_eraseP_of_split {key : StringBuffer} {front rest : List (Nat × Entry α)}
    {address : Nat} {entry : Entry α} (rejected : ∀ c ∈ front, Entry.hasKey key c.2 = false)
    (accepted : Entry.hasKey key entry = true) :
    ((front ++ (address, entry) :: rest).map Prod.snd).eraseP (Entry.hasKey key) =
      (front ++ rest).map Prod.snd := by
  have passed : ∀ e ∈ front.map Prod.snd, ¬ Entry.hasKey key e = true := by
    intro e member
    obtain ⟨c, inside, rfl⟩ := List.mem_map.mp member
    simp [rejected c inside]
  rw [List.map_append, List.map_cons, List.eraseP_append_right _ passed,
    List.eraseP_cons_of_pos accepted, List.map_append]

namespace HashTable.Represents

variable {table : HashTable α} {chains : Nat → List (Nat × Entry α)}

theorem create (size : UInt32) (hashFunc : StringBuffer → UInt32) :
    (hashTableCreate size hashFunc : HashTable α).Represents fun _ => [] :=
  ⟨fun _ => .nil, fun _ _ _ _ member => by simp at member⟩

theorem bucket_eq (represents : table.Represents chains) (index : Nat) :
    table.bucket index = bucketsOf chains index := by
  rw [HashTable.bucket, CellHeap.collect_eq (represents.linked index)
    (represents.linked index).length_le, bucketsOf]

/-- The walk stops at the first cell with the key, or visits the whole bucket in vain. -/
theorem search_cases (represents : table.Represents chains) (index : Nat) (key : StringBuffer) :
    (table.search index key = none ∧ ∀ c ∈ chains index, Entry.hasKey key c.2 = false) ∨
      ∃ front address entry rest, chains index = front ++ (address, entry) :: rest ∧
        (∀ c ∈ front, Entry.hasKey key c.2 = false) ∧ Entry.hasKey key entry = true ∧
        table.search index key = some ((front.map Prod.fst).getLast?, address) := by
  have chain := represents.linked index
  cases found : (chains index).find? fun c => Entry.hasKey key c.2 with
  | none =>
      have rejected : ∀ c ∈ chains index, Entry.hasKey key c.2 = false := by
        simpa using List.find?_eq_none.mp found
      exact .inl ⟨CellHeap.search_eq_none _ chain rejected _ _, rejected⟩
  | some c =>
      obtain ⟨address, entry⟩ := c
      obtain ⟨accepted, front, rest, split, before⟩ := List.find?_eq_some_iff_append.mp found
      have rejected : ∀ c ∈ front, Entry.hasKey key c.2 = false := by simpa using before
      have bound := chain.length_le
      rw [split] at chain bound
      rw [List.length_append, List.length_cons] at bound
      refine .inr ⟨front, address, entry, rest, split, rejected, accepted, ?_⟩
      rw [HashTable.search, CellHeap.search_eq_some _ chain rejected accepted (by omega),
        Option.or_none]

theorem lookup_eq (represents : table.Represents chains) (key : StringBuffer) :
    hashTableLookup table (some key) =
      (bucketsOf chains).lookup (hashTableCalcIndexWithHash table key) key := by
  rw [Buckets.lookup, bucketsOf, hashTableLookup]
  rcases represents.search_cases (hashTableCalcIndexWithHash table key) key with
    ⟨missing, rejected⟩ | ⟨front, address, entry, rest, split, rejected, accepted, found⟩
  · have absent : ((chains (hashTableCalcIndexWithHash table key)).map Prod.snd).find?
        (Entry.hasKey key) = none := by
      simpa using rejected
    simp only [missing, absent, Option.map_none]
  · have present : ((chains (hashTableCalcIndexWithHash table key)).map Prod.snd).find?
        (Entry.hasKey key) = some entry := by
      rw [split, List.map_append, List.map_cons]
      refine List.find?_eq_some_iff_append.mpr ⟨accepted, _, _, rfl, ?_⟩
      simpa using fun (e : Entry α) a (member : (a, e) ∈ front) => rejected (a, e) member
    have chain := represents.linked (hashTableCalcIndexWithHash table key)
    rw [split] at chain
    obtain ⟨middle, suffix⟩ := chain.suffix
    obtain ⟨next, stored, _⟩ := suffix.unlink_head
    simp only [found, stored, present, Option.map_some]

/-- A key is bound in its bucket exactly if the walk finds it. -/
theorem isSome_lookup (represents : table.Represents chains) (key : StringBuffer) :
    ((bucketsOf chains).lookup (hashTableCalcIndexWithHash table key) key).isSome =
      (table.search (hashTableCalcIndexWithHash table key) key).isSome := by
  rw [Buckets.lookup, bucketsOf, Option.isSome_map]
  rcases represents.search_cases (hashTableCalcIndexWithHash table key) key with
    ⟨missing, rejected⟩ | ⟨front, address, entry, rest, split, -, accepted, found⟩
  · have absent : ((chains (hashTableCalcIndexWithHash table key)).map Prod.snd).find?
        (Entry.hasKey key) = none := by
      simpa using rejected
    rw [missing, absent, Option.isSome_none, Option.isSome_none]
  · rw [found, Option.isSome_some, List.find?_isSome, split]
    exact ⟨entry, List.mem_map_of_mem (List.mem_append_right _ List.mem_cons_self), accepted⟩

theorem address_ne (represents : table.Represents chains) {left right : Nat}
    (different : left ≠ right) {c : Nat × Entry α} (member : c ∈ chains left) :
    c.1 ∉ (chains right).map Prod.fst :=
  represents.separate left right different c.1 (List.mem_map_of_mem member)

theorem insert (represents : table.Represents chains) (leftover : List UInt8) (key : StringBuffer)
    (object : α) :
    ∃ after, (hashTableInsert table leftover (some key) (some object)).2.Represents after ∧
      ((hashTableInsert table leftover (some key) (some object)).1, bucketsOf after) =
        (bucketsOf chains).insert (hashTableCalcIndexWithHash table key) key object leftover := by
  set index := hashTableCalcIndexWithHash table key with index_eq
  rw [hashTableInsert, represents.lookup_eq, Buckets.insert, ← index_eq]
  split
  · exact ⟨chains, represents, rfl⟩
  · refine ⟨Function.update chains index
      ((table.heap.fresh, ⟨strdup key leftover, object⟩) :: chains index), ⟨?_, ?_⟩, ?_⟩
    · intro other
      by_cases same : other = index
      · subst same
        simpa using (represents.linked index).prepend _
      · simpa [Function.update_of_ne same, table.setHead_elements_of_ne same] using
          (represents.linked other).allocate _ _
    · have unshared : ∀ other, table.heap.fresh ∉ (chains other).map Prod.fst := by
        intro other member
        obtain ⟨c, stored, fresh⟩ := List.mem_map.mp member
        exact ((represents.linked other).allocated stored).ne fresh
      intro left right different address member
      by_cases isLeft : left = index
      · subst isLeft
        rw [Function.update_self, List.map_cons, List.mem_cons] at member
        rw [Function.update_of_ne different.symm]
        rcases member with rfl | old
        · exact unshared right
        · exact represents.separate _ right different address old
      · rw [Function.update_of_ne isLeft] at member
        by_cases isRight : right = index
        · subst isRight
          rw [Function.update_self, List.map_cons, List.mem_cons, not_or]
          refine ⟨?_, represents.separate left _ different address member⟩
          rintro rfl
          exact unshared left member
        · rw [Function.update_of_ne isRight]
          exact represents.separate left right different address member
    · rw [bucketsOf_update]
      rfl

/-- Removing one cell from the chain of a bucket, wherever the chain now starts. -/
theorem remove (represents : table.Represents chains) {index address : Nat} {entry : Entry α}
    {front rest : List (Nat × Entry α)} (split : chains index = front ++ (address, entry) :: rest)
    {elements : Nat → Option Nat} {heap : CellHeap (Entry α)}
    (shorter : heap.Chain (elements index) (front ++ rest))
    (others : ∀ other, other ≠ index → heap.Chain (elements other) (chains other)) :
    ({ table with elements, heap } : HashTable α).Represents
      (Function.update chains index (front ++ rest)) := by
  have within : ∀ other, ∀ c ∈ (Function.update chains index (front ++ rest) other).map Prod.fst,
      c ∈ (chains other).map Prod.fst := by
    intro other c member
    by_cases same : other = index
    · subst same
      rw [Function.update_self] at member
      rw [split]
      simp only [List.map_append, List.map_cons, List.mem_append, List.mem_cons] at member ⊢
      exact member.imp_right .inr
    · rwa [Function.update_of_ne same] at member
  constructor
  · intro other
    by_cases same : other = index
    · subst same
      simpa using shorter
    · simpa [Function.update_of_ne same] using others other same
  · intro left right different c member shared
    exact represents.separate left right different c (within left c member)
      (within right c shared)

/-- The cell found in front of the key's entry, or the bucket's slot, is linked past it. -/
theorem unlink (represents : table.Represents chains) {key : StringBuffer} {address : Nat}
    {entry : Entry α} {front rest : List (Nat × Entry α)}
    (split : chains (hashTableCalcIndexWithHash table key) = front ++ (address, entry) :: rest)
    (found : table.search (hashTableCalcIndexWithHash table key) key =
      some ((front.map Prod.fst).getLast?, address)) :
    (hashTableDeleteElement table (some key)).1 = true ∧
      (hashTableDeleteElement table (some key)).2.Represents
        (Function.update chains (hashTableCalcIndexWithHash table key) (front ++ rest)) := by
  set index := hashTableCalcIndexWithHash table key with index_eq
  have chain := represents.linked index
  rw [split] at chain
  obtain ⟨middle, suffix⟩ := chain.suffix
  obtain ⟨next, stored, tail⟩ := suffix.unlink_head
  rcases List.eq_nil_or_concat' front with rfl | ⟨init, ⟨previous, left⟩, rfl⟩
  · -- The head of the bucket: the array slot takes the head's link.
    simp only [hashTableDeleteElement, ← index_eq, found, List.map_nil, List.getLast?_nil,
      stored, Option.bind_some]
    refine ⟨trivial, represents.remove split ?_ fun other different => ?_⟩
    · simpa using tail
    · rw [if_neg different]
      exact represents.linked other
  · -- Behind another entry: that entry's link skips the removed one.
    rw [List.append_assoc] at chain
    obtain ⟨next', stored', relinked⟩ := chain.unlink_after
    obtain rfl : next = next' := by
      rw [stored] at stored'
      exact congrArg Cell.next (Option.some.inj stored')
    simp only [hashTableDeleteElement, ← index_eq, found, List.map_append, List.map_cons,
      List.map_nil, List.getLast?_append, List.getLast?_singleton, Option.some_or, stored,
      Option.bind_some]
    refine ⟨trivial, represents.remove split ?_ fun other different => ?_⟩
    · simpa using relinked
    · apply (represents.linked other).setNext_of_notMem next
      apply represents.address_ne different.symm (c := (previous, left))
      simp [split]

theorem delete (represents : table.Represents chains) (key : StringBuffer) :
    ∃ after, (hashTableDeleteElement table (some key)).2.Represents after ∧
      ((hashTableDeleteElement table (some key)).1, bucketsOf after) =
        (bucketsOf chains).delete (hashTableCalcIndexWithHash table key) key := by
  have present := represents.isSome_lookup key
  rcases represents.search_cases (hashTableCalcIndexWithHash table key) key with
    ⟨missing, rejected⟩ | ⟨front, address, entry, rest, split, rejected, accepted, found⟩
  · refine ⟨chains, ?_, ?_⟩
    · simpa only [hashTableDeleteElement, missing] using represents
    · rw [Buckets.delete, present, missing]
      simp only [hashTableDeleteElement, missing, Option.isSome_none, Bool.false_eq_true, if_false]
  · obtain ⟨status, unlinked⟩ := represents.unlink split found
    refine ⟨_, unlinked, ?_⟩
    rw [Buckets.delete, present, found, status, bucketsOf_update,
      ← map_eraseP_of_split rejected accepted, ← split]
    rfl

end HashTable.Represents

/-! ## Sequences of calls -/

/-- A call of the table interface with non-null arguments. -/
inductive TableCall (α : Type*)
  | insert (key : StringBuffer) (object : α) (leftover : List UInt8)
  | delete (key : StringBuffer)
  | lookup (key : StringBuffer)

/-- What a call returns. -/
inductive TableReply (α : Type*)
  | flag (value : Bool)
  | object (value : Option α)
  deriving DecidableEq

/-- Perform one call on the table in memory. -/
def HashTable.call (table : HashTable α) : TableCall α → TableReply α × HashTable α
  | .insert key object leftover =>
      (hashTableInsert table leftover (some key) (some object)).map .flag id
  | .delete key => (hashTableDeleteElement table (some key)).map .flag id
  | .lookup key => (.object (hashTableLookup table (some key)), table)

/-- Perform one call on a map from strings to objects. -/
def StringMap.call (map : StringMap α) : TableCall α → TableReply α × StringMap α
  | .insert key object _ => (map.insert key.text object).map .flag id
  | .delete key => (map.delete key.text).map .flag id
  | .lookup key => (.object (map key.text), map)

/-- Perform calls in sequence and collect the replies. -/
def runCalls {σ : Type*} (call : σ → TableCall α → TableReply α × σ) :
    σ → List (TableCall α) → List (TableReply α) × σ
  | state, [] => ([], state)
  | state, first :: rest =>
      let (reply, next) := call state first
      let (replies, final) := runCalls call next rest
      (reply :: replies, final)

theorem runCalls_append {σ : Type*} (call : σ → TableCall α → TableReply α × σ) (state : σ)
    (first rest : List (TableCall α)) :
    (runCalls call state (first ++ rest)).2 =
      (runCalls call (runCalls call state first).2 rest).2 := by
  induction first generalizing state with
  | nil => rfl
  | cons next first ih => exact ih (call state next).2

/-- The object that a call inserts. -/
def TableCall.inserted : TableCall α → Option α
  | .insert _ object _ => some object
  | _ => none

theorem StringMap.call_eq_some {map : StringMap α} {call : TableCall α} {string : List UInt8}
    {object : α} (bound : (map.call call).2 string = some object) :
    map string = some object ∨
      ∃ key leftover, call = .insert key object leftover ∧ string = key.text := by
  cases call with
  | insert key inserted leftover =>
      rcases StringMap.insert_eq_some bound with was | ⟨same, rfl⟩
      · exact .inl was
      · exact .inr ⟨key, leftover, rfl, same⟩
  | delete key => exact .inl (StringMap.delete_eq_some bound)
  | lookup key => exact .inl bound

/-- Calls on an empty map bind inserted objects only. -/
theorem inserted_of_runCalls {calls : List (TableCall α)} {string : List UInt8} {object : α}
    (bound : (runCalls StringMap.call (fun _ => none) calls).2 string = some object) :
    object ∈ calls.filterMap TableCall.inserted := by
  induction calls using List.reverseRecOn with
  | nil => cases bound
  | append_singleton calls call ih =>
      rw [runCalls_append] at bound
      rw [List.filterMap_append, List.mem_append]
      rcases StringMap.call_eq_some bound with was | ⟨key, leftover, rfl, -⟩
      · exact .inl (ih was)
      · exact .inr List.mem_cons_self

/-- The hash function reads nothing behind the terminator of its key. -/
def TextOnly (hashFunc : StringBuffer → UInt32) : Prop :=
  ∀ left right : StringBuffer, left.text = right.text → hashFunc left = hashFunc right

/-- The bucket of a string under a hash function that reads the string only. -/
def placeOf (size : UInt32) (hashFunc : StringBuffer → UInt32) (string : List UInt8) : Nat :=
  if nonzero : 0 ∉ string then (hashFunc (.padded string nonzero) % size).toNat else 0

theorem TextOnly.placeOf_text {hashFunc : StringBuffer → UInt32} (textOnly : TextOnly hashFunc)
    (size : UInt32) (key : StringBuffer) :
    (hashFunc key % size).toNat = placeOf size hashFunc key.text := by
  rw [placeOf, dif_pos key.text_ne_zero, textOnly key (.padded key.text key.text_ne_zero) rfl]

/-- The key is assigned to the bucket that its string alone is assigned to. -/
def HashTable.Assigns (table : HashTable α) (key : StringBuffer) : Prop :=
  hashTableCalcIndexWithHash table key = placeOf table.size table.hashFunc key.text

theorem TextOnly.assigns {table : HashTable α} (textOnly : TextOnly table.hashFunc)
    (key : StringBuffer) : table.Assigns key := textOnly.placeOf_text table.size key

/-- The linked table holds the map: its cells are the entries of coherent buckets of that map. -/
def HashTable.Holds (table : HashTable α) (map : StringMap α) : Prop :=
  ∃ chains, table.Represents chains ∧
    (bucketsOf chains).Coherent (placeOf table.size table.hashFunc) ∧
    (bucketsOf chains).toMap (placeOf table.size table.hashFunc) = map

theorem hashTableCreate_holds (size : UInt32) (hashFunc : StringBuffer → UInt32) :
    (hashTableCreate size hashFunc : HashTable α).Holds fun _ => none :=
  ⟨fun _ => [], .create size hashFunc, Buckets.coherent_empty _, rfl⟩

/-- Operations keep the size and the hash function chosen at creation. -/
theorem hashTableInsert_parameters (table : HashTable α) (leftover : List UInt8)
    (key : StringBuffer) (object : α) :
    (hashTableInsert table leftover (some key) (some object)).2.size = table.size ∧
      (hashTableInsert table leftover (some key) (some object)).2.hashFunc = table.hashFunc := by
  rw [hashTableInsert]
  split <;> exact ⟨rfl, rfl⟩

theorem hashTableDeleteElement_parameters (table : HashTable α) (key : StringBuffer) :
    (hashTableDeleteElement table (some key)).2.size = table.size ∧
      (hashTableDeleteElement table (some key)).2.hashFunc = table.hashFunc := by
  simp only [hashTableDeleteElement]
  split
  · exact ⟨rfl, rfl⟩
  · split <;> exact ⟨rfl, rfl⟩

namespace HashTable.Holds

variable {table : HashTable α} {map : StringMap α}

theorem lookup_of_assigns (holds : table.Holds map) {key : StringBuffer}
    (assigned : table.Assigns key) : hashTableLookup table (some key) = map key.text := by
  obtain ⟨chains, represents, _, rfl⟩ := holds
  rw [represents.lookup_eq]
  exact Buckets.lookup_placed _ assigned

/-- Whatever is found under a key, however it was hashed, is bound to its string. -/
theorem lookup_eq_some (holds : table.Holds map) {key : StringBuffer} {object : α}
    (found : hashTableLookup table (some key) = some object) :
    table.Assigns key ∧ map key.text = some object := by
  obtain ⟨chains, represents, coherent, rfl⟩ := holds
  rw [represents.lookup_eq, coherent.lookup_eq] at found
  split at found
  · exact ⟨‹_›, found⟩
  · cases found

theorem lookup_eq (holds : table.Holds map) (key : StringBuffer) [Decidable (table.Assigns key)] :
    hashTableLookup table (some key) = if table.Assigns key then map key.text else none := by
  split
  · exact holds.lookup_of_assigns ‹_›
  · rename_i misplaced
    refine Option.eq_none_iff_forall_ne_some.mpr fun object found => misplaced ?_
    exact (holds.lookup_eq_some found).1

theorem insert (holds : table.Holds map) {key : StringBuffer} (assigned : table.Assigns key)
    (leftover : List UInt8) (object : α) :
    (hashTableInsert table leftover (some key) (some object)).1 = (map.insert key.text object).1 ∧
      (hashTableInsert table leftover (some key) (some object)).2.Holds
        (map.insert key.text object).2 := by
  obtain ⟨chains, represents, coherent, rfl⟩ := holds
  obtain ⟨after, represents', lists⟩ := represents.insert leftover key object
  obtain ⟨size_eq, hashFunc_eq⟩ := hashTableInsert_parameters table leftover key object
  have values := Buckets.toMap_insert (bucketsOf chains) assigned object leftover
  have kept := coherent.insert assigned object leftover
  rw [← lists] at values kept
  rw [HashTable.Holds, size_eq, hashFunc_eq]
  exact ⟨congrArg Prod.fst values, after, represents', kept, congrArg Prod.snd values⟩

/-- Deleting under any key removes the binding that a lookup with the key finds. -/
theorem delete (holds : table.Holds map) (key : StringBuffer) :
    (hashTableDeleteElement table (some key)).1 = (hashTableLookup table (some key)).isSome ∧
      (hashTableDeleteElement table (some key)).2.Holds
        (if (hashTableLookup table (some key)).isSome then Function.update map key.text none
          else map) := by
  have found_eq (object : α) (found : hashTableLookup table (some key) = some object) :=
    holds.lookup_eq_some found
  obtain ⟨chains, represents, coherent, rfl⟩ := holds
  obtain ⟨after, represents', lists⟩ := represents.delete key
  obtain ⟨size_eq, hashFunc_eq⟩ := hashTableDeleteElement_parameters table key
  have kept := coherent.delete (hashTableCalcIndexWithHash table key) key
  rw [HashTable.Holds, size_eq, hashFunc_eq]
  cases found : hashTableLookup table (some key) with
  | none =>
      rw [Buckets.delete, ← represents.lookup_eq, found] at lists kept
      obtain ⟨status, same⟩ := Prod.mk.inj lists
      exact ⟨status, after, represents', same ▸ kept, same ▸ rfl⟩
  | some object =>
      obtain ⟨assigned, bound⟩ := found_eq object found
      have values := coherent.toMap_delete assigned
      rw [StringMap.delete, bound] at values
      rw [← lists] at values kept
      exact ⟨congrArg Prod.fst values, after, represents', kept, congrArg Prod.snd values⟩

end HashTable.Holds

theorem HashTable.call_parameters (table : HashTable α) (call : TableCall α) :
    (table.call call).2.size = table.size ∧ (table.call call).2.hashFunc = table.hashFunc := by
  cases call with
  | insert key object leftover => exact hashTableInsert_parameters table leftover key object
  | delete key => exact hashTableDeleteElement_parameters table key
  | lookup key => exact ⟨rfl, rfl⟩

/-- One call on the table answers as the same call on the map it holds, and holds the new map. -/
theorem HashTable.Holds.call {table : HashTable α} {map : StringMap α} (holds : table.Holds map)
    (textOnly : TextOnly table.hashFunc) (call : TableCall α) :
    (table.call call).1 = (map.call call).1 ∧ (table.call call).2.Holds (map.call call).2 := by
  cases call with
  | insert key object leftover =>
      obtain ⟨status, holds'⟩ := holds.insert (textOnly.assigns key) leftover object
      exact ⟨congrArg TableReply.flag status, holds'⟩
  | delete key =>
      obtain ⟨status, holds'⟩ := holds.delete key
      rw [holds.lookup_of_assigns (textOnly.assigns key)] at status holds'
      simp only [HashTable.call, StringMap.call, StringMap.delete, Prod.map_fst, Prod.map_snd,
        id_eq, status]
      cases bound : map key.text with
      | none => exact ⟨rfl, by simpa [bound] using holds'⟩
      | some object => exact ⟨rfl, by simpa [bound] using holds'⟩
  | lookup key =>
      exact ⟨congrArg TableReply.object (holds.lookup_of_assigns (textOnly.assigns key)), holds⟩

theorem HashTable.Holds.runCalls {table : HashTable α} {map : StringMap α}
    (holds : table.Holds map) (textOnly : TextOnly table.hashFunc) (calls : List (TableCall α)) :
    (runCalls HashTable.call table calls).1 = (CmyMessage.runCalls StringMap.call map calls).1 ∧
      (CmyMessage.runCalls HashTable.call table calls).2.Holds
        (CmyMessage.runCalls StringMap.call map calls).2 ∧
      (CmyMessage.runCalls HashTable.call table calls).2.size = table.size ∧
      (CmyMessage.runCalls HashTable.call table calls).2.hashFunc = table.hashFunc := by
  induction calls generalizing table map with
  | nil => exact ⟨rfl, holds, rfl, rfl⟩
  | cons call calls ih =>
      obtain ⟨reply, holds'⟩ := holds.call textOnly call
      obtain ⟨size_eq, hashFunc_eq⟩ := table.call_parameters call
      obtain ⟨replies, final, final_size, final_hashFunc⟩ :=
        ih holds' (hashFunc_eq.symm ▸ textOnly)
      refine ⟨?_, final, final_size.trans size_eq, final_hashFunc.trans hashFunc_eq⟩
      exact congrArg₂ List.cons reply replies

theorem HashTable.Holds.placed {table : HashTable α} {map : StringMap α} (holds : table.Holds map)
    (textOnly : TextOnly table.hashFunc) {index : Nat} {entry : Entry α}
    (member : entry ∈ table.bucket index) : hashTableCalcIndexWithHash table entry.key = index := by
  obtain ⟨chains, represents, coherent, _⟩ := holds
  rw [represents.bucket_eq] at member
  rw [hashTableCalcIndexWithHash, textOnly.placeOf_text]
  exact coherent.placed index entry member

theorem HashTable.Holds.distinct {table : HashTable α} {map : StringMap α}
    (holds : table.Holds map) : (table.entries.map fun entry => entry.key.text).Nodup := by
  obtain ⟨chains, represents, coherent, _⟩ := holds
  rw [HashTable.entries, List.map_flatMap, List.nodup_flatMap]
  constructor
  · intro index _
    rw [represents.bucket_eq]
    exact coherent.distinct index
  · refine List.nodup_range.imp fun {left right} different string inLeft inRight => different ?_
    obtain ⟨entry, member, rfl⟩ := List.mem_map.mp inLeft
    obtain ⟨other, member', same⟩ := List.mem_map.mp inRight
    rw [represents.bucket_eq] at member member'
    rw [← coherent.placed left entry member, ← coherent.placed right other member', same]

theorem placeOf_lt {size : UInt32} (size_pos : 0 < size) (hashFunc : StringBuffer → UInt32)
    (string : List UInt8) : placeOf size hashFunc string < size.toNat := by
  rw [placeOf]
  split
  · rw [UInt32.toNat_mod]
    exact Nat.mod_lt _ size_pos
  · exact size_pos

/-- What the table binds is what its entries say. -/
theorem HashTable.Holds.bound_iff {table : HashTable α} {map : StringMap α}
    (holds : table.Holds map) (size_pos : 0 < table.size) {string : List UInt8} {object : α} :
    map string = some object ↔
      ∃ entry ∈ table.entries, entry.key.text = string ∧ entry.object = object := by
  obtain ⟨chains, represents, coherent, rfl⟩ := holds
  rw [coherent.toMap_eq_some_iff]
  constructor
  · intro bound
    obtain ⟨entry, member, same, isObject⟩ := bound
    refine ⟨entry, List.mem_flatMap.mpr ⟨placeOf table.size table.hashFunc string, ?_, ?_⟩, same,
      isObject⟩
    · exact List.mem_range.mpr (placeOf_lt size_pos _ _)
    · rwa [represents.bucket_eq]
  · intro linked
    obtain ⟨entry, member, rfl, isObject⟩ := linked
    obtain ⟨index, -, inBucket⟩ := List.mem_flatMap.mp member
    rw [represents.bucket_eq] at inBucket
    have placed := coherent.placed index entry inBucket
    exact ⟨entry, placed.symm ▸ inBucket, rfl, isObject⟩

/-- A table made by `hash_table_create` answers every sequence of calls as the map from strings to
objects does, keeps every entry in the bucket of its hash, and never links a string twice. -/
theorem hashTable_behaves_as_map (size : UInt32) (size_pos : 0 < size)
    (hashFunc : StringBuffer → UInt32) (textOnly : TextOnly hashFunc) (calls : List (TableCall α)) :
    let table := runCalls HashTable.call (hashTableCreate size hashFunc) calls
    let map := runCalls StringMap.call (fun _ => none) calls
    table.1 = map.1 ∧
      (∀ key, hashTableLookup table.2 (some key) = map.2 key.text) ∧
      (∀ index, ∀ entry ∈ table.2.bucket index,
        (hashFunc entry.key % size).toNat = index ∧ index < size.toNat) ∧
      (table.2.entries.map fun entry => entry.key.text).Nodup := by
  intro table map
  obtain ⟨replies, holds, size_eq, hashFunc_eq⟩ :=
    (hashTableCreate_holds (α := α) size hashFunc).runCalls textOnly calls
  have textOnly' : TextOnly table.2.hashFunc := hashFunc_eq.symm ▸ textOnly
  refine ⟨replies, fun key => holds.lookup_of_assigns (textOnly'.assigns key),
    fun index entry member => ?_, holds.distinct⟩
  have placed : (hashFunc entry.key % size).toNat = index := by
    have inTable := holds.placed textOnly' member
    rwa [hashTableCalcIndexWithHash, size_eq, hashFunc_eq] at inTable
  refine ⟨placed, ?_⟩
  rw [← placed, UInt32.toNat_mod]
  exact Nat.mod_lt _ size_pos

/-- Two colliding keys, a refused duplicate, and the removal of the entry behind a bucket's head. -/
theorem hashTable_behaves_as_map_collision :
    (runCalls HashTable.call
        (hashTableCreate 2 fun key => UInt32.ofNat key.text.length : HashTable Nat)
        [.insert (.padded [97, 98] (by decide)) 1 [], .insert (.padded [99, 100] (by decide)) 2 [],
          .insert (.padded [97, 98] (by decide)) 3 [], .delete (.padded [97, 98] (by decide)),
          .lookup (.padded [97, 98] (by decide)), .lookup (.padded [99, 100] (by decide))]).1 =
      [.flag true, .flag true, .flag false, .flag true, .object none, .object (some 2)] :=
  (hashTable_behaves_as_map 2 (by decide) _
    (fun _ _ same => congrArg (fun string => UInt32.ofNat string.length) same) _).1.trans
    (by decide)

end CmyMessage
