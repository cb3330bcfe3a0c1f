import CmyMessage.HashTable.Refinement

/-!
# Cleaning a whole table

`hash_table_clean_fully` takes the head off a bucket, releases it, and goes on until the bucket is
empty.  An account of the calls made before says which objects are still bound: those inserted and
not deleted.  The cleanup function of a table gets the address of the pointer to the object, which
suits the functions written for it and not the default `free`.
-/

namespace CmyMessage

open scoped List

variable {α : Type*}

/-! ## The cleanup of the source -/

/-- What `p_cleanup_func` points to. -/
inductive CleanObjFunc
  /-- A `cleanObjFunc`: it follows the address it gets to the object and cleans the object. -/
  | custom
  /-- The standard `free`: it releases the block that begins at the address it gets. -/
  | free
  deriving DecidableEq

/-- `p_ht->p_cleanup_func = (p_clean_obj_func) ? p_clean_obj_func : free` -/
def cleanupFunc (provided : Bool) : CleanObjFunc := if provided then .custom else .free

/-- Why a cleanup does not return. -/
inductive CleanupFault
  | outOfFuel
  | danglingEntry
  | invalidFree
  deriving DecidableEq

/-- `hash_table_free_element_with_ptr_to_ptr_of_entry`: the object that is cleaned, and the heap
without the entry. -/
def hashTableFreeElementWithPtrToPtrOfEntry (cleanup : CleanObjFunc) (heap : CellHeap (Entry α))
    (temp : Nat) : Except CleanupFault (α × CellHeap (Entry α)) :=
  match heap.cell temp with
  | none => .error .danglingEntry
  | some c =>
      -- The object of an entry is not null, and the function gets the address of its field.
      match cleanup with
      | .custom => .ok (c.value.object, heap.free temp)
      | .free => .error .invalidFree

/-- `while (p_ht->elements[i])`: the objects cleaned, in order, and the table afterwards. -/
def cleanBucket (cleanup : CleanObjFunc) (i : Nat) :
    Nat → HashTable α → Except CleanupFault (List α × HashTable α)
  | 0, table =>
      match table.elements i with
      | none => .ok ([], table)
      | some _ => .error .outOfFuel
  | fuel + 1, table =>
      match table.elements i with
      | none => .ok ([], table)
      | some temp =>
          match table.heap.cell temp with
          | none => .error .danglingEntry
          | some c => do
              let unlinked := table.setHead i c.next
              let (object, heap) ←
                hashTableFreeElementWithPtrToPtrOfEntry cleanup unlinked.heap temp
              let (objects, final) ← cleanBucket cleanup i fuel { unlinked with heap }
              return (object :: objects, final)

/-- Clean some buckets in order; a bucket has no more entries than were ever allocated. -/
def cleanBuckets (cleanup : CleanObjFunc) :
    List Nat → HashTable α → Except CleanupFault (List α × HashTable α)
  | [], table => .ok ([], table)
  | i :: rest, table => do
      let (objects, table) ← cleanBucket cleanup i table.heap.fresh table
      let (others, final) ← cleanBuckets cleanup rest table
      return (objects ++ others, final)

/-- `hash_table_clean_fully`. -/
def hashTableCleanFully (cleanup : CleanObjFunc) (table : HashTable α) :
    Except CleanupFault (List α × HashTable α) :=
  cleanBuckets cleanup (List.range table.size.toNat) table

/-! ## One bucket, and all of them -/

theorem cleanBucket_of_none (cleanup : CleanObjFunc) {i : Nat} {table : HashTable α}
    (empty : table.elements i = none) (fuel : Nat) :
    cleanBucket cleanup i fuel table = .ok ([], table) := by
  cases fuel with
  | zero => simp only [cleanBucket, empty]
  | succ fuel => simp only [cleanBucket, empty]

/-- One round of the inner loop. -/
theorem cleanBucket_succ {i fuel address : Nat} {next : Option Nat} {entry : Entry α}
    {objects : List α} {table final : HashTable α} (head : table.elements i = some address)
    (stored : table.heap.cell address = some ⟨entry, next⟩)
    (rest : cleanBucket .custom i fuel
      { table.setHead i next with heap := table.heap.free address } = .ok (objects, final)) :
    cleanBucket .custom i (fuel + 1) table = .ok (entry.object :: objects, final) := by
  have released : hashTableFreeElementWithPtrToPtrOfEntry .custom (table.setHead i next).heap
      address = .ok (entry.object, table.heap.free address) := by
    rw [hashTableFreeElementWithPtrToPtrOfEntry,
      show (table.setHead i next).heap = table.heap from rfl, stored]
  simp only [cleanBucket, head, stored, released, bind, Except.bind, rest]
  rfl

namespace HashTable.Represents

variable {table : HashTable α} {chains : Nat → List (Nat × Entry α)}

/-- Taking the head off a bucket and giving it back. -/
theorem releaseHead (represents : table.Represents chains) {i address : Nat} {entry : Entry α}
    {rest : List (Nat × Entry α)} (split : chains i = (address, entry) :: rest) :
    ∃ next, table.elements i = some address ∧ table.heap.cell address = some ⟨entry, next⟩ ∧
      ({ table.setHead i next with heap := table.heap.free address } : HashTable α).Represents
        (Function.update chains i rest) := by
  have chain := represents.linked i
  rw [split] at chain
  obtain ⟨next, stored, shorter⟩ := chain.free_head
  have behind : chains i = [] ++ (address, entry) :: rest := split
  refine ⟨next, chain.head_eq, stored, represents.remove behind ?_ fun other different => ?_⟩
  · simpa using shorter
  · rw [table.setHead_elements_of_ne different]
    apply (represents.linked other).free_of_notMem
    apply represents.address_ne different.symm (c := (address, entry))
    simp [split]

/-- With enough fuel the inner loop releases every entry of its bucket, from the head on. -/
theorem cleanBucket_custom (represents : table.Represents chains) {i fuel : Nat}
    (enough : (chains i).length ≤ fuel) :
    ∃ after, cleanBucket .custom i fuel table =
        .ok ((bucketsOf chains i).map Entry.object, after) ∧
      after.Represents (Function.update chains i []) ∧ after.size = table.size ∧
      after.hashFunc = table.hashFunc := by
  induction cells : chains i generalizing table chains fuel with
  | nil =>
      have empty : table.elements i = none := by
        have chain := represents.linked i
        rw [cells] at chain
        exact chain.start_eq_none
      refine ⟨table, ?_, ?_, rfl, rfl⟩
      · rw [cleanBucket_of_none .custom empty, bucketsOf, cells]
        rfl
      · rwa [← cells, Function.update_eq_self]
  | cons c rest ih =>
      obtain ⟨address, entry⟩ := c
      rw [cells, List.length_cons] at enough
      obtain ⟨fuel, rfl⟩ := Nat.exists_eq_succ_of_ne_zero (Nat.ne_of_gt (Nat.zero_lt_of_lt enough))
      obtain ⟨next, head, stored, shorter⟩ := represents.releaseHead cells
      have remaining : Function.update chains i rest i = rest := Function.update_self _ _ _
      have enough' : (Function.update chains i rest i).length ≤ fuel := by
        rw [remaining]
        exact Nat.le_of_succ_le_succ enough
      obtain ⟨after, cleaned, emptied, size_eq, hashFunc_eq⟩ := ih shorter enough' remaining
      refine ⟨after, ?_, ?_, size_eq, hashFunc_eq⟩
      · rw [cleanBucket_succ head stored cleaned, bucketsOf, bucketsOf, remaining, cells]
        rfl
      · rwa [Function.update_idem] at emptied

/-- With a function for objects the outer loop releases the buckets in order. -/
theorem cleanBuckets_custom (represents : table.Represents chains) {indices : List Nat}
    (distinct : indices.Nodup) :
    ∃ after, cleanBuckets .custom indices table =
        .ok (indices.flatMap fun i => (bucketsOf chains i).map Entry.object, after) ∧
      after.Represents (fun i => if i ∈ indices then [] else chains i) ∧
      after.size = table.size ∧ after.hashFunc = table.hashFunc := by
  induction indices generalizing table chains with
  | nil => exact ⟨table, rfl, by simpa using represents, rfl, rfl⟩
  | cons i rest ih =>
      obtain ⟨absent, distinct⟩ := List.nodup_cons.mp distinct
      obtain ⟨middle, first, emptied, size_eq, hashFunc_eq⟩ :=
        represents.cleanBucket_custom (represents.linked i).length_le
      obtain ⟨after, others, final, size_eq', hashFunc_eq'⟩ := ih emptied distinct
      refine ⟨after, ?_, ?_, size_eq'.trans size_eq, hashFunc_eq'.trans hashFunc_eq⟩
      · have untouched : (rest.flatMap fun j =>
            (bucketsOf (Function.update chains i []) j).map Entry.object) =
            rest.flatMap fun j => (bucketsOf chains j).map Entry.object := by
          refine List.flatMap_congr fun j member => ?_
          have different : j ≠ i := fun same => absent (same ▸ member)
          rw [bucketsOf_update, Function.update_of_ne different]
        rw [untouched] at others
        simp only [cleanBuckets, first, bind, Except.bind, others]
        rfl
      · convert final using 2 with j
        by_cases same : j = i
        · subst same
          simp
        · simp [same]

end HashTable.Represents

/-- Nothing is cleaned in empty buckets, whatever the cleanup function. -/
theorem cleanBuckets_of_empty (cleanup : CleanObjFunc) {table : HashTable α} {indices : List Nat}
    (empty : ∀ i ∈ indices, table.elements i = none) :
    cleanBuckets cleanup indices table = .ok ([], table) := by
  induction indices with
  | nil => rfl
  | cons i rest ih =>
      have first := cleanBucket_of_none cleanup (empty i List.mem_cons_self) table.heap.fresh
      have others := ih fun j member => empty j (List.mem_cons_of_mem _ member)
      simp only [cleanBuckets, first, bind, Except.bind, others]
      rfl

/-- The default `free` is given an address inside the first entry it meets. -/
theorem empty_of_cleanBucket_free {table : HashTable α} {i fuel : Nat}
    {result : List α × HashTable α} (returned : cleanBucket .free i fuel table = .ok result) :
    table.elements i = none := by
  cases head : table.elements i with
  | none => rfl
  | some temp =>
      exfalso
      cases fuel with
      | zero =>
          simp only [cleanBucket, head] at returned
          cases returned
      | succ fuel =>
          cases stored : table.heap.cell temp with
          | none =>
              simp only [cleanBucket, head, stored] at returned
              cases returned
          | some c =>
              have invalid : hashTableFreeElementWithPtrToPtrOfEntry .free
                  (table.setHead i c.next).heap temp = .error .invalidFree := by
                rw [hashTableFreeElementWithPtrToPtrOfEntry,
                  show (table.setHead i c.next).heap = table.heap from rfl, stored]
              simp only [cleanBucket, head, stored, invalid, bind, Except.bind] at returned
              cases returned

/-- The default `free` gets through empty buckets only. -/
theorem empty_of_cleanBuckets_free {table : HashTable α} {indices : List Nat}
    {result : List α × HashTable α} (returned : cleanBuckets .free indices table = .ok result) :
    ∀ i ∈ indices, table.elements i = none := by
  induction indices generalizing result with
  | nil => exact fun i member => absurd member List.not_mem_nil
  | cons i rest ih =>
      have headless : table.elements i = none := by
        cases first : cleanBucket .free i table.heap.fresh table with
        | error fault =>
            simp only [cleanBuckets, first, bind, Except.bind] at returned
            cases returned
        | ok cleaned => exact empty_of_cleanBucket_free first
      have first := cleanBucket_of_none .free headless table.heap.fresh
      simp only [cleanBuckets, first, bind, Except.bind] at returned
      intro j member
      rcases List.mem_cons.mp member with rfl | later
      · exact headless
      · cases others : cleanBuckets .free rest table with
        | error fault =>
            rw [others] at returned
            cases returned
        | ok cleaned => exact ih others j later

/-! ## The account of the calls -/

/-- The object that a call binds. -/
def HashTable.bound (table : HashTable α) : TableCall α → List α
  | .insert key object leftover =>
      if (hashTableInsert table leftover (some key) (some object)).1 then [object] else []
  | .delete _ | .lookup _ => []

/-- The object whose entry a call deletes. -/
def HashTable.unbound (table : HashTable α) : TableCall α → List α
  | .delete key =>
      if (hashTableDeleteElement table (some key)).1 then
        (hashTableLookup table (some key)).toList
      else []
  | .insert _ _ _ | .lookup _ => []

/-- What the calls of a sequence add to an account, each at the table it finds. -/
def account (entry : HashTable α → TableCall α → List α) :
    HashTable α → List (TableCall α) → List α
  | _, [] => []
  | table, call :: rest => entry table call ++ account entry (table.call call).2 rest

/-- The objects of the entries in the first buckets. -/
def Buckets.objects (count : Nat) (buckets : Buckets α) : List α :=
  (List.range count).flatMap fun i => (buckets i).map Entry.object

@[simp]
theorem Buckets.objects_empty (count : Nat) :
    Buckets.objects count (bucketsOf fun _ => ([] : List (Nat × Entry α))) = [] := by
  simp [Buckets.objects, bucketsOf]

/-- Replacing one bucket replaces its objects among all. -/
theorem Buckets.objects_update {count index : Nat} (inside : index < count) (buckets : Buckets α) :
    ∃ others, ∀ entries, (Buckets.objects count (Function.update buckets index entries)).Perm
      (entries.map Entry.object ++ others) := by
  obtain ⟨front, back, split⟩ := List.append_of_mem (List.mem_range.mpr inside)
  have distinct := List.nodup_range (n := count)
  rw [split, List.nodup_append', List.nodup_cons] at distinct
  obtain ⟨_, ⟨beyond, _⟩, apart⟩ := distinct
  have kept (entries : List (Entry α)) (indices : List Nat) (absent : index ∉ indices) :
      (indices.flatMap fun i => (Function.update buckets index entries i).map Entry.object) =
        indices.flatMap fun i => (buckets i).map Entry.object := by
    refine List.flatMap_congr fun i member => ?_
    have different : i ≠ index := fun same => absent (same ▸ member)
    rw [Function.update_of_ne different]
  refine ⟨(front ++ back).flatMap fun i => (buckets i).map Entry.object, fun entries => ?_⟩
  rw [Buckets.objects, split, List.flatMap_append, List.flatMap_cons, Function.update_self,
    kept entries back beyond, kept entries front fun member => apart member List.mem_cons_self,
    List.flatMap_append]
  exact List.perm_append_comm_assoc _ _ _

theorem Buckets.objects_insert {count index : Nat} (inside : index < count) (buckets : Buckets α)
    (key : StringBuffer) (object : α) (leftover : List UInt8) :
    (Buckets.objects count (buckets.insert index key object leftover).2).Perm
      ((if (buckets.insert index key object leftover).1 then [object] else []) ++
        Buckets.objects count buckets) := by
  rw [Buckets.insert]
  split
  · exact List.Perm.refl _
  · obtain ⟨others, replaced⟩ := Buckets.objects_update inside buckets
    have before := replaced (buckets index)
    rw [Function.update_eq_self] at before
    exact (replaced _).trans (before.symm.cons object)

theorem Buckets.objects_delete {count index : Nat} (inside : index < count) (buckets : Buckets α)
    (key : StringBuffer) :
    ((if (buckets.delete index key).1 then (buckets.lookup index key).toList else []) ++
      Buckets.objects count (buckets.delete index key).2).Perm (Buckets.objects count buckets) := by
  rw [Buckets.delete]
  split
  · rename_i present
    obtain ⟨others, replaced⟩ := Buckets.objects_update inside buckets
    have before := replaced (buckets index)
    rw [Function.update_eq_self] at before
    obtain ⟨object, found⟩ := Option.isSome_iff_exists.mp present
    obtain ⟨entry, first, rfl⟩ := Option.map_eq_some_iff.mp found
    obtain ⟨accepted, front, rest, split, rejected⟩ := List.find?_eq_some_iff_append.mp first
    have shorter : (buckets index).eraseP (Entry.hasKey key) = front ++ rest := by
      rw [split, List.eraseP_append_right _ (by simpa using rejected),
        List.eraseP_cons_of_pos accepted]
    have moved : (entry.object :: (front ++ rest).map Entry.object).Perm
        ((buckets index).map Entry.object) := by
      rw [split, List.map_append, List.map_append, List.map_cons]
      exact List.perm_middle.symm
    rw [found, shorter]
    exact ((replaced _).cons _).trans ((moved.append_right others).trans before.symm)
  · exact List.Perm.refl _

namespace HashTable

theorem calcIndex_lt (table : HashTable α) (positive : 0 < table.size) (key : StringBuffer) :
    hashTableCalcIndexWithHash table key < table.size.toNat := by
  rw [hashTableCalcIndexWithHash, UInt32.toNat_mod]
  exact Nat.mod_lt _ positive

/-- The objects in the table are what the account of one call says. -/
theorem Represents.call {table : HashTable α} {chains : Nat → List (Nat × Entry α)}
    (represents : table.Represents chains) (positive : 0 < table.size) (call : TableCall α) :
    ∃ after, (table.call call).2.Represents after ∧
      (table.unbound call ++ (bucketsOf after).objects table.size.toNat).Perm
        (table.bound call ++ (bucketsOf chains).objects table.size.toNat) := by
  cases call with
  | insert key object leftover =>
      obtain ⟨after, represents', lists⟩ := represents.insert leftover key object
      have status := congrArg Prod.fst lists
      have buckets := congrArg Prod.snd lists
      refine ⟨after, represents', ?_⟩
      simp only [HashTable.bound, HashTable.unbound] at status buckets ⊢
      rw [status, buckets]
      exact Buckets.objects_insert (table.calcIndex_lt positive key) _ key object leftover
  | delete key =>
      obtain ⟨after, represents', lists⟩ := represents.delete key
      have status := congrArg Prod.fst lists
      have buckets := congrArg Prod.snd lists
      refine ⟨after, represents', ?_⟩
      simp only [HashTable.bound, HashTable.unbound] at status buckets ⊢
      rw [status, buckets, represents.lookup_eq]
      exact Buckets.objects_delete (table.calcIndex_lt positive key) _ key
  | lookup key => exact ⟨chains, represents, List.Perm.refl _⟩

/-- The objects in the table after some calls are those bound and not unbound by them. -/
theorem Represents.runCalls {table : HashTable α} {chains : Nat → List (Nat × Entry α)}
    (represents : table.Represents chains) (positive : 0 < table.size)
    (calls : List (TableCall α)) :
    ∃ after, (CmyMessage.runCalls HashTable.call table calls).2.Represents after ∧
      (CmyMessage.runCalls HashTable.call table calls).2.size = table.size ∧
      (account HashTable.unbound table calls ++
          (bucketsOf after).objects table.size.toNat).Perm
        (account HashTable.bound table calls ++ (bucketsOf chains).objects table.size.toNat) := by
  induction calls generalizing table chains with
  | nil => exact ⟨chains, represents, rfl, List.Perm.refl _⟩
  | cons call calls ih =>
      obtain ⟨middle, represents', first⟩ := represents.call positive call
      have size_eq := (table.call_parameters call).1
      obtain ⟨after, final, size_eq', rest⟩ := ih represents' (size_eq.symm ▸ positive)
      refine ⟨after, final, size_eq'.trans size_eq, ?_⟩
      rw [size_eq] at rest
      rw [account, account, List.append_assoc, List.append_assoc]
      calc
        _ ~ table.unbound call ++ (account HashTable.bound (table.call call).2 calls ++
              (bucketsOf middle).objects table.size.toNat) := rest.append_left _
        _ ~ account HashTable.bound (table.call call).2 calls ++ (table.unbound call ++
              (bucketsOf middle).objects table.size.toNat) := List.perm_append_comm_assoc _ _ _
        _ ~ account HashTable.bound (table.call call).2 calls ++ (table.bound call ++
              (bucketsOf chains).objects table.size.toNat) := first.append_left _
        _ ~ _ := List.perm_append_comm_assoc _ _ _

/-- The entries of a table hold the objects of its buckets. -/
theorem Represents.entries_objects {table : HashTable α} {chains : Nat → List (Nat × Entry α)}
    (represents : table.Represents chains) :
    table.entries.map Entry.object = (bucketsOf chains).objects table.size.toNat := by
  rw [HashTable.entries, List.map_flatMap, Buckets.objects]
  exact List.flatMap_congr fun index _ => by rw [represents.bucket_eq]

theorem Represents.elements_eq_none_iff {table : HashTable α} {chains : Nat → List (Nat × Entry α)}
    (represents : table.Represents chains) (i : Nat) :
    table.elements i = none ↔ chains i = [] := by
  have chain := represents.linked i
  constructor
  · intro empty
    rw [empty] at chain
    exact chain.unique .nil
  · intro empty
    rw [empty] at chain
    exact chain.start_eq_none

theorem Represents.entries_eq_nil_iff {table : HashTable α} {chains : Nat → List (Nat × Entry α)}
    (represents : table.Represents chains) :
    table.entries = [] ↔ ∀ i ∈ List.range table.size.toNat, table.elements i = none := by
  rw [HashTable.entries, List.flatMap_eq_nil_iff]
  refine forall₂_congr fun i _ => ?_
  rw [represents.bucket_eq, represents.elements_eq_none_iff, bucketsOf, List.map_eq_nil_iff]

/-- Nothing is found in a table whose buckets are empty. -/
theorem Represents.lookup_eq_none {table : HashTable α} {chains : Nat → List (Nat × Entry α)}
    (represents : table.Represents chains) (positive : 0 < table.size)
    (empty : ∀ index, index < table.size.toNat → chains index = []) (key : Option StringBuffer) :
    hashTableLookup table key = none := by
  cases key with
  | none => rfl
  | some key =>
      rw [represents.lookup_eq, Buckets.lookup, bucketsOf,
        empty _ (table.calcIndex_lt positive key)]
      rfl

end HashTable

/-! ## What a cleanup releases -/

/-- A cleaned table: the objects still bound are released, each once, and nothing is left. -/
structure ReleasesBound (created : HashTable α) (calls : List (TableCall α))
    (cleaned : List α) (after : HashTable α) : Prop where
  linked : cleaned = (runCalls HashTable.call created calls).2.entries.map Entry.object
  balanced : account HashTable.unbound created calls ++ cleaned ~
    account HashTable.bound created calls
  emptied : ∀ index, index < created.size.toNat → after.elements index = none
  unknown : ∀ key, hashTableLookup after key = none

/-- A cleanup function for objects releases what is still bound. -/
theorem hashTableCleanFully_custom {created : HashTable α} {calls : List (TableCall α)}
    {chains : Nat → List (Nat × Entry α)} (positive : 0 < created.size)
    (represents : (runCalls HashTable.call created calls).2.Represents chains)
    (size_eq : (runCalls HashTable.call created calls).2.size = created.size)
    (balanced : account HashTable.unbound created calls ++
      (bucketsOf chains).objects created.size.toNat ~ account HashTable.bound created calls) :
    ∃ cleaned after,
      hashTableCleanFully .custom (runCalls HashTable.call created calls).2 =
        .ok (cleaned, after) ∧ ReleasesBound created calls cleaned after := by
  obtain ⟨after, returned, emptied, size_eq', -⟩ :=
    represents.cleanBuckets_custom (List.nodup_range (n := created.size.toNat))
  have nothing (index : Nat) (inside : index < created.size.toNat) :
      (if index ∈ List.range created.size.toNat then [] else chains index) = [] :=
    if_pos (List.mem_range.mpr inside)
  refine ⟨_, after, ?_, ⟨?_, balanced, ?_, ?_⟩⟩
  · rw [hashTableCleanFully, size_eq, returned]
    rfl
  · rw [represents.entries_objects, size_eq]
  · intro index inside
    exact (emptied.elements_eq_none_iff index).mpr (nothing index inside)
  · rw [size_eq] at size_eq'
    refine emptied.lookup_eq_none (size_eq'.symm ▸ positive) fun index inside => ?_
    exact nothing index (size_eq' ▸ inside)

/-- After any calls on a created table, `hash_table_clean_fully` returns with the objects of the
entries still bound cleaned once each, no object of a deleted entry among them, and every bucket
empty, exactly when the table has a cleanup function of its own or no entry is bound. -/
theorem hashTableCleanFully_releases_iff (size : UInt32) (positive : 0 < size)
    (hashFunc : StringBuffer → UInt32) (provided : Bool) (calls : List (TableCall α)) :
    let created : HashTable α := hashTableCreate size hashFunc
    let table := (runCalls HashTable.call created calls).2
    (∃ cleaned after, hashTableCleanFully (cleanupFunc provided) table = .ok (cleaned, after) ∧
      ReleasesBound created calls cleaned after) ↔ provided = true ∨ table.entries = [] := by
  intro created table
  obtain ⟨chains, represents, size_eq, balanced⟩ :=
    (HashTable.Represents.create (α := α) size hashFunc).runCalls positive calls
  rw [Buckets.objects_empty, List.append_nil] at balanced
  have custom := hashTableCleanFully_custom positive represents size_eq balanced
  constructor
  · intro released
    obtain ⟨cleaned, after, returned, -⟩ := released
    cases provided with
    | true => exact .inl rfl
    | false => exact .inr (represents.entries_eq_nil_iff.mpr (empty_of_cleanBuckets_free returned))
  · intro ready
    rcases ready with rfl | empty
    · exact custom
    · -- In an empty table no call of the cleanup function is reached.
      have nothing := represents.entries_eq_nil_iff.mp empty
      have same : hashTableCleanFully (cleanupFunc provided) table =
          hashTableCleanFully .custom table := by
        rw [hashTableCleanFully, hashTableCleanFully, cleanBuckets_of_empty _ nothing,
          cleanBuckets_of_empty _ nothing]
      rw [same]
      exact custom

/-- Two entries in one bucket and one deleted before: the function given at the creation cleans the
two that are left. -/
theorem hashTableCleanFully_releases_two :
    let created : HashTable Nat := hashTableCreate 1 fun _ => 0
    let calls : List (TableCall Nat) := [.insert (.padded [97] (by decide)) 1 [],
      .insert (.padded [98] (by decide)) 2 [], .insert (.padded [99] (by decide)) 3 [],
      .delete (.padded [98] (by decide))]
    ∃ cleaned after,
      hashTableCleanFully (cleanupFunc true) (runCalls HashTable.call created calls).2 =
        .ok (cleaned, after) ∧ ReleasesBound created calls cleaned after :=
  (hashTableCleanFully_releases_iff 1 (by decide) _ true _).mpr (.inl rfl)

/-- A table created without a cleanup function: the standard `free` is given the address of the
object's field, which lies inside the entry. -/
theorem hashTableCleanFully_default_invalid :
    let created : HashTable Nat := hashTableCreate 1 fun _ => 0
    let calls : List (TableCall Nat) := [.insert (.padded [97] (by decide)) 1 []]
    hashTableCleanFully (cleanupFunc false) (runCalls HashTable.call created calls).2 =
        .error .invalidFree ∧
      ¬ ∃ cleaned after,
        hashTableCleanFully (cleanupFunc false) (runCalls HashTable.call created calls).2 =
          .ok (cleaned, after) ∧ ReleasesBound created calls cleaned after := by
  intro created calls
  have stopped : hashTableCleanFully (cleanupFunc false) (runCalls HashTable.call created calls).2 =
      .error .invalidFree := rfl
  refine ⟨stopped, ?_⟩
  rw [stopped]
  rintro ⟨_, _, returned, -⟩
  cases returned

end CmyMessage
