import CmyMessage.HashTable.Cleanup

/-!
# What a destroyed table leaves behind

`hash_table_delete_element` unlinks an entry and does not release it.  So the heap keeps an entry,
with its copy of the key, for every object that was ever inserted, and `hash_table_destroy`, which
follows the links, leaves exactly the entries that were deleted before.
-/

namespace CmyMessage

open scoped List

variable {α : Type*}

/-- `hash_table_destroy_with_ptr_to_ptr`: the objects cleaned, in order, and what the heap of the
table holds afterwards.  The array and the table itself are given back with no entry in them. -/
def hashTableDestroyWithPtrToPtr (cleanup : CleanObjFunc) :
    Option (HashTable α) → Except CleanupFault (List α × Option (CellHeap (Entry α)))
  | none => .ok ([], none)
  | some table => do
      let (objects, cleaned) ← hashTableCleanFully cleanup table
      return (objects, some cleaned.heap)

/-- The objects of all entries in memory, linked or not, from the oldest on. -/
def heapObjects (heap : CellHeap (Entry α)) : List α := heap.values.map Entry.object

/-! ## Entries that the calls allocate -/

/-- An insertion allocates its entry behind all others, if it succeeds. -/
theorem hashTableInsert_objects (table : HashTable α) (leftover : List UInt8) (key : StringBuffer)
    (object : α) :
    heapObjects (hashTableInsert table leftover (some key) (some object)).2.heap =
      heapObjects table.heap ++
        if (hashTableInsert table leftover (some key) (some object)).1 then [object] else [] := by
  rw [hashTableInsert]
  split
  · exact (List.append_nil _).symm
  · simp [heapObjects]

/-- A deletion keeps every entry in memory. -/
theorem hashTableDeleteElement_objects (table : HashTable α) (key : Option StringBuffer) :
    heapObjects (hashTableDeleteElement table key).2.heap = heapObjects table.heap := by
  fun_cases hashTableDeleteElement table key with
  | case1 => rfl
  | case2 => rfl
  | case3 => rfl
  | case4 => simp [heapObjects]

theorem HashTable.call_objects (table : HashTable α) (call : TableCall α) :
    heapObjects (table.call call).2.heap = heapObjects table.heap ++ table.bound call := by
  cases call with
  | insert key object leftover => exact hashTableInsert_objects table leftover key object
  | delete key =>
      exact (hashTableDeleteElement_objects table (some key)).trans (List.append_nil _).symm
  | lookup key => exact (List.append_nil _).symm

/-- The heap remembers every object that the calls bound, in their order. -/
theorem HashTable.runCalls_objects (table : HashTable α) (calls : List (TableCall α)) :
    heapObjects (runCalls HashTable.call table calls).2.heap =
      heapObjects table.heap ++ account HashTable.bound table calls := by
  induction calls generalizing table with
  | nil => exact (List.append_nil _).symm
  | cons call calls ih =>
      have first := table.call_objects call
      calc
        _ = heapObjects (table.call call).2.heap ++
              account HashTable.bound (table.call call).2 calls := ih _
        _ = _ := by rw [first, List.append_assoc, account]

/-! ## Entries that a cleanup releases -/

/-- A sequence that returns has returned from its first part. -/
theorem exists_of_bind_eq_ok {ε β γ : Type*} {first : Except ε β} {rest : β → Except ε γ}
    {result : γ} (returned : (first.bind rest) = .ok result) :
    ∃ middle, first = .ok middle ∧ rest middle = .ok result := by
  cases first with
  | error fault => cases returned
  | ok middle => exact ⟨middle, rfl, returned⟩

/-- Releasing an entry takes its object, and no other, out of memory. -/
theorem released_objects {cleanup : CleanObjFunc} {heap after : CellHeap (Entry α)} {temp : Nat}
    {object : α}
    (released : hashTableFreeElementWithPtrToPtrOfEntry cleanup heap temp = .ok (object, after)) :
    object :: heapObjects after ~ heapObjects heap := by
  rw [hashTableFreeElementWithPtrToPtrOfEntry] at released
  cases stored : heap.cell temp with
  | none =>
      rw [stored] at released
      cases released
  | some c =>
      rw [stored] at released
      cases cleanup with
      | custom =>
          cases released
          exact (CellHeap.values_free stored).map Entry.object
      | free => cases released

theorem cleanBucket_objects {cleanup : CleanObjFunc} {i fuel : Nat} {table final : HashTable α}
    {objects : List α} (returned : cleanBucket cleanup i fuel table = .ok (objects, final)) :
    objects ++ heapObjects final.heap ~ heapObjects table.heap := by
  fun_induction cleanBucket cleanup i fuel table generalizing objects with
  | case1 table empty =>
      cases returned
      exact .refl _
  | case2 table head => cases returned
  | case3 fuel table empty =>
      cases returned
      exact .refl _
  | case4 fuel table temp head missing => cases returned
  | case5 fuel table temp head c stored unlinked =>
      rename_i ih
      obtain ⟨⟨object, heap⟩, released, returned⟩ := exists_of_bind_eq_ok returned
      obtain ⟨⟨others, last⟩, rest, returned⟩ := exists_of_bind_eq_ok returned
      cases returned
      exact ((ih _ rest).cons object).trans (released_objects released)

theorem cleanBuckets_objects {cleanup : CleanObjFunc} {indices : List Nat}
    {table final : HashTable α} {objects : List α}
    (returned : cleanBuckets cleanup indices table = .ok (objects, final)) :
    objects ++ heapObjects final.heap ~ heapObjects table.heap := by
  induction indices generalizing table objects with
  | nil =>
      cases returned
      exact .refl _
  | cons i rest ih =>
      obtain ⟨⟨here, middle⟩, first, returned⟩ := exists_of_bind_eq_ok returned
      obtain ⟨⟨others, last⟩, later, returned⟩ := exists_of_bind_eq_ok returned
      cases returned
      calc
        (here ++ others) ++ heapObjects final.heap
            ~ here ++ (others ++ heapObjects final.heap) := by rw [List.append_assoc]
        _ ~ here ++ heapObjects middle.heap := (ih later).append_left here
        _ ~ heapObjects table.heap := cleanBucket_objects first

/-- A table is destroyed with the objects of its entries cleaned; with them, what is left in memory
makes up what was there. -/
theorem HashTable.Represents.destroy {table : HashTable α} {chains : Nat → List (Nat × Entry α)}
    (represents : table.Represents chains) :
    ∃ left, hashTableDestroyWithPtrToPtr (cleanupFunc true) (some table) =
        .ok (table.entries.map Entry.object, some left) ∧
      table.entries.map Entry.object ++ heapObjects left ~ heapObjects table.heap := by
  obtain ⟨after, returned, -⟩ :=
    represents.cleanBuckets_custom (List.nodup_range (n := table.size.toNat))
  have cleaned : hashTableCleanFully .custom table =
      .ok (table.entries.map Entry.object, after) := by
    rw [represents.entries_objects]
    exact returned
  refine ⟨after.heap, ?_, cleanBuckets_objects cleaned⟩
  rw [hashTableDestroyWithPtrToPtr, show cleanupFunc true = .custom from rfl, cleaned]
  rfl

/-- After any calls on a table created with a cleanup function of its own, an entry is in memory for
every object ever bound, and destroying the table leaves those of the deleted entries: each of them
once, and no other. -/
theorem hashTableDestroyWithPtrToPtr_leaks (size : UInt32) (positive : 0 < size)
    (hashFunc : StringBuffer → UInt32) (calls : List (TableCall α)) :
    let created : HashTable α := hashTableCreate size hashFunc
    let table := (runCalls HashTable.call created calls).2
    heapObjects table.heap = account HashTable.bound created calls ∧
      ∃ cleaned left,
        hashTableDestroyWithPtrToPtr (cleanupFunc true) (some table) = .ok (cleaned, some left) ∧
          heapObjects left ~ account HashTable.unbound created calls := by
  intro created table
  obtain ⟨chains, represents, size_eq, balanced⟩ :=
    (HashTable.Represents.create (α := α) size hashFunc).runCalls positive calls
  rw [Buckets.objects_empty, List.append_nil, ← size_eq, ← represents.entries_objects] at balanced
  have remembered : heapObjects table.heap = account HashTable.bound created calls :=
    created.runCalls_objects calls
  obtain ⟨left, returned, parts⟩ := represents.destroy
  refine ⟨remembered, _, left, returned, ?_⟩
  rw [← List.perm_append_left_iff (table.entries.map Entry.object)]
  calc
    table.entries.map Entry.object ++ heapObjects left ~ heapObjects table.heap := parts
    _ ~ account HashTable.bound created calls := by rw [remembered]
    _ ~ account HashTable.unbound created calls ++ table.entries.map Entry.object := balanced.symm
    _ ~ _ := List.perm_append_comm

/-- One object of three is deleted before, and left behind. -/
theorem hashTableDestroyWithPtrToPtr_leaks_one :
    let created : HashTable Nat := hashTableCreate 1 fun _ => 0
    let calls : List (TableCall Nat) := [.insert (.padded [97] (by decide)) 1 [],
      .insert (.padded [98] (by decide)) 2 [], .insert (.padded [99] (by decide)) 3 [],
      .delete (.padded [98] (by decide))]
    let table := (runCalls HashTable.call created calls).2
    heapObjects table.heap = [1, 2, 3] ∧ ∃ cleaned left,
      hashTableDestroyWithPtrToPtr (cleanupFunc true) (some table) = .ok (cleaned, some left) ∧
        heapObjects left ~ [2] :=
  hashTableDestroyWithPtrToPtr_leaks 1 (by decide) _ _

end CmyMessage
