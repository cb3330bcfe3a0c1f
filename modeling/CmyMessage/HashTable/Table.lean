import CmyMessage.Foundation.CellChain
import CmyMessage.Foundation.CString

/-!
# The chained hash table

The table of `hash_table.c`: an array of bucket heads over a heap of linked entries.  A key is the
memory behind a `const char *`, so a hash function may read past the terminator, while `strcmp`
compares the strings only.
-/

namespace CmyMessage

/-- An `entry` of a bucket; its link belongs to the heap cell that holds it. -/
structure Entry (α : Type*) where
  /-- The private copy of the key. -/
  key : StringBuffer
  /-- The object bound to the key. -/
  object : α

/-- `strcmp(entry->p_key, p_key) == 0`. -/
def Entry.hasKey {α : Type*} (key : StringBuffer) (entry : Entry α) : Bool :=
  decide (entry.key.text = key.text)

/-- `struct _hash_table` with the heap its entries live in. -/
structure HashTable (α : Type*) where
  /-- Number of buckets. -/
  size : UInt32
  /-- The hash function chosen at creation. -/
  hashFunc : StringBuffer → UInt32
  /-- Head of each bucket's chain. -/
  elements : Nat → Option Nat
  /-- The heap holding the entries. -/
  heap : CellHeap (Entry α)

variable {α : Type*}

/-- `elements[index] = head` -/
def HashTable.setHead (table : HashTable α) (index : Nat) (head : Option Nat) : HashTable α :=
  { table with elements := fun other => if other = index then head else table.elements other }

@[simp]
theorem HashTable.setHead_elements_self (table : HashTable α) (index : Nat) (head : Option Nat) :
    (table.setHead index head).elements index = head := if_pos rfl

theorem HashTable.setHead_elements_of_ne (table : HashTable α) {index other : Nat}
    (different : other ≠ index) (head : Option Nat) :
    (table.setHead index head).elements other = table.elements other := if_neg different

/-- `hash_table_create`: every bucket head starts as the null address. -/
def hashTableCreate (size : UInt32) (hashFunc : StringBuffer → UInt32) : HashTable α where
  size := size
  hashFunc := hashFunc
  elements _ := none
  heap := .empty

/-- `hash_table_calc_index_with_hash`. -/
def hashTableCalcIndexWithHash (table : HashTable α) (key : StringBuffer) : Nat :=
  (table.hashFunc key % table.size).toNat

/-- Walk the bucket at `index` to the entry with the key, remembering the entry before it. -/
def HashTable.search (table : HashTable α) (index : Nat) (key : StringBuffer) :
    Option (Option Nat × Nat) :=
  table.heap.search (Entry.hasKey key) table.heap.fresh none (table.elements index)

/-- `hash_table_lookup`. -/
def hashTableLookup (table : HashTable α) : Option StringBuffer → Option α
  | none => none
  | some key =>
      let index := hashTableCalcIndexWithHash table key
      match table.search index key with
      | none => none
      | some (_, temp) => (table.heap.cell temp).map fun c => c.value.object

/-- `strdup`; `leftover` is what the heap block holds after the copied terminator. -/
def strdup (key : StringBuffer) (leftover : List UInt8) : StringBuffer :=
  { key with after := leftover }

/-- `hash_table_insert`; `leftover` is the old content of the block that `strdup` returns. -/
def hashTableInsert (table : HashTable α) (leftover : List UInt8) :
    Option StringBuffer → Option α → Bool × HashTable α
  | some key, some object =>
      let index := hashTableCalcIndexWithHash table key
      if (hashTableLookup table (some key)).isSome then
        (false, table)
      else
        (true,
          { table.setHead index (some table.heap.fresh) with
            heap := table.heap.allocate ⟨strdup key leftover, object⟩ (table.elements index) })
  | _, _ => (false, table)

/-- `hash_table_delete_element`; the unlinked entry stays allocated, as in the source. -/
def hashTableDeleteElement (table : HashTable α) : Option StringBuffer → Bool × HashTable α
  | none => (false, table)
  | some key =>
      let index := hashTableCalcIndexWithHash table key
      match table.search index key with
      | none => (false, table)
      | some (previous, temp) =>
          let next := (table.heap.cell temp).bind fun c => c.next
          match previous with
          | none => (true, table.setHead index next)
          | some previous => (true, { table with heap := table.heap.setNext previous next })

/-- The entries linked into a bucket, from its head on. -/
def HashTable.bucket (table : HashTable α) (index : Nat) : List (Entry α) :=
  (table.heap.collect table.heap.fresh (table.elements index)).map Prod.snd

/-- Every entry linked into the table. -/
def HashTable.entries (table : HashTable α) : List (Entry α) :=
  (List.range table.size.toNat).flatMap table.bucket

end CmyMessage
