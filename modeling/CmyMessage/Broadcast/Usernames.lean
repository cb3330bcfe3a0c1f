import CmyMessage.Broadcast.Service
import CmyMessage.HashTable.Refinement

/-!
# Names as keys of the usernames table

The table hashes twenty bytes of whatever block a name is stored in.  A name cut to nineteen bytes
in a zeroed block, and its copy in the array of names by descriptor, hash like the string alone, so
the table behaves as a map on the names that clients are stored under.
-/

namespace CmyMessage

/-- In a zero-filled window the hash sees the string alone. -/
theorem murmur3_32Hash_of_zeroFilled {key : StringBuffer} (filled : key.ZeroFilled murmurLen) :
    murmur3_32Hash key = murmur3_32Hash (.padded key.text key.text_ne_zero) := by
  apply murmur3_32Hash_congr
  intro offset inside
  rw [filled.byteAt_eq_getD inside,
    (StringBuffer.padded_zeroFilled _ _ murmurLen).byteAt_eq_getD inside, StringBuffer.padded_text]

/-! ## The table as a map -/

variable {α : Type*}

/-- What a table answers to each string in zeroed memory. -/
def HashTable.contents (table : HashTable α) : StringMap α := fun string =>
  if nonzero : 0 ∉ string then hashTableLookup table (some (.padded string nonzero)) else none

theorem HashTable.Holds.contents_eq {table : HashTable α} {map : StringMap α}
    (holds : table.Holds map) : table.contents = map := by
  funext string
  rw [HashTable.contents]
  split
  · rename_i nonzero
    apply holds.lookup_of_assigns
    rw [HashTable.Assigns, hashTableCalcIndexWithHash, placeOf, StringBuffer.padded_text,
      dif_pos nonzero]
  · rename_i zero
    obtain ⟨chains, _, _, rfl⟩ := holds
    refine (Option.map_eq_none_iff.mpr (List.find?_eq_none.mpr fun entry _ same => zero ?_)).symm
    exact of_decide_eq_true same ▸ entry.key.text_ne_zero

/-- A table of the service: hashed by `murmur3_32_hash`, and holding the map of its contents. -/
structure UsernamesTable (table : HashTable α) : Prop where
  size : table.size = 1024
  hashFunc : table.hashFunc = murmur3_32Hash
  holds : table.Holds table.contents

namespace UsernamesTable

variable {table : HashTable α} {key : StringBuffer}

theorem create : UsernamesTable (hashTableCreate 1024 murmur3_32Hash : HashTable α) := by
  refine ⟨rfl, rfl, ?_⟩
  rw [(hashTableCreate_holds 1024 murmur3_32Hash).contents_eq]
  exact hashTableCreate_holds 1024 murmur3_32Hash

theorem create_contents :
    (hashTableCreate 1024 murmur3_32Hash : HashTable α).contents = fun _ => none :=
  (hashTableCreate_holds 1024 murmur3_32Hash).contents_eq

theorem assigns (usernames : UsernamesTable table) (filled : key.ZeroFilled murmurLen) :
    table.Assigns key := by
  rw [HashTable.Assigns, hashTableCalcIndexWithHash, placeOf, dif_pos key.text_ne_zero,
    usernames.hashFunc, murmur3_32Hash_of_zeroFilled filled]

theorem lookup (usernames : UsernamesTable table) (filled : key.ZeroFilled murmurLen) :
    hashTableLookup table (some key) = table.contents key.text :=
  usernames.holds.lookup_of_assigns (usernames.assigns filled)

theorem lookup_eq_some (usernames : UsernamesTable table) {object : α}
    (found : hashTableLookup table (some key) = some object) :
    table.contents key.text = some object :=
  (usernames.holds.lookup_eq_some found).2

theorem insert (usernames : UsernamesTable table) (filled : key.ZeroFilled murmurLen)
    (leftover : List UInt8) (object : α) :
    UsernamesTable (hashTableInsert table leftover (some key) (some object)).2 ∧
      (hashTableInsert table leftover (some key) (some object)).2.contents =
        (table.contents.insert key.text object).2 := by
  obtain ⟨size_eq, hashFunc_eq⟩ := hashTableInsert_parameters table leftover key object
  obtain ⟨_, holds⟩ := usernames.holds.insert (usernames.assigns filled) leftover object
  refine ⟨⟨size_eq.trans usernames.size, hashFunc_eq.trans usernames.hashFunc, ?_⟩,
    holds.contents_eq⟩
  rw [holds.contents_eq]
  exact holds

theorem delete (usernames : UsernamesTable table) (key : StringBuffer) :
    UsernamesTable (hashTableDeleteElement table (some key)).2 ∧
      (hashTableDeleteElement table (some key)).2.contents =
        if (hashTableLookup table (some key)).isSome then
          Function.update table.contents key.text none
        else table.contents := by
  obtain ⟨size_eq, hashFunc_eq⟩ := hashTableDeleteElement_parameters table key
  obtain ⟨_, holds⟩ := usernames.holds.delete key
  refine ⟨⟨size_eq.trans usernames.size, hashFunc_eq.trans usernames.hashFunc, ?_⟩,
    holds.contents_eq⟩
  rw [holds.contents_eq]
  exact holds

/-- A deletion changes no place. -/
theorem assigns_delete (usernames : UsernamesTable table) (key other : StringBuffer) :
    (hashTableDeleteElement table (some key)).2.Assigns other ↔ table.Assigns other := by
  have after := (usernames.delete key).1
  rw [HashTable.Assigns, HashTable.Assigns, hashTableCalcIndexWithHash,
    hashTableCalcIndexWithHash, after.size, after.hashFunc, usernames.size, usernames.hashFunc]

/-- What every key finds after a deletion that hits: nothing, if it holds the same string. -/
theorem lookup_delete_text (usernames : UsernamesTable table)
    (hits : (hashTableLookup table (some key)).isSome) (other : StringBuffer) :
    hashTableLookup (hashTableDeleteElement table (some key)).2 (some other) =
      if other.text = key.text then none else hashTableLookup table (some other) := by
  classical
  obtain ⟨after, contents⟩ := usernames.delete key
  rw [after.holds.lookup_eq, usernames.holds.lookup_eq, contents, if_pos hits]
  by_cases assigned : table.Assigns other
  · rw [if_pos ((usernames.assigns_delete key other).mpr assigned), if_pos assigned]
    by_cases same : other.text = key.text
    · rw [if_pos same, same, Function.update_self]
    · rw [if_neg same, Function.update_of_ne same]
  · rw [if_neg fun assigned' => assigned ((usernames.assigns_delete key other).mp assigned'),
      if_neg assigned, ite_self]

/-- What every key finds after a deletion: nothing, if it found the deleted object. -/
theorem lookup_delete [DecidableEq α] (usernames : UsernamesTable table) {object : α}
    (found : ∀ other, hashTableLookup table (some key) = some other → other = object)
    (own : ∀ string, table.contents string = some object →
      string = key.text ∧ hashTableLookup table (some key) = some object) (other : StringBuffer) :
    hashTableLookup (hashTableDeleteElement table (some key)).2 (some other) =
      if hashTableLookup table (some other) = some object then none
      else hashTableLookup table (some other) := by
  classical
  obtain ⟨after, contents⟩ := usernames.delete key
  have same := usernames.assigns_delete key other
  rw [after.holds.lookup_eq, usernames.holds.lookup_eq, contents]
  by_cases assigned : table.Assigns other
  · rw [if_pos (same.mpr assigned), if_pos assigned]
    by_cases hit : table.contents other.text = some object
    · obtain ⟨text, isFound⟩ := own other.text hit
      rw [if_pos hit, if_pos (by rw [isFound]; rfl), text, Function.update_self]
    · rw [if_neg hit]
      split
      · rename_i isSome
        obtain ⟨deleted, isFound⟩ := Option.isSome_iff_exists.mp isSome
        obtain rfl := found deleted isFound
        refine Function.update_of_ne (fun text => hit ?_) _ _
        rw [text, usernames.lookup_eq_some isFound]
      · rfl
  · rw [if_neg fun assigned' => assigned (same.mp assigned'), if_neg assigned]
    rfl

end UsernamesTable

/-! ## Stored names -/

namespace ChatServer

theorem storedName_eq (buffer : List UInt8) :
    storedName buffer = (CString.text buffer).set (maxUsernameLength - 1) 0 := by
  simp [storedName, CString.strncpy]

theorem text_storedName (buffer : List UInt8) :
    CString.text (storedName buffer) = (CString.text buffer).take (maxUsernameLength - 1) := by
  have nonzero := CString.zero_notMem_text buffer
  rw [storedName_eq]
  rcases Nat.lt_or_ge (maxUsernameLength - 1) (CString.text buffer).length with long | short
  · rw [List.set_eq_take_append_cons_drop, if_pos long]
    exact CString.text_append_zero (fun member => nonzero (List.mem_of_mem_take member)) _
  · rw [List.set_eq_of_length_le short, List.take_of_length_le short, CString.text_text]

theorem storedName_zeroFilled (buffer : List UInt8) :
    (StringBuffer.ofBlock (storedName buffer)).ZeroFilled murmurLen := by
  intro offset behind inside
  rw [StringBuffer.ofBlock_byteAt, storedName_eq]
  rw [StringBuffer.ofBlock_text, text_storedName] at behind
  rw [List.length_take] at behind
  simp only [maxUsernameLength, murmurLen] at *
  rcases Nat.lt_or_ge 19 (CString.text buffer).length with long | short
  · have cut : offset = 19 := by omega
    rw [cut, List.getD_eq_getElem?_getD, List.getElem?_set_self long]
    rfl
  · rw [List.set_eq_of_length_le short, List.getD_eq_getElem?_getD,
      List.getElem?_eq_none (by omega)]
    rfl

theorem text_storedName_length (buffer : List UInt8) :
    (CString.text (storedName buffer)).length ≤ maxUsernameLength - 1 := by
  rw [text_storedName]
  exact List.length_take_le _ _

/-- The copy of a stored name in the array of names by descriptor. -/
theorem relatedName_eq (buffer : List UInt8) :
    ∃ zeros, CString.strncpy [] (storedName buffer) maxUsernameLength =
      CString.text (storedName buffer) ++ List.replicate zeros 0 := by
  have short := text_storedName_length buffer
  refine ⟨maxUsernameLength - (CString.text (storedName buffer)).length, ?_⟩
  rw [CString.strncpy, List.take_of_length_le (by omega), List.drop_nil, List.append_nil]

theorem text_relatedName (buffer : List UInt8) :
    CString.text (CString.strncpy [] (storedName buffer) maxUsernameLength) =
      CString.text (storedName buffer) := by
  obtain ⟨zeros, block⟩ := relatedName_eq buffer
  rw [block, CString.text_append_zeros (CString.zero_notMem_text _)]

theorem relatedName_zeroFilled (buffer : List UInt8) :
    (StringBuffer.ofBlock
      (CString.strncpy [] (storedName buffer) maxUsernameLength)).ZeroFilled murmurLen := by
  obtain ⟨zeros, block⟩ := relatedName_eq buffer
  rw [block]
  exact StringBuffer.ofBlock_zeros_zeroFilled (CString.zero_notMem_text _) zeros murmurLen

/-- A message made of a NUL-free name of at most `MAX_USERNAME_LENGTH - 1` bytes and one byte that
is overwritten. -/
def plainMessage (bytes : List UInt8) : Bool :=
  decide (bytes ≠ [] ∧ 0 ∉ bytes.dropLast ∧ bytes.dropLast.length ≤ maxUsernameLength - 1)

/-- A receive buffer that holds a short name in zeroed memory. -/
def PlainBuffer (buffer : List UInt8) : Prop :=
  ∃ name, buffer = name ++ [0] ∧ 0 ∉ name ∧ name.length ≤ maxUsernameLength - 1

theorem plainMessage_buffer {bytes : List UInt8} (plain : plainMessage bytes = true) :
    PlainBuffer (bytes.set (bytes.length - 1) 0) := by
  obtain ⟨nonempty, nonzero, short⟩ := of_decide_eq_true plain
  refine ⟨bytes.dropLast, ?_, nonzero, short⟩
  obtain ⟨front, last, rfl⟩ := List.eq_nil_or_concat' bytes |>.resolve_left nonempty
  simp [List.set_append_right]

theorem PlainBuffer.text_storedName {buffer : List UInt8} (plain : PlainBuffer buffer) :
    CString.text (storedName buffer) = CString.text buffer := by
  obtain ⟨name, rfl, nonzero, short⟩ := plain
  rw [ChatServer.text_storedName]
  apply List.take_of_length_le
  rw [CString.text_append_zero nonzero []]
  exact short

theorem PlainBuffer.zeroFilled {buffer : List UInt8} (plain : PlainBuffer buffer) :
    (StringBuffer.ofBlock buffer).ZeroFilled murmurLen := by
  obtain ⟨name, rfl, nonzero, _⟩ := plain
  exact StringBuffer.ofBlock_zeros_zeroFilled nonzero 1 murmurLen

end ChatServer
end CmyMessage
