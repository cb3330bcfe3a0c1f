import CmyMessage.Foundation.CString

/-!
# Blocks of memory with a size

A block is as many bytes as were allocated for it.  A write names the index of its first byte, which
may be negative, and fails if any byte of it falls outside the block; a string is read only if its
terminator is inside.
-/

/-- A block of memory. -/
@[ext]
structure Block (size : Nat) where
  /-- The content of the block. -/
  bytes : List UInt8
  /-- As many bytes as were allocated. -/
  length_bytes : bytes.length = size
  deriving DecidableEq

namespace Block

variable {size : Nat}

/-- A block of NUL bytes. -/
def zeroed (size : Nat) : Block size := ⟨List.replicate size 0, List.length_replicate⟩

theorem length_overwrite {block : List UInt8} {index : Nat} {bytes : List UInt8}
    (inside : index + bytes.length ≤ block.length) :
    (block.take index ++ bytes ++ block.drop (index + bytes.length)).length = block.length := by
  rw [List.length_append, List.length_append, List.length_take, List.length_drop]
  omega

/-- Store bytes from an index on. -/
def write (block : Block size) (index : Int) (bytes : List UInt8) : Option (Block size) :=
  if inside : 0 ≤ index ∧ index + bytes.length ≤ size then
    some {
      bytes := block.bytes.take index.toNat ++ bytes ++
        block.bytes.drop (index.toNat + bytes.length)
      length_bytes := by
        rw [length_overwrite (by rw [block.length_bytes]; omega), block.length_bytes] }
  else
    none

/-- Store a string and its terminator from an index on. -/
def writeString (block : Block size) (index : Int) (string : List UInt8) : Option (Block size) :=
  block.write index (string ++ [0])

/-- The string the block starts with, if it ends in the block. -/
def readString (block : Block size) : Option (List UInt8) :=
  if 0 ∈ block.bytes then some (CString.text block.bytes) else none

theorem write_isSome_iff (block : Block size) (index : Int) (bytes : List UInt8) :
    (block.write index bytes).isSome ↔ 0 ≤ index ∧ index + bytes.length ≤ size := by
  rw [write]
  split
  · exact iff_of_true rfl ‹_›
  · exact iff_of_false Bool.false_ne_true ‹_›

theorem writeString_isSome_iff (block : Block size) (index : Int) (string : List UInt8) :
    (block.writeString index string).isSome ↔ 0 ≤ index ∧ index + string.length + 1 ≤ size := by
  rw [writeString, write_isSome_iff, List.length_append, List.length_singleton]
  omega

/-- What a write leaves in the block. -/
theorem bytes_of_write {block after : Block size} (index : Nat) {bytes : List UInt8}
    (written : block.write index bytes = some after) :
    after.bytes =
      block.bytes.take index ++ bytes ++ block.bytes.drop (index + bytes.length) := by
  rw [write] at written
  split at written
  · cases written
    rfl
  · cases written

/-- A write behind some bytes of a block leaves them in front. -/
theorem write_append {block : Block size} {front old rest bytes : List UInt8}
    (split : block.bytes = front ++ old ++ rest) (same : old.length = bytes.length) :
    ∃ after, block.write front.length bytes = some after ∧
      after.bytes = front ++ bytes ++ rest := by
  have total := block.length_bytes
  rw [split, List.length_append, List.length_append] at total
  obtain ⟨after, written⟩ := Option.isSome_iff_exists.mp
    ((block.write_isSome_iff front.length bytes).mpr (by omega))
  refine ⟨after, written, ?_⟩
  rw [bytes_of_write _ written, split, ← same, ← List.length_append, List.drop_left,
    List.append_assoc front old, List.take_left]

/-- A string is read from a block that starts with it and its terminator. -/
theorem readString_of_prefix {block : Block size} {string rest : List UInt8}
    (nonzero : 0 ∉ string) (starts : block.bytes = string ++ 0 :: rest) :
    block.readString = some string := by
  rw [readString, if_pos (by simp [starts]), starts, CString.text_append_zero nonzero]

/-- A string that is read ends in front of a terminator. -/
theorem readString_eq_some {block : Block size} {string : List UInt8}
    (read : block.readString = some string) :
    0 ∉ string ∧ ∃ rest, block.bytes = string ++ 0 :: rest := by
  rw [readString] at read
  split at read
  · rename_i terminated
    cases read
    refine ⟨CString.zero_notMem_text _, (CString.text_cases block.bytes).resolve_left ?_⟩
    intro whole
    exact CString.zero_notMem_text block.bytes (whole.symm ▸ terminated)
  · cases read

/-- A string that is read fits the block together with its terminator. -/
theorem length_of_readString {block : Block size} {string : List UInt8}
    (read : block.readString = some string) : string.length + 1 ≤ size := by
  obtain ⟨-, rest, starts⟩ := readString_eq_some read
  have total := block.length_bytes
  rw [starts, List.length_append, List.length_cons] at total
  omega

/-- A string written at the start is read back. -/
theorem readString_of_writeString {block after : Block size} {string : List UInt8}
    (nonzero : 0 ∉ string) (written : block.writeString 0 string = some after) :
    after.readString = some string := by
  have bytes := bytes_of_write 0 written
  rw [List.take_zero, List.nil_append, List.append_assoc] at bytes
  exact readString_of_prefix nonzero bytes

/-- A string written without its terminator is one exactly if a zero byte is behind it. -/
theorem readString_write_iff (block : Block size) {string : List UInt8} (nonzero : 0 ∉ string) :
    (block.write 0 string).bind readString = some string ↔
      string.length < size ∧ block.bytes[string.length]? = some 0 := by
  constructor
  · intro copied
    obtain ⟨copy, written, read⟩ := Option.bind_eq_some_iff.mp copied
    have bytes := bytes_of_write 0 written
    obtain ⟨-, rest, starts⟩ := readString_eq_some read
    rw [starts, List.take_zero, List.nil_append, Nat.zero_add] at bytes
    have behind : block.bytes.drop string.length = 0 :: rest :=
      (List.append_cancel_left bytes).symm
    refine ⟨length_of_readString read, ?_⟩
    rw [← Nat.add_zero string.length, ← List.getElem?_drop, behind, List.getElem?_cons_zero]
  · intro ready
    obtain ⟨short, zero⟩ := ready
    have fits : 0 ≤ (0 : Int) ∧ (0 : Int) + string.length ≤ size := by omega
    obtain ⟨copy, written⟩ := Option.isSome_iff_exists.mp
      ((block.write_isSome_iff 0 string).mpr fits)
    have bytes := bytes_of_write 0 written
    rw [List.take_zero, List.nil_append, Nat.zero_add] at bytes
    have behind : block.bytes.drop string.length =
        0 :: block.bytes.drop (string.length + 1) := by
      obtain ⟨inside, here⟩ := List.getElem?_eq_some_iff.mp zero
      rw [List.drop_eq_getElem_cons inside, here]
    rw [behind] at bytes
    rw [written, Option.bind_some]
    exact readString_of_prefix nonzero bytes

/-- A string written behind the string of a block, over its terminator, is appended to it. -/
theorem readString_of_append {block after : Block size} {string more : List UInt8}
    (read : block.readString = some string) (nonzero : 0 ∉ more)
    (written : block.writeString string.length more = some after) :
    after.readString = some (string ++ more) := by
  obtain ⟨nonzero', rest, starts⟩ := readString_eq_some read
  have bytes := bytes_of_write _ written
  rw [starts, List.take_left, ← List.append_assoc, List.append_assoc] at bytes
  refine readString_of_prefix (fun member => ?_) bytes
  rcases List.mem_append.mp member with old | new
  · exact nonzero' old
  · exact nonzero new

end Block
