import CmyMessage.Foundation.WordMixing
import CmyMessage.HashTable.Table
import Mathlib.Algebra.Group.Nat.Defs

/-!
# The username hash and its window

`murmur3_32_hash` mixes a fixed window of twenty bytes at the key, while keys are compared as
strings.  Each mixing step is injective, so the hash separates any two windows that differ in one
block; in particular it sees the bytes behind a terminator that lies inside the window.
-/

namespace CmyMessage

open WordMixing

/-- The number of bytes hashed, whatever the key. -/
def murmurLen : Nat := 20

/-- `blocks[i]`: four bytes of the key, least significant first. -/
def murmurBlock (key : StringBuffer) (i : Nat) : UInt32 :=
  UInt32.ofNat ((key.byteAt (4 * i)).toNat + 2 ^ 8 * (key.byteAt (4 * i + 1)).toNat +
    2 ^ 16 * (key.byteAt (4 * i + 2)).toNat + 2 ^ 24 * (key.byteAt (4 * i + 3)).toNat)

/-- The operations on one block before it enters the hash. -/
def murmurScramble (k : UInt32) : UInt32 := rotateLeft (k * 0xcc9e2d51) 15 * 0x1b873593

/-- Enter one scrambled block into the hash. -/
def murmurMix (hash k : UInt32) : UInt32 := rotateLeft (hash ^^^ k) 13 * 5 + 0xe6546b64

/-- The bytes behind the last full block, by `switch (len & 3)` with its fallthroughs. -/
def murmurTail (key : StringBuffer) (len : Nat) (hash : UInt32) : UInt32 :=
  let tail i := (key.byteAt (len / 4 * 4 + i)).toUInt32
  let k1 : UInt32 := if 3 ≤ len % 4 then tail 2 <<< 16 else 0
  let k1 := if 2 ≤ len % 4 then k1 ^^^ (tail 1 <<< 8) else k1
  if 1 ≤ len % 4 then hash ^^^ murmurScramble (k1 ^^^ tail 0) else hash

/-- The final mixing and adjustments. -/
def murmurFinish (hash : UInt32) : UInt32 :=
  xorShift (xorShift (xorShift hash 16 * 0x85ebca6b) 13 * 0xc2b2ae35) 16

/-- `murmur3_32_hash`. -/
def murmur3_32Hash (key : StringBuffer) : UInt32 :=
  let hash := (List.range (murmurLen / 4)).foldl
    (fun hash i => murmurMix hash (murmurScramble (murmurBlock key i))) 23
  murmurFinish (murmurTail key murmurLen hash ^^^ UInt32.ofNat murmurLen)

/-! ## Injectivity of the mixing -/

theorem murmurScramble_injective : Function.Injective murmurScramble := by
  have first := mul_injective 0xcc9e2d51 0xdee13bb1 (by decide)
  have second := mul_injective 0x1b873593 0x56ed309b (by decide)
  exact second.comp ((rotateLeft_injective 15 (by decide) (by decide)).comp first)

theorem murmurMix_injective_left (k : UInt32) :
    Function.Injective fun hash => murmurMix hash k := by
  have scaled := mul_injective 5 0xcccccccd (by decide)
  exact (add_injective _).comp (scaled.comp
    ((rotateLeft_injective 13 (by decide) (by decide)).comp (xor_injective k)))

theorem murmurMix_injective_right (hash : UInt32) : Function.Injective (murmurMix hash) := by
  intro left right equal
  have scaled := mul_injective 5 0xcccccccd (by decide)
  have mixed := rotateLeft_injective 13 (by decide) (by decide)
    (scaled (add_injective _ equal))
  have swapped : left ^^^ hash = right ^^^ hash := by
    rw [UInt32.xor_comm left, UInt32.xor_comm right]
    exact mixed
  exact xor_injective hash swapped

theorem murmurFinish_injective : Function.Injective murmurFinish := by
  have first := mul_injective 0x85ebca6b 0xa5cb9243 (by decide)
  have second := mul_injective 0xc2b2ae35 0x7ed1b41d (by decide)
  have half := xorShift_injective 16 (by decide) (by decide)
  have third := xorShift_injective 13 (by decide) (by decide)
  exact half.comp (second.comp (third.comp (first.comp half)))

/-- Twenty bytes are five full blocks, so the tail contributes nothing. -/
theorem murmurTail_murmurLen (key : StringBuffer) (hash : UInt32) :
    murmurTail key murmurLen hash = hash := rfl

theorem murmurBlock_congr {left right : StringBuffer} {i : Nat}
    (agree : ∀ offset, 4 * i ≤ offset → offset < 4 * i + 4 →
      left.byteAt offset = right.byteAt offset) : murmurBlock left i = murmurBlock right i := by
  simp only [murmurBlock]
  rw [agree (4 * i) (by omega) (by omega), agree (4 * i + 1) (by omega) (by omega),
    agree (4 * i + 2) (by omega) (by omega), agree (4 * i + 3) (by omega) (by omega)]

/-- A block determines its four bytes. -/
theorem byteAt_of_murmurBlock_eq {left right : StringBuffer} {i offset : Nat}
    (same : murmurBlock left i = murmurBlock right i) (inBlock : offset / 4 = i) :
    left.byteAt offset = right.byteAt offset := by
  have bounded (byte : UInt8) : byte.toNat < 256 := byte.toNat_lt
  have words := congrArg UInt32.toNat same
  simp only [murmurBlock, UInt32.toNat_ofNat'] at words
  have b₀ := bounded (left.byteAt (4 * i))
  have b₁ := bounded (left.byteAt (4 * i + 1))
  have b₂ := bounded (left.byteAt (4 * i + 2))
  have b₃ := bounded (left.byteAt (4 * i + 3))
  have c₀ := bounded (right.byteAt (4 * i))
  have c₁ := bounded (right.byteAt (4 * i + 1))
  have c₂ := bounded (right.byteAt (4 * i + 2))
  have c₃ := bounded (right.byteAt (4 * i + 3))
  have place : offset = 4 * i ∨ offset = 4 * i + 1 ∨ offset = 4 * i + 2 ∨ offset = 4 * i + 3 := by
    omega
  apply UInt8.toNat_inj.mp
  rcases place with rfl | rfl | rfl | rfl <;> omega

/-- The hash depends on the window only. -/
theorem murmur3_32Hash_congr {left right : StringBuffer}
    (agree : ∀ offset, offset < murmurLen → left.byteAt offset = right.byteAt offset) :
    murmur3_32Hash left = murmur3_32Hash right := by
  have blocks : ∀ i ∈ List.range (murmurLen / 4), murmurBlock left i = murmurBlock right i := by
    intro i member
    have inside : i < 5 := List.mem_range.mp member
    exact murmurBlock_congr fun offset _ below => agree offset (by
      simp only [murmurLen]
      omega)
  have folded : (List.range (murmurLen / 4)).foldl
      (fun hash i => murmurMix hash (murmurScramble (murmurBlock left i))) 23 =
      (List.range (murmurLen / 4)).foldl
        (fun hash i => murmurMix hash (murmurScramble (murmurBlock right i))) 23 :=
    List.foldl_ext _ _ _ fun hash i member => by rw [blocks i member]
  simp only [murmur3_32Hash, murmurTail_murmurLen]
  rw [folded]

/-- Blocks agreeing on both sides of a differing one keep the hashes apart. -/
theorem foldl_murmurMix_ne {left right : Nat → UInt32} {j : Nat} {front back : List Nat}
    (before : ∀ i ∈ front, left i = right i) (behind : ∀ i ∈ back, left i = right i)
    (differ : left j ≠ right j) (seed : UInt32) :
    (front ++ j :: back).foldl (fun hash i => murmurMix hash (murmurScramble (left i))) seed ≠
      (front ++ j :: back).foldl (fun hash i => murmurMix hash (murmurScramble (right i)))
        seed := by
  have agreeOn (is : List Nat) (agree : ∀ i ∈ is, left i = right i) (hash : UInt32) :
      is.foldl (fun hash i => murmurMix hash (murmurScramble (left i))) hash =
        is.foldl (fun hash i => murmurMix hash (murmurScramble (right i))) hash :=
    List.foldl_ext _ _ _ fun hash i member => by rw [agree i member]
  have injectiveOn (is : List Nat) :
      Function.Injective
        (is.foldl fun hash i => murmurMix hash (murmurScramble (right i))) := by
    induction is with
    | nil => exact fun _ _ equal => equal
    | cons i is ih => exact ih.comp (murmurMix_injective_left _)
  intro equal
  rw [List.foldl_append, List.foldl_append, List.foldl_cons, List.foldl_cons,
    agreeOn front before, agreeOn back behind] at equal
  exact differ (murmurScramble_injective (murmurMix_injective_right _ (injectiveOn back equal)))

/-- Windows that differ in exactly one block have different hashes. -/
theorem murmur3_32Hash_ne {left right : StringBuffer} {j : Nat} (inside : j < murmurLen / 4)
    (agree : ∀ i, i < murmurLen / 4 → i ≠ j → murmurBlock left i = murmurBlock right i)
    (differ : murmurBlock left j ≠ murmurBlock right j) :
    murmur3_32Hash left ≠ murmur3_32Hash right := by
  obtain ⟨front, back, split⟩ := List.append_of_mem (List.mem_range.mpr inside)
  have distinct := List.nodup_range (n := murmurLen / 4)
  rw [split, List.nodup_append', List.nodup_cons] at distinct
  obtain ⟨_, ⟨beyond, _⟩, apart⟩ := distinct
  have agreeOn (i : Nat) (member : i ∈ front ++ j :: back) (other : i ≠ j) :
      murmurBlock left i = murmurBlock right i :=
    agree i (List.mem_range.mp (split.symm ▸ member)) other
  have before (i : Nat) (member : i ∈ front) : murmurBlock left i = murmurBlock right i := by
    refine agreeOn i (List.mem_append_left _ member) fun same => ?_
    exact apart (same ▸ member) List.mem_cons_self
  have behind (i : Nat) (member : i ∈ back) : murmurBlock left i = murmurBlock right i := by
    refine agreeOn i (List.mem_append_right _ (List.mem_cons_of_mem _ member)) fun same => ?_
    exact beyond (same ▸ member)
  intro equal
  simp only [murmur3_32Hash, murmurTail_murmurLen, split] at equal
  exact foldl_murmurMix_ne before behind differ 23
    (xor_injective _ (murmurFinish_injective equal))

/-! ## Keys that compare equal -/

/-- A key with the same string whose last byte in the window is chosen. -/
def withLastByte (key : StringBuffer) (byte : UInt8) : StringBuffer :=
  { key with after := List.replicate (murmurLen - 2 - key.text.length) 0 ++ [byte] }

/-- The window holds some fixed bytes followed by the chosen one. -/
theorem withLastByte_window {key : StringBuffer} (short : key.text.length + 1 < murmurLen) :
    ∃ front : List UInt8, front.length = murmurLen - 1 ∧
      ∀ byte offset, (withLastByte key byte).byteAt offset = (front ++ [byte]).getD offset 0 := by
  refine ⟨key.text ++ 0 :: List.replicate (murmurLen - 2 - key.text.length) 0, ?_, ?_⟩
  · simp only [murmurLen] at short ⊢
    simp only [List.length_append, List.length_cons, List.length_replicate]
    omega
  · intro byte offset
    simp [StringBuffer.byteAt, withLastByte]

theorem withLastByte_byteAt {key : StringBuffer} (short : key.text.length + 1 < murmurLen)
    (byte : UInt8) : (withLastByte key byte).byteAt (murmurLen - 1) = byte := by
  obtain ⟨front, length, window⟩ := withLastByte_window short
  rw [window, List.getD_eq_getElem?_getD, ← length, List.getElem?_concat_length]
  rfl

theorem withLastByte_byteAt_of_ne {key : StringBuffer} (short : key.text.length + 1 < murmurLen)
    {offset : Nat} (other : offset ≠ murmurLen - 1) (left right : UInt8) :
    (withLastByte key left).byteAt offset = (withLastByte key right).byteAt offset := by
  obtain ⟨front, length, window⟩ := withLastByte_window short
  rw [window, window, List.getD_eq_getElem?_getD, List.getD_eq_getElem?_getD]
  rcases Nat.lt_or_gt_of_ne other with inside | beyond
  · rw [List.getElem?_append_left (by omega), List.getElem?_append_left (by omega)]
  · rw [List.getElem?_eq_none, List.getElem?_eq_none] <;>
      simp only [List.length_append, List.length_singleton] <;> omega

/-- Behind a short string every choice of the last byte in the window gives another hash. -/
theorem murmur3_32Hash_withLastByte_ne (key : StringBuffer)
    (short : key.text.length + 1 < murmurLen) {left right : UInt8} (differ : left ≠ right) :
    murmur3_32Hash (withLastByte key left) ≠ murmur3_32Hash (withLastByte key right) := by
  refine murmur3_32Hash_ne (j := 4) (by decide) (fun i _ other => ?_) fun same => ?_
  · exact murmurBlock_congr fun offset above below =>
      withLastByte_byteAt_of_ne short (by simp only [murmurLen]; omega) left right
  · have last := byteAt_of_murmurBlock_eq same (show (murmurLen - 1) / 4 = 4 by decide)
    exact differ ((withLastByte_byteAt short left).symm.trans
      (last.trans (withLastByte_byteAt short right)))

/-- A string that fills the window up to its terminator fixes the hash. -/
theorem murmur3_32Hash_of_text_eq {left right : StringBuffer} (same : left.text = right.text)
    (fills : murmurLen ≤ left.text.length + 1) : murmur3_32Hash left = murmur3_32Hash right :=
  murmur3_32Hash_congr fun _ inside => StringBuffer.byteAt_congr same (by omega)

/-- One residue modulo the largest table size leaves at most two hashes. -/
theorem mod_largest_size_collides {first second third : UInt32} (apart : first ≠ second)
    (apart' : first ≠ third) (apart'' : second ≠ third) :
    first % 0xffffffff ≠ third % 0xffffffff ∨ second % 0xffffffff ≠ third % 0xffffffff := by
  simp only [ne_eq, ← UInt32.toNat_inj, UInt32.toNat_mod,
    show (0xffffffff : UInt32).toNat = 0xffffffff from rfl] at *
  have first_lt := first.toNat_lt
  have second_lt := second.toNat_lt
  have third_lt := third.toNat_lt
  omega

/-- Keys that compare equal select one bucket exactly when the string fills the hashed window up
to its terminator; a shorter string lets the bytes behind it into the hash. -/
theorem murmur3_32Hash_respects_strcmp_iff {α : Type*} (key : StringBuffer) :
    ((∀ other : StringBuffer, other.text = key.text →
        murmur3_32Hash other = murmur3_32Hash key) ↔ murmurLen ≤ key.text.length + 1) ∧
    ((∀ size : UInt32, size ≠ 0 → ∀ other : StringBuffer, other.text = key.text →
        hashTableCalcIndexWithHash (hashTableCreate size murmur3_32Hash : HashTable α) other =
          hashTableCalcIndexWithHash (hashTableCreate size murmur3_32Hash : HashTable α) key) ↔
      murmurLen ≤ key.text.length + 1) := by
  refine ⟨⟨fun congruent => ?_, fun fills other same => ?_⟩,
    ⟨fun congruent => ?_, fun fills size positive other same => ?_⟩⟩
  · by_contra short
    apply murmur3_32Hash_withLastByte_ne key (by omega) (show (0 : UInt8) ≠ 1 by decide)
    rw [congruent (withLastByte key 0) rfl, congruent (withLastByte key 1) rfl]
  · exact (murmur3_32Hash_of_text_eq same.symm fills).symm
  · by_contra short
    have apart {left right : UInt8} (differ : left ≠ right) :=
      murmur3_32Hash_withLastByte_ne key (by omega) differ
    have residue (byte : UInt8) : murmur3_32Hash (withLastByte key byte) % 0xffffffff =
        murmur3_32Hash key % 0xffffffff :=
      UInt32.toNat_inj.mp (congruent 0xffffffff (by decide) (withLastByte key byte) rfl)
    rcases mod_largest_size_collides (apart (show (0 : UInt8) ≠ 1 by decide))
      (apart (show (0 : UInt8) ≠ 2 by decide)) (apart (show (1 : UInt8) ≠ 2 by decide)) with
      differ | differ
    · exact differ ((residue 0).trans (residue 2).symm)
    · exact differ ((residue 1).trans (residue 2).symm)
  · simp only [hashTableCalcIndexWithHash, hashTableCreate]
    rw [murmur3_32Hash_of_text_eq same.symm fills]

/-- The name "bob" in zeroed memory is inserted, its copy is followed by an old byte of the heap,
and the table of the service no longer finds the entry under its own stored key. -/
theorem murmur3_32Hash_misses_stored_copy :
    let bob : StringBuffer := StringBuffer.padded [98, 111, 98] (by decide)
    let copy := strdup bob [255]
    let table := (hashTableInsert (hashTableCreate 1024 murmur3_32Hash) [255] (some bob)
      (some ())).2
    copy.text = bob.text ∧ table.entries.map Entry.key = [copy] ∧
      murmur3_32Hash copy ≠ murmur3_32Hash bob ∧
      hashTableCalcIndexWithHash table copy ≠ hashTableCalcIndexWithHash table bob ∧
      hashTableLookup table (some bob) = some () ∧ hashTableLookup table (some copy) = none := by
  decide +kernel

end CmyMessage
