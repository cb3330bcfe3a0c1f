import CmyMessage.HashTable.Murmur

/-!
# Keys that the username hash keeps apart

The window of a key is five aligned blocks.  Keys whose windows differ inside one block only have
different hashes, whatever the bytes; a short username with zeros behind it fits the first block.
-/

namespace CmyMessage

/-- The windows of two keys differ in the aligned block `j` and nowhere else. -/
structure DifferInBlock (left right : StringBuffer) (j : Nat) : Prop where
  inside : j < murmurLen / 4
  agree : ∀ offset, offset < murmurLen → offset / 4 ≠ j →
    left.byteAt offset = right.byteAt offset
  differ : ∃ offset, offset / 4 = j ∧ left.byteAt offset ≠ right.byteAt offset

theorem DifferInBlock.hash_ne {left right : StringBuffer} {j : Nat}
    (apart : DifferInBlock left right j) : murmur3_32Hash left ≠ murmur3_32Hash right := by
  obtain ⟨offset, inBlock, differ⟩ := apart.differ
  refine murmur3_32Hash_ne apart.inside (fun i inside other => ?_) fun same => ?_
  · refine murmurBlock_congr fun offset above below => apart.agree offset ?_ ?_
    · simp only [murmurLen] at inside ⊢
      omega
    · omega
  · exact differ (byteAt_of_murmurBlock_eq same inBlock)

/-- Different strings with zeros behind them up to the end of the window, which differ inside one
block only. -/
theorem differInBlock_of_zeroFilled {left right : StringBuffer} {j : Nat}
    (inside : j < murmurLen / 4) (zeros : left.ZeroFilled murmurLen)
    (zeros' : right.ZeroFilled murmurLen)
    (agree : ∀ offset, offset / 4 ≠ j → left.text.getD offset 0 = right.text.getD offset 0)
    (distinct : left.text ≠ right.text) : DifferInBlock left right j := by
  constructor
  · exact inside
  · intro offset within other
    rw [zeros.byteAt_eq_getD within, zeros'.byteAt_eq_getD within]
    exact agree offset other
  · by_contra! same
    refine distinct (StringBuffer.text_eq_of_getD_eq fun offset => ?_)
    by_cases inBlock : offset / 4 = j
    · have within : offset < murmurLen := by
        simp only [murmurLen] at inside ⊢
        omega
      rw [← zeros.byteAt_eq_getD within, ← zeros'.byteAt_eq_getD within]
      exact same offset inBlock
    · exact agree offset inBlock

/-- Different strings of at most four bytes, with zeros behind them up to the end of the window. -/
theorem differInBlock_of_short {left right : StringBuffer} (zeros : left.ZeroFilled murmurLen)
    (zeros' : right.ZeroFilled murmurLen) (short : left.text.length ≤ 4)
    (short' : right.text.length ≤ 4) (distinct : left.text ≠ right.text) :
    DifferInBlock left right 0 := by
  refine differInBlock_of_zeroFilled (by decide) zeros zeros' (fun offset other => ?_) distinct
  rw [List.getD_eq_default _ _ (by omega), List.getD_eq_default _ _ (by omega)]

/-- Windows that differ in exactly one block have different hashes.  So two names of at most four
bytes with zeros behind them never collide, nor do two that differ inside one block only. -/
theorem murmur3_32Hash_separates (left right : StringBuffer) :
    ((∃ j, DifferInBlock left right j) → murmur3_32Hash left ≠ murmur3_32Hash right) ∧
    (left.ZeroFilled murmurLen → right.ZeroFilled murmurLen → left.text ≠ right.text →
      (left.text.length ≤ 4 → right.text.length ≤ 4 →
        murmur3_32Hash left ≠ murmur3_32Hash right) ∧
      ∀ j, j < murmurLen / 4 →
        (∀ offset, offset / 4 ≠ j → left.text.getD offset 0 = right.text.getD offset 0) →
        murmur3_32Hash left ≠ murmur3_32Hash right) := by
  constructor
  · intro differ
    obtain ⟨j, apart⟩ := differ
    exact apart.hash_ne
  · intro zeros zeros' distinct
    constructor
    · intro short short'
      exact (differInBlock_of_short zeros zeros' short short' distinct).hash_ne
    · intro j inside agree
      exact (differInBlock_of_zeroFilled inside zeros zeros' agree distinct).hash_ne

/-- The names "bob" and "bo" in zeroed memory. -/
theorem murmur3_32Hash_separates_bob :
    murmur3_32Hash (.padded [98, 111, 98] (by decide)) ≠
      murmur3_32Hash (.padded [98, 111] (by decide)) :=
  ((murmur3_32Hash_separates _ _).2 (StringBuffer.padded_zeroFilled _ _ _)
    (StringBuffer.padded_zeroFilled _ _ _) (by decide)).1 (by decide) (by decide)

end CmyMessage
