import Mathlib.Data.List.GetD
import Mathlib.Data.List.TakeWhile
import Mathlib.Data.List.TakeDrop

/-!
# NUL-terminated strings in byte blocks

A block of bytes starts with a C string: the bytes before its first NUL byte.  A `StringBuffer` is
the memory behind a character pointer that holds such a string, split into the string and the bytes
that follow its terminator.  String functions see the string only; code that reads a fixed number of
bytes sees a window that may reach past the terminator.
-/

namespace CString

/-- The C string a block of bytes starts with. -/
def text (block : List UInt8) : List UInt8 := block.takeWhile (· != 0)

theorem zero_notMem_text (block : List UInt8) : 0 ∉ text block := by
  intro member
  simpa using List.mem_takeWhile_imp member

theorem text_length_le (block : List UInt8) : (text block).length ≤ block.length :=
  (List.takeWhile_prefix _).length_le

theorem text_eq_self {block : List UInt8} (nonzero : 0 ∉ block) : text block = block := by
  apply List.takeWhile_eq_self_iff.mpr
  intro byte member
  simpa using fun zero : byte = 0 => nonzero (zero ▸ member)

@[simp]
theorem text_text (block : List UInt8) : text (text block) = text block :=
  text_eq_self (zero_notMem_text block)

theorem text_append_zero {string : List UInt8} (nonzero : 0 ∉ string) (rest : List UInt8) :
    text (string ++ 0 :: rest) = string := by
  induction string with
  | nil => rfl
  | cons byte string ih =>
      simp only [List.mem_cons, not_or] at nonzero
      simp only [text, List.cons_append, List.takeWhile_cons]
      rw [if_pos (by simpa using Ne.symm nonzero.1)]
      exact congrArg _ (ih nonzero.2)

theorem text_append_zeros {string : List UInt8} (nonzero : 0 ∉ string) (count : Nat) :
    text (string ++ List.replicate count 0) = string := by
  cases count with
  | zero => rw [List.replicate_zero, List.append_nil, text_eq_self nonzero]
  | succ count => exact text_append_zero nonzero _

/-- Behind a NUL byte a block may go on as it likes. -/
theorem text_append_of_mem {block : List UInt8} (terminated : 0 ∈ block) (rest : List UInt8) :
    text (block ++ rest) = text block := by
  obtain ⟨front, back, rfl, nonzero⟩ := List.eq_append_cons_of_mem terminated
  rw [List.append_assoc, List.cons_append, text_append_zero nonzero, text_append_zero nonzero]

/-- A NUL byte behind a block changes nothing. -/
theorem text_append_terminator (block rest : List UInt8) :
    text (block ++ 0 :: rest) = text block := by
  by_cases terminated : 0 ∈ block
  · exact text_append_of_mem terminated _
  · rw [text_append_zero terminated, text_eq_self terminated]

/-- Either a block is all string, or its string is followed by a NUL byte. -/
theorem text_cases (block : List UInt8) :
    text block = block ∨ ∃ rest, block = text block ++ 0 :: rest := by
  induction block with
  | nil => exact .inl rfl
  | cons byte block ih =>
      by_cases zero : byte = 0
      · exact .inr ⟨block, by simp [text, zero]⟩
      · have kept : text (byte :: block) = byte :: text block := by
          simp [text, zero]
        rcases ih with whole | ⟨rest, split⟩
        · exact .inl (by rw [kept, whole])
        · exact .inr ⟨rest, by rw [kept, List.cons_append, ← split]⟩

/-- Copy at most `count` bytes of a string and pad with NUL bytes up to `count`. -/
def strncpy (dest src : List UInt8) (count : Nat) : List UInt8 :=
  (text src).take count ++ List.replicate (count - ((text src).take count).length) 0 ++
    dest.drop count

/-- Overwrite the first bytes of a block with NUL bytes. -/
def clear (block : List UInt8) (count : Nat) : List UInt8 :=
  List.replicate count 0 ++ block.drop count

/-- Write a string and its terminator behind the string a block starts with. -/
def strcat (dest src : List UInt8) : List UInt8 :=
  text dest ++ text src ++ 0 :: dest.drop ((text dest).length + (text src).length + 1)

theorem text_clear (block : List UInt8) {count : Nat} (positive : 0 < count) :
    text (clear block count) = [] := by
  obtain ⟨rest, rfl⟩ := Nat.exists_eq_succ_of_ne_zero (Nat.ne_of_gt positive)
  exact text_append_zero List.not_mem_nil _

/-- Whatever was behind the string stays behind the terminator. -/
theorem text_strcat (dest src : List UInt8) : text (strcat dest src) = text dest ++ text src := by
  refine text_append_zero (fun member => ?_) _
  rcases List.mem_append.mp member with old | new
  · exact zero_notMem_text dest old
  · exact zero_notMem_text src new

end CString

/-- The memory behind a character pointer, up to the bytes anybody reads. -/
structure StringBuffer where
  /-- The C string at the pointer. -/
  text : List UInt8
  /-- The bytes after the terminator; every byte beyond them is zero. -/
  after : List UInt8
  /-- A C string has no NUL byte of its own. -/
  text_ne_zero : 0 ∉ text
  deriving DecidableEq

namespace StringBuffer

/-- The byte at an offset from the pointer. -/
def byteAt (buffer : StringBuffer) (offset : Nat) : UInt8 :=
  (buffer.text ++ 0 :: buffer.after).getD offset 0

/-- The string at the start of a block of bytes. -/
def ofBlock (block : List UInt8) : StringBuffer where
  text := CString.text block
  after := (block.drop (CString.text block).length).tail
  text_ne_zero := CString.zero_notMem_text block

/-- A string followed by zero bytes only. -/
def padded (string : List UInt8) (nonzero : 0 ∉ string) : StringBuffer := ⟨string, [], nonzero⟩

@[simp]
theorem padded_text (string : List UInt8) (nonzero : 0 ∉ string) :
    (padded string nonzero).text = string := rfl

@[simp]
theorem ofBlock_text (block : List UInt8) : (ofBlock block).text = CString.text block := rfl

theorem ofBlock_byteAt (block : List UInt8) (offset : Nat) :
    (ofBlock block).byteAt offset = block.getD offset 0 := by
  rcases CString.text_cases block with whole | ⟨rest, split⟩
  · have ended : (ofBlock block).after = [] := by simp [ofBlock, whole]
    rw [byteAt, ended, ofBlock_text, whole, List.getD_eq_getElem?_getD, List.getD_eq_getElem?_getD]
    by_cases inside : offset < block.length
    · rw [List.getElem?_append_left inside]
    · rw [List.getElem?_append_right (by omega), List.getElem?_eq_none (l := block) (by omega)]
      rcases offset - block.length with _ | more <;> simp
  · have following : (ofBlock block).after = rest := by
      change (block.drop (CString.text block).length).tail = rest
      conv_lhs => rw [split, CString.text_append_zero (CString.zero_notMem_text block)]
      simp
    rw [byteAt, following, ofBlock_text, ← split]

/-- Inside the string and at its terminator the bytes do not depend on what follows. -/
theorem byteAt_congr {left right : StringBuffer} (same : left.text = right.text) {offset : Nat}
    (inside : offset ≤ left.text.length) : left.byteAt offset = right.byteAt offset := by
  rw [byteAt, byteAt, ← same, List.getD_eq_getElem?_getD, List.getD_eq_getElem?_getD]
  rcases Nat.lt_or_eq_of_le inside with before | rfl
  · rw [List.getElem?_append_left before, List.getElem?_append_left before]
  · simp

theorem byteAt_of_lt (buffer : StringBuffer) {offset : Nat} (inside : offset < buffer.text.length) :
    buffer.byteAt offset = buffer.text[offset] := by
  rw [byteAt, List.getD_eq_getElem?_getD, List.getElem?_append_left inside,
    List.getElem?_eq_getElem inside, Option.getD_some]

theorem byteAt_ne_zero (buffer : StringBuffer) {offset : Nat}
    (inside : offset < buffer.text.length) : buffer.byteAt offset ≠ 0 := by
  rw [buffer.byteAt_of_lt inside]
  exact fun zero => buffer.text_ne_zero (zero ▸ List.getElem_mem inside)

@[simp]
theorem byteAt_length (buffer : StringBuffer) : buffer.byteAt buffer.text.length = 0 := by
  rw [byteAt, List.getD_eq_getElem?_getD, List.getElem?_append_right (Nat.le_refl _),
    Nat.sub_self, List.getElem?_cons_zero, Option.getD_some]

/-- The bytes up to the terminator determine the string. -/
theorem text_eq_of_byteAt_eq {left right : StringBuffer}
    (agree : ∀ offset, offset ≤ left.text.length → left.byteAt offset = right.byteAt offset) :
    left.text = right.text := by
  have notShorter : left.text.length ≤ right.text.length := by
    by_contra shorter
    apply left.byteAt_ne_zero (show right.text.length < left.text.length by omega)
    rw [agree _ (by omega), byteAt_length]
  have notLonger : right.text.length ≤ left.text.length := by
    by_contra longer
    apply right.byteAt_ne_zero (show left.text.length < right.text.length by omega)
    rw [← agree _ (Nat.le_refl _), byteAt_length]
  refine List.ext_getElem (by omega) fun offset inside inside' => ?_
  rw [← left.byteAt_of_lt inside, ← right.byteAt_of_lt inside']
  exact agree offset (by omega)

/-- The first `count` bytes hold nothing but zero behind the terminator. -/
def ZeroFilled (buffer : StringBuffer) (count : Nat) : Prop :=
  ∀ offset, buffer.text.length ≤ offset → offset < count → buffer.byteAt offset = 0

theorem padded_byteAt (string : List UInt8) (nonzero : 0 ∉ string) {offset : Nat}
    (behind : string.length ≤ offset) : (padded string nonzero).byteAt offset = 0 := by
  rw [byteAt, padded, List.getD_eq_getElem?_getD, List.getElem?_append_right behind]
  rcases offset - string.length with _ | more <;> simp

/-- In a zero-filled window the string alone decides every byte. -/
theorem ZeroFilled.byteAt_eq_getD {buffer : StringBuffer} {count : Nat}
    (filled : buffer.ZeroFilled count) {offset : Nat} (inside : offset < count) :
    buffer.byteAt offset = buffer.text.getD offset 0 := by
  rcases Nat.lt_or_ge offset buffer.text.length with before | behind
  · rw [buffer.byteAt_of_lt before, List.getD_eq_getElem _ _ before]
  · rw [filled offset behind inside, List.getD_eq_default _ _ behind]

theorem padded_zeroFilled (string : List UInt8) (nonzero : 0 ∉ string) (count : Nat) :
    (padded string nonzero).ZeroFilled count :=
  fun _ behind _ => padded_byteAt string nonzero behind

/-- Strings that agree when zeros are added to them are equal. -/
theorem text_eq_of_getD_eq {left right : StringBuffer}
    (agree : ∀ offset, left.text.getD offset 0 = right.text.getD offset 0) :
    left.text = right.text := by
  have same : (padded left.text left.text_ne_zero).text =
      (padded right.text right.text_ne_zero).text := by
    refine text_eq_of_byteAt_eq fun offset _ => ?_
    rw [(padded_zeroFilled _ _ _).byteAt_eq_getD (Nat.lt_succ_self offset),
      (padded_zeroFilled _ _ _).byteAt_eq_getD (Nat.lt_succ_self offset)]
    exact agree offset
  exact same

theorem ofBlock_zeros_zeroFilled {string : List UInt8} (nonzero : 0 ∉ string) (zeros count : Nat) :
    (ofBlock (string ++ List.replicate zeros 0)).ZeroFilled count := by
  intro offset behind _
  rw [ofBlock_text, CString.text_append_zeros nonzero] at behind
  rw [ofBlock_byteAt, List.getD_eq_getElem?_getD, List.getElem?_append_right behind,
    List.getElem?_replicate]
  split <;> rfl

end StringBuffer
