import CodeQuality.Text.Utf8
import Mathlib.Data.List.Basic

namespace CodeQuality

open List

namespace Text

/-!
Bytes of a text.

A character takes one byte in ASCII and up to four beyond, and what reads the bytes finds
the character again whatever follows it.  So the bytes of a text are read as this text,
and so is every part of them that begins and ends between two characters.
-/

/-- The bytes of a text. -/
def encoded (text : List Char) : List UInt8 := text.flatMap String.utf8EncodeChar

theorem encoded_nil : encoded [] = [] := rfl

theorem encoded_cons (c : Char) (rest : List Char) :
    encoded (c :: rest) = String.utf8EncodeChar c ++ encoded rest := flatMap_cons

theorem encoded_append (text more : List Char) :
    encoded (text ++ more) = encoded text ++ encoded more := flatMap_append

/-! ## Reading a character -/

theorem toNat_ofNat {n : Nat} (small : n < 256) : (UInt8.ofNat n).toNat = n := by
  rw [UInt8.toNat_ofNat']
  exact Nat.mod_eq_of_lt small

/-- A byte that continues a character, with its value and its low bits. -/
theorem continuation_ofNat (n : Nat) :
    isContinuation (UInt8.ofNat (n % 64 + 128)) = true ∧
      lowBits (UInt8.ofNat (n % 64 + 128)) = n % 64 ∧
      (UInt8.ofNat (n % 64 + 128)).toNat = n % 64 + 128 := by
  have value : (UInt8.ofNat (n % 64 + 128)).toNat = n % 64 + 128 := toNat_ofNat (by omega)
  refine ⟨?_, ?_, value⟩
  · rw [isContinuation, Bool.and_eq_true, decide_eq_true_eq, decide_eq_true_eq,
      UInt8.le_iff_toNat_le, UInt8.lt_iff_toNat_lt, value]
    exact ⟨Nat.le_add_left 128 _, show n % 64 + 128 < 192 by omega⟩
  · rw [lowBits, value]
    omega

theorem mayFollow_of_bounds {lead second : UInt8} (more : isContinuation second = true)
    (shortest : lead.toNat = 0xe0 → 0xa0 ≤ second.toNat)
    (noSurrogate : lead.toNat = 0xed → second.toNat < 0xa0)
    (shortestLong : lead.toNat = 0xf0 → 0x90 ≤ second.toNat)
    (lastPlane : lead.toNat = 0xf4 → second.toNat < 0x90) : mayFollow lead second = true := by
  rw [mayFollow, more, Bool.true_and]
  simp only [← UInt8.toNat_inj, UInt8.le_iff_toNat_le, UInt8.lt_iff_toNat_lt, UInt8.reduceToNat]
  split
  next same => exact decide_eq_true (shortest same)
  next =>
    split
    next same => exact decide_eq_true (noSurrogate same)
    next =>
      split
      next same => exact decide_eq_true (shortestLong same)
      next =>
        split
        next same => exact decide_eq_true (lastPlane same)
        next => rfl

section

variable {point : Nat} (rest : List UInt8)

theorem decodeStep_one (high : point ≤ 127) :
    decodeStep (UInt8.ofNat point) rest = .char (Char.ofNat point) 1 := by
  have lead : (UInt8.ofNat point).toNat = point := toNat_ofNat (by omega)
  simp only [decodeStep, UInt8.lt_iff_toNat_lt, UInt8.reduceToNat, lead]
  rw [if_pos (by omega)]

theorem decodeStep_two (low : 127 < point) (high : point ≤ 2047) :
    decodeStep (UInt8.ofNat (point / 64 % 32 + 192)) (UInt8.ofNat (point % 64 + 128) :: rest) =
      .char (Char.ofNat point) 2 := by
  have lead : (UInt8.ofNat (point / 64 % 32 + 192)).toNat = point / 64 % 32 + 192 :=
    toNat_ofNat (by omega)
  rcases continuation_ofNat point with ⟨more, bits, -⟩
  have value : (point / 64 % 32 + 192) % 32 * 64 + point % 64 = point := by omega
  simp only [decodeStep, UInt8.lt_iff_toNat_lt, UInt8.reduceToNat, lead, more, bits, value]
  rw [if_neg (by omega), if_neg (by omega), if_pos (by omega)]
  rfl

/-- Neither an overlong form nor a surrogate is in the way. -/
theorem decodeStep_three (low : 2047 < point) (high : point ≤ 65535)
    (valid : point < 0xd800 ∨ 0xdfff < point) :
    decodeStep (UInt8.ofNat (point / 4096 % 16 + 224))
        (UInt8.ofNat (point / 64 % 64 + 128) :: UInt8.ofNat (point % 64 + 128) :: rest) =
      .char (Char.ofNat point) 3 := by
  have lead : (UInt8.ofNat (point / 4096 % 16 + 224)).toNat = point / 4096 % 16 + 224 :=
    toNat_ofNat (by omega)
  rcases continuation_ofNat (point / 64) with ⟨middle, middleBits, second⟩
  rcases continuation_ofNat point with ⟨last, lastBits, -⟩
  have follows : mayFollow (UInt8.ofNat (point / 4096 % 16 + 224))
      (UInt8.ofNat (point / 64 % 64 + 128)) = true :=
    mayFollow_of_bounds middle (by omega) (by omega) (by omega) (by omega)
  have value : (point / 4096 % 16 + 224) % 16 * 4096 + point / 64 % 64 * 64 + point % 64 =
      point := by omega
  simp only [decodeStep, UInt8.lt_iff_toNat_lt, UInt8.reduceToNat, lead, follows, middleBits, last,
    lastBits, value]
  rw [if_neg (by omega), if_neg (by omega), if_neg (by omega), if_pos (by omega)]
  rfl

/-- Neither an overlong form nor the last plane is in the way. -/
theorem decodeStep_four (low : 65535 < point) (high : point < 0x110000) :
    decodeStep (UInt8.ofNat (point / 262144 % 8 + 240))
        (UInt8.ofNat (point / 4096 % 64 + 128) :: UInt8.ofNat (point / 64 % 64 + 128) ::
          UInt8.ofNat (point % 64 + 128) :: rest) = .char (Char.ofNat point) 4 := by
  have lead : (UInt8.ofNat (point / 262144 % 8 + 240)).toNat = point / 262144 % 8 + 240 :=
    toNat_ofNat (by omega)
  rcases continuation_ofNat (point / 4096) with ⟨front, frontBits, second⟩
  rcases continuation_ofNat (point / 64) with ⟨middle, middleBits, -⟩
  rcases continuation_ofNat point with ⟨last, lastBits, -⟩
  have follows : mayFollow (UInt8.ofNat (point / 262144 % 8 + 240))
      (UInt8.ofNat (point / 4096 % 64 + 128)) = true :=
    mayFollow_of_bounds front (by omega) (by omega) (by omega) (by omega)
  have value : (point / 262144 % 8 + 240) % 8 * 262144 + point / 4096 % 64 * 4096 +
      point / 64 % 64 * 64 + point % 64 = point := by omega
  simp only [decodeStep, UInt8.lt_iff_toNat_lt, UInt8.reduceToNat, lead, follows, frontBits, middle,
    middleBits, last, lastBits, value]
  rw [if_neg (by omega), if_neg (by omega), if_neg (by omega), if_neg (by omega),
    if_pos (by omega)]
  rfl

end

/-- The first step of reading the bytes of a character gives this character, whatever follows. -/
theorem decodeStep_utf8EncodeChar (c : Char) :
    ∃ lead tail, String.utf8EncodeChar c = lead :: tail ∧
      ∀ rest, decodeStep lead (tail ++ rest) = .char c (tail.length + 1) := by
  have valid : c.val.toNat < 0xd800 ∨ 0xdfff < c.val.toNat ∧ c.val.toNat < 0x110000 := c.valid
  suffices spelled : ∃ lead tail, String.utf8EncodeChar c = lead :: tail ∧
      ∀ rest, decodeStep lead (tail ++ rest) = .char (Char.ofNat c.val.toNat) (tail.length + 1) by
    have again : Char.ofNat c.val.toNat = c := Char.ofNat_toNat c
    rwa [again] at spelled
  unfold String.utf8EncodeChar
  by_cases one : c.val.toNat ≤ 127
  · simp only [if_pos one]
    exact ⟨_, _, rfl, fun rest => decodeStep_one rest one⟩
  by_cases two : c.val.toNat ≤ 2047
  · simp only [if_neg one, if_pos two]
    exact ⟨_, _, rfl, fun rest => decodeStep_two rest (by omega) two⟩
  by_cases three : c.val.toNat ≤ 65535
  · simp only [if_neg one, if_neg two, if_pos three]
    exact ⟨_, _, rfl, fun rest => decodeStep_three rest (by omega) three (by omega)⟩
  · simp only [if_neg one, if_neg two, if_neg three]
    exact ⟨_, _, rfl, fun rest => decodeStep_four rest (by omega) (by omega)⟩

/-! ## Reading a text -/

theorem decodeStrictFrom_encoded (text : List Char) {bound : Nat}
    (enough : (encoded text).length ≤ bound) (offset : Nat) (done : List Char) :
    decodeStrictFrom bound offset done (encoded text) = .ok (done.reverse ++ text) := by
  induction text generalizing bound offset done with
  | nil =>
      rw [encoded_nil, append_nil]
      cases bound with
      | zero => rfl
      | succ bound => rfl
  | cons c rest ih =>
      rcases decodeStep_utf8EncodeChar c with ⟨lead, tail, bytes, step⟩
      rw [encoded_cons, bytes, cons_append] at enough ⊢
      cases bound with
      | zero => cases enough
      | succ bound =>
          have left : (encoded rest).length ≤ bound := by
            rw [length_cons, length_append] at enough
            omega
          rw [decodeStrictFrom, step]
          simp only [Nat.add_sub_cancel, drop_left, ih left, reverse_cons,
            append_assoc, singleton_append]

/-- The bytes of a text are read as this text. -/
theorem decodeStrict_encoded (text : List Char) : decodeStrict (encoded text) = .ok text := by
  rw [decodeStrict, decodeStrictFrom_encoded text (Nat.le_refl _)]
  rfl

/-! ## Counting bytes -/

theorem length_encoded_cons (c : Char) (rest : List Char) :
    (encoded (c :: rest)).length = c.utf8Size + (encoded rest).length := by
  rw [encoded_cons, length_append, String.length_utf8EncodeChar]

theorem utf8Size_eq_one {c : Char} (ascii : c.toNat < 128) : c.utf8Size = 1 := by
  rw [Char.utf8Size_eq_one_iff, UInt32.le_iff_toNat_le]
  exact Nat.le_of_lt_succ ascii

theorem one_lt_utf8Size {c : Char} (wide : ¬ c.toNat < 128) : 1 < c.utf8Size := by
  have positive := c.utf8Size_pos
  have other : c.utf8Size ≠ 1 := by
    rw [Ne, Char.utf8Size_eq_one_iff, UInt32.le_iff_toNat_le]
    exact fun low => wide (Nat.lt_succ_of_le low)
  omega

theorem length_le_encoded (text : List Char) : text.length ≤ (encoded text).length := by
  induction text with
  | nil => exact Nat.le_refl 0
  | cons c rest ih =>
      have positive := c.utf8Size_pos
      rw [length_encoded_cons, length_cons]
      omega

/-- In ASCII, bytes are counted as characters are. -/
theorem length_encoded_ascii {text : List Char} (ascii : ∀ c ∈ text, c.toNat < 128) :
    (encoded text).length = text.length := by
  induction text with
  | nil => rfl
  | cons c rest ih =>
      rw [forall_mem_cons] at ascii
      rw [length_encoded_cons, utf8Size_eq_one ascii.1, ih ascii.2, length_cons, Nat.add_comm]

/-- The bytes of a character beyond ASCII are none of the bytes of ASCII. -/
theorem high_of_mem_utf8EncodeChar {c : Char} (wide : ¬ c.toNat < 128) {byte : UInt8}
    (member : byte ∈ String.utf8EncodeChar c) : 128 ≤ byte.toNat := by
  have high : ∀ n, 128 ≤ n → n < 256 → 128 ≤ (UInt8.ofNat n).toNat := by
    intro n low small
    rwa [toNat_ofNat small]
  have one : ¬ c.val.toNat ≤ 127 := fun low => wide (Nat.lt_succ_of_le low)
  simp only [String.utf8EncodeChar, if_neg one] at member
  split at member
  · rcases mem_pair.mp member with rfl | rfl <;> exact high _ (by omega) (by omega)
  · split at member
    · simp only [mem_cons, not_mem_nil, or_false] at member
      rcases member with rfl | rfl | rfl <;> exact high _ (by omega) (by omega)
    · simp only [mem_cons, not_mem_nil, or_false] at member
      rcases member with rfl | rfl | rfl | rfl <;> exact high _ (by omega) (by omega)

/-- Only a line feed has the byte of a line feed. -/
theorem count_utf8EncodeChar_newline (c : Char) :
    (String.utf8EncodeChar c).count 10 = [c].count '\n' := by
  by_cases ascii : c.toNat < 128
  · have single := String.utf8EncodeChar_eq_singleton (utf8Size_eq_one ascii)
    have byte : c.val.toUInt8.toNat = c.toNat := by
      rw [UInt32.toNat_toUInt8]
      exact Nat.mod_eq_of_lt (Nat.lt_trans ascii (by decide))
    have same : c.val.toUInt8 = 10 ↔ c = '\n' := by
      rw [← UInt8.toNat_inj, byte, ← Char.toNat_inj]
      exact Iff.rfl
    rw [single, count_singleton, count_singleton]
    simp only [beq_iff_eq, same]
  · have absent : (10 : UInt8) ∉ String.utf8EncodeChar c := fun member =>
      absurd (high_of_mem_utf8EncodeChar ascii member) (by decide)
    have other : '\n' ∉ [c] := by
      rw [mem_singleton]
      rintro rfl
      exact ascii (by decide)
    rw [count_eq_zero.mpr absent, count_eq_zero.mpr other]

theorem count_encoded_newline (text : List Char) : (encoded text).count 10 = text.count '\n' := by
  induction text with
  | nil => rfl
  | cons c rest ih =>
      rw [encoded_cons, count_append, count_utf8EncodeChar_newline, ih, ← count_append,
        singleton_append]

end Text
end CodeQuality
