/-
The words that agree in their leading bits, and the mask that keeps these
bits.
-/
import Mathlib

namespace PrefixBlock

/-- The words of a width that have the leading bits of a base. -/
def block (width bits base : Nat) : Set Nat :=
  {word | word < 2 ^ width ∧
    word / 2 ^ (width - bits) = base / 2 ^ (width - bits)}

/-- The word of all ones, shifted by the bits that a mask drops. -/
def mask (width bits : Nat) : Nat :=
  (2 ^ width - 1) <<< (width - bits) % 2 ^ width

section

variable {width bits left right : Nat}

theorem mask_zero (width : Nat) : mask width 0 = 0 := by
  rw [mask, Nat.sub_zero, Nat.shiftLeft_eq, Nat.mul_mod_left]

/-- The mask rounds down to the first word of the block. -/
theorem and_mask {word : Nat} (hword : word < 2 ^ width) :
    word &&& mask width bits =
      word / 2 ^ (width - bits) * 2 ^ (width - bits) := by
  apply Nat.eq_of_testBit_eq
  intro index
  rw [mask, Nat.testBit_and, Nat.testBit_mod_two_pow, Nat.testBit_shiftLeft,
    Nat.testBit_two_pow_sub_one, Nat.testBit_mul_two_pow,
    Nat.testBit_div_two_pow]
  by_cases hlow : width - bits ≤ index
  · rw [Nat.sub_add_cancel hlow]
    by_cases hhigh : index < width
    · have hkept : index - (width - bits) < width := by omega
      simp [hlow, hhigh, hkept]
    · have hzero : word.testBit index = false := Nat.testBit_lt_two_pow
        (hword.trans_le (Nat.pow_le_pow_right (by decide) (by omega)))
      simp [hzero]
  · simp [hlow]

theorem and_mask_eq_iff (hleft : left < 2 ^ width)
    (hright : right < 2 ^ width) :
    left &&& mask width bits = right &&& mask width bits ↔
      left / 2 ^ (width - bits) = right / 2 ^ (width - bits) := by
  rw [and_mask hleft, and_mask hright]
  exact Nat.mul_left_inj (Nat.two_pow_pos _).ne'

/-- The block of a word ends within the width. -/
theorem block_end_le (hleft : left < 2 ^ width) :
    (left / 2 ^ (width - bits) + 1) * 2 ^ (width - bits) ≤ 2 ^ width := by
  have hsplit : 2 ^ width =
      2 ^ (width - (width - bits)) * 2 ^ (width - bits) := by
    rw [← Nat.pow_add, Nat.sub_add_cancel (Nat.sub_le _ _)]
  have hlt : left / 2 ^ (width - bits) < 2 ^ (width - (width - bits)) := by
    rw [Nat.div_lt_iff_lt_mul (Nat.two_pow_pos _), ← hsplit]
    exact hleft
  rw [hsplit]
  exact Nat.mul_le_mul_right _ hlt

/-- A block is an interval. -/
theorem block_eq_Ico (hleft : left < 2 ^ width) :
    block width bits left =
      Set.Ico (left / 2 ^ (width - bits) * 2 ^ (width - bits))
        ((left / 2 ^ (width - bits) + 1) * 2 ^ (width - bits)) := by
  have hend := @block_end_le width bits left hleft
  have hpos := Nat.two_pow_pos (width - bits)
  ext word
  rw [Set.mem_Ico, ← Nat.le_div_iff_mul_le hpos, ← Nat.div_lt_iff_lt_mul hpos]
  constructor
  · rintro ⟨-, hword⟩
    omega
  · rintro ⟨hfrom, hto⟩
    have hword := (Nat.div_lt_iff_lt_mul hpos).mp hto
    exact ⟨by omega, by omega⟩

/-- Blocks are equal when they keep as many bits, and the same. -/
theorem block_eq_iff {leftBits rightBits : Nat} (hleft : left < 2 ^ width)
    (hright : right < 2 ^ width) (hleftBits : leftBits ≤ width)
    (hrightBits : rightBits ≤ width) :
    block width leftBits left = block width rightBits right ↔
      leftBits = rightBits ∧
        left / 2 ^ (width - leftBits) = right / 2 ^ (width - leftBits) := by
  have hpos := Nat.two_pow_pos (width - leftBits)
  rw [block_eq_Ico hleft, block_eq_Ico hright, Set.Ico_eq_Ico_iff
    (Or.inl (Nat.mul_lt_mul_of_pos_right (Nat.lt_succ_self _) hpos))]
  constructor
  · rintro ⟨hstart, hend⟩
    rw [Nat.succ_mul, Nat.succ_mul, hstart, Nat.add_left_cancel_iff] at hend
    have hwidth := Nat.pow_right_injective (le_refl 2) hend
    have hbits : leftBits = rightBits := by omega
    rw [← hbits] at hstart
    exact ⟨hbits, Nat.eq_of_mul_eq_mul_right hpos hstart⟩
  · rintro ⟨rfl, hsame⟩
    rw [hsame]
    exact ⟨rfl, rfl⟩

end

end PrefixBlock
