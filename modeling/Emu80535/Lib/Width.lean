import Mathlib.Algebra.Group.Int.Defs
import Mathlib.Algebra.Group.Nat.Defs
import Mathlib.Data.Int.Basic
import Emu80535.Lib.Bits

/-! The numbers that the low bits of a word denote, signed or not. -/

namespace Width

variable {w n : Nat}

/-- The mask of the low bits. -/
def mask (w n : Nat) : BitVec w := (1#w <<< n) - 1#w

/-- The number whose low bits are set. -/
theorem mask_toNat (inside : n < w) : (mask w n).toNat = 2 ^ n - 1 := by
  have small : 2 ^ n < 2 ^ w := Nat.pow_lt_pow_right (by decide) inside
  have one : 1 % 2 ^ w = 1 := Nat.mod_eq_of_lt (Nat.one_lt_two_pow (by omega))
  have positive : 0 < 2 ^ n := Nat.two_pow_pos n
  rw [mask, BitVec.toNat_sub, BitVec.toNat_shiftLeft, BitVec.toNat_ofNat, one,
    Nat.shiftLeft_eq, Nat.one_mul, Nat.mod_eq_of_lt small,
    show 2 ^ w - 1 + 2 ^ n = (2 ^ n - 1) + 2 ^ w by omega, Nat.add_mod_right,
    Nat.mod_eq_of_lt (by omega)]

/-- What a word has under the mask is what its low bits are. -/
theorem and_mask_toNat (x : BitVec w) (inside : n < w) :
    (x &&& mask w n).toNat = (x.setWidth n).toNat := by
  rw [BitVec.toNat_and, mask_toNat inside, Nat.and_two_pow_sub_one_eq_mod, BitVec.toNat_setWidth]

/-- Nothing lies outside the mask exactly when the low bits are the whole number. -/
theorem and_not_mask_eq_zero_iff (x : BitVec w) (inside : n < w) :
    x &&& ~~~mask w n = 0#w ↔ x.toNat < 2 ^ n := by
  -- Bit for bit: the mask has those below its width.
  have bit : ∀ i, (mask w n).getLsbD i = decide (i < n) := by
    intro i
    rw [BitVec.getLsbD, mask_toNat inside, Nat.testBit_two_pow_sub_one]
  constructor
  · intro none
    refine Nat.lt_pow_two_of_testBit _ fun i high => ?_
    have there := congrArg (fun y : BitVec w => y.getLsbD i) none
    simp only [BitVec.getLsbD_and, BitVec.getLsbD_not, bit, BitVec.getLsbD_zero] at there
    show x.getLsbD i = false
    by_cases within : i < w
    · simpa [within, Nat.not_lt.mpr high] using there
    · exact BitVec.getLsbD_of_ge x i (by omega)
  · intro small
    apply BitVec.eq_of_getLsbD_eq
    intro i _
    rw [BitVec.getLsbD_and, BitVec.getLsbD_not, bit, BitVec.getLsbD_zero]
    by_cases low : i < n
    · simp [low]
    · rw [BitVec.getLsbD, Nat.testBit_lt_two_pow
        (Nat.lt_of_lt_of_le small (Nat.pow_le_pow_right (by decide) (by omega))), Bool.false_and]

/-- The sign mask finds the sign of the low bits. -/
theorem sign_iff (x : BitVec w) (positive : 0 < n) (inside : n ≤ w) :
    x &&& 1#w <<< (n - 1) ≠ 0#w ↔ (x.setWidth n).msb = true := by
  have bit : (x.setWidth n).msb = x.getLsbD (n - 1) := by
    rw [BitVec.msb_eq_getLsbD_last, BitVec.getLsbD_setWidth]
    rw [decide_eq_true (by omega), Bool.true_and]
  rw [ne_eq, Bits.and_one_shiftLeft_eq_zero_iff (by omega), bit, Bool.not_eq_false]

/-- Filling the high bits of a negative number of so many bits extends its sign. -/
theorem or_high_toInt (x : BitVec w) (inside : n < w)
    (negative : (x.setWidth n).msb = true) :
    (x ||| BitVec.allOnes w <<< n).toInt = (x.setWidth n).toInt := by
  rw [← BitVec.toInt_signExtend_of_le (w := n) (v := w) (x := x.setWidth n) (by omega)]
  -- Bit for bit: the low ones are kept, the high ones repeat the sign.
  refine congrArg BitVec.toInt (BitVec.eq_of_getLsbD_eq fun i within => ?_)
  rw [BitVec.getLsbD_or, BitVec.getLsbD_shiftLeft, BitVec.getLsbD_allOnes,
    BitVec.getLsbD_signExtend, negative, BitVec.getLsbD_setWidth]
  by_cases low : i < n
  · simp [low, within]
  · simp [low, within]
    omega

/-- With its high bits filled, a word has every bit outside the mask. -/
theorem or_high_or_mask (x : BitVec w) (inside : n < w) :
    x ||| BitVec.allOnes w <<< n ||| mask w n = BitVec.allOnes w := by
  -- Bit for bit: the low ones are in the mask, the high ones were filled.
  refine BitVec.eq_of_getLsbD_eq fun i within => ?_
  have bit : (mask w n).getLsbD i = decide (i < n) := by
    rw [BitVec.getLsbD, mask_toNat inside, Nat.testBit_two_pow_sub_one]
  rw [BitVec.getLsbD_or, BitVec.getLsbD_or, BitVec.getLsbD_shiftLeft, bit, BitVec.getLsbD_allOnes,
    BitVec.getLsbD_allOnes]
  by_cases low : i < n
  · simp [low, within]
  · simp [low, within]
    omega

/-- Filling the high bits leaves the low ones. -/
theorem setWidth_or_high (x : BitVec w) :
    (x ||| BitVec.allOnes w <<< n).setWidth n = x.setWidth n := by
  refine BitVec.eq_of_getLsbD_eq fun i within => ?_
  rw [BitVec.getLsbD_setWidth, BitVec.getLsbD_setWidth, BitVec.getLsbD_or,
    BitVec.getLsbD_shiftLeft]
  simp [within]

/-- A number of so many bits that is not negative is what the whole word denotes. -/
theorem toInt_of_small (x : BitVec w) (inside : n < w) (small : x.toNat < 2 ^ n)
    (positive : (x.setWidth n).msb = false) : x.toInt = (x.setWidth n).toInt := by
  have half : 2 ^ n ≤ 2 ^ (w - 1) := Nat.pow_le_pow_right (by decide) (by omega)
  have msb : x.msb = false := by
    rw [BitVec.msb_eq_decide]
    simpa using Nat.lt_of_lt_of_le small half
  rw [BitVec.toInt_eq_msb_cond, BitVec.toInt_eq_msb_cond, msb, positive, BitVec.toNat_setWidth,
    Nat.mod_eq_of_lt small]
  rfl

end Width
