import Emu80535.Debug.Condition
import Emu80535.Lib.Width

/-! The integers that watch conditions compare. -/

namespace Emu80535.Debug

/-- The integer that a value of a width denotes. -/
def denoted (isSigned : Bool) (width : Nat) (bits : BitVec 64) : Int :=
  if isSigned then (bits.setWidth width).toInt else (bits.setWidth width).toNat

/-- The relation a comparison asks for. -/
def WatchCompare.Holds (comparison : Byte) (x y : Int) : Prop :=
  if comparison = WatchCompare.eq then x = y
  else if comparison = WatchCompare.ne then x ≠ y
  else if comparison = WatchCompare.lt then x < y
  else if comparison = WatchCompare.le then x ≤ y
  else if comparison = WatchCompare.gt then x > y
  else if comparison = WatchCompare.ge then x ≥ y
  else False

/-- Whether a comparison holds can be computed. -/
instance (comparison : Byte) (x y : Int) : Decidable (WatchCompare.Holds comparison x y) :=
  inferInstanceAs (Decidable
    (if comparison = WatchCompare.eq then x = y
    else if comparison = WatchCompare.ne then x ≠ y
    else if comparison = WatchCompare.lt then x < y
    else if comparison = WatchCompare.le then x ≤ y
    else if comparison = WatchCompare.gt then x > y
    else if comparison = WatchCompare.ge then x ≥ y
    else False))

/-! ### Widths -/

/-- The five widths lie between 1 and 64. -/
theorem width_cases {width : Byte} (valid : valueWidthValid width = true) :
    0 < width.toNat ∧ (width.toNat < 64 ∧ width ≠ 64#8 ∨ width = 64#8) := by
  revert valid
  revert width
  decide +kernel

/-- Below the full width the mask is that of the low bits. -/
theorem widthMask_eq {width : Byte} (narrow : width ≠ 64#8) :
    widthMask width = Width.mask 64 width.toNat := if_neg narrow

/-- Masking leaves the number of that width. -/
theorem and_widthMask_toNat {width : Byte} (valid : valueWidthValid width = true)
    (x : BitVec 64) : (x &&& widthMask width).toNat = (x.setWidth width.toNat).toNat := by
  rcases (width_cases valid).2 with ⟨below, narrow⟩ | whole
  · rw [widthMask_eq narrow, Width.and_mask_toNat x below]
  · rw [whole, widthMask, if_pos rfl, BitVec.and_allOnes]
    simp

/-- Masking keeps the sign of that width. -/
theorem masked_sign_iff {width : Byte} (valid : valueWidthValid width = true) (x : BitVec 64) :
    (x &&& widthMask width) &&& 1#64 <<< (width.toNat - 1) ≠ 0#64 ↔
      (x.setWidth width.toNat).msb = true := by
  obtain ⟨positive, range⟩ := width_cases valid
  rw [Width.sign_iff _ positive (by rcases range with ⟨below, -⟩ | rfl <;> [omega; decide])]
  have same : ((x &&& widthMask width).setWidth width.toNat) = x.setWidth width.toNat := by
    refine BitVec.eq_of_toNat_eq ?_
    rw [BitVec.toNat_setWidth, and_widthMask_toNat valid, BitVec.toNat_setWidth, Nat.mod_mod]
  rw [same]

/-! ### Comparing -/

/-- Signs first, then magnitudes: that is the order of the integers. -/
theorem compareBits_eq {width : Byte} (valid : valueWidthValid width = true) (isSigned : Bool)
    (x y : BitVec 64) :
    compareBits isSigned width (x &&& widthMask width) (y &&& widthMask width) =
      compare (denoted isSigned width.toNat x) (denoted isSigned width.toNat y) := by
  have signX : decide ((x &&& widthMask width) &&& 1#64 <<< (width.toNat - 1) ≠ 0#64) =
      (x.setWidth width.toNat).msb := by
    rw [Bool.eq_iff_iff, decide_eq_true_iff]
    exact masked_sign_iff valid x
  have signY : decide ((y &&& widthMask width) &&& 1#64 <<< (width.toNat - 1) ≠ 0#64) =
      (y.setWidth width.toNat).msb := by
    rw [Bool.eq_iff_iff, decide_eq_true_iff]
    exact masked_sign_iff valid y
  simp only [compareBits, signX, signY, and_widthMask_toNat valid, denoted]
  have lessX := (x.setWidth width.toNat).isLt
  have lessY := (y.setWidth width.toNat).isLt
  have natural : ∀ a b : Nat, compare a b = compare (a : Int) (b : Int) := fun a b => by
    simp only [compare, compareOfLessAndEq, Int.ofNat_lt, Int.natCast_inj]
  have shifted : ∀ a b k : Int, compare (a - k) (b - k) = compare a b := fun a b k => by
    simp only [compare, compareOfLessAndEq, Int.sub_lt_sub_right_iff, Int.sub_left_inj]
  cases isSigned with
  | false => exact natural _ _
  | true =>
    simp only [Bool.true_and, if_true, BitVec.toInt_eq_msb_cond]
    generalize (x.setWidth width.toNat).toNat = a at lessX ⊢
    generalize (y.setWidth width.toNat).toNat = b at lessY ⊢
    generalize 2 ^ width.toNat = top at lessX lessY ⊢
    -- Numbers of one sign are ordered as they are stored.
    cases (x.setWidth width.toNat).msb <;> cases (y.setWidth width.toNat).msb
    all_goals simp only [if_true, Bool.false_eq_true, if_false]
    · exact natural a b
    · exact ((if_neg (by omega)).trans (if_neg (by omega))).symm
    · exact (if_pos (by omega)).symm
    · exact (natural a b).trans (shifted a b top).symm

/-- What each comparison makes of an order. -/
theorem compareValue_iff (c : Condition) (v : Value) (valid : valueWidthValid c.width = true) :
    c.compareValue v = true ↔ v.known ≠ 0#8 ∧ v.width = c.width ∧ v.isSigned = c.isSigned ∧
      WatchCompare.Holds c.comparison (denoted (c.isSigned != 0#8) c.width.toNat v.value)
        (denoted (c.isSigned != 0#8) c.width.toNat c.constant) := by
  rw [Condition.compareValue]
  split
  · rename_i apart
    refine iff_of_false (by simp) fun all => ?_
    rcases apart with unknown | width | signs
    · exact all.1 unknown
    · exact width all.2.1
    · exact signs all.2.2.1
  · rename_i fits
    obtain ⟨known, same, signs⟩ : v.known ≠ 0#8 ∧ v.width = c.width ∧ v.isSigned = c.isSigned :=
      ⟨fun unknown => fits (.inl unknown), not_not.mp fun other => fits (.inr (.inl other)),
        not_not.mp fun other => fits (.inr (.inr other))⟩
    rw [and_iff_right known, and_iff_right same, and_iff_right signs]
    simp only [same, compareBits_eq valid, WatchCompare.Holds]
    generalize denoted (c.isSigned != 0#8) c.width.toNat v.value = x
    generalize denoted (c.isSigned != 0#8) c.width.toNat c.constant = y
    -- The three orders, each under all six comparisons.
    rcases Int.lt_trichotomy x y with less | equal | more
    · have order : compare x y = .lt := if_pos less
      rw [order]
      split_ifs <;> simp <;> omega
    · have order : compare x y = .eq := (if_neg (by omega)).trans (if_pos equal)
      rw [order]
      split_ifs <;> simp <;> omega
    · have order : compare x y = .gt := (if_neg (by omega)).trans (if_neg (by omega))
      rw [order]
      split_ifs <;> simp <;> omega

/-! ### Constants -/

/-- What a valid condition has checked of its width and its constant. -/
structure TraceCondition.Checked (c : TraceCondition) : Prop where
  width : valueWidthValid (c.width.setWidth 8) = true
  same : (c.width.setWidth 8).toNat = c.width.toNat
  signed : c.isSigned.setWidth 8 = 0#8 ↔ c.isSigned = 0#32
  small : c.width.toNat < 64 → c.constant.toNat < 2 ^ c.width.toNat

/-- A condition that is accepted is one of those the comparison is defined for. -/
theorem conditionValid_checked {c : TraceCondition} (valid : c.conditionValid = true) :
    c.Checked := by
  simp only [TraceCondition.conditionValid] at valid
  split at valid
  · exact absurd valid (by simp)
  rename_i fields
  split at valid
  · exact absurd valid (by simp)
  rename_i bits
  rw [not_or, not_or, not_or, not_or, not_or] at fields
  obtain ⟨-, -, -, -, signs, known⟩ := fields
  have widths := not_not.mp known
  -- The width is one of five, the sign is a flag, and the constant fits into the width.
  refine ⟨?_, ?_, ?_, fun narrow => ?_⟩
  · rcases widths with same | same | same | same | same <;> rw [same] <;> decide
  · rcases widths with same | same | same | same | same <;> rw [same] <;> decide
  · have low : c.isSigned.toNat ≤ 1 := by
      simpa [BitVec.lt_def] using signs
    rw [← BitVec.toNat_inj, ← BitVec.toNat_inj, BitVec.toNat_setWidth, BitVec.toNat_ofNat,
      BitVec.toNat_ofNat, Nat.mod_eq_of_lt (by omega)]
  · have shifted : c.constant >>> c.width.toNat = 0#64 :=
      not_not.mp fun some => bits ⟨by simpa [BitVec.lt_def] using narrow, some⟩
    have none := congrArg BitVec.toNat shifted
    rw [BitVec.toNat_ushiftRight, Nat.shiftRight_eq_div_pow, BitVec.toNat_ofNat, Nat.zero_mod,
      Nat.div_eq_zero_iff] at none
    exact none.resolve_left (Nat.ne_of_gt (Nat.two_pow_pos _))

/-- The integer a constant stands for inside the watch table. -/
def Condition.integer (c : Condition) : Int :=
  if c.isSigned ≠ 0#8 then c.constant.toInt else c.constant.toNat

/-- A sign-extended constant is one the watch table takes, and still the same integer. -/
theorem extended_constant {c : Condition} {x : BitVec 64} (valid : valueWidthValid c.width = true)
    (small : c.width.toNat < 64 → x.toNat < 2 ^ c.width.toNat)
    (extended : c.constant =
      if c.isSigned ≠ 0#8 ∧ c.width < 64#8 ∧ x &&& 1#64 <<< (c.width.toNat - 1) ≠ 0#64 then
        x ||| BitVec.allOnes 64 <<< c.width.toNat
      else x) :
    c.constantValid = true ∧ c.integer = denoted (c.isSigned != 0#8) c.width.toNat x := by
  obtain ⟨positive, range⟩ := width_cases valid
  simp only [Condition.constantValid, Condition.integer, denoted, valid, Bool.not_true,
    Bool.false_eq_true, if_false]
  rcases range with ⟨below, narrow⟩ | whole
  · have less : c.width < 64#8 := by simpa [BitVec.lt_def] using below
    have fits := small below
    have clear := (Width.and_not_mask_eq_zero_iff x below).mpr fits
    have sign := Width.sign_iff x positive (Nat.le_of_lt below)
    rw [widthMask_eq narrow, if_neg narrow]
    by_cases signed : c.isSigned = 0#8
    · rw [if_neg fun both => both.1 signed] at extended
      rw [if_neg (not_not.mpr signed), if_neg (not_not.mpr signed), extended, clear, signed]
      exact ⟨rfl, by simp [Nat.mod_eq_of_lt fits]⟩
    · rw [if_pos signed, if_pos signed, if_pos (bne_iff_ne.mpr signed)]
      by_cases negative : (x.setWidth c.width.toNat).msb = true
      · -- The high bits have been filled.
        rw [if_pos ⟨signed, less, sign.mpr negative⟩] at extended
        have still := (Width.sign_iff c.constant positive (Nat.le_of_lt below)).mpr
          (by rw [extended, Width.setWidth_or_high, negative])
        rw [if_pos still, extended, Width.or_high_or_mask x below]
        exact ⟨rfl, Width.or_high_toInt x below negative⟩
      · rw [if_neg fun all => negative (sign.mp all.2.2)] at extended
        rw [extended, if_neg fun set => negative (sign.mp set), clear]
        exact ⟨rfl, Width.toInt_of_small x below fits (Bool.not_eq_true _ ▸ negative)⟩
  · -- A whole word is never extended.
    have same : c.constant = x := extended.trans (if_neg fun all => by
      rw [whole] at all
      exact absurd all.2.1 (by decide))
    have none : x &&& ~~~widthMask 64#8 = 0#64 := by
      rw [widthMask, if_pos rfl]
      simp
    rw [whole, if_pos rfl, same, none]
    by_cases signed : c.isSigned = 0#8
    · simp [signed]
    · simp [signed]

/-- The watch table takes the constants of valid conditions, for the same integers. -/
theorem adapted_constant {c : TraceCondition} (valid : c.conditionValid = true) :
    c.adapted.constantValid = true ∧
      c.adapted.integer = denoted (c.isSigned != 0#32) c.width.toNat c.constant := by
  have checked := conditionValid_checked valid
  have signs : (c.isSigned != 0#32) = (c.isSigned.setWidth 8 != 0#8) := by
    rw [Bool.eq_iff_iff, bne_iff_ne, bne_iff_ne, ne_eq, ne_eq, checked.signed]
  rw [signs, ← checked.same]
  exact extended_constant checked.width (checked.same ▸ checked.small) rfl

/--
Watch conditions compare the integers that their constants and the captured values denote, and what
a client may state is what the watch table takes.
-/
theorem watch_conditions_compare_integers :
    (∀ (c : Condition) (v : Value), valueWidthValid c.width = true →
      (c.compareValue v = true ↔ v.known ≠ 0#8 ∧ v.width = c.width ∧ v.isSigned = c.isSigned ∧
        WatchCompare.Holds c.comparison (denoted (c.isSigned != 0#8) c.width.toNat v.value)
          (denoted (c.isSigned != 0#8) c.width.toNat c.constant))) ∧
    ∀ c : TraceCondition, c.conditionValid = true → c.adapted.constantValid = true ∧
      c.adapted.integer = denoted (c.isSigned != 0#32) c.width.toNat c.constant :=
  ⟨fun c v => compareValue_iff c v, fun _ => adapted_constant⟩

/-- A negative byte is below a positive one, and its constant is taken. -/
theorem watch_conditions_compare_integers_byte :
    Condition.compareValue { constant := 1#64, comparison := 2#8, width := 8#8, isSigned := 1#8 }
        { value := 0xFF#64, width := 8#8, known := 1#8, isSigned := 1#8 } = true ∧
      (TraceCondition.adapted ⟨1#32, 0#32, 2#32, 8#32, 1#32, 0#32, 0xFF#64⟩).integer = -1 :=
  ⟨(watch_conditions_compare_integers.1 _ _ (by decide)).mpr ⟨by decide, rfl, rfl, by decide⟩,
    (watch_conditions_compare_integers.2 ⟨1#32, 0#32, 2#32, 8#32, 1#32, 0#32, 0xFF#64⟩
      (by decide)).2.trans (by decide)⟩

end Emu80535.Debug
