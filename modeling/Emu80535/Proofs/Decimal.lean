import Emu80535.Proofs.Arithmetic

/-! Packed decimal addition, byte by byte, with ADDC and DA A. -/

namespace Emu80535

variable {ω : Type} {hooks : Hooks ω}

/-! ### Packed decimal numbers -/

/-- A byte of two decimal digits. -/
def PackedBcd (b : Byte) : Prop := b.toNat % 16 ≤ 9 ∧ b.toNat / 16 ≤ 9

/-- Whether a byte is two decimal digits can be computed. -/
instance (b : Byte) : Decidable (PackedBcd b) := inferInstanceAs (Decidable (_ ∧ _))

/-- The number two digits make. -/
def twoDigits (b : Byte) : Nat := 10 * (b.toNat / 16) + b.toNat % 16

/-- The number some bytes make, the least significant one first. -/
def decimalValue : List Byte → Nat
  | [] => 0
  | b :: rest => twoDigits b + 100 * decimalValue rest

/-! ### One byte -/

/-- What DA A makes of ACC, before it is cut to a byte. -/
def adjusted (acc : Nat) (auxiliary carry : Bool) : Nat :=
  let low := if 9 < acc % 16 ∨ auxiliary = true then acc + 6 else acc
  if 0x90 < low / 16 * 16 ∨ carry = true then low + 0x60 else low

/-- The 16-bit sum of `da_a`. -/
def adjustedWord (acc : Byte) (auxiliary carry : Bool) : Word :=
  let low := if 9#16 < acc.setWidth 16 &&& 0xF#16 ∨ auxiliary = true then acc.setWidth 16 + 6#16
    else acc.setWidth 16
  if 0x90#16 < low &&& 0xFF0#16 ∨ carry = true then low + 0x60#16 else low

/-- Masking a sum as small as that cuts off its low digit. -/
theorem and_high : ∀ n < 262, n &&& 0xFF0 = n / 16 * 16 := by decide +kernel

/-- The correction of the high digit. -/
theorem adjustedHigh_toNat {word : Word} (small : word.toNat < 262) (carry : Bool) :
    (if 0x90#16 < word &&& 0xFF0#16 ∨ carry = true then word + 0x60#16 else word).toNat =
      if 0x90 < word.toNat / 16 * 16 ∨ carry = true then word.toNat + 0x60 else word.toNat := by
  -- The mask leaves the two upper digits of the word, so the test is one of the quotient.
  have high : 0x90#16 < word &&& 0xFF0#16 ↔ 0x90 < word.toNat / 16 * 16 := by
    rw [BitVec.lt_def, BitVec.toNat_and]
    exact iff_of_eq (congrArg (0x90 < ·) (and_high word.toNat small))
  simp only [high]
  split
  · rw [BitVec.toNat_add]
    exact Nat.mod_eq_of_lt (by change word.toNat + 0x60 < 65536; omega)
  · rfl

/-- The sum does not leave its 16 bits. -/
theorem adjustedWord_toNat (acc : Byte) (auxiliary carry : Bool) :
    (adjustedWord acc auxiliary carry).toNat = adjusted acc.toNat auxiliary carry := by
  have bound := acc.isLt
  have wide : (acc.setWidth 16).toNat = acc.toNat := BitVec.toNat_setWidth_of_le (by decide)
  -- The test of the low digit is made on the accumulator, before anything is added to it.
  have low : 9#16 < acc.setWidth 16 &&& 0xF#16 ↔ 9 < acc.toNat % 16 := by
    rw [BitVec.lt_def, BitVec.toNat_and, wide]
    exact iff_of_eq (congrArg (9 < ·) (Nat.and_two_pow_sub_one_eq_mod acc.toNat 4))
  unfold adjustedWord adjusted
  simp only [low]
  -- The correction of the low digit comes first, and that of the high digit sees its carry.
  by_cases six : 9 < acc.toNat % 16 ∨ auxiliary = true
  · have sum : (acc.setWidth 16 + 6#16).toNat = acc.toNat + 6 := by
      rw [BitVec.toNat_add, wide]
      exact Nat.mod_eq_of_lt (by change acc.toNat + 6 < 65536; omega)
    simp only [if_pos six]
    rw [adjustedHigh_toNat (by omega), sum]
  · simp only [if_neg six]
    rw [adjustedHigh_toNat (by omega), wide]

/-- The registers DA A stores: the carry when there is one, then ACC. -/
theorem daA_registers (m : Machine ω) :
    let sum := adjustedWord (m.cpu.sfr Reg.acc) (has (m.cpu.sfr Reg.psw) Psw.ac)
      (has (m.cpu.sfr Reg.psw) Psw.c)
    (daA.run hooks m).2.cpu.sfr =
      Function.update
        (if 0x99#16 < sum then Function.update m.cpu.sfr Reg.psw (m.cpu.sfr Reg.psw ||| Psw.c)
        else m.cpu.sfr) Reg.acc (sum.setWidth 8) := by
  intro sum
  -- The two corrections are computed before the first register is written.
  have body : daA.run hooks m = ((do
      if 0x99#16 < sum then setPsw (m.cpu.sfr Reg.psw ||| Psw.c)
      setAcc (sum.setWidth 8)
      advancePc 1#16
      pure 0 : Op Nat).run hooks m) := rfl
  rw [body]
  by_cases beyond : 0x99#16 < sum
  · simp only [if_pos beyond]
    rfl
  · simp only [if_neg beyond]
    rfl

/-- The carry out of bit 2 serves DA A as the one out of bit 3 would. -/
def Adjustable (a b : Byte) (carry : Bool) : Prop :=
  Arithmetic.addc.carries 3 a b carry = Arithmetic.addc.carries 4 a b carry ∨
    9 < (a.toNat % 16 + b.toNat % 16 + carry.toNat) % 16

/-- Whether the auxiliary carry serves can be computed. -/
instance (a b : Byte) (carry : Bool) : Decidable (Adjustable a b carry) :=
  inferInstanceAs (Decidable (_ ∨ _))

/-- The decimal carry out of a byte. -/
def decimalCarry (a b : Byte) (carry : Bool) : Bool :=
  decide (100 ≤ twoDigits a + twoDigits b + carry.toNat)

/-- What ADDC leaves in ACC, adjusted with the flags it leaves. -/
def bcdSum (a b : Byte) (carry : Bool) : Nat :=
  adjusted ((a.toNat + b.toNat + carry.toNat) % 256) (Arithmetic.addc.carries 3 a b carry)
    (Arithmetic.addc.carries 8 a b carry)

/-- The carry behind that sum. -/
def bcdCarry (a b : Byte) (carry : Bool) : Bool :=
  decide (0x99 < bcdSum a b carry) || Arithmetic.addc.carries 8 a b carry

/-- The adjustment in terms of two digit sums, the low one of which it recognises. -/
theorem adjusted_digits {high low : Nat} (lowBound : low ≤ 19) (highBound : high ≤ 18)
    {auxiliary : Bool} (serves : (9 < low % 16 ∨ auxiliary = true) ↔ 10 ≤ low) :
    let carried := decide (256 ≤ 16 * high + low)
    let sum := adjusted ((16 * high + low) % 256) auxiliary carried
    10 * (sum % 256 / 16) + sum % 256 % 16 + 100 * (decide (0x99 < sum) || carried).toNat =
        10 * high + low ∧
      sum % 256 / 16 ≤ 9 ∧ sum % 256 % 16 ≤ 9 := by
  intro carried sum
  have nibble : (16 * high + low) % 256 % 16 = low % 16 := by omega
  have first : (9 < (16 * high + low) % 256 % 16 ∨ auxiliary = true) ↔ 10 ≤ low := by
    rw [nibble]
    exact serves
  -- The high digit sum takes up the carry of the low one, and the low one keeps its digit.
  obtain ⟨digit, total, small, step, same⟩ : ∃ digit total, digit ≤ 9 ∧
      16 * total + digit = 16 * high + low + (if 10 ≤ low then 6 else 0) ∧
      10 * total + digit = 10 * high + low := by
    by_cases ten : 10 ≤ low
    · exact ⟨low - 10, high + 1, by omega, by rw [if_pos ten]; omega, by omega⟩
    · exact ⟨low, high, by omega, by rw [if_neg ten]; omega, rfl⟩
  have bound : total ≤ 19 := by split at step <;> omega
  have sumEq : sum = (if 0x90 < ((16 * high + low) % 256 + (if 10 ≤ low then 6 else 0)) / 16 * 16 ∨
      256 ≤ 16 * high + low then (16 * high + low) % 256 + (if 10 ≤ low then 6 else 0) + 0x60
      else (16 * high + low) % 256 + (if 10 ≤ low then 6 else 0)) := by
    simp only [sum, adjusted, first, carried, decide_eq_true_eq]
    by_cases ten : 10 ≤ low
    · simp only [if_pos ten]
    · simp only [if_neg ten, Nat.add_zero]
  by_cases beyond : 256 ≤ 16 * high + low
  · have wrapped : (16 * high + low) % 256 + (if 10 ≤ low then 6 else 0) = 16 * total + digit - 256 := by
      omega
    rw [wrapped, if_pos (Or.inr beyond)] at sumEq
    have carry : (decide (0x99 < sum) || carried) = true := by simp [carried, beyond]
    rw [carry, sumEq, ← same]
    change _ + 100 * 1 = _ ∧ _
    omega
  · have plain : (16 * high + low) % 256 + (if 10 ≤ low then 6 else 0) = 16 * total + digit := by
      omega
    have alone : (decide (0x99 < sum) || carried) = decide (0x99 < sum) := by simp [carried, beyond]
    rw [plain] at sumEq
    by_cases ten : 10 ≤ total
    · rw [if_pos (Or.inl (by omega))] at sumEq
      have carry : decide (0x99 < sum) = true := decide_eq_true (by omega)
      rw [alone, carry, sumEq, ← same]
      change _ + 100 * 1 = _ ∧ _
      omega
    · rw [if_neg (by omega)] at sumEq
      have carry : decide (0x99 < sum) = false := decide_eq_false (by omega)
      rw [alone, carry, sumEq, ← same]
      change _ + 100 * 0 = _ ∧ _
      omega

/-- The low digit of the adjustment. -/
theorem adjusted_low (acc : Nat) (auxiliary carry : Bool) :
    adjusted acc auxiliary carry % 256 % 16 =
      (acc % 16 + if 9 < acc % 16 ∨ auxiliary = true then 6 else 0) % 16 := by
  unfold adjusted
  dsimp only
  split_ifs <;> omega

section Sums

variable {a b : Byte} {carry : Bool}

/-- The auxiliary carry serves where the adjustment recognises the low digit sum. -/
theorem adjustable_iff (bcdA : PackedBcd a) (bcdB : PackedBcd b) :
    Adjustable a b carry ↔
      ((9 < (a.toNat % 16 + b.toNat % 16 + carry.toNat) % 16 ∨
        Arithmetic.addc.carries 3 a b carry = true) ↔
          10 ≤ a.toNat % 16 + b.toNat % 16 + carry.toNat) := by
  have carryBound := carry.toNat_le
  obtain ⟨lowA, -⟩ := bcdA
  obtain ⟨lowB, -⟩ := bcdB
  unfold Adjustable
  have four : Arithmetic.addc.carries 4 a b carry =
      decide (16 ≤ a.toNat % 16 + b.toNat % 16 + carry.toNat) := rfl
  rw [four]
  -- Without a carry out of three bits the low sum must stay below sixteen to be recognised.
  cases Arithmetic.addc.carries 3 a b carry
  · rw [eq_comm, decide_eq_false_iff_not]
    simp only [Bool.false_eq_true, or_false]
    omega
  · rw [eq_comm, decide_eq_true_iff]
    simp only [or_true, true_iff]
    omega

/-- A sum of two bytes, by digits. -/
theorem sum_digits : a.toNat + b.toNat + carry.toNat =
    16 * (a.toNat / 16 + b.toNat / 16) + (a.toNat % 16 + b.toNat % 16 + carry.toNat) := by
  omega

/-- Both digits and the carry are right where the auxiliary carry serves. -/
theorem bcdSum_adjustable (bcdA : PackedBcd a) (bcdB : PackedBcd b)
    (fits : Adjustable a b carry) :
    10 * (bcdSum a b carry % 256 / 16) + bcdSum a b carry % 256 % 16 +
        100 * (bcdCarry a b carry).toNat = twoDigits a + twoDigits b + carry.toNat ∧
      bcdSum a b carry % 256 / 16 ≤ 9 ∧ bcdSum a b carry % 256 % 16 ≤ 9 := by
  have carryBound := carry.toNat_le
  have serves := (adjustable_iff bcdA bcdB).mp fits
  obtain ⟨lowA, highA⟩ := bcdA
  obtain ⟨lowB, highB⟩ := bcdB
  have eight : Arithmetic.addc.carries 8 a b carry =
      decide (256 ≤ a.toNat + b.toNat + carry.toNat) := by
    rw [Arithmetic.carries, Nat.mod_eq_of_lt a.isLt, Nat.mod_eq_of_lt b.isLt,
      show 2 ^ 8 = 256 from rfl]
  -- The general fact about two digit sums, at the digits of the operands.
  have digits := @adjusted_digits (a.toNat / 16 + b.toNat / 16)
    (a.toNat % 16 + b.toNat % 16 + carry.toNat) (by omega) (by omega) _ serves
  rw [← sum_digits, ← eight] at digits
  obtain ⟨value, high, low⟩ := digits
  refine ⟨value.trans ?_, high, low⟩
  unfold twoDigits
  omega

/-- The low digit is wrong where it does not serve. -/
theorem bcdSum_not_adjustable (bcdA : PackedBcd a) (bcdB : PackedBcd b)
    (not : ¬Adjustable a b carry) :
    bcdSum a b carry % 256 % 16 ≠ (twoDigits a + twoDigits b + carry.toNat) % 10 := by
  have carryBound := carry.toNat_le
  have fails := fun serves => not ((adjustable_iff bcdA bcdB).mpr serves)
  obtain ⟨lowA, -⟩ := bcdA
  obtain ⟨lowB, -⟩ := bcdB
  have nibble : (a.toNat + b.toNat + carry.toNat) % 256 % 16 =
      (a.toNat % 16 + b.toNat % 16 + carry.toNat) % 16 := by omega
  have digit : (twoDigits a + twoDigits b + carry.toNat) % 10 =
      (a.toNat % 16 + b.toNat % 16 + carry.toNat) % 10 := by
    unfold twoDigits
    omega
  unfold bcdSum
  rw [adjusted_low, nibble, digit]
  generalize Arithmetic.addc.carries 3 a b carry = auxiliary at fails ⊢
  -- Either six was added to a digit below ten, or it is missing from one above nine.
  by_cases six : 9 < (a.toNat % 16 + b.toNat % 16 + carry.toNat) % 16 ∨ auxiliary = true
  · rw [if_pos six]
    have below : ¬10 ≤ a.toNat % 16 + b.toNat % 16 + carry.toNat := fun ten =>
      fails (iff_of_true six ten)
    omega
  · rw [if_neg six]
    have ten : 10 ≤ a.toNat % 16 + b.toNat % 16 + carry.toNat := by
      by_contra below
      exact fails (iff_of_false six below)
    have low : ¬9 < (a.toNat % 16 + b.toNat % 16 + carry.toNat) % 16 := fun nine => six (.inl nine)
    omega

end Sums

/-! ### A chain of bytes -/

/--
A run of ADDC and DA A over pairs of bytes, with the bytes it leaves and the carry behind it.

Whatever loads ACC and the operand and takes the sum away between two pairs keeps the carry.
-/
inductive DecimalRun (hooks : Hooks ω) :
    List (Byte × Byte) → Bool → List Byte → Bool → Prop where
  | done (carry : Bool) : DecimalRun hooks [] carry [] carry
  | next {m n k : Machine ω} {mode : Addressing} {rest : List (Byte × Byte)} {digits : List Byte}
    {last : Bool} (adds : m.cpu.opcode = Arithmetic.addc.opcode mode)
    (added : n = updateParity (runInstruction hooks m.cpu.opcode m))
    (adjusts : n.cpu.opcode = 0xD4#8)
    (adjusted : k = updateParity (runInstruction hooks n.cpu.opcode n))
    (later : DecimalRun hooks rest k.cpu.carry digits last) :
    DecimalRun hooks ((m.cpu.sfr Reg.acc, (mode.fetch.run hooks m).1) :: rest) m.cpu.carry
      (k.cpu.sfr Reg.acc :: digits) last

/-- The sum is written in the digits, with the carry in front. -/
structure DecimalLaw (pairs : List (Byte × Byte)) (carry : Bool) (digits : List Byte)
    (last : Bool) : Prop where
  length : digits.length = pairs.length
  packed : ∀ d ∈ digits, PackedBcd d
  value : decimalValue digits + 100 ^ pairs.length * last.toNat =
    decimalValue (pairs.map Prod.fst) + decimalValue (pairs.map Prod.snd) + carry.toNat

/-- The auxiliary carry serves at every byte, given the decimal carry into it. -/
def AllAdjustable : List (Byte × Byte) → Bool → Prop
  | [], _ => True
  | (a, b) :: rest, carry =>
    Adjustable a b carry ∧ AllAdjustable rest (decimalCarry a b carry)

/-- The parity update after an instruction leaves ACC and the other flags alone. -/
theorem instruction_registers (opcode : Byte) (m : Machine ω) :
    (updateParity (runInstruction hooks opcode m)).cpu.sfr Reg.acc =
        ((opTable opcode).run hooks m).2.cpu.sfr Reg.acc ∧
      ∀ mask, Psw.p &&& mask = 0#8 →
        has ((updateParity (runInstruction hooks opcode m)).cpu.sfr Reg.psw) mask =
          has (((opTable opcode).run hooks m).2.cpu.sfr Reg.psw) mask := by
  -- The bookkeeping writes no register, and the parity bit is apart from the other flags.
  have registers : (runInstruction hooks opcode m).cpu.sfr =
      ((opTable opcode).run hooks m).2.cpu.sfr := by
    simp only [runInstruction, Machine.raw_cpu]
    rfl
  rw [← registers]
  have other : Reg.acc ≠ Reg.psw := by decide
  refine ⟨?_, fun mask apart => ?_⟩
  · simp only [updateParity, Machine.setSfr]
    exact Function.update_of_ne other _ _
  · simp only [updateParity, Machine.setSfr, Function.update_self]
    rw [has, has, Arithmetic.parity_apart apart]

/-- One pair of bytes: ADDC and DA A leave the adjusted sum and its carry. -/
theorem decimal_step {m n k : Machine ω} {mode : Addressing}
    (adds : m.cpu.opcode = Arithmetic.addc.opcode mode)
    (added : n = updateParity (runInstruction hooks m.cpu.opcode m))
    (adjusts : n.cpu.opcode = 0xD4#8)
    (adjusted : k = updateParity (runInstruction hooks n.cpu.opcode n)) :
    let a := m.cpu.sfr Reg.acc
    let b := (mode.fetch.run hooks m).1
    (k.cpu.sfr Reg.acc).toNat = bcdSum a b m.cpu.carry % 256 ∧
      k.cpu.carry = bcdCarry a b m.cpu.carry := by
  intro a b
  -- What ADDC leaves.
  obtain ⟨acc, flag⟩ := @instruction_registers _ hooks m.cpu.opcode m
  have stored := @Arithmetic.body_stored _ hooks .addc mode m
  rw [← added, adds, stored] at acc flag
  have sum : (n.cpu.sfr Reg.acc).toNat = (a.toNat + b.toNat + m.cpu.carry.toNat) % 256 := by
    have one : (carryByte m.cpu.carry).toNat = m.cpu.carry.toNat := by
      cases m.cpu.carry <;> rfl
    have total : n.cpu.sfr Reg.acc = a + b + carryByte m.cpu.carry := acc
    rw [total, BitVec.toNat_add, BitVec.toNat_add, one]
    omega
  have carry : has (n.cpu.sfr Reg.psw) Psw.c = Arithmetic.addc.carries 8 a b m.cpu.carry :=
    (flag Psw.c rfl).trans (Arithmetic.flags_carry ..)
  have auxiliary : has (n.cpu.sfr Reg.psw) Psw.ac = Arithmetic.addc.carries 3 a b m.cpu.carry :=
    (flag Psw.ac rfl).trans (Arithmetic.flags_auxiliary ..)
  -- What DA A makes of it.
  obtain ⟨final, kept⟩ := @instruction_registers _ hooks n.cpu.opcode n
  have total := adjustedWord_toNat (n.cpu.sfr Reg.acc) (has (n.cpu.sfr Reg.psw) Psw.ac)
    (has (n.cpu.sfr Reg.psw) Psw.c)
  rw [sum, auxiliary, carry] at total
  change _ = bcdSum a b m.cpu.carry at total
  have registers := @daA_registers _ hooks n
  dsimp only at registers
  have body : opTable 0xD4#8 = daA := rfl
  rw [← adjusted, adjusts, body, registers] at final kept
  rw [carry, auxiliary] at final kept
  generalize adjustedWord (n.cpu.sfr Reg.acc) (Arithmetic.addc.carries 3 a b m.cpu.carry)
    (Arithmetic.addc.carries 8 a b m.cpu.carry) = word at total final kept
  constructor
  · rw [final, Function.update_self, BitVec.toNat_setWidth, total]
  · have beyond : (0x99#16 < word) ↔ 0x99 < bcdSum a b m.cpu.carry := by
      rw [BitVec.lt_def, total]
      rfl
    have other : Reg.psw ≠ Reg.acc := by decide
    have last := kept Psw.c rfl
    rw [Function.update_of_ne other] at last
    refine last.trans ?_
    unfold bcdCarry
    by_cases above : 0x99#16 < word
    · rw [if_pos above, Function.update_self, has_or_self (by decide),
        decide_eq_true (beyond.mp above), Bool.true_or]
    · rw [if_neg above, carry, decide_eq_false (fun more => above (beyond.mpr more)), Bool.false_or]

/-- The digits of a byte whose halves are digits. -/
theorem packed_of_toNat {d : Byte} {n : Nat} (same : d.toNat = n) (high : n / 16 ≤ 9)
    (low : n % 16 ≤ 9) : PackedBcd d ∧ twoDigits d = 10 * (n / 16) + n % 16 := by
  subst same
  exact ⟨⟨low, high⟩, rfl⟩

/-- A right byte in front leaves the rest to be right. -/
theorem decimalLaw_cons {a b d : Byte} {rest : List (Byte × Byte)} {digits : List Byte}
    {carry onward last : Bool} (packed : PackedBcd d)
    -- A byte further on weighs a hundred times as much.
    (value : twoDigits d + 100 * onward.toNat = twoDigits a + twoDigits b + carry.toNat) :
    DecimalLaw ((a, b) :: rest) carry (d :: digits) last ↔ DecimalLaw rest onward digits last := by
  have shift : 100 ^ (rest.length + 1) * last.toNat = 100 * (100 ^ rest.length * last.toNat) := by
    rw [Nat.pow_succ, Nat.mul_assoc]
    exact Nat.mul_left_comm ..
  constructor
  · intro law
    refine ⟨Nat.succ.inj law.length, fun e member => law.packed e (List.mem_cons_of_mem d member),
      ?_⟩
    have number := law.value
    simp only [decimalValue, List.map_cons, List.length_cons] at number
    rw [shift] at number
    omega
  · intro law
    refine ⟨congrArg (· + 1) law.length, List.forall_mem_cons.mpr ⟨packed, law.packed⟩, ?_⟩
    have number := law.value
    simp only [decimalValue, List.map_cons, List.length_cons]
    rw [shift]
    omega

/--
Decimal addition writes the sum exactly when the auxiliary carry serves at every byte.

The induction is on the bytes: the first byte that is not served is wrong, and before it the carry
that goes on is the decimal one.
-/
theorem decimal_addition (hooks : Hooks ω) {pairs : List (Byte × Byte)} {carry last : Bool}
    {digits : List Byte} (bcd : ∀ p ∈ pairs, PackedBcd p.1 ∧ PackedBcd p.2)
    (run : DecimalRun hooks pairs carry digits last) :
    DecimalLaw pairs carry digits last ↔ AllAdjustable pairs carry := by
  -- By induction on the run: each byte either is right and hands its carry on, or ends the law.
  induction run with
  | done carry =>
    refine iff_of_true ⟨rfl, fun _ member => absurd member List.not_mem_nil, ?_⟩ trivial
    simp [decimalValue]
  | @next m n k mode rest digits last adds added adjusts adjusted later ih =>
    have bcdA : PackedBcd (m.cpu.sfr Reg.acc) := (bcd _ List.mem_cons_self).1
    have bcdB : PackedBcd (mode.fetch.run hooks m).1 := (bcd _ List.mem_cons_self).2
    have remaining := ih fun p member => bcd p (List.mem_cons_of_mem _ member)
    obtain ⟨digit, carried⟩ := decimal_step adds added adjusts adjusted
    generalize m.cpu.sfr Reg.acc = a at bcdA digit carried ⊢
    generalize (mode.fetch.run hooks m).1 = b at bcdB digit carried ⊢
    generalize k.cpu.sfr Reg.acc = d at digit ⊢
    -- Where it serves, the byte is right and the carry goes on to the rest.
    by_cases fits : Adjustable a b m.cpu.carry
    · obtain ⟨value, high, low⟩ := bcdSum_adjustable bcdA bcdB fits
      obtain ⟨packed, number⟩ := packed_of_toNat digit high low
      rw [← number] at value
      have small : twoDigits d ≤ 99 := by
        have bounds := packed
        unfold PackedBcd at bounds
        unfold twoDigits
        omega
      have onward : k.cpu.carry = decimalCarry a b m.cpu.carry := by
        rw [carried]
        unfold decimalCarry
        rw [← value]
        cases bcdCarry a b m.cpu.carry
        · exact (decide_eq_false (by change ¬100 ≤ twoDigits d + 100 * 0; omega)).symm
        · exact (decide_eq_true (by change 100 ≤ twoDigits d + 100 * 1; omega)).symm
      rw [← carried] at value
      rw [onward] at remaining value
      have law := @decimalLaw_cons a b d rest digits m.cpu.carry _ last packed value
      exact law.trans (remaining.trans (and_iff_right fits).symm)
    · -- Where it does not, its low digit contradicts the sum whatever comes behind it.
      refine iff_of_false (fun law => ?_) fun all => fits all.1
      have wrong := bcdSum_not_adjustable bcdA bcdB fits
      rw [← digit] at wrong
      obtain ⟨low, -⟩ := law.packed d List.mem_cons_self
      have number := law.value
      simp only [decimalValue, List.map_cons, List.length_cons, Nat.pow_succ, Nat.mul_assoc] at number
      have tens : twoDigits d % 10 = d.toNat % 16 := by
        unfold twoDigits
        omega
      have carries : 100 ^ rest.length * (100 * last.toNat) =
          100 * (100 ^ rest.length * last.toNat) := Nat.mul_left_comm ..
      rw [carries] at number
      omega

/-! ### Two additions -/

/-- `ADDC A,#operand` and `DA A` come next, with a value in ACC and a carry. -/
def addingDecimals (acc operand : Byte) (carry : Bool) : Machine Unit :=
  ((Machine.boot fun address =>
    if address = 0#16 then 0x34#8 else if address = 1#16 then operand else 0xD4#8).setSfr
      Reg.acc acc).setSfr Reg.psw (if carry then Psw.c else 0#8)

/-- The end of an addition of two bytes. -/
def decimalAdded (acc operand : Byte) (carry : Bool) : Machine Unit :=
  let added := updateParity (runInstruction Hooks.none 0x34#8 (addingDecimals acc operand carry))
  updateParity (runInstruction Hooks.none 0xD4#8 added)

/-- The bytes of 3127 and 2495, and what each of them leaves. -/
theorem decimalAdded_carried :
    ((decimalAdded 0x27#8 0x95#8 false).cpu.carry = true ∧
      (decimalAdded 0x27#8 0x95#8 false).cpu.sfr Reg.acc = 0x22#8) ∧
      (decimalAdded 0x31#8 0x24#8 true).cpu.carry = false ∧
      (decimalAdded 0x31#8 0x24#8 true).cpu.sfr Reg.acc = 0x56#8 := by decide +kernel

/-- 3127 and 2495 make 5622, with a carry between the two bytes. -/
theorem decimal_addition_carried :
    DecimalLaw [(0x27#8, 0x95#8), (0x31#8, 0x24#8)] false [0x22#8, 0x56#8] false := by
  -- The second pair takes up the carry flag the first one left.
  obtain ⟨⟨carried, low⟩, kept, high⟩ := decimalAdded_carried
  have second := @DecimalRun.next _ Hooks.none (addingDecimals 0x31#8 0x24#8 true) _
    (decimalAdded 0x31#8 0x24#8 true) .immediate [] [] false rfl rfl rfl rfl (kept ▸ .done false)
  rw [high] at second
  have first := @DecimalRun.next _ Hooks.none (addingDecimals 0x27#8 0x95#8 false) _
    (decimalAdded 0x27#8 0x95#8 false) .immediate [(0x31#8, 0x24#8)] [0x56#8] false rfl rfl rfl rfl
    (carried ▸ second)
  rw [low] at first
  refine (decimal_addition Hooks.none ?_ first).mpr ⟨by decide, by decide, trivial⟩
  simp only [List.forall_mem_cons]
  exact ⟨by decide, by decide, fun _ member => absurd member List.not_mem_nil⟩

/-- 8 and 8 make 10. -/
theorem eightAndEight_unadjusted : DecimalRun Hooks.none [(0x08#8, 0x08#8)] false [0x10#8] false ∧
    PackedBcd 0x08#8 ∧ ¬DecimalLaw [(0x08#8, 0x08#8)] false [0x10#8] false :=
  ⟨@DecimalRun.next _ _ (addingDecimals 0x08#8 0x08#8 false) _
    (decimalAdded 0x08#8 0x08#8 false) .immediate [] [] false rfl rfl rfl rfl (.done false), by decide,
    fun law => absurd law.value (by decide)⟩

end Emu80535
