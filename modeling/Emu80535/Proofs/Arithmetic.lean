import Mathlib.Data.Fintype.Basic
import Mathlib.Tactic.FinCases
import Emu80535.Proofs.Gate

/-! The additions to ACC and the subtractions from it, and the flags they leave. -/

namespace Emu80535

variable {ω : Type} {hooks : Hooks ω}

/-! ### Instructions -/

/-- The instructions that add to ACC or subtract from it. -/
inductive Arithmetic where
  | add
  | addc
  | subb
  deriving DecidableEq, Repr

/-- The addressing forms of their operand. -/
inductive Addressing where
  | immediate
  | direct
  | indirect (i : Fin 2)
  | register (n : Fin 8)
  deriving DecidableEq, Repr

namespace Addressing

/-- The low half of the opcode. -/
def column : Addressing → Nat
  | immediate => 4
  | direct => 5
  | indirect i => 6 + i
  | register n => 8 + n

/-- The operand, fetched the way the opcode bodies fetch it. -/
def fetch : Addressing → Op Byte
  | immediate => operand1
  | direct => do readMem (← operand1)
  | indirect _ => do
    let c ← Op.cpu
    pure (c.readIndir c.indirRxAddress)
  | register _ => do
    let c ← Op.cpu
    pure c.rx

end Addressing

namespace Arithmetic

/-- The high half of the opcode. -/
def row : Arithmetic → Nat
  | add => 2
  | addc => 3
  | subb => 9

/-- The opcode of an instruction in an addressing form. -/
def opcode (a : Arithmetic) (mode : Addressing) : Byte := BitVec.ofNat 8 (16 * a.row + mode.column)

/-- The carry or borrow that goes in. -/
def carryIn (a : Arithmetic) (c : Cpu) : Bool :=
  match a with
  | add => false
  | addc | subb => c.carry

/-- The 8-bit result. -/
def result (a : Arithmetic) (x y : Byte) (carry : Bool) : Byte :=
  match a with
  | add | addc => x + y + carryByte carry
  | subb => x - (y + carryByte carry)

/-- Whether the low bits carry into the bit above them, or borrow from it. -/
def carries (a : Arithmetic) (bits : Nat) (x y : Byte) (carry : Bool) : Bool :=
  match a with
  | add | addc => decide (2 ^ bits ≤ x.toNat % 2 ^ bits + y.toNat % 2 ^ bits + carry.toNat)
  | subb => decide (x.toNat % 2 ^ bits < y.toNat % 2 ^ bits + carry.toNat)

/-- The result of reading both operands as signed numbers. -/
def signed (a : Arithmetic) (x y : Byte) (carry : Bool) : Int :=
  match a with
  | add | addc => x.toInt + y.toInt + carry.toNat
  | subb => x.toInt - y.toInt - carry.toNat

/-- ACC and PSW after an instruction, as an 8051 leaves them. -/
structure Law (a : Arithmetic) (operand : Byte) (before after : Cpu) : Prop where
  acc : after.sfr Reg.acc = a.result (before.sfr Reg.acc) operand (a.carryIn before)
  carry : has (after.sfr Reg.psw) Psw.c =
    a.carries 8 (before.sfr Reg.acc) operand (a.carryIn before)
  auxiliary : has (after.sfr Reg.psw) Psw.ac =
    a.carries 4 (before.sfr Reg.acc) operand (a.carryIn before)
  overflow : has (after.sfr Reg.psw) Psw.ov = true ↔
    ¬(-128 ≤ a.signed (before.sfr Reg.acc) operand (a.carryIn before) ∧
      a.signed (before.sfr Reg.acc) operand (a.carryIn before) ≤ 127)
  kept : after.sfr Reg.psw &&& ~~~(Psw.c ||| Psw.ac ||| Psw.ov ||| Psw.p) =
    before.sfr Reg.psw &&& ~~~(Psw.c ||| Psw.ac ||| Psw.ov ||| Psw.p)

/-- PSW with the flags the opcode bodies compute, the auxiliary carry from the low three bits. -/
def flags (a : Arithmetic) (x y : Byte) (carry : Bool) (psw : Byte) : Byte :=
  (psw &&& ~~~(Psw.c ||| Psw.ac ||| Psw.ov)) |||
    flagByte (a.carries 8 x y carry) (a.carries 3 x y carry)
      (a.carries 7 x y carry ^^ a.carries 8 x y carry)

/-- The registers an instruction stores: the flags first, then ACC. -/
def stored (a : Arithmetic) (operand : Byte) (c : Cpu) : SfrIndex → Byte :=
  let x := c.sfr Reg.acc
  Function.update
    (Function.update c.sfr Reg.psw (a.flags x operand (a.carryIn c) (c.sfr Reg.psw)))
    Reg.acc (a.result x operand (a.carryIn c))

/-! ### Bodies -/

/-- Adding a fetched value. -/
theorem addAcc_stored (value : Byte) (length : Word) (m : Machine ω) :
    ((addAcc value false length).run hooks m).2.cpu.sfr = add.stored value m.cpu ∧
      ((addAcc value m.cpu.carry length).run hooks m).2.cpu.sfr = addc.stored value m.cpu :=
  ⟨rfl, rfl⟩

/-- Subtracting a fetched value. -/
theorem subAcc_stored (value : Byte) (length : Word) (m : Machine ω) :
    ((subAcc value m.cpu.carry length).run hooks m).2.cpu.sfr = subb.stored value m.cpu := rfl

/-- Reading a byte leaves the CPU alone. -/
theorem readMem_cpu (address : Byte) (m : Machine ω) :
    ((readMem address).run hooks m).2.cpu = m.cpu := by
  simp only [readMem]
  split
  · exact sfrRead_cpu hooks _ m
  · rfl

/-- Fetching an operand leaves the CPU alone. -/
theorem fetch_cpu (mode : Addressing) (m : Machine ω) :
    (mode.fetch.run hooks m).2.cpu = m.cpu := by
  cases mode with
  | immediate => exact operand1_cpu m
  | direct =>
    refine (congrArg (fun done => done.2.cpu) (Op.run_bind hooks operand1 readMem m)).trans ?_
    exact (readMem_cpu _ _).trans (operand1_cpu m)
  | indirect i => rfl
  | register n => rfl

/-- The second fetch of an immediate operand, once PSW is stored, yields the same byte. -/
theorem immediate_stored (flags : Byte → Byte) (next : Byte → Byte) (m : Machine ω) :
    let fetched := operand1.run hooks m
    let again := operand1.run hooks
      (fetched.2.setSfr Reg.psw (flags (fetched.2.cpu.sfr Reg.psw)))
    (again.2.setSfr Reg.acc (next again.1)).cpu.sfr =
      Function.update (Function.update m.cpu.sfr Reg.psw (flags (m.cpu.sfr Reg.psw))) Reg.acc
        (next fetched.1) := by
  intro fetched again
  -- Fetching an operand reports to the observer and leaves the CPU alone.
  have registers : again.2.cpu = (m.setSfr Reg.psw (flags (m.cpu.sfr Reg.psw))).cpu := by
    refine (operand1_cpu _).trans ?_
    simp only [fetched, Machine.setSfr, operand1_cpu]
  -- The second fetch reads the same address of the same code.
  have same : again.1 = fetched.1 := by
    show (Machine.setSfr Reg.psw _ fetched.2).cpu.code (fetched.2.cpu.pc + 1#16) =
      m.cpu.code (m.cpu.pc + 1#16)
    rw [operand1_cpu]
    exact congrFun (congrArg Cpu.code (operand1_cpu m)) _
  show Function.update again.2.cpu.sfr Reg.acc (next again.1) = _
  rw [registers, same]
  rfl

/-- What follows a direct operand runs on the machine its fetch left. -/
theorem direct_run (next : Byte → Op Nat) (m : Machine ω) :
    Op.run hooks (do next (← readMem (← operand1))) m =
      (next (Addressing.direct.fetch.run hooks m).1).run hooks
        (Addressing.direct.fetch.run hooks m).2 := by
  have fetched : Addressing.direct.fetch.run hooks m =
      (readMem (operand1.run hooks m).1).run hooks (operand1.run hooks m).2 :=
    Op.run_bind hooks operand1 readMem m
  -- The body is one sequence, in which the operand is fetched first.
  rw [fetched]
  refine (Op.run_bind hooks operand1 _ m).trans ?_
  exact Op.run_bind hooks (readMem (operand1.run hooks m).1) next _

/-- The body of every instruction stores what its operand makes of ACC and PSW. -/
theorem body_stored (a : Arithmetic) (mode : Addressing) (m : Machine ω) :
    ((opTable (a.opcode mode)).run hooks m).2.cpu.sfr =
      a.stored (mode.fetch.run hooks m).1 m.cpu := by
  -- The immediate form fetches its operand twice, the direct form once; the others have none.
  cases mode with
  | immediate =>
    let x := m.cpu.sfr Reg.acc
    let y := (operand1.run hooks m).1
    let carry := m.cpu.carry
    cases a with
    | add =>
      show (addAImm.run hooks m).2.cpu.sfr = _
      have fetchedTwice := @immediate_stored _ hooks (add.flags x y false)
        (x + · + carryByte false) m
      exact Eq.trans rfl (fetchedTwice.trans rfl)
    | addc =>
      show (addcAImm.run hooks m).2.cpu.sfr = _
      have fetchedTwice := @immediate_stored _ hooks (addc.flags x y carry)
        (x + · + carryByte carry) m
      exact Eq.trans rfl (fetchedTwice.trans rfl)
    | subb =>
      show (subbAImm.run hooks m).2.cpu.sfr = _
      have fetchedTwice := @immediate_stored _ hooks (subb.flags x y carry)
        (fun v => x - (v + carryByte carry)) m
      exact Eq.trans rfl (fetchedTwice.trans rfl)
  | direct =>
    let fetched := Addressing.direct.fetch.run hooks m
    have same : fetched.2.cpu = m.cpu := fetch_cpu .direct m
    rw [← same]
    cases a with
    | add =>
      show (addAMem.run hooks m).2.cpu.sfr = _
      rw [addAMem, direct_run]
      exact (addAcc_stored fetched.1 2#16 fetched.2).1
    | addc =>
      show (Op.run hooks (do addAcc (← readMem (← operand1)) m.cpu.carry 2#16) m).2.cpu.sfr = _
      rw [direct_run, ← same]
      exact (addAcc_stored fetched.1 2#16 fetched.2).2
    | subb =>
      show (Op.run hooks (do subAcc (← readMem (← operand1)) m.cpu.carry 2#16) m).2.cpu.sfr = _
      rw [direct_run, ← same]
      exact subAcc_stored fetched.1 2#16 fetched.2
  | indirect i => cases a <;> fin_cases i <;> rfl
  | register n => cases a <;> fin_cases n <;> rfl

/-! ### Flags -/

/-- The flag byte has the three flags, and nothing else. -/
theorem has_flagByte (carry auxcarry overflow : Bool) :
    has (flagByte carry auxcarry overflow) Psw.c = carry ∧
      has (flagByte carry auxcarry overflow) Psw.ac = auxcarry ∧
      has (flagByte carry auxcarry overflow) Psw.ov = overflow ∧
      flagByte carry auxcarry overflow &&& ~~~(Psw.c ||| Psw.ac ||| Psw.ov) = 0#8 := by
  cases carry <;> cases auxcarry <;> cases overflow <;> decide

section Flags

variable (a : Arithmetic) (x y : Byte) (carry : Bool) (psw : Byte)

/-- A flag byte and the other bits of PSW, taken apart again. -/
theorem has_flags {flag : Byte} (arithmetic : flag = Psw.c ∨ flag = Psw.ac ∨ flag = Psw.ov) :
    has (a.flags x y carry psw) flag =
      has (flagByte (a.carries 8 x y carry) (a.carries 3 x y carry)
        (a.carries 7 x y carry ^^ a.carries 8 x y carry)) flag := by
  -- The three arithmetic flags are cleared before they are set.
  have cleared : has (psw &&& ~~~(Psw.c ||| Psw.ac ||| Psw.ov)) flag = false := by
    rw [has_eq_false_iff, BitVec.and_assoc]
    have none : ~~~(Psw.c ||| Psw.ac ||| Psw.ov) &&& flag = 0#8 := by
      rcases arithmetic with rfl | rfl | rfl <;> decide
    rw [none, BitVec.and_zero]
  rw [flags, has_or, cleared, Bool.false_or]

/-- The carry flag is the carry out of the high bit. -/
theorem flags_carry : has (a.flags x y carry psw) Psw.c = a.carries 8 x y carry := by
  rw [has_flags _ _ _ _ _ (Or.inl rfl)]
  exact (has_flagByte ..).1

/-- The auxiliary carry comes out of bit 2. -/
theorem flags_auxiliary : has (a.flags x y carry psw) Psw.ac = a.carries 3 x y carry := by
  rw [has_flags _ _ _ _ _ (Or.inr (Or.inl rfl))]
  exact (has_flagByte ..).2.1

/-- The overflow flag is that the carries into and out of the high bit differ. -/
theorem flags_overflow :
    has (a.flags x y carry psw) Psw.ov = (a.carries 7 x y carry ^^ a.carries 8 x y carry) := by
  rw [has_flags _ _ _ _ _ (Or.inr (Or.inr rfl))]
  exact (has_flagByte ..).2.2.1

/-- The other bits of PSW stay. -/
theorem flags_kept :
    a.flags x y carry psw &&& ~~~(Psw.c ||| Psw.ac ||| Psw.ov) =
      psw &&& ~~~(Psw.c ||| Psw.ac ||| Psw.ov) := by
  rw [flags, BitVec.and_or_distrib_right, (has_flagByte ..).2.2.2, BitVec.or_zero,
    BitVec.and_assoc, BitVec.and_self]

/-- Unequal carries out of the two highest bits mean a signed result out of range. -/
theorem overflow_iff :
    (a.carries 7 x y carry ^^ a.carries 8 x y carry) = true ↔
      ¬(-128 ≤ a.signed x y carry ∧ a.signed x y carry ≤ 127) := by
  have xBound := x.isLt
  have yBound := y.isLt
  have carryBound := carry.toNat_le
  have differ : ∀ p q : Prop, [Decidable p] → [Decidable q] →
      ((decide p ^^ decide q) = true ↔ ¬(p ↔ q)) := by
    intro p q _ _
    by_cases p <;> by_cases q <;> simp [*]
  -- The signed readings differ from the unsigned ones by 256 for a set bit 7.
  cases a <;> simp only [carries, signed, BitVec.toInt_eq_toNat_cond, differ] <;>
    split_ifs <;> omega

end Flags

/-! ### Execution -/

/-- The parity flag is the only bit the parity update stores. -/
theorem parityBit_cases (acc : Byte) : parityBit acc = 0#8 ∨ parityBit acc = Psw.p := by
  simp only [parityBit]
  -- One bit of the table of parities, selected by the folded accumulator.
  generalize 0x6996#16 >>> ((acc ^^^ (acc >>> 4)) &&& 0xF#8).toNat = x
  rcases Nat.mod_two_eq_zero_or_one x.toNat with even | odd
  · left
    apply BitVec.eq_of_toNat_eq
    simp [even]
  · right
    apply BitVec.eq_of_toNat_eq
    simp [odd]

/-- What does not select the parity flag does not see its update. -/
theorem parity_apart {mask : Byte} (apart : Psw.p &&& mask = 0#8) (psw acc : Byte) :
    ((psw &&& ~~~Psw.p) ||| parityBit acc) &&& mask = psw &&& mask := by
  -- The update clears the parity bit and sets it again, and the mask selects neither.
  have kept : ~~~Psw.p &&& mask = mask := by
    apply BitVec.eq_of_getLsbD_eq
    intro i within
    have clear := congrArg (fun v : Byte => v.getLsbD i) apart
    simp only [BitVec.getLsbD_and, BitVec.getLsbD_not, within, decide_true,
      Bool.true_and] at clear ⊢
    revert clear
    cases Psw.p.getLsbD i <;> simp
  have parity : parityBit acc &&& mask = 0#8 := by
    rcases parityBit_cases acc with zero | one
    · rw [zero, BitVec.zero_and]
    · rw [one, apart]
  rw [BitVec.and_or_distrib_right, parity, BitVec.or_zero, BitVec.and_assoc, kept]

/-- ACC and PSW once an instruction and the parity update after it are done. -/
theorem executed (a : Arithmetic) (mode : Addressing) (m : Machine ω)
    (fetched : m.cpu.opcode = a.opcode mode) :
    let operand := (mode.fetch.run hooks m).1
    let after := (updateParity (runInstruction hooks m.cpu.opcode m)).cpu
    let acc := a.result (m.cpu.sfr Reg.acc) operand (a.carryIn m.cpu)
    after.sfr Reg.acc = acc ∧
      after.sfr Reg.psw =
        (a.flags (m.cpu.sfr Reg.acc) operand (a.carryIn m.cpu) (m.cpu.sfr Reg.psw) &&& ~~~Psw.p)
          ||| parityBit acc := by
  -- The report that closes the opcode writes no register.
  have registers : (runInstruction hooks m.cpu.opcode m).cpu.sfr =
      a.stored (mode.fetch.run hooks m).1 m.cpu := by
    rw [fetched, ← body_stored]
    simp only [runInstruction, Machine.raw_cpu]
    rfl
  -- The parity update leaves ACC alone and is made from it.
  constructor
  · have other : Reg.acc ≠ Reg.psw := by decide
    simp only [updateParity, Machine.setSfr]
    rw [Function.update_of_ne other, registers]
    rfl
  · show ((runInstruction hooks m.cpu.opcode m).cpu.sfr Reg.psw &&& ~~~Psw.p) |||
      parityBit ((runInstruction hooks m.cpu.opcode m).cpu.sfr Reg.acc) = _
    rw [registers]
    rfl

end Arithmetic

open Arithmetic

/--
An addition or subtraction leaves ACC and PSW as an 8051 does exactly when the carry out of bit 2
is the carry out of bit 3.
-/
theorem arithmetic_flags (hooks : Hooks ω) (a : Arithmetic) (mode : Addressing) (m : Machine ω)
    (fetched : m.cpu.opcode = a.opcode mode) :
    a.Law (mode.fetch.run hooks m).1 m.cpu
        (updateParity (runInstruction hooks m.cpu.opcode m)).cpu ↔
      a.carries 3 (m.cpu.sfr Reg.acc) (mode.fetch.run hooks m).1 (a.carryIn m.cpu) =
        a.carries 4 (m.cpu.sfr Reg.acc) (mode.fetch.run hooks m).1 (a.carryIn m.cpu) := by
  obtain ⟨acc, psw⟩ := @executed _ hooks a mode m fetched
  have flag : ∀ mask, Psw.p &&& mask = 0#8 →
      has ((updateParity (runInstruction hooks m.cpu.opcode m)).cpu.sfr Reg.psw) mask =
        has (a.flags (m.cpu.sfr Reg.acc) (mode.fetch.run hooks m).1 (a.carryIn m.cpu)
          (m.cpu.sfr Reg.psw)) mask := by
    intro mask apart
    rw [psw, has, has, parity_apart apart]
  have auxiliary := (flag Psw.ac rfl).trans (flags_auxiliary ..)
  -- Everything but AC is right in any case, so the law is the law of AC.
  constructor
  · intro law
    rw [← auxiliary, law.auxiliary]
  · intro same
    refine ⟨acc, (flag Psw.c rfl).trans (flags_carry ..), auxiliary.trans same, ?_, ?_⟩
    · rw [flag Psw.ov rfl, flags_overflow]
      exact overflow_iff ..
    · rw [psw, parity_apart rfl]
      have kept := flags_kept a (m.cpu.sfr Reg.acc) (mode.fetch.run hooks m).1 (a.carryIn m.cpu)
        (m.cpu.sfr Reg.psw)
      have narrower : ~~~(Psw.c ||| Psw.ac ||| Psw.ov ||| Psw.p) =
          ~~~(Psw.c ||| Psw.ac ||| Psw.ov) &&& ~~~Psw.p := rfl
      rw [narrower, ← BitVec.and_assoc, kept, BitVec.and_assoc]

/-- `ADD A,#8` comes next, with 8 or 1 in ACC. -/
def addingEight (acc : Byte) : Machine Unit :=
  (Machine.boot fun address => if address = 0#16 then 0x24#8 else 0x08#8).setSfr Reg.acc acc

/-- One and eight carry out of neither bit. -/
theorem arithmetic_flags_oneAndEight :
    Arithmetic.add.Law 8#8 (addingEight 1#8).cpu
      (updateParity (runInstruction Hooks.none 0x24#8 (addingEight 1#8))).cpu :=
  (arithmetic_flags Hooks.none .add .immediate (addingEight 1#8) rfl).mpr rfl

/-- Eight and eight carry out of bit 3 alone, and the auxiliary carry stays clear. -/
theorem eightAndEight_auxiliary_lost :
    ¬Arithmetic.add.Law (Addressing.immediate.fetch.run Hooks.none (addingEight 8#8)).1
      (addingEight 8#8).cpu
      (updateParity (runInstruction Hooks.none (addingEight 8#8).cpu.opcode
        (addingEight 8#8))).cpu :=
  fun law => absurd law.auxiliary (by decide)

end Emu80535
