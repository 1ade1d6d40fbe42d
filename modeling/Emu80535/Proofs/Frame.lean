import Emu80535.Core.Host
import Emu80535.Lib.Fold

/-! The part of the CPU object that peripherals leave alone, and the part opcode bodies leave alone. -/

namespace Emu80535

variable {ω : Type}

/-! ### Two projections -/

/-- What neither a peripheral nor an opcode body changes. -/
structure Fixed where
  variant : Variant
  codeMem : Word → Byte
  codeMemMaxIdx : Word
  extDataMaxIdx : Word
  tickDelay : Nat
  mask : SabPort → Byte
  levels : SabPort → Byte
  schedule : Schedule
  resetSeed : BitVec 32
  resetSeedConfigured : Bool
  instructionCount : Nat
  machineCycleCount : Nat
  breakpointEnabled : Bool
  breakpoint : Word
  tracePc : Word
  inInstruction : Bool
  observed : Bool

/-- What no peripheral changes: the fixed part, the program state and the quiet registers. -/
structure Stable where
  fixed : Fixed
  extData : Option (Word → Byte)
  lowerData : SfrIndex → Byte
  upperData : Option (SfrIndex → Byte)
  pc : Word
  service : IrqService
  irqInhibit : Nat
  sfr : SfrIndex → Byte

/-- The registers peripherals write; the classic serial shortcut also owns P3. -/
def isVolatile (variant : Variant) (index : SfrIndex) : Bool :=
  [Reg.tcon, Reg.tl0, Reg.tl1, Reg.th0, Reg.th1, Reg.scon, Reg.sbuf, Reg.ircon, Reg.tl2, Reg.th2,
    Reg.adcon, Reg.addat].contains index || (variant != .sab80535 && index == Reg.p3)

namespace Cpu

/-- The fixed part of a CPU object. -/
def fixed (c : Cpu) : Fixed where
  variant := c.variant
  codeMem := c.codeMem
  codeMemMaxIdx := c.codeMemMaxIdx
  extDataMaxIdx := c.extDataMaxIdx
  tickDelay := c.tickDelay
  mask := c.pins.mask
  levels := c.pins.levels
  schedule := c.schedule
  resetSeed := c.resetSeed
  resetSeedConfigured := c.resetSeedConfigured
  instructionCount := c.instructionCount
  machineCycleCount := c.machineCycleCount
  breakpointEnabled := c.breakpointEnabled
  breakpoint := c.breakpoint
  tracePc := c.tracePc
  inInstruction := c.inInstruction
  observed := c.observed

/-- The stable part of a CPU object, with the volatile registers blanked out. -/
def stable (c : Cpu) : Stable where
  fixed := c.fixed
  extData := c.extData
  lowerData := c.lowerData
  upperData := c.upperData
  pc := c.pc
  service := c.service
  irqInhibit := c.irqInhibit
  sfr := fun index => if isVolatile c.variant index then 0#8 else c.sfr index

end Cpu

namespace Stable

/-- The stable part after a store to the register file. -/
def write (s : Stable) (index : SfrIndex) (value : Byte) : Stable :=
  { s with sfr :=
      Function.update s.sfr index (if isVolatile s.fixed.variant index then 0#8 else value) }

variable {a b : Cpu}

/-- Equal stable parts have equal fixed parts. -/
theorem fixed_eq (same : a.stable = b.stable) : a.fixed = b.fixed := congrArg Stable.fixed same

/-- Equal stable parts agree on every register no peripheral writes. -/
theorem sfr_eq (same : a.stable = b.stable) {index : SfrIndex}
    (quiet : isVolatile b.variant index = false) : a.sfr index = b.sfr index := by
  have variant : a.variant = b.variant := congrArg Fixed.variant (fixed_eq same)
  have entry := congrFun (congrArg Stable.sfr same) index
  simpa [Cpu.stable, variant, quiet] using entry

/-- On the Siemens CPU the quiet registers are those outside a fixed list. -/
theorem sfr_eq_sab (same : a.stable = b.stable) (sab : b.variant = .sab80535) {index : SfrIndex}
    (quiet : isVolatile .sab80535 index = false) : a.sfr index = b.sfr index :=
  sfr_eq same (sab ▸ quiet)

/-- Equal stable parts of the Siemens CPU have equal pins. -/
theorem getPins_eq (same : a.stable = b.stable) (sab : b.variant = .sab80535) (port : SabPort) :
    a.getPins port = b.getPins port := by
  have latch : a.sfr port.reg = b.sfr port.reg := by
    refine sfr_eq_sab same sab ?_
    cases port <;> rfl
  have mask : a.pins.mask = b.pins.mask := congrArg Fixed.mask (fixed_eq same)
  have levels : a.pins.levels = b.pins.levels := congrArg Fixed.levels (fixed_eq same)
  simp only [Cpu.getPins, latch, mask, levels]

/-- And equal levels at every external input. -/
theorem pinLevel_eq (same : a.stable = b.stable) (sab : b.variant = .sab80535)
    (source : ExternalSource) : a.pinLevel source = b.pinLevel source := by
  simp only [Cpu.pinLevel, getPins_eq same sab]

end Stable

/-! ### Stores outside the request registers -/

/-- A store that holds no request flags only changes its register. -/
theorem Machine.setSfr_other {index : SfrIndex} (value : Byte) (m : Machine ω)
    (other : isRequestReg index = false) :
    m.setSfr index value = m.mapCpu fun c => { c with sfr := Function.update c.sfr index value } := by
  simp only [Machine.setSfr, other, cond_false]
  rfl

/-- The request registers one by one. -/
theorem isRequestReg_cases {index : SfrIndex} (known : isRequestReg index = true) :
    index = Reg.tcon ∨ index = Reg.scon ∨ index = Reg.ircon := by
  simp only [isRequestReg, Bool.or_eq_true, beq_iff_eq] at known
  exact or_assoc.mp known

/-- Every source has its flags in one of them. -/
theorem requestReg_known (source : IrqSource) : isRequestReg source.requestReg = true := by
  cases source <;> rfl

/-- The registers an opcode body stores directly hold no request flags. -/
theorem CoreReg.index_other (reg : CoreReg) : isRequestReg reg.index = false := by
  cases reg <;> rfl

/-! ### Flag tests -/

section Flags

variable {x mask flag : Byte}

/-- A mask has no bit set. -/
theorem has_eq_false_iff : has x mask = false ↔ x &&& mask = 0#8 := by simp [has]

/-- A mask has some bit set. -/
theorem has_eq_true_iff : has x mask = true ↔ x &&& mask ≠ 0#8 := by simp [has]

/-- Setting bits sets a flag when it is among them. -/
theorem has_or : has (x ||| mask) flag = (has x flag || has mask flag) := by
  rw [Bool.eq_iff_iff]
  simp only [has_eq_true_iff, Bool.or_eq_true, BitVec.and_or_distrib_right, ne_eq,
    BitVec.or_eq_zero_iff]
  exact Decidable.not_and_iff_not_or_not

/-- A mask of two flags asks for either. -/
theorem has_either {a b : Byte} : has x (a ||| b) = (has x a || has x b) := by
  rw [Bool.eq_iff_iff]
  simp only [has_eq_true_iff, Bool.or_eq_true, BitVec.and_or_distrib_left, ne_eq,
    BitVec.or_eq_zero_iff]
  exact Decidable.not_and_iff_not_or_not

/-- Setting other bits does not show in a flag. -/
theorem has_or_of_disjoint (apart : mask &&& flag = 0#8) : has (x ||| mask) flag = has x flag := by
  rw [has_or, has_eq_false_iff.mpr apart, Bool.or_false]

/-- Clearing other bits does not show in a flag. -/
theorem has_andNot_of_disjoint (apart : mask &&& flag = 0#8) :
    has (x &&& ~~~mask) flag = has x flag := by
  -- Bit for bit: where the flag has a bit, the mask has none.
  have kept : ~~~mask &&& flag = flag := by
    apply BitVec.eq_of_getLsbD_eq
    intro i within
    have clear := congrArg (fun y : Byte => y.getLsbD i) apart
    simp only [BitVec.getLsbD_and, BitVec.getLsbD_not, within, decide_true, Bool.true_and] at clear ⊢
    revert clear
    cases mask.getLsbD i <;> simp
  simp only [has, BitVec.and_assoc, kept]

/-- Clearing bits sets no flag. -/
theorem has_of_and (set : has (x &&& mask) flag = true) : has x flag = true := by
  rw [has_eq_true_iff] at set ⊢
  intro clear
  apply set
  rw [BitVec.and_assoc, BitVec.and_comm mask flag, ← BitVec.and_assoc, clear, BitVec.zero_and]

/-- A flag just set is set. -/
theorem has_or_self (present : flag ≠ 0#8) : has (x ||| flag) flag = true := by
  have absorbed : (x ||| flag) &&& flag = flag := by
    apply BitVec.eq_of_getLsbD_eq
    intro i within
    simp only [BitVec.getLsbD_and, BitVec.getLsbD_or]
    cases flag.getLsbD i <;> simp
  simp [has, absorbed, present]

/-- A flag just cleared is clear. -/
theorem has_andNot_self : has (x &&& ~~~flag) flag = false := by
  rw [has_eq_false_iff]
  apply BitVec.eq_of_getLsbD_eq
  intro i within
  simp only [BitVec.getLsbD_and, BitVec.getLsbD_not, within, decide_true, Bool.true_and]
  cases flag.getLsbD i <;> simp

end Flags

/-! ### Elementary updates -/

namespace Machine

variable (hooks : Hooks ω) (m : Machine ω)

/-- The core is the only part a change of it reaches. -/
@[simp] theorem mapCpu_cpu (f : Cpu → Cpu) : (m.mapCpu f).cpu = f m.cpu := rfl

/-- The host is not reached. -/
@[simp] theorem mapCpu_host (f : Cpu → Cpu) : (m.mapCpu f).host = m.host := rfl

/-- A store leaves the host alone. -/
@[simp] theorem setSfr_host (index : SfrIndex) (value : Byte) :
    (m.setSfr index value).host = m.host := rfl

/-- A store updates one register. -/
@[simp] theorem setSfr_sfr (index : SfrIndex) (value : Byte) :
    (m.setSfr index value).cpu.sfr = Function.update m.cpu.sfr index value := rfl

/-- No register is fixed. -/
@[simp] theorem setSfr_fixed (index : SfrIndex) (value : Byte) :
    (m.setSfr index value).cpu.fixed = m.cpu.fixed := rfl

/-- A report leaves the core alone. -/
@[simp] theorem emit_cpu (record : Record) : (m.emit hooks record).cpu = m.cpu := rfl

/-- An observer never touches the CPU. -/
@[simp] theorem raw_cpu (fact : RawFact) : (m.raw hooks fact).cpu = m.cpu := by
  simp only [raw]
  split <;> rfl

/-- A store shows in the stable part exactly when its register is quiet. -/
theorem setSfr_stable_eq (index : SfrIndex) (value : Byte) :
    (m.setSfr index value).cpu.stable = m.cpu.stable.write index value := by
  -- The stored register is compared with the others one by one.
  have same : (m.setSfr index value).cpu.stable.sfr = (m.cpu.stable.write index value).sfr := by
    funext i
    show (if isVolatile m.cpu.variant i then 0#8 else Function.update m.cpu.sfr index value i)
      = Function.update m.cpu.stable.sfr index
          (if isVolatile m.cpu.variant index then 0#8 else value) i
    by_cases here : i = index
    · subst here
      simp
    · simp [Function.update_of_ne here, Cpu.stable]
  exact congrArg (fun sfr => { m.cpu.stable with sfr := sfr }) same

/-- A store of a volatile register is invisible in the stable part. -/
theorem setSfr_stable {index : SfrIndex} (value : Byte)
    (quiet : isVolatile m.cpu.variant index = true) :
    (m.setSfr index value).cpu.stable = m.cpu.stable := by
  have blank : m.cpu.stable.sfr index = 0#8 := by simp [Cpu.stable, quiet]
  have hidden : m.cpu.stable.write index value = m.cpu.stable := by
    simp only [Stable.write, Cpu.stable, Cpu.fixed, quiet, if_true]
    rw [Function.update_eq_self_iff.mpr]
    simp [quiet]
  rw [setSfr_stable_eq, hidden]

/-- Reporting the requests a store asserts changes nothing but the observer. -/
@[simp] theorem irqWrite_cpu (index : SfrIndex) (value : Byte) (cycle : Nat) :
    (m.irqWrite hooks index value cycle).cpu = (m.setSfr index value).cpu := by
  simp only [irqWrite]
  split
  · refine Fold.foldl_project Machine.cpu ?_ IrqSource.all (m.setSfr index value)
    intro b source
    split <;> simp
  · rfl

/-- The store is noted, and nothing else. -/
theorem irqWrite_stores (index : SfrIndex) (value : Byte) (cycle : Nat) :
    (m.irqWrite hooks index value cycle).stores = (m.setSfr index value).stores := by
  simp only [irqWrite]
  split
  · refine Fold.foldl_project Machine.stores ?_ IrqSource.all (m.setSfr index value)
    intro b source
    simp only [raw]
    split <;> first | rfl | split <;> rfl
  · rfl

/-- Clearing flags is a store. -/
@[simp] theorem clearFlags_cpu (index : SfrIndex) (mask : Byte) :
    (m.clearFlags index mask).cpu = (m.setSfr index (m.cpu.sfr index &&& ~~~mask)).cpu := rfl

/-- The record of level requests is not stable. -/
@[simp] theorem setLevelAsserted_stable (bit : Byte) (asserted : Bool) :
    (m.setLevelAsserted bit asserted).cpu.stable = m.cpu.stable := rfl

/-- Nor are the last samples. -/
@[simp] theorem setSampled_stable (bit : Byte) (level : Bool) :
    (m.setSampled bit level).cpu.stable = m.cpu.stable := rfl

/-- Nor is the serial port. -/
@[simp] theorem mapUart_stable (f : UartState → UartState) :
    (m.mapUart f).cpu.stable = m.cpu.stable := rfl

/-- Nor is the converter. -/
@[simp] theorem mapAdc_stable (f : AdcState → AdcState) :
    (m.mapAdc f).cpu.stable = m.cpu.stable := rfl

/-- A report of the serial port leaves the core alone. -/
@[simp] theorem emitUart_cpu (event : UartEvent) (cycle : Nat) (data : Byte) (ninth : Bool)
    (bitIndex : Nat) (bitValue : Bool) :
    (m.emitUart hooks event cycle data ninth bitIndex bitValue).cpu = m.cpu := rfl

/-- A report of the converter leaves the core alone. -/
@[simp] theorem emitAdc_cpu (event : AdcEvent) (cycle : Nat) :
    (m.emitAdc hooks event cycle).cpu = m.cpu := rfl

/-- A report of the controller leaves the core alone. -/
@[simp] theorem emitIrq_cpu (event : IrqEvent) (source priority : Nat) (asserted : Bool)
    (pending : Word) : (m.emitIrq hooks event source priority asserted pending).cpu = m.cpu := rfl

/-- A trace leaves the core alone. -/
@[simp] theorem traceEmit_cpu (type : TraceType) (address : Word) (value : Byte) :
    (m.traceEmit hooks type address value).cpu = m.cpu := by
  simp only [traceEmit]
  split <;> rfl

/-- An exception stores nothing that is stable. -/
@[simp] theorem raiseException_stable (code : ExceptionCode) :
    (m.raiseException hooks code).cpu.stable = m.cpu.stable := rfl

/-- Nor does one that is raised under a condition. -/
@[simp] theorem raiseIf_stable (condition : Bool) (code : ExceptionCode) :
    (m.raiseIf hooks condition code).cpu.stable = m.cpu.stable := by
  simp only [raiseIf]
  split <;> simp

end Machine

/-- After a reset every register but the serial buffer has its reset value. -/
theorem reset_sfr (wipe : Bool) (rand : Byte) (c : Cpu) {index : SfrIndex}
    (other : index ≠ Reg.sbuf) :
    (c.reset wipe rand).sfr index = resetSfr (c.reset wipe rand).variant wipe index :=
  Function.update_of_ne other _ _

end Emu80535
