import Emu80535.Core.Op

/-! The 256 opcode bodies and the table that dispatches to them. -/

namespace Emu80535

open Op

/-! ### Reading the instruction and the registers -/

/-- `CODEMEM`: code memory wraps at its configured size. -/
def Cpu.code (c : Cpu) (address : Word) : Byte := c.codeMem (address &&& c.codeMemMaxIdx)

/-- `OPCODE`. -/
def Cpu.opcode (c : Cpu) : Byte := c.code c.pc

/-- `DPTR`. -/
def Cpu.dptr (c : Cpu) : Word := c.sfr Reg.dph ++ c.sfr Reg.dpl

/-- `CARRY`. -/
def Cpu.carry (c : Cpu) : Bool := has (c.sfr Reg.psw) Psw.c

/-- `8 * PSW_BANK`. -/
def Cpu.bankBase (c : Cpu) : Byte := 8#8 * ((c.sfr Reg.psw &&& (Psw.rs0 ||| Psw.rs1)) >>> 3)

/-- `RX_ADDRESS`. -/
def Cpu.rxAddress (c : Cpu) : SfrIndex := ((c.opcode &&& 7#8) + c.bankBase).setWidth 7

/-- `INDIR_RX_ADDRESS`: the contents of R0 or R1. -/
def Cpu.indirRxAddress (c : Cpu) : Byte :=
  c.lowerData (((c.opcode &&& 1#8) + c.bankBase).setWidth 7)

/-- The register or internal RAM byte addressed by the instruction's low three bits. -/
def Cpu.rx (c : Cpu) : Byte := c.lowerData c.rxAddress

/-- `emu_cpu_operand`. -/
def operand (offset : Nat) : Op Byte := do
  let c ← cpu
  let value := c.code (c.pc + BitVec.ofNat 16 offset)
  -- Every fetch of an operand is told to the observer, also a second one of the same byte.
  perform (.fact (.operand c.machineCycleCount offset value))
  pure value

/-- `OPERAND1`. -/
def operand1 : Op Byte := operand 1

/-- `OPERAND2`. -/
def operand2 : Op Byte := operand 2

/-- Store ACC. -/
def setAcc (value : Byte) : Op Unit := perform (.setReg .acc value)

/-- Store PSW. -/
def setPsw (value : Byte) : Op Unit := perform (.setReg .psw value)

/-- Advance PC over an instruction of the given length. -/
def advancePc (length : Word) : Op Unit := do
  let c ← cpu
  perform (.setPc (c.pc + length))

/-- Take a relative branch from the end of an instruction. -/
def branchPc (offset : Byte) (length : Word) : Op Unit := do
  let c ← cpu
  perform (.setPc (c.pc + offset.signExtend 16 + length))

/-- Replace the carry flag. -/
def setCarry (carry : Bool) : Op Unit := do
  let c ← cpu
  setPsw ((c.sfr Reg.psw &&& ~~~Psw.c) ||| (if carry then Psw.c else 0#8))

/-! ### Memory -/

/-- `BAD_VALUE`: what an absent upper internal RAM answers. -/
def badValue : Byte := 0x77#8

/-- `read_mem`. -/
def readMem (address : Byte) : Op Byte :=
  if 0x7F#8 < address then Op.sfrRead (sfrIndex address) pure
  else do
    let c ← cpu
    pure (c.lowerData (address.setWidth 7))

/-- `read_mem_rmw`, which reports its read of the serial buffer. -/
def readMemRmw (address : Byte) : Op Byte :=
  if address = 0x99#8 then do
    -- The old value is told within the access that the write will end.
    let c ← cpu
    let access ← ask (.accessBegin c.machineCycleCount address true 0#8) pure
    let value ← Op.sfrRmwRead (sfrIndex address) pure
    let c ← cpu
    perform (.fact (.accessOld c.machineCycleCount access value))
    pure value
  else if 0x7F#8 < address then Op.sfrRmwRead (sfrIndex address) pure
  else do
    let c ← cpu
    pure (c.lowerData (address.setWidth 7))

/-- `read_mem_indir`, as a function of the CPU it leaves alone. -/
def Cpu.readIndir (c : Cpu) (address : Byte) : Byte :=
  if 0x7F#8 < address then
    match c.upperData with
    | some data => data (address.setWidth 7)
    | none => badValue
  else c.lowerData (address.setWidth 7)

/-- `write_mem`. -/
def writeMem (address value : Byte) : Op Unit :=
  -- Special function registers are written through their gateway.
  if 0x7F#8 < address then perform (.sfrWrite (sfrIndex address) value)
  else perform (.setLower (address.setWidth 7) value)

/-- `write_mem_indir`. -/
def writeMemIndir (address value : Byte) : Op Unit :=
  if 0x7F#8 < address then perform (.setUpper (address.setWidth 7) value)
  else perform (.setLower (address.setWidth 7) value)

/-- Whether a stack access at this address has internal RAM behind it. -/
def Cpu.stackBacked (c : Cpu) (address : Byte) : Bool :=
  !(decide (0x7F#8 < address) && c.upperData.isNone)

/-- `push_to_stack`: the stack pointer moves and the byte is stored even when it wraps to zero. -/
def pushToStack (value : Byte) : Op Bool := do
  let c ← cpu
  let sp := c.sfr Reg.sp + 1#8
  perform (.setReg .sp sp)
  if c.stackBacked sp then
    writeMemIndir sp value
    -- The exception is raised once the byte is in its place.
    if sp = 0#8 then
      perform (.raise .stack)
      pure false
    else pure true
  else
    -- Without internal RAM at the address nothing is stored, but the pointer has moved.
    perform (.raise .stack)
    pure false

/-- `pop_from_stack`, with no answer when the stack pointer wraps below zero. -/
def popFromStack : Op (Option Byte) := do
  let c ← cpu
  let sp := c.sfr Reg.sp
  if c.stackBacked sp then
    let value := c.readIndir sp
    perform (.setReg .sp (sp - 1#8))
    if sp - 1#8 = 0xFF#8 then
      -- The pointer has moved, but there is no byte to answer with.
      perform (.raise .stack)
      pure none
    else pure (some value)
  else
    perform (.raise .stack)
    pure none

/-! ### Flags -/

/-- The flag byte carry, auxiliary carry and overflow contribute. -/
def flagByte (carry auxcarry overflow : Bool) : Byte :=
  (if carry then Psw.c else 0#8) ||| (if auxcarry then Psw.ac else 0#8)
    ||| (if overflow then Psw.ov else 0#8)

/-- Replace the three arithmetic flags. -/
def solveFlags (carry auxcarry overflow : Bool) : Op Unit := do
  let c ← cpu
  setPsw ((c.sfr Reg.psw &&& ~~~(Psw.c ||| Psw.ac ||| Psw.ov)) ||| flagByte carry auxcarry overflow)

/-- `add_solve_flags`; the auxiliary carry is taken from the low three bits, as in the source. -/
def addSolveFlags (value1 value2 : Byte) (carryIn : Bool) : Op Unit :=
  let carries (bits : Nat) : Bool :=
    decide (2 ^ bits ≤ value1.toNat % 2 ^ bits + value2.toNat % 2 ^ bits + carryIn.toNat)
  -- Overflow is the carry into the sign bit against the carry out of it.
  solveFlags (carries 8) (carries 3) (carries 7 ^^ carries 8)

/-- `sub_solve_flags`, whose borrows are the sign bits of the three differences. -/
def subSolveFlags (value1 value2 : Byte) (carryIn : Bool) : Op Unit :=
  let borrow (bits : Nat) : Bool :=
    decide (value1.toNat % 2 ^ bits < value2.toNat % 2 ^ bits + carryIn.toNat)
  -- Overflow as in an addition, over borrows.
  solveFlags (borrow 8) (borrow 3) (borrow 7 ^^ borrow 8)

/-- A carry or borrow as the byte it adds. -/
def carryByte (carry : Bool) : Byte := if carry then 1#8 else 0#8

/-! ### Jumps and calls -/

/-- The target of AJMP and ACALL: eleven address bits within the following page. -/
def Cpu.ajmpTarget (c : Cpu) (low : Byte) : Word :=
  ((c.pc + 2#16) &&& 0xF800#16) ||| low.setWidth 16 ||| ((c.opcode &&& 0xE0#8).setWidth 16 <<< 3)

/-- `ajmp_offset`. -/
def ajmpOffset : Op Nat := do
  let low ← operand1
  let c ← cpu
  perform (.setPc (c.ajmpTarget low))
  pure 1

/-- `ljmp_address`. -/
def ljmpAddress : Op Nat := do
  let high ← operand1
  let low ← operand2
  perform (.setPc (high ++ low))
  pure 1

/-- `EMU_RAW_CONTEXT_PREFLIGHT`: an attached observer may refuse a call before it happens. -/
def preflight : Op Bool := do
  let c ← cpu
  if c.observed then
    -- An answer of zero refuses the call before its first push.
    let answer ← ask (.contextPreflight c.machineCycleCount) pure
    pure (answer != 0)
  else pure true

/-- The fact a completed call reports. -/
def callFact (target returnPc : Word) : Op Unit := do
  let c ← cpu
  let sp := c.sfr Reg.sp
  perform (.fact (.call c.machineCycleCount target returnPc (sp - 2#8) sp))

/-- `acall_offset`. -/
def acallOffset : Op Nat := do
  let low ← operand1
  let c ← cpu
  let target := c.ajmpTarget low
  let returnPc := c.pc + 2#16
  if ← preflight then
    -- The low byte of the return address is pushed first.
    if ← pushToStack (returnPc.setWidth 8) then
      if ← pushToStack ((returnPc >>> 8).setWidth 8) then
        callFact target returnPc
        perform (.setPc target)
  pure 1

/-- `lcall_address`, which reads its operands only after both pushes. -/
def lcallAddress : Op Nat := do
  if ← preflight then
    -- The address behind the instruction is taken before anything is pushed.
    let c ← cpu
    let returnPc := c.pc + 3#16
    if ← pushToStack (returnPc.setWidth 8) then
      if ← pushToStack ((returnPc >>> 8).setWidth 8) then
        let high ← operand1
        let low ← operand2
        callFact (high ++ low) returnPc
        perform (.setPc (high ++ low))
  pure 1

/-- `ret`. -/
def retOp : Op Nat := do
  -- The high byte was pushed last.
  if let some high ← popFromStack then
    if let some low ← popFromStack then
      perform (.setPc (high ++ low))
      let c ← cpu
      let sp := c.sfr Reg.sp
      perform (.fact (.ret c.machineCycleCount c.pc (sp + 2#8) sp))
  pure 1

/-- Raise a mismatch exception when a check fails. -/
def raiseUnless (ok : Bool) (code : ExceptionCode) : Op Unit :=
  if ok then pure () else perform (.raise code)

/-- The classic branch of `reti`, which answers false when a check aborts execution. -/
def classicReti (originalSp : Byte) : Op Bool := do
  let c ← cpu
  -- Outside a handler RETI is a plain return.
  if c.classic.interruptActive = 0#8 then pure true
  else
    let hi := decide (1#8 < c.classic.interruptActive)
    raiseUnless (c.classic.intA hi == c.sfr Reg.acc) .iretAccMismatch
    -- Each check may stop execution through the exception callback.
    if ← isAborted then pure false
    else
      raiseUnless (c.classic.intSp hi == originalSp) .iretSpMismatch
      if ← isAborted then pure false
      else
        raiseUnless (c.classic.intPsw hi &&& restoredFlags == c.sfr Reg.psw &&& restoredFlags)
          .iretPswMismatch
        if ← isAborted then pure false
        else
          let active := c.classic.interruptActive
          -- The high level is left before the low one.
          perform (.setInterruptActive (if has active 2#8 then active &&& ~~~2#8 else 0#8))
          pure true

/-- `reti` after both pops, which answers false when execution was aborted. -/
def leaveInterrupt (originalSp : Byte) : Op Bool := do
  let c ← cpu
  if c.variant = .sab80535 then
    perform (.irqReti originalSp)
    return !(← isAborted)
  else classicReti originalSp

/-- `reti`. -/
def reti : Op Nat := do
  let c ← cpu
  let originalSp := c.sfr Reg.sp
  -- A pop without an answer leaves the program counter where it is.
  let some high ← popFromStack | pure 1
  let some low ← popFromStack | pure 1
  if ← leaveInterrupt originalSp then
    perform (.setPc (high ++ low))
    let c ← cpu
    let sp := c.sfr Reg.sp
    perform (.fact (.reti c.machineCycleCount c.pc (sp + 2#8) sp))
    pure 1
  else pure 0

/-- Branch over an operand when a condition holds, else fall through; two-byte form. -/
def branchIf (condition : Cpu → Bool) : Op Nat := do
  let c ← cpu
  -- The offset is fetched only where the branch is taken.
  if condition c then
    branchPc (← operand1) 2#16
  else advancePc 2#16
  pure 1

/-- `jc_offset`. -/
def jcOffset : Op Nat := branchIf fun c => c.carry

/-- `jnc_offset`. -/
def jncOffset : Op Nat := branchIf fun c => !c.carry

/-- `jz_offset`. -/
def jzOffset : Op Nat := branchIf fun c => c.sfr Reg.acc == 0#8

/-- `jnz_offset`. -/
def jnzOffset : Op Nat := branchIf fun c => c.sfr Reg.acc != 0#8

/-- `sjmp_offset`. -/
def sjmpOffset : Op Nat := do
  branchPc (← operand1) 2#16
  pure 1

/-- `jmp_indir_a_dptr`. -/
def jmpIndirADptr : Op Nat := do
  let c ← cpu
  perform (.setPc (c.dptr + (c.sfr Reg.acc).setWidth 16))
  pure 1

/-- Branch over the second operand when a condition holds; three-byte form. -/
def branchIf3 (condition : Bool) : Op Nat := do
  -- As in the two-byte form, the offset of a branch not taken is not fetched.
  if condition then
    branchPc (← operand2) 3#16
  else advancePc 3#16
  pure 1

/-! ### Bit addressing -/

/-- The byte a bit address designates. -/
def bitLocation (address : Byte) : Byte :=
  -- Above 7Fh the bits are those of every eighth register, below they lie in 20h to 2Fh.
  if 0x7F#8 < address then address &&& 0xF8#8 else (address >>> 3) + 0x20#8

/-- The mask of a bit address within its byte. -/
def bitMask (address : Byte) : Byte := 1#8 <<< (address &&& 7#8)

/-- Read a bit, resolving port pins. -/
def readBit (address : Byte) : Op Bool := do
  let value ← readMem (bitLocation address)
  pure (has value (bitMask address))

/-- The output latch or internal RAM byte a bit instruction modifies. -/
def Cpu.latchByte (c : Cpu) (location : Byte) : Byte :=
  if 0x7F#8 < location then c.sfr (sfrIndex location) else c.lowerData (location.setWidth 7)

/--
Modify a byte from its output latch rather than its pins.

The answer is false when the write was aborted, which only a register write can be.
-/
def modifyLatch (location : Byte) (update : Cpu → Byte → Byte) : Op Bool := do
  let c ← cpu
  writeMem location (update c (c.latchByte location))
  -- A store of internal RAM asks no callback.
  if 0x7F#8 < location then return !(← isAborted) else pure true

/-- `jb_bitaddr_offset`. -/
def jbBitaddrOffset : Op Nat := do
  let bit ← readBit (← operand1)
  branchIf3 bit

/-- `jnb_bitaddr_offset`. -/
def jnbBitaddrOffset : Op Nat := do
  let bit ← readBit (← operand1)
  branchIf3 !bit

/-- `jbc_bitaddr_offset`, which tests and clears the latch. -/
def jbcBitaddrOffset : Op Nat := do
  let address ← operand1
  let c ← cpu
  let location := bitLocation address
  -- The bit is tested in the latch, not at the pins.
  if has (c.latchByte location) (bitMask address) then
    if ← modifyLatch location fun _ latch => latch &&& ~~~(bitMask address) then branchIf3 true
    else pure 0
  else branchIf3 false

/-- A bit instruction that combines a bit with the carry flag. -/
def carryOp (combine : Bool → Bool → Bool) (cycles : Nat) : Op Nat := do
  let address ← operand1
  -- The carry is read before the port is.
  let c ← cpu
  let bit ← readBit address
  setCarry (combine bit c.carry)
  advancePc 2#16
  pure cycles

/-- `orl_c_bitaddr`. -/
def orlCBitaddr : Op Nat := carryOp (fun bit carry => bit || carry) 1

/-- `anl_c_bitaddr`. -/
def anlCBitaddr : Op Nat := carryOp (fun bit carry => bit && carry) 0

/-- `orl_c_compl_bitaddr`. -/
def orlCComplBitaddr : Op Nat := carryOp (fun bit carry => !bit || carry) 0

/-- `anl_c_compl_bitaddr`. -/
def anlCComplBitaddr : Op Nat := carryOp (fun bit carry => !bit && carry) 0

/-- `mov_c_bitaddr`. -/
def movCBitaddr : Op Nat := carryOp (fun bit _ => bit) 0

/-- A bit instruction that modifies its bit in the latch. -/
def latchOp (update : Byte → Cpu → Byte → Byte) (cycles : Nat) : Op Nat := do
  let address ← operand1
  if ← modifyLatch (bitLocation address) (update address) then
    advancePc 2#16
    pure cycles
  else pure 0

/-- `mov_bitaddr_c`. -/
def movBitaddrC : Op Nat :=
  latchOp
    (fun address c latch =>
      (latch &&& ~~~(bitMask address)) ||| (if c.carry then bitMask address else 0#8)) 1

/-- `cpl_bitaddr`. -/
def cplBitaddr : Op Nat := latchOp (fun address _ latch => latch ^^^ bitMask address) 0

/-- `clr_bitaddr`. -/
def clrBitaddr : Op Nat := latchOp (fun address _ latch => latch &&& ~~~(bitMask address)) 0

/-- `setb_bitaddr`. -/
def setbBitaddr : Op Nat := latchOp (fun address _ latch => latch ||| bitMask address) 0

/-- `cpl_c`. -/
def cplC : Op Nat := do
  let c ← cpu
  setPsw (c.sfr Reg.psw ^^^ Psw.c)
  advancePc 1#16
  pure 0

/-- `clr_c`. -/
def clrC : Op Nat := do
  let c ← cpu
  setPsw (c.sfr Reg.psw &&& ~~~Psw.c)
  advancePc 1#16
  pure 0

/-- `setb_c`. -/
def setbC : Op Nat := do
  let c ← cpu
  setPsw (c.sfr Reg.psw ||| Psw.c)
  advancePc 1#16
  pure 0

/-! ### Accumulator -/

/-- An instruction that replaces ACC by a function of the CPU. -/
def accOp (f : Cpu → Byte) : Op Nat := do
  let c ← cpu
  setAcc (f c)
  advancePc 1#16
  pure 0

/-- `rr_a`. -/
def rrA : Op Nat := accOp fun c => (c.sfr Reg.acc >>> 1) ||| (c.sfr Reg.acc <<< 7)

/-- `rl_a`. -/
def rlA : Op Nat := accOp fun c => (c.sfr Reg.acc <<< 1) ||| (c.sfr Reg.acc >>> 7)

/-- `inc_a`. -/
def incA : Op Nat := accOp fun c => c.sfr Reg.acc + 1#8

/-- `dec_a`. -/
def decA : Op Nat := accOp fun c => c.sfr Reg.acc - 1#8

/-- `swap_a`. -/
def swapA : Op Nat := accOp fun c => (c.sfr Reg.acc <<< 4) ||| (c.sfr Reg.acc >>> 4)

/-- `clr_a`. -/
def clrA : Op Nat := accOp fun _ => 0#8

/-- `cpl_a`. -/
def cplA : Op Nat := accOp fun c => ~~~(c.sfr Reg.acc)

/-- `mov_a_rx`. -/
def movARx : Op Nat := accOp fun c => c.rx

/-- `mov_a_indir_rx`. -/
def movAIndirRx : Op Nat := accOp fun c => c.readIndir c.indirRxAddress

/-- `movc_a_indir_a_pc`. -/
def movcAIndirAPc : Op Nat :=
  accOp fun c => c.code (c.pc + 1#16 + (c.sfr Reg.acc).setWidth 16)

/-- `movc_a_indir_a_dptr`. -/
def movcAIndirADptr : Op Nat := do
  let _ ← accOp fun c => c.code (c.dptr + (c.sfr Reg.acc).setWidth 16)
  pure 1

/-- `rrc_a`. -/
def rrcA : Op Nat := do
  let c ← cpu
  -- Both results are taken from the values before the rotation.
  setAcc ((c.sfr Reg.acc >>> 1) ||| (carryByte c.carry <<< 7))
  setCarry (has (c.sfr Reg.acc) 1#8)
  advancePc 1#16
  pure 0

/-- `rlc_a`. -/
def rlcA : Op Nat := do
  let c ← cpu
  -- As in RRC, the carry goes in as the new bit.
  setAcc ((c.sfr Reg.acc <<< 1) ||| carryByte c.carry)
  setCarry (has (c.sfr Reg.acc) 0x80#8)
  advancePc 1#16
  pure 0

/-- Combine a value with ACC bit by bit. -/
def logicAcc (f : Byte → Byte → Byte) (value : Byte) (length : Word) : Op Nat := do
  let c ← cpu
  setAcc (f (c.sfr Reg.acc) value)
  advancePc length
  pure 0

/-- The immediate form of a logic instruction. -/
def logicImm (f : Byte → Byte → Byte) : Op Nat := do logicAcc f (← operand1) 2#16

/-- The direct form of a logic instruction. -/
def logicMem (f : Byte → Byte → Byte) : Op Nat := do logicAcc f (← readMem (← operand1)) 2#16

/-- The indirect form of a logic instruction. -/
def logicIndirRx (f : Byte → Byte → Byte) : Op Nat := do
  let c ← cpu
  logicAcc f (c.readIndir c.indirRxAddress) 1#16

/-- The register form of a logic instruction. -/
def logicRx (f : Byte → Byte → Byte) : Op Nat := do
  let c ← cpu
  logicAcc f c.rx 1#16

/-- `orl_a_imm`. -/
def orlAImm : Op Nat := logicImm (· ||| ·)

/-- `orl_a_mem`. -/
def orlAMem : Op Nat := logicMem (· ||| ·)

/-- `orl_a_indir_rx`. -/
def orlAIndirRx : Op Nat := logicIndirRx (· ||| ·)

/-- `orl_a_rx`. -/
def orlARx : Op Nat := logicRx (· ||| ·)

/-- `anl_a_imm`. -/
def anlAImm : Op Nat := logicImm (· &&& ·)

/-- `anl_a_mem`. -/
def anlAMem : Op Nat := logicMem (· &&& ·)

/-- `anl_a_indir_rx`. -/
def anlAIndirRx : Op Nat := logicIndirRx (· &&& ·)

/-- `anl_a_rx`. -/
def anlARx : Op Nat := logicRx (· &&& ·)

/-- `xrl_a_imm`. -/
def xrlAImm : Op Nat := logicImm (· ^^^ ·)

/-- `xrl_a_mem`. -/
def xrlAMem : Op Nat := logicMem (· ^^^ ·)

/-- `xrl_a_indir_rx`. -/
def xrlAIndirRx : Op Nat := logicIndirRx (· ^^^ ·)

/-- `xrl_a_rx`. -/
def xrlARx : Op Nat := logicRx (· ^^^ ·)

/-- Add a value and a carry to ACC. -/
def addAcc (value : Byte) (carry : Bool) (length : Word) : Op Nat := do
  let c ← cpu
  -- The flags are those of the operands before the sum is stored.
  addSolveFlags (c.sfr Reg.acc) value carry
  setAcc (c.sfr Reg.acc + value + carryByte carry)
  advancePc length
  pure 0

/-- Subtract a value and a borrow from ACC. -/
def subAcc (value : Byte) (carry : Bool) (length : Word) : Op Nat := do
  let c ← cpu
  subSolveFlags (c.sfr Reg.acc) value carry
  setAcc (c.sfr Reg.acc - (value + carryByte carry))
  advancePc length
  pure 0

/-- The immediate additions fetch their operand once for the flags and once for the sum. -/
def addImm (carryIn : Cpu → Bool) : Op Nat := do
  let c ← cpu
  -- The first fetch, for the flags.
  addSolveFlags (c.sfr Reg.acc) (← operand1) (carryIn c)
  -- The second fetch, for the sum.
  setAcc (c.sfr Reg.acc + (← operand1) + carryByte (carryIn c))
  advancePc 2#16
  pure 0

/-- `add_a_imm`. -/
def addAImm : Op Nat := addImm fun _ => false

/-- `add_a_mem`. -/
def addAMem : Op Nat := do addAcc (← readMem (← operand1)) false 2#16

/-- `add_a_indir_rx`. -/
def addAIndirRx : Op Nat := do
  let c ← cpu
  addAcc (c.readIndir c.indirRxAddress) false 1#16

/-- `add_a_rx`. -/
def addARx : Op Nat := do
  let c ← cpu
  addAcc c.rx false 1#16

/-- `addc_a_imm`. -/
def addcAImm : Op Nat := addImm Cpu.carry

/-- `addc_a_mem`. -/
def addcAMem : Op Nat := do
  let c ← cpu
  addAcc (← readMem (← operand1)) c.carry 2#16

/-- `addc_a_indir_rx`. -/
def addcAIndirRx : Op Nat := do
  let c ← cpu
  addAcc (c.readIndir c.indirRxAddress) c.carry 1#16

/-- `addc_a_rx`. -/
def addcARx : Op Nat := do
  let c ← cpu
  addAcc c.rx c.carry 1#16

/-- `subb_a_imm`, which fetches its operand twice. -/
def subbAImm : Op Nat := do
  let c ← cpu
  -- The first fetch, for the flags.
  subSolveFlags (c.sfr Reg.acc) (← operand1) c.carry
  -- The second fetch, for the difference.
  setAcc (c.sfr Reg.acc - ((← operand1) + carryByte c.carry))
  advancePc 2#16
  pure 0

/-- `subb_a_mem`. -/
def subbAMem : Op Nat := do
  let c ← cpu
  subAcc (← readMem (← operand1)) c.carry 2#16

/-- `subb_a_indir_rx`. -/
def subbAIndirRx : Op Nat := do
  let c ← cpu
  subAcc (c.readIndir c.indirRxAddress) c.carry 1#16

/-- `subb_a_rx`. -/
def subbARx : Op Nat := do
  let c ← cpu
  subAcc c.rx c.carry 1#16

/-- `da_a`; the second test sees the sum left by the first. -/
def daA : Op Nat := do
  let c ← cpu
  let psw := c.sfr Reg.psw
  let acc := (c.sfr Reg.acc).setWidth 16
  let result := if 9#16 < acc &&& 0xF#16 ∨ has psw Psw.ac then acc + 6#16 else acc
  let result :=
    if 0x90#16 < result &&& 0xFF0#16 ∨ has psw Psw.c then result + 0x60#16 else result
  -- The carry is set by the sum, and never cleared.
  if 0x99#16 < result then setPsw (psw ||| Psw.c)
  setAcc (result.setWidth 8)
  advancePc 1#16
  pure 0

/-- `mul_ab`. -/
def mulAb : Op Nat := do
  let c ← cpu
  let product : Word := (c.sfr Reg.acc).setWidth 16 * (c.sfr Reg.b).setWidth 16
  let high := (product >>> 8).setWidth 8
  setAcc (product.setWidth 8)
  perform (.setReg .b high)
  -- The carry is cleared, and the overflow tells that the product has a high byte.
  let psw := c.sfr Reg.psw &&& ~~~(Psw.c ||| Psw.ov)
  setPsw (if high != 0#8 then psw ||| Psw.ov else psw)
  advancePc 1#16
  pure 3

/-- `div_ab`, which reports a zero divisor in OV and leaves both registers alone. -/
def divAb : Op Nat := do
  let c ← cpu
  let a := c.sfr Reg.acc
  let b := c.sfr Reg.b
  let psw := c.sfr Reg.psw &&& ~~~(Psw.c ||| Psw.ov)
  setPsw (if b = 0#8 then psw ||| Psw.ov else psw)
  -- Both registers are computed from the values before the division.
  setAcc (if b = 0#8 then a else a / b)
  perform (.setReg .b (if b = 0#8 then b else a % b))
  advancePc 1#16
  pure 3

/-! ### Read-modify-write of a direct byte -/

/-- Write a direct byte and step over the instruction, unless the write was aborted. -/
def storeMem (address value : Byte) (length : Word) (cycles : Nat) : Op Nat := do
  writeMem address value
  -- An abort in the write leaves the instruction unfinished.
  if ← isAborted then pure 0
  else
    advancePc length
    pure cycles

/-- `inc_mem`. -/
def incMem : Op Nat := do
  let address ← operand1
  let value ← readMemRmw address
  storeMem address (value + 1#8) 2#16 0

/-- `dec_mem`. -/
def decMem : Op Nat := do
  let address ← operand1
  let value ← readMemRmw address
  storeMem address (value - 1#8) 2#16 0

/-- `orl_mem_a`. -/
def orlMemA : Op Nat := do
  let address ← operand1
  let value ← readMemRmw address
  let c ← cpu
  storeMem address (value ||| c.sfr Reg.acc) 2#16 0

/-- The three-byte logic instructions on a direct byte. -/
def logicMemImm (f : Byte → Byte → Byte) : Op Nat := do
  let address ← operand1
  let value ← readMemRmw address
  -- The immediate operand is fetched behind the byte.
  storeMem address (f value (← operand2)) 3#16 1

/-- `orl_mem_imm`. -/
def orlMemImm : Op Nat := logicMemImm (· ||| ·)

/-- `anl_mem_imm`. -/
def anlMemImm : Op Nat := logicMemImm (· &&& ·)

/-- `xrl_mem_imm`. -/
def xrlMemImm : Op Nat := logicMemImm (· ^^^ ·)

/-- ANL and XRL with ACC modify the register file directly, not through the latch read. -/
def logicMemAcc (f : Byte → Byte → Byte) : Op Nat := do
  let address ← operand1
  if ← modifyLatch address fun c latch => f latch (c.sfr Reg.acc) then
    advancePc 2#16
  pure 0

/-- `anl_mem_a`. -/
def anlMemA : Op Nat := logicMemAcc (· &&& ·)

/-- `xrl_mem_a`. -/
def xrlMemA : Op Nat := logicMemAcc (· ^^^ ·)

/-- `djnz_mem_offset`. -/
def djnzMemOffset : Op Nat := do
  let address ← operand1
  let value ← readMemRmw address
  writeMem address (value - 1#8)
  -- The branch is taken on the value written.
  if ← isAborted then pure 0
  else branchIf3 (value - 1#8 != 0#8)

/-! ### Moves -/

/-- `mov_a_imm`. -/
def movAImm : Op Nat := do
  setAcc (← operand1)
  advancePc 2#16
  pure 0

/-- `mov_a_mem`; reading ACC itself is reported as an invalid instruction. -/
def movAMem : Op Nat := do
  let address ← operand1
  let value ← readMem address
  -- The read has been made when the instruction is found to be invalid.
  raiseUnless (address != sfrAddress Reg.acc) .accToA
  if ← isAborted then pure 0
  else
    setAcc value
    advancePc 2#16
    pure 0

/-- `mov_mem_imm`. -/
def movMemImm : Op Nat := do
  let address ← operand1
  let value ← operand2
  storeMem address value 3#16 1

/-- `mov_mem_mem`, whose source operand comes first. -/
def movMemMem : Op Nat := do
  let source ← operand1
  let target ← operand2
  let value ← readMem source
  storeMem target value 3#16 1

/-- `mov_mem_indir_rx`. -/
def movMemIndirRx : Op Nat := do
  let c ← cpu
  let target ← operand1
  storeMem target (c.readIndir c.indirRxAddress) 2#16 1

/-- `mov_mem_a`. -/
def movMemA : Op Nat := do
  let address ← operand1
  let c ← cpu
  storeMem address (c.sfr Reg.acc) 2#16 0

/-- `mov_mem_rx`. -/
def movMemRx : Op Nat := do
  let c ← cpu
  let address ← operand1
  storeMem address c.rx 2#16 1

/-- `mov_dptr_imm`. -/
def movDptrImm : Op Nat := do
  perform (.setReg .dph (← operand1))
  perform (.setReg .dpl (← operand2))
  advancePc 3#16
  pure 1

/-- `inc_dptr`. -/
def incDptr : Op Nat := do
  let c ← cpu
  let low := c.sfr Reg.dpl + 1#8
  perform (.setReg .dpl low)
  -- The high byte moves where the low one has wrapped.
  if low = 0#8 then perform (.setReg .dph (c.sfr Reg.dph + 1#8))
  advancePc 1#16
  pure 1

/-- `mov_indir_rx_imm`. -/
def movIndirRxImm : Op Nat := do
  let c ← cpu
  writeMemIndir c.indirRxAddress (← operand1)
  advancePc 2#16
  pure 0

/-- `mov_indir_rx_mem`. -/
def movIndirRxMem : Op Nat := do
  let c ← cpu
  writeMemIndir c.indirRxAddress (← readMem (← operand1))
  advancePc 2#16
  pure 1

/-- Replace the indirectly addressed byte. -/
def indirOp (f : Cpu → Byte → Byte) : Op Nat := do
  let c ← cpu
  let address := c.indirRxAddress
  writeMemIndir address (f c (c.readIndir address))
  advancePc 1#16
  pure 0

/-- `mov_indir_rx_a`. -/
def movIndirRxA : Op Nat := indirOp fun c _ => c.sfr Reg.acc

/-- `inc_indir_rx`. -/
def incIndirRx : Op Nat := indirOp fun _ value => value + 1#8

/-- `dec_indir_rx`. -/
def decIndirRx : Op Nat := indirOp fun _ value => value - 1#8

/-- `xch_a_indir_rx`. -/
def xchAIndirRx : Op Nat := do
  let c ← cpu
  let address := c.indirRxAddress
  -- Both sides are taken before the exchange.
  writeMemIndir address (c.sfr Reg.acc)
  setAcc (c.readIndir address)
  advancePc 1#16
  pure 0

/-- `xchd_a_indir_rx`; ACC is updated before its low nibble is stored, as in the source. -/
def xchdAIndirRx : Op Nat := do
  let c ← cpu
  let address := c.indirRxAddress
  -- The address is that of the state before the exchange.
  let value := c.readIndir address
  let acc := (c.sfr Reg.acc &&& 0xF0#8) ||| (value &&& 0x0F#8)
  setAcc acc
  writeMemIndir address ((value &&& 0xF0#8) ||| (acc &&& 0x0F#8))
  advancePc 1#16
  pure 0

/-- `xch_a_mem`. -/
def xchAMem : Op Nat := do
  let address ← operand1
  let value ← readMem address
  let c ← cpu
  writeMem address (c.sfr Reg.acc)
  if ← isAborted then pure 0
  else
    setAcc value
    advancePc 2#16
    pure 0

/-- `push_mem`. -/
def pushMem : Op Nat := do
  -- The address of the operand is read before the stack pointer moves.
  if ← pushToStack (← readMem (← operand1)) then advancePc 2#16
  pure 1

/-- `pop_mem`. -/
def popMem : Op Nat := do
  let address ← operand1
  -- The stack pointer has moved by the time the byte is stored.
  let some value ← popFromStack | pure 1
  storeMem address value 2#16 1

/-- Replace the addressed register of the current bank. -/
def rxOp (f : Cpu → Byte) : Op Nat := do
  let c ← cpu
  perform (.setLower c.rxAddress (f c))
  advancePc 1#16
  pure 0

/-- `inc_rx`. -/
def incRx : Op Nat := rxOp fun c => c.rx + 1#8

/-- `dec_rx`. -/
def decRx : Op Nat := rxOp fun c => c.rx - 1#8

/-- `mov_rx_a`. -/
def movRxA : Op Nat := rxOp fun c => c.sfr Reg.acc

/-- `mov_rx_imm`. -/
def movRxImm : Op Nat := do
  let c ← cpu
  perform (.setLower c.rxAddress (← operand1))
  advancePc 2#16
  pure 0

/-- `mov_rx_mem`. -/
def movRxMem : Op Nat := do
  let c ← cpu
  perform (.setLower c.rxAddress (← readMem (← operand1)))
  advancePc 2#16
  pure 1

/-- `xch_a_rx`. -/
def xchARx : Op Nat := do
  let c ← cpu
  -- The register is read from the state before the exchange.
  setAcc c.rx
  perform (.setLower c.rxAddress (c.sfr Reg.acc))
  advancePc 1#16
  pure 0

/-- `djnz_rx_offset`. -/
def djnzRxOffset : Op Nat := do
  let c ← cpu
  let value := c.rx - 1#8
  perform (.setLower c.rxAddress value)
  -- Only a branch that is taken fetches its offset.
  if value != 0#8 then
    branchPc (← operand1) 2#16
  else advancePc 2#16
  pure 1

/-! ### Compare and branch -/

/-- Compare two values, leaving the borrow in carry, and branch when they differ. -/
def compareBranch (left right : Byte) : Op Nat := do
  -- The carry is that of an unsigned comparison.
  setCarry (decide (left < right))
  branchIf3 (left != right)

/-- `cjne_a_imm_offset`. -/
def cjneAImmOffset : Op Nat := do
  let value ← operand1
  let c ← cpu
  compareBranch (c.sfr Reg.acc) value

/-- `cjne_a_mem_offset`. -/
def cjneAMemOffset : Op Nat := do
  let value ← readMem (← operand1)
  let c ← cpu
  compareBranch (c.sfr Reg.acc) value

/-- `cjne_indir_rx_imm_offset`. -/
def cjneIndirRxImmOffset : Op Nat := do
  let c ← cpu
  compareBranch (c.readIndir c.indirRxAddress) (← operand1)

/-- `cjne_rx_imm_offset`. -/
def cjneRxImmOffset : Op Nat := do
  let c ← cpu
  compareBranch c.rx (← operand1)

/-! ### External data -/

/-- `movx_context_emit` with the context `movx_context_capture` took before the access. -/
def movxEmit (context : Cpu) (address : Word) (write : Bool) (value : Byte) : Op Unit :=
  perform (.emit (.movx context.machineCycleCount context.pc address write value
    (context.sfr Reg.p1)))

/-- The tail of a MOVX read, once it is known whether anything answered. -/
def movxReadTail (context : Cpu) (address : Word) (supported : Bool) : Op Nat := do
  let c ← cpu
  -- The access is reported with the context from before it.
  movxEmit context address false (c.sfr Reg.acc)
  perform (.trace (if supported then .movxRead else .unsupportedMovxRead) address (c.sfr Reg.acc))
  advancePc 1#16
  pure 1

/-- MOVX into ACC: the callback first, then the embedder's buffer, else an unsupported access. -/
def movxRead (address : Word) : Op Nat := do
  let context ← cpu
  match ← busRead address pure with
  -- The callback answers first.
  | some value =>
    if ← isAborted then pure 0
    else
      setAcc value
      movxReadTail context address true
  | none =>
    -- Then the buffer of external data, where there is one.
    match context.extData with
    | some data =>
      setAcc (data (address &&& context.extDataMaxIdx))
      movxReadTail context address true
    | none => movxReadTail context address false

/-- The tail of a MOVX write. -/
def movxWriteTail (context : Cpu) (address : Word) (supported : Bool) : Op Nat := do
  let c ← cpu
  movxEmit context address true (context.sfr Reg.acc)
  perform
    (.trace (if supported then .movxWrite else .unsupportedMovxWrite) address (c.sfr Reg.acc))
  advancePc 1#16
  pure 1

/-- MOVX from ACC. -/
def movxWrite (address : Word) : Op Nat := do
  let context ← cpu
  if ← busWrite address (context.sfr Reg.acc) pure then
    -- Aborted by the callback.
    if ← isAborted then pure 0
    else movxWriteTail context address true
  else
    -- A write without buffer is lost, but still reported.
    perform (.setExt address (context.sfr Reg.acc))
    movxWriteTail context address context.extData.isSome

/-- `movx_a_indir_dptr`. -/
def movxAIndirDptr : Op Nat := do movxRead (← cpu).dptr

/-- `movx_a_indir_rx`. -/
def movxAIndirRx : Op Nat := do movxRead ((← cpu).indirRxAddress.setWidth 16)

/-- `movx_indir_dptr_a`. -/
def movxIndirDptrA : Op Nat := do movxWrite (← cpu).dptr

/-- `movx_indir_rx_a`. -/
def movxIndirRxA : Op Nat := do movxWrite ((← cpu).indirRxAddress.setWidth 16)

/-- `nop`, which also stands in the one unused slot and reports it there. -/
def nop : Op Nat := do
  let c ← cpu
  raiseUnless (c.opcode == 0#8) .illegalOpcode
  if ← isAborted then pure 0
  else
    advancePc 1#16
    pure 0

/-! ### Dispatch -/

/-- The register forms, which `op_setptrs` installs in the upper half of each row. -/
def rxRow : List (Op Nat) :=
  [incRx, decRx, addARx, addcARx, orlARx, anlARx, xrlARx, movRxImm,
   movMemRx, subbARx, movRxMem, cjneRxImmOffset, xchARx, djnzRxOffset, movARx, movRxA]

/-- The lower half of each row of the opcode map. -/
def opRows : List (List (Op Nat)) :=
  [[nop, ajmpOffset, ljmpAddress, rrA, incA, incMem, incIndirRx, incIndirRx],
   [jbcBitaddrOffset, acallOffset, lcallAddress, rrcA, decA, decMem, decIndirRx, decIndirRx],
   [jbBitaddrOffset, ajmpOffset, retOp, rlA, addAImm, addAMem, addAIndirRx, addAIndirRx],
   [jnbBitaddrOffset, acallOffset, reti, rlcA, addcAImm, addcAMem, addcAIndirRx, addcAIndirRx],
   [jcOffset, ajmpOffset, orlMemA, orlMemImm, orlAImm, orlAMem, orlAIndirRx, orlAIndirRx],
   [jncOffset, acallOffset, anlMemA, anlMemImm, anlAImm, anlAMem, anlAIndirRx, anlAIndirRx],
   [jzOffset, ajmpOffset, xrlMemA, xrlMemImm, xrlAImm, xrlAMem, xrlAIndirRx, xrlAIndirRx],
   [jnzOffset, acallOffset, orlCBitaddr, jmpIndirADptr, movAImm, movMemImm, movIndirRxImm,
     movIndirRxImm],
   [sjmpOffset, ajmpOffset, anlCBitaddr, movcAIndirAPc, divAb, movMemMem, movMemIndirRx,
     movMemIndirRx],
   [movDptrImm, acallOffset, movBitaddrC, movcAIndirADptr, subbAImm, subbAMem, subbAIndirRx,
     subbAIndirRx],
   [orlCComplBitaddr, ajmpOffset, movCBitaddr, incDptr, mulAb, nop, movIndirRxMem, movIndirRxMem],
   [anlCComplBitaddr, acallOffset, cplBitaddr, cplC, cjneAImmOffset, cjneAMemOffset,
     cjneIndirRxImmOffset, cjneIndirRxImmOffset],
   [pushMem, ajmpOffset, clrBitaddr, clrC, swapA, xchAMem, xchAIndirRx, xchAIndirRx],
   [popMem, acallOffset, setbBitaddr, setbC, daA, djnzMemOffset, xchdAIndirRx, xchdAIndirRx],
   [movxAIndirDptr, ajmpOffset, movxAIndirRx, movxAIndirRx, clrA, movAMem, movAIndirRx,
     movAIndirRx],
   [movxIndirDptrA, acallOffset, movxIndirRxA, movxIndirRxA, cplA, movMemA, movIndirRxA,
     movIndirRxA]]

/-- The table `op_setptrs` builds. -/
def opTable (opcode : Byte) : Op Nat :=
  -- The row is the high digit of the opcode.
  let row := (opcode >>> 4).toNat
  if has opcode 0x08#8 then rxRow[row]?.getD nop
  else (opRows[row]?.bind fun ops => ops[(opcode &&& 7#8).toNat]?).getD nop

end Emu80535
