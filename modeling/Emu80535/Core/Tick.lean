import Mathlib.Logic.Function.Iterate
import Emu80535.Core.Interrupts

/-! Machine cycles, instruction ticks, bounded runs and reset. -/

namespace Emu80535

variable {ω : Type}

/-! ### Machine cycles -/

/-- The last part of `advance_machine_cycle`, which runs once the counter has moved. -/
def completeMachineCycle (hooks : Hooks ω) (m : Machine ω) : Machine ω :=
  let m := m.mapCpu fun c => { c with machineCycleCount := c.machineCycleCount + 1 }
  maintainLevelRequests hooks (applyScheduled hooks m)

/-- The peripheral part of `advance_machine_cycle`, which stops at the first abort. -/
def advancePeripherals (hooks : Hooks ω) (m : Machine ω) : Machine ω :=
  let m := m.raw hooks (.cycleBegin (m.cpu.machineCycleCount + 1))
  let m := timerTick hooks m
  if m.aborted hooks then m
  else
    let m := timer2Tick hooks m
    if m.aborted hooks then m else adcTick hooks m

/-- `advance_machine_cycle`: an abort on the way leaves the counter where it was. -/
def advanceMachineCycle (hooks : Hooks ω) (m : Machine ω) : Machine ω :=
  if m.aborted hooks then m
  else
    let m := advancePeripherals hooks m
    if m.aborted hooks then m else completeMachineCycle hooks m

/-! ### Ticks -/

/-- The parity flag of the accumulator, computed as the source folds its nibbles. -/
def parityBit (acc : Byte) : Byte :=
  ((0x6996#16 >>> ((acc ^^^ (acc >>> 4)) &&& 0xF#8).toNat) &&& 1#16).setWidth 8

/-- The parity update at the end of every cycle that could start an opcode. -/
def updateParity (m : Machine ω) : Machine ω :=
  m.setSfr Reg.psw ((m.cpu.sfr Reg.psw &&& ~~~Psw.p) ||| parityBit (m.cpu.sfr Reg.acc))

/-- The reports `tick` makes before it calls an opcode body. -/
def beginInstruction (hooks : Hooks ω) (m : Machine ω) : Machine ω :=
  let opcode := m.cpu.opcode
  let m := m.mapCpu fun c => { c with tracePc := c.pc, inInstruction := true }
  let m := m.raw hooks (.begin m.cpu.machineCycleCount m.cpu.pc opcode)
  m.traceEmit hooks .instruction m.cpu.pc opcode

/-- The opcode body itself, whose answer is the number of further cycles it takes. -/
def runInstruction (hooks : Hooks ω) (opcode : Byte) (m : Machine ω) : Machine ω :=
  let done := (opTable opcode).run hooks m
  let m := done.2.mapCpu fun c => { c with tickDelay := done.1, inInstruction := false }
  m.raw hooks (.opcodeEnd m.cpu.machineCycleCount m.cpu.pc)

/-- The counters an instruction that ran to completion moves. -/
def countInstruction (m : Machine ω) : Machine ω :=
  m.mapCpu fun c =>
    { c with
      instructionCount := c.instructionCount + 1
      irqInhibit := if c.variant = .sab80535 then c.irqInhibit - 1 else c.irqInhibit }

/-- The instruction block of `tick`; the answer is false when it was aborted. -/
def executeInstruction (hooks : Hooks ω) (m : Machine ω) : Bool × Machine ω :=
  let opcode := m.cpu.opcode
  let m := beginInstruction hooks m
  if m.aborted hooks then (false, m.mapCpu fun c => { c with inInstruction := false })
  else
    let m := runInstruction hooks opcode m
    if m.aborted hooks then (false, m) else (true, countInstruction m)

/-- The part of `tick` after a successful `handle_interrupts`. -/
def tickBody (hooks : Hooks ω) (m : Machine ω) : Bool × Machine ω :=
  if m.cpu.tickDelay = 0 then
    -- IDLE starts no opcode, but virtual time and the peripherals go on.
    if has (m.cpu.sfr Reg.pcon) Pcon.idle then
      (false, advanceMachineCycle hooks (updateParity m))
    else
      let done := executeInstruction hooks m
      if done.1 then (true, advanceMachineCycle hooks (updateParity done.2))
      else (false, done.2)
  else (false, advanceMachineCycle hooks m)

/-- `tick`, whose answer tells whether an instruction was executed. -/
def tick (hooks : Hooks ω) (m : Machine ω) : Bool × Machine ω :=
  if m.aborted hooks then (false, m)
  else if m.cpu.tickDelay ≠ 0 then
    -- A pending cycle belongs to the instruction or the interrupt entry already started.
    let m := m.mapCpu fun c => { c with tickDelay := c.tickDelay - 1 }
    (false, advanceMachineCycle hooks m)
  else if has (m.cpu.sfr Reg.pcon) Pcon.powerDown then (false, m)
  else
    let handled := handleInterrupts hooks m
    -- A failed stack push ends the entry; the interrupted opcode does not run.
    if handled.1 = false then (false, advanceMachineCycle hooks handled.2)
    else if handled.2.aborted hooks then (false, handled.2)
    else tickBody hooks handled.2

/-! ### Bounded runs -/

/-- Why `run_control` stopped. -/
inductive StopReason where
  | instructionLimit
  | targetPc
  | breakpoint
  | halt
  | exception
  | aborted
  deriving DecidableEq, Repr

/-- `run_control`'s inner loop: finish the cycles of what was already started. -/
def drainTicks (hooks : Hooks ω) : Nat → Machine ω → Machine ω
  | 0, m => m
  | fuel + 1, m =>
    if m.cpu.tickDelay ≠ 0 ∧ m.aborted hooks = false then
      drainTicks hooks fuel (tick hooks m).2
    else m

/-- The stop tests of `run_control` at a completed cycle boundary, in the order they are made. -/
def stopAt (hooks : Hooks ω) (target : Option Word) (startInstructions maxInstructions : Nat)
    (m : Machine ω) : Option StopReason :=
  if m.aborted hooks then some .aborted
  else if m.cpu.exceptionRaised then some .exception
  else if target = some m.cpu.pc then some .targetPc
  else if m.cpu.breakpointEnabled ∧ m.cpu.pc = m.cpu.breakpoint then some .breakpoint
  else if has (m.cpu.sfr Reg.pcon) (Pcon.idle ||| Pcon.powerDown) then some .halt
  else if maxInstructions ≤ m.cpu.instructionCount - startInstructions then
    some .instructionLimit
  else none

/--
The loop of `run_control`.

The fuel bounds its iterations; the inner loop gets the pending cycles, which is all it needs.
-/
def runLoop (hooks : Hooks ω) (target : Option Word) (startInstructions maxInstructions : Nat) :
    Nat → Machine ω → Option (StopReason × Machine ω)
  | 0, _ => none
  | fuel + 1, m =>
    let m := drainTicks hooks m.cpu.tickDelay m
    match stopAt hooks target startInstructions maxInstructions m with
    | some reason => some (reason, m)
    | none => runLoop hooks target startInstructions maxInstructions fuel (tick hooks m).2

/-- `run_control`, with no answer when the fuel is too small. -/
def runControl (hooks : Hooks ω) (target : Option Word) (maxInstructions fuel : Nat)
    (m : Machine ω) : Option (StopReason × Machine ω) :=
  let m := m.mapCpu fun c => { c with exceptionRaised := false, lastException := none }
  runLoop hooks target m.cpu.instructionCount maxInstructions fuel m

/-- `struct em8051_run_result`. -/
structure RunResult where
  reason : StopReason
  instructions : Nat
  machineCycles : Nat
  pc : Word
  exceptionCode : Option ExceptionCode

/-- `fill_run_result`, over the CPU a run started from and the one it ended with. -/
def fillRunResult (reason : StopReason) (start done : Cpu) : RunResult where
  reason := reason
  instructions := done.instructionCount - start.instructionCount
  machineCycles := done.machineCycleCount - start.machineCycleCount
  pc := done.pc
  exceptionCode := if done.exceptionRaised then done.lastException else none

/-- `em8051_run`, with the result it fills in. -/
def em8051Run (hooks : Hooks ω) (maxInstructions fuel : Nat) (m : Machine ω) :
    Option (RunResult × Machine ω) :=
  (runControl hooks none maxInstructions fuel m).map fun (reason, n) =>
    (fillRunResult reason m.cpu n.cpu, n)

/-- `em8051_run_until_pc`, with the result it fills in. -/
def em8051RunUntilPc (hooks : Hooks ω) (target : Word) (maxInstructions fuel : Nat)
    (m : Machine ω) : Option (RunResult × Machine ω) :=
  (runControl hooks (some target) maxInstructions fuel m).map fun (reason, n) =>
    (fillRunResult reason m.cpu n.cpu, n)

/-- `em8051_step_instruction`. -/
def stepInstruction (hooks : Hooks ω) (fuel : Nat) (m : Machine ω) :
    Option (StopReason × Machine ω) :=
  runControl hooks none 1 fuel m

/-! ### Reset -/

/-- `reset_random`: one step of the xorshift generator. -/
def resetRandom (state : BitVec 32) : BitVec 32 :=
  let state := if state = 0#32 then 0x6D2B79F5#32 else state
  let state := state ^^^ (state <<< 13)
  let state := state ^^^ (state >>> 17)
  state ^^^ (state <<< 5)

/-- The byte the n-th draw of a cold reset yields. -/
def resetDraw (seed : BitVec 32) (n : Nat) : Byte := (Nat.iterate resetRandom (n + 1) seed).setWidth 8

/-- The register file after reset, before the serial buffer is drawn. -/
def resetSfr (variant : Variant) (wipe : Bool) : SfrIndex → Byte := fun index =>
  if index = Reg.sp then 7#8
  else if index = Reg.p0 ∨ index = Reg.p1 ∨ index = Reg.p2 ∨ index = Reg.p3 then 0xFF#8
  else if variant = .sab80535 ∧ (index = Reg.p4 ∨ index = Reg.p5 ∨ index = Reg.p6) then 0xFF#8
  -- The power-off flag is set by a cold reset only.
  else if index = Reg.pcon ∧ wipe then 0x10#8
  else 0#8

/-- The contents of SBUF after reset: a draw, the caller's `rand`, or zero on a warm reset. -/
def Cpu.resetSbuf (c : Cpu) (wipe : Bool) (rand : Byte) : Byte :=
  if wipe then
    if c.resetSeedConfigured then
      resetDraw c.resetSeed (if c.upperData.isSome then 256 else 128)
    else rand
  else 0#8

/-- Serial port state after reset. -/
def resetUart (sbuf : Byte) : UartState where
  dividerPhase := 0#8
  rxDividerPhase := 0#8
  rxData := sbuf
  txPendingData := 0#8
  txData := 0#8
  txBitIndex := 0
  rxPendingData := 0#8
  rxBitIndex := 0
  txPendingNinth := false
  txNinth := false
  txPending := false
  txActive := false
  rxPendingNinth := false
  rxActive := false

/-- Converter state after reset. -/
def resetAdc : AdcState where
  inputs _ := 0#16
  latchedInput := 0#16
  sfrWriteDepth := 0
  latchedChannel := 0#3
  latchedDapr := 0#8
  cycles := 0
  startPending := false
  armRestart := false
  armed := false
  active := false
  busy := false
  referenceValid := false
  continuousRequested := false

/-- An empty in-service stack. -/
def resetService : IrqService where
  inService := 0#16
  depth := 0
  sourceStack _ := 0
  priorityStack _ := 0
  savedAcc _ := 0#8
  savedPsw _ := 0#8
  savedSp _ := 0#8

/-- An empty schedule. -/
def resetSchedule : Schedule where
  slots _ := { machineCycle := 0, source := 0, action := 0, level := false }
  head := 0
  count := 0

/-- Undriven pins, all of them last seen high. -/
def resetPins : PinState where
  mask _ := 0#8
  levels _ := 0#8
  sampledLevels := 0x7F#8
  levelAsserted := 0#8

/-- The memories a cold reset rewrites. -/
def Cpu.wipeMemory (c : Cpu) : Cpu :=
  { c with
    codeMem := fun a => if a ≤ c.codeMemMaxIdx then 0#8 else c.codeMem a
    extData := c.extData.map fun data a => if a ≤ c.extDataMaxIdx then 0#8 else data a
    lowerData := fun a => if c.resetSeedConfigured then resetDraw c.resetSeed a.toNat else 0#8
    upperData := c.upperData.map fun _ a =>
      if c.resetSeedConfigured then resetDraw c.resetSeed (128 + a.toNat) else 0#8 }

/-- `reset`, where `rand` is the byte an unseeded cold reset draws from the C library. -/
def Cpu.reset (wipe : Bool) (rand : Byte) (c : Cpu) : Cpu :=
  let c := if c.variant.hasUpperIram then
      { c with upperData := some (c.upperData.getD fun _ => 0#8) } else c
  let sbuf := c.resetSbuf wipe rand
  let c := if wipe then c.wipeMemory else c
  { c with
    sfr := Function.update (resetSfr c.variant wipe) Reg.sbuf sbuf
    pc := 0#16
    tickDelay := 0
    pins := resetPins
    schedule := resetSchedule
    adc := resetAdc
    uart := resetUart sbuf
    instructionCount := 0
    machineCycleCount := 0
    timerOverflowCount := fun _ => 0
    breakpointEnabled := false
    exceptionRaised := false
    lastException := none
    inInstruction := false
    classic := { c.classic with
      interruptActive := 0#8
      serialOutRemainingBits := 0
      serialInterruptTrigger := false }
    irqPending := 0#16
    irqEnabled := 0#16
    service := resetService
    irqInhibit := 0 }

end Emu80535
