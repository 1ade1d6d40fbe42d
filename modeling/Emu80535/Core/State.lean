import Mathlib.Algebra.Group.Int.Defs
import Mathlib.Algebra.Group.Nat.Defs
import Mathlib.Logic.Function.Basic

/-! The CPU record of the emulator core, the callbacks an embedder installs, and their joint state. -/

namespace Emu80535

/-- One byte of memory, of a special function register or of an instruction. -/
abbrev Byte := BitVec 8

/-- A code or external data address. -/
abbrev Word := BitVec 16

/-- Position in the register file, which is the direct address less 0x80. -/
abbrev SfrIndex := BitVec 7

/-- The `(value & mask) != 0` test of the source. -/
def has (value mask : Byte) : Bool := value &&& mask != 0

/-- The CPU variants a core object can be initialised as. -/
inductive Variant where
  | v8051
  | v8052
  | sab80535
  deriving DecidableEq, Repr

/-- Only the classic 8051 has no upper 128 bytes of internal RAM. -/
def Variant.hasUpperIram : Variant → Bool
  | .v8051 => false
  | .v8052 | .sab80535 => true

/-! ### Register positions -/

namespace Reg

abbrev p0 : SfrIndex := 0x00#7
abbrev sp : SfrIndex := 0x01#7
abbrev dpl : SfrIndex := 0x02#7
abbrev dph : SfrIndex := 0x03#7
abbrev pcon : SfrIndex := 0x07#7
abbrev tcon : SfrIndex := 0x08#7
abbrev tmod : SfrIndex := 0x09#7
abbrev tl0 : SfrIndex := 0x0A#7
abbrev tl1 : SfrIndex := 0x0B#7
abbrev th0 : SfrIndex := 0x0C#7
abbrev th1 : SfrIndex := 0x0D#7
abbrev p1 : SfrIndex := 0x10#7
abbrev scon : SfrIndex := 0x18#7
abbrev sbuf : SfrIndex := 0x19#7
abbrev p2 : SfrIndex := 0x20#7
abbrev ie : SfrIndex := 0x28#7
abbrev p3 : SfrIndex := 0x30#7
abbrev ip : SfrIndex := 0x38#7
abbrev psw : SfrIndex := 0x50#7
abbrev acc : SfrIndex := 0x60#7
abbrev b : SfrIndex := 0x70#7

-- The Siemens names of the positions only the SAB80535 decodes, and of those it renames.
abbrev ien0 : SfrIndex := 0x28#7
abbrev ip0 : SfrIndex := 0x29#7
abbrev ien1 : SfrIndex := 0x38#7
abbrev ip1 : SfrIndex := 0x39#7
abbrev ircon : SfrIndex := 0x40#7
abbrev t2con : SfrIndex := 0x48#7
abbrev tl2 : SfrIndex := 0x4C#7
abbrev th2 : SfrIndex := 0x4D#7
abbrev adcon : SfrIndex := 0x58#7
abbrev addat : SfrIndex := 0x59#7
abbrev dapr : SfrIndex := 0x5A#7
abbrev p6 : SfrIndex := 0x5B#7
abbrev p4 : SfrIndex := 0x68#7
abbrev p5 : SfrIndex := 0x78#7

end Reg

/-! ### Bit masks -/

namespace Psw

abbrev p : Byte := 0x01#8
abbrev ov : Byte := 0x04#8
abbrev rs0 : Byte := 0x08#8
abbrev rs1 : Byte := 0x10#8
abbrev ac : Byte := 0x40#8
abbrev c : Byte := 0x80#8

end Psw

namespace Ie

abbrev ex0 : Byte := 0x01#8
abbrev et0 : Byte := 0x02#8
abbrev ex1 : Byte := 0x04#8
abbrev et1 : Byte := 0x08#8
abbrev es : Byte := 0x10#8
abbrev et2 : Byte := 0x20#8
abbrev ea : Byte := 0x80#8
/-- The Timer 2 external flag is enabled in the second Siemens register. -/
abbrev exen2 : Byte := 0x80#8

end Ie

namespace Ip

abbrev px0 : Byte := 0x01#8
abbrev pt0 : Byte := 0x02#8
abbrev px1 : Byte := 0x04#8
abbrev pt1 : Byte := 0x08#8
abbrev ps : Byte := 0x10#8

end Ip

namespace Tcon

abbrev it0 : Byte := 0x01#8
abbrev ie0 : Byte := 0x02#8
abbrev it1 : Byte := 0x04#8
abbrev ie1 : Byte := 0x08#8
abbrev tr0 : Byte := 0x10#8
abbrev tf0 : Byte := 0x20#8
abbrev tr1 : Byte := 0x40#8
abbrev tf1 : Byte := 0x80#8

end Tcon

namespace Tmod

abbrev m0T0 : Byte := 0x01#8
abbrev m1T0 : Byte := 0x02#8
abbrev ctT0 : Byte := 0x04#8
abbrev gateT0 : Byte := 0x08#8
abbrev m0T1 : Byte := 0x10#8
abbrev m1T1 : Byte := 0x20#8
abbrev ctT1 : Byte := 0x40#8
abbrev gateT1 : Byte := 0x80#8
/-- Both mode bits of Timer 0, which select its split mode 3. -/
abbrev t0Mode3 : Byte := 0x03#8
/-- Both mode bits of Timer 1. -/
abbrev t1Mode : Byte := 0x30#8

end Tmod

namespace Scon

abbrev ri : Byte := 0x01#8
abbrev ti : Byte := 0x02#8
abbrev rb8 : Byte := 0x04#8
abbrev tb8 : Byte := 0x08#8
abbrev ren : Byte := 0x10#8
abbrev sm2 : Byte := 0x20#8
abbrev sm1 : Byte := 0x40#8
abbrev sm0 : Byte := 0x80#8

end Scon

namespace Pcon

abbrev idle : Byte := 0x01#8
abbrev powerDown : Byte := 0x02#8
abbrev smod : Byte := 0x80#8

end Pcon

namespace Ircon

abbrev iadc : Byte := 0x01#8
abbrev iex2 : Byte := 0x02#8
abbrev iex3 : Byte := 0x04#8
abbrev iex4 : Byte := 0x08#8
abbrev iex5 : Byte := 0x10#8
abbrev iex6 : Byte := 0x20#8
abbrev tf2 : Byte := 0x40#8
abbrev exf2 : Byte := 0x80#8

end Ircon

namespace T2con

abbrev t2i0 : Byte := 0x01#8
abbrev t2i1 : Byte := 0x02#8
abbrev t2r1 : Byte := 0x10#8
abbrev i2fr : Byte := 0x20#8
abbrev i3fr : Byte := 0x40#8
abbrev t2ps : Byte := 0x80#8

end T2con

namespace Adcon

abbrev mx : Byte := 0x07#8
abbrev adm : Byte := 0x08#8
abbrev bsy : Byte := 0x10#8
abbrev bd : Byte := 0x80#8

end Adcon

/-! ### Interrupt sources, external inputs and ports -/

/-- The twelve Siemens interrupt sources in polling order. -/
inductive IrqSource where
  | int0
  | timer0
  | int1
  | timer1
  | uart
  | timer2
  | adc
  | int2
  | int3
  | int4
  | int5
  | int6
  deriving DecidableEq, Repr

namespace IrqSource

/-- The number the source carries in the polling order and in the stored masks. -/
def toNat : IrqSource → Nat
  | int0 => 0
  | timer0 => 1
  | int1 => 2
  | timer1 => 3
  | uart => 4
  | timer2 => 5
  | adc => 6
  | int2 => 7
  | int3 => 8
  | int4 => 9
  | int5 => 10
  | int6 => 11

/-- Every source, lowest number first, as the arbitration loop visits them. -/
def all : List IrqSource :=
  [int0, timer0, int1, timer1, uart, timer2, adc, int2, int3, int4, int5, int6]

/-- The source with a given number, when there is one. -/
def ofNat? (n : Nat) : Option IrqSource := all[n]?

/-- `SAB_IRQ_BIT` of the source. -/
def bit (s : IrqSource) : Word := 1#16 <<< s.toNat

/-- The vector table `gSABIrqVectors`. -/
def vector : IrqSource → Word
  | int0 => 0x0003#16
  | timer0 => 0x000B#16
  | int1 => 0x0013#16
  | timer1 => 0x001B#16
  | uart => 0x0023#16
  | timer2 => 0x002B#16
  | adc => 0x0043#16
  | int2 => 0x004B#16
  | int3 => 0x0053#16
  | int4 => 0x005B#16
  | int5 => 0x0063#16
  | int6 => 0x006B#16

/-- The register holding the source's canonical request flags. -/
def requestReg : IrqSource → SfrIndex
  | int0 | timer0 | int1 | timer1 => Reg.tcon
  | uart => Reg.scon
  | timer2 | adc | int2 | int3 | int4 | int5 | int6 => Reg.ircon

/-- The canonical request flags, two of them for the aggregated UART and Timer 2 sources. -/
def requestMask : IrqSource → Byte
  | int0 => Tcon.ie0
  | timer0 => Tcon.tf0
  | int1 => Tcon.ie1
  | timer1 => Tcon.tf1
  | uart => Scon.ri ||| Scon.ti
  | timer2 => Ircon.tf2 ||| Ircon.exf2
  | adc => Ircon.iadc
  | int2 => Ircon.iex2
  | int3 => Ircon.iex3
  | int4 => Ircon.iex4
  | int5 => Ircon.iex5
  | int6 => Ircon.iex6

end IrqSource

/-- The four ports whose pins can be driven from outside. -/
inductive SabPort where
  | p1
  | p3
  | p4
  | p5
  deriving DecidableEq, Repr

/-- Position of the port's output latch in the register file. -/
def SabPort.reg : SabPort → SfrIndex
  | .p1 => Reg.p1
  | .p3 => Reg.p3
  | .p4 => Reg.p4
  | .p5 => Reg.p5

/-- The external interrupt inputs, numbered INT0 to INT6. -/
inductive ExternalSource where
  | int0
  | int1
  | int2
  | int3
  | int4
  | int5
  | int6
  deriving DecidableEq, Repr

namespace ExternalSource

/-- Every input in the order the sampler visits them. -/
def all : List ExternalSource := [int0, int1, int2, int3, int4, int5, int6]

/-- The input with a given number, when there is one. -/
def ofNat? (n : Nat) : Option ExternalSource := all[n]?

/-- `sab_external_pin`: the port the input is wired to. -/
def port : ExternalSource → SabPort
  | int0 | int1 => .p3
  | int2 | int3 | int4 | int5 | int6 => .p1

/-- `sab_external_pin`: the pin of that port. -/
def pinMask : ExternalSource → Byte
  | int0 => 0x04#8
  | int1 => 0x08#8
  | int2 => 0x10#8
  | int3 => 0x01#8
  | int4 => 0x02#8
  | int5 => 0x04#8
  | int6 => 0x08#8

/-- `sab_external_sample_bit`: the input's bit in the sampled and asserted bytes. -/
def sampleBit : ExternalSource → Byte
  | int0 => 0x01#8
  | int1 => 0x02#8
  | int2 => 0x04#8
  | int3 => 0x08#8
  | int4 => 0x10#8
  | int5 => 0x20#8
  | int6 => 0x40#8

/-- `sab_external_request_sfr`: the interrupt source whose request flag the input sets. -/
def irqSource : ExternalSource → IrqSource
  | int0 => .int0
  | int1 => .int1
  | int2 => .int2
  | int3 => .int3
  | int4 => .int4
  | int5 => .int5
  | int6 => .int6

end ExternalSource

/-- The conditions `em8051_raise_exception` reports. -/
inductive ExceptionCode where
  | stack
  | accToA
  | iretPswMismatch
  | iretSpMismatch
  | iretAccMismatch
  | illegalOpcode
  deriving DecidableEq, Repr

/-! ### Component state -/

/-- The in-service stack of the Siemens interrupt controller. -/
structure IrqService where
  /-- `mSABIrqInService`, one bit for each source being served. -/
  inService : Word
  /-- `mSABIrqDepth`, the number of live entries of the stacks below. -/
  depth : Nat
  /-- `mSABIrqSourceStack`. -/
  sourceStack : Nat → Nat
  /-- `mSABIrqPriorityStack`, the priority each entry was accepted with. -/
  priorityStack : Nat → Nat
  /-- `mSABIrqSavedACC`. -/
  savedAcc : Nat → Byte
  /-- `mSABIrqSavedPSW`. -/
  savedPsw : Nat → Byte
  /-- `mSABIrqSavedSP`. -/
  savedSp : Nat → Byte

/-- The mode-3 serial port. -/
structure UartState where
  dividerPhase : Byte
  rxDividerPhase : Byte
  rxData : Byte
  txPendingData : Byte
  txData : Byte
  txBitIndex : Nat
  rxPendingData : Byte
  rxBitIndex : Nat
  txPendingNinth : Bool
  txNinth : Bool
  txPending : Bool
  txActive : Bool
  rxPendingNinth : Bool
  rxActive : Bool
  deriving DecidableEq, Repr

/-- The single-conversion A/D converter. -/
structure AdcState where
  inputs : BitVec 3 → Word
  latchedInput : Word
  /-- `mSABSfrWriteDepth`, the nesting of register writes in progress. -/
  sfrWriteDepth : Nat
  latchedChannel : BitVec 3
  latchedDapr : Byte
  cycles : Nat
  startPending : Bool
  armRestart : Bool
  armed : Bool
  active : Bool
  busy : Bool
  referenceValid : Bool
  continuousRequested : Bool

/-- One entry of the external schedule, with the caller's raw source and action numbers. -/
structure ScheduleEvent where
  machineCycle : Nat
  source : Nat
  action : Nat
  level : Bool
  deriving DecidableEq, Repr

/-- `EM8051_SAB_EXTERNAL_SCHEDULE_CAPACITY`. -/
abbrev scheduleCapacity : Nat := 64

/-- The ring of future pin events. -/
structure Schedule where
  slots : Nat → ScheduleEvent
  head : Nat
  count : Nat

/-- External drive and what the edge detector remembers of the pins. -/
structure PinState where
  /-- `mSABPortExternalMask`. -/
  mask : SabPort → Byte
  /-- `mSABPortExternalLevels`. -/
  levels : SabPort → Byte
  /-- `mSABExternalSampledLevels`. -/
  sampledLevels : Byte
  /-- `mSABExternalLevelAsserted`. -/
  levelAsserted : Byte

/-- The classic two-level controller and the classic serial shortcut. -/
structure ClassicState where
  interruptActive : Byte
  intA : Bool → Byte
  intPsw : Bool → Byte
  intSp : Bool → Byte
  serialOut : Nat → Byte
  serialOutIdx : Nat
  serialOutRemainingBits : Nat
  serialInterruptTrigger : Bool

/-- The timers whose wraps are counted and reported. -/
inductive TimerId where
  | timer0
  | timer1
  | timer2
  deriving DecidableEq, Repr

/--
The CPU object `struct em8051`.

The 64-bit counters are natural numbers, since no run spoken of here wraps them.
-/
structure Cpu where
  variant : Variant
  codeMem : Word → Byte
  codeMemMaxIdx : Word
  /-- `mExtData`, absent when the embedder supplies no backing. -/
  extData : Option (Word → Byte)
  extDataMaxIdx : Word
  lowerData : SfrIndex → Byte
  /-- `mUpperData`, absent on a CPU without upper internal RAM. -/
  upperData : Option (SfrIndex → Byte)
  sfr : SfrIndex → Byte
  pc : Word
  tickDelay : Nat
  pins : PinState
  schedule : Schedule
  adc : AdcState
  uart : UartState
  resetSeed : BitVec 32
  resetSeedConfigured : Bool
  instructionCount : Nat
  machineCycleCount : Nat
  timerOverflowCount : TimerId → Nat
  breakpointEnabled : Bool
  breakpoint : Word
  exceptionRaised : Bool
  /-- `mLastException`, where `none` stands for -1. -/
  lastException : Option ExceptionCode
  tracePc : Word
  inInstruction : Bool
  classic : ClassicState
  /-- `mSABIrqPending`, a cache rebuilt from the request flags. -/
  irqPending : Word
  /-- `mSABIrqEnabled`, a cache rebuilt from the enable registers. -/
  irqEnabled : Word
  service : IrqService
  /-- `mSABIrqInhibitInstructions`. -/
  irqInhibit : Nat
  /-- Whether `mObservation` is attached. -/
  observed : Bool

/-! ### Records handed to observers -/

/-- Event kinds of the mode-3 serial trace. -/
inductive UartEvent where
  | txStart
  | txBit
  | txStop
  | txEnd
  | rxStart
  | rxAccept
  | rxDrop
  | rxEnd
  deriving DecidableEq, Repr

/-- Classification of a sampled pin change. -/
inductive ExternalTrigger where
  | nonQualifying
  | fallingEdge
  | risingEdge
  | lowLevelAssert
  | levelRelease
  deriving DecidableEq, Repr

/-- Event kinds of the interrupt controller trace. -/
inductive IrqEvent where
  | request
  | accept
  | release
  deriving DecidableEq, Repr

/-- Event kinds of the converter trace. -/
inductive AdcEvent where
  | start
  | restart
  | complete
  deriving DecidableEq, Repr

/-- Kinds of the normalised instruction, register and bus trace. -/
inductive TraceType where
  | instruction
  | sfrWrite
  | movxRead
  | movxWrite
  | unsupportedMovxRead
  | unsupportedMovxWrite
  deriving DecidableEq, Repr

/-- The immutable records the seven record-only observers receive. -/
inductive Record where
  | trace (type : TraceType) (machineCycle : Nat) (pc address : Word) (value : Byte)
  | irq (event : IrqEvent) (machineCycle : Nat) (pc : Word) (source : Nat) (priority : Nat)
      (asserted globalEnabled : Bool) (pending enabled inService : Word) (depth : Nat)
  | timerOverflow (timer : TimerId) (machineCycle : Nat) (tl th : Byte)
  | uart (event : UartEvent) (machineCycle : Nat) (pc : Word) (data : Byte) (ninthBit : Bool)
      (bitIndex : Nat) (bitValue : Bool)
  | movx (machineCycle : Nat) (pc address : Word) (write : Bool) (value p1Latch : Byte)
  | external (machineCycle : Nat) (source : ExternalSource) (oldLevel newLevel : Bool)
      (trigger : ExternalTrigger) (requestPending : Bool)
  | adc (event : AdcEvent) (machineCycle : Nat) (channel : BitVec 3) (dapr : Byte)
      (normalizedInput : Word) (addat : Byte) (busy iadc referencesValid continuous : Bool)
  deriving DecidableEq, Repr

/-- Why an injected receive frame was dropped. -/
inductive DropReason where
  | ri
  | sm2
  deriving DecidableEq, Repr

/-- The facts `emu_cpu_raw` reports to an attached observation, each stamped with its cycle. -/
inductive RawFact where
  | begin (cycle : Nat) (pc : Word) (opcode : Byte)
  | operand (cycle : Nat) (offset : Nat) (value : Byte)
  | opcodeEnd (cycle : Nat) (pc : Word)
  | cycleBegin (cycle : Nat)
  | contextPreflight (cycle : Nat)
  | call (cycle : Nat) (target returnPc : Word) (spBefore spAfter : Byte)
  | ret (cycle : Nat) (target : Word) (spBefore spAfter : Byte)
  | reti (cycle : Nat) (target : Word) (spBefore spAfter : Byte)
  | irqEnter (cycle : Nat) (source : IrqSource) (returnPc : Word) (spBefore spAfter : Byte)
  | irqRequest (cycle : Nat) (source : IrqSource)
  | txHold (cycle : Nat) (data : Byte) (ninth : Bool)
  | txStart (cycle : Nat) (data : Byte) (ninth : Bool)
  | txStop (cycle : Nat)
  | txTi (cycle : Nat)
  | txEnd (cycle : Nat)
  | rxStart (cycle : Nat) (data : Byte) (ninth : Bool)
  | rxAccept (cycle : Nat) (data : Byte) (ninth : Bool)
  | rxDrop (cycle : Nat) (reason : DropReason)
  | rxEnd (cycle : Nat)
  | accessBegin (cycle : Nat) (address : Byte) (rmw : Bool) (value : Byte)
  | accessOld (cycle : Nat) (access : Nat) (value : Byte)
  | accessEnd (cycle : Nat) (access : Nat) (address : Byte) (value : Byte)
  deriving DecidableEq, Repr

/-! ### The machine -/

/-- The registers that hold request flags. -/
def isRequestReg (index : SfrIndex) : Bool :=
  index == Reg.tcon || index == Reg.scon || index == Reg.ircon

/-- A store of a register that holds request flags: what the register held, and what it was given. -/
structure FlagStore where
  index : SfrIndex
  old : Byte
  new : Byte
  deriving DecidableEq, Repr

/--
The CPU together with everything its callbacks own.

The stores of request flags made so far are kept beside them, as a history that no code reads.
-/
structure Machine (ω : Type) where
  cpu : Cpu
  host : ω
  stores : List FlagStore := []

/--
The callbacks installed in a CPU object.

Record-only observers see a record and their own context, never the CPU.
The register write callback is the one the core documents as reentrant, so it may act on the CPU.
-/
structure Hooks (ω : Type) where
  /-- `execution_abort`, a pure predicate on caller-owned state. -/
  aborted : ω → Bool
  /-- `except`. -/
  except : Cpu → ExceptionCode → ω → ω
  /-- `sfrread`. -/
  sfrread : SfrIndex → Option (Cpu → ω → Byte × ω)
  /-- `sfrwrite`. -/
  sfrwrite : SfrIndex → Option (Machine ω → Machine ω)
  /-- `xread`. -/
  xread : Option (Cpu → Word → ω → Byte × ω)
  /-- `xwrite`. -/
  xwrite : Option (Cpu → Word → Byte → ω → ω)
  /-- The record-only observers. -/
  emit : Record → ω → ω
  /-- The raw observer, asked only while an observation is attached. -/
  fact : Cpu → RawFact → ω → Nat × ω

/-- A CPU object with no callback installed. -/
def Hooks.none : Hooks Unit where
  aborted _ := false
  except _ _ h := h
  sfrread _ := Option.none
  sfrwrite _ := Option.none
  xread := Option.none
  xwrite := Option.none
  emit _ h := h
  fact _ _ h := (0, h)

namespace Machine

variable {ω : Type}

/-- Replace the CPU object and leave the callbacks' state alone. -/
def mapCpu (f : Cpu → Cpu) (m : Machine ω) : Machine ω := { m with cpu := f m.cpu }

/-- Store one register without going through the write gateway. -/
def setSfr (index : SfrIndex) (value : Byte) (m : Machine ω) : Machine ω :=
  { m with
    cpu := { m.cpu with sfr := Function.update m.cpu.sfr index value }
    stores := bif isRequestReg index then m.stores ++ [⟨index, m.cpu.sfr index, value⟩]
      else m.stores }

/-- Hand a record to its observer. -/
def emit (hooks : Hooks ω) (record : Record) (m : Machine ω) : Machine ω :=
  { m with host := hooks.emit record m.host }

/-- `emu_cpu_raw`: the observer's answer, or zero when none is attached. -/
def rawAnswer (hooks : Hooks ω) (fact : RawFact) (m : Machine ω) : Nat :=
  if m.cpu.observed then (hooks.fact m.cpu fact m.host).1 else 0

/-- `emu_cpu_raw`: what the observer does with the fact. -/
def raw (hooks : Hooks ω) (fact : RawFact) (m : Machine ω) : Machine ω :=
  if m.cpu.observed then { m with host := (hooks.fact m.cpu fact m.host).2 } else m

/-- `em8051_execution_aborted`. -/
def aborted (hooks : Hooks ω) (m : Machine ω) : Bool := hooks.aborted m.host

/-- `em8051_raise_exception`. -/
def raiseException (hooks : Hooks ω) (code : ExceptionCode) (m : Machine ω) : Machine ω :=
  let m := m.mapCpu fun c => { c with exceptionRaised := true, lastException := some code }
  { m with host := hooks.except m.cpu code m.host }

end Machine

end Emu80535
