import Emu80535.Core.Tick

/-! The calls an embedder makes between ticks, and the runs they form with ticks. -/

namespace Emu80535

variable {ω : Type}

/-- The public operations of the core, with the caller's raw arguments. -/
inductive HostCall where
  | reset (wipe : Bool) (rand : Byte)
  | setResetSeed (seed : BitVec 32)
  | setBreakpoint (pc : Word) (enabled : Bool)
  | setPending (source : Nat) (pending : Bool)
  | portDrive (address mask levels : Byte)
  | portRelease (address mask : Byte)
  | externalDrive (source : Nat) (level : Bool)
  | externalRelease (source : Nat)
  | schedule (event : ScheduleEvent)
  | clearSchedule
  | injectRxFrame (data : Byte) (ninth : Bool)
  | adcSetInput (channel : Nat) (input : Word)
  | sfrRead (address : Byte)
  | sfrWrite (address value : Byte)
  /-- The embedder owns the code buffer and may fill it with any firmware image. -/
  | loadCode (image : Word → Byte)

/-- What a host call answers and does. -/
def HostCall.run (hooks : Hooks ω) : HostCall → Machine ω → Bool × Machine ω
  | reset wipe rand, m => (true, m.mapCpu (Cpu.reset wipe rand))
  | setResetSeed seed, m =>
    (true, m.mapCpu fun c => { c with resetSeed := seed, resetSeedConfigured := true })
  | setBreakpoint pc enabled, m =>
    (true, m.mapCpu fun c => { c with breakpoint := pc, breakpointEnabled := enabled })
  | setPending source pending, m => Emu80535.setPending hooks source pending m
  | portDrive address mask levels, m =>
    -- A port is named by its full register address.
    if address < 0x80#8 then (false, m)
    else Emu80535.portDrive hooks (sfrIndex address) mask levels m
  | portRelease address mask, m =>
    if address < 0x80#8 then (false, m)
    else Emu80535.portRelease hooks (sfrIndex address) mask m
  | externalDrive source level, m => Emu80535.externalDrive hooks source level m
  | externalRelease source, m => Emu80535.externalRelease hooks source m
  | schedule event, m => Emu80535.schedule hooks event m
  | clearSchedule, m => (true, Emu80535.clearSchedule m)
  | injectRxFrame data ninth, m => Emu80535.injectRxFrame hooks data ninth m
  | adcSetInput channel input, m => Emu80535.adcSetInput channel input m
  | sfrRead address, m =>
    if address < 0x80#8 then (false, m)
    else (true, (Emu80535.sfrRead hooks (sfrIndex address) m).2)
  | sfrWrite address value, m =>
    if address < 0x80#8 then (false, m)
    else (true, Emu80535.sfrWrite hooks (sfrIndex address) value m)
  | loadCode image, m => (true, m.mapCpu fun c => { c with codeMem := image })

/-- One thing that can happen to a core object between two observations of it. -/
inductive Action (ω : Type) where
  | tick
  | call (call : HostCall)
  /-- The embedder changes state of its own, such as the one its abort predicate reads. -/
  | own (update : ω → ω)

/-- The machine after one action. -/
def Action.run (hooks : Hooks ω) : Action ω → Machine ω → Machine ω
  | tick, m => (Emu80535.tick hooks m).2
  | call c, m => (c.run hooks m).2
  | own update, m => { m with host := update m.host }

/-- The machine after a sequence of actions. -/
def runActions (hooks : Hooks ω) (actions : List (Action ω)) (m : Machine ω) : Machine ω :=
  actions.foldl (fun m a => a.run hooks m) m

/--
A core object of the Siemens variant that has just been reset.

Reset leaves the code buffer to the embedder, and the embedder may start it at any entry point.
-/
def Machine.IsReset (m : Machine ω) : Prop :=
  ∃ (c : Cpu) (wipe : Bool) (rand : Byte) (image : Word → Byte) (entry : Word),
    c.variant = .sab80535 ∧
      m.cpu = { c.reset wipe rand with codeMem := image, pc := entry }

/-- The states some run of actions leads to from a reset. -/
def Reachable (hooks : Hooks ω) (m : Machine ω) : Prop :=
  ∃ (start : Machine ω) (actions : List (Action ω)),
    start.IsReset ∧ m = runActions hooks actions start

/-- A zeroed Siemens CPU object with 64 KiB of code and no external data. -/
def Cpu.blank : Cpu where
  variant := .sab80535
  codeMem _ := 0#8
  codeMemMaxIdx := 0xFFFF#16
  extData := none
  extDataMaxIdx := 0#16
  lowerData _ := 0#8
  upperData := none
  sfr _ := 0#8
  pc := 0#16
  tickDelay := 0
  pins := resetPins
  schedule := resetSchedule
  adc := resetAdc
  uart := resetUart 0#8
  resetSeed := 0#32
  resetSeedConfigured := false
  instructionCount := 0
  machineCycleCount := 0
  timerOverflowCount _ := 0
  breakpointEnabled := false
  breakpoint := 0#16
  exceptionRaised := false
  lastException := none
  tracePc := 0#16
  inInstruction := false
  classic :=
    { interruptActive := 0#8
      intA := fun _ => 0#8
      intPsw := fun _ => 0#8
      intSp := fun _ => 0#8
      serialOut := fun _ => 0#8
      serialOutIdx := 0
      serialOutRemainingBits := 0
      serialInterruptTrigger := false }
  irqPending := 0#16
  irqEnabled := 0#16
  service := resetService
  irqInhibit := 0
  observed := false

/-- A CPU without callbacks that has been reset and given a firmware image. -/
def Machine.boot (image : Word → Byte) : Machine Unit where
  cpu := { Cpu.blank.reset true 0#8 with codeMem := image }
  host := ()

/-- It is one of the states runs start from. -/
theorem Machine.boot_isReset (image : Word → Byte) : (Machine.boot image).IsReset :=
  ⟨Cpu.blank, true, 0#8, image, 0#16, rfl, rfl⟩

end Emu80535
