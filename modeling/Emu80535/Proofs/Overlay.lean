import Emu80535.Proofs.Rights

/-! Parts of the CPU that the peripherals and the register gateway neither look at nor store. -/

namespace Emu80535

variable {ω : Type} {hooks : Hooks ω} {m : Machine ω}

open Machine

/-- A modelled port is found at its own latch. -/
theorem portIndex_reg {c : Cpu} {index : SfrIndex} {port : SabPort}
    (known : c.portIndex index = some port) : port.reg = index := by
  -- The four latches are tested one after the other, each against the index.
  simp only [Cpu.portIndex, SabPort.ofReg?] at known
  split at known
  · split at known
    · rename_i here
      cases known
      exact here.symm
    · split at known
      · rename_i here
        cases known
        exact here.symm
      · split at known
        · rename_i here
          cases known
          exact here.symm
        · split at known
          · rename_i here
            cases known
            exact here.symm
          · cases known
  · cases known

/-! ### Overlays -/

/--
Replacements for the parts of the CPU that only opcode bodies and debuggers use.

A breakpoint counts only while it is enabled, and the traced PC only inside an instruction.
-/
structure Overlay where
  upper : Option (SfrIndex → Byte) → Option (SfrIndex → Byte) := id
  ext : Option (Word → Byte) → Option (Word → Byte) := id
  classic : ClassicState → ClassicState := id
  breakpoint : Word → Word := id
  tracePc : Word → Word := id

/-- The CPU with the replacements made. -/
def Overlay.apply (o : Overlay) (c : Cpu) : Cpu :=
  { c with
    upperData := o.upper c.upperData
    extData := o.ext c.extData
    classic := o.classic c.classic
    breakpoint := if c.breakpointEnabled then c.breakpoint else o.breakpoint c.breakpoint
    tracePc := if c.inInstruction then c.tracePc else o.tracePc c.tracePc }

/-- The machine with the replacements made in its CPU. -/
def Machine.over (o : Overlay) (m : Machine ω) : Machine ω := m.mapCpu o.apply

/-- Callbacks that neither look at what a replacement changes nor change it themselves. -/
structure Hooks.Blind (hooks : Hooks ω) (f : Cpu → Cpu) : Prop where
  except : ∀ c code h, hooks.except (f c) code h = hooks.except c code h
  sfrread : ∀ index callback, hooks.sfrread index = some callback → ∀ c h,
    callback (f c) h = callback c h
  sfrwrite : ∀ index callback, hooks.sfrwrite index = some callback → ∀ m : Machine ω,
    callback (m.mapCpu f) = (callback m).mapCpu f
  xread : ∀ callback, hooks.xread = some callback → ∀ c address h,
    callback (f c) address h = callback c address h
  xwrite : ∀ callback, hooks.xwrite = some callback → ∀ c address value h,
    callback (f c) address value h = callback c address value h
  fact : ∀ c fact h, hooks.fact (f c) fact h = hooks.fact c fact h

/-- A CPU object without callbacks has none that could look. -/
theorem Hooks.none_blind (f : Cpu → Cpu) : Hooks.none.Blind f where
  except _ _ _ := rfl
  sfrread _ _ installed := absurd installed (by simp [Hooks.none])
  sfrwrite _ _ installed := absurd installed (by simp [Hooks.none])
  xread _ installed := absurd installed (by simp [Hooks.none])
  xwrite _ installed := absurd installed (by simp [Hooks.none])
  fact _ _ _ := rfl

section Shape

variable {o : Overlay}

/-! The replacement moves outwards over every primitive change of the machine. -/

/-- An overlay of either branch is an overlay of the branch. -/
@[simp] theorem ite_over {p : Prop} [Decidable p] (a b : Machine ω) :
    (if p then a.over o else b.over o) = (if p then a else b).over o := (apply_ite _ _ _ _).symm

/-- An overlay of either branch is an overlay of the branch. -/
@[simp] theorem ite_over_snd {α : Type} {p : Prop} [Decidable p] (x y : α) (a b : Machine ω) :
    (if p then (x, a.over o) else (y, b.over o)) =
      ((if p then (x, a) else (y, b)).1, (if p then (x, a) else (y, b)).2.over o) := by
  split <;> rfl

/-- An overlay leaves alone the callbacks' own state. -/
@[simp] theorem over_host : (m.over o).host = m.host := rfl

/-- An overlay leaves alone the variant. -/
@[simp] theorem over_variant : (m.over o).cpu.variant = m.cpu.variant := rfl

/-- An overlay leaves alone the register file. -/
@[simp] theorem over_sfr : (m.over o).cpu.sfr = m.cpu.sfr := rfl

/-- An overlay leaves alone the program counter. -/
@[simp] theorem over_pc : (m.over o).cpu.pc = m.cpu.pc := rfl

/-- An overlay leaves alone the pins. -/
@[simp] theorem over_pins : (m.over o).cpu.pins = m.cpu.pins := rfl

/-- An overlay leaves alone the schedule. -/
@[simp] theorem over_schedule : (m.over o).cpu.schedule = m.cpu.schedule := rfl

/-- An overlay leaves alone the converter. -/
@[simp] theorem over_adc : (m.over o).cpu.adc = m.cpu.adc := rfl

/-- An overlay leaves alone the serial port. -/
@[simp] theorem over_uart : (m.over o).cpu.uart = m.cpu.uart := rfl

/-- An overlay leaves alone the clock. -/
@[simp] theorem over_clock : (m.over o).cpu.machineCycleCount = m.cpu.machineCycleCount := rfl

/-- An overlay leaves alone the overflow counts. -/
@[simp] theorem over_overflow : (m.over o).cpu.timerOverflowCount = m.cpu.timerOverflowCount := rfl

/-- An overlay leaves alone the pending requests. -/
@[simp] theorem over_pending : (m.over o).cpu.irqPending = m.cpu.irqPending := rfl

/-- An overlay leaves alone the enabled sources. -/
@[simp] theorem over_enabled : (m.over o).cpu.irqEnabled = m.cpu.irqEnabled := rfl

/-- An overlay leaves alone the in-service stack. -/
@[simp] theorem over_service : (m.over o).cpu.service = m.cpu.service := rfl

/-- An overlay leaves alone the pending delay. -/
@[simp] theorem over_delay : (m.over o).cpu.tickDelay = m.cpu.tickDelay := rfl

/-- An overlay leaves alone the attachment of an observer. -/
@[simp] theorem over_observed : (m.over o).cpu.observed = m.cpu.observed := rfl

/-- An overlay leaves alone whether execution is aborted. -/
@[simp] theorem over_aborted : (m.over o).aborted hooks = m.aborted hooks := rfl

/-- An overlay leaves alone whether a source requests. -/
@[simp] theorem over_requested (source : IrqSource) :
    (m.over o).cpu.requested source = m.cpu.requested source := rfl

/-- An overlay leaves alone the levels of a port. -/
@[simp] theorem over_getPins (port : SabPort) : (m.over o).cpu.getPins port = m.cpu.getPins port :=
  rfl

/-- An overlay leaves alone which port a register is. -/
@[simp] theorem over_portIndex (index : SfrIndex) :
    (m.over o).cpu.portIndex index = m.cpu.portIndex index := rfl

/-- An overlay leaves alone what a change at an input means. -/
@[simp] theorem over_classify (source : ExternalSource) (old new : Bool) :
    (m.over o).cpu.classify source old new = m.cpu.classify source old new := rfl

/-- An overlay leaves alone whether the serial port is in mode 3. -/
@[simp] theorem over_uartMode3 : (m.over o).cpu.uartMode3 = m.cpu.uartMode3 := rfl

/-- An overlay leaves alone whether a frame is accepted. -/
@[simp] theorem over_uartRxAccepts : (m.over o).cpu.uartRxAccepts = m.cpu.uartRxAccepts := rfl

/-- An overlay made before a store of a register can be made after it. -/
@[simp] theorem over_setSfr (index : SfrIndex) (value : Byte) :
    (m.over o).setSfr index value = (m.setSfr index value).over o := rfl

/-- An overlay made before clearing flags can be made after it. -/
@[simp] theorem over_clearFlags (index : SfrIndex) (mask : Byte) :
    (m.over o).clearFlags index mask = (m.clearFlags index mask).over o := rfl

/-- An overlay made before remembering a request made by a level can be made after it. -/
@[simp] theorem over_setLevelAsserted (bit : Byte) (asserted : Bool) :
    (m.over o).setLevelAsserted bit asserted = (m.setLevelAsserted bit asserted).over o := rfl

/-- An overlay made before remembering a sampled level can be made after it. -/
@[simp] theorem over_setSampled (bit : Byte) (level : Bool) :
    (m.over o).setSampled bit level = (m.setSampled bit level).over o := rfl

/-- An overlay made before a change of the serial port's state can be made after it. -/
@[simp] theorem over_mapUart (f : UartState → UartState) :
    (m.over o).mapUart f = (m.mapUart f).over o := rfl

/-- An overlay made before a change of the converter's state can be made after it. -/
@[simp] theorem over_mapAdc (f : AdcState → AdcState) :
    (m.over o).mapAdc f = (m.mapAdc f).over o := rfl

/-- An overlay made before setting the converter's busy flag can be made after it. -/
@[simp] theorem over_setBusy (busy : Bool) :
    (m.over o).setBusy busy = (m.setBusy busy).over o := rfl

/-- An overlay made before handing out a record can be made after it. -/
@[simp] theorem over_emit (record : Record) :
    (m.over o).emit hooks record = (m.emit hooks record).over o := rfl

/-- An overlay made before tracing the serial port can be made after it. -/
@[simp] theorem over_emitUart (event : UartEvent) (cycle : Nat) (data : Byte) (ninth : Bool)
    (index : Nat) (value : Bool) :
    (m.over o).emitUart hooks event cycle data ninth index value =
      (m.emitUart hooks event cycle data ninth index value).over o := rfl

/-- An overlay made before tracing the converter can be made after it. -/
@[simp] theorem over_emitAdc (event : AdcEvent) (cycle : Nat) :
    (m.over o).emitAdc hooks event cycle = (m.emitAdc hooks event cycle).over o := rfl

/-- The traced PC is replaced only where no report looks at it. -/
@[simp] theorem over_recordPc : (m.over o).cpu.recordPc = m.cpu.recordPc := by
  show (if m.cpu.inInstruction then if m.cpu.inInstruction then _ else _ else m.cpu.pc) = _
  simp only [Cpu.recordPc]
  split <;> rfl

/-- An overlay made before tracing an access can be made after it. -/
@[simp] theorem over_traceEmit (type : TraceType) (address : Word) (value : Byte) :
    (m.over o).traceEmit hooks type address value =
      (m.traceEmit hooks type address value).over o := by
  simp -implicitDefEqProofs [Machine.traceEmit]

/-- An overlay made before tracing the interrupt controller can be made after it. -/
@[simp] theorem over_emitIrq (event : IrqEvent) (source priority : Nat) (asserted : Bool)
    (pending : Word) : (m.over o).emitIrq hooks event source priority asserted pending =
      (m.emitIrq hooks event source priority asserted pending).over o := by
  simp -implicitDefEqProofs [Machine.emitIrq]

/-- A loop commutes with the replacement when its body does. -/
theorem over_foldl {β : Type} (step : Machine ω → β → Machine ω)
    (each : ∀ n b, step (n.over o) b = (step n b).over o) (xs : List β) (m : Machine ω) :
    xs.foldl step (m.over o) = (xs.foldl step m).over o := by
  induction xs generalizing m with
  | nil => rfl
  | cons b xs ih => rw [List.foldl_cons, List.foldl_cons, each, ih]

end Shape

namespace Hooks.Blind

/-! ### Callbacks -/

section Callbacks

variable {f : Cpu → Cpu} (blind : hooks.Blind f)

include blind

/-- Calling the register write callback does not look at what an overlay replaces. -/
theorem sfrCallback (index : SfrIndex) (m : Machine ω) :
    (m.mapCpu f).sfrCallback hooks index = (m.sfrCallback hooks index).mapCpu f := by
  simp only [Machine.sfrCallback]
  split
  · rename_i callback installed
    exact blind.sfrwrite index callback installed m
  · rfl

/-- A fact answers alike on both machines, as long as the replacement keeps the attachment. -/
theorem rawAnswer {fact : RawFact} (attached : (f m.cpu).observed = m.cpu.observed) :
    (m.mapCpu f).rawAnswer hooks fact = m.rawAnswer hooks fact := by
  simp only [Machine.rawAnswer, Machine.mapCpu, attached, blind.fact]

/-- Reporting a raw fact does not look at what an overlay replaces. -/
theorem rawFact {fact : RawFact} (attached : (f m.cpu).observed = m.cpu.observed) :
    (m.mapCpu f).raw hooks fact = (m.raw hooks fact).mapCpu f := by
  simp only [Machine.raw, Machine.mapCpu, attached, blind.fact]
  split <;> rfl

/-- Raising an exception does not look at what an overlay replaces. -/
theorem raiseException {code : ExceptionCode}
    (latched : f { m.cpu with exceptionRaised := true, lastException := some code } =
      { f m.cpu with exceptionRaised := true, lastException := some code }) :
    (m.mapCpu f).raiseException hooks code = (m.raiseException hooks code).mapCpu f := by
  simp only [Machine.raiseException, Machine.mapCpu, ← latched, blind.except]

end Callbacks

variable {o : Overlay} (blind : hooks.Blind o.apply)

include blind

/-! ### Pins and requests -/

/-- Reporting a raw fact does not look at what an overlay replaces. -/
theorem raw (fact : RawFact) (m : Machine ω) :
    (m.over o).raw hooks fact = (m.raw hooks fact).over o := blind.rawFact rfl

/-- A store of request flags does not look at what an overlay replaces. -/
theorem irqWrite (index : SfrIndex) (value : Byte) (cycle : Nat) (m : Machine ω) :
    (m.over o).irqWrite hooks index value cycle = (m.irqWrite hooks index value cycle).over o := by
  have loop := over_foldl (o := o) (fun (k : Machine ω) (s : IrqSource) =>
      if index = s.requestReg ∧ has (m.cpu.sfr index) s.requestMask = false ∧
        has value s.requestMask then k.raw hooks (.irqRequest cycle s) else k)
    (fun k s => by rw [blind.raw, ite_over])
  simp -implicitDefEqProofs only [Machine.irqWrite, over_sfr, over_variant, over_setSfr, loop,
    ite_over]

/-- Maintaining the request of one level does not look at what an overlay replaces. -/
theorem maintainLevelRequest (pins : Byte) (source : ExternalSource) (m : Machine ω) :
    maintainLevelRequest hooks pins source (m.over o) =
      (maintainLevelRequest hooks pins source m).over o := by
  simp -implicitDefEqProofs [Emu80535.maintainLevelRequest, blind.irqWrite]

/-- Maintaining the requests of levels does not look at what an overlay replaces. -/
theorem maintainLevelRequests (m : Machine ω) :
    maintainLevelRequests hooks (m.over o) = (maintainLevelRequests hooks m).over o := by
  have loop := over_foldl (o := o)
    (fun (k : Machine ω) s => Emu80535.maintainLevelRequest hooks (m.cpu.getPins .p3) s k)
    (fun k s => blind.maintainLevelRequest _ s k)
  simp -implicitDefEqProofs only [Emu80535.maintainLevelRequests, over_variant, over_getPins, loop,
    ite_over]

/-- Synchronising the request caches does not look at what an overlay replaces. -/
theorem irqSync (m : Machine ω) : irqSync hooks (m.over o) = (irqSync hooks m).over o := by
  simp only [Emu80535.irqSync, blind.maintainLevelRequests]
  rfl

omit blind in
/-- Noting what a trigger says of the level does not look at what an overlay replaces. -/
theorem noteLevel (source : ExternalSource) (trigger : ExternalTrigger) (m : Machine ω) :
    noteLevel source trigger (m.over o) = (noteLevel source trigger m).over o := by
  cases trigger <;> simp -implicitDefEqProofs [Emu80535.noteLevel]

/-- A change at an external input does not look at what an overlay replaces. -/
theorem observeChange (source : ExternalSource) (old new : Bool) (m : Machine ω) :
    observeChange hooks source old new (m.over o) =
      (observeChange hooks source old new m).over o := by
  simp -implicitDefEqProofs [Emu80535.observeChange, noteLevel, blind.irqWrite, blind.irqSync]

/-- Sampling a port does not look at what an overlay replaces. -/
theorem samplePort (port : SabPort) (m : Machine ω) :
    samplePort hooks port (m.over o) = (samplePort hooks port m).over o := by
  have loop := over_foldl (o := o)
    (fun (k : Machine ω) s => sampleSource hooks port (m.cpu.getPins port) s k)
    (fun k s => by simp -implicitDefEqProofs [sampleSource, blind.observeChange])
  simp -implicitDefEqProofs only [Emu80535.samplePort, over_variant, over_getPins, loop, ite_over]

/-- Driving pins anew does not look at what an overlay replaces. -/
theorem redrive (port : SabPort) (mask levels : Byte) (m : Machine ω) :
    redrive hooks port mask levels (m.over o) = (redrive hooks port mask levels m).over o := by
  rw [Emu80535.redrive, Emu80535.redrive, ← blind.samplePort]
  rfl

/-- Driving a port does not look at what an overlay replaces. -/
theorem portDrive (index : SfrIndex) (mask levels : Byte) (m : Machine ω) :
    portDrive hooks index mask levels (m.over o) =
      ((portDrive hooks index mask levels m).1, (portDrive hooks index mask levels m).2.over o) := by
  simp only [Emu80535.portDrive, over_portIndex]
  cases m.cpu.portIndex index with
  | none => rfl
  | some port => exact congrArg (Prod.mk true) (blind.redrive port _ _ m)

/-- Releasing a port does not look at what an overlay replaces. -/
theorem portRelease (index : SfrIndex) (mask : Byte) (m : Machine ω) :
    portRelease hooks index mask (m.over o) =
      ((portRelease hooks index mask m).1, (portRelease hooks index mask m).2.over o) := by
  simp only [Emu80535.portRelease, over_portIndex]
  cases m.cpu.portIndex index with
  | none => rfl
  | some port => exact congrArg (Prod.mk true) (blind.redrive port _ _ m)

/-- Driving an external input does not look at what an overlay replaces. -/
theorem externalDrive (source : Nat) (level : Bool) (m : Machine ω) :
    externalDrive hooks source level (m.over o) =
      ((externalDrive hooks source level m).1, (externalDrive hooks source level m).2.over o) := by
  simp only [Emu80535.externalDrive]
  cases ExternalSource.ofNat? source with
  | none => rfl
  | some s => exact blind.portDrive _ _ _ m

/-- Releasing an external input does not look at what an overlay replaces. -/
theorem externalRelease (source : Nat) (m : Machine ω) :
    externalRelease hooks source (m.over o) =
      ((externalRelease hooks source m).1, (externalRelease hooks source m).2.over o) := by
  simp only [Emu80535.externalRelease]
  cases ExternalSource.ofNat? source with
  | none => rfl
  | some s => exact blind.portRelease _ _ m

/-- Applying a scheduled event does not look at what an overlay replaces. -/
theorem applyEvent (event : ScheduleEvent) (m : Machine ω) :
    applyEvent hooks event (m.over o) =
      ((applyEvent hooks event m).1, (applyEvent hooks event m).2.over o) := by
  simp only [Emu80535.applyEvent]
  split
  · exact blind.externalDrive _ _ m
  · exact blind.externalRelease _ m

/-- Scheduling an event does not look at what an overlay replaces. -/
theorem schedule (event : ScheduleEvent) (m : Machine ω) :
    schedule hooks event (m.over o) =
      ((schedule hooks event m).1, (schedule hooks event m).2.over o) := by
  have queued : ∀ q, ((m.over o).mapCpu fun c => { c with schedule := q }) =
      (m.mapCpu fun c => { c with schedule := q }).over o := fun _ => rfl
  simp -implicitDefEqProofs [Emu80535.schedule, blind.applyEvent, queued]

/-- Applying the events that are due does not look at what an overlay replaces. -/
theorem applyDue (fuel : Nat) (m : Machine ω) :
    applyDue hooks fuel (m.over o) = (applyDue hooks fuel m).over o := by
  induction fuel generalizing m with
  | zero => rfl
  | succ fuel ih =>
    have queued : ∀ q, ((m.over o).mapCpu fun c => { c with schedule := q }) =
        (m.mapCpu fun c => { c with schedule := q }).over o := fun _ => rfl
    simp -implicitDefEqProofs only [Emu80535.applyDue, over_schedule, over_variant, over_clock,
      queued, blind.applyEvent, ih, ite_over]

/-- Applying the events of a cycle does not look at what an overlay replaces. -/
theorem applyScheduled (m : Machine ω) :
    applyScheduled hooks (m.over o) = (applyScheduled hooks m).over o := by
  have rewound : ∀ k : Machine ω,
      ((k.over o).mapCpu fun c => { c with schedule := { c.schedule with head := 0 } }) =
        (k.mapCpu fun c => { c with schedule := { c.schedule with head := 0 } }).over o :=
    fun _ => rfl
  simp -implicitDefEqProofs only [Emu80535.applyScheduled, over_schedule, blind.applyDue, rewound, ite_over]

/-! ### The serial port -/

/-- Starting a transmission does not look at what an overlay replaces. -/
theorem uartTxStart (cycle : Nat) (m : Machine ω) :
    uartTxStart hooks cycle (m.over o) = (uartTxStart hooks cycle m).over o := by
  simp -implicitDefEqProofs [Emu80535.uartTxStart, blind.raw]

/-- Sending the stop bit does not look at what an overlay replaces. -/
theorem uartTxStop (cycle : Nat) (m : Machine ω) :
    uartTxStop hooks cycle (m.over o) = (uartTxStop hooks cycle m).over o := by
  simp -implicitDefEqProofs [Emu80535.uartTxStop, blind.raw, blind.irqWrite]

/-- Ending a transmission does not look at what an overlay replaces. -/
theorem uartTxEnd (cycle : Nat) (m : Machine ω) :
    uartTxEnd hooks cycle (m.over o) = (uartTxEnd hooks cycle m).over o := by
  simp -implicitDefEqProofs [Emu80535.uartTxEnd, blind.raw, blind.uartTxStart]

/-- A bit boundary of the transmitter does not look at what an overlay replaces. -/
theorem uartTxBoundary (cycle : Nat) (m : Machine ω) :
    uartTxBoundary hooks cycle (m.over o) = (uartTxBoundary hooks cycle m).over o := by
  simp -implicitDefEqProofs [Emu80535.uartTxBoundary, blind.uartTxStart, blind.uartTxStop, blind.uartTxEnd]

/-- A bit boundary of the receiver does not look at what an overlay replaces. -/
theorem uartRxBoundary (cycle : Nat) (m : Machine ω) :
    uartRxBoundary hooks cycle (m.over o) = (uartRxBoundary hooks cycle m).over o := by
  simp -implicitDefEqProofs [Emu80535.uartRxBoundary, uartRxAccept, uartRxDrop, blind.raw, blind.irqWrite]

/-- A clock of the transmitter does not look at what an overlay replaces. -/
theorem uartClockTx (smod : Bool) (cycle : Nat) (m : Machine ω) :
    uartClockTx hooks smod cycle (m.over o) = (uartClockTx hooks smod cycle m).over o := by
  simp -implicitDefEqProofs [Emu80535.uartClockTx, blind.uartTxBoundary]

/-- A clock of the receiver does not look at what an overlay replaces. -/
theorem uartClockRx (smod : Bool) (cycle : Nat) (m : Machine ω) :
    uartClockRx hooks smod cycle (m.over o) = (uartClockRx hooks smod cycle m).over o := by
  simp -implicitDefEqProofs [Emu80535.uartClockRx, blind.uartRxBoundary]

/-- Clocking the serial port does not look at what an overlay replaces. -/
theorem uartTimer1Overflow (m : Machine ω) :
    uartTimer1Overflow hooks (m.over o) = (uartTimer1Overflow hooks m).over o := by
  simp -implicitDefEqProofs [Emu80535.uartTimer1Overflow, blind.uartClockTx, blind.uartClockRx]

/-- Holding a byte for transmission does not look at what an overlay replaces. -/
theorem uartSbufWrite (value : Byte) (m : Machine ω) :
    uartSbufWrite hooks value (m.over o) = (uartSbufWrite hooks value m).over o := by
  simp -implicitDefEqProofs [Emu80535.uartSbufWrite, blind.raw]

/-- Injecting a frame does not look at what an overlay replaces. -/
theorem injectRxFrame (data : Byte) (ninth : Bool) (m : Machine ω) :
    injectRxFrame hooks data ninth (m.over o) =
      ((injectRxFrame hooks data ninth m).1, (injectRxFrame hooks data ninth m).2.over o) := by
  simp -implicitDefEqProofs [Emu80535.injectRxFrame, blind.raw]

/-! ### The converter and the register gateway -/

omit blind in
/-- Closing a register transaction does not look at what an overlay replaces. -/
theorem adcFinishSfrTransaction (m : Machine ω) :
    adcFinishSfrTransaction (m.over o) = (adcFinishSfrTransaction m).over o := by
  simp -implicitDefEqProofs [Emu80535.adcFinishSfrTransaction]

/-- A cycle of the converter does not look at what an overlay replaces. -/
theorem adcTick (m : Machine ω) : adcTick hooks (m.over o) = (adcTick hooks m).over o := by
  have latch : ∀ cycle, adcLatch hooks cycle (m.over o) = (adcLatch hooks cycle m).over o := by
    intro cycle
    simp -implicitDefEqProofs [adcLatch]
  have complete : ∀ cycle (k : Machine ω),
      adcComplete hooks cycle (k.over o) = (adcComplete hooks cycle k).over o := by
    intro cycle k
    simp -implicitDefEqProofs [adcComplete, blind.irqWrite, blind.irqSync]
  simp -implicitDefEqProofs [Emu80535.adcTick, latch, complete]

/-- Reading a register through the gateway does not look at what an overlay replaces. -/
theorem sfrRead (index : SfrIndex) (m : Machine ω) :
    sfrRead hooks index (m.over o) =
      ((sfrRead hooks index m).1, (sfrRead hooks index m).2.over o) := by
  simp only [Emu80535.sfrRead]
  -- With a callback the answer is the callback's, which the overlay is hidden from.
  split
  · rename_i callback installed
    have same : callback (m.over o).cpu m.host = callback m.cpu m.host :=
      blind.sfrread index callback installed m.cpu m.host
    simp only [over_host, same]
    rfl
  · simp -implicitDefEqProofs only [over_variant, over_uart, over_portIndex]
    split
    · rfl
    · cases m.cpu.portIndex index <;> rfl

/-- Reading a register for modification does not look at what an overlay replaces. -/
theorem sfrRmwRead (index : SfrIndex) (m : Machine ω) :
    sfrRmwRead hooks index (m.over o) =
      ((sfrRmwRead hooks index m).1, (sfrRmwRead hooks index m).2.over o) := by
  simp only [Emu80535.sfrRmwRead, over_portIndex]
  cases m.cpu.portIndex index with
  | none => exact blind.sfrRead index m
  | some port => rfl

/-- Writing the serial buffer does not look at what an overlay replaces. -/
theorem sbufWrite (value : Byte) (m : Machine ω) :
    sbufWrite hooks value (m.over o) = (sbufWrite hooks value m).over o := by
  have answered : ∀ fact, (m.over o).rawAnswer hooks fact = m.rawAnswer hooks fact :=
    fun _ => blind.rawAnswer rfl
  have called : ∀ k : Machine ω,
      (k.over o).sfrCallback hooks Reg.sbuf = (k.sfrCallback hooks Reg.sbuf).over o :=
    fun k => blind.sfrCallback Reg.sbuf k
  simp -implicitDefEqProofs [Emu80535.sbufWrite, blind.raw, answered, blind.uartSbufWrite, called,
    adcFinishSfrTransaction]

/-- Writing a register through the gateway does not look at what an overlay replaces. -/
theorem sfrWrite (index : SfrIndex) (value : Byte) (m : Machine ω) :
    sfrWrite hooks index value (m.over o) = (sfrWrite hooks index value m).over o := by
  -- The value stored depends on registers alone, so it is the same one.
  have chosen : (m.over o).cpu.storedValue index value = m.cpu.storedValue index value := rfl
  have entered : sfrWriteEnter (m.over o) = (sfrWriteEnter m).over o := by
    simp -implicitDefEqProofs [sfrWriteEnter]
  -- The middle of the write: the store, the callback, the request of a conversion.
  have body : ∀ v (k : Machine ω),
      sfrWriteBody hooks index v (k.over o) = (sfrWriteBody hooks index v k).over o := by
    intro v k
    have requested : ∀ k : Machine ω, adcRequestStart (k.over o) = (adcRequestStart k).over o :=
      fun _ => rfl
    have called : ∀ k : Machine ω,
        (k.over o).sfrCallback hooks index = (k.sfrCallback hooks index).over o :=
      fun k => blind.sfrCallback index k
    simp -implicitDefEqProofs [sfrWriteBody, blind.irqWrite, requested, called]
  -- The end of it: the pins, the hold-off, the closing of the transaction.
  have tail : ∀ v (k : Machine ω),
      sfrWriteTail hooks index v (k.over o) = (sfrWriteTail hooks index v k).over o := by
    intro v k
    have sampled : sampleWritten hooks index (k.over o) = (sampleWritten hooks index k).over o := by
      simp only [sampleWritten, over_portIndex]
      cases k.cpu.portIndex index with
      | none => rfl
      | some port => exact blind.samplePort port k
    have held : ∀ k : Machine ω, holdOff index (k.over o) = (holdOff index k).over o := by
      intro k
      have armed : armInhibit (k.over o) = (armInhibit k).over o := rfl
      simp -implicitDefEqProofs [holdOff, armed]
    simp -implicitDefEqProofs [sfrWriteTail, sampled, held, adcFinishSfrTransaction]
  simp -implicitDefEqProofs [Emu80535.sfrWrite, chosen, entered, body, tail, blind.sbufWrite]

/-- Setting a request from outside does not look at what an overlay replaces. -/
theorem setPending (source : Nat) (pending : Bool) (m : Machine ω) :
    setPending hooks source pending (m.over o) =
      ((setPending hooks source pending m).1, (setPending hooks source pending m).2.over o) := by
  have priority : ∀ (k : Machine ω) s, (k.over o).cpu.irqPriority s = k.cpu.irqPriority s :=
    fun _ _ => rfl
  simp only [Emu80535.setPending]
  cases IrqSource.ofNat? source with
  | none => rfl
  | some s => simp -implicitDefEqProofs [blind.irqWrite, blind.irqSync, priority]

/-! ### Timers -/

/-- Reporting an overflow of a timer does not look at what an overlay replaces. -/
theorem timerOverflowEmit (timer : TimerId) (m : Machine ω) :
    timerOverflowEmit hooks timer (m.over o) = (timerOverflowEmit hooks timer m).over o := by
  -- The counts of overflows are not what an overlay replaces.
  have counted : ((m.over o).mapCpu fun c => { c with
      timerOverflowCount :=
        Function.update c.timerOverflowCount timer (c.timerOverflowCount timer + 1) }) =
      (m.mapCpu fun c => { c with
        timerOverflowCount :=
          Function.update c.timerOverflowCount timer (c.timerOverflowCount timer + 1) }).over o :=
    rfl
  simp -implicitDefEqProofs [Emu80535.timerOverflowEmit, counted, blind.uartTimer1Overflow]

/-- Raising a flag of TCON does not look at what an overlay replaces. -/
theorem raiseTcon (mask : Byte) (m : Machine ω) :
    (m.over o).raiseTcon hooks mask = (m.raiseTcon hooks mask).over o := by
  simp -implicitDefEqProofs [Machine.raiseTcon, blind.irqWrite]

omit blind in
/-- Whether Timer 0 runs does not depend on an overlay. -/
theorem timer0Runs : (m.over o).cpu.timer0Runs = m.cpu.timer0Runs := rfl

omit blind in
/-- Whether Timer 1 runs does not depend on an overlay. -/
theorem timer1Runs : (m.over o).cpu.timer1Runs = m.cpu.timer1Runs := rfl

omit blind in
/-- Whether Timer 0 is split does not depend on an overlay. -/
theorem timer0Mode3 : (m.over o).cpu.timer0Mode3 = m.cpu.timer0Mode3 := rfl

omit blind in
/-- Counting a register up does not look at what an overlay replaces. -/
theorem incSfr (index : SfrIndex) : (m.over o).incSfr index = (m.incSfr index).over o := rfl

omit blind in
/-- Counting the low five bits of a register up does not look at what an overlay replaces. -/
theorem incSfrLow5 (index : SfrIndex) :
    (m.over o).incSfrLow5 index = (m.incSfrLow5 index).over o := rfl

/-- A cycle of the upper half of a split Timer 0 does not look at what an overlay replaces. -/
theorem timer0SplitTick (m : Machine ω) :
    timer0SplitTick hooks (m.over o) = (timer0SplitTick hooks m).over o := by
  simp -implicitDefEqProofs [Emu80535.timer0SplitTick, timer0Mode3, timer0Runs, timer1Runs, incSfr,
    blind.raiseTcon]

/-- A cycle of Timer 0 does not look at what an overlay replaces. -/
theorem timer0Tick (m : Machine ω) :
    timer0Tick hooks (m.over o) = (timer0Tick hooks m).over o := by
  simp -implicitDefEqProofs [Emu80535.timer0Tick, timer0Runs, incSfr, incSfrLow5, blind.raiseTcon,
    blind.timerOverflowEmit]

/-- Counting Timer 1 does not look at what an overlay replaces. -/
theorem timer1Count (m : Machine ω) :
    timer1Count hooks (m.over o) = (timer1Count hooks m).over o := by
  simp -implicitDefEqProofs [Emu80535.timer1Count, raiseTf1, timer0Mode3, incSfr, incSfrLow5,
    blind.raiseTcon, blind.timerOverflowEmit]

/-- The serial shortcut uses the private state of the classic variants, and only there. -/
theorem timerTick (sab : m.cpu.variant = .sab80535) :
    timerTick hooks (m.over o) = (timerTick hooks m).over o := by
  -- The shortcut is for the classic variants, so it never runs here.
  have shortcut : ∀ k : Machine ω, k.cpu.variant = .sab80535 → classicSerial k = k := by
    intro k sab
    rw [classicSerial, if_neg (fun applies => applies.1 sab)]
  have moved : ∀ {c d : Cpu}, Moves c d → c.variant = .sab80535 → d.variant = .sab80535 :=
    fun moves sab => (congrArg Fixed.variant (Stable.fixed_eq moves.stable)).trans sab
  -- The variant is fixed through the timers, so the test has the same answer later.
  generalize counted : Emu80535.timer0Tick hooks (Emu80535.timer0SplitTick hooks m) = n
  have still : n.cpu.variant = .sab80535 := by
    rw [← counted]
    exact moved (Moves.refl m.cpu).timer0SplitTick.timer0Tick sab
  have first : Emu80535.timer0Tick hooks (Emu80535.timer0SplitTick hooks (m.over o)) =
      n.over o := by
    rw [blind.timer0SplitTick, blind.timer0Tick, counted]
  have later : (Emu80535.timer1Count hooks n).cpu.variant = .sab80535 :=
    moved (Moves.refl n.cpu).timer1Count still
  have second : timer1Tick hooks (n.over o) = (timer1Tick hooks n).over o := by
    simp -implicitDefEqProofs only [timer1Tick, timer1Runs, blind.timer1Count]
    rw [shortcut _ later, shortcut ((Emu80535.timer1Count hooks n).over o) later, ite_over]
  simp -implicitDefEqProofs only [Emu80535.timerTick, first, counted, over_aborted, second,
    ite_over]

/-- A cycle of Timer 2 does not look at what an overlay replaces. -/
theorem timer2Tick (m : Machine ω) :
    timer2Tick hooks (m.over o) = (timer2Tick hooks m).over o := by
  have counts : (m.over o).cpu.timer2Counts = m.cpu.timer2Counts := rfl
  simp -implicitDefEqProofs [Emu80535.timer2Tick, counts, blind.irqWrite, blind.timerOverflowEmit,
    blind.irqSync]

/-! ### Return from interrupt and interrupt entry -/

/-- Raising an exception under a condition does not look at what an overlay replaces. -/
theorem raiseIf (condition : Bool) (code : ExceptionCode) (m : Machine ω) :
    (m.over o).raiseIf hooks condition code = (m.raiseIf hooks condition code).over o := by
  have raised : (m.over o).raiseException hooks code = (m.raiseException hooks code).over o :=
    blind.raiseException rfl
  simp -implicitDefEqProofs [Machine.raiseIf, raised]

/-- Returning from an interrupt does not look at what an overlay replaces. -/
theorem sabIrqReti (originalSp : Byte) (m : Machine ω) :
    sabIrqReti hooks originalSp (m.over o) = (sabIrqReti hooks originalSp m).over o := by
  have armed : ∀ k : Machine ω, armInhibit (k.over o) = (armInhibit k).over o := fun _ => rfl
  have released : ∀ k : Machine ω, irqRelease hooks (k.over o) = (irqRelease hooks k).over o := by
    intro k
    -- Both sides report the release of the same entry, once the caches are rebuilt.
    obtain ⟨n, source, priority, here, there⟩ : ∃ (n : Machine ω) (source priority : Nat),
        irqRelease hooks k = (Emu80535.irqSync hooks n).emitIrq hooks .release source priority
          false (Emu80535.irqSync hooks n).cpu.irqPending ∧
        irqRelease hooks (k.over o) = (Emu80535.irqSync hooks (n.over o)).emitIrq hooks .release
          source priority false (Emu80535.irqSync hooks (n.over o)).cpu.irqPending :=
      ⟨_, _, _, rfl, rfl⟩
    rw [there, here, blind.irqSync, over_emitIrq, over_pending]
  simp -implicitDefEqProofs [Emu80535.sabIrqReti, blind.raiseIf, armed, released]

end Hooks.Blind

/-! ### Opcode bodies -/

namespace Op

variable {α β : Type} {f : Cpu → Cpu}

/-- On this machine a body does the same with and without a replacement. -/
def Apart (hooks : Hooks ω) (f : Cpu → Cpu) (p : Op α) (m : Machine ω) : Prop :=
  p.run hooks (m.mapCpu f) = ((p.run hooks m).1, (p.run hooks m).2.mapCpu f)

/-- Two parts that are apart from a change are apart from it together. -/
theorem Apart.bind {p : Op α} {g : α → Op β} (first : p.Apart hooks f m)
    (second : (g (p.run hooks m).1).Apart hooks f (p.run hooks m).2) :
    (p >>= g).Apart hooks f m := by
  simp only [Apart, bind_eq, run_bind] at first second ⊢
  rw [first]
  exact second

/-- Looking at the CPU is apart from a change that what is read does not see. -/
theorem Apart.look {g : Cpu → Op α} (same : g (f m.cpu) = g m.cpu)
    (rest : (g m.cpu).Apart hooks f m) : (cpu >>= g).Apart hooks f m := by
  have there : (cpu >>= g).run hooks (m.mapCpu f) = (g (f m.cpu)).run hooks (m.mapCpu f) := rfl
  have here : (cpu >>= g).run hooks m = (g m.cpu).run hooks m := rfl
  rw [Apart, there, here, same]
  exact rest

/-- An action that commutes with a change is apart from it. -/
theorem Apart.perform {e : Effect}
    (same : e.apply hooks (m.mapCpu f) = (e.apply hooks m).mapCpu f) :
    (perform e).Apart hooks f m := by
  simp only [Apart, run_perform, same]

/-- A choice is apart from a change when the branch taken is. -/
theorem Apart.ite {c : Prop} [Decidable c] {p q : Op α} (yes : c → p.Apart hooks f m)
    (no : ¬c → q.Apart hooks f m) : (if c then p else q).Apart hooks f m := by
  split
  · rename_i holds
    exact yes holds
  · rename_i fails
    exact no fails

end Op

/-- With these rights a body cannot tell the replacement from the original. -/
structure Rights.Tolerates (hooks : Hooks ω) (r : Rights) (f : Cpu → Cpu) : Prop where
  hidden : ∀ c other, (f c).hide r other = c.hide r other
  effects : ∀ e, r.allows e = true → ∀ m : Machine ω,
    e.apply hooks (m.mapCpu f) = (e.apply hooks m).mapCpu f
  read : r.read = true → ∀ index (m : Machine ω),
    sfrRead hooks index (m.mapCpu f) =
      ((sfrRead hooks index m).1, (sfrRead hooks index m).2.mapCpu f)
  modify : r.modify = true → ∀ index (m : Machine ω),
    sfrRmwRead hooks index (m.mapCpu f) =
      ((sfrRmwRead hooks index m).1, (sfrRmwRead hooks index m).2.mapCpu f)

/-- A body within its rights does the same with and without a replacement they tolerate. -/
theorem Op.Obeys.apart {α : Type} {r : Rights} {answer : α → Prop} {f : Cpu → Cpu} {p : Op α}
    (obeys : p.Obeys r answer) (blind : hooks.Blind f) (tolerates : r.Tolerates hooks f)
    (m : Machine ω) : p.Apart hooks f m := by
  -- Each node either sees only what is kept or takes a step that commutes with the replacement.
  have attached : ∀ c, (f c).observed = c.observed := by
    intro c
    have same : ((f c).hide r c).observed = (c.hide r c).observed := by rw [tolerates.hidden]
    exact same
  induction p generalizing m with
  | ret value => rfl
  | look next ih =>
    refine Op.Apart.look ?_ (ih m.cpu (obeys.2 m.cpu) m)
    rw [← obeys.1 m.cpu, tolerates.hidden, obeys.1]
  | act effect next ih =>
    have after := ih obeys.2 (effect.apply hooks m)
    simp only [Op.Apart, Op.run] at after ⊢
    rw [tolerates.effects effect obeys.1, after]
  | aborted next ih => exact ih _ (obeys _) m
  | ask fact next ih =>
    have after := ih (m.rawAnswer hooks fact) (obeys.2 _) (m.raw hooks fact)
    simp only [Op.Apart, Op.run] at after ⊢
    rw [blind.rawAnswer (attached _), blind.rawFact (attached _), after]
  | sfrRead index next ih =>
    have after := ih (Emu80535.sfrRead hooks index m).1 (obeys.2 _)
      (Emu80535.sfrRead hooks index m).2
    simp only [Op.Apart, Op.run] at after ⊢
    rw [tolerates.read obeys.1, after]
  | sfrRmwRead index next ih =>
    have after := ih (Emu80535.sfrRmwRead hooks index m).1 (obeys.2 _)
      (Emu80535.sfrRmwRead hooks index m).2
    simp only [Op.Apart, Op.run] at after ⊢
    rw [tolerates.modify obeys.1, after]
  | busRead address next ih =>
    simp only [Op.Apart, Op.run]
    split
    · rename_i callback installed
      have same : callback (m.mapCpu f).cpu address (m.mapCpu f).host =
          callback m.cpu address m.host := blind.xread callback installed _ _ _
      rw [same]
      exact ih _ (obeys.2 _) { m with host := (callback m.cpu address m.host).2 }
    · exact ih _ (obeys.2 _) m
  | busWrite address value next ih =>
    simp only [Op.Apart, Op.run]
    split
    · rename_i callback installed
      have same : callback (m.mapCpu f).cpu address value (m.mapCpu f).host =
          callback m.cpu address value m.host := blind.xwrite callback installed _ _ _ _
      rw [same]
      exact ih _ (obeys.2 _) { m with host := callback m.cpu address value m.host }
    · exact ih _ (obeys.2 _) m

/-- Rights tolerate an overlay of what they give no access to. -/
theorem Overlay.tolerated {o : Overlay} (blind : hooks.Blind o.apply) {r : Rights}
    (upper : r.upper = true → o.upper = id) (ext : r.external = true → o.ext = id)
    (classic : r.classic = true → o.classic = id)
    (present : ∀ data, (o.upper data).isSome = data.isSome) : r.Tolerates hooks o.apply where
  hidden := by
    -- What may be read is unchanged, and what may not be read is hidden.
    intro c other
    have upperSeen : (if r.upper then o.upper c.upperData else
          (o.upper c.upperData).map fun _ => other.upperData.getD fun _ => 0#8) =
        if r.upper then c.upperData else
          c.upperData.map fun _ => other.upperData.getD fun _ => 0#8 := by
      split
      · rename_i right
        rw [upper right, id]
      · have same := present c.upperData
        generalize o.upper c.upperData = shown at same
        generalize c.upperData = held at same
        cases shown <;> cases held <;> simp at same ⊢
    have extSeen : (if r.external then o.ext c.extData else other.extData) =
        if r.external then c.extData else other.extData := by
      split
      · rename_i right
        rw [ext right, id]
      · rfl
    have classicSeen : (if r.classic then o.classic c.classic else other.classic) =
        if r.classic then c.classic else other.classic := by
      split
      · rename_i right
        rw [classic right, id]
      · rfl
    simp only [Cpu.hide, Overlay.apply, upperSeen, extSeen, classicSeen]
  effects := by
    -- What may be written is unchanged, so writing and overlaying commute.
    intro e allowed m
    cases e with
    | setUpper address value =>
      have same := upper allowed
      simp only [Effect.apply, Machine.mapCpu, Overlay.apply, same, id]
      rfl
    | setExt address value =>
      have same := ext allowed
      simp only [Effect.apply, Machine.mapCpu, Overlay.apply, same, id]
      rfl
    | setInterruptActive value =>
      have same := classic allowed
      simp only [Effect.apply, Machine.mapCpu, Overlay.apply, same, id]
      rfl
    | sfrWrite index value => exact blind.sfrWrite index value m
    | raise code => exact blind.raiseException rfl
    | irqReti originalSp => exact blind.sabIrqReti originalSp m
    | trace type address value => exact over_traceEmit type address value
    | fact f => exact blind.raw f m
    | setLower | setReg | setPc | emit => rfl
  read := fun _ => blind.sfrRead
  modify := fun _ => blind.sfrRmwRead

end Emu80535
