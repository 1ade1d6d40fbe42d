import Emu80535.Proofs.Access

/-! Every operation of the core as a sequence of CPU changes and callback invocations. -/

namespace Emu80535

variable {ω : Type} {hooks : Hooks ω}

/-! ### Elementary steps -/

/--
Sequences of CPU changes allowed by a relation and of callback invocations.

An induction on them settles, for all operations at once, what callbacks can see and do.
-/
inductive Steps (hooks : Hooks ω) (allowed : Cpu → Cpu → Prop) : Machine ω → Machine ω → Prop
  | refl (m : Machine ω) : Steps hooks allowed m m
  | change {m n : Machine ω} (c : Cpu) (stores : List FlagStore) :
      Steps hooks allowed m n → allowed n.cpu c →
        Steps hooks allowed m { n with cpu := c, stores := stores }
  | except {m n : Machine ω} (code : ExceptionCode) :
      Steps hooks allowed m n →
        Steps hooks allowed m { n with host := hooks.except n.cpu code n.host }
  | sfrread {m n : Machine ω} {index : SfrIndex} {callback : Cpu → ω → Byte × ω} :
      Steps hooks allowed m n → hooks.sfrread index = some callback →
        Steps hooks allowed m { n with host := (callback n.cpu n.host).2 }
  | sfrwrite {m n : Machine ω} {index : SfrIndex} {callback : Machine ω → Machine ω} :
      Steps hooks allowed m n → hooks.sfrwrite index = some callback →
        Steps hooks allowed m (callback n)
  | xread {m n : Machine ω} {callback : Cpu → Word → ω → Byte × ω} (address : Word) :
      Steps hooks allowed m n → hooks.xread = some callback →
        Steps hooks allowed m { n with host := (callback n.cpu address n.host).2 }
  | xwrite {m n : Machine ω} {callback : Cpu → Word → Byte → ω → ω} (address : Word)
      (value : Byte) :
      Steps hooks allowed m n → hooks.xwrite = some callback →
        Steps hooks allowed m { n with host := callback n.cpu address value n.host }
  | emit {m n : Machine ω} (record : Record) :
      Steps hooks allowed m n →
        Steps hooks allowed m { n with host := hooks.emit record n.host }
  | fact {m n : Machine ω} (fact : RawFact) :
      Steps hooks allowed m n →
        Steps hooks allowed m { n with host := (hooks.fact n.cpu fact n.host).2 }

/-- CPU changes that leave the fixed part alone. -/
def SameFixed (a b : Cpu) : Prop := b.fixed = a.fixed

/-- CPU changes of any kind. -/
def AnyChange (_ _ : Cpu) : Prop := True

namespace Steps

variable {allowed : Cpu → Cpu → Prop} {m n k : Machine ω}

/-- Sequences of steps compose. -/
theorem trans (first : Steps hooks allowed m n) (second : Steps hooks allowed n k) :
    Steps hooks allowed m k := by
  -- By induction on the second sequence, which is put behind the first step by step.
  induction second with
  | refl => exact first
  | change c stores _ permitted ih => exact .change c stores ih permitted
  | except code _ ih => exact .except code ih
  | sfrread _ installed ih => exact .sfrread ih installed
  | sfrwrite _ installed ih => exact .sfrwrite ih installed
  | xread address _ installed ih => exact .xread address ih installed
  | xwrite address value _ installed ih => exact .xwrite address value ih installed
  | emit record _ ih => exact .emit record ih
  | fact f _ ih => exact .fact f ih

/-- Allowing more CPU changes allows more sequences. -/
theorem mono {wider : Cpu → Cpu → Prop} (wide : ∀ a b, allowed a b → wider a b)
    (steps : Steps hooks allowed m n) : Steps hooks wider m n := by
  induction steps with
  | refl => exact .refl _
  | change c stores _ permitted ih => exact .change c stores ih (wide _ _ permitted)
  | except code _ ih => exact .except code ih
  | sfrread _ installed ih => exact .sfrread ih installed
  | sfrwrite _ installed ih => exact .sfrwrite ih installed
  | xread address _ installed ih => exact .xread address ih installed
  | xwrite address value _ installed ih => exact .xwrite address value ih installed
  | emit record _ ih => exact .emit record ih
  | fact f _ ih => exact .fact f ih

/-- An abort that callbacks cannot withdraw outlives every sequence of steps. -/
theorem aborted (sticky : hooks.Sticky) (steps : Steps hooks allowed m n)
    (before : m.aborted hooks = true) : n.aborted hooks = true := by
  -- By induction on the sequence: a change of the CPU is none of the abort request.
  induction steps with
  | refl => exact before
  | change c _ _ _ ih => exact ih
  | except code _ ih => exact sticky.except _ code _ ih
  | sfrread _ installed ih => exact sticky.sfrread _ _ installed _ _ ih
  | sfrwrite _ installed ih => exact sticky.sfrwrite _ _ installed _ ih
  | xread address _ installed ih => exact sticky.xread _ installed _ address _ ih
  | xwrite address value _ installed ih => exact sticky.xwrite _ installed _ address value _ ih
  | emit record _ ih => exact sticky.emit record _ ih
  | fact f _ ih => exact sticky.fact _ f _ ih

/-- What is not aborted at the end was not aborted at the start. -/
theorem unaborted (sticky : hooks.Sticky) (steps : Steps hooks allowed m n)
    (after : n.aborted hooks = false) : m.aborted hooks = false := by
  cases before : m.aborted hooks with
  | false => rfl
  | true => rw [steps.aborted sticky before] at after; exact after

/-- A branch of two continuations is one of them. -/
theorem ite {p : Prop} [Decidable p] {a b : Machine ω} (yes : Steps hooks allowed m a)
    (no : Steps hooks allowed m b) : Steps hooks allowed m (if p then a else b) := by
  split
  · exact yes
  · exact no

/-- The same for a branch that also depends on which way it went. -/
theorem ite_snd {α : Type} {p : Prop} [Decidable p] {a b : α × Machine ω}
    (yes : Steps hooks allowed m a.2) (no : Steps hooks allowed m b.2) :
    Steps hooks allowed m (if p then a else b).2 := by
  split
  · exact yes
  · exact no

/-! ### One rule for each function of the core -/

section Rules

variable (steps : Steps hooks SameFixed m n)

include steps

/-- A change of the CPU object is a sequence of steps. -/
theorem mapCpu {f : Cpu → Cpu} (same : (f n.cpu).fixed = n.cpu.fixed) :
    Steps hooks SameFixed m (n.mapCpu f) := .change _ _ steps same

/-- A store of a register is a sequence of steps. -/
theorem setSfr (index : SfrIndex) (value : Byte) :
    Steps hooks SameFixed m (n.setSfr index value) := .change _ _ steps rfl

/-- Handing out a record is a sequence of steps. -/
theorem emitRecord (record : Record) : Steps hooks SameFixed m (n.emit hooks record) :=
  .emit record steps

/-- Reporting a raw fact is a sequence of steps. -/
theorem raw (f : RawFact) : Steps hooks SameFixed m (n.raw hooks f) := by
  simp only [Machine.raw]
  exact ite (.fact f steps) steps

/-- A store of request flags is a sequence of steps. -/
theorem irqWrite (index : SfrIndex) (value : Byte) (cycle : Nat) :
    Steps hooks SameFixed m (n.irqWrite hooks index value cycle) := by
  simp only [Machine.irqWrite]
  refine ite ?_ (steps.setSfr index value)
  exact Fold.foldl_keeps (I := fun k => Steps hooks SameFixed m k)
    (fun source _ k before => ite (before.raw _) before) (steps.setSfr index value)

/-- Clearing flags is a sequence of steps. -/
theorem clearFlags (index : SfrIndex) (mask : Byte) :
    Steps hooks SameFixed m (n.clearFlags index mask) := steps.setSfr _ _

/-- Remembering a request made by a level is a sequence of steps. -/
theorem setLevelAsserted (bit : Byte) (asserted : Bool) :
    Steps hooks SameFixed m (n.setLevelAsserted bit asserted) := steps.mapCpu rfl

/-- Remembering a sampled level is a sequence of steps. -/
theorem setSampled (bit : Byte) (level : Bool) :
    Steps hooks SameFixed m (n.setSampled bit level) := steps.mapCpu rfl

/-- Maintaining the request of one level is a sequence of steps. -/
theorem maintainLevelRequest (pins : Byte) (source : ExternalSource) :
    Steps hooks SameFixed m (maintainLevelRequest hooks pins source n) := by
  simp only [Emu80535.maintainLevelRequest]
  refine ite (steps.setLevelAsserted _ _) (ite ?_ (ite ?_ steps))
  · exact (steps.irqWrite _ _ _).setLevelAsserted _ _
  · exact (steps.clearFlags _ _).setLevelAsserted _ _

/-- Maintaining the requests of levels is a sequence of steps. -/
theorem maintainLevelRequests :
    Steps hooks SameFixed m (maintainLevelRequests hooks n) := by
  simp only [Emu80535.maintainLevelRequests]
  refine ite ?_ steps
  exact Fold.foldl_keeps (I := fun k => Steps hooks SameFixed m k)
    (fun source _ k before => before.maintainLevelRequest _ source) steps

/-- Synchronising the request caches is a sequence of steps. -/
theorem irqSync : Steps hooks SameFixed m (irqSync hooks n) := by
  simp only [Emu80535.irqSync]
  exact steps.maintainLevelRequests.mapCpu rfl

/-- Noting what a trigger says of the level is a sequence of steps. -/
theorem noteLevel (source : ExternalSource) (trigger : ExternalTrigger) :
    Steps hooks SameFixed m (noteLevel source trigger n) := by
  cases trigger with
  | lowLevelAssert => exact steps.setLevelAsserted _ _
  | levelRelease => exact (ite (steps.clearFlags _ _) steps).setLevelAsserted _ _
  | nonQualifying | fallingEdge | risingEdge => exact steps

/-- A change at an external input is a sequence of steps. -/
theorem observeChange (source : ExternalSource) (old new : Bool) :
    Steps hooks SameFixed m (observeChange hooks source old new n) := by
  simp only [Emu80535.observeChange]
  refine emitRecord (irqSync (ite ?_ (steps.noteLevel _ _))) _
  exact (steps.noteLevel _ _).irqWrite _ _ _

/-- Sampling one external input is a sequence of steps. -/
theorem sampleSource (port : SabPort) (pins : Byte) (source : ExternalSource) :
    Steps hooks SameFixed m (sampleSource hooks port pins source n) := by
  simp only [Emu80535.sampleSource]
  exact ite (ite steps ((steps.setSampled _ _).observeChange _ _ _)) steps

/-- Sampling a port is a sequence of steps. -/
theorem samplePort (port : SabPort) : Steps hooks SameFixed m (samplePort hooks port n) := by
  simp only [Emu80535.samplePort]
  refine ite ?_ steps
  exact Fold.foldl_keeps (I := fun k => Steps hooks SameFixed m k)
    (fun source _ k before => before.sampleSource port _ source) steps

/-- A change of the serial port's state is a sequence of steps. -/
theorem mapUart (f : UartState → UartState) : Steps hooks SameFixed m (n.mapUart f) :=
  steps.mapCpu rfl

/-- Tracing the serial port is a sequence of steps. -/
theorem emitUart (event : UartEvent) (cycle : Nat) (data : Byte) (ninth : Bool) (bitIndex : Nat)
    (bitValue : Bool) :
    Steps hooks SameFixed m (n.emitUart hooks event cycle data ninth bitIndex bitValue) :=
  steps.emitRecord _

/-- Starting a transmission is a sequence of steps. -/
theorem uartTxStart (cycle : Nat) : Steps hooks SameFixed m (uartTxStart hooks cycle n) := by
  simp only [Emu80535.uartTxStart]
  exact ((steps.mapUart _).raw _).emitUart _ _ _ _ _ _

/-- Sending the stop bit is a sequence of steps. -/
theorem uartTxStop (cycle : Nat) : Steps hooks SameFixed m (uartTxStop hooks cycle n) := by
  simp only [Emu80535.uartTxStop]
  refine emitUart (ite (raw ?_ _) ?_) _ _ _ _ _ _
  all_goals exact ((steps.mapUart _).irqWrite _ _ _).raw _

/-- Ending a transmission is a sequence of steps. -/
theorem uartTxEnd (cycle : Nat) : Steps hooks SameFixed m (uartTxEnd hooks cycle n) := by
  simp only [Emu80535.uartTxEnd]
  refine ite ?_ (ite (uartTxStart (mapUart ?_ _) cycle) (mapUart ?_ _))
  all_goals exact (steps.raw _).emitUart _ _ _ _ _ _

/-- A bit boundary of the transmitter is a sequence of steps. -/
theorem uartTxBoundary (cycle : Nat) :
    Steps hooks SameFixed m (uartTxBoundary hooks cycle n) := by
  simp only [Emu80535.uartTxBoundary]
  refine ite (ite (steps.uartTxStart cycle) steps) (ite ?_ (ite ?_ ?_))
  · exact (steps.mapUart _).emitUart _ _ _ _ _ _
  · exact steps.uartTxStop cycle
  · exact steps.uartTxEnd cycle

/-- Accepting a frame is a sequence of steps. -/
theorem uartRxAccept (cycle : Nat) : Steps hooks SameFixed m (uartRxAccept hooks cycle n) := by
  simp only [Emu80535.uartRxAccept]
  refine emitUart (raw (irqWrite (ite (setSfr ?_ _ _) ?_) _ _ _) _) _ _ _ _ _ _
  all_goals exact ((steps.mapUart _).setSfr _ _).setSfr _ _

/-- Dropping a frame is a sequence of steps. -/
theorem uartRxDrop (cycle : Nat) : Steps hooks SameFixed m (uartRxDrop hooks cycle n) := by
  simp only [Emu80535.uartRxDrop]
  exact (steps.raw _).emitUart _ _ _ _ _ _

/-- A bit boundary of the receiver is a sequence of steps. -/
theorem uartRxBoundary (cycle : Nat) :
    Steps hooks SameFixed m (uartRxBoundary hooks cycle n) := by
  simp only [Emu80535.uartRxBoundary]
  refine ite (ite (uartRxAccept ?_ cycle) (uartRxDrop ?_ cycle))
    (ite (emitUart (raw (mapUart ?_ _) _) _ _ _ _ _ _) ?_)
  all_goals exact steps.mapUart _

/-- Clocking the serial port is a sequence of steps. -/
theorem uartTimer1Overflow : Steps hooks SameFixed m (uartTimer1Overflow hooks n) := by
  simp only [Emu80535.uartTimer1Overflow, uartClockTx, uartClockRx]
  refine ite (ite ?_ (ite (ite (uartRxBoundary (mapUart ?_ _) _) (mapUart ?_ _)) ?_)) steps
  all_goals exact ite ((steps.mapUart _).uartTxBoundary _) (steps.mapUart _)

/-- Holding a byte for transmission is a sequence of steps. -/
theorem uartSbufWrite (value : Byte) : Steps hooks SameFixed m (uartSbufWrite hooks value n) := by
  simp only [Emu80535.uartSbufWrite]
  exact ite ((steps.mapUart _).raw _) steps

/-- Injecting a frame is a sequence of steps. -/
theorem injectRxFrame (data : Byte) (ninth : Bool) :
    Steps hooks SameFixed m (injectRxFrame hooks data ninth n).2 := by
  simp only [Emu80535.injectRxFrame]
  exact ite_snd (((steps.mapUart _).raw _).emitUart _ _ _ _ _ _) steps

/-- A change of the converter's state is a sequence of steps. -/
theorem mapAdc (f : AdcState → AdcState) : Steps hooks SameFixed m (n.mapAdc f) :=
  steps.mapCpu rfl

/-- Setting the converter's busy flag is a sequence of steps. -/
theorem setBusy (busy : Bool) : Steps hooks SameFixed m (n.setBusy busy) := by
  simp only [Machine.setBusy]
  exact (steps.mapAdc _).setSfr _ _

/-- Tracing the converter is a sequence of steps. -/
theorem emitAdc (event : AdcEvent) (cycle : Nat) :
    Steps hooks SameFixed m (n.emitAdc hooks event cycle) := steps.emitRecord _

/-- A cycle of the converter is a sequence of steps. -/
theorem adcTick : Steps hooks SameFixed m (adcTick hooks n) := by
  simp only [Emu80535.adcTick, adcLatch, adcComplete]
  refine ite steps (ite ?_ (ite steps (ite (steps.mapAdc _) ?_)))
  · exact (((steps.mapAdc _).setBusy true).emitAdc _ _).mapAdc _
  · refine emitAdc (irqSync (irqWrite (setBusy (mapAdc (ite (setSfr ?_ _ _) ?_) _) _) _ _ _)) _ _
    all_goals exact steps.mapAdc _

/-- Requesting a conversion is a sequence of steps. -/
theorem adcRequestStart : Steps hooks SameFixed m (adcRequestStart n) := steps.mapAdc _

/-- Closing a register transaction is a sequence of steps. -/
theorem adcFinishSfrTransaction : Steps hooks SameFixed m (adcFinishSfrTransaction n) := by
  simp only [Emu80535.adcFinishSfrTransaction]
  refine ite (ite (mapAdc ?_ _) ?_) steps
  all_goals exact (steps.mapAdc _).setBusy _

/-- Tracing an access is a sequence of steps. -/
theorem traceEmit (type : TraceType) (address : Word) (value : Byte) :
    Steps hooks SameFixed m (n.traceEmit hooks type address value) := by
  simp only [Machine.traceEmit]
  exact ite steps (steps.emitRecord _)

/-- Calling the register write callback is a sequence of steps. -/
theorem sfrCallback (index : SfrIndex) :
    Steps hooks SameFixed m (n.sfrCallback hooks index) := by
  simp only [Machine.sfrCallback]
  split
  · rename_i callback installed
    exact .sfrwrite steps installed
  · exact steps

/-- Reading a register through the gateway is a sequence of steps. -/
theorem sfrRead (index : SfrIndex) : Steps hooks SameFixed m (sfrRead hooks index n).2 := by
  simp only [Emu80535.sfrRead]
  split
  · rename_i callback installed
    exact .sfrread steps installed
  · split
    · exact steps
    · split <;> exact steps

/-- Reading a register for modification is a sequence of steps. -/
theorem sfrRmwRead (index : SfrIndex) :
    Steps hooks SameFixed m (sfrRmwRead hooks index n).2 := by
  simp only [Emu80535.sfrRmwRead]
  split
  · exact steps
  · exact steps.sfrRead index

/-- Opening a register transaction is a sequence of steps. -/
theorem sfrWriteEnter : Steps hooks SameFixed m (sfrWriteEnter n) := by
  simp only [Emu80535.sfrWriteEnter]
  exact ite (steps.mapAdc _) steps

/-- Arming the hold-off is a sequence of steps. -/
theorem armInhibit : Steps hooks SameFixed m (armInhibit n) := steps.mapCpu rfl

/-- Writing the serial buffer is a sequence of steps. -/
theorem sbufWrite (value : Byte) : Steps hooks SameFixed m (sbufWrite hooks value n) := by
  simp only [Emu80535.sbufWrite]
  have begun := steps.raw (.accessBegin n.cpu.machineCycleCount (sfrAddress Reg.sbuf) false value)
  have told := ((begun.uartSbufWrite value).setSfr Reg.sbuf value).sfrCallback Reg.sbuf
  refine ite begun (ite (told.raw _) ?_)
  exact (((told.setSfr _ _).traceEmit _ _ _).adcFinishSfrTransaction).raw _

/-- A register write up to its callback is a sequence of steps. -/
theorem sfrWriteBody (index : SfrIndex) (value : Byte) :
    Steps hooks SameFixed m (sfrWriteBody hooks index value n) := by
  simp only [Emu80535.sfrWriteBody]
  have stored := steps.irqWrite index value n.cpu.machineCycleCount
  exact (ite stored.adcRequestStart stored).sfrCallback index

/-- Sampling the port a write drives is a sequence of steps. -/
theorem sampleWritten (index : SfrIndex) :
    Steps hooks SameFixed m (sampleWritten hooks index n) := by
  simp only [Emu80535.sampleWritten]
  split
  · exact steps.samplePort _
  · exact steps

/-- A register write behind its callback is a sequence of steps. -/
theorem sfrWriteTail (index : SfrIndex) (value : Byte) :
    Steps hooks SameFixed m (sfrWriteTail hooks index value n) := by
  simp only [Emu80535.sfrWriteTail, holdOff]
  have sampled := (steps.sampleWritten index).traceEmit .sfrWrite ((sfrAddress index).setWidth 16)
    value
  exact (ite sampled.armInhibit sampled).adcFinishSfrTransaction

/-- Writing a register through the gateway is a sequence of steps. -/
theorem sfrWrite (index : SfrIndex) (value : Byte) :
    Steps hooks SameFixed m (sfrWrite hooks index value n) := by
  simp only [Emu80535.sfrWrite]
  have entered := steps.sfrWriteEnter
  have stored := entered.sfrWriteBody index (n.cpu.storedValue index value)
  exact ite (entered.sbufWrite _) (ite stored (stored.sfrWriteTail _ _))

/-- Reporting an overflow of a timer is a sequence of steps. -/
theorem timerOverflowEmit (timer : TimerId) :
    Steps hooks SameFixed m (timerOverflowEmit hooks timer n) := by
  simp only [Emu80535.timerOverflowEmit]
  refine ite ?_ (emitRecord ?_ _)
  all_goals exact ite (uartTimer1Overflow (steps.mapCpu rfl)) (steps.mapCpu rfl)

/-- Raising a flag of TCON is a sequence of steps. -/
theorem raiseTcon (mask : Byte) : Steps hooks SameFixed m (n.raiseTcon hooks mask) :=
  steps.irqWrite _ _ _

/-- Counting a register up is a sequence of steps. -/
theorem incSfr (index : SfrIndex) : Steps hooks SameFixed m (n.incSfr index) :=
  steps.setSfr _ _

/-- Counting the low five bits of a register up is a sequence of steps. -/
theorem incSfrLow5 (index : SfrIndex) : Steps hooks SameFixed m (n.incSfrLow5 index) :=
  steps.setSfr _ _

/-- A cycle of the upper half of a split Timer 0 is a sequence of steps. -/
theorem timer0SplitTick : Steps hooks SameFixed m (timer0SplitTick hooks n) := by
  simp only [Emu80535.timer0SplitTick]
  refine ite (ite (ite (raiseTcon (incSfr ?_ _) _) (incSfr ?_ _)) ?_) steps
  all_goals exact ite (ite ((steps.incSfr _).raiseTcon _) (steps.incSfr _)) steps

/-- A cycle of Timer 0 is a sequence of steps. -/
theorem timer0Tick : Steps hooks SameFixed m (timer0Tick hooks n) := by
  simp only [Emu80535.timer0Tick]
  -- One branch for each mode and each wrap, in the order of the source.
  refine ite (ite (ite (ite ?_ ?_) ?_) (ite (ite (ite ?_ ?_) ?_) (ite (ite ?_ ?_) steps))) steps
  · exact ((steps.incSfrLow5 _).incSfr _).raiseTcon _
  · exact (steps.incSfrLow5 _).incSfr _
  · exact steps.incSfrLow5 _
  · exact (((steps.incSfr _).incSfr _).raiseTcon _).timerOverflowEmit _
  · exact (steps.incSfr _).incSfr _
  · exact steps.incSfr _
  · exact ((steps.incSfr _).setSfr _ _).raiseTcon _
  · exact steps.incSfr _

/-- Raising the flag of Timer 1 is a sequence of steps. -/
theorem raiseTf1 : Steps hooks SameFixed m (raiseTf1 hooks n) := by
  simp only [Emu80535.raiseTf1]
  exact ite steps (steps.raiseTcon _)

/-- Counting Timer 1 is a sequence of steps. -/
theorem timer1Count : Steps hooks SameFixed m (timer1Count hooks n) := by
  simp only [Emu80535.timer1Count]
  -- As for Timer 0, with the flag raised through its own routine.
  refine ite (ite (ite ?_ ?_) ?_) (ite (ite (ite ?_ ?_) ?_) (ite (ite (ite ?_ ?_) ?_) steps))
  · exact ((steps.incSfrLow5 _).incSfr _).raiseTf1
  · exact (steps.incSfrLow5 _).incSfr _
  · exact steps.incSfrLow5 _
  · exact ((steps.incSfr _).incSfr _).raiseTf1
  · exact (steps.incSfr _).incSfr _
  · exact steps.incSfr _
  · exact (steps.incSfr _).setSfr _ _
  · exact (((steps.incSfr _).setSfr _ _).raiseTcon _).timerOverflowEmit _
  · exact steps.incSfr _

/-- A change of the classic state is a sequence of steps. -/
theorem mapClassic (f : Cpu → ClassicState) : Steps hooks SameFixed m (n.mapClassic f) :=
  steps.mapCpu rfl

/-- Sending a byte by the classic shortcut is a sequence of steps. -/
theorem serialTx : Steps hooks SameFixed m (serialTx n) := by
  simp only [Emu80535.serialTx, serialSent]
  refine ite steps (ite (mapClassic (setSfr (mapClassic ?_ _) _ _) _) ?_)
  all_goals exact (steps.mapClassic _).setSfr _ _

/-- A cycle of Timers 0 and 1 is a sequence of steps. -/
theorem timerTick : Steps hooks SameFixed m (timerTick hooks n) := by
  simp only [Emu80535.timerTick, timer1Tick, classicSerial]
  refine ite ?_ (ite (ite (clearFlags (serialTx (timer1Count ?_)) _ _) (timer1Count ?_)) ?_)
  all_goals exact steps.timer0SplitTick.timer0Tick

/-- A cycle of Timer 2 is a sequence of steps. -/
theorem timer2Tick : Steps hooks SameFixed m (timer2Tick hooks n) := by
  simp only [Emu80535.timer2Tick]
  refine ite (ite (ite ?_ (irqSync ?_)) ?_) steps
  · exact (((steps.setSfr _ _).setSfr _ _).irqWrite _ _ _).timerOverflowEmit _
  · exact (((steps.setSfr _ _).setSfr _ _).irqWrite _ _ _).timerOverflowEmit _
  · exact (steps.setSfr _ _).setSfr _ _

/-- A cycle of the peripherals is a sequence of steps. -/
theorem advancePeripherals : Steps hooks SameFixed m (advancePeripherals hooks n) := by
  simp only [Emu80535.advancePeripherals]
  refine ite ?_ (ite (timer2Tick ?_) (adcTick (timer2Tick ?_)))
  all_goals exact (steps.raw _).timerTick

/-- Tracing the interrupt controller is a sequence of steps. -/
theorem emitIrq (event : IrqEvent) (source priority : Nat) (asserted : Bool) (pending : Word) :
    Steps hooks SameFixed m (n.emitIrq hooks event source priority asserted pending) :=
  steps.emitRecord _

/-- Setting a request from outside is a sequence of steps. -/
theorem setPending (source : Nat) (pending : Bool) :
    Steps hooks SameFixed m (setPending hooks source pending n).2 := by
  simp only [Emu80535.setPending]
  split
  · exact steps
  · refine ite_snd ?_ steps
    exact (ite (steps.irqWrite _ _ _) (steps.clearFlags _ _)).irqSync.emitIrq _ _ _ _ _

/-- Raising an exception is a sequence of steps. -/
theorem raiseException (code : ExceptionCode) :
    Steps hooks SameFixed m (n.raiseException hooks code) := by
  have raised : Steps hooks SameFixed m
      (n.mapCpu fun c => { c with exceptionRaised := true, lastException := some code }) :=
    steps.mapCpu rfl
  exact .except code raised

/-- Raising an exception under a condition is a sequence of steps. -/
theorem raiseIf (condition : Bool) (code : ExceptionCode) :
    Steps hooks SameFixed m (n.raiseIf hooks condition code) := by
  simp only [Machine.raiseIf]
  exact ite (steps.raiseException code) steps

/-- Releasing a served source is a sequence of steps. -/
theorem irqRelease : Steps hooks SameFixed m (irqRelease hooks n) := by
  simp only [Emu80535.irqRelease]
  exact (irqSync (steps.mapCpu rfl)).emitIrq _ _ _ _ _

/-- Returning from an interrupt is a sequence of steps. -/
theorem sabIrqReti (originalSp : Byte) :
    Steps hooks SameFixed m (sabIrqReti hooks originalSp n) := by
  simp only [Emu80535.sabIrqReti]
  refine ite (ite ?_ steps.armInhibit) steps
  refine ite (steps.raiseIf _ _) (ite ((steps.raiseIf _ _).raiseIf _ _) (ite ?_ ?_))
  · exact ((steps.raiseIf _ _).raiseIf _ _).raiseIf _ _
  · exact (((steps.raiseIf _ _).raiseIf _ _).raiseIf _ _).irqRelease.armInhibit

/-- An action of an opcode is a sequence of steps. -/
theorem effect (e : Effect) : Steps hooks SameFixed m (e.apply hooks n) := by
  -- Memory and registers are written at once; the rest goes through the functions above.
  cases e with
  | setLower _ _ | setUpper _ _ | setPc _ | setExt _ _ | setInterruptActive _ =>
    exact .change _ _ steps rfl
  | setReg _ _ => exact steps.setSfr _ _
  | sfrWrite index value => exact steps.sfrWrite index value
  | raise code => exact steps.raiseException code
  | irqReti originalSp => exact steps.sabIrqReti originalSp
  | emit record => exact steps.emitRecord record
  | trace type address value => exact steps.traceEmit type address value
  | fact f => exact steps.raw f

/-- Every opcode body is a sequence of steps, by induction on its tree. -/
theorem run {α : Type} (p : Op α) : Steps hooks SameFixed m (p.run hooks n).2 := by
  -- By induction on the tree of the body, one case for each kind of node.
  induction p generalizing n with
  | ret value => exact steps
  | look next ih => exact ih n.cpu steps
  | act e next ih => exact ih (steps.effect e)
  | aborted next ih => exact ih _ steps
  | ask f next ih => exact ih _ (steps.raw f)
  | sfrRead index next ih => exact ih _ (steps.sfrRead index)
  | sfrRmwRead index next ih => exact ih _ (steps.sfrRmwRead index)
  | busRead address next ih =>
    simp only [Op.run]
    split
    · rename_i callback installed
      exact ih _ (.xread address steps installed)
    · exact ih _ steps
  | busWrite address value next ih =>
    simp only [Op.run]
    split
    · rename_i callback installed
      exact ih _ (.xwrite address value steps installed)
    · exact ih _ steps

end Rules

/-! ### Whole operations -/

section Operations

/-- Forget which CPU changes a sequence made. -/
theorem weaken (steps : Steps hooks SameFixed m n) : Steps hooks AnyChange m n :=
  steps.mono fun _ _ _ => trivial

variable (steps : Steps hooks AnyChange m n)

include steps

/-- A change of the CPU object is a sequence of steps. -/
theorem changeCpu (f : Cpu → Cpu) : Steps hooks AnyChange m (n.mapCpu f) :=
  .change _ _ steps trivial

/-- A machine with the same callbacks' state differs by a CPU change. -/
theorem sameHost {k : Machine ω} (same : k.host = n.host) : Steps hooks AnyChange m k := by
  have split : k = { n with cpu := k.cpu, stores := k.stores } := by rw [← same]
  rw [split]
  exact .change _ _ steps trivial

/-- Driving pins anew is a sequence of steps. -/
theorem redrive (port : SabPort) (mask levels : Byte) :
    Steps hooks AnyChange m (redrive hooks port mask levels n) :=
  (steps.changeCpu _).trans (samplePort (.refl _) port).weaken

/-- Driving a port is a sequence of steps. -/
theorem portDrive (index : SfrIndex) (mask levels : Byte) :
    Steps hooks AnyChange m (portDrive hooks index mask levels n).2 := by
  simp only [Emu80535.portDrive]
  split
  · exact steps
  · exact steps.redrive _ _ _

/-- Releasing a port is a sequence of steps. -/
theorem portRelease (index : SfrIndex) (mask : Byte) :
    Steps hooks AnyChange m (portRelease hooks index mask n).2 := by
  simp only [Emu80535.portRelease]
  split
  · exact steps
  · exact steps.redrive _ _ _

/-- Driving an external input is a sequence of steps. -/
theorem externalDrive (source : Nat) (level : Bool) :
    Steps hooks AnyChange m (externalDrive hooks source level n).2 := by
  simp only [Emu80535.externalDrive]
  split
  · exact steps
  · exact steps.portDrive _ _ _

/-- Releasing an external input is a sequence of steps. -/
theorem externalRelease (source : Nat) :
    Steps hooks AnyChange m (externalRelease hooks source n).2 := by
  simp only [Emu80535.externalRelease]
  split
  · exact steps
  · exact steps.portRelease _ _

/-- Applying a scheduled event is a sequence of steps. -/
theorem applyEvent (event : ScheduleEvent) :
    Steps hooks AnyChange m (applyEvent hooks event n).2 := by
  simp only [Emu80535.applyEvent]
  exact ite_snd (steps.externalDrive _ _) (steps.externalRelease _)

/-- Scheduling an event is a sequence of steps. -/
theorem schedule (event : ScheduleEvent) :
    Steps hooks AnyChange m (schedule hooks event n).2 := by
  simp only [Emu80535.schedule]
  refine ite_snd steps (ite_snd (steps.applyEvent event) (ite_snd steps (ite_snd steps ?_)))
  exact .change _ _ steps trivial

/-- The application loop, by induction on the number of queued entries. -/
theorem applyDue (fuel : Nat) : Steps hooks AnyChange m (applyDue hooks fuel n) := by
  induction fuel generalizing n with
  | zero => exact steps
  | succ fuel ih =>
    simp only [Emu80535.applyDue]
    exact ite (ite steps (ih ((steps.changeCpu _).applyEvent _))) steps

/-- Applying the events of a cycle is a sequence of steps. -/
theorem applyScheduled : Steps hooks AnyChange m (applyScheduled hooks n) := by
  simp only [Emu80535.applyScheduled]
  exact ite ((steps.applyDue _).changeCpu _) (steps.applyDue _)

/-- Completing a machine cycle is a sequence of steps. -/
theorem completeMachineCycle : Steps hooks AnyChange m (completeMachineCycle hooks n) := by
  simp only [Emu80535.completeMachineCycle]
  exact ((steps.changeCpu _).applyScheduled).trans (maintainLevelRequests (.refl _)).weaken

/-- A machine cycle is a sequence of steps. -/
theorem advanceMachineCycle : Steps hooks AnyChange m (advanceMachineCycle hooks n) := by
  have peripherals : Steps hooks AnyChange m (Emu80535.advancePeripherals hooks n) :=
    steps.trans (advancePeripherals (.refl n)).weaken
  simp only [Emu80535.advanceMachineCycle]
  exact ite steps (ite peripherals peripherals.completeMachineCycle)

/-- Running a body is a sequence of steps. -/
theorem runOp {α : Type} (p : Op α) : Steps hooks AnyChange m (p.run hooks n).2 :=
  steps.trans (run (.refl n) p).weaken

/-- Reporting a raw fact is a sequence of steps. -/
theorem rawFact (f : RawFact) : Steps hooks AnyChange m (n.raw hooks f) :=
  steps.trans (raw (.refl n) f).weaken

/-- Synchronising the request caches is a sequence of steps. -/
theorem syncIrq : Steps hooks AnyChange m (Emu80535.irqSync hooks n) :=
  steps.trans (irqSync (.refl n)).weaken

/-- Clearing the flag of an accepted source is a sequence of steps. -/
theorem autoClear (source : IrqSource) :
    Steps hooks AnyChange m (Emu80535.autoClear source n) := by
  cases source with
  | int0 | int1 => exact ite (.change _ _ steps trivial) steps
  | uart | timer2 | adc => exact steps
  | timer0 | timer1 | int2 | int3 | int4 | int5 | int6 => exact .change _ _ steps trivial

/-- Committing an interrupt entry is a sequence of steps. -/
theorem acceptInterrupt (source : IrqSource) (priority : Nat) (returnPc : Word) (spBefore : Byte)
    (pending : Word) :
    Steps hooks AnyChange m
      (acceptInterrupt hooks source priority returnPc spBefore pending n) := by
  simp only [Emu80535.acceptInterrupt]
  refine .emit _ (syncIrq (autoClear (rawFact (changeCpu ?_ _) _) source))
  exact .change _ _ steps trivial

/-- Attempting an interrupt entry is a sequence of steps. -/
theorem enterInterrupt (source : IrqSource) :
    Steps hooks AnyChange m (enterInterrupt hooks source n).2 := by
  simp only [Emu80535.enterInterrupt]
  refine ite_snd (steps.rawFact _) (ite_snd (ite_snd ?_ ?_) ?_)
  · exact (((steps.rawFact _).runOp _).runOp _).acceptInterrupt _ _ _ _ _
  · exact ((steps.rawFact _).runOp _).runOp _
  · exact (steps.rawFact _).runOp _

/-- Handling interrupts of the Siemens controller is a sequence of steps. -/
theorem handleSabInterrupts : Steps hooks AnyChange m (handleSabInterrupts hooks n).2 := by
  simp only [Emu80535.handleSabInterrupts]
  refine ite_snd steps.syncIrq (ite_snd steps.syncIrq ?_)
  split
  · exact steps.syncIrq
  · exact ite_snd steps.syncIrq (steps.syncIrq.enterInterrupt _)

/-- Committing an entry of the classic controller is a sequence of steps. -/
theorem acceptClassic (source : ClassicSource) (hi : Bool) :
    Steps hooks AnyChange m (acceptClassic source hi n) := by
  refine steps.sameHost ?_
  cases source <;>
    simp only [Emu80535.acceptClassic, Machine.mapCpu_host, Machine.clearFlags, Machine.setSfr_host]

/-- Handling interrupts of the classic controller is a sequence of steps. -/
theorem handleClassicInterrupts :
    Steps hooks AnyChange m (handleClassicInterrupts hooks n).2 := by
  simp only [Emu80535.handleClassicInterrupts]
  refine ite_snd steps ?_
  split
  · exact steps
  · refine ite_snd steps (ite_snd (ite_snd ?_ ?_) (steps.runOp _))
    · exact ((steps.runOp _).runOp _).acceptClassic _ _
    · exact (steps.runOp _).runOp _

/-- Handling interrupts is a sequence of steps. -/
theorem handleInterrupts : Steps hooks AnyChange m (handleInterrupts hooks n).2 := by
  simp only [Emu80535.handleInterrupts]
  exact ite_snd steps.handleSabInterrupts steps.handleClassicInterrupts

/-- Reporting the start of an instruction is a sequence of steps. -/
theorem beginInstruction : Steps hooks AnyChange m (beginInstruction hooks n) := by
  simp only [Emu80535.beginInstruction]
  exact ((steps.changeCpu _).rawFact _).trans (traceEmit (.refl _) _ _ _).weaken

/-- Running an opcode body with its bookkeeping is a sequence of steps. -/
theorem runInstruction (opcode : Byte) :
    Steps hooks AnyChange m (runInstruction hooks opcode n) := by
  simp only [Emu80535.runInstruction]
  exact ((steps.runOp _).changeCpu _).rawFact _

/-- Executing an instruction is a sequence of steps. -/
theorem executeInstruction : Steps hooks AnyChange m (executeInstruction hooks n).2 := by
  have ran := steps.beginInstruction.runInstruction n.cpu.opcode
  simp only [Emu80535.executeInstruction]
  exact ite_snd (.change _ _ steps.beginInstruction trivial) (ite_snd ran (.change _ _ ran trivial))

/-- What a tick does after handling interrupts is a sequence of steps. -/
theorem tickBody : Steps hooks AnyChange m (tickBody hooks n).2 := by
  have parity : ∀ {k : Machine ω}, Steps hooks AnyChange m k →
      Steps hooks AnyChange m (updateParity k) := fun before => .change _ _ before trivial
  simp only [Emu80535.tickBody]
  refine ite_snd (ite_snd (parity steps).advanceMachineCycle ?_) steps.advanceMachineCycle
  exact ite_snd (parity steps.executeInstruction).advanceMachineCycle steps.executeInstruction

/-- A tick is a sequence of CPU changes and callback invocations. -/
theorem tick : Steps hooks AnyChange m (tick hooks n).2 := by
  simp only [Emu80535.tick]
  refine ite_snd steps (ite_snd (steps.changeCpu _).advanceMachineCycle (ite_snd steps ?_))
  refine ite_snd steps.handleInterrupts.advanceMachineCycle ?_
  exact ite_snd steps.handleInterrupts steps.handleInterrupts.tickBody

/-- And so is every host call. -/
theorem hostCall (call : HostCall) : Steps hooks AnyChange m (call.run hooks n).2 := by
  -- A step inside a host call may change less than the host may.
  have small : ∀ {k : Machine ω}, Steps hooks SameFixed n k → Steps hooks AnyChange m k :=
    fun rest => steps.trans rest.weaken
  -- The calls that set host data change the CPU at will, the others go through the device.
  cases call with
  | reset _ _ | setResetSeed _ | setBreakpoint _ _ | loadCode _ => exact .change _ _ steps trivial
  | setPending source pending => exact small (setPending (.refl n) source pending)
  | portDrive _ _ _ => exact ite_snd steps (steps.portDrive _ _ _)
  | portRelease _ _ => exact ite_snd steps (steps.portRelease _ _)
  | externalDrive source level => exact steps.externalDrive source level
  | externalRelease source => exact steps.externalRelease source
  | schedule event => exact steps.schedule event
  | clearSchedule => exact ite (steps.changeCpu _) steps
  | injectRxFrame data ninth => exact small (injectRxFrame (.refl n) data ninth)
  | adcSetInput channel input => exact ite_snd steps (.change _ _ steps trivial)
  | sfrRead _ => exact ite_snd steps (small (sfrRead (.refl n) _))
  | sfrWrite _ _ => exact ite_snd steps (small (sfrWrite (.refl n) _ _))

end Operations

end Steps

end Emu80535
