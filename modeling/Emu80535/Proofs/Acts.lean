import Emu80535.Proofs.Tells

/-! Every operation of the core as a sequence of observable acts, each kept whole. -/

namespace Emu80535

variable {ω : Type} {hooks : Hooks ω}

open Machine

/-- The serial shortcut keeps the variant. -/
theorem serialTx_variant (m : Machine ω) : (serialTx m).cpu.variant = m.cpu.variant := by
  simp only [serialTx, serialSent]
  split
  · rfl
  · split <;> simp only [mapClassic, mapCpu_cpu, setSfr]

/-! ### Acts -/

/-- The frames of the serial port, without the dividers that clock them. -/
def UartState.frames (u : UartState) : UartState :=
  { u with dividerPhase := 0#8, rxDividerPhase := 0#8 }

/-- A change of the CPU that leaves alone what is reported through raw facts. -/
structure Apart (a b : Cpu) : Prop where
  variant : b.variant = a.variant
  observed : b.observed = a.observed
  frames : b.uart.frames = a.uart.frames
  depth : b.service.depth = a.service.depth
  tcon : b.sfr Reg.tcon = a.sfr Reg.tcon
  scon : b.sfr Reg.scon = a.sfr Reg.scon
  ircon : b.sfr Reg.ircon = a.sfr Reg.ircon

/-- Only an input in level mode is found released. -/
theorem Cpu.classify_release (c : Cpu) (source : ExternalSource) (old new : Bool)
    (released : (c.classify source old new).1 = .levelRelease) : c.levelMode source = true := by
  revert released
  -- Inputs 0 and 1 may watch a level or an edge; the other five watch edges alone.
  cases source with
  | int0 | int1 =>
    simp only [Cpu.classify, Cpu.levelMode]
    split
    · split <;> simp
    · rename_i level
      have off := Bool.eq_false_iff.mpr level
      split <;> simp [ExternalSource.port, off]
  | int2 | int3 | int4 | int5 | int6 =>
    simp only [Cpu.classify]
    repeat' split
    all_goals simp

/-- What an act needs permission for. -/
inductive Deed (ω : Type) where
  | fact (fact : RawFact)
  | enter
  | leave
  /-- External data is accessed. -/
  | external
  /-- A register write callback changes the state it owns. -/
  | own (before after : ω)

/-- The commit of an interrupt entry, up to the fact that reports it. -/
def enterService (hooks : Hooks ω) (source : IrqSource) (priority : Nat) (returnPc : Word)
    (spBefore : Byte) (m : Machine ω) : Machine ω :=
  let m := m.mapCpu fun c =>
    { c with
      pc := source.vector
      tickDelay := 1
      service := c.service.push source priority c }
  m.raw hooks (.irqEnter m.cpu.machineCycleCount source returnPc spBefore (m.cpu.sfr Reg.sp))

/-- The release of the innermost interrupt in service. -/
def leaveService (m : Machine ω) : Machine ω :=
  m.mapCpu fun c => { c with service := c.service.pop }

/--
One act of the core.

Stores of request flags, boundaries of the serial port and changes of the nesting are acts of their
own; everything else the CPU does is apart from them.
-/
inductive Act (hooks : Hooks ω) (permits : Deed ω → Prop) : Machine ω → Machine ω → Prop
  | apart {n : Machine ω} (c : Cpu) (same : Apart n.cpu c) :
      Act hooks permits n { n with cpu := c }
  /-- What only the other variants do. -/
  | foreign {n : Machine ω} (c : Cpu) (stores : List FlagStore)
      (other : n.cpu.variant ≠ .sab80535) (same : c.variant = n.cpu.variant)
      (observed : c.observed = n.cpu.observed) :
      Act hooks permits n { n with cpu := c, stores := stores }
  /-- A level that asserted a request withdraws it. -/
  | withdraw {n : Machine ω} (source : ExternalSource) (level : n.cpu.levelMode source = true)
      (asserted : has n.cpu.pins.levelAsserted source.sampleBit = true) :
      Act hooks permits n
        (n.clearFlags source.irqSource.requestReg source.irqSource.requestMask)
  /-- An accepted interrupt drops its request. -/
  | acknowledge {n : Machine ω} (source : IrqSource) (allowed : permits .enter) :
      Act hooks permits n (autoClear source n)
  /-- The embedder cancels a request. -/
  | cancel {n : Machine ω} (source : IrqSource) :
      Act hooks permits n (n.clearFlags source.requestReg source.requestMask)
  /-- A flag is raised by the observing writer. -/
  | raise {n : Machine ω} (index : SfrIndex) (mask : Byte) (cycle : Nat) :
      Act hooks permits n (n.irqWrite hooks index (n.cpu.sfr index ||| mask) cycle)
  /-- A register is written by the observing writer. -/
  | store {n : Machine ω} (index : SfrIndex) (value : Byte) (cycle : Nat) :
      Act hooks permits n (n.irqWrite hooks index value cycle)
  | txBoundary {n : Machine ω} (cycle : Nat) :
      Act hooks permits n (uartTxBoundary hooks cycle n)
  | rxBoundary {n : Machine ω} (cycle : Nat) :
      Act hooks permits n (uartRxBoundary hooks cycle n)
  | hold {n : Machine ω} (value : Byte) : Act hooks permits n (uartSbufWrite hooks value n)
  | inject {n : Machine ω} (data : Byte) (ninth : Bool) :
      Act hooks permits n (injectRxFrame hooks data ninth n).2
  | enter {n : Machine ω} (source : IrqSource) (priority : Nat) (returnPc : Word)
      (spBefore : Byte) (allowed : permits .enter) :
      Act hooks permits n (enterService hooks source priority returnPc spBefore n)
  | leave {n : Machine ω} (allowed : permits .leave) : Act hooks permits n (leaveService n)
  | fact {n : Machine ω} (f : RawFact) (allowed : permits (.fact f)) :
      Act hooks permits n (n.raw hooks f)
  | except {n : Machine ω} (code : ExceptionCode) :
      Act hooks permits n { n with host := hooks.except n.cpu code n.host }
  | sfrread {n : Machine ω} {index : SfrIndex} {callback : Cpu → ω → Byte × ω}
      (installed : hooks.sfrread index = some callback) :
      Act hooks permits n { n with host := (callback n.cpu n.host).2 }
  | xread {n : Machine ω} {callback : Cpu → Word → ω → Byte × ω} (address : Word)
      (installed : hooks.xread = some callback) (allowed : permits .external) :
      Act hooks permits n { n with host := (callback n.cpu address n.host).2 }
  | xwrite {n : Machine ω} {callback : Cpu → Word → Byte → ω → ω} (address : Word) (value : Byte)
      (installed : hooks.xwrite = some callback) (allowed : permits .external) :
      Act hooks permits n { n with host := callback n.cpu address value n.host }
  | emit {n : Machine ω} (record : Record) :
      Act hooks permits n { n with host := hooks.emit record n.host }
  | own {n : Machine ω} (h : ω) (allowed : permits (.own n.host h)) :
      Act hooks permits n { n with host := h }

/-- Sequences of acts. -/
def Acts (hooks : Hooks ω) (permits : Deed ω → Prop) : Machine ω → Machine ω → Prop :=
  Relation.ReflTransGen (Act hooks permits)

/-- Register write callbacks that work on the CPU through acts of the core. -/
def Hooks.Acting (hooks : Hooks ω) (permits : Deed ω → Prop) : Prop :=
  ∀ index callback, hooks.sfrwrite index = some callback → ∀ m : Machine ω,
    Acts hooks permits m (callback m)

/-- The facts the core reports on its own, beside those of the acts that are reported themselves. -/
def RawFact.plain : RawFact → Bool
  | .begin .. | .operand .. | .opcodeEnd .. | .cycleBegin .. | .contextPreflight .. => true
  | .call .. | .ret .. | .reti .. => true
  | .accessBegin .. | .accessOld .. | .accessEnd .. => true
  | _ => false

/-- Bodies report plain facts. -/
theorem RawFact.plain_of_bodily {f : RawFact} (bodily : f.bodily = true) : f.plain = true := by
  cases f <;> first | rfl | exact absurd bodily Bool.false_ne_true

/-- Facts that bracket a write of the serial buffer. -/
inductive RawFact.Brackets : RawFact → Prop
  | opens (cycle : Nat) (address : Byte) (rmw : Bool) (value : Byte) :
      Brackets (.accessBegin cycle address rmw value)
  | closes (cycle access : Nat) (address value : Byte) :
      Brackets (.accessEnd cycle access address value)

/-- The brackets are plain facts. -/
theorem RawFact.Brackets.plain {f : RawFact} (brackets : f.Brackets) : f.plain = true := by
  cases brackets <;> rfl

namespace Acts

variable {permits : Deed ω → Prop} {m n k : Machine ω}

/-- Doing nothing is a sequence of acts. -/
theorem refl (m : Machine ω) : Acts hooks permits m m := Relation.ReflTransGen.refl

/-- One more act. -/
theorem act (acts : Acts hooks permits m n) (last : Act hooks permits n k) :
    Acts hooks permits m k := Relation.ReflTransGen.tail acts last

/-- Two sequences of acts, one after the other, are one. -/
theorem trans (first : Acts hooks permits m n) (second : Acts hooks permits n k) :
    Acts hooks permits m k := Relation.ReflTransGen.trans first second

/-- A branch of two continuations is one of them. -/
theorem ite {p : Prop} [Decidable p] {a b : Machine ω} (yes : Acts hooks permits m a)
    (no : Acts hooks permits m b) : Acts hooks permits m (if p then a else b) := by
  split
  · exact yes
  · exact no

/-- The same for a branch that also answers. -/
theorem ite_snd {α : Type} {p : Prop} [Decidable p] {a b : α × Machine ω}
    (yes : Acts hooks permits m a.2) (no : Acts hooks permits m b.2) :
    Acts hooks permits m (if p then a else b).2 := by
  split
  · exact yes
  · exact no

/-! ### Registers, pins and caches -/

section Rules

variable (acts : Acts hooks permits m n)

include acts

/-- A change of the CPU apart from requests and frames is a sequence of acts. -/
theorem apart (c : Cpu) (same : Apart n.cpu c) : Acts hooks permits m { n with cpu := c } :=
  acts.act (.apart c same)

/-- A change of the CPU object is a sequence of acts. -/
theorem mapCpu {f : Cpu → Cpu} (same : Apart n.cpu (f n.cpu)) :
    Acts hooks permits m (n.mapCpu f) := acts.apart _ same

/-- A store of a register is a sequence of acts. -/
theorem setSfr {index : SfrIndex} (value : Byte) (other : isRequestReg index = false) :
    Acts hooks permits m (n.setSfr index value) := by
  rw [setSfr_other _ _ other]
  simp only [isRequestReg, Bool.or_eq_false_iff, beq_eq_false_iff_ne] at other
  refine acts.mapCpu ⟨rfl, rfl, rfl, rfl, ?_, ?_, ?_⟩
  · exact Function.update_of_ne (Ne.symm other.1.1) _ _
  · exact Function.update_of_ne (Ne.symm other.1.2) _ _
  · exact Function.update_of_ne (Ne.symm other.2) _ _

/-- Handing out a record is a sequence of acts. -/
theorem emitRecord (record : Record) : Acts hooks permits m (n.emit hooks record) :=
  acts.act (.emit record)

/-- A raw fact that is permitted. -/
theorem raw {f : RawFact} (allowed : permits (.fact f)) : Acts hooks permits m (n.raw hooks f) :=
  acts.act (.fact f allowed)

/-- A flag raised by the observing writer. -/
theorem raise (index : SfrIndex) (mask : Byte) (cycle : Nat) :
    Acts hooks permits m (n.irqWrite hooks index (n.cpu.sfr index ||| mask) cycle) :=
  acts.act (.raise index mask cycle)

/-- Remembering a request made by a level is a sequence of acts. -/
theorem setLevelAsserted (bit : Byte) (asserted : Bool) :
    Acts hooks permits m (n.setLevelAsserted bit asserted) :=
  acts.mapCpu ⟨rfl, rfl, rfl, rfl, rfl, rfl, rfl⟩

/-- Maintaining the request of one level is a sequence of acts. -/
theorem maintainLevelRequest (pins : Byte) {source : ExternalSource} (wired : source.port = .p3) :
    Acts hooks permits m (maintainLevelRequest hooks pins source n) := by
  have reg : source.irqSource.requestReg = Reg.tcon := by cases source <;> trivial
  simp only [Emu80535.maintainLevelRequest]
  split
  · exact acts.setLevelAsserted _ _
  · rename_i edge
    -- Low asserts the request, high withdraws one that was asserted, and nothing else happens.
    split
    · exact (acts.raise _ _ _).setLevelAsserted _ _
    · split
      · rename_i asserted
        have level : n.cpu.levelMode source = true := by
          simp only [Cpu.levelMode, wired, beq_self_eq_true, Bool.true_and, Bool.not_eq_true']
          exact Bool.eq_false_iff.mpr edge
        rw [← reg]
        exact (acts.act (.withdraw source level asserted)).setLevelAsserted _ _
      · exact acts

/-- Maintaining the requests of levels is a sequence of acts. -/
theorem maintainLevelRequests : Acts hooks permits m (maintainLevelRequests hooks n) := by
  simp only [Emu80535.maintainLevelRequests]
  refine ite ?_ acts
  exact Fold.foldl_keeps (I := fun k => Acts hooks permits m k)
    (fun source member k before => before.maintainLevelRequest _ (by
      simp only [List.mem_cons, List.not_mem_nil, or_false] at member
      rcases member with rfl | rfl <;> rfl)) acts

/-- Synchronising the request caches is a sequence of acts. -/
theorem irqSync : Acts hooks permits m (irqSync hooks n) := by
  simp only [Emu80535.irqSync]
  exact acts.maintainLevelRequests.mapCpu ⟨rfl, rfl, rfl, rfl, rfl, rfl, rfl⟩

/-- Noting what a trigger says of the level is a sequence of acts. -/
theorem noteLevel (source : ExternalSource) {trigger : ExternalTrigger}
    (level : trigger = .levelRelease → n.cpu.levelMode source = true) :
    Acts hooks permits m (noteLevel source trigger n) := by
  cases trigger with
  | lowLevelAssert => exact acts.setLevelAsserted _ _
  | levelRelease =>
    simp only [Emu80535.noteLevel]
    -- The request is withdrawn only where the level had asserted it.
    refine setLevelAsserted ?_ _ _
    split
    · rename_i asserted
      exact acts.act (.withdraw source (level rfl) asserted)
    · exact acts
  | nonQualifying | fallingEdge | risingEdge => exact acts

/-- A change at an external input is a sequence of acts. -/
theorem observeChange (source : ExternalSource) (old new : Bool) :
    Acts hooks permits m (observeChange hooks source old new n) := by
  have noted := acts.noteLevel source (n.cpu.classify_release source old new)
  simp only [Emu80535.observeChange]
  exact emitRecord (irqSync (ite (noted.raise _ _ _) noted)) _

/-- Sampling one external input is a sequence of acts. -/
theorem sampleSource (port : SabPort) (pins : Byte) (source : ExternalSource) :
    Acts hooks permits m (sampleSource hooks port pins source n) := by
  simp only [Emu80535.sampleSource]
  refine ite (ite acts (observeChange ?_ _ _ _)) acts
  exact acts.mapCpu ⟨rfl, rfl, rfl, rfl, rfl, rfl, rfl⟩

/-- Sampling a port is a sequence of acts. -/
theorem samplePort (port : SabPort) : Acts hooks permits m (samplePort hooks port n) := by
  simp only [Emu80535.samplePort]
  refine ite ?_ acts
  exact Fold.foldl_keeps (I := fun k => Acts hooks permits m k)
    (fun source _ k before => before.sampleSource port _ source) acts

/-! ### The serial port and the converter -/

/-- A change of the serial dividers is a sequence of acts. -/
theorem mapDividers {f : UartState → UartState} (same : (f n.cpu.uart).frames = n.cpu.uart.frames) :
    Acts hooks permits m (n.mapUart f) := acts.mapCpu ⟨rfl, rfl, same, rfl, rfl, rfl, rfl⟩

/-- Clocking the serial port is a sequence of acts. -/
theorem uartTimer1Overflow : Acts hooks permits m (uartTimer1Overflow hooks n) := by
  simp only [Emu80535.uartTimer1Overflow, uartClockTx, uartClockRx]
  refine ite (ite ?_ (ite (ite (act (mapDividers ?_ rfl) (.rxBoundary _)) (mapDividers ?_ rfl))
    ?_)) acts
  all_goals exact ite ((acts.mapDividers rfl).act (.txBoundary _)) (acts.mapDividers rfl)

/-- A change of the converter's state is a sequence of acts. -/
theorem mapAdc (f : AdcState → AdcState) : Acts hooks permits m (n.mapAdc f) :=
  acts.mapCpu ⟨rfl, rfl, rfl, rfl, rfl, rfl, rfl⟩

/-- Setting the converter's busy flag is a sequence of acts. -/
theorem setBusy (busy : Bool) : Acts hooks permits m (n.setBusy busy) := by
  simp only [Machine.setBusy]
  exact (acts.mapAdc _).setSfr _ rfl

/-- A cycle of the converter is a sequence of acts. -/
theorem adcTick : Acts hooks permits m (adcTick hooks n) := by
  simp only [Emu80535.adcTick, adcLatch, adcComplete]
  refine ite acts (ite ?_ (ite acts (ite (acts.mapAdc _) ?_)))
  · exact (((acts.mapAdc _).setBusy true).emitRecord _).mapAdc _
  · refine emitRecord (irqSync (raise (setBusy (mapAdc (ite (setSfr ?_ _ rfl) ?_) _) _) _ _ _)) _
    all_goals exact acts.mapAdc _

/-- Closing a register transaction is a sequence of acts. -/
theorem adcFinishSfrTransaction : Acts hooks permits m (adcFinishSfrTransaction n) := by
  simp only [Emu80535.adcFinishSfrTransaction]
  refine ite (ite (mapAdc ?_ _) ?_) acts
  all_goals exact (acts.mapAdc _).setBusy _

/-! ### Register access -/

/-- Tracing an access is a sequence of acts. -/
theorem traceEmit (type : TraceType) (address : Word) (value : Byte) :
    Acts hooks permits m (n.traceEmit hooks type address value) := by
  simp only [Machine.traceEmit]
  exact ite acts (acts.emitRecord _)

/-- Calling the register write callback is a sequence of acts. -/
theorem sfrCallback (acting : hooks.Acting permits) (index : SfrIndex) :
    Acts hooks permits m (n.sfrCallback hooks index) := by
  simp only [Machine.sfrCallback]
  split
  · rename_i callback installed
    exact acts.trans (acting index callback installed n)
  · exact acts

/-- Reading a register through the gateway is a sequence of acts. -/
theorem sfrRead (index : SfrIndex) : Acts hooks permits m (sfrRead hooks index n).2 := by
  simp only [Emu80535.sfrRead]
  split
  · rename_i callback installed
    exact acts.act (.sfrread installed)
  · split
    · exact acts
    · split <;> exact acts

/-- Reading a register for modification is a sequence of acts. -/
theorem sfrRmwRead (index : SfrIndex) : Acts hooks permits m (sfrRmwRead hooks index n).2 := by
  simp only [Emu80535.sfrRmwRead]
  split
  · exact acts
  · exact acts.sfrRead index

/-- Opening a register transaction is a sequence of acts. -/
theorem sfrWriteEnter : Acts hooks permits m (sfrWriteEnter n) := by
  simp only [Emu80535.sfrWriteEnter]
  exact ite (acts.mapAdc _) acts

/-- Arming the hold-off is a sequence of acts. -/
theorem armInhibit : Acts hooks permits m (armInhibit n) :=
  acts.mapCpu ⟨rfl, rfl, rfl, rfl, rfl, rfl, rfl⟩

/-- A write of the serial buffer on the Siemens CPU brackets itself with two facts. -/
theorem sbufWrite (acting : hooks.Acting permits) (bracket : ∀ f, f.Brackets → permits (.fact f))
    (value : Byte) : Acts hooks permits m (sbufWrite hooks value n) := by
  simp only [Emu80535.sbufWrite]
  -- The opening fact, the write and its callback, and the closing fact.
  have begun : Acts hooks permits m (n.raw hooks (.accessBegin n.cpu.machineCycleCount
      (sfrAddress Reg.sbuf) false value)) := acts.raw (bracket _ (.opens ..))
  have mirrored : ∀ {k : Machine ω} (v : Byte), Acts hooks permits m k →
      Acts hooks permits m (k.setSfr Reg.sbuf v) := fun v before => before.setSfr v rfl
  have told := (mirrored value (begun.act (.hold value))).sfrCallback acting Reg.sbuf
  refine ite begun (ite (told.raw (bracket _ (.closes ..))) ?_)
  exact ((mirrored _ told).traceEmit _ _ _).adcFinishSfrTransaction.raw (bracket _ (.closes ..))

/-- A register write up to its callback is a sequence of acts. -/
theorem sfrWriteBody (acting : hooks.Acting permits) (index : SfrIndex) (value : Byte) :
    Acts hooks permits m (sfrWriteBody hooks index value n) := by
  simp only [Emu80535.sfrWriteBody, adcRequestStart]
  have stored : Acts hooks permits m (n.irqWrite hooks index value n.cpu.machineCycleCount) :=
    acts.act (.store index value _)
  exact (ite (stored.mapAdc _) stored).sfrCallback acting index

/-- A register write behind its callback is a sequence of acts. -/
theorem sfrWriteTail (index : SfrIndex) (value : Byte) :
    Acts hooks permits m (sfrWriteTail hooks index value n) := by
  simp only [Emu80535.sfrWriteTail, holdOff]
  -- Only a latch of a port has pins to sample.
  have sampled : Acts hooks permits m (sampleWritten hooks index n) := by
    simp only [Emu80535.sampleWritten]
    split
    · exact acts.samplePort _
    · exact acts
  have traced := sampled.traceEmit .sfrWrite ((sfrAddress index).setWidth 16) value
  exact (ite traced.armInhibit traced).adcFinishSfrTransaction

/-- A write of any register, where the facts of the serial buffer are permitted. -/
theorem sfrWrite (acting : hooks.Acting permits) (bracket : ∀ f, f.Brackets → permits (.fact f))
    (index : SfrIndex) (value : Byte) : Acts hooks permits m (sfrWrite hooks index value n) := by
  simp only [Emu80535.sfrWrite]
  have entered := acts.sfrWriteEnter
  have stored := entered.sfrWriteBody acting index (n.cpu.storedValue index value)
  exact ite (entered.sbufWrite acting bracket _) (ite stored (stored.sfrWriteTail _ _))

/-! ### Timers -/

/-- Reporting an overflow of a timer is a sequence of acts. -/
theorem timerOverflowEmit (timer : TimerId) :
    Acts hooks permits m (timerOverflowEmit hooks timer n) := by
  simp only [Emu80535.timerOverflowEmit]
  have counted : Acts hooks permits m (n.mapCpu fun c =>
      { c with timerOverflowCount :=
          Function.update c.timerOverflowCount timer (c.timerOverflowCount timer + 1) }) :=
    acts.mapCpu ⟨rfl, rfl, rfl, rfl, rfl, rfl, rfl⟩
  refine ite ?_ (emitRecord ?_ _)
  all_goals exact ite counted.uartTimer1Overflow counted

/-- Raising a flag of TCON is a sequence of acts. -/
theorem raiseTcon (mask : Byte) : Acts hooks permits m (n.raiseTcon hooks mask) :=
  acts.raise _ _ _

/-- Counting a register up is a sequence of acts. -/
theorem incSfr {index : SfrIndex} (other : isRequestReg index = false) :
    Acts hooks permits m (n.incSfr index) := acts.setSfr _ other

/-- Counting the low five bits of a register up is a sequence of acts. -/
theorem incSfrLow5 {index : SfrIndex} (other : isRequestReg index = false) :
    Acts hooks permits m (n.incSfrLow5 index) := acts.setSfr _ other

/-- A cycle of the upper half of a split Timer 0 is a sequence of acts. -/
theorem timer0SplitTick : Acts hooks permits m (timer0SplitTick hooks n) := by
  simp only [Emu80535.timer0SplitTick]
  refine ite (ite (ite (raiseTcon (incSfr ?_ rfl) _) (incSfr ?_ rfl)) ?_) acts
  all_goals exact ite (ite ((acts.incSfr rfl).raiseTcon _) (acts.incSfr rfl)) acts

/-- A cycle of Timer 0 is a sequence of acts. -/
theorem timer0Tick : Acts hooks permits m (timer0Tick hooks n) := by
  simp only [Emu80535.timer0Tick]
  -- The branches of the modes and of the wraps, in the order of the source.
  refine ite (ite (ite (ite ?_ ?_) ?_) (ite (ite (ite ?_ ?_) ?_) (ite (ite ?_ ?_) acts))) acts
  · exact ((acts.incSfrLow5 rfl).incSfr rfl).raiseTcon _
  · exact (acts.incSfrLow5 rfl).incSfr rfl
  · exact acts.incSfrLow5 rfl
  · exact (((acts.incSfr rfl).incSfr rfl).raiseTcon _).timerOverflowEmit _
  · exact (acts.incSfr rfl).incSfr rfl
  · exact acts.incSfr rfl
  · exact ((acts.incSfr rfl).setSfr _ rfl).raiseTcon _
  · exact acts.incSfr rfl

/-- Raising the flag of Timer 1 is a sequence of acts. -/
theorem raiseTf1 : Acts hooks permits m (raiseTf1 hooks n) := by
  simp only [Emu80535.raiseTf1]
  exact ite acts (acts.raiseTcon _)

/-- Counting Timer 1 is a sequence of acts. -/
theorem timer1Count : Acts hooks permits m (timer1Count hooks n) := by
  simp only [Emu80535.timer1Count]
  -- The branches of the modes and of the wraps, in the order of the source.
  refine ite (ite (ite ?_ ?_) ?_) (ite (ite (ite ?_ ?_) ?_) (ite (ite (ite ?_ ?_) ?_) acts))
  · exact ((acts.incSfrLow5 rfl).incSfr rfl).raiseTf1
  · exact (acts.incSfrLow5 rfl).incSfr rfl
  · exact acts.incSfrLow5 rfl
  · exact ((acts.incSfr rfl).incSfr rfl).raiseTf1
  · exact (acts.incSfr rfl).incSfr rfl
  · exact acts.incSfr rfl
  · exact (acts.incSfr rfl).setSfr _ rfl
  · exact (((acts.incSfr rfl).setSfr _ rfl).raiseTcon _).timerOverflowEmit _
  · exact acts.incSfr rfl

/-- A change of the classic state is a sequence of acts. -/
theorem mapClassic (f : Cpu → ClassicState) : Acts hooks permits m (n.mapClassic f) :=
  acts.mapCpu ⟨rfl, rfl, rfl, rfl, rfl, rfl, rfl⟩

/-- The serial shortcut belongs to the classic variants. -/
theorem serialTx (classic : n.cpu.variant ≠ .sab80535) : Acts hooks permits m (serialTx n) := by
  simp only [Emu80535.serialTx, serialSent]
  have shifted : ∀ left, Acts hooks permits m
      ((n.mapClassic fun c => { c.classic with serialOutRemainingBits := left }).setSfr Reg.p3
        (n.cpu.serialP3 left)) := fun left => (acts.mapClassic _).setSfr _ rfl
  refine ite acts (ite (mapClassic ?_ _) (shifted _))
  exact ((shifted _).mapClassic _).act (.foreign _ _ classic rfl rfl)

/-- The serial shortcut of the classic variants is a sequence of acts. -/
theorem classicSerial : Acts hooks permits m (classicSerial n) := by
  simp only [Emu80535.classicSerial]
  split
  · rename_i classic
    refine (acts.serialTx classic.1).act (.foreign _ _ ?_ rfl rfl)
    rw [serialTx_variant]
    exact classic.1
  · exact acts

/-- A cycle of Timers 0 and 1 is a sequence of acts. -/
theorem timerTick : Acts hooks permits m (timerTick hooks n) := by
  simp only [Emu80535.timerTick, timer1Tick]
  refine ite ?_ (ite (classicSerial (timer1Count ?_)) ?_)
  all_goals exact acts.timer0SplitTick.timer0Tick

/-- A cycle of Timer 2 is a sequence of acts. -/
theorem timer2Tick : Acts hooks permits m (timer2Tick hooks n) := by
  simp only [Emu80535.timer2Tick]
  refine ite (ite (ite ?_ (irqSync ?_)) ?_) acts
  · exact (((acts.setSfr _ rfl).setSfr _ rfl).raise _ _ _).timerOverflowEmit _
  · exact (((acts.setSfr _ rfl).setSfr _ rfl).raise _ _ _).timerOverflowEmit _
  · exact (acts.setSfr _ rfl).setSfr _ rfl

/-! ### Machine cycles -/

/-- Driving pins anew is a sequence of acts. -/
theorem redrive (port : SabPort) (mask levels : Byte) :
    Acts hooks permits m (redrive hooks port mask levels n) := by
  refine samplePort ?_ port
  exact acts.mapCpu ⟨rfl, rfl, rfl, rfl, rfl, rfl, rfl⟩

/-- Driving a port is a sequence of acts. -/
theorem portDrive (index : SfrIndex) (mask levels : Byte) :
    Acts hooks permits m (portDrive hooks index mask levels n).2 := by
  simp only [Emu80535.portDrive]
  split
  · exact acts
  · exact acts.redrive _ _ _

/-- Releasing a port is a sequence of acts. -/
theorem portRelease (index : SfrIndex) (mask : Byte) :
    Acts hooks permits m (portRelease hooks index mask n).2 := by
  simp only [Emu80535.portRelease]
  split
  · exact acts
  · exact acts.redrive _ _ _

/-- Driving an external input is a sequence of acts. -/
theorem externalDrive (source : Nat) (level : Bool) :
    Acts hooks permits m (externalDrive hooks source level n).2 := by
  simp only [Emu80535.externalDrive]
  split
  · exact acts
  · exact acts.portDrive _ _ _

/-- Releasing an external input is a sequence of acts. -/
theorem externalRelease (source : Nat) :
    Acts hooks permits m (externalRelease hooks source n).2 := by
  simp only [Emu80535.externalRelease]
  split
  · exact acts
  · exact acts.portRelease _ _

/-- Applying a scheduled event is a sequence of acts. -/
theorem applyEvent (event : ScheduleEvent) :
    Acts hooks permits m (applyEvent hooks event n).2 := by
  simp only [Emu80535.applyEvent]
  exact ite_snd (acts.externalDrive _ _) (acts.externalRelease _)

/-- Scheduling an event is a sequence of acts. -/
theorem schedule (event : ScheduleEvent) : Acts hooks permits m (schedule hooks event n).2 := by
  simp only [Emu80535.schedule]
  refine ite_snd acts (ite_snd (acts.applyEvent event) (ite_snd acts (ite_snd acts ?_)))
  exact acts.apart _ ⟨rfl, rfl, rfl, rfl, rfl, rfl, rfl⟩

/-- The application loop, by induction on the number of queued entries. -/
theorem applyDue (fuel : Nat) : Acts hooks permits m (applyDue hooks fuel n) := by
  induction fuel generalizing n with
  | zero => exact acts
  | succ fuel ih =>
    simp only [Emu80535.applyDue]
    refine ite (ite acts (ih (applyEvent ?_ _))) acts
    exact acts.mapCpu ⟨rfl, rfl, rfl, rfl, rfl, rfl, rfl⟩

/-- Completing a machine cycle is a sequence of acts. -/
theorem completeMachineCycle : Acts hooks permits m (completeMachineCycle hooks n) := by
  simp only [Emu80535.completeMachineCycle, applyScheduled]
  have counted : Acts hooks permits m (n.mapCpu fun c =>
      { c with machineCycleCount := c.machineCycleCount + 1 }) :=
    acts.mapCpu ⟨rfl, rfl, rfl, rfl, rfl, rfl, rfl⟩
  have due := fun fuel => counted.applyDue fuel
  refine maintainLevelRequests (ite ?_ (due _))
  exact (due _).mapCpu ⟨rfl, rfl, rfl, rfl, rfl, rfl, rfl⟩

/-- A machine cycle is a sequence of acts. -/
theorem advanceMachineCycle (stamp : ∀ cycle, permits (.fact (.cycleBegin cycle))) :
    Acts hooks permits m (advanceMachineCycle hooks n) := by
  have begun : Acts hooks permits m
      (n.raw hooks (.cycleBegin (n.cpu.machineCycleCount + 1))) := acts.raw (stamp _)
  -- The timers and the converter act in the order of the source, cut short by an abort.
  have peripherals : Acts hooks permits m (advancePeripherals hooks n) := by
    simp only [advancePeripherals]
    exact ite begun.timerTick
      (ite begun.timerTick.timer2Tick begun.timerTick.timer2Tick.adcTick)
  simp only [Emu80535.advanceMachineCycle]
  exact ite acts (ite peripherals peripherals.completeMachineCycle)

/-! ### Interrupts -/

/-- Raising an exception is a sequence of acts. -/
theorem raiseException (code : ExceptionCode) :
    Acts hooks permits m (n.raiseException hooks code) := by
  have raised : Acts hooks permits m
      (n.mapCpu fun c => { c with exceptionRaised := true, lastException := some code }) :=
    acts.mapCpu ⟨rfl, rfl, rfl, rfl, rfl, rfl, rfl⟩
  exact raised.act (.except code)

/-- Raising an exception under a condition is a sequence of acts. -/
theorem raiseIf (condition : Bool) (code : ExceptionCode) :
    Acts hooks permits m (n.raiseIf hooks condition code) := by
  simp only [Machine.raiseIf]
  exact ite (acts.raiseException code) acts

/-- A return from interrupt releases the innermost entry, where that is permitted. -/
theorem sabIrqReti (originalSp : Byte) (leave : permits .leave) :
    Acts hooks permits m (sabIrqReti hooks originalSp n) := by
  -- Popping the entry is the one act that leaves a service.
  have released : ∀ {k : Machine ω}, k.cpu.service.depth ≠ 0 → Acts hooks permits m k →
      Acts hooks permits m (irqRelease hooks k) := by
    intro k nested before
    have popped : (k.mapCpu fun c => { c with service := { c.service with
        depth := k.cpu.service.depth - 1
        inService := c.service.inService &&&
          ~~~(1#16 <<< k.cpu.service.sourceStack (k.cpu.service.depth - 1)) } }) =
        leaveService k := by
      show _ = Machine.mk { k.cpu with service := k.cpu.service.pop } k.host k.stores
      rw [IrqService.pop, if_neg nested]
      rfl
    simp only [irqRelease, popped]
    exact ((before.act (.leave leave)).irqSync).emitRecord _
  -- The three exceptions are raised on the way and leave the stack of services alone.
  have depth : ∀ condition code (k : Machine ω),
      (k.raiseIf hooks condition code).cpu.service = k.cpu.service := by
    intro condition code k
    simp only [Machine.raiseIf]
    split <;> rfl
  simp only [Emu80535.sabIrqReti]
  split
  · split
    · rename_i nested
      -- Any of them may abort the core; what follows is done only when none did.
      refine ite (acts.raiseIf _ _) (ite ((acts.raiseIf _ _).raiseIf _ _) (ite ?_ ?_))
      · exact ((acts.raiseIf _ _).raiseIf _ _).raiseIf _ _
      · refine armInhibit (released ?_ (((acts.raiseIf _ _).raiseIf _ _).raiseIf _ _))
        rw [depth, depth, depth]
        exact nested
    · exact acts.armInhibit
  · exact acts

/-! ### Opcode bodies -/

/-- An action of an opcode body that is permitted. -/
theorem effect (acting : hooks.Acting permits) (e : Effect)
    (told : ∀ f, e = .fact f → permits (.fact f)) (bracket : ∀ f, f.Brackets → permits (.fact f))
    (leave : ∀ originalSp, e = .irqReti originalSp → permits .leave) :
    Acts hooks permits m (e.apply hooks n) := by
  -- Plain data is apart from what acts; the rest goes through the functions above.
  cases e with
  | setLower _ _ | setUpper _ _ | setPc _ | setExt _ _ | setInterruptActive _ =>
    exact acts.apart _ ⟨rfl, rfl, rfl, rfl, rfl, rfl, rfl⟩
  | setReg reg _ =>
    refine acts.setSfr _ ?_
    cases reg <;> rfl
  | sfrWrite index value =>
    exact acts.sfrWrite acting bracket index value
  | raise code => exact acts.raiseException code
  | irqReti originalSp => exact acts.sabIrqReti originalSp (leave _ rfl)
  | emit record => exact acts.emitRecord record
  | trace type address value => exact acts.traceEmit type address value
  | fact f => exact acts.raw (told f rfl)

/-- A body acts as its actions and the facts it reports permit, by induction on its tree. -/
theorem run (acting : hooks.Acting permits) {α : Type} {p : Op α}
    (told : p.Tells fun f => permits (.fact f)) (bracket : ∀ f, f.Brackets → permits (.fact f))
    (leave : permits .leave) (external : permits .external) :
    Acts hooks permits m (p.run hooks n).2 := by
  -- By induction on the tree of the body, with the facts its remainder may tell.
  induction p generalizing n with
  | ret value => exact acts
  | look next ih => exact ih n.cpu acts (told n.cpu)
  | act e next ih =>
    exact ih (acts.effect acting e told.1 bracket fun _ _ => leave) told.2
  | aborted next ih => exact ih _ acts (told _)
  | ask f next ih => exact ih _ (acts.raw told.1) (told.2 _)
  | sfrRead index next ih => exact ih _ (acts.sfrRead index) (told _)
  | sfrRmwRead index next ih => exact ih _ (acts.sfrRmwRead index) (told _)
  | busRead address next ih =>
    simp only [Op.run]
    split
    · rename_i callback installed
      exact ih _ (acts.act (.xread address installed external)) (told _)
    · exact ih _ acts (told _)
  | busWrite address value next ih =>
    simp only [Op.run]
    split
    · rename_i callback installed
      exact ih _ (acts.act (.xwrite address value installed external)) (told _)
    · exact ih _ acts (told _)

/-! ### Interrupt entry -/

/-- A push of a byte, whether or not it succeeds, reports nothing. -/
theorem pushToStack (value : Byte) : Acts hooks permits m ((pushToStack value).run hooks n).2 := by
  have stored : ∀ {k : Machine ω} (e : Effect), StackEffect e → Acts hooks permits m k →
      Acts hooks permits m (e.apply hooks k) := by
    intro k e stack before
    cases e with
    | setLower _ _ | setUpper _ _ => exact before.apart _ ⟨rfl, rfl, rfl, rfl, rfl, rfl, rfl⟩
    | setReg reg _ => exact before.setSfr _ (by rw [show reg = .sp from stack]; rfl)
    | raise code => exact before.raiseException code
    | _ => exact absurd stack (by simp [StackEffect])
  have moved := stored (.setReg .sp (n.cpu.sfr Reg.sp + 1#8)) rfl acts
  simp only [Emu80535.pushToStack, Op.bind_eq, Op.run_cpu_bind, Op.run_perform_bind, Op.run_ite,
    run_writeMemIndir_bind, Op.pure_eq, Op.run_ret]
  -- The byte reaches upper or lower internal RAM, where there is any behind the pointer.
  have byte : Acts hooks permits m
      (if 0x7F#8 < n.cpu.sfr Reg.sp + 1#8 then
        (Effect.setUpper ((n.cpu.sfr Reg.sp + 1#8).setWidth 7) value).apply hooks
          ((Effect.setReg .sp (n.cpu.sfr Reg.sp + 1#8)).apply hooks n)
      else
        (Effect.setLower ((n.cpu.sfr Reg.sp + 1#8).setWidth 7) value).apply hooks
          ((Effect.setReg .sp (n.cpu.sfr Reg.sp + 1#8)).apply hooks n)) :=
    ite (stored _ trivial moved) (stored _ trivial moved)
  refine ite_snd (ite_snd ?_ byte) ?_
  · exact stored (.raise .stack) rfl byte
  · exact stored (.raise .stack) rfl moved

/-- Committing an interrupt entry is a sequence of acts. -/
theorem acceptInterrupt (source : IrqSource) (priority : Nat) (returnPc : Word) (spBefore : Byte)
    (pending : Word) (enter : permits .enter) :
    Acts hooks permits m
      (acceptInterrupt hooks source priority returnPc spBefore pending n) := by
  simp only [Emu80535.acceptInterrupt]
  refine emitRecord (irqSync (act ?_ (.acknowledge source enter))) _
  have awake : Acts hooks permits m
      (n.setSfr Reg.pcon (n.cpu.sfr Reg.pcon &&& ~~~Pcon.idle)) := acts.setSfr _ rfl
  exact awake.act (.enter source priority returnPc spBefore enter)

/-- Attempting an interrupt entry is a sequence of acts. -/
theorem enterInterrupt (source : IrqSource) (enter : permits .enter)
    (asked : ∀ cycle, permits (.fact (.contextPreflight cycle))) :
    Acts hooks permits m (enterInterrupt hooks source n).2 := by
  simp only [Emu80535.enterInterrupt]
  have begun : Acts hooks permits m
      (n.raw hooks (.contextPreflight n.cpu.machineCycleCount)) := acts.raw (asked _)
  -- Refused at once, after the first byte, after the second, or entered.
  refine ite_snd begun (ite_snd (ite_snd ?_ ?_) ?_)
  · exact ((begun.pushToStack _).pushToStack _).acceptInterrupt _ _ _ _ _ enter
  · exact (begun.pushToStack _).pushToStack _
  · exact begun.pushToStack _

/-- Arbitration and entry on the Siemens CPU. -/
theorem handleInterrupts (sab : n.cpu.variant = .sab80535) (enter : permits .enter)
    (asked : ∀ cycle, permits (.fact (.contextPreflight cycle))) :
    Acts hooks permits m (handleInterrupts hooks n).2 := by
  simp only [Emu80535.handleInterrupts, if_pos sab, handleSabInterrupts]
  refine ite_snd acts.irqSync (ite_snd acts.irqSync ?_)
  split
  · exact acts.irqSync
  · exact ite_snd acts.irqSync (acts.irqSync.enterInterrupt _ enter asked)

/-! ### Instructions and host calls -/

/-- Setting the parity flag is a sequence of acts. -/
theorem updateParity : Acts hooks permits m (updateParity n) := acts.setSfr _ rfl

/-- Counting an instruction is a sequence of acts. -/
theorem countInstruction : Acts hooks permits m (countInstruction n) :=
  acts.mapCpu ⟨rfl, rfl, rfl, rfl, rfl, rfl, rfl⟩

/-- Reporting the start of an instruction is a sequence of acts. -/
theorem beginInstruction (report : ∀ cycle pc opcode, permits (.fact (.begin cycle pc opcode))) :
    Acts hooks permits m (beginInstruction hooks n) := by
  simp only [Emu80535.beginInstruction]
  have marked : Acts hooks permits m
      (n.mapCpu fun c => { c with tracePc := c.pc, inInstruction := true }) :=
    acts.mapCpu ⟨rfl, rfl, rfl, rfl, rfl, rfl, rfl⟩
  exact (marked.raw (report _ _ _)).traceEmit _ _ _

/-- An opcode body with its closing report, where the facts of the core are permitted. -/
theorem runInstruction (acting : hooks.Acting permits)
    (plain : ∀ f, f.plain = true → permits (.fact f)) (leave : permits .leave)
    (external : permits .external) (opcode : Byte) :
    Acts hooks permits m (runInstruction hooks opcode n) := by
  have told : (opTable opcode).Tells fun f => permits (.fact f) :=
    (opTable_tells opcode).mono fun f bodily => plain f (RawFact.plain_of_bodily bodily)
  have body := acts.run acting told (fun f brackets => plain f brackets.plain) leave external
  -- The body, and then the report that closes the opcode.
  simp only [Emu80535.runInstruction]
  refine raw (body.mapCpu ?_) (plain _ ?_)
  · exact ⟨rfl, rfl, rfl, rfl, rfl, rfl, rfl⟩
  · rfl

/-- The instruction block. -/
theorem executeInstruction (acting : hooks.Acting permits)
    (plain : ∀ f, f.plain = true → permits (.fact f)) (leave : permits .leave)
    (external : permits .external) : Acts hooks permits m (executeInstruction hooks n).2 := by
  have begun := acts.beginInstruction fun _ _ _ => plain _ rfl
  have ended := begun.runInstruction acting plain leave external n.cpu.opcode
  simp only [Emu80535.executeInstruction]
  refine ite_snd (begun.apart _ ?_) (ite_snd ended ended.countInstruction)
  exact ⟨rfl, rfl, rfl, rfl, rfl, rfl, rfl⟩

/-- What a tick does after handling interrupts is a sequence of acts. -/
theorem tickBody (acting : hooks.Acting permits) (plain : ∀ f, f.plain = true → permits (.fact f))
    (leave : permits .leave) (external : permits .external) :
    Acts hooks permits m (tickBody hooks n).2 := by
  have stamp : ∀ cycle, permits (.fact (.cycleBegin cycle)) := fun _ => plain _ rfl
  have executed := acts.executeInstruction acting plain leave external
  simp only [Emu80535.tickBody]
  refine ite_snd (ite_snd (acts.updateParity.advanceMachineCycle stamp) (ite_snd ?_ executed))
    (acts.advanceMachineCycle stamp)
  exact executed.updateParity.advanceMachineCycle stamp

/-- A tick of the Siemens CPU. -/
theorem tick (acting : hooks.Acting permits) (sab : n.cpu.variant = .sab80535)
    (plain : ∀ f, f.plain = true → permits (.fact f)) (enter : permits .enter)
    (leave : permits .leave) (external : permits .external) :
    Acts hooks permits m (tick hooks n).2 := by
  have stamp : ∀ cycle, permits (.fact (.cycleBegin cycle)) := fun _ => plain _ rfl
  -- The early returns of a tick, and then its body.
  have handled := acts.handleInterrupts sab enter fun _ => plain _ rfl
  simp only [Emu80535.tick]
  refine ite_snd acts (ite_snd ?_ (ite_snd acts (ite_snd (handled.advanceMachineCycle stamp)
    (ite_snd handled (handled.tickBody acting plain leave external)))))
  exact (acts.mapCpu ⟨rfl, rfl, rfl, rfl, rfl, rfl, rfl⟩).advanceMachineCycle stamp

/-- Setting a request from outside is a sequence of acts. -/
theorem setPending (source : Nat) (pending : Bool) :
    Acts hooks permits m (setPending hooks source pending n).2 := by
  simp only [Emu80535.setPending]
  split
  · exact acts
  · refine ite_snd ?_ acts
    exact (ite (acts.raise _ _ _) (acts.act (.cancel _))).irqSync.emitRecord _

/-- Setting a converter input is a sequence of acts. -/
theorem adcSetInput (channel : Nat) (input : Word) :
    Acts hooks permits m (adcSetInput channel input n).2 := by
  simp only [Emu80535.adcSetInput]
  exact ite_snd acts (acts.apart _ ⟨rfl, rfl, rfl, rfl, rfl, rfl, rfl⟩)

/-- A host call that is no reset. -/
theorem hostCall (acting : hooks.Acting permits) (bracket : ∀ f, f.Brackets → permits (.fact f))
    (call : HostCall) (other : ∀ wipe rand, call ≠ .reset wipe rand) :
    Acts hooks permits m (call.run hooks n).2 := by
  -- One function of the device behind each call, except for what is set at once.
  cases call with
  | reset wipe rand => exact absurd rfl (other wipe rand)
  | setResetSeed _ | setBreakpoint _ _ | loadCode _ =>
    exact acts.apart _ ⟨rfl, rfl, rfl, rfl, rfl, rfl, rfl⟩
  | setPending source pending => exact acts.setPending source pending
  | portDrive _ _ _ => exact ite_snd acts (acts.portDrive _ _ _)
  | portRelease _ _ => exact ite_snd acts (acts.portRelease _ _)
  | externalDrive source level => exact acts.externalDrive source level
  | externalRelease source => exact acts.externalRelease source
  | schedule event => exact acts.schedule event
  | clearSchedule => exact ite (acts.apart _ ⟨rfl, rfl, rfl, rfl, rfl, rfl, rfl⟩) acts
  | injectRxFrame data ninth => exact acts.act (.inject data ninth)
  | adcSetInput channel input => exact acts.adcSetInput channel input
  | sfrRead _ => exact ite_snd acts (acts.sfrRead _)
  | sfrWrite _ _ => exact ite_snd acts (acts.sfrWrite acting bracket _ _)

end Rules

end Acts

end Emu80535
