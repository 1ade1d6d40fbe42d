import Emu80535.Proofs.Sampling

/-! The sampled copy of the pins agrees with them over whole runs. -/

namespace Emu80535

variable {ω : Type} {hooks : Hooks ω}

open Machine

/-! ### Coherence -/

/-- The sampled copy is the pins, and what a level asserted is at a low pin. -/
structure Cpu.Coherent (c : Cpu) : Prop where
  sampled : ∀ source, has c.pins.sampledLevels source.sampleBit = c.pinLevel source
  asserted : ∀ source : ExternalSource, source.port = .p3 →
    has c.pins.levelAsserted source.sampleBit = true → c.pinLevel source = false

section Moves

variable {a b : Cpu}

/-- A move asserts at low pins only. -/
theorem Move.asserted_low (move : Move a b) (source : ExternalSource)
    (low : has a.pins.levelAsserted source.sampleBit = true → a.pinLevel source = false)
    (set : has b.pins.levelAsserted source.sampleBit = true) : a.pinLevel source = false := by
  -- Only three moves touch the bookkeeping, and only one of them sets a bit.
  cases move with
  | uart | adc | overflow | caches | count | raise | ninth | shortcut => exact low set
  | assert other level isLow =>
    by_cases own : source = other
    · rw [own]
      exact isLow
    · refine low ?_
      rwa [← has_or_of_disjoint (ExternalSource.sampleBit_apart (Ne.symm own))]
  | withdraw other level high asserted => exact low (has_of_and set)
  | relax other edge => exact low (has_of_and set)

/-- A move keeps the copy coherent. -/
theorem Move.coherent (move : Move a b) (sab : a.variant = .sab80535) (coherent : a.Coherent) :
    b.Coherent where
  sampled := fun source => by
    rw [move.sampled, coherent.sampled, Stable.pinLevel_eq move.stable sab]
  asserted := fun source wired set => by
    rw [Stable.pinLevel_eq move.stable sab]
    exact move.asserted_low source (coherent.asserted source wired) set

/-- Peripherals keep the copy coherent. -/
theorem Moves.coherent (moves : Moves a b) (sab : a.variant = .sab80535)
    (coherent : a.Coherent) : b.Coherent := by
  induction moves with
  | refl => exact coherent
  | tail first last ih => exact last.coherent ((Moves.variant first).trans sab) ih

end Moves

section Ports

variable {m : Machine ω} {port : SabPort}

/-- Where no pin of the port differs from its sample, sampling does nothing. -/
theorem samplePort_unchanged
    (same : ∀ source : ExternalSource, source.port = port →
      has m.cpu.pins.sampledLevels source.sampleBit = m.cpu.pinLevel source) :
    samplePort hooks port m = m := by
  -- An input whose pin is as it was sampled is not observed.
  have one : ∀ source, sampleSource hooks port (m.cpu.getPins port) source m = m := by
    intro source
    simp only [sampleSource]
    split
    · rename_i here
      have level := same source here
      rw [Cpu.pinLevel, here] at level
      rw [if_pos level]
    · rfl
  simp only [samplePort]
  split
  · simp only [ExternalSource.all, List.foldl_cons, List.foldl_nil, one]
  · rfl

/-- Sampling a port makes the copy coherent when only pins of that port have moved. -/
theorem samplePort_coherent (sab : m.cpu.variant = .sab80535)
    (others : ∀ source : ExternalSource, source.port ≠ port →
      has m.cpu.pins.sampledLevels source.sampleBit = m.cpu.pinLevel source)
    (asserted : ∀ source : ExternalSource, source.port = .p3 →
      has m.cpu.pins.levelAsserted source.sampleBit = true →
      has m.cpu.pins.sampledLevels source.sampleBit = false) :
    (samplePort hooks port m).cpu.Coherent := by
  have pins := fun source => Stable.pinLevel_eq (samplePort_stable hooks m port) sab source
  have sampled : ∀ source : ExternalSource,
      has (samplePort hooks port m).cpu.pins.sampledLevels source.sampleBit =
        (samplePort hooks port m).cpu.pinLevel source := by
    intro source
    rw [samplePort_sampled sab, pins]
    split
    · rfl
    · rename_i elsewhere
      exact others source elsewhere
  refine ⟨sampled, fun source wired set => ?_⟩
  -- Either nothing was seen to change, or maintenance has just run.
  rw [samplePort_eq sab] at sampled set ⊢
  rcases @scan_settled ω hooks port (m.cpu.getPins port) ExternalSource.all m sab with same | settled
  · rw [same] at sampled set ⊢
    rw [← sampled]
    exact asserted source wired set
  · exact ((settled source wired).asserted set).2

/-- The machine with one port driven differently, before its pins are sampled. -/
theorem redrive_coherent (sab : m.cpu.variant = .sab80535) (coherent : m.cpu.Coherent)
    (mask levels : Byte) : (redrive hooks port mask levels m).cpu.Coherent := by
  refine samplePort_coherent (by exact sab) (fun source elsewhere => ?_) (fun source wired set => ?_)
  · -- The drive of another port does not move this pin.
    show has m.cpu.pins.sampledLevels source.sampleBit = _
    rw [coherent.sampled]
    simp only [Cpu.pinLevel, Cpu.getPins, mapCpu_cpu, Function.update_of_ne elsewhere]
  · show has m.cpu.pins.sampledLevels source.sampleBit = false
    rw [coherent.sampled]
    exact coherent.asserted source wired set

end Ports

/-! ### Machine cycles -/

section Cycles

variable {m : Machine ω}

/-- Driving a port keeps the copy coherent. -/
theorem portDrive_coherent (sab : m.cpu.variant = .sab80535) (coherent : m.cpu.Coherent)
    (index : SfrIndex) (mask levels : Byte) :
    (portDrive hooks index mask levels m).2.cpu.Coherent := by
  simp only [portDrive]
  split
  · exact coherent
  · exact redrive_coherent sab coherent _ _

/-- So does releasing one. -/
theorem portRelease_coherent (sab : m.cpu.variant = .sab80535) (coherent : m.cpu.Coherent)
    (index : SfrIndex) (mask : Byte) : (portRelease hooks index mask m).2.cpu.Coherent := by
  simp only [portRelease]
  split
  · exact coherent
  · exact redrive_coherent sab coherent _ _

/-- So does driving a line. -/
theorem externalDrive_coherent (sab : m.cpu.variant = .sab80535) (coherent : m.cpu.Coherent)
    (source : Nat) (level : Bool) : (externalDrive hooks source level m).2.cpu.Coherent := by
  simp only [externalDrive]
  split
  · exact coherent
  · exact portDrive_coherent sab coherent _ _ _

/-- So does releasing one. -/
theorem externalRelease_coherent (sab : m.cpu.variant = .sab80535) (coherent : m.cpu.Coherent)
    (source : Nat) : (externalRelease hooks source m).2.cpu.Coherent := by
  simp only [externalRelease]
  split
  · exact coherent
  · exact portRelease_coherent sab coherent _ _

/-- So does a scheduled event. -/
theorem applyEvent_coherent (sab : m.cpu.variant = .sab80535) (coherent : m.cpu.Coherent)
    (event : ScheduleEvent) : (applyEvent hooks event m).2.cpu.Coherent := by
  simp only [applyEvent]
  split
  · exact externalDrive_coherent sab coherent _ _
  · exact externalRelease_coherent sab coherent _

/-- So does the call that schedules one. -/
theorem schedule_coherent (sab : m.cpu.variant = .sab80535) (coherent : m.cpu.Coherent)
    (event : ScheduleEvent) : (schedule hooks event m).2.cpu.Coherent := by
  -- Refused, applied at once, or put into the queue; only the second touches a pin.
  simp only [schedule]
  split
  · exact coherent
  · split
    · exact applyEvent_coherent sab coherent event
    · split
      · exact coherent
      · split
        · exact coherent
        · exact ⟨coherent.sampled, coherent.asserted⟩

/-- A scheduled event keeps the variant. -/
theorem applyEvent_sab (sab : m.cpu.variant = .sab80535) (event : ScheduleEvent) :
    (applyEvent hooks event m).2.cpu.variant = .sab80535 :=
  (congrArg (fun s : Stable => s.fixed.variant) (applyEvent_steady hooks m event)).trans sab

/-- The queue is applied one event after another. -/
theorem applyDue_coherent (fuel : Nat) (m : Machine ω) (sab : m.cpu.variant = .sab80535)
    (coherent : m.cpu.Coherent) : (applyDue hooks fuel m).cpu.Coherent := by
  -- Induction on the fuel; the event is taken off the ring before it is applied.
  induction fuel generalizing m with
  | zero => exact coherent
  | succ fuel ih =>
    simp only [applyDue]
    split
    · split
      · exact coherent
      · refine ih _ (applyEvent_sab (by exact sab) _) (applyEvent_coherent (by exact sab) ?_ _)
        exact ⟨coherent.sampled, coherent.asserted⟩
    · exact coherent

/-- What is due keeps the copy coherent. -/
theorem applyScheduled_coherent (sab : m.cpu.variant = .sab80535) (coherent : m.cpu.Coherent) :
    (applyScheduled hooks m).cpu.Coherent := by
  have applied := @applyDue_coherent ω hooks m.cpu.schedule.count m sab coherent
  simp only [applyScheduled]
  split
  · exact ⟨applied.sampled, applied.asserted⟩
  · exact applied

/-- A machine cycle keeps the copy coherent, aborted or not. -/
theorem advanceMachineCycle_coherent (sab : m.cpu.variant = .sab80535)
    (coherent : m.cpu.Coherent) : (advanceMachineCycle hooks m).cpu.Coherent := by
  -- The peripherals only move.
  have moved : Moves m.cpu (advancePeripherals hooks m).cpu := (Moves.refl m.cpu).advancePeripherals
  have peripherals := moved.coherent sab coherent
  have variant : (advancePeripherals hooks m).cpu.variant = .sab80535 := moved.variant.trans sab
  simp only [advanceMachineCycle]
  split
  · exact coherent
  · -- An abort ends the cycle behind the peripherals.
    split
    · exact peripherals
    · simp only [completeMachineCycle]
      generalize advancePeripherals hooks m = n at peripherals variant
      -- Counting the cycle is not seen by the pins.
      have clocked : (n.mapCpu fun c =>
          { c with machineCycleCount := c.machineCycleCount + 1 }).cpu.Coherent :=
        ⟨peripherals.sampled, peripherals.asserted⟩
      have applied := @applyScheduled_coherent ω hooks
        (n.mapCpu fun c => { c with machineCycleCount := c.machineCycleCount + 1 }) variant clocked
      -- The levels are looked at last, and looking is a move.
      refine (Moves.refl _).maintainLevelRequests.coherent ?_ applied
      exact (congrArg (fun s : Stable => s.fixed.variant)
        (applyScheduled_steady hooks _)).trans variant

end Cycles

/-! ### Register writes -/

section Writes

variable {m : Machine ω}

/-- CPU objects that differ only in private state of the serial ports and the converter. -/
def Aside (a b : Cpu) : Prop :=
  ∃ uart classic adc, b = { a with uart := uart, classic := classic, adc := adc }

namespace Aside

variable {a b c : Cpu}

/-- A CPU is aside of itself. -/
theorem refl (a : Cpu) : Aside a a := ⟨a.uart, a.classic, a.adc, rfl⟩

/-- What is aside of what is aside is aside. -/
theorem trans (first : Aside a b) (second : Aside b c) : Aside a c := by
  obtain ⟨_, _, _, rfl⟩ := first
  obtain ⟨uart, classic, adc, rfl⟩ := second
  exact ⟨uart, classic, adc, rfl⟩

/-- Both can store the same value. -/
theorem store (aside : Aside a b) (index : SfrIndex) (value : Byte) :
    Aside (a.store index value) (b.store index value) := by
  obtain ⟨uart, classic, adc, rfl⟩ := aside
  exact ⟨uart, classic, adc, rfl⟩

/-- The pins are the same. -/
theorem pins (aside : Aside a b) : b.pins = a.pins := by
  obtain ⟨uart, classic, adc, rfl⟩ := aside
  rfl

/-- So are the registers. -/
theorem sfr (aside : Aside a b) : b.sfr = a.sfr := by
  obtain ⟨uart, classic, adc, rfl⟩ := aside
  rfl

/-- So is the variant. -/
theorem variant (aside : Aside a b) : b.variant = a.variant := by
  obtain ⟨uart, classic, adc, rfl⟩ := aside
  rfl

/-- So are the levels of the pins. -/
theorem pinLevel (aside : Aside a b) (source : ExternalSource) :
    b.pinLevel source = a.pinLevel source := by
  simp only [Cpu.pinLevel, Cpu.getPins, aside.pins, aside.sfr]

/-- So are the flags. -/
theorem flag (aside : Aside a b) (f : RequestFlag) : b.flag f = a.flag f := by
  simp only [Cpu.flag, aside.sfr]

/-- So is the mode of an input. -/
theorem levelMode (aside : Aside a b) (source : ExternalSource) :
    b.levelMode source = a.levelMode source := by
  simp only [Cpu.levelMode, aside.sfr]

/-- So the copy stays coherent. -/
theorem coherent (aside : Aside a b) (before : a.Coherent) : b.Coherent := by
  refine ⟨fun source => ?_, fun source wired set => ?_⟩
  · rw [aside.pins, aside.pinLevel]
    exact before.sampled source
  · rw [aside.pinLevel]
    rw [aside.pins] at set
    exact before.asserted source wired set

end Aside

/-- A quiet callback acts aside. -/
theorem sfrCallback_aside (quiet : hooks.Quiet) (index : SfrIndex) (m : Machine ω) :
    Aside m.cpu (m.sfrCallback hooks index).cpu := by
  simp only [sfrCallback]
  split
  · rename_i callback installed
    obtain ⟨uart, classic, same⟩ := quiet index callback installed m
    exact ⟨uart, classic, m.cpu.adc, same⟩
  · exact Aside.refl _

/-- Entering a transaction only counts its depth. -/
theorem sfrWriteEnter_aside (m : Machine ω) : Aside m.cpu (sfrWriteEnter m).cpu := by
  simp only [sfrWriteEnter]
  split
  · exact ⟨_, _, _, rfl⟩
  · exact Aside.refl _

/-- Up to the point where it samples, a register write is one store. -/
theorem written_aside (quiet : hooks.Quiet) (index : SfrIndex) (value : Byte) (m : Machine ω) :
    Aside (m.cpu.store index (m.cpu.storedValue index value)) (written hooks index value m).cpu := by
  -- Entering is aside of the store.
  have entered := (sfrWriteEnter_aside m).store index (m.cpu.storedValue index value)
  have started : ∀ n : Machine ω, Aside n.cpu (adcRequestStart n).cpu := fun n => ⟨_, _, _, rfl⟩
  -- The store is told of the requests that it sets.
  have stored : Aside (m.cpu.store index (m.cpu.storedValue index value))
      ((sfrWriteEnter m).irqWrite hooks index (m.cpu.storedValue index value)
        (sfrWriteEnter m).cpu.machineCycleCount).cpu := by
    rw [irqWrite_cpu]
    exact entered
  simp only [written, sfrWriteBody]
  -- A conversion may be requested, and the callback keeps aside.
  refine Aside.trans ?_ (sfrCallback_aside quiet index _)
  split
  · exact stored.trans (started _)
  · exact stored

/-- The tail of a write only samples, as far as the pins and the request flags go. -/
theorem sfrWriteTail_view (index : SfrIndex) (value : Byte) (m : Machine ω) :
    (sfrWriteTail hooks index value m).cpu.pins = (sampleWritten hooks index m).cpu.pins ∧
      ∀ i, i ≠ Reg.adcon →
        (sfrWriteTail hooks index value m).cpu.sfr i = (sampleWritten hooks index m).cpu.sfr i := by
  -- The hold-off is armed beside pins and registers.
  have held : ∀ n : Machine ω, (holdOff index n).cpu.pins = n.cpu.pins ∧
      (holdOff index n).cpu.sfr = n.cpu.sfr := by
    intro n
    simp only [holdOff]
    split <;> exact ⟨rfl, rfl⟩
  -- Finishing may store the busy flag, in ADCON.
  have finished : ∀ n : Machine ω, (adcFinishSfrTransaction n).cpu.pins = n.cpu.pins ∧
      ∀ i, i ≠ Reg.adcon → (adcFinishSfrTransaction n).cpu.sfr i = n.cpu.sfr i := by
    intro n
    simp only [adcFinishSfrTransaction]
    split
    · split <;> exact ⟨rfl, fun i other => Function.update_of_ne other _ _⟩
    · exact ⟨rfl, fun _ _ => rfl⟩
  simp only [sfrWriteTail]
  refine ⟨?_, fun i other => ?_⟩
  · rw [(finished _).1, (held _).1, traceEmit_cpu]
  · rw [(finished _).2 i other, (held _).2, traceEmit_cpu]

/-- Coherence is a matter of the pins and of the two latches. -/
theorem Cpu.Coherent.transfer {a b : Cpu} (coherent : a.Coherent) (pins : b.pins = a.pins)
    (latch : ∀ port : SabPort, b.sfr port.reg = a.sfr port.reg) : b.Coherent := by
  -- The levels are read from the pins and the latches.
  have level : ∀ source, b.pinLevel source = a.pinLevel source := by
    intro source
    simp only [Cpu.pinLevel, Cpu.getPins, pins, latch]
  refine ⟨fun source => ?_, fun source wired set => ?_⟩
  · rw [pins, level]
    exact coherent.sampled source
  · rw [level]
    rw [pins] at set
    exact coherent.asserted source wired set

/-- Only the port registers are latches, and each is its own. -/
theorem portIndex_cases (c : Cpu) (sab : c.variant = .sab80535) (index : SfrIndex) :
    -- The four ports in turn, and what is none of them.
    (∃ port : SabPort, c.portIndex index = some port ∧ index = port.reg) ∨
      (c.portIndex index = none ∧ ∀ port : SabPort, port.reg ≠ index) := by
  simp only [Cpu.portIndex, sab, if_true, SabPort.ofReg?]
  split
  · rename_i here
    exact Or.inl ⟨.p1, rfl, here⟩
  · rename_i not1
    split
    · rename_i here
      exact Or.inl ⟨.p3, rfl, here⟩
    · rename_i not3
      split
      · rename_i here
        exact Or.inl ⟨.p4, rfl, here⟩
      · rename_i not4
        split
        · rename_i here
          exact Or.inl ⟨.p5, rfl, here⟩
        · rename_i not5
          refine Or.inr ⟨rfl, fun port same => ?_⟩
          cases port with
          | p1 => exact not1 same.symm
          | p3 => exact not3 same.symm
          | p4 => exact not4 same.symm
          | p5 => exact not5 same.symm

/-- Writing a latch moves pins of its own port only. -/
theorem store_latch_pinLevel (c : Cpu) {port : SabPort} (value : Byte) {source : ExternalSource}
    (elsewhere : source.port ≠ port) :
    (c.store port.reg value).pinLevel source = c.pinLevel source := by
  refine c.store_pinLevel value source fun same => elsewhere ?_
  revert same
  cases source <;> cases port <;> decide

/-- A serial buffer write does not touch the pins. -/
theorem sbufWrite_coherent (quiet : hooks.Quiet) (sab : m.cpu.variant = .sab80535)
    (coherent : m.cpu.Coherent) (value : Byte) : (sbufWrite hooks value m).cpu.Coherent := by
  -- Serial state, the mirror and the callback are all aside of the pins.
  have held : ∀ n : Machine ω, n.cpu.variant = .sab80535 → n.cpu.Coherent →
      (((uartSbufWrite hooks value n).setSfr Reg.sbuf value).sfrCallback hooks Reg.sbuf).cpu.Coherent
        := by
    intro n variant before
    refine (sfrCallback_aside quiet Reg.sbuf _).coherent ?_
    exact (((Moves.refl n.cpu).uartSbufWrite value).setSfr value rfl).coherent variant before
  have variant : ∀ n : Machine ω, n.cpu.variant = .sab80535 →
      (((uartSbufWrite hooks value n).setSfr Reg.sbuf value).sfrCallback hooks
        Reg.sbuf).cpu.variant = .sab80535 := by
    intro n start
    refine (sfrCallback_aside quiet Reg.sbuf _).variant.trans ?_
    exact (((Moves.refl n.cpu).uartSbufWrite value).setSfr value rfl).variant.trans start
  simp only [sbufWrite]
  split
  · rw [raw_cpu]
    exact coherent
  · split
    · rw [raw_cpu]
      exact held _ (by rw [raw_cpu]; exact sab) (by rw [raw_cpu]; exact coherent)
    · rw [raw_cpu]
      have rest := held (m.raw hooks
        (.accessBegin m.cpu.machineCycleCount (sfrAddress Reg.sbuf) false value))
        (by rw [raw_cpu]; exact sab) (by rw [raw_cpu]; exact coherent)
      have still := variant (m.raw hooks
        (.accessBegin m.cpu.machineCycleCount (sfrAddress Reg.sbuf) false value))
        (by rw [raw_cpu]; exact sab)
      refine Moves.coherent (Moves.adcFinishSfrTransaction ?_) still rest
      rw [traceEmit_cpu]
      exact (Moves.refl _).setSfr _ rfl

/-- A register write that is not aborted keeps the copy coherent. -/
theorem sfrWrite_coherent (quiet : hooks.Quiet) (sab : m.cpu.variant = .sab80535)
    (coherent : m.cpu.Coherent) (index : SfrIndex) (value : Byte)
    (kept : (sfrWrite hooks index value m).aborted hooks = false) :
    (sfrWrite hooks index value m).cpu.Coherent := by
  by_cases serial : index = Reg.sbuf
  · have entered := sfrWriteEnter_aside m
    have shape : sfrWrite hooks index value m =
        sbufWrite hooks (m.cpu.storedValue index value) (sfrWriteEnter m) :=
      if_pos ⟨entered.variant.trans sab, serial⟩
    rw [shape]
    exact sbufWrite_coherent quiet (entered.variant.trans sab) (entered.coherent coherent) _
  · rw [sfrWrite_unaborted serial value kept]
    have aside := written_aside quiet index value m
    have variant : (written hooks index value m).cpu.variant = .sab80535 :=
      aside.variant.trans sab
    obtain ⟨pins, sfr⟩ := @sfrWriteTail_view ω hooks index (m.cpu.storedValue index value)
      (written hooks index value m)
    refine Cpu.Coherent.transfer ?_ pins fun port => sfr _ (by cases port <;> decide)
    simp only [sampleWritten]
    rcases portIndex_cases _ variant index with ⟨port, found, here⟩ | ⟨none, elsewhere⟩
    · -- Of the written port the pins are sampled, and the others have not moved.
      rw [found]
      refine samplePort_coherent variant (fun source other => ?_) (fun source wired set => ?_)
      · rw [aside.pins, aside.pinLevel, here, store_latch_pinLevel _ _ other]
        exact coherent.sampled source
      · rw [aside.pins] at set ⊢
        show has m.cpu.pins.sampledLevels source.sampleBit = false
        rw [coherent.sampled]
        exact coherent.asserted source wired set
    · rw [none]
      refine aside.coherent (Cpu.Coherent.transfer coherent rfl fun port => ?_)
      exact Function.update_of_ne (elsewhere port) _ _

end Writes

/-! ### Whole runs -/

section Runs

variable {m : Machine ω}

/-- Raising an exception does not touch the pins. -/
theorem raiseIf_view (condition : Bool) (code : ExceptionCode) (m : Machine ω) :
    (m.raiseIf hooks condition code).cpu.pins = m.cpu.pins ∧
      (m.raiseIf hooks condition code).cpu.sfr = m.cpu.sfr ∧
      (m.raiseIf hooks condition code).cpu.variant = m.cpu.variant := by
  simp only [raiseIf]
  split <;> exact ⟨rfl, rfl, rfl⟩

/-- An exception moves neither pins nor latches. -/
theorem raiseIf_coherent (coherent : m.cpu.Coherent) (condition : Bool) (code : ExceptionCode) :
    (m.raiseIf hooks condition code).cpu.Coherent := by
  obtain ⟨pins, sfr, -⟩ := @raiseIf_view ω hooks condition code m
  exact coherent.transfer pins fun port => congrFun sfr _

/-- Nor does a return from interrupt. -/
theorem sabIrqReti_coherent (sab : m.cpu.variant = .sab80535) (coherent : m.cpu.Coherent)
    (originalSp : Byte) : (sabIrqReti hooks originalSp m).cpu.Coherent := by
  have release : ∀ n : Machine ω, n.cpu.variant = .sab80535 → n.cpu.Coherent →
      (armInhibit (irqRelease hooks n)).cpu.Coherent := by
    intro n variant before
    have synced : ∀ k : Machine ω, k.cpu.variant = .sab80535 → k.cpu.Coherent →
        (irqSync hooks k).cpu.Coherent :=
      fun k start start' => (Moves.refl k.cpu).irqSync.coherent start start'
    simp only [irqRelease]
    have kept := synced (n.mapCpu fun c =>
      { c with service := { c.service with
          depth := n.cpu.service.depth - 1
          inService := c.service.inService &&&
            ~~~(1#16 <<< n.cpu.service.sourceStack (n.cpu.service.depth - 1)) } }) variant
      ⟨before.sampled, before.asserted⟩
    exact ⟨kept.sampled, kept.asserted⟩
  -- Each of the three checks may end the operation.
  rw [sabIrqReti, if_pos sab]
  by_cases nested : m.cpu.service.depth ≠ 0
  · rw [if_pos nested]
    dsimp only
    have first := fun b => @raiseIf_coherent ω hooks m coherent b .iretAccMismatch
    have second := fun b b' => @raiseIf_coherent ω hooks _ (first b) b' .iretSpMismatch
    have third := fun b b' b'' => @raiseIf_coherent ω hooks _ (second b b') b'' .iretPswMismatch
    split
    · exact first _
    · split
      · exact second _ _
      · split
        · exact third _ _ _
        · refine release _ ?_ (third _ _ _)
          rw [(raiseIf_view _ _ _).2.2, (raiseIf_view _ _ _).2.2, (raiseIf_view _ _ _).2.2]
          exact sab
  · rw [if_neg nested]
    exact ⟨coherent.sampled, coherent.asserted⟩

/-- Every action of an opcode that is not aborted keeps the copy coherent. -/
theorem Effect.apply_coherent (quiet : hooks.Quiet) (e : Effect) (m : Machine ω)
    (sab : m.cpu.variant = .sab80535) (coherent : m.cpu.Coherent)
    (kept : (e.apply hooks m).aborted hooks = false) : (e.apply hooks m).cpu.Coherent := by
  -- Each action either leaves pins and latches or is a write of its own.
  cases e with
  | setLower _ _ | setUpper _ _ | setPc _ | setExt _ _ | setInterruptActive _ | emit _ | raise _ =>
    exact ⟨coherent.sampled, coherent.asserted⟩
  -- No core register is a latch.
  | setReg reg value =>
    refine coherent.transfer rfl fun port => Function.update_of_ne ?_ _ _
    cases port <;> cases reg <;> decide
  | sfrWrite index value => exact sfrWrite_coherent quiet sab coherent index value kept
  | irqReti originalSp => exact sabIrqReti_coherent sab coherent originalSp
  | trace type address value =>
    rw [show ((Effect.trace type address value).apply hooks m).cpu = m.cpu from
      traceEmit_cpu hooks m _ _ _]
    exact coherent
  | fact f =>
    rw [show ((Effect.fact f).apply hooks m).cpu = m.cpu from raw_cpu hooks m f]
    exact coherent

/-- And so does every opcode body. -/
theorem Op.run_coherent {α : Type} (quiet : hooks.Quiet) (sticky : hooks.Sticky) (p : Op α)
    (m : Machine ω) (sab : m.cpu.variant = .sab80535) (coherent : m.cpu.Coherent)
    (kept : (p.run hooks m).2.aborted hooks = false) : (p.run hooks m).2.cpu.Coherent := by
  have both := Op.run_unaborted (I := fun c => c.variant = .sab80535 ∧ c.Coherent) sticky
    (fun e n before unaborted =>
      ⟨(congrArg Fixed.variant (e.apply_fixed quiet n)).trans before.1,
        e.apply_coherent quiet n before.1 before.2 unaborted⟩) p m ⟨sab, coherent⟩ kept
  exact both.2

/-- Moving the stack does not move the pins. -/
theorem SameButStack.coherent {a b : Cpu} (same : SameButStack a b) (coherent : a.Coherent) :
    b.Coherent :=
  coherent.transfer same.levelAsserted fun port => same.sfr _ (by cases port <;> decide)

/-- Auto-clearing a request does not move the pins. -/
theorem autoClear_view (source : IrqSource) (m : Machine ω) :
    (autoClear source m).cpu.pins = m.cpu.pins ∧
      (autoClear source m).cpu.variant = m.cpu.variant ∧
      ∀ port : SabPort, (autoClear source m).cpu.sfr port.reg = m.cpu.sfr port.reg := by
  -- A flag stands in a register that is no latch.
  have cleared : ∀ {index : SfrIndex} (mask : Byte), (∀ port : SabPort, port.reg ≠ index) →
      (m.clearFlags index mask).cpu.pins = m.cpu.pins ∧
        (m.clearFlags index mask).cpu.variant = m.cpu.variant ∧
        ∀ port : SabPort, (m.clearFlags index mask).cpu.sfr port.reg = m.cpu.sfr port.reg :=
    fun mask other => ⟨rfl, rfl, fun port => Function.update_of_ne (other port) _ _⟩
  have tcon : ∀ port : SabPort, port.reg ≠ Reg.tcon := fun port => by cases port <;> decide
  have ircon : ∀ port : SabPort, port.reg ≠ Reg.ircon := fun port => by cases port <;> decide
  -- Three sources keep their flag, the others have it in TCON or IRCON.
  cases source with
  | uart | timer2 | adc => exact ⟨rfl, rfl, fun _ => rfl⟩
  | timer0 | timer1 => exact cleared _ tcon
  | int2 | int3 | int4 | int5 | int6 => exact cleared _ ircon
  | int0 | int1 =>
    simp only [autoClear]
    split
    · exact cleared _ tcon
    · exact ⟨rfl, rfl, fun _ => rfl⟩

/-- Committing an entry does not move the pins. -/
theorem acceptInterrupt_coherent (sab : m.cpu.variant = .sab80535) (coherent : m.cpu.Coherent)
    (source : IrqSource) (priority : Nat) (returnPc : Word) (spBefore : Byte) (pending : Word) :
    (acceptInterrupt hooks source priority returnPc spBefore pending m).cpu.Coherent := by
  simp only [acceptInterrupt, emitIrq_cpu]
  -- Looking at the pins is a move, and before it nothing moved them.
  refine (Moves.refl _).irqSync.coherent ?_ ?_
  · rw [(autoClear_view _ _).2.1, raw_cpu]
    exact sab
  · -- PCON and the service stack are no latches.
    obtain ⟨pins, -, latches⟩ := autoClear_view source
      (((m.setSfr Reg.pcon (m.cpu.sfr Reg.pcon &&& ~~~Pcon.idle)).mapCpu fun c =>
        { c with
          pc := source.vector
          tickDelay := 1
          service := c.service.push source priority c }).raw hooks
        (.irqEnter m.cpu.machineCycleCount source returnPc spBefore (m.cpu.sfr Reg.sp)))
    refine coherent.transfer (pins.trans ?_) fun port => (latches port).trans ?_
    · rw [raw_cpu]
      rfl
    · rw [raw_cpu]
      exact Function.update_of_ne (by cases port <;> decide) _ _

/-- Handling interrupts does not move the pins. -/
theorem handleInterrupts_coherent (sab : m.cpu.variant = .sab80535) (coherent : m.cpu.Coherent) :
    (handleInterrupts hooks m).2.cpu.Coherent := by
  have moves : Moves m.cpu (irqSync hooks m).cpu := (Moves.refl m.cpu).irqSync
  -- The look at the pins comes first.
  have synced := moves.coherent sab coherent
  rw [handleInterrupts, if_pos sab]
  -- Then nothing is selected, or a source is entered or fails to be.
  rcases handleSabInterrupts_cases hooks m with ⟨same, -⟩ | ⟨source, -, -, -, -, same⟩
  · rw [same]
    exact synced
  · rw [same]
    rcases @enterInterrupt_cases ω hooks source (irqSync hooks m) with ⟨-, kept⟩ | entered
    · exact kept.coherent synced
    · have pushed := @entryPushed_sameButStack ω hooks (irqSync hooks m)
      rw [entered]
      refine acceptInterrupt_coherent ?_ (pushed.coherent synced) _ _ _ _ _
      exact pushed.variant.trans (moves.variant.trans sab)

/-- A tick that is not aborted keeps the copy coherent. -/
theorem tick_coherent (quiet : hooks.Quiet) (sticky : hooks.Sticky) (rest : m.cpu.AtRest)
    (coherent : m.cpu.Coherent) (kept : (tick hooks m).2.aborted hooks = false) :
    (tick hooks m).2.cpu.Coherent := by
  have sab := rest.sab
  -- Up to the body the copy stays coherent.
  have handled := @handleInterrupts_coherent ω hooks m sab coherent
  obtain ⟨delay, fixed⟩ := handleInterrupts_fixed hooks m
  have variant : (handleInterrupts hooks m).2.cpu.variant = .sab80535 :=
    (congrArg Fixed.variant fixed).trans sab
  -- Beginning the instruction touches neither pins nor latches.
  have begun : (opcodeStart hooks m).cpu.variant = .sab80535 ∧
      (opcodeStart hooks m).cpu.Coherent := by
    rw [opcodeStart, beginInstruction_cpu]
    exact ⟨variant, handled.sampled, handled.asserted⟩
  have shape := tick_cases hooks m
  generalize tick hooks m = answer at shape kept
  -- The ways through the tick: the cycle at the end keeps the copy, too.
  cases shape with
  | stopped _ => exact coherent
  | pending _ _ =>
    exact advanceMachineCycle_coherent (by exact sab) ⟨coherent.sampled, coherent.asserted⟩
  | failed _ _ | entered _ _ _ _ => exact advanceMachineCycle_coherent variant handled
  | cut _ _ _ => exact handled
  -- Idling clears bits of PCON.
  | idle _ _ _ _ _ =>
    refine advanceMachineCycle_coherent (by exact variant) ?_
    exact handled.transfer rfl fun port => Function.update_of_ne (by cases port <;> decide) _ _
  | unbegun _ _ _ => exact ⟨begun.2.sampled, begun.2.asserted⟩
  | interrupted _ aborted => exact absurd (aborted.symm.trans kept) (by decide)
  -- The body has not been aborted, so none of its writes was cut short.
  | completed _ unaborted =>
    have body := Op.run_coherent quiet sticky _ _ begun.1 begun.2
      (body_unaborted sticky _ _ unaborted)
    have ran : (opcodeDone hooks m).cpu.AtRest ∧ (opcodeDone hooks m).cpu.Coherent := by
      rw [opcodeDone, runInstruction_cpu]
      exact ⟨⟨(congrArg Fixed.variant (Op.run_fixed quiet _ _)).trans begun.1, rfl⟩,
        body.sampled, body.asserted⟩
    refine advanceMachineCycle_coherent (by exact ran.1.sab) ?_
    exact ran.2.transfer rfl fun port => Function.update_of_ne (by cases port <;> decide) _ _

/-- Reset leaves every pin high and seen high. -/
theorem reset_coherent (wipe : Bool) (rand : Byte) (c : Cpu) (sab : c.variant = .sab80535) :
    (c.reset wipe rand).Coherent := by
  -- The latches are all ones, and nothing drives the pins.
  have latch : ∀ port : SabPort, (c.reset wipe rand).sfr port.reg = 0xFF#8 := by
    intro port
    have variant : (c.reset wipe rand).variant = .sab80535 := by
      simp only [Cpu.reset]
      split <;> split <;> exact sab
    rw [reset_sfr wipe rand c (by cases port <;> decide), variant]
    cases port <;> rfl
  have pins : (c.reset wipe rand).pins = resetPins := rfl
  -- So every pin is high, as the samples say.
  have high : ∀ source : ExternalSource, (c.reset wipe rand).pinLevel source = true := by
    intro source
    simp only [Cpu.pinLevel, Cpu.getPins, latch, pins, resetPins]
    cases source <;> rfl
  refine ⟨fun source => ?_, fun source _ set => ?_⟩
  · rw [high, pins]
    cases source <;> rfl
  · -- And nothing is noted as asserted.
    rw [pins] at set
    exact absurd set (by cases source <;> decide)

/-- A synthetic request does not move the pins. -/
theorem setPending_coherent (sab : m.cpu.variant = .sab80535) (coherent : m.cpu.Coherent)
    (source : Nat) (pending : Bool) : (setPending hooks source pending m).2.cpu.Coherent := by
  simp only [setPending]
  split
  · exact coherent
  · rename_i s _
    -- A request is no latch.
    have apart : ∀ port : SabPort, port.reg ≠ s.requestReg := by
      intro port
      cases port <;> cases s <;> decide
    rw [if_pos sab]
    simp only [emitIrq_cpu]
    split
    · -- It is set like any other, and the levels are looked at behind it.
      refine (Moves.refl _).irqSync.coherent ?_ ?_
      · rw [irqWrite_cpu]
        exact sab
      · rw [irqWrite_cpu]
        exact coherent.transfer rfl fun port => Function.update_of_ne (apart port) _ _
    · refine (Moves.refl _).irqSync.coherent (by exact sab) ?_
      exact coherent.transfer rfl fun port => Function.update_of_ne (apart port) _ _

/-- A host call that is not aborted keeps the copy coherent. -/
theorem hostCall_coherent (quiet : hooks.Quiet) (rest : m.cpu.AtRest) (coherent : m.cpu.Coherent)
    (call : HostCall) (kept : (call.run hooks m).2.aborted hooks = false) :
    (call.run hooks m).2.cpu.Coherent := by
  have sab := rest.sab
  -- Each call either touches no pin or is one of those above.
  cases call with
  | reset wipe rand => exact reset_coherent wipe rand m.cpu sab
  | setResetSeed _ | setBreakpoint _ _ | loadCode _ => exact ⟨coherent.sampled, coherent.asserted⟩
  | setPending source pending => exact setPending_coherent sab coherent source pending
  | portDrive address mask levels =>
    simp only [HostCall.run]
    split
    · exact coherent
    · exact portDrive_coherent sab coherent _ _ _
  | portRelease address mask =>
    simp only [HostCall.run]
    split
    · exact coherent
    · exact portRelease_coherent sab coherent _ _
  | externalDrive source level => exact externalDrive_coherent sab coherent source level
  | externalRelease source => exact externalRelease_coherent sab coherent source
  | schedule event => exact schedule_coherent sab coherent event
  | clearSchedule =>
    simp only [HostCall.run, clearSchedule, sab, if_true]
    exact ⟨coherent.sampled, coherent.asserted⟩
  | injectRxFrame data ninth => exact ((Moves.refl m.cpu).injectRxFrame data ninth).coherent sab coherent
  | adcSetInput channel input =>
    simp only [HostCall.run, adcSetInput]
    split
    · exact coherent
    · exact ⟨coherent.sampled, coherent.asserted⟩
  | sfrRead address =>
    simp only [HostCall.run]
    split
    · exact coherent
    · rw [show (sfrRead hooks (sfrIndex address) m).2.cpu = m.cpu from sfrRead_cpu _ _ _]
      exact coherent
  -- A write that is not aborted samples the port it has written.
  | sfrWrite address value =>
    simp only [HostCall.run] at kept ⊢
    split
    · exact coherent
    · rename_i high
      rw [if_neg high] at kept
      exact sfrWrite_coherent quiet sab coherent _ _ kept

/-- The copy is coherent in every supervised state that is not aborted. -/
theorem Supervised.coherent (quiet : hooks.Quiet) (sticky : hooks.Sticky)
    (supervised : Supervised hooks m) (running : m.aborted hooks = false) : m.cpu.Coherent := by
  induction supervised with
  | reset fresh =>
    obtain ⟨c, wipe, rand, image, entry, sab, same⟩ := fresh
    have start := reset_coherent wipe rand c sab
    rw [same]
    exact ⟨start.sampled, start.asserted⟩
  | tick before ih =>
    -- An abort would have outlived the operation, so there was none before it.
    have earlier := (Steps.tick (.refl _)).unaborted sticky running
    exact tick_coherent quiet sticky (before.reachable.atRest quiet.passive) (ih earlier) running
  | call c before ih =>
    have earlier := (Steps.hostCall (.refl _) c).unaborted sticky running
    exact hostCall_coherent quiet (before.reachable.atRest quiet.passive) (ih earlier) c running
  | @own n update before kept ih =>
    refine ih ?_
    cases aborted : n.aborted hooks with
    | false => rfl
    | true => exact absurd ((kept aborted).symm.trans running) (by decide)

end Runs

end Emu80535
