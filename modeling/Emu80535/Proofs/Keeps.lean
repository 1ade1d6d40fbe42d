import Emu80535.Proofs.Scope
import Emu80535.Proofs.Ticks

/-! Properties of the CPU that only a few operations can break. -/

namespace Emu80535

variable {ω : Type} {hooks : Hooks ω} {I : Cpu → Prop} {m n : Machine ω}

open Machine

/--
A property that survives every elementary change outside the serial buffer.

What a write of the serial buffer does, each user of these rules says for itself.
-/
structure Keeps (hooks : Hooks ω) (I : Cpu → Prop) : Prop where
  store : ∀ (c : Cpu) {index : SfrIndex} (value : Byte), index ≠ Reg.sbuf → index ≠ Reg.adcon →
    I c → I (c.store index value)
  adcon : ∀ (c : Cpu) (value : Byte), I c → I (c.store Reg.adcon (c.storedValue Reg.adcon value))
  enter : ∀ m : Machine ω, I m.cpu → I (sfrWriteEnter m).cpu
  request : ∀ m : Machine ω, I m.cpu → I (adcRequestStart m).cpu
  finish : ∀ m : Machine ω, I m.cpu → I (adcFinishSfrTransaction m).cpu
  pins : ∀ (c : Cpu) (pins : PinState), I c → I { c with pins := pins }
  schedule : ∀ (c : Cpu) (q : Schedule), I c → I { c with schedule := q }
  clock : ∀ (c : Cpu) (cycle : Nat), I c → I { c with machineCycleCount := cycle }
  caches : ∀ (c : Cpu) (pending enabled : Word), I c →
    I { c with irqPending := pending, irqEnabled := enabled }
  inhibit : ∀ (c : Cpu) (count : Nat), I c → I { c with irqInhibit := count }
  service : ∀ (c : Cpu) (service : IrqService), I c → I { c with service := service }
  lower : ∀ (c : Cpu) (data : SfrIndex → Byte), I c → I { c with lowerData := data }
  upper : ∀ (c : Cpu) (data : Option (SfrIndex → Byte)), data.isSome = c.upperData.isSome → I c →
    I { c with upperData := data }
  ext : ∀ (c : Cpu) (data : Option (Word → Byte)), I c → I { c with extData := data }
  pc : ∀ (c : Cpu) (pc : Word), I c → I { c with pc := pc }
  delay : ∀ (c : Cpu) (cycles : Nat), I c → I { c with tickDelay := cycles }
  classic : ∀ (c : Cpu) (classic : ClassicState), I c → I { c with classic := classic }
  latch : ∀ (c : Cpu) (raised : Bool) (code : Option ExceptionCode), I c →
    I { c with exceptionRaised := raised, lastException := code }
  markers : ∀ (c : Cpu) (pc : Word) (inside : Bool), I c →
    I { c with tracePc := pc, inInstruction := inside }
  count : ∀ (c : Cpu) (instructions : Nat), I c → I { c with instructionCount := instructions }
  callback : ∀ index callback, hooks.sfrwrite index = some callback → ∀ m : Machine ω,
    I m.cpu → I (callback m).cpu

namespace Keeps

variable (keeps : Keeps hooks I)

include keeps

/-! ### Peripherals -/

/-- Storing some registers, one after the other. -/
theorem storeAll (regs : List SfrIndex) (value : SfrIndex → Byte)
    (plain : ∀ i ∈ regs, i ≠ Reg.sbuf ∧ i ≠ Reg.adcon) (c : Cpu) (before : I c) :
    I (regs.foldl (fun c i => c.store i (value i)) c) :=
  Fold.foldl_keeps (I := I)
    (fun i member c before => keeps.store c _ (plain i member).1 (plain i member).2 before) before

/-- A change within a scope that leaves the serial port and the converter alone. -/
theorem of_within {journal : Option (Journal hooks)} {scope : Scope}
    (within : Within journal scope m n) (uart : scope.uart = false) (adc : scope.adc = false)
    (plain : ∀ i ∈ scope.regs, i ≠ Reg.sbuf ∧ i ≠ Reg.adcon)
    (overflow : scope.overflow = none ∨
      ∀ (c : Cpu) (count : TimerId → Nat), I c → I { c with timerOverflowCount := count })
    (before : I m.cpu) : I n.cpu := by
  -- The registers of the scope are stored first; what is left are the parts of every scope.
  have stored := keeps.storeAll scope.regs n.cpu.sfr plain m.cpu before
  have shape : ∀ (regs : List SfrIndex) (c : Cpu),
      regs.foldl (fun c i => c.store i (n.cpu.sfr i)) c =
        { c with sfr := fun i => if i ∈ regs then n.cpu.sfr i else c.sfr i } := by
    intro regs
    induction regs with
    | nil => exact fun c => by simp
    | cons first regs ih =>
      intro c
      rw [List.foldl_cons, ih]
      simp only [Cpu.store]
      congr 1
      funext i
      by_cases later : i ∈ regs
      · simp [later]
      · by_cases here : i = first
        · simp [here]
        · simp [later, here]
  rw [shape] at stored
  have same : (fun i => if i ∈ scope.regs then n.cpu.sfr i else m.cpu.sfr i) = n.cpu.sfr := by
    funext i
    split
    · rfl
    · rename_i outside
      exact (within.sfr i outside).symm
  rw [same] at stored
  have counted : I { m.cpu with
      sfr := n.cpu.sfr, timerOverflowCount := n.cpu.timerOverflowCount } := by
    rcases overflow with none | free
    · have still : n.cpu.timerOverflowCount = m.cpu.timerOverflowCount := by
        funext t
        exact within.overflow t (by rw [none]; simp)
      rw [still]
      exact stored
    · exact free _ n.cpu.timerOverflowCount stored
  have rest := keeps.caches _ n.cpu.irqPending n.cpu.irqEnabled
    (keeps.classic _ n.cpu.classic (keeps.clock _ n.cpu.machineCycleCount
      (keeps.schedule _ n.cpu.schedule (keeps.pins _ n.cpu.pins counted))))
  have whole : n.cpu = { m.cpu with
      sfr := n.cpu.sfr
      pins := n.cpu.pins
      schedule := n.cpu.schedule
      machineCycleCount := n.cpu.machineCycleCount
      timerOverflowCount := n.cpu.timerOverflowCount
      classic := n.cpu.classic
      irqPending := n.cpu.irqPending
      irqEnabled := n.cpu.irqEnabled } := by
    have outside := within.rest
    have serial := within.uart uart
    have converter := within.adc adc
    calc n.cpu = { n.cpu.masked m.cpu with
          sfr := n.cpu.sfr
          pins := n.cpu.pins
          schedule := n.cpu.schedule
          adc := n.cpu.adc
          uart := n.cpu.uart
          machineCycleCount := n.cpu.machineCycleCount
          timerOverflowCount := n.cpu.timerOverflowCount
          classic := n.cpu.classic
          irqPending := n.cpu.irqPending
          irqEnabled := n.cpu.irqEnabled } := rfl
      _ = _ := by rw [outside, serial, converter]
  rw [whole]
  exact rest

/-- A change of pins only. -/
theorem of_pins {journal : Option (Journal hooks)} (within : Within journal pinScope m n)
    (before : I m.cpu) : I n.cpu :=
  keeps.of_within within rfl rfl (by decide) (Or.inl rfl) before

/-- Sampling a port keeps the property. -/
theorem samplePort (port : SabPort) (before : I m.cpu) : I (samplePort hooks port m).cpu := by
  have within : Within none pinScope m (Emu80535.samplePort hooks port m) :=
    (Within.refl m).samplePort port (by decide) (by decide) (fun _ _ _ _ _ _ => rfl)
  exact keeps.of_pins within before

/-- Synchronising the request caches keeps it. -/
theorem irqSync (before : I m.cpu) : I (irqSync hooks m).cpu := by
  have within : Within none pinScope m (Emu80535.irqSync hooks m) :=
    (Within.refl m).irqSync (by decide)
  exact keeps.of_pins within before

/-! ### Register writes -/

/-- So does the register write callback, which promises to. -/
theorem sfrCallback (index : SfrIndex) (before : I m.cpu) : I (m.sfrCallback hooks index).cpu := by
  simp only [Machine.sfrCallback]
  split
  · rename_i callback installed
    exact keeps.callback index callback installed m before
  · exact before

/-- The tail of a write samples pins, reports, holds off arbitration and closes the transaction. -/
theorem sfrWriteTail (index : SfrIndex) (value : Byte) (before : I m.cpu) :
    I (sfrWriteTail hooks index value m).cpu := by
  -- The tail has four parts, one after the other.
  have sampled : I (sampleWritten hooks index m).cpu := by
    simp only [sampleWritten]
    split
    · exact keeps.samplePort _ before
    · exact before
  have held : ∀ k : Machine ω, I k.cpu → I (holdOff index k).cpu := by
    intro k entered
    simp only [holdOff]
    split
    · exact keeps.inhibit _ _ entered
    · exact entered
  refine keeps.finish _ (held _ ?_)
  rw [traceEmit_cpu]
  exact sampled

/-- A write of any register but the serial buffer. -/
theorem sfrWrite {index : SfrIndex} (other : index ≠ Reg.sbuf) (value : Byte)
    (before : I m.cpu) : I (sfrWrite hooks index value m).cpu := by
  have entered := keeps.enter m before
  -- The value was chosen before the transaction was opened, which does not change the choice.
  have chosen : (sfrWriteEnter m).cpu.storedValue index value = m.cpu.storedValue index value := by
    simp only [sfrWriteEnter]
    split <;> rfl
  have stored : I ((sfrWriteEnter m).cpu.store index (m.cpu.storedValue index value)) := by
    by_cases busy : index = Reg.adcon
    · rw [← chosen, busy]
      exact keeps.adcon _ value entered
    · exact keeps.store _ _ other busy entered
  have body : I (sfrWriteBody hooks index (m.cpu.storedValue index value) (sfrWriteEnter m)).cpu := by
    simp only [sfrWriteBody]
    refine keeps.sfrCallback index ?_
    split
    · refine keeps.request _ ?_
      rw [irqWrite_cpu]
      exact stored
    · rw [irqWrite_cpu]
      exact stored
  simp only [Emu80535.sfrWrite, other, and_false, if_false]
  split
  · exact body
  · exact keeps.sfrWriteTail index _ body

/-! ### Opcode bodies -/

/-- Raising an exception under a condition keeps it. -/
theorem raiseIf (condition : Bool) (code : ExceptionCode) (before : I m.cpu) :
    I (m.raiseIf hooks condition code).cpu := by
  simp only [Machine.raiseIf]
  split
  · exact keeps.latch _ _ _ before
  · exact before

/-- Returning from an interrupt keeps it. -/
theorem sabIrqReti (originalSp : Byte) (before : I m.cpu) :
    I (sabIrqReti hooks originalSp m).cpu := by
  -- Each of the three checks may raise, and the release moves the in-service stack.
  have released : ∀ k : Machine ω, I k.cpu → I (armInhibit (irqRelease hooks k)).cpu := by
    intro k held
    refine keeps.inhibit _ _ ?_
    simp only [irqRelease, emitIrq_cpu]
    exact keeps.irqSync (keeps.service k.cpu _ held)
  have checked := fun condition code (k : Machine ω) held =>
    @raiseIf ω hooks I k keeps condition code held
  simp only [Emu80535.sabIrqReti]
  split
  · split
    · split
      · exact checked _ _ _ before
      · split
        · exact checked _ _ _ (checked _ _ _ before)
        · split
          · exact checked _ _ _ (checked _ _ _ (checked _ _ _ before))
          · exact released _ (checked _ _ _ (checked _ _ _ (checked _ _ _ before)))
    · exact keeps.inhibit _ _ before
  · exact before

/-- An action that does not write the serial buffer. -/
theorem effect (e : Effect) (other : ∀ value, e ≠ .sfrWrite Reg.sbuf value) (m : Machine ω)
    (before : I m.cpu) : I (e.apply hooks m).cpu := by
  -- Each plain action is one of the ways listed; the rest goes through the functions above.
  cases e with
  | setLower address value => exact keeps.lower _ _ before
  | setUpper address value => exact keeps.upper _ _ Option.isSome_map before
  | setReg reg value =>
    refine keeps.store _ value ?_ ?_ before
    all_goals cases reg <;> decide
  | setPc pc => exact keeps.pc _ _ before
  | setExt address value => exact keeps.ext _ _ before
  | setInterruptActive value => exact keeps.classic _ _ before
  | sfrWrite index value =>
    refine keeps.sfrWrite ?_ value before
    rintro rfl
    exact other value rfl
  | raise code => exact keeps.latch _ _ _ before
  | irqReti originalSp => exact keeps.sabIrqReti originalSp before
  | emit record => exact before
  | trace type address value => exact (traceEmit_cpu hooks m type address value).symm ▸ before
  | fact f => exact (raw_cpu hooks m f).symm ▸ before

/-- A push of a byte. -/
theorem pushToStack (value : Byte) (before : I m.cpu) :
    I ((pushToStack value).run hooks m).2.cpu := by
  refine (pushToStack_only value).rel (R := fun a b => I a → I b) (fun _ held => held)
    (fun _ _ _ first second held => second (first held)) (fun e stack k held => ?_) m before
  refine keeps.effect e ?_ k held
  rintro written rfl
  exact absurd stack (by simp [StackEffect])

/-! ### Interrupt entry -/

/-- Committing an interrupt entry keeps it. -/
theorem acceptInterrupt (source : IrqSource) (priority : Nat) (returnPc : Word) (spBefore : Byte)
    (pending : Word) (before : I m.cpu) :
    I (acceptInterrupt hooks source priority returnPc spBefore pending m).cpu := by
  -- The flag of the source is cleared in TCON or IRCON, or not at all.
  have clears : ∀ k : Machine ω, I k.cpu → I (autoClear source k).cpu := by
    intro k held
    have cleared : ∀ index mask, index = Reg.tcon ∨ index = Reg.ircon →
        I (k.clearFlags index mask).cpu := by
      rintro index mask (rfl | rfl)
      · exact keeps.store _ _ (by decide) (by decide) held
      · exact keeps.store _ _ (by decide) (by decide) held
    cases source <;> simp only [autoClear] <;>
      first
      | exact held
      | exact cleared _ _ (Or.inl rfl)
      | exact cleared _ _ (Or.inr rfl)
      | (split
         · exact cleared _ _ (Or.inl rfl)
         · exact held)
  simp only [Emu80535.acceptInterrupt, emitIrq_cpu]
  refine keeps.irqSync (clears _ ?_)
  rw [raw_cpu]
  have stored := keeps.store m.cpu (m.cpu.sfr Reg.pcon &&& ~~~Pcon.idle)
    (by decide : Reg.pcon ≠ Reg.sbuf) (by decide) before
  exact keeps.service _ _ (keeps.delay _ 1 (keeps.pc _ source.vector stored))

/-- So does committing an entry of the classic controller. -/
theorem acceptClassic (source : ClassicSource) (hi : Bool) (before : I m.cpu) :
    I (acceptClassic source hi m).cpu := by
  -- The program counter moves first; then the flag of the source is dropped.
  have stored := keeps.store m.cpu (m.cpu.sfr Reg.pcon &&& ~~~Pcon.idle)
    (by decide : Reg.pcon ≠ Reg.sbuf) (by decide) before
  have vectored := keeps.delay _ 1 (keeps.pc _ source.vector stored)
  simp only [Emu80535.acceptClassic]
  refine keeps.classic _ _ ?_
  cases source with
  | int0 | int1 => exact vectored
  | timer0 | timer1 => exact keeps.store _ _ (by decide) (by decide) vectored
  | serial => exact keeps.classic _ _ vectored

/-- Handling interrupts, whether or not an entry succeeds. -/
theorem handleInterrupts (before : I m.cpu) : I (handleInterrupts hooks m).2.cpu := by
  -- The controllers differ; in both an entry is two pushes and a commit.
  simp only [Emu80535.handleInterrupts]
  split
  · have synced := keeps.irqSync before
    rcases handleSabInterrupts_cases hooks m with ⟨same, -⟩ | ⟨source, -, -, -, -, same⟩
    · rw [same]
      exact synced
    · rw [same]
      simp only [enterInterrupt]
      generalize begun : (Emu80535.irqSync hooks m).raw hooks
        (.contextPreflight (Emu80535.irqSync hooks m).cpu.machineCycleCount) = n
      have asked : I n.cpu := by
        rw [← begun, raw_cpu]
        exact synced
      split
      · exact asked
      · split
        · split
          · exact keeps.acceptInterrupt _ _ _ _ _ (keeps.pushToStack _ (keeps.pushToStack _ asked))
          · exact keeps.pushToStack _ (keeps.pushToStack _ asked)
        · exact keeps.pushToStack _ asked
  · simp only [handleClassicInterrupts]
    split
    · exact before
    · split
      · exact before
      · split
        · exact before
        · split
          · split
            · exact keeps.acceptClassic _ _ (keeps.pushToStack _ (keeps.pushToStack _ before))
            · exact keeps.pushToStack _ (keeps.pushToStack _ before)
          · exact keeps.pushToStack _ before

end Keeps

/-! ### Whole operations -/

/-- A property that also survives every change of the serial port and of the configuration. -/
structure KeepsAll (hooks : Hooks ω) (I : Cpu → Prop) : Prop extends Keeps hooks I where
  uart : ∀ (c : Cpu) (uart : UartState), I c → I { c with uart := uart }
  sbuf : ∀ (c : Cpu) (value : Byte), I c → I (c.store Reg.sbuf value)
  inputs : ∀ (c : Cpu) (inputs : BitVec 3 → Word), I c →
    I { c with adc := { c.adc with inputs := inputs } }
  code : ∀ (c : Cpu) (image : Word → Byte), I c → I { c with codeMem := image }
  seed : ∀ (c : Cpu) (seed : BitVec 32), I c →
    I { c with resetSeed := seed, resetSeedConfigured := true }
  breakpoint : ∀ (c : Cpu) (pc : Word) (enabled : Bool), I c →
    I { c with breakpoint := pc, breakpointEnabled := enabled }

namespace KeepsAll

variable (keeps : KeepsAll hooks I)

include keeps

/-- Writing the serial buffer keeps it. -/
theorem sbufWrite (value : Byte) (before : I m.cpu) : I (sbufWrite hooks value m).cpu := by
  -- The mirror is stored twice, with the callback in between.
  have hold : ∀ k : Machine ω, I k.cpu → I (uartSbufWrite hooks value k).cpu := by
    intro k held
    simp only [uartSbufWrite]
    split
    · rw [raw_cpu]
      exact keeps.uart _ _ held
    · exact held
  simp only [Emu80535.sbufWrite]
  generalize begun : m.raw hooks
    (.accessBegin m.cpu.machineCycleCount (sfrAddress Reg.sbuf) false value) = n
  have reported : I n.cpu := by
    rw [← begun, raw_cpu]
    exact before
  have called : I (((uartSbufWrite hooks value n).setSfr Reg.sbuf value).sfrCallback hooks
      Reg.sbuf).cpu := keeps.sfrCallback _ (keeps.sbuf _ _ (hold _ reported))
  split
  · exact reported
  · split
    · rw [raw_cpu]
      exact called
    · rw [raw_cpu]
      refine keeps.finish _ ?_
      rw [traceEmit_cpu]
      exact keeps.sbuf _ _ called

/-- A write of any register. -/
theorem sfrWrite (index : SfrIndex) (value : Byte) (before : I m.cpu) :
    I (sfrWrite hooks index value m).cpu := by
  by_cases serial : index = Reg.sbuf
  · subst serial
    by_cases sab : (sfrWriteEnter m).cpu.variant = .sab80535
    · simp only [Emu80535.sfrWrite, sab, and_self, if_true]
      exact keeps.sbufWrite _ (keeps.enter m before)
    · -- The other variants store the buffer like any register.
      have body : I (sfrWriteBody hooks Reg.sbuf (m.cpu.storedValue Reg.sbuf value)
          (sfrWriteEnter m)).cpu := by
        simp only [sfrWriteBody]
        refine keeps.sfrCallback _ ?_
        have apart : Reg.sbuf ≠ Reg.dapr := by decide
        simp only [apart, and_false, if_false]
        rw [irqWrite_cpu]
        exact keeps.sbuf _ _ (keeps.enter m before)
      simp only [Emu80535.sfrWrite, sab, false_and, if_false]
      split
      · exact body
      · exact keeps.sfrWriteTail _ _ body
  · exact keeps.toKeeps.sfrWrite serial value before

/-- Every opcode body. -/
theorem run {α : Type} (p : Op α) (m : Machine ω) (before : I m.cpu) :
    I (p.run hooks m).2.cpu := by
  refine Op.run_keeps (fun e k held => ?_) p m before
  by_cases serial : ∃ value, e = .sfrWrite Reg.sbuf value
  · obtain ⟨value, rfl⟩ := serial
    exact keeps.sfrWrite _ _ held
  · exact keeps.effect e (fun value same => serial ⟨value, same⟩) k held

/-- The machine whose cycle a tick advances, and the end of a tick that advances none. -/
theorem tickCycle (m : Machine ω) (before : I m.cpu) :
    (∃ k, tickCycle hooks m = some k ∧ (tick hooks m).2 = advanceMachineCycle hooks k ∧ I k.cpu) ∨
      (tickCycle hooks m = none ∧ I (tick hooks m).2.cpu) :=
  tickCycle_keeps (fun _ held => keeps.delay _ _ held) (fun _ held => keeps.handleInterrupts held)
    (fun _ held => keeps.store _ _ (by decide) (by decide) held)
    (fun _ _ _ held => keeps.markers _ _ _ held)
    (fun c cycles held => keeps.markers _ c.tracePc false (keeps.delay c cycles held))
    (fun k held => keeps.inhibit _ _ (keeps.count k.cpu (k.cpu.instructionCount + 1) held))
    (fun _ n held => keeps.run _ n held) m before

/-- A host call that is no reset. -/
theorem hostCall (call : HostCall) (other : ∀ wipe rand, call ≠ .reset wipe rand) (m : Machine ω)
    (before : I m.cpu) : I (call.run hooks m).2.cpu := by
  -- Pins are driven by two of the calls, directly or through an external input.
  have driven : ∀ index mask levels, I (portDrive hooks index mask levels m).2.cpu ∧
      I (portRelease hooks index mask m).2.cpu := by
    intro index mask levels
    have redriven : ∀ port mask levels, I (redrive hooks port mask levels m).cpu :=
      fun port mask levels => keeps.samplePort port (keeps.pins _ _ before)
    simp only [portDrive, portRelease]
    split
    · exact ⟨before, before⟩
    · exact ⟨redriven _ _ _, redriven _ _ _⟩
  have external : ∀ source level, I (externalDrive hooks source level m).2.cpu ∧
      I (externalRelease hooks source m).2.cpu := by
    intro source level
    simp only [externalDrive, externalRelease]
    split
    · exact ⟨before, before⟩
    · exact ⟨(driven _ _ _).1, (driven _ _ 0#8).2⟩
  cases call with
  | reset wipe rand => exact absurd rfl (other wipe rand)
  | setResetSeed seed => exact keeps.seed _ _ before
  | setBreakpoint pc enabled => exact keeps.breakpoint _ _ _ before
  | loadCode image => exact keeps.code _ _ before
  | setPending source pending =>
    simp only [HostCall.run, Emu80535.setPending]
    split
    · exact before
    · split
      · refine keeps.irqSync ?_
        split
        · rw [irqWrite_cpu]
          rename_i s _ _ _
          exact keeps.store _ _ (by cases s <;> decide) (by cases s <;> decide) before
        · rename_i s _ _ _
          exact keeps.store _ _ (by cases s <;> decide) (by cases s <;> decide) before
      · exact before
  | portDrive address mask levels =>
    simp only [HostCall.run]
    split
    · exact before
    · exact (driven _ _ _).1
  | portRelease address mask =>
    simp only [HostCall.run]
    split
    · exact before
    · exact (driven _ _ 0#8).2
  | externalDrive source level => exact (external source level).1
  | externalRelease source => exact (external source false).2
  | schedule event =>
    simp only [HostCall.run, Emu80535.schedule]
    split
    · exact before
    · split
      · simp only [applyEvent]
        split
        · exact (external _ _).1
        · exact (external _ false).2
      · split
        · exact before
        · split
          · exact before
          · exact keeps.schedule _ _ before
  | clearSchedule =>
    simp only [HostCall.run, Emu80535.clearSchedule]
    split
    · exact keeps.schedule _ _ before
    · exact before
  | injectRxFrame data ninth =>
    simp only [HostCall.run, Emu80535.injectRxFrame]
    split
    · rw [emitUart_cpu, raw_cpu]
      exact keeps.uart _ _ before
    · exact before
  | adcSetInput channel input =>
    simp only [HostCall.run, Emu80535.adcSetInput]
    split
    · exact before
    · exact keeps.inputs _ _ before
  | sfrRead address =>
    simp only [HostCall.run]
    split
    · exact before
    · rw [sfrRead_cpu]
      exact before
  | sfrWrite address value =>
    simp only [HostCall.run]
    split
    · exact before
    · exact keeps.sfrWrite _ _ before

end KeepsAll

/-! ### The overflow counters and the build -/

/-- What only machine cycles and the owner change. -/
structure Still where
  overflow : TimerId → Nat
  variant : Variant
  backed : Bool
  extDataMaxIdx : Word

/-- The overflow counters, the variant and how much memory there is. -/
def Cpu.still (c : Cpu) : Still :=
  ⟨c.timerOverflowCount, c.variant, c.upperData.isSome, c.extDataMaxIdx⟩

/-- Outside machine cycles these change at most in a register write callback. -/
theorem keepsAll_still {P : Still → Prop}
    (callback : ∀ index callback, hooks.sfrwrite index = some callback → ∀ m : Machine ω,
      P m.cpu.still → P (callback m).cpu.still) : KeepsAll hooks fun c => P c.still where
  -- None of these ways touches the still part, except for the callback.
  store := fun _ _ _ _ _ held => held
  adcon := fun _ _ held => held
  enter := fun m held => by
    simp only [sfrWriteEnter]
    split <;> exact held
  request := fun _ held => held
  finish := fun m held => by
    simp only [adcFinishSfrTransaction]
    split
    · split <;> exact held
    · exact held
  pins := fun _ _ held => held
  schedule := fun _ _ held => held
  clock := fun _ _ held => held
  caches := fun _ _ _ held => held
  inhibit := fun _ _ held => held
  service := fun _ _ held => held
  lower := fun _ _ held => held
  upper := fun c data same held => by
    simp only [Cpu.still, same]
    exact held
  ext := fun _ _ held => held
  pc := fun _ _ held => held
  delay := fun _ _ held => held
  classic := fun _ _ held => held
  latch := fun _ _ _ held => held
  markers := fun _ _ _ held => held
  count := fun _ _ held => held
  callback := callback
  uart := fun _ _ held => held
  sbuf := fun _ _ held => held
  inputs := fun _ _ held => held
  code := fun _ _ held => held
  seed := fun _ _ held => held
  breakpoint := fun _ _ _ held => held

/-- A register write callback that does not advance machine cycles counts no overflow. -/
def Hooks.Uncounting (hooks : Hooks ω) : Prop :=
  ∀ index callback, hooks.sfrwrite index = some callback → ∀ m : Machine ω,
    (callback m).cpu.timerOverflowCount = m.cpu.timerOverflowCount

/-- Outside machine cycles the overflow counters stand still. -/
theorem Hooks.Uncounting.keepsAll (uncounting : hooks.Uncounting) (P : (TimerId → Nat) → Prop) :
    KeepsAll hooks fun c => P c.timerOverflowCount :=
  @keepsAll_still ω hooks (fun s => P s.overflow) fun index callback installed m held => by
    simp only [Cpu.still, uncounting index callback installed m]
    exact held

/-- A register write callback neither exchanges the part nor takes its upper internal RAM away. -/
def Hooks.Settled (hooks : Hooks ω) : Prop :=
  ∀ index callback, hooks.sfrwrite index = some callback → ∀ m : Machine ω,
    (callback m).cpu.variant = m.cpu.variant ∧
      (callback m).cpu.upperData.isSome = m.cpu.upperData.isSome

/-- Only its owner rebuilds a CPU. -/
theorem Hooks.Settled.keepsAll (settled : hooks.Settled) (P : Variant → Bool → Prop) :
    KeepsAll hooks fun c => P c.variant c.upperData.isSome :=
  @keepsAll_still ω hooks (fun s => P s.variant s.backed) fun index callback installed m held => by
    obtain ⟨variant, backed⟩ := settled index callback installed m
    simp only [Cpu.still, variant, backed]
    exact held

end Emu80535
