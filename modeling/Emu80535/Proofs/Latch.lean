import Emu80535.Proofs.Scope
import Emu80535.Proofs.Ticks

/-! The exception latch: only a raised exception sets it, and it then names that exception. -/

namespace Emu80535

variable {ω : Type} {hooks : Hooks ω}

open Machine

/-! ### Peripherals leave the latch alone -/

/-- The exception latch, as the stop tests and the run result read it. -/
def Cpu.latch (c : Cpu) : Bool × Option ExceptionCode := (c.exceptionRaised, c.lastException)

/-- No peripheral raises an exception. -/
theorem Moves.latch {a b : Cpu} (moves : Moves a b) : b.latch = a.latch := by
  -- None of the elementary changes touches either half of the latch.
  refine moves.keeps (I := fun c => c.latch = a.latch) (fun x y move before => ?_) rfl
  rw [← before]
  cases move <;> rfl

/-- A change within a scope does not touch it. -/
theorem Within.latch {journal : Option (Journal hooks)} {scope : Scope} {m n : Machine ω}
    (within : Within journal scope m n) : n.cpu.latch = m.cpu.latch := by
  have same := congrArg Cpu.latch within.rest
  exact same

section Latches

variable (hooks : Hooks ω) (m : Machine ω)

/-- Synchronising the request caches leaves the latch alone. -/
@[simp] theorem irqSync_latch : (irqSync hooks m).cpu.latch = m.cpu.latch :=
  (Moves.refl m.cpu).irqSync.latch

/-- Sampling a port leaves it alone. -/
@[simp] theorem samplePort_latch (port : SabPort) :
    (samplePort hooks port m).cpu.latch = m.cpu.latch := by
  have sampled : Within none pinScope m (samplePort hooks port m) :=
    (Within.refl m).samplePort port (by decide) (by decide) (fun _ _ _ _ _ _ => rfl)
  exact sampled.latch

/-- A machine cycle raises no exception. -/
@[simp] theorem advanceMachineCycle_latch :
    (advanceMachineCycle hooks m).cpu.latch = m.cpu.latch := by
  -- The peripherals only make moves, and completing the cycle only touches pins.
  have peripherals := (@Moves.advancePeripherals ω m.cpu hooks m (.refl m.cpu)).latch
  simp only [advanceMachineCycle]
  split
  · rfl
  · split
    · exact peripherals
    · exact (Within.cycleCompletes none (advancePeripherals hooks m)).latch.trans peripherals

/-- Clearing the flag of an accepted source leaves it alone. -/
@[simp] theorem autoClear_latch (source : IrqSource) :
    (autoClear source m).cpu.latch = m.cpu.latch := by
  cases source <;> simp only [autoClear] <;> first | rfl | (split <;> rfl)

/-- Committing an interrupt entry leaves it alone. -/
@[simp] theorem acceptInterrupt_latch (source : IrqSource) (priority : Nat) (returnPc : Word)
    (spBefore : Byte) (pending : Word) :
    (acceptInterrupt hooks source priority returnPc spBefore pending m).cpu.latch =
      m.cpu.latch := by
  simp only [acceptInterrupt, emitIrq_cpu, irqSync_latch, autoClear_latch, raw_cpu]
  rfl

/-- So does committing an entry of the classic controller. -/
@[simp] theorem acceptClassic_latch (source : ClassicSource) (hi : Bool) :
    (acceptClassic source hi m).cpu.latch = m.cpu.latch := by
  cases source <;>
    simp only [acceptClassic, Cpu.latch, mapCpu_cpu, Machine.clearFlags, Machine.setSfr]

end Latches

/-! ### The latch names what it was set for -/

/-- The latch is clear, or set with the code of the exception that set it. -/
def Cpu.Latched (c : Cpu) : Prop := c.exceptionRaised = c.lastException.isSome

/-- Whether the latch is coherent shows in the latch. -/
theorem Cpu.Latched.of_latch {a b : Cpu} (latched : a.Latched) (same : b.latch = a.latch) :
    b.Latched := by
  have raised : b.exceptionRaised = a.exceptionRaised := congrArg Prod.fst same
  have code : b.lastException = a.lastException := congrArg Prod.snd same
  rw [Cpu.Latched, raised, code]
  exact latched

/--
A register write callback neither ticks the CPU nor tampers with its exception latch.

The two programs of the repository that install one record the write, or collect serial output.
-/
structure Hooks.Unticking (hooks : Hooks ω) : Prop where
  instructions : ∀ index callback, hooks.sfrwrite index = some callback → ∀ m : Machine ω,
    (callback m).cpu.instructionCount = m.cpu.instructionCount
  cycles : ∀ index callback, hooks.sfrwrite index = some callback → ∀ m : Machine ω,
    (callback m).cpu.machineCycleCount = m.cpu.machineCycleCount
  latched : ∀ index callback, hooks.sfrwrite index = some callback → ∀ m : Machine ω,
    m.cpu.Latched → (callback m).cpu.Latched

/-- With no callback installed there is none to misbehave. -/
theorem Hooks.none_unticking : Hooks.none.Unticking where
  instructions := fun _ _ installed => absurd installed (by simp [Hooks.none])
  cycles := fun _ _ installed => absurd installed (by simp [Hooks.none])
  latched := fun _ _ installed => absurd installed (by simp [Hooks.none])

section Coherence

variable {m : Machine ω}

/-- The callback of a register keeps the latch coherent. -/
theorem sfrCallback_latched (unticking : hooks.Unticking) (index : SfrIndex)
    (latched : m.cpu.Latched) : (m.sfrCallback hooks index).cpu.Latched := by
  simp only [Machine.sfrCallback]
  split
  · rename_i callback installed
    exact unticking.latched index callback installed m latched
  · exact latched

/-- Closing a register transaction keeps the latch coherent. -/
theorem adcFinishSfrTransaction_latched (latched : m.cpu.Latched) :
    (adcFinishSfrTransaction m).cpu.Latched :=
  latched.of_latch (Moves.refl m.cpu).adcFinishSfrTransaction.latch

/-- The branch for the serial buffer keeps it, wherever an abort cuts it short. -/
theorem sbufWrite_latched (unticking : hooks.Unticking) (value : Byte)
    (latched : m.cpu.Latched) : (sbufWrite hooks value m).cpu.Latched := by
  -- Apart from the callback, the branch stores the mirror and moves the transmitter.
  simp only [sbufWrite]
  generalize begun : m.raw hooks
    (.accessBegin m.cpu.machineCycleCount (sfrAddress Reg.sbuf) false value) = n
  have reported : n.cpu.Latched := by
    rw [← begun, raw_cpu]
    exact latched
  split
  · exact reported
  · have held : (uartSbufWrite hooks value n).cpu.Latched :=
      reported.of_latch ((Moves.refl n.cpu).uartSbufWrite value).latch
    have called := @sfrCallback_latched ω hooks ((uartSbufWrite hooks value n).setSfr Reg.sbuf value)
      unticking Reg.sbuf held
    split
    · rw [raw_cpu]
      exact called
    · rw [raw_cpu]
      refine adcFinishSfrTransaction_latched ?_
      rw [traceEmit_cpu]
      exact called

/-- The store of a write, with the callback that follows it. -/
theorem sfrWriteBody_latched (unticking : hooks.Unticking) (index : SfrIndex) (value : Byte)
    (latched : m.cpu.Latched) : (sfrWriteBody hooks index value m).cpu.Latched := by
  -- The store does not reach the latch; the callback promises to keep it coherent.
  have stored : (m.irqWrite hooks index value m.cpu.machineCycleCount).cpu.Latched := by
    rw [irqWrite_cpu]
    exact latched
  simp only [sfrWriteBody]
  refine sfrCallback_latched unticking index ?_
  split
  · exact stored
  · exact stored

/-- The tail of a write samples pins, reports and holds off arbitration. -/
theorem sfrWriteTail_latched (index : SfrIndex) (value : Byte) (latched : m.cpu.Latched) :
    (sfrWriteTail hooks index value m).cpu.Latched := by
  -- What samples and reports does not reach the latch.
  have sampled : (sampleWritten hooks index m).cpu.Latched := by
    simp only [sampleWritten]
    split
    · exact latched.of_latch (samplePort_latch hooks m _)
    · exact latched
  have reported : ((sampleWritten hooks index m).traceEmit hooks .sfrWrite
      ((sfrAddress index).setWidth 16) value).cpu.Latched := by
    rw [traceEmit_cpu]
    exact sampled
  simp only [sfrWriteTail, holdOff]
  refine adcFinishSfrTransaction_latched ?_
  split
  · exact reported
  · exact reported

/-- A register write keeps it, whatever branch it takes. -/
theorem sfrWrite_latched (unticking : hooks.Unticking) (index : SfrIndex) (value : Byte)
    (latched : m.cpu.Latched) : (sfrWrite hooks index value m).cpu.Latched := by
  -- An abort inside the callback cuts the write short.
  have entered : (sfrWriteEnter m).cpu.Latched :=
    latched.of_latch (Moves.refl m.cpu).sfrWriteEnter.latch
  simp only [sfrWrite]
  split
  · exact sbufWrite_latched unticking _ entered
  · split
    · exact sfrWriteBody_latched unticking index _ entered
    · exact sfrWriteTail_latched index _ (sfrWriteBody_latched unticking index _ entered)

/-- A raised exception leaves the latch set with its code. -/
theorem raiseIf_latched (condition : Bool) (code : ExceptionCode) (latched : m.cpu.Latched) :
    (m.raiseIf hooks condition code).cpu.Latched := by
  simp only [raiseIf]
  split
  · rfl
  · exact latched

/-- The return from interrupt may raise three exceptions on its way. -/
theorem sabIrqReti_latched (originalSp : Byte) (latched : m.cpu.Latched) :
    (sabIrqReti hooks originalSp m).cpu.Latched := by
  -- Each check is followed by an abort test, so the splits follow the checks.
  have released : ∀ n : Machine ω, n.cpu.Latched → (armInhibit (irqRelease hooks n)).cpu.Latched := by
    intro n before
    have synced : (irqRelease hooks n).cpu.Latched := by
      refine before.of_latch ?_
      simp only [irqRelease, emitIrq_cpu, irqSync_latch]
      rfl
    exact synced
  simp only [sabIrqReti]
  split
  · split
    · split
      · exact raiseIf_latched _ _ latched
      · split
        · exact raiseIf_latched _ _ (raiseIf_latched _ _ latched)
        · have checked := @raiseIf_latched ω hooks
          split
          · exact checked _ _ (checked _ _ (checked _ _ latched))
          · exact released _ (checked _ _ (checked _ _ (checked _ _ latched)))
    · exact latched
  · exact latched

/-- Every action of an opcode body keeps the latch coherent. -/
theorem Effect.apply_latched (unticking : hooks.Unticking) (e : Effect) (m : Machine ω)
    (latched : m.cpu.Latched) : (e.apply hooks m).cpu.Latched := by
  -- Only a raise sets the latch, and it sets both of its halves.
  cases e with
  | sfrWrite index value => exact sfrWrite_latched unticking index value latched
  | raise code => rfl
  | irqReti originalSp => exact sabIrqReti_latched originalSp latched
  | trace type address value =>
    simp only [Effect.apply, traceEmit_cpu]
    exact latched
  | fact f =>
    simp only [Effect.apply, raw_cpu]
    exact latched
  | _ => exact latched

/-- Handling interrupts keeps the latch coherent. -/
theorem handleInterrupts_latched (unticking : hooks.Unticking) (m : Machine ω)
    (latched : m.cpu.Latched) : (handleInterrupts hooks m).2.cpu.Latched := by
  -- Both controllers push a return address and then commit; only the pushes can raise.
  have push : ∀ (value : Byte) (n : Machine ω), n.cpu.Latched →
      ((pushToStack value).run hooks n).2.cpu.Latched := fun value n before =>
    Op.run_keeps (fun e k => Effect.apply_latched unticking e k) (pushToStack value) n before
  have synced : (irqSync hooks m).cpu.Latched := latched.of_latch (irqSync_latch hooks m)
  simp only [handleInterrupts]
  split
  · rcases handleSabInterrupts_cases hooks m with ⟨same, -⟩ | ⟨source, -, -, -, -, same⟩
    · rw [same]
      exact synced
    · rw [same]
      simp only [enterInterrupt]
      generalize begun : (irqSync hooks m).raw hooks
        (.contextPreflight (irqSync hooks m).cpu.machineCycleCount) = n
      have reported : n.cpu.Latched := by
        rw [← begun, raw_cpu]
        exact synced
      split
      · exact reported
      · split
        · split
          · exact (push _ _ (push _ _ reported)).of_latch (acceptInterrupt_latch hooks _ _ _ _ _ _)
          · exact push _ _ (push _ _ reported)
        · exact push _ _ reported
  · simp only [handleClassicInterrupts]
    split
    · exact latched
    · split
      · exact latched
      · split
        · exact latched
        · split
          · split
            · exact (push _ _ (push _ _ latched)).of_latch (acceptClassic_latch _ _ _)
            · exact push _ _ (push _ _ latched)
          · exact push _ _ latched

/-- A tick keeps the latch coherent. -/
theorem tick_latched (unticking : hooks.Unticking) (m : Machine ω) (latched : m.cpu.Latched) :
    (tick hooks m).2.cpu.Latched := by
  refine tick_keeps (I := Cpu.Latched) (fun _ before => before)
    (fun n before => before.of_latch (advanceMachineCycle_latch hooks n))
    (fun n before => handleInterrupts_latched unticking n before) (fun _ before => before)
    (fun _ _ _ before => before) (fun _ _ before => before) (fun _ before => before)
    (fun opcode n before => ?_) m latched
  exact Op.run_keeps (fun e k => Effect.apply_latched unticking e k) _ n before

end Coherence

end Emu80535
