import Emu80535.Proofs.Clock
import Emu80535.Proofs.Rights
import Emu80535.Proofs.Scope
import Emu80535.Proofs.Ticks

/-! What instructions and interrupts leave alone: views of the CPU they cannot change. -/

namespace Emu80535

variable {ω : Type} {hooks : Hooks ω}

open Machine

/-! ### Views -/

/-- The parts of a CPU object that peripherals work with. -/
structure Peripherals where
  variant : Variant
  clock : Nat
  uart : UartState
  adc : AdcState
  overflows : TimerId → Nat
  sfr : SfrIndex → Byte

/-- These parts of a CPU object. -/
def Cpu.peripherals (c : Cpu) : Peripherals where
  variant := c.variant
  clock := c.machineCycleCount
  uart := c.uart
  adc := c.adc
  overflows := c.timerOverflowCount
  sfr := c.sfr

/-- The records of timers, of the serial port and of the converter. -/
def Record.ofPeripheral : Record → Bool
  | .timerOverflow .. | .uart .. | .adc .. => true
  | _ => false

/-- The request flags of TCON, all but the run bits and the trigger modes. -/
def tconFlags : Byte := Tcon.ie0 ||| Tcon.ie1 ||| Tcon.tf0 ||| Tcon.tf1

/--
A view of some of these parts, with the records that tell of them.

It shows nothing that an instruction or an interrupt entry stores by itself.
-/
structure View (α : Type) where
  shown : Cpu → α
  own : Record → Bool
  parts : ∀ a b : Cpu, b.peripherals = a.peripherals → shown b = shown a
  store : ∀ (c : Cpu) (index : SfrIndex) (value : Byte),
    isOwn index = true ∨ index = Reg.pcon → shown (c.store index value) = shown c
  clear : ∀ (c : Cpu) (index : SfrIndex) (mask : Byte),
    index = Reg.ircon ∨ index = Reg.tcon ∧ mask &&& ~~~tconFlags = 0#8 →
      shown (c.store index (c.sfr index &&& ~~~mask)) = shown c
  sync : ∀ {ω : Type} (hooks : Hooks ω) (m : Machine ω), shown (irqSync hooks m).cpu = shown m.cpu
  told : ∀ record, own record = true → record.ofPeripheral = true

/-- Other records do not tell of it. -/
theorem View.foreign {α : Type} (view : View α) {record : Record}
    (foreign : record.ofPeripheral = false) : view.own record = false := by
  cases own : view.own record with
  | false => rfl
  | true => exact (view.told record own).symm.trans foreign

/-- A change that a view does not show and that its records do not tell of. -/
structure Beside {α : Type} (view : View α) (journal : Option (Journal hooks)) (m n : Machine ω) :
    Prop where
  shown : view.shown n.cpu = view.shown m.cpu
  records : ∀ j, journal = some j → ∃ added, j.read n.host = j.read m.host ++ added ∧
    ∀ record ∈ added, view.own record = false
  aborts : hooks.Sticky → m.aborted hooks = true → n.aborted hooks = true

namespace Beside

variable {α : Type} {view : View α} {journal : Option (Journal hooks)} {m n k : Machine ω}

/-- Doing nothing is beside every view. -/
theorem refl (m : Machine ω) : Beside view journal m m where
  shown := rfl
  records := fun j _ => ⟨[], by simp, by simp⟩
  aborts := fun _ aborted => aborted

/-- Two changes beside a view, one after the other, are one. -/
theorem trans (first : Beside view journal m n) (second : Beside view journal n k) :
    Beside view journal m k where
  shown := second.shown.trans first.shown
  records := by
    intro j kept
    obtain ⟨early, same, apart⟩ := first.records j kept
    obtain ⟨late, later, still⟩ := second.records j kept
    -- The records of both stretches, one behind the other.
    refine ⟨early ++ late, by rw [later, same, List.append_assoc], fun record member => ?_⟩
    rcases List.mem_append.mp member with old | new
    · exact apart record old
    · exact still record new
  aborts := fun sticky aborted => second.aborts sticky (first.aborts sticky aborted)

/-- A branch of two continuations is one of them. -/
theorem ite {p : Prop} [Decidable p] {x y : Machine ω} (yes : Beside view journal m x)
    (no : Beside view journal m y) : Beside view journal m (if p then x else y) := by
  split
  · exact yes
  · exact no

/-- The same for a branch that also depends on which way it went. -/
theorem ite_snd {α : Type} {p : Prop} [Decidable p] {x y : α × Machine ω}
    (yes : Beside view journal m x.2) (no : Beside view journal m y.2) :
    Beside view journal m (if p then x else y).2 := by
  split
  · exact yes
  · exact no

/-! ### One rule for each function -/

section Rules

variable (beside : Beside view journal m n)

include beside

/-- A CPU change the view does not show. -/
theorem cpu {k : Machine ω} (host : k.host = n.host)
    (same : view.shown k.cpu = view.shown n.cpu) : Beside view journal m k where
  shown := same.trans beside.shown
  records := by
    rw [host]
    exact beside.records
  aborts := by
    intro sticky aborted
    rw [Machine.aborted, host]
    exact beside.aborts sticky aborted

/-- A CPU change that is none of the peripherals' affair. -/
theorem elsewhere {k : Machine ω} (host : k.host = n.host) (same : k.cpu.peripherals = n.cpu.peripherals) :
    Beside view journal m k := beside.cpu host (view.parts n.cpu k.cpu same)

/-- A change of the CPU object is beside the view. -/
theorem mapCpu {f : Cpu → Cpu} (same : (f n.cpu).peripherals = n.cpu.peripherals) :
    Beside view journal m (n.mapCpu f) := beside.elsewhere rfl same

/-- Reporting a raw fact is beside the view. -/
theorem raw (fact : RawFact) : Beside view journal m (n.raw hooks fact) where
  shown := by
    rw [raw_cpu]
    exact beside.shown
  records := by
    intro j kept
    obtain ⟨added, same, apart⟩ := beside.records j kept
    refine ⟨added, ?_, apart⟩
    simp only [Machine.raw]
    -- A fact goes to the observer and is no record of the journal.
    split
    · exact (j.fact _ _ _).trans same
    · exact same
  aborts := fun sticky aborted =>
    (((Steps.refl n).rawFact fact).aborted sticky (beside.aborts sticky aborted))

/-- Handing out a record is beside the view. -/
theorem emit {record : Record} (other : view.own record = false) :
    Beside view journal m (n.emit hooks record) where
  shown := beside.shown
  records := by
    intro j kept
    obtain ⟨added, same, apart⟩ := beside.records j kept
    refine ⟨added ++ [record], ?_, fun each member => ?_⟩
    · rw [← List.append_assoc, ← same]
      exact j.emit _ _
    · rcases List.mem_append.mp member with old | new
      · exact apart each old
      · rw [List.mem_singleton.mp new]
        exact other
  aborts := fun sticky aborted => sticky.emit _ _ (beside.aborts sticky aborted)

/-- A callback that acts on its own state. -/
theorem callback {h : ω} (read : ∀ j, journal = some j → j.read h = j.read n.host)
    (aborts : hooks.Sticky → n.aborted hooks = true → hooks.aborted h = true) :
    Beside view journal m { n with host := h } where
  shown := beside.shown
  records := by
    intro j kept
    obtain ⟨added, same, apart⟩ := beside.records j kept
    exact ⟨added, (read j kept).trans same, apart⟩
  aborts := fun sticky aborted => aborts sticky (beside.aborts sticky aborted)

/-- A store of what every instruction and every interrupt entry may store. -/
theorem setSfr {index : SfrIndex} (value : Byte) (own : isOwn index = true ∨ index = Reg.pcon) :
    Beside view journal m (n.setSfr index value) :=
  beside.cpu rfl (view.store n.cpu index value own)

/-- Clearing flags is beside the view. -/
theorem clearFlags {index : SfrIndex} {mask : Byte}
    (flags : index = Reg.ircon ∨ index = Reg.tcon ∧ mask &&& ~~~tconFlags = 0#8) :
    Beside view journal m (n.clearFlags index mask) :=
  beside.cpu rfl (view.clear n.cpu index mask flags)

/-- Synchronising the request caches is beside the view. -/
theorem irqSync : Beside view journal m (irqSync hooks n) := by
  have within : Within journal pinScope n (Emu80535.irqSync hooks n) :=
    (Within.refl n).irqSync (by decide)
  -- The synchronisation hands out records of the pins alone.
  refine beside.trans ⟨view.sync hooks n, fun j kept => ?_, fun sticky aborted =>
    (Steps.refl n).syncIrq.aborted sticky aborted⟩
  obtain ⟨added, same, pins⟩ := within.records j kept
  refine ⟨added, same, fun record member => view.foreign ?_⟩
  have external := pins record member
  cases record with
  | external => rfl
  | _ => exact absurd external Bool.false_ne_true

/-- Tracing the interrupt controller is beside the view. -/
theorem emitIrq (event : IrqEvent) (source priority : Nat) (asserted : Bool) (pending : Word) :
    Beside view journal m (n.emitIrq hooks event source priority asserted pending) :=
  beside.emit (view.foreign rfl)

/-- Tracing an access is beside the view. -/
theorem traceEmit (type : TraceType) (address : Word) (value : Byte) :
    Beside view journal m (n.traceEmit hooks type address value) := by
  simp only [Machine.traceEmit]
  exact ite beside (beside.emit (view.foreign rfl))

/-- Raising an exception is beside the view. -/
theorem raiseException (code : ExceptionCode) :
    Beside view journal m (n.raiseException hooks code) := by
  have latched : Beside view journal m (n.mapCpu fun c =>
      { c with exceptionRaised := true, lastException := some code }) := beside.mapCpu rfl
  exact latched.callback (fun j _ => j.except _ _ _)
    fun sticky aborted => sticky.except _ _ _ aborted

/-- Raising an exception under a condition is beside the view. -/
theorem raiseIf (condition : Bool) (code : ExceptionCode) :
    Beside view journal m (n.raiseIf hooks condition code) := by
  simp only [Machine.raiseIf]
  exact ite (beside.raiseException code) beside

/-- Returning from an interrupt is beside the view. -/
theorem sabIrqReti (originalSp : Byte) : Beside view journal m (sabIrqReti hooks originalSp n) := by
  -- Leaving the service is the pop, the synchronisation, its record and the hold-off.
  have released : ∀ {k : Machine ω}, Beside view journal m k →
      Beside view journal m (armInhibit (irqRelease hooks k)) := by
    intro k before
    simp only [armInhibit, irqRelease]
    refine mapCpu (emitIrq (irqSync (before.mapCpu ?_)) _ _ _ _ _) rfl
    rfl
  simp only [Emu80535.sabIrqReti]
  -- The three exceptions on the way may abort, and then nothing is left.
  refine ite (ite ?_ (beside.mapCpu rfl)) beside
  refine ite (beside.raiseIf _ _) (ite ((beside.raiseIf _ _).raiseIf _ _) (ite ?_ ?_))
  · exact ((beside.raiseIf _ _).raiseIf _ _).raiseIf _ _
  · exact released (((beside.raiseIf _ _).raiseIf _ _).raiseIf _ _)

/-- Reading a register through the gateway is beside the view. -/
theorem sfrRead (index : SfrIndex) : Beside view journal m (sfrRead hooks index n).2 := by
  simp only [Emu80535.sfrRead]
  split
  · rename_i callback installed
    exact beside.callback (fun j _ => j.sfrread _ _ installed _ _)
      fun sticky aborted => sticky.sfrread _ _ installed _ _ aborted
  · refine ite_snd beside ?_
    split <;> exact beside

/-- Reading a register for modification is beside the view. -/
theorem sfrRmwRead (index : SfrIndex) : Beside view journal m (sfrRmwRead hooks index n).2 := by
  simp only [Emu80535.sfrRmwRead]
  split
  · exact beside
  · exact beside.sfrRead index

/-- An action of an opcode that writes no register through the gateway. -/
theorem effect (e : Effect) (other : ∀ index value, e ≠ .sfrWrite index value)
    (apart : ∀ record, e = .emit record → record.ofPeripheral = false) :
    Beside view journal m (e.apply hooks n) := by
  -- Memory and registers are no part of a view, and a gateway write is excluded.
  cases e with
  | setLower _ _ | setUpper _ _ | setPc _ | setExt _ _ | setInterruptActive _ =>
    exact beside.elsewhere rfl rfl
  | setReg reg value => exact beside.setSfr value (Or.inl (by cases reg <;> rfl))
  | sfrWrite index value => exact absurd rfl (other index value)
  | raise code => exact beside.raiseException code
  | irqReti originalSp => exact beside.sabIrqReti originalSp
  | emit record => exact beside.emit (view.foreign (apart record rfl))
  | trace type address value => exact beside.traceEmit type address value
  | fact f => exact beside.raw f

end Rules

/--
What changes beside a view and the actions of a body keep, the whole body keeps.

The reads of a body are such changes, whatever the callbacks behind them do with their own state.
-/
theorem run_only {β : Type} {kind : Effect → Prop} {I : Machine ω → Prop}
    (step : ∀ k l, I k → Beside view journal k l → I l)
    (effect : ∀ e, kind e → ∀ k, I k → I (e.apply hooks k)) {p : Op β} (only : p.Only kind)
    (m : Machine ω) (before : I m) : I (p.run hooks m).2 := by
  -- The induction is on the body; each read is one change beside the view.
  induction p generalizing m with
  | ret value => exact before
  | look next ih => exact ih _ (only _) m before
  | act e next ih => exact ih only.2 _ (effect e only.1 m before)
  | aborted next ih => exact ih _ (only _) m before
  | ask f next ih => exact ih _ (only _) _ (step _ _ before ((refl m).raw f))
  | sfrRead index next ih => exact ih _ (only _) _ (step _ _ before ((refl m).sfrRead index))
  | sfrRmwRead index next ih =>
    exact ih _ (only _) _ (step _ _ before ((refl m).sfrRmwRead index))
  | busRead address next ih =>
    simp only [Op.run]
    split
    · rename_i callback installed
      refine ih _ (only _) _ (step _ _ before ((refl m).callback ?_ ?_))
      · exact fun j _ => j.xread _ installed _ _ _
      · exact fun sticky aborted => sticky.xread _ installed _ _ _ aborted
    · exact ih _ (only _) m before
  | busWrite address value next ih =>
    simp only [Op.run]
    split
    · rename_i callback installed
      refine ih _ (only _) _ (step _ _ before ((refl m).callback ?_ ?_))
      · exact fun j _ => j.xwrite _ installed _ _ _ _
      · exact fun sticky aborted => sticky.xwrite _ installed _ _ _ _ aborted
    · exact ih _ (only _) m before

section Entry

variable (beside : Beside view journal m n)

include beside

/-- Pushing a byte is beside the view. -/
theorem pushToStack (value : Byte) : Beside view journal m ((pushToStack value).run hooks n).2 := by
  refine run_only (fun k l before => before.trans) (fun e stack k before => ?_)
    (pushToStack_only value) n beside
  refine before.effect e ?_ ?_
  · rintro index value rfl
    exact absurd stack id
  · rintro record rfl
    exact absurd stack id

/-- Clearing the flag of an accepted source is beside the view. -/
theorem autoClear (source : IrqSource) : Beside view journal m (autoClear source n) := by
  cases source with
  | int0 | int1 => exact ite (beside.clearFlags (Or.inr ⟨rfl, by decide⟩)) beside
  | timer0 | timer1 => exact beside.clearFlags (Or.inr ⟨rfl, by decide⟩)
  | int2 | int3 | int4 | int5 | int6 => exact beside.clearFlags (Or.inl rfl)
  | uart | timer2 | adc => exact beside

/-- Committing an interrupt entry is beside the view. -/
theorem acceptInterrupt (source : IrqSource) (priority : Nat) (returnPc : Word) (spBefore : Byte)
    (pending : Word) :
    Beside view journal m (acceptInterrupt hooks source priority returnPc spBefore pending n) := by
  simp only [Emu80535.acceptInterrupt]
  refine emitIrq (irqSync (autoClear (raw (mapCpu ?_ ?_) _) source)) _ _ _ _ _
  · exact beside.setSfr _ (Or.inr rfl)
  · rfl

/-- Attempting an interrupt entry is beside the view. -/
theorem enterInterrupt (source : IrqSource) :
    Beside view journal m (enterInterrupt hooks source n).2 := by
  simp only [Emu80535.enterInterrupt]
  refine ite_snd (beside.raw _) (ite_snd (ite_snd ?_ ?_) ?_)
  · exact (((beside.raw _).pushToStack _).pushToStack _).acceptInterrupt _ _ _ _ _
  · exact ((beside.raw _).pushToStack _).pushToStack _
  · exact (beside.raw _).pushToStack _

/-- Committing an entry of the classic controller is beside the view. -/
theorem acceptClassic (source : ClassicSource) (hi : Bool) :
    Beside view journal m (acceptClassic source hi n) := by
  have vectored : Beside view journal m ((n.setSfr Reg.pcon (n.cpu.sfr Reg.pcon &&& ~~~Pcon.idle)).mapCpu
      fun c => { c with pc := source.vector, tickDelay := 1 }) :=
    (beside.setSfr _ (Or.inr rfl)).mapCpu rfl
  simp only [Emu80535.acceptClassic]
  refine mapCpu ?_ rfl
  -- A timer clears its own flag, the serial source its trigger, and an external one nothing.
  cases source with
  | int0 | int1 => exact vectored
  | timer0 | timer1 => exact vectored.clearFlags (Or.inr ⟨rfl, by decide⟩)
  | serial => exact vectored.mapCpu rfl

/-- Handling interrupts is beside the view. -/
theorem handleInterrupts : Beside view journal m (handleInterrupts hooks n).2 := by
  simp only [Emu80535.handleInterrupts]
  refine ite_snd ?_ ?_
  · -- Each way out of the handler synchronises, pushes or commits, all of them beside the view.
    simp only [handleSabInterrupts]
    refine ite_snd beside.irqSync (ite_snd beside.irqSync ?_)
    split
    · exact beside.irqSync
    · exact ite_snd beside.irqSync (beside.irqSync.enterInterrupt _)
  · simp only [handleClassicInterrupts]
    refine ite_snd beside ?_
    split
    · exact beside
    · refine ite_snd beside (ite_snd (ite_snd ?_ ?_) (beside.pushToStack _))
      · exact ((beside.pushToStack _).pushToStack _).acceptClassic _ _
      · exact (beside.pushToStack _).pushToStack _

/-- Reporting the start of an instruction is beside the view. -/
theorem beginInstruction : Beside view journal m (beginInstruction hooks n) := by
  simp only [Emu80535.beginInstruction]
  exact ((beside.mapCpu rfl).raw _).traceEmit _ _ _

/-- Setting the parity flag is beside the view. -/
theorem updateParity : Beside view journal m (updateParity n) :=
  beside.setSfr _ (Or.inl rfl)

/-- The body of an opcode that may not write registers through the gateway. -/
theorem opTable {opcode : Byte} (reads : (opRights opcode).write = false) :
    Beside view journal m ((opTable opcode).run hooks n).2 := by
  refine run_only (fun k l before => before.trans) (fun e permitted k before => ?_)
    (opTable_lawful opcode).only n beside
  -- Rights without register writes exclude the gateway, and MOVX is no record of a device.
  refine before.effect e ?_ ?_
  · rintro index value rfl
    exact absurd (reads.symm.trans permitted) Bool.false_ne_true
  · rintro record rfl
    cases record with
    | movx => rfl
    | _ => exact absurd permitted Bool.false_ne_true

/-- Executing an instruction is beside the view. -/
theorem executeInstruction (reads : (opRights n.cpu.opcode).write = false) :
    Beside view journal m (executeInstruction hooks n).2 := by
  have begun := beside.beginInstruction
  have ran : Beside view journal m
      (runInstruction hooks n.cpu.opcode (Emu80535.beginInstruction hooks n)) :=
    ((begun.opTable reads).mapCpu rfl).raw _
  exact ite_snd (begun.elsewhere rfl rfl) (ite_snd ran (ran.elsewhere rfl rfl))

end Entry

/--
A tick changes a view in its machine cycle only, if its instruction writes no register through the
gateway.
-/
theorem tickCycle
    (reads : m.Fetches hooks →
      (opRights (Emu80535.handleInterrupts hooks m).2.cpu.opcode).write = false) :
    (∃ k, Emu80535.tickCycle hooks m = some k ∧ (tick hooks m).2 = advanceMachineCycle hooks k ∧
        Beside view journal m k) ∨
      (Emu80535.tickCycle hooks m = none ∧ Beside view journal m (tick hooks m).2) := by
  have handled : Beside view journal m (Emu80535.handleInterrupts hooks m).2 :=
    (refl m).handleInterrupts
  exact tickCycle_parts (refl m) ((refl m).mapCpu rfl) handled (fun k before => before.updateParity)
    fun _ fetches => handled.executeInstruction (reads fetches)

end Beside

/-! ### The devices -/

/-- What the serial port and the converter own, with their mirrors in the register file and the clock. -/
structure Devices where
  variant : Variant
  clock : Nat
  uart : UartState
  adc : AdcState
  sbuf : Byte
  adcon : Byte

/-- The device part of a CPU object. -/
def Cpu.devices (c : Cpu) : Devices where
  variant := c.variant
  clock := c.machineCycleCount
  uart := c.uart
  adc := c.adc
  sbuf := c.sfr Reg.sbuf
  adcon := c.sfr Reg.adcon

/-- Peripherals do not move the clock. -/
theorem clock_of_stable {a b : Cpu} (same : b.stable = a.stable) :
    b.machineCycleCount = a.machineCycleCount :=
  congrArg Fixed.machineCycleCount (Stable.fixed_eq same)

/-- The records of the serial port and of the converter. -/
def Record.ofDevice : Record → Bool
  | .uart .. | .adc .. => true
  | _ => false

/-- The machine with one more machine cycle on its clock. -/
def Machine.clocked (m : Machine ω) : Machine ω :=
  m.mapCpu fun c => { c with machineCycleCount := c.machineCycleCount + 1 }

/-- A store of a register that mirrors nothing of the devices leaves them as they are. -/
theorem devices_store (c : Cpu) {index : SfrIndex} (value : Byte) (sbuf : Reg.sbuf ≠ index)
    (adcon : Reg.adcon ≠ index) : (c.store index value).devices = c.devices := by
  simp only [Cpu.devices, Cpu.store, Function.update_of_ne sbuf, Function.update_of_ne adcon]

/-- A change within a scope that holds nothing of the devices leaves them as they are. -/
theorem Within.devices {journal : Option (Journal hooks)} {scope : Scope} {m n : Machine ω}
    (within : Within journal scope m n)
    (clock : n.cpu.machineCycleCount = m.cpu.machineCycleCount) (uart : scope.uart = false)
    (adc : scope.adc = false) (sbuf : Reg.sbuf ∉ scope.regs) (adcon : Reg.adcon ∉ scope.regs) :
    n.cpu.devices = m.cpu.devices := by
  have variant : (n.cpu.masked m.cpu).variant = m.cpu.variant := by rw [within.rest]
  have variant : n.cpu.variant = m.cpu.variant := variant
  simp only [Cpu.devices, variant, clock, within.uart uart, within.adc adc, within.sfr _ sbuf,
    within.sfr _ adcon]

/-- The view of the devices. -/
def deviceView : View Devices where
  shown := Cpu.devices
  own := Record.ofDevice
  parts := by
    intro a b same
    exact congrArg (fun w : Peripherals => (⟨w.variant, w.clock, w.uart, w.adc, w.sfr Reg.sbuf,
      w.sfr Reg.adcon⟩ : Devices)) same
  store := by
    intro c index value own
    refine devices_store c value ?_ ?_
    · rintro rfl
      exact absurd own (by decide)
    · rintro rfl
      exact absurd own (by decide)
  clear := by
    rintro c index mask (rfl | ⟨rfl, -⟩)
    · rfl
    · rfl
  sync := fun hooks m =>
    ((Within.refl m).irqSync (by decide) : Within none pinScope m (irqSync hooks m)).devices
      (clock_of_stable (irqSync_stable hooks m)) rfl rfl (by decide) (by decide)
  told := fun record own => by cases record <;> first | rfl | exact absurd own Bool.false_ne_true

namespace Beside

variable {journal : Option (Journal hooks)} {m n k : Machine ω}

/-- The devices stay as they are. -/
theorem devices (beside : Beside deviceView journal m n) : n.cpu.devices = m.cpu.devices :=
  beside.shown

/-- A change within a scope that holds nothing of the devices. -/
theorem of_within {scope : Scope} (within : Within journal scope m n)
    (steps : Steps hooks AnyChange m n)
    (clock : n.cpu.machineCycleCount = m.cpu.machineCycleCount) (uart : scope.uart = false)
    (adc : scope.adc = false) (sbuf : Reg.sbuf ∉ scope.regs) (adcon : Reg.adcon ∉ scope.regs)
    (emits : ∀ record, scope.emits record = true → record.ofDevice = false) :
    Beside deviceView journal m n where
  shown := within.devices clock uart adc sbuf adcon
  records := by
    -- What the scope may emit is no record of a device.
    intro j kept
    obtain ⟨added, same, inside⟩ := within.records j kept
    exact ⟨added, same, fun record member => emits record (inside record member)⟩
  aborts := fun sticky aborted => steps.aborted sticky aborted

/-- A change of pins. -/
theorem of_pins (within : Within journal pinScope m n) (steps : Steps hooks AnyChange m n)
    (clock : n.cpu.machineCycleCount = m.cpu.machineCycleCount) : Beside deviceView journal m n :=
  of_within within steps clock rfl rfl (by decide) (by decide)
    fun record known => by cases record <;> first | rfl | exact absurd known Bool.false_ne_true

section Devices

variable (beside : Beside deviceView journal m n)

include beside

/-- A store of a register that mirrors nothing of the devices. -/
theorem storeOther {index : SfrIndex} (value : Byte) (sbuf : Reg.sbuf ≠ index)
    (adcon : Reg.adcon ≠ index) : Beside deviceView journal m (n.setSfr index value) :=
  beside.cpu rfl (devices_store n.cpu value sbuf adcon)

/-- A store of request flags is beside the view. -/
theorem irqWrite {index : SfrIndex} (value : Byte) (cycle : Nat) (sbuf : Reg.sbuf ≠ index)
    (adcon : Reg.adcon ≠ index) :
    Beside deviceView journal m (n.irqWrite hooks index value cycle) := by
  have stored := beside.storeOther value sbuf adcon
  simp only [Machine.irqWrite]
  refine ite (Fold.foldl_keeps (I := fun k => Beside deviceView journal m k)
    (fun s _ k before => ?_) stored) stored
  exact ite (before.raw _) before

/-- Sampling a port is beside the view. -/
theorem samplePort (port : SabPort) : Beside deviceView journal m (samplePort hooks port n) :=
  beside.trans (of_pins
    ((Within.refl n).samplePort port (by decide) (by decide) (fun _ _ _ _ _ _ => rfl))
    ((Steps.refl n).samplePort port).weaken (clock_of_stable (samplePort_stable hooks n port)))

end Devices

/-- Once the clock has moved, the rest of a machine cycle only drives pins. -/
theorem completes (n : Machine ω) :
    Beside deviceView journal n.clocked (completeMachineCycle hooks n) := by
  have pins : Within journal pinScope n.clocked (completeMachineCycle hooks n) :=
    ((Within.refl n.clocked).applyScheduled (by decide) (by decide)
      fun _ _ _ _ _ _ => rfl).maintainLevelRequests (by decide)
  refine of_pins pins ((Steps.refl n.clocked).applyScheduled.trans
    (Steps.refl _).maintainLevelRequests.weaken) ?_
  exact completeMachineCycle_clock n

end Beside

end Emu80535
