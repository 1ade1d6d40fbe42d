import Emu80535.Proofs.Steps

/-! What each peripheral function can touch, and which records it can hand to an observer. -/

namespace Emu80535

variable {ω : Type} {hooks : Hooks ω}

open Machine

/-! ### Journals -/

/--
A journal of the records an embedder has been handed.

Only the record-only observers write it; every other callback leaves it alone, except that the
accesses a register write callback makes are themselves recorded.
-/
structure Journal (hooks : Hooks ω) where
  read : ω → List Record
  emit : ∀ record h, read (hooks.emit record h) = read h ++ [record]
  except : ∀ c code h, read (hooks.except c code h) = read h
  sfrread : ∀ index callback, hooks.sfrread index = some callback → ∀ c h,
    read (callback c h).2 = read h
  xread : ∀ callback, hooks.xread = some callback → ∀ c address h,
    read (callback c address h).2 = read h
  xwrite : ∀ callback, hooks.xwrite = some callback → ∀ c address value h,
    read (callback c address value h) = read h
  fact : ∀ c fact h, read (hooks.fact c fact h).2 = read h

/-- An embedder that records what it is handed and does nothing else. -/
def recordingHooks : Hooks (List Record) where
  aborted _ := false
  except _ _ h := h
  sfrread _ := none
  sfrwrite _ := none
  xread := none
  xwrite := none
  emit record h := h ++ [record]
  fact _ _ h := (0, h)

/-- Its state is its journal. -/
def recordingJournal : Journal recordingHooks where
  read h := h
  emit _ _ := rfl
  except _ _ _ := rfl
  sfrread _ _ installed := absurd installed (by simp [recordingHooks])
  xread _ installed := absurd installed (by simp [recordingHooks])
  xwrite _ installed := absurd installed (by simp [recordingHooks])
  fact _ _ _ := rfl

/-! ### Scopes -/

/-- What a function may touch beside pins, schedule, clock, caches and the classic state. -/
structure Scope where
  regs : List SfrIndex
  uart : Bool := false
  adc : Bool := false
  overflow : Option TimerId := none
  emits : Record → Bool := fun _ => false

/-- The CPU with everything a scope may touch taken from another one. -/
def Cpu.masked (c : Cpu) (like : Cpu) : Cpu :=
  { c with
    sfr := like.sfr
    pins := like.pins
    schedule := like.schedule
    adc := like.adc
    uart := like.uart
    machineCycleCount := like.machineCycleCount
    timerOverflowCount := like.timerOverflowCount
    classic := like.classic
    irqPending := like.irqPending
    irqEnabled := like.irqEnabled }

/-- A machine was changed within a scope, as far as its journal tells if it keeps one. -/
structure Within (journal : Option (Journal hooks)) (scope : Scope) (m n : Machine ω) : Prop where
  rest : n.cpu.masked m.cpu = m.cpu
  sfr : ∀ i, i ∉ scope.regs → n.cpu.sfr i = m.cpu.sfr i
  uart : scope.uart = false → n.cpu.uart = m.cpu.uart
  adc : scope.adc = false → n.cpu.adc = m.cpu.adc
  overflow : ∀ t, scope.overflow ≠ some t →
    n.cpu.timerOverflowCount t = m.cpu.timerOverflowCount t
  records : ∀ j, journal = some j → ∃ added, j.read n.host = j.read m.host ++ added ∧
    ∀ record ∈ added, scope.emits record = true

/-! The scopes of the peripherals. -/

/-- Timer 0 counts in its own registers and borrows the flag of Timer 1. -/
def timer0Scope : Scope where
  regs := [Reg.tl0, Reg.th0, Reg.tcon]
  overflow := some .timer0
  emits record := record matches .timerOverflow .timer0 ..

/-- Timer 2 counts in its own registers and requests through IRCON. -/
def timer2Scope : Scope where
  regs := [Reg.tl2, Reg.th2, Reg.ircon, Reg.tcon]
  overflow := some .timer2
  emits record := record matches .timerOverflow .timer2 ..

/-- The converter owns its private state, its result, and a flag of IRCON. -/
def adcScope : Scope where
  regs := [Reg.adcon, Reg.addat, Reg.ircon, Reg.tcon]
  adc := true
  emits record := record matches .adc ..

/-- Pins request through TCON and IRCON. -/
def pinScope : Scope where
  regs := [Reg.tcon, Reg.ircon]
  emits record := record matches .external ..

namespace Within

variable {journal : Option (Journal hooks)} {scope wider : Scope} {m n k : Machine ω}

/-- Doing nothing keeps within every scope. -/
theorem refl (m : Machine ω) : Within journal scope m m where
  rest := rfl
  sfr := fun _ _ => rfl
  uart := fun _ => rfl
  adc := fun _ => rfl
  overflow := fun _ _ => rfl
  records := fun j _ => ⟨[], by simp, by simp⟩

/-- Two changes within a scope, one after the other, keep within it. -/
theorem trans (first : Within journal scope m n) (second : Within journal scope n k) :
    Within journal scope m k where
  rest := by
    -- Masking by the start forgets the masking by the middle.
    have joined : k.cpu.masked m.cpu = (k.cpu.masked n.cpu).masked m.cpu := rfl
    rw [joined, second.rest, first.rest]
  sfr := fun i outside => (second.sfr i outside).trans (first.sfr i outside)
  uart := fun closed => (second.uart closed).trans (first.uart closed)
  adc := fun closed => (second.adc closed).trans (first.adc closed)
  overflow := fun t other => (second.overflow t other).trans (first.overflow t other)
  records := by
    intro j kept
    obtain ⟨early, same, inside⟩ := first.records j kept
    obtain ⟨late, later, within⟩ := second.records j kept
    refine ⟨early ++ late, by rw [later, same, List.append_assoc], fun record member => ?_⟩
    rcases List.mem_append.mp member with old | new
    · exact inside record old
    · exact within record new

/-- A branch of two continuations is one of them. -/
theorem ite {p : Prop} [Decidable p] {x y : Machine ω} (yes : Within journal scope m x)
    (no : Within journal scope m y) : Within journal scope m (if p then x else y) := by
  split
  · exact yes
  · exact no

/-- A fold whose every step stays within a scope does. -/
theorem foldl {α : Type} {f : Machine ω → α → Machine ω} (l : List α)
    (step : ∀ k a, Within journal scope m k → Within journal scope m (f k a))
    (start : Within journal scope m n) : Within journal scope m (l.foldl f n) :=
  Fold.foldl_keeps (I := fun k => Within journal scope m k) (fun a _ k => step k a) start

/-! ### Elementary changes -/

section Rules

variable (within : Within journal scope m n)

include within

/-- Reporting a raw fact keeps within a scope that allows for it. -/
theorem raw (fact : RawFact) : Within journal scope m (n.raw hooks fact) := by
  simp only [Machine.raw]
  split
  · refine { within with records := fun j kept => ?_ }
    obtain ⟨added, same, inside⟩ := within.records j kept
    exact ⟨added, by rw [← same]; exact j.fact _ _ _, inside⟩
  · exact within

/-- Handing out a record keeps within a scope that allows for it. -/
theorem emit {record : Record} (permitted : scope.emits record = true) :
    Within journal scope m (n.emit hooks record) := by
  refine { within with records := fun j kept => ?_ }
  obtain ⟨added, same, inside⟩ := within.records j kept
  -- The record is added behind those of the change so far.
  refine ⟨added ++ [record], ?_, fun other member => ?_⟩
  · rw [← List.append_assoc, ← same]
    exact j.emit _ _
  · rcases List.mem_append.mp member with old | new
    · exact inside other old
    · rw [List.mem_singleton.mp new]
      exact permitted

/-- A store of a register keeps within a scope that allows for it. -/
theorem setSfr {index : SfrIndex} (value : Byte) (permitted : index ∈ scope.regs) :
    Within journal scope m (n.setSfr index value) := by
  refine { within with sfr := fun i outside => ?_ }
  have elsewhere : i ≠ index := by
    rintro rfl
    exact outside permitted
  exact (Function.update_of_ne elsewhere _ _).trans (within.sfr i outside)

/-- A store of request flags keeps within a scope that allows for it. -/
theorem irqWrite {index : SfrIndex} (value : Byte) (cycle : Nat)
    (permitted : index ∈ scope.regs) :
    Within journal scope m (n.irqWrite hooks index value cycle) := by
  have stored := within.setSfr value permitted
  simp only [Machine.irqWrite]
  split
  · refine foldl _ (fun k source before => ?_) stored
    exact ite (before.raw _) before
  · exact stored

/-- Clearing flags keeps within a scope that allows for it. -/
theorem clearFlags {index : SfrIndex} (mask : Byte) (permitted : index ∈ scope.regs) :
    Within journal scope m (n.clearFlags index mask) := within.setSfr _ permitted

/-- A change of the serial port's state keeps within a scope that allows for it. -/
theorem mapUart (f : UartState → UartState) (permitted : scope.uart = true) :
    Within journal scope m (n.mapUart f) :=
  { within with uart := fun closed => absurd (permitted.symm.trans closed) (by decide) }

/-- A change of the converter's state keeps within a scope that allows for it. -/
theorem mapAdc (f : AdcState → AdcState) (permitted : scope.adc = true) :
    Within journal scope m (n.mapAdc f) :=
  { within with adc := fun closed => absurd (permitted.symm.trans closed) (by decide) }

/-- Counting an overflow keeps within a scope that allows for it. -/
theorem count {timer : TimerId} (count : Nat) (permitted : scope.overflow = some timer) :
    Within journal scope m (n.mapCpu fun c =>
      { c with timerOverflowCount := Function.update c.timerOverflowCount timer count }) := by
  refine { within with overflow := fun t other => ?_ }
  have elsewhere : t ≠ timer := by
    rintro rfl
    exact other permitted
  exact (Function.update_of_ne elsewhere _ _).trans (within.overflow t other)

/-- Pins, schedule, clock, caches and the classic state are in every scope. -/
theorem free {k : Machine ω} (host : k.host = n.host)
    (cpu : k.cpu = { n.cpu with
      pins := k.cpu.pins
      schedule := k.cpu.schedule
      machineCycleCount := k.cpu.machineCycleCount
      classic := k.cpu.classic
      irqPending := k.cpu.irqPending
      irqEnabled := k.cpu.irqEnabled }) : Within journal scope m k where
  -- Each part of the frame, read where the free fields are none of it.
  rest := by
    rw [cpu]
    exact within.rest
  sfr := fun i outside => by
    rw [cpu]
    exact within.sfr i outside
  uart := fun closed => by
    rw [cpu]
    exact within.uart closed
  adc := fun closed => by
    rw [cpu]
    exact within.adc closed
  overflow := fun t other => by
    rw [cpu]
    exact within.overflow t other
  records := by
    rw [host]
    exact within.records

/-! ### Pins -/

/-- Remembering a request made by a level keeps within a scope that allows for it. -/
theorem setLevelAsserted (bit : Byte) (asserted : Bool) :
    Within journal scope m (n.setLevelAsserted bit asserted) := within.free rfl rfl

/-- Remembering a sampled level keeps within a scope that allows for it. -/
theorem setSampled (bit : Byte) (level : Bool) :
    Within journal scope m (n.setSampled bit level) := within.free rfl rfl

/-- Maintaining the requests of levels keeps within a scope that allows for it. -/
theorem maintainLevelRequests (tcon : Reg.tcon ∈ scope.regs) :
    Within journal scope m (maintainLevelRequests hooks n) := by
  -- Both level inputs request through TCON.
  simp only [Emu80535.maintainLevelRequests]
  refine ite (foldl _ (fun k source before => ?_) within) within
  simp only [maintainLevelRequest]
  refine ite (before.setLevelAsserted _ _) (ite ?_ (ite ?_ before))
  · exact (before.irqWrite _ _ tcon).setLevelAsserted _ _
  · exact (before.clearFlags _ tcon).setLevelAsserted _ _

/-- Synchronising the request caches keeps within a scope that allows for it. -/
theorem irqSync (tcon : Reg.tcon ∈ scope.regs) : Within journal scope m (irqSync hooks n) :=
  (within.maintainLevelRequests tcon).free rfl rfl

/-- Noting what a trigger says of the level keeps within a scope that allows for it. -/
theorem noteLevel (source : ExternalSource) (trigger : ExternalTrigger)
    (tcon : Reg.tcon ∈ scope.regs) (ircon : Reg.ircon ∈ scope.regs) :
    Within journal scope m (noteLevel source trigger n) := by
  -- Only a release clears a flag, in the register of its input.
  cases trigger with
  | lowLevelAssert => exact within.setLevelAsserted _ _
  | levelRelease =>
    simp only [Emu80535.noteLevel]
    refine setLevelAsserted (ite ?_ within) _ _
    cases source <;> first | exact within.clearFlags _ tcon | exact within.clearFlags _ ircon
  | nonQualifying | fallingEdge | risingEdge => exact within

/-- A change at an external input keeps within a scope that allows for it. -/
theorem observeChange (source : ExternalSource) (old new : Bool)
    (tcon : Reg.tcon ∈ scope.regs) (ircon : Reg.ircon ∈ scope.regs)
    (permitted : ∀ cycle source old new trigger pending,
      scope.emits (.external cycle source old new trigger pending) = true) :
    Within journal scope m (observeChange hooks source old new n) := by
  -- The trigger decides the request; the synchronisation and the record follow.
  have noted := fun trigger => within.noteLevel source trigger tcon ircon
  simp only [Emu80535.observeChange]
  refine emit (irqSync (ite ?_ (noted _)) tcon) (permitted _ _ _ _ _ _)
  cases source <;>
    first | exact (noted _).irqWrite _ _ tcon | exact (noted _).irqWrite _ _ ircon

/-- Sampling a port keeps within a scope that allows for it. -/
theorem samplePort (port : SabPort) (tcon : Reg.tcon ∈ scope.regs)
    (ircon : Reg.ircon ∈ scope.regs)
    (permitted : ∀ cycle source old new trigger pending,
      scope.emits (.external cycle source old new trigger pending) = true) :
    Within journal scope m (samplePort hooks port n) := by
  simp only [Emu80535.samplePort]
  -- Each input of the port is compared with its sample, one after the other.
  refine ite (foldl _ (fun k source before => ?_) within) within
  simp only [sampleSource]
  refine ite (ite before ?_) before
  exact (before.setSampled _ _).observeChange _ _ _ tcon ircon permitted

/-- Driving pins anew keeps within a scope that allows for it. -/
theorem redrive (port : SabPort) (mask levels : Byte) (tcon : Reg.tcon ∈ scope.regs)
    (ircon : Reg.ircon ∈ scope.regs)
    (permitted : ∀ cycle source old new trigger pending,
      scope.emits (.external cycle source old new trigger pending) = true) :
    Within journal scope m (redrive hooks port mask levels n) := by
  rw [Emu80535.redrive]
  refine samplePort ?_ port tcon ircon permitted
  exact within.free rfl rfl

/-- Applying a scheduled event keeps within a scope that allows for it. -/
theorem applyEvent (event : ScheduleEvent) (tcon : Reg.tcon ∈ scope.regs)
    (ircon : Reg.ircon ∈ scope.regs)
    (permitted : ∀ cycle source old new trigger pending,
      scope.emits (.external cycle source old new trigger pending) = true) :
    Within journal scope m (applyEvent hooks event n).2 := by
  simp only [Emu80535.applyEvent, externalDrive, externalRelease, portDrive, portRelease]
  -- A port that does not exist and a release that changes nothing are passed over.
  split
  · split
    · exact within
    · split
      · exact within
      · exact within.redrive _ _ _ tcon ircon permitted
  · split
    · exact within
    · split
      · exact within
      · exact within.redrive _ _ _ tcon ircon permitted

/-- Applying the events of a cycle keeps within a scope that allows for it. -/
theorem applyScheduled (tcon : Reg.tcon ∈ scope.regs) (ircon : Reg.ircon ∈ scope.regs)
    (permitted : ∀ cycle source old new trigger pending,
      scope.emits (.external cycle source old new trigger pending) = true) :
    Within journal scope m (applyScheduled hooks n) := by
  -- The loop over due events is a loop over single drives.
  have due : ∀ (fuel : Nat) (k : Machine ω), Within journal scope m k →
      Within journal scope m (applyDue hooks fuel k) := by
    intro fuel
    induction fuel with
    | zero => exact fun _ before => before
    | succ fuel ih =>
      intro k before
      simp only [applyDue]
      refine ite (ite before (ih _ (applyEvent ?_ _ tcon ircon permitted))) before
      exact before.free rfl rfl
  simp only [Emu80535.applyScheduled]
  exact ite ((due _ n within).free rfl rfl) (due _ n within)

/-- Completing a machine cycle keeps within a scope that allows for it. -/
theorem completeMachineCycle (tcon : Reg.tcon ∈ scope.regs) (ircon : Reg.ircon ∈ scope.regs)
    (permitted : ∀ cycle source old new trigger pending,
      scope.emits (.external cycle source old new trigger pending) = true) :
    Within journal scope m (completeMachineCycle hooks n) := by
  simp only [Emu80535.completeMachineCycle]
  refine maintainLevelRequests (applyScheduled ?_ tcon ircon permitted) tcon
  exact within.free rfl rfl

/-! ### The serial port -/

section Serial

variable (uart : scope.uart = true) (scon : Reg.scon ∈ scope.regs) (sbuf : Reg.sbuf ∈ scope.regs)
  (permitted : ∀ event cycle pc data ninth index value,
    scope.emits (.uart event cycle pc data ninth index value) = true)

include uart permitted

/-- Starting a transmission keeps within a scope that allows for it. -/
theorem uartTxStart (cycle : Nat) : Within journal scope m (uartTxStart hooks cycle n) := by
  simp only [Emu80535.uartTxStart]
  exact ((within.mapUart _ uart).raw _).emit (permitted _ _ _ _ _ _ _)

/-- Ending a transmission keeps within a scope that allows for it. -/
theorem uartTxEnd (cycle : Nat) : Within journal scope m (uartTxEnd hooks cycle n) := by
  have reported : Within journal scope m ((n.raw hooks (.txEnd cycle)).emitUart hooks .txEnd cycle
      (n.raw hooks (.txEnd cycle)).cpu.uart.txData (n.raw hooks (.txEnd cycle)).cpu.uart.txNinth
      10 true) := (within.raw _).emit (permitted _ _ _ _ _ _ _)
  simp only [Emu80535.uartTxEnd]
  exact ite reported (ite ((reported.mapUart _ uart).uartTxStart uart permitted cycle)
    (reported.mapUart _ uart))

include scon

/-- Sending the stop bit keeps within a scope that allows for it. -/
theorem uartTxStop (cycle : Nat) : Within journal scope m (uartTxStop hooks cycle n) := by
  simp only [Emu80535.uartTxStop]
  refine emit (ite (raw ?_ _) ?_) (permitted _ _ _ _ _ _ _)
  all_goals exact ((within.mapUart _ uart).irqWrite _ _ scon).raw _

/-- A bit boundary of the transmitter keeps within a scope that allows for it. -/
theorem uartTxBoundary (cycle : Nat) : Within journal scope m (uartTxBoundary hooks cycle n) := by
  simp only [Emu80535.uartTxBoundary]
  refine ite (ite (within.uartTxStart uart permitted cycle) within) (ite ?_ (ite ?_ ?_))
  · exact (within.mapUart _ uart).emit (permitted _ _ _ _ _ _ _)
  · exact within.uartTxStop uart scon permitted cycle
  · exact within.uartTxEnd uart permitted cycle

include sbuf

/-- A bit boundary of the receiver keeps within a scope that allows for it. -/
theorem uartRxBoundary (cycle : Nat) : Within journal scope m (uartRxBoundary hooks cycle n) := by
  simp only [Emu80535.uartRxBoundary, uartRxAccept, uartRxDrop]
  have moved := within.mapUart (fun u => { u with rxBitIndex := u.rxBitIndex + 1 }) uart
  refine ite (ite (emit (raw (irqWrite (ite (setSfr ?_ _ scon) ?_) _ _ scon) _)
    (permitted _ _ _ _ _ _ _)) (emit (raw moved _) (permitted _ _ _ _ _ _ _)))
    (ite (emit (raw (mapUart moved _ uart) _) (permitted _ _ _ _ _ _ _)) moved)
  all_goals exact ((moved.mapUart _ uart).setSfr _ sbuf).setSfr _ scon

/-- Clocking the serial port keeps within a scope that allows for it. -/
theorem uartTimer1Overflow : Within journal scope m (uartTimer1Overflow hooks n) := by
  -- The transmitter is clocked first, and after it the receiver where it runs.
  have sent : ∀ smod cycle, Within journal scope m (uartClockTx hooks smod cycle n) := by
    intro smod cycle
    simp only [uartClockTx]
    exact ite ((within.mapUart _ uart).uartTxBoundary uart scon permitted cycle)
      (within.mapUart _ uart)
  simp only [Emu80535.uartTimer1Overflow, uartClockRx]
  refine ite (ite (sent _ _) (ite (ite ?_ ?_) (sent _ _))) within
  · exact ((sent _ _).mapUart _ uart).uartRxBoundary uart scon sbuf permitted _
  · exact (sent _ _).mapUart _ uart

end Serial

/-! ### Timers and the converter -/

/-- Raising a flag of TCON keeps within a scope that allows for it. -/
theorem raiseTcon (mask : Byte) (tcon : Reg.tcon ∈ scope.regs) :
    Within journal scope m (n.raiseTcon hooks mask) := within.irqWrite _ _ tcon

/-- Counting a register up keeps within a scope that allows for it. -/
theorem incSfr {index : SfrIndex} (permitted : index ∈ scope.regs) :
    Within journal scope m (n.incSfr index) := within.setSfr _ permitted

/-- Counting the low five bits of a register up keeps within a scope that allows for it. -/
theorem incSfrLow5 {index : SfrIndex} (permitted : index ∈ scope.regs) :
    Within journal scope m (n.incSfrLow5 index) := within.setSfr _ permitted

/-- A wrap of a timer other than the one that clocks the serial port. -/
theorem timerOverflowEmit {timer : TimerId} (other : timer ≠ .timer1)
    (counts : scope.overflow = some timer)
    (permitted : ∀ cycle tl th, scope.emits (.timerOverflow timer cycle tl th) = true) :
    Within journal scope m (timerOverflowEmit hooks timer n) := by
  simp only [Emu80535.timerOverflowEmit, other, false_and, if_false]
  exact ite (within.count _ counts) ((within.count _ counts).emit (permitted _ _ _))

/-- Raising the flag of Timer 1 keeps within a scope that allows for it. -/
theorem raiseTf1 (tcon : Reg.tcon ∈ scope.regs) : Within journal scope m (raiseTf1 hooks n) := by
  simp only [Emu80535.raiseTf1]
  exact ite within (within.raiseTcon _ tcon)

/-- A change of the classic state keeps within a scope that allows for it. -/
theorem mapClassic (f : Cpu → ClassicState) : Within journal scope m (n.mapClassic f) :=
  within.free rfl rfl

/-- The serial shortcut of the classic variants works on P3, SCON and TCON. -/
theorem classicSerial (tcon : Reg.tcon ∈ scope.regs) (scon : Reg.scon ∈ scope.regs)
    (p3 : Reg.p3 ∈ scope.regs) : Within journal scope m (classicSerial n) := by
  simp only [Emu80535.classicSerial, serialTx, serialSent]
  refine ite (clearFlags (ite within (ite ?_ ?_)) _ tcon) within
  · exact ((((within.mapClassic _).setSfr _ p3).mapClassic _).setSfr _ scon).mapClassic _
  · exact (within.mapClassic _).setSfr _ p3

end Rules

/-! ### Whole peripherals -/

section Peripherals

variable (journal) (m)

/-- A cycle of both halves of Timer 0 keeps within a scope that allows for it. -/
theorem timer0Ticks :
    Within journal timer0Scope m (timer0Tick hooks (timer0SplitTick hooks m)) := by
  -- In mode 3 the two halves run apart, and otherwise there is no split half.
  have split : Within journal timer0Scope m (timer0SplitTick hooks m) := by
    have still : Within journal timer0Scope m m := refl m
    have low : Within journal timer0Scope m (if m.cpu.timer0Runs then
        if m.cpu.sfr Reg.tl0 = 0xFF#8 then (m.incSfr Reg.tl0).raiseTcon hooks Tcon.tf0
        else m.incSfr Reg.tl0 else m) :=
      ite (ite ((still.incSfr (by decide)).raiseTcon _ (by decide)) (still.incSfr (by decide))) still
    simp only [timer0SplitTick]
    exact ite (ite (ite ((low.incSfr (by decide)).raiseTcon _ (by decide))
      (low.incSfr (by decide))) low) still
  generalize timer0SplitTick hooks m = n at split
  simp only [timer0Tick]
  -- One branch for each mode and each wrap, in the order of the source.
  refine ite (ite (ite (ite ?_ ?_) ?_) (ite (ite (ite ?_ ?_) ?_) (ite (ite ?_ ?_) split))) split
  · exact ((split.incSfrLow5 (by decide)).incSfr (by decide)).raiseTcon _ (by decide)
  · exact (split.incSfrLow5 (by decide)).incSfr (by decide)
  · exact split.incSfrLow5 (by decide)
  · refine timerOverflowEmit ?_ (by decide) rfl (fun _ _ _ => rfl)
    exact ((split.incSfr (by decide)).incSfr (by decide)).raiseTcon _ (by decide)
  · exact (split.incSfr (by decide)).incSfr (by decide)
  · exact split.incSfr (by decide)
  · exact ((split.incSfr (by decide)).setSfr _ (by decide)).raiseTcon _ (by decide)
  · exact split.incSfr (by decide)

/-- A cycle of Timer 2 keeps within a scope that allows for it. -/
theorem timer2Ticks : Within journal timer2Scope m (timer2Tick hooks m) := by
  have still : Within journal timer2Scope m m := refl m
  simp only [timer2Tick]
  refine ite (ite (ite ?_ (irqSync ?_ (by decide))) ?_) still
  · refine timerOverflowEmit ?_ (by decide) rfl (fun _ _ _ => rfl)
    exact ((still.setSfr _ (by decide)).setSfr _ (by decide)).irqWrite _ _ (by decide)
  · refine timerOverflowEmit ?_ (by decide) rfl (fun _ _ _ => rfl)
    exact ((still.setSfr _ (by decide)).setSfr _ (by decide)).irqWrite _ _ (by decide)
  · exact (still.setSfr _ (by decide)).setSfr _ (by decide)

/-- A cycle of the converter keeps within a scope that allows for it. -/
theorem adcTicks : Within journal adcScope m (adcTick hooks m) := by
  have still : Within journal adcScope m m := refl m
  have busy : ∀ (k : Machine ω) (b : Bool), Within journal adcScope m k →
      Within journal adcScope m (k.setBusy b) :=
    fun k b before => (before.mapAdc _ rfl).setSfr _ (by decide)
  simp only [adcTick, adcLatch, adcComplete]
  -- The early returns first, then the start of a conversion, a running step and the result.
  refine ite still (ite ?_ (ite still (ite (still.mapAdc _ rfl) ?_)))
  · exact ((busy _ true (still.mapAdc _ rfl)).emit rfl).mapAdc _ rfl
  · refine emit (irqSync (irqWrite (busy _ false (mapAdc (ite (setSfr ?_ _ (by decide)) ?_) _ rfl))
      _ _ (by decide)) (by decide)) rfl
    all_goals exact still.mapAdc _ rfl

/-- Completing a machine cycle keeps within a scope that allows for it. -/
theorem cycleCompletes : Within journal pinScope m (Emu80535.completeMachineCycle hooks m) :=
  (refl m).completeMachineCycle (by decide) (by decide) (fun _ _ _ _ _ _ => rfl)

end Peripherals

end Within

end Emu80535
