import Emu80535.Proofs.Latch

/-! The two counters of the core: which operations move them, and by how much. -/

namespace Emu80535

variable {ω : Type} {hooks : Hooks ω} {m n : Machine ω}

open Machine

/-! ### The schedule and the cycle counter -/

/-- The ring and the cycle counter, which together decide what is due. -/
def Cpu.timetable (c : Cpu) : Schedule × Nat := (c.schedule, c.machineCycleCount)

/-- The timetable is a part of what is fixed. -/
theorem timetable_of_fixed {a b : Cpu} (same : a.fixed = b.fixed) : a.timetable = b.timetable := by
  have ring : a.schedule = b.schedule := congrArg Fixed.schedule same
  have clock : a.machineCycleCount = b.machineCycleCount := congrArg Fixed.machineCycleCount same
  simp only [Cpu.timetable, ring, clock]

/-- Driving pins touches neither. -/
theorem redrive_timetable (port : SabPort) (mask levels : Byte) :
    (redrive hooks port mask levels m).cpu.timetable = m.cpu.timetable := by
  have same := timetable_of_fixed (Stable.fixed_eq (samplePort_stable hooks (m.mapCpu fun c =>
    { c with pins := { c.pins with
        mask := Function.update c.pins.mask port mask
        levels := Function.update c.pins.levels port levels } }) port))
  exact same

/-- A port drive leaves the timetable alone. -/
theorem portDrive_timetable (index : SfrIndex) (mask levels : Byte) :
    (portDrive hooks index mask levels m).2.cpu.timetable = m.cpu.timetable := by
  simp only [portDrive]
  split
  · rfl
  · exact redrive_timetable _ _ _

/-- So does a release. -/
theorem portRelease_timetable (index : SfrIndex) (mask : Byte) :
    (portRelease hooks index mask m).2.cpu.timetable = m.cpu.timetable := by
  simp only [portRelease]
  split
  · rfl
  · exact redrive_timetable _ _ _

/-- So does the drive of a pin. -/
theorem externalDrive_timetable (source : Nat) (level : Bool) :
    (externalDrive hooks source level m).2.cpu.timetable = m.cpu.timetable := by
  simp only [externalDrive]
  split
  · rfl
  · exact portDrive_timetable _ _ _

/-- And its release. -/
theorem externalRelease_timetable (source : Nat) :
    (externalRelease hooks source m).2.cpu.timetable = m.cpu.timetable := by
  simp only [externalRelease]
  split
  · rfl
  · exact portRelease_timetable _ _

/-- So does applying an event. -/
theorem applyEvent_timetable (event : ScheduleEvent) :
    (applyEvent hooks event m).2.cpu.timetable = m.cpu.timetable := by
  simp only [applyEvent]
  split
  · exact externalDrive_timetable _ _
  · exact externalRelease_timetable _

/-- The loop over due events stops the clock. -/
theorem applyDue_clock (fuel : Nat) (m : Machine ω) :
    (applyDue hooks fuel m).cpu.machineCycleCount = m.cpu.machineCycleCount := by
  -- The induction is on the entries still queued, each of which only drives a pin.
  induction fuel generalizing m with
  | zero => rfl
  | succ fuel ih =>
    simp only [applyDue]
    split
    · split
      · rfl
      · rw [ih]
        exact congrArg Prod.snd (applyEvent_timetable _)
    · rfl

/-- Applying what is due moves no clock. -/
theorem applyScheduled_clock (m : Machine ω) :
    (applyScheduled hooks m).cpu.machineCycleCount = m.cpu.machineCycleCount := by
  simp only [applyScheduled]
  split
  · exact applyDue_clock _ m
  · exact applyDue_clock _ m

/-- Completing a machine cycle moves the clock by one. -/
theorem completeMachineCycle_clock (m : Machine ω) :
    (completeMachineCycle hooks m).cpu.machineCycleCount = m.cpu.machineCycleCount + 1 := by
  simp only [completeMachineCycle]
  have settled := congrArg Fixed.machineCycleCount (Stable.fixed_eq
    (maintainLevelRequests_stable hooks (applyScheduled hooks
      (m.mapCpu fun c => { c with machineCycleCount := c.machineCycleCount + 1 }))))
  exact settled.trans (applyScheduled_clock _)

/-- A machine cycle moves the clock by one, unless it was aborted before it completed. -/
theorem advanceMachineCycle_clock (m : Machine ω) :
    (advanceMachineCycle hooks m).cpu.machineCycleCount = m.cpu.machineCycleCount + 1 ∨
      (advanceMachineCycle hooks m).cpu.machineCycleCount = m.cpu.machineCycleCount ∧
        (m.aborted hooks = true ∨ (advancePeripherals hooks m).aborted hooks = true) := by
  -- The peripherals do not move the clock.
  have still := congrArg Fixed.machineCycleCount
    (Stable.fixed_eq (advancePeripherals_stable hooks m))
  simp only [advanceMachineCycle]
  split
  · rename_i aborted
    exact Or.inr ⟨rfl, Or.inl aborted⟩
  · -- The cycle is completed, or stopped between its two halves.
    split
    · rename_i cut
      exact Or.inr ⟨still, Or.inr cut⟩
    · left
      rw [completeMachineCycle_clock]
      exact congrArg (· + 1) still

/-! ### Whole cycles -/

/-- The machine on which Timer 1 is ticked in a machine cycle. -/
def timer0Done (hooks : Hooks ω) (m : Machine ω) : Machine ω :=
  timer0Tick hooks (timer0SplitTick hooks
    (m.raw hooks (.cycleBegin (m.cpu.machineCycleCount + 1))))

/-- A machine cycle that ends unaborted has run all its parts. -/
structure WholeCycle (hooks : Hooks ω) (m : Machine ω) : Prop where
  started : m.aborted hooks = false
  timer0 : (timer0Done hooks m).aborted hooks = false
  timer1 : (timer1Tick hooks (timer0Done hooks m)).aborted hooks = false
  timer2 : (timer2Tick hooks (timer1Tick hooks (timer0Done hooks m))).aborted hooks = false
  adc : (adcTick hooks (timer2Tick hooks (timer1Tick hooks (timer0Done hooks m)))).aborted hooks =
    false
  ends : advanceMachineCycle hooks m = completeMachineCycle hooks
    (adcTick hooks (timer2Tick hooks (timer1Tick hooks (timer0Done hooks m))))

/-- A cycle without an abort in its result was completed. -/
theorem advanceMachineCycle_whole (kept : (advanceMachineCycle hooks m).aborted hooks = false) :
    WholeCycle hooks m := by
  -- Each abort test that had stopped the cycle would show in its result.
  have contra : ∀ {x : Machine ω}, x.aborted hooks = true → x.aborted hooks = false → False :=
    fun cut kept => Bool.false_ne_true (kept.symm.trans cut)
  have shape : advancePeripherals hooks m =
      if (timerTick hooks (m.raw hooks (.cycleBegin (m.cpu.machineCycleCount + 1)))).aborted hooks
      then timerTick hooks (m.raw hooks (.cycleBegin (m.cpu.machineCycleCount + 1)))
      else if (timer2Tick hooks (timerTick hooks
          (m.raw hooks (.cycleBegin (m.cpu.machineCycleCount + 1))))).aborted hooks
        then timer2Tick hooks (timerTick hooks
          (m.raw hooks (.cycleBegin (m.cpu.machineCycleCount + 1))))
        else adcTick hooks (timer2Tick hooks (timerTick hooks
          (m.raw hooks (.cycleBegin (m.cpu.machineCycleCount + 1))))) := rfl
  have timers : timerTick hooks (m.raw hooks (.cycleBegin (m.cpu.machineCycleCount + 1))) =
      if (timer0Done hooks m).aborted hooks then timer0Done hooks m
      else timer1Tick hooks (timer0Done hooks m) := rfl
  simp only [advanceMachineCycle] at kept ⊢
  cases started : m.aborted hooks with
  | true =>
    rw [if_pos started] at kept
    exact (contra started kept).elim
  | false =>
    rw [if_neg (ne_true_of_eq_false started)] at kept
    cases cut : (advancePeripherals hooks m).aborted hooks with
    | true =>
      rw [if_pos cut] at kept
      exact (contra cut kept).elim
    | false =>
      rw [shape] at cut
      cases zero : (timer0Done hooks m).aborted hooks with
      | true =>
        rw [timers, if_pos zero, if_pos zero] at cut
        exact (contra zero cut).elim
      | false =>
        rw [timers, if_neg (ne_true_of_eq_false zero)] at cut
        cases one : (timer1Tick hooks (timer0Done hooks m)).aborted hooks with
        | true =>
          rw [if_pos one] at cut
          exact (contra one cut).elim
        | false =>
          rw [if_neg (ne_true_of_eq_false one)] at cut
          cases two : (timer2Tick hooks (timer1Tick hooks (timer0Done hooks m))).aborted hooks with
          | true =>
            rw [if_pos two] at cut
            exact (contra two cut).elim
          | false =>
            rw [if_neg (ne_true_of_eq_false two)] at cut
            refine ⟨started, zero, one, two, cut, ?_⟩
            have whole : advancePeripherals hooks m =
                adcTick hooks (timer2Tick hooks (timer1Tick hooks (timer0Done hooks m))) := by
              rw [shape, timers, if_neg (ne_true_of_eq_false zero),
                if_neg (ne_true_of_eq_false one), if_neg (ne_true_of_eq_false two)]
            rw [advanceMachineCycle, if_neg (ne_true_of_eq_false started), whole,
              if_neg (ne_true_of_eq_false cut)]

/-! ### Instructions -/

/-- A property of the CPU that changes and callbacks keep is kept by every sequence of steps. -/
theorem Steps.keeps {allowed : Cpu → Cpu → Prop} {I : Cpu → Prop}
    (change : ∀ a b, allowed a b → I a → I b)
    (write : ∀ index callback, hooks.sfrwrite index = some callback → ∀ m : Machine ω,
      I m.cpu → I (callback m).cpu)
    (steps : Steps hooks allowed m n) (before : I m.cpu) : I n.cpu := by
  -- Every other callback sees the CPU without changing it.
  induction steps with
  | refl => exact before
  | change c _ _ permitted ih => exact change _ _ permitted ih
  | except _ _ ih | sfrread _ _ ih | xread _ _ _ ih | xwrite _ _ _ _ ih | emit _ _ ih
  | fact _ _ ih => exact ih
  | sfrwrite _ installed ih => exact write _ _ installed _ ih

/-- Both counters of the core. -/
def Cpu.counters (c : Cpu) : Nat × Nat := (c.instructionCount, c.machineCycleCount)

/-- The counters are a part of what is fixed. -/
theorem counters_of_fixed {a b : Cpu} (same : a.fixed = b.fixed) : a.counters = b.counters := by
  have instructions : a.instructionCount = b.instructionCount :=
    congrArg Fixed.instructionCount same
  have cycles : a.machineCycleCount = b.machineCycleCount := congrArg Fixed.machineCycleCount same
  simp only [Cpu.counters, instructions, cycles]

/-- An opcode body moves neither counter. -/
theorem Op.run_counters {α : Type} (unticking : hooks.Unticking) (p : Op α) (m : Machine ω) :
    (p.run hooks m).2.cpu.counters = m.cpu.counters := by
  have steps : Steps hooks SameFixed m (p.run hooks m).2 := (Steps.refl m).run p
  refine steps.keeps (I := fun c => c.counters = m.cpu.counters) (fun a b same before => ?_)
    (fun index callback installed k before => ?_) rfl
  · -- A step of the fixed part and a callback leave both counters alone.
    exact (counters_of_fixed same).trans before
  · have instructions := unticking.instructions index callback installed k
    have cycles := unticking.cycles index callback installed k
    rw [← before]
    simp only [Cpu.counters, instructions, cycles]

/-- What the counters do in a tick: an executed instruction is counted, and a cycle at most. -/
structure Ticked (done : Bool) (before after : Cpu) : Prop where
  instructions : after.instructionCount = before.instructionCount + done.toNat
  cycles : after.machineCycleCount = before.machineCycleCount ∨
    after.machineCycleCount = before.machineCycleCount + 1

/-- A machine cycle at the end of a tick moves only the clock. -/
theorem Ticked.of_advance {done : Bool} {before : Cpu} {k : Machine ω}
    (instructions : k.cpu.instructionCount = before.instructionCount + done.toNat)
    (cycles : k.cpu.machineCycleCount = before.machineCycleCount) :
    Ticked done before (advanceMachineCycle hooks k).cpu where
  instructions :=
    (congrArg (fun s : Stable => s.fixed.instructionCount)
      (advanceMachineCycle_steady hooks k)).trans instructions
  -- The clock moves by the one cycle, or not at all.
  cycles := by
    rcases @advanceMachineCycle_clock ω hooks k with moved | ⟨still, -⟩
    · right
      rw [moved, cycles]
    · left
      rw [still, cycles]

/-- Every tick counts exactly the instruction it executed, and one machine cycle at most. -/
theorem tick_ticked (unticking : hooks.Unticking) (m : Machine ω) :
    Ticked (tick hooks m).1 m.cpu (tick hooks m).2.cpu := by
  -- Up to the machine cycle at the end of the tick, no part of it moves the clock.
  obtain ⟨delay, fixed⟩ := handleInterrupts_fixed hooks m
  have handled : (handleInterrupts hooks m).2.cpu.counters = m.cpu.counters := by
    simp only [Cpu.counters, Prod.mk.injEq]
    exact ⟨congrArg Fixed.instructionCount fixed, congrArg Fixed.machineCycleCount fixed⟩
  have begun : (opcodeStart hooks m).cpu.counters = m.cpu.counters := by
    rw [opcodeStart, beginInstruction_cpu]
    exact handled
  have ran : (opcodeDone hooks m).cpu.counters = m.cpu.counters := by
    rw [opcodeDone, runInstruction_cpu]
    exact (Op.run_counters unticking _ _).trans begun
  have still : ∀ k : Machine ω, k.cpu.counters = m.cpu.counters →
      Ticked false m.cpu k.cpu :=
    fun k same => ⟨congrArg Prod.fst same, Or.inl (congrArg Prod.snd same)⟩
  have advanced : ∀ k : Machine ω, k.cpu.counters = m.cpu.counters →
      Ticked false m.cpu (advanceMachineCycle hooks k).cpu :=
    fun k same => Ticked.of_advance (congrArg Prod.fst same) (congrArg Prod.snd same)
  have shape := tick_cases hooks m
  generalize tick hooks m = answer at shape
  cases shape with
  | stopped _ => exact still m rfl
  | pending _ _ => exact advanced (m.mapCpu _) rfl
  | failed _ _ | entered _ _ _ _ => exact advanced _ handled
  | cut _ _ _ => exact still _ handled
  | idle _ _ _ _ _ => exact advanced (updateParity _) handled
  | unbegun _ _ _ => exact still (mapCpu _ _) begun
  | interrupted _ _ => exact still _ ran
  | completed _ _ =>
    have count : (opcodeDone hooks m).cpu.instructionCount = m.cpu.instructionCount :=
      congrArg Prod.fst ran
    exact Ticked.of_advance (congrArg (· + 1) count) (congrArg Prod.snd ran)

end Emu80535
