import Emu80535.Proofs.FailedEntry

/-! Bounded runs return: what each of their ticks uses up, and what holds where they stop. -/

namespace Emu80535

variable {ω : Type} {hooks : Hooks ω} {m : Machine ω}

open Machine

/-! ### The classic levels under peripherals -/

/-- A machine of a classic variant with given interrupt levels in service. -/
structure Levelled (active : Byte) (n : Machine ω) : Prop where
  other : n.cpu.variant ≠ .sab80535
  active : n.cpu.classic.interruptActive = active

namespace Levelled

variable {active : Byte} {n : Machine ω}

/-- A branch of two such machines is one of them. -/
theorem ite {p : Prop} [Decidable p] {x y : Machine ω} (yes : Levelled active x)
    (no : Levelled active y) : Levelled active (if p then x else y) := by
  split
  · exact yes
  · exact no

variable (held : Levelled active n)

include held

/-- Reporting a raw fact keeps variant and levels. -/
theorem raw (fact : RawFact) : Levelled active (n.raw hooks fact) where
  other := by rw [raw_cpu]; exact held.other
  active := by rw [raw_cpu]; exact held.active

/-- Handing out a record keeps them. -/
theorem emit (record : Record) : Levelled active (n.emit hooks record) :=
  ⟨held.other, held.active⟩

/-- A store of a register keeps them. -/
theorem setSfr (index : SfrIndex) (value : Byte) : Levelled active (n.setSfr index value) :=
  ⟨held.other, held.active⟩

/-- Counting a register up keeps them. -/
theorem incSfr (index : SfrIndex) : Levelled active (n.incSfr index) := held.setSfr _ _

/-- Counting the low five bits of a register up keeps them. -/
theorem incSfrLow5 (index : SfrIndex) : Levelled active (n.incSfrLow5 index) := held.setSfr _ _

/-- Raising a flag of TCON keeps them. -/
theorem raiseTcon (mask : Byte) : Levelled active (n.raiseTcon hooks mask) := by
  have same : n.raiseTcon hooks mask = n.setSfr Reg.tcon (n.cpu.sfr Reg.tcon ||| mask) :=
    if_neg held.other
  rw [same]
  exact held.setSfr _ _

/-- Reporting an overflow keeps them. -/
theorem timerOverflowEmit (timer : TimerId) :
    Levelled active (timerOverflowEmit hooks timer n) := by
  -- Only the Siemens CPU clocks its serial port with the overflow.
  have counted : Levelled active (n.mapCpu fun c =>
      { c with timerOverflowCount :=
          Function.update c.timerOverflowCount timer (c.timerOverflowCount timer + 1) }) :=
    ⟨held.other, held.active⟩
  simp only [Emu80535.timerOverflowEmit]
  refine ite ?_ (emit ?_ _)
  all_goals
    split
    · rename_i both
      exact absurd both.2 held.other
    · exact counted

/-- A cycle of the upper half of a split Timer 0 keeps them. -/
theorem timer0SplitTick : Levelled active (timer0SplitTick hooks n) := by
  simp only [Emu80535.timer0SplitTick]
  refine ite (ite (ite (raiseTcon (incSfr ?_ _) _) (incSfr ?_ _)) ?_) held
  all_goals exact ite (ite ((held.incSfr _).raiseTcon _) (held.incSfr _)) held

/-- A cycle of Timer 0 keeps them, in each of its modes. -/
theorem timer0Tick : Levelled active (timer0Tick hooks n) := by
  -- The branches are the three modes, each with its carries.
  simp only [Emu80535.timer0Tick]
  refine ite (ite (ite (ite ?_ ?_) ?_) (ite (ite (ite ?_ ?_) ?_) (ite (ite ?_ ?_) held))) held
  · exact ((held.incSfrLow5 _).incSfr _).raiseTcon _
  · exact (held.incSfrLow5 _).incSfr _
  · exact held.incSfrLow5 _
  · exact (((held.incSfr _).incSfr _).raiseTcon _).timerOverflowEmit _
  · exact (held.incSfr _).incSfr _
  · exact held.incSfr _
  · exact ((held.incSfr _).setSfr _ _).raiseTcon _
  · exact held.incSfr _

/-- Raising the flag of Timer 1 keeps them. -/
theorem raiseTf1 : Levelled active (raiseTf1 hooks n) := by
  simp only [Emu80535.raiseTf1]
  exact ite held (held.raiseTcon _)

/-- Counting Timer 1 keeps them, in each of its modes. -/
theorem timer1Count : Levelled active (timer1Count hooks n) := by
  -- The branches are the three modes, each with its carries.
  simp only [Emu80535.timer1Count]
  refine ite (ite (ite ?_ ?_) ?_) (ite (ite (ite ?_ ?_) ?_) (ite (ite (ite ?_ ?_) ?_) held))
  · exact ((held.incSfrLow5 _).incSfr _).raiseTf1
  · exact (held.incSfrLow5 _).incSfr _
  · exact held.incSfrLow5 _
  · exact ((held.incSfr _).incSfr _).raiseTf1
  · exact (held.incSfr _).incSfr _
  · exact held.incSfr _
  · exact (held.incSfr _).setSfr _ _
  · exact (((held.incSfr _).setSfr _ _).raiseTcon _).timerOverflowEmit _
  · exact held.incSfr _

/-- Clearing flags keeps them. -/
theorem clearFlags (index : SfrIndex) (mask : Byte) : Levelled active (n.clearFlags index mask) :=
  ⟨held.other, held.active⟩

/-- A change of the serial buffer leaves the levels alone. -/
theorem mapClassic (change : Cpu → ClassicState)
    (kept : (change n.cpu).interruptActive = n.cpu.classic.interruptActive) :
    Levelled active (n.mapClassic change) where
  other := held.other
  active := kept.trans held.active

/-- The end of the classic serial shortcut keeps them. -/
theorem serialSent : Levelled active (serialSent n) := by
  refine mapClassic (setSfr (mapClassic held _ ?_) _ _) _ ?_
  · rfl
  · rfl

/-- A bit of the classic serial shortcut keeps them. -/
theorem serialTx : Levelled active (serialTx n) := by
  simp only [Emu80535.serialTx]
  have shifted := (held.mapClassic (fun c =>
    { c.classic with serialOutRemainingBits := n.cpu.classic.serialOutRemainingBits - 1 })
    rfl).setSfr Reg.p3
  exact ite held (ite (shifted _).serialSent (shifted _))

/-- The serial shortcut owns its buffer and its trigger, not the levels. -/
theorem classicSerial : Levelled active (classicSerial n) := by
  simp only [Emu80535.classicSerial]
  exact ite (held.serialTx.clearFlags _ _) held

/-- A cycle of Timers 0 and 1 keeps them. -/
theorem timerTick : Levelled active (timerTick hooks n) := by
  simp only [Emu80535.timerTick, timer1Tick]
  refine ite ?_ (ite (classicSerial (timer1Count ?_)) ?_)
  all_goals exact held.timer0SplitTick.timer0Tick

/-- Neither Timer 2 nor the converter runs on a classic variant. -/
theorem advancePeripherals : Levelled active (advancePeripherals hooks n) := by
  -- Timer 2 and the converter belong to the Siemens CPU alone.
  have ticked := @Levelled.timerTick _ hooks _ _
    (@Levelled.raw _ hooks _ _ held (.cycleBegin (n.cpu.machineCycleCount + 1)))
  have timer2 : ∀ k : Machine ω, Levelled active k → timer2Tick hooks k = k :=
    fun k same => if_neg fun both => same.other both.1
  have adc : ∀ k : Machine ω, Levelled active k → adcTick hooks k = k :=
    fun k same => if_pos (Or.inl same.other)
  simp only [Emu80535.advancePeripherals]
  rw [timer2 _ ticked, adc _ ticked]
  exact ite ticked (ite ticked ticked)

/-- Nor does a pin move there. -/
theorem completeMachineCycle : Levelled active (completeMachineCycle hooks n) := by
  -- The schedule belongs to the Siemens CPU, so nothing is ever due here.
  have due : ∀ (fuel : Nat) (k : Machine ω), Levelled active k → applyDue hooks fuel k = k := by
    intro fuel k same
    cases fuel with
    | zero => rfl
    | succ fuel => exact if_neg fun both => same.other both.1
  have counted : Levelled active
      (n.mapCpu fun c => { c with machineCycleCount := c.machineCycleCount + 1 }) :=
    ⟨held.other, held.active⟩
  have applied : Levelled active (applyScheduled hooks
      (n.mapCpu fun c => { c with machineCycleCount := c.machineCycleCount + 1 })) := by
    simp only [applyScheduled]
    rw [due _ _ counted]
    exact ite ⟨counted.other, counted.active⟩ counted
  simp only [Emu80535.completeMachineCycle, maintainLevelRequests]
  rw [if_neg applied.other]
  exact applied

/-- A whole machine cycle keeps them. -/
theorem advanceMachineCycle : Levelled active (advanceMachineCycle hooks n) := by
  simp only [Emu80535.advanceMachineCycle]
  have run := @Levelled.advancePeripherals _ hooks _ _ held
  exact ite held (ite run run.completeMachineCycle)

end Levelled

/-! ### What a tick uses up -/

/-- The interrupt levels still free: an entry takes one, and only a return gives one back. -/
def Cpu.freeLevels (c : Cpu) : Nat :=
  if c.variant = .sab80535 then 4 - c.service.depth
  else if c.classic.interruptActive = 0#8 then 2
  else if c.classic.interruptActive = 1#8 then 1 else 0

/-- The Siemens controller has four levels, the classic one two. -/
theorem freeLevels_le (c : Cpu) : c.freeLevels ≤ if c.variant = .sab80535 then 4 else 2 := by
  simp only [Cpu.freeLevels]
  split
  · exact Nat.sub_le _ _
  · split
    · exact Nat.le_refl _
    · split <;> decide

/-- An observer that refuses an entry has aborted the CPU. -/
def Hooks.RefusesByAborting (hooks : Hooks ω) : Prop :=
  ∀ c cycle h, (hooks.fact c (.contextPreflight cycle) h).1 = 0 →
    hooks.aborted (hooks.fact c (.contextPreflight cycle) h).2 = true

/-- A register write callback attaches and detaches no observation. -/
def Hooks.KeepsObserver (hooks : Hooks ω) : Prop :=
  ∀ index callback, hooks.sfrwrite index = some callback → ∀ m : Machine ω,
    (callback m).cpu.observed = m.cpu.observed

/-- If anybody observes the CPU, an entry is only refused by aborting it. -/
def Machine.Attended (hooks : Hooks ω) (m : Machine ω) : Prop :=
  m.cpu.observed = true → hooks.RefusesByAborting

/-- A tick attaches and detaches no observation. -/
theorem tick_observed (keeps : hooks.KeepsObserver) (m : Machine ω) :
    (tick hooks m).2.cpu.observed = m.cpu.observed := by
  -- Only a register write callback could attach an observation.
  refine tick_keeps (I := fun c => c.observed = m.cpu.observed) (fun _ before => before)
    (fun n before => ?_) (fun n before => ?_) (fun _ before => before) (fun _ _ _ before => before)
    (fun _ _ before => before) (fun _ before => before) (fun opcode n before => ?_) m rfl
  · exact (congrArg (fun s : Stable => s.fixed.observed)
      (advanceMachineCycle_steady hooks n)).trans before
  · obtain ⟨delay, fixed⟩ := handleInterrupts_fixed hooks n
    exact (congrArg Fixed.observed fixed).trans before
  · have steps : Steps hooks SameFixed n ((opTable opcode).run hooks n).2 :=
      (Steps.refl n).run (opTable opcode)
    refine steps.keeps (I := fun c => c.observed = m.cpu.observed) (fun a b same held => ?_)
      (fun index callback installed k held => ?_) before
    · exact (congrArg Fixed.observed same).trans held
    · exact (keeps index callback installed k).trans held

/-- A machine cycle takes no level. -/
theorem advanceMachineCycle_freeLevels (n : Machine ω) :
    (advanceMachineCycle hooks n).cpu.freeLevels = n.cpu.freeLevels := by
  -- The Siemens levels are the in-service stack, the classic ones a field no timer stores.
  have steady := advanceMachineCycle_steady hooks n
  have variant : (advanceMachineCycle hooks n).cpu.variant = n.cpu.variant :=
    congrArg (fun s : Stable => s.fixed.variant) steady
  have service : (advanceMachineCycle hooks n).cpu.service = n.cpu.service :=
    congrArg Stable.service steady
  simp only [Cpu.freeLevels, variant, service]
  split
  · rfl
  · rename_i other
    have held : Levelled n.cpu.classic.interruptActive n := ⟨other, rfl⟩
    rw [(@Levelled.advanceMachineCycle _ hooks _ _ held).active]

/-- Pushing a return address that fits takes no level. -/
theorem pushReturn_freeLevels (n : Machine ω) :
    (pushReturn hooks n).2.cpu.freeLevels = n.cpu.freeLevels ∧
      SameButStack n.cpu (pushReturn hooks n).2.cpu ∧
      (pushReturn hooks n).2.cpu.classic = n.cpu.classic := by
  -- Both pushes keep all but the stack.
  have low := @pushToStack_sameButStack ω hooks (n.cpu.pc.setWidth 8) n
  have lowClassic := @pushToStack_classic ω hooks (n.cpu.pc.setWidth 8) n
  have kept : SameButStack n.cpu (pushReturn hooks n).2.cpu ∧
      (pushReturn hooks n).2.cpu.classic = n.cpu.classic := by
    rw [pushReturn]
    generalize (pushToStack (n.cpu.pc.setWidth 8)).run hooks n = first at low lowClassic
    dsimp only
    split
    · exact ⟨SameButStack.trans _ _ _ low (pushToStack_sameButStack _ _),
        (pushToStack_classic _ _).trans lowClassic⟩
    · exact ⟨low, lowClassic⟩
  have variant : (pushReturn hooks n).2.cpu.variant = n.cpu.variant :=
    kept.1.variant
  refine ⟨?_, kept⟩
  simp only [Cpu.freeLevels, variant, kept.1.service, kept.2]

/-- A push of a return address that is refused has raised an exception. -/
theorem pushReturn_refused {n : Machine ω} (refused : (pushReturn hooks n).1 = false) :
    (pushReturn hooks n).2.cpu.exceptionRaised = true := by
  -- With room for both bytes neither push is refused.
  cases room : n.cpu.hasRoom with
  | false => exact congrArg Prod.fst (pushReturn_failed n room).2.latch
  | true =>
    simp only [Cpu.hasRoom, Bool.and_eq_true] at room
    have low := @pushToStack_run ω hooks (n.cpu.pc.setWidth 8) n room.1
    have high := (@pushToStack_fst ω hooks ((n.cpu.pc >>> 8).setWidth 8)
      (n.mapCpu fun c => c.push (n.cpu.pc.setWidth 8))).trans room.2
    simp only [pushReturn, low, if_true, mapCpu_cpu, push_pc] at refused
    exact absurd (high.symm.trans refused) (by decide)

/-- What handling interrupts can come to. -/
inductive Handled (hooks : Hooks ω) (m : Machine ω) : Bool × Machine ω → Prop
  /-- Nothing is entered, and no cycle becomes pending. -/
  | stays (n : Machine ω) (delay : n.cpu.tickDelay = m.cpu.tickDelay)
      (pcon : n.cpu.sfr Reg.pcon = m.cpu.sfr Reg.pcon) : Handled hooks m (true, n)
  /-- An entry takes a level and leaves a cycle pending. -/
  | enters (n : Machine ω) (delay : n.cpu.tickDelay = 1)
      (levels : n.cpu.freeLevels < m.cpu.freeLevels) : Handled hooks m (true, n)
  /-- An entry fails, which shows in the exception latch or in an abort. -/
  | fails (n : Machine ω) (ended : n.cpu.exceptionRaised = true ∨ n.aborted hooks = true) :
      Handled hooks m (false, n)

/-- What the commit of an entry does to the in-service stack. -/
theorem acceptInterrupt_levels (source : IrqSource) (priority : Nat) (returnPc : Word)
    (spBefore : Byte) (pending : Word) (n : Machine ω) :
    let e := acceptInterrupt hooks source priority returnPc spBefore pending n
    e.cpu.variant = n.cpu.variant ∧ e.cpu.tickDelay = 1 ∧
      e.cpu.service.depth = n.cpu.service.depth + 1 := by
  -- The commit as one change, read in the three places.
  have committed :=
    @acceptInterrupt_stable ω hooks source priority returnPc spBefore pending n
  exact ⟨congrArg (fun s : Stable => s.fixed.variant) committed,
    congrArg (fun s : Stable => s.fixed.tickDelay) committed,
    congrArg (fun s : Stable => s.service.depth) committed⟩

/-- The Siemens controller. -/
theorem handleSabInterrupts_handled (attended : m.Attended hooks)
    (sab : m.cpu.variant = .sab80535) : Handled hooks m (handleSabInterrupts hooks m) := by
  -- An entry is refused by the observer, fails in a push, or commits.
  have same := irqSync_stable hooks m
  have variant : (irqSync hooks m).cpu.variant = .sab80535 :=
    (congrArg (fun s : Stable => s.fixed.variant) same).trans sab
  have service : (irqSync hooks m).cpu.service = m.cpu.service := congrArg Stable.service same
  have stays : Handled hooks m (true, irqSync hooks m) :=
    .stays _ (congrArg (fun s : Stable => s.fixed.tickDelay) same)
      (Stable.sfr_eq_sab same sab rfl)
  rcases handleSabInterrupts_cases hooks m with ⟨idle, -⟩ | ⟨source, -, -, -, room, entry⟩
  · rw [idle]
    exact stays
  · rw [entry, enterInterrupt_eq]
    split
    · rename_i refused
      refine .fails _ (Or.inr ?_)
      simp only [Bool.and_eq_true, beq_iff_eq] at refused
      obtain ⟨watched, answer⟩ := refused
      have observed : m.cpu.observed = true :=
        (congrArg (fun s : Stable => s.fixed.observed) same).symm.trans watched
      simp only [rawAnswer, watched, if_true] at answer
      simp only [raw, watched, if_true]
      exact attended observed _ _ _ answer
    · generalize asked : (irqSync hooks m).raw hooks
        (.contextPreflight (irqSync hooks m).cpu.machineCycleCount) = n
      have reported : n.cpu = (irqSync hooks m).cpu := by rw [← asked, raw_cpu]
      dsimp only
      split
      · obtain ⟨-, kept, -⟩ := @pushReturn_freeLevels _ hooks n
        obtain ⟨same, delay, deeper⟩ := @acceptInterrupt_levels _ hooks source
          ((irqSync hooks m).cpu.irqPriority source) (irqSync hooks m).cpu.pc
          ((irqSync hooks m).cpu.sfr Reg.sp) (irqSync hooks m).cpu.irqPending
          (pushReturn hooks n).2
        have entered : (pushReturn hooks n).2.cpu.variant = .sab80535 :=
          kept.variant.trans (reported ▸ variant)
        have depth : (pushReturn hooks n).2.cpu.service.depth = m.cpu.service.depth := by
          rw [kept.service, reported, service]
        refine .enters _ delay ?_
        rw [service] at room
        rw [Cpu.freeLevels, same, entered, deeper, depth, Cpu.freeLevels, sab, if_pos rfl,
          if_pos rfl]
        omega
      · rename_i refused
        exact .fails _ (Or.inl (pushReturn_refused (by simpa using refused)))

/-- What the commit of a classic entry does to the levels in service. -/
theorem acceptClassic_levels (source : ClassicSource) (hi : Bool) (n : Machine ω) :
    (acceptClassic source hi n).cpu.variant = n.cpu.variant ∧
      (acceptClassic source hi n).cpu.tickDelay = 1 ∧
      (acceptClassic source hi n).cpu.classic.interruptActive =
        if hi then n.cpu.classic.interruptActive ||| 2#8 else 1#8 := by
  cases source <;> simp only [acceptClassic, mapCpu_cpu, clearFlags, setSfr, and_self]

/-- The classic controller. -/
theorem handleClassicInterrupts_handled (other : m.cpu.variant ≠ .sab80535) :
    Handled hooks m (handleClassicInterrupts hooks m) := by
  rw [handleClassicInterrupts_eq]
  split
  · exact .stays _ rfl rfl
  · rename_i low
    cases m.cpu.classicChoice with
    | none => exact .stays _ rfl rfl
    | some choice =>
      obtain ⟨source, hi⟩ := choice
      dsimp only
      split
      · exact .stays _ rfl rfl
      · rename_i above
        split
        · obtain ⟨-, kept, classic⟩ := @pushReturn_freeLevels _ hooks m
          obtain ⟨variant, delay, active⟩ := acceptClassic_levels source hi (pushReturn hooks m).2
          refine .enters _ delay ?_
          have same : (pushReturn hooks m).2.cpu.variant = m.cpu.variant :=
            kept.variant
          rw [classic] at active
          rw [Cpu.freeLevels, variant, same, active, Cpu.freeLevels, if_neg other, if_neg other]
          -- The levels in service are none or the low one, and the entry is above them.
          have none_or_low : m.cpu.classic.interruptActive = 0#8 ∨
              m.cpu.classic.interruptActive = 1#8 := by
            rw [BitVec.lt_def] at low
            change ¬1 < _ at low
            rcases Nat.lt_or_ge m.cpu.classic.interruptActive.toNat 1 with zero | one
            · exact Or.inl (BitVec.eq_of_toNat_eq (by change _ = 0; omega))
            · exact Or.inr (BitVec.eq_of_toNat_eq (by change _ = 1; omega))
          rcases none_or_low with zero | one
          · cases hi <;> simp [zero]
          · cases hi with
            | false => exact absurd ⟨one, rfl⟩ above
            | true => simp [one]
        · rename_i refused
          exact .fails _ (Or.inl (pushReturn_refused (by simpa using refused)))

/-- Either controller. -/
theorem handleInterrupts_handled (attended : m.Attended hooks) :
    Handled hooks m (handleInterrupts hooks m) := by
  unfold handleInterrupts
  split
  · rename_i sab
    exact handleSabInterrupts_handled attended sab
  · rename_i other
    exact handleClassicInterrupts_handled other

/-- A boundary where a run goes on. -/
structure GoesOn (hooks : Hooks ω) (m : Machine ω) : Prop where
  unaborted : m.aborted hooks = false
  awake : has (m.cpu.sfr Reg.pcon) Pcon.idle = false
  powered : has (m.cpu.sfr Reg.pcon) Pcon.powerDown = false

/-- The stop tests leave nothing else over. -/
theorem goesOn_of_none {target : Option Word} {start limit : Nat}
    (goes : stopAt hooks target start limit m = none) : GoesOn hooks m := by
  -- Each of the stop tests is taken in turn.
  simp only [stopAt] at goes
  split at goes
  · exact absurd goes (by simp)
  · rename_i unaborted
    split at goes
    · exact absurd goes (by simp)
    · split at goes
      · exact absurd goes (by simp)
      · split at goes
        · exact absurd goes (by simp)
        · split at goes
          · exact absurd goes (by simp)
          · rename_i running
            rw [has_either, Bool.or_eq_true, not_or] at running
            exact ⟨by simpa using unaborted, by simpa using running.1, by simpa using running.2⟩

/-- What a tick of a run does: it ends the run, executes an instruction, or takes a level. -/
inductive Uses (hooks : Hooks ω) (m : Machine ω) : Prop
  | ends (ended : (tick hooks m).2.cpu.exceptionRaised = true ∨
      (tick hooks m).2.aborted hooks = true)
  | executes (done : (tick hooks m).1 = true)
      (count : (tick hooks m).2.cpu.instructionCount = m.cpu.instructionCount + 1)
  | enters (idle : (tick hooks m).1 = false)
      (count : (tick hooks m).2.cpu.instructionCount = m.cpu.instructionCount)
      (levels : (tick hooks m).2.cpu.freeLevels < m.cpu.freeLevels)

/-- Every tick of a run that goes on is one of the three. -/
theorem tick_uses (unticking : hooks.Unticking) (attended : m.Attended hooks)
    (settled : m.cpu.tickDelay = 0) (goes : GoesOn hooks m) : Uses hooks m := by
  have handled := handleInterrupts_handled attended
  have counted := (tick_ticked unticking m).instructions
  have shape := tick_cases hooks m
  generalize answered : tick hooks m = answer at shape counted
  cases shape with
  | stopped why =>
    rcases why with aborted | ⟨-, down⟩
    · exact absurd (goes.unaborted.symm.trans aborted) (by decide)
    · exact absurd (goes.powered.symm.trans down) (by decide)
  | pending _ delayed => exact absurd settled delayed
  | failed _ refused =>
    refine .ends ?_
    rw [answered]
    generalize handleInterrupts hooks m = reply at handled refused
    cases handled with
    | stays | enters => exact Bool.noConfusion refused
    | fails n ended =>
      rcases ended with raised | aborted
      · exact Or.inl ((congrArg Prod.fst (advanceMachineCycle_latch hooks n)).trans raised)
      · right
        dsimp only
        rw [advanceMachineCycle, if_pos aborted]
        exact aborted
  | cut _ _ aborted | unbegun _ _ aborted | interrupted _ aborted =>
    exact .ends (Or.inr (by rw [answered]; exact aborted))
  | entered _ accepted _ delayed =>
    refine .enters (by rw [answered]) (by rw [answered]; exact counted) ?_
    rw [answered, advanceMachineCycle_freeLevels]
    generalize handleInterrupts hooks m = reply at handled accepted delayed
    cases handled with
    | stays n delay _ => exact absurd (delay.trans settled) delayed
    | enters n _ levels => exact levels
    | fails => exact Bool.noConfusion accepted
  | idle _ accepted _ still asleep =>
    -- An entry would leave a cycle pending, so the CPU was asleep before.
    generalize handleInterrupts hooks m = reply at handled accepted still asleep
    cases handled with
    | stays n _ pcon =>
      rw [pcon] at asleep
      exact absurd (goes.awake.symm.trans asleep) (by decide)
    | enters n delay _ => exact absurd (delay.symm.trans still) (by decide)
    | fails => exact Bool.noConfusion accepted
  | completed _ _ =>
    exact .executes (by rw [answered]) (by rw [answered]; exact counted)

/-! ### Boundaries -/

/-- The boundary `run_control` tests next: what was started is finished first. -/
def Machine.boundary (hooks : Hooks ω) (m : Machine ω) : Machine ω :=
  drainTicks hooks m.cpu.tickDelay m

/-- An exception or an abort ends the run at the next boundary. -/
def Machine.Ended (hooks : Hooks ω) (m : Machine ω) : Prop :=
  m.cpu.exceptionRaised = true ∨ m.aborted hooks = true

section Boundaries

variable (unticking : hooks.Unticking)

include unticking

/-- Finishing what was started executes nothing, takes no level and loses no exception. -/
theorem boundary_kept (m : Machine ω) :
    (m.boundary hooks).cpu.instructionCount = m.cpu.instructionCount ∧
      (m.boundary hooks).cpu.freeLevels = m.cpu.freeLevels ∧
      (m.boundary hooks).cpu.exceptionRaised = m.cpu.exceptionRaised := by
  -- Pending cycles are ticks that only advance the clock.
  refine drainTicks_keeps (I := fun n => n.cpu.instructionCount = m.cpu.instructionCount ∧
    n.cpu.freeLevels = m.cpu.freeLevels ∧ n.cpu.exceptionRaised = m.cpu.exceptionRaised)
    (fun n delayed unaborted before => ?_) _ m ⟨rfl, rfl, rfl⟩
  obtain ⟨count, levels, raised⟩ := before
  refine ⟨(tick_pending_count unticking delayed unaborted).trans count, ?_, ?_⟩
  · rw [tick_pending unaborted delayed, advanceMachineCycle_freeLevels]
    exact levels
  · rw [tick_pending unaborted delayed]
    exact (congrArg Prod.fst (advanceMachineCycle_latch hooks _)).trans raised

/-- What ended stays so at the boundary. -/
theorem boundary_ended (ended : m.Ended hooks) : (m.boundary hooks).Ended hooks := by
  -- An exception stays latched, and after an abort nothing is drained.
  rcases ended with raised | aborted
  · exact Or.inl ((boundary_kept unticking m).2.2.trans raised)
  · right
    have same : m.boundary hooks = m := by
      unfold Machine.boundary
      cases m.cpu.tickDelay with
      | zero => rfl
      | succ fuel => exact if_neg fun busy => Bool.false_ne_true (busy.2.symm.trans aborted)
    rw [same]
    exact aborted

/-- From one boundary where the run goes on to the next. -/
theorem boundary_uses {target : Option Word} {start limit : Nat} (attended : m.Attended hooks)
    (settled : m.cpu.tickDelay = 0) (goes : stopAt hooks target start limit m = none) :
    ((tick hooks m).2.boundary hooks).Ended hooks ∨
      ((tick hooks m).1 = true ∧ ((tick hooks m).2.boundary hooks).cpu.instructionCount =
        m.cpu.instructionCount + 1) ∨
      (tick hooks m).1 = false ∧ ((tick hooks m).2.boundary hooks).cpu.instructionCount =
          m.cpu.instructionCount ∧
        ((tick hooks m).2.boundary hooks).cpu.freeLevels < m.cpu.freeLevels := by
  -- The tick is one of three kinds, and finishing it moves no count.
  obtain ⟨count, levels, -⟩ := boundary_kept unticking (tick hooks m).2
  cases tick_uses unticking attended settled (goesOn_of_none goes) with
  | ends ended => exact Or.inl (boundary_ended unticking ended)
  | executes done moved => exact Or.inr (Or.inl ⟨done, count.trans moved⟩)
  | enters idle kept taken =>
    exact Or.inr (Or.inr ⟨idle, count.trans kept, by rw [levels]; exact taken⟩)

end Boundaries

/-- Finishing what was started attaches and detaches no observation. -/
theorem boundary_observed (keeps : hooks.KeepsObserver) (m : Machine ω) :
    (m.boundary hooks).cpu.observed = m.cpu.observed :=
  drainTicks_keeps (I := fun n => n.cpu.observed = m.cpu.observed)
    (fun n _ _ before => (tick_observed keeps n).trans before) _ m rfl

/-- Nor does a whole round of the loop. -/
theorem round_attended (keeps : hooks.KeepsObserver) (attended : m.Attended hooks) :
    ((tick hooks m).2.boundary hooks).Attended hooks := by
  intro observed
  rw [boundary_observed keeps, tick_observed keeps] at observed
  exact attended observed

/-! ### Termination -/

/-- What a run can still use up: instructions, and between two of them the free levels. -/
def budget (start limit : Nat) (c : Cpu) : Nat :=
  5 * (limit - (c.instructionCount - start)) + c.freeLevels

/-- Whatever ended stops the run. -/
theorem stopAt_ended {target : Option Word} {start limit : Nat} (ended : m.Ended hooks) :
    stopAt hooks target start limit m ≠ none := by
  -- An exception and an abort are the first two stop tests.
  intro goes
  have unaborted := (goesOn_of_none goes).unaborted
  rcases ended with raised | aborted
  · simp only [stopAt] at goes
    rw [if_neg (by rw [unaborted]; decide), if_pos raised] at goes
    exact absurd goes (by simp)
  · exact absurd (unaborted.symm.trans aborted) (by decide)

/-- A run returns once its budget is used up. -/
theorem runLoop_returns (unticking : hooks.Unticking) (keeps : hooks.KeepsObserver)
    {target : Option Word} {start limit : Nat} (fuel : Nat) (m : Machine ω)
    (attended : (m.boundary hooks).Attended hooks)
    (enough : stopAt hooks target start limit (m.boundary hooks) = none →
      budget start limit (m.boundary hooks).cpu ≤ fuel)
    (fresh : start ≤ m.cpu.instructionCount) :
    ∃ answer, runLoop hooks target start limit (fuel + 1) m = some answer := by
  -- The induction is on the fuel, of which every boundary that goes on takes one.
  induction fuel generalizing m with
  | zero =>
    simp only [runLoop]
    cases goes : stopAt hooks target start limit (drainTicks hooks m.cpu.tickDelay m) with
    | some reason => exact ⟨_, rfl⟩
    | none =>
      have low := enough goes
      have short := stopAt_none goes
      simp only [budget, Machine.boundary] at low
      omega
  | succ fuel ih =>
    rw [runLoop]
    cases goes : stopAt hooks target start limit (drainTicks hooks m.cpu.tickDelay m) with
    | some reason => exact ⟨_, rfl⟩
    | none =>
      have low := enough goes
      have short := stopAt_none goes
      have settled : (m.boundary hooks).cpu.tickDelay = 0 :=
        (drainTicks_settles _ m (Nat.le_refl _)).resolve_right fun aborted =>
          absurd ((goesOn_of_none goes).unaborted.symm.trans aborted) (by decide)
      have begun : start ≤ (m.boundary hooks).cpu.instructionCount := by
        rw [(boundary_kept unticking m).1]
        exact fresh
      have counted := (tick_ticked unticking (m.boundary hooks)).instructions
      refine ih (tick hooks (m.boundary hooks)).2 (round_attended keeps attended)
        (fun again => ?_) (by omega)
      have free := freeLevels_le ((tick hooks (m.boundary hooks)).2.boundary hooks).cpu
      have four : ((tick hooks (m.boundary hooks)).2.boundary hooks).cpu.freeLevels ≤ 4 :=
        Nat.le_trans free (by split <;> decide)
      rcases boundary_uses unticking attended settled goes with ended | ⟨-, count⟩ | ⟨-, count, taken⟩
      · exact absurd again (stopAt_ended ended)
      · simp only [budget, count] at low ⊢
        change (m.boundary hooks).cpu.instructionCount - start < limit at short
        omega
      · simp only [budget, count] at low ⊢
        omega

/-! ### How a run ends -/

/-- The condition a stop reason stands for. -/
def StopReason.Holds (hooks : Hooks ω) (target : Option Word) (executed limit : Nat)
    (m : Machine ω) : StopReason → Prop
  | .instructionLimit => limit ≤ executed
  | .targetPc => target = some m.cpu.pc
  | .breakpoint => m.cpu.breakpointEnabled = true ∧ m.cpu.pc = m.cpu.breakpoint
  | .halt => has (m.cpu.sfr Reg.pcon) (Pcon.idle ||| Pcon.powerDown) = true
  | .exception => m.cpu.exceptionRaised = true
  | .aborted => m.aborted hooks = true

/-- A test that stops a run gives the reason whose condition holds. -/
theorem stopAt_holds {target : Option Word} {start limit : Nat} {reason : StopReason}
    (stopped : stopAt hooks target start limit m = some reason) :
    reason.Holds hooks target (m.cpu.instructionCount - start) limit m := by
  simp only [stopAt] at stopped
  repeat' split at stopped
  all_goals first | (obtain rfl := Option.some.inj stopped; assumption) | cases stopped

/-- What a run that returned has done, and in what state. -/
structure RunEnds (hooks : Hooks ω) (target : Option Word) (limit : Nat) (m : Machine ω)
    (result : RunResult) (s : Machine ω) : Prop where
  settled : s.aborted hooks = false → s.cpu.tickDelay = 0
  instructions : s.cpu.instructionCount = m.cpu.instructionCount + result.instructions
  cycles : s.cpu.machineCycleCount = m.cpu.machineCycleCount + result.machineCycles
  bounded : result.instructions ≤ limit
  stopped : result.reason.Holds hooks target result.instructions limit s

/-- `run_control` returns, with the result it fills in. -/
theorem runControl_ends (unticking : hooks.Unticking) (keeps : hooks.KeepsObserver)
    (attended : m.Attended hooks) (target : Option Word) (limit : Nat) :
    ∃ reason s, (∀ fuel, 5 * limit + 5 ≤ fuel →
        runControl hooks target limit fuel m = some (reason, s)) ∧
      RunEnds hooks target limit m (fillRunResult reason m.cpu s.cpu) s := by
  have free := freeLevels_le (m.unlatched.boundary hooks).cpu
  have four : (m.unlatched.boundary hooks).cpu.freeLevels ≤ 4 :=
    Nat.le_trans free (by split <;> decide)
  -- The ticks up to the boundary keep the observer, so the boundary is attended as well.
  have watched : (m.unlatched.boundary hooks).Attended hooks :=
    fun observed => attended ((boundary_observed keeps m.unlatched).symm.trans observed)
  obtain ⟨⟨reason, s⟩, found⟩ := @runLoop_returns ω hooks unticking keeps target
    m.cpu.instructionCount limit (5 * limit + 4) m.unlatched watched
    (fun _ => by simp only [budget]; omega) (Nat.le_refl _)
  obtain ⟨stops, settled⟩ := runLoop_stops found
  have bounded := runLoop_bounded unticking found rfl
  have grows := runLoop_grows unticking found
  refine ⟨reason, s, fun fuel enough => ?_, ⟨fun unaborted => ?_, ?_, ?_, ?_, stopAt_holds stops⟩⟩
  · obtain ⟨extra, rfl⟩ := Nat.exists_eq_add_of_le' enough
    exact runLoop_mono found extra
  · exact settled.resolve_right (by rw [unaborted]; exact Bool.false_ne_true)
  · exact (Nat.add_sub_cancel' bounded.1).symm
  · exact (Nat.add_sub_cancel' grows.2).symm
  · simp only [fillRunResult]
    omega

/-- Iterations of a run, one after the other, that enter interrupts and execute nothing. -/
inductive Entries (hooks : Hooks ω) (target : Option Word) (start limit : Nat) :
    Nat → Machine ω → Machine ω → Prop
  | none (m : Machine ω) : Entries hooks target start limit 0 m m
  | more {m k : Machine ω} {count : Nat} (settled : m.cpu.tickDelay = 0)
      (goes : stopAt hooks target start limit m = none) (idle : (tick hooks m).1 = false)
      (alive : ¬((tick hooks m).2.boundary hooks).Ended hooks)
      (rest : Entries hooks target start limit count ((tick hooks m).2.boundary hooks) k) :
      Entries hooks target start limit (count + 1) m k

/-- Each of them takes a level. -/
theorem entries_levels (unticking : hooks.Unticking) (keeps : hooks.KeepsObserver)
    {target : Option Word} {start limit count : Nat} {m k : Machine ω}
    (attended : m.Attended hooks) (entries : Entries hooks target start limit count m k) :
    count + k.cpu.freeLevels ≤ m.cpu.freeLevels := by
  -- By induction on the entries; each of them uses up a free level.
  induction entries with
  | none m => exact Nat.le_of_eq (Nat.zero_add _)
  | more settled goes idle alive _ ih =>
    have later := ih (round_attended keeps attended)
    rcases boundary_uses unticking attended settled goes with ended | ⟨done, -⟩ | ⟨-, -, taken⟩
    · exact absurd ended alive
    · exact absurd (idle.symm.trans done) (by decide)
    · omega

/--
Bounded runs return at a boundary: within five iterations for each instruction of the limit, with
at most four interrupt entries in a row, and in a state their result describes.
-/
theorem bounded_run (unticking : hooks.Unticking) (keeps : hooks.KeepsObserver) (m : Machine ω)
    (attended : m.Attended hooks) :
    (∀ limit, ∃ result s, (∀ fuel, 5 * limit + 5 ≤ fuel →
        em8051Run hooks limit fuel m = some (result, s)) ∧
      RunEnds hooks none limit m result s) ∧
    (∀ target limit, ∃ result s, (∀ fuel, 5 * limit + 5 ≤ fuel →
        em8051RunUntilPc hooks target limit fuel m = some (result, s)) ∧
      RunEnds hooks (some target) limit m result s) ∧
    (∃ reason s, (∀ fuel, 10 ≤ fuel → stepInstruction hooks fuel m = some (reason, s)) ∧
      RunEnds hooks none 1 m (fillRunResult reason m.cpu s.cpu) s) ∧
    ∀ target start limit count k, Entries hooks target start limit count m k →
      count ≤ if m.cpu.variant = .sab80535 then 4 else 2 := by
  -- The three entry points share the loop; they differ in the target and in the limit.
  refine ⟨fun limit => ?_, fun target limit => ?_, ?_, fun target start limit count k entries => ?_⟩
  · obtain ⟨reason, s, returns, ends⟩ := runControl_ends unticking keeps attended none limit
    refine ⟨_, s, fun fuel enough => ?_, ends⟩
    simp only [em8051Run, returns fuel enough, Option.map_some]
  · obtain ⟨reason, s, returns, ends⟩ := runControl_ends unticking keeps attended (some target) limit
    refine ⟨_, s, fun fuel enough => ?_, ends⟩
    simp only [em8051RunUntilPc, returns fuel enough, Option.map_some]
  · obtain ⟨reason, s, returns, ends⟩ := runControl_ends unticking keeps attended none 1
    exact ⟨reason, s, fun fuel enough => returns fuel enough, ends⟩
  · have levels := entries_levels unticking keeps attended entries
    exact Nat.le_trans (Nat.le_of_add_right_le levels) (freeLevels_le m.cpu)

/-- A CPU that has INT0 enabled and requested. -/
def requesting : Machine Unit :=
  ((Machine.boot fun _ => 0#8).setSfr Reg.ien0 (0x81#8)).setSfr Reg.tcon Tcon.ie0

/-- Its run enters the interrupt and executes the first instruction of the vector. -/
theorem bounded_run_requesting :
    (∃ result s, em8051Run Hooks.none 1 10 requesting = some (result, s) ∧
      RunEnds Hooks.none none 1 requesting result s ∧ s.cpu.pc = 0x0004#16 ∧
        result.machineCycles = 3) ∧
      Entries Hooks.none none 0 1 1 requesting ((tick Hooks.none requesting).2.boundary Hooks.none) ∧
      1 ≤ 4 := by
  obtain ⟨runs, -, -, entered⟩ := bounded_run Hooks.none_unticking
    (fun _ _ installed => absurd installed (by simp [Hooks.none])) requesting
    (fun observed => absurd observed (by decide))
  obtain ⟨result, s, returns, ends⟩ := runs 1
  have ran := returns 10 (Nat.le_refl _)
  have entry : Entries Hooks.none none 0 1 1 requesting
      ((tick Hooks.none requesting).2.boundary Hooks.none) :=
    .more (by decide) (by decide) (by decide)
      (fun ended => ended.elim (fun raised => absurd raised (by decide))
        fun aborted => absurd aborted Bool.false_ne_true) (.none _)
  -- The run as a value: the address after the vector and the three cycles.
  have observed : (em8051Run Hooks.none 1 10 requesting).map
      (fun run => (run.2.cpu.pc, run.1.machineCycles)) = some (0x0004#16, 3) := by decide +kernel
  rw [ran, Option.map_some, Option.some.injEq, Prod.mk.injEq] at observed
  exact ⟨⟨result, s, ran, ends, observed.1, observed.2⟩, entry, entered _ _ _ _ _ entry⟩

end Emu80535
