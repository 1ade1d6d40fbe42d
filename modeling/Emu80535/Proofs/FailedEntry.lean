import Emu80535.Proofs.Debugger

/-! An interrupt entry whose stack push fails: what of it is undone, and how a run ends. -/

namespace Emu80535

variable {ω : Type} {hooks : Hooks ω} {m : Machine ω}

open Machine

/-! ### Selection -/

/-- The machine on which a controller selects: the Siemens one refreshes its view first. -/
def Machine.polled (hooks : Hooks ω) (m : Machine ω) : Machine ω :=
  if m.cpu.variant = .sab80535 then irqSync hooks m else m

/-- What makes a controller start an entry. -/
def Cpu.Selects (c : Cpu) : Prop :=
  if c.variant = .sab80535 then
    c.irqInhibit = 0 ∧ has (c.sfr Reg.ien0) Ie.ea = true ∧ c.service.depth < 4 ∧
      ∃ source, c.arbitrate = some source
  else
    c.classic.interruptActive ≤ 1#8 ∧ ∃ source hi, c.classicChoice = some (source, hi) ∧
      (c.classic.interruptActive = 1#8 → hi = true)

/--
At an instruction boundary a selected interrupt meets a stack without room for a return address, so
that one of its two pushes raises the stack exception.
-/
structure Machine.FailsEntry (hooks : Hooks ω) (m : Machine ω) : Prop where
  ready : m.Ready hooks
  selects : (m.polled hooks).cpu.Selects
  admits : m.Admits hooks
  full : m.cpu.hasRoom = false

/-- Polling does not touch what an entry depends on. -/
theorem polled_stable (m : Machine ω) : (m.polled hooks).cpu.stable = m.cpu.stable := by
  unfold Machine.polled
  split
  · exact irqSync_stable hooks m
  · rfl

/-- The classic state is no concern of the Siemens controller. -/
theorem irqSync_classic (sab : m.cpu.variant = .sab80535) :
    (irqSync hooks m).cpu.classic = m.cpu.classic := by
  -- The shortcut that clears the classic state is behind a test of the variant.
  have kept := @Moves.irqSync _ _ hooks _ (Moves.refl m.cpu)
  have both : (irqSync hooks m).cpu.variant = .sab80535 ∧
      (irqSync hooks m).cpu.classic = m.cpu.classic := by
    refine kept.keeps
      (I := fun c => c.variant = .sab80535 ∧ c.classic = m.cpu.classic) (fun x y move before => ?_)
      ⟨sab, rfl⟩
    cases move with
    | shortcut _ _ other _ => exact absurd before.1 other
    | _ => exact before
  exact both.2

/-! ### Failing pushes -/

/-- A push without room leaves the stack exception in the latch. -/
theorem pushToStack_latch (value : Byte) (n : Machine ω) (full : n.cpu.canPush = false) :
    ((pushToStack value).run hooks n).2.cpu.latch = (true, some .stack) := by
  -- Either the pointer has no RAM behind it, or it has wrapped to zero.
  simp only [pushToStack, Op.bind_eq, Op.run_cpu_bind, Op.run_perform_bind, Op.run_ite,
    run_writeMemIndir_bind, Op.pure_eq, Op.run_ret]
  split
  · rename_i backed
    have wrapped : n.cpu.sfr Reg.sp + 1#8 = 0#8 := by
      simp only [Cpu.canPush, backed, Bool.true_and] at full
      simpa using full
    rw [if_pos wrapped]
    rfl
  · rfl

/-- A stack action does not touch the classic controller. -/
theorem pushToStack_classic (value : Byte) (n : Machine ω) :
    ((pushToStack value).run hooks n).2.cpu.classic = n.cpu.classic := by
  refine (pushToStack_only value).rel (R := fun a b : Cpu => b.classic = a.classic)
    (fun _ => rfl) (fun _ _ _ first second => second.trans first) (fun e stack n => ?_) n
  cases e with
  | setLower _ _ | setUpper _ _ | raise _ | setReg _ _ => rfl
  | _ => exact absurd stack (by simp [StackEffect])

/-- The two pushes of an entry, the second only after the first succeeded. -/
def pushReturn (hooks : Hooks ω) (n : Machine ω) : Bool × Machine ω :=
  let low := (pushToStack (n.cpu.pc.setWidth 8)).run hooks n
  if low.1 then
    let high := (pushToStack ((low.2.cpu.pc >>> 8).setWidth 8)).run hooks low.2
    (high.1, high.2)
  else (false, low.2)

/-- What an entry that failed leaves behind, beside the stack. -/
structure Failed (before after : Cpu) : Prop where
  kept : SameButStack before after
  classic : after.classic = before.classic
  latch : after.latch = (true, some .stack)

/-- Pushing a return address without room for it. -/
theorem pushReturn_failed (n : Machine ω) (full : n.cpu.hasRoom = false) :
    (pushReturn hooks n).1 = false ∧ Failed n.cpu (pushReturn hooks n).2.cpu := by
  have lowKept := @pushToStack_sameButStack ω hooks (n.cpu.pc.setWidth 8) n
  have lowClassic := @pushToStack_classic ω hooks (n.cpu.pc.setWidth 8) n
  simp only [pushReturn]
  -- Either the first push fails, or it succeeds and the second one does.
  cases first : n.cpu.canPush with
  | false =>
    have low := (@pushToStack_fst ω hooks (n.cpu.pc.setWidth 8) n).trans first
    rw [if_neg (by rw [low]; decide)]
    exact ⟨rfl, lowKept, lowClassic, pushToStack_latch _ n first⟩
  | true =>
    have low := @pushToStack_run ω hooks (n.cpu.pc.setWidth 8) n first
    have second : (n.cpu.push (n.cpu.pc.setWidth 8)).canPush = false := by
      simpa only [Cpu.hasRoom, first, Bool.true_and] using full
    rw [low] at lowKept lowClassic ⊢
    have high := (@pushToStack_fst ω hooks ((n.cpu.pc >>> 8).setWidth 8)
      (n.mapCpu fun c => c.push (n.cpu.pc.setWidth 8))).trans second
    simp only [if_true, mapCpu_cpu, push_pc]
    exact ⟨high, SameButStack.trans _ _ _ lowKept (pushToStack_sameButStack _ _),
      (pushToStack_classic _ _).trans lowClassic, pushToStack_latch _ _ second⟩

/-- An entry of the Siemens controller is the two pushes and then its commit. -/
theorem enterInterrupt_eq (source : IrqSource) (m : Machine ω) :
    enterInterrupt hooks source m =
      if m.cpu.observed &&
          m.rawAnswer hooks (.contextPreflight m.cpu.machineCycleCount) == 0 then
        (false, m.raw hooks (.contextPreflight m.cpu.machineCycleCount))
      else
        let pushed := pushReturn hooks (m.raw hooks (.contextPreflight m.cpu.machineCycleCount))
        if pushed.1 then
          (true, acceptInterrupt hooks source (m.cpu.irqPriority source) m.cpu.pc
            (m.cpu.sfr Reg.sp) m.cpu.irqPending pushed.2)
        else (false, pushed.2) := by
  -- The same tests in the same order: preflight, low byte, high byte.
  simp only [enterInterrupt, pushReturn, raw_cpu]
  split
  · rfl
  · split
    · rfl
    · rfl

/-- An entry of the classic controller as well, where a source of high enough level is chosen. -/
theorem handleClassicInterrupts_eq (m : Machine ω) :
    handleClassicInterrupts hooks m =
      if 1#8 < m.cpu.classic.interruptActive then (true, m)
      else
        match m.cpu.classicChoice with
        | none => (true, m)
        | some (source, hi) =>
          if m.cpu.classic.interruptActive = 1#8 ∧ hi = false then (true, m)
          else if (pushReturn hooks m).1 then
            (true, acceptClassic source hi (pushReturn hooks m).2)
          else (false, (pushReturn hooks m).2) := by
  simp only [handleClassicInterrupts, pushReturn]
  -- The same tests in the same order: busy, none chosen, too low, low byte, high byte.
  split
  · rfl
  · cases m.cpu.classicChoice with
    | none => rfl
    | some choice =>
      dsimp only
      split
      · rfl
      · split
        · rfl
        · rfl

/-! ### The handler -/

/-- Without room the Siemens controller fails. -/
theorem handleSabInterrupts_failed (sab : m.cpu.variant = .sab80535) (fails : m.FailsEntry hooks) :
    (handleSabInterrupts hooks m).1 = false ∧
      Failed (irqSync hooks m).cpu (handleSabInterrupts hooks m).2.cpu := by
  have same := irqSync_stable hooks m
  have variant : (irqSync hooks m).cpu.variant = .sab80535 :=
    (congrArg (fun s : Stable => s.fixed.variant) same).trans sab
  have selects := fails.selects
  rw [Machine.polled, if_pos sab, Cpu.Selects, if_pos variant] at selects
  -- The choice is there, so the handler enters; without room the pushes refuse.
  obtain ⟨free, enabled, room, source, chosen⟩ := selects
  have fixed := Stable.fixed_eq same
  have watched : (irqSync hooks m).cpu.observed = m.cpu.observed := congrArg Fixed.observed fixed
  have cycle : (irqSync hooks m).cpu.machineCycleCount = m.cpu.machineCycleCount :=
    congrArg Fixed.machineCycleCount fixed
  have admitted : ((irqSync hooks m).cpu.observed && (irqSync hooks m).rawAnswer hooks
      (.contextPreflight (irqSync hooks m).cpu.machineCycleCount) == 0) = false := by
    rw [watched, cycle]
    cases observed : m.cpu.observed with
    | false => rfl
    | true => simpa using fails.admits observed
  have full : (irqSync hooks m).cpu.hasRoom = false := (hasRoom_eq same sab).trans fails.full
  -- None of the earlier exits is taken.
  have answer : handleSabInterrupts hooks m = enterInterrupt hooks source (irqSync hooks m) := by
    simp only [handleSabInterrupts]
    rw [if_neg (not_not_intro free), if_neg (by rw [enabled]; decide), chosen]
    exact if_neg (Nat.not_le.mpr room)
  rw [answer, enterInterrupt_eq, if_neg (ne_true_of_eq_false admitted)]
  generalize irqSync hooks m = s at full
  -- The preflight asks the observer and changes nothing of the CPU.
  generalize asked : s.raw hooks (.contextPreflight s.cpu.machineCycleCount) = n
  have reported : n.cpu = s.cpu := by rw [← asked, raw_cpu]
  obtain ⟨refused, failed⟩ := @pushReturn_failed _ hooks n (reported ▸ full)
  rw [reported] at failed
  simp only [refused, Bool.false_eq_true, if_false]
  exact ⟨trivial, failed⟩

/-- And so does the classic one. -/
theorem handleClassicInterrupts_failed (other : m.cpu.variant ≠ .sab80535)
    (fails : m.FailsEntry hooks) :
    (handleClassicInterrupts hooks m).1 = false ∧
      Failed m.cpu (handleClassicInterrupts hooks m).2.cpu := by
  have selects := fails.selects
  rw [Machine.polled, if_neg other, Cpu.Selects, if_neg other] at selects
  obtain ⟨low, source, hi, chosen, higher⟩ := selects
  -- None of the earlier exits is taken here either.
  have idle : ¬1#8 < m.cpu.classic.interruptActive := BitVec.not_lt.mpr low
  have above : ¬(m.cpu.classic.interruptActive = 1#8 ∧ hi = false) :=
    fun same => Bool.false_ne_true (same.2.symm.trans (higher same.1))
  obtain ⟨refused, failed⟩ := @pushReturn_failed _ hooks m fails.full
  rw [handleClassicInterrupts_eq]
  simp only [if_neg idle, chosen, if_neg above, refused, Bool.false_eq_true, if_false]
  exact ⟨trivial, failed⟩

/-- Either controller fails, and leaves what it selected from as it was, but for the stack. -/
theorem handleInterrupts_failed (fails : m.FailsEntry hooks) :
    (handleInterrupts hooks m).1 = false ∧
      Failed (m.polled hooks).cpu (handleInterrupts hooks m).2.cpu := by
  unfold handleInterrupts Machine.polled
  split
  · rename_i sab
    exact handleSabInterrupts_failed sab fails
  · rename_i other
    exact handleClassicInterrupts_failed other fails

/-! ### The tick and the run -/

/-- What a tick whose interrupt entry fails does, and what the failed entry leaves unchanged. -/
structure FailedTick (hooks : Hooks ω) (m : Machine ω) : Prop where
  /-- No opcode is executed: what follows the handler is the machine cycle. -/
  idles : tick hooks m = (false, advanceMachineCycle hooks (handleInterrupts hooks m).2)
  /-- Every register but the stack pointer, with the request flags, is as it was polled. -/
  registers : ∀ index, index ≠ Reg.sp →
    (handleInterrupts hooks m).2.cpu.sfr index = (m.polled hooks).cpu.sfr index
  requests : (handleInterrupts hooks m).2.cpu.irqPending = (m.polled hooks).cpu.irqPending
  /-- The classic mask of active levels, its saved registers and its serial request. -/
  classic : (handleInterrupts hooks m).2.cpu.classic = m.cpu.classic
  pc : (tick hooks m).2.cpu.pc = m.cpu.pc
  pcon : (tick hooks m).2.cpu.sfr Reg.pcon = m.cpu.sfr Reg.pcon
  /-- The stack of sources in service, their mask and the registers saved for them. -/
  service : (tick hooks m).2.cpu.service = m.cpu.service
  executed : (tick hooks m).2.cpu.instructionCount = m.cpu.instructionCount
  latch : (tick hooks m).2.cpu.latch = (true, some .stack)
  clock : (tick hooks m).2.cpu.machineCycleCount = m.cpu.machineCycleCount + 1

/-- A tick whose entry fails does nothing but the failed pushes and a machine cycle. -/
theorem failed_tick (free : ∀ n : Machine ω, n.aborted hooks = false)
    (fails : m.FailsEntry hooks) : FailedTick hooks m := by
  obtain ⟨refused, failed⟩ := handleInterrupts_failed fails
  -- A refused entry ends the tick with one machine cycle, and no instruction is fetched.
  have idles : tick hooks m = (false, advanceMachineCycle hooks (handleInterrupts hooks m).2) := by
    have ready := fails.ready
    simp only [tick]
    rw [if_neg (by rw [ready.unaborted]; decide), if_neg (not_not_intro ready.settled),
      if_neg (by rw [ready.powered]; decide), if_pos refused]
  have polled := @polled_stable _ hooks m
  have fixed : (handleInterrupts hooks m).2.cpu.fixed = m.cpu.fixed :=
    failed.kept.fixed.trans (Stable.fixed_eq polled)
  -- PCON is written by no peripheral, whatever the variant.
  have shown : ∀ variant, isVolatile variant Reg.pcon = false := by
    intro variant
    cases variant <;> rfl
  have advanced := advanceMachineCycle_steady hooks (handleInterrupts hooks m).2
  refine ⟨idles, failed.kept.sfr, failed.kept.irqPending, ?_, ?_, ?_, ?_, ?_, ?_, ?_⟩
  · refine failed.classic.trans ?_
    unfold Machine.polled
    split
    · rename_i sab
      exact irqSync_classic sab
    · rfl
  · rw [idles]
    exact (congrArg Stable.pc advanced).trans
      (failed.kept.pc.trans (congrArg Stable.pc polled))
  · rw [idles]
    exact (steady_sfr_eq advanced (shown _)).trans
      ((failed.kept.sfr _ (by decide)).trans (Stable.sfr_eq polled (shown _)))
  · rw [idles]
    exact (congrArg Stable.service advanced).trans
      (failed.kept.service.trans (congrArg Stable.service polled))
  · rw [idles]
    exact (congrArg (fun s : Stable => s.fixed.instructionCount) advanced).trans
      (congrArg Fixed.instructionCount fixed)
  · rw [idles, advanceMachineCycle_latch]
    exact failed.latch
  · rw [idles]
    rcases @advanceMachineCycle_clock ω hooks (handleInterrupts hooks m).2 with moved | ⟨-, cut⟩
    · exact moved.trans (congrArg (· + 1) (congrArg Fixed.machineCycleCount fixed))
    · rcases cut with aborted | aborted
      · exact absurd ((free _).symm.trans aborted) (by decide)
      · exact absurd ((free _).symm.trans aborted) (by decide)

/-- A boundary that raised an exception ends the run there. -/
theorem runLoop_raised (free : ∀ n : Machine ω, n.aborted hooks = false) {target : Option Word}
    {start limit fuel : Nat} (settled : m.cpu.tickDelay = 0)
    (raised : m.cpu.exceptionRaised = true) :
    runLoop hooks target start limit (fuel + 1) m = some (.exception, m) := by
  -- No cycle is pending, so the boundary is the machine itself.
  have drained : drainTicks hooks m.cpu.tickDelay m = m := by
    rw [settled]
    rfl
  have stops : stopAt hooks target start limit m = some .exception := by
    simp only [stopAt]
    rw [if_neg (by rw [free m]; decide), if_pos raised]
  simp only [runLoop, drained, stops]

/--
When a selected interrupt cannot push its return address, the tick executes no opcode, the entry
leaves everything but the stack as it was, and a run that makes the tick ends with the exception.
-/
theorem failed_interrupt_entry (free : ∀ n : Machine ω, n.aborted hooks = false)
    (fails : m.FailsEntry hooks) :
    FailedTick hooks m ∧
      (∀ target start limit fuel, stopAt hooks target start limit m = none →
        runLoop hooks target start limit (fuel + 2) m = some (.exception, (tick hooks m).2)) ∧
      ∀ (k : Machine ω) (limit fuel : Nat), k.unlatched = m →
        stopAt hooks none k.cpu.instructionCount limit m = none →
        ∃ result, em8051Run hooks limit (fuel + 2) k = some (result, (tick hooks m).2) ∧
          result.reason = .exception ∧ result.exceptionCode = some .stack ∧
          result.instructions = 0 ∧ result.machineCycles = 1 ∧ result.pc = m.cpu.pc := by
  have law := failed_tick free fails
  have latch := law.latch
  have raised : (tick hooks m).2.cpu.exceptionRaised = true := congrArg Prod.fst latch
  have code : (tick hooks m).2.cpu.lastException = some .stack := congrArg Prod.snd latch
  -- The failed entry leaves no cycle pending: the next pass of the loop is a boundary at once.
  have settled : (tick hooks m).2.cpu.tickDelay = 0 := by
    obtain ⟨-, failed⟩ := handleInterrupts_failed fails
    rw [law.idles]
    refine (congrArg (fun s : Stable => s.fixed.tickDelay)
      (advanceMachineCycle_steady hooks _)).trans ?_
    exact (congrArg Fixed.tickDelay
      (failed.kept.fixed.trans (Stable.fixed_eq (polled_stable m)))).trans fails.ready.settled
  have run : ∀ target start limit fuel, stopAt hooks target start limit m = none →
      runLoop hooks target start limit (fuel + 2) m = some (.exception, (tick hooks m).2) := by
    intro target start limit fuel running
    have drained : drainTicks hooks m.cpu.tickDelay m = m := by
      rw [fails.ready.settled]
      rfl
    rw [runLoop]
    simp only [drained, running]
    exact runLoop_raised free settled raised
  -- The front end clears the latch and then runs the same loop.
  refine ⟨law, run, fun k limit fuel cleared running => ?_⟩
  subst cleared
  have executed := law.executed
  have clock := law.clock
  refine ⟨fillRunResult .exception k.cpu (tick hooks k.unlatched).2.cpu, ?_, rfl, ?_, ?_, ?_, law.pc⟩
  · simp only [em8051Run, runControl]
    have ended := run none k.cpu.instructionCount limit fuel running
    exact congrArg (Option.map _) ended
  · simp only [fillRunResult, raised, if_true, code]
  · simp only [fillRunResult, executed]
    exact Nat.sub_self _
  · simp only [fillRunResult, clock]
    exact Nat.add_sub_cancel_left _ _

/-- Timer 0 requests an interrupt while the stack is full. -/
def fullStack (pcon : Byte) : Machine Unit :=
  (((((Machine.boot fun _ => 0#8).setSfr Reg.tcon Tcon.tf0).setSfr Reg.ien0
    (Ie.ea ||| Ie.et0)).setSfr Reg.sp 0xFF#8).setSfr Reg.pcon pcon)

/-- A run from there stops with the stack exception. -/
theorem failed_interrupt_entry_fullStack :
    ∃ result, em8051Run Hooks.none 1 2 (fullStack 0#8) =
      some (result, (tick Hooks.none (fullStack 0#8)).2) ∧ result.reason = .exception := by
  obtain ⟨-, -, run⟩ := @failed_interrupt_entry Unit Hooks.none (fullStack 0#8)
    (fun _ => rfl)
    ⟨⟨rfl, rfl, by decide⟩, by
      refine ⟨by decide, by decide, by decide, .timer0, by decide⟩,
      fun watched => absurd watched (by decide), by decide⟩
  obtain ⟨result, ended, reason, -⟩ := run (fullStack 0#8) 1 0 rfl (by decide)
  exact ⟨result, ended, reason⟩

/-- In IDLE a run stops before it makes the tick, without the exception. -/
theorem asleep_not_raised :
    Machine.FailsEntry Hooks.none (fullStack Pcon.idle) ∧
      ∃ result, em8051Run Hooks.none 1 2 (fullStack Pcon.idle) =
        some (result, fullStack Pcon.idle) ∧ result.reason = .halt :=
  ⟨⟨⟨rfl, rfl, by decide⟩, ⟨by decide, by decide, by decide, .timer0, by decide⟩,
      fun watched => absurd watched (by decide), by decide⟩, _, rfl, rfl⟩

end Emu80535
