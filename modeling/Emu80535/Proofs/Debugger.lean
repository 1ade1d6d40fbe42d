import Emu80535.Core.Debugger
import Emu80535.Proofs.Arbitration
import Emu80535.Proofs.Chunking

/-! The debugger's run: which boundaries it leaves, and which of them a breakpoint should hold. -/

namespace Emu80535

open Machine

/-! ### Entries that fail -/

section Entries

variable {ω : Type} {hooks : Hooks ω} {m : Machine ω} {source : IrqSource}

/-- A push without room raises an exception. -/
theorem pushToStack_raises (value : Byte) (m : Machine ω) (full : m.cpu.canPush = false) :
    ((pushToStack value).run hooks m).2.cpu.exceptionRaised = true := by
  -- Either the pointer has no RAM behind it, or it has wrapped to zero.
  simp only [pushToStack, Op.bind_eq, Op.run_cpu_bind, Op.run_perform_bind, Op.run_ite,
    run_writeMemIndir_bind, Op.pure_eq, Op.run_ret]
  split
  · rename_i backed
    have wrapped : m.cpu.sfr Reg.sp + 1#8 = 0#8 := by
      simp only [Cpu.canPush, backed, Bool.true_and] at full
      simpa using full
    rw [if_pos wrapped]
    rfl
  · rfl

/-- A push with room raises none. -/
theorem push_latch (c : Cpu) (value : Byte) : (c.push value).latch = c.latch := by
  simp only [Cpu.push]
  split <;> rfl

/-- Without an observer an entry commits after both pushes, or fails with an exception. -/
theorem enterInterrupt_outcome (unobserved : m.cpu.observed = false) :
    m.cpu.hasRoom = true ∨
      (enterInterrupt hooks source m).1 = false ∧
        (enterInterrupt hooks source m).2.cpu.exceptionRaised = true := by
  cases room : m.cpu.hasRoom with
  | true => exact Or.inl rfl
  | false =>
    right
    simp only [enterInterrupt, unobserved, Bool.false_and, Bool.false_eq_true, if_false]
    generalize asked : m.raw hooks (.contextPreflight m.cpu.machineCycleCount) = n
    have same : n.cpu = m.cpu := by rw [← asked, raw_cpu]
    -- The first push has room or raises, and after it the second one does.
    cases first : n.cpu.canPush with
    | false =>
      have low := (@pushToStack_fst ω hooks (n.cpu.pc.setWidth 8) n).trans first
      rw [if_neg (by rw [low]; decide)]
      exact ⟨rfl, pushToStack_raises _ n first⟩
    | true =>
      have low := @pushToStack_run ω hooks (n.cpu.pc.setWidth 8) n first
      have second : (n.cpu.push (n.cpu.pc.setWidth 8)).canPush = false := by
        simp only [Cpu.hasRoom, ← same, first, Bool.true_and] at room
        exact room
      rw [low]
      have high := (@pushToStack_fst ω hooks ((n.cpu.pc >>> 8).setWidth 8)
        (n.mapCpu fun c => c.push (n.cpu.pc.setWidth 8))).trans second
      simp only [if_true, mapCpu_cpu, push_pc]
      rw [if_neg (by rw [high]; decide)]
      exact ⟨rfl, pushToStack_raises _ _ second⟩

end Entries

/-! ### One tick from a boundary -/

section Boundaries

variable {ω : Type} {hooks : Hooks ω} {m : Machine ω}

/-- The debugger's core: a Siemens CPU that nobody observes, without a breakpoint of its own. -/
structure Cpu.Debugged (c : Cpu) : Prop where
  sab : c.variant = .sab80535
  wf : c.service.Wf
  unobserved : c.observed = false
  unbroken : c.breakpointEnabled = false

/-- What a tick from a boundary can do when nothing aborts it. -/
inductive Departure (hooks : Hooks ω) (m : Machine ω) : Prop
  /-- It executes the instruction there. -/
  | executed (done : (tick hooks m).1 = true) (stays : ∀ source, ¬m.Enters hooks source)
  /-- It enters an interrupt, whose vector becomes the next boundary. -/
  | entered (source : IrqSource) (idle : (tick hooks m).1 = false)
      (enters : m.Enters hooks source) (effect : m.EntryEffect hooks source)
      (latch : (tick hooks m).2.cpu.latch = m.cpu.latch)
  /-- It fails to enter one, with an exception and the program counter where it was. -/
  | failed (idle : (tick hooks m).1 = false) (raised : (tick hooks m).2.cpu.exceptionRaised = true)
      (pc : (tick hooks m).2.cpu.pc = m.cpu.pc) (stays : ∀ source, ¬m.Enters hooks source)

/-- Where nothing aborts, an instruction that is fetched is executed. -/
theorem tick_executes (free : ∀ n : Machine ω, n.aborted hooks = false)
    (debugged : m.cpu.Debugged) (settled : m.cpu.tickDelay = 0)
    (awake : has (m.cpu.sfr Reg.pcon) Pcon.idle = false)
    (powered : has (m.cpu.sfr Reg.pcon) Pcon.powerDown = false)
    (stays : handleInterrupts hooks m = (true, irqSync hooks m)) : (tick hooks m).1 = true := by
  -- Neither the look for interrupts nor the pins change the delay or PCON.
  have synced := irqSync_stable hooks m
  have still : (handleInterrupts hooks m).2.cpu.tickDelay = 0 := by
    rw [stays]
    exact (congrArg Fixed.tickDelay (Stable.fixed_eq synced)).trans settled
  have pcon : (handleInterrupts hooks m).2.cpu.sfr Reg.pcon = m.cpu.sfr Reg.pcon := by
    rw [stays]
    exact Stable.sfr_eq_sab synced debugged.sab rfl
  -- Every other way through the tick is excluded by an assumption.
  have shape := tick_cases hooks m
  generalize tick hooks m = answer at shape ⊢
  cases shape with
  | stopped why =>
    rcases why with aborted | ⟨-, down⟩
    · exact absurd ((free m).symm.trans aborted) (by decide)
    · exact absurd (powered.symm.trans down) (by decide)
  | pending _ delayed => exact absurd settled delayed
  | failed _ refused =>
    rw [stays] at refused
    exact absurd refused Bool.noConfusion
  | cut _ _ aborted => exact absurd ((free _).symm.trans aborted) (by decide)
  | entered _ _ _ delayed => exact absurd still delayed
  | idle _ _ _ _ asleep =>
    rw [pcon] at asleep
    exact absurd (awake.symm.trans asleep) (by decide)
  | unbegun _ _ aborted => exact absurd ((free _).symm.trans aborted) (by decide)
  | interrupted _ aborted => exact absurd ((free _).symm.trans aborted) (by decide)
  | completed _ _ => rfl

/-- A tick that enters an interrupt executes nothing. -/
theorem tick_of_entry_fst (ready : m.Ready hooks) {e : Machine ω}
    (handled : handleInterrupts hooks m = (true, e)) (delayed : e.cpu.tickDelay = 1) :
    (tick hooks m).1 = false := by
  have busy : e.cpu.tickDelay ≠ 0 := by omega
  simp only [tick, ready.unaborted, Bool.false_eq_true, if_false, ready.settled, ne_eq,
    not_true_eq_false, ready.powered, handled, Bool.true_eq_false, tickBody, busy]
  split <;> rfl

/-- With room for the return address a selected source is entered. -/
theorem departure_entered {source : IrqSource} (debugged : m.cpu.Debugged) (ready : m.Ready hooks)
    (held : (irqSync hooks m).cpu.irqInhibit = 0)
    (enabled : has ((irqSync hooks m).cpu.sfr Reg.ien0) Ie.ea = true)
    (found : (irqSync hooks m).cpu.arbitrate = some source)
    (room : (irqSync hooks m).cpu.hasRoom = true) : Departure hooks m := by
  have synced := irqSync_stable hooks m
  have winner := (arbitrate_iff m source).mp found
  -- Looking at the pins changes neither the enable bit nor the hold-off nor the room.
  have open_ : has (m.cpu.sfr Reg.ien0) Ie.ea = true := by
    rw [← Stable.sfr_eq_sab synced debugged.sab rfl]
    exact enabled
  have free' : m.cpu.irqInhibit = 0 := (congrArg Stable.irqInhibit synced).symm.trans held
  have space : m.cpu.hasRoom = true := (hasRoom_eq synced debugged.sab).symm.trans room
  -- No observer is installed that could refuse.
  have admits : m.Admits hooks := fun seen =>
    absurd (debugged.unobserved.symm.trans seen) (by decide)
  obtain ⟨enters, effect⟩ :=
    tick_enters debugged.sab ready debugged.wf space admits open_ free' winner
  -- The entry is committed, and it leaves exception and halt bits alone.
  obtain ⟨pushed, stack, handled⟩ := handleInterrupts_of_winner debugged.sab debugged.wf space
    admits open_ free' winner
  generalize commit : acceptInterrupt hooks source ((irqSync hooks m).cpu.irqPriority source)
    (irqSync hooks m).cpu.pc ((irqSync hooks m).cpu.sfr Reg.sp)
    (irqSync hooks m).cpu.irqPending pushed = e at handled
  have kept : e.cpu.latch = m.cpu.latch := by
    rw [← commit, acceptInterrupt_latch, stack, Cpu.pushPc, push_latch, push_latch]
    exact irqSync_latch hooks m
  -- An entry takes one more cycle.
  have delay : e.cpu.tickDelay = 1 := by
    have stable := @acceptInterrupt_stable ω hooks source
      ((irqSync hooks m).cpu.irqPriority source) (irqSync hooks m).cpu.pc
      ((irqSync hooks m).cpu.sfr Reg.sp) (irqSync hooks m).cpu.irqPending pushed
    rw [commit] at stable
    exact congrArg (fun s : Stable => s.fixed.tickDelay) stable
  refine .entered source ?_ enters effect ?_
  · exact tick_of_entry_fst ready handled delay
  · -- The cycle behind the entry is ticked, or the abort ends it before.
    rcases tick_of_entry ready handled delay with same | same
    · rw [same]
      exact kept
    · rw [same, advanceMachineCycle_latch]
      exact kept

/-- Without it the push that failed has raised an exception, and the source is not entered. -/
theorem departure_failed {source : IrqSource} (ready : m.Ready hooks)
    (entry : handleInterrupts hooks m = enterInterrupt hooks source (irqSync hooks m))
    (refused : (enterInterrupt hooks source (irqSync hooks m)).1 = false)
    (raised : (enterInterrupt hooks source (irqSync hooks m)).2.cpu.exceptionRaised = true) :
    Departure hooks m := by
  have synced := irqSync_stable hooks m
  -- An entry that failed ends the tick behind its cycle.
  have answer : tick hooks m = (false, advanceMachineCycle hooks (handleInterrupts hooks m).2) := by
    have fails : (handleInterrupts hooks m).1 = false := by
      rw [entry]
      exact refused
    simp only [tick, ready.unaborted, Bool.false_eq_true, if_false, ready.settled, ne_eq,
      not_true_eq_false, ready.powered, fails, if_true]
  -- A failed entry keeps the program counter and the service stack.
  obtain ⟨-, kept⟩ | entered := @enterInterrupt_cases ω hooks source (irqSync hooks m)
  · refine .failed (by rw [answer]) ?_ ?_ fun other entered => ?_
    · rw [answer]
      refine (congrArg Prod.fst (advanceMachineCycle_latch hooks _)).trans ?_
      rw [entry]
      exact raised
    · rw [answer]
      refine (congrArg Stable.pc (advanceMachineCycle_steady hooks _)).trans ?_
      show (handleInterrupts hooks m).2.cpu.pc = m.cpu.pc
      rw [entry, kept.pc]
      exact congrArg Stable.pc synced
    · -- An entry would have made the stack deeper.
      have deeper := entered.depth
      have same : (tick hooks m).2.cpu.service = m.cpu.service := by
        rw [answer]
        refine (congrArg Stable.service (advanceMachineCycle_steady hooks _)).trans ?_
        show (handleInterrupts hooks m).2.cpu.service = m.cpu.service
        rw [entry, kept.service]
        exact congrArg Stable.service synced
      rw [same] at deeper
      omega
  · -- An entry that succeeded was not refused.
    rw [entered] at refused
    exact absurd refused Bool.noConfusion

/-- Every tick from an awake boundary is one of the three. -/
theorem departure (passive : hooks.Passive) (free : ∀ n : Machine ω, n.aborted hooks = false)
    (debugged : m.cpu.Debugged) (settled : m.cpu.tickDelay = 0)
    (awake : has (m.cpu.sfr Reg.pcon) (Pcon.idle ||| Pcon.powerDown) = false) :
    Departure hooks m := by
  -- Neither of the two power modes is on.
  have bits : has (m.cpu.sfr Reg.pcon) Pcon.idle = false ∧
      has (m.cpu.sfr Reg.pcon) Pcon.powerDown = false := by
    rw [has_either] at awake
    simpa using awake
  have ready : m.Ready hooks := ⟨free m, settled, bits.2⟩
  have synced := irqSync_stable hooks m
  have watched : (irqSync hooks m).cpu.observed = false :=
    (congrArg Fixed.observed (Stable.fixed_eq synced)).trans debugged.unobserved
  -- The look for interrupts either stays or turns to a selected source.
  have chosen := handleSabInterrupts_cases hooks m
  have sabPath : handleInterrupts hooks m = handleSabInterrupts hooks m := if_pos debugged.sab
  rw [← sabPath] at chosen
  rcases chosen with ⟨stays, -⟩ | ⟨source, held, enabled, found, -, entry⟩
  · -- It stays: the instruction is executed, and nothing was entered.
    refine .executed (tick_executes free debugged settled bits.1 bits.2 stays) fun source entered => ?_
    have depth := tick_of_stay passive stays
    have deeper := entered.depth
    omega
  · -- It turns to a source: with room this is entered, and otherwise the push fails.
    rcases @enterInterrupt_outcome ω hooks (irqSync hooks m) source watched with
      room | ⟨refused, raised⟩
    · exact departure_entered debugged ready held enabled found room
    · exact departure_failed ready entry refused raised

end Boundaries

/-! ### Draining to the next boundary -/

section Draining

variable {ω : Type} {hooks : Hooks ω} {m : Machine ω}

/-- What a pending cycle leaves alone, beside the latch: all that is steady but their number. -/
def Cpu.undelayed (c : Cpu) : Stable :=
  { c.steady with fixed := { c.steady.fixed with tickDelay := 0 } }

/-- Equal program states agree on PCON. -/
theorem undelayed_pcon {a b : Cpu} (same : a.undelayed = b.undelayed)
    (sab : b.variant = .sab80535) : a.sfr Reg.pcon = b.sfr Reg.pcon := by
  have variant : a.variant = b.variant := congrArg (fun s : Stable => s.fixed.variant) same
  have entry := congrFun (congrArg Stable.sfr same) Reg.pcon
  have shown : isVolatile .sab80535 Reg.pcon = false := rfl
  simpa [Cpu.undelayed, Cpu.steady, Cpu.stable, variant, sab, shown] using entry

/-- Finishing what was started keeps the program state and the latch. -/
theorem drainTicks_undelayed (fuel : Nat) (m : Machine ω) :
    (drainTicks hooks fuel m).cpu.undelayed = m.cpu.undelayed ∧
      (drainTicks hooks fuel m).cpu.latch = m.cpu.latch := by
  refine drainTicks_keeps
    (I := fun n => n.cpu.undelayed = m.cpu.undelayed ∧ n.cpu.latch = m.cpu.latch)
    (fun n delayed unaborted before => ?_) fuel m ⟨rfl, rfl⟩
  -- A pending cycle moves the clock, and the program state is what it does not touch.
  rw [tick_pending unaborted delayed, advanceMachineCycle_latch]
  refine ⟨?_, before.2⟩
  rw [← before.1, Cpu.undelayed, advanceMachineCycle_steady]
  rfl

/-- A tick leaves the debugger's core what it is. -/
theorem tick_debugged (quiet : hooks.Quiet) (m : Machine ω) (debugged : m.cpu.Debugged) :
    (tick hooks m).2.cpu.Debugged := by
  have passive := quiet.passive
  -- Each part of the tick is checked for the four fields.
  refine tick_keeps (I := Cpu.Debugged)
    (fun c before => ⟨before.sab, before.wf, before.unobserved, before.unbroken⟩)
    (fun n before => ?_) (fun n before => ?_)
    (fun n before => ⟨before.sab, before.wf, before.unobserved, before.unbroken⟩)
    (fun c _ _ before => ⟨before.sab, before.wf, before.unobserved, before.unbroken⟩)
    (fun c _ before => ⟨before.sab, before.wf, before.unobserved, before.unbroken⟩)
    (fun n before => ⟨before.sab, before.wf, before.unobserved, before.unbroken⟩)
    (fun opcode n before => ?_) m debugged
  · -- A machine cycle leaves all of them.
    have same := advanceMachineCycle_steady hooks n
    have service : (advanceMachineCycle hooks n).cpu.service = n.cpu.service :=
      congrArg Stable.service same
    exact ⟨(congrArg (fun s : Stable => s.fixed.variant) same).trans before.sab,
      service ▸ before.wf,
      (congrArg (fun s : Stable => s.fixed.observed) same).trans before.unobserved,
      (congrArg (fun s : Stable => s.fixed.breakpointEnabled) same).trans before.unbroken⟩
  · -- An interrupt pushes one entry at most.
    obtain ⟨delay, fixed⟩ := handleInterrupts_fixed hooks n
    exact ⟨(congrArg Fixed.variant fixed).trans before.sab,
      handleInterrupts_service_wf n before.wf,
      (congrArg Fixed.observed fixed).trans before.unobserved,
      (congrArg Fixed.breakpointEnabled fixed).trans before.unbroken⟩
  · -- A body pops one at most.
    have fixed := Op.run_fixed quiet (opTable opcode) n
    exact ⟨(congrArg Fixed.variant fixed).trans before.sab,
      Op.run_held (I := fun h => h.service.Wf) passive (fun _ start => start.pop) _ n before.wf,
      (congrArg Fixed.observed fixed).trans before.unobserved,
      (congrArg Fixed.breakpointEnabled fixed).trans before.unbroken⟩

/-- So do the ticks of an instruction. -/
theorem drainTicks_debugged (quiet : hooks.Quiet) (fuel : Nat) (m : Machine ω)
    (debugged : m.cpu.Debugged) : (drainTicks hooks fuel m).cpu.Debugged :=
  drainTicks_keeps (I := fun n => n.cpu.Debugged) (fun n _ _ => tick_debugged quiet n) fuel m
    debugged

end Draining

/-! ### What a run executes -/

/-- The debugger installs no register callback. -/
theorem debuggerHooks_quiet : debuggerHooks.Quiet :=
  fun _ _ installed => absurd installed (by simp [debuggerHooks])

/-- So none of its callbacks moves the counters. -/
theorem debuggerHooks_unticking : debuggerHooks.Unticking where
  instructions := fun _ _ installed => absurd installed (by simp [debuggerHooks])
  cycles := fun _ _ installed => absurd installed (by simp [debuggerHooks])
  latched := fun _ _ installed => absurd installed (by simp [debuggerHooks])

/-- And nothing aborts its core. -/
theorem debuggerHooks_free (m : Machine Observed) : m.aborted debuggerHooks = false := rfl

/-- The machine `execute_one` hands to the loop of `run_control`. -/
def stepStart (m : Machine Observed) : Machine Observed :=
  Machine.unlatched { m with host := { m.host with instruction := false } }

/--
The ticks by which one machine of the debugger becomes another, whatever loop makes them.

The list holds the instruction boundaries they leave, in order.
-/
inductive Execution : Machine Observed → List (Machine Observed) → Machine Observed → Prop
  /-- Nothing is executed. -/
  | done (m : Machine Observed) : Execution m [] m
  /-- `execute_one` clears its notice of an instruction and the latch of an exception. -/
  | begins {m n : Machine Observed} {path : List (Machine Observed)}
      (rest : Execution (stepStart m) path n) : Execution m path n
  /-- A tick leaves a boundary. -/
  | leaves {m n : Machine Observed} {path : List (Machine Observed)}
      (settled : m.cpu.tickDelay = 0) (rest : Execution (tick debuggerHooks m).2 path n) :
      Execution m (m :: path) n
  /-- A tick spends a pending cycle of what was started. -/
  | waits {m n : Machine Observed} {path : List (Machine Observed)}
      (pending : m.cpu.tickDelay ≠ 0) (rest : Execution (tick debuggerHooks m).2 path n) :
      Execution m path n

/-- One execution follows another. -/
theorem Execution.append {a b c : Machine Observed} {early late : List (Machine Observed)}
    (first : Execution a early b) (second : Execution b late c) :
    Execution a (early ++ late) c := by
  -- The induction is on the first of the two.
  induction first with
  | done m => exact second
  | begins _ ih => exact .begins (ih second)
  | leaves settled _ ih => exact .leaves settled (ih second)
  | waits pending _ ih => exact .waits pending (ih second)

/-- The inner loop of `run_control` leaves no boundary. -/
theorem drainTicks_execution (fuel : Nat) {m n : Machine Observed}
    {path : List (Machine Observed)} (rest : Execution (drainTicks debuggerHooks fuel m) path n) :
    Execution m path n := by
  -- Induction on the fuel; a machine that still waits is at no boundary.
  induction fuel generalizing m with
  | zero => exact rest
  | succ fuel ih =>
    simp only [drainTicks] at rest
    split at rest
    · rename_i busy
      exact .waits busy.1 (ih rest)
    · exact rest

/-- The boundaries one `em8051_step_instruction` leaves by a tick, in the shape of its loop. -/
def stepDepartures (start : Nat) : Nat → Machine Observed → List (Machine Observed)
  | 0, _ => []
  | fuel + 1, m =>
    let m := drainTicks debuggerHooks m.cpu.tickDelay m
    match stopAt debuggerHooks none start 1 m with
    | some _ => []
    | none => m :: stepDepartures start fuel (tick debuggerHooks m).2

/-- The boundaries an `em8051_debugger_run` leaves by a tick, in the shape of its loop. -/
def departures (fuel : Nat) (breakpoints : Bitmap) :
    Nat → Machine Observed → List (Machine Observed)
  | 0, _ => []
  | left + 1, m =>
    if breakpointAt breakpoints m.cpu.pc then []
    else
      stepDepartures m.cpu.instructionCount fuel (stepStart m) ++
        match executeOne fuel m with
        | some (.step, _, n) => departures fuel breakpoints left n
        | _ => []

/--
A boundary from which the debugger overlooks no breakpoint.

The tick that leaves it enters no interrupt whose vector has one, and the instruction it executes,
unless it is the last before the bound, does not stop the run at one for another reason.
-/
structure SeenFrom (breakpoints : Bitmap) (bound : Nat) (k : Machine Observed) : Prop where
  vectors : ∀ source, k.Enters debuggerHooks source →
    breakpointAt breakpoints source.vector = false
  runs : (tick debuggerHooks k).1 = true → k.cpu.instructionCount + 1 < bound →
    breakpointAt breakpoints (tick debuggerHooks k).2.cpu.pc = true →
      (tick debuggerHooks k).2.cpu.exceptionRaised = false ∧
        has ((tick debuggerHooks k).2.cpu.sfr Reg.pcon) (Pcon.idle ||| Pcon.powerDown) = false

/-! ### One step -/

/-- A step obeys the breakpoints: it leaves no boundary that has one, nor ends the run at one. -/
structure StepObeys (breakpoints : Bitmap) (bound : Nat) (path : List (Machine Observed))
    (reason : StopReason) (n : Machine Observed) : Prop where
  holds : ∀ k ∈ path, breakpointAt breakpoints k.cpu.pc = false
  ends : reason ≠ .instructionLimit → n.cpu.instructionCount < bound →
    breakpointAt breakpoints n.cpu.pc = false

section Step

variable {m n : Machine Observed} {start fuel bound : Nat} {breakpoints : Bitmap}
  {reason : StopReason}

/-- Where a step stops for its limit, nothing else stops it. -/
theorem stopAt_reason (unbroken : m.cpu.breakpointEnabled = false)
    (stops : stopAt debuggerHooks none start 1 m = some reason) :
    reason = .instructionLimit ↔ m.cpu.exceptionRaised = false ∧
      has (m.cpu.sfr Reg.pcon) (Pcon.idle ||| Pcon.powerDown) = false := by
  -- The limit is the last of the tests, and the core has no breakpoint of its own.
  simp only [stopAt, debuggerHooks_free, unbroken, Bool.false_eq_true, if_false, false_and,
    reduceCtorEq] at stops
  cases raised : m.cpu.exceptionRaised with
  | true =>
    simp only [raised, if_true, Option.some.injEq] at stops
    simp [← stops]
  | false =>
    simp only [raised, Bool.false_eq_true, if_false] at stops
    cases halted : has (m.cpu.sfr Reg.pcon) (Pcon.idle ||| Pcon.powerDown) with
    | true =>
      simp only [halted, if_true, Option.some.injEq] at stops
      simp [← stops]
    | false =>
      simp only [halted, Bool.false_eq_true, if_false] at stops
      split at stops
      · simp only [Option.some.injEq] at stops
        simp [← stops]
      · exact absurd stops (by simp)

/-- What a core without a breakpoint of its own shows where a step stops. -/
theorem stopAt_shows (unbroken : m.cpu.breakpointEnabled = false)
    (stops : stopAt debuggerHooks none start 1 m = some reason) :
    (reason = .exception ∧ m.cpu.exceptionRaised = true) ∨
      (reason = .halt ∧ has (m.cpu.sfr Reg.pcon) (Pcon.idle ||| Pcon.powerDown) = true) ∨
      reason = .instructionLimit := by
  simp only [stopAt, debuggerHooks_free, unbroken, Bool.false_eq_true, if_false, false_and,
    reduceCtorEq] at stops
  repeat' split at stops
  all_goals simp_all

/-- A boundary of a core that raised nothing and is awake is left before anything was executed. -/
theorem stopAt_goes (debugged : m.cpu.Debugged) (unraised : m.cpu.exceptionRaised = false)
    (awake : has (m.cpu.sfr Reg.pcon) (Pcon.idle ||| Pcon.powerDown) = false)
    (count : m.cpu.instructionCount = start) : stopAt debuggerHooks none start 1 m = none := by
  simp [stopAt, debuggerHooks_free, unraised, debugged.unbroken, awake, count]

/-- And a boundary that is left is one of them. -/
theorem stopAt_awake (goes : stopAt debuggerHooks none start 1 m = none) :
    has (m.cpu.sfr Reg.pcon) (Pcon.idle ||| Pcon.powerDown) = false := by
  cases halted : has (m.cpu.sfr Reg.pcon) (Pcon.idle ||| Pcon.powerDown) with
  | false => rfl
  | true =>
    simp only [stopAt, halted, if_true] at goes
    repeat' split at goes
    all_goals exact absurd goes (by simp)

/-- The boundary that follows a tick. -/
def nextBoundary (m : Machine Observed) : Machine Observed :=
  drainTicks debuggerHooks (tick debuggerHooks m).2.cpu.tickDelay (tick debuggerHooks m).2

/-- What the boundary after a tick has in common with the tick's machine. -/
structure NextOf (m k : Machine Observed) : Prop where
  debugged : k.cpu.Debugged
  settled : k.cpu.tickDelay = 0
  pc : k.cpu.pc = (tick debuggerHooks m).2.cpu.pc
  pcon : k.cpu.sfr Reg.pcon = (tick debuggerHooks m).2.cpu.sfr Reg.pcon
  raised : k.cpu.exceptionRaised = (tick debuggerHooks m).2.cpu.exceptionRaised
  depth : k.cpu.service.depth = (tick debuggerHooks m).2.cpu.service.depth
  count : k.cpu.instructionCount = m.cpu.instructionCount + (tick debuggerHooks m).1.toNat

/-- It is where the tick left the program. -/
theorem nextBoundary_spec (debugged : m.cpu.Debugged) : NextOf m (nextBoundary m) := by
  have ticked := tick_debugged debuggerHooks_quiet m debugged
  -- Draining only ticks away the delay.
  obtain ⟨same, latch⟩ := @drainTicks_undelayed Observed debuggerHooks
    (tick debuggerHooks m).2.cpu.tickDelay (tick debuggerHooks m).2
  -- With as much fuel as delay it is at a boundary behind.
  have settles := @drainTicks_settles Observed debuggerHooks
    (tick debuggerHooks m).2.cpu.tickDelay (tick debuggerHooks m).2 (Nat.le_refl _)
  refine ⟨drainTicks_debugged debuggerHooks_quiet _ _ ticked,
    settles.resolve_right fun aborted => ?_, congrArg Stable.pc same,
    undelayed_pcon same ticked.sab, congrArg Prod.fst latch,
    congrArg (fun s : Stable => s.service.depth) same, ?_⟩
  · -- The debugger has no callback that could abort.
    exact absurd aborted (by simp [debuggerHooks_free])
  · exact (congrArg (fun s : Stable => s.fixed.instructionCount) same).trans
      -- The tick counted the instruction, if it executed one.
      (tick_ticked debuggerHooks_unticking m).instructions

/-- A step goes on from the next boundary. -/
theorem step_goes (debugged : m.cpu.Debugged) (settled : m.cpu.tickDelay = 0)
    (goes : stopAt debuggerHooks none start 1 m = none) :
    runLoop debuggerHooks none start 1 (fuel + 1) m =
      runLoop debuggerHooks none start 1 fuel (nextBoundary m) := by
  have still := @drainTicks_of_settled Observed debuggerHooks m m.cpu.tickDelay settled
  simp only [runLoop, still, goes]
  exact runLoop_drained (nextBoundary_spec debugged).settled

/-- And leaves the one it stood at. -/
theorem stepDepartures_goes (debugged : m.cpu.Debugged) (settled : m.cpu.tickDelay = 0)
    (goes : stopAt debuggerHooks none start 1 m = none) :
    stepDepartures start (fuel + 1) m = m :: stepDepartures start fuel (nextBoundary m) := by
  have still := @drainTicks_of_settled Observed debuggerHooks m m.cpu.tickDelay settled
  have again := @drainTicks_of_settled Observed debuggerHooks (nextBoundary m)
    (nextBoundary m).cpu.tickDelay (nextBoundary_spec debugged).settled
  simp only [stepDepartures, still, goes, List.cons.injEq, true_and]
  -- Draining twice is draining once.
  cases fuel with
  | zero => rfl
  | succ fuel =>
    simp only [stepDepartures, again]
    rfl

/-- A step ends at a boundary where one of its tests stops it. -/
theorem step_ends (settled : m.cpu.tickDelay = 0)
    (stops : stopAt debuggerHooks none start 1 m = some reason) :
    runLoop debuggerHooks none start 1 (fuel + 1) m = some (reason, m) := by
  have still := @drainTicks_of_settled Observed debuggerHooks m m.cpu.tickDelay settled
  simp only [runLoop, still, stops]

/-- And leaves none from there. -/
theorem stepDepartures_ends (settled : m.cpu.tickDelay = 0)
    (stops : stopAt debuggerHooks none start 1 m = some reason) :
    stepDepartures start (fuel + 1) m = [] := by
  have still := @drainTicks_of_settled Observed debuggerHooks m m.cpu.tickDelay settled
  simp only [stepDepartures, still, stops]

/--
A step returns, by ticks that obey the breakpoints exactly when the boundaries they leave overlook
none.

The law is about a step that starts where there is no breakpoint, as those of a run do.
-/
structure StepLaw (breakpoints : Bitmap) (bound start fuel : Nat) (m : Machine Observed)
    (reason : StopReason) (n : Machine Observed) : Prop where
  returns : runLoop debuggerHooks none start 1 fuel m = some (reason, n)
  execution : Execution m (stepDepartures start fuel m) n
  law : breakpointAt breakpoints m.cpu.pc = false →
    (StepObeys breakpoints bound (stepDepartures start fuel m) reason n ↔
      ∀ k ∈ stepDepartures start fuel m, SeenFrom breakpoints bound k)

/-- A step that is stopped where it starts leaves no boundary. -/
theorem stepLaw_stopped (settled : m.cpu.tickDelay = 0)
    (stops : stopAt debuggerHooks none start 1 m = some reason) :
    StepLaw breakpoints bound start (fuel + 1) m reason m := by
  have none := @stepDepartures_ends m start fuel reason settled stops
  refine ⟨step_ends settled stops, none ▸ .done m, fun clear => ?_⟩
  rw [none]
  exact iff_of_true ⟨by simp, fun _ _ => clear⟩ (by simp)

/-- A step that is stopped at the next boundary leaves one. -/
theorem stepLaw_one (debugged : m.cpu.Debugged) (settled : m.cpu.tickDelay = 0)
    (goes : stopAt debuggerHooks none start 1 m = none)
    (stops : stopAt debuggerHooks none start 1 (nextBoundary m) = some reason)
    (law : breakpointAt breakpoints m.cpu.pc = false →
      ((reason ≠ .instructionLimit → (nextBoundary m).cpu.instructionCount < bound →
          breakpointAt breakpoints (nextBoundary m).cpu.pc = false) ↔
        SeenFrom breakpoints bound m)) :
    StepLaw breakpoints bound start (fuel + 2) m reason (nextBoundary m) := by
  have rest := (nextBoundary_spec debugged).settled
  -- The step departs once, from where it began.
  have one : stepDepartures start (fuel + 2) m = [m] := by
    rw [stepDepartures_goes debugged settled goes, stepDepartures_ends rest stops]
  refine ⟨(step_goes debugged settled goes).trans (step_ends rest stops), ?_, fun clear => ?_⟩
  · rw [one]
    -- The execution leaves the boundary and is at the next.
    exact .leaves settled (drainTicks_execution _ (.done _))
  · rw [one, List.forall_mem_singleton, ← law clear]
    exact ⟨StepObeys.ends, fun ends => ⟨by simpa using clear, ends⟩⟩

/-- A step whose tick executed the instruction has reached its limit at the next boundary. -/
theorem step_outcome_executed (debugged : m.cpu.Debugged) (settled : m.cpu.tickDelay = 0)
    (count : m.cpu.instructionCount = start)
    (goes : stopAt debuggerHooks none start 1 m = none) (done : (tick debuggerHooks m).1 = true)
    (stays : ∀ source, ¬m.Enters debuggerHooks source) :
    ∃ reason n, StepLaw breakpoints bound start (fuel + 2) m reason n := by
  have next := nextBoundary_spec debugged
  have counted := next.count
  rw [done, Bool.toNat_true] at counted
  have finished : ∃ reason,
      stopAt debuggerHooks none start 1 (nextBoundary m) = some reason := by
    cases answer : stopAt debuggerHooks none start 1 (nextBoundary m) with
    | some reason => exact ⟨reason, rfl⟩
    | none =>
      have short := stopAt_none answer
      omega
  obtain ⟨reason, ends⟩ := finished
  have why := stopAt_reason next.debugged.unbroken ends
  rw [next.raised, next.pcon] at why
  refine ⟨reason, nextBoundary m, stepLaw_one debugged settled goes ends fun _ => ?_⟩
  -- The step ends the run at a breakpoint exactly when something else than its limit stops it.
  rw [next.pc, counted]
  constructor
  · intro clears
    refine ⟨fun other entered => absurd entered (stays other), fun _ budget broken => ?_⟩
    by_contra other
    have held := clears (fun limit => other (why.mp limit)) budget
    exact absurd (held.symm.trans broken) (by decide)
  · intro seen other budget
    by_contra broken
    exact other (why.mpr (seen.runs done budget (by simpa using broken)))

/-- A step whose tick failed to enter an interrupt ends where it stood. -/
theorem step_outcome_failed (debugged : m.cpu.Debugged) (settled : m.cpu.tickDelay = 0)
    (goes : stopAt debuggerHooks none start 1 m = none) (idle : (tick debuggerHooks m).1 = false)
    (thrown : (tick debuggerHooks m).2.cpu.exceptionRaised = true)
    (still : (tick debuggerHooks m).2.cpu.pc = m.cpu.pc)
    (stays : ∀ source, ¬m.Enters debuggerHooks source) :
    ∃ reason n, StepLaw breakpoints bound start (fuel + 2) m reason n := by
  have next := nextBoundary_spec debugged
  -- The exception stops the step at once.
  have ends : stopAt debuggerHooks none start 1 (nextBoundary m) = some .exception := by
    simp [stopAt, debuggerHooks_free, next.raised, thrown]
  refine ⟨.exception, nextBoundary m,
    stepLaw_one debugged settled goes ends fun clear => iff_of_true ?_ ?_⟩
  · -- The counter has not moved, so the breakpoint test has the answer it had.
    intro _ _
    rw [next.pc, still]
    exact clear
  · -- The machine has neither entered anything nor executed an instruction.
    exact ⟨fun other entered => absurd entered (stays other),
      fun done => absurd (idle.symm.trans done) (by decide)⟩

/-- A step whose tick entered an interrupt goes on from the vector. -/
theorem step_outcome_entered {source : IrqSource} (debugged : m.cpu.Debugged)
    (settled : m.cpu.tickDelay = 0) (goes : stopAt debuggerHooks none start 1 m = none)
    (idle : (tick debuggerHooks m).1 = false) (enters : m.Enters debuggerHooks source)
    (vector : (nextBoundary m).cpu.pc = source.vector)
    (onward : stopAt debuggerHooks none start 1 (nextBoundary m) = none)
    (later : StepLaw breakpoints bound start (fuel + 1) (nextBoundary m) reason n) :
    StepLaw breakpoints bound start (fuel + 2) m reason n := by
  have next := nextBoundary_spec debugged
  have passed := @stepDepartures_goes m start (fuel + 1) debugged settled goes
  refine ⟨(step_goes debugged settled goes).trans later.returns, ?_, fun clear => ?_⟩
  · rw [passed]
    exact .leaves settled (drainTicks_execution _ later.execution)
  rw [passed]
  cases broken : breakpointAt breakpoints source.vector with
  | true =>
    -- The step leaves the vector although it has a breakpoint.
    have leaves := @stepDepartures_goes _ start fuel next.debugged next.settled onward
    refine iff_of_false (fun obeys => ?_) fun seen => ?_
    · have held := obeys.holds (nextBoundary m)
        (by rw [leaves]; exact List.mem_cons_of_mem _ List.mem_cons_self)
      rw [vector] at held
      exact absurd (held.symm.trans broken) (by decide)
    · have held := (seen m List.mem_cons_self).vectors source enters
      exact absurd (held.symm.trans broken) (by decide)
  | false =>
    have law := later.law (by rw [vector]; exact broken)
    have first : SeenFrom breakpoints bound m := by
      refine ⟨fun other entered => ?_, fun done => absurd (idle.symm.trans done) (by decide)⟩
      have only : source = other :=
        irqSource_toNat_inj (enters.source.symm.trans entered.source)
      exact only ▸ broken
    rw [List.forall_mem_cons, ← law]
    refine ⟨fun obeys => ⟨first, fun k inside => ?_, obeys.ends⟩, fun obeys => ⟨?_, obeys.2.ends⟩⟩
    · exact obeys.holds k (List.mem_cons_of_mem m inside)
    · exact List.forall_mem_cons.mpr ⟨clear, obeys.2.holds⟩

/--
Every step has an outcome under the law.

The in-service stack has four levels, so six iterations are always enough.
-/
theorem step_outcome (breakpoints : Bitmap) (bound start fuel : Nat) (m : Machine Observed)
    (debugged : m.cpu.Debugged) (settled : m.cpu.tickDelay = 0)
    (unraised : m.cpu.exceptionRaised = false) (count : m.cpu.instructionCount = start)
    (enough : 6 ≤ fuel + m.cpu.service.depth) :
    ∃ reason n, StepLaw breakpoints bound start fuel m reason n := by
  have shallow := debugged.wf.depth_le
  -- Each entry takes one iteration and one level, so the induction is on the fuel.
  induction fuel generalizing m with
  | zero => omega
  | succ fuel ih =>
    cases goes : stopAt debuggerHooks none start 1 m with
    | some reason => exact ⟨reason, m, stepLaw_stopped settled goes⟩
    | none =>
      have awake := stopAt_awake goes
      have next := nextBoundary_spec debugged
      obtain ⟨spare, rfl⟩ : ∃ spare, fuel = spare + 1 := ⟨fuel - 1, by omega⟩
      rcases departure debuggerHooks_quiet.passive debuggerHooks_free debugged settled awake with
        ⟨done, stays⟩ | ⟨source, idle, enters, effect, unlatched⟩ | ⟨idle, thrown, still, stays⟩
      · exact step_outcome_executed debugged settled count goes done stays
      · have deeper := next.depth.trans enters.depth
        have counted := next.count
        rw [idle, Bool.toNat_false, Nat.add_zero] at counted
        have quiet := next.raised.trans ((congrArg Prod.fst unlatched).trans unraised)
        have woken : has ((nextBoundary m).cpu.sfr Reg.pcon) (Pcon.idle ||| Pcon.powerDown) =
            false := by
          rw [next.pcon, effect.pcon]
          cases still : has (m.cpu.sfr Reg.pcon &&& ~~~Pcon.idle) (Pcon.idle ||| Pcon.powerDown) with
          | false => rfl
          | true => exact absurd (awake.symm.trans (has_of_and still)) (by decide)
        have level := next.debugged.wf.depth_le
        obtain ⟨reason, n, later⟩ := ih (nextBoundary m) next.debugged next.settled quiet
          (counted.trans count) (by omega) level
        exact ⟨reason, n, step_outcome_entered debugged settled goes idle enters
          (next.pc.trans effect.pc) (stopAt_goes next.debugged quiet woken (counted.trans count))
          later⟩
      · exact step_outcome_failed debugged settled goes idle thrown still stays

end Step

/-! ### A whole run -/

/-- `execute_one` is the loop of `run_control` with its reason translated. -/
theorem executeOne_eq (fuel : Nat) (m : Machine Observed) :
    executeOne fuel m =
      (runLoop debuggerHooks none m.cpu.instructionCount 1 fuel (stepStart m)).map fun (why, n) =>
        match why with
        | .exception =>
          (.exception, if n.cpu.exceptionRaised then n.cpu.lastException else none, n)
        | .halt => (.halt, none, n)
        | _ => (.step, none, n) := by
  -- Starting the step clears the exception and counts from the instructions so far.
  simp only [executeOne, stepInstruction, runControl]
  show (runLoop debuggerHooks none m.cpu.instructionCount 1 fuel (stepStart m)).bind _ = _
  cases runLoop debuggerHooks none m.cpu.instructionCount 1 fuel (stepStart m) with
  | none => rfl
  | some answer =>
    obtain ⟨why, n⟩ := answer
    -- Each reason of the core has one of the debugger.
    cases why <;> rfl

/-- Where a step ends, the core is at a boundary again. -/
theorem runLoop_debugged {m n : Machine Observed} {start fuel : Nat} {reason : StopReason}
    (debugged : m.cpu.Debugged)
    (found : runLoop debuggerHooks none start 1 fuel m = some (reason, n)) :
    n.cpu.Debugged ∧ n.cpu.tickDelay = 0 := by
  refine ⟨runLoop_keeps (I := fun k => k.cpu.Debugged)
    (fun k _ _ => tick_debugged debuggerHooks_quiet k)
    (fun k _ => tick_debugged debuggerHooks_quiet k) debugged found, ?_⟩
  refine (runLoop_stops found).2.resolve_right fun aborted => ?_
  exact absurd aborted (by simp [debuggerHooks_free])

/-- Clearing the exception leaves the debugger's core. -/
theorem stepStart_debugged {m : Machine Observed} (debugged : m.cpu.Debugged) :
    (stepStart m).cpu.Debugged :=
  ⟨debugged.sab, debugged.wf, debugged.unobserved, debugged.unbroken⟩

/--
A run obeys the breakpoints: it leaves no boundary that has one, and where it ends at one with
budget to spare, that is what it reports.
-/
structure RunObeys (breakpoints : Bitmap) (bound : Nat) (path : List (Machine Observed))
    (reason : DebugReason) (n : Machine Observed) : Prop where
  holds : ∀ k ∈ path, breakpointAt breakpoints k.cpu.pc = false
  ends : n.cpu.instructionCount < bound → breakpointAt breakpoints n.cpu.pc = true →
    reason = .breakpoint

/-- Why a run ends where it does. -/
inductive DebugEnds (breakpoints : Bitmap) (bound : Nat) (n : Machine Observed) :
    DebugReason → Prop
  | breakpoint (spare : n.cpu.instructionCount < bound)
      (here : breakpointAt breakpoints n.cpu.pc = true) : DebugEnds breakpoints bound n .breakpoint
  | yield (spent : n.cpu.instructionCount = bound) : DebugEnds breakpoints bound n .yield
  | exception (raised : n.cpu.exceptionRaised = true) : DebugEnds breakpoints bound n .exception
  | halt (halted : has (n.cpu.sfr Reg.pcon) (Pcon.idle ||| Pcon.powerDown) = true) :
      DebugEnds breakpoints bound n .halt

/--
The loop returns at a boundary it has reached by ticks, and they obey exactly when all the
boundaries they leave are seen.
-/
structure LoopLaw (fuel : Nat) (breakpoints : Bitmap) (bound left : Nat) (m : Machine Observed)
    (reason : DebugReason) (code : Option ExceptionCode) (n : Machine Observed) : Prop where
  returns : debuggerLoop fuel breakpoints left m = some (reason, code, n)
  execution : Execution m (departures fuel breakpoints left m) n
  why : DebugEnds breakpoints bound n reason
  law : RunObeys breakpoints bound (departures fuel breakpoints left m) reason n ↔
    ∀ k ∈ departures fuel breakpoints left m, SeenFrom breakpoints bound k

section Loop

variable {fuel bound left : Nat} {breakpoints : Bitmap} {m n : Machine Observed}
  {code : Option ExceptionCode}

/-- A run whose step ended it for another reason than its limit. -/
theorem loopLaw_ends {why : StopReason} {reason : DebugReason}
    (clear : breakpointAt breakpoints m.cpu.pc = false)
    (one : executeOne fuel m = some (reason, code, n))
    (kind : reason = .exception ∨ reason = .halt) (shows : DebugEnds breakpoints bound n reason)
    (short : why ≠ .instructionLimit)
    (step : StepLaw breakpoints bound m.cpu.instructionCount fuel (stepStart m) why n) :
    LoopLaw fuel breakpoints bound (left + 1) m reason code n := by
  -- The run departs where its only step does.
  have passed : departures fuel breakpoints (left + 1) m =
      stepDepartures m.cpu.instructionCount fuel (stepStart m) := by
    rcases kind with rfl | rfl <;> simp [departures, clear, one]
  refine ⟨?_, passed ▸ .begins step.execution, shows, ?_⟩
  · rcases kind with rfl | rfl <;> simp [debuggerLoop, clear, one]
  · -- Obeying all along means the same of the step, since neither reason is a breakpoint.
    rw [passed, ← step.law clear]
    refine ⟨fun obeys => ⟨obeys.holds, fun _ budget => ?_⟩,
      fun obeys => ⟨obeys.holds, fun budget broken => ?_⟩⟩
    · -- A breakpoint at the end would have to be reported as one.
      by_contra broken
      have same := obeys.ends budget (by simpa using broken)
      rcases kind with rfl | rfl <;> exact absurd same (by decide)
    · exact absurd ((obeys.ends short budget).symm.trans broken) (by decide)

/-- A run whose step executed its instruction goes on with the rest of its budget. -/
theorem loopLaw_goes {reason : DebugReason} {k : Machine Observed}
    (clear : breakpointAt breakpoints m.cpu.pc = false)
    (one : executeOne fuel m = some (.step, none, n))
    (step : StepLaw breakpoints bound m.cpu.instructionCount fuel (stepStart m)
      .instructionLimit n)
    (later : LoopLaw fuel breakpoints bound left n reason code k) :
    LoopLaw fuel breakpoints bound (left + 1) m reason code k := by
  -- The run departs where the step does, and then where its rest does.
  have passed : departures fuel breakpoints (left + 1) m =
      stepDepartures m.cpu.instructionCount fuel (stepStart m) ++
        departures fuel breakpoints left n := by
    simp only [departures, clear, Bool.false_eq_true, if_false, one]
  refine ⟨?_, ?_, later.why, ?_⟩
  · simp only [debuggerLoop, clear, Bool.false_eq_true, if_false, one]
    exact later.returns
  · rw [passed]
    exact (Execution.begins step.execution).append later.execution
  · -- Obeying both parts is obeying all of it.
    rw [passed, List.forall_mem_append, ← step.law clear, ← later.law]
    constructor
    · intro obeys
      obtain ⟨early, late⟩ := List.forall_mem_append.mp obeys.holds
      exact ⟨⟨early, fun other => absurd rfl other⟩, ⟨late, obeys.ends⟩⟩
    · rintro ⟨early, late⟩
      exact ⟨List.forall_mem_append.mpr ⟨early.holds, late.holds⟩, late.ends⟩

end Loop

/-- From every boundary and for every budget the loop of a run has an outcome under the law. -/
theorem debuggerLoop_outcome (breakpoints : Bitmap) {fuel : Nat} (enough : 6 ≤ fuel)
    (bound left : Nat) (m : Machine Observed) (debugged : m.cpu.Debugged)
    (settled : m.cpu.tickDelay = 0) (budget : m.cpu.instructionCount + left = bound) :
    ∃ reason code n, LoopLaw fuel breakpoints bound left m reason code n := by
  -- The induction is on the budget; each step adds the boundaries it leaves.
  induction left generalizing m with
  | zero =>
    refine ⟨.yield, none, m, rfl, .done m, .yield budget, iff_of_true ⟨?_, ?_⟩ ?_⟩
    · exact fun k member => absurd member List.not_mem_nil
    · intro spare
      omega
    · exact fun k member => absurd member List.not_mem_nil
  | succ left ih =>
    cases clear : breakpointAt breakpoints m.cpu.pc with
    | true =>
      have here : departures fuel breakpoints (left + 1) m = [] := by simp [departures, clear]
      refine ⟨.breakpoint, none, m, by simp [debuggerLoop, clear], here ▸ .done m,
        .breakpoint (by omega) clear, ?_⟩
      rw [here]
      exact iff_of_true ⟨by simp, fun _ _ => rfl⟩ (by simp)
    | false =>
      obtain ⟨why, n, step⟩ := step_outcome breakpoints bound m.cpu.instructionCount fuel
        (stepStart m) (stepStart_debugged debugged) settled rfl rfl (by omega)
      obtain ⟨after, rest⟩ := runLoop_debugged (stepStart_debugged debugged) step.returns
      have one := executeOne_eq fuel m
      rw [step.returns] at one
      rcases stopAt_shows after.unbroken (runLoop_stops step.returns).1 with
        ⟨rfl, raised⟩ | ⟨rfl, halted⟩ | rfl
      · exact ⟨_, _, n, loopLaw_ends clear one (Or.inl rfl) (.exception raised) (by decide) step⟩
      · exact ⟨_, _, n, loopLaw_ends clear one (Or.inr rfl) (.halt halted) (by decide) step⟩
      · have counted := runLoop_exact debuggerHooks_unticking step.returns rfl
        have spent : (stepStart m).cpu.instructionCount = m.cpu.instructionCount := rfl
        obtain ⟨reason, code, k, law⟩ := ih n after rest (by omega)
        exact ⟨reason, code, k, loopLaw_goes clear one step law⟩

/-! ### Reachable debuggers -/

/-- The states calls of the facade lead to. -/
inductive Debugging : Debugger → Prop
  | create : Debugging debuggerCreate
  | load {d : Debugger} (image : Word → Byte) (before : Debugging d) :
      Debugging (debuggerLoad image d)
  | reset {d : Debugger} (seed : BitVec 32) (entry : Word) (before : Debugging d) :
      Debugging (debuggerReset seed entry d).2
  | replaceBreakpoints {d : Debugger} (addresses : List Word) (before : Debugging d) :
      Debugging (debuggerReplaceBreakpoints addresses d).2
  | run {d e : Debugger} {fuel limit : Nat} {status : DebugStatus} (before : Debugging d)
      (ran : debuggerRun fuel limit d = some (status, e)) : Debugging e
  | step {d e : Debugger} {fuel : Nat} {status : DebugStatus} (before : Debugging d)
      (ran : debuggerStep fuel d = some (status, e)) : Debugging e

/-- What a step of the facade leaves is a boundary of its core. -/
theorem executeOne_debugged {m n : Machine Observed} {fuel : Nat} {reason : DebugReason}
    {code : Option ExceptionCode} (debugged : m.cpu.Debugged)
    (ran : executeOne fuel m = some (reason, code, n)) : n.cpu.Debugged ∧ n.cpu.tickDelay = 0 := by
  rw [executeOne_eq, Option.map_eq_some_iff] at ran
  obtain ⟨⟨why, k⟩, found, same⟩ := ran
  have last : k = n := by
    cases why <;> simp only [Prod.mk.injEq] at same <;> exact same.2.2
  rw [← last]
  exact runLoop_debugged (stepStart_debugged debugged) found

/-- And so is what a run leaves, whatever its fuel. -/
theorem debuggerLoop_debugged {fuel : Nat} {breakpoints : Bitmap} (left : Nat)
    {m n : Machine Observed} {reason : DebugReason} {code : Option ExceptionCode}
    (debugged : m.cpu.Debugged) (settled : m.cpu.tickDelay = 0)
    (ran : debuggerLoop fuel breakpoints left m = some (reason, code, n)) :
    n.cpu.Debugged ∧ n.cpu.tickDelay = 0 := by
  -- Induction on the budget.
  induction left generalizing m with
  | zero =>
    simp only [debuggerLoop, Option.some.injEq, Prod.mk.injEq] at ran
    rw [← ran.2.2]
    exact ⟨debugged, settled⟩
  -- The run ends at a breakpoint, without fuel, by its step, or goes on.
  | succ left ih =>
    simp only [debuggerLoop] at ran
    split at ran
    · simp only [Option.some.injEq, Prod.mk.injEq] at ran
      rw [← ran.2.2]
      exact ⟨debugged, settled⟩
    · split at ran
      · exact absurd ran (by simp)
      · rename_i one
        simp only [Option.some.injEq, Prod.mk.injEq] at ran
        rw [← ran.2.2]
        exact executeOne_debugged debugged one
      · rename_i one
        simp only [Option.some.injEq, Prod.mk.injEq] at ran
        rw [← ran.2.2]
        exact executeOne_debugged debugged one
      · rename_i one
        obtain ⟨after, rest⟩ := executeOne_debugged debugged one
        exact ih after rest ran

/-- A reset core is a boundary. -/
theorem reset_debugged {c : Cpu} (sab : c.variant = .sab80535)
    (unobserved : c.observed = false) : (Cpu.reset true 0#8 c).Debugged := by
  refine ⟨?_, IrqService.Wf.reset, ?_, rfl⟩
  · simp only [Cpu.reset, if_true, Cpu.wipeMemory]
    split <;> exact sab
  · simp only [Cpu.reset, if_true, Cpu.wipeMemory]
    split <;> exact unobserved

/-- Between calls the core of a debugger is always at a boundary. -/
theorem Debugging.debugged {d : Debugger} (debugging : Debugging d) :
    d.machine.cpu.Debugged ∧ d.machine.cpu.tickDelay = 0 := by
  -- One case for each call of the debugger.
  induction debugging with
  | create => exact ⟨reset_debugged rfl rfl, rfl⟩
  | load image _ ih => exact ⟨⟨ih.1.sab, ih.1.wf, ih.1.unobserved, ih.1.unbroken⟩, ih.2⟩
  -- A reset gives a fresh core, an invalid entry point changes nothing.
  | @reset d seed entry _ ih =>
    simp only [debuggerReset]
    split
    · have fresh := @reset_debugged
        { d.machine.cpu with resetSeed := seed, resetSeedConfigured := true } ih.1.sab
        ih.1.unobserved
      exact ⟨⟨fresh.sab, fresh.wf, fresh.unobserved, fresh.unbroken⟩, rfl⟩
    · exact ih
  -- Breakpoints are no part of the core.
  | replaceBreakpoints addresses _ ih =>
    simp only [debuggerReplaceBreakpoints]
    split
    · exact ih
    · split <;> exact ih
  -- A run is refused, or leaves what its loop leaves.
  | run _ ran ih =>
    simp only [debuggerRun] at ran
    split at ran
    · simp only [Option.some.injEq, Prod.mk.injEq] at ran
      exact ran.2 ▸ ih
    · split at ran
      · simp only [Option.some.injEq, Prod.mk.injEq] at ran
        exact ran.2 ▸ ih
      · obtain ⟨⟨reason, code, n⟩, loop, same⟩ := Option.map_eq_some_iff.mp ran
        simp only [Prod.mk.injEq] at same
        rw [← same.2]
        exact debuggerLoop_debugged _ ih.1 ih.2 loop
  -- And so is a step.
  | step _ ran ih =>
    simp only [debuggerStep] at ran
    split at ran
    · simp only [Option.some.injEq, Prod.mk.injEq] at ran
      exact ran.2 ▸ ih
    · obtain ⟨⟨reason, code, n⟩, one, same⟩ := Option.map_eq_some_iff.mp ran
      simp only [Prod.mk.injEq] at same
      rw [← same.2]
      exact executeOne_debugged ih.1 one

/--
Run to breakpoint: in every state of a debugger with a valid boundary, a run within the allowed
budget returns a machine it has reached by ticks, and these obey the breakpoints exactly when none
of them enters an interrupt whose vector has one and no instruction stops the run at one with an
exception or a halt.
-/
theorem debugger_run_breakpoints {d : Debugger} (debugging : Debugging d)
    (valid : d.boundary.isSome = true) {limit fuel : Nat} (positive : 1 ≤ limit)
    (allowed : limit ≤ maxRunInstructions) (enough : 6 ≤ fuel) :
    ∃ e snapshot, debuggerRun fuel limit d = some (.ok, e) ∧ e.boundary = some snapshot ∧
      snapshot.pc = e.machine.cpu.pc ∧
      Execution d.machine (departures fuel d.breakpoints limit d.machine) e.machine ∧
      DebugEnds d.breakpoints (d.machine.cpu.instructionCount + limit) e.machine
        snapshot.reason ∧
      (RunObeys d.breakpoints (d.machine.cpu.instructionCount + limit)
          (departures fuel d.breakpoints limit d.machine) snapshot.reason e.machine ↔
        ∀ k ∈ departures fuel d.breakpoints limit d.machine,
          SeenFrom d.breakpoints (d.machine.cpu.instructionCount + limit) k) := by
  obtain ⟨debugged, settled⟩ := debugging.debugged
  -- The loop gives its outcome for every budget and enough fuel.
  obtain ⟨reason, code, n, loop⟩ := debuggerLoop_outcome d.breakpoints enough
    (d.machine.cpu.instructionCount + limit) limit d.machine debugged settled rfl
  -- The budget is valid, and so is the boundary, so the run is not refused.
  have inside : ¬(limit = 0 ∨ maxRunInstructions < limit) := by omega
  have known : ¬d.boundary.isNone = true := by
    rw [Option.isNone_iff_eq_none]
    intro none
    rw [none] at valid
    exact absurd valid (by decide)
  -- What the debugger captures is the reason and the machine of that outcome.
  refine ⟨{ d with machine := n, boundary := some (captureSnapshot n.cpu reason code) },
    captureSnapshot n.cpu reason code, ?_, rfl, rfl, loop.execution, loop.why, loop.law⟩
  simp only [debuggerRun, if_neg inside, if_neg known, loop.returns, Option.map_some]

/-- Firmware at 0020h that enables the interrupt of Timer 0 and requests it. -/
def requestingImage : Word → Byte := fun a =>
  if a = 0x20#16 then 0x75#8
  else if a = 0x21#16 then 0xA8#8
  else if a = 0x22#16 then 0x82#8
  else if a = 0x23#16 then 0xD2#8
  else if a = 0x24#16 then 0x8D#8
  else 0#8

/-- A debugger about to run it, with one breakpoint. -/
def requestingDebugger (breakpoint : Word) : Debugger :=
  (debuggerReplaceBreakpoints [breakpoint]
    (debuggerReset 1#32 0x20#16 (debuggerLoad requestingImage debuggerCreate)).2).2

/-- The debugger of the example is one that its calls can reach. -/
theorem requestingDebugger_debugging (breakpoint : Word) :
    Debugging (requestingDebugger breakpoint) :=
  .replaceBreakpoints _ (.reset _ _ (.load _ .create))

/-- With a breakpoint where the interrupt would be taken, a run of five obeys it. -/
theorem debugger_run_breakpoints_requesting :
    ∃ e snapshot, debuggerRun 6 5 (requestingDebugger 0x25#16) = some (.ok, e) ∧
      e.boundary = some snapshot ∧ snapshot.pc = e.machine.cpu.pc ∧
      Execution (requestingDebugger 0x25#16).machine
        (departures 6 (requestingDebugger 0x25#16).breakpoints 5
          (requestingDebugger 0x25#16).machine) e.machine ∧
      DebugEnds (requestingDebugger 0x25#16).breakpoints 5 e.machine snapshot.reason ∧
      RunObeys (requestingDebugger 0x25#16).breakpoints 5
        (departures 6 (requestingDebugger 0x25#16).breakpoints 5
          (requestingDebugger 0x25#16).machine) snapshot.reason e.machine := by
  obtain ⟨e, snapshot, ran, boundary, pc, execution, why, law⟩ := @debugger_run_breakpoints
    (requestingDebugger 0x25#16) (requestingDebugger_debugging 0x25#16) (by rfl) 5 6 (by decide)
    (by decide) (by decide)
  refine ⟨e, snapshot, ran, boundary, pc, execution, why, law.mpr fun k member => ?_⟩
  -- Along this run no exception is raised and no power mode is entered.
  have calm : ((departures 6 (requestingDebugger 0x25#16).breakpoints 5
      (requestingDebugger 0x25#16).machine).all fun k =>
        !(tick debuggerHooks k).2.cpu.exceptionRaised &&
          !has ((tick debuggerHooks k).2.cpu.sfr Reg.pcon) (Pcon.idle ||| Pcon.powerDown)) =
      true := by
    decide +kernel
  have here := List.all_eq_true.mp calm k member
  -- No vector is a breakpoint here, and the rest has been checked.
  refine ⟨fun source _ => by cases source <;> decide, fun _ _ _ => ?_⟩
  simpa using here

/-- What a run reports, and where it leaves the program. -/
def runReport (fuel limit : Nat) (d : Debugger) : Option (DebugReason × Word × Nat) := do
  let (_, e) ← debuggerRun fuel limit d
  let snapshot ← e.boundary
  return (snapshot.reason, e.machine.cpu.pc, e.machine.cpu.instructionCount)

/-- With a breakpoint on the vector, a run of five executes the instruction there and two more. -/
theorem vectorBreakpoint_overlooked :
    Debugging (requestingDebugger 0x0B#16) ∧
      breakpointAt (requestingDebugger 0x0B#16).breakpoints 0x0B#16 = true ∧
      runReport 6 5 (requestingDebugger 0x0B#16) = some (.yield, 0x0E#16, 5) ∧
      ∃ e snapshot path, debuggerRun 6 5 (requestingDebugger 0x0B#16) = some (.ok, e) ∧
        e.boundary = some snapshot ∧
        Execution (requestingDebugger 0x0B#16).machine path e.machine ∧
        (∃ k ∈ path, k.cpu.pc = 0x0B#16 ∧ (tick debuggerHooks k).1 = true) ∧
        ¬RunObeys (requestingDebugger 0x0B#16).breakpoints 5 path snapshot.reason e.machine := by
  -- Among the departures is the vector, from which an instruction is executed.
  have found : ((departures 6 (requestingDebugger 0x0B#16).breakpoints 5
      (requestingDebugger 0x0B#16).machine).any fun k =>
        k.cpu.pc == 0x0B#16 && (tick debuggerHooks k).1) = true := by
    decide +kernel
  have broken : breakpointAt (requestingDebugger 0x0B#16).breakpoints 0x0B#16 = true := by decide
  obtain ⟨k, member, executed⟩ := List.any_eq_true.mp found
  rw [Bool.and_eq_true, beq_iff_eq] at executed
  obtain ⟨debugged, settled⟩ := (requestingDebugger_debugging 0x0B#16).debugged
  -- The departures are those of the run itself.
  obtain ⟨reason, code, n, loop⟩ := @debuggerLoop_outcome
    (requestingDebugger 0x0B#16).breakpoints 6 (by decide) 5 5 _ debugged settled rfl
  refine ⟨requestingDebugger_debugging _, broken, by decide +kernel,
    { requestingDebugger 0x0B#16 with
      machine := n, boundary := some (captureSnapshot n.cpu reason code) },
    captureSnapshot n.cpu reason code, _, ?_, rfl, loop.execution, ⟨k, member, executed⟩, ?_⟩
  · simp only [debuggerRun, loop.returns]
    rfl
  · -- The run does not obey the breakpoint, since it departed from it.
    intro obeys
    have held := obeys.holds k member
    rw [executed.1] at held
    exact absurd (held.symm.trans broken) (by decide)

end Emu80535
