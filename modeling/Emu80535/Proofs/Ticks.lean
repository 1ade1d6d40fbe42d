import Emu80535.Proofs.Entry

/-! The ways a tick can go, and the rules that lift facts about its parts to the whole. -/

namespace Emu80535

variable {ω : Type} {hooks : Hooks ω} {m : Machine ω}

open Machine

/-! ### The shape of a tick -/

/-- The conditions under which a tick reaches the interrupt controller. -/
structure Machine.Ready (hooks : Hooks ω) (m : Machine ω) : Prop where
  unaborted : m.aborted hooks = false
  settled : m.cpu.tickDelay = 0
  powered : has (m.cpu.sfr Reg.pcon) Pcon.powerDown = false

/-- The conditions under which a tick that has handled interrupts goes on to an opcode. -/
structure Machine.Fetches (hooks : Hooks ω) (m : Machine ω) : Prop where
  accepted : (handleInterrupts hooks m).1 = true
  unaborted : (handleInterrupts hooks m).2.aborted hooks = false
  settled : (handleInterrupts hooks m).2.cpu.tickDelay = 0
  awake : has ((handleInterrupts hooks m).2.cpu.sfr Reg.pcon) Pcon.idle = false

/-- The machine a tick hands to an opcode body, which is after the opcode has been reported. -/
def opcodeStart (hooks : Hooks ω) (m : Machine ω) : Machine ω :=
  beginInstruction hooks (handleInterrupts hooks m).2

/-- A tick begins executing an instruction. -/
structure Machine.Begins (hooks : Hooks ω) (m : Machine ω) : Prop where
  ready : m.Ready hooks
  fetches : m.Fetches hooks
  unaborted : (opcodeStart hooks m).aborted hooks = false

/-- The machine after the opcode body a tick started, before the instruction is counted. -/
def opcodeDone (hooks : Hooks ω) (m : Machine ω) : Machine ω :=
  runInstruction hooks (handleInterrupts hooks m).2.cpu.opcode (opcodeStart hooks m)

/-- Everything a tick can do. -/
inductive TickCase (hooks : Hooks ω) (m : Machine ω) : Bool × Machine ω → Prop
  /-- An aborted or powered-down CPU does not move. -/
  | stopped (why : m.aborted hooks = true ∨
      m.cpu.tickDelay = 0 ∧ has (m.cpu.sfr Reg.pcon) Pcon.powerDown = true) :
      TickCase hooks m (false, m)
  /-- A pending cycle of what was started earlier. -/
  | pending (unaborted : m.aborted hooks = false) (delayed : m.cpu.tickDelay ≠ 0) :
      TickCase hooks m
        (false, advanceMachineCycle hooks
          (m.mapCpu fun c => { c with tickDelay := c.tickDelay - 1 }))
  /-- An interrupt entry that failed half way. -/
  | failed (ready : m.Ready hooks) (refused : (handleInterrupts hooks m).1 = false) :
      TickCase hooks m (false, advanceMachineCycle hooks (handleInterrupts hooks m).2)
  /-- An abort raised while interrupts were handled. -/
  | cut (ready : m.Ready hooks) (accepted : (handleInterrupts hooks m).1 = true)
      (aborted : (handleInterrupts hooks m).2.aborted hooks = true) :
      TickCase hooks m (false, (handleInterrupts hooks m).2)
  /-- The first cycle of an interrupt entry. -/
  | entered (ready : m.Ready hooks) (accepted : (handleInterrupts hooks m).1 = true)
      (unaborted : (handleInterrupts hooks m).2.aborted hooks = false)
      (delayed : (handleInterrupts hooks m).2.cpu.tickDelay ≠ 0) :
      TickCase hooks m (false, advanceMachineCycle hooks (handleInterrupts hooks m).2)
  /-- A cycle of IDLE. -/
  | idle (ready : m.Ready hooks) (accepted : (handleInterrupts hooks m).1 = true)
      (unaborted : (handleInterrupts hooks m).2.aborted hooks = false)
      (settled : (handleInterrupts hooks m).2.cpu.tickDelay = 0)
      (asleep : has ((handleInterrupts hooks m).2.cpu.sfr Reg.pcon) Pcon.idle = true) :
      TickCase hooks m
        (false, advanceMachineCycle hooks (updateParity (handleInterrupts hooks m).2))
  /-- An abort raised by the report of the opcode. -/
  | unbegun (ready : m.Ready hooks) (fetches : m.Fetches hooks)
      (aborted : (opcodeStart hooks m).aborted hooks = true) :
      TickCase hooks m
        (false, (opcodeStart hooks m).mapCpu fun c => { c with inInstruction := false })
  /-- An instruction aborted on its way. -/
  | interrupted (begins : m.Begins hooks) (aborted : (opcodeDone hooks m).aborted hooks = true) :
      TickCase hooks m (false, opcodeDone hooks m)
  /-- An instruction executed to completion. -/
  | completed (begins : m.Begins hooks)
      (unaborted : (opcodeDone hooks m).aborted hooks = false) :
      TickCase hooks m
        (true, advanceMachineCycle hooks (updateParity (countInstruction (opcodeDone hooks m))))

/-- What is left to decide once interrupts have been handled. -/
theorem tickBody_cases (ready : m.Ready hooks) (accepted : (handleInterrupts hooks m).1 = true)
    (unaborted : (handleInterrupts hooks m).2.aborted hooks = false) :
    TickCase hooks m (tickBody hooks (handleInterrupts hooks m).2) := by
  -- The delay first, then the idle bit, then the two checks around the opcode.
  simp only [tickBody]
  split
  · rename_i settled
    split
    · rename_i asleep
      exact .idle ready accepted unaborted settled asleep
    · rename_i awake
      have fetches : m.Fetches hooks := ⟨accepted, unaborted, settled, by simpa using awake⟩
      cases begun : (opcodeStart hooks m).aborted hooks with
      | true =>
        have answer : executeInstruction hooks (handleInterrupts hooks m).2 =
            (false, (opcodeStart hooks m).mapCpu fun c => { c with inInstruction := false }) :=
          if_pos begun
        rw [answer, if_neg Bool.false_ne_true]
        exact .unbegun ready fetches begun
      | false =>
        have begins : m.Begins hooks := ⟨ready, fetches, begun⟩
        cases ended : (opcodeDone hooks m).aborted hooks with
        | true =>
          have answer : executeInstruction hooks (handleInterrupts hooks m).2 =
              (false, opcodeDone hooks m) :=
            (if_neg (ne_true_of_eq_false begun)).trans (if_pos ended)
          rw [answer, if_neg Bool.false_ne_true]
          exact .interrupted begins ended
        | false =>
          have answer : executeInstruction hooks (handleInterrupts hooks m).2 =
              (true, countInstruction (opcodeDone hooks m)) :=
            (if_neg (ne_true_of_eq_false begun)).trans
              (if_neg (ne_true_of_eq_false ended))
          rw [answer, if_pos rfl]
          exact .completed begins ended
  · rename_i delayed
    exact .entered ready accepted unaborted delayed

/-- Every tick goes one of these ways. -/
theorem tick_cases (hooks : Hooks ω) (m : Machine ω) : TickCase hooks m (tick hooks m) := by
  -- The splits follow the tests of the source in the order it makes them.
  simp only [tick]
  split
  · rename_i aborted
    exact .stopped (Or.inl aborted)
  · rename_i unaborted
    simp only [Bool.not_eq_true] at unaborted
    split
    · rename_i delayed
      exact .pending unaborted delayed
    · rename_i settled
      simp only [ne_eq, not_not] at settled
      split
      · rename_i down
        exact .stopped (Or.inr ⟨settled, down⟩)
      · rename_i up
        have ready : m.Ready hooks := ⟨unaborted, settled, by simpa using up⟩
        split
        · rename_i refused
          exact .failed ready refused
        · rename_i taken
          have accepted : (handleInterrupts hooks m).1 = true := by simpa using taken
          split
          · rename_i cut
            exact .cut ready accepted cut
          · rename_i kept
            simp only [Bool.not_eq_true] at kept
            exact tickBody_cases ready accepted kept

/-- A tick that reports an executed instruction completed it. -/
theorem tick_completed (done : (tick hooks m).1 = true) :
    m.Begins hooks ∧ (opcodeDone hooks m).aborted hooks = false ∧
      (tick hooks m).2 =
        advanceMachineCycle hooks (updateParity (countInstruction (opcodeDone hooks m))) := by
  have shape := tick_cases hooks m
  generalize tick hooks m = answer at done shape
  cases shape with
  | completed begins unaborted => exact ⟨begins, unaborted, rfl⟩
  | _ => exact absurd done Bool.false_ne_true

/-- An aborted machine does not tick. -/
theorem tick_aborted (aborted : m.aborted hooks = true) : tick hooks m = (false, m) :=
  if_pos aborted

/-- A tick that begins an instruction ends where its body does, up to what a cycle may change. -/
theorem tick_of_begins (begins : m.Begins hooks) :
    (tick hooks m).2 = opcodeDone hooks m ∨
      (tick hooks m).2 =
        advanceMachineCycle hooks (updateParity (countInstruction (opcodeDone hooks m))) := by
  -- Of the nine ways a tick may go, two begin an instruction; each other contradicts a condition.
  have shape := tick_cases hooks m
  generalize tick hooks m = answer at shape
  have unaborted := begins.ready.unaborted
  have settled := begins.ready.settled
  have powered := begins.ready.powered
  have accepted := begins.fetches.accepted
  have kept := begins.fetches.unaborted
  have awake := begins.fetches.awake
  have still := begins.fetches.settled
  have begun := begins.unaborted
  cases shape with
  | stopped why =>
    rcases why with aborted | ⟨-, down⟩
    · exact absurd (unaborted.symm.trans aborted) (by decide)
    · exact absurd (powered.symm.trans down) (by decide)
  | pending _ delayed => exact absurd settled delayed
  | failed _ refused => exact absurd (accepted.symm.trans refused) (by decide)
  | cut _ _ aborted => exact absurd (kept.symm.trans aborted) (by decide)
  | entered _ _ _ delayed => exact absurd still delayed
  | idle _ _ _ _ asleep => exact absurd (awake.symm.trans asleep) (by decide)
  | unbegun _ _ aborted => exact absurd (begun.symm.trans aborted) (by decide)
  | interrupted _ _ => exact Or.inl rfl
  | completed _ _ => exact Or.inr rfl

/-- Reporting an opcode changes only the two instruction markers. -/
theorem beginInstruction_cpu (m : Machine ω) :
    (beginInstruction hooks m).cpu =
      { m.cpu with tracePc := m.cpu.pc, inInstruction := true } := by
  simp only [beginInstruction, traceEmit_cpu, raw_cpu]
  rfl

/-- An opcode body is followed by two bookkeeping stores. -/
theorem runInstruction_cpu (opcode : Byte) (m : Machine ω) :
    (runInstruction hooks opcode m).cpu =
      { ((opTable opcode).run hooks m).2.cpu with
        tickDelay := ((opTable opcode).run hooks m).1
        inInstruction := false } := by
  simp only [runInstruction, raw_cpu]
  rfl

/-- An instruction that ends unaborted had an unaborted body. -/
theorem body_unaborted (sticky : hooks.Sticky) (opcode : Byte) (m : Machine ω)
    (kept : (runInstruction hooks opcode m).aborted hooks = false) :
    ((opTable opcode).run hooks m).2.aborted hooks = false := by
  have steps : Steps hooks AnyChange ((opTable opcode).run hooks m).2
      (runInstruction hooks opcode m) := ((Steps.refl _).changeCpu _).rawFact _
  exact steps.unaborted sticky kept

/-! ### Properties of the CPU -/

/-- A property of the CPU is kept by an instruction when bodies and bookkeeping keep it. -/
theorem opcodeDone_keeps {I : Cpu → Prop}
    (inside : ∀ c : Cpu, ∀ pc b, I c → I { c with tracePc := pc, inInstruction := b })
    (ended : ∀ c : Cpu, ∀ n, I c → I { c with tickDelay := n, inInstruction := false })
    (body : ∀ (opcode : Byte) (m : Machine ω), I m.cpu →
      I ((opTable opcode).run hooks m).2.cpu)
    {m : Machine ω} (handled : I (handleInterrupts hooks m).2.cpu) :
    I (opcodeStart hooks m).cpu ∧ I (opcodeDone hooks m).cpu := by
  -- The body is entered with the trace address set and left with the delay of the opcode.
  have begun : I (opcodeStart hooks m).cpu := by
    rw [opcodeStart, beginInstruction_cpu]
    exact inside _ _ _ handled
  refine ⟨begun, ?_⟩
  rw [opcodeDone, runInstruction_cpu]
  exact ended _ _ (body _ _ begun)

/-- A property of the CPU that the parts of a tick keep is kept by the tick. -/
theorem tick_keeps {I : Cpu → Prop}
    (delay : ∀ c : Cpu, I c → I { c with tickDelay := c.tickDelay - 1 })
    (advance : ∀ m : Machine ω, I m.cpu → I (advanceMachineCycle hooks m).cpu)
    (handle : ∀ m : Machine ω, I m.cpu → I (handleInterrupts hooks m).2.cpu)
    (parity : ∀ m : Machine ω, I m.cpu → I (updateParity m).cpu)
    (inside : ∀ c : Cpu, ∀ pc b, I c → I { c with tracePc := pc, inInstruction := b })
    (ended : ∀ c : Cpu, ∀ n, I c → I { c with tickDelay := n, inInstruction := false })
    (counted : ∀ m : Machine ω, I m.cpu → I (countInstruction m).cpu)
    (body : ∀ (opcode : Byte) (m : Machine ω), I m.cpu →
      I ((opTable opcode).run hooks m).2.cpu)
    (m : Machine ω) (before : I m.cpu) : I (tick hooks m).2.cpu := by
  have handled := handle m before
  have ran := opcodeDone_keeps inside ended body handled
  have shape := tick_cases hooks m
  generalize tick hooks m = answer at shape
  -- Each way a tick may go is made of the parts above, in the order the tick calls them.
  cases shape with
  | stopped _ => exact before
  | pending _ _ => exact advance _ (delay _ before)
  | failed _ _ | entered _ _ _ _ => exact advance _ handled
  | cut _ _ _ => exact handled
  | idle _ _ _ _ _ => exact advance _ (parity _ handled)
  | unbegun _ _ _ => exact inside _ (opcodeStart hooks m).cpu.tracePc false ran.1
  | interrupted _ _ => exact ran.2
  | completed _ _ => exact advance _ (parity _ (counted _ ran.2))

/-- The machine whose cycle `tick` advances, where it gets that far. -/
def tickCycle (hooks : Hooks ω) (m : Machine ω) : Option (Machine ω) :=
  if m.aborted hooks then none
  else if m.cpu.tickDelay ≠ 0 then
    some (m.mapCpu fun c => { c with tickDelay := c.tickDelay - 1 })
  else if has (m.cpu.sfr Reg.pcon) Pcon.powerDown then none
  else
    let handled := handleInterrupts hooks m
    if handled.1 = false then some handled.2
    else if handled.2.aborted hooks then none
    else if handled.2.cpu.tickDelay = 0 then
      if has (handled.2.cpu.sfr Reg.pcon) Pcon.idle then some (updateParity handled.2)
      else
        let done := executeInstruction hooks handled.2
        if done.1 then some (updateParity done.2) else none
    else some handled.2

/--
What holds after every part of a tick holds of the machine whose cycle it advances, and of the
machine it ends with where it advances none.
-/
theorem tickCycle_parts {I : Machine ω → Prop} (before : I m)
    (delay : I (m.mapCpu fun c => { c with tickDelay := c.tickDelay - 1 }))
    (handled : I (handleInterrupts hooks m).2)
    (parity : ∀ k : Machine ω, I k → I (updateParity k))
    (executed : m.Ready hooks → m.Fetches hooks →
      I (executeInstruction hooks (handleInterrupts hooks m).2).2) :
    (∃ k, tickCycle hooks m = some k ∧ (tick hooks m).2 = advanceMachineCycle hooks k ∧ I k) ∨
      (tickCycle hooks m = none ∧ I (tick hooks m).2) := by
  -- Both functions follow the branches of `tick`.
  rw [tick, tickCycle]
  by_cases aborted : m.aborted hooks = true
  · rw [if_pos aborted, if_pos aborted]
    exact Or.inr ⟨rfl, before⟩
  rw [if_neg aborted, if_neg aborted]
  by_cases pending : m.cpu.tickDelay ≠ 0
  · rw [if_pos pending, if_pos pending]
    exact Or.inl ⟨_, rfl, rfl, delay⟩
  rw [if_neg pending, if_neg pending]
  by_cases down : has (m.cpu.sfr Reg.pcon) Pcon.powerDown = true
  · rw [if_pos down, if_pos down]
    exact Or.inr ⟨rfl, before⟩
  rw [if_neg down, if_neg down]
  have ready : m.Ready hooks :=
    ⟨eq_false_of_ne_true aborted, not_not.mp pending, eq_false_of_ne_true down⟩
  dsimp only
  by_cases refused : (handleInterrupts hooks m).1 = false
  · rw [if_pos refused, if_pos refused]
    exact Or.inl ⟨_, rfl, rfl, handled⟩
  rw [if_neg refused, if_neg refused]
  by_cases cut : (handleInterrupts hooks m).2.aborted hooks = true
  · rw [if_pos cut, if_pos cut]
    exact Or.inr ⟨rfl, handled⟩
  rw [if_neg cut, if_neg cut, tickBody]
  by_cases settled : (handleInterrupts hooks m).2.cpu.tickDelay = 0
  · rw [if_pos settled, if_pos settled]
    by_cases asleep : has ((handleInterrupts hooks m).2.cpu.sfr Reg.pcon) Pcon.idle = true
    · rw [if_pos asleep, if_pos asleep]
      exact Or.inl ⟨_, rfl, rfl, parity _ handled⟩
    · rw [if_neg asleep, if_neg asleep]
      have ran := executed ready ⟨eq_true_of_ne_false refused, eq_false_of_ne_true cut, settled,
        eq_false_of_ne_true asleep⟩
      dsimp only
      split
      · exact Or.inl ⟨_, rfl, rfl, parity _ ran⟩
      · exact Or.inr ⟨rfl, ran⟩
  · rw [if_neg settled, if_neg settled]
    exact Or.inl ⟨_, rfl, rfl, handled⟩

/-- So does a property of the CPU that the parts of a tick keep. -/
theorem tickCycle_keeps {I : Cpu → Prop}
    (delay : ∀ c : Cpu, I c → I { c with tickDelay := c.tickDelay - 1 })
    (handle : ∀ m : Machine ω, I m.cpu → I (handleInterrupts hooks m).2.cpu)
    (parity : ∀ m : Machine ω, I m.cpu → I (updateParity m).cpu)
    (inside : ∀ c : Cpu, ∀ pc b, I c → I { c with tracePc := pc, inInstruction := b })
    (ended : ∀ c : Cpu, ∀ n, I c → I { c with tickDelay := n, inInstruction := false })
    (counted : ∀ m : Machine ω, I m.cpu → I (countInstruction m).cpu)
    (body : ∀ (opcode : Byte) (m : Machine ω), I m.cpu →
      I ((opTable opcode).run hooks m).2.cpu)
    (m : Machine ω) (before : I m.cpu) :
    (∃ k, tickCycle hooks m = some k ∧ (tick hooks m).2 = advanceMachineCycle hooks k ∧ I k.cpu) ∨
      (tickCycle hooks m = none ∧ I (tick hooks m).2.cpu) := by
  -- The same parts, stopped in front of the machine cycle that ends the tick.
  have handled := handle m before
  refine tickCycle_parts (I := fun k => I k.cpu) before (delay _ before) handled parity fun _ _ => ?_
  have begun : I (beginInstruction hooks (handleInterrupts hooks m).2).cpu := by
    rw [beginInstruction_cpu]
    exact inside _ _ _ handled
  have ran : ∀ opcode, I (runInstruction hooks opcode
      (beginInstruction hooks (handleInterrupts hooks m).2)).cpu := by
    intro opcode
    rw [runInstruction_cpu]
    exact ended _ _ (body _ _ begun)
  simp only [executeInstruction]
  split
  · exact inside _ (beginInstruction hooks (handleInterrupts hooks m).2).cpu.tracePc false begun
  · split
    · exact ran _
    · exact counted _ (ran _)

/-! ### Host calls -/

/-- The host calls that change neither the program state nor its configuration. -/
def HostCall.quiet : HostCall → Bool
  | reset _ _ | setResetSeed _ | setBreakpoint _ _ | loadCode _ | sfrWrite _ _ => false
  | _ => true

/-- A quiet call leaves the steady part alone. -/
theorem hostCall_steady (call : HostCall) (quiet : call.quiet = true) (m : Machine ω) :
    (call.run hooks m).2.cpu.steady = m.cpu.steady := by
  -- The calls that are not quiet are excluded, and every other one has its own lemma.
  cases call with
  | reset _ _ | setResetSeed _ | setBreakpoint _ _ | loadCode _ | sfrWrite _ _ =>
    exact absurd quiet Bool.false_ne_true
  | setPending source pending => exact Stable.steady_eq (setPending_stable hooks m source pending)
  | portDrive address mask levels =>
    simp only [HostCall.run]
    split
    · rfl
    · exact portDrive_steady hooks m _ mask levels
  | portRelease address mask =>
    simp only [HostCall.run]
    split
    · rfl
    · exact portRelease_steady hooks m _ mask
  | externalDrive source level => exact externalDrive_steady hooks m source level
  | externalRelease source => exact externalRelease_steady hooks m source
  | schedule event => exact schedule_steady hooks m event
  | clearSchedule =>
    simp only [HostCall.run, clearSchedule]
    split <;> rfl
  | injectRxFrame data ninth => exact Stable.steady_eq (injectRxFrame_stable hooks m data ninth)
  | adcSetInput channel input =>
    simp only [HostCall.run, adcSetInput]
    split <;> rfl
  | sfrRead address =>
    simp only [HostCall.run]
    split
    · rfl
    · exact congrArg Cpu.steady (sfrRead_cpu hooks (sfrIndex address) m)

/-! ### Runs -/

/-- What a reset establishes and every action keeps holds in every reachable state. -/
theorem Reachable.induct {I : Machine ω → Prop} (start : ∀ m : Machine ω, m.IsReset → I m)
    (step : ∀ (action : Action ω) (m : Machine ω), I m → I (action.run hooks m))
    (reach : Reachable hooks m) : I m := by
  obtain ⟨first, actions, fresh, rfl⟩ := reach
  exact Fold.foldl_keeps (I := I) (fun action _ m before => step action m before) (start first fresh)

/-- Every action leads from a reachable state to a reachable state. -/
theorem Reachable.step (reach : Reachable hooks m) (action : Action ω) :
    Reachable hooks (action.run hooks m) := by
  obtain ⟨first, actions, fresh, rfl⟩ := reach
  refine ⟨first, actions ++ [action], fresh, ?_⟩
  simp only [runActions, List.foldl_append, List.foldl_cons, List.foldl_nil]

/--
The states an owner leads to that resets the CPU before it withdraws an abort.

The abort predicate survives a reset, so the owner's own state is free in a state that was reset.
-/
inductive Supervised (hooks : Hooks ω) : Machine ω → Prop
  | reset {m : Machine ω} (fresh : m.IsReset) : Supervised hooks m
  | tick {m : Machine ω} (before : Supervised hooks m) : Supervised hooks (tick hooks m).2
  | call {m : Machine ω} (call : HostCall) (before : Supervised hooks m) :
      Supervised hooks (call.run hooks m).2
  | own {m : Machine ω} (update : ω → ω) (before : Supervised hooks m)
      (kept : m.aborted hooks = true → hooks.aborted (update m.host) = true) :
      Supervised hooks { m with host := update m.host }

/-- Such states are reachable. -/
theorem Supervised.reachable (supervised : Supervised hooks m) : Reachable hooks m := by
  induction supervised with
  | reset fresh => exact ⟨_, [], fresh, rfl⟩
  | tick _ ih => exact ih.step .tick
  | call c _ ih => exact ih.step (.call c)
  | own update _ _ ih => exact ih.step (.own update)

/-- The Siemens CPU between two operations. -/
structure Cpu.AtRest (c : Cpu) : Prop where
  sab : c.variant = .sab80535
  outside : c.inInstruction = false

/-- Being at rest shows in the steady part. -/
theorem Cpu.AtRest.of_steady {a b : Cpu} (rest : a.AtRest) (same : b.steady = a.steady) :
    b.AtRest where
  sab := (congrArg (fun s : Stable => s.fixed.variant) same).trans rest.sab
  outside := (congrArg (fun s : Stable => s.fixed.inInstruction) same).trans rest.outside

/-- A tick leaves the CPU at rest. -/
theorem tick_atRest (passive : hooks.Passive) (m : Machine ω) (rest : m.cpu.AtRest) :
    (tick hooks m).2.cpu.AtRest := by
  -- Handling interrupts moves only the pending cycles, and a body none of the fixed part.
  obtain ⟨delay, handled⟩ := handleInterrupts_fixed hooks m
  have still : (handleInterrupts hooks m).2.cpu.AtRest :=
    ⟨(congrArg Fixed.variant handled).trans rest.sab,
      (congrArg Fixed.inInstruction handled).trans rest.outside⟩
  have begun : (opcodeStart hooks m).cpu.variant = .sab80535 := by
    rw [opcodeStart, beginInstruction_cpu]
    exact still.sab
  have ran : (opcodeDone hooks m).cpu.AtRest := by
    rw [opcodeDone, runInstruction_cpu]
    exact ⟨Op.run_held (I := fun h => h.variant = .sab80535) passive (fun _ same => same) _ _ begun,
      rfl⟩
  have advanced : ∀ n : Machine ω, n.cpu.AtRest → (advanceMachineCycle hooks n).cpu.AtRest :=
    fun n before => before.of_steady (advanceMachineCycle_steady hooks n)
  have shape := tick_cases hooks m
  generalize tick hooks m = answer at shape
  cases shape with
  | stopped _ => exact rest
  | pending _ _ => exact advanced _ ⟨rest.sab, rest.outside⟩
  | failed _ _ | entered _ _ _ _ => exact advanced _ still
  | cut _ _ _ => exact still
  | idle _ _ _ _ _ => exact advanced _ ⟨still.sab, still.outside⟩
  | unbegun _ _ _ => exact ⟨begun, rfl⟩
  | interrupted _ _ => exact ran
  | completed _ _ => exact advanced _ ⟨ran.sab, ran.outside⟩

/-- A host call leaves the CPU at rest. -/
theorem hostCall_atRest (passive : hooks.Passive) (call : HostCall) (m : Machine ω)
    (rest : m.cpu.AtRest) : (call.run hooks m).2.cpu.AtRest := by
  -- Only a reset and a register write are not quiet and touch the CPU.
  cases known : call.quiet with
  | true => exact rest.of_steady (hostCall_steady call known m)
  | false =>
    cases call with
    | reset wipe rand =>
      refine ⟨?_, rfl⟩
      simp only [HostCall.run, mapCpu_cpu, Cpu.reset]
      split <;> split <;> exact rest.sab
    | setResetSeed _ | setBreakpoint _ _ | loadCode _ => exact ⟨rest.sab, rest.outside⟩
    | sfrWrite address value =>
      simp only [HostCall.run]
      split
      · exact rest
      · have same := sfrWrite_held passive (sfrIndex address) value m
        exact ⟨(congrArg Held.variant same).trans rest.sab,
          (congrArg Held.inInstruction same).trans rest.outside⟩
    | _ => exact absurd known (by simp [HostCall.quiet])

/-- The CPU is at rest in every reachable state. -/
theorem Reachable.atRest (passive : hooks.Passive) (reach : Reachable hooks m) :
    m.cpu.AtRest := by
  -- By induction on the run: a fresh machine, a tick, a host call or a change outside.
  refine reach.induct (I := fun m => m.cpu.AtRest) (fun m fresh => ?_) (fun action m before => ?_)
  · obtain ⟨c, wipe, rand, image, entry, sab, same⟩ := fresh
    rw [same]
    refine ⟨?_, rfl⟩
    simp only [Cpu.reset]
    split <;> split <;> exact sab
  · cases action with
    | tick => exact tick_atRest passive m before
    | call c => exact hostCall_atRest passive c m before
    | own update => exact before

end Emu80535
