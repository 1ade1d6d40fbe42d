import Emu80535.Proofs.Ticks

/-! The in-service stack of the Siemens interrupt controller, over every run of the core. -/

namespace Emu80535

variable {ω : Type} {hooks : Hooks ω}

open Machine

/-! ### The invariant -/

/-- What makes an in-service stack well formed. -/
structure IrqService.Wf (v : IrqService) : Prop where
  depth_le : v.depth ≤ 4
  bounded : ∀ i < v.depth, v.priorityStack i < 4
  increasing : ∀ i j, i < j → j < v.depth → v.priorityStack i < v.priorityStack j
  distinct : ∀ i j, i < j → j < v.depth → v.sourceStack i ≠ v.sourceStack j
  genuine : ∀ i < v.depth, v.sourceStack i < 12
  exactly : ∀ n, v.inService.getLsbD n = true ↔ ∃ i < v.depth, v.sourceStack i = n

namespace IrqService.Wf

variable {v : IrqService}

/-- An empty stack is well formed. -/
theorem reset : resetService.Wf where
  depth_le := by decide
  bounded := fun i within => absurd within (Nat.not_lt_zero i)
  increasing := fun i j _ within => absurd within (Nat.not_lt_zero j)
  distinct := fun i j _ within => absurd within (Nat.not_lt_zero j)
  genuine := fun i within => absurd within (Nat.not_lt_zero i)
  exactly := by
    intro n
    simp [resetService]

/-- Every priority on the stack is at least its position. -/
theorem position_le (wf : v.Wf) : ∀ i < v.depth, i ≤ v.priorityStack i := by
  intro i
  induction i with
  | zero => intro _; exact Nat.zero_le _
  | succ i ih =>
    intro within
    have below := wf.increasing i (i + 1) (Nat.lt_succ_self i) within
    have := ih (by omega)
    omega

/-- With four entries the topmost has the highest priority there is. -/
theorem current_of_full (wf : v.Wf) (full : 4 ≤ v.depth) : v.current = some 3 := by
  have depth : v.depth = 4 := Nat.le_antisymm wf.depth_le full
  have low := wf.position_le 3 (by omega)
  have high := wf.bounded 3 (by omega)
  simp only [IrqService.current, depth]
  simp
  omega

/-- Releasing the innermost entry keeps the stack well formed. -/
theorem pop (wf : v.Wf) : v.pop.Wf := by
  by_cases empty : v.depth = 0
  · rw [IrqService.pop, if_pos empty]
    exact wf
  · have shape : v.pop.depth = v.depth - 1 := by simp [IrqService.pop, empty]
    have sources : v.pop.sourceStack = v.sourceStack := by simp [IrqService.pop, empty]
    have priorities : v.pop.priorityStack = v.priorityStack := by simp [IrqService.pop, empty]
    have mask : v.pop.inService = v.inService &&& ~~~(1#16 <<< v.sourceStack (v.depth - 1)) := by
      simp [IrqService.pop, empty]
    refine ⟨by have := wf.depth_le; omega, fun i within => ?_, fun i j below within => ?_,
      fun i j below within => ?_, fun i within => ?_, fun n => ?_⟩
    · rw [priorities]
      exact wf.bounded i (by omega)
    · rw [priorities]
      exact wf.increasing i j below (by omega)
    · rw [sources]
      exact wf.distinct i j below (by omega)
    · rw [sources]
      exact wf.genuine i (by omega)
    · -- The released source is the last entry, and no other entry has it.
      rw [mask, BitVec.getLsbD_and, BitVec.getLsbD_not, Bits.getLsbD_one_shiftLeft, shape, sources]
      have top := wf.genuine (v.depth - 1) (by omega)
      constructor
      · intro kept
        simp only [Bool.and_eq_true] at kept
        obtain ⟨i, within, served⟩ := (wf.exactly n).mp kept.1
        have other : n ≠ v.sourceStack (v.depth - 1) := by
          rintro rfl
          have narrow : v.sourceStack (v.depth - 1) < 16 := by omega
          simp [narrow] at kept
        refine ⟨i, ?_, served⟩
        by_cases last : i = v.depth - 1
        · exact absurd served.symm (last ▸ other)
        · omega
      · rintro ⟨i, within, rfl⟩
        have served := (wf.exactly (v.sourceStack i)).mpr ⟨i, by omega, rfl⟩
        have other := wf.distinct i (v.depth - 1) within (by omega)
        have narrow := wf.genuine i (by omega)
        have wide : v.sourceStack i < 16 := by omega
        simp [served, other, wide]

/-- Accepting a source that is not served, at a priority above the current one. -/
theorem push (wf : v.Wf) {source : IrqSource} {priority : Nat} (c : Cpu) (room : v.depth < 4)
    (idle : v.inService.getLsbD source.toNat = false) (bounded : priority < 4)
    (above : ∀ p, v.current = some p → p < priority) : (v.push source priority c).Wf := by
  have number : source.toNat < 12 := by cases source <;> decide
  -- Every entry already there lies below the new priority.
  have below : ∀ i < v.depth, v.priorityStack i < priority := by
    intro i within
    have top := above (v.priorityStack (v.depth - 1)) (by
      rw [IrqService.current, if_neg (by omega)])
    by_cases last : i = v.depth - 1
    · exact last ▸ top
    · have := wf.increasing i (v.depth - 1) (by omega) (by omega)
      omega
  refine ⟨by simp only [IrqService.push]; omega, fun i within => ?_, fun i j order within => ?_,
    fun i j order within => ?_, fun i within => ?_, fun n => ?_⟩
  all_goals simp only [IrqService.push] at *
  · by_cases new : i = v.depth
    · rw [new, Function.update_self]
      exact bounded
    · rw [Function.update_of_ne new]
      exact wf.bounded i (by omega)
  · have old : i ≠ v.depth := by omega
    rw [Function.update_of_ne old]
    by_cases new : j = v.depth
    · rw [new, Function.update_self]
      exact below i (by omega)
    · rw [Function.update_of_ne new]
      exact wf.increasing i j order (by omega)
  · have old : i ≠ v.depth := by omega
    rw [Function.update_of_ne old]
    by_cases new : j = v.depth
    · rw [new, Function.update_self]
      intro same
      have served := (wf.exactly source.toNat).mpr ⟨i, by omega, same⟩
      rw [served] at idle
      exact absurd idle (by decide)
    · rw [Function.update_of_ne new]
      exact wf.distinct i j order (by omega)
  · by_cases new : i = v.depth
    · rw [new, Function.update_self]
      exact number
    · rw [Function.update_of_ne new]
      exact wf.genuine i (by omega)
  · rw [BitVec.getLsbD_or, IrqSource.bit, Bits.getLsbD_one_shiftLeft, Bool.or_eq_true, wf.exactly]
    constructor
    · rintro (⟨i, within, served⟩ | new)
      · exact ⟨i, by omega, by rw [Function.update_of_ne (by omega)]; exact served⟩
      · refine ⟨v.depth, by omega, ?_⟩
        rw [Function.update_self]
        simp only [Bool.and_eq_true, decide_eq_true_eq] at new
        exact new.2.symm
    · rintro ⟨i, within, served⟩
      by_cases new : i = v.depth
      · right
        rw [new, Function.update_self] at served
        simp only [Bool.and_eq_true, decide_eq_true_eq]
        omega
      · left
        rw [Function.update_of_ne new] at served
        exact ⟨i, by omega, served⟩

end IrqService.Wf

/-! ### Interrupt handling -/

/-- With four levels in service no source is a candidate. -/
theorem arbitrate_of_full {c : Cpu} (wf : c.service.Wf) (full : 4 ≤ c.service.depth) :
    c.arbitrate = none := by
  -- The innermost level already has priority three, and none is higher.
  rw [arbitrate_eq_none_iff]
  intro source
  have low := irqPriority_lt c source
  have beaten : ¬3 < c.irqPriority source := by omega
  simp [Cpu.candidate, wf.current_of_full full, beaten]

/-- Interrupt handling keeps the in-service stack well formed, whether or not an entry succeeds. -/
theorem handleInterrupts_service_wf (m : Machine ω) (wf : m.cpu.service.Wf) :
    (handleInterrupts hooks m).2.cpu.service.Wf := by
  have synced : (irqSync hooks m).cpu.service = m.cpu.service :=
    congrArg Stable.service (irqSync_stable hooks m)
  simp only [handleInterrupts]
  split
  · rcases handleSabInterrupts_cases hooks m with ⟨same, -⟩ | ⟨source, -, -, found, room, same⟩
    · rw [same]
      exact synced ▸ wf
    · rw [same]
      rcases @enterInterrupt_cases ω hooks source (irqSync hooks m) with ⟨-, kept⟩ | entered
      · rw [kept.service, synced]
        exact wf
      · -- The accepted source was a candidate, and the pushes did not touch the stack.
        have pushed := (@entryPushed_sameButStack ω hooks (irqSync hooks m)).service
        have fits := candidate_spec (arbitrate_eq_some_iff _ _ |>.mp found).fits
        rw [entered, acceptInterrupt_service, pushed]
        exact (synced ▸ wf : (irqSync hooks m).cpu.service.Wf).push _ room fits.1
          (irqPriority_lt _ _) fits.2
  · -- The classic controller keeps its state elsewhere.
    rcases handleClassicInterrupts_cases hooks m with kept | ⟨source, hi, n, kept, same⟩
    · rw [kept.service]
      exact wf
    · have accepted : (acceptClassic source hi n).cpu.service = n.cpu.service := by
        cases source <;> simp only [acceptClassic, mapCpu_cpu, Machine.clearFlags, Machine.setSfr]
      rw [same, accepted, kept.service]
      exact wf

/-! ### Whole ticks and runs -/

/-- Every tick keeps the in-service stack well formed. -/
theorem tick_service_wf (passive : hooks.Passive) (m : Machine ω) (wf : m.cpu.service.Wf) :
    (tick hooks m).2.cpu.service.Wf := by
  -- The three parts of a tick that are not at rest: the cycle, the handling and the body.
  refine tick_keeps (I := fun c => c.service.Wf) (fun _ before => before) (fun n before => ?_)
    (fun n before => handleInterrupts_service_wf n before) (fun _ before => before)
    (fun _ _ _ before => before) (fun _ _ before => before) (fun _ before => before)
    (fun opcode n before => ?_) m wf
  · have same : (advanceMachineCycle hooks n).cpu.service = n.cpu.service :=
      congrArg Stable.service (advanceMachineCycle_steady hooks n)
    rw [same]
    exact before
  · exact Op.run_held (I := fun h => h.service.Wf) passive (fun _ start => start.pop) _ n before

/-- No host call but reset touches the in-service stack. -/
theorem hostCall_service_wf (passive : hooks.Passive) (call : HostCall) (m : Machine ω)
    (wf : m.cpu.service.Wf) : (call.run hooks m).2.cpu.service.Wf := by
  -- Only a reset and a register write come near the stack of services.
  cases known : call.quiet with
  | true =>
    rw [show (call.run hooks m).2.cpu.service = m.cpu.service from
      congrArg Stable.service (hostCall_steady call known m)]
    exact wf
  | false =>
    cases call with
    | reset wipe rand => exact IrqService.Wf.reset
    | setResetSeed _ | setBreakpoint _ _ | loadCode _ => exact wf
    | sfrWrite address value =>
      simp only [HostCall.run]
      split
      · exact wf
      · rw [show (sfrWrite hooks (sfrIndex address) value m).cpu.service = m.cpu.service from
          congrArg Held.service (sfrWrite_held passive _ _ m)]
        exact wf
    | _ => exact absurd known (by simp [HostCall.quiet])

/-- The in-service stack is well formed in every reachable state. -/
theorem reachable_service_wf (passive : hooks.Passive) {m : Machine ω}
    (reach : Reachable hooks m) : m.cpu.service.Wf := by
  refine reach.induct (I := fun m => m.cpu.service.Wf) (fun m fresh => ?_) (fun action m before => ?_)
  · obtain ⟨c, wipe, rand, image, entry, -, same⟩ := fresh
    rw [same]
    exact IrqService.Wf.reset
  · -- A tick, a host call, and a change of the embedder's own side.
    cases action with
    | tick => exact tick_service_wf passive m before
    | call c => exact hostCall_service_wf passive c m before
    | own update => exact before

/-! ### Releases -/

/-- An in-service stack that has lost its innermost entry and nothing else. -/
structure IrqService.Releases (before after : IrqService) : Prop where
  nested : 0 < before.depth
  depth : after.depth + 1 = before.depth
  sources : ∀ i < after.depth, after.sourceStack i = before.sourceStack i
  priorities : ∀ i < after.depth, after.priorityStack i = before.priorityStack i
  served : before.inService.getLsbD (before.sourceStack after.depth) = true
  exactly : ∀ n, after.inService.getLsbD n = true ↔
    before.inService.getLsbD n = true ∧ n ≠ before.sourceStack after.depth

/-- Popping a well-formed stack releases exactly its innermost source. -/
theorem IrqService.Wf.releases {v : IrqService} (wf : v.Wf) (nested : 0 < v.depth) :
    v.Releases v.pop := by
  have shape : v.pop = { v with
      depth := v.depth - 1
      inService := v.inService &&& ~~~(1#16 <<< v.sourceStack (v.depth - 1)) } :=
    if_neg (by omega)
  have narrow := wf.genuine (v.depth - 1) (by omega)
  rw [shape]
  refine ⟨nested, by simp only; omega, fun _ _ => rfl, fun _ _ => rfl,
    (wf.exactly _).mpr ⟨v.depth - 1, by omega, rfl⟩, fun n => ?_⟩
  simp only [BitVec.getLsbD_and, BitVec.getLsbD_not, Bits.getLsbD_one_shiftLeft]
  constructor
  · intro kept
    simp only [Bool.and_eq_true] at kept
    refine ⟨kept.1, ?_⟩
    rintro rfl
    have wide : v.sourceStack (v.depth - 1) < 16 := by omega
    simp [wide] at kept
  · rintro ⟨served, other⟩
    -- A served source is on the stack, so its number fits the mask.
    obtain ⟨i, within, same⟩ := (wf.exactly n).mp served
    have := wf.genuine i within
    have wide : n < 16 := by omega
    simp [served, other, wide]

/-- What a tick leaves in service after an instruction is what the opcode body left. -/
theorem tick_service_of_begins {m : Machine ω} (begins : m.Begins hooks) :
    (tick hooks m).2.cpu.service =
      ((opTable (opcodeStart hooks m).cpu.opcode).run hooks (opcodeStart hooks m)).2.cpu.service := by
  have fetched : (handleInterrupts hooks m).2.cpu.opcode = (opcodeStart hooks m).cpu.opcode := by
    rw [opcodeStart, beginInstruction_cpu]
    rfl
  have ended : (opcodeDone hooks m).cpu.service =
      ((opTable (opcodeStart hooks m).cpu.opcode).run hooks (opcodeStart hooks m)).2.cpu.service := by
    rw [opcodeDone, runInstruction_cpu, fetched]
  rw [← ended]
  -- What follows the body, if anything does, keeps the stack of services steady.
  rcases tick_of_begins begins with same | same
  · rw [same]
  · rw [same]
    exact congrArg Stable.service (advanceMachineCycle_steady hooks _)

/--
The nesting discipline of the Siemens controller, in every reachable state.

The stack is well formed, no candidate is ever refused for want of depth, and a return from
interrupt that is neither aborted nor short of stack releases exactly the innermost source.
-/
theorem nesting_discipline (passive : hooks.Passive) {m : Machine ω} (reach : Reachable hooks m) :
    m.cpu.service.Wf ∧
      (∀ source, (irqSync hooks m).cpu.candidate source = true →
        (irqSync hooks m).cpu.service.depth < 4) ∧
      (m.Begins hooks → (opcodeStart hooks m).cpu.opcode = 0x32#8 →
        0 < (opcodeStart hooks m).cpu.service.depth →
        (opcodeStart hooks m).cpu.canReturn = true →
        (reti.run hooks (opcodeStart hooks m)).2.aborted hooks = false →
        (opcodeStart hooks m).cpu.service.Releases (tick hooks m).2.cpu.service) := by
  have wf := reachable_service_wf passive reach
  have synced : (irqSync hooks m).cpu.service = m.cpu.service :=
    congrArg Stable.service (irqSync_stable hooks m)
  refine ⟨wf, fun source fits => ?_, fun begins opcode nested returns kept => ?_⟩
  · -- At full depth the arbiter has no candidate at all.
    by_contra full
    have none := arbitrate_of_full (synced ▸ wf) (Nat.not_lt.mp full)
    rw [arbitrate_eq_none_iff] at none
    exact absurd fits (ne_true_of_eq_false (none source))
  · -- The body of opcode 0x32 pops the stack it was started with.
    have started : (opcodeStart hooks m).cpu.service.Wf := by
      rw [opcodeStart, beginInstruction_cpu]
      exact handleInterrupts_service_wf m wf
    have sab : (opcodeStart hooks m).cpu.variant = .sab80535 := by
      obtain ⟨delay, handled⟩ := handleInterrupts_fixed hooks m
      rw [opcodeStart, beginInstruction_cpu]
      exact (congrArg Fixed.variant handled).trans (reach.atRest passive).sab
    have table : opTable 0x32#8 = reti := rfl
    rw [tick_service_of_begins begins, opcode, table, (reti_stable _ sab returns kept).1]
    exact started.releases nested

/-- Firmware whose INT0 handler returns at once, run until that return is about to execute. -/
def handlerReturning : Machine Unit :=
  runActions Hooks.none
    [.call (.sfrWrite 0xA8#8 0x81#8), .call (.setPending 0 true), .tick, .tick, .tick]
    (Machine.boot fun address => if address = 0x0003#16 then 0x32#8 else 0#8)

/-- A state of that run, so reachable. -/
theorem handlerReturning_reachable : Reachable Hooks.none handlerReturning :=
  ⟨_, _, Machine.boot_isReset _, rfl⟩

/-- The return releases INT0, the only source in service. -/
theorem nesting_discipline_handlerReturning :
    handlerReturning.cpu.service.Wf ∧
      (opcodeStart Hooks.none handlerReturning).cpu.service.Releases
        (tick Hooks.none handlerReturning).2.cpu.service := by
  have discipline := nesting_discipline Hooks.none_passive handlerReturning_reachable
  refine ⟨discipline.1, discipline.2.2 ⟨⟨rfl, by decide, by decide⟩, ⟨by decide, rfl, by decide,
    by decide⟩, rfl⟩ (by decide) (by decide) (by decide) rfl⟩

end Emu80535
