import Emu80535.Lib.Bits
import Emu80535.Proofs.Bodies

/-! Which source the controller selects, and what entering its handler does. -/

namespace Emu80535

variable {ω : Type} {hooks : Hooks ω}

open Machine

/-! ### Arbitration -/

/-- The paired priority bits make a number below four. -/
theorem irqPriority_lt (c : Cpu) (source : IrqSource) : c.irqPriority source < 4 := by
  simp only [Cpu.irqPriority]
  split <;> split <;> decide

/-- The arbitration loop is a scan for the first maximum. -/
theorem arbitrate_eq (c : Cpu) :
    c.arbitrate = IrqSource.all.foldl (Fold.challenge c.candidate c.irqPriority) none := by
  simp only [Cpu.arbitrate]
  congr 1
  funext best source
  cases best <;> rfl

/-- The polling order is the order of the source numbers. -/
theorem irqSource_all_sorted : IrqSource.all.Pairwise (fun a b => a.toNat < b.toNat) := by
  decide

/-- Every source is in the polling order. -/
theorem irqSource_mem_all (source : IrqSource) : source ∈ IrqSource.all := by
  cases source <;> decide

/-- The source number determines the source. -/
theorem irqSource_toNat_inj {a b : IrqSource} (same : a.toNat = b.toNat) : a = b := by
  cases a <;> cases b <;> first | rfl | (exact absurd same (by decide))

/-- The loop finds exactly the eligible source of greatest priority and lowest number. -/
theorem arbitrate_eq_some_iff (c : Cpu) (source : IrqSource) :
    c.arbitrate = some source ↔
      Fold.Wins c.candidate c.irqPriority IrqSource.toNat IrqSource.all source := by
  rw [arbitrate_eq]
  exact Fold.foldl_challenge_eq_some_iff irqSource_all_sorted
    (fun _ _ _ _ same => irqSource_toNat_inj same) source

/-- It finds nothing exactly when there is no candidate. -/
theorem arbitrate_eq_none_iff (c : Cpu) :
    c.arbitrate = none ↔ ∀ source, c.candidate source = false := by
  rw [arbitrate_eq, Fold.foldl_challenge_eq_none_iff IrqSource.toNat irqSource_all_sorted]
  exact ⟨fun all source => all source (irqSource_mem_all source), fun all source _ => all source⟩

/-- A candidate is not in service and outranks what is. -/
theorem candidate_spec {c : Cpu} {source : IrqSource} (fits : c.candidate source = true) :
    c.service.inService.getLsbD source.toNat = false ∧
      ∀ p, c.service.current = some p → p < c.irqPriority source := by
  have narrow : source.toNat < 16 := by cases source <;> decide
  simp only [Cpu.candidate, Bool.and_eq_true, beq_iff_eq, IrqSource.bit] at fits
  refine ⟨(Bits.and_one_shiftLeft_eq_zero_iff narrow).mp fits.1.1.2, fun p top => ?_⟩
  simpa [top] using fits.2

/-! ### Interrupt entry -/

/-- The machine at the point where an entry commits, after both pushes. -/
def entryPushed (hooks : Hooks ω) (m : Machine ω) : Machine ω :=
  let m := m.raw hooks (.contextPreflight m.cpu.machineCycleCount)
  let low := (pushToStack (m.cpu.pc.setWidth 8)).run hooks m
  ((pushToStack ((low.2.cpu.pc >>> 8).setWidth 8)).run hooks low.2).2

/-- Both pushes together touch only internal RAM and the pointer. -/
theorem entryPushed_sameButStack (m : Machine ω) :
    SameButStack m.cpu (entryPushed hooks m).cpu := by
  simp only [entryPushed]
  generalize kept : m.raw hooks (.contextPreflight m.cpu.machineCycleCount) = n
  have same : n.cpu = m.cpu := by rw [← kept, raw_cpu]
  rw [← same]
  exact SameButStack.trans _ _ _ (pushToStack_sameButStack _ n) (pushToStack_sameButStack _ _)

/-- An entry fails having touched only the stack, or commits after both pushes. -/
theorem enterInterrupt_cases (source : IrqSource) (m : Machine ω) :
    ((enterInterrupt hooks source m).1 = false ∧
        SameButStack m.cpu (enterInterrupt hooks source m).2.cpu) ∨
      enterInterrupt hooks source m =
        (true, acceptInterrupt hooks source (m.cpu.irqPriority source) m.cpu.pc
          (m.cpu.sfr Reg.sp) m.cpu.irqPending (entryPushed hooks m)) := by
  simp only [enterInterrupt, entryPushed]
  generalize kept : m.raw hooks (.contextPreflight m.cpu.machineCycleCount) = n
  -- The preflight leaves the CPU alone, whatever it answers.
  have same : n.cpu = m.cpu := by rw [← kept, raw_cpu]
  have low := @pushToStack_sameButStack ω hooks (n.cpu.pc.setWidth 8) n
  rw [same] at low
  -- Three ways to fail, each before the commit: the preflight, the low byte, the high byte.
  split
  · left
    exact ⟨rfl, by rw [same]; exact SameButStack.refl _⟩
  · split
    · split
      · right
        rw [same]
      · left
        refine ⟨rfl, ?_⟩
        rw [same] at *
        exact SameButStack.trans _ _ _ low (pushToStack_sameButStack _ _)
    · left
      rw [same]
      exact ⟨rfl, low⟩

/-- The stable part a committed entry leaves behind. -/
def Cpu.afterEntry (c : Cpu) (source : IrqSource) (priority : Nat) : Stable :=
  { c.stable.write Reg.pcon (c.sfr Reg.pcon &&& ~~~Pcon.idle) with
    fixed := { c.fixed with tickDelay := 1 }
    pc := source.vector
    service := c.service.push source priority c }

/-- Committing an entry sets the vector, the pending cycle, IDLE and the in-service stack. -/
theorem acceptInterrupt_stable (source : IrqSource) (priority : Nat) (returnPc : Word)
    (spBefore : Byte) (pending : Word) (m : Machine ω) :
    (acceptInterrupt hooks source priority returnPc spBefore pending m).cpu.stable =
      m.cpu.afterEntry source priority := by
  simp only [acceptInterrupt, emitIrq_cpu, irqSync_stable, autoClear_stable, raw_cpu]
  -- Of the registers the commit writes only PCON is kept by no peripheral.
  have stored := setSfr_stable_eq m Reg.pcon (m.cpu.sfr Reg.pcon &&& ~~~Pcon.idle)
  exact congrArg (fun s : Stable =>
    { s with
      fixed := { s.fixed with tickDelay := 1 }
      pc := source.vector
      service := m.cpu.service.push source priority m.cpu }) stored

/-- Of the registers no peripheral writes, a committed entry changes PCON alone. -/
theorem sfr_of_afterEntry {c e : Cpu} {source : IrqSource} {priority : Nat}
    (same : e.stable = c.afterEntry source priority) (sab : c.variant = .sab80535)
    {index : SfrIndex} (quiet : isVolatile .sab80535 index = false) :
    e.sfr index =
      Function.update c.sfr Reg.pcon (c.sfr Reg.pcon &&& ~~~Pcon.idle) index := by
  have variant : e.variant = .sab80535 :=
    (congrArg (fun s : Stable => s.fixed.variant) same).trans sab
  have entry : (if isVolatile e.variant index then 0#8 else e.sfr index) =
      Function.update c.stable.sfr Reg.pcon
        (if isVolatile c.variant Reg.pcon then 0#8 else c.sfr Reg.pcon &&& ~~~Pcon.idle) index :=
    congrFun (congrArg Stable.sfr same) index
  have shown : isVolatile .sab80535 Reg.pcon = false := rfl
  rw [variant, quiet, sab, shown] at entry
  -- PCON is the one that was written; the others were not.
  by_cases here : index = Reg.pcon
  · rw [here, Function.update_self] at entry ⊢
    exact entry
  · rw [Function.update_of_ne here] at entry ⊢
    exact entry.trans (by simp [Cpu.stable, sab, quiet])

/-- A committed entry pushes its source on the in-service stack. -/
theorem acceptInterrupt_service (source : IrqSource) (priority : Nat) (returnPc : Word)
    (spBefore : Byte) (pending : Word) (m : Machine ω) :
    (acceptInterrupt hooks source priority returnPc spBefore pending m).cpu.service =
      m.cpu.service.push source priority m.cpu :=
  congrArg Stable.service (acceptInterrupt_stable source priority returnPc spBefore pending m)

/-- The Siemens handler leaves the synchronised machine alone, or attempts one entry. -/
theorem handleSabInterrupts_cases (hooks : Hooks ω) (m : Machine ω) :
    (handleSabInterrupts hooks m = (true, irqSync hooks m) ∧
        ((irqSync hooks m).cpu.irqInhibit ≠ 0 ∨
          has ((irqSync hooks m).cpu.sfr Reg.ien0) Ie.ea = false ∨
          (irqSync hooks m).cpu.arbitrate = none ∨ 4 ≤ (irqSync hooks m).cpu.service.depth)) ∨
      ∃ source, (irqSync hooks m).cpu.irqInhibit = 0 ∧
        has ((irqSync hooks m).cpu.sfr Reg.ien0) Ie.ea = true ∧
        (irqSync hooks m).cpu.arbitrate = some source ∧
        (irqSync hooks m).cpu.service.depth < 4 ∧
        handleSabInterrupts hooks m = enterInterrupt hooks source (irqSync hooks m) := by
  -- The four reasons to leave, in the order of the tests, and then the attempt.
  simp only [handleSabInterrupts]
  split
  · rename_i held
    exact Or.inl ⟨rfl, Or.inl held⟩
  · rename_i free
    split
    · rename_i disabled
      exact Or.inl ⟨rfl, Or.inr (Or.inl disabled)⟩
    · rename_i enabled
      cases found : (irqSync hooks m).cpu.arbitrate with
      | none => exact Or.inl ⟨rfl, Or.inr (Or.inr (Or.inl rfl))⟩
      | some source =>
        dsimp only
        by_cases full : 4 ≤ (irqSync hooks m).cpu.service.depth
        · rw [if_pos full]
          exact Or.inl ⟨rfl, Or.inr (Or.inr (Or.inr full))⟩
        · rw [if_neg full]
          exact Or.inr ⟨source, by omega, by simpa using enabled, rfl, by omega, rfl⟩

/-- The classic handler touches only the stack, or commits an entry after both pushes. -/
theorem handleClassicInterrupts_cases (hooks : Hooks ω) (m : Machine ω) :
    SameButStack m.cpu (handleClassicInterrupts hooks m).2.cpu ∨
      ∃ source hi n, SameButStack m.cpu n.cpu ∧
        handleClassicInterrupts hooks m = (true, acceptClassic source hi n) := by
  have low := fun v => @pushToStack_sameButStack ω hooks v m
  have both := fun v w => SameButStack.trans _ _ _ (low v)
    (@pushToStack_sameButStack ω hooks w ((pushToStack v).run hooks m).2)
  -- Nothing to do, a source of too low a level, or the two pushes and their commit.
  simp only [handleClassicInterrupts]
  split
  · exact Or.inl (SameButStack.refl _)
  · split
    · exact Or.inl (SameButStack.refl _)
    · rename_i source hi _
      split
      · exact Or.inl (SameButStack.refl _)
      · split
        · split
          · exact Or.inr ⟨source, hi, _, both _ _, rfl⟩
          · exact Or.inl (both _ _)
        · exact Or.inl (low _)

/-- Handling interrupts changes nothing of the fixed part but the pending cycles. -/
theorem handleInterrupts_fixed (hooks : Hooks ω) (m : Machine ω) :
    ∃ delay, (handleInterrupts hooks m).2.cpu.fixed = { m.cpu.fixed with tickDelay := delay } := by
  have synced : (irqSync hooks m).cpu.fixed = m.cpu.fixed :=
    Stable.fixed_eq (irqSync_stable hooks m)
  simp only [handleInterrupts]
  split
  · -- An entry sets the pending cycle; everything else keeps what is pending.
    rcases handleSabInterrupts_cases hooks m with ⟨same, -⟩ | ⟨source, -, -, -, -, same⟩
    · exact ⟨m.cpu.tickDelay, by rw [same]; exact synced⟩
    · rw [same]
      rcases @enterInterrupt_cases ω hooks source (irqSync hooks m) with ⟨-, kept⟩ | entered
      · exact ⟨m.cpu.tickDelay, by rw [kept.fixed]; exact synced⟩
      · have pushed := (@entryPushed_sameButStack ω hooks (irqSync hooks m)).fixed
        rw [entered]
        refine ⟨1, ?_⟩
        have committed := congrArg Stable.fixed
          (@acceptInterrupt_stable ω hooks source ((irqSync hooks m).cpu.irqPriority source)
            (irqSync hooks m).cpu.pc ((irqSync hooks m).cpu.sfr Reg.sp)
            (irqSync hooks m).cpu.irqPending (entryPushed hooks (irqSync hooks m)))
        rw [← synced, ← pushed]
        exact committed
  · rcases handleClassicInterrupts_cases hooks m with kept | ⟨source, hi, n, kept, same⟩
    · exact ⟨m.cpu.tickDelay, kept.fixed⟩
    · refine ⟨1, ?_⟩
      rw [same, ← kept.fixed]
      cases source <;> simp only [acceptClassic, Cpu.fixed, mapCpu_cpu, clearFlags, setSfr]

end Emu80535
