import Emu80535.Proofs.Arbitration
import Emu80535.Proofs.Gate

/-! The window in which a return from interrupt or a control write holds off arbitration. -/

namespace Emu80535

variable {ω : Type} {hooks : Hooks ω} {m n : Machine ω}

open Machine

/-! ### The hold-off over a tick -/

/-- The hold-off counter and the register with the global enable. -/
def Cpu.hold (c : Cpu) : Nat × Byte := (c.irqInhibit, c.sfr Reg.ien0)

/-- The hold-off is in the part of a machine that a machine cycle leaves steady. -/
theorem hold_of_steady {a b : Cpu} (same : a.steady = b.steady) (sab : b.variant = .sab80535) :
    a.hold = b.hold := by
  have inhibit : a.irqInhibit = b.irqInhibit := congrArg Stable.irqInhibit same
  have enable : a.sfr Reg.ien0 = b.sfr Reg.ien0 := steady_sfr_eq same (by rw [sab]; rfl)
  simp only [Cpu.hold, inhibit, enable]

/-- Committing an entry leaves it alone. -/
theorem acceptInterrupt_hold {source : IrqSource} (sab : m.cpu.variant = .sab80535)
    (priority : Nat) (returnPc : Word) (spBefore : Byte) (pending : Word) :
    (acceptInterrupt hooks source priority returnPc spBefore pending m).cpu.hold =
      m.cpu.hold := by
  -- A commit writes PCON and the stack of services, and neither is part of the hold-off.
  have committed := @acceptInterrupt_stable ω hooks source priority returnPc spBefore pending m
  generalize acceptInterrupt hooks source priority returnPc spBefore pending m = e at committed
  have quiet : isVolatile .sab80535 Reg.ien0 = false := rfl
  have inhibit : e.cpu.irqInhibit = m.cpu.irqInhibit := congrArg Stable.irqInhibit committed
  have enable : e.cpu.sfr Reg.ien0 = m.cpu.sfr Reg.ien0 := by
    rw [sfr_of_afterEntry committed sab quiet, Function.update_of_ne (by decide)]
  simp only [Cpu.hold, inhibit, enable]

/-- Handling interrupts leaves it alone, whether or not an entry succeeds. -/
theorem handleInterrupts_hold (sab : m.cpu.variant = .sab80535) :
    (handleInterrupts hooks m).2.cpu.hold = m.cpu.hold := by
  have synced := hold_of_steady (Stable.steady_eq (irqSync_stable hooks m)) sab
  have variant : (irqSync hooks m).cpu.variant = .sab80535 :=
    (congrArg Fixed.variant (Stable.fixed_eq (irqSync_stable hooks m))).trans sab
  have stack : ∀ {a b : Cpu}, SameButStack a b → b.hold = a.hold := by
    intro a b same
    simp only [Cpu.hold, same.irqInhibit, same.sfr Reg.ien0 (by decide)]
  -- The synchronisation is steady, and an entry changes only the stack besides.
  rw [handleInterrupts, if_pos sab]
  rcases handleSabInterrupts_cases hooks m with ⟨stays, -⟩ | ⟨source, -, -, -, -, entry⟩
  · rw [stays]
    exact synced
  · rw [entry]
    -- Without room on the stack the entry fails before the source is accepted.
    rcases @enterInterrupt_cases ω hooks source (irqSync hooks m) with ⟨-, kept⟩ | entered
    · exact (stack kept).trans synced
    · have pushed := @entryPushed_sameButStack ω hooks (irqSync hooks m)
      rw [entered]
      refine Eq.trans ?_ ((stack pushed).trans synced)
      exact acceptInterrupt_hold (pushed.variant.trans variant) _ _ _ _

/-- So does a tick that neither completes an instruction nor is aborted. -/
theorem tick_hold (sab : m.cpu.variant = .sab80535) (uncounted : (tick hooks m).1 = false)
    (kept : (tick hooks m).2.aborted hooks = false) : (tick hooks m).2.cpu.hold = m.cpu.hold := by
  have handled := @handleInterrupts_hold ω hooks m sab
  obtain ⟨delay, fixed⟩ := handleInterrupts_fixed hooks m
  have variant : (handleInterrupts hooks m).2.cpu.variant = .sab80535 :=
    (congrArg Fixed.variant fixed).trans sab
  have advanced : ∀ k : Machine ω, k.cpu.variant = .sab80535 →
      (advanceMachineCycle hooks k).cpu.hold = k.cpu.hold :=
    fun k before => hold_of_steady (advanceMachineCycle_steady hooks k) before
  have shape := tick_cases hooks m
  generalize tick hooks m = answer at shape uncounted kept
  -- A tick that fetches nothing is one or two machine cycles, which are steady.
  cases shape with
  | stopped _ => rfl
  | pending _ _ => exact advanced _ sab
  | failed _ _ | entered _ _ _ _ => exact (advanced _ variant).trans handled
  | idle _ _ _ _ _ => exact (advanced (updateParity _) variant).trans handled
  | cut _ _ aborted | interrupted _ aborted =>
    exact absurd (aborted.symm.trans kept) (by decide)
  | unbegun _ _ aborted => exact absurd (Eq.trans (Eq.symm aborted) kept) (by decide)
  | completed _ _ => exact absurd uncounted Bool.noConfusion

/-- The state an opcode body starts from holds off as the state before the tick does. -/
theorem opcodeStart_hold (sab : m.cpu.variant = .sab80535) :
    (opcodeStart hooks m).cpu.hold = m.cpu.hold ∧ (opcodeStart hooks m).cpu.armValue = 2 ∧
      (opcodeStart hooks m).cpu.variant = .sab80535 := by
  obtain ⟨delay, fixed⟩ := handleInterrupts_fixed hooks m
  rw [opcodeStart, beginInstruction_cpu]
  exact ⟨handleInterrupts_hold sab, rfl, (congrArg Fixed.variant fixed).trans sab⟩

/-- The body of the instruction a tick executes. -/
def Machine.body (hooks : Hooks ω) (m : Machine ω) : Op Nat :=
  opTable (opcodeStart hooks m).cpu.opcode

/-- A completed instruction lowers by one what its body left. -/
theorem tick_inhibit (sticky : hooks.Sticky) (quiet : hooks.Quiet)
    (sab : m.cpu.variant = .sab80535) (done : (tick hooks m).1 = true) :
    ((m.body hooks).run hooks (opcodeStart hooks m)).2.aborted hooks = false ∧
      (tick hooks m).2.cpu.irqInhibit =
        ((m.body hooks).run hooks (opcodeStart hooks m)).2.cpu.irqInhibit - 1 := by
  obtain ⟨-, unaborted, same⟩ := tick_completed done
  have fetched : (handleInterrupts hooks m).2.cpu.opcode = (opcodeStart hooks m).cpu.opcode := by
    rw [opcodeStart, beginInstruction_cpu]
    rfl
  have kept := body_unaborted sticky _ _ unaborted
  rw [fetched] at kept
  refine ⟨kept, ?_⟩
  -- The decrement is behind the test of the variant.
  have variant : (opcodeDone hooks m).cpu.variant = .sab80535 := by
    rw [opcodeDone, runInstruction_cpu]
    exact (congrArg Fixed.variant (Op.run_fixed quiet _ _)).trans (opcodeStart_hold sab).2.2
  have ran : (opcodeDone hooks m).cpu.irqInhibit =
      ((m.body hooks).run hooks (opcodeStart hooks m)).2.cpu.irqInhibit := by
    rw [opcodeDone, runInstruction_cpu, fetched]
    rfl
  have advanced : (advanceMachineCycle hooks
      (updateParity (countInstruction (opcodeDone hooks m)))).cpu.irqInhibit =
        (updateParity (countInstruction (opcodeDone hooks m))).cpu.irqInhibit :=
    congrArg Stable.irqInhibit (advanceMachineCycle_steady hooks _)
  rw [same, advanced, ← ran]
  exact if_pos variant

/-! ### The bound of the counter -/

/-- No action of an opcode raises the counter above two. -/
theorem Op.run_inhibit_le {α : Type} (quiet : hooks.Quiet) (p : Op α) (m : Machine ω)
    (before : m.cpu.irqInhibit ≤ 2) : (p.run hooks m).2.cpu.irqInhibit ≤ 2 := by
  have arm : ∀ c : Cpu, c.armValue ≤ 2 := by
    intro c
    simp only [Cpu.armValue]
    split <;> decide
  refine Op.run_keeps (I := fun c => c.irqInhibit ≤ 2) (fun e k start => ?_) p m before
  have direct : e.Direct → (e.apply hooks k).cpu.irqInhibit ≤ 2 :=
    fun away => Nat.le_trans (Nat.le_of_eq (away.keeps e k).inhibit) start
  -- Only a register write and a return from an interrupt touch the counter, and both arm it.
  cases e with
  | sfrWrite index value =>
    rcases sfrWrite_stable quiet index value k with same | ⟨-, -, same⟩
    · exact Nat.le_trans (Nat.le_of_eq (congrArg Stable.irqInhibit same)) start
    · exact Nat.le_trans (Nat.le_of_eq (congrArg Stable.irqInhibit same)) (arm _)
  | irqReti originalSp =>
    rcases @sabIrqReti_stable ω hooks originalSp k with ⟨same, -⟩ | ⟨-, same⟩
    · exact Nat.le_trans (Nat.le_of_eq (congrArg Stable.irqInhibit same)) start
    · exact Nat.le_trans (Nat.le_of_eq (congrArg Stable.irqInhibit same)) (arm _)
  | setLower _ _ | setUpper _ _ | setReg _ _ | setPc _ | setExt _ _ | setInterruptActive _
  | raise _ | emit _ | trace _ _ _ | fact _ =>
    exact direct trivial

/-- What a host call does to the hold-off and to PCON. -/
theorem hostCall_hold (rest : m.cpu.AtRest) (call : HostCall) :
    ((call.run hooks m).2.cpu.hold = m.cpu.hold ∧
        (call.run hooks m).2.cpu.sfr Reg.pcon = m.cpu.sfr Reg.pcon) ∨
      (∃ wipe rand, call = .reset wipe rand) ∨
      ∃ address value, call = .sfrWrite address value ∧ ¬address < 0x80#8 := by
  -- A call that is not quiet is a reset, a change of the host side or a register write.
  cases known : call.quiet with
  | true =>
    have same := @hostCall_steady ω hooks call known m
    exact Or.inl ⟨hold_of_steady same rest.sab, steady_sfr_eq same (by rw [rest.sab]; rfl)⟩
  | false =>
    cases call with
    | reset wipe rand => exact Or.inr (Or.inl ⟨wipe, rand, rfl⟩)
    | setResetSeed _ | setBreakpoint _ _ | loadCode _ => exact Or.inl ⟨rfl, rfl⟩
    | sfrWrite address value =>
      by_cases low : address < 0x80#8
      · left
        simp only [HostCall.run, if_pos low, and_self]
      · exact Or.inr (Or.inr ⟨address, value, rfl, low⟩)
    | _ => exact absurd known (by simp [HostCall.quiet])

/-- Reset disables interrupts. -/
theorem reset_disabled (wipe : Bool) (rand : Byte) (c : Cpu) :
    has ((c.reset wipe rand).sfr Reg.ien0) Ie.ea = false := by
  rw [reset_sfr wipe rand c (by decide)]
  cases (c.reset wipe rand).variant <;> cases wipe <;> rfl

/-- A write of any other register leaves the hold-off and the global enable alone. -/
theorem sfrWrite_hold (quiet : hooks.Quiet) {index : SfrIndex} (value : Byte)
    (sab : m.cpu.variant = .sab80535) (other : isIrqControl index = false) :
    (sfrWrite hooks index value m).cpu.hold = m.cpu.hold := by
  rcases sfrWrite_stable quiet index value m with same | ⟨-, control, -⟩
  · -- The masked register write is another one, so IEN0 is not the register written.
    have apart : Reg.ien0 ≠ index := by
      rintro rfl
      exact absurd other (by decide)
    have inhibit : (sfrWrite hooks index value m).cpu.irqInhibit = m.cpu.irqInhibit :=
      congrArg Stable.irqInhibit same
    have enable : (sfrWrite hooks index value m).cpu.sfr Reg.ien0 = m.cpu.sfr Reg.ien0 :=
      sfrWrite_sfr quiet value sab apart rfl
    simp only [Cpu.hold, inhibit, enable]
  · exact absurd (other.symm.trans control) (by decide)

/-- At most one further instruction is held off, in every supervised state that is not aborted. -/
theorem Supervised.inhibit_le (quiet : hooks.Quiet) (sticky : hooks.Sticky)
    (supervised : Supervised hooks m) (running : m.aborted hooks = false) :
    m.cpu.irqInhibit ≤ 1 := by
  induction supervised with
  | reset fresh =>
    obtain ⟨c, wipe, rand, image, entry, -, same⟩ := fresh
    rw [same]
    exact Nat.zero_le 1
  | @tick k before ih =>
    have rest := before.reachable.atRest quiet.passive
    have bound := ih ((Steps.tick (.refl _)).unaborted sticky running)
    cases done : (Emu80535.tick hooks k).1 with
    | false =>
      have same : (Emu80535.tick hooks k).2.cpu.irqInhibit = k.cpu.irqInhibit :=
        congrArg Prod.fst (tick_hold rest.sab done running)
      exact Nat.le_trans (Nat.le_of_eq same) bound
    | true =>
      -- The body leaves two at most, and its completion takes one off.
      have start : (opcodeStart hooks k).cpu.irqInhibit = k.cpu.irqInhibit :=
        congrArg Prod.fst (opcodeStart_hold rest.sab).1
      have ran := Op.run_inhibit_le quiet (k.body hooks) (opcodeStart hooks k) (by omega)
      have ended := (tick_inhibit sticky quiet rest.sab done).2
      omega
  | @call k c before ih =>
    have rest := before.reachable.atRest quiet.passive
    have bound := ih ((Steps.hostCall (.refl _) c).unaborted sticky running)
    rcases @hostCall_hold ω hooks k rest c with
      ⟨same, -⟩ | ⟨wipe, rand, rfl⟩ | ⟨address, value, rfl, high⟩
    · exact Nat.le_trans (Nat.le_of_eq (congrArg Prod.fst same)) bound
    · exact Nat.zero_le 1
    · have armed : k.cpu.armValue = 1 := by simp [Cpu.armValue, rest.outside]
      simp only [HostCall.run, if_neg high]
      rcases sfrWrite_inhibit quiet (sfrIndex address) value k rest.sab with same | ⟨-, same, -⟩
      · omega
      · omega
  | @own k update before kept ih =>
    refine ih ?_
    cases aborted : k.aborted hooks with
    | false => rfl
    | true => exact absurd ((kept aborted).symm.trans running) (by decide)

/-! ### Runs without a completed instruction -/

/--
Runs in which no tick completes an instruction, whatever the host does meanwhile.

As in supervised runs, the owner does not withdraw an abort without a reset.
-/
inductive Undisturbed (hooks : Hooks ω) (allowed : HostCall → Prop) :
    Machine ω → Machine ω → Prop
  | refl (m : Machine ω) : Undisturbed hooks allowed m m
  | tick {m n : Machine ω} (before : Undisturbed hooks allowed m n)
      (uncounted : (tick hooks n).1 = false) : Undisturbed hooks allowed m (tick hooks n).2
  | call {m n : Machine ω} (call : HostCall) (before : Undisturbed hooks allowed m n)
      (permitted : allowed call) : Undisturbed hooks allowed m (call.run hooks n).2
  | own {m n : Machine ω} (update : ω → ω) (before : Undisturbed hooks allowed m n)
      (kept : n.aborted hooks = true → hooks.aborted (update n.host) = true) :
      Undisturbed hooks allowed m { n with host := update n.host }

namespace Undisturbed

variable {allowed : HostCall → Prop}

/-- A run starts and stays among the reachable machines. -/
theorem reachable (run : Undisturbed hooks allowed m n) (reach : Reachable hooks m) :
    Reachable hooks n := by
  induction run with
  | refl => exact reach
  | tick _ _ ih => exact ih.step .tick
  | call c _ _ ih => exact ih.step (.call c)
  | own update _ _ ih => exact ih.step (.own update)

/-- What its steps keep while unaborted holds at the end of a run that is not aborted. -/
theorem keeps {I : Cpu → Prop} (sticky : hooks.Sticky) (passive : hooks.Passive)
    (reach : Reachable hooks m)
    (ticks : ∀ k : Machine ω, k.cpu.AtRest → (Emu80535.tick hooks k).1 = false →
      (Emu80535.tick hooks k).2.aborted hooks = false → I k.cpu → I (Emu80535.tick hooks k).2.cpu)
    (calls : ∀ (k : Machine ω) (c : HostCall), k.cpu.AtRest → allowed c →
      (c.run hooks k).2.aborted hooks = false → I k.cpu → I (c.run hooks k).2.cpu)
    (start : I m.cpu) (run : Undisturbed hooks allowed m n) (kept : n.aborted hooks = false) :
    I n.cpu := by
  -- A run that is not aborted at its end was aborted nowhere on the way.
  induction run with
  | refl => exact start
  | @tick k before uncounted ih =>
    have earlier := (Steps.tick (.refl k)).unaborted sticky kept
    exact ticks k ((before.reachable reach).atRest passive) uncounted kept (ih earlier)
  | @call k c before permitted ih =>
    have earlier := (Steps.hostCall (.refl k) c).unaborted sticky kept
    exact calls k c ((before.reachable reach).atRest passive) permitted kept (ih earlier)
  | @own k update before held ih =>
    refine ih ?_
    cases aborted : k.aborted hooks with
    | false => rfl
    | true => exact absurd ((held aborted).symm.trans kept) (by decide)

end Undisturbed

/-- A CPU that enters no interrupt: arbitration is held off or disabled altogether. -/
def Cpu.Barred (c : Cpu) : Prop := c.irqInhibit ≠ 0 ∨ has (c.sfr Reg.ien0) Ie.ea = false

/-- Being barred outlives every run without a completed instruction. -/
theorem Undisturbed.barred (quiet : hooks.Quiet) (sticky : hooks.Sticky)
    (reach : Reachable hooks m) (start : m.cpu.Barred)
    (run : Undisturbed hooks (fun _ => True) m n) (kept : n.aborted hooks = false) :
    n.cpu.Barred := by
  have of_hold : ∀ {a b : Cpu}, b.hold = a.hold → a.Barred → b.Barred := by
    intro a b same before
    have inhibit : b.irqInhibit = a.irqInhibit := congrArg Prod.fst same
    have enable : b.sfr Reg.ien0 = a.sfr Reg.ien0 := congrArg Prod.snd same
    rw [Cpu.Barred, inhibit, enable]
    exact before
  refine run.keeps sticky quiet.passive reach
    (fun k rest uncounted unaborted => of_hold (tick_hold rest.sab uncounted unaborted))
    (fun k c rest _ unaborted before => ?_) start kept
  rcases @hostCall_hold ω hooks k rest c with
      ⟨same, -⟩ | ⟨wipe, rand, rfl⟩ | ⟨address, value, rfl, high⟩
  · exact of_hold same before
  · -- A reset disables interrupts.
    exact Or.inr (reset_disabled wipe rand k.cpu)
  · simp only [HostCall.run, if_neg high] at unaborted ⊢
    cases control : isIrqControl (sfrIndex address) with
    | true =>
      -- A write that might enable interrupts arms the hold-off.
      left
      rw [sfrWrite_armed quiet value k rest.sab control unaborted, Cpu.armValue]
      split <;> decide
    | false => exact of_hold (sfrWrite_hold quiet value rest.sab control) before

/-! ### The window -/

/-- A host write of an interrupt control register. -/
def HostCall.writesControl : HostCall → Bool
  | .sfrWrite address _ => isControlAddress address
  | _ => false

/-- Without such writes, a run without a completed instruction keeps the hold-off at zero. -/
theorem Undisturbed.free (quiet : hooks.Quiet) (sticky : hooks.Sticky)
    (reach : Reachable hooks m) (start : m.cpu.irqInhibit = 0)
    (run : Undisturbed hooks (fun c => c.writesControl = false) m n)
    (kept : n.aborted hooks = false) : n.cpu.irqInhibit = 0 := by
  refine run.keeps (I := fun c => c.irqInhibit = 0) sticky quiet.passive reach
    (fun k rest uncounted unaborted before => ?_)
    (fun k c rest permitted unaborted before => ?_) start kept
  · -- A tick that counts nothing leaves the hold-off alone, so it stays at zero.
    exact (congrArg Prod.fst (tick_hold rest.sab uncounted unaborted)).trans before
  · rcases @hostCall_hold ω hooks k rest c with
      ⟨same, -⟩ | ⟨wipe, rand, rfl⟩ | ⟨address, value, rfl, high⟩
    · -- A host call that changes it writes a control register, which the run excludes.
      exact (congrArg Prod.fst same).trans before
    · rfl
    · have above : 0x7F#8 < address := by bv_omega
      have other : isIrqControl (sfrIndex address) = false := by
        simpa [HostCall.writesControl, isControlAddress, above] using permitted
      simp only [HostCall.run, if_neg high]
      exact (congrArg Prod.fst (sfrWrite_hold quiet value rest.sab other)).trans before

namespace Machine

/-- The next instruction is a return from interrupt. -/
def IsReti (hooks : Hooks ω) (m : Machine ω) : Prop := (opcodeStart hooks m).cpu.opcode = 0x32#8

/-- The next instruction stores an interrupt control register. -/
def WritesControl (hooks : Hooks ω) (m : Machine ω) : Prop :=
  (m.body hooks).writesControl hooks (opcodeStart hooks m) = true

/-- The next instruction is a return that finds its address on the stack, or such a store. -/
def Arms (hooks : Hooks ω) (m : Machine ω) : Prop :=
  (m.IsReti hooks ∧ (opcodeStart hooks m).cpu.canReturn = true) ∨ m.WritesControl hooks

end Machine

/-- A completed instruction of either kind leaves one further instruction held off. -/
theorem tick_arms (quiet : hooks.Quiet) (sticky : hooks.Sticky)
    (sab : m.cpu.variant = .sab80535) (done : (tick hooks m).1 = true) (arms : m.Arms hooks) :
    (tick hooks m).2.cpu.irqInhibit = 1 := by
  obtain ⟨kept, ended⟩ := tick_inhibit sticky quiet sab done
  obtain ⟨-, armed, variant⟩ := @opcodeStart_hold ω hooks m sab
  -- Either body leaves two, of which the completion takes one.
  have two : ((m.body hooks).run hooks (opcodeStart hooks m)).2.cpu.irqInhibit = 2 := by
    rw [← armed]
    by_cases opcode : m.IsReti hooks
    · have body : m.body hooks = reti := by
        rw [Machine.body, opcode]
        rfl
      rw [body] at kept ⊢
      rcases arms with ⟨-, returns⟩ | stores
      · exact (reti_stable _ variant returns kept).2
      · rw [Machine.WritesControl, body, reti_not_control] at stores
        exact absurd stores (by decide)
    · rcases arms with ⟨isReti, -⟩ | stores
      · exact absurd isReti opcode
      · exact (opTable_gated opcode).armed quiet _ variant sticky stores kept
  rw [ended, two]

/-- A completed instruction that neither returns from an interrupt nor stores one leaves none. -/
theorem tick_frees (quiet : hooks.Quiet) (sticky : hooks.Sticky)
    (supervised : Supervised hooks m) (done : (tick hooks m).1 = true) (other : ¬m.IsReti hooks)
    (spares : ¬m.WritesControl hooks) : (tick hooks m).2.cpu.irqInhibit = 0 := by
  have sab := (supervised.reachable.atRest quiet.passive).sab
  obtain ⟨hold, -, variant⟩ := @opcodeStart_hold ω hooks m sab
  -- The body arms nothing, so what it leaves is what was there before, two at the most.
  have body : ((m.body hooks).run hooks (opcodeStart hooks m)).2.cpu.irqInhibit =
      (opcodeStart hooks m).cpu.irqInhibit :=
    (opTable_gated other).unarmed quiet _ variant (Bool.eq_false_iff.mpr spares)
  have start : (opcodeStart hooks m).cpu.irqInhibit = m.cpu.irqInhibit := congrArg Prod.fst hold
  have running : m.aborted hooks = false := by
    cases aborted : m.aborted hooks with
    | false => rfl
    | true =>
      rw [tick_aborted aborted] at done
      exact absurd done Bool.false_ne_true
  have bound := supervised.inhibit_le quiet sticky running
  have ended := (tick_inhibit sticky quiet sab done).2
  omega

/--
The window after a completed instruction: when it returned from an interrupt or stored a control
register, nothing is entered before a further instruction completes; when it did neither,
arbitration is free as long as the host stores no control register; and every form of write to a
direct or bit address stores the control register it names.
-/
theorem inhibit_window (quiet : hooks.Quiet) (sticky : hooks.Sticky) (reach : Reachable hooks m)
    (done : (tick hooks m).1 = true) :
    (m.Arms hooks → ∀ n, Undisturbed hooks (fun _ => True) (tick hooks m).2 n →
        ∀ source, ¬n.Enters hooks source) ∧
      (Supervised hooks m → ¬m.IsReti hooks → ¬m.WritesControl hooks →
        ∀ n, Undisturbed hooks (fun c => c.writesControl = false) (tick hooks m).2 n →
          n.Ready hooks → n.cpu.hasRoom = true → n.Admits hooks →
          ((∃ source, n.Enters hooks source) ↔ has (n.cpu.sfr Reg.ien0) Ie.ea = true ∧
            ∃ source, (maintainLevelRequests hooks n).cpu.Eligible source)) ∧
      ∀ target, (opcodeStart hooks m).cpu.directTarget = some target →
        isControlAddress target = true → m.WritesControl hooks := by
  have sab := (reach.atRest quiet.passive).sab
  have after : Reachable hooks (tick hooks m).2 := reach.step .tick
  refine ⟨fun arms n run source entered => ?_,
    fun supervised other spares n run ready room admits => ?_,
    fun target names control => directTarget_writes names control⟩
  · -- An armed instruction leaves one: no entry is due until the next one has lowered it.
    cases aborted : n.aborted hooks with
    | false =>
      have held : (tick hooks m).2.cpu.Barred :=
        Or.inl (by rw [tick_arms quiet sticky sab done arms]; decide)
      have barred := run.barred quiet sticky after held aborted
      refine not_enters quiet.passive (run.reachable after) (fun enters => ?_) source entered
      rcases barred with inhibited | disabled
      · exact inhibited enters.2.1
      · exact absurd (disabled.symm.trans enters.1) (by decide)
    | true =>
      have depth := entered.depth
      rw [tick_aborted aborted] at depth
      exact absurd depth (Nat.succ_ne_self _).symm
  · -- The other direction: nothing armed, so the arbitration alone decides.
    have free := run.free quiet sticky after
      (tick_frees quiet sticky supervised done other spares) ready.unaborted
    have reached := run.reachable after
    refine ⟨fun ⟨source, entered⟩ => ?_, fun ⟨enabled, eligible⟩ => ?_⟩
    · by_contra none
      exact not_enters quiet.passive reached (fun enters => none ⟨enters.1, enters.2.2⟩) source
        entered
    · obtain ⟨source, -, entered, -⟩ :=
        enters_of_eligible quiet.passive reached ready room admits enabled free eligible
      exact ⟨source, entered⟩

/-- Firmware whose first instruction, MOV IEN0,#81h, enables INT0. -/
def enablingFirmware (address : Word) : Byte :=
  if address = 0#16 then 0x75#8 else if address = 1#16 then 0xA8#8
  else if address = 2#16 then 0x81#8 else 0#8

/-- The instruction after it, with a request raised in between. -/
def enabledRequest : Machine Unit :=
  runActions Hooks.none [.tick, .call (.setPending 0 true), .tick] (Machine.boot enablingFirmware)

/-- The request waits until that instruction has executed, and no longer. -/
theorem inhibit_window_enablingFirmware :
    (∀ source, ¬((HostCall.setPending 0 true).run Hooks.none
        (tick Hooks.none (Machine.boot enablingFirmware)).2).2.Enters Hooks.none source) ∧
      ∃ source, (tick Hooks.none enabledRequest).2.Enters Hooks.none source := by
  -- The first tick stores IEN0, the second executes the instruction that must come between.
  have boot : Supervised Hooks.none (Machine.boot enablingFirmware) :=
    .reset (Machine.boot_isReset _)
  have later : Supervised Hooks.none enabledRequest := .tick (.call _ (.tick boot))
  have first := inhibit_window Hooks.none_quiet Hooks.none_sticky boot.reachable (by decide)
  have second := inhibit_window Hooks.none_quiet Hooks.none_sticky later.reachable (by decide)
  have writes : (Machine.boot enablingFirmware).WritesControl Hooks.none :=
    first.2.2 0xA8#8 (by decide) (by decide)
  refine ⟨first.1 (Or.inr writes) _ (.call _ (.refl _) trivial), ?_⟩
  have empty : (maintainLevelRequests Hooks.none
      (tick Hooks.none enabledRequest).2).cpu.service.current = none := by decide
  refine (second.2.1 later (by unfold IsReti; decide) (by unfold WritesControl; decide) _ (.refl _)
    ⟨rfl, by decide, by decide⟩ (by decide) (fun watched => absurd watched (by decide))).mpr
    ⟨by decide, .int0, ⟨by decide, by decide, by decide, fun p top => ?_⟩⟩
  exact absurd (empty.symm.trans top) nofun

end Emu80535
