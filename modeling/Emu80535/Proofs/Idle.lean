import Emu80535.Proofs.Inhibit

/-! When a CPU in IDLE wakes, and the host writes that keep it asleep. -/

namespace Emu80535

variable {ω : Type} {hooks : Hooks ω} {m : Machine ω}

open Machine

/-- Whether the CPU is in IDLE. -/
def Cpu.asleep (c : Cpu) : Bool := has (c.sfr Reg.pcon) Pcon.idle

/-! ### IDLE over a tick -/

/-- A machine cycle writes no quiet register, so it neither wakes the CPU nor puts it to sleep. -/
theorem advanceMachineCycle_asleep (sab : m.cpu.variant = .sab80535) :
    (advanceMachineCycle hooks m).cpu.asleep = m.cpu.asleep := by
  have pcon : (advanceMachineCycle hooks m).cpu.sfr Reg.pcon = m.cpu.sfr Reg.pcon :=
    steady_sfr_eq (advanceMachineCycle_steady hooks m) (by rw [sab]; rfl)
  exact congrArg (has · Pcon.idle) pcon

/-- Committing an entry wakes the CPU. -/
theorem acceptInterrupt_awake {source : IrqSource} (sab : m.cpu.variant = .sab80535)
    (priority : Nat) (returnPc : Word) (spBefore : Byte) (pending : Word) :
    (acceptInterrupt hooks source priority returnPc spBefore pending m).cpu.asleep = false := by
  have committed := @acceptInterrupt_stable ω hooks source priority returnPc spBefore pending m
  rw [Cpu.asleep, sfr_of_afterEntry committed sab rfl, Function.update_self, has_andNot_self]

/-- Handling interrupts puts no CPU to sleep. -/
theorem handleInterrupts_asleep (sab : m.cpu.variant = .sab80535)
    (after : (handleInterrupts hooks m).2.cpu.asleep = true) : m.cpu.asleep = true := by
  -- The refreshed view has the same PCON, and so has what a failed entry leaves.
  have synced := irqSync_stable hooks m
  have variant : (irqSync hooks m).cpu.variant = .sab80535 :=
    (congrArg Fixed.variant (Stable.fixed_eq synced)).trans sab
  have shown : (irqSync hooks m).cpu.asleep = true → m.cpu.asleep = true := by
    intro before
    rw [Cpu.asleep, ← Stable.sfr_eq_sab synced sab rfl]
    exact before
  have stack : ∀ {a b : Cpu}, SameButStack a b → b.asleep = a.asleep := by
    intro a b same
    rw [Cpu.asleep, same.sfr Reg.pcon (by decide)]
    rfl
  rw [handleInterrupts, if_pos sab] at after
  rcases handleSabInterrupts_cases hooks m with ⟨stays, -⟩ | ⟨source, -, -, -, -, entry⟩
  · rw [stays] at after
    exact shown after
  · rw [entry] at after
    rcases @enterInterrupt_cases ω hooks source (irqSync hooks m) with ⟨-, kept⟩ | entered
    · exact shown ((stack kept).symm.trans after)
    · rw [entered] at after
      have pushed := @entryPushed_sameButStack ω hooks (irqSync hooks m)
      have wakes := fun p r b q =>
        @acceptInterrupt_awake ω hooks _ source (pushed.variant.trans variant) p r b q
      exact absurd (after.symm.trans (wakes _ _ _ _)) (by decide)

/-- Nor does a tick that completes no instruction. -/
theorem tick_asleep (sab : m.cpu.variant = .sab80535) (uncounted : (tick hooks m).1 = false)
    (kept : (tick hooks m).2.aborted hooks = false)
    (after : (tick hooks m).2.cpu.asleep = true) : m.cpu.asleep = true := by
  obtain ⟨delay, fixed⟩ := handleInterrupts_fixed hooks m
  have variant : (handleInterrupts hooks m).2.cpu.variant = .sab80535 :=
    (congrArg Fixed.variant fixed).trans sab
  have handled := @handleInterrupts_asleep ω hooks m sab
  have shape := tick_cases hooks m
  generalize tick hooks m = answer at shape uncounted kept after
  -- Of the ways a tick may go, those that leave the idle bit set entered nothing.
  cases shape with
  | stopped _ => exact after
  | pending _ _ =>
    have same := @advanceMachineCycle_asleep ω hooks
      (m.mapCpu fun c => { c with tickDelay := c.tickDelay - 1 }) sab
    exact same.symm.trans after
  | failed _ _ | entered _ _ _ _ =>
    exact handled ((advanceMachineCycle_asleep variant).symm.trans after)
  | idle _ _ _ _ asleep => exact handled asleep
  | cut _ _ aborted | interrupted _ aborted =>
    exact absurd (aborted.symm.trans kept) (by decide)
  | unbegun _ _ aborted => exact absurd (Eq.trans (Eq.symm aborted) kept) (by decide)
  | completed _ _ => exact absurd uncounted Bool.noConfusion

/-- The CPU is awake where an opcode body starts. -/
theorem opcodeStart_awake (begins : m.Begins hooks) :
    (opcodeStart hooks m).cpu.asleep = false := by
  rw [opcodeStart, beginInstruction_cpu]
  exact begins.fetches.awake

/-- An instruction that puts the CPU to sleep holds nothing off. -/
theorem tick_sleeps (quiet : hooks.Quiet) (sticky : hooks.Sticky)
    (sab : m.cpu.variant = .sab80535) (bound : m.cpu.irqInhibit ≤ 1)
    (done : (tick hooks m).1 = true) (after : (tick hooks m).2.cpu.asleep = true) :
    (tick hooks m).2.cpu.irqInhibit = 0 := by
  obtain ⟨begins, -, ended⟩ := tick_completed done
  obtain ⟨hold, -, variant⟩ := @opcodeStart_hold ω hooks m sab
  have start : (opcodeStart hooks m).cpu.irqInhibit = m.cpu.irqInhibit := congrArg Prod.fst hold
  have awake := opcodeStart_awake begins
  have left := (tick_inhibit sticky quiet sab done).2
  -- What follows the body does not store PCON.
  have fell : ((m.body hooks).run hooks (opcodeStart hooks m)).2.cpu.asleep = true := by
    have last : (opcodeDone hooks m).cpu.variant = .sab80535 := by
      rw [opcodeDone, runInstruction_cpu]
      exact (congrArg Fixed.variant (Op.run_fixed quiet _ _)).trans variant
    have fetched : (handleInterrupts hooks m).2.cpu.opcode =
        (opcodeStart hooks m).cpu.opcode := by
      rw [opcodeStart, beginInstruction_cpu]
      rfl
    have counted := @advanceMachineCycle_asleep ω hooks
      (updateParity (countInstruction (opcodeDone hooks m))) last
    rw [ended] at after
    have still : ∀ k : Machine ω,
        (updateParity (countInstruction k)).cpu.asleep = k.cpu.asleep := fun _ => rfl
    have slept := (still (opcodeDone hooks m)).symm.trans (counted.symm.trans after)
    rw [opcodeDone, runInstruction_cpu, fetched] at slept
    exact slept
  -- A body that changes the hold-off leaves PCON alone, so it cannot be the one that slept.
  have awakened : ∀ {c : Cpu}, c.sfr Reg.pcon = (opcodeStart hooks m).cpu.sfr Reg.pcon →
      c.asleep = false := fun same => (congrArg (has · Pcon.idle) same).trans awake
  by_cases opcode : m.IsReti hooks
  · have body : m.body hooks = reti := by
      rw [Machine.body, opcode]
      rfl
    rw [body] at fell
    exact absurd (fell.symm.trans (awakened (reti_pcon _ variant))) (by decide)
  · rcases (opTable_gated opcode).idle quiet _ variant with same | ⟨-, pcon⟩
    · have kept : ((m.body hooks).run hooks (opcodeStart hooks m)).2.cpu.irqInhibit =
          (opcodeStart hooks m).cpu.irqInhibit := same
      omega
    · exact absurd (fell.symm.trans (awakened pcon)) (by decide)

/-! ### Runs that keep a sleeping CPU free to wake -/

/--
A host write of a control register finds the CPU awake, and one that puts it to sleep finds
nothing held off.
-/
def HostCall.LetsWake (c : Cpu) : HostCall → Prop
  | .sfrWrite address value =>
    (isControlAddress address = true → c.asleep = false) ∧
      (address = 0x87#8 → has value Pcon.idle = true → c.irqInhibit = 0)
  | _ => True

/-- The states supervised runs of such host calls lead to. -/
inductive Wakeable (hooks : Hooks ω) : Machine ω → Prop
  | reset {m : Machine ω} (fresh : m.IsReset) : Wakeable hooks m
  | tick {m : Machine ω} (before : Wakeable hooks m) : Wakeable hooks (tick hooks m).2
  | call {m : Machine ω} (call : HostCall) (before : Wakeable hooks m)
      (lets : call.LetsWake m.cpu) : Wakeable hooks (call.run hooks m).2
  | own {m : Machine ω} (update : ω → ω) (before : Wakeable hooks m)
      (kept : m.aborted hooks = true → hooks.aborted (update m.host) = true) :
      Wakeable hooks { m with host := update m.host }

/-- Such a run is a supervised one. -/
theorem Wakeable.supervised (run : Wakeable hooks m) : Supervised hooks m := by
  induction run with
  | reset fresh => exact .reset fresh
  | tick _ ih => exact .tick ih
  | call c _ _ ih => exact .call c ih
  | own update _ kept ih => exact .own update ih kept

/-- Such a host call leaves nothing held off in a CPU it leaves asleep. -/
theorem hostCall_sleeps (quiet : hooks.Quiet) (rest : m.cpu.AtRest) {call : HostCall}
    (lets : call.LetsWake m.cpu) (free : m.cpu.asleep = true → m.cpu.irqInhibit = 0)
    (after : (call.run hooks m).2.cpu.asleep = true) :
    (call.run hooks m).2.cpu.irqInhibit = 0 := by
  have slept : ∀ {c : Cpu}, c.sfr Reg.pcon = m.cpu.sfr Reg.pcon → c.asleep = m.cpu.asleep :=
    fun same => congrArg (has · Pcon.idle) same
  rcases @hostCall_hold ω hooks m rest call with
    ⟨same, pcon⟩ | ⟨wipe, rand, rfl⟩ | ⟨address, value, rfl, high⟩
  · exact (congrArg Prod.fst same).trans (free ((slept pcon).symm.trans after))
  · rfl
  · have above : 0x7F#8 < address := by bv_omega
    simp only [HostCall.run, if_neg high] at after ⊢
    cases control : isIrqControl (sfrIndex address) with
    | true =>
      -- The host found the CPU awake, and such a write does not put it to sleep.
      have other : Reg.pcon ≠ sfrIndex address := by
        intro same
        rw [← same] at control
        exact absurd control (by decide)
      have awake := lets.1 (by rw [isControlAddress, decide_eq_true above, control]; rfl)
      have same := slept (sfrWrite_sfr quiet value rest.sab other rfl)
      exact absurd (after.symm.trans (same.trans awake)) (by decide)
    | false =>
      have same : (sfrWrite hooks (sfrIndex address) value m).cpu.irqInhibit = m.cpu.irqInhibit :=
        congrArg Prod.fst (sfrWrite_hold quiet value rest.sab control)
      rw [same]
      by_cases here : sfrIndex address = Reg.pcon
      · -- A write of PCON that left the CPU asleep stored the bit.
        have register : address = 0x87#8 := by
          simp only [sfrIndex, Reg.pcon] at here
          bv_omega
        have plain : m.cpu.storedValue Reg.pcon value = value :=
          if_neg fun both => absurd both.2 (by decide)
        have stored : has value Pcon.idle = true := by
          rw [Cpu.asleep, sfrWrite_update quiet value rest.sab rfl, here, Function.update_self,
            plain] at after
          exact after
        exact lets.2 register stored
      · exact free ((slept (sfrWrite_sfr quiet value rest.sab (Ne.symm here) rfl)).symm.trans after)

/-- In such runs a sleeping CPU that is not aborted has nothing held off. -/
theorem Wakeable.free (quiet : hooks.Quiet) (sticky : hooks.Sticky) (run : Wakeable hooks m)
    (running : m.aborted hooks = false) (asleep : m.cpu.asleep = true) :
    m.cpu.irqInhibit = 0 := by
  -- By induction on the run: a sleeping CPU completes no instruction, so nothing is armed.
  induction run with
  | reset fresh =>
    obtain ⟨c, wipe, rand, image, entry, -, same⟩ := fresh
    rw [same]
    rfl
  | @tick k before ih =>
    have sab := (before.supervised.reachable.atRest quiet.passive).sab
    have earlier := (Steps.tick (.refl k)).unaborted sticky running
    cases done : (Emu80535.tick hooks k).1 with
    | false =>
      have same : (Emu80535.tick hooks k).2.cpu.irqInhibit = k.cpu.irqInhibit :=
        congrArg Prod.fst (tick_hold sab done running)
      exact same.trans (ih earlier (tick_asleep sab done running asleep))
    | true =>
      have bound := before.supervised.inhibit_le quiet sticky earlier
      exact tick_sleeps quiet sticky sab bound done asleep
  | @call k c before lets ih =>
    have rest := before.supervised.reachable.atRest quiet.passive
    have earlier := (Steps.hostCall (.refl k) c).unaborted sticky running
    exact hostCall_sleeps quiet rest lets (ih earlier) asleep
  | @own k update before kept ih =>
    refine ih ?_ asleep
    cases aborted : k.aborted hooks with
    | false => rfl
    | true => exact absurd ((kept aborted).symm.trans running) (by decide)

/--
In every run in which the host writes no control register while the CPU sleeps, and does not put
it to sleep inside a hold-off, a sleeping CPU with an eligible source enters an interrupt with the
next tick and is awake after it.
-/
theorem idle_wakes (quiet : hooks.Quiet) (sticky : hooks.Sticky) (run : Wakeable hooks m)
    (ready : m.Ready hooks) (asleep : m.cpu.asleep = true) (room : m.cpu.hasRoom = true)
    (admits : m.Admits hooks) (enabled : has (m.cpu.sfr Reg.ien0) Ie.ea = true)
    (eligible : ∃ source, (maintainLevelRequests hooks m).cpu.Eligible source) :
    (∃ source, m.Enters hooks source) ∧ (tick hooks m).2.cpu.asleep = false := by
  -- Nothing is held off, so arbitration is free.
  have free := run.free quiet sticky ready.unaborted asleep
  obtain ⟨source, -, enters, effect⟩ := enters_of_eligible quiet.passive
    run.supervised.reachable ready room admits enabled free eligible
  refine ⟨⟨source, enters⟩, ?_⟩
  rw [Cpu.asleep, effect.pcon, has_andNot_self]

/-- Firmware whose first instruction, MOV PCON,#1, enters IDLE. -/
def sleepingFirmware (address : Word) : Byte :=
  if address = 0#16 then 0x75#8 else if address = 1#16 then 0x87#8
  else if address = 2#16 then 0x01#8 else 0#8

/-- A CPU whose interrupts were enabled before it went to sleep. -/
def enabledSleeper : Machine Unit :=
  runActions Hooks.none
    [.call (.sfrWrite 0xA8#8 0x81#8), .tick, .tick, .call (.setPending 0 true)]
    (Machine.boot sleepingFirmware)

/-- It wakes on the request of INT0. -/
theorem idle_wakes_enabledSleeper : (tick Hooks.none enabledSleeper).2.cpu.asleep = false := by
  have run : Wakeable Hooks.none enabledSleeper :=
    .call (.setPending 0 true) (.tick (.tick (.call (.sfrWrite 0xA8#8 0x81#8)
      (.reset (Machine.boot_isReset sleepingFirmware)) ⟨fun _ => by decide, by decide⟩))) trivial
  have empty : (maintainLevelRequests Hooks.none enabledSleeper).cpu.service.current = none := by
    decide
  refine (idle_wakes Hooks.none_quiet Hooks.none_sticky run ⟨rfl, by decide, by decide⟩
    (by decide) (by decide) (fun watched => absurd watched (by decide)) (by decide)
    ⟨.int0, ⟨by decide, by decide, by decide, fun p top => ?_⟩⟩).2
  exact absurd (empty.symm.trans top) nofun

/-- A CPU whose interrupts the host enables only once it is asleep. -/
def lateSleeper : Machine Unit :=
  runActions Hooks.none
    [.tick, .tick, .call (.sfrWrite 0xA8#8 0x81#8), .call (.setPending 0 true)]
    (Machine.boot sleepingFirmware)

/-- It sleeps on, although the request of INT0 is eligible. -/
theorem lateSleeper_sleeps :
    Supervised Hooks.none lateSleeper ∧ lateSleeper.Ready Hooks.none ∧
      lateSleeper.cpu.asleep = true ∧ lateSleeper.cpu.hasRoom = true ∧
      lateSleeper.Admits Hooks.none ∧ has (lateSleeper.cpu.sfr Reg.ien0) Ie.ea = true ∧
      (maintainLevelRequests Hooks.none lateSleeper).cpu.Eligible .int0 ∧
      (∀ source, ¬lateSleeper.Enters Hooks.none source) ∧
      (tick Hooks.none lateSleeper).2.cpu.asleep = true := by
  have run : Supervised Hooks.none lateSleeper :=
    .call (.setPending 0 true) (.call (.sfrWrite 0xA8#8 0x81#8)
      (.tick (.tick (.reset (Machine.boot_isReset sleepingFirmware)))))
  have empty : (maintainLevelRequests Hooks.none lateSleeper).cpu.service.current = none := by
    decide +kernel
  refine ⟨run, ⟨rfl, by decide, by decide⟩, by decide, by decide,
    fun watched => absurd watched (by decide), by decide,
    ⟨by decide, by decide, by decide, fun p top => absurd (empty.symm.trans top) nofun⟩,
    fun source entered => ?_, by decide⟩
  have depth := entered.depth
  exact absurd depth (by decide)

end Emu80535
