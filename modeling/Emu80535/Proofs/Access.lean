import Emu80535.Proofs.Moves

/-! What an embedder's callbacks are assumed to do, and what a register write then does. -/

namespace Emu80535

variable {ω : Type} {hooks : Hooks ω}

open Machine

/-! ### What an embedder's callbacks may do -/

/-- An abort, once asserted, is not withdrawn by the callbacks of the operation it interrupts. -/
structure Hooks.Sticky (hooks : Hooks ω) : Prop where
  except : ∀ c code h, hooks.aborted h = true → hooks.aborted (hooks.except c code h) = true
  sfrread : ∀ index callback, hooks.sfrread index = some callback → ∀ c h,
    hooks.aborted h = true → hooks.aborted (callback c h).2 = true
  sfrwrite : ∀ index callback, hooks.sfrwrite index = some callback → ∀ m : Machine ω,
    hooks.aborted m.host = true → hooks.aborted (callback m).host = true
  xread : ∀ callback, hooks.xread = some callback → ∀ c address h,
    hooks.aborted h = true → hooks.aborted (callback c address h).2 = true
  xwrite : ∀ callback, hooks.xwrite = some callback → ∀ c address value h,
    hooks.aborted h = true → hooks.aborted (callback c address value h) = true
  emit : ∀ record h, hooks.aborted h = true → hooks.aborted (hooks.emit record h) = true
  fact : ∀ c fact h, hooks.aborted h = true → hooks.aborted (hooks.fact c fact h).2 = true

/-- What `sab_irq_arm_inhibit` stores. -/
def Cpu.armValue (c : Cpu) : Nat := if c.inInstruction then 2 else 1

/-- What only ticks, resets and returns from interrupt change. -/
structure Held where
  variant : Variant
  inInstruction : Bool
  service : IrqService

/-- The held part of a CPU object. -/
def Cpu.held (c : Cpu) : Held where
  variant := c.variant
  inInstruction := c.inInstruction
  service := c.service

/--
A register write callback may write registers and make host calls, but neither ticks nor resets
the CPU.
-/
structure Hooks.Passive (hooks : Hooks ω) : Prop where
  held : ∀ index callback, hooks.sfrwrite index = some callback → ∀ m : Machine ω,
    (callback m).cpu.held = m.cpu.held
  irqInhibit : ∀ index callback, hooks.sfrwrite index = some callback → ∀ m : Machine ω,
    (callback m).cpu.irqInhibit = m.cpu.irqInhibit ∨
      (callback m).cpu.irqInhibit = m.cpu.armValue

/--
A register write callback that makes no host call.

The two programs of the repository that install one record the write, or collect serial output.
-/
def Hooks.Quiet (hooks : Hooks ω) : Prop :=
  ∀ index callback, hooks.sfrwrite index = some callback →
    ∀ m : Machine ω, ∃ uart classic,
      (callback m).cpu = { m.cpu with uart := uart, classic := classic }

/-- Making no host call is a special case. -/
theorem Hooks.Quiet.passive (quiet : hooks.Quiet) : hooks.Passive where
  held := by
    intro index callback installed m
    obtain ⟨uart, classic, same⟩ := quiet index callback installed m
    rw [same]
    rfl
  irqInhibit := by
    intro index callback installed m
    obtain ⟨uart, classic, same⟩ := quiet index callback installed m
    left
    rw [same]

/-- With no callback installed there is none to misbehave. -/
theorem Hooks.none_quiet : Hooks.none.Quiet :=
  fun _ _ installed => absurd installed (by simp [Hooks.none])

/-- A machine without callbacks is passive. -/
theorem Hooks.none_passive : Hooks.none.Passive := Hooks.none_quiet.passive

/-- And none of its callbacks withdraws an abort. -/
theorem Hooks.none_sticky : Hooks.none.Sticky where
  except := fun _ _ _ aborted => aborted
  sfrread := fun _ _ installed => absurd installed (by simp [Hooks.none])
  sfrwrite := fun _ _ installed => absurd installed (by simp [Hooks.none])
  xread := fun _ installed => absurd installed (by simp [Hooks.none])
  xwrite := fun _ installed => absurd installed (by simp [Hooks.none])
  emit := fun _ _ aborted => aborted
  fact := fun _ _ _ aborted => aborted

/-- A quiet callback is invisible in the stable part. -/
theorem sfrCallback_stable (quiet : hooks.Quiet) (index : SfrIndex) (m : Machine ω) :
    (m.sfrCallback hooks index).cpu.stable = m.cpu.stable := by
  simp only [Machine.sfrCallback]
  split
  · rename_i callback installed
    obtain ⟨uart, classic, same⟩ := quiet index callback installed m
    rw [same]
    rfl
  · rfl

/-! ### What a register write leaves alone -/

/-- Equal stable parts have equal held parts. -/
theorem Stable.held_eq {a b : Cpu} (same : a.stable = b.stable) : a.held = b.held := by
  have variant : a.variant = b.variant := congrArg Fixed.variant (Stable.fixed_eq same)
  have inside : a.inInstruction = b.inInstruction :=
    congrArg Fixed.inInstruction (Stable.fixed_eq same)
  have service : a.service = b.service := congrArg Stable.service same
  simp only [Cpu.held, variant, inside, service]

/-- A register write callback leaves what is held alone. -/
theorem sfrCallback_held (passive : hooks.Passive) (index : SfrIndex) (m : Machine ω) :
    (m.sfrCallback hooks index).cpu.held = m.cpu.held := by
  simp only [Machine.sfrCallback]
  split
  · rename_i callback installed
    exact passive.held index callback installed m
  · rfl

/-! ### Register writes -/

/-- The stable part after a register write whose value is `stored`, before any hold-off. -/
def Cpu.afterWrite (c : Cpu) (index : SfrIndex) (value : Byte) : Stable :=
  c.stable.write index (c.storedValue index value)

/-- Sampling the pins of a written latch leaves the stable part alone. -/
@[simp] theorem sampleWritten_stable (index : SfrIndex) (m : Machine ω) :
    (sampleWritten hooks index m).cpu.stable = m.cpu.stable := by
  simp only [sampleWritten]
  split <;> simp

/-- Only a write of an interrupt control register arms the hold-off. -/
theorem holdOff_stable (index : SfrIndex) (m : Machine ω) :
    (holdOff index m).cpu.stable =
      { m.cpu.stable with
        irqInhibit :=
          if m.cpu.variant = .sab80535 ∧ isIrqControl index = true then m.cpu.armValue
          else m.cpu.irqInhibit } := by
  simp only [holdOff]
  split <;> rfl

/-- The hold-off value is a function of the fixed part. -/
theorem armValue_eq {a b : Cpu} (same : a.fixed = b.fixed) : a.armValue = b.armValue := by
  have inside : a.inInstruction = b.inInstruction := congrArg Fixed.inInstruction same
  simp only [Cpu.armValue, inside]

/-- The tail of a register write only arms the hold-off. -/
theorem sfrWriteTail_stable (index : SfrIndex) (value : Byte) (m : Machine ω) :
    (sfrWriteTail hooks index value m).cpu.stable =
      { m.cpu.stable with
        irqInhibit :=
          if m.cpu.variant = .sab80535 ∧ isIrqControl index = true then m.cpu.armValue
          else m.cpu.irqInhibit } := by
  -- Sampling leaves the stable part alone, and after it the hold-off may be armed.
  have same := @sampleWritten_stable ω hooks index m
  have variant : (sampleWritten hooks index m).cpu.variant = m.cpu.variant :=
    congrArg Fixed.variant (Stable.fixed_eq same)
  have inhibit : (sampleWritten hooks index m).cpu.irqInhibit = m.cpu.irqInhibit :=
    congrArg Stable.irqInhibit same
  simp only [sfrWriteTail, adcFinishSfrTransaction_stable, holdOff_stable, traceEmit_cpu, same,
    variant, inhibit, armValue_eq (Stable.fixed_eq same)]

/-- The body of a register write stores the register, as far as it shows. -/
theorem sfrWriteBody_stable (quiet : hooks.Quiet) (index : SfrIndex) (value : Byte)
    (m : Machine ω) :
    (sfrWriteBody hooks index value m).cpu.stable = m.cpu.stable.write index value := by
  simp only [sfrWriteBody]
  rw [sfrCallback_stable quiet]
  split
  · rw [adcRequestStart_stable, irqWrite_cpu, setSfr_stable_eq]
  · rw [irqWrite_cpu, setSfr_stable_eq]

/-- Writing the serial buffer shows nothing in the stable part. -/
theorem sbufWrite_stable (quiet : hooks.Quiet) (value : Byte) (m : Machine ω) :
    (sbufWrite hooks value m).cpu.stable = m.cpu.stable := by
  simp only [sbufWrite]
  -- A port of another variant, a write that aborts, and one that goes through.
  split
  · simp
  · split
    · rw [raw_cpu, sfrCallback_stable quiet, setSfr_stable _ _ (by rfl), uartSbufWrite_stable,
        raw_cpu]
    · rw [raw_cpu, adcFinishSfrTransaction_stable, traceEmit_cpu, setSfr_stable _ _ (by rfl),
        sfrCallback_stable quiet, setSfr_stable _ _ (by rfl), uartSbufWrite_stable, raw_cpu]

/-- Storing the Siemens serial buffer does not show in the stable part. -/
theorem afterWrite_sbuf (c : Cpu) (value : Byte) : c.afterWrite Reg.sbuf value = c.stable := by
  have m : Machine Unit := { cpu := c, host := () }
  have shown := setSfr_stable_eq ({ cpu := c, host := () } : Machine Unit) Reg.sbuf
    (c.storedValue Reg.sbuf value)
  rw [setSfr_stable ({ cpu := c, host := () } : Machine Unit) _ rfl] at shown
  exact shown.symm

/--
A register write stores its value, may arm the hold-off, and does nothing else to the stable part.
-/
theorem sfrWrite_stable (quiet : hooks.Quiet) (index : SfrIndex) (value : Byte)
    (m : Machine ω) :
    (sfrWrite hooks index value m).cpu.stable = m.cpu.afterWrite index value ∨
      (m.cpu.variant = .sab80535 ∧ isIrqControl index = true ∧
        (sfrWrite hooks index value m).cpu.stable =
          { m.cpu.afterWrite index value with irqInhibit := m.cpu.armValue }) := by
  have entered : (sfrWriteEnter m).cpu.stable = m.cpu.stable := sfrWriteEnter_stable m
  simp only [sfrWrite]
  split
  · -- The serial buffer is volatile, so its store is invisible.
    rename_i serial
    left
    rw [sbufWrite_stable quiet, entered, serial.2, afterWrite_sbuf]
  · have body := sfrWriteBody_stable quiet index (m.cpu.storedValue index value)
      (sfrWriteEnter m)
    rw [entered] at body
    split
    · exact Or.inl body
    · generalize sfrWriteBody hooks index _ _ = n at body ⊢
      have fixed : n.cpu.fixed = m.cpu.fixed := congrArg Stable.fixed body
      have variant : n.cpu.variant = m.cpu.variant := congrArg Fixed.variant fixed
      have inhibit : n.cpu.irqInhibit = m.cpu.irqInhibit := congrArg Stable.irqInhibit body
      rw [sfrWriteTail_stable, body, variant, inhibit, armValue_eq fixed]
      by_cases control : m.cpu.variant = .sab80535 ∧ isIrqControl index = true
      · rw [if_pos control]
        exact Or.inr ⟨control.1, control.2, rfl⟩
      · rw [if_neg control]
        exact Or.inl rfl

/-- Of the registers no peripheral writes, a register write stores its own. -/
theorem sfrWrite_update (quiet : hooks.Quiet) {m : Machine ω} {index i : SfrIndex} (value : Byte)
    (sab : m.cpu.variant = .sab80535) (still : isVolatile .sab80535 i = false) :
    (sfrWrite hooks index value m).cpu.sfr i =
      Function.update m.cpu.sfr index (m.cpu.storedValue index value) i := by
  -- Whether or not the hold-off is armed, the quiet registers are those of the store.
  have parts : (sfrWrite hooks index value m).cpu.variant = m.cpu.variant ∧
      (sfrWrite hooks index value m).cpu.stable.sfr = (m.cpu.afterWrite index value).sfr := by
    rcases sfrWrite_stable quiet index value m with same | ⟨-, -, same⟩
    · exact ⟨congrArg (fun s : Stable => s.fixed.variant) same, congrArg Stable.sfr same⟩
    · exact ⟨congrArg (fun s : Stable => s.fixed.variant) same,
        (congrArg Stable.sfr same).trans rfl⟩
  have entry := congrFun parts.2 i
  by_cases own : i = index
  · subst own
    simpa [Cpu.afterWrite, Stable.write, Cpu.stable, Cpu.fixed, parts.1, sab, still] using entry
  · simpa [Cpu.afterWrite, Stable.write, Cpu.stable, Cpu.fixed, parts.1, sab, still,
      Function.update_of_ne own] using entry

/-- And leaves the others alone. -/
theorem sfrWrite_sfr (quiet : hooks.Quiet) {m : Machine ω} {index i : SfrIndex} (value : Byte)
    (sab : m.cpu.variant = .sab80535) (apart : i ≠ index)
    (still : isVolatile .sab80535 i = false) :
    (sfrWrite hooks index value m).cpu.sfr i = m.cpu.sfr i := by
  rw [sfrWrite_update quiet value sab still, Function.update_of_ne apart]

/-- Whatever its callback does, a register write leaves the held part alone. -/
theorem sfrWrite_held (passive : hooks.Passive) (index : SfrIndex) (value : Byte)
    (m : Machine ω) : (sfrWrite hooks index value m).cpu.held = m.cpu.held := by
  -- The serial buffer is written on a path of its own.
  have stored : ∀ (n : Machine ω) i v, (n.setSfr i v).cpu.held = n.cpu.held := fun _ _ _ => rfl
  have entered : (sfrWriteEnter m).cpu.held = m.cpu.held :=
    Stable.held_eq (sfrWriteEnter_stable m)
  simp only [sfrWrite]
  split
  · simp only [sbufWrite]
    split
    · rw [raw_cpu, entered]
    · split
      · rw [raw_cpu, sfrCallback_held passive, stored, Stable.held_eq (uartSbufWrite_stable _ _ _),
          raw_cpu, entered]
      · rw [raw_cpu, Stable.held_eq (adcFinishSfrTransaction_stable _), traceEmit_cpu, stored,
          sfrCallback_held passive, stored, Stable.held_eq (uartSbufWrite_stable _ _ _), raw_cpu,
          entered]
  · have body : ∀ v, (sfrWriteBody hooks index v (sfrWriteEnter m)).cpu.held = m.cpu.held := by
      intro v
      simp only [sfrWriteBody]
      rw [sfrCallback_held passive]
      split
      · rw [Stable.held_eq (adcRequestStart_stable _), irqWrite_cpu, stored, entered]
      · rw [irqWrite_cpu, stored, entered]
    split
    · exact body _
    · rw [← body (m.cpu.storedValue index value)]
      generalize sfrWriteBody hooks index _ _ = n
      have tail := @sfrWriteTail_stable ω hooks index (m.cpu.storedValue index value) n
      have service := congrArg Stable.service tail
      have fixed := congrArg Stable.fixed tail
      exact congrArg₂ (fun (f : Fixed) v => Held.mk f.variant f.inInstruction v) fixed service

/-! ### Writes that are not aborted -/

/-- The machine a register write leaves before anything is sampled. -/
def written (hooks : Hooks ω) (index : SfrIndex) (value : Byte) (m : Machine ω) : Machine ω :=
  sfrWriteBody hooks index (m.cpu.storedValue index value) (sfrWriteEnter m)

/-- Outside the serial buffer, a write that is not aborted goes on to sample. -/
theorem sfrWrite_unaborted {m : Machine ω} {index : SfrIndex} (other : index ≠ Reg.sbuf) (value : Byte)
    (kept : (sfrWrite hooks index value m).aborted hooks = false) :
    sfrWrite hooks index value m =
      sfrWriteTail hooks index (m.cpu.storedValue index value) (written hooks index value m) := by
  -- The tail is all that an abort leaves out.
  have shape : sfrWrite hooks index value m =
      if (written hooks index value m).aborted hooks then written hooks index value m
      else sfrWriteTail hooks index (m.cpu.storedValue index value)
        (written hooks index value m) :=
    if_neg fun serial => other serial.2
  rw [shape] at kept ⊢
  split at kept
  · rename_i aborted
    exact absurd (aborted.symm.trans kept) (by decide)
  · rename_i running
    rw [if_neg running]

/-- A write of a control register that is not aborted arms the hold-off. -/
theorem sfrWrite_armed (quiet : hooks.Quiet) {index : SfrIndex} (value : Byte) (m : Machine ω)
    (sab : m.cpu.variant = .sab80535) (control : isIrqControl index = true)
    (kept : (sfrWrite hooks index value m).aborted hooks = false) :
    (sfrWrite hooks index value m).cpu.irqInhibit = m.cpu.armValue := by
  -- A control register is not the serial buffer, so the ordinary path is taken.
  have other : index ≠ Reg.sbuf := by
    rintro rfl
    exact absurd control (by decide)
  have body : (written hooks index value m).cpu.stable =
      m.cpu.stable.write index (m.cpu.storedValue index value) := by
    rw [written, sfrWriteBody_stable quiet, sfrWriteEnter_stable]
  have fixed : (written hooks index value m).cpu.fixed = m.cpu.fixed := congrArg Stable.fixed body
  have variant := (congrArg Fixed.variant fixed).trans sab
  have tail := @sfrWriteTail_stable ω hooks index (m.cpu.storedValue index value)
    (written hooks index value m)
  rw [sfrWrite_unaborted other value kept]
  refine (congrArg Stable.irqInhibit tail).trans ?_
  rw [if_pos ⟨variant, control⟩, armValue_eq fixed]

end Emu80535
