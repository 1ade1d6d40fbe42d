import Emu80535.Proofs.Clock

/-! What is connected to the external inputs, and what an event of the schedule does to it. -/

namespace Emu80535

variable {ω : Type} {hooks : Hooks ω} {m : Machine ω}

open Machine

/-- The level the pin of an input is driven to from outside, where anything drives it. -/
def Cpu.drivenLevel (c : Cpu) (source : ExternalSource) : Option Bool :=
  if has (c.pins.mask source.port) source.pinMask then
    some (has (c.pins.levels source.port) source.pinMask)
  else none

/-- What an event does to the inputs: it drives one of them, or lets it go. -/
def ScheduleEvent.rewire (event : ScheduleEvent) (drive : ExternalSource → Option Bool) :
    ExternalSource → Option Bool :=
  match ExternalSource.ofNat? event.source with
  | none => drive
  | some s => Function.update drive s (if event.action = 0 then some event.level else none)

/-- The drive of the pins is fixed for everything but the calls that change it. -/
theorem drivenLevel_of_fixed {a b : Cpu} (same : a.fixed = b.fixed) :
    a.drivenLevel = b.drivenLevel := by
  have mask : a.pins.mask = b.pins.mask := congrArg Fixed.mask same
  have levels : a.pins.levels = b.pins.levels := congrArg Fixed.levels same
  funext source
  simp only [Cpu.drivenLevel, mask, levels]

/-! ### Driving and releasing one pin -/

/-- Every input has a pin. -/
theorem pinMask_ne_zero (source : ExternalSource) : source.pinMask ≠ 0#8 := by
  cases source <;> decide

/-- Two inputs of one port have different pins. -/
theorem pinMask_disjoint {s t : ExternalSource} (port : s.port = t.port) (other : s ≠ t) :
    s.pinMask &&& t.pinMask = 0#8 := by
  revert port other
  cases s <;> cases t <;> decide

/-- The Siemens CPU resolves the port of every input. -/
theorem portIndex_of_source (sab : m.cpu.variant = .sab80535) (source : ExternalSource) :
    m.cpu.portIndex source.port.reg = some source.port := by
  rw [Cpu.portIndex, if_pos sab]
  cases source <;> rfl

/-- Replacing the drive of one pin of a port rewires the input there and no other. -/
theorem redrive_drivenLevel {mask levels : Byte} (source : ExternalSource)
    (others : ∀ pin : Byte, source.pinMask &&& pin = 0#8 →
      has mask pin = has (m.cpu.pins.mask source.port) pin ∧
        has levels pin = has (m.cpu.pins.levels source.port) pin) :
    (redrive hooks source.port mask levels m).cpu.drivenLevel =
      Function.update m.cpu.drivenLevel source
        (if has mask source.pinMask then some (has levels source.pinMask) else none) := by
  have same := drivenLevel_of_fixed (Stable.fixed_eq (samplePort_stable hooks (m.mapCpu fun c =>
    { c with pins := { c.pins with
        mask := Function.update c.pins.mask source.port mask
        levels := Function.update c.pins.levels source.port levels } }) source.port))
  refine Eq.trans same (funext fun t => ?_)
  by_cases here : t = source
  · subst here
    simp only [Cpu.drivenLevel, mapCpu_cpu, Function.update_self]
  · rw [Function.update_of_ne here]
    by_cases port : t.port = source.port
    · -- Another pin of the same port keeps its bits.
      obtain ⟨driven, high⟩ := others t.pinMask (pinMask_disjoint port.symm (Ne.symm here))
      simp only [Cpu.drivenLevel, mapCpu_cpu, port, Function.update_self, driven, high]
    · simp only [Cpu.drivenLevel, mapCpu_cpu, Function.update_of_ne port]

/-- `em8051_sab_external_drive` connects its input to a level. -/
theorem externalDrive_drivenLevel (sab : m.cpu.variant = .sab80535) {number : Nat}
    {source : ExternalSource} (found : ExternalSource.ofNat? number = some source)
    (level : Bool) :
    (externalDrive hooks number level m).2.cpu.drivenLevel =
      Function.update m.cpu.drivenLevel source (some level) := by
  have present := pinMask_ne_zero source
  simp only [externalDrive, found, portDrive, portIndex_of_source sab]
  rw [redrive_drivenLevel source fun pin apart => ?_]
  · -- The driven mask gains the pin, and the level of the pin is the one given.
    rw [has_or_self present, if_pos rfl, has_or, has_andNot_self, Bool.false_or]
    cases level with
    | true =>
      rw [if_pos rfl, BitVec.and_self, has_eq_true_iff.mpr (by rwa [BitVec.and_self])]
    | false => rw [if_neg Bool.false_ne_true, BitVec.zero_and, has_eq_false_iff.mpr (by simp)]
  · refine ⟨has_or_of_disjoint apart, ?_⟩
    have none : has ((if level = true then source.pinMask else 0#8) &&& source.pinMask) pin =
        false := by
      rw [has_eq_false_iff, BitVec.and_assoc, apart, BitVec.and_zero]
    rw [has_or, none, Bool.or_false, has_andNot_of_disjoint apart]

/-- `em8051_sab_external_release` disconnects it. -/
theorem externalRelease_drivenLevel (sab : m.cpu.variant = .sab80535) {number : Nat}
    {source : ExternalSource} (found : ExternalSource.ofNat? number = some source) :
    (externalRelease hooks number m).2.cpu.drivenLevel =
      Function.update m.cpu.drivenLevel source none := by
  simp only [externalRelease, found, portRelease, portIndex_of_source sab]
  rw [redrive_drivenLevel source fun pin apart =>
    ⟨has_andNot_of_disjoint apart, has_andNot_of_disjoint apart⟩]
  rw [has_andNot_self, if_neg Bool.false_ne_true]

/-- Applying an event does to the inputs what the event says. -/
theorem applyEvent_drivenLevel (sab : m.cpu.variant = .sab80535) (event : ScheduleEvent) :
    (applyEvent hooks event m).2.cpu.drivenLevel = event.rewire m.cpu.drivenLevel := by
  cases found : ExternalSource.ofNat? event.source with
  | none =>
    -- A number without an input is refused, which a scheduled event never is.
    simp only [applyEvent, externalDrive, externalRelease, found, ScheduleEvent.rewire, ite_self]
  | some source =>
    simp only [applyEvent, ScheduleEvent.rewire, found]
    by_cases drives : event.action = 0
    · rw [if_pos drives, if_pos drives, externalDrive_drivenLevel sab found]
    · rw [if_neg drives, if_neg drives, externalRelease_drivenLevel sab found]

end Emu80535
