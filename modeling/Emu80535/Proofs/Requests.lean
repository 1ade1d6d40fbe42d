import Emu80535.Proofs.Pins

/-! The requests external inputs make, over runs of the operations that move pins. -/

namespace Emu80535

variable {ω : Type} {hooks : Hooks ω}

open Machine

/-! ### Operations on pins -/

/-- The operations that can move a pin, with the caller's raw arguments. -/
inductive PinOp where
  | write (port : SabPort) (value : Byte)
  | drive (index : SfrIndex) (mask levels : Byte)
  | release (index : SfrIndex) (mask : Byte)
  | externalDrive (source : Nat) (level : Bool)
  | externalRelease (source : Nat)
  /-- An event of the schedule, applied at once or when it falls due. -/
  | event (event : ScheduleEvent)

/-- The machine after one of them. -/
def PinOp.run (hooks : Hooks ω) : PinOp → Machine ω → Machine ω
  | write port value, m => sfrWrite hooks port.reg value m
  | drive index mask levels, m => (portDrive hooks index mask levels m).2
  | release index mask, m => (portRelease hooks index mask m).2
  | externalDrive source level, m => (Emu80535.externalDrive hooks source level m).2
  | externalRelease source, m => (Emu80535.externalRelease hooks source m).2
  | event e, m => (applyEvent hooks e m).2

/-- Two machines that differ, as far as the sampler can tell, in the pins of one port. -/
structure PortMoved (port : SabPort) (m n : Machine ω) : Prop where
  variant : n.cpu.variant = m.cpu.variant
  sampled : n.cpu.pins.sampledLevels = m.cpu.pins.sampledLevels
  asserted : n.cpu.pins.levelAsserted = m.cpu.pins.levelAsserted
  sfr : ∀ i, (∀ p : SabPort, p.reg ≠ i) → n.cpu.sfr i = m.cpu.sfr i
  others : ∀ source : ExternalSource, source.port ≠ port →
    n.cpu.pinLevel source = m.cpu.pinLevel source

/-- Two machines that look the same to the sampler. -/
structure SameView (m n : Machine ω) : Prop where
  pins : n.cpu.pins = m.cpu.pins
  sfr : ∀ i, i ≠ Reg.adcon → n.cpu.sfr i = m.cpu.sfr i

namespace SameView

variable {m n : Machine ω} (same : SameView m n)

include same

/-- The levels of the pins are the same. -/
theorem pinLevel (source : ExternalSource) : n.cpu.pinLevel source = m.cpu.pinLevel source := by
  simp only [Cpu.pinLevel, Cpu.getPins, same.pins,
    same.sfr source.port.reg (by cases source <;> decide)]

/-- So are the flags. -/
theorem flag (f : RequestFlag) : n.cpu.flag f = m.cpu.flag f := by
  simp only [Cpu.flag, same.sfr f.reg (by cases f <;> decide)]

/-- So is the mode of an input. -/
theorem levelMode (source : ExternalSource) :
    n.cpu.levelMode source = m.cpu.levelMode source := by
  simp only [Cpu.levelMode, same.sfr Reg.tcon (by decide)]

/-- So is what qualifies. -/
theorem qualifies (source : ExternalSource) (old new : Bool) :
    n.cpu.qualifies source old new = m.cpu.qualifies source old new := by
  simp only [Cpu.qualifies, same.sfr Reg.t2con (by decide)]

end SameView

/-- Every operation on pins does nothing, or moves the pins of one port and samples it. -/
inductive PinOp.Does (hooks : Hooks ω) (m : Machine ω) : Machine ω → Prop
  | nothing : PinOp.Does hooks m m
  | moves {port : SabPort} {moved n : Machine ω} (step : PortMoved port m moved)
      (view : SameView (samplePort hooks port moved) n) : PinOp.Does hooks m n

section Operations

variable {m : Machine ω} {port : SabPort} {source : ExternalSource}

/-- Driving a port moves its pins and samples them. -/
theorem redrive_does (port : SabPort) (mask levels : Byte) :
    PinOp.Does hooks m (redrive hooks port mask levels m) := by
  have moved : PortMoved port m (m.mapCpu fun c =>
      { c with pins := { c.pins with
          mask := Function.update c.pins.mask port mask
          levels := Function.update c.pins.levels port levels } }) := by
    refine ⟨rfl, rfl, rfl, fun _ _ => rfl, fun source elsewhere => ?_⟩
    simp only [Cpu.pinLevel, Cpu.getPins, mapCpu_cpu, Function.update_of_ne elsewhere]
  exact .moves moved ⟨rfl, fun _ _ => rfl⟩

/-- So does the call that drives one. -/
theorem portDrive_does (index : SfrIndex) (mask levels : Byte) :
    PinOp.Does hooks m (portDrive hooks index mask levels m).2 := by
  simp only [portDrive]
  split
  · exact .nothing
  · exact redrive_does _ _ _

/-- So does the one that releases it. -/
theorem portRelease_does (index : SfrIndex) (mask : Byte) :
    PinOp.Does hooks m (portRelease hooks index mask m).2 := by
  simp only [portRelease]
  split
  · exact .nothing
  · exact redrive_does _ _ _

/-- So does driving a line. -/
theorem externalDrive_does (source : Nat) (level : Bool) :
    PinOp.Does hooks m (externalDrive hooks source level m).2 := by
  simp only [externalDrive]
  split
  · exact .nothing
  · exact portDrive_does _ _ _

/-- So does releasing one. -/
theorem externalRelease_does (source : Nat) :
    PinOp.Does hooks m (externalRelease hooks source m).2 := by
  simp only [externalRelease]
  split
  · exact .nothing
  · exact portRelease_does _ _

/-- Writing a latch that is not aborted moves the pins of its port and samples it. -/
theorem sfrWrite_does (quiet : hooks.Quiet) (sab : m.cpu.variant = .sab80535) (port : SabPort)
    (value : Byte) (kept : (sfrWrite hooks port.reg value m).aborted hooks = false) :
    PinOp.Does hooks m (sfrWrite hooks port.reg value m) := by
  have other : port.reg ≠ Reg.sbuf := by cases port <;> decide
  -- Up to the sampling the write has only stored the latch.
  have aside := written_aside quiet port.reg value m
  rw [sfrWrite_unaborted other value kept]
  -- The pins that moved are those of the port.
  have moved : PortMoved port m (written hooks port.reg value m) := by
    refine ⟨aside.variant, congrArg PinState.sampledLevels aside.pins,
      congrArg PinState.levelAsserted aside.pins, fun i apart => ?_, fun source elsewhere => ?_⟩
    · rw [aside.sfr]
      exact Function.update_of_ne (Ne.symm (apart port)) _ _
    · rw [aside.pinLevel, store_latch_pinLevel _ _ elsewhere]
  obtain ⟨pins, sfr⟩ := @sfrWriteTail_view ω hooks port.reg (m.cpu.storedValue port.reg value)
    (written hooks port.reg value m)
  -- The register is the latch of the port, so this is the port that is sampled.
  have here : sampleWritten hooks port.reg (written hooks port.reg value m) =
      samplePort hooks port (written hooks port.reg value m) := by
    have found : (written hooks port.reg value m).cpu.portIndex port.reg = some port := by
      rw [Cpu.portIndex, if_pos (moved.variant.trans sab)]
      cases port <;> rfl
    simp only [sampleWritten, found]
  rw [here] at pins sfr
  exact .moves moved ⟨pins, sfr⟩

/-- What an operation on pins does. -/
theorem PinOp.run_does (quiet : hooks.Quiet) (sab : m.cpu.variant = .sab80535) (op : PinOp)
    (kept : (op.run hooks m).aborted hooks = false) : PinOp.Does hooks m (op.run hooks m) := by
  -- A write, the two calls for a port, the two for a line, and an event.
  cases op with
  | write port value => exact sfrWrite_does quiet sab port value kept
  | drive index mask levels => exact portDrive_does index mask levels
  | release index mask => exact portRelease_does index mask
  | externalDrive source level => exact externalDrive_does source level
  | externalRelease source => exact externalRelease_does source
  | event e =>
    simp only [PinOp.run, applyEvent]
    split
    · exact externalDrive_does _ _
    · exact externalRelease_does _

/-- It keeps the sampled copy coherent. -/
theorem PinOp.run_coherent (quiet : hooks.Quiet) (sab : m.cpu.variant = .sab80535)
    (coherent : m.cpu.Coherent) (op : PinOp) (kept : (op.run hooks m).aborted hooks = false) :
    (op.run hooks m).cpu.Coherent := by
  -- Each operation has its own lemma about the sampled copy.
  cases op with
  | write port value => exact sfrWrite_coherent quiet sab coherent _ _ kept
  | drive index mask levels => exact portDrive_coherent sab coherent _ _ _
  | release index mask => exact portRelease_coherent sab coherent _ _
  | externalDrive source level => exact externalDrive_coherent sab coherent _ _
  | externalRelease source => exact externalRelease_coherent sab coherent _
  | event e => exact applyEvent_coherent sab coherent _

/-- It is a sequence of steps, like every operation. -/
theorem PinOp.run_steps (op : PinOp) : Steps hooks AnyChange m (op.run hooks m) := by
  cases op with
  | write port value => exact ((Steps.refl m).sfrWrite port.reg value).weaken
  | drive index mask levels => exact (Steps.refl m).portDrive index mask levels
  | release index mask => exact (Steps.refl m).portRelease index mask
  | externalDrive source level => exact (Steps.refl m).externalDrive source level
  | externalRelease source => exact (Steps.refl m).externalRelease source
  | event e => exact (Steps.refl m).applyEvent e

end Operations

/-! ### One operation -/

namespace PinOp.Does

variable {m n : Machine ω} {source : ExternalSource} (does : PinOp.Does hooks m n)

include does

/-- No operation on pins selects an edge. -/
theorem qualifies (sab : m.cpu.variant = .sab80535) (old new : Bool) :
    n.cpu.qualifies source old new = m.cpu.qualifies source old new := by
  cases does with
  | nothing => rfl
  | @moves port moved _ step view =>
    rw [view.qualifies, qualifies_eq (samplePort_stable hooks moved port) (step.variant.trans sab)]
    simp only [Cpu.qualifies, step.sfr Reg.t2con (fun p => by cases p <;> decide)]

/-- Nor does one select a mode. -/
theorem levelMode (sab : m.cpu.variant = .sab80535) :
    n.cpu.levelMode source = m.cpu.levelMode source := by
  cases does with
  | nothing => rfl
  | @moves port moved _ step view =>
    rw [view.levelMode, samplePort_levelMode (step.variant.trans sab)]
    simp only [Cpu.levelMode, step.sfr Reg.tcon (fun p => by cases p <;> decide)]

/-- Off level mode, a request is made exactly on the qualifying transition. -/
theorem edge (sab : m.cpu.variant = .sab80535) (coherent : m.cpu.Coherent)
    (edge : m.cpu.levelMode source = false) :
    n.cpu.flag source.flag = (m.cpu.flag source.flag ||
      m.cpu.qualifies source (m.cpu.pinLevel source) (n.cpu.pinLevel source)) := by
  cases does with
  | nothing => rw [qualifies_same, Bool.or_false]
  | @moves port moved _ step view =>
    have variant := step.variant.trans sab
    have flags : moved.cpu.flag source.flag = m.cpu.flag source.flag := by
      simp only [Cpu.flag, step.sfr source.flag.reg
        (fun p => by cases p <;> cases source <;> decide)]
    have mode : moved.cpu.levelMode source = false := by
      rw [← edge]
      simp only [Cpu.levelMode, step.sfr Reg.tcon (fun p => by cases p <;> decide)]
    have selected : ∀ old new, moved.cpu.qualifies source old new =
        m.cpu.qualifies source old new := by
      intro old new
      simp only [Cpu.qualifies, step.sfr Reg.t2con (fun p => by cases p <;> decide)]
    rw [view.flag, view.pinLevel, Stable.pinLevel_eq (samplePort_stable hooks moved port) variant,
      samplePort_flag variant (levelled_of_mode mode), flags, step.sampled, coherent.sampled,
      selected]
    by_cases here : source.port = port
    · rw [here, beq_self_eq_true, Bool.true_and]
    · -- A pin of another port has not moved.
      rw [beq_false_of_ne here, step.others source here, qualifies_same, Bool.false_and]

/-- Where no pin moves, no flag changes. -/
theorem still (coherent : m.cpu.Coherent)
    (same : ∀ source, n.cpu.pinLevel source = m.cpu.pinLevel source)
    (sab : m.cpu.variant = .sab80535) (f : RequestFlag) : n.cpu.flag f = m.cpu.flag f := by
  -- The operation samples, and every sample is the level that was already known.
  cases does with
  | nothing => rfl
  -- Between the move and the sampling nothing looks at the flags.
  | @moves port moved _ step view =>
    have variant := step.variant.trans sab
    have unmoved : samplePort hooks port moved = moved := by
      refine samplePort_unchanged fun source _ => ?_
      rw [step.sampled, coherent.sampled, ← same, view.pinLevel,
        Stable.pinLevel_eq (samplePort_stable hooks moved port) variant]
    rw [view.flag, unmoved]
    simp only [Cpu.flag, step.sfr f.reg (fun p => by cases p <;> cases f <;> decide)]

/-- A flag that follows no level is not cleared. -/
theorem flag_kept (sab : m.cpu.variant = .sab80535) {f : RequestFlag}
    (edge : m.cpu.levelled f = false) (set : m.cpu.flag f = true) : n.cpu.flag f = true := by
  -- Moving the pins touches no flag, and sampling only sets some.
  cases does with
  | nothing => exact set
  | @moves port moved _ step view =>
    have tcon : moved.cpu.sfr Reg.tcon = m.cpu.sfr Reg.tcon :=
      step.sfr Reg.tcon fun p => by cases p <;> decide
    -- TCON is no latch, so the mode is the one before.
    have edge' : moved.cpu.levelled f = false := by
      rw [← edge]
      cases f <;> simp only [Cpu.levelled, Cpu.levelMode, tcon]
    have set' : moved.cpu.flag f = true := by
      rw [← set]
      simp only [Cpu.flag, step.sfr f.reg (fun p => by cases p <;> cases f <;> decide)]
    have variant := step.variant.trans sab
    rw [view.flag, samplePort_eq variant]
    exact scan_kept _ moved variant edge' set'

/-- In level mode a pin that falls requests. -/
theorem falls (sab : m.cpu.variant = .sab80535) (coherent : m.cpu.Coherent)
    (mode : m.cpu.levelMode source = true) (high : m.cpu.pinLevel source = true)
    (low : n.cpu.pinLevel source = false) : n.cpu.flag source.flag = true := by
  have kept : n.cpu.levelMode source = m.cpu.levelMode source := does.levelMode sab
  cases does with
  | nothing => exact absurd (high.symm.trans low) (by decide)
  | @moves port moved _ step view =>
    have variant := step.variant.trans sab
    have wired : source.port = .p3 := by
      revert mode
      cases source <;> simp [Cpu.levelMode, ExternalSource.port]
    rw [view.pinLevel] at low
    rw [view.flag]
    rw [view.levelMode] at kept
    have pin := Stable.pinLevel_eq (samplePort_stable hooks moved port) variant source
    have sampled := @samplePort_sampled ω hooks moved port variant source
    rw [samplePort_eq variant] at low kept pin sampled ⊢
    rcases @scan_settled ω hooks port (moved.cpu.getPins port) ExternalSource.all moved variant
      with same | settled
    · -- A sampler that did nothing saw no change, but there was one.
      rw [same] at low sampled
      rw [step.sampled, coherent.sampled, high] at sampled
      split at sampled
      · exact absurd (sampled.trans low) (by decide)
      · rename_i elsewhere
        rw [step.others source elsewhere, high] at low
        exact absurd low (by decide)
    · exact (settled source wired).requests (kept.trans mode) low

/-- A request of unknown origin is not made. -/
theorem traced (sab : m.cpu.variant = .sab80535) (traced : m.cpu.Traced source) :
    n.cpu.Traced source := by
  cases does with
  | nothing => exact traced
  | @moves port moved _ step view =>
    -- Before the sampling the origin of the request is what it was.
    have start : moved.cpu.Traced source := by
      intro mode set
      rw [step.asserted]
      refine traced ?_ ?_
      · rw [← mode]
        simp only [Cpu.levelMode, step.sfr Reg.tcon (fun p => by cases p <;> decide)]
      · rw [← set]
        simp only [Cpu.flag, step.sfr source.flag.reg
          (fun p => by cases p <;> cases source <;> decide)]
    -- Sampling makes no request that is not noted.
    have ended := @samplePort_traced ω hooks moved source (step.variant.trans sab) port start
    intro mode set
    rw [view.pins]
    exact ended ((view.levelMode source).symm.trans mode) ((view.flag _).symm.trans set)

end PinOp.Does

/-! ### Runs of operations -/

/-- The machine after a run of operations on pins. -/
def pinRun (hooks : Hooks ω) : List PinOp → Machine ω → Machine ω
  | [], m => m
  | op :: ops, m => pinRun hooks ops (op.run hooks m)

/-- The levels an input takes over a run, the first one included. -/
def levelTrace (hooks : Hooks ω) (source : ExternalSource) : List PinOp → Machine ω → List Bool
  | [], m => [m.cpu.pinLevel source]
  | op :: ops, m => m.cpu.pinLevel source :: levelTrace hooks source ops (op.run hooks m)

/-- Whether some two consecutive levels make a qualifying transition. -/
def Cpu.requestsOver (c : Cpu) (source : ExternalSource) : List Bool → Bool
  | old :: new :: levels => c.qualifies source old new || c.requestsOver source (new :: levels)
  | _ => false

section Runs

variable {m : Machine ω} {source : ExternalSource}

/-- A run of operations consists of steps of the machine. -/
theorem pinRun_steps (ops : List PinOp) (m : Machine ω) :
    Steps hooks AnyChange m (pinRun hooks ops m) := by
  induction ops generalizing m with
  | nil => exact .refl m
  | cons op ops ih => exact op.run_steps.trans (ih _)

/-- Equal edge selections find the same requests. -/
theorem requestsOver_congr {a b : Cpu}
    (same : ∀ old new, a.qualifies source old new = b.qualifies source old new)
    (levels : List Bool) : a.requestsOver source levels = b.requestsOver source levels := by
  induction levels with
  | nil => rfl
  | cons old levels ih =>
    cases levels with
    | nil => rfl
    | cons new levels => simp only [Cpu.requestsOver, same, ih]

/-- A trace starts at the present level. -/
theorem requestsOver_levelTrace (c : Cpu) (old : Bool) (ops : List PinOp) (m : Machine ω) :
    c.requestsOver source (old :: levelTrace hooks source ops m) =
      (c.qualifies source old (m.cpu.pinLevel source) ||
        c.requestsOver source (levelTrace hooks source ops m)) := by
  cases ops <;> rfl

/-- An operation keeps the variant. -/
theorem PinOp.run_sab (quiet : hooks.Quiet) (sab : m.cpu.variant = .sab80535) (op : PinOp) :
    (op.run hooks m).cpu.variant = .sab80535 := by
  -- A steady change keeps the variant.
  have steady : ∀ n : Machine ω, n.cpu.steady = m.cpu.steady → n.cpu.variant = .sab80535 :=
    fun n same => (congrArg (fun s : Stable => s.fixed.variant) same).trans sab
  cases op with
  | write port value =>
    exact (congrArg Held.variant (sfrWrite_held quiet.passive port.reg value m)).trans sab
  | drive index mask levels => exact steady _ (portDrive_steady hooks m index mask levels)
  | release index mask => exact steady _ (portRelease_steady hooks m index mask)
  | externalDrive source level => exact steady _ (externalDrive_steady hooks m source level)
  | externalRelease source => exact steady _ (externalRelease_steady hooks m source)
  | event e => exact steady _ (applyEvent_steady hooks m e)

/-- Over a run an input out of level mode requests exactly on its qualifying transitions. -/
theorem pinRun_flag (quiet : hooks.Quiet) (sticky : hooks.Sticky) (ops : List PinOp)
    (m : Machine ω) (sab : m.cpu.variant = .sab80535) (coherent : m.cpu.Coherent)
    (edge : m.cpu.levelMode source = false)
    (kept : (pinRun hooks ops m).aborted hooks = false) :
    (pinRun hooks ops m).cpu.flag source.flag =
      (m.cpu.flag source.flag ||
        m.cpu.requestsOver source (levelTrace hooks source ops m)) := by
  -- Induction on the operations; each adds its own transition to the trace.
  induction ops generalizing m with
  | nil => simp [pinRun, levelTrace, Cpu.requestsOver]
  | cons op ops ih =>
    -- An abort would last, so the first operation was not aborted.
    have first : (op.run hooks m).aborted hooks = false :=
      (pinRun_steps ops (op.run hooks m)).unaborted sticky kept
    have does := op.run_does quiet sab first
    have rest := ih (op.run hooks m) (op.run_sab quiet sab)
      (op.run_coherent quiet sab coherent first) ((does.levelMode sab).trans edge) kept
    -- The mode and what qualifies are the same all along.
    rw [pinRun, rest, does.edge sab coherent edge, levelTrace, requestsOver_levelTrace,
      requestsOver_congr (does.qualifies sab), Bool.or_assoc]

end Runs

/-! ### Machine cycles -/

/-- The machine of a cycle once its peripherals have run and the counter has moved. -/
def clocked (hooks : Hooks ω) (m : Machine ω) : Machine ω :=
  (advancePeripherals hooks m).mapCpu fun c =>
    { c with machineCycleCount := c.machineCycleCount + 1 }

/-- The levels an input takes while due events are applied, in the shape of `applyDue`. -/
def dueTrace (hooks : Hooks ω) (source : ExternalSource) : Nat → Machine ω → List Bool
  | 0, m => [m.cpu.pinLevel source]
  | fuel + 1, m =>
    let q := m.cpu.schedule
    if m.cpu.variant = .sab80535 ∧ q.count ≠ 0 then
      let event := q.slots q.head
      if m.cpu.machineCycleCount < event.machineCycle then [m.cpu.pinLevel source]
      else
        let popped := m.mapCpu fun c =>
          { c with schedule := { q with
              head := (q.head + 1) % scheduleCapacity
              count := q.count - 1 } }
        m.cpu.pinLevel source :: dueTrace hooks source fuel (applyEvent hooks event popped).2
    else [m.cpu.pinLevel source]

section Cycles

variable {m : Machine ω} {source : ExternalSource}

/-- The first level of the trace is compared with the old one. -/
theorem requestsOver_dueTrace (c : Cpu) (old : Bool) (fuel : Nat) (m : Machine ω) :
    c.requestsOver source (old :: dueTrace hooks source fuel m) =
      (c.qualifies source old (m.cpu.pinLevel source) ||
        c.requestsOver source (dueTrace hooks source fuel m)) := by
  -- Without fuel the trace is one level, compared with nothing.
  cases fuel with
  | zero => rfl
  | succ fuel =>
    simp only [dueTrace]
    split
    · split <;> rfl
    · rfl

/-- A scheduled event moves pins and samples them. -/
theorem applyEvent_does (event : ScheduleEvent) :
    PinOp.Does hooks m (applyEvent hooks event m).2 := by
  simp only [applyEvent]
  split
  · exact externalDrive_does _ _
  · exact externalRelease_does _

/-- Due events request exactly on the qualifying transitions they make. -/
theorem applyDue_flag (fuel : Nat) (m : Machine ω) (sab : m.cpu.variant = .sab80535)
    (coherent : m.cpu.Coherent) (edge : m.cpu.levelMode source = false) :
    (applyDue hooks fuel m).cpu.flag source.flag =
      (m.cpu.flag source.flag || m.cpu.requestsOver source (dueTrace hooks source fuel m)) := by
  induction fuel generalizing m with
  | zero => simp [applyDue, dueTrace, Cpu.requestsOver]
  | succ fuel ih =>
    simp only [applyDue, dueTrace]
    split
    · split
      · simp [Cpu.requestsOver]
      · -- Taking the event off the queue moves neither pins nor flags.
        generalize popped : (m.mapCpu fun c =>
          { c with schedule := { m.cpu.schedule with
              head := (m.cpu.schedule.head + 1) % scheduleCapacity
              count := m.cpu.schedule.count - 1 } }) = n
        have variant : n.cpu.variant = .sab80535 := by rw [← popped]; exact sab
        have before : n.cpu.Coherent := by
          rw [← popped]
          exact ⟨coherent.sampled, coherent.asserted⟩
        have mode : n.cpu.levelMode source = false := by rw [← popped]; exact edge
        have flags : n.cpu.flag source.flag = m.cpu.flag source.flag := by rw [← popped]; rfl
        have pin : n.cpu.pinLevel source = m.cpu.pinLevel source := by rw [← popped]; rfl
        have selected : ∀ old new, n.cpu.qualifies source old new =
            m.cpu.qualifies source old new := by
          intro old new
          rw [← popped]
          rfl
        have does := @applyEvent_does ω hooks n (m.cpu.schedule.slots m.cpu.schedule.head)
        rw [ih _ (applyEvent_sab variant _) (applyEvent_coherent variant before _)
          ((does.levelMode variant).trans mode), does.edge variant before mode,
          requestsOver_dueTrace, requestsOver_congr (does.qualifies variant),
          requestsOver_congr selected, flags, pin, selected, Bool.or_assoc]
    · simp [Cpu.requestsOver]

/-- Due events clear no flag that follows no level. -/
theorem applyDue_flag_kept {f : RequestFlag} (fuel : Nat) (m : Machine ω)
    (sab : m.cpu.variant = .sab80535) (edge : m.cpu.levelled f = false)
    (set : m.cpu.flag f = true) : (applyDue hooks fuel m).cpu.flag f = true := by
  -- Induction on the fuel, with the machine generalized.
  induction fuel generalizing m with
  | zero => exact set
  | succ fuel ih =>
    simp only [applyDue]
    split
    · split
      · exact set
      · -- The event is taken off the ring, which no flag shows.
        generalize popped : (m.mapCpu fun c =>
          { c with schedule := { m.cpu.schedule with
              head := (m.cpu.schedule.head + 1) % scheduleCapacity
              count := m.cpu.schedule.count - 1 } }) = n
        have variant : n.cpu.variant = .sab80535 := by rw [← popped]; exact sab
        have edge' : n.cpu.levelled f = false := by rw [← popped]; exact edge
        have set' : n.cpu.flag f = true := by rw [← popped]; exact set
        -- Applied, it leaves the flag, and the mode with it.
        have does := @applyEvent_does ω hooks n (m.cpu.schedule.slots m.cpu.schedule.head)
        refine ih _ (applyEvent_sab variant _) ?_ (does.flag_kept variant edge' set')
        rw [← edge']
        cases f with
        | ie0 => exact does.levelMode variant
        | ie1 => exact does.levelMode variant
        | _ => rfl
    · exact set

/-- Due events select no mode and make no request of unknown origin. -/
theorem applyDue_kept (fuel : Nat) (m : Machine ω) (sab : m.cpu.variant = .sab80535) :
    (applyDue hooks fuel m).cpu.levelMode source = m.cpu.levelMode source ∧
      (m.cpu.Traced source → (applyDue hooks fuel m).cpu.Traced source) := by
  -- Induction on the fuel, as for the flags.
  induction fuel generalizing m with
  | zero => exact ⟨rfl, fun before => before⟩
  | succ fuel ih =>
    simp only [applyDue]
    split
    · split
      · exact ⟨rfl, fun before => before⟩
      · generalize popped : (m.mapCpu fun c =>
          { c with schedule := { m.cpu.schedule with
              head := (m.cpu.schedule.head + 1) % scheduleCapacity
              count := m.cpu.schedule.count - 1 } }) = n
        have variant : n.cpu.variant = .sab80535 := by rw [← popped]; exact sab
        have mode : n.cpu.levelMode source = m.cpu.levelMode source := by rw [← popped]; rfl
        -- The event selects no mode and makes no untraced request.
        have does := @applyEvent_does ω hooks n (m.cpu.schedule.slots m.cpu.schedule.head)
        have rest := ih _ (@applyEvent_sab ω hooks n variant
          (m.cpu.schedule.slots m.cpu.schedule.head))
        refine ⟨rest.1.trans ((does.levelMode variant).trans mode), fun before => ?_⟩
        refine rest.2 (does.traced variant ?_)
        rw [← popped]
        exact before
    · exact ⟨rfl, fun before => before⟩

/-- Nor does the whole queue. -/
theorem applyScheduled_kept (sab : m.cpu.variant = .sab80535) :
    (applyScheduled hooks m).cpu.levelMode source = m.cpu.levelMode source ∧
      (m.cpu.Traced source → (applyScheduled hooks m).cpu.Traced source) := by
  obtain ⟨mode, traced⟩ := @applyDue_kept ω hooks source m.cpu.schedule.count m sab
  simp only [applyScheduled]
  split
  · exact ⟨mode, traced⟩
  · exact ⟨mode, traced⟩

/-- A cycle that completes clocks the peripherals and then applies what is due. -/
theorem advanceMachineCycle_completed
    (moved : (advanceMachineCycle hooks m).cpu.machineCycleCount ≠ m.cpu.machineCycleCount) :
    advanceMachineCycle hooks m =
      maintainLevelRequests hooks (applyScheduled hooks (clocked hooks m)) := by
  -- The peripherals leave the clock, so only a completed cycle moves it.
  have still : (advancePeripherals hooks m).cpu.machineCycleCount = m.cpu.machineCycleCount :=
    congrArg Fixed.machineCycleCount
      (Stable.fixed_eq (Moves.refl m.cpu).advancePeripherals.stable)
  simp only [advanceMachineCycle] at moved ⊢
  split at moved
  · exact absurd rfl moved
  · -- Neither of the two tests for an abort has ended the cycle.
    rename_i running
    rw [if_neg running]
    split at moved
    · exact absurd still moved
    · rename_i unaborted
      rw [if_neg unaborted]
      rfl

/-- After a completed cycle a low pin in level mode requests. -/
theorem advanceMachineCycle_settled (sab : m.cpu.variant = .sab80535)
    (wired : source.port = .p3)
    (moved : (advanceMachineCycle hooks m).cpu.machineCycleCount ≠ m.cpu.machineCycleCount) :
    (advanceMachineCycle hooks m).cpu.Settled source := by
  rw [advanceMachineCycle_completed moved]
  refine maintainLevelRequests_settled ?_ wired
  refine (congrArg (fun s : Stable => s.fixed.variant) (applyScheduled_steady hooks _)).trans ?_
  exact (Moves.variant (Moves.refl m.cpu).advancePeripherals).trans sab

/-- In a completed cycle an input requests exactly on its qualifying transitions. -/
theorem advanceMachineCycle_flag (sab : m.cpu.variant = .sab80535) (coherent : m.cpu.Coherent)
    (edge : m.cpu.levelMode source = false)
    (moved : (advanceMachineCycle hooks m).cpu.machineCycleCount ≠ m.cpu.machineCycleCount) :
    (advanceMachineCycle hooks m).cpu.flag source.flag =
      (m.cpu.flag source.flag || m.cpu.requestsOver source
        (dueTrace hooks source (clocked hooks m).cpu.schedule.count (clocked hooks m))) := by
  have external : source.flag.internal = false := by cases source <;> rfl
  have peripherals : Moves m.cpu (advancePeripherals hooks m).cpu :=
    (Moves.refl m.cpu).advancePeripherals
  have variant : (clocked hooks m).cpu.variant = .sab80535 := peripherals.variant.trans sab
  have before : (clocked hooks m).cpu.Coherent := by
    have after := peripherals.coherent sab coherent
    exact ⟨after.sampled, after.asserted⟩
  have mode : (clocked hooks m).cpu.levelMode source = false :=
    (peripherals.levelMode sab source).trans edge
  have flags : (clocked hooks m).cpu.flag source.flag = m.cpu.flag source.flag :=
    peripherals.flag_external sab (levelled_of_mode edge) external
  have selected : ∀ old new, (clocked hooks m).cpu.qualifies source old new =
      m.cpu.qualifies source old new :=
    fun old new => qualifies_eq peripherals.stable sab source old new
  have due := @applyDue_flag ω hooks source (clocked hooks m).cpu.schedule.count
    (clocked hooks m) variant before mode
  -- Neither the ring's head nor level maintenance shows in such a flag.
  have applied : (applyScheduled hooks (clocked hooks m)).cpu.flag source.flag =
      (applyDue hooks (clocked hooks m).cpu.schedule.count (clocked hooks m)).cpu.flag
        source.flag := by
    simp only [applyScheduled]
    split <;> rfl
  have still := (@applyScheduled_kept ω hooks (clocked hooks m) source variant).1
  rw [advanceMachineCycle_completed moved,
    (Moves.refl _).maintainLevelRequests.flag_external ?_ ?_ external, applied, due, flags,
    requestsOver_congr selected]
  · exact (congrArg (fun s : Stable => s.fixed.variant) (applyScheduled_steady hooks _)).trans
      variant
  · exact levelled_of_mode (still.trans mode)

/-- A machine cycle clears no flag that follows no level. -/
theorem advanceMachineCycle_flag_kept {f : RequestFlag} (sab : m.cpu.variant = .sab80535)
    (edge : m.cpu.levelled f = false) (set : m.cpu.flag f = true) :
    (advanceMachineCycle hooks m).cpu.flag f = true := by
  -- Peripherals, due events and the look at the levels, one after the other.
  have peripherals : Moves m.cpu (advancePeripherals hooks m).cpu :=
    (Moves.refl m.cpu).advancePeripherals
  have variant : (clocked hooks m).cpu.variant = .sab80535 := peripherals.variant.trans sab
  have clockedEdge : (clocked hooks m).cpu.levelled f = false :=
    (peripherals.levelled sab f).trans edge
  have clockedSet : (clocked hooks m).cpu.flag f = true := peripherals.flag_kept sab edge set
  simp only [advanceMachineCycle]
  -- Wherever the cycle is ended, the flag has been kept so far.
  split
  · exact set
  · split
    · exact clockedSet
    · -- Looking at the levels clears nothing that follows no level.
      refine (Moves.refl _).maintainLevelRequests.flag_kept ?_ ?_ ?_
      · exact (congrArg (fun s : Stable => s.fixed.variant)
          (applyScheduled_steady hooks _)).trans variant
      · rw [← clockedEdge]
        cases f with
        | ie0 => exact (applyScheduled_kept variant).1
        | ie1 => exact (applyScheduled_kept variant).1
        | _ => rfl
      · have due := @applyDue_flag_kept ω hooks f (clocked hooks m).cpu.schedule.count
          (clocked hooks m) variant clockedEdge clockedSet
        show (applyScheduled hooks (clocked hooks m)).cpu.flag f = true
        simp only [applyScheduled]
        split <;> exact due

/-- A machine cycle makes no request of unknown origin. -/
theorem advanceMachineCycle_traced (sab : m.cpu.variant = .sab80535)
    (traced : m.cpu.Traced source) : (advanceMachineCycle hooks m).cpu.Traced source := by
  -- The same three parts for the origin of requests.
  have peripherals : Moves m.cpu (advancePeripherals hooks m).cpu :=
    (Moves.refl m.cpu).advancePeripherals
  have variant : (clocked hooks m).cpu.variant = .sab80535 := peripherals.variant.trans sab
  simp only [advanceMachineCycle]
  split
  · exact traced
  · split
    · exact peripherals.traced sab traced
    · refine (Moves.refl _).maintainLevelRequests.traced ?_ ?_
      · exact (congrArg (fun s : Stable => s.fixed.variant)
          (applyScheduled_steady hooks _)).trans variant
      · exact (applyScheduled_kept variant).2 (peripherals.traced sab traced)

/-- After a tick in which a cycle completed, a low pin in level mode requests. -/
theorem tick_settled (quiet : hooks.Quiet) (rest : m.cpu.AtRest) (wired : source.port = .p3)
    (moved : (tick hooks m).2.cpu.machineCycleCount ≠ m.cpu.machineCycleCount) :
    (tick hooks m).2.cpu.Settled source := by
  -- Up to the cycle itself nothing in a tick moves the counter.
  obtain ⟨delay, fixed⟩ := handleInterrupts_fixed hooks m
  have variant : (handleInterrupts hooks m).2.cpu.variant = .sab80535 :=
    (congrArg Fixed.variant fixed).trans rest.sab
  have handled : (handleInterrupts hooks m).2.cpu.machineCycleCount = m.cpu.machineCycleCount :=
    congrArg Fixed.machineCycleCount fixed
  have begun : (opcodeStart hooks m).cpu.machineCycleCount = m.cpu.machineCycleCount := by
    rw [opcodeStart, beginInstruction_cpu]
    exact handled
  have done : (opcodeDone hooks m).cpu.machineCycleCount = m.cpu.machineCycleCount := by
    rw [opcodeDone, runInstruction_cpu]
    exact (congrArg Fixed.machineCycleCount (Op.run_fixed quiet _ _)).trans begun
  have ended : (opcodeDone hooks m).cpu.variant = .sab80535 := by
    rw [opcodeDone, runInstruction_cpu]
    refine (congrArg Fixed.variant (Op.run_fixed quiet _ _)).trans ?_
    rw [opcodeStart, beginInstruction_cpu]
    exact variant
  have shape := tick_cases hooks m
  generalize tick hooks m = answer at shape moved
  cases shape with
  | stopped _ => exact absurd rfl moved
  | pending _ _ => exact advanceMachineCycle_settled (by exact rest.sab) wired moved
  | failed _ _ | entered _ _ _ _ =>
    refine advanceMachineCycle_settled variant wired ?_
    rwa [handled]
  | cut _ _ _ => exact absurd handled moved
  | idle _ _ _ _ _ =>
    refine advanceMachineCycle_settled (by exact variant) wired ?_
    exact fun same => moved (same.trans handled)
  | unbegun _ _ _ => exact absurd begun moved
  | interrupted _ _ => exact absurd done moved
  | completed _ _ =>
    refine advanceMachineCycle_settled (by exact ended) wired ?_
    exact fun same => moved (same.trans done)

end Cycles

/-! ### The sampler over whole runs -/

/-- The laws of the sampler, for everything that may move a pin of a machine next. -/
structure SamplesPins (hooks : Hooks ω) (m : Machine ω) : Prop where
  /-- The sampled copy is the resolved level of every pin. -/
  sampled : ∀ source, has m.cpu.pins.sampledLevels source.sampleBit = m.cpu.pinLevel source
  /-- Out of level mode a run of operations requests exactly on qualifying transitions. -/
  edges : ∀ (ops : List PinOp) (source : ExternalSource), m.cpu.levelMode source = false →
    (pinRun hooks ops m).aborted hooks = false →
    (pinRun hooks ops m).cpu.flag source.flag =
      (m.cpu.flag source.flag || m.cpu.requestsOver source (levelTrace hooks source ops m))
  /-- So do the events that fall due in a completed machine cycle. -/
  dueEdges : ∀ source : ExternalSource, m.cpu.levelMode source = false →
    (advanceMachineCycle hooks m).cpu.machineCycleCount ≠ m.cpu.machineCycleCount →
    (advanceMachineCycle hooks m).cpu.flag source.flag =
      (m.cpu.flag source.flag || m.cpu.requestsOver source
        (dueTrace hooks source (clocked hooks m).cpu.schedule.count (clocked hooks m)))
  /-- An operation that moves no pin changes no request flag at all. -/
  still : ∀ op : PinOp, (op.run hooks m).aborted hooks = false →
    (∀ source, (op.run hooks m).cpu.pinLevel source = m.cpu.pinLevel source) →
    ∀ f, (op.run hooks m).cpu.flag f = m.cpu.flag f
  /-- In level mode a falling pin requests. -/
  falls : ∀ (op : PinOp) (source : ExternalSource), (op.run hooks m).aborted hooks = false →
    m.cpu.levelMode source = true → m.cpu.pinLevel source = true →
    (op.run hooks m).cpu.pinLevel source = false → (op.run hooks m).cpu.flag source.flag = true
  /-- A request the level made is withdrawn when the pin returns high. -/
  withdrawn : ∀ (op : PinOp) (source : ExternalSource), (op.run hooks m).aborted hooks = false →
    m.cpu.levelMode source = true → has m.cpu.pins.levelAsserted source.sampleBit = true →
    (op.run hooks m).cpu.pinLevel source = true → (op.run hooks m).cpu.flag source.flag = false
  /-- Also when it does so in the course of a machine cycle. -/
  dueWithdrawn : ∀ source : ExternalSource,
    m.cpu.levelMode source = true → has m.cpu.pins.levelAsserted source.sampleBit = true →
    (advanceMachineCycle hooks m).cpu.pinLevel source = true →
    (advanceMachineCycle hooks m).cpu.levelMode source = true →
    (advanceMachineCycle hooks m).cpu.flag source.flag = false

section Laws

variable {m : Machine ω}

/-- A level-mode request at a high pin cannot be one of the level's. -/
theorem flag_of_high {c : Cpu} {source : ExternalSource} (coherent : c.Coherent)
    (traced : c.Traced source) (mode : c.levelMode source = true)
    (high : c.pinLevel source = true) : c.flag source.flag = false := by
  have wired : source.port = .p3 := by
    revert mode
    cases source <;> simp [Cpu.levelMode, ExternalSource.port]
  cases set : c.flag source.flag with
  | false => rfl
  | true => exact absurd (high.symm.trans (coherent.asserted source wired (traced mode set))) (by decide)

/-- They hold wherever the sampled copy is coherent. -/
theorem SamplesPins.of_coherent (quiet : hooks.Quiet) (sticky : hooks.Sticky)
    -- Each part of the law is a lemma about one operation or one cycle.
    (sab : m.cpu.variant = .sab80535) (coherent : m.cpu.Coherent) : SamplesPins hooks m where
  sampled := coherent.sampled
  edges := fun ops source edge kept => pinRun_flag quiet sticky ops m sab coherent edge kept
  dueEdges := fun source edge moved => advanceMachineCycle_flag sab coherent edge moved
  still := fun op kept same f => (op.run_does quiet sab kept).still coherent same sab f
  falls := fun op source kept mode high low =>
    (op.run_does quiet sab kept).falls sab coherent mode high low
  -- A request that was withdrawn had been noted, and nothing else made it.
  withdrawn := fun op source kept mode asserted high => by
    have does := op.run_does quiet sab kept
    exact flag_of_high (op.run_coherent quiet sab coherent kept)
      (does.traced sab fun _ _ => asserted) ((does.levelMode sab).trans mode) high
  dueWithdrawn := fun source mode asserted high mode' =>
    flag_of_high (advanceMachineCycle_coherent sab coherent)
      (advanceMachineCycle_traced sab fun _ _ => asserted) mode' high

/--
The sampler's laws hold between any two operations and between any two actions of an opcode, and
a completed machine cycle leaves every low pin in level mode requesting.
-/
theorem external_pins_sampled (quiet : hooks.Quiet) (sticky : hooks.Sticky)
    (supervised : Supervised hooks m) (running : m.aborted hooks = false) :
    SamplesPins hooks m ∧
      (m.Begins hooks → ∀ k,
        (((opTable (handleInterrupts hooks m).2.cpu.opcode).take k).run hooks
          (opcodeStart hooks m)).2.aborted hooks = false →
        SamplesPins hooks (((opTable (handleInterrupts hooks m).2.cpu.opcode).take k).run hooks
          (opcodeStart hooks m)).2) ∧
      ∀ source : ExternalSource,
        (tick hooks m).2.cpu.machineCycleCount ≠ m.cpu.machineCycleCount →
        (tick hooks m).2.cpu.levelMode source = true →
        (tick hooks m).2.cpu.pinLevel source = false →
        (tick hooks m).2.cpu.flag source.flag = true := by
  -- The copy is coherent in every supervised state.
  have rest := supervised.reachable.atRest quiet.passive
  have coherent := supervised.coherent quiet sticky running
  refine ⟨.of_coherent quiet sticky rest.sab coherent, fun _ k kept => ?_,
    fun source moved mode low => ?_⟩
  · -- And after every prefix of a body that is not aborted.
    obtain ⟨delay, fixed⟩ := handleInterrupts_fixed hooks m
    have handled := @handleInterrupts_coherent ω hooks m rest.sab coherent
    have start : (opcodeStart hooks m).cpu.variant = .sab80535 ∧
        (opcodeStart hooks m).cpu.Coherent := by
      rw [opcodeStart, beginInstruction_cpu]
      exact ⟨(congrArg Fixed.variant fixed).trans rest.sab, handled.sampled, handled.asserted⟩
    refine .of_coherent quiet sticky ?_ (Op.run_coherent quiet sticky _ _ start.1 start.2 kept)
    exact (congrArg Fixed.variant (Op.run_fixed quiet _ _)).trans start.1
  · -- Level mode means that the input is wired to Port 3.
    have wired : source.port = .p3 := by
      revert mode
      cases source <;> simp [Cpu.levelMode, ExternalSource.port]
    exact (tick_settled quiet rest wired moved).requests mode low

/-- A pulse on INT4 requests on its way up, and INT0 requests while it is held low. -/
theorem external_pins_sampled_pulse :
    (pinRun Hooks.none [.externalDrive 4 false, .externalRelease 4]
        (Machine.boot fun _ => 0#8)).cpu.flag .iex4 = true ∧
      SamplesPins Hooks.none (HostCall.run Hooks.none (.externalDrive 0 false)
        (Machine.boot fun _ => 0#8)).2 := by
  have fresh : Supervised Hooks.none (Machine.boot fun _ => 0#8) := .reset (Machine.boot_isReset _)
  have laws := external_pins_sampled Hooks.none_quiet Hooks.none_sticky fresh rfl
  have driven := external_pins_sampled Hooks.none_quiet Hooks.none_sticky
    (.call (.externalDrive 0 false) fresh) rfl
  exact ⟨laws.1.edges [.externalDrive 4 false, .externalRelease 4] .int4 rfl rfl, driven.1⟩

end Laws

end Emu80535
