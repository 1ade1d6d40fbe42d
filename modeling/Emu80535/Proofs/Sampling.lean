import Emu80535.Proofs.Flags
import Emu80535.Proofs.Ticks

/-! The sampled copy of the pins, and the requests that follow from it. -/

namespace Emu80535

variable {ω : Type} {hooks : Hooks ω}

open Machine

/-! ### Level requests -/

/-- What one iteration of the level maintenance does to TCON and to the asserted byte. -/
def ExternalSource.levelStep (source : ExternalSource) (low : Bool) (tcon asserted : Byte) :
    Byte × Byte :=
  if has tcon source.edgeModeMask then (tcon, asserted &&& ~~~source.sampleBit)
  else if low then
    (tcon ||| source.irqSource.requestMask, asserted ||| source.sampleBit)
  else if has asserted source.sampleBit then
    (tcon &&& ~~~source.irqSource.requestMask, asserted &&& ~~~source.sampleBit)
  else (tcon, asserted)

/-- One iteration touches nothing else. -/
theorem maintainLevelRequest_cpu (pins : Byte) (source : ExternalSource) (m : Machine ω) :
    (maintainLevelRequest hooks pins source m).cpu =
      (m.cpu.store Reg.tcon (source.levelStep (!has pins source.pinMask) (m.cpu.sfr Reg.tcon)
        m.cpu.pins.levelAsserted).1).noteAsserted
        (source.levelStep (!has pins source.pinMask) (m.cpu.sfr Reg.tcon)
          m.cpu.pins.levelAsserted).2 := by
  -- An iteration that stores TCON as it is stores nothing.
  have unstored : m.cpu.store Reg.tcon (m.cpu.sfr Reg.tcon) = m.cpu := by
    simp only [Cpu.store, Function.update_eq_self]
  simp only [maintainLevelRequest, ExternalSource.levelStep]
  -- Edge mode forgets the level, a low pin requests, a high one withdraws.
  split
  · rw [unstored]
    rfl
  · split
    · rename_i low
      simp only [low, Bool.not_false, if_true, setLevelAsserted, mapCpu_cpu, irqWrite_cpu]
      rfl
    · rename_i high
      simp only [Bool.not_eq_false] at high
      simp only [high, Bool.not_true, Bool.false_eq_true, if_false]
      split
      · rfl
      · rw [unstored]
        rfl

/-- What level maintenance establishes at an input. -/
structure Cpu.Settled (c : Cpu) (source : ExternalSource) : Prop where
  requests : c.levelMode source = true → c.pinLevel source = false → c.flag source.flag = true
  asserted : has c.pins.levelAsserted source.sampleBit = true →
    c.levelMode source = true ∧ c.pinLevel source = false

namespace ExternalSource

variable {source : ExternalSource} (low : Bool) (tcon asserted : Byte)

/-- The request flag of an input is its flag's bit. -/
theorem requestMask_eq (source : ExternalSource) :
    source.irqSource.requestMask = source.flag.mask := by
  cases source <;> rfl

/-- The register of a source's request is that of its flag. -/
theorem requestReg_eq (source : ExternalSource) :
    source.irqSource.requestReg = source.flag.reg := by
  cases source <;> rfl

/-- Two inputs have different bits in the sampled and asserted bytes. -/
theorem sampleBit_apart {source other : ExternalSource} (different : source ≠ other) :
    source.sampleBit &&& other.sampleBit = 0#8 := by
  revert different
  cases source <;> cases other <;> decide

/-- Two inputs of Port 3 have different request flags. -/
theorem flag_apart {source other : ExternalSource} (wired : source.port = .p3)
    (wired' : other.port = .p3) (different : source ≠ other) :
    source.irqSource.requestMask &&& other.irqSource.requestMask = 0#8 := by
  revert wired wired' different
  cases source <;> cases other <;> decide

/-- Requests of Port 3 inputs select no mode. -/
theorem request_apart (wired : source.port = .p3) (other : ExternalSource) :
    source.irqSource.requestMask &&& other.edgeModeMask = 0#8 := by
  revert wired
  cases source <;> cases other <;> decide

/-- An iteration selects no mode. -/
theorem levelStep_mode (wired : source.port = .p3) (other : ExternalSource) :
    has (source.levelStep low tcon asserted).1 other.edgeModeMask =
      has tcon other.edgeModeMask := by
  -- A mode bit is not a request bit, so neither setting nor clearing touches it.
  simp only [levelStep]
  split
  · rfl
  · split
    · exact has_or_of_disjoint (request_apart wired other)
    · split
      · exact has_andNot_of_disjoint (request_apart wired other)
      · rfl

/-- In level mode a low pin requests. -/
theorem levelStep_requests (mode : has tcon source.edgeModeMask = false) :
    has (source.levelStep true tcon asserted).1 source.irqSource.requestMask = true := by
  simp only [levelStep, mode, Bool.false_eq_true, if_false, if_true]
  exact has_or_self (by cases source <;> decide)

/-- Only a low pin in level mode is left asserted. -/
theorem levelStep_asserted
    (set : has (source.levelStep low tcon asserted).2 source.sampleBit = true) :
    has tcon source.edgeModeMask = false ∧ low = true := by
  simp only [levelStep] at set
  -- Edge mode clears the note, so the bit cannot be set behind it.
  split at set
  · rw [has_andNot_self] at set
    exact absurd set (by decide)
  · rename_i level
    refine ⟨by simpa using level, ?_⟩
    split at set
    · assumption
    · -- With the pin high a note that was set is cleared.
      split at set
      · rw [has_andNot_self] at set
        exact absurd set (by decide)
      · rename_i unset
        exact absurd set unset

/-- An iteration leaves the other input alone. -/
theorem levelStep_other {other : ExternalSource} (wired : source.port = .p3)
    (wired' : other.port = .p3) (different : source ≠ other) :
    has (source.levelStep low tcon asserted).1 other.irqSource.requestMask =
        has tcon other.irqSource.requestMask ∧
      has (source.levelStep low tcon asserted).2 other.sampleBit = has asserted other.sampleBit := by
  -- The two inputs have different flags and different notes.
  have flags := flag_apart wired wired' different
  have bits := sampleBit_apart different
  simp only [levelStep]
  split
  · exact ⟨rfl, has_andNot_of_disjoint bits⟩
  · split
    · exact ⟨has_or_of_disjoint flags, has_or_of_disjoint bits⟩
    · split
      · exact ⟨has_andNot_of_disjoint flags, has_andNot_of_disjoint bits⟩
      · exact ⟨rfl, rfl⟩

/-- A settled input has nothing left to do in TCON. -/
theorem levelStep_settled (wired : source.port = .p3)
    (requests : has tcon source.edgeModeMask = false → low = true →
      has tcon source.irqSource.requestMask = true)
    (quiet : has asserted source.sampleBit = true → low = true) :
    (source.levelStep low tcon asserted).1 = tcon := by
  -- A request that is already made is not changed by making it again.
  have absorbed : ∀ t : Byte, has t source.irqSource.requestMask = true →
      t ||| source.irqSource.requestMask = t := by
    cases source with
    | int0 | int1 => decide
    | _ => exact absurd wired (by decide)
  simp only [levelStep]
  split
  · rfl
  · rename_i level
    -- With the pin low the request has been made before.
    split
    · rename_i isLow
      exact absorbed tcon (requests (by simpa using level) isLow)
    · -- With the pin high nothing was asserted, so nothing is withdrawn.
      rename_i isHigh
      split
      · rename_i set
        exact absurd (quiet set) isHigh
      · rfl

end ExternalSource

section Maintenance

variable {source other : ExternalSource} {pins : Byte} {m : Machine ω}

/-- The CPU after one iteration, seen from any input of Port 3. -/
theorem maintainLevelRequest_view (wired : source.port = .p3) :
    (maintainLevelRequest hooks pins source m).cpu.levelMode other = m.cpu.levelMode other ∧
      (maintainLevelRequest hooks pins source m).cpu.pinLevel other = m.cpu.pinLevel other := by
  rw [maintainLevelRequest_cpu]
  refine ⟨?_, m.cpu.store_pinLevel _ other other.latch_ne_tcon⟩
  simp only [Cpu.levelMode, Cpu.noteAsserted, Cpu.store, Function.update_self,
    ExternalSource.levelStep_mode _ _ _ wired]

/-- The request flag of a Port 3 input is in TCON. -/
theorem flag_of_wired (c : Cpu) (wired : source.port = .p3) :
    c.flag source.flag = has (c.sfr Reg.tcon) source.irqSource.requestMask := by
  cases source <;> first | rfl | exact absurd wired (by decide)

/-- An iteration settles its own input. -/
theorem maintainLevelRequest_settled (current : pins = m.cpu.getPins .p3)
    (wired : source.port = .p3) :
    (maintainLevelRequest hooks pins source m).cpu.Settled source := by
  -- Neither the mode nor the pin is changed by the iteration.
  obtain ⟨mode, pin⟩ := @maintainLevelRequest_view ω hooks source source pins m wired
  have level : m.cpu.pinLevel source = has pins source.pinMask := by
    rw [Cpu.pinLevel, wired, current]
  constructor
  · -- In level mode with the pin low the iteration has made the request.
    intro levelMode low
    rw [mode] at levelMode
    rw [pin, level] at low
    rw [flag_of_wired _ wired, maintainLevelRequest_cpu]
    simp only [Cpu.noteAsserted, Cpu.store, Function.update_self, low, Bool.not_false]
    refine ExternalSource.levelStep_requests _ _ ?_
    simpa [Cpu.levelMode, wired] using levelMode
  · -- What is noted as asserted is a low pin in level mode.
    intro set
    rw [mode, pin, level]
    rw [maintainLevelRequest_cpu] at set
    obtain ⟨edge, low⟩ := ExternalSource.levelStep_asserted _ _ _ set
    exact ⟨by simp [Cpu.levelMode, wired, edge], by simpa using low⟩

/-- And leaves the other one settled. -/
theorem maintainLevelRequest_settled_other (wired : source.port = .p3)
    (wired' : other.port = .p3) (different : source ≠ other) (settled : m.cpu.Settled other) :
    (maintainLevelRequest hooks pins source m).cpu.Settled other := by
  obtain ⟨mode, pin⟩ := @maintainLevelRequest_view ω hooks source other pins m wired
  -- The other input has its own bits in both bytes.
  have kept := ExternalSource.levelStep_other (!has pins source.pinMask) (m.cpu.sfr Reg.tcon)
    m.cpu.pins.levelAsserted wired wired' different
  constructor
  · -- Its request is still there.
    intro levelMode low
    rw [mode] at levelMode
    rw [pin] at low
    have requested := settled.requests levelMode low
    rw [flag_of_wired _ wired'] at requested ⊢
    rw [maintainLevelRequest_cpu]
    simp only [Cpu.noteAsserted, Cpu.store, Function.update_self]
    exact kept.1.trans requested
  · -- So is what its note says.
    intro set
    rw [mode, pin]
    rw [maintainLevelRequest_cpu] at set
    exact settled.asserted (kept.2.symm.trans set)

/-- The two inputs of Port 3. -/
theorem wired_cases (wired : source.port = .p3) : source = .int0 ∨ source = .int1 := by
  revert wired
  cases source <;> decide

/-- Level maintenance settles every input of Port 3. -/
theorem maintainLevelRequests_settled (sab : m.cpu.variant = .sab80535)
    (wired : source.port = .p3) : (maintainLevelRequests hooks m).cpu.Settled source := by
  have first : (maintainLevelRequest hooks (m.cpu.getPins .p3) .int0 m).cpu.stable =
      m.cpu.stable := ((Moves.refl m.cpu).maintainLevelRequest rfl rfl).stable
  simp only [maintainLevelRequests, sab, if_true, List.foldl_cons, List.foldl_nil]
  rcases wired_cases wired with rfl | rfl
  · exact maintainLevelRequest_settled_other rfl rfl (by decide)
      (maintainLevelRequest_settled rfl rfl)
  · exact maintainLevelRequest_settled (Stable.getPins_eq first sab .p3).symm rfl

/-- At a settled input an iteration stores nothing. -/
theorem maintainLevelRequest_sfr (wired : source.port = .p3) (settled : m.cpu.Settled source)
    (current : pins = m.cpu.getPins .p3) :
    (maintainLevelRequest hooks pins source m).cpu.sfr = m.cpu.sfr := by
  -- The pins were read once for both inputs.
  have level : m.cpu.pinLevel source = has pins source.pinMask := by
    rw [Cpu.pinLevel, wired, current]
  have same : (source.levelStep (!has pins source.pinMask) (m.cpu.sfr Reg.tcon)
      m.cpu.pins.levelAsserted).1 = m.cpu.sfr Reg.tcon := by
    -- TCON is stored as it was, by the case of a settled input.
    refine ExternalSource.levelStep_settled _ _ _ wired (fun mode low => ?_) (fun set => ?_)
    · rw [← flag_of_wired _ wired]
      refine settled.requests (by simp [Cpu.levelMode, wired, mode]) ?_
      rw [level]
      simpa using low
    · rw [← level, (settled.asserted set).2]
      rfl
  rw [maintainLevelRequest_cpu, same]
  simp only [Cpu.noteAsserted, Cpu.store, Function.update_eq_self]

/-- Where both inputs are settled, maintenance stores nothing. -/
theorem maintainLevelRequests_sfr
    (settled : ∀ source : ExternalSource, source.port = .p3 → m.cpu.Settled source) :
    (maintainLevelRequests hooks m).cpu.sfr = m.cpu.sfr := by
  simp only [maintainLevelRequests]
  split
  · rename_i sab
    simp only [List.foldl_cons, List.foldl_nil]
    -- The pins that the second iteration reads are those of the first.
    have first : (maintainLevelRequest hooks (m.cpu.getPins .p3) .int0 m).cpu.stable =
        m.cpu.stable := ((Moves.refl m.cpu).maintainLevelRequest rfl rfl).stable
    -- The first iteration leaves the second input settled.
    have second : (maintainLevelRequest hooks (m.cpu.getPins .p3) .int0 m).cpu.Settled .int1 :=
      maintainLevelRequest_settled_other rfl rfl (by decide) (settled .int1 rfl)
    rw [maintainLevelRequest_sfr rfl second (Stable.getPins_eq first sab .p3).symm,
      maintainLevelRequest_sfr rfl (settled .int0 rfl) rfl]
  · rfl

end Maintenance

/-! ### Changes of a pin -/

/-- The transition an input requests on when it is not in level mode. -/
def Cpu.qualifies (c : Cpu) (source : ExternalSource) (old new : Bool) : Bool :=
  match source with
  | .int0 | .int1 => old && !new
  | .int2 => if has (c.sfr Reg.t2con) T2con.i2fr then !old && new else old && !new
  | .int3 => if has (c.sfr Reg.t2con) T2con.i3fr then !old && new else old && !new
  | .int4 | .int5 | .int6 => !old && new

/-- A level that stays qualifies for nothing. -/
theorem qualifies_same (c : Cpu) (source : ExternalSource) (level : Bool) :
    c.qualifies source level level = false := by
  cases source <;> cases level <;> simp [Cpu.qualifies]

section Changes

variable {source : ExternalSource} {m : Machine ω} {f : RequestFlag} {old new : Bool}

/-- Out of level mode the verdict is the qualifying transition, and never about a level. -/
theorem classify_edge (c : Cpu) (edge : c.levelMode source = false) (old new : Bool) :
    (c.classify source old new).2 = c.qualifies source old new ∧
      (c.classify source old new).1 ≠ .lowLevelAssert ∧
      (c.classify source old new).1 ≠ .levelRelease := by
  -- In each mode the two levels leave four cases, which are computed.
  cases source with
  -- INT0 and INT1 are out of level mode exactly when their edge bit is set.
  | int0 | int1 =>
    simp only [Cpu.levelMode, ExternalSource.port, beq_self_eq_true, Bool.true_and,
      Bool.not_eq_false'] at edge
    simp only [Cpu.classify, edge, if_true, Cpu.qualifies]
    cases old <;> cases new <;> decide
  -- INT2 and INT3 have the edge selected by T2CON.
  | int2 =>
    simp only [Cpu.classify, Cpu.qualifies, if_true]
    cases has (c.sfr Reg.t2con) T2con.i2fr <;> cases old <;> cases new <;> decide
  | int3 =>
    simp only [Cpu.classify, Cpu.qualifies, reduceCtorEq, if_false]
    cases has (c.sfr Reg.t2con) T2con.i3fr <;> cases old <;> cases new <;> decide
  -- INT4 to INT6 only know the rising edge.
  | int4 | int5 | int6 =>
    simp only [Cpu.classify, Cpu.qualifies]
    cases old <;> cases new <;> decide

/-- A flag that follows no level belongs to no input in level mode. -/
theorem levelMode_of_flag (edge : m.cpu.levelled source.flag = false) :
    m.cpu.levelMode source = false := by
  cases source with
  | int0 | int1 => exact edge
  | _ => rfl

/-- Level bookkeeping does not show in another input's flag. -/
theorem noteLevel_flag_other (trigger : ExternalTrigger) (other : f ≠ source.flag) :
    (noteLevel source trigger m).cpu.flag f = m.cpu.flag f := by
  cases trigger with
  | lowLevelAssert | nonQualifying | fallingEdge | risingEdge => rfl
  | levelRelease =>
    simp only [noteLevel]
    split
    · -- The withdrawn flag is another one.
      show (m.cpu.store _ _).flag f = m.cpu.flag f
      rw [source.requestReg_eq, source.requestMask_eq]
      by_cases here : f.reg = source.flag.reg
      · rw [Cpu.store_flag_self _ _ here,
          has_andNot_of_disjoint (Move.mask_apart here.symm (Ne.symm other)), Cpu.flag, here]
      · exact Cpu.store_flag_ne _ _ here
    · rfl

/-- Level bookkeeping does not show in a flag that follows no level. -/
theorem noteLevel_flag (edge : m.cpu.levelled f = false) :
    (noteLevel source (m.cpu.classify source old new).1 m).cpu.flag f = m.cpu.flag f := by
  by_cases own : f = source.flag
  · -- The input is not in level mode, so there is no bookkeeping.
    obtain ⟨-, unasserted, unreleased⟩ :=
      classify_edge m.cpu (levelMode_of_flag (own ▸ edge)) old new
    generalize (m.cpu.classify source old new).1 = trigger at unasserted unreleased
    cases trigger with
    | lowLevelAssert => exact absurd rfl unasserted
    | levelRelease => exact absurd rfl unreleased
    | nonQualifying | fallingEdge | risingEdge => rfl
  · exact noteLevel_flag_other _ own

/-- The machine an observed change leaves behind, before the caches are rebuilt. -/
def changeNoted (hooks : Hooks ω) (source : ExternalSource) (old new : Bool) (m : Machine ω) :
    Machine ω :=
  let noted := noteLevel source (m.cpu.classify source old new).1 m
  if (m.cpu.classify source old new).2 then
    noted.irqWrite hooks source.irqSource.requestReg
      (noted.cpu.sfr source.irqSource.requestReg ||| source.irqSource.requestMask)
      noted.cpu.machineCycleCount
  else noted

/-- Observing a change is noting it and then looking at the levels. -/
theorem observeChange_cpu : (observeChange hooks source old new m).cpu =
    (irqSync hooks (changeNoted hooks source old new m)).cpu := rfl

/-- A change of one input does not show in the flag of another. -/
theorem changeNoted_flag_other (other : f ≠ source.flag) :
    (changeNoted hooks source old new m).cpu.flag f = m.cpu.flag f := by
  -- No two inputs share a flag.
  have apart : (f.reg == source.flag.reg && has source.flag.mask f.mask) = false := by
    revert other
    cases f <;> cases source <;> decide
  simp only [changeNoted]
  -- Only an accepted change stores a flag.
  split
  · rw [irqWrite_cpu]
    show (Cpu.store _ _ _).flag f = _
    rw [Cpu.store_or_flag, noteLevel_flag_other _ other, source.requestReg_eq,
      source.requestMask_eq, apart, Bool.or_false]
  · exact noteLevel_flag_other _ other

/-- A change sets the input's flag exactly when its verdict is a request. -/
theorem changeNoted_flag (edge : m.cpu.levelled f = false) :
    (changeNoted hooks source old new m).cpu.flag f =
      (m.cpu.flag f || (f == source.flag && m.cpu.qualifies source old new)) := by
  have noted := @noteLevel_flag ω source m f old new edge
  -- Only the input's own flag is among the bits that are set.
  have own : (f.reg == source.flag.reg && has source.flag.mask f.mask) = (f == source.flag) := by
    cases f <;> cases source <;> rfl
  simp only [changeNoted]
  split
  · rename_i requests
    rw [irqWrite_cpu]
    show (Cpu.store _ _ _).flag f = _
    rw [Cpu.store_or_flag, noted, source.requestReg_eq, source.requestMask_eq, own]
    by_cases same : f = source.flag
    · have verdict := (classify_edge m.cpu (levelMode_of_flag (same ▸ edge)) old new).1
      rw [← verdict, requests, Bool.and_true]
    · rw [beq_false_of_ne same, Bool.false_and]
  · rename_i silent
    rw [noted]
    by_cases same : f = source.flag
    · have verdict := (classify_edge m.cpu (levelMode_of_flag (same ▸ edge)) old new).1
      rw [← verdict, eq_false_of_ne_true silent, Bool.and_false, Bool.or_false]
    · rw [beq_false_of_ne same, Bool.false_and, Bool.or_false]

/-- No request flag selects a mode. -/
theorem flag_mode_apart (here : f.reg = Reg.tcon) (source : ExternalSource) :
    f.mask &&& source.edgeModeMask = 0#8 := by
  revert here
  cases f <;> cases source <;> decide

/-- A store that only sets or clears a flag selects no mode. -/
theorem store_levelMode (c : Cpu) (value : Byte)
    (only : value = c.sfr f.reg ||| f.mask ∨ value = c.sfr f.reg &&& ~~~f.mask) :
    (c.store f.reg value).levelMode source = c.levelMode source := by
  -- Only TCON holds mode bits, and a request bit is none of them.
  by_cases here : f.reg = Reg.tcon
  · have apart := flag_mode_apart here source
    have same : has value source.edgeModeMask = has (c.sfr Reg.tcon) source.edgeModeMask := by
      rcases only with rfl | rfl
      · rw [has_or_of_disjoint apart, here]
      · rw [has_andNot_of_disjoint apart, here]
    simp only [Cpu.levelMode, Cpu.store, here, Function.update_self, same]
  · simp only [Cpu.levelMode, Cpu.store, Function.update_of_ne (Ne.symm here)]

/-- Level bookkeeping selects no mode. -/
theorem noteLevel_levelMode (trigger : ExternalTrigger) (other : ExternalSource) :
    (noteLevel source trigger m).cpu.levelMode other = m.cpu.levelMode other := by
  -- Only a released level touches TCON, in a request bit.
  cases trigger with
  | lowLevelAssert | nonQualifying | fallingEdge | risingEdge => rfl
  | levelRelease =>
    simp only [noteLevel]
    split
    · show (m.cpu.store _ _).levelMode other = _
      rw [source.requestReg_eq, source.requestMask_eq]
      exact store_levelMode m.cpu _ (Or.inr rfl)
    · rfl

/-- Noting a change selects no mode. -/
theorem changeNoted_levelMode (other : ExternalSource) :
    (changeNoted hooks source old new m).cpu.levelMode other = m.cpu.levelMode other := by
  simp only [changeNoted]
  split
  · rw [irqWrite_cpu]
    show (Cpu.store _ _ _).levelMode other = _
    rw [source.requestReg_eq, source.requestMask_eq, store_levelMode _ _ (Or.inl rfl),
      noteLevel_levelMode]
  · exact noteLevel_levelMode _ other

/-- Noting a change leaves every flag in level mode or out of it. -/
theorem changeNoted_levelled (f : RequestFlag) :
    (changeNoted hooks source old new m).cpu.levelled f = m.cpu.levelled f := by
  cases f with
  | ie0 => exact changeNoted_levelMode .int0
  | ie1 => exact changeNoted_levelMode .int1
  | _ => rfl

/-- Noting a change touches neither the pins nor the build. -/
theorem changeNoted_stable :
    (changeNoted hooks source old new m).cpu.stable = m.cpu.stable := by
  -- Looking at the levels is known to leave both, and so is the whole observation.
  have synced := irqSync_stable hooks (changeNoted hooks source old new m)
  rw [← synced, ← observeChange_cpu, observeChange_stable]

/-- What an observed change does on the Siemens CPU. -/
theorem observeChange_levelMode (sab : m.cpu.variant = .sab80535) (other : ExternalSource) :
    (observeChange hooks source old new m).cpu.levelMode other = m.cpu.levelMode other := by
  have variant := congrArg Fixed.variant (Stable.fixed_eq
    (@changeNoted_stable ω hooks source m old new))
  rw [observeChange_cpu, (Moves.refl _).irqSync.levelMode (variant.trans sab),
    changeNoted_levelMode]

/-- It clears no flag that follows no level. -/
theorem observeChange_kept (sab : m.cpu.variant = .sab80535) (edge : m.cpu.levelled f = false)
    (set : m.cpu.flag f = true) :
    (observeChange hooks source old new m).cpu.flag f = true := by
  have variant := congrArg Fixed.variant (Stable.fixed_eq
    (@changeNoted_stable ω hooks source m old new))
  rw [observeChange_cpu]
  refine (Moves.refl _).irqSync.flag_kept (variant.trans sab) ?_ ?_
  · rw [changeNoted_levelled, edge]
  · rw [changeNoted_flag edge, set, Bool.true_or]

/-- It sets exactly the input's own flag, and that on a qualifying transition. -/
theorem observeChange_flag (sab : m.cpu.variant = .sab80535) (edge : m.cpu.levelled f = false)
    (external : f.internal = false) :
    (observeChange hooks source old new m).cpu.flag f =
      (m.cpu.flag f || (f == source.flag && m.cpu.qualifies source old new)) := by
  have variant := congrArg Fixed.variant (Stable.fixed_eq
    (@changeNoted_stable ω hooks source m old new))
  rw [observeChange_cpu, (Moves.refl _).irqSync.flag_external (variant.trans sab)
    (by rw [changeNoted_levelled, edge]) external, changeNoted_flag edge]

/-- Observing a change leaves the samples. -/
theorem observeChange_sampled :
    (observeChange hooks source old new m).cpu.pins.sampledLevels = m.cpu.pins.sampledLevels := by
  have noted : ∀ trigger, (noteLevel source trigger m).cpu.pins.sampledLevels =
      m.cpu.pins.sampledLevels := by
    intro trigger
    cases trigger with
    | lowLevelAssert | nonQualifying | fallingEdge | risingEdge => rfl
    | levelRelease =>
      simp only [noteLevel]
      split <;> rfl
  -- Neither the look at the levels nor the request records a sample.
  rw [observeChange_cpu, (Moves.refl _).irqSync.sampled]
  simp only [changeNoted]
  split
  · rw [irqWrite_cpu]
    exact noted _
  · exact noted _

/-- Rebuilding the caches settles the inputs of Port 3. -/
theorem irqSync_settled (sab : m.cpu.variant = .sab80535) (wired : source.port = .p3) :
    (irqSync hooks m).cpu.Settled source := by
  have settled := @maintainLevelRequests_settled ω hooks source m sab wired
  exact ⟨settled.requests, settled.asserted⟩

/-- Observing a change settles both level inputs. -/
theorem observeChange_settled {wired : ExternalSource} (sab : m.cpu.variant = .sab80535)
    (port : wired.port = .p3) : (observeChange hooks source old new m).cpu.Settled wired := by
  have variant := congrArg Fixed.variant (Stable.fixed_eq
    (@changeNoted_stable ω hooks source m old new))
  rw [observeChange_cpu]
  exact irqSync_settled (variant.trans sab) port

end Changes

/-! ### Sampling a port -/

section Sampling

variable {m : Machine ω} {port : SabPort} {pins : Byte} {source target : ExternalSource}
  {f : RequestFlag}

/-- Recording one sample leaves the other samples alone. -/
theorem setSampled_bit (level : Bool) (source target : ExternalSource) (m : Machine ω) :
    has (m.setSampled source.sampleBit level).cpu.pins.sampledLevels target.sampleBit =
      if target = source then level else has m.cpu.pins.sampledLevels target.sampleBit := by
  -- A sample is one bit, so it is recorded by setting or clearing that.
  have present : target.sampleBit ≠ 0#8 := by cases target <;> decide
  simp only [setSampled, mapCpu_cpu]
  by_cases same : target = source
  · subst same
    cases level with
    | true => simp [has_or_self present]
    | false => simp [has_andNot_self]
  · have apart := ExternalSource.sampleBit_apart (Ne.symm same)
    cases level with
    | true => simp [has_or_of_disjoint apart, same]
    | false => simp [has_andNot_of_disjoint apart, same]

/-- One iteration records the sample of its own input. -/
theorem sampleSource_sampled (target : ExternalSource) :
    has (sampleSource hooks port pins source m).cpu.pins.sampledLevels target.sampleBit =
      if target = source ∧ source.port = port then has pins source.pinMask
      else has m.cpu.pins.sampledLevels target.sampleBit := by
  simp only [sampleSource]
  -- An input of another port is not sampled.
  split
  · rename_i here
    simp only [here, and_true]
    -- An unchanged input keeps its sample, which is the level of the pin.
    split
    · rename_i same
      by_cases own : target = source
      · rw [if_pos own, own, same]
      · rw [if_neg own]
    · rw [observeChange_sampled, setSampled_bit]
  · rename_i elsewhere
    simp only [elsewhere, and_false, if_false]

/-- It selects no mode. -/
theorem sampleSource_levelMode (sab : m.cpu.variant = .sab80535) (other : ExternalSource) :
    (sampleSource hooks port pins source m).cpu.levelMode other = m.cpu.levelMode other := by
  simp only [sampleSource]
  split
  · split
    · rfl
    · exact observeChange_levelMode (by exact sab) other
  · rfl

/-- One iteration leaves every flag in level mode or out of it. -/
theorem sampleSource_levelled (sab : m.cpu.variant = .sab80535) (f : RequestFlag) :
    (sampleSource hooks port pins source m).cpu.levelled f = m.cpu.levelled f := by
  cases f with
  | ie0 => exact sampleSource_levelMode sab .int0
  | ie1 => exact sampleSource_levelMode sab .int1
  | _ => rfl

/-- It clears no flag that follows no level. -/
theorem sampleSource_kept (sab : m.cpu.variant = .sab80535) (edge : m.cpu.levelled f = false)
    (set : m.cpu.flag f = true) : (sampleSource hooks port pins source m).cpu.flag f = true := by
  simp only [sampleSource]
  split
  · split
    · exact set
    · exact observeChange_kept (by exact sab) (by exact edge) (by exact set)
  · exact set

/-- It sets its input's flag on a qualifying transition, and no other. -/
theorem sampleSource_flag (sab : m.cpu.variant = .sab80535) (edge : m.cpu.levelled f = false)
    (external : f.internal = false) :
    (sampleSource hooks port pins source m).cpu.flag f =
      (m.cpu.flag f || (f == source.flag && source.port == port &&
        m.cpu.qualifies source (has m.cpu.pins.sampledLevels source.sampleBit)
          (has pins source.pinMask))) := by
  simp only [sampleSource]
  -- Whether the input is wired to the port comes first.
  split
  · rename_i here
    simp only [here, beq_self_eq_true, Bool.and_true]
    -- Without a change no edge can qualify.
    split
    · rename_i same
      rw [same, qualifies_same, Bool.and_false, Bool.or_false]
    · -- With a change the observation decides.
      rw [observeChange_flag (by exact sab) (by exact edge) external]
      rfl
  · rename_i elsewhere
    rw [beq_false_of_ne elsewhere]
    simp

/-- The registers that select the edges are quiet. -/
theorem qualifies_eq {a b : Cpu} (same : a.stable = b.stable) (sab : b.variant = .sab80535)
    (source : ExternalSource) (old new : Bool) :
    a.qualifies source old new = b.qualifies source old new := by
  have t2con : a.sfr Reg.t2con = b.sfr Reg.t2con := Stable.sfr_eq_sab same sab rfl
  simp only [Cpu.qualifies, t2con]

/-- The scan of some inputs in order. -/
def scan (hooks : Hooks ω) (port : SabPort) (pins : Byte) (l : List ExternalSource)
    (m : Machine ω) : Machine ω :=
  l.foldl (fun m s => sampleSource hooks port pins s m) m

/-- A scan starts with its first input. -/
theorem scan_cons (s : ExternalSource) (l : List ExternalSource) (m : Machine ω) :
    scan hooks port pins (s :: l) m = scan hooks port pins l (sampleSource hooks port pins s m) :=
  rfl

/-- Sampling keeps the variant. -/
theorem sampleSource_sab (sab : m.cpu.variant = .sab80535) :
    (sampleSource hooks port pins source m).cpu.variant = .sab80535 :=
  (congrArg Fixed.variant (Stable.fixed_eq (sampleSource_stable hooks m port pins source))).trans
    sab

/-- After a scan the scanned inputs of the port have their new sample. -/
theorem scan_sampled (l : List ExternalSource) (m : Machine ω) (target : ExternalSource) :
    has (scan hooks port pins l m).cpu.pins.sampledLevels target.sampleBit =
      if target ∈ l ∧ target.port = port then has pins target.pinMask
      else has m.cpu.pins.sampledLevels target.sampleBit := by
  -- By induction on the list, from the machine that the first input leaves.
  induction l generalizing m with
  | nil => simp [scan]
  | cons s l ih =>
    rw [scan_cons, ih, sampleSource_sampled]
    -- The input itself is sampled by its own iteration, and not changed by the others.
    by_cases own : target = s
    · subst own
      by_cases here : target.port = port
      · simp [here]
      · simp [here]
    · simp [own]

/-- A scan clears no flag that follows no level. -/
theorem scan_kept (l : List ExternalSource) (m : Machine ω) (sab : m.cpu.variant = .sab80535)
    (edge : m.cpu.levelled f = false) (set : m.cpu.flag f = true) :
    (scan hooks port pins l m).cpu.flag f = true := by
  induction l generalizing m with
  | nil => exact set
  | cons s l ih =>
    exact ih _ (sampleSource_sab sab) ((sampleSource_levelled sab f).trans edge)
      (sampleSource_kept sab edge set)

/-- A scan sets an input's flag exactly on a qualifying transition of the input. -/
theorem scan_flag (l : List ExternalSource) (once : l.Nodup) (m : Machine ω)
    (sab : m.cpu.variant = .sab80535) (edge : m.cpu.levelled target.flag = false) :
    (scan hooks port pins l m).cpu.flag target.flag =
      (m.cpu.flag target.flag || (decide (target ∈ l) && target.port == port &&
        m.cpu.qualifies target (has m.cpu.pins.sampledLevels target.sampleBit)
          (has pins target.pinMask))) := by
  have external : target.flag.internal = false := by cases target <;> rfl
  induction l generalizing m with
  | nil => simp [scan]
  | cons s l ih =>
    obtain ⟨fresh, once⟩ := List.nodup_cons.mp once
    -- The first iteration decides its own input; the rest of the scan decides the others.
    rw [scan_cons, ih once _ (sampleSource_sab sab) ((sampleSource_levelled sab _).trans edge),
      sampleSource_flag sab edge external, sampleSource_sampled,
      qualifies_eq (sampleSource_stable hooks m port pins s) sab]
    by_cases own : target = s
    · subst own
      simp [fresh]
    · have other : target.flag ≠ s.flag := by
        revert own
        cases target <;> cases s <;> decide
      rw [beq_false_of_ne other]
      simp [own]

/-- A scan changes nothing at all, or ends with the inputs of Port 3 settled. -/
theorem scan_settled (l : List ExternalSource) (m : Machine ω) (sab : m.cpu.variant = .sab80535) :
    scan hooks port pins l m = m ∨
      ∀ wired : ExternalSource, wired.port = .p3 →
        (scan hooks port pins l m).cpu.Settled wired := by
  -- One iteration either finds no change or ends with looking at both levels.
  have one : ∀ (s : ExternalSource) (n : Machine ω), n.cpu.variant = .sab80535 →
      sampleSource hooks port pins s n = n ∨ ∀ wired : ExternalSource, wired.port = .p3 →
        (sampleSource hooks port pins s n).cpu.Settled wired := by
    intro s n variant
    simp only [sampleSource]
    split
    · split
      · exact Or.inl rfl
      · exact Or.inr fun wired at3 => observeChange_settled (by exact variant) at3
    · exact Or.inl rfl
  -- If the rest of the scan changes nothing, the state is that behind the first input.
  induction l generalizing m with
  | nil => exact Or.inl rfl
  | cons s l ih =>
    rw [scan_cons]
    rcases ih (sampleSource hooks port pins s m) (sampleSource_sab sab) with same | settled
    · rw [same]
      exact one s m sab
    · exact Or.inr settled

/-- Sampling a port is one scan over all inputs. -/
theorem samplePort_eq (sab : m.cpu.variant = .sab80535) :
    samplePort hooks port m = scan hooks port (m.cpu.getPins port) ExternalSource.all m :=
  if_pos sab

/-- The list of inputs is complete. -/
theorem externalSource_mem_all (source : ExternalSource) : source ∈ ExternalSource.all := by
  cases source <;> decide

/-- After sampling a port its inputs have the level of their pins. -/
theorem samplePort_sampled (sab : m.cpu.variant = .sab80535) (target : ExternalSource) :
    has (samplePort hooks port m).cpu.pins.sampledLevels target.sampleBit =
      if target.port = port then m.cpu.pinLevel target
      else has m.cpu.pins.sampledLevels target.sampleBit := by
  -- The scan over the inputs of the port sets the sample of each to its level.
  rw [samplePort_eq sab, scan_sampled]
  simp only [externalSource_mem_all, true_and]
  split
  · rename_i here
    rw [Cpu.pinLevel, here]
  · rfl

/-- A flag of an input out of level mode follows no level. -/
theorem levelled_of_mode {c : Cpu} (edge : c.levelMode target = false) :
    c.levelled target.flag = false := by
  cases target with
  | int0 | int1 => exact edge
  | _ => rfl

/-- Sampling selects no mode. -/
theorem samplePort_levelMode (sab : m.cpu.variant = .sab80535) :
    (samplePort hooks port m).cpu.levelMode target = m.cpu.levelMode target := by
  rw [samplePort_eq sab]
  have kept : (scan hooks port (m.cpu.getPins port) ExternalSource.all m).cpu.variant = .sab80535 ∧
      (scan hooks port (m.cpu.getPins port) ExternalSource.all m).cpu.levelMode target =
        -- The variant is carried along, since the mode of an input depends on it.
        m.cpu.levelMode target :=
    Fold.foldl_keeps (I := fun n : Machine ω =>
        n.cpu.variant = .sab80535 ∧ n.cpu.levelMode target = m.cpu.levelMode target)
      (fun s _ n before =>
        ⟨sampleSource_sab before.1, (sampleSource_levelMode before.1 target).trans before.2⟩)
      ⟨sab, rfl⟩
  exact kept.2

/-- Sampling sets an input's flag exactly on a qualifying transition of the input. -/
theorem samplePort_flag (sab : m.cpu.variant = .sab80535)
    (edge : m.cpu.levelled target.flag = false) :
    (samplePort hooks port m).cpu.flag target.flag =
      (m.cpu.flag target.flag || (target.port == port &&
        m.cpu.qualifies target (has m.cpu.pins.sampledLevels target.sampleBit)
          (m.cpu.pinLevel target))) := by
  -- Each input occurs once in the list, so its flag is touched once.
  rw [samplePort_eq sab, scan_flag _ (by decide) m sab edge]
  simp only [externalSource_mem_all, decide_true, Bool.true_and]
  by_cases here : target.port = port
  · rw [Cpu.pinLevel, here]
  · rw [beq_false_of_ne here, Bool.false_and, Bool.false_and]

end Sampling

/-! ### Withdrawal -/

/-- In level mode a request is one that the level asserted. -/
def Cpu.Traced (c : Cpu) (source : ExternalSource) : Prop :=
  c.levelMode source = true → c.flag source.flag = true →
    has c.pins.levelAsserted source.sampleBit = true

/-- Two inputs do not share a flag. -/
theorem request_flag_apart {source other : ExternalSource} (different : other ≠ source) :
    (source.flag.reg == other.flag.reg && has other.flag.mask source.flag.mask) = false := by
  revert different
  cases source <;> cases other <;> decide

/-- No move makes a request of unknown origin. -/
theorem Move.traced {a b : Cpu} {source : ExternalSource} (sab : a.variant = .sab80535)
    (move : Move a b) (traced : a.Traced source) : b.Traced source := by
  intro mode set
  rw [move.levelMode sab] at mode
  -- Before the move the flag could be explained; each move is checked for its own flag.
  have before := traced mode
  cases move with
  | uart | adc | overflow | caches => exact before set
  -- A counter shares its register with no external request.
  | count value counting =>
    rw [a.store_flag_ne value (Move.count_apart counting _)] at set
    exact before set
  -- A peripheral raises only its own flags.
  | @raise index mask known =>
    rw [a.store_or_flag] at set
    cases hit : source.flag.reg == index && has mask source.flag.mask with
    | false => exact before (by rwa [hit, Bool.or_false] at set)
    | true =>
      simp only [Bool.and_eq_true, beq_iff_eq] at hit
      have internal := Move.raised_internal known hit.1 hit.2
      cases source <;> exact absurd internal (by decide)
  -- The ninth bit of the receiver is in SCON.
  | ninth value same =>
    rw [Move.ninth_flag value same] at set
    exact before set
  -- The short cut of the other variant does not concern this one.
  | shortcut sfr classic other kept => exact absurd sab other
  -- A level that is asserted explains the request it makes.
  | assert other level low =>
    show has (a.pins.levelAsserted ||| other.sampleBit) source.sampleBit = true
    by_cases own : source = other
    · rw [own]
      exact has_or_self (by cases other <;> decide)
    · obtain ⟨mask, reg, -⟩ := Move.level_request level
      rw [Cpu.noteAsserted_flag, a.store_or_flag, mask, ← reg] at set
      have apart := request_flag_apart (Ne.symm own)
      rw [has_or, before (by simpa [apart] using set), Bool.true_or]
  -- A withdrawn level takes its request along.
  | withdraw other level high asserted =>
    show has (a.pins.levelAsserted &&& ~~~other.sampleBit) source.sampleBit = true
    rw [Cpu.noteAsserted_flag] at set
    by_cases own : source = other
    · obtain ⟨mask, reg, -⟩ := Move.level_request level
      rw [own, mask, Cpu.store_flag_self _ _ reg, has_andNot_self] at set
      exact absurd set (by decide)
    · rw [has_andNot_of_disjoint (ExternalSource.sampleBit_apart (Ne.symm own))]
      exact before (a.flag_of_cleared _ set)
  -- In edge mode an input needs no note.
  | relax other edge =>
    show has (a.pins.levelAsserted &&& ~~~other.sampleBit) source.sampleBit = true
    by_cases own : source = other
    · rw [own] at mode
      exact absurd (edge.symm.trans mode) (by decide)
    · rw [has_andNot_of_disjoint (ExternalSource.sampleBit_apart (Ne.symm own))]
      exact before set

section Withdrawal

variable {m : Machine ω} {source target : ExternalSource} {old new : Bool}

/-- Noting a change of one input leaves the asserted bits of the others. -/
theorem changeNoted_asserted_other (other : target ≠ source) :
    has (changeNoted hooks source old new m).cpu.pins.levelAsserted target.sampleBit =
      has m.cpu.pins.levelAsserted target.sampleBit := by
  have apart := ExternalSource.sampleBit_apart (Ne.symm other)
  -- Whatever trigger is noted, the other bit is untouched.
  have noted : ∀ trigger, has (noteLevel source trigger m).cpu.pins.levelAsserted target.sampleBit =
      has m.cpu.pins.levelAsserted target.sampleBit := by
    intro trigger
    cases trigger with
    | nonQualifying | fallingEdge | risingEdge => rfl
    | lowLevelAssert => exact has_or_of_disjoint apart
    | levelRelease =>
      simp only [noteLevel]
      split <;> exact has_andNot_of_disjoint apart
  simp only [changeNoted]
  split
  · rw [irqWrite_cpu]
    exact noted _
  · exact noted _

/-- In level mode the verdict follows the new level alone. -/
theorem classify_levelMode (c : Cpu) (mode : c.levelMode source = true) (old new : Bool) :
    c.classify source old new =
      if new then (.levelRelease, false) else (.lowLevelAssert, true) := by
  cases source with
  | int0 | int1 =>
    simp only [Cpu.levelMode, ExternalSource.port, beq_self_eq_true, Bool.true_and,
      Bool.not_eq_true'] at mode
    cases new <;> simp [Cpu.classify, mode]
  | _ => exact absurd mode (by simp [Cpu.levelMode, ExternalSource.port])

/-- A noted change makes no request of unknown origin. -/
theorem changeNoted_traced (traced : m.cpu.Traced target) :
    (changeNoted hooks source old new m).cpu.Traced target := by
  intro mode set
  rw [changeNoted_levelMode] at mode
  by_cases own : target = source
  · subst own
    cases new with
    | false =>
      -- The level is remembered before its request is made.
      have noted : (changeNoted hooks target old false m).cpu.pins.levelAsserted =
          m.cpu.pins.levelAsserted ||| target.sampleBit := by
        rw [changeNoted, classify_levelMode _ mode]
        simp only [Bool.false_eq_true, if_false, if_true, irqWrite_cpu]
        rfl
      rw [noted]
      exact has_or_self (by cases target <;> decide)
    | true =>
      -- The release withdraws what was asserted, and there was nothing else.
      have noted : changeNoted hooks target old true m = noteLevel target .levelRelease m := by
        rw [changeNoted, classify_levelMode _ mode]
        rfl
      rw [noted] at set
      simp only [noteLevel] at set
      split at set
      · have cleared : (m.clearFlags target.irqSource.requestReg
            target.irqSource.requestMask).cpu.flag target.flag = false := by
          show (m.cpu.store _ _).flag target.flag = false
          rw [target.requestReg_eq, target.requestMask_eq, Cpu.store_flag_self _ _ rfl,
            has_andNot_self]
        exact absurd (cleared.symm.trans set) (by decide)
      · rename_i unasserted
        exact absurd (traced mode set) unasserted
  · have other : target.flag ≠ source.flag := by
      revert own
      cases target <;> cases source <;> decide
    rw [changeNoted_flag_other other] at set
    rw [changeNoted_asserted_other own]
    exact traced mode set

/-- Nor do peripherals. -/
theorem Moves.traced {a b : Cpu} (moves : Moves a b) (sab : a.variant = .sab80535)
    (traced : a.Traced source) : b.Traced source := by
  induction moves with
  | refl => exact traced
  | tail first last ih => exact last.traced ((Moves.variant first).trans sab) ih

/-- Nor does one iteration of the sampler. -/
theorem sampleSource_traced (sab : m.cpu.variant = .sab80535) {port : SabPort} {pins : Byte}
    (traced : m.cpu.Traced target) :
    (sampleSource hooks port pins source m).cpu.Traced target := by
  simp only [sampleSource]
  split
  · -- Without a change the state is the old one.
    split
    · exact traced
    · -- With one it is that of the observation, which looks at the levels last.
      rw [observeChange_cpu]
      have variant := congrArg Fixed.variant (Stable.fixed_eq
        (@changeNoted_stable ω hooks source (m.setSampled source.sampleBit (has pins source.pinMask))
          (has m.cpu.pins.sampledLevels source.sampleBit) (has pins source.pinMask)))
      exact (Moves.refl _).irqSync.traced (variant.trans sab) (changeNoted_traced traced)
  · exact traced

/-- Nor does the sampling of a whole port. -/
theorem samplePort_traced (sab : m.cpu.variant = .sab80535) {port : SabPort}
    (traced : m.cpu.Traced target) : (samplePort hooks port m).cpu.Traced target := by
  rw [samplePort_eq sab]
  have kept : (scan hooks port (m.cpu.getPins port) ExternalSource.all m).cpu.variant = .sab80535 ∧
      (scan hooks port (m.cpu.getPins port) ExternalSource.all m).cpu.Traced target :=
    Fold.foldl_keeps (I := fun n : Machine ω => n.cpu.variant = .sab80535 ∧ n.cpu.Traced target)
      (fun s _ n before => ⟨sampleSource_sab before.1, sampleSource_traced before.1 before.2⟩)
      ⟨sab, traced⟩
  exact kept.2

end Withdrawal

end Emu80535
