import Emu80535.Proofs.Moves

/-! The individual request flags, and what peripherals can do to them. -/

namespace Emu80535

variable {ω : Type}

/-! ### Request flags -/

/-- The flags that request an interrupt, one by one. -/
inductive RequestFlag where
  | ie0
  | tf0
  | ie1
  | tf1
  | ri
  | ti
  | iadc
  | iex2
  | iex3
  | iex4
  | iex5
  | iex6
  | tf2
  | exf2
  deriving DecidableEq, Repr

namespace RequestFlag

/-- The register a flag is in. -/
def reg : RequestFlag → SfrIndex
  | ie0 | tf0 | ie1 | tf1 => Reg.tcon
  | ri | ti => Reg.scon
  | iadc | iex2 | iex3 | iex4 | iex5 | iex6 | tf2 | exf2 => Reg.ircon

/-- Its bit there. -/
def mask : RequestFlag → Byte
  | ie0 => Tcon.ie0
  | tf0 => Tcon.tf0
  | ie1 => Tcon.ie1
  | tf1 => Tcon.tf1
  | ri => Scon.ri
  | ti => Scon.ti
  | iadc => Ircon.iadc
  | iex2 => Ircon.iex2
  | iex3 => Ircon.iex3
  | iex4 => Ircon.iex4
  | iex5 => Ircon.iex5
  | iex6 => Ircon.iex6
  | tf2 => Ircon.tf2
  | exf2 => Ircon.exf2

end RequestFlag

/-- The flag an external input requests with. -/
def ExternalSource.flag : ExternalSource → RequestFlag
  | int0 => .ie0
  | int1 => .ie1
  | int2 => .iex2
  | int3 => .iex3
  | int4 => .iex4
  | int5 => .iex5
  | int6 => .iex6

namespace Cpu

/-- Whether a request flag is set. -/
def flag (c : Cpu) (f : RequestFlag) : Bool := has (c.sfr f.reg) f.mask

/-- A flag that follows the level of its pin. -/
def levelled (c : Cpu) : RequestFlag → Bool
  | .ie0 => c.levelMode .int0
  | .ie1 => c.levelMode .int1
  | _ => false

variable (c : Cpu) {index : SfrIndex} {f : RequestFlag}

/-- The asserted byte holds no flag. -/
theorem noteAsserted_flag (value : Byte) : (c.noteAsserted value).flag f = c.flag f := rfl

/-- A store elsewhere does not show in a flag. -/
theorem store_flag_ne (value : Byte) (elsewhere : f.reg ≠ index) :
    (c.store index value).flag f = c.flag f := by
  simp only [flag, store, Function.update_of_ne elsewhere]

/-- A store to the flag's own register decides it. -/
theorem store_flag_self (value : Byte) (here : f.reg = index) :
    (c.store index value).flag f = has value f.mask := by
  simp only [flag, store, here, Function.update_self]

/-- Setting bits sets the flags among them and no other. -/
theorem store_or_flag (mask : Byte) :
    (c.store index (c.sfr index ||| mask)).flag f =
      (c.flag f || (f.reg == index && has mask f.mask)) := by
  by_cases here : f.reg = index
  · rw [store_flag_self c _ here, has_or, flag, here]
    simp
  · rw [store_flag_ne c _ here]
    simp [here]

/-- Clearing bits sets no flag. -/
theorem flag_of_cleared (mask : Byte)
    (set : (c.store index (c.sfr index &&& ~~~mask)).flag f = true) : c.flag f = true := by
  by_cases here : f.reg = index
  · rw [store_flag_self c _ here] at set
    rw [flag, here]
    exact has_of_and set
  · rwa [store_flag_ne c _ here] at set

end Cpu

/-! ### What moves do to them -/

/-- The flags timers, the serial port and the converter raise. -/
def RequestFlag.internal : RequestFlag → Bool
  | .tf0 | .tf1 | .ri | .ti | .tf2 | .iadc => true
  | _ => false

namespace Move

variable {a b : Cpu}

/-- No counting register holds a request flag. -/
theorem count_apart {index : SfrIndex} (counting : isCounting index = true) (f : RequestFlag) :
    f.reg ≠ index := by
  rintro rfl
  revert counting
  cases f <;> decide

/-- The ninth bit is no request flag. -/
theorem ninth_flag (value : Byte) (same : value &&& ~~~Scon.rb8 = a.sfr Reg.scon &&& ~~~Scon.rb8)
    (f : RequestFlag) : (a.store Reg.scon value).flag f = a.flag f := by
  by_cases here : f.reg = Reg.scon
  · have apart : Scon.rb8 &&& f.mask = 0#8 := by
      cases f <;> first | rfl | exact absurd here (by decide)
    rw [Cpu.store_flag_self a value here, Cpu.flag, here]
    rw [← @has_andNot_of_disjoint value _ _ apart, same, has_andNot_of_disjoint apart]
  · exact a.store_flag_ne value here

/-- The level of INT0 and INT1 requests with IE0 and IE1, and of no other input. -/
theorem level_request {source : ExternalSource} (level : a.levelMode source = true) :
    source.irqSource.requestMask = source.flag.mask ∧ source.flag.reg = Reg.tcon ∧
      a.levelled source.flag = true := by
  cases source with
  | int0 | int1 => exact ⟨rfl, rfl, level⟩
  | _ => exact absurd level (by simp [Cpu.levelMode, ExternalSource.port])

/-- Nor does such a request select a mode. -/
theorem request_mode_apart {wired : ExternalSource} (level : a.levelMode wired = true)
    (source : ExternalSource) : wired.irqSource.requestMask &&& source.edgeModeMask = 0#8 := by
  cases wired with
  | int0 | int1 => cases source <;> rfl
  | _ => exact absurd level (by simp [Cpu.levelMode, ExternalSource.port])

/-- Two flags of one register have different bits. -/
theorem mask_apart {f g : RequestFlag} (here : f.reg = g.reg) (other : f ≠ g) :
    f.mask &&& g.mask = 0#8 := by
  revert here other
  cases f <;> cases g <;> decide

/-- A raised flag is one of the internal ones. -/
theorem raised_internal {index : SfrIndex} {mask : Byte} (known : isRaised index mask = true)
    {f : RequestFlag} (here : f.reg = index) (set : has mask f.mask = true) :
    f.internal = true := by
  rcases isRaised_cases known with ⟨rfl, rfl | rfl⟩ | ⟨rfl, rfl | rfl⟩ | ⟨rfl, rfl | rfl⟩ <;>
    revert here set <;> cases f <;> decide

/-- A move leaves a flag alone, raises an internal one, or follows the level of a pin. -/
theorem flag_cases (sab : a.variant = .sab80535) (move : Move a b) (f : RequestFlag) :
    b.flag f = a.flag f ∨ (b.flag f = true ∧ f.internal = true) ∨ a.levelled f = true := by
  -- A counter holds no flag, a raise sets internal ones, and a level moves only its own.
  cases move with
  | uart | adc | overflow | caches | relax => exact Or.inl rfl
  | count value counting => exact Or.inl (a.store_flag_ne value (count_apart counting f))
  | @raise index mask known =>
    rw [a.store_or_flag]
    cases hit : f.reg == index && has mask f.mask with
    | false => exact Or.inl (Bool.or_false _)
    | true =>
      simp only [Bool.and_eq_true, beq_iff_eq] at hit
      exact Or.inr (Or.inl ⟨Bool.or_true _, raised_internal known hit.1 hit.2⟩)
  | ninth value same => exact Or.inl (ninth_flag value same f)
  | shortcut sfr classic other kept => exact absurd sab other
  | assert source level low =>
    obtain ⟨mask, reg, levelled⟩ := level_request level
    -- The level's own flag, or another one of the same register.
    by_cases own : f = source.flag
    · exact Or.inr (Or.inr (own ▸ levelled))
    · left
      rw [Cpu.noteAsserted_flag, a.store_or_flag, mask]
      by_cases here : f.reg = Reg.tcon
      · rw [has_eq_false_iff.mpr (mask_apart (reg.trans here.symm) (Ne.symm own))]
        simp
      · simp [here]
  | withdraw source level high asserted =>
    obtain ⟨mask, reg, levelled⟩ := level_request level
    -- The same two cases for a flag that is cleared.
    by_cases own : f = source.flag
    · exact Or.inr (Or.inr (own ▸ levelled))
    · left
      rw [Cpu.noteAsserted_flag]
      by_cases here : f.reg = Reg.tcon
      · rw [a.store_flag_self _ here, mask,
          has_andNot_of_disjoint (mask_apart (reg.trans here.symm) (Ne.symm own)), Cpu.flag, here]
      · exact a.store_flag_ne _ here

/-- A move selects no mode. -/
theorem levelMode (sab : a.variant = .sab80535) (move : Move a b) (source : ExternalSource) :
    b.levelMode source = a.levelMode source := by
  -- It is enough that the bits of TCON that select the mode stay.
  have enough : has (b.sfr Reg.tcon) source.edgeModeMask = has (a.sfr Reg.tcon) source.edgeModeMask →
      b.levelMode source = a.levelMode source := by
    intro same
    simp only [Cpu.levelMode, same]
  apply enough
  have elsewhere : ∀ {index : SfrIndex} (value : Byte), Reg.tcon ≠ index →
      (a.store index value).sfr Reg.tcon = a.sfr Reg.tcon :=
    fun value other => Function.update_of_ne other _ _
  cases move with
  | uart | adc | overflow | caches | relax => rfl
  | count value counting => rw [elsewhere value (count_apart counting .tf0)]
  | raise known =>
    rcases isRaised_cases known with ⟨rfl, rfl | rfl⟩ | ⟨rfl, -⟩ | ⟨rfl, -⟩
    · exact has_or_of_disjoint (by cases source <;> rfl)
    · exact has_or_of_disjoint (by cases source <;> rfl)
    · rw [elsewhere _ (by decide)]
    · rw [elsewhere _ (by decide)]
  | ninth value same => rw [elsewhere value (by decide)]
  | shortcut sfr classic other kept => exact absurd sab other
  | assert wired level low =>
    exact has_or_of_disjoint (request_mode_apart level source)
  | withdraw wired level high asserted =>
    exact has_andNot_of_disjoint (request_mode_apart level source)

/-- A move does not sample. -/
theorem sampled (move : Move a b) : b.pins.sampledLevels = a.pins.sampledLevels := by
  cases move <;> rfl

end Move

namespace Moves

variable {a b : Cpu}

/-- Moves keep the variant. -/
theorem variant (moves : Moves a b) : b.variant = a.variant :=
  congrArg Fixed.variant (Stable.fixed_eq moves.stable)

/-- Moves do not sample. -/
theorem sampled (moves : Moves a b) : b.pins.sampledLevels = a.pins.sampledLevels := by
  induction moves with
  | refl => rfl
  | tail _ last ih => exact last.sampled.trans ih

/-- Moves select no mode. -/
theorem levelMode (moves : Moves a b) (sab : a.variant = .sab80535) (source : ExternalSource) :
    b.levelMode source = a.levelMode source := by
  induction moves with
  | refl => rfl
  | tail first last ih => exact (last.levelMode ((variant first).trans sab) source).trans ih

/-- The mode of a level is a setting that peripherals leave alone. -/
theorem levelled (moves : Moves a b) (sab : a.variant = .sab80535) (f : RequestFlag) :
    b.levelled f = a.levelled f := by
  cases f with
  | ie0 => exact moves.levelMode sab .int0
  | ie1 => exact moves.levelMode sab .int1
  | _ => rfl

/-- Peripherals clear no flag that does not follow a level. -/
theorem flag_kept (moves : Moves a b) (sab : a.variant = .sab80535) {f : RequestFlag}
    (edge : a.levelled f = false) (set : a.flag f = true) : b.flag f = true := by
  -- By induction on the moves, none of which clears an edge flag.
  induction moves with
  | refl => exact set
  | @tail c d first last ih =>
    have same : c.levelled f = a.levelled f := levelled first sab f
    rcases last.flag_cases ((variant first).trans sab) f with kept | ⟨raised, -⟩ | level
    · exact kept.trans ih
    · exact raised
    · rw [same, edge] at level
      exact absurd level (by decide)

/-- And they set none of an external input that does not follow a level. -/
theorem flag_external (moves : Moves a b) (sab : a.variant = .sab80535) {f : RequestFlag}
    (edge : a.levelled f = false) (external : f.internal = false) : b.flag f = a.flag f := by
  -- By induction on the moves; a raised flag would be an internal one.
  induction moves with
  | refl => rfl
  | @tail c d first last ih =>
    have same : c.levelled f = a.levelled f := levelled first sab f
    rcases last.flag_cases ((variant first).trans sab) f with kept | ⟨-, internal⟩ | level
    · exact kept.trans ih
    · exact absurd (external.symm.trans internal) (by decide)
    · rw [same, edge] at level
      exact absurd level (by decide)

end Moves

end Emu80535
