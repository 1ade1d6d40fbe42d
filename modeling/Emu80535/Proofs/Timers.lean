import Emu80535.Lib.Counter
import Emu80535.Proofs.Overflow

/-! What Timers 0 and 2 have counted after any number of machine cycles. -/

namespace Emu80535

variable {ω : Type} {hooks : Hooks ω} {m n : Machine ω}

open Machine

/-! ### Pins -/

/-- A property of the CPU that pins and their requests cannot break. -/
structure KeepsPins (I : Cpu → Prop) : Prop where
  pins : ∀ (c : Cpu) (pins : PinState), I c → I { c with pins := pins }
  schedule : ∀ (c : Cpu) (q : Schedule), I c → I { c with schedule := q }
  clock : ∀ (c : Cpu) (cycle : Nat), I c → I { c with machineCycleCount := cycle }
  caches : ∀ (c : Cpu) (pending enabled : Word), I c →
    I { c with irqPending := pending, irqEnabled := enabled }
  request : ∀ (c : Cpu) (s : ExternalSource), I c →
    I (c.store s.irqSource.requestReg (c.sfr s.irqSource.requestReg ||| s.irqSource.requestMask))
  withdraw : ∀ (c : Cpu) (s : ExternalSource), I c →
    I (c.store s.irqSource.requestReg (c.sfr s.irqSource.requestReg &&& ~~~s.irqSource.requestMask))

namespace KeepsPins

variable {I : Cpu → Prop} (keeps : KeepsPins I)

include keeps

/-- One level input keeps the property, whose request is a bit of TCON. -/
theorem maintainLevelRequest (pins : Byte) {source : ExternalSource}
    (wired : source.irqSource.requestReg = Reg.tcon) (before : I n.cpu) :
    I (maintainLevelRequest hooks pins source n).cpu := by
  have raised := keeps.request n.cpu source before
  have cleared := keeps.withdraw n.cpu source before
  rw [wired] at raised cleared
  -- The three branches of `maintain_level_requests` with a note or a flag each.
  simp only [Emu80535.maintainLevelRequest]
  split
  · exact keeps.pins _ _ before
  · split
    · refine keeps.pins _ _ ?_
      rw [irqWrite_cpu]
      exact raised
    · split
      · exact keeps.pins _ _ cleared
      · exact before

/-- So do the two level inputs. -/
theorem maintainLevelRequests (before : I n.cpu) : I (maintainLevelRequests hooks n).cpu := by
  -- Both level inputs request through TCON.
  simp only [Emu80535.maintainLevelRequests]
  split
  · refine Fold.foldl_keeps (I := fun k : Machine ω => I k.cpu) (fun s member k held => ?_) before
    have wired : s.irqSource.requestReg = Reg.tcon := by
      rcases List.mem_pair.mp member with rfl | rfl
      · rfl
      · rfl
    exact keeps.maintainLevelRequest _ wired held
  · exact before

/-- So does a look at the pins. -/
theorem irqSync (before : I n.cpu) : I (irqSync hooks n).cpu :=
  keeps.caches _ _ _ (keeps.maintainLevelRequests before)

/-- So does the note of a trigger. -/
theorem noteLevel (source : ExternalSource) (trigger : ExternalTrigger) (before : I n.cpu) :
    I (noteLevel source trigger n).cpu := by
  -- Only a release withdraws a request, where one was asserted.
  cases trigger with
  | lowLevelAssert => exact keeps.pins _ _ before
  | levelRelease =>
    simp only [Emu80535.noteLevel]
    refine keeps.pins _ _ ?_
    split
    · exact keeps.withdraw _ _ before
    · exact before
  | nonQualifying | fallingEdge | risingEdge => exact before

/-- So does sampling a port. -/
theorem samplePort (port : SabPort) (before : I n.cpu) : I (samplePort hooks port n).cpu := by
  simp only [Emu80535.samplePort]
  split
  · -- Each input in turn, with the state that the one before it left.
    refine Fold.foldl_keeps (I := fun k : Machine ω => I k.cpu) (fun s _ k held => ?_) before
    simp only [sampleSource]
    split
    · split
      · exact held
      · -- A change records the sample, notes the trigger and requests on acceptance.
        simp only [observeChange, emit_cpu]
        refine keeps.irqSync ?_
        have noted := fun trigger => keeps.noteLevel (n := k.setSampled s.sampleBit
          (has (n.cpu.getPins port) s.pinMask)) s trigger (keeps.pins _ _ held)
        split
        · rw [irqWrite_cpu]
          exact keeps.request _ _ (noted _)
        · exact noted _
    · exact held
  · exact before

/-- Driving a port keeps it, since its inputs are sampled behind. -/
theorem redrive (port : SabPort) (mask levels : Byte) (before : I n.cpu) :
    I (redrive hooks port mask levels n).cpu := by
  rw [Emu80535.redrive]
  exact keeps.samplePort _ (keeps.pins _ _ before)

/-- So does a scheduled event. -/
theorem applyEvent (event : ScheduleEvent) (before : I n.cpu) :
    I (applyEvent hooks event n).2.cpu := by
  simp only [Emu80535.applyEvent, externalDrive, externalRelease, portDrive, portRelease]
  -- A drive and a release, each for a port or for a line that is one of its bits.
  split
  · split
    · exact before
    · split
      · exact before
      · exact keeps.redrive _ _ _ before
  · split
    · exact before
    · split
      · exact before
      · exact keeps.redrive _ _ _ before

/-- So do all events that are due. -/
theorem applyDue (fuel : Nat) (before : I n.cpu) : I (applyDue hooks fuel n).cpu := by
  -- By induction on the events that may be due.
  induction fuel generalizing n with
  | zero => exact before
  | succ fuel ih =>
    simp only [Emu80535.applyDue]
    split
    · split
      · exact before
      · exact ih (keeps.applyEvent _ (keeps.schedule _ _ before))
    · exact before

/-- So does the end of a machine cycle. -/
theorem completeMachineCycle (before : I n.cpu) : I (completeMachineCycle hooks n).cpu := by
  simp only [Emu80535.completeMachineCycle, applyScheduled]
  -- The cycle is counted, the events are applied, and the levels are looked at.
  refine keeps.maintainLevelRequests ?_
  have due := @applyDue ω hooks (n.mapCpu fun c =>
    { c with machineCycleCount := c.machineCycleCount + 1 }) I keeps
    (n.cpu.schedule.count) (keeps.clock _ _ before)
  split
  · exact keeps.schedule _ _ due
  · exact due

end KeepsPins

/-! ### The flags of the timers -/

/-- The run bit and the flag of Timer 0, and the flag of Timer 2. -/
def Cpu.timerBits (c : Cpu) : Byte × Byte :=
  (c.sfr Reg.tcon &&& (Tcon.tr0 ||| Tcon.tf0), c.sfr Reg.ircon &&& Ircon.tf2)

/-- Setting or clearing bits outside a mask does not show through it. -/
theorem masked_apart {x mask keep : Byte} (apart : mask &&& keep = 0#8) :
    (x ||| mask) &&& keep = x &&& keep ∧ (x &&& ~~~mask) &&& keep = x &&& keep := by
  -- Bit by bit: where the mask is set the kept bit is clear.
  have kept : ~~~mask &&& keep = keep := by
    apply BitVec.eq_of_getLsbD_eq
    intro i within
    have clear := congrArg (fun y : Byte => y.getLsbD i) apart
    simp only [BitVec.getLsbD_and, BitVec.getLsbD_not, within, decide_true, Bool.true_and] at clear ⊢
    revert clear
    cases mask.getLsbD i <;> simp
  constructor
  · rw [BitVec.and_or_distrib_right, apart, BitVec.or_zero]
  · rw [BitVec.and_assoc, kept]

/-- A store that does not show through either mask keeps the bits. -/
theorem timerBits_store (c : Cpu) {index : SfrIndex} {value : Byte}
    (tcon : index = Reg.tcon → value &&& (Tcon.tr0 ||| Tcon.tf0) =
      c.sfr Reg.tcon &&& (Tcon.tr0 ||| Tcon.tf0))
    (ircon : index = Reg.ircon → value &&& Ircon.tf2 = c.sfr Reg.ircon &&& Ircon.tf2) :
    (c.store index value).timerBits = c.timerBits := by
  -- A register either is the stored one or keeps its value.
  have entry : ∀ (at' : SfrIndex) (keep : Byte),
      (index = at' → value &&& keep = c.sfr at' &&& keep) →
      (c.store index value).sfr at' &&& keep = c.sfr at' &&& keep := by
    intro at' keep same
    by_cases here : at' = index
    · rw [← here]
      simp only [Cpu.store, Function.update_self]
      exact same here.symm
    · simp only [Cpu.store, Function.update_of_ne here]
  simp only [Cpu.timerBits, entry _ _ tcon, entry _ _ ircon]

/-- No external input requests through these bits. -/
theorem external_apart (s : ExternalSource) :
    (s.irqSource.requestReg = Reg.tcon →
      s.irqSource.requestMask &&& (Tcon.tr0 ||| Tcon.tf0) = 0#8) ∧
    (s.irqSource.requestReg = Reg.ircon → s.irqSource.requestMask &&& Ircon.tf2 = 0#8) := by
  cases s <;> decide

/-- Pins do not touch the bits of the timers. -/
theorem keepsPins_timerBits (bits : Byte × Byte) : KeepsPins fun c => c.timerBits = bits where
  pins := fun _ _ held => held
  schedule := fun _ _ held => held
  clock := fun _ _ held => held
  caches := fun _ _ _ held => held
  -- A request of a pin sets a bit outside both masks.
  request := fun c s held => by
    obtain ⟨tcon, ircon⟩ := external_apart s
    refine (timerBits_store c (fun here => ?_) (fun here => ?_)).trans held
    · rw [here]
      exact (masked_apart (tcon here)).1
    · rw [here]
      exact (masked_apart (ircon here)).1
  -- Withdrawing one clears such a bit.
  withdraw := fun c s held => by
    obtain ⟨tcon, ircon⟩ := external_apart s
    refine (timerBits_store c (fun here => ?_) (fun here => ?_)).trans held
    · rw [here]
      exact (masked_apart (tcon here)).2
    · rw [here]
      exact (masked_apart (ircon here)).2

/-- The bits of the timers stand as given. -/
def Machine.TimerBits (bits : Byte × Byte) (n : Machine ω) : Prop := n.cpu.timerBits = bits

namespace Machine.TimerBits

variable {bits : Byte × Byte}

/-- A branch of two continuations is one of them. -/
theorem ite {p : Prop} [Decidable p] {x y : Machine ω} (yes : x.TimerBits bits)
    (no : y.TimerBits bits) : (if p then x else y).TimerBits bits := by
  split
  · exact yes
  · exact no

variable (before : n.TimerBits bits)

include before

/-- Registers other than the two with flags do not matter. -/
theorem setSfr {index : SfrIndex} (value : Byte) (tcon : index ≠ Reg.tcon)
    (ircon : index ≠ Reg.ircon) : (n.setSfr index value).TimerBits bits :=
  (timerBits_store n.cpu (absurd · tcon) (absurd · ircon)).trans before

/-- Nor does counting one of them. -/
theorem incSfr {index : SfrIndex} (tcon : index ≠ Reg.tcon) (ircon : index ≠ Reg.ircon) :
    (n.incSfr index).TimerBits bits := before.setSfr _ tcon ircon

/-- Nor counting its low five bits. -/
theorem incSfrLow5 {index : SfrIndex} (tcon : index ≠ Reg.tcon) (ircon : index ≠ Reg.ircon) :
    (n.incSfrLow5 index).TimerBits bits := before.setSfr _ tcon ircon

/-- Nor does a flag of TCON other than that of Timer 0. -/
theorem raiseTcon {mask : Byte} (apart : mask &&& (Tcon.tr0 ||| Tcon.tf0) = 0#8) :
    (n.raiseTcon hooks mask).TimerBits bits := by
  refine Eq.trans ?_ before
  rw [Machine.raiseTcon, irqWrite_cpu]
  exact timerBits_store n.cpu (fun _ => (masked_apart apart).1) (absurd · (by decide))

/-- Nor does that of Timer 1. -/
theorem raiseTf1 : (raiseTf1 hooks n).TimerBits bits := by
  simp only [Emu80535.raiseTf1]
  exact ite before (before.raiseTcon (by decide))

/-- Nor does anything whose scope leaves the two registers alone. -/
theorem of_within {journal : Option (Journal hooks)} {scope : Scope} {k : Machine ω}
    (within : Within journal scope n k) (tcon : Reg.tcon ∉ scope.regs)
    (ircon : Reg.ircon ∉ scope.regs) : k.TimerBits bits := by
  refine Eq.trans ?_ before
  simp only [Cpu.timerBits, within.sfr _ tcon, within.sfr _ ircon]

/-- Nor does the report of an overflow. -/
theorem timerOverflowEmit (timer : TimerId) : (timerOverflowEmit hooks timer n).TimerBits bits := by
  -- An overflow of Timer 1 clocks the serial port, which has its own register.
  have clocked : ∀ k : Machine ω, k.TimerBits bits → (uartTimer1Overflow hooks k).TimerBits bits := by
    intro k held
    have within : Within none serialScope k (uartTimer1Overflow hooks k) :=
      (Within.refl k).uartTimer1Overflow rfl (by decide) (by decide) fun _ _ _ _ _ _ _ => rfl
    exact held.of_within within (by decide) (by decide)
  simp only [Emu80535.timerOverflowEmit]
  refine ite ?_ ?_
  all_goals exact ite (clocked _ before) before

/-- Nor the state of the other variant. -/
theorem mapClassic (f : Cpu → ClassicState) : (n.mapClassic f).TimerBits bits := before

/-- Nor its serial port. -/
theorem classicSerial : (classicSerial n).TimerBits bits := by
  -- It takes down the flag of Timer 1, which is not one of these.
  have cleared : ∀ k : Machine ω, k.TimerBits bits → (k.clearFlags Reg.tcon Tcon.tf1).TimerBits bits :=
    fun k held => (timerBits_store k.cpu (fun _ => (masked_apart (by decide)).2)
      (absurd · (by decide))).trans held
  have sent : (serialTx n).TimerBits bits := by
    simp only [serialTx, serialSent]
    refine ite before (ite ?_ ?_)
    · exact ((((before.mapClassic _).setSfr _ (by decide) (by decide)).mapClassic _).setSfr _
        (by decide) (by decide)).mapClassic _
    · exact (before.mapClassic _).setSfr _ (by decide) (by decide)
  simp only [Emu80535.classicSerial]
  exact ite (cleared _ sent) before

/-- Timer 1 has a flag of its own. -/
theorem timer1Tick : (timer1Tick hooks n).TimerBits bits := by
  simp only [Emu80535.timer1Tick, timer1Count]
  -- Thirteen bits, sixteen bits and reload, each with its carries.
  refine ite (classicSerial (ite (ite (ite ?_ ?_) ?_) (ite (ite (ite ?_ ?_) ?_)
    (ite (ite (ite ?_ ?_) ?_) before)))) before
  · exact ((before.incSfrLow5 (by decide) (by decide)).incSfr (by decide) (by decide)).raiseTf1
  · exact (before.incSfrLow5 (by decide) (by decide)).incSfr (by decide) (by decide)
  · exact before.incSfrLow5 (by decide) (by decide)
  · exact ((before.incSfr (by decide) (by decide)).incSfr (by decide) (by decide)).raiseTf1
  · exact (before.incSfr (by decide) (by decide)).incSfr (by decide) (by decide)
  · exact before.incSfr (by decide) (by decide)
  · exact (before.incSfr (by decide) (by decide)).setSfr _ (by decide) (by decide)
  · exact (((before.incSfr (by decide) (by decide)).setSfr _ (by decide) (by decide)).raiseTcon
      (by decide)).timerOverflowEmit _
  · exact before.incSfr (by decide) (by decide)

/-- Nor a look at the pins. -/
theorem irqSync : (irqSync hooks n).TimerBits bits := (keepsPins_timerBits bits).irqSync before

/-- The converter has one in the same register as Timer 2. -/
theorem adcTick : (adcTick hooks n).TimerBits bits := by
  -- The busy flag is one of ADCON.
  have busy : ∀ (k : Machine ω) (b : Bool), k.TimerBits bits → (k.setBusy b).TimerBits bits :=
    fun k b held => TimerBits.setSfr (n := k.mapAdc _) held _ (by decide) (by decide)
  -- The request is another bit of IRCON.
  have done : ∀ k : Machine ω, k.TimerBits bits → (k.irqWrite hooks Reg.ircon
      (k.cpu.sfr Reg.ircon ||| Ircon.iadc) (n.cpu.machineCycleCount + 1)).TimerBits bits := by
    intro k held
    refine Eq.trans ?_ held
    rw [irqWrite_cpu]
    exact timerBits_store k.cpu (absurd · (by decide)) fun _ => (masked_apart (by decide)).1
  simp only [Emu80535.adcTick, adcLatch, adcComplete]
  -- The conversion is running, or begins, or ends here.
  refine ite before (ite ?_ (ite before (ite before ?_)))
  · exact busy _ true before
  · refine TimerBits.irqSync (n := _) (done _ (busy _ false (ite ?_ before)))
    exact TimerBits.setSfr (n := n.mapAdc _) before _ (by decide) (by decide)

/-- Nor the end of a machine cycle. -/
theorem completeMachineCycle : (completeMachineCycle hooks n).TimerBits bits :=
  (keepsPins_timerBits bits).completeMachineCycle before

end Machine.TimerBits

/-- A tick of Timer 1 leaves the flags of the other two. -/
theorem timer1Tick_timerBits (n : Machine ω) :
    (timer1Tick hooks n).cpu.timerBits = n.cpu.timerBits := TimerBits.timer1Tick (n := n) rfl

/-- So does one of the converter. -/
theorem adcTick_timerBits (n : Machine ω) :
    (adcTick hooks n).cpu.timerBits = n.cpu.timerBits := TimerBits.adcTick (n := n) rfl

/-- So does the end of the cycle. -/
theorem completeMachineCycle_timerBits (n : Machine ω) :
    (completeMachineCycle hooks n).cpu.timerBits = n.cpu.timerBits :=
  TimerBits.completeMachineCycle (n := n) rfl

/-! ### Timer 0 -/

/-- The three modes in which Timer 0 is one timer. -/
inductive Timer0Mode where
  | thirteenBit
  | sixteenBit
  | autoReload
  deriving DecidableEq, Repr

namespace Timer0Mode

/-- The mode bits in TMOD. -/
def bits : Timer0Mode → Byte
  | thirteenBit => 0#8
  | sixteenBit => Tmod.m0T0
  | autoReload => Tmod.m1T0

/-- The value that counts, over the high and the low byte. -/
def value : Timer0Mode → Byte → Byte → Nat
  | thirteenBit, th, tl => th.toNat * 32 + (tl &&& 0x1F#8).toNat
  | sixteenBit, th, tl => th.toNat * 256 + tl.toNat
  | autoReload, _, tl => tl.toNat

/-- The number of values a mode has. -/
def top : Timer0Mode → Nat
  | thirteenBit => 8192
  | sixteenBit => 65536
  | autoReload => 256

/-- The value that follows the last one. -/
def reload : Timer0Mode → Byte → Nat
  | thirteenBit, _ | sixteenBit, _ => 0
  | autoReload, th => th.toNat

/-- The bytes a machine cycle leaves, and whether it wraps. -/
def next : Timer0Mode → Byte → Byte → (Byte × Byte) × Bool
  | thirteenBit, th, tl =>
    let low := (tl &&& ~~~0x1F#8) ||| (((tl &&& 0x1F#8) + 1#8) &&& 0x1F#8)
    if tl &&& 0x1F#8 = 0x1F#8 then ((th + 1#8, low), decide (th = 0xFF#8)) else ((th, low), false)
  | sixteenBit, th, tl =>
    if tl = 0xFF#8 then ((th + 1#8, tl + 1#8), decide (th = 0xFF#8)) else ((th, tl + 1#8), false)
  | autoReload, th, tl => if tl = 0xFF#8 then ((th, th), true) else ((th, tl + 1#8), false)

/-- A value is below the top. -/
theorem value_lt (mode : Timer0Mode) (th tl : Byte) : mode.value th tl < mode.top := by
  have high := th.isLt
  have low := tl.isLt
  have digit : (tl &&& 0x1F#8).toNat < 32 := by
    rw [BitVec.toNat_and]
    exact Nat.lt_of_le_of_lt Nat.and_le_right (by decide)
  cases mode <;> simp only [value, top] <;> omega

/-- So is a reload. -/
theorem reload_lt (mode : Timer0Mode) (th : Byte) : mode.reload th < mode.top := by
  have high := th.isLt
  cases mode <;> simp only [reload, top] <;> omega

end Timer0Mode

/-- Adding one to the low five bits. -/
theorem low5_next (v : Byte) :
    ((v &&& ~~~0x1F#8) ||| (((v &&& 0x1F#8) + 1#8) &&& 0x1F#8)) &&& 0xE0#8 = v &&& 0xE0#8 ∧
      (((v &&& ~~~0x1F#8) ||| (((v &&& 0x1F#8) + 1#8) &&& 0x1F#8)) &&& 0x1F#8).toNat =
        if v &&& 0x1F#8 = 0x1F#8 then 0 else (v &&& 0x1F#8).toNat + 1 := by
  revert v
  decide +kernel

/-- Adding one to a byte. -/
theorem byte_next (v : Byte) : (v + 1#8).toNat = if v = 0xFF#8 then 0 else v.toNat + 1 := by
  revert v
  decide +kernel

/-- The bytes count like one number. -/
theorem Timer0Mode.next_value (mode : Timer0Mode) (th tl : Byte) :
    let done := mode.next th tl
    done.2 = decide (mode.value th tl + 1 = mode.top) ∧
      mode.value done.1.1 done.1.2 =
        (if done.2 then mode.reload th else mode.value th tl + 1) ∧
      mode.reload done.1.1 = mode.reload th ∧
      (mode = .thirteenBit → done.1.2 &&& 0xE0#8 = tl &&& 0xE0#8) := by
  -- The bounds of the two bytes and of their successors are what the arithmetic needs.
  have above := th.isLt
  have below := tl.isLt
  have high := byte_next th
  have low := byte_next tl
  have full : ∀ v : Byte, v = 0xFF#8 ↔ v.toNat = 255 := fun v => BitVec.toNat_inj.symm
  -- In each mode the low byte carries into the high one, or does not.
  cases mode with
  -- The low byte of mode 0 counts five of its bits, and the other three stay.
  | thirteenBit =>
    obtain ⟨unused, digit⟩ := low5_next tl
    have carry : tl &&& 0x1F#8 = 0x1F#8 ↔ (tl &&& 0x1F#8).toNat = 31 := BitVec.toNat_inj.symm
    have narrow : (tl &&& 0x1F#8).toNat < 32 := by
      rw [BitVec.toNat_and]
      exact Nat.lt_of_le_of_lt Nat.and_le_right (by decide)
    simp only [Timer0Mode.next, Timer0Mode.value, Timer0Mode.top, Timer0Mode.reload]
    have wide := full th
    split
    · rename_i carries
      rw [if_pos carries] at digit
      rw [carry] at carries
      generalize (tl &&& ~~~0x1F#8) ||| (((tl &&& 0x1F#8) + 1#8) &&& 0x1F#8) = next at unused digit ⊢
      grind
    · rename_i stays
      rw [if_neg stays] at digit
      rw [carry] at stays
      generalize (tl &&& ~~~0x1F#8) ||| (((tl &&& 0x1F#8) + 1#8) &&& 0x1F#8) = next at unused digit ⊢
      grind
  | sixteenBit =>
    simp only [Timer0Mode.next, Timer0Mode.value, Timer0Mode.top, Timer0Mode.reload]
    have wide := full th
    have carry := full tl
    split <;> grind
  -- On a wrap the low byte is taken from the high one, which stays.
  | autoReload =>
    simp only [Timer0Mode.next, Timer0Mode.value, Timer0Mode.top, Timer0Mode.reload]
    have carry := full tl
    split <;> grind

/-! The elementary stores of a timer, as the rules that `simp` runs its functions with. -/

/-- The registers behind a store. -/
@[simp] theorem Cpu.store_sfr (c : Cpu) (index : SfrIndex) (value : Byte) :
    (c.store index value).sfr = Function.update c.sfr index value := rfl

/-- A store counts no overflow. -/
@[simp] theorem Cpu.store_overflow (c : Cpu) (index : SfrIndex) (value : Byte) :
    (c.store index value).timerOverflowCount = c.timerOverflowCount := rfl

/-- Incrementing a register stores its successor. -/
theorem incSfr_cpu (index : SfrIndex) (n : Machine ω) :
    (n.incSfr index).cpu = n.cpu.store index (n.cpu.sfr index + 1#8) := rfl

/-- Incrementing its low five bits leaves the others. -/
theorem incSfrLow5_cpu (index : SfrIndex) (n : Machine ω) :
    (n.incSfrLow5 index).cpu = n.cpu.store index
      ((n.cpu.sfr index &&& ~~~0x1F#8) |||
        (((n.cpu.sfr index &&& 0x1F#8) + 1#8) &&& 0x1F#8)) := rfl

/-- Setting a register is a store. -/
theorem setSfr_cpu (index : SfrIndex) (value : Byte) (n : Machine ω) :
    (n.setSfr index value).cpu = n.cpu.store index value := rfl

/-- Raising a flag of TCON stores it with the flag. -/
theorem raiseTcon_cpu (mask : Byte) (n : Machine ω) :
    (n.raiseTcon hooks mask).cpu = n.cpu.store Reg.tcon (n.cpu.sfr Reg.tcon ||| mask) :=
  irqWrite_cpu ..

/-- A wrap of a timer that does not clock the serial port is counted. -/
theorem timerOverflowEmit_cpu {timer : TimerId} (other : timer ≠ .timer1) (n : Machine ω) :
    (timerOverflowEmit hooks timer n).cpu = { n.cpu with
      timerOverflowCount :=
        Function.update n.cpu.timerOverflowCount timer (n.cpu.timerOverflowCount timer + 1) } := by
  simp only [timerOverflowEmit, other, false_and, if_false]
  split <;> rfl

/-- Unless it is aborted on the way, it is reported. -/
theorem timerOverflowEmit_reports (journal : Journal hooks) {timer : TimerId}
    (other : timer ≠ .timer1) (n : Machine ω)
    (kept : (timerOverflowEmit hooks timer n).aborted hooks = false) :
    journal.read (timerOverflowEmit hooks timer n).host = journal.read n.host ++
      [.timerOverflow timer (n.cpu.machineCycleCount + 1) (n.cpu.sfr timer.regs.1)
        (n.cpu.sfr timer.regs.2)] := by
  -- Only Timer 1 clocks the serial port on its way to the report.
  simp only [timerOverflowEmit, other, false_and, if_false] at kept ⊢
  -- An abort in between would still be there at the end.
  split at kept
  · rename_i aborted
    exact absurd (aborted.symm.trans kept) (by decide)
  · rename_i unaborted
    rw [if_neg unaborted]
    exact journal.emit _ _

/-- What the Timer 0 block stores and counts. -/
structure Timer0Stores (mode : Timer0Mode) (done : (Byte × Byte) × Bool) (a b : Cpu) : Prop where
  high : b.sfr Reg.th0 = done.1.1
  low : b.sfr Reg.tl0 = done.1.2
  tcon : b.sfr Reg.tcon = if done.2 then a.sfr Reg.tcon ||| Tcon.tf0 else a.sfr Reg.tcon
  count : b.timerOverflowCount .timer0 =
    a.timerOverflowCount .timer0 + (done.2 && mode == .sixteenBit).toNat

/-- The Timer 0 block takes the bytes to the next ones. -/
theorem timer0Tick_stores (mode : Timer0Mode) (n : Machine ω) (runs : n.cpu.timer0Runs = true)
    (set : n.cpu.sfr Reg.tmod &&& Tmod.t0Mode3 = mode.bits) :
    Timer0Stores mode (mode.next (n.cpu.sfr Reg.th0) (n.cpu.sfr Reg.tl0)) n.cpu
      (timer0Tick hooks n).cpu := by
  have apart : Tmod.m0T0 ≠ 0#8 ∧ Tmod.m1T0 ≠ 0#8 ∧ Tmod.m1T0 ≠ Tmod.m0T0 := by decide
  have emitted := fun k => @timerOverflowEmit_cpu ω hooks .timer0 (by decide) k
  rw [timer0Tick, if_pos runs]
  -- The bits of the mode select the branch, and the wraps lead through it.
  cases mode with
  -- Mode 0 carries out of five bits.
  | thirteenBit =>
    have kept : (n.incSfrLow5 Reg.tl0).cpu.sfr Reg.th0 = n.cpu.sfr Reg.th0 := by
      simp +decide [incSfrLow5_cpu]
    simp only [set, Timer0Mode.bits, if_true, Timer0Mode.next, kept]
    by_cases carries : n.cpu.sfr Reg.tl0 &&& 0x1F#8 = 0x1F#8
    · simp only [if_pos carries]
      -- A wrap of both bytes sets the flag and counts the overflow.
      by_cases wraps : n.cpu.sfr Reg.th0 = 0xFF#8
      · simp only [if_pos wraps]
        constructor <;> simp +decide [raiseTcon_cpu, incSfr_cpu, incSfrLow5_cpu, wraps]
      · simp only [if_neg wraps]
        constructor <;> simp +decide [incSfr_cpu, incSfrLow5_cpu, wraps]
    · simp only [if_neg carries]
      constructor <;> simp +decide [incSfrLow5_cpu]
  -- Mode 1 carries out of eight.
  | sixteenBit =>
    have kept : (n.incSfr Reg.tl0).cpu.sfr Reg.th0 = n.cpu.sfr Reg.th0 := by
      simp +decide [incSfr_cpu]
    simp only [set, Timer0Mode.bits, if_neg apart.1, if_true, Timer0Mode.next, kept]
    by_cases carries : n.cpu.sfr Reg.tl0 = 0xFF#8
    · simp only [if_pos carries]
      by_cases wraps : n.cpu.sfr Reg.th0 = 0xFF#8
      · simp only [if_pos wraps]
        constructor <;> simp +decide [emitted, raiseTcon_cpu, incSfr_cpu, wraps, carries]
      · simp only [if_neg wraps]
        constructor <;> simp +decide [incSfr_cpu, wraps, carries]
    · simp only [if_neg carries]
      constructor <;> simp +decide [incSfr_cpu]
  -- Mode 2 reloads, and the high byte is not touched.
  | autoReload =>
    have kept : (n.incSfr Reg.tl0).cpu.sfr Reg.th0 = n.cpu.sfr Reg.th0 := by
      simp +decide [incSfr_cpu]
    simp only [set, Timer0Mode.bits, if_neg apart.2.1, if_neg apart.2.2, if_true, Timer0Mode.next]
    by_cases wraps : n.cpu.sfr Reg.tl0 = 0xFF#8
    · simp only [if_pos wraps, kept]
      constructor <;> simp +decide [raiseTcon_cpu, setSfr_cpu, incSfr_cpu]
    · simp only [if_neg wraps]
      constructor <;> simp +decide [incSfr_cpu]

/-! ### Timer 1 in the way -/

/-- Everything a cycle of Timer 1 can touch. -/
def timer1CycleScope : Scope where
  regs := [Reg.tl1, Reg.th1, Reg.tcon, Reg.scon, Reg.sbuf, Reg.p3]
  uart := true
  overflow := some .timer1
  emits record := (record matches .timerOverflow .timer1 ..) || (record matches .uart ..)

/-- A tick of Timer 1 stays within what belongs to it. -/
theorem Within.timer1Ticks (journal : Option (Journal hooks)) (n : Machine ω) :
    Within journal timer1CycleScope n (timer1Tick hooks n) := by
  have still : Within journal timer1CycleScope n n := refl n
  have emitted : ∀ k : Machine ω, Within journal timer1CycleScope n k →
      Within journal timer1CycleScope n (Emu80535.timerOverflowEmit hooks .timer1 k) := by
    -- Its overflow is counted and reported, and may clock the serial port.
    intro k before
    have counted := @count ω hooks journal timer1CycleScope n k before .timer1
      (k.cpu.timerOverflowCount .timer1 + 1) rfl
    simp only [Emu80535.timerOverflowEmit, true_and]
    refine ite ?_ (emit ?_ rfl)
    all_goals
      exact ite (counted.uartTimer1Overflow rfl (by decide) (by decide) fun _ _ _ _ _ _ _ => rfl)
        counted
  simp only [timer1Tick, timer1Count]
  -- The modes as in the source, each with its carries.
  refine ite (classicSerial (ite (ite (ite ?_ ?_) ?_) (ite (ite (ite ?_ ?_) ?_)
    (ite (ite (ite ?_ ?_) ?_) still))) (by decide) (by decide) (by decide)) still
  · exact ((still.incSfrLow5 (by decide)).incSfr (by decide)).raiseTf1 (by decide)
  · exact (still.incSfrLow5 (by decide)).incSfr (by decide)
  · exact still.incSfrLow5 (by decide)
  · exact ((still.incSfr (by decide)).incSfr (by decide)).raiseTf1 (by decide)
  · exact (still.incSfr (by decide)).incSfr (by decide)
  · exact still.incSfr (by decide)
  · exact (still.incSfr (by decide)).setSfr _ (by decide)
  · exact emitted _ (((still.incSfr (by decide)).setSfr _ (by decide)).raiseTcon _ (by decide))
  · exact still.incSfr (by decide)

/-! ### Timer 2 -/

/-- The sixteen-bit value of Timer 2. -/
def Cpu.timer2Value (c : Cpu) : Nat := (c.sfr Reg.th2).toNat * 256 + (c.sfr Reg.tl2).toNat

/-- What a cycle in which Timer 2 counts does, wrapping or not. -/
structure Timer2Counts (wraps : Bool) (a b : Cpu) : Prop where
  last : wraps = decide (a.timer2Value + 1 = 65536)
  value : b.timer2Value = if wraps then 0 else a.timer2Value + 1
  count : b.timerOverflowCount .timer2 = a.timerOverflowCount .timer2 + wraps.toNat
  bits : b.timerBits = (a.timerBits.1, if wraps then Ircon.tf2 else a.timerBits.2)

/-- A word and its two bytes. -/
theorem word_bytes (th tl : Byte) :
    let next : Word := (th ++ tl) + 1#16
    ((next >>> 8).setWidth 8 : Byte).toNat * 256 + (next.setWidth 8 : Byte).toNat = next.toNat ∧
      next.toNat = if th.toNat * 256 + tl.toNat + 1 = 65536 then 0
        else th.toNat * 256 + tl.toNat + 1 := by
  -- The bytes do not overlap, so joining them is adding.
  have joined : (th ++ tl : Word).toNat = th.toNat * 256 + tl.toNat := by
    rw [BitVec.toNat_append, Nat.shiftLeft_eq, Nat.mul_comm, ← Nat.two_pow_add_eq_or_of_lt tl.isLt]
  have high := th.isLt
  have low := tl.isLt
  constructor
  · -- Splitting the word again gives quotient and remainder.
    simp only [BitVec.toNat_setWidth, BitVec.toNat_ushiftRight, Nat.shiftRight_eq_div_pow]
    have bound := ((th ++ tl : Word) + 1#16).isLt
    omega
  · -- Addition on words wraps once.
    rw [BitVec.toNat_add, joined]
    split <;> simp <;> omega

/-- The next value of Timer 2, as it is computed. -/
def Cpu.timer2Next (c : Cpu) : Word := (c.sfr Reg.th2 ++ c.sfr Reg.tl2) + 1#16

/-- Timer 2 with its next value stored. -/
def timer2Stored (n : Machine ω) : Machine ω :=
  (n.setSfr Reg.tl2 (n.cpu.timer2Next.setWidth 8)).setSfr Reg.th2
    ((n.cpu.timer2Next >>> 8).setWidth 8)

/-- A wrap of Timer 2 raises its flag and is reported. -/
def timer2Wrapped (hooks : Hooks ω) (k : Machine ω) : Machine ω :=
  timerOverflowEmit hooks .timer2
    (k.irqWrite hooks Reg.ircon (k.cpu.sfr Reg.ircon ||| Ircon.tf2) (k.cpu.machineCycleCount + 1))

/-- The value after the last one is zero. -/
theorem timer2Next_toNat (c : Cpu) :
    (c.timer2Next = 0#16 ↔ c.timer2Value + 1 = 65536) ∧
      c.timer2Next.toNat = if c.timer2Value + 1 = 65536 then 0 else c.timer2Value + 1 := by
  have next := (word_bytes (c.sfr Reg.th2) (c.sfr Reg.tl2)).2
  refine ⟨?_, next⟩
  have same : c.timer2Next = 0#16 ↔ c.timer2Next.toNat = 0 := BitVec.toNat_inj.symm
  rw [same, Cpu.timer2Next, next]
  unfold Cpu.timer2Value
  split <;> omega

/-- What Timer 2 does where it counts and nothing aborts it. -/
theorem timer2Tick_eq (n : Machine ω) (sab : n.cpu.variant = .sab80535)
    (counts : n.cpu.timer2Counts = true) (kept : (timer2Tick hooks n).aborted hooks = false) :
    timer2Tick hooks n =
        (if n.cpu.timer2Next = 0#16 then irqSync hooks (timer2Wrapped hooks (timer2Stored n))
        else timer2Stored n) ∧
      (n.cpu.timer2Next = 0#16 →
        (timer2Wrapped hooks (timer2Stored n)).aborted hooks = false) := by
  -- The two tests of the source, without the state in between.
  have shape : timer2Tick hooks n =
      if n.cpu.timer2Next = 0#16 then
        if (timer2Wrapped hooks (timer2Stored n)).aborted hooks then
          timer2Wrapped hooks (timer2Stored n)
        else irqSync hooks (timer2Wrapped hooks (timer2Stored n))
      else timer2Stored n := by
    rw [timer2Tick, if_pos ⟨sab, counts⟩]
    rfl
  rw [shape] at kept ⊢
  -- Only a wrap is reported, and only it can be aborted.
  by_cases wraps : n.cpu.timer2Next = 0#16
  · rw [if_pos wraps] at kept ⊢
    cases aborted : (timer2Wrapped hooks (timer2Stored n)).aborted hooks with
    | true =>
      rw [if_pos aborted] at kept
      exact absurd (aborted.symm.trans kept) (by decide)
    | false =>
      rw [if_pos wraps, if_neg Bool.false_ne_true]
      exact ⟨rfl, fun _ => rfl⟩
  · rw [if_neg wraps, if_neg wraps]
    exact ⟨rfl, fun wrapped => absurd wrapped wraps⟩

/-- Timer 2 counts one where it counts at all. -/
theorem timer2Tick_counts (n : Machine ω) (sab : n.cpu.variant = .sab80535)
    (counts : n.cpu.timer2Counts = true) (kept : (timer2Tick hooks n).aborted hooks = false) :
    ∃ wraps, Timer2Counts wraps n.cpu (timer2Tick hooks n).cpu := by
  obtain ⟨zero, next⟩ := timer2Next_toNat n.cpu
  -- The two bytes are those of the next number.
  have cells : (timer2Stored n).cpu.timer2Value = n.cpu.timer2Next.toNat := by
    have bytes := (word_bytes (n.cpu.sfr Reg.th2) (n.cpu.sfr Reg.tl2)).1
    rw [Cpu.timer2Next, ← bytes]
    simp +decide [timer2Stored, Cpu.timer2Value, Cpu.timer2Next]
  -- Storing them touches no flag.
  have bits : (timer2Stored n).cpu.timerBits = n.cpu.timerBits :=
    ((show n.TimerBits n.cpu.timerBits from rfl).setSfr _ (by decide) (by decide)).setSfr _
      (by decide) (by decide)
  have overflow : (timer2Stored n).cpu.timerOverflowCount = n.cpu.timerOverflowCount := rfl
  rw [(timer2Tick_eq n sab counts kept).1]
  generalize timer2Stored n = k at cells bits overflow
  -- On a wrap the flag is set, the overflow counted and the pins looked at.
  by_cases wraps : n.cpu.timer2Next = 0#16
  · rw [if_pos wraps]
    have told : (timer2Wrapped hooks k).cpu =
        { k.cpu.store Reg.ircon (k.cpu.sfr Reg.ircon ||| Ircon.tf2) with
          timerOverflowCount := Function.update k.cpu.timerOverflowCount .timer2
            (k.cpu.timerOverflowCount .timer2 + 1) } := by
      rw [timer2Wrapped, timerOverflowEmit_cpu (by decide), irqWrite_cpu]
      rfl
    generalize timer2Wrapped hooks k = r at told
    -- Looking at the pins leaves the bytes, the count and the flags.
    have within : Within none pinScope r (irqSync hooks r) := (Within.refl r).irqSync (by decide)
    have synced : (irqSync hooks r).cpu.timerBits = r.cpu.timerBits :=
      TimerBits.irqSync (n := r) rfl
    -- The flag is set, whatever it was.
    have absorbed : ∀ x : Byte, (x ||| Ircon.tf2) &&& Ircon.tf2 = Ircon.tf2 := by decide +kernel
    refine ⟨true, ⟨(decide_eq_true (zero.mp wraps)).symm, ?_, ?_, ?_⟩⟩
    · have same : (irqSync hooks r).cpu.timer2Value = k.cpu.timer2Value := by
        simp only [Cpu.timer2Value, within.sfr Reg.th2 (by decide), within.sfr Reg.tl2 (by decide),
          told]
        simp +decide
      rw [same, cells, wraps]
      rfl
    · rw [within.overflow .timer2 (by decide), told, overflow]
      simp
    · rw [synced, told, ← bits]
      simp only [Cpu.timerBits, Cpu.store_sfr, Function.update_self, absorbed, if_true]
      rw [Function.update_of_ne (by decide)]
  · -- Without one nothing but the bytes has changed.
    rw [if_neg wraps]
    have last : ¬n.cpu.timer2Value + 1 = 65536 := fun top => wraps (zero.mpr top)
    refine ⟨false, ⟨(decide_eq_false last).symm, ?_, ?_, ?_⟩⟩
    · rw [cells, next]
      exact if_neg last
    · rw [overflow]
      simp
    · rw [bits]
      rfl

/-- It reports its wraps and nothing else. -/
theorem timer2Tick_reports (journal : Journal hooks) (n : Machine ω)
    (sab : n.cpu.variant = .sab80535) (counts : n.cpu.timer2Counts = true)
    (kept : (timer2Tick hooks n).aborted hooks = false) :
    journal.read (timer2Tick hooks n).host = journal.read n.host ++
      if n.cpu.timer2Value + 1 = 65536 then
        [.timerOverflow .timer2 (n.cpu.machineCycleCount + 1) 0#8 0#8]
      else [] := by
  obtain ⟨zero, -⟩ := timer2Next_toNat n.cpu
  -- Storing the flag and refreshing the caches tell the observer but add no record.
  have silent : ∀ {a b : Machine ω}, Within (some journal) { regs := [Reg.tcon, Reg.ircon] } a b →
      journal.read b.host = journal.read a.host := by
    intro a b within
    obtain ⟨added, same, none⟩ := within.records journal rfl
    cases added with
    | nil => rw [same, List.append_nil]
    | cons first rest => exact absurd (none first List.mem_cons_self) Bool.false_ne_true
  obtain ⟨same, unaborted⟩ := timer2Tick_eq n sab counts kept
  rw [same]
  by_cases wraps : n.cpu.timer2Next = 0#16
  · rw [if_pos wraps, if_pos (zero.mp wraps)]
    have whole := unaborted wraps
    have stored := zero.mp wraps
    have raised : Within (some journal) { regs := [Reg.tcon, Reg.ircon] } (timer2Stored n)
        ((timer2Stored n).irqWrite hooks Reg.ircon ((timer2Stored n).cpu.sfr Reg.ircon ||| Ircon.tf2)
          ((timer2Stored n).cpu.machineCycleCount + 1)) :=
      (Within.refl _).irqWrite _ _ (by decide)
    have host := silent raised
    have synced : Within (some journal) { regs := [Reg.tcon, Reg.ircon] }
        (timer2Wrapped hooks (timer2Stored n))
        (irqSync hooks (timer2Wrapped hooks (timer2Stored n))) :=
      (Within.refl _).irqSync (by decide)
    have told := timerOverflowEmit_reports journal (by decide) _ whole
    have value : (timer2Stored n).cpu.sfr Reg.tl2 = 0#8 ∧ (timer2Stored n).cpu.sfr Reg.th2 = 0#8 := by
      simp +decide [timer2Stored, wraps]
    rw [silent synced, timer2Wrapped, told, host, irqWrite_cpu]
    simp only [TimerId.regs, setSfr_sfr]
    rw [Function.update_of_ne (by decide), Function.update_of_ne (by decide), value.1, value.2]
    rfl
  · rw [if_neg wraps, if_neg fun top => wraps (zero.mpr top), List.append_nil]
    rfl

/-- Where it does not count, it does nothing. -/
theorem timer2Tick_still (n : Machine ω) (still : n.cpu.timer2Counts = false) :
    timer2Tick hooks n = n := by
  simp [timer2Tick, still]

/-- Timer 2 does not touch the bits of Timer 0. -/
theorem timer2Tick_timer0Bits (n : Machine ω)
    (kept : (timer2Tick hooks n).aborted hooks = false) :
    (timer2Tick hooks n).cpu.timerBits.1 = n.cpu.timerBits.1 := by
  -- Timer 2 counts, stands still, or belongs to no such variant.
  by_cases sab : n.cpu.variant = .sab80535
  · cases counts : n.cpu.timer2Counts with
    | false => rw [timer2Tick_still n counts]
    | true =>
      obtain ⟨wraps, counted⟩ := timer2Tick_counts n sab counts kept
      rw [counted.bits]
  · rw [timer2Tick, if_neg fun both => sab both.1]

/-! ### Whole machine cycles -/

/-- What shows through a mask decides the flags within it. -/
theorem has_of_masked {x y keep flag : Byte} (same : x &&& keep = y &&& keep)
    (within : keep &&& flag = flag) : has x flag = has y flag := by
  simp only [has]
  rw [← within, ← BitVec.and_assoc, same, BitVec.and_assoc]

/-- What a whole machine cycle does to a Timer 0 that runs in one of its modes. -/
structure Timer0Step (mode : Timer0Mode) (wraps : Bool) (a b : Cpu) : Prop where
  last : wraps = decide (mode.value (a.sfr Reg.th0) (a.sfr Reg.tl0) + 1 = mode.top)
  value : mode.value (b.sfr Reg.th0) (b.sfr Reg.tl0) =
    if wraps then mode.reload (a.sfr Reg.th0)
    else mode.value (a.sfr Reg.th0) (a.sfr Reg.tl0) + 1
  reload : mode.reload (b.sfr Reg.th0) = mode.reload (a.sfr Reg.th0)
  /-- The thirteen-bit mode keeps three bits of its low byte. -/
  unused : mode = .thirteenBit → b.sfr Reg.tl0 &&& 0xE0#8 = a.sfr Reg.tl0 &&& 0xE0#8
  count : b.timerOverflowCount .timer0 =
    a.timerOverflowCount .timer0 + (wraps && mode == .sixteenBit).toNat
  tmod : b.sfr Reg.tmod = a.sfr Reg.tmod
  run : has (b.sfr Reg.tcon) Tcon.tr0 = has (a.sfr Reg.tcon) Tcon.tr0
  flag : has (b.sfr Reg.tcon) Tcon.tf0 = (has (a.sfr Reg.tcon) Tcon.tf0 || wraps)

/-- A whole machine cycle counts Timer 0 once. -/
theorem advanceMachineCycle_timer0 (kept : (advanceMachineCycle hooks m).aborted hooks = false)
    (mode : Timer0Mode) (runs : m.cpu.timer0Runs = true)
    (set : m.cpu.sfr Reg.tmod &&& Tmod.t0Mode3 = mode.bits) :
    ∃ wraps, Timer0Step mode wraps m.cpu (advanceMachineCycle hooks m).cpu := by
  have whole := advanceMachineCycle_whole kept
  have quiet : isVolatile m.cpu.variant Reg.tmod = false := by cases m.cpu.variant <;> rfl
  have tmod := steady_sfr_eq (advanceMachineCycle_steady hooks m) quiet
  -- In these modes Timer 0 is not split.
  have begun : timer0Done hooks m =
      timer0Tick hooks (m.raw hooks (.cycleBegin (m.cpu.machineCycleCount + 1))) := by
    have unsplit : m.cpu.timer0Mode3 = false := by
      rw [Cpu.timer0Mode3, set]
      cases mode <;> rfl
    rw [timer0Done, timer0SplitTick, raw_cpu, unsplit, if_neg Bool.false_ne_true]
  have stores : Timer0Stores mode (mode.next (m.cpu.sfr Reg.th0) (m.cpu.sfr Reg.tl0)) m.cpu
      (timer0Done hooks m).cpu := by
    rw [begun]
    have same : (m.raw hooks (.cycleBegin (m.cpu.machineCycleCount + 1))).cpu = m.cpu := raw_cpu ..
    generalize m.raw hooks (.cycleBegin (m.cpu.machineCycleCount + 1)) = k at same
    rw [← same] at runs set ⊢
    exact timer0Tick_stores mode k runs set
  have next := mode.next_value (m.cpu.sfr Reg.th0) (m.cpu.sfr Reg.tl0)
  generalize mode.next (m.cpu.sfr Reg.th0) (m.cpu.sfr Reg.tl0) = done at stores next
  obtain ⟨last, value, reload, unused⟩ := next
  -- What comes after leaves the registers, the count and the bits of Timer 0 alone.
  have first := @Within.timer1Ticks ω hooks none (timer0Done hooks m)
  have second := @Within.timer2Ticks ω hooks none (timer1Tick hooks (timer0Done hooks m))
  have third := @Within.adcTicks ω hooks none
    (timer2Tick hooks (timer1Tick hooks (timer0Done hooks m)))
  have fourth := @Within.cycleCompletes ω hooks none
    (adcTick hooks (timer2Tick hooks (timer1Tick hooks (timer0Done hooks m))))
  have bits : (advanceMachineCycle hooks m).cpu.timerBits.1 = (timer0Done hooks m).cpu.timerBits.1 := by
    rw [whole.ends, completeMachineCycle_timerBits, adcTick_timerBits,
      timer2Tick_timer0Bits _ whole.timer2, timer1Tick_timerBits]
  have high : (advanceMachineCycle hooks m).cpu.sfr Reg.th0 = done.1.1 := by
    rw [whole.ends, fourth.sfr _ (by decide), third.sfr _ (by decide), second.sfr _ (by decide),
      first.sfr _ (by decide), stores.high]
  have low : (advanceMachineCycle hooks m).cpu.sfr Reg.tl0 = done.1.2 := by
    rw [whole.ends, fourth.sfr _ (by decide), third.sfr _ (by decide), second.sfr _ (by decide),
      first.sfr _ (by decide), stores.low]
  have count : (advanceMachineCycle hooks m).cpu.timerOverflowCount .timer0 =
      (timer0Done hooks m).cpu.timerOverflowCount .timer0 := by
    rw [whole.ends, fourth.overflow _ (by decide), third.overflow _ (by decide),
      second.overflow _ (by decide), first.overflow _ (by decide)]
  have run : has ((advanceMachineCycle hooks m).cpu.sfr Reg.tcon) Tcon.tr0 =
      has ((timer0Done hooks m).cpu.sfr Reg.tcon) Tcon.tr0 := has_of_masked bits (by decide)
  have flag : has ((advanceMachineCycle hooks m).cpu.sfr Reg.tcon) Tcon.tf0 =
      has ((timer0Done hooks m).cpu.sfr Reg.tcon) Tcon.tf0 := has_of_masked bits (by decide)
  refine ⟨done.2, ⟨last, by rw [high, low, value], by rw [high, reload],
    fun narrow => by rw [low, unused narrow], count.trans stores.count, tmod, run.trans ?_,
    flag.trans ?_⟩⟩
  · rw [stores.tcon]
    split
    · exact has_or_of_disjoint (by decide)
    · rfl
  · rw [stores.tcon]
    cases done.2 with
    | true => simp [has_or_self (x := m.cpu.sfr Reg.tcon) (by decide : Tcon.tf0 ≠ 0#8)]
    | false => simp

/-- The records that report an overflow of Timer 2. -/
def Record.isTimer2 (record : Record) : Bool := record matches .timerOverflow .timer2 ..

/-- The overflows of Timer 2 in a journal. -/
def Journal.timer2Reports (journal : Journal hooks) (n : Machine ω) : List Record :=
  (journal.read n.host).filter Record.isTimer2

/-- A change within a scope that holds no report of Timer 2 adds none. -/
theorem timer2Reports_within {journal : Journal hooks} {scope : Scope}
    (within : Within (some journal) scope m n)
    (apart : ∀ record, scope.emits record = true → record.isTimer2 = false) :
    journal.timer2Reports n = journal.timer2Reports m := by
  -- Behind the change stand the old records and those of the scope.
  obtain ⟨added, same, inside⟩ := within.records journal rfl
  have none : added.filter Record.isTimer2 = [] := by
    rw [List.filter_eq_nil_iff]
    intro record member
    rw [apart record (inside record member)]
    exact Bool.false_ne_true
  rw [Journal.timer2Reports, same, List.filter_append, none, List.append_nil]
  rfl

/-- What a whole machine cycle does to Timer 2 and to its reports. -/
structure Timer2Step (journal : Journal hooks) (m n : Machine ω) : Prop where
  value : n.cpu.timer2Value =
    if m.cpu.timer2Counts then
      if m.cpu.timer2Value + 1 = 65536 then 0 else m.cpu.timer2Value + 1
    else m.cpu.timer2Value
  count : n.cpu.timerOverflowCount .timer2 = m.cpu.timerOverflowCount .timer2 +
    (m.cpu.timer2Counts && m.cpu.timer2Value + 1 == 65536).toNat
  reports : journal.timer2Reports n = journal.timer2Reports m ++
    if m.cpu.timer2Counts ∧ m.cpu.timer2Value + 1 = 65536 then
      [.timerOverflow .timer2 (m.cpu.machineCycleCount + 1) 0#8 0#8]
    else []
  flag : has (n.cpu.sfr Reg.ircon) Ircon.tf2 = (has (m.cpu.sfr Reg.ircon) Ircon.tf2 ||
    (m.cpu.timer2Counts && m.cpu.timer2Value + 1 == 65536))
  t2con : n.cpu.sfr Reg.t2con = m.cpu.sfr Reg.t2con
  variant : n.cpu.variant = m.cpu.variant
  clock : n.cpu.machineCycleCount = m.cpu.machineCycleCount + 1

/-- Timers 0 and 1 leave Timer 2 alone. -/
structure Timer2Apart (journal : Journal hooks) (m n : Machine ω) : Prop where
  value : n.cpu.timer2Value = m.cpu.timer2Value
  counts : n.cpu.timer2Counts = m.cpu.timer2Counts
  count : n.cpu.timerOverflowCount .timer2 = m.cpu.timerOverflowCount .timer2
  reports : journal.timer2Reports n = journal.timer2Reports m
  bits : n.cpu.timerBits.2 = m.cpu.timerBits.2
  variant : n.cpu.variant = m.cpu.variant
  clock : n.cpu.machineCycleCount = m.cpu.machineCycleCount

/-- What runs in a cycle before Timer 2 leaves all that it reads. -/
theorem timer1Done_timer2Apart (journal : Journal hooks) (m : Machine ω) :
    Timer2Apart journal m (timer1Tick hooks (timer0Done hooks m)) := by
  -- Begin, Timer 0, Timer 1: each within a scope that has none of Timer 2's parts.
  generalize begun : m.raw hooks (.cycleBegin (m.cpu.machineCycleCount + 1)) = k
  have same : k.cpu = m.cpu := by rw [← begun, raw_cpu]
  have told : Within (some journal) pinScope m k := begun ▸ (Within.refl m).raw _
  have first : Within (some journal) timer0Scope k (timer0Done hooks m) := by
    rw [timer0Done, begun]
    exact Within.timer0Ticks (some journal) k
  have second := Within.timer1Ticks (some journal) (timer0Done hooks m)
  -- The control register and the clock are stable along all three.
  have moves : Moves m.cpu (timer1Tick hooks (timer0Done hooks m)).cpu := by
    have start : Moves m.cpu (timer0Done hooks m).cpu := by
      rw [timer0Done, begun]
      exact (show Moves m.cpu k.cpu from same ▸ Moves.refl _).timer0SplitTick.timer0Tick
    simp only [timer1Tick]
    exact Moves.ite start.timer1Count.classicSerial start
  have fixed := Stable.fixed_eq moves.stable
  have quiet : isVolatile m.cpu.variant Reg.t2con = false := by cases m.cpu.variant <;> rfl
  have t2con := Stable.sfr_eq moves.stable quiet
  have clock : (timer1Tick hooks (timer0Done hooks m)).cpu.machineCycleCount =
      m.cpu.machineCycleCount := congrArg Fixed.machineCycleCount fixed
  refine ⟨?_, ?_, ?_, ?_, ?_, congrArg Fixed.variant fixed, clock⟩
  · simp only [Cpu.timer2Value, second.sfr Reg.th2 (by decide), second.sfr Reg.tl2 (by decide),
      first.sfr Reg.th2 (by decide), first.sfr Reg.tl2 (by decide), same]
  · simp only [Cpu.timer2Counts, t2con, clock]
  · rw [second.overflow _ (by decide), first.overflow _ (by decide), same]
  · -- None of the three scopes holds a report of Timer 2.
    rw [timer2Reports_within second, timer2Reports_within first, timer2Reports_within told]
    all_goals
      intro record known
      cases record with
      | timerOverflow timer _ _ _ =>
        cases timer <;> first | rfl | exact absurd known Bool.false_ne_true
      | _ => rfl
  · rw [timer1Tick_timerBits]
    simp only [Cpu.timerBits, first.sfr Reg.ircon (by decide), same]

/-- A whole machine cycle counts Timer 2 once, where that counts. -/
theorem advanceMachineCycle_timer2 (journal : Journal hooks)
    (kept : (advanceMachineCycle hooks m).aborted hooks = false)
    (sab : m.cpu.variant = .sab80535) : Timer2Step journal m (advanceMachineCycle hooks m) := by
  have whole := advanceMachineCycle_whole kept
  have before := timer1Done_timer2Apart journal m
  have steady := advanceMachineCycle_steady hooks m
  have quiet : isVolatile m.cpu.variant Reg.t2con = false := by cases m.cpu.variant <;> rfl
  have ends := whole.ends
  have unaborted := whole.timer2
  generalize timer1Tick hooks (timer0Done hooks m) = u at before ends unaborted
  have clock : (advanceMachineCycle hooks m).cpu.machineCycleCount = m.cpu.machineCycleCount + 1 := by
    have moves : Moves u.cpu (adcTick hooks (timer2Tick hooks u)).cpu :=
      (Moves.refl u.cpu).timer2Tick.adcTick
    have still : (adcTick hooks (timer2Tick hooks u)).cpu.machineCycleCount =
        u.cpu.machineCycleCount :=
      congrArg Fixed.machineCycleCount (Stable.fixed_eq moves.stable)
    rw [ends, completeMachineCycle_clock, still, before.clock]
  -- What comes after Timer 2 leaves it alone.
  have third := Within.adcTicks (some journal) (timer2Tick hooks u)
  have fourth := Within.cycleCompletes (some journal) (adcTick hooks (timer2Tick hooks u))
  have value : (advanceMachineCycle hooks m).cpu.timer2Value =
      (timer2Tick hooks u).cpu.timer2Value := by
    simp only [Cpu.timer2Value, ends, fourth.sfr Reg.th2 (by decide), fourth.sfr Reg.tl2 (by decide),
      third.sfr Reg.th2 (by decide), third.sfr Reg.tl2 (by decide)]
  have count : (advanceMachineCycle hooks m).cpu.timerOverflowCount .timer2 =
      (timer2Tick hooks u).cpu.timerOverflowCount .timer2 := by
    rw [ends, fourth.overflow _ (by decide), third.overflow _ (by decide)]
  have reports : journal.timer2Reports (advanceMachineCycle hooks m) =
      journal.timer2Reports (timer2Tick hooks u) := by
    rw [ends, timer2Reports_within fourth, timer2Reports_within third]
    all_goals
      intro record known
      cases record <;> first | rfl | exact absurd known Bool.false_ne_true
  have bits : (advanceMachineCycle hooks m).cpu.timerBits =
      (timer2Tick hooks u).cpu.timerBits := by
    rw [ends, completeMachineCycle_timerBits, adcTick_timerBits]
  have flag : has ((advanceMachineCycle hooks m).cpu.sfr Reg.ircon) Ircon.tf2 =
      has (timer2Tick hooks u).cpu.timerBits.2 Ircon.tf2 :=
    @has_of_masked _ _ Ircon.tf2 _
      ((congrArg Prod.snd bits).trans (by
        show _ = ((timer2Tick hooks u).cpu.sfr Reg.ircon &&& Ircon.tf2) &&& Ircon.tf2
        rw [BitVec.and_assoc, BitVec.and_self]
        rfl)) (by decide)
  have flagBefore : has u.cpu.timerBits.2 Ircon.tf2 = has (m.cpu.sfr Reg.ircon) Ircon.tf2 := by
    rw [before.bits]
    exact @has_of_masked _ _ Ircon.tf2 _
      (by rw [Cpu.timerBits, BitVec.and_assoc, BitVec.and_self]) (by decide)
  have frame : (advanceMachineCycle hooks m).cpu.sfr Reg.t2con = m.cpu.sfr Reg.t2con ∧
      (advanceMachineCycle hooks m).cpu.variant = m.cpu.variant :=
    ⟨steady_sfr_eq steady quiet, congrArg (fun s : Stable => s.fixed.variant) steady⟩
  have counts := before.counts
  cases found : u.cpu.timer2Counts with
  | false =>
    rw [found] at counts
    rw [timer2Tick_still u found] at value count reports flag
    refine ⟨?_, ?_, ?_, ?_, frame.1, frame.2, clock⟩
    · rw [← counts, value, before.value]
      rfl
    · rw [← counts, count, before.count]
      rfl
    · rw [← counts, reports, before.reports]
      simp
    · rw [← counts, flag, flagBefore]
      simp
  | true =>
    rw [found] at counts
    have siemens : u.cpu.variant = .sab80535 := before.variant.trans sab
    obtain ⟨wraps, counted⟩ := timer2Tick_counts u siemens found unaborted
    have told := timer2Tick_reports journal u siemens found unaborted
    have last := counted.last
    rw [before.value] at last
    refine ⟨?_, ?_, ?_, ?_, frame.1, frame.2, clock⟩
    · rw [← counts, value, counted.value, last, before.value]
      simp
    · rw [← counts, count, counted.count, last, before.count]
      rfl
    · rw [← counts, reports, Journal.timer2Reports, told, List.filter_append, before.value,
        before.clock]
      refine congrArg₂ (· ++ ·) before.reports ?_
      by_cases top : m.cpu.timer2Value + 1 = 65536
      · simp [top, Record.isTimer2]
      · simp [top]
    · rw [← counts, flag, counted.bits, last]
      have own : has Ircon.tf2 Ircon.tf2 = true := by decide
      by_cases top : m.cpu.timer2Value + 1 = 65536
      · simp [top, own]
      · have low : (m.cpu.timer2Value + 1 == 65536) = false := beq_eq_false_iff_ne.mpr top
        rw [decide_eq_false top, low, Bool.and_false, Bool.or_false]
        exact flagBefore

end Emu80535
