import Emu80535.Proofs.Clock
import Emu80535.Proofs.Keeps
import Emu80535.Proofs.Serial

/-! The stream of Timer 1 overflows: which machine cycles count one, report one and clock UART. -/

namespace Emu80535

variable {ω : Type} {hooks : Hooks ω} {m n : Machine ω}

open Machine

/-! ### The stream a machine cycle contributes to -/

/-- Timer 1 counts machine cycles in its auto-reload mode 2. -/
def Cpu.timer1Reloads (c : Cpu) : Bool :=
  c.timer1Runs && c.sfr Reg.tmod &&& Tmod.t1Mode == Tmod.m1T1

/-- The coming machine cycle wraps Timer 1 in that mode. -/
def Cpu.timer1Wraps (c : Cpu) : Bool := c.timer1Reloads && c.sfr Reg.tl1 == 0xFF#8

/-- The records that report an overflow of Timer 1. -/
def Record.isTimer1 (record : Record) : Bool := record matches .timerOverflow .timer1 ..

/--
What a machine cycle does to the overflow stream, when it does or does not contribute to it.

A contribution counts one wrap, reports it once and advances the serial divider one step.
-/
structure Contributes (journal : Journal hooks) (overflow : Bool) (m n : Machine ω) : Prop where
  count : n.cpu.timerOverflowCount .timer1 =
    m.cpu.timerOverflowCount .timer1 + overflow.toNat
  records : ∃ added, journal.read n.host = journal.read m.host ++ added ∧
    added.filter Record.isTimer1 =
      if overflow then
        [.timerOverflow .timer1 (m.cpu.machineCycleCount + 1) (m.cpu.sfr Reg.th1)
          (m.cpu.sfr Reg.th1)]
      else []
  divider : n.cpu.uart.dividerPhase =
    if overflow && m.cpu.uartMode3 then dividerNext m.cpu.uart.dividerPhase
    else m.cpu.uart.dividerPhase

/-- What the promise says of one machine cycle in which Timer 1 counts in mode 2. -/
structure StreamStep (journal : Journal hooks) (m n : Machine ω) : Prop where
  reload : n.cpu.sfr Reg.tl1 =
    if m.cpu.timer1Wraps then m.cpu.sfr Reg.th1 else m.cpu.sfr Reg.tl1 + 1#8
  contributes : Contributes journal m.cpu.timer1Wraps m n

/-- A filter keeps nothing of records that are all outside it. -/
theorem filter_isTimer1_eq_nil {added : List Record} {emits : Record → Bool}
    (within : ∀ record ∈ added, emits record = true)
    (apart : ∀ record, emits record = true → record.isTimer1 = false) :
    added.filter Record.isTimer1 = [] := by
  rw [List.filter_eq_nil_iff]
  intro record member
  rw [apart record (within record member)]
  exact Bool.false_ne_true

namespace Contributes

variable {journal : Journal hooks} {overflow : Bool} {k : Machine ω}

/-- What follows without contributing changes nothing. -/
theorem thenNone (first : Contributes journal overflow m n)
    (second : Contributes journal false n k) : Contributes journal overflow m k where
  count := second.count.trans first.count
  records := by
    -- The records of both, with none of the second in the stream.
    obtain ⟨early, same, reports⟩ := first.records
    obtain ⟨late, later, none⟩ := second.records
    refine ⟨early ++ late, by rw [later, same, List.append_assoc], ?_⟩
    rw [List.filter_append, reports, none]
    exact List.append_nil _
  divider := second.divider.trans first.divider

/-- Nor does what went before, as long as it left the setting of the stream alone. -/
theorem afterNone (first : Contributes journal false m n)
    (second : Contributes journal overflow n k)
    (clock : n.cpu.machineCycleCount = m.cpu.machineCycleCount)
    (th1 : n.cpu.sfr Reg.th1 = m.cpu.sfr Reg.th1) (mode : n.cpu.uartMode3 = m.cpu.uartMode3) :
    Contributes journal overflow m k where
  count := second.count.trans (congrArg (· + overflow.toNat) first.count)
  records := by
    -- Only the second part has records of the stream.
    obtain ⟨early, same, none⟩ := first.records
    obtain ⟨late, later, reports⟩ := second.records
    refine ⟨early ++ late, by rw [later, same, List.append_assoc], ?_⟩
    rw [List.filter_append, none, reports, clock, th1]
    rfl
  -- The first part leaves the divider as it is.
  divider := by
    have phase : n.cpu.uart.dividerPhase = m.cpu.uart.dividerPhase := first.divider
    rw [second.divider, mode, phase]

/-- A change within a scope that holds nothing of the stream. -/
theorem none_of_within {scope : Scope} (within : Within (some journal) scope m n)
    (uart : scope.uart = false) (counts : scope.overflow ≠ some .timer1)
    (emits : ∀ record, scope.emits record = true → record.isTimer1 = false) :
    Contributes journal false m n where
  count := within.overflow _ counts
  records := by
    obtain ⟨added, same, inside⟩ := within.records journal rfl
    exact ⟨added, same, filter_isTimer1_eq_nil inside emits⟩
  divider := by
    rw [within.uart uart]
    rfl

end Contributes

/-! ### The parts of a cycle that are not Timer 1 -/

/-- A change that does not contribute and leaves the registers of Timer 1 alone. -/
structure Offstream (journal : Journal hooks) (m n : Machine ω) : Prop where
  none : Contributes journal false m n
  tl1 : n.cpu.sfr Reg.tl1 = m.cpu.sfr Reg.tl1
  th1 : n.cpu.sfr Reg.th1 = m.cpu.sfr Reg.th1

namespace Offstream

variable {journal : Journal hooks}

/-- A change within a scope that holds nothing of Timer 1 or of the serial port. -/
theorem of_within {scope : Scope} (within : Within (some journal) scope m n)
    (uart : scope.uart = false) (overflow : scope.overflow ≠ some .timer1)
    (tl1 : Reg.tl1 ∉ scope.regs) (th1 : Reg.th1 ∉ scope.regs)
    (emits : ∀ record, scope.emits record = true → record.isTimer1 = false) :
    Offstream journal m n where
  none := .none_of_within within uart overflow emits
  tl1 := within.sfr _ tl1
  th1 := within.sfr _ th1

/-- Timer 0 reports wraps of its own only. -/
theorem timer0Ticks (m : Machine ω) :
    Offstream journal m (timer0Tick hooks (timer0SplitTick hooks m)) := by
  refine of_within (Within.timer0Ticks (some journal) m) rfl (by decide) (by decide) (by decide) ?_
  intro record known
  cases record with
  | timerOverflow timer _ _ _ => cases timer <;> simp_all [timer0Scope, Record.isTimer1]
  | _ => rfl

/-- So does Timer 2. -/
theorem timer2Tick (m : Machine ω) : Offstream journal m (timer2Tick hooks m) := by
  refine of_within (Within.timer2Ticks (some journal) m) rfl (by decide) (by decide) (by decide) ?_
  intro record known
  cases record with
  | timerOverflow timer _ _ _ => cases timer <;> simp_all [timer2Scope, Record.isTimer1]
  | _ => rfl

/-- A tick of the converter does not contribute. -/
theorem adcTick (m : Machine ω) : Offstream journal m (adcTick hooks m) :=
  of_within (Within.adcTicks (some journal) m) rfl (by decide) (by decide) (by decide)
    fun record known => by cases record <;> first | rfl | exact absurd known Bool.false_ne_true

/-- Nor does the end of the cycle. -/
theorem completeMachineCycle (m : Machine ω) :
    Offstream journal m (completeMachineCycle hooks m) :=
  of_within (Within.cycleCompletes (some journal) m) rfl (by decide) (by decide) (by decide)
    fun record known => by cases record <;> first | rfl | exact absurd known Bool.false_ne_true

end Offstream

/-! ### What Timer 0 leaves of Timer 1's setting -/

/-- The run bit of Timer 1 stands as given. -/
def Machine.RunBit (b : Bool) (n : Machine ω) : Prop :=
  has (n.cpu.sfr Reg.tcon) Tcon.tr1 = b

namespace Machine.RunBit

variable {b : Bool}

/-- A branch of two continuations is one of them. -/
theorem ite {p : Prop} [Decidable p] {x y : Machine ω} (yes : x.RunBit b) (no : y.RunBit b) :
    (if p then x else y).RunBit b := by
  split
  · exact yes
  · exact no

variable (before : n.RunBit b)

include before

/-- Counting in another register does not touch it. -/
theorem setSfr {index : SfrIndex} (value : Byte) (other : Reg.tcon ≠ index) :
    (n.setSfr index value).RunBit b := by
  rw [RunBit, setSfr_sfr, Function.update_of_ne other]
  exact before

/-- Nor does counting a register other than TCON touch the run bit. -/
theorem incSfr {index : SfrIndex} (other : Reg.tcon ≠ index) : (n.incSfr index).RunBit b :=
  before.setSfr _ other

/-- Nor its low five bits. -/
theorem incSfrLow5 {index : SfrIndex} (other : Reg.tcon ≠ index) :
    (n.incSfrLow5 index).RunBit b := before.setSfr _ other

/-- Raising a flag of TCON does not show in the run bit. -/
theorem raiseTcon {mask : Byte} (apart : mask &&& Tcon.tr1 = 0#8) :
    (n.raiseTcon hooks mask).RunBit b := by
  simp only [RunBit, Machine.raiseTcon, irqWrite_cpu, setSfr_sfr, Function.update_self]
  rw [has_or_of_disjoint apart]
  exact before

/-- The report of an overflow leaves the run bit. -/
theorem timerOverflowEmit : (timerOverflowEmit hooks .timer0 n).RunBit b := by
  simp only [Emu80535.timerOverflowEmit, reduceCtorEq, false_and, if_false]
  exact ite before before

/-- So does Timer 0 where it is split. -/
theorem timer0SplitTick : (timer0SplitTick hooks n).RunBit b := by
  simp only [Emu80535.timer0SplitTick]
  -- The lower half comes first, and the upper half goes on from either outcome of it.
  refine ite (ite (ite (raiseTcon (incSfr ?_ (by decide)) (by decide)) (incSfr ?_ (by decide))) ?_)
    before
  all_goals
    exact ite (ite ((before.incSfr (by decide)).raiseTcon (by decide)) (before.incSfr (by decide)))
      before

/-- So does Timer 0 elsewhere. -/
theorem timer0Tick : (timer0Tick hooks n).RunBit b := by
  simp only [Emu80535.timer0Tick]
  -- One branch for each mode and each wrap, in the order of the source.
  refine ite (ite (ite (ite ?_ ?_) ?_) (ite (ite (ite ?_ ?_) ?_) (ite (ite ?_ ?_) before))) before
  · exact ((before.incSfrLow5 (by decide)).incSfr (by decide)).raiseTcon (by decide)
  · exact (before.incSfrLow5 (by decide)).incSfr (by decide)
  · exact before.incSfrLow5 (by decide)
  · exact (((before.incSfr (by decide)).incSfr (by decide)).raiseTcon (by decide)).timerOverflowEmit
  · exact (before.incSfr (by decide)).incSfr (by decide)
  · exact before.incSfr (by decide)
  · exact ((before.incSfr (by decide)).setSfr _ (by decide)).raiseTcon (by decide)
  · exact before.incSfr (by decide)

end Machine.RunBit

/-! ### Timer 1 -/

/-- Timer 1 and the classic serial shortcut, short of an overflow report. -/
def timer1Scope : Scope where
  regs := [Reg.tl1, Reg.th1, Reg.tcon, Reg.scon, Reg.p3]

/-- What an overflow of the serial clock can touch. -/
def serialScope : Scope where
  regs := [Reg.scon, Reg.sbuf]
  uart := true
  emits record := record matches .uart ..

section Timer1

variable {journal : Journal hooks}

/-- The reload that precedes a report. -/
def reloaded (hooks : Hooks ω) (n : Machine ω) : Machine ω :=
  let k := n.incSfr Reg.tl1
  (k.setSfr Reg.tl1 (k.cpu.sfr Reg.th1)).raiseTcon hooks Tcon.tf1

/-- The counting half of Timer 1 reports a wrap of mode 2 while Timer 0 is not split, or nothing. -/
theorem timer1Count_cases (hooks : Hooks ω) (n : Machine ω) (runs : n.cpu.timer1Runs = true) :
    (n.cpu.timer1Wraps && !n.cpu.timer0Mode3) = true ∧
        timer1Count hooks n = timerOverflowEmit hooks .timer1 (reloaded hooks n) ∨
      (n.cpu.timer1Wraps && !n.cpu.timer0Mode3) = false ∧
        ∀ journal : Option (Journal hooks),
          Within journal timer1Scope n (timer1Count hooks n) := by
  have still : ∀ journal : Option (Journal hooks), Within journal timer1Scope n n :=
    fun _ => Within.refl n
  simp only [timer1Count, Cpu.timer1Wraps, Cpu.timer1Reloads, runs, Bool.true_and]
  split
  · rename_i mode
    refine Or.inr ⟨by rw [mode]; rfl, fun j => Within.ite (Within.ite ?_ ?_) ?_⟩
    · exact (((still j).incSfrLow5 (by decide)).incSfr (by decide)).raiseTf1 (by decide)
    · exact ((still j).incSfrLow5 (by decide)).incSfr (by decide)
    · exact (still j).incSfrLow5 (by decide)
  · split
    · rename_i mode
      refine Or.inr ⟨by rw [mode]; rfl, fun j => Within.ite (Within.ite ?_ ?_) ?_⟩
      · exact (((still j).incSfr (by decide)).incSfr (by decide)).raiseTf1 (by decide)
      · exact ((still j).incSfr (by decide)).incSfr (by decide)
      · exact (still j).incSfr (by decide)
    · split
      · rename_i mode
        -- The split test reads TMOD, which counting has not touched.
        have kept : ((n.incSfr Reg.tl1).setSfr Reg.tl1
            ((n.incSfr Reg.tl1).cpu.sfr Reg.th1)).cpu.timer0Mode3 = n.cpu.timer0Mode3 := by
          simp only [Cpu.timer0Mode3, setSfr_sfr, Machine.incSfr]
          rw [Function.update_of_ne (by decide), Function.update_of_ne (by decide)]
        split
        · rename_i wraps
          rw [kept]
          cases split : n.cpu.timer0Mode3 with
          | false => exact Or.inl ⟨by simp [mode, wraps], rfl⟩
          | true =>
            refine Or.inr ⟨by simp, fun j => ?_⟩
            exact ((still j).incSfr (by decide)).setSfr _ (by decide)
        · rename_i wraps
          refine Or.inr ⟨by simp [mode, wraps], fun j => ?_⟩
          exact (still j).incSfr (by decide)
      · rename_i mode
        exact Or.inr ⟨by simp [mode], still⟩

/-- The serial port of the other variants has no mode 3 to clock. -/
theorem uartTimer1Overflow_of_classic (other : n.cpu.variant ≠ .sab80535) :
    uartTimer1Overflow hooks n = n := by
  simp [uartTimer1Overflow, Cpu.uartMode3, other]

/-- A wrap that is reported, without an abort on the way. -/
theorem timerOverflowEmit_contributes (n : Machine ω) (same : n.cpu.sfr Reg.tl1 = n.cpu.sfr Reg.th1)
    (kept : (timerOverflowEmit hooks .timer1 n).aborted hooks = false) :
    Contributes journal true n (timerOverflowEmit hooks .timer1 n) ∧
      (timerOverflowEmit hooks .timer1 n).cpu.sfr Reg.tl1 = n.cpu.sfr Reg.th1 := by
  -- The count moves first, then the serial port is clocked, and the report comes last.
  generalize counting : (n.mapCpu fun c =>
    { c with timerOverflowCount :=
        Function.update c.timerOverflowCount .timer1 (c.timerOverflowCount .timer1 + 1) }) = k
  have clocked : timerOverflowEmit hooks .timer1 n =
      if (uartTimer1Overflow hooks k).aborted hooks then uartTimer1Overflow hooks k
      else (uartTimer1Overflow hooks k).emit hooks
        (.timerOverflow .timer1 ((uartTimer1Overflow hooks k).cpu.machineCycleCount + 1)
          ((uartTimer1Overflow hooks k).cpu.sfr Reg.tl1)
          ((uartTimer1Overflow hooks k).cpu.sfr Reg.th1)) := by
    simp only [timerOverflowEmit, counting, true_and]
    by_cases sab : k.cpu.variant = .sab80535
    · simp only [if_pos sab]
      rfl
    · simp only [if_neg sab, uartTimer1Overflow_of_classic sab]
      rfl
  have unaborted : (uartTimer1Overflow hooks k).aborted hooks = false := by
    cases cut : (uartTimer1Overflow hooks k).aborted hooks with
    | false => rfl
    | true =>
      rw [clocked, if_pos cut] at kept
      exact cut.symm.trans kept
  have within : Within (some journal) serialScope k (uartTimer1Overflow hooks k) :=
    (Within.refl k).uartTimer1Overflow rfl (by decide) (by decide) fun _ _ _ _ _ _ _ => rfl
  have clock : (uartTimer1Overflow hooks k).cpu.machineCycleCount = n.cpu.machineCycleCount := by
    have still := congrArg Fixed.machineCycleCount
      (Stable.fixed_eq (@Moves.uartTimer1Overflow ω k.cpu hooks k (.refl k.cpu)).stable)
    refine still.trans ?_
    rw [← counting]
    rfl
  have th1 : (uartTimer1Overflow hooks k).cpu.sfr Reg.th1 = n.cpu.sfr Reg.th1 := by
    rw [within.sfr Reg.th1 (by decide), ← counting]
    rfl
  have tl1 : (uartTimer1Overflow hooks k).cpu.sfr Reg.tl1 = n.cpu.sfr Reg.th1 := by
    rw [within.sfr Reg.tl1 (by decide), ← same, ← counting]
    rfl
  rw [clocked, if_neg (ne_true_of_eq_false unaborted)]
  refine ⟨⟨?_, ?_, ?_⟩, tl1⟩
  · refine (within.overflow .timer1 (by decide)).trans ?_
    rw [← counting]
    simp
  · obtain ⟨serial, read, inside⟩ := within.records journal rfl
    have host : k.host = n.host := by
      rw [← counting]
      rfl
    have none : serial.filter Record.isTimer1 = [] :=
      filter_isTimer1_eq_nil inside fun record known => by
        cases record <;> first | rfl | exact absurd known Bool.false_ne_true
    refine ⟨serial ++ [.timerOverflow .timer1 (n.cpu.machineCycleCount + 1) (n.cpu.sfr Reg.th1)
      (n.cpu.sfr Reg.th1)], ?_, ?_⟩
    · rw [clock, tl1, th1, ← List.append_assoc, ← host, ← read]
      exact journal.emit _ _
    · rw [List.filter_append, none]
      rfl
  · have phase := Cpu.serialClock_dividerPhase k.cpu
    rw [← uartTimer1Overflow_cpu unaborted] at phase
    rw [← counting] at phase ⊢
    exact phase

/-- The serial port of the other variant does not touch the host. -/
theorem classicSerial_host (n : Machine ω) : (classicSerial n).host = n.host := by
  simp only [classicSerial, serialTx, serialSent, apply_ite Machine.host, Machine.clearFlags,
    setSfr_host, Machine.mapClassic, mapCpu_host, ite_self]

/-- The reload stores TH1 in TL1 and raises TF1, and nothing else of the stream. -/
theorem reloaded_offstream (n : Machine ω) :
    Contributes journal false n (reloaded hooks n) ∧
      (reloaded hooks n).cpu.sfr Reg.tl1 = n.cpu.sfr Reg.th1 ∧
      (reloaded hooks n).cpu.sfr Reg.th1 = n.cpu.sfr Reg.th1 := by
  have within : Within (some journal) timer1Scope n (reloaded hooks n) :=
    (((Within.refl n).incSfr (by decide)).setSfr _ (by decide)).raiseTcon _ (by decide)
  refine ⟨.none_of_within within rfl (by decide) fun _ known => absurd known Bool.false_ne_true, ?_⟩
  simp +decide [reloaded, Machine.raiseTcon, Machine.incSfr]

/-- The Timer 1 block contributes exactly the wraps it reports. -/
theorem timer1Tick_contributes (n : Machine ω)
    (kept : (timer1Tick hooks n).aborted hooks = false) :
    Contributes journal (n.cpu.timer1Wraps && !n.cpu.timer0Mode3) n (timer1Tick hooks n) := by
  have silent : ∀ {k : Machine ω}, Within (some journal) timer1Scope n k →
      Contributes journal false n k :=
    fun within => .none_of_within within rfl (by decide)
      fun _ known => absurd known Bool.false_ne_true
  have shortcut : ∀ k : Machine ω, Within (some journal) timer1Scope k (classicSerial k) :=
    fun k => (Within.refl k).classicSerial (by decide) (by decide) (by decide)
  simp only [timer1Tick] at kept ⊢
  split
  · rename_i runs
    rw [if_pos runs, Machine.aborted, classicSerial_host] at kept
    rcases timer1Count_cases hooks n runs with ⟨reports, same⟩ | ⟨nothing, within⟩
    · rw [reports, same]
      rw [same] at kept
      obtain ⟨before, tl1, th1⟩ := @reloaded_offstream ω hooks journal n
      have emitted := (@timerOverflowEmit_contributes ω hooks journal (reloaded hooks n)
        (tl1.trans th1.symm) kept).1
      have clock : (reloaded hooks n).cpu.machineCycleCount = n.cpu.machineCycleCount := by
        simp [reloaded, Machine.raiseTcon, Machine.incSfr, Machine.setSfr]
      have mode : (reloaded hooks n).cpu.uartMode3 = n.cpu.uartMode3 := by
        simp +decide [reloaded, Machine.raiseTcon, Machine.incSfr, Machine.setSfr, Cpu.uartMode3]
      -- The classic shortcut after the report touches neither the stream nor the divider.
      exact (before.afterNone emitted clock th1 mode).thenNone
        (.none_of_within (shortcut _) rfl (by decide) fun _ known => absurd known Bool.false_ne_true)
    · rw [nothing]
      exact silent ((within (some journal)).trans (shortcut _))
  · rename_i stands
    have still : n.cpu.timer1Wraps = false := by
      simp [Cpu.timer1Wraps, Cpu.timer1Reloads, stands]
    rw [still, Bool.false_and]
    exact silent (Within.refl n)

/-- In mode 2 every wrap reloads, whether or not it is reported. -/
theorem timer1Tick_tl1 (n : Machine ω) (reloads : n.cpu.timer1Reloads = true) :
    (timer1Tick hooks n).cpu.sfr Reg.tl1 =
      if n.cpu.timer1Wraps then n.cpu.sfr Reg.th1 else n.cpu.sfr Reg.tl1 + 1#8 := by
  -- The other variant's serial port leaves the byte.
  have shortcut : ∀ k : Machine ω, (classicSerial k).cpu.sfr Reg.tl1 = k.cpu.sfr Reg.tl1 := by
    intro k
    have within : Within none { timer1Scope with regs := [Reg.tcon, Reg.scon, Reg.p3] } k
        (classicSerial k) := (@Within.refl ω hooks none _ k).classicSerial (by decide) (by decide)
          (by decide)
    exact within.sfr _ (by decide)
  -- So does the report, with or without a clock for the serial port.
  have emitted : ∀ k : Machine ω, (timerOverflowEmit hooks .timer1 k).cpu.sfr Reg.tl1 =
      k.cpu.sfr Reg.tl1 := by
    intro k
    have clocked : ∀ k : Machine ω, (uartTimer1Overflow hooks k).cpu.sfr Reg.tl1 =
        k.cpu.sfr Reg.tl1 := by
      intro k
      have within : Within none serialScope k (uartTimer1Overflow hooks k) :=
        (Within.refl k).uartTimer1Overflow rfl (by decide) (by decide) fun _ _ _ _ _ _ _ => rfl
      exact within.sfr _ (by decide)
    simp only [timerOverflowEmit, apply_ite Machine.cpu, emit_cpu, ite_self]
    split
    · exact clocked _
    · rfl
  have runs : n.cpu.timer1Runs = true := (Bool.and_eq_true_iff.mp reloads).1
  -- Of the three modes it is the second.
  have mode : n.cpu.sfr Reg.tmod &&& Tmod.t1Mode = Tmod.m1T1 := by
    simpa using (Bool.and_eq_true_iff.mp reloads).2
  have apart : Tmod.m1T1 ≠ 0#8 ∧ Tmod.m1T1 ≠ Tmod.m0T1 := by decide
  have wraps : n.cpu.timer1Wraps = decide (n.cpu.sfr Reg.tl1 = 0xFF#8) := by
    rw [Cpu.timer1Wraps, reloads, Bool.true_and, beq_eq_decide]
  rw [timer1Tick, if_pos runs, shortcut, wraps]
  simp only [timer1Count, mode, if_neg apart.1, if_neg apart.2, if_true]
  -- On a wrap the reload is stored before the overflow is reported.
  by_cases wrap : n.cpu.sfr Reg.tl1 = 0xFF#8
  · simp only [wrap, if_true, decide_true]
    split
    · simp +decide [Machine.incSfr]
    · rw [emitted]
      simp +decide [Machine.incSfr, Machine.raiseTcon]
  · simp [wrap, Machine.incSfr]

/-! ### Whole machine cycles -/

/-- What decides whether a cycle wraps Timer 1, reports the wrap and clocks the serial port. -/
structure StreamSetting where
  reloads : Bool
  split : Bool
  mode3 : Bool
  clock : Nat
  uart : UartState

/-- The setting a CPU has. -/
def Cpu.streamSetting (c : Cpu) : StreamSetting where
  reloads := c.timer1Reloads
  split := c.timer0Mode3
  mode3 := c.uartMode3
  clock := c.machineCycleCount
  uart := c.uart

/-- Timer 0 leaves the setting of Timer 1 alone. -/
theorem timer0Done_streamSetting (m : Machine ω) :
    (timer0Done hooks m).cpu.streamSetting = m.cpu.streamSetting := by
  -- It writes its own registers and flags of TCON, which are not the run bit.
  generalize begun : m.raw hooks (.cycleBegin (m.cpu.machineCycleCount + 1)) = k
  have same : k.cpu = m.cpu := by
    rw [← begun, raw_cpu]
  rw [timer0Done, begun, ← same]
  have within : Within none timer0Scope k (timer0Tick hooks (timer0SplitTick hooks k)) :=
    Within.timer0Ticks none k
  have running : (timer0Tick hooks (timer0SplitTick hooks k)).RunBit
      (has (k.cpu.sfr Reg.tcon) Tcon.tr1) := RunBit.timer0Tick (RunBit.timer0SplitTick rfl)
  have moves : Moves k.cpu (timer0Tick hooks (timer0SplitTick hooks k)).cpu :=
    (Moves.refl k.cpu).timer0SplitTick.timer0Tick
  have clock := congrArg Fixed.machineCycleCount (Stable.fixed_eq moves.stable)
  have variant := congrArg Fixed.variant (Stable.fixed_eq moves.stable)
  have clock : (timer0Tick hooks (timer0SplitTick hooks k)).cpu.machineCycleCount =
    k.cpu.machineCycleCount := clock
  have variant : (timer0Tick hooks (timer0SplitTick hooks k)).cpu.variant = k.cpu.variant := variant
  simp only [Machine.RunBit] at running
  simp only [Cpu.streamSetting, Cpu.timer1Reloads, Cpu.timer1Runs, Cpu.timer0Mode3, Cpu.uartMode3,
    within.sfr Reg.tmod (by decide), within.sfr Reg.scon (by decide),
    within.sfr Reg.adcon (by decide), running, variant, clock, within.uart rfl]

/-- Timer 0 does not contribute. -/
theorem timer0Done_offstream (m : Machine ω) : Offstream journal m (timer0Done hooks m) := by
  -- The beginning of the cycle is a fact.
  have begun : Contributes journal false m
      (m.raw hooks (.cycleBegin (m.cpu.machineCycleCount + 1))) := by
    have within : Within (some journal) pinScope m
        (m.raw hooks (.cycleBegin (m.cpu.machineCycleCount + 1))) := (Within.refl m).raw _
    exact .none_of_within within rfl (by decide)
      fun record known => by cases record <;> first | rfl | exact absurd known Bool.false_ne_true
  have ticked := @Offstream.timer0Ticks ω hooks journal
    (m.raw hooks (.cycleBegin (m.cpu.machineCycleCount + 1)))
  -- Neither of them touches the two bytes.
  refine ⟨begun.thenNone ticked.none, ?_, ?_⟩
  · rw [timer0Done, ticked.tl1, raw_cpu]
  · rw [timer0Done, ticked.th1, raw_cpu]

/-- A cycle that ends unaborted contributes exactly the wraps of mode 2 it reports. -/
theorem advanceMachineCycle_contributes
    (kept : (advanceMachineCycle hooks m).aborted hooks = false) :
    Contributes journal (m.cpu.timer1Wraps && !m.cpu.timer0Mode3) m
      (advanceMachineCycle hooks m) := by
  have whole := advanceMachineCycle_whole kept
  -- Timer 0 leaves the setting of the stream, so the wrap is the one that was due.
  have setting := @timer0Done_streamSetting ω hooks m
  have before := @timer0Done_offstream ω hooks journal m
  have reloads : (timer0Done hooks m).cpu.timer1Reloads = m.cpu.timer1Reloads :=
    congrArg StreamSetting.reloads setting
  have wraps : (timer0Done hooks m).cpu.timer1Wraps = m.cpu.timer1Wraps := by
    rw [Cpu.timer1Wraps, reloads, before.tl1]
    rfl
  have split : (timer0Done hooks m).cpu.timer0Mode3 = m.cpu.timer0Mode3 :=
    congrArg StreamSetting.split setting
  -- In mode 3 of Timer 0 the wrap is not counted, which is the fault.
  have counted := @timer1Tick_contributes ω hooks journal (timer0Done hooks m) whole.timer1
  rw [wraps, split] at counted
  have first := before.none.afterNone counted (congrArg StreamSetting.clock setting) before.th1
    (congrArg StreamSetting.mode3 setting)
  rw [whole.ends]
  -- Behind Timer 1 nothing contributes.
  exact ((first.thenNone (Offstream.timer2Tick _).none).thenNone (Offstream.adcTick _).none).thenNone
    (Offstream.completeMachineCycle _).none

/-- A cycle that ends unaborted reloads TL1 on every wrap of mode 2. -/
theorem advanceMachineCycle_tl1 (journal : Journal hooks)
    (kept : (advanceMachineCycle hooks m).aborted hooks = false)
    (reloads : m.cpu.timer1Reloads = true) :
    (advanceMachineCycle hooks m).cpu.sfr Reg.tl1 =
      if m.cpu.timer1Wraps then m.cpu.sfr Reg.th1 else m.cpu.sfr Reg.tl1 + 1#8 := by
  have whole := advanceMachineCycle_whole kept
  have before := @timer0Done_offstream ω hooks journal m
  have still : (timer0Done hooks m).cpu.timer1Reloads = m.cpu.timer1Reloads :=
    congrArg StreamSetting.reloads (timer0Done_streamSetting m)
  -- The byte that wraps is the one found at the beginning of the cycle.
  have wraps : (timer0Done hooks m).cpu.timer1Wraps = m.cpu.timer1Wraps := by
    rw [Cpu.timer1Wraps, still, before.tl1]
    rfl
  have counted := @timer1Tick_tl1 ω hooks (timer0Done hooks m) (still.trans reloads)
  rw [wraps, before.tl1, before.th1] at counted
  -- What ticks behind Timer 1 leaves the byte.
  rw [whole.ends, (@Offstream.completeMachineCycle ω hooks journal _).tl1,
    (@Offstream.adcTick ω hooks journal _).tl1, (@Offstream.timer2Tick ω hooks journal _).tl1]
  exact counted

/-- One cycle keeps the promise of the stream exactly when it does not wrap in split mode. -/
theorem streamStep_iff (kept : (advanceMachineCycle hooks m).aborted hooks = false)
    (reloads : m.cpu.timer1Reloads = true) :
    StreamStep journal m (advanceMachineCycle hooks m) ↔
      ¬ (m.cpu.timer1Wraps = true ∧ m.cpu.timer0Mode3 = true) := by
  have done := @advanceMachineCycle_contributes ω hooks m journal kept
  constructor
  · rintro step ⟨wraps, split⟩
    -- The count the promise asks for is one more than the cycle makes.
    have promised := step.contributes.count
    have made := done.count
    rw [wraps] at promised
    rw [wraps, split] at made
    exact absurd (promised.symm.trans made) (by simp)
  · intro unsplit
    refine ⟨advanceMachineCycle_tl1 journal kept reloads, ?_⟩
    cases wraps : m.cpu.timer1Wraps with
    | false =>
      rw [wraps] at done
      exact done
    | true =>
      have whole : m.cpu.timer0Mode3 = false := by
        cases split : m.cpu.timer0Mode3 with
        | false => rfl
        | true => exact absurd ⟨wraps, split⟩ unsplit
      rw [wraps, whole] at done
      exact done

end Timer1

/-! ### Runs -/

/-- The machines whose cycles a run advances, in order. -/
def cyclesOf (hooks : Hooks ω) : List (Action ω) → Machine ω → List (Machine ω)
  | [], _ => []
  | action :: rest, m =>
    (match action with
      | .tick => (tickCycle hooks m).toList
      | .call _ | .own _ => []) ++ cyclesOf hooks rest (action.run hooks m)

/-- A run that does not reset the CPU. -/
def Unreset (actions : List (Action ω)) : Prop :=
  ∀ wipe rand, Action.call (.reset wipe rand) ∉ actions

/-- A count over one item. -/
theorem countP_one {α : Type} (p : α → Bool) (a : α) : [a].countP p = (p a).toNat := by
  rw [List.countP_cons, List.countP_nil, Nat.zero_add]
  cases p a <;> rfl

/-- What a run counts, provided its cycles end unaborted. -/
theorem runActions_count (uncounting : hooks.Uncounting) (journal : Journal hooks)
    (actions : List (Action ω)) (m : Machine ω) (unreset : Unreset actions)
    (kept : ∀ k ∈ cyclesOf hooks actions m, (advanceMachineCycle hooks k).aborted hooks = false) :
    (runActions hooks actions m).cpu.timerOverflowCount .timer1 =
      m.cpu.timerOverflowCount .timer1 +
        (cyclesOf hooks actions m).countP fun k => k.cpu.timer1Wraps && !k.cpu.timer0Mode3 := by
  -- The induction is on the run; only a tick's machine cycle can move the count.
  induction actions generalizing m with
  | nil => rfl
  | cons action rest ih =>
    have later : Unreset rest := fun wipe rand member =>
      unreset wipe rand (List.mem_cons_of_mem _ member)
    have keeps := uncounting.keepsAll fun count => count .timer1 = m.cpu.timerOverflowCount .timer1
    simp only [cyclesOf] at kept ⊢
    have rested := ih (action.run hooks m) later fun k member =>
      kept k (List.mem_append_right _ member)
    rw [runActions, List.foldl_cons, ← runActions, rested, List.countP_append, ← Nat.add_assoc]
    congr 1
    cases action with
    | tick =>
      rcases keeps.tickCycle m rfl with ⟨k, found, ends, still⟩ | ⟨found, still⟩
      · have cycle := kept k (List.mem_append_left _ (by simp [found]))
        have moved := (@advanceMachineCycle_contributes ω hooks k journal cycle).count
        simp only [Action.run, ends, found, Option.toList_some]
        rw [moved, still]
        rw [countP_one]
      · simp only [Action.run, found, Option.toList_none, List.countP_nil]
        exact still
    | call call =>
      refine keeps.hostCall call (fun wipe rand same => ?_) m rfl
      exact unreset wipe rand (by simp [same])
    | own update => rfl

/--
The stream of Timer 1 overflows over a run in which Timer 1 counts cycles in mode 2.

Every cycle reloads, counts, reports and clocks as promised, and the count grows by the number of
wraps, exactly when no wrap falls in a cycle in which Timer 0 is split.
-/
theorem timer1_overflow_stream (uncounting : hooks.Uncounting) (journal : Journal hooks)
    (actions : List (Action ω)) (m : Machine ω) (unreset : Unreset actions)
    (running : ∀ k ∈ cyclesOf hooks actions m, k.cpu.timer1Reloads = true ∧
      (advanceMachineCycle hooks k).aborted hooks = false) :
    ((∀ k ∈ cyclesOf hooks actions m, StreamStep journal k (advanceMachineCycle hooks k)) ∧
        (runActions hooks actions m).cpu.timerOverflowCount .timer1 =
          m.cpu.timerOverflowCount .timer1 +
            (cyclesOf hooks actions m).countP fun k => k.cpu.timer1Wraps) ↔
      ∀ k ∈ cyclesOf hooks actions m, ¬ (k.cpu.timer1Wraps = true ∧ k.cpu.timer0Mode3 = true) := by
  constructor
  · -- A step that obeys the claim either did not wrap or had Timer 0 out of mode 3.
    rintro ⟨steps, -⟩ k member
    exact (streamStep_iff (running k member).2 (running k member).1).mp (steps k member)
  · intro unsplit
    refine ⟨fun k member => ?_, ?_⟩
    · -- And such a step obeys it, with its overflow counted.
      exact (streamStep_iff (running k member).2 (running k member).1).mpr (unsplit k member)
    · rw [runActions_count uncounting journal actions m unreset fun k member =>
        (running k member).2]
      congr 1
      -- The two counts agree cycle by cycle.
      refine List.countP_congr fun k member => ?_
      cases wraps : k.cpu.timer1Wraps with
      | false => simp
      | true =>
        have whole : k.cpu.timer0Mode3 ≠ true := fun split => unsplit k member ⟨wraps, split⟩
        simp [whole]

/-- A CPU whose host sets TMOD, TL1, TH1 and TR1 over a program of NOPs, and then ticks once. -/
def reloadRun (tmod : Byte) : List (Action (List Record)) :=
  [.call (.sfrWrite 0x89#8 tmod), .call (.sfrWrite 0x8B#8 0xFF#8), .call (.sfrWrite 0x8D#8 0x12#8),
    .call (.sfrWrite 0x88#8 0x40#8), .tick]

/-- A recorded CPU that has just been reset. -/
def recordedBoot : Machine (List Record) where
  cpu := (Machine.boot fun _ => 0#8).cpu
  host := []

/-- The recording embedder has no callback that could count. -/
theorem recordingHooks_uncounting : recordingHooks.Uncounting :=
  fun _ _ installed => absurd installed (by simp [recordingHooks])

/-- With Timer 0 in mode 1 the wrap is counted. -/
theorem timer1_overflow_stream_mode1 :
    (runActions recordingHooks (reloadRun 0x21#8) recordedBoot).cpu.timerOverflowCount .timer1 =
      (cyclesOf recordingHooks (reloadRun 0x21#8) recordedBoot).countP
        fun k => k.cpu.timer1Wraps := by
  have stream := (timer1_overflow_stream recordingHooks_uncounting recordingJournal
    (reloadRun 0x21#8) recordedBoot (by simp [Unreset, reloadRun]) (by decide)).mpr (by decide)
  exact stream.2.trans (Nat.zero_add _)

/-- With Timer 0 split, the cycle reloads TL1 but neither counts nor reports the wrap. -/
theorem splitTimer0_uncounted :
    (∀ k ∈ cyclesOf recordingHooks (reloadRun 0x23#8) recordedBoot,
      k.cpu.timer1Reloads = true ∧ k.cpu.timer1Wraps = true ∧
        (advanceMachineCycle recordingHooks k).cpu.sfr Reg.tl1 = k.cpu.sfr Reg.th1) ∧
      (cyclesOf recordingHooks (reloadRun 0x23#8) recordedBoot).countP
        (fun k => k.cpu.timer1Wraps) = 1 ∧
      (runActions recordingHooks (reloadRun 0x23#8) recordedBoot).cpu.timerOverflowCount .timer1 =
        0 ∧
      (runActions recordingHooks (reloadRun 0x23#8) recordedBoot).host.filter Record.isTimer1 =
        [] := by
  decide

end Emu80535
