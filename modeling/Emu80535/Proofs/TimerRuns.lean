import Emu80535.Proofs.Course
import Emu80535.Proofs.Timers

/-! The closed forms of Timers 0 and 2 over runs of machine cycles. -/

namespace Emu80535

variable {ω : Type} {hooks : Hooks ω} {m n k : Machine ω} {cycles : Nat}

open Machine

/-! ### Runs -/

/--
A run of completed machine cycles.

Between two of them anything may happen that the relation allows: instructions, interrupts and
host calls.
-/
inductive Cycles (hooks : Hooks ω) (between : Machine ω → Machine ω → Prop) :
    Nat → Machine ω → Machine ω → Prop where
  | start (m : Machine ω) : Cycles hooks between 0 m m
  | other {cycles : Nat} {m n k : Machine ω} (run : Cycles hooks between cycles m n)
      (allowed : between n k) : Cycles hooks between cycles m k
  | cycle {cycles : Nat} {m n : Machine ω} (run : Cycles hooks between cycles m n)
      (whole : (advanceMachineCycle hooks n).aborted hooks = false) :
      Cycles hooks between (cycles + 1) m (advanceMachineCycle hooks n)

/-- A run that allows less is one that allows more. -/
theorem Cycles.mono {between wider : Machine ω → Machine ω → Prop}
    (le : ∀ a b, between a b → wider a b) (run : Cycles hooks between cycles m n) :
    Cycles hooks wider cycles m n := by
  induction run with
  | start m => exact .start m
  | other _ allowed ih => exact ih.other (le _ _ allowed)
  | cycle _ whole ih => exact ih.cycle whole

/-- What an embedder does beside completed machine cycles is allowed. -/
def Allowed (hooks : Hooks ω) (between : Machine ω → Machine ω → Prop) :
    List (Action ω) → Machine ω → Prop
  | [], _ => True
  | action :: rest, m =>
    (match action with
      | .tick =>
        match tickCycle hooks m with
        | some k => between m k ∧ (advanceMachineCycle hooks k).aborted hooks = false
        | none => between m (tick hooks m).2
      | .call _ | .own _ => between m (action.run hooks m)) ∧
      Allowed hooks between rest (action.run hooks m)

/-- Then its run is one of the machine cycles its ticks advance. -/
theorem runActions_cycles {between : Machine ω → Machine ω → Prop} (actions : List (Action ω))
    (run : Cycles hooks between cycles m n) (allowed : Allowed hooks between actions n) :
    Cycles hooks between (cycles + (cyclesOf hooks actions n).length) m
      (runActions hooks actions n) := by
  induction actions generalizing cycles n with
  | nil => exact run
  | cons action rest ih =>
    obtain ⟨first, later⟩ := allowed
    rw [runActions, List.foldl_cons, ← runActions]
    simp only [cyclesOf, List.length_append, ← Nat.add_assoc]
    refine ih ?_ later
    -- By induction on the actions: a tick advances a machine cycle or none, a call never does.
    cases action with
    | tick =>
      have shape := @tickCycle_keeps ω hooks (fun _ => True) (fun _ _ => trivial)
        (fun _ _ => trivial) (fun _ _ => trivial) (fun _ _ _ _ => trivial) (fun _ _ _ => trivial)
        (fun _ _ => trivial) (fun _ _ _ => trivial) n trivial
      rcases shape with ⟨k, found, ends, -⟩ | ⟨found, -⟩
      · simp only [found] at first ⊢
        rw [Action.run, ends]
        exact (run.other first.1).cycle first.2
      · simp only [found] at first ⊢
        exact run.other first
    | call _ => exact run.other first
    | own _ => exact run.other first

/-! ### Timer 0 -/

/-- Nobody writes the registers of Timer 0. -/
structure Timer0Left (m n : Machine ω) : Prop where
  mode : n.cpu.sfr Reg.tmod &&& 0x0F#8 = m.cpu.sfr Reg.tmod &&& 0x0F#8
  run : has (n.cpu.sfr Reg.tcon) Tcon.tr0 = has (m.cpu.sfr Reg.tcon) Tcon.tr0
  high : n.cpu.sfr Reg.th0 = m.cpu.sfr Reg.th0
  low : n.cpu.sfr Reg.tl0 = m.cpu.sfr Reg.tl0
  count : n.cpu.timerOverflowCount .timer0 = m.cpu.timerOverflowCount .timer0

/-- Nor clears or sets its flag. -/
structure Timer0Untouched (m n : Machine ω) : Prop extends Timer0Left m n where
  flag : has (n.cpu.sfr Reg.tcon) Tcon.tf0 = has (m.cpu.sfr Reg.tcon) Tcon.tf0

/-- Timer 0 as the counter it is in a mode. -/
def Cpu.timer0Counter (c : Cpu) (mode : Timer0Mode) (cycles : Nat) : Counter :=
  (Counter.step mode.top (mode.reload (c.sfr Reg.th0)))^[cycles]
    ⟨mode.value (c.sfr Reg.th0) (c.sfr Reg.tl0), 0⟩

/-- Where Timer 0 is after some cycles of a run. -/
structure Timer0At (mode : Timer0Mode) (start : Cpu) (cycles : Nat) (c : Cpu) : Prop where
  runs : c.timer0Runs = true
  set : c.sfr Reg.tmod &&& Tmod.t0Mode3 = mode.bits
  value : mode.value (c.sfr Reg.th0) (c.sfr Reg.tl0) = (start.timer0Counter mode cycles).value
  reload : mode.reload (c.sfr Reg.th0) = mode.reload (start.sfr Reg.th0)
  unused : mode = .thirteenBit → c.sfr Reg.tl0 &&& 0xE0#8 = start.sfr Reg.tl0 &&& 0xE0#8
  count : c.timerOverflowCount .timer0 = start.timerOverflowCount .timer0 +
    if mode = .sixteenBit then (start.timer0Counter mode cycles).wraps else 0

/-- Timer 0 runs on under an unchanged setting. -/
theorem timer0Runs_eq {a b : Cpu} (mode : b.sfr Reg.tmod &&& 0x0F#8 = a.sfr Reg.tmod &&& 0x0F#8)
    (run : has (b.sfr Reg.tcon) Tcon.tr0 = has (a.sfr Reg.tcon) Tcon.tr0) :
    b.timer0Runs = a.timer0Runs ∧
      b.sfr Reg.tmod &&& Tmod.t0Mode3 = a.sfr Reg.tmod &&& Tmod.t0Mode3 := by
  have low : (0x0F#8 : Byte) &&& Tmod.t0Mode3 = Tmod.t0Mode3 := by decide
  refine ⟨?_, ?_⟩
  · simp only [Cpu.timer0Runs, run, has_of_masked mode (by decide : 0x0F#8 &&& Tmod.gateT0 = _),
      has_of_masked mode (by decide : 0x0F#8 &&& Tmod.ctT0 = _)]
  · rw [← low, ← BitVec.and_assoc, mode, BitVec.and_assoc]

/-- One step of the counter. -/
theorem timer0Counter_succ (c : Cpu) (mode : Timer0Mode) (cycles : Nat) :
    c.timer0Counter mode (cycles + 1) =
      (c.timer0Counter mode cycles).step mode.top (mode.reload (c.sfr Reg.th0)) :=
  Function.iterate_succ_apply' ..

/-- What a step does to the value and to the wraps of a counter. -/
theorem Counter.step_eq (top reload : Nat) (c : Counter) :
    (c.step top reload).value = (if c.value + 1 = top then reload else c.value + 1) ∧
      (c.step top reload).wraps = c.wraps + (decide (c.value + 1 = top)).toNat := by
  simp only [Counter.step]
  split
  · rename_i last
    simp [last]
  · rename_i more
    simp [more]

/-- Timer 0 follows its counter over every run that leaves it alone. -/
theorem timer0_follows {mode : Timer0Mode} (runs : m.cpu.timer0Runs = true)
    (set : m.cpu.sfr Reg.tmod &&& Tmod.t0Mode3 = mode.bits)
    (run : Cycles hooks Timer0Left cycles m n) : Timer0At mode m.cpu cycles n.cpu := by
  -- By induction on the run: what lies between leaves the counter alone, a cycle is one step of
  -- it.
  induction run with
  | start m => exact ⟨runs, set, rfl, rfl, fun _ => rfl, by simp [Cpu.timer0Counter]⟩
  | other _ left ih =>
    obtain ⟨going, kept⟩ := timer0Runs_eq left.mode left.run
    have at' := ih runs set
    exact ⟨going.trans at'.runs, kept.trans at'.set, by rw [left.high, left.low, at'.value],
      by rw [left.high, at'.reload], fun narrow => by rw [left.low, at'.unused narrow],
      left.count.trans at'.count⟩
  | @cycle cycles m n _ whole ih =>
    have at' := ih runs set
    obtain ⟨wraps, step⟩ := advanceMachineCycle_timer0 whole mode at'.runs at'.set
    obtain ⟨going, kept⟩ := timer0Runs_eq (a := n.cpu) (b := (advanceMachineCycle hooks n).cpu)
      (by rw [step.tmod]) step.run
    obtain ⟨value, wrapped⟩ := Counter.step_eq mode.top (mode.reload (m.cpu.sfr Reg.th0))
      (m.cpu.timer0Counter mode cycles)
    have last := step.last
    rw [at'.value] at last
    refine ⟨going.trans at'.runs, kept.trans at'.set, ?_, step.reload.trans at'.reload,
      fun narrow => (step.unused narrow).trans (at'.unused narrow), ?_⟩
    · -- A step takes the counter to its next value, and it wraps where the top is reached.
      rw [timer0Counter_succ, value, step.value, last, at'.reload, at'.value]
      simp
    · rw [timer0Counter_succ, wrapped, step.count, at'.count, ← last]
      -- Only the sixteen bit mode counts its overflows.
      cases mode with
      | sixteenBit => simp [Nat.add_assoc]
      | thirteenBit | autoReload => simp

/-- Its counter after some cycles, in closed form. -/
theorem timer0Counter_eq (c : Cpu) (mode : Timer0Mode) (cycles : Nat) :
    c.timer0Counter mode cycles = Counter.after mode.top (mode.reload (c.sfr Reg.th0))
      (mode.value (c.sfr Reg.th0) (c.sfr Reg.tl0)) cycles :=
  Counter.iterate_eq (mode.reload_lt _) (mode.value_lt _ _) cycles

/-- The flag is set once the counter has wrapped, unless somebody clears it. -/
theorem timer0_flag {mode : Timer0Mode} (runs : m.cpu.timer0Runs = true)
    (set : m.cpu.sfr Reg.tmod &&& Tmod.t0Mode3 = mode.bits)
    (run : Cycles hooks Timer0Untouched cycles m n) :
    has (n.cpu.sfr Reg.tcon) Tcon.tf0 = (has (m.cpu.sfr Reg.tcon) Tcon.tf0 ||
      decide (0 < (m.cpu.timer0Counter mode cycles).wraps)) := by
  -- By induction on the run; a cycle sets the flag where the counter wraps, and keeps it else.
  induction run with
  | start m => simp [Cpu.timer0Counter]
  | other _ left ih => exact left.flag.trans (ih runs set)
  | @cycle cycles m n before whole ih =>
    have at' := timer0_follows runs set (before.mono fun _ _ left => left.toTimer0Left)
    obtain ⟨wraps, step⟩ := advanceMachineCycle_timer0 whole mode at'.runs at'.set
    have last := step.last
    rw [at'.value] at last
    rw [step.flag, ih runs set, timer0Counter_succ, (Counter.step_eq ..).2, ← last, Bool.or_assoc]
    cases wraps <;> simp

/-! ### Timer 2 -/

/-- The bits of T2CON that say how Timer 2 counts. -/
def timer2Setting : Byte := T2con.t2i1 ||| T2con.t2i0 ||| T2con.t2r1 ||| T2con.t2ps

/-- Timer 2 counts on the internal clock, without a reload mode. -/
def Cpu.timer2Internal (c : Cpu) : Bool :=
  c.sfr Reg.t2con &&& (T2con.t2i1 ||| T2con.t2i0) == T2con.t2i0 && !has (c.sfr Reg.t2con) T2con.t2r1

/-- How many of the machine cycles that complete next have even numbers. -/
def evenCycles (done cycles : Nat) : Nat :=
  (List.range' (done + 1) cycles).countP fun cycle => cycle % 2 == 0

/-- How many of them Timer 2 counts: all of them, or behind the prescaler the even ones. -/
def Cpu.timer2Cycles (c : Cpu) (cycles : Nat) : Nat :=
  if has (c.sfr Reg.t2con) T2con.t2ps then evenCycles c.machineCycleCount cycles else cycles

/-- Even cycles of an interval are those of its parts. -/
theorem evenCycles_add (done first second : Nat) :
    evenCycles done (first + second) = evenCycles done first + evenCycles (done + first) second := by
  simp only [evenCycles]
  rw [← List.range'_append_1, List.countP_append, Nat.add_right_comm]

/-- So are the counted ones. -/
theorem timer2Cycles_succ (c : Cpu) (cycles : Nat) :
    c.timer2Cycles (cycles + 1) = c.timer2Cycles cycles +
      (!(has (c.sfr Reg.t2con) T2con.t2ps &&
        (c.machineCycleCount + cycles + 1) % 2 == 1)).toNat := by
  simp only [Cpu.timer2Cycles]
  cases has (c.sfr Reg.t2con) T2con.t2ps with
  | false => simp
  | true =>
    simp only [if_true, evenCycles_add, Bool.true_and]
    congr 1
    -- With the prescaler an odd cycle is not counted, so the parity of the clock decides.
    have parity := Nat.mod_two_eq_zero_or_one (c.machineCycleCount + cycles + 1)
    rcases parity with even | odd
    · simp [evenCycles, even]
    · simp [evenCycles, odd]

/-- Nobody writes the registers of Timer 2, reports its overflows or moves the clock. -/
structure Timer2Left (journal : Journal hooks) (m n : Machine ω) : Prop where
  variant : n.cpu.variant = m.cpu.variant
  mode : n.cpu.sfr Reg.t2con &&& timer2Setting = m.cpu.sfr Reg.t2con &&& timer2Setting
  high : n.cpu.sfr Reg.th2 = m.cpu.sfr Reg.th2
  low : n.cpu.sfr Reg.tl2 = m.cpu.sfr Reg.tl2
  count : n.cpu.timerOverflowCount .timer2 = m.cpu.timerOverflowCount .timer2
  reports : journal.timer2Reports n = journal.timer2Reports m
  clock : n.cpu.machineCycleCount = m.cpu.machineCycleCount

/-- Nor clears or sets its flag. -/
structure Timer2Untouched (journal : Journal hooks) (m n : Machine ω) : Prop
    extends Timer2Left journal m n where
  flag : has (n.cpu.sfr Reg.ircon) Ircon.tf2 = has (m.cpu.sfr Reg.ircon) Ircon.tf2

/-- Timer 2 as the counter it is. -/
def Cpu.timer2Counter (c : Cpu) (cycles : Nat) : Counter :=
  (Counter.step 65536 0)^[c.timer2Cycles cycles] ⟨c.timer2Value, 0⟩

/-- Records that report overflows of Timer 2, each at a wrap to zero. -/
def WrapReports (records : List Record) : Prop :=
  ∀ record ∈ records, ∃ cycle, record = .timerOverflow .timer2 cycle 0#8 0#8

/-- Where Timer 2 is after some cycles of a run. -/
structure Timer2At (journal : Journal hooks) (start : Machine ω) (cycles : Nat) (n : Machine ω) :
    Prop where
  variant : n.cpu.variant = .sab80535
  mode : n.cpu.sfr Reg.t2con &&& timer2Setting = start.cpu.sfr Reg.t2con &&& timer2Setting
  clock : n.cpu.machineCycleCount = start.cpu.machineCycleCount + cycles
  value : n.cpu.timer2Value = (start.cpu.timer2Counter cycles).value
  count : n.cpu.timerOverflowCount .timer2 =
    start.cpu.timerOverflowCount .timer2 + (start.cpu.timer2Counter cycles).wraps
  reports : ∃ added, journal.timer2Reports n = journal.timer2Reports start ++ added ∧
    added.length = (start.cpu.timer2Counter cycles).wraps ∧ WrapReports added

/-- Under the setting of the start Timer 2 counts the cycles its prescaler lets through. -/
theorem timer2Counts_eq {a b : Cpu} (internal : a.timer2Internal = true)
    (mode : b.sfr Reg.t2con &&& timer2Setting = a.sfr Reg.t2con &&& timer2Setting) :
    b.timer2Counts = !(has (a.sfr Reg.t2con) T2con.t2ps && (b.machineCycleCount + 1) % 2 == 1) := by
  -- The bits that choose the input and the prescaler are inside the setting that is kept.
  have input : b.sfr Reg.t2con &&& (T2con.t2i1 ||| T2con.t2i0) =
      a.sfr Reg.t2con &&& (T2con.t2i1 ||| T2con.t2i0) := by
    have within : timer2Setting &&& (T2con.t2i1 ||| T2con.t2i0) = T2con.t2i1 ||| T2con.t2i0 := by
      decide
    rw [← within, ← BitVec.and_assoc, mode, BitVec.and_assoc]
  have reload := has_of_masked mode (by decide : timer2Setting &&& T2con.t2r1 = T2con.t2r1)
  have prescaler := has_of_masked mode (by decide : timer2Setting &&& T2con.t2ps = T2con.t2ps)
  simp only [Cpu.timer2Internal, Bool.and_eq_true] at internal
  simp only [Cpu.timer2Counts, input, reload, prescaler, internal.1, internal.2, Bool.true_and]

/-- One more cycle of the counter. -/
theorem timer2Counter_succ (c : Cpu) (cycles : Nat) (counts : Bool)
    (same : counts = !(has (c.sfr Reg.t2con) T2con.t2ps &&
      (c.machineCycleCount + cycles + 1) % 2 == 1)) :
    c.timer2Counter (cycles + 1) =
      if counts then (c.timer2Counter cycles).step 65536 0 else c.timer2Counter cycles := by
  rw [Cpu.timer2Counter, timer2Cycles_succ, ← same]
  cases counts with
  | false => rfl
  | true => exact Function.iterate_succ_apply' ..

/-- Timer 2 follows its counter over every run that leaves it alone. -/
theorem timer2_follows {journal : Journal hooks} (sab : m.cpu.variant = .sab80535)
    (internal : m.cpu.timer2Internal = true)
    (run : Cycles hooks (Timer2Left journal) cycles m n) : Timer2At journal m cycles n := by
  -- By induction on the run, as for Timer 0, with the clock and the reports carried along.
  induction run with
  | start m =>
    have none : m.cpu.timer2Counter 0 = ⟨m.cpu.timer2Value, 0⟩ := by
      have zero : m.cpu.timer2Cycles 0 = 0 := by simp [Cpu.timer2Cycles, evenCycles]
      rw [Cpu.timer2Counter, zero]
      rfl
    refine ⟨sab, rfl, rfl, by rw [none], by rw [none]; rfl, [], by simp, by rw [none]; rfl, ?_⟩
    exact fun record member => absurd member List.not_mem_nil
  | other _ left ih =>
    have at' := ih sab internal
    refine ⟨left.variant.trans at'.variant, left.mode.trans at'.mode, left.clock.trans at'.clock, ?_,
      left.count.trans at'.count, left.reports ▸ at'.reports⟩
    rw [Cpu.timer2Value, left.high, left.low]
    exact at'.value
  | @cycle cycles m n _ whole ih =>
    have at' := ih sab internal
    have step := advanceMachineCycle_timer2 journal whole at'.variant
    have counts := timer2Counts_eq internal at'.mode
    rw [at'.clock] at counts
    have next := timer2Counter_succ m.cpu cycles _ counts
    obtain ⟨value, wrapped⟩ := Counter.step_eq 65536 0 (m.cpu.timer2Counter cycles)
    obtain ⟨added, same, length, reports⟩ := at'.reports
    have clock : (advanceMachineCycle hooks n).cpu.machineCycleCount =
        m.cpu.machineCycleCount + (cycles + 1) := by
      rw [step.clock, at'.clock, Nat.add_assoc]
    have mode : (advanceMachineCycle hooks n).cpu.sfr Reg.t2con &&& timer2Setting =
        m.cpu.sfr Reg.t2con &&& timer2Setting := by rw [step.t2con, at'.mode]
    have stepValue := step.value
    have stepCount := step.count
    have stepReports := step.reports
    rw [at'.value] at stepValue stepCount stepReports
    rw [at'.count] at stepCount
    rw [same] at stepReports
    -- A cycle the prescaler holds back changes nothing; a counted one is a step that may report.
    cases counted : n.cpu.timer2Counts with
    | false =>
      rw [counted] at next stepValue stepCount stepReports
      rw [if_neg Bool.false_ne_true] at next
      refine ⟨step.variant.trans at'.variant, mode, clock, ?_, ?_, ?_⟩
      · rw [next, stepValue]
        rfl
      · rw [next, stepCount]
        rfl
      · rw [next]
        exact ⟨added, by simpa using stepReports, length, reports⟩
    | true =>
      rw [counted] at next stepValue stepCount stepReports
      rw [if_pos rfl] at next
      refine ⟨step.variant.trans at'.variant, mode, clock, ?_, ?_, ?_⟩
      · rw [next, stepValue, value]
        rfl
      · rw [next, stepCount, wrapped, Nat.add_assoc]
        rfl
      · rw [next, wrapped]
        -- The report goes out on the wrap and on no other step.
        by_cases top : (m.cpu.timer2Counter cycles).value + 1 = 65536
        · rw [if_pos ⟨rfl, top⟩, List.append_assoc] at stepReports
          refine ⟨_, stepReports, by simp [length, top], fun record member => ?_⟩
          rcases List.mem_append.mp member with old | new
          · exact reports record old
          · exact ⟨_, List.mem_singleton.mp new⟩
        · rw [if_neg fun both => top both.2, List.append_nil] at stepReports
          exact ⟨added, stepReports, by simp [length, top], reports⟩

/-- Its counter after some cycles, in closed form. -/
theorem timer2Counter_eq (c : Cpu) (cycles : Nat) :
    c.timer2Counter cycles = ⟨(c.timer2Value + c.timer2Cycles cycles) % 65536,
      (c.timer2Value + c.timer2Cycles cycles) / 65536⟩ := by
  have below : c.timer2Value < 65536 := by
    have high := (c.sfr Reg.th2).isLt
    have low := (c.sfr Reg.tl2).isLt
    unfold Cpu.timer2Value
    omega
  rw [Cpu.timer2Counter, Counter.iterate_eq (by decide) below, Counter.after_zero (by decide)]

/-- The flag is set once the counter has wrapped, unless somebody clears it. -/
theorem timer2_flag {journal : Journal hooks} (sab : m.cpu.variant = .sab80535)
    (internal : m.cpu.timer2Internal = true)
    (run : Cycles hooks (Timer2Untouched journal) cycles m n) :
    has (n.cpu.sfr Reg.ircon) Ircon.tf2 = (has (m.cpu.sfr Reg.ircon) Ircon.tf2 ||
      decide (0 < (m.cpu.timer2Counter cycles).wraps)) := by
  -- By induction on the run; the flag is set on the counted step that reaches the top.
  induction run with
  | start m =>
    have zero : m.cpu.timer2Cycles 0 = 0 := by simp [Cpu.timer2Cycles, evenCycles]
    simp [Cpu.timer2Counter, zero]
  | other _ left ih => exact left.flag.trans (ih sab internal)
  | @cycle cycles m n before whole ih =>
    have at' := timer2_follows sab internal (before.mono fun _ _ left => left.toTimer2Left)
    have step := advanceMachineCycle_timer2 journal whole at'.variant
    have counts := timer2Counts_eq internal at'.mode
    rw [at'.clock] at counts
    rw [step.flag, ih sab internal, timer2Counter_succ m.cpu cycles _ counts, at'.value,
      Bool.or_assoc]
    congr 1
    cases n.cpu.timer2Counts with
    | false => simp
    | true =>
      rw [if_pos rfl, (Counter.step_eq ..).2]
      by_cases top : (m.cpu.timer2Counter cycles).value + 1 = 65536
      · simp [top]
      · have low : ((m.cpu.timer2Counter cycles).value + 1 == 65536) = false :=
          beq_eq_false_iff_ne.mpr top
        rw [low, decide_eq_false top, Bool.and_false, Bool.or_false]
        rfl

/-! ### What leaves the timers alone -/

/-- What Timers 0 and 2 work with. -/
structure TimerParts where
  variant : Variant
  clock : Nat
  mode : Byte
  run : Bool
  timer0 : Byte × Byte
  setting : Byte
  timer2 : Byte × Byte
  counts : Nat × Nat

/-- These parts of a CPU object. -/
def Cpu.timerParts (c : Cpu) : TimerParts where
  variant := c.variant
  clock := c.machineCycleCount
  mode := c.sfr Reg.tmod &&& 0x0F#8
  run := has (c.sfr Reg.tcon) Tcon.tr0
  timer0 := (c.sfr Reg.th0, c.sfr Reg.tl0)
  setting := c.sfr Reg.t2con &&& timer2Setting
  timer2 := (c.sfr Reg.th2, c.sfr Reg.tl2)
  counts := (c.timerOverflowCount .timer0, c.timerOverflowCount .timer2)

/-- The registers that are theirs alone. -/
def timerRegs : List SfrIndex := [Reg.tmod, Reg.th0, Reg.tl0, Reg.t2con, Reg.th2, Reg.tl2]

/-- CPU objects that agree on these registers, the run bit, the counts and the clock. -/
theorem timerParts_eq {a b : Cpu} (variant : b.variant = a.variant)
    (clock : b.machineCycleCount = a.machineCycleCount)
    (counts : b.timerOverflowCount = a.timerOverflowCount)
    (run : has (b.sfr Reg.tcon) Tcon.tr0 = has (a.sfr Reg.tcon) Tcon.tr0)
    (regs : ∀ i ∈ timerRegs, b.sfr i = a.sfr i) : b.timerParts = a.timerParts := by
  simp only [Cpu.timerParts, variant, clock, counts, run, regs Reg.tmod (by decide),
    regs Reg.th0 (by decide), regs Reg.tl0 (by decide), regs Reg.t2con (by decide),
    regs Reg.th2 (by decide), regs Reg.tl2 (by decide)]

/-- A store elsewhere does not touch them. -/
theorem timerParts_store (c : Cpu) {index : SfrIndex} (value : Byte) (other : index ∉ timerRegs)
    (run : index = Reg.tcon → has value Tcon.tr0 = has (c.sfr Reg.tcon) Tcon.tr0) :
    (c.store index value).timerParts = c.timerParts := by
  -- TCON is stored with its run bits unchanged; the timer registers are not stored at all.
  refine timerParts_eq rfl rfl rfl ?_ fun i member => ?_
  · by_cases here : Reg.tcon = index
    · rw [← here, Cpu.store_sfr, Function.update_self]
      exact run here.symm
    · rw [Cpu.store_sfr, Function.update_of_ne here]
  · have apart : i ≠ index := fun here => other (here ▸ member)
    rw [Cpu.store_sfr, Function.update_of_ne apart]

/-- Request flags are not the run bit. -/
theorem tconFlags_apart {mask : Byte} (flags : mask &&& ~~~tconFlags = 0#8) :
    mask &&& Tcon.tr0 = 0#8 := by
  have outside : ~~~tconFlags &&& Tcon.tr0 = Tcon.tr0 := by decide
  rw [← outside, ← BitVec.and_assoc, flags, BitVec.zero_and]

/-- The view of Timers 0 and 2. -/
def timerView : View TimerParts where
  shown := Cpu.timerParts
  own := Record.isTimer2
  parts := fun a b same => by
    have sfr : b.sfr = a.sfr := congrArg Peripherals.sfr same
    exact timerParts_eq (congrArg Peripherals.variant same) (congrArg Peripherals.clock same)
      (congrArg Peripherals.overflows same) (by rw [sfr]) fun i _ => by rw [sfr]
  store := by
    intro c index value own
    refine timerParts_store c value (fun timer => ?_) fun here => ?_
    · have apart : ∀ i ∈ timerRegs, ¬(isOwn i = true ∨ i = Reg.pcon) := by decide
      exact apart index timer own
    · rw [here] at own
      exact absurd own (by decide)
  clear := by
    rintro c index mask (rfl | ⟨rfl, flags⟩)
    · exact timerParts_store c _ (by decide) (absurd · (by decide))
    · exact timerParts_store c _ (by decide) fun _ =>
        has_andNot_of_disjoint (tconFlags_apart flags)
  sync := fun hooks m => by
    have pins : Within none pinScope m (irqSync hooks m) := (Within.refl m).irqSync (by decide)
    have fixed := Stable.fixed_eq (irqSync_stable hooks m)
    have bits : (irqSync hooks m).cpu.timerBits = m.cpu.timerBits :=
      (keepsPins_timerBits m.cpu.timerBits).irqSync rfl
    refine timerParts_eq (congrArg Fixed.variant fixed) (congrArg Fixed.machineCycleCount fixed)
      (funext fun timer => pins.overflow timer (Option.some_ne_none timer).symm) ?_
      fun i member => pins.sfr i ?_
    · exact has_of_masked (congrArg Prod.fst bits) (by decide)
    · have apart : ∀ i ∈ timerRegs, i ∉ pinScope.regs := by decide
      exact apart i member
  told := fun record own => by
    cases record with
    | timerOverflow => rfl
    | _ => exact absurd own Bool.false_ne_true

/-- What happens beside the timers leaves Timer 0 alone. -/
theorem Timer0Left.of_beside {journal : Option (Journal hooks)}
    (beside : Beside timerView journal m n) : Timer0Left m n where
  mode := congrArg TimerParts.mode beside.shown
  run := congrArg TimerParts.run beside.shown
  high := congrArg (fun t : TimerParts => t.timer0.1) beside.shown
  low := congrArg (fun t : TimerParts => t.timer0.2) beside.shown
  count := congrArg (fun t : TimerParts => t.counts.1) beside.shown

/-- And it leaves Timer 2 alone. -/
theorem Timer2Left.of_beside {journal : Journal hooks}
    (beside : Beside timerView (some journal) m n) : Timer2Left journal m n where
  variant := congrArg TimerParts.variant beside.shown
  mode := congrArg TimerParts.setting beside.shown
  high := congrArg (fun t : TimerParts => t.timer2.1) beside.shown
  low := congrArg (fun t : TimerParts => t.timer2.2) beside.shown
  count := congrArg (fun t : TimerParts => t.counts.2) beside.shown
  reports := by
    -- What such an action records is not a report of Timer 2.
    obtain ⟨added, same, others⟩ := beside.records journal rfl
    have none : added.filter Record.isTimer2 = [] :=
      List.filter_eq_nil_iff.mpr fun record member => ne_true_of_eq_false (others record member)
    rw [Journal.timer2Reports, same, List.filter_append, none, List.append_nil]
    rfl
  clock := congrArg TimerParts.clock beside.shown

/-- Ticks whose cycles complete and whose instructions write no register through the gateway. -/
def Reading (hooks : Hooks ω) : Nat → Machine ω → Prop
  | 0, _ => True
  | ticks + 1, m =>
    (m.Fetches hooks → (opRights (handleInterrupts hooks m).2.cpu.opcode).write = false) ∧
      (∀ k, tickCycle hooks m = some k → (advanceMachineCycle hooks k).aborted hooks = false) ∧
      Reading hooks ticks (tick hooks m).2

/-- Delays, interrupt entries and such instructions are allowed beside the timers. -/
theorem Reading.allowed {journal : Option (Journal hooks)} (ticks : Nat)
    (reading : Reading hooks ticks m) :
    Allowed hooks (Beside timerView journal) (List.replicate ticks .tick) m := by
  -- By induction on the ticks, each of them read by itself.
  induction ticks generalizing m with
  | zero => trivial
  | succ ticks ih =>
    obtain ⟨reads, whole, later⟩ := reading
    refine ⟨?_, ih later⟩
    rcases Beside.tickCycle reads with ⟨k, found, -, beside⟩ | ⟨found, beside⟩
    · simp only [found]
      exact ⟨beside, whole k found⟩
    · simp only [found]
      exact beside

/-- A run of such ticks is a run of machine cycles that leaves the timers alone. -/
theorem Reading.run {journal : Option (Journal hooks)} (ticks : Nat)
    (reading : Reading hooks ticks m) :
    Cycles hooks (Beside timerView journal)
      (cyclesOf hooks (List.replicate ticks .tick) m).length m
      (runActions hooks (List.replicate ticks .tick) m) := by
  have allowed : Allowed hooks (Beside timerView journal) (List.replicate ticks .tick) m :=
    reading.allowed ticks
  have run := runActions_cycles _ (.start m) allowed
  rwa [Nat.zero_add] at run

/-! ### The closed forms -/

/-- Timer 0 as a sixteen-bit value. -/
def Cpu.timer0Value (c : Cpu) : Nat := (c.sfr Reg.th0).toNat * 256 + (c.sfr Reg.tl0).toNat

/-- Timer 0 as a thirteen-bit value. -/
def Cpu.timer0Short (c : Cpu) : Nat := (c.sfr Reg.th0).toNat * 32 + (c.sfr Reg.tl0).toNat % 32

/-- The low five bits are a remainder. -/
theorem low5_eq (v : Byte) : (v &&& 0x1F#8).toNat = v.toNat % 32 := by
  rw [BitVec.toNat_and]
  exact Nat.and_two_pow_sub_one_eq_mod v.toNat 5

/-- What Timer 0 holds after a run that leaves it alone. -/
theorem timer0_closed (runs : m.cpu.timer0Runs = true)
    (run : Cycles hooks Timer0Left cycles m n) :
    (m.cpu.sfr Reg.tmod &&& Tmod.t0Mode3 = Tmod.m0T0 →
      n.cpu.timer0Value = (m.cpu.timer0Value + cycles) % 65536 ∧
      n.cpu.timerOverflowCount .timer0 =
        m.cpu.timerOverflowCount .timer0 + (m.cpu.timer0Value + cycles) / 65536) ∧
    (m.cpu.sfr Reg.tmod &&& Tmod.t0Mode3 = 0#8 →
      n.cpu.timer0Short = (m.cpu.timer0Short + cycles) % 8192 ∧
      n.cpu.sfr Reg.tl0 &&& 0xE0#8 = m.cpu.sfr Reg.tl0 &&& 0xE0#8) ∧
    (m.cpu.sfr Reg.tmod &&& Tmod.t0Mode3 = Tmod.m1T0 →
      (n.cpu.sfr Reg.tl0).toNat =
        let first := (m.cpu.sfr Reg.tl0).toNat
        let reload := (m.cpu.sfr Reg.th0).toNat
        if first + cycles < 256 then first + cycles
        else reload + (first + cycles - 256) % (256 - reload)) := by
  -- The closed form of the counter, read at the top of each of the three modes.
  refine ⟨fun set => ?_, fun set => ?_, fun set => ?_⟩
  · have at' : Timer0At .sixteenBit m.cpu cycles n.cpu := timer0_follows runs set run
    have value := at'.value
    have count := at'.count
    rw [timer0Counter_eq, Timer0Mode.reload, Counter.after_zero (by decide)] at value count
    exact ⟨value, count⟩
  · have at' : Timer0At .thirteenBit m.cpu cycles n.cpu := timer0_follows runs set run
    have value := at'.value
    rw [timer0Counter_eq, Timer0Mode.reload, Counter.after_zero (by decide)] at value
    simp only [Timer0Mode.value, low5_eq] at value
    exact ⟨value, at'.unused rfl⟩
  · have at' : Timer0At .autoReload m.cpu cycles n.cpu := timer0_follows runs set run
    have value := at'.value
    rw [timer0Counter_eq, Counter.after_value] at value
    exact value

/-- What Timer 2 holds, has counted and has reported after a run that leaves it alone. -/
theorem timer2_closed {journal : Journal hooks} (sab : m.cpu.variant = .sab80535)
    (internal : m.cpu.timer2Internal = true)
    (run : Cycles hooks (Timer2Left journal) cycles m n) :
    let passed := m.cpu.timer2Value + m.cpu.timer2Cycles cycles
    n.cpu.timer2Value = passed % 65536 ∧
      n.cpu.timerOverflowCount .timer2 = m.cpu.timerOverflowCount .timer2 + passed / 65536 ∧
      ∃ added, journal.timer2Reports n = journal.timer2Reports m ++ added ∧
        added.length = passed / 65536 ∧ WrapReports added := by
  -- The counter of the counted cycles starts without a reload, so its closed form is a quotient.
  have at' := timer2_follows sab internal run
  have value := at'.value
  have count := at'.count
  have reports := at'.reports
  rw [timer2Counter_eq] at value count reports
  exact ⟨value, count, reports⟩

/--
Over every run of machine cycles in which nobody touches them, Timers 0 and 2 have closed forms:
what they hold, how often they have wrapped, whether their flags are set and what they have
reported. Behind its prescaler Timer 2 counts the even cycles, however the run is split.
-/
theorem timer_closed_forms (m n : Machine ω) (cycles : Nat) :
    (m.cpu.timer0Runs = true → Cycles hooks Timer0Left cycles m n →
      (m.cpu.sfr Reg.tmod &&& Tmod.t0Mode3 = Tmod.m0T0 →
        n.cpu.timer0Value = (m.cpu.timer0Value + cycles) % 65536 ∧
        n.cpu.timerOverflowCount .timer0 =
          m.cpu.timerOverflowCount .timer0 + (m.cpu.timer0Value + cycles) / 65536) ∧
      (m.cpu.sfr Reg.tmod &&& Tmod.t0Mode3 = 0#8 →
        n.cpu.timer0Short = (m.cpu.timer0Short + cycles) % 8192 ∧
        n.cpu.sfr Reg.tl0 &&& 0xE0#8 = m.cpu.sfr Reg.tl0 &&& 0xE0#8) ∧
      (m.cpu.sfr Reg.tmod &&& Tmod.t0Mode3 = Tmod.m1T0 →
        (n.cpu.sfr Reg.tl0).toNat =
          let first := (m.cpu.sfr Reg.tl0).toNat
          let reload := (m.cpu.sfr Reg.th0).toNat
          if first + cycles < 256 then first + cycles
          else reload + (first + cycles - 256) % (256 - reload))) ∧
    (m.cpu.timer0Runs = true → Cycles hooks Timer0Untouched cycles m n →
      ∀ mode : Timer0Mode, m.cpu.sfr Reg.tmod &&& Tmod.t0Mode3 = mode.bits →
        (has (n.cpu.sfr Reg.tcon) Tcon.tf0 = true ↔ has (m.cpu.sfr Reg.tcon) Tcon.tf0 = true ∨
          mode.top ≤ mode.value (m.cpu.sfr Reg.th0) (m.cpu.sfr Reg.tl0) + cycles)) ∧
    (m.cpu.variant = .sab80535 → m.cpu.timer2Internal = true → ∀ journal : Journal hooks,
      (Cycles hooks (Timer2Left journal) cycles m n →
        let passed := m.cpu.timer2Value + m.cpu.timer2Cycles cycles
        n.cpu.timer2Value = passed % 65536 ∧
          n.cpu.timerOverflowCount .timer2 = m.cpu.timerOverflowCount .timer2 + passed / 65536 ∧
          ∃ added, journal.timer2Reports n = journal.timer2Reports m ++ added ∧
            added.length = passed / 65536 ∧ WrapReports added) ∧
      (Cycles hooks (Timer2Untouched journal) cycles m n →
        (has (n.cpu.sfr Reg.ircon) Ircon.tf2 = true ↔
          has (m.cpu.sfr Reg.ircon) Ircon.tf2 = true ∨
            65536 ≤ m.cpu.timer2Value + m.cpu.timer2Cycles cycles))) ∧
    ∀ done first second,
      evenCycles done (first + second) = evenCycles done first + evenCycles (done + first) second := by
  -- The values, the two flags, and the counted cycles of a run in two parts.
  refine ⟨fun runs run => timer0_closed runs run, fun runs run mode set => ?_,
    fun sab internal journal => ⟨fun run => timer2_closed sab internal run, fun run => ?_⟩,
    evenCycles_add⟩
  · rw [timer0_flag runs set run, timer0Counter_eq, Bool.or_eq_true, decide_eq_true_iff,
      Counter.after_wraps_pos]
  · rw [timer2_flag sab internal run, timer2Counter_eq, Bool.or_eq_true, decide_eq_true_iff]
    have wrapped : 0 < (m.cpu.timer2Value + m.cpu.timer2Cycles cycles) / 65536 ↔
        65536 ≤ m.cpu.timer2Value + m.cpu.timer2Cycles cycles := by omega
    exact or_congr_right wrapped

/-- Both timers one cycle before they wrap. -/
def lastCounts : Machine (List Record) where
  cpu := ((({ Cpu.blank.reset true 0#8 with codeMem := fun _ => 0#8 }.store Reg.tmod 0x01#8).store
    Reg.tcon 0x10#8).store Reg.th0 0xFF#8).store Reg.tl0 0xFF#8 |>.store Reg.t2con 0x01#8
    |>.store Reg.th2 0xFF#8 |>.store Reg.tl2 0xFF#8
  host := []

/-- Three instructions later both have wrapped once; the first cycle has set their flags. -/
theorem timer_closed_forms_last :
    let n := advanceMachineCycle recordingHooks lastCounts
    let k := runActions recordingHooks (List.replicate 3 .tick) lastCounts
    (has (n.cpu.sfr Reg.tcon) Tcon.tf0 = true ∧ has (n.cpu.sfr Reg.ircon) Ircon.tf2 = true) ∧
      (k.cpu.timer0Value = 2 ∧ k.cpu.timerOverflowCount .timer0 = 1) ∧
      k.cpu.timer2Value = 2 ∧ (recordingJournal.timer2Reports k).length = 1 := by
  intro n k
  have whole : (advanceMachineCycle recordingHooks lastCounts).aborted recordingHooks = false := rfl
  obtain ⟨-, flag, first, -⟩ := timer_closed_forms lastCounts n 1
  -- The three instructions are NOPs.
  have reading : Reading recordingHooks 3 lastCounts :=
    ⟨fun _ => rfl, fun _ _ => rfl, fun _ => rfl, fun _ _ => rfl, fun _ => rfl, fun _ _ => rfl, trivial⟩
  have run : Cycles recordingHooks (Beside timerView (some recordingJournal)) 3 lastCounts k :=
    reading.run 3
  obtain ⟨zero, -, two, -⟩ := timer_closed_forms lastCounts k 3
  obtain ⟨value, count⟩ := (zero rfl (run.mono fun _ _ => Timer0Left.of_beside)).1 rfl
  obtain ⟨value2, -, added, reports, length, -⟩ :=
    (two rfl rfl recordingJournal).1 (run.mono fun _ _ => Timer2Left.of_beside)
  refine ⟨⟨?_, ?_⟩, ⟨value.trans rfl, count.trans rfl⟩, value2.trans rfl, ?_⟩
  · exact (flag rfl (.cycle (.start _) whole) .sixteenBit rfl).mpr (Or.inr (by decide))
  · exact ((first rfl rfl recordingJournal).2 (.cycle (.start _) whole)).mpr (Or.inr (by decide))
  · rw [reports, List.length_append, length]
    rfl

end Emu80535
