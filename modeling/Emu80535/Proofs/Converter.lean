import Emu80535.Lib.History
import Emu80535.Proofs.Events

/-! Conversions: how the register writes and machine cycles of a run drive the converter. -/

namespace Emu80535

variable {ω : Type} {hooks : Hooks ω} {m n : Machine ω}

open Machine

/-! ### What one turn of the converter does -/

/-- What a conversion latches on its first cycle. -/
structure Sample where
  channel : BitVec 3
  dapr : Byte
  input : Word

/-- The sample a conversion would latch now. -/
def Cpu.sample (c : Cpu) : Sample where
  channel := (c.sfr Reg.adcon).setWidth 3
  dapr := c.sfr Reg.dapr
  input := c.adc.inputs ((c.sfr Reg.adcon).setWidth 3)

/-- The converter works on a sample, in a given cycle of the conversion. -/
structure AdcState.Converts (a : AdcState) (s : Sample) (cycle : Nat) : Prop where
  active : a.active = true
  unarmed : a.armed = false
  busy : a.busy = true
  cycles : a.cycles = cycle
  channel : a.latchedChannel = s.channel
  dapr : a.latchedDapr = s.dapr
  input : a.latchedInput = s.input
  valid : a.referenceValid = adcReferencesValid s.dapr

/-- The converter is at rest. -/
structure AdcState.Rests (a : AdcState) : Prop where
  inactive : a.active = false
  unarmed : a.armed = false
  free : a.busy = false

/-- The first cycle of a conversion latches its sample and raises BSY. -/
structure Latches (before after : Cpu) : Prop where
  converts : after.adc.Converts before.sample 1
  bsy : has (after.sfr Reg.adcon) Adcon.bsy = true
  others : ∀ i, i ≠ Reg.adcon → after.sfr i = before.sfr i

/-- A cycle between the first and the last is only counted. -/
structure Continues (s : Sample) (cycle : Nat) (before after : Cpu) : Prop where
  converts : after.adc.Converts s cycle
  registers : after.sfr = before.sfr

/-- The last cycle of a conversion delivers its result, when its references allow one. -/
structure Completes (s : Sample) (before after : Cpu) : Prop where
  rests : after.adc.Rests
  bsy : has (after.sfr Reg.adcon) Adcon.bsy = false
  iadc : has (after.sfr Reg.ircon) Ircon.iadc = true
  result : after.sfr Reg.addat =
    if adcReferencesValid s.dapr then adcConvert s.input s.dapr else before.sfr Reg.addat

/-- An armed conversion starts. -/
theorem adcTick_latches (sab : m.cpu.variant = .sab80535)
    (settled : m.cpu.adc.startPending = false) (armed : m.cpu.adc.armed = true) :
    Latches m.cpu (adcTick hooks m).cpu := by
  have present : has (m.cpu.sfr Reg.adcon ||| Adcon.bsy) Adcon.bsy = true :=
    has_or_self (by decide)
  -- The turn reaches the branch of an armed conversion, which latches and nothing else.
  simp only [adcTick, sab, settled, armed, Bool.false_eq_true, if_true]
  refine ⟨⟨rfl, rfl, rfl, rfl, rfl, rfl, rfl, rfl⟩, ?_, fun i other => ?_⟩
  · simp [adcLatch, setBusy, emitAdc, mapAdc, Machine.emit, Machine.setSfr, Machine.mapCpu, present]
  · simp [adcLatch, setBusy, emitAdc, mapAdc, Machine.emit, Machine.setSfr, Machine.mapCpu,
      Function.update_of_ne other]

/-- A running conversion goes on. -/
theorem adcTick_continues {s : Sample} {cycle : Nat} (sab : m.cpu.variant = .sab80535)
    (settled : m.cpu.adc.startPending = false) (converts : m.cpu.adc.Converts s cycle)
    (early : cycle < 14) : Continues s (cycle + 1) m.cpu (adcTick hooks m).cpu := by
  have counted : (m.mapAdc fun a => { a with cycles := a.cycles + 1 }).cpu.adc.cycles < 15 := by
    simp only [mapAdc, mapCpu_cpu, converts.cycles]
    omega
  simp only [adcTick, sab, settled, converts.unarmed, converts.active, Bool.false_eq_true,
    Bool.true_eq_false, if_false, if_pos counted]
  exact ⟨{ converts with cycles := congrArg (· + 1) converts.cycles }, rfl⟩

/-- The store of the result, with the busy flag going down. -/
def Cpu.delivered (c : Cpu) : Cpu :=
  let result := if c.adc.referenceValid then
      c.store Reg.addat (adcConvert c.adc.latchedInput c.adc.latchedDapr) else c
  { result.store Reg.adcon (result.sfr Reg.adcon &&& ~~~Adcon.bsy) with
    adc := { c.adc with active := false, busy := false } }

/-- Completing a conversion delivers the result and requests an interrupt. -/
theorem adcComplete_eq (cycle : Nat) (m : Machine ω) :
    ∃ k : Machine ω, k.cpu = m.cpu.delivered.store Reg.ircon
        (m.cpu.delivered.sfr Reg.ircon ||| Ircon.iadc) ∧
      (adcComplete hooks cycle m).cpu = (irqSync hooks k).cpu := by
  refine ⟨_, ?_, rfl⟩
  rw [irqWrite_cpu]
  cases valid : m.cpu.adc.referenceValid <;>
    simp [Cpu.delivered, Cpu.store, valid, setBusy, mapAdc, Machine.setSfr, Machine.mapCpu]

/-- A running conversion ends with its fifteenth cycle. -/
theorem adcTick_completes {s : Sample} (sab : m.cpu.variant = .sab80535)
    (settled : m.cpu.adc.startPending = false) (converts : m.cpu.adc.Converts s 14) :
    Completes s m.cpu (adcTick hooks m).cpu := by
  -- The fifteenth cycle is counted before the conversion completes.
  generalize counting : (m.mapAdc fun a => { a with cycles := a.cycles + 1 }) = n
  have last : ¬ n.cpu.adc.cycles < 15 := by
    rw [← counting]
    simp only [mapAdc, mapCpu_cpu, converts.cycles]
    omega
  have ends : adcTick hooks m = adcComplete hooks (m.cpu.machineCycleCount + 1) n := by
    simp only [adcTick, sab, settled, converts.unarmed, converts.active, Bool.false_eq_true,
      Bool.true_eq_false, if_false, counting, if_neg last]
    rfl
  obtain ⟨k, delivered, same⟩ := @adcComplete_eq ω hooks (m.cpu.machineCycleCount + 1) n
  have synced : Within (none : Option (Journal hooks)) { regs := [Reg.tcon] } k
      (irqSync hooks k) := (Within.refl k).irqSync (by decide)
  have kept : ∀ i, i ≠ Reg.tcon → (adcTick hooks m).cpu.sfr i = k.cpu.sfr i := by
    intro i other
    rw [ends, same]
    exact synced.sfr i (by simpa using other)
  have state : (adcTick hooks m).cpu.adc = n.cpu.delivered.adc := by
    rw [ends, same, synced.adc rfl, delivered]
    rfl
  have valid : n.cpu.adc.referenceValid = adcReferencesValid s.dapr := by
    rw [← counting]
    exact converts.valid
  refine ⟨?_, ?_, ?_, ?_⟩
  · rw [state, ← counting]
    exact ⟨rfl, converts.unarmed, rfl⟩
  · rw [kept _ (by decide), delivered]
    simp only [Cpu.store, Cpu.delivered]
    rw [Function.update_of_ne (by decide), Function.update_self]
    exact has_andNot_self
  · rw [kept _ (by decide), delivered]
    simp only [Cpu.store, Function.update_self]
    exact has_or_self (by decide)
  · rw [kept _ (by decide), delivered]
    simp only [Cpu.store, Cpu.delivered]
    rw [Function.update_of_ne (by decide), Function.update_of_ne (by decide), valid]
    cases adcReferencesValid s.dapr with
    | false => simp [← counting, mapAdc]
    | true =>
      simp only [if_true, Function.update_self]
      rw [← counting]
      simp only [mapAdc, mapCpu_cpu, converts.input, converts.dapr]

/-- The converter's turn neither opens nor closes a register write. -/
theorem adcTick_nesting (m : Machine ω) :
    (adcTick hooks m).cpu.variant = m.cpu.variant ∧
      (adcTick hooks m).cpu.adc.startPending = m.cpu.adc.startPending ∧
      (adcTick hooks m).cpu.adc.sfrWriteDepth = m.cpu.adc.sfrWriteDepth := by
  have within := (Within.adcTicks none m : Within (none : Option (Journal hooks)) _ _ _)
  have variant : ((adcTick hooks m).cpu.masked m.cpu).variant = m.cpu.variant := by
    rw [within.rest]
  -- Inside the turn only the delivery of a result is not a plain assignment.
  refine ⟨variant, ?_⟩
  have completed : ∀ (cycle : Nat) (n : Machine ω),
      (adcComplete hooks cycle n).cpu.adc = n.cpu.delivered.adc := by
    intro cycle n
    obtain ⟨k, delivered, same⟩ := @adcComplete_eq ω hooks cycle n
    have synced : Within (none : Option (Journal hooks)) { regs := [Reg.tcon] } k
        (irqSync hooks k) := (Within.refl k).irqSync (by decide)
    rw [same, synced.adc rfl, delivered]
    rfl
  -- The three early returns of the turn leave the state alone, a running step only counts.
  simp only [adcTick]
  split
  · exact ⟨rfl, rfl⟩
  · split
    · exact ⟨rfl, rfl⟩
    · split
      · exact ⟨rfl, rfl⟩
      · split
        · exact ⟨rfl, rfl⟩
        · rw [completed]
          exact ⟨rfl, rfl⟩

/-- A converter at rest does nothing. -/
theorem adcTick_rests (sab : m.cpu.variant = .sab80535) (settled : m.cpu.adc.startPending = false)
    (rests : m.cpu.adc.Rests) : adcTick hooks m = m := by
  simp [adcTick, sab, settled, rests.unarmed, rests.inactive]

/-- A converter that is asked for a conversion waits for the register write to end. -/
theorem adcTick_waits (pending : m.cpu.adc.startPending = true) : adcTick hooks m = m := by
  simp [adcTick, pending]

/-! ### What holds at the end of a machine cycle -/

/-- What holds of the converter where a machine cycle has ended and no request is being written. -/
structure Cpu.ConverterSound (c : Cpu) : Prop where
  bsy : has (c.sfr Reg.adcon) Adcon.bsy = c.adc.busy
  exclusive : ¬ (c.adc.active = true ∧ c.adc.armed = true)
  running : c.adc.active = true → c.adc.busy = true ∧ 1 ≤ c.adc.cycles ∧ c.adc.cycles ≤ 14
  occupied : c.adc.busy = true → c.adc.active = true ∨ c.adc.armed = true
  settled : c.adc.startPending = false

/-- What holds of it where a request is being written and its callback has run a machine cycle. -/
structure Cpu.ConverterWaits (c : Cpu) : Prop where
  bsy : has (c.sfr Reg.adcon) Adcon.bsy = c.adc.busy
  inactive : c.adc.active = false
  unarmed : c.adc.armed = false
  pending : c.adc.startPending = true

/-- What the converter has done since the last request: the CPU at each of its turns. -/
abbrev Turns := Option (List Cpu)

/-- What a turn of the converter does, given the turns there have been since the last request. -/
def Turns.Step (before after : Cpu) : Turns → Prop
  | none => after = before
  | some [] => Latches before after
  | some (first :: rest) =>
    if rest.length + 1 < 14 then Continues first.sample (rest.length + 2) before after
    else if rest.length + 1 = 14 then Completes first.sample before after
    else after = before

/-- The converter as the turns since the last request have left it. -/
def Turns.Shows (a : AdcState) : Turns → Prop
  | none => a.Rests
  | some [] => a.armed = true ∧ a.active = false
  | some (first :: rest) =>
    if rest.length + 1 ≤ 14 then a.Converts first.sample (rest.length + 1) else a.Rests

namespace Turns.Shows

variable {turns : Turns}

/-- The state of a conversion is in none of the inputs or of the nesting of register writes. -/
theorem of_same {a b : AdcState} (shows : turns.Shows a)
    (same : { b with
      inputs := a.inputs
      sfrWriteDepth := a.sfrWriteDepth
      startPending := a.startPending } = a) : turns.Shows b := by
  -- The phase shown decides which fields are compared, and none of them is an input.
  rw [← same] at shows
  match turns, shows with
  | none, rests => exact ⟨rests.inactive, rests.unarmed, rests.free⟩
  | some [], shown => exact shown
  | some (first :: rest), shown =>
    simp only [Turns.Shows] at shown ⊢
    split
    · rename_i running
      rw [if_pos running] at shown
      exact { shown with }
    · rename_i outside
      rw [if_neg outside] at shown
      exact ⟨shown.inactive, shown.unarmed, shown.free⟩

/-- With the mirror in step the converter is sound, unless a request is being written. -/
theorem sound {c : Cpu} (shown : turns.Shows c.adc)
    (bsy : has (c.sfr Reg.adcon) Adcon.bsy = c.adc.busy) (settled : c.adc.startPending = false) :
    c.ConverterSound := by
  -- At rest every clause about a running conversion is empty.
  have idle : c.adc.Rests → c.ConverterSound := fun rests =>
    ⟨bsy, fun both => absurd (rests.inactive.symm.trans both.1) Bool.false_ne_true,
      fun active => absurd (rests.inactive.symm.trans active) Bool.false_ne_true,
      fun busy => absurd (rests.free.symm.trans busy) Bool.false_ne_true, settled⟩
  -- By the phase: none asked, armed with all its turns ahead, or running.
  rcases turns with _ | _ | ⟨first, rest⟩
  · exact idle shown
  · obtain ⟨armed, inactive⟩ := shown
    exact ⟨bsy, fun both => absurd (inactive.symm.trans both.1) Bool.false_ne_true,
      fun active => absurd (inactive.symm.trans active) Bool.false_ne_true,
      fun _ => Or.inr armed, settled⟩
  · simp only [Turns.Shows] at shown
    split at shown
    · rename_i running
      have cycles : c.adc.cycles = rest.length + 1 := shown.cycles
      exact ⟨bsy, fun both => absurd (shown.unarmed.symm.trans both.2) Bool.false_ne_true,
        fun _ => ⟨shown.busy, by omega, by omega⟩, fun _ => Or.inl shown.active, settled⟩
    · exact idle shown

/-- A turn of the converter is as the turns before it say, and is counted among them. -/
theorem turn (shows : turns.Shows m.cpu.adc) (sab : m.cpu.variant = .sab80535)
    (bsy : has (m.cpu.sfr Reg.adcon) Adcon.bsy = m.cpu.adc.busy)
    (settled : m.cpu.adc.startPending = false) :
    turns.Step m.cpu (adcTick hooks m).cpu ∧
      Turns.Shows (adcTick hooks m).cpu.adc (turns.map (· ++ [m.cpu])) ∧
      has ((adcTick hooks m).cpu.sfr Reg.adcon) Adcon.bsy = (adcTick hooks m).cpu.adc.busy := by
  have rested : m.cpu.adc.Rests → (adcTick hooks m).cpu = m.cpu := by
    intro rests
    rw [adcTick_rests sab settled rests]
  -- The cases are the stages of a conversion: none, asked for, running, and over.
  rcases turns with _ | _ | ⟨first, rest⟩
  · have same := rested shows
    rw [same]
    exact ⟨rfl, shows, bsy⟩
  · have latches := @adcTick_latches ω hooks m sab settled shows.1
    refine ⟨latches, ?_, latches.bsy.trans latches.converts.busy.symm⟩
    simp only [Option.map_some, List.nil_append, Turns.Shows, List.length_nil]
    exact latches.converts
  · simp only [Turns.Step, Option.map_some, List.cons_append]
    simp only [Turns.Shows] at shows
    rcases Nat.lt_trichotomy (rest.length + 1) 14 with early | last | late
    · rw [if_pos (by omega)] at shows
      have continues := @adcTick_continues ω hooks m _ _ sab settled shows early
      rw [if_pos early]
      refine ⟨continues, ?_, ?_⟩
      · simp only [Turns.Shows, List.length_append, List.length_singleton]
        rw [if_pos (by omega)]
        exact continues.converts
      · rw [continues.registers, continues.converts.busy]
        exact bsy.trans shows.busy
    · rw [if_pos (by omega), last] at shows
      have completes := @adcTick_completes ω hooks m _ sab settled shows
      rw [if_neg (by omega), if_pos last]
      refine ⟨completes, ?_, completes.bsy.trans completes.rests.free.symm⟩
      simp only [Turns.Shows, List.length_append, List.length_singleton]
      rw [if_neg (by omega)]
      exact completes.rests
    · rw [if_neg (by omega)] at shows
      have same := rested shows
      rw [if_neg (by omega), if_neg (by omega), same]
      refine ⟨rfl, ?_, bsy⟩
      simp only [Turns.Shows, List.length_append, List.length_singleton]
      rw [if_neg (by omega)]
      exact shows

end Turns.Shows

/-! ### What a run does to it -/

/--
What a run has done to the converter.

A request stays open until the outermost register write around it has ended.
-/
structure Conversion where
  clock : Nat
  depth : Nat := 0
  asked : Bool := false
  turns : Turns := none

/-- A request starts over, and every turn after the write it is made in is counted. -/
def Conversion.next (conversion : Conversion) : DeviceEvent → Conversion
  | .enter => { conversion with depth := conversion.depth + 1 }
  | .request => { conversion with asked := true, turns := some [] }
  | .leave =>
    { conversion with
      depth := conversion.depth - 1
      asked := conversion.asked && decide (1 < conversion.depth) }
  | .turn before _ =>
    { conversion with
      clock := conversion.clock + 1
      turns := if conversion.asked then conversion.turns else conversion.turns.map (· ++ [before]) }
  | .overflow .. | .hold .. => conversion

/--
The converter has one turn in each machine cycle.

A conversion takes fifteen turns, counted from the end of the write that asked for it.
-/
def conversionMonitor : Monitor Conversion DeviceEvent where
  next := Conversion.next
  permits conversion
    | .turn before after =>
      before.machineCycleCount = conversion.clock ∧
        if conversion.asked then after = before ∧ after.ConverterWaits
        else conversion.turns.Step before after ∧ after.ConverterSound
    | _ => True

/-- The devices agree with what has happened, also while a register write is in progress. -/
structure Conversion.Tracks (conversion : Conversion) (d : Devices) : Prop where
  sab : d.variant = .sab80535
  clock : d.clock = conversion.clock
  depth : d.adc.sfrWriteDepth = conversion.depth
  bsy : has d.adcon Adcon.bsy = d.adc.busy
  pending : d.adc.startPending = conversion.asked
  waits : conversion.asked = true → conversion.turns = some [] ∧ d.adc.active = false ∧
    d.adc.armed = false ∧ 0 < conversion.depth
  settled : conversion.asked = false → conversion.turns.Shows d.adc

namespace Conversion.Tracks

variable {conversion : Conversion}

/-- Where no register write is in progress no request is open. -/
theorem unasked (tracks : conversion.Tracks m.cpu.devices)
    (outermost : m.cpu.adc.sfrWriteDepth = 0) : conversion.asked = false := by
  cases asked : conversion.asked with
  | false => rfl
  | true =>
    have nested := (tracks.waits asked).2.2.2
    have depth : m.cpu.adc.sfrWriteDepth = conversion.depth := tracks.depth
    omega

/-- Between two outermost register writes the converter is sound. -/
theorem sound (tracks : conversion.Tracks m.cpu.devices)
    (outermost : m.cpu.adc.sfrWriteDepth = 0) : m.cpu.ConverterSound := by
  have unasked := tracks.unasked outermost
  exact (tracks.settled unasked).sound tracks.bsy (tracks.pending.trans unasked)

/-- A turn of the converter is as what came before says. -/
theorem turn (tracks : conversion.Tracks m.cpu.devices) :
    conversionMonitor.permits conversion (.turn m.cpu (adcTick hooks m).cpu) ∧
      (conversion.next (.turn m.cpu (adcTick hooks m).cpu)).Tracks
        (adcTick hooks m).clocked.cpu.devices := by
  have sab : m.cpu.variant = .sab80535 := tracks.sab
  have clock : m.cpu.machineCycleCount = conversion.clock := tracks.clock
  have depth : m.cpu.adc.sfrWriteDepth = conversion.depth := tracks.depth
  have pending : m.cpu.adc.startPending = conversion.asked := tracks.pending
  cases asked : conversion.asked with
  | true =>
    -- The callback of a write runs the cycle, so the converter has to wait.
    obtain ⟨fresh, inactive, unarmed, nested⟩ := tracks.waits asked
    have same := @adcTick_waits ω hooks m (pending.trans asked)
    rw [same]
    refine ⟨⟨clock, ?_⟩, ?_⟩
    · rw [if_pos asked]
      exact ⟨rfl, tracks.bsy, inactive, unarmed, pending.trans asked⟩
    · simp only [next, asked, if_true]
      exact ⟨sab, congrArg (· + 1) clock, depth, tracks.bsy, pending.trans asked,
        fun _ => ⟨fresh, inactive, unarmed, nested⟩, fun closed => absurd closed.symm Bool.false_ne_true⟩
  | false =>
    obtain ⟨steps, shows, bsy⟩ := @Turns.Shows.turn ω hooks m conversion.turns
      (tracks.settled asked) sab tracks.bsy (pending.trans asked)
    obtain ⟨variant, kept, nesting⟩ := @adcTick_nesting ω hooks m
    have moves : Moves m.cpu (adcTick hooks m).cpu := (Moves.refl m.cpu).adcTick
    have still := clock_of_stable moves.stable
    refine ⟨⟨clock, ?_⟩, ?_⟩
    · rw [if_neg (ne_true_of_eq_false asked)]
      exact ⟨steps, shows.sound bsy ((kept.trans pending).trans asked)⟩
    · simp only [next, asked, Bool.false_eq_true, if_false]
      exact ⟨variant.trans sab, congrArg (· + 1) (still.trans clock), nesting.trans depth, bsy,
        (kept.trans pending).trans asked, fun opened => absurd opened Bool.false_ne_true,
        fun _ => shows⟩

/-- What touches neither the converter nor its mirror is as good as nothing. -/
theorem of_same {a b : Devices} (tracks : conversion.Tracks a) (variant : b.variant = a.variant)
    (clock : b.clock = a.clock) (adc : b.adc = a.adc) (adcon : b.adcon = a.adcon) :
    conversion.Tracks b where
  sab := variant.trans tracks.sab
  clock := clock.trans tracks.clock
  depth := by
    rw [adc]
    exact tracks.depth
  bsy := by
    rw [adc, adcon]
    exact tracks.bsy
  pending := by
    rw [adc]
    exact tracks.pending
  waits := by
    rw [adc]
    exact tracks.waits
  settled := by
    rw [adc]
    exact tracks.settled

/-- Nor do the inputs, until a conversion latches one of them. -/
theorem setInputs {c : Cpu} (tracks : conversion.Tracks c.devices) (inputs : BitVec 3 → Word) :
    conversion.Tracks { c with adc := { c.adc with inputs := inputs } }.devices where
  sab := tracks.sab
  clock := tracks.clock
  depth := tracks.depth
  bsy := tracks.bsy
  pending := tracks.pending
  waits := tracks.waits
  settled := fun settled => (tracks.settled settled).of_same rfl

/-- Closing a register write arms the conversion it asked for, when it is the outermost. -/
theorem finished {d : Devices} (tracks : conversion.Tracks d) :
    (conversion.next .leave).Tracks d.finished := by
  -- BSY is written with the busy flag in every case.
  have mirror : ∀ b : Bool, has (if b then d.adcon ||| Adcon.bsy else d.adcon &&& ~~~Adcon.bsy)
      Adcon.bsy = b := by
    rintro (_ | _)
    · exact has_andNot_self
    · exact has_or_self (by decide)
  have pending := tracks.pending
  have depth := tracks.depth
  simp only [Devices.finished, if_pos tracks.sab, next]
  -- Without a request inside the nesting, closing it only lowers the depth.
  cases asked : conversion.asked with
  | false =>
    rw [asked] at pending
    simp only [pending, Bool.false_eq_true, and_false, if_false, Bool.false_and]
    refine ⟨tracks.sab, tracks.clock, congrArg (· - 1) depth, mirror _, rfl,
      fun opened => absurd opened Bool.false_ne_true,
      fun _ => (tracks.settled asked).of_same ?_⟩
    rw [← pending]
  | true =>
    rw [asked] at pending
    obtain ⟨fresh, inactive, unarmed, nested⟩ := tracks.waits asked
    -- With one, the outermost close arms the conversion; an inner one leaves it waiting.
    by_cases outermost : d.adc.sfrWriteDepth - 1 = 0
    · have last : decide (1 < conversion.depth) = false := by
        simp only [decide_eq_false_iff_not]
        omega
      simp only [outermost, pending, and_self, if_true, last, Bool.and_false]
      have none : 0 = conversion.depth - 1 := by
        rw [← depth]
        exact outermost.symm
      refine ⟨tracks.sab, tracks.clock, none, mirror _, rfl,
        fun opened => absurd opened Bool.false_ne_true, fun _ => ?_⟩
      rw [fresh]
      exact ⟨rfl, inactive⟩
    · have inner : decide (1 < conversion.depth) = true := by
        simp only [decide_eq_true_eq]
        omega
      simp only [outermost, false_and, if_false, inner, Bool.and_true]
      exact ⟨tracks.sab, tracks.clock, congrArg (· - 1) depth, mirror _, pending,
        fun _ => ⟨fresh, inactive, unarmed, by simp only; omega⟩,
        fun ended => absurd ended.symm Bool.false_ne_true⟩

/-- The same for all that a register write does after its callback. -/
theorem closed (tracks : conversion.Tracks m.cpu.devices) (serial : Bool) :
    (conversion.next .leave).Tracks (writeClosed serial m).cpu.devices := by
  rw [writeClosed, adcFinishSfrTransaction_devices]
  have apart : Reg.adcon ≠ Reg.sbuf := by decide
  cases serial with
  | false => exact finished tracks
  | true =>
    refine finished (tracks.of_same rfl rfl rfl ?_)
    simp only [if_true, Cpu.devices, setSfr_sfr, Function.update_of_ne apart]

/-- Opening one is noted before its callback runs. -/
theorem opened (tracks : conversion.Tracks m.cpu.devices) (index : SfrIndex) (value : Byte) :
    (conversionMonitor.after conversion (.enter :: m.cpu.written index value)).Tracks
      (m.cpu.opened index value).devices := by
  have sab : m.cpu.variant = .sab80535 := tracks.sab
  have depth : m.cpu.adc.sfrWriteDepth = conversion.depth := tracks.depth
  have pending : m.cpu.adc.startPending = conversion.asked := tracks.pending
  by_cases dapr : index = Reg.dapr
  · have asked : m.cpu.written index value = [.request] := by simp [Cpu.written, sab, dapr]
    have adcon : (m.cpu.opened index value).sfr Reg.adcon = m.cpu.sfr Reg.adcon := by
      simp [Cpu.opened, Cpu.store, dapr, Function.update_of_ne (by decide : Reg.adcon ≠ Reg.dapr)]
    rw [asked]
    simp only [Monitor.after_cons, Monitor.after_nil, conversionMonitor, next]
    refine ⟨sab, tracks.clock, ?_, ?_, ?_, fun _ => ?_, fun closed => absurd closed.symm Bool.false_ne_true⟩
    · simp [Cpu.devices, Cpu.opened, dapr, depth]
    · simp only [Cpu.devices, adcon]
      refine tracks.bsy.trans ?_
      simp [Cpu.opened, Cpu.devices, dapr]
    · simp [Cpu.devices, Cpu.opened, dapr]
    · simp [Cpu.devices, Cpu.opened, dapr]
  · have quiet : conversionMonitor.after conversion (.enter :: m.cpu.written index value) =
        { conversion with depth := conversion.depth + 1 } := by
      simp only [Cpu.written, dapr, and_false, if_false]
      split <;> rfl
    have adc : (m.cpu.opened index value).adc =
        { m.cpu.adc with sfrWriteDepth := m.cpu.adc.sfrWriteDepth + 1 } := by
      simp [Cpu.opened, dapr]
    have mirror : has ((m.cpu.opened index value).sfr Reg.adcon) Adcon.bsy = m.cpu.adc.busy := by
      by_cases adcon : index = Reg.adcon
      · -- The stored value carries the busy flag, whatever firmware put in its place.
        have stored : (m.cpu.opened index value).sfr Reg.adcon =
            (value &&& ~~~Adcon.bsy) ||| (if m.cpu.adc.busy then Adcon.bsy else 0#8) := by
          simp [Cpu.opened, Cpu.store, Cpu.storedValue, adcon, sab]
        rw [stored, has_or, has_andNot_self]
        cases m.cpu.adc.busy <;> rfl
      · have kept : (m.cpu.opened index value).sfr Reg.adcon = m.cpu.sfr Reg.adcon := by
          simp [Cpu.opened, Cpu.store, Function.update_of_ne (Ne.symm adcon)]
        rw [kept]
        exact tracks.bsy
    rw [quiet]
    refine ⟨sab, tracks.clock, ?_, ?_, ?_, fun opened => ?_, fun closed => ?_⟩
    · simp only [Cpu.devices, adc, depth]
    · simp only [Cpu.devices, adc]
      exact mirror
    · simp only [Cpu.devices, adc]
      exact pending
    · obtain ⟨fresh, inactive, unarmed, -⟩ := tracks.waits opened
      simp only [Cpu.devices, adc]
      exact ⟨fresh, inactive, unarmed, Nat.succ_pos _⟩
    · simp only [Cpu.devices, adc]
      exact (tracks.settled closed).of_same rfl

end Conversion.Tracks

/-- Opening a register write permits itself, and a request if it makes one. -/
theorem conversionMonitor_opened (conversion : Conversion) (c : Cpu) (index : SfrIndex)
    (value : Byte) : conversionMonitor.Accepts conversion (.enter :: c.written index value) := by
  refine conversionMonitor.accepts_of_forall _ _ fun e member s => ?_
  simp only [Cpu.written, List.mem_cons] at member
  -- The events of a write are its opening and at most one request, both permitted.
  rcases member with rfl | member
  · trivial
  · split at member
    · rw [List.mem_singleton.mp member]
      trivial
    · split at member
      · rw [List.mem_singleton.mp member]
        trivial
      · exact absurd member List.not_mem_nil

/-- What a course leaves of the converter, and that every turn in it was as promised. -/
theorem Course.converts {journal : Option (Journal hooks)} {log : List DeviceEvent}
    (course : Course journal log m n) :
    ∀ {conversion : Conversion}, conversion.Tracks m.cpu.devices →
      conversionMonitor.Accepts conversion log ∧
        (conversionMonitor.after conversion log).Tracks n.cpu.devices ∧
        (conversionMonitor.after conversion log).depth = conversion.depth := by
  -- The induction is on the course; a write contains the course of its callback.
  induction course with
  | refl m => exact fun tracks => ⟨trivial, tracks, rfl⟩
  | beside _ rest ih =>
    intro conversion tracks
    obtain ⟨accepts, after, depth⟩ := ih tracks
    exact ⟨accepts, after.of_same (congrArg Devices.variant rest.devices)
      (congrArg Devices.clock rest.devices) (congrArg Devices.adc rest.devices)
      (congrArg Devices.adcon rest.devices), depth⟩
  | @overflow log m n _ kept ih =>
    intro conversion tracks
    obtain ⟨accepts, after, depth⟩ := ih tracks
    have change : Within (none : Option (Journal hooks)) serialScope n
        (uartTimer1Overflow hooks n) :=
      (Within.refl n).uartTimer1Overflow rfl (by decide) (by decide) fun _ _ _ _ _ _ _ => rfl
    have moves : Moves n.cpu (uartTimer1Overflow hooks n).cpu :=
      (Moves.refl n.cpu).uartTimer1Overflow
    have variant : (uartTimer1Overflow hooks n).cpu.variant = n.cpu.variant :=
      congrArg Fixed.variant (Stable.fixed_eq moves.stable)
    refine ⟨(conversionMonitor.accepts_concat ..).mpr ⟨accepts, trivial⟩, ?_, ?_⟩
    · rw [conversionMonitor.after_append]
      exact after.of_same variant (clock_of_stable moves.stable) (change.adc rfl)
        (change.sfr _ (by decide))
    · rw [conversionMonitor.after_append]
      exact depth
  | @turn log m n _ ih =>
    intro conversion tracks
    obtain ⟨accepts, after, depth⟩ := ih tracks
    obtain ⟨turned, later⟩ := @Conversion.Tracks.turn ω hooks n _ after
    refine ⟨(conversionMonitor.accepts_concat ..).mpr ⟨accepts, turned⟩, ?_, ?_⟩
    · rw [conversionMonitor.after_append]
      exact later
    · rw [conversionMonitor.after_append]
      exact depth
  | @inject log m n data ninth _ ih =>
    intro conversion tracks
    obtain ⟨accepts, after, depth⟩ := ih tracks
    have same : (injectRxFrame hooks data ninth n).2.cpu.adc = n.cpu.adc ∧
        (injectRxFrame hooks data ninth n).2.cpu.variant = n.cpu.variant ∧
        (injectRxFrame hooks data ninth n).2.cpu.machineCycleCount = n.cpu.machineCycleCount ∧
        (injectRxFrame hooks data ninth n).2.cpu.sfr = n.cpu.sfr := by
      simp only [injectRxFrame]
      split
      · simp only [emitUart_cpu, raw_cpu]
        exact ⟨rfl, rfl, rfl, rfl⟩
      · exact ⟨rfl, rfl, rfl, rfl⟩
    exact ⟨accepts, after.of_same same.2.1 same.2.2.1 same.1 (congrFun same.2.2.2 _), depth⟩
  | @input log m n channel value _ ih =>
    intro conversion tracks
    obtain ⟨accepts, after, depth⟩ := ih tracks
    simp only [adcSetInput]
    split
    · exact ⟨accepts, after, depth⟩
    · exact ⟨accepts, after.setInputs _, depth⟩
  | @write log inner m n c k index value _ _ closing ih ihInner =>
    intro conversion tracks
    obtain ⟨accepts, after, depth⟩ := ih tracks
    have opening := @writeOpened_cpu ω hooks n after.sab index value
    have opened := after.opened index value
    rw [← opening] at opened
    obtain ⟨inside, called, back⟩ := ihInner opened
    have closed := called.closed (decide (n.cpu.variant = .sab80535 ∧ index = Reg.sbuf))
    have deeper : (conversionMonitor.after (conversionMonitor.after conversion log)
        (.enter :: n.cpu.written index value)).depth = conversion.depth + 1 := by
      rw [← depth]
      simp only [Cpu.written, Monitor.after_cons]
      split
      · rfl
      · split <;> rfl
    -- The events of the write and of its callback come after those before it.
    have apart : log ++ .enter :: (n.cpu.written index value ++ inner ++ [.leave]) =
        log ++ ((.enter :: n.cpu.written index value) ++ (inner ++ [.leave])) := by simp
    rw [apart]
    refine ⟨?_, ?_, ?_⟩
    · rw [conversionMonitor.accepts_append, conversionMonitor.accepts_append,
        conversionMonitor.accepts_concat]
      exact ⟨accepts, conversionMonitor_opened _ _ _ _, inside, trivial⟩
    · rw [conversionMonitor.after_append, conversionMonitor.after_append,
        conversionMonitor.after_append]
      exact closed.of_same (congrArg Devices.variant closing.devices)
        (congrArg Devices.clock closing.devices) (congrArg Devices.adc closing.devices)
        (congrArg Devices.adcon closing.devices)
    · rw [conversionMonitor.after_append, conversionMonitor.after_append,
        conversionMonitor.after_append]
      exact congrArg (· - 1) (back.trans deeper)

/-! ### Whole runs -/

/-- A reset leaves the converter at rest. -/
theorem reset_tracks {c : Cpu} (sab : c.variant = .sab80535) (wipe : Bool) (rand : Byte) :
    Conversion.Tracks { clock := (c.reset wipe rand).machineCycleCount }
      (c.reset wipe rand).devices := by
  have apart : Reg.adcon ≠ Reg.sbuf := by decide
  have adc : (c.reset wipe rand).adc = resetAdc := by cases wipe <;> rfl
  have variant : (c.reset wipe rand).variant = .sab80535 := (c.reset_variant wipe rand).trans sab
  have cleared : ∀ variant wipe, resetSfr variant wipe Reg.adcon = 0#8 := by
    -- Every variant clears ADCON, with the wipe and without it.
    rintro (_ | _ | _) (_ | _) <;> decide
  have adcon : (c.reset wipe rand).sfr Reg.adcon = 0#8 := by
    simp only [Cpu.reset, Function.update_of_ne apart]
    exact cleared _ _
  refine ⟨variant, rfl, ?_, ?_, ?_, fun opened => absurd opened Bool.false_ne_true, fun _ => ?_⟩
  · simp only [Cpu.devices, adc]
    rfl
  · simp only [Cpu.devices, adc, adcon]
    rfl
  · simp only [Cpu.devices, adc]
    rfl
  · simp only [Cpu.devices, adc]
    exact ⟨rfl, rfl, rfl⟩

/-- A run begins with no conversion asked for. -/
theorem Machine.IsReset.tracks (fresh : m.IsReset) :
    Conversion.Tracks { clock := m.cpu.machineCycleCount } m.cpu.devices := by
  obtain ⟨c, wipe, rand, image, entry, sab, same⟩ := fresh
  have tracks := reset_tracks sab wipe rand
  rw [same]
  exact ⟨tracks.sab, tracks.clock, tracks.depth, tracks.bsy, tracks.pending, tracks.waits,
    tracks.settled⟩

/-- Every supervised state that is not aborted tracks the conversions of its run. -/
theorem Supervised.tracks (sticky : hooks.Sticky) (orderly : hooks.Orderly none)
    (supervised : Supervised hooks m) (kept : m.aborted hooks = false)
    (sab : m.cpu.variant = .sab80535) :
    ∃ conversion : Conversion, conversion.Tracks m.cpu.devices ∧ conversion.depth = 0 := by
  refine supervised.of_courses (I := fun c => ∃ conversion : Conversion,
    conversion.Tracks c.devices ∧ conversion.depth = 0) sticky orderly
    (fun m fresh => ⟨_, fresh.tracks, rfl⟩) (fun m n log course _ before => ?_) kept sab
  -- The run up to here tracks its conversions, and the last course carries them on.
  obtain ⟨conversion, tracks, outermost⟩ := before
  obtain ⟨-, after, same⟩ := course.converts tracks
  exact ⟨_, after, same.trans outermost⟩

/-! ### The result of a conversion -/

/-- What the history of a run says of the CPU it ends in. -/
structure Conversion.Ends (conversion : Conversion) (c : Cpu) : Prop where
  clock : c.machineCycleCount = conversion.clock
  closed : conversion.asked = false
  shows : conversion.turns.Shows c.adc
  sound : c.ConverterSound

end Emu80535
