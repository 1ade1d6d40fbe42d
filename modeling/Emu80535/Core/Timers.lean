import Emu80535.Core.Sfr

/-! The classic timers, the Siemens Timer 2 and the classic serial shortcut. -/

namespace Emu80535

variable {ω : Type}

/-! ### Overflow reports -/

/-- The registers a timer counts in, low byte first. -/
def TimerId.regs : TimerId → SfrIndex × SfrIndex
  | .timer0 => (Reg.tl0, Reg.th0)
  | .timer1 => (Reg.tl1, Reg.th1)
  | .timer2 => (Reg.tl2, Reg.th2)

/-- `timer_overflow_emit`: count the wrap, clock the serial port, then tell the observer. -/
def timerOverflowEmit (hooks : Hooks ω) (timer : TimerId) (m : Machine ω) : Machine ω :=
  -- The wrap is counted before anyone hears of it.
  let m := m.mapCpu fun c =>
    { c with timerOverflowCount :=
        Function.update c.timerOverflowCount timer (c.timerOverflowCount timer + 1) }
  let m :=
    if timer = .timer1 ∧ m.cpu.variant = .sab80535 then uartTimer1Overflow hooks m else m
  -- An abort of the serial port keeps the report back.
  if m.aborted hooks then m
  else
    m.emit hooks
      (.timerOverflow timer (m.cpu.machineCycleCount + 1) (m.cpu.sfr timer.regs.1)
        (m.cpu.sfr timer.regs.2))

namespace Machine

/-- Set timer flags of TCON, stamped with the cycle being completed. -/
def raiseTcon (hooks : Hooks ω) (mask : Byte) (m : Machine ω) : Machine ω :=
  m.irqWrite hooks Reg.tcon (m.cpu.sfr Reg.tcon ||| mask) (m.cpu.machineCycleCount + 1)

/-- Add one to a counting register. -/
def incSfr (index : SfrIndex) (m : Machine ω) : Machine ω :=
  m.setSfr index (m.cpu.sfr index + 1#8)

/-- Add one to the low five bits of a counting register. -/
def incSfrLow5 (index : SfrIndex) (m : Machine ω) : Machine ω :=
  let value := m.cpu.sfr index
  m.setSfr index ((value &&& ~~~0x1F#8) ||| (((value &&& 0x1F#8) + 1#8) &&& 0x1F#8))

end Machine

/-! ### Timers 0 and 1 -/

/-- Timer 0 runs: not gated, started, and not counting pin edges, which are not modelled. -/
def Cpu.timer0Runs (c : Cpu) : Bool :=
  !has (c.sfr Reg.tmod) Tmod.gateT0 && has (c.sfr Reg.tcon) Tcon.tr0
    && !has (c.sfr Reg.tmod) Tmod.ctT0

/-- Timer 1 runs under the same three conditions. -/
def Cpu.timer1Runs (c : Cpu) : Bool :=
  !has (c.sfr Reg.tmod) Tmod.gateT1 && has (c.sfr Reg.tcon) Tcon.tr1
    && !has (c.sfr Reg.tmod) Tmod.ctT1

/-- Timer 0 is split into two eight-bit timers. -/
def Cpu.timer0Mode3 (c : Cpu) : Bool := c.sfr Reg.tmod &&& Tmod.t0Mode3 == Tmod.t0Mode3

/-- The split-mode block at the head of `timer_tick`. -/
def timer0SplitTick (hooks : Hooks ω) (m : Machine ω) : Machine ω :=
  if m.cpu.timer0Mode3 then
    let m :=
      if m.cpu.timer0Runs then
        let wraps := m.cpu.sfr Reg.tl0 = 0xFF#8
        let m := m.incSfr Reg.tl0
        if wraps then m.raiseTcon hooks Tcon.tf0 else m
      else m
    -- The upper half borrows Timer 1's run bit and its flag.
    if m.cpu.timer1Runs then
      let wraps := m.cpu.sfr Reg.th0 = 0xFF#8
      let m := m.incSfr Reg.th0
      if wraps then m.raiseTcon hooks Tcon.tf1 else m
    else m
  else m

/-- The Timer 0 block of `timer_tick`; only the sixteen-bit mode reports its wraps. -/
def timer0Tick (hooks : Hooks ω) (m : Machine ω) : Machine ω :=
  if m.cpu.timer0Runs then
    let mode := m.cpu.sfr Reg.tmod &&& Tmod.t0Mode3
    -- Thirteen bits: the low five of TL0 count in front of TH0.
    if mode = 0#8 then
      let wraps := m.cpu.sfr Reg.tl0 &&& 0x1F#8 = 0x1F#8
      let m := m.incSfrLow5 Reg.tl0
      if wraps then
        let wraps := m.cpu.sfr Reg.th0 = 0xFF#8
        let m := m.incSfr Reg.th0
        if wraps then m.raiseTcon hooks Tcon.tf0 else m
      else m
    -- Sixteen bits, the only mode whose wraps are reported.
    else if mode = Tmod.m0T0 then
      let wraps := m.cpu.sfr Reg.tl0 = 0xFF#8
      let m := m.incSfr Reg.tl0
      if wraps then
        let wraps := m.cpu.sfr Reg.th0 = 0xFF#8
        let m := m.incSfr Reg.th0
        if wraps then timerOverflowEmit hooks .timer0 (m.raiseTcon hooks Tcon.tf0) else m
      else m
    -- TL0 is reloaded from TH0.
    else if mode = Tmod.m1T0 then
      let wraps := m.cpu.sfr Reg.tl0 = 0xFF#8
      let m := m.incSfr Reg.tl0
      if wraps then
        (m.setSfr Reg.tl0 (m.cpu.sfr Reg.th0)).raiseTcon hooks Tcon.tf0
      else m
    else m
  else m

/-- Timer 1 sets its flag only while Timer 0 is not split. -/
def raiseTf1 (hooks : Hooks ω) (m : Machine ω) : Machine ω :=
  if m.cpu.timer0Mode3 then m else m.raiseTcon hooks Tcon.tf1

/-- The counting half of the Timer 1 block; only auto-reload mode reports its wraps. -/
def timer1Count (hooks : Hooks ω) (m : Machine ω) : Machine ω :=
  let mode := m.cpu.sfr Reg.tmod &&& Tmod.t1Mode
  -- Thirteen bits, as in Timer 0.
  if mode = 0#8 then
    let wraps := m.cpu.sfr Reg.tl1 &&& 0x1F#8 = 0x1F#8
    let m := m.incSfrLow5 Reg.tl1
    if wraps then
      let wraps := m.cpu.sfr Reg.th1 = 0xFF#8
      let m := m.incSfr Reg.th1
      if wraps then raiseTf1 hooks m else m
    else m
  -- Sixteen bits, whose wraps nobody reports.
  else if mode = Tmod.m0T1 then
    let wraps := m.cpu.sfr Reg.tl1 = 0xFF#8
    let m := m.incSfr Reg.tl1
    if wraps then
      let wraps := m.cpu.sfr Reg.th1 = 0xFF#8
      let m := m.incSfr Reg.th1
      if wraps then raiseTf1 hooks m else m
    else m
  -- TL1 is reloaded from TH1, also while Timer 0 is split.
  else if mode = Tmod.m1T1 then
    let wraps := m.cpu.sfr Reg.tl1 = 0xFF#8
    let m := m.incSfr Reg.tl1
    if wraps then
      let m := m.setSfr Reg.tl1 (m.cpu.sfr Reg.th1)
      -- Only the flag and the report are left out then.
      if m.cpu.timer0Mode3 then m
      else timerOverflowEmit hooks .timer1 (m.raiseTcon hooks Tcon.tf1)
    else m
  else m

/-- Size of the visual serial buffer `serial_out`. -/
abbrev serialOutSize : Nat := 18

/-- Replace the classic variants' private state. -/
def Machine.mapClassic (f : Cpu → ClassicState) (m : Machine ω) : Machine ω :=
  m.mapCpu fun c => { c with classic := f c }

/-- The P3 latch with the clocked serial bit on P3.1. -/
def Cpu.serialP3 (c : Cpu) (left : Nat) : Byte :=
  let p3 := c.sfr Reg.p3 &&& ~~~0x02#8
  -- The source shifts without masking, so any remaining bit counts as a one.
  if c.sfr Reg.sbuf >>> left != 0#8 then p3 ||| 0x02#8 else p3

/-- The end of `serial_tx` once the last bit is out. -/
def serialSent (m : Machine ω) : Machine ω :=
  let m := m.mapClassic fun c =>
    { c.classic with
      serialOut := Function.update c.classic.serialOut c.classic.serialOutIdx (c.sfr Reg.sbuf)
      serialOutIdx := (c.classic.serialOutIdx + 1) % serialOutSize }
  let m := m.setSfr Reg.scon (m.cpu.sfr Reg.scon ||| Scon.ti)
  m.mapClassic fun c =>
    { c.classic with
      serialInterruptTrigger :=
        has (c.sfr Reg.ie) Ie.es || c.classic.serialInterruptTrigger }

/-- `serial_tx`: shift one classic serial bit onto P3.1. -/
def serialTx (m : Machine ω) : Machine ω :=
  if m.cpu.classic.serialOutRemainingBits = 0 then m
  else
    let left := m.cpu.classic.serialOutRemainingBits - 1
    let m := m.mapClassic fun c => { c.classic with serialOutRemainingBits := left }
    let m := m.setSfr Reg.p3 (m.cpu.serialP3 left)
    if left = 0 then serialSent m else m

/-- The serial shortcut of the classic variants, taken on every counted Timer 1 cycle. -/
def classicSerial (m : Machine ω) : Machine ω :=
  if m.cpu.variant ≠ .sab80535 ∧ has (m.cpu.sfr Reg.tcon) Tcon.tf1
      ∧ has (m.cpu.sfr Reg.scon) Scon.sm1 then
    (serialTx m).clearFlags Reg.tcon Tcon.tf1
  else m

/-- The Timer 1 block of `timer_tick`. -/
def timer1Tick (hooks : Hooks ω) (m : Machine ω) : Machine ω :=
  if m.cpu.timer1Runs then classicSerial (timer1Count hooks m) else m

/-- `timer_tick`. -/
def timerTick (hooks : Hooks ω) (m : Machine ω) : Machine ω :=
  let m := timer0Tick hooks (timer0SplitTick hooks m)
  -- An abort in Timer 0 keeps Timer 1 from counting.
  if m.aborted hooks then m else timer1Tick hooks m

/-! ### Timer 2 -/

/-- Timer 2 counts in this cycle: internal clock, no reload mode, and the prescaler agrees. -/
def Cpu.timer2Counts (c : Cpu) : Bool :=
  let t2con := c.sfr Reg.t2con
  t2con &&& (T2con.t2i1 ||| T2con.t2i0) == T2con.t2i0
    && !has t2con T2con.t2r1
    -- With the prescaler only every other cycle counts.
    && !(has t2con T2con.t2ps && (c.machineCycleCount + 1) % 2 == 1)

/-- `sab_timer2_tick`. -/
def timer2Tick (hooks : Hooks ω) (m : Machine ω) : Machine ω :=
  if m.cpu.variant = .sab80535 ∧ m.cpu.timer2Counts then
    let value : Word := (m.cpu.sfr Reg.th2 ++ m.cpu.sfr Reg.tl2) + 1#16
    -- Both halves are stored before anything is reported.
    let m := m.setSfr Reg.tl2 (value.setWidth 8)
    let m := m.setSfr Reg.th2 ((value >>> 8).setWidth 8)
    if value = 0#16 then
      let m := m.irqWrite hooks Reg.ircon (m.cpu.sfr Reg.ircon ||| Ircon.tf2)
        (m.cpu.machineCycleCount + 1)
      let m := timerOverflowEmit hooks .timer2 m
      if m.aborted hooks then m else irqSync hooks m
    else m
  else m

end Emu80535
