import Emu80535.Core.Opcodes

/-! Interrupt arbitration and entry, for the Siemens controller and the classic one. -/

namespace Emu80535

variable {ω : Type}

/-! ### The Siemens controller -/

/-- `sab_irq_timer2_is_enabled`: each Timer 2 flag has an enable of its own. -/
def Cpu.timer2Enabled (c : Cpu) : Bool :=
  (has (c.sfr Reg.ircon) Ircon.tf2 && has (c.sfr Reg.ien0) Ie.et2)
    || (has (c.sfr Reg.ircon) Ircon.exf2 && has (c.sfr Reg.ien1) Ie.exen2)

/-- The priority a new interrupt has to exceed, when one is in service. -/
def IrqService.current (v : IrqService) : Option Nat :=
  if v.depth = 0 then none else some (v.priorityStack (v.depth - 1))

/-- Whether the arbitration loop of `handle_sab_interrupts` considers a source. -/
def Cpu.candidate (c : Cpu) (s : IrqSource) : Bool :=
  c.irqPending &&& s.bit != 0#16 && c.irqEnabled &&& s.bit != 0#16
    && c.service.inService &&& s.bit == 0#16
    && (s != .timer2 || c.timer2Enabled)
    -- Without an interrupt in service every priority will do.
    && c.service.current.all fun p => decide (p < c.irqPriority s)

/-- The arbitration loop: a later source replaces an earlier one only with higher priority. -/
def Cpu.arbitrate (c : Cpu) : Option IrqSource :=
  IrqSource.all.foldl
    (fun best s =>
      if c.candidate s then
        match best with
        | none => some s
        | some b => if c.irqPriority b < c.irqPriority s then some s else best
      else best) none

/-- `sab_irq_auto_clear`: the serial, Timer 2 and converter flags are cleared by software. -/
def autoClear (source : IrqSource) (m : Machine ω) : Machine ω :=
  match source with
  | .int0 =>
    -- A level request is withdrawn by its pin, not by its acceptance.
    if has (m.cpu.sfr Reg.tcon) Tcon.it0 then m.clearFlags Reg.tcon Tcon.ie0 else m
  | .timer0 => m.clearFlags Reg.tcon Tcon.tf0
  | .int1 =>
    if has (m.cpu.sfr Reg.tcon) Tcon.it1 then m.clearFlags Reg.tcon Tcon.ie1 else m
  | .timer1 => m.clearFlags Reg.tcon Tcon.tf1
  | .int2 => m.clearFlags Reg.ircon Ircon.iex2
  | .int3 => m.clearFlags Reg.ircon Ircon.iex3
  | .int4 => m.clearFlags Reg.ircon Ircon.iex4
  | .int5 => m.clearFlags Reg.ircon Ircon.iex5
  | .int6 => m.clearFlags Reg.ircon Ircon.iex6
  | .uart | .timer2 | .adc => m

/-- The in-service stack after a source is accepted. -/
def IrqService.push (v : IrqService) (source : IrqSource) (priority : Nat) (c : Cpu) :
    IrqService :=
  { inService := v.inService ||| source.bit
    depth := v.depth + 1
    sourceStack := Function.update v.sourceStack v.depth source.toNat
    priorityStack := Function.update v.priorityStack v.depth priority
    savedAcc := Function.update v.savedAcc v.depth (c.sfr Reg.acc)
    savedPsw := Function.update v.savedPsw v.depth (c.sfr Reg.psw)
    savedSp := Function.update v.savedSp v.depth (c.sfr Reg.sp) }

/-- The commit of an entry in `handle_sab_interrupts`, after both pushes have succeeded. -/
def acceptInterrupt (hooks : Hooks ω) (source : IrqSource) (priority : Nat) (returnPc : Word)
    (spBefore : Byte) (pending : Word) (m : Machine ω) : Machine ω :=
  -- Accepting an interrupt ends IDLE.
  let m := m.setSfr Reg.pcon (m.cpu.sfr Reg.pcon &&& ~~~Pcon.idle)
  let m := m.mapCpu fun c =>
    { c with
      pc := source.vector
      -- One of the two entry cycles is still to come.
      tickDelay := 1
      service := c.service.push source priority c }
  let m := m.raw hooks
    (.irqEnter m.cpu.machineCycleCount source returnPc spBefore (m.cpu.sfr Reg.sp))
  let m := irqSync hooks (autoClear source m)
  m.emitIrq hooks .accept source.toNat priority true pending

/-- Entry to a selected source, which a refusing observer or a failing push ends half way. -/
def enterInterrupt (hooks : Hooks ω) (source : IrqSource) (m : Machine ω) : Bool × Machine ω :=
  let priority := m.cpu.irqPriority source
  let fact := RawFact.contextPreflight m.cpu.machineCycleCount
  let refused := m.cpu.observed && m.rawAnswer hooks fact == 0
  let m := m.raw hooks fact
  -- Refused by the observer: nothing has been pushed.
  if refused then (false, m)
  else
    let pending := m.cpu.irqPending
    let returnPc := m.cpu.pc
    let spBefore := m.cpu.sfr Reg.sp
    let low := (pushToStack (m.cpu.pc.setWidth 8)).run hooks m
    if low.1 then
      let high := (pushToStack ((low.2.cpu.pc >>> 8).setWidth 8)).run hooks low.2
      if high.1 then
        (true, acceptInterrupt hooks source priority returnPc spBefore pending high.2)
      -- The low byte stays on the stack when the high one cannot be pushed.
      else (false, high.2)
    else (false, low.2)

/-- `handle_sab_interrupts`: false only when an entry was attempted and failed. -/
def handleSabInterrupts (hooks : Hooks ω) (m : Machine ω) : Bool × Machine ω :=
  -- The caches are refreshed before they are looked at.
  let m := irqSync hooks m
  if m.cpu.irqInhibit ≠ 0 then (true, m)
  else if has (m.cpu.sfr Reg.ien0) Ie.ea = false then (true, m)
  else
    match m.cpu.arbitrate with
    | none => (true, m)
    -- The service stack has four entries, so a fifth interrupt waits.
    | some source => if 4 ≤ m.cpu.service.depth then (true, m) else enterInterrupt hooks source m

/-! ### The classic controller -/

/-- The five classic sources in polling order. -/
inductive ClassicSource where
  | int0
  | timer0
  | int1
  | timer1
  | serial
  deriving DecidableEq, Repr

namespace ClassicSource

/-- Every classic source, in the order the tests stand in the source. -/
def all : List ClassicSource := [int0, timer0, int1, timer1, serial]

/-- The `ISR_VECTORS` enumeration. -/
def vector : ClassicSource → Word
  | int0 => 0x0003#16
  | timer0 => 0x000B#16
  | int1 => 0x0013#16
  | timer1 => 0x001B#16
  | serial => 0x0023#16

/-- The source's bit in both IE and IP. -/
def enableMask : ClassicSource → Byte
  | int0 => Ie.ex0
  | timer0 => Ie.et0
  | int1 => Ie.ex1
  | timer1 => Ie.et1
  | serial => Ie.es

/-- The request, which for the serial port is a trigger outside the register file. -/
def requested (c : Cpu) : ClassicSource → Bool
  | int0 => has (c.sfr Reg.tcon) Tcon.ie0
  | timer0 => has (c.sfr Reg.tcon) Tcon.tf0
  | int1 => has (c.sfr Reg.tcon) Tcon.ie1
  | timer1 => has (c.sfr Reg.tcon) Tcon.tf1
  | serial => c.classic.serialInterruptTrigger

end ClassicSource

/-- The choice among the classic sources, with whether it is of high priority. -/
def Cpu.classicChoice (c : Cpu) : Option (ClassicSource × Bool) :=
  if has (c.sfr Reg.ie) Ie.ea then
    ClassicSource.all.foldl
      (fun best s =>
        if has (c.sfr Reg.ie) s.enableMask && s.requested c
            && best.all (fun chosen => !chosen.2) then
          if has (c.sfr Reg.ip) s.enableMask then some (s, true)
          else best.orElse fun _ => some (s, false)
        else best) none
  else none

/-- The commit of a classic entry. -/
def acceptClassic (source : ClassicSource) (hi : Bool) (m : Machine ω) : Machine ω :=
  let m := m.setSfr Reg.pcon (m.cpu.sfr Reg.pcon &&& ~~~Pcon.idle)
  -- This tick accounts for the first of two entry cycles, so one stays pending.
  let m := m.mapCpu fun c => { c with pc := source.vector, tickDelay := 1 }
  let m :=
    match source with
    | .timer0 => m.clearFlags Reg.tcon Tcon.tf0
    | .timer1 => m.clearFlags Reg.tcon Tcon.tf1
    | .serial =>
      m.mapCpu fun c => { c with classic := { c.classic with serialInterruptTrigger := false } }
    | .int0 | .int1 => m
  m.mapCpu fun c =>
    { c with classic := { c.classic with
        interruptActive := if hi then c.classic.interruptActive ||| 2#8 else 1#8
        intA := Function.update c.classic.intA hi (c.sfr Reg.acc)
        intPsw := Function.update c.classic.intPsw hi (c.sfr Reg.psw)
        intSp := Function.update c.classic.intSp hi (c.sfr Reg.sp) } }

/-- The classic body of `handle_interrupts`. -/
def handleClassicInterrupts (hooks : Hooks ω) (m : Machine ω) : Bool × Machine ω :=
  -- A high-level handler cannot be interrupted at all.
  if 1#8 < m.cpu.classic.interruptActive then (true, m)
  else
    match m.cpu.classicChoice with
    | none => (true, m)
    | some (source, hi) =>
      if m.cpu.classic.interruptActive = 1#8 ∧ hi = false then (true, m)
      else
        let low := (pushToStack (m.cpu.pc.setWidth 8)).run hooks m
        if low.1 then
          let high := (pushToStack ((low.2.cpu.pc >>> 8).setWidth 8)).run hooks low.2
          if high.1 then (true, acceptClassic source hi high.2) else (false, high.2)
        else (false, low.2)

/-- `handle_interrupts`. -/
def handleInterrupts (hooks : Hooks ω) (m : Machine ω) : Bool × Machine ω :=
  if m.cpu.variant = .sab80535 then handleSabInterrupts hooks m
  else handleClassicInterrupts hooks m

end Emu80535
