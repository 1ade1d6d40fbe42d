import Emu80535.Core.State

/-! Pins, edge detection and the controller's cached view of its request and enable registers. -/

namespace Emu80535

variable {ω : Type}

/-! ### Resolved pins -/

/-- The port a register position belongs to, when its pins are modelled. -/
def SabPort.ofReg? (index : SfrIndex) : Option SabPort :=
  if index = Reg.p1 then some .p1
  else if index = Reg.p3 then some .p3
  else if index = Reg.p4 then some .p4
  else if index = Reg.p5 then some .p5
  else none

/-- `sab_port_index`: only the Siemens CPU resolves external drive. -/
def Cpu.portIndex (c : Cpu) (index : SfrIndex) : Option SabPort :=
  if c.variant = .sab80535 then SabPort.ofReg? index else none

/-- `em8051_sab_port_get_pins`: the output latch pulled low by external drive. -/
def Cpu.getPins (c : Cpu) (port : SabPort) : Byte :=
  c.sfr port.reg &&& (~~~(c.pins.mask port) ||| c.pins.levels port)

/-- The resolved level of an external interrupt input. -/
def Cpu.pinLevel (c : Cpu) (source : ExternalSource) : Bool :=
  has (c.getPins source.port) source.pinMask

/-! ### Request flags -/

namespace Machine

/--
`emu_cpu_irq_write`: store a register and report each request it newly asserts.

The comparison is of the aggregated mask, so a second UART flag reports nothing.
-/
def irqWrite (hooks : Hooks ω) (index : SfrIndex) (value : Byte) (cycle : Nat)
    (m : Machine ω) : Machine ω :=
  let old := m.cpu.sfr index
  let m := m.setSfr index value
  if m.cpu.variant = .sab80535 then
    IrqSource.all.foldl
      -- The sources are told in the order of the table.
      (fun m s =>
        if index = s.requestReg ∧ has old s.requestMask = false ∧ has value s.requestMask then
          m.raw hooks (.irqRequest cycle s)
        else m) m
  else m

/-- Drop request flags, which no observer is told about. -/
def clearFlags (index : SfrIndex) (mask : Byte) (m : Machine ω) : Machine ω :=
  m.setSfr index (m.cpu.sfr index &&& ~~~mask)

/-- Record that the level sampler did, or did not, assert an input's request. -/
def setLevelAsserted (bit : Byte) (asserted : Bool) (m : Machine ω) : Machine ω :=
  m.mapCpu fun c =>
    { c with pins := { c.pins with
        levelAsserted :=
          if asserted then c.pins.levelAsserted ||| bit else c.pins.levelAsserted &&& ~~~bit } }

/-- Record the level last seen on an input. -/
def setSampled (bit : Byte) (level : Bool) (m : Machine ω) : Machine ω :=
  m.mapCpu fun c =>
    { c with pins := { c.pins with
        sampledLevels :=
          if level then c.pins.sampledLevels ||| bit else c.pins.sampledLevels &&& ~~~bit } }

end Machine

/-- The bit selecting edge mode for INT0 or INT1. -/
def ExternalSource.edgeModeMask : ExternalSource → Byte
  | .int0 => Tcon.it0
  | _ => Tcon.it1

/-- One iteration of `sab_external_maintain_level_requests`. -/
def maintainLevelRequest (hooks : Hooks ω) (pins : Byte) (source : ExternalSource)
    (m : Machine ω) : Machine ω :=
  let tcon := m.cpu.sfr Reg.tcon
  let requestMask := source.irqSource.requestMask
  if has tcon source.edgeModeMask then
    -- In edge mode the sampler owns no request.
    -- A mode change never clears an already latched request.
    m.setLevelAsserted source.sampleBit false
  else if has pins source.pinMask = false then
    (m.irqWrite hooks Reg.tcon (tcon ||| requestMask) m.cpu.machineCycleCount).setLevelAsserted
      source.sampleBit true
  else if has m.cpu.pins.levelAsserted source.sampleBit then
    (m.clearFlags Reg.tcon requestMask).setLevelAsserted source.sampleBit false
  else m

/-- `sab_external_maintain_level_requests`: re-derive level-mode requests from the pins. -/
def maintainLevelRequests (hooks : Hooks ω) (m : Machine ω) : Machine ω :=
  if m.cpu.variant = .sab80535 then
    -- The pins are read once for both inputs.
    let pins := m.cpu.getPins .p3
    [ExternalSource.int0, .int1].foldl (fun m s => maintainLevelRequest hooks pins s m) m
  else m

/-! ### The controller's caches -/

/-- `sab_irq_sync`: whether a source's canonical request flag is set. -/
def Cpu.requested (c : Cpu) (source : IrqSource) : Bool :=
  has (c.sfr source.requestReg) source.requestMask

/-- `sab_irq_sync`: whether a source is enabled in IEN0 or IEN1. -/
def Cpu.enabledIn (c : Cpu) : IrqSource → Bool
  | .int0 => has (c.sfr Reg.ien0) 0x01#8
  | .timer0 => has (c.sfr Reg.ien0) 0x02#8
  | .int1 => has (c.sfr Reg.ien0) 0x04#8
  | .timer1 => has (c.sfr Reg.ien0) 0x08#8
  | .uart => has (c.sfr Reg.ien0) 0x10#8
  -- Either Timer 2 enable is enough here; the arbiter pairs each flag with its own enable.
  | .timer2 => has (c.sfr Reg.ien0) Ie.et2 || has (c.sfr Reg.ien1) Ie.exen2
  | .adc => has (c.sfr Reg.ien1) 0x01#8
  | .int2 => has (c.sfr Reg.ien1) 0x02#8
  | .int3 => has (c.sfr Reg.ien1) 0x04#8
  | .int4 => has (c.sfr Reg.ien1) 0x08#8
  | .int5 => has (c.sfr Reg.ien1) 0x10#8
  | .int6 => has (c.sfr Reg.ien1) 0x20#8

/-- The bit mask of the sources a predicate selects, built as `sab_irq_sync` builds it. -/
def sourceMask (select : IrqSource → Bool) : Word :=
  IrqSource.all.foldl (fun acc s => if select s then acc ||| s.bit else acc) 0#16

/-- `sab_irq_sync`: refresh level requests, then rebuild both caches. -/
def irqSync (hooks : Hooks ω) (m : Machine ω) : Machine ω :=
  let m := maintainLevelRequests hooks m
  m.mapCpu fun c =>
    { c with irqPending := sourceMask c.requested, irqEnabled := sourceMask c.enabledIn }

/-! ### Edge detection -/

/--
The verdict of `sab_external_observe_change`: what the trace calls the change, and whether it
requests an interrupt.
-/
def Cpu.classify (c : Cpu) (source : ExternalSource) (old new : Bool) : ExternalTrigger × Bool :=
  match source with
  | .int0 | .int1 =>
    -- In edge mode a low level is nothing in itself.
    if has (c.sfr Reg.tcon) source.edgeModeMask then
      if old && !new then (.fallingEdge, true) else (.nonQualifying, false)
    else if !new then (.lowLevelAssert, true)
    else (.levelRelease, false)
  | .int2 | .int3 =>
    let selection := if source = .int2 then T2con.i2fr else T2con.i3fr
    -- The edge of INT2 and INT3 is selected in T2CON.
    let rising := has (c.sfr Reg.t2con) selection
    let qualifying := if rising then !old && new else old && !new
    if qualifying then (if rising then .risingEdge else .fallingEdge, true)
    else (.nonQualifying, false)
  | .int4 | .int5 | .int6 =>
    -- The other inputs know rising edges only.
    if !old && new then (.risingEdge, true) else (.nonQualifying, false)

/-- The level-mode bookkeeping `sab_external_observe_change` does before it requests anything. -/
def noteLevel (source : ExternalSource) (trigger : ExternalTrigger) (m : Machine ω) :
    Machine ω :=
  match trigger with
  | .lowLevelAssert => m.setLevelAsserted source.sampleBit true
  | .levelRelease =>
    -- Only a request the level sampler asserted is withdrawn.
    let m :=
      if has m.cpu.pins.levelAsserted source.sampleBit then
        m.clearFlags source.irqSource.requestReg source.irqSource.requestMask
      else m
    m.setLevelAsserted source.sampleBit false
  | .nonQualifying | .fallingEdge | .risingEdge => m

/-- `sab_external_observe_change`. -/
def observeChange (hooks : Hooks ω) (source : ExternalSource) (old new : Bool)
    (m : Machine ω) : Machine ω :=
  let verdict := m.cpu.classify source old new
  let reg := source.irqSource.requestReg
  -- The bookkeeping comes before the request.
  let m := noteLevel source verdict.1 m
  let m :=
    if verdict.2 then
      m.irqWrite hooks reg (m.cpu.sfr reg ||| source.irqSource.requestMask)
        m.cpu.machineCycleCount
    else m
  -- The caches follow before the change is reported.
  let m := irqSync hooks m
  m.emit hooks
    (.external m.cpu.machineCycleCount source old new verdict.1
      (m.cpu.requested source.irqSource))

/-- One iteration of `sab_external_sample_port`, comparing one input with its last sample. -/
def sampleSource (hooks : Hooks ω) (port : SabPort) (pins : Byte) (source : ExternalSource)
    (m : Machine ω) : Machine ω :=
  if source.port = port then
    let old := has m.cpu.pins.sampledLevels source.sampleBit
    let new := has pins source.pinMask
    -- An input that has not changed is passed over.
    if old = new then m
    else observeChange hooks source old new (m.setSampled source.sampleBit new)
  else m

/-- `sab_external_sample_port`: the pins are read once, before any input is looked at. -/
def samplePort (hooks : Hooks ω) (port : SabPort) (m : Machine ω) : Machine ω :=
  if m.cpu.variant = .sab80535 then
    let pins := m.cpu.getPins port
    ExternalSource.all.foldl (fun m s => sampleSource hooks port pins s m) m
  else m

/-! ### External drive -/

/-- Replace the drive of one port and sample its pins. -/
def redrive (hooks : Hooks ω) (port : SabPort) (mask levels : Byte) (m : Machine ω) :
    Machine ω :=
  samplePort hooks port <| m.mapCpu fun c =>
    { c with pins := { c.pins with
        mask := Function.update c.pins.mask port mask
        levels := Function.update c.pins.levels port levels } }

/-- `em8051_sab_port_drive`. -/
def portDrive (hooks : Hooks ω) (index : SfrIndex) (mask levels : Byte) (m : Machine ω) :
    Bool × Machine ω :=
  match m.cpu.portIndex index with
  | none => (false, m)
  | some port =>
    (true, redrive hooks port (m.cpu.pins.mask port ||| mask)
      -- The drive of the other bits stays.
      ((m.cpu.pins.levels port &&& ~~~mask) ||| (levels &&& mask)) m)

/-- `em8051_sab_port_release`. -/
def portRelease (hooks : Hooks ω) (index : SfrIndex) (mask : Byte) (m : Machine ω) :
    Bool × Machine ω :=
  match m.cpu.portIndex index with
  | none => (false, m)
  | some port =>
    (true, redrive hooks port (m.cpu.pins.mask port &&& ~~~mask)
      -- A released pin reads as its latch.
      (m.cpu.pins.levels port &&& ~~~mask) m)

/-- `em8051_sab_external_drive`, with the caller's raw source number. -/
def externalDrive (hooks : Hooks ω) (source : Nat) (level : Bool) (m : Machine ω) :
    Bool × Machine ω :=
  match ExternalSource.ofNat? source with
  | none => (false, m)
  | some s => portDrive hooks s.port.reg s.pinMask (if level then s.pinMask else 0#8) m

/-- `em8051_sab_external_release`, with the caller's raw source number. -/
def externalRelease (hooks : Hooks ω) (source : Nat) (m : Machine ω) : Bool × Machine ω :=
  match ExternalSource.ofNat? source with
  | none => (false, m)
  | some s => portRelease hooks s.port.reg s.pinMask m

/-! ### The external schedule -/

/-- `sab_external_apply_event`. -/
def applyEvent (hooks : Hooks ω) (event : ScheduleEvent) (m : Machine ω) : Bool × Machine ω :=
  if event.action = 0 then externalDrive hooks event.source event.level m
  else externalRelease hooks event.source m

/-- Slot of the ring an entry's distance from the head designates. -/
def Schedule.slotAt (q : Schedule) (offset : Nat) : Nat := (q.head + offset) % scheduleCapacity

/-- The entry the given distance behind the head. -/
def Schedule.entry (q : Schedule) (offset : Nat) : ScheduleEvent := q.slots (q.slotAt offset)

/-- `em8051_sab_external_schedule`. -/
def schedule (hooks : Hooks ω) (event : ScheduleEvent) (m : Machine ω) : Bool × Machine ω :=
  if m.cpu.variant ≠ .sab80535 ∨ 7 ≤ event.source ∨ 1 < event.action
      ∨ event.machineCycle < m.cpu.machineCycleCount then
    -- Events of the past and of unknown sources are refused.
    (false, m)
  -- An event of the current cycle takes place at once.
  else if event.machineCycle = m.cpu.machineCycleCount then
    applyEvent hooks event m
  else
    let q := m.cpu.schedule
    -- Entries are queued in cycle order, so only the last one needs comparing.
    if q.count ≠ 0 ∧ event.machineCycle < (q.entry (q.count - 1)).machineCycle then (false, m)
    else if scheduleCapacity ≤ q.count then (false, m)
    else
      (true, m.mapCpu fun c =>
        { c with schedule := { q with
            slots := Function.update q.slots (q.slotAt q.count) event
            count := q.count + 1 } })

/-- `em8051_sab_external_clear_schedule`. -/
def clearSchedule (m : Machine ω) : Machine ω :=
  if m.cpu.variant = .sab80535 then
    m.mapCpu fun c => { c with schedule := { c.schedule with head := 0, count := 0 } }
  else m

/--
The loop of `sab_external_apply_scheduled`.

The fuel is the number of queued entries, which every iteration lowers by one.
-/
def applyDue (hooks : Hooks ω) : Nat → Machine ω → Machine ω
  | 0, m => m
  | fuel + 1, m =>
    let q := m.cpu.schedule
    if m.cpu.variant = .sab80535 ∧ q.count ≠ 0 then
      -- The oldest entry is the one due first.
      let event := q.slots q.head
      if m.cpu.machineCycleCount < event.machineCycle then m
      else
        -- The entry has left the ring before it takes place.
        let m := m.mapCpu fun c =>
          { c with schedule := { q with
              head := (q.head + 1) % scheduleCapacity
              count := q.count - 1 } }
        applyDue hooks fuel (applyEvent hooks event m).2
    else m

/-- `sab_external_apply_scheduled`, whose last act moves an empty ring's head back to zero. -/
def applyScheduled (hooks : Hooks ω) (m : Machine ω) : Machine ω :=
  let m := applyDue hooks m.cpu.schedule.count m
  if m.cpu.schedule.count = 0 then
    m.mapCpu fun c => { c with schedule := { c.schedule with head := 0 } }
  else m

end Emu80535
