import Emu80535.Core.Uart

/-! The converter and the gateway through which every special function register is accessed. -/

namespace Emu80535

variable {ω : Type}

/-! ### The converter -/

/-- `sab_adc_references_valid`: the programmable references are at least a quarter apart. -/
def adcReferencesValid (dapr : Byte) : Bool :=
  let lower := (dapr &&& 0x0F#8).toNat
  let upperNibble := (dapr >>> 4).toNat
  -- An upper nibble of zero stands for the analog supply.
  let upper := if upperNibble = 0 then 16 else upperNibble
  if 12 < lower ∨ (upperNibble ≠ 0 ∧ upperNibble < 4) ∨ upper < lower then false
  else decide (4 ≤ upper - lower)

/-- `sab_adc_convert`: the eight-bit code of an input between its two references. -/
def adcConvert (input : Word) (dapr : Byte) : Byte :=
  let lower := (dapr &&& 0x0F#8).toNat
  let upperNibble := (dapr >>> 4).toNat
  let upper := if upperNibble = 0 then 16 else upperNibble
  let scaledInput := 16 * input.toNat
  let lowerEndpoint := 65535 * lower
  let upperEndpoint := 65535 * upper
  if scaledInput ≤ lowerEndpoint then 0#8
  else if upperEndpoint ≤ scaledInput then 0xFF#8
  else
    let result := (scaledInput - lowerEndpoint) * 256 / (65535 * (upper - lower))
    if 0xFF < result then 0xFF#8 else BitVec.ofNat 8 result

namespace Machine

/-- Replace the converter's private state. -/
def mapAdc (f : AdcState → AdcState) (m : Machine ω) : Machine ω :=
  m.mapCpu fun c => { c with adc := f c.adc }

/-- `sab_adc_set_busy`: the canonical flag and its mirror in ADCON. -/
def setBusy (busy : Bool) (m : Machine ω) : Machine ω :=
  let m := m.mapAdc fun a => { a with busy := busy }
  let adcon := m.cpu.sfr Reg.adcon
  m.setSfr Reg.adcon (if busy then adcon ||| Adcon.bsy else adcon &&& ~~~Adcon.bsy)

/-- `sab_adc_trace_emit`. -/
def emitAdc (hooks : Hooks ω) (event : AdcEvent) (cycle : Nat) (m : Machine ω) : Machine ω :=
  let a := m.cpu.adc
  m.emit hooks
    (.adc event cycle a.latchedChannel a.latchedDapr a.latchedInput (m.cpu.sfr Reg.addat) a.busy
      (has (m.cpu.sfr Reg.ircon) Ircon.iadc) a.referenceValid a.continuousRequested)

end Machine

/-- `sab_adc_request_start`: a DAPR write abandons a running conversion. -/
def adcRequestStart (m : Machine ω) : Machine ω :=
  m.mapAdc fun a =>
    { a with
      -- A restart is remembered over writes that follow each other.
      armRestart := if a.startPending then a.armRestart else a.active || a.armed
      active := false
      armed := false
      cycles := 0
      startPending := true }

/-- `sab_adc_finish_sfr_transaction`: the outermost write arms a requested conversion. -/
def adcFinishSfrTransaction (m : Machine ω) : Machine ω :=
  if m.cpu.variant = .sab80535 then
    -- The depth has been counted up on entry.
    let m := m.mapAdc fun a => { a with sfrWriteDepth := a.sfrWriteDepth - 1 }
    let m := m.setBusy m.cpu.adc.busy
    if m.cpu.adc.sfrWriteDepth = 0 ∧ m.cpu.adc.startPending then
      m.mapAdc fun a => { a with startPending := false, armed := true }
    else m
  else m

/-- The armed branch of `sab_adc_tick`, where the inputs of a conversion are latched. -/
def adcLatch (hooks : Hooks ω) (cycle : Nat) (m : Machine ω) : Machine ω :=
  let adcon := m.cpu.sfr Reg.adcon
  let dapr := m.cpu.sfr Reg.dapr
  -- The channel is in the low three bits of ADCON.
  let channel := adcon.setWidth 3
  let m := m.mapAdc fun a =>
    { a with
      latchedChannel := channel
      latchedDapr := dapr
      latchedInput := a.inputs channel
      referenceValid := adcReferencesValid dapr
      continuousRequested := has adcon Adcon.adm
      armed := false
      active := true
      cycles := 1 }
  let m := m.setBusy true
  -- The event tells a conversion that was abandoned from one that was not.
  let m := m.emitAdc hooks (if m.cpu.adc.armRestart then .restart else .start) cycle
  m.mapAdc fun a => { a with armRestart := false }

/-- The completing branch of `sab_adc_tick`. -/
def adcComplete (hooks : Hooks ω) (cycle : Nat) (m : Machine ω) : Machine ω :=
  let m :=
    -- Without valid references the result stays what it was.
    if m.cpu.adc.referenceValid then
      m.setSfr Reg.addat (adcConvert m.cpu.adc.latchedInput m.cpu.adc.latchedDapr)
    else m
  let m := m.mapAdc fun a => { a with active := false }
  let m := m.setBusy false
  let m := m.irqWrite hooks Reg.ircon (m.cpu.sfr Reg.ircon ||| Ircon.iadc) cycle
  let m := irqSync hooks m
  m.emitAdc hooks .complete cycle

/-- `sab_adc_tick`: a conversion takes fifteen machine cycles. -/
def adcTick (hooks : Hooks ω) (m : Machine ω) : Machine ω :=
  -- A start that is still pending holds the converter.
  if m.cpu.variant ≠ .sab80535 ∨ m.cpu.adc.startPending then m
  else
    let cycle := m.cpu.machineCycleCount + 1
    if m.cpu.adc.armed then adcLatch hooks cycle m
    else if m.cpu.adc.active = false then m
    else
      let m := m.mapAdc fun a => { a with cycles := a.cycles + 1 }
      -- The fifteenth cycle completes the conversion.
      if m.cpu.adc.cycles < 15 then m else adcComplete hooks cycle m

/-- `em8051_sab_adc_set_input`, with the caller's raw channel number. -/
def adcSetInput (channel : Nat) (input : Word) (m : Machine ω) : Bool × Machine ω :=
  if m.cpu.variant ≠ .sab80535 ∨ 8 ≤ channel then (false, m)
  else
    (true, m.mapAdc fun a =>
      { a with inputs := Function.update a.inputs (BitVec.ofNat 3 channel) input })

/-! ### Register access -/

/-- The direct address of a register position. -/
def sfrAddress (index : SfrIndex) : Byte := index.setWidth 8 ||| 0x80#8

/-- The register position of a direct address above internal RAM. -/
def sfrIndex (address : Byte) : SfrIndex := address.setWidth 7

/-- The PC a trace record carries, which inside an instruction is where it began. -/
def Cpu.recordPc (c : Cpu) : Word := if c.inInstruction then c.tracePc else c.pc

namespace Machine

/-- `em8051_trace_emit`. -/
def traceEmit (hooks : Hooks ω) (type : TraceType) (address : Word) (value : Byte)
    (m : Machine ω) : Machine ω :=
  -- Nobody hears of what happens after an abort.
  if m.aborted hooks then m
  else m.emit hooks (.trace type m.cpu.machineCycleCount m.cpu.recordPc address value)

/-- Run the write callback of a register, when one is installed. -/
def sfrCallback (hooks : Hooks ω) (index : SfrIndex) (m : Machine ω) : Machine ω :=
  match hooks.sfrwrite index with
  | some callback => callback m
  | none => m

end Machine

/-- `em8051_sfr_read`, for an address above internal RAM. -/
def sfrRead (hooks : Hooks ω) (index : SfrIndex) (m : Machine ω) : Byte × Machine ω :=
  match hooks.sfrread index with
  | some callback =>
    let answer := callback m.cpu m.host
    (answer.1, { m with host := answer.2 })
  | none =>
    -- SBUF reads the receive register, not the mirror a transmit write passes through.
    if m.cpu.variant = .sab80535 ∧ index = Reg.sbuf then (m.cpu.uart.rxData, m)
    else
      match m.cpu.portIndex index with
      | some port => (m.cpu.getPins port, m)
      | none => (m.cpu.sfr index, m)

/-- `em8051_sfr_rmw_read`: a modelled port answers with its latch and asks no callback. -/
def sfrRmwRead (hooks : Hooks ω) (index : SfrIndex) (m : Machine ω) : Byte × Machine ω :=
  match m.cpu.portIndex index with
  | some port => (m.cpu.sfr port.reg, m)
  | none => sfrRead hooks index m

/-- `sab_irq_arm_inhibit`: an instruction performing the write consumes the first count itself. -/
def armInhibit (m : Machine ω) : Machine ω :=
  m.mapCpu fun c => { c with irqInhibit := if c.inInstruction then 2 else 1 }

/-- Whether a register's writes hold off arbitration. -/
def isIrqControl (index : SfrIndex) : Bool :=
  index == Reg.ien0 || index == Reg.ien1 || index == Reg.ip0 || index == Reg.ip1

/-- The branch of `em8051_sfr_write` for the Siemens serial buffer. -/
def sbufWrite (hooks : Hooks ω) (value : Byte) (m : Machine ω) : Machine ω :=
  let address := sfrAddress Reg.sbuf
  let begun := RawFact.accessBegin m.cpu.machineCycleCount address false value
  let access := m.rawAnswer hooks begun
  let m := m.raw hooks begun
  -- An observer that aborts keeps the byte from being stored.
  if m.aborted hooks then m
  else
    -- The frame is held before the register shows the byte.
    let m := uartSbufWrite hooks value m
    let m := m.setSfr Reg.sbuf value
    let m := m.sfrCallback hooks Reg.sbuf
    if m.aborted hooks then
      m.raw hooks (.accessEnd m.cpu.machineCycleCount access address value)
    else
      -- The mirror goes back to the receive state as it stands after the callback.
      let m := m.setSfr Reg.sbuf m.cpu.uart.rxData
      let m := m.traceEmit hooks .sfrWrite (address.setWidth 16) value
      let m := adcFinishSfrTransaction m
      m.raw hooks (.accessEnd m.cpu.machineCycleCount access address value)

/-- A write of a modelled port samples its pins. -/
def sampleWritten (hooks : Hooks ω) (index : SfrIndex) (m : Machine ω) : Machine ω :=
  match m.cpu.portIndex index with
  | some port => samplePort hooks port m
  | none => m

/-- A write of an interrupt control register holds off arbitration. -/
def holdOff (index : SfrIndex) (m : Machine ω) : Machine ω :=
  if m.cpu.variant = .sab80535 ∧ isIrqControl index then armInhibit m else m

/-- What `em8051_sfr_write` does once the callback has returned unaborted. -/
def sfrWriteTail (hooks : Hooks ω) (index : SfrIndex) (value : Byte) (m : Machine ω) :
    Machine ω :=
  let m := sampleWritten hooks index m
  let m := m.traceEmit hooks .sfrWrite ((sfrAddress index).setWidth 16) value
  adcFinishSfrTransaction (holdOff index m)

/-- The value `em8051_sfr_write` stores: firmware cannot change the busy bit of ADCON. -/
def Cpu.storedValue (c : Cpu) (index : SfrIndex) (value : Byte) : Byte :=
  if c.variant = .sab80535 ∧ index = Reg.adcon then
    (value &&& ~~~Adcon.bsy) ||| (if c.adc.busy then Adcon.bsy else 0#8)
  else value

/-- Entry of `em8051_sfr_write`: the Siemens CPU counts nested transactions. -/
def sfrWriteEnter (m : Machine ω) : Machine ω :=
  if m.cpu.variant = .sab80535 then
    m.mapAdc fun a => { a with sfrWriteDepth := a.sfrWriteDepth + 1 }
  else m

/-- The store of `em8051_sfr_write`, up to and including the register's callback. -/
def sfrWriteBody (hooks : Hooks ω) (index : SfrIndex) (value : Byte) (m : Machine ω) :
    Machine ω :=
  let m := m.irqWrite hooks index value m.cpu.machineCycleCount
  -- A write of DAPR asks for a conversion before its callback runs.
  let m := if m.cpu.variant = .sab80535 ∧ index = Reg.dapr then adcRequestStart m else m
  m.sfrCallback hooks index

/-- `em8051_sfr_write`, for an address above internal RAM. -/
def sfrWrite (hooks : Hooks ω) (index : SfrIndex) (value : Byte) (m : Machine ω) : Machine ω :=
  let value := m.cpu.storedValue index value
  let m := sfrWriteEnter m
  -- The serial buffer has a branch of its own.
  if m.cpu.variant = .sab80535 ∧ index = Reg.sbuf then sbufWrite hooks value m
  else
    let m := sfrWriteBody hooks index value m
    -- After an abort the transaction stays open.
    if m.aborted hooks then m else sfrWriteTail hooks index value m

/-! ### Host requests -/

/-- `sab_irq_priority`: the paired bits of IP1 and IP0, shared by sources six apart. -/
def Cpu.irqPriority (c : Cpu) (source : IrqSource) : Nat :=
  let bit := 1#8 <<< (source.toNat % 6)
  (if has (c.sfr Reg.ip0) bit then 1 else 0) + (if has (c.sfr Reg.ip1) bit then 2 else 0)

/-- `sab_irq_trace_emit`. -/
def Machine.emitIrq (hooks : Hooks ω) (event : IrqEvent) (source priority : Nat)
    (asserted : Bool) (pending : Word) (m : Machine ω) : Machine ω :=
  m.emit hooks
    (.irq event m.cpu.machineCycleCount m.cpu.recordPc source priority asserted
      (has (m.cpu.sfr Reg.ien0) Ie.ea) pending m.cpu.irqEnabled m.cpu.service.inService
      m.cpu.service.depth)

/-- The flag a synthetic assertion sets, which for the aggregated sources is one of two. -/
def IrqSource.assertMask : IrqSource → Byte
  | .uart => Scon.ri
  | .timer2 => Ircon.tf2
  | s => s.requestMask

/-- `em8051_sab_irq_set_pending`, with the caller's raw source number. -/
def setPending (hooks : Hooks ω) (source : Nat) (pending : Bool) (m : Machine ω) :
    Bool × Machine ω :=
  match IrqSource.ofNat? source with
  | none => (false, m)
  | some s =>
    if m.cpu.variant = .sab80535 then
      let m :=
        -- A request is asserted like one of a peripheral.
        if pending then
          m.irqWrite hooks s.requestReg (m.cpu.sfr s.requestReg ||| s.assertMask)
            m.cpu.machineCycleCount
        else m.clearFlags s.requestReg s.requestMask
      let m := irqSync hooks m
      (true, m.emitIrq hooks .request s.toNat (m.cpu.irqPriority s) pending m.cpu.irqPending)
    else (false, m)

end Emu80535
