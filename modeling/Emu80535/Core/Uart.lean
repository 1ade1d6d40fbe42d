import Emu80535.Core.Ports

/-! The mode-3 serial port, clocked by Timer 1 overflows. -/

namespace Emu80535

variable {ω : Type}

/-- `sab_uart_mode3`: the only serial mode the Siemens path drives. -/
def Cpu.uartMode3 (c : Cpu) : Bool :=
  -- Both mode bits are set, and the baud rate generator is off.
  c.variant = .sab80535
    && c.sfr Reg.scon &&& (Scon.sm0 ||| Scon.sm1) == Scon.sm0 ||| Scon.sm1
    && !has (c.sfr Reg.adcon) Adcon.bd

/-- `sab_uart_divider_step`: the phase after one overflow of the 32-step divider. -/
def dividerNext (phase : Byte) : Byte := (phase + 1#8) &&& 0x1F#8

/-- `sab_uart_divider_step`: whether the new phase is a bit boundary. -/
def dividerFires (phase : Byte) (smod : Bool) : Bool :=
  -- With SMOD the second half of the divider counts as well.
  phase == 0#8 || (smod && phase == 16#8)

/-- `sab_uart_tx_bit_value`: start bit, eight data bits, ninth bit, stop bit. -/
def UartState.txBitValue (u : UartState) (bitIndex : Nat) : Bool :=
  if bitIndex = 0 then false
  else if bitIndex ≤ 8 then u.txData.getLsbD (bitIndex - 1)
  else if bitIndex = 9 then u.txNinth
  else true

namespace Machine

/-- Replace the serial port's private state. -/
def mapUart (f : UartState → UartState) (m : Machine ω) : Machine ω :=
  m.mapCpu fun c => { c with uart := f c.uart }

/-- `sab_uart_trace_emit`, which reports the PC rather than the traced instruction. -/
def emitUart (hooks : Hooks ω) (event : UartEvent) (cycle : Nat) (data : Byte) (ninth : Bool)
    (bitIndex : Nat) (bitValue : Bool) (m : Machine ω) : Machine ω :=
  m.emit hooks (.uart event cycle m.cpu.pc data ninth bitIndex bitValue)

end Machine

/-- `sab_uart_tx_start`: move the held frame into the shift register. -/
def uartTxStart (hooks : Hooks ω) (cycle : Nat) (m : Machine ω) : Machine ω :=
  let m := m.mapUart fun u =>
    -- The held frame is taken, so the next write of SBUF holds another one.
    { u with
      txData := u.txPendingData
      txNinth := u.txPendingNinth
      txPending := false
      txActive := true
      txBitIndex := 0 }
  let m := m.raw hooks (.txStart cycle m.cpu.uart.txData m.cpu.uart.txNinth)
  m.emitUart hooks .txStart cycle m.cpu.uart.txData m.cpu.uart.txNinth 0 false

/-- The stop-bit boundary of `sab_uart_tx_boundary`, where TI is raised. -/
def uartTxStop (hooks : Hooks ω) (cycle : Nat) (m : Machine ω) : Machine ω :=
  let m := m.mapUart fun u => { u with txBitIndex := 10 }
  -- The edge is taken before TI is written.
  let tiEdge := !has (m.cpu.sfr Reg.scon) Scon.ti
  let m := m.irqWrite hooks Reg.scon (m.cpu.sfr Reg.scon ||| Scon.ti) cycle
  let m := m.raw hooks (.txStop cycle)
  let m := if tiEdge then m.raw hooks (.txTi cycle) else m
  m.emitUart hooks .txStop cycle m.cpu.uart.txData m.cpu.uart.txNinth 10 true

/-- The end-of-frame boundary of `sab_uart_tx_boundary`, which may chain the held frame. -/
def uartTxEnd (hooks : Hooks ω) (cycle : Nat) (m : Machine ω) : Machine ω :=
  let m := m.raw hooks (.txEnd cycle)
  let m := m.emitUart hooks .txEnd cycle m.cpu.uart.txData m.cpu.uart.txNinth 10 true
  -- The frame ends only where no callback stops execution.
  if m.aborted hooks then m
  else
    let m := m.mapUart fun u => { u with txActive := false }
    if m.cpu.uart.txPending then uartTxStart hooks cycle m else m

/-- `sab_uart_tx_boundary`. -/
def uartTxBoundary (hooks : Hooks ω) (cycle : Nat) (m : Machine ω) : Machine ω :=
  let u := m.cpu.uart
  -- An idle transmitter waits for a frame to be held.
  if u.txActive = false then
    if u.txPending then uartTxStart hooks cycle m else m
  -- The first ten boundaries are those of the start bit and the nine data bits.
  else if u.txBitIndex < 9 then
    let m := m.mapUart fun u => { u with txBitIndex := u.txBitIndex + 1 }
    m.emitUart hooks .txBit cycle m.cpu.uart.txData m.cpu.uart.txNinth m.cpu.uart.txBitIndex
      (m.cpu.uart.txBitValue m.cpu.uart.txBitIndex)
  else if u.txBitIndex = 9 then uartTxStop hooks cycle m
  else uartTxEnd hooks cycle m

/-- The acceptance decision of `sab_uart_rx_boundary` at the stop bit. -/
def Cpu.uartRxAccepts (c : Cpu) : Bool :=
  !has (c.sfr Reg.scon) Scon.ri && (!has (c.sfr Reg.scon) Scon.sm2 || c.uart.rxPendingNinth)

/-- An accepted frame reaches SBUF, RB8 and RI. -/
def uartRxAccept (hooks : Hooks ω) (cycle : Nat) (m : Machine ω) : Machine ω :=
  let u := m.cpu.uart
  let m := m.mapUart fun u => { u with rxData := u.rxPendingData }
  let m := m.setSfr Reg.sbuf m.cpu.uart.rxData
  let m := m.setSfr Reg.scon (m.cpu.sfr Reg.scon &&& ~~~Scon.rb8)
  -- RB8 is cleared before it is set, which no observer can tell apart.
  let m := if u.rxPendingNinth then m.setSfr Reg.scon (m.cpu.sfr Reg.scon ||| Scon.rb8) else m
  let m := m.irqWrite hooks Reg.scon (m.cpu.sfr Reg.scon ||| Scon.ri) cycle
  let m := m.raw hooks (.rxAccept cycle u.rxPendingData u.rxPendingNinth)
  m.emitUart hooks .rxAccept cycle u.rxPendingData u.rxPendingNinth 10 true

/-- A dropped frame is only reported, with the flag that refused it. -/
def uartRxDrop (hooks : Hooks ω) (cycle : Nat) (m : Machine ω) : Machine ω :=
  let u := m.cpu.uart
  let reason := if has (m.cpu.sfr Reg.scon) Scon.ri then DropReason.ri else DropReason.sm2
  let m := m.raw hooks (.rxDrop cycle reason)
  m.emitUart hooks .rxDrop cycle u.rxPendingData u.rxPendingNinth 10 true

/-- `sab_uart_rx_boundary`. -/
def uartRxBoundary (hooks : Hooks ω) (cycle : Nat) (m : Machine ω) : Machine ω :=
  -- The bit counter moves before it is looked at.
  let m := m.mapUart fun u => { u with rxBitIndex := u.rxBitIndex + 1 }
  if m.cpu.uart.rxBitIndex = 10 then
    -- The tenth boundary is the middle of the stop bit, where the frame is accepted or dropped.
    if m.cpu.uartRxAccepts then uartRxAccept hooks cycle m else uartRxDrop hooks cycle m
  else if m.cpu.uart.rxBitIndex = 11 then
    let m := m.mapUart fun u => { u with rxActive := false }
    let m := m.raw hooks (.rxEnd cycle)
    m.emitUart hooks .rxEnd cycle m.cpu.uart.rxPendingData m.cpu.uart.rxPendingNinth 10 true
  else m

/-- The transmit half of `sab_uart_timer1_overflow`. -/
def uartClockTx (hooks : Hooks ω) (smod : Bool) (cycle : Nat) (m : Machine ω) : Machine ω :=
  let m := m.mapUart fun u => { u with dividerPhase := dividerNext u.dividerPhase }
  if dividerFires m.cpu.uart.dividerPhase smod then uartTxBoundary hooks cycle m else m

/-- The receive half of `sab_uart_timer1_overflow`, whose divider runs only during a frame. -/
def uartClockRx (hooks : Hooks ω) (smod : Bool) (cycle : Nat) (m : Machine ω) : Machine ω :=
  if m.cpu.uart.rxActive then
    let m := m.mapUart fun u => { u with rxDividerPhase := dividerNext u.rxDividerPhase }
    if dividerFires m.cpu.uart.rxDividerPhase smod then uartRxBoundary hooks cycle m else m
  else m

/-- `sab_uart_timer1_overflow`, stamped with the cycle that is being completed. -/
def uartTimer1Overflow (hooks : Hooks ω) (m : Machine ω) : Machine ω :=
  if m.cpu.uartMode3 then
    let smod := has (m.cpu.sfr Reg.pcon) Pcon.smod
    -- The overflow belongs to the cycle that is being completed.
    let cycle := m.cpu.machineCycleCount + 1
    let m := uartClockTx hooks smod cycle m
    -- An abort in the transmitter leaves the receiver without its clock.
    if m.aborted hooks then m else uartClockRx hooks smod cycle m
  else m

/-- `sab_uart_sbuf_write`: hold a frame, overwriting one that has not started. -/
def uartSbufWrite (hooks : Hooks ω) (value : Byte) (m : Machine ω) : Machine ω :=
  if m.cpu.uartMode3 then
    let ninth := has (m.cpu.sfr Reg.scon) Scon.tb8
    -- A frame that was held and not started is replaced.
    let m := m.mapUart fun u =>
      { u with txPendingData := value, txPendingNinth := ninth, txPending := true }
    m.raw hooks (.txHold m.cpu.machineCycleCount value ninth)
  else m

/-- `em8051_sab_uart_inject_rx_frame`. -/
def injectRxFrame (hooks : Hooks ω) (data : Byte) (ninth : Bool) (m : Machine ω) :
    Bool × Machine ω :=
  -- The receiver takes one frame at a time, while it is enabled.
  if m.cpu.uartMode3 && has (m.cpu.sfr Reg.scon) Scon.ren && !m.cpu.uart.rxActive then
    let m := m.mapUart fun u =>
      { u with
        rxPendingData := data
        rxPendingNinth := ninth
        rxDividerPhase := 0#8
        rxBitIndex := 0
        rxActive := true }
    let m := m.raw hooks (.rxStart m.cpu.machineCycleCount data ninth)
    (true, m.emitUart hooks .rxStart m.cpu.machineCycleCount data ninth 0 false)
  else (false, m)

end Emu80535
