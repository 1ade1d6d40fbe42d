import Emu80535.Proofs.Scope

/-! The serial port in closed form: what one overflow does to the CPU and what it reports. -/

namespace Emu80535

variable {ω : Type} {hooks : Hooks ω} {m : Machine ω}

open Machine

/-! ### Closed forms -/

namespace UartState

/-- The held frame moves into the shift register. -/
def started (u : UartState) : UartState :=
  { u with
    txData := u.txPendingData
    txNinth := u.txPendingNinth
    txPending := false
    txActive := true
    txBitIndex := 0 }

/-- Start the held frame, when there is one. -/
def startHeld (u : UartState) : UartState := if u.txPending then u.started else u

/-- The transmitter after a bit boundary. -/
def txNext (u : UartState) : UartState :=
  if u.txActive = false then u.startHeld
  else if u.txBitIndex ≤ 9 then { u with txBitIndex := u.txBitIndex + 1 }
  else { u with txActive := false }.startHeld

/-- The boundary puts a stop bit on the line. -/
def stopping (u : UartState) : Bool := u.txActive && u.txBitIndex == 9

end UartState

namespace Cpu

/-- The CPU with another state of the serial port. -/
def withUart (c : Cpu) (u : UartState) : Cpu := { c with uart := u }

/-- A transmit boundary raises TI with the stop bit. -/
def txBoundary (c : Cpu) : Cpu :=
  (if c.uart.stopping then c.store Reg.scon (c.sfr Reg.scon ||| Scon.ti) else c).withUart
    c.uart.txNext

/-- SCON after a frame has been accepted. -/
def receivedScon (c : Cpu) : Byte :=
  (let cleared := c.sfr Reg.scon &&& ~~~Scon.rb8
   if c.uart.rxPendingNinth then cleared ||| Scon.rb8 else cleared) ||| Scon.ri

/-- The CPU after a frame has been accepted. -/
def received (c : Cpu) : Cpu :=
  ((c.store Reg.sbuf c.uart.rxPendingData).store Reg.scon c.receivedScon).withUart
    { c.uart with rxData := c.uart.rxPendingData }

/-- A receive boundary decides a frame at its stop bit and ends it one bit later. -/
def rxBoundary (c : Cpu) : Cpu :=
  let next := c.withUart { c.uart with rxBitIndex := c.uart.rxBitIndex + 1 }
  if next.uart.rxBitIndex = 10 then if next.uartRxAccepts then next.received else next
  else if next.uart.rxBitIndex = 11 then next.withUart { next.uart with rxActive := false }
  else next

/-- The transmit half of an overflow. -/
def clockTx (c : Cpu) (smod : Bool) : Cpu :=
  let next := c.withUart { c.uart with dividerPhase := dividerNext c.uart.dividerPhase }
  if dividerFires next.uart.dividerPhase smod then next.txBoundary else next

/-- The receive half of an overflow. -/
def clockRx (c : Cpu) (smod : Bool) : Cpu :=
  if c.uart.rxActive then
    let next := c.withUart { c.uart with rxDividerPhase := dividerNext c.uart.rxDividerPhase }
    if dividerFires next.uart.rxDividerPhase smod then next.rxBoundary else next
  else c

/-- The SMOD bit, which doubles the rate. -/
def smod (c : Cpu) : Bool := has (c.sfr Reg.pcon) Pcon.smod

/-- An overflow consumed in mode 3 clocks both halves. -/
def serialClock (c : Cpu) : Cpu :=
  if c.uartMode3 then (c.clockTx c.smod).clockRx c.smod else c

end Cpu

/-! ### The code computes them -/

/-- Starting a frame takes the held one. -/
theorem uartTxStart_cpu (cycle : Nat) (m : Machine ω) :
    (uartTxStart hooks cycle m).cpu = m.cpu.withUart m.cpu.uart.started := by
  simp only [uartTxStart, emitUart_cpu, raw_cpu]
  rfl

/-- The stop bit raises TI. -/
theorem uartTxStop_cpu (cycle : Nat) (m : Machine ω) :
    (uartTxStop hooks cycle m).cpu =
      (m.cpu.store Reg.scon (m.cpu.sfr Reg.scon ||| Scon.ti)).withUart
        { m.cpu.uart with txBitIndex := 10 } := by
  -- With the observer and without it the flag is raised in the same register.
  simp only [uartTxStop, emitUart_cpu]
  split
  · simp only [raw_cpu, irqWrite_cpu]
    rfl
  · simp only [raw_cpu, irqWrite_cpu]
    rfl

/-- The end of a frame goes through unless its report aborts execution. -/
theorem uartTxEnd_cpu {cycle : Nat} (kept : (uartTxEnd hooks cycle m).aborted hooks = false) :
    (uartTxEnd hooks cycle m).cpu =
      m.cpu.withUart { m.cpu.uart with txActive := false }.startHeld := by
  simp only [uartTxEnd] at kept ⊢
  -- The report of the end may abort.
  split
  · rename_i cut
    rw [if_pos cut] at kept
    exact absurd (cut.symm.trans kept) Bool.true_eq_false.mp
  · -- A held frame follows at once.
    simp only [UartState.startHeld]
    split
    · rename_i held
      rw [uartTxStart_cpu]
      simp only [mapUart, mapCpu_cpu, emitUart_cpu, raw_cpu] at held ⊢
      rw [if_pos held]
      rfl
    · rename_i held
      simp only [mapUart, mapCpu_cpu, emitUart_cpu, raw_cpu] at held ⊢
      rw [if_neg held]
      rfl

/-- A transmit boundary that is not aborted. -/
theorem uartTxBoundary_cpu {cycle : Nat}
    (kept : (uartTxBoundary hooks cycle m).aborted hooks = false) :
    (uartTxBoundary hooks cycle m).cpu = m.cpu.txBoundary := by
  -- The five branches are those of the closed form.
  simp only [uartTxBoundary] at kept ⊢
  split
  · rename_i idle
    have still : m.cpu.uart.stopping = false := by simp [UartState.stopping, idle]
    rw [Cpu.txBoundary, still, UartState.txNext, if_pos idle, UartState.startHeld]
    split
    · rw [uartTxStart_cpu]
      rfl
    · rfl
  · rename_i active
    rw [if_neg active] at kept
    have next : m.cpu.uart.txNext = if m.cpu.uart.txBitIndex ≤ 9 then
        { m.cpu.uart with txBitIndex := m.cpu.uart.txBitIndex + 1 }
        else { m.cpu.uart with txActive := false }.startHeld := if_neg active
    have stop : m.cpu.uart.stopping = decide (m.cpu.uart.txBitIndex = 9) := by
      simp only [Bool.not_eq_false] at active
      rw [UartState.stopping, active, Bool.true_and, beq_eq_decide]
    rw [Cpu.txBoundary, next, stop]
    split
    · rename_i shifting
      rw [if_neg (by simp; omega), if_pos (by omega)]
      rfl
    · rename_i last
      rw [if_neg last] at kept
      split
      · rename_i ends
        rw [uartTxStop_cpu, if_pos (by simpa using ends), if_pos (by omega), ends]
      · rename_i ended
        rw [if_neg ended] at kept
        rw [uartTxEnd_cpu kept, if_neg (by simpa using ended), if_neg (by omega)]

/-- An accepted frame reaches SBUF, RB8 and RI. -/
theorem uartRxAccept_cpu (cycle : Nat) (m : Machine ω) :
    (uartRxAccept hooks cycle m).cpu = m.cpu.received := by
  -- SCON is stored two or three times; the last store is the one that stays.
  have apart : Reg.scon ≠ Reg.sbuf := by decide
  simp only [uartRxAccept, emitUart_cpu, raw_cpu, irqWrite_cpu, Cpu.received, Cpu.receivedScon]
  split
  · simp [Machine.setSfr, Machine.mapCpu, Machine.mapUart, Cpu.store, Cpu.withUart,
      Function.update_of_ne apart]
  · simp [Machine.setSfr, Machine.mapCpu, Machine.mapUart, Cpu.store, Cpu.withUart,
      Function.update_of_ne apart]

/-- A receive boundary, which nothing can abort. -/
theorem uartRxBoundary_cpu (cycle : Nat) (m : Machine ω) :
    (uartRxBoundary hooks cycle m).cpu = m.cpu.rxBoundary := by
  simp only [uartRxBoundary, apply_ite Machine.cpu, uartRxAccept_cpu, uartRxDrop, emitUart_cpu,
    raw_cpu]
  rfl

/-- The transmit half of an overflow. -/
theorem uartClockTx_cpu {smod : Bool} {cycle : Nat}
    (kept : (uartClockTx hooks smod cycle m).aborted hooks = false) :
    (uartClockTx hooks smod cycle m).cpu = m.cpu.clockTx smod := by
  simp only [uartClockTx] at kept ⊢
  simp only [Cpu.clockTx]
  -- The divider fires, or the overflow only counts.
  split
  · rename_i fires
    rw [if_pos fires] at kept
    rw [uartTxBoundary_cpu kept, if_pos (by exact fires)]
    rfl
  · rename_i waits
    rw [if_neg (by exact waits)]
    rfl

/-- The receive half of an overflow. -/
theorem uartClockRx_cpu (smod : Bool) (cycle : Nat) (m : Machine ω) :
    (uartClockRx hooks smod cycle m).cpu = m.cpu.clockRx smod := by
  simp only [uartClockRx, apply_ite Machine.cpu, uartRxBoundary_cpu]
  rfl

/-- An overflow that is not aborted clocks both halves of the serial port. -/
theorem uartTimer1Overflow_cpu
    (kept : (uartTimer1Overflow hooks m).aborted hooks = false) :
    (uartTimer1Overflow hooks m).cpu = m.cpu.serialClock := by
  simp only [uartTimer1Overflow] at kept ⊢
  simp only [Cpu.serialClock]
  -- Outside mode 3 the serial port ignores Timer 1.
  split
  · rename_i mode
    rw [if_pos mode] at kept
    -- An abort in the transmitter would show in the result.
    split
    · rename_i cut
      rw [if_pos cut] at kept
      exact absurd (cut.symm.trans kept) Bool.true_eq_false.mp
    · rename_i sent
      rw [uartClockRx_cpu, uartClockTx_cpu (by simpa using sent)]
      rfl
  · rfl

/-! ### The two halves are independent -/

/-- The transmitter, with its divider. -/
structure Transmitter where
  dividerPhase : Byte
  txPendingData : Byte
  txData : Byte
  txBitIndex : Nat
  txPendingNinth : Bool
  txNinth : Bool
  txPending : Bool
  txActive : Bool

/-- The receiver, with its divider. -/
structure Receiver where
  rxDividerPhase : Byte
  rxData : Byte
  rxPendingData : Byte
  rxBitIndex : Nat
  rxPendingNinth : Bool
  rxActive : Bool

/-- The transmit half of the serial port. -/
def UartState.transmitter (u : UartState) : Transmitter where
  dividerPhase := u.dividerPhase
  txPendingData := u.txPendingData
  txData := u.txData
  txBitIndex := u.txBitIndex
  txPendingNinth := u.txPendingNinth
  txNinth := u.txNinth
  txPending := u.txPending
  txActive := u.txActive

/-- The receive half of the serial port. -/
def UartState.receiver (u : UartState) : Receiver where
  rxDividerPhase := u.rxDividerPhase
  rxData := u.rxData
  rxPendingData := u.rxPendingData
  rxBitIndex := u.rxBitIndex
  rxPendingNinth := u.rxPendingNinth
  rxActive := u.rxActive

/-- A receive boundary leaves the transmitter alone. -/
theorem Cpu.rxBoundary_transmitter (c : Cpu) :
    c.rxBoundary.uart.transmitter = c.uart.transmitter := by
  simp only [Cpu.rxBoundary]
  split
  · split <;> rfl
  · split <;> rfl

/-- The receiver's clock leaves the transmitter alone. -/
theorem Cpu.clockRx_transmitter (c : Cpu) (smod : Bool) :
    (c.clockRx smod).uart.transmitter = c.uart.transmitter := by
  simp only [Cpu.clockRx]
  split
  · split
    · rw [Cpu.rxBoundary_transmitter]
      rfl
    · rfl
  · rfl

/-- A transmit boundary leaves the receiver and the divider alone. -/
theorem UartState.txNext_receiver (u : UartState) : u.txNext.receiver = u.receiver := by
  simp only [UartState.txNext, UartState.startHeld]
  split
  · split <;> rfl
  · split
    · rfl
    · split <;> rfl

/-- Moving on by a bit leaves the divider alone. -/
theorem UartState.txNext_dividerPhase (u : UartState) :
    u.txNext.dividerPhase = u.dividerPhase := by
  simp only [UartState.txNext, UartState.startHeld]
  split
  · split <;> rfl
  · split
    · rfl
    · split <;> rfl

/-- The transmitter's clock leaves the receiver alone. -/
theorem Cpu.clockTx_receiver (c : Cpu) (smod : Bool) :
    (c.clockTx smod).uart.receiver = c.uart.receiver := by
  simp only [Cpu.clockTx]
  split
  · exact UartState.txNext_receiver _
  · rfl

/-- The divider of the transmitter counts every overflow. -/
theorem Cpu.clockTx_dividerPhase (c : Cpu) (smod : Bool) :
    (c.clockTx smod).uart.dividerPhase = dividerNext c.uart.dividerPhase := by
  simp only [Cpu.clockTx]
  split
  · exact UartState.txNext_dividerPhase _
  · rfl

/-- An overflow steps the transmit divider once, in mode 3 and only there. -/
theorem Cpu.serialClock_dividerPhase (c : Cpu) :
    c.serialClock.uart.dividerPhase =
      if c.uartMode3 then dividerNext c.uart.dividerPhase else c.uart.dividerPhase := by
  simp only [Cpu.serialClock]
  split
  · have kept := congrArg Transmitter.dividerPhase
      (Cpu.clockRx_transmitter (c.clockTx c.smod) c.smod)
    exact kept.trans (Cpu.clockTx_dividerPhase c c.smod)
  · rfl

end Emu80535
