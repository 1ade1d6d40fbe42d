import Emu80535.Proofs.Events

/-! Transmit frames: what the divider boundaries of a run put on the line. -/

namespace Emu80535

variable {ω : Type} {hooks : Hooks ω} {m n : Machine ω}

open Machine

/-- The records of the transmitter. -/
def Record.isTx : Record → Bool
  | .uart .txStart .. | .uart .txBit .. | .uart .txStop .. | .uart .txEnd .. => true
  | _ => false

/-! ### The line -/

/-- A byte with its ninth bit. -/
structure Frame where
  data : Byte
  ninth : Bool
  deriving DecidableEq, Repr

/-- What is on the line and what is held for it. -/
structure Line where
  held : Option Frame
  /-- The frame on the line, with the number of boundaries since its START. -/
  sending : Option (Frame × Nat)

/-- Nothing is on the line and nothing is held. -/
def Line.idle : Line := ⟨none, none⟩

/-- The held frame goes out, when there is one. -/
def Line.start (line : Line) : Line := ⟨none, line.held.map fun frame => (frame, 0)⟩

/-- The line after a boundary: a frame ends with the eleventh after its START. -/
def Line.boundary (line : Line) : Line :=
  match line.sending with
  | none => line.start
  | some (frame, sent) =>
    if sent < 10 then { line with sending := some (frame, sent + 1) } else line.start

/-- A boundary of the transmit divider is reached by an overflow in mode 3. -/
def Cpu.txFires (c : Cpu) : Bool :=
  c.uartMode3 && dividerFires (dividerNext c.uart.dividerPhase) c.smod

/-- A record of the transmitter, made in the machine cycle that is being completed. -/
def Cpu.txRecord (c : Cpu) (event : UartEvent) (frame : Frame) (bit : Nat) (value : Bool) : Record :=
  .uart event (c.machineCycleCount + 1) c.pc frame.data frame.ninth bit value

/-- A bit of a frame: the byte from its lowest bit, and then the ninth bit. -/
def Frame.bit (frame : Frame) (i : Nat) : Bool :=
  if i ≤ 8 then frame.data.getLsbD (i - 1) else frame.ninth

/-- What a start reports, when a frame is held. -/
def Line.startRecords (line : Line) (c : Cpu) : List Record :=
  line.held.toList.map fun frame => c.txRecord .txStart frame 0 false

/-- What a boundary reports of the line before it. -/
def Line.records (line : Line) (c : Cpu) : List Record :=
  match line.sending with
  | none => line.startRecords c
  | some (frame, sent) =>
    if sent + 1 ≤ 9 then [c.txRecord .txBit frame (sent + 1) (frame.bit (sent + 1))]
    else if sent + 1 = 10 then [c.txRecord .txStop frame 10 true]
    else c.txRecord .txEnd frame 10 true :: line.startRecords c

/-- All of them are records of the transmitter. -/
theorem Line.records_isTx (line : Line) (c : Cpu) {record : Record}
    (member : record ∈ line.records c) : record.isTx = true := by
  -- A start is a record of the transmitter.
  have starts : ∀ r ∈ line.startRecords c, r.isTx = true := by
    intro r started
    obtain ⟨frame, -, rfl⟩ := List.mem_map.mp started
    rfl
  -- At a boundary there is a start, a bit, a stop, or an end and perhaps a start.
  simp only [Line.records] at member
  split at member
  · exact starts record member
  · split at member
    · rw [List.mem_singleton.mp member]
      rfl
    · split at member
      · rw [List.mem_singleton.mp member]
        rfl
      · rcases List.mem_cons.mp member with rfl | later
        · rfl
        · exact starts record later

/-- The line that the state of the serial port stands for. -/
def UartState.line (u : UartState) : Line where
  held := if u.txPending then some ⟨u.txPendingData, u.txPendingNinth⟩ else none
  sending := if u.txActive then some (⟨u.txData, u.txNinth⟩, u.txBitIndex) else none

/-- What an overflow that is not aborted reports of the transmitter. -/
def Cpu.txRecords (c : Cpu) : List Record := if c.txFires then c.uart.line.records c else []

/-! ### The code computes it -/

/-- A boundary moves the line on. -/
theorem UartState.txNext_line {u : UartState} (bound : u.txActive = true → u.txBitIndex ≤ 10) :
    u.txNext.line = u.line.boundary ∧ (u.txNext.txActive = true → u.txNext.txBitIndex ≤ 10) := by
  -- Starting the held frame does the same to the line as to the registers.
  have started : ∀ v : UartState,
      v.txPending = u.txPending → v.txPendingData = u.txPendingData →
      v.txPendingNinth = u.txPendingNinth → v.txActive = false →
      v.startHeld.line = u.line.start ∧
        (v.startHeld.txActive = true → v.startHeld.txBitIndex ≤ 10) := by
    intro v pending data ninth inactive
    simp only [UartState.startHeld, pending]
    -- Without a held frame nothing starts.
    cases held : u.txPending with
    | true =>
      simp [UartState.started, UartState.line, Line.start, held, data, ninth]
    | false =>
      simp [UartState.line, Line.start, held, pending, inactive]
  -- An idle line can only start; a busy one shifts, stops or ends.
  cases active : u.txActive with
  | false =>
    have same : u.txNext = u.startHeld := by simp [UartState.txNext, active]
    have line : u.line.boundary = u.line.start := by simp [Line.boundary, UartState.line, active]
    rw [same, line]
    exact started u rfl rfl rfl active
  | true =>
    have within := bound active
    -- Up to the ninth bit the index moves on.
    by_cases shifting : u.txBitIndex ≤ 9
    · have same : u.txNext = { u with txBitIndex := u.txBitIndex + 1 } := by
        simp [UartState.txNext, active, shifting]
      rw [same]
      refine ⟨?_, fun _ => Nat.succ_le_succ shifting⟩
      simp [Line.boundary, UartState.line, active, Nat.lt_succ_of_le shifting]
    · -- Behind the stop bit the frame ends, and the next one starts at once.
      have same : u.txNext = { u with txActive := false }.startHeld := by
        simp [UartState.txNext, active, shifting]
      have line : u.line.boundary = u.line.start := by
        simp only [Line.boundary, UartState.line, active, if_true]
        rw [if_neg (by omega)]
      rw [same, line]
      exact started _ rfl rfl rfl rfl

section Records

variable (journal : Journal hooks)

/-- A fact is none of the records. -/
theorem read_raw (fact : RawFact) (m : Machine ω) :
    journal.read (m.raw hooks fact).host = journal.read m.host := by
  simp only [Machine.raw]
  split
  · exact journal.fact _ _ _
  · rfl

/-- A request reports nothing to the journal. -/
theorem read_irqWrite (index : SfrIndex) (value : Byte) (cycle : Nat) (m : Machine ω) :
    journal.read (m.irqWrite hooks index value cycle).host = journal.read m.host := by
  have stored : journal.read (m.setSfr index value).host = journal.read m.host := rfl
  simp only [Machine.irqWrite]
  split
  · -- The request is told of every source whose flag it sets.
    refine Fold.foldl_keeps (I := fun k : Machine ω => journal.read k.host = journal.read m.host)
      (fun s _ k before => ?_) stored
    split
    · exact (read_raw journal _ _).trans before
    · exact before
  · exact stored

/-- An event of the serial port is one record. -/
theorem read_emitUart (event : UartEvent) (cycle : Nat) (data : Byte) (ninth : Bool) (bit : Nat)
    (value : Bool) (m : Machine ω) :
    journal.read (m.emitUart hooks event cycle data ninth bit value).host =
      journal.read m.host ++ [.uart event cycle m.cpu.pc data ninth bit value] :=
  journal.emit _ _

/-- A start reports the held frame. -/
theorem uartTxStart_read (m : Machine ω) (cycle : Nat) :
    journal.read (uartTxStart hooks cycle m).host = journal.read m.host ++
      [.uart .txStart cycle m.cpu.pc m.cpu.uart.txPendingData m.cpu.uart.txPendingNinth 0 false] := by
  simp only [uartTxStart]
  rw [read_emitUart, read_raw]
  simp only [raw_cpu]
  rfl

/-- An end reports the frame, and the start of the held one in the same boundary. -/
theorem uartTxEnd_read {m : Machine ω}
    (kept : (uartTxEnd hooks (m.cpu.machineCycleCount + 1) m).aborted hooks = false) :
    journal.read (uartTxEnd hooks (m.cpu.machineCycleCount + 1) m).host =
      journal.read m.host ++
        m.cpu.txRecord .txEnd ⟨m.cpu.uart.txData, m.cpu.uart.txNinth⟩ 10 true ::
          m.cpu.uart.line.startRecords m.cpu := by
  simp only [uartTxEnd] at kept ⊢
  -- The end is reported first.
  generalize reporting : (m.raw hooks (.txEnd (m.cpu.machineCycleCount + 1))).emitUart hooks .txEnd
    (m.cpu.machineCycleCount + 1)
    (m.raw hooks (.txEnd (m.cpu.machineCycleCount + 1))).cpu.uart.txData
    (m.raw hooks (.txEnd (m.cpu.machineCycleCount + 1))).cpu.uart.txNinth 10 true = r at kept ⊢
  have same : r.cpu = m.cpu := by
    rw [← reporting, emitUart_cpu, raw_cpu]
  have reported : journal.read r.host = journal.read m.host ++
      [m.cpu.txRecord .txEnd ⟨m.cpu.uart.txData, m.cpu.uart.txNinth⟩ 10 true] := by
    rw [← reporting, read_emitUart, read_raw, raw_cpu]
    rfl
  -- Had the report aborted, the end would be aborted.
  have uncut : r.aborted hooks = false := by
    cases cut : r.aborted hooks with
    | false => rfl
    | true =>
      rw [if_pos cut] at kept
      exact cut.symm.trans kept
  rw [if_neg (ne_true_of_eq_false uncut)]
  -- The held frame is still there, and starts in the same boundary.
  have held : (r.mapUart fun u => { u with txActive := false }).cpu.uart.txPending =
      m.cpu.uart.txPending := by
    simp only [mapUart, mapCpu_cpu, same]
  rw [held]
  cases pending : m.cpu.uart.txPending with
  | true =>
    simp only [if_true]
    rw [uartTxStart_read]
    simp [mapUart, same, reported, Line.startRecords, UartState.line, pending, Cpu.txRecord]
  | false => simp [mapUart, reported, Line.startRecords, UartState.line, pending]

/-- A boundary reports what it does to the line. -/
theorem uartTxBoundary_read {m : Machine ω} (bound : m.cpu.uart.txActive = true →
      m.cpu.uart.txBitIndex ≤ 10)
    (kept : (uartTxBoundary hooks (m.cpu.machineCycleCount + 1) m).aborted hooks = false) :
    journal.read (uartTxBoundary hooks (m.cpu.machineCycleCount + 1) m).host =
      journal.read m.host ++ m.cpu.uart.line.records m.cpu := by
  simp only [uartTxBoundary] at kept ⊢
  -- An idle line starts what is held.
  cases active : m.cpu.uart.txActive with
  | false =>
    have quiet : m.cpu.uart.line.sending = none := by simp [UartState.line, active]
    simp only [if_true, Line.records, quiet, Line.startRecords]
    cases held : m.cpu.uart.txPending with
    | true =>
      simp only [if_true]
      rw [uartTxStart_read]
      simp [UartState.line, held, Cpu.txRecord]
    | false => simp [UartState.line, held]
  -- A busy one is at one of its bits.
  | true =>
    have busy : m.cpu.uart.line.sending =
        some (⟨m.cpu.uart.txData, m.cpu.uart.txNinth⟩, m.cpu.uart.txBitIndex) := by
      simp [UartState.line, active]
    have within := bound active
    rw [active] at kept
    simp only [Bool.true_eq_false, if_false, Line.records, busy] at kept ⊢
    -- The data bits and the ninth one follow each other.
    by_cases shifting : m.cpu.uart.txBitIndex < 9
    · rw [if_pos shifting, if_pos (by omega), read_emitUart]
      -- The value reported is that of the bit just reached.
      have value : ({ m.cpu.uart with txBitIndex := m.cpu.uart.txBitIndex + 1 } : UartState).txBitValue
          (m.cpu.uart.txBitIndex + 1) =
          (⟨m.cpu.uart.txData, m.cpu.uart.txNinth⟩ : Frame).bit (m.cpu.uart.txBitIndex + 1) := by
        simp only [UartState.txBitValue, Frame.bit, Nat.succ_ne_zero, if_false]
        split
        · rfl
        · rw [if_pos (by omega)]
      rw [← value]
      rfl
    · rw [if_neg shifting] at kept ⊢
      rw [if_neg (show ¬ m.cpu.uart.txBitIndex + 1 ≤ 9 by omega)]
      -- The stop bit reports and requests, except where the request has been made.
      by_cases stops : m.cpu.uart.txBitIndex = 9
      · rw [if_pos stops, if_pos (by omega)]
        simp only [uartTxStop]
        rw [read_emitUart]
        split
        · rw [read_raw, read_raw, read_irqWrite]
          simp only [raw_cpu, irqWrite_cpu]
          rfl
        · rw [read_raw, read_irqWrite]
          simp only [raw_cpu, irqWrite_cpu]
          rfl
      · -- Behind it the frame ends.
        rw [if_neg stops] at kept ⊢
        rw [if_neg (by omega)]
        exact uartTxEnd_read journal kept

/-- What the receive half can touch; it reports frames of its own. -/
def receiveScope : Scope where
  regs := [Reg.scon, Reg.sbuf]
  uart := true
  emits record := !record.isTx

omit journal in
/-- Clocking the receiver stays within what belongs to it. -/
theorem uartClockRx_within (journal : Option (Journal hooks)) (smod : Bool) (cycle : Nat)
    (m : Machine ω) : Within journal receiveScope m (uartClockRx hooks smod cycle m) := by
  have still : Within journal receiveScope m m := Within.refl m
  simp only [uartClockRx, uartRxBoundary, uartRxAccept, uartRxDrop]
  -- The divider moves in any case, the index only at a boundary.
  have moved := (still.mapUart (fun u => { u with rxDividerPhase := dividerNext u.rxDividerPhase })
    rfl)
  have counted := moved.mapUart (fun u => { u with rxBitIndex := u.rxBitIndex + 1 }) rfl
  -- A byte is accepted, dropped, or still being received.
  refine Within.ite (Within.ite (Within.ite (Within.ite ?_ ?_) (Within.ite ?_ counted)) moved) still
  · refine Within.emit (Within.raw (Within.irqWrite (Within.ite (Within.setSfr ?_ _ (by decide)) ?_)
      _ _ (by decide)) _) rfl
    all_goals exact ((counted.mapUart _ rfl).setSfr _ (by decide)).setSfr _ (by decide)
  · exact (counted.raw _).emit rfl
  · exact ((counted.mapUart _ rfl).raw _).emit rfl

/-- An overflow that is not aborted reports the line, and nothing else of the transmitter. -/
theorem uartTimer1Overflow_read {m : Machine ω}
    (bound : m.cpu.uart.txActive = true → m.cpu.uart.txBitIndex ≤ 10)
    (kept : (uartTimer1Overflow hooks m).aborted hooks = false) :
    ∃ added, journal.read (uartTimer1Overflow hooks m).host = journal.read m.host ++ added ∧
      added.filter Record.isTx = m.cpu.txRecords := by
  simp only [uartTimer1Overflow] at kept ⊢
  cases mode : m.cpu.uartMode3 with
  | false => exact ⟨[], by simp, by simp [Cpu.txRecords, Cpu.txFires, mode]⟩
  | true =>
    rw [mode] at kept
    simp only [if_true] at kept ⊢
    -- The transmit half comes first, and the receive half adds no record of it.
    have sent : (uartClockTx hooks (has (m.cpu.sfr Reg.pcon) Pcon.smod)
        (m.cpu.machineCycleCount + 1) m).aborted hooks = false →
        journal.read (uartClockTx hooks (has (m.cpu.sfr Reg.pcon) Pcon.smod)
          (m.cpu.machineCycleCount + 1) m).host = journal.read m.host ++ m.cpu.txRecords := by
      intro uncut
      simp only [uartClockTx] at uncut ⊢
      simp only [Cpu.txRecords, Cpu.txFires, mode, Bool.true_and]
      by_cases fires : dividerFires (dividerNext m.cpu.uart.dividerPhase) m.cpu.smod = true
      · rw [if_pos fires]
        rw [if_pos (by exact fires)] at uncut ⊢
        exact uartTxBoundary_read journal (m := m.mapUart fun u =>
          { u with dividerPhase := dividerNext u.dividerPhase }) bound uncut
      · rw [if_neg fires, if_neg (show ¬ dividerFires (m.mapUart fun u =>
          { u with dividerPhase := dividerNext u.dividerPhase }).cpu.uart.dividerPhase
            (has (m.cpu.sfr Reg.pcon) Pcon.smod) = true from fires), List.append_nil]
        rfl
    have own : m.cpu.txRecords.filter Record.isTx = m.cpu.txRecords := by
      refine List.filter_eq_self.mpr fun record member => ?_
      simp only [Cpu.txRecords] at member
      split at member
      · exact Line.records_isTx _ _ member
      · exact absurd member List.not_mem_nil
    generalize uartClockTx hooks (has (m.cpu.sfr Reg.pcon) Pcon.smod)
      (m.cpu.machineCycleCount + 1) m = k at kept sent ⊢
    have uncut : k.aborted hooks = false := by
      cases cut : k.aborted hooks with
      | false => rfl
      | true =>
        rw [if_pos cut] at kept
        exact cut.symm.trans kept
    rw [if_neg (ne_true_of_eq_false uncut)]
    obtain ⟨rx, read, inside⟩ := (uartClockRx_within (some journal)
      (has (m.cpu.sfr Reg.pcon) Pcon.smod) (m.cpu.machineCycleCount + 1) k).records journal rfl
    refine ⟨m.cpu.txRecords ++ rx, by rw [read, sent uncut, List.append_assoc], ?_⟩
    have none : rx.filter Record.isTx = [] := by
      rw [List.filter_eq_nil_iff]
      intro record member
      have other : (!record.isTx) = true := inside record member
      simpa using other
    rw [List.filter_append, own, none, List.append_nil]

end Records

/-! ### The line in a run -/

/-- The frame an event holds for transmission. -/
def DeviceEvent.holds : DeviceEvent → Option Frame
  | .hold data ninth => some ⟨data, ninth⟩
  | _ => none

/-- A divider boundary of the transmitter. -/
def DeviceEvent.isBoundary : DeviceEvent → Bool
  | .overflow before _ => before.txFires
  | _ => false

/-- What an event reports of the transmitter. -/
def DeviceEvent.txRecords : DeviceEvent → List Record
  | .overflow before _ => before.txRecords
  | _ => []

/-- What a boundary does to TI: the one that sends the stop bit sets it. -/
def Line.stops (line : Line) : Bool := line.sending matches some (_, 9)

/-- Follows the line, and says what a boundary reports of it. -/
def txMonitor : Monitor Line DeviceEvent where
  next line
    | .overflow before _ => if before.txFires then line.boundary else line
    | .hold data ninth => { line with held := some ⟨data, ninth⟩ }
    | _ => line
  permits line
    | .overflow before after => before.txFires = true →
        before.txRecords = line.records before ∧
          (line.stops = true → has (after.sfr Reg.scon) Scon.ti = true)
    | _ => True

/-- The number of a bit on the line never exceeds that of the stop bit. -/
def UartState.Framed (u : UartState) : Prop := u.txActive = true → u.txBitIndex ≤ 10

/-- The line is the transmitter's affair. -/
theorem UartState.line_eq {u v : UartState} (same : u.transmitter = v.transmitter) :
    u.line = v.line ∧ (v.Framed → u.Framed) := by
  -- The line is computed from these fields alone.
  have held := congrArg Transmitter.txPending same
  have data := congrArg Transmitter.txPendingData same
  have ninth := congrArg Transmitter.txPendingNinth same
  have active := congrArg Transmitter.txActive same
  have sent := congrArg Transmitter.txData same
  have sentNinth := congrArg Transmitter.txNinth same
  have bit := congrArg Transmitter.txBitIndex same
  simp only [UartState.transmitter] at held data ninth active sent sentNinth bit
  simp only [UartState.line, UartState.Framed, held, data, ninth, active, sent, sentNinth, bit]
  exact ⟨trivial, id⟩

/-- Receiving leaves TI alone. -/
theorem Cpu.clockRx_ti (c : Cpu) (smod : Bool) :
    has ((c.clockRx smod).sfr Reg.scon) Scon.ti = has (c.sfr Reg.scon) Scon.ti := by
  -- An accepted byte stores SCON with RI and RB8 changed.
  have accepted : ∀ k : Cpu, has (k.received.sfr Reg.scon) Scon.ti =
      has (k.sfr Reg.scon) Scon.ti := by
    intro k
    have scon : k.received.sfr Reg.scon = k.receivedScon := by
      simp only [Cpu.received, Cpu.withUart, Cpu.store, Function.update_self]
    rw [scon]
    simp only [Cpu.receivedScon]
    rw [has_or_of_disjoint (by decide)]
    split
    · rw [has_or_of_disjoint (by decide), has_andNot_of_disjoint (by decide)]
    · exact has_andNot_of_disjoint (by decide)
  -- At a boundary SCON is stored only on acceptance.
  have boundary : ∀ k : Cpu, has (k.rxBoundary.sfr Reg.scon) Scon.ti =
      has (k.sfr Reg.scon) Scon.ti := by
    intro k
    simp only [Cpu.rxBoundary]
    split
    · split
      · exact accepted _
      · rfl
    · split <;> rfl
  -- Between boundaries it is not stored.
  simp only [Cpu.clockRx]
  split
  · split
    · exact boundary _
    · rfl
  · rfl

/-- The boundary that sends the stop bit sets TI. -/
theorem Cpu.serialClock_ti {c : Cpu} (fires : c.txFires = true)
    (stops : c.uart.line.stops = true) :
    has (c.serialClock.sfr Reg.scon) Scon.ti = true := by
  simp only [Cpu.txFires, Bool.and_eq_true] at fires
  obtain ⟨mode, fired⟩ := fires
  have stopping : c.uart.stopping = true := by
    simp only [UartState.line, Line.stops] at stops
    cases active : c.uart.txActive with
    | false => simp [active] at stops
    | true =>
      simp only [active, if_true] at stops
      split at stops
      · rename_i same
        simp only [Option.some.injEq, Prod.mk.injEq] at same
        simp [UartState.stopping, active, same.2]
      · exact absurd stops Bool.false_ne_true
  have sent : has ((c.clockTx c.smod).sfr Reg.scon) Scon.ti = true := by
    have scon : (c.clockTx c.smod).sfr Reg.scon = c.sfr Reg.scon ||| Scon.ti := by
      have still : (c.withUart { c.uart with
          dividerPhase := dividerNext c.uart.dividerPhase }).uart.stopping = true := stopping
      simp only [Cpu.clockTx]
      rw [if_pos (by exact fired)]
      simp only [Cpu.txBoundary]
      rw [if_pos still]
      simp only [Cpu.withUart, Cpu.store, Function.update_self]
    rw [scon]
    exact has_or_self (by decide)
  -- The receive half that follows leaves TI alone.
  rw [Cpu.serialClock, if_pos mode]
  exact ((c.clockTx c.smod).clockRx_ti c.smod).trans sent

/-- An overflow moves the line on when it reaches a boundary. -/
theorem Cpu.serialClock_line {c : Cpu} (bound : c.uart.Framed) :
    c.serialClock.uart.line = (if c.txFires then c.uart.line.boundary else c.uart.line) ∧
      c.serialClock.uart.Framed := by
  -- The divider is no part of the line.
  have moved : ∀ phase, ({ c.uart with dividerPhase := phase } : UartState).line = c.uart.line :=
    fun _ => rfl
  cases mode : c.uartMode3 with
  | false =>
    simp only [Cpu.serialClock, Cpu.txFires, mode, Bool.false_and, Bool.false_eq_true, if_false]
    exact ⟨trivial, bound⟩
  | true =>
    simp only [Cpu.serialClock, mode, if_true]
    obtain ⟨line, framed⟩ := UartState.line_eq (Cpu.clockRx_transmitter (c.clockTx c.smod) c.smod)
    rw [line]
    simp only [Cpu.txFires, mode, Bool.true_and]
    by_cases fires : dividerFires (dividerNext c.uart.dividerPhase) c.smod = true
    · have same : c.clockTx c.smod = (c.withUart { c.uart with
          dividerPhase := dividerNext c.uart.dividerPhase }).txBoundary := if_pos fires
      obtain ⟨next, within⟩ := UartState.txNext_line
        (u := { c.uart with dividerPhase := dividerNext c.uart.dividerPhase }) bound
      rw [same] at framed ⊢
      rw [if_pos fires]
      exact ⟨next.trans (congrArg Line.boundary (moved _)), framed within⟩
    · have same : c.clockTx c.smod = c.withUart { c.uart with
          dividerPhase := dividerNext c.uart.dividerPhase } := if_neg fires
      rw [same] at framed ⊢
      rw [if_neg fires]
      exact ⟨moved _, framed bound⟩

/-- The monitor follows the line through every course. -/
theorem txMonitor_follows : FollowsSerial hooks txMonitor (fun _ => True) fun line u =>
    line = u.line ∧ u.Framed where
  -- Events that are not the transmitter's leave the line.
  apart := by
    intro line e other
    cases e <;> first | exact ⟨trivial, rfl⟩ | exact absurd other.symm Bool.false_ne_true
  -- A held byte replaces the one before.
  hold := by
    rintro line data ninth u ⟨rfl, bound⟩
    exact ⟨trivial, rfl, bound⟩
  -- A byte for the receiver does not concern it.
  inject := by
    rintro line data ninth m ⟨rfl, bound⟩
    simp only [injectRxFrame]
    split
    · rw [emitUart_cpu, raw_cpu]
      exact ⟨rfl, bound⟩
    · exact ⟨rfl, bound⟩
  -- At an overflow the line does what the registers do.
  overflow := by
    rintro line c - - ⟨rfl, bound⟩
    obtain ⟨next, framed⟩ := c.serialClock_line bound
    exact ⟨fun fires => ⟨if_pos fires, c.serialClock_ti fires⟩, next.symm, framed⟩

/-! ### The records of a run -/

/-- Opening a register write reports nothing. -/
theorem writeOpened_read (journal : Journal hooks) (index : SfrIndex) (value : Byte)
    (m : Machine ω) :
    journal.read (writeOpened hooks index value m).host = journal.read m.host := by
  -- Entering a transaction reports nothing.
  have entered : (sfrWriteEnter m).host = m.host := by
    simp only [sfrWriteEnter]
    split <;> rfl
  -- Holding a byte is a fact.
  have held : ∀ (v : Byte) (k : Machine ω),
      journal.read (uartSbufWrite hooks v k).host = journal.read k.host := by
    intro v k
    simp only [uartSbufWrite]
    split
    · exact read_raw journal _ _
    · rfl
  -- Storing the register is told as a request at most.
  have written : ∀ v cycle, journal.read ((sfrWriteEnter m).irqWrite hooks index v cycle).host =
      journal.read m.host := by
    intro v cycle
    rw [read_irqWrite, entered]
  simp only [writeOpened]
  -- The serial buffer holds first; any other register is stored and may request a conversion.
  split
  · refine (held _ _).trans ?_
    rw [read_raw, entered]
  · split
    · exact written _ _
    · exact written _ _

/-- The records of the transmitter come from the overflows, in their order. -/
theorem Course.txRecords {j : Journal hooks} {log : List DeviceEvent}
    (course : Course (some j) log m n) (sab : m.cpu.variant = .sab80535)
    (bound : m.cpu.uart.Framed) :
    ∃ added, j.read n.host = j.read m.host ++ added ∧
      added.filter Record.isTx = log.flatMap DeviceEvent.txRecords := by
  -- What is not of the devices, or only of the converter, is not of the transmitter.
  have quiet : ∀ added : List Record, (∀ record ∈ added, record.isTx = false) →
      added.filter Record.isTx = [] := by
    intro added apart
    exact List.filter_eq_nil_iff.mpr fun record member => by simp [apart record member]
  have other : ∀ record : Record, record.ofDevice = false → record.isTx = false := by
    intro record none
    cases record <;> first | rfl | exact absurd none.symm Bool.false_ne_true
  have append : ∀ {a b : List Record} {x y : List DeviceEvent},
      a.filter Record.isTx = x.flatMap DeviceEvent.txRecords →
      b.filter Record.isTx = y.flatMap DeviceEvent.txRecords →
      (a ++ b).filter Record.isTx = (x ++ y).flatMap DeviceEvent.txRecords := by
    intro a b x y first second
    rw [List.filter_append, List.flatMap_append, first, second]
  induction course with
  | refl m => exact ⟨[], (List.append_nil _).symm, rfl⟩
  | @beside log m n k _ rest ih =>
    obtain ⟨early, same, reports⟩ := ih sab bound
    obtain ⟨late, later, apart⟩ := rest.records j rfl
    refine ⟨early ++ late, by rw [later, same, List.append_assoc], ?_⟩
    rw [List.filter_append, reports, quiet late fun r member => other r (apart r member),
      List.append_nil]
  | @overflow log m n earlier kept ih =>
    obtain ⟨early, same, reports⟩ := ih sab bound
    obtain ⟨-, -, framed⟩ := txMonitor_follows.course earlier sab _ (fun _ _ => trivial)
      ⟨rfl, bound⟩
    obtain ⟨late, later, sent⟩ := uartTimer1Overflow_read j framed kept
    refine ⟨early ++ late, by rw [later, same, List.append_assoc], append reports ?_⟩
    rw [sent]
    exact (List.append_nil _).symm
  | @turn log m n earlier ih =>
    obtain ⟨early, same, reports⟩ := ih sab bound
    obtain ⟨late, later, inside⟩ := (Within.adcTicks (some j) n).records j rfl
    have told : j.read (adcTick hooks n).clocked.host = j.read n.host ++ late := later
    refine ⟨early ++ late, by rw [told, same, List.append_assoc], append reports ?_⟩
    refine quiet late fun record member => ?_
    have known := inside record member
    cases record <;> first | rfl | exact absurd known Bool.false_ne_true
  | @inject log m n data ninth _ ih =>
    obtain ⟨early, same, reports⟩ := ih sab bound
    simp only [injectRxFrame]
    split
    · refine ⟨early ++ [.uart .rxStart n.cpu.machineCycleCount n.cpu.pc data ninth 0 false], ?_, ?_⟩
      · rw [read_emitUart, read_raw, ← List.append_assoc, ← same]
        simp only [raw_cpu]
        rfl
      · rw [List.filter_append, reports]
        exact List.append_nil _
    · exact ⟨early, same, reports⟩
  | @input log m n channel input _ ih =>
    obtain ⟨early, same, reports⟩ := ih sab bound
    refine ⟨early, ?_, reports⟩
    rw [← same]
    simp only [adcSetInput]
    split <;> rfl
  | @write log inner m n c k index value earlier _ closing ih ihInner =>
    obtain ⟨early, same, reports⟩ := ih sab bound
    obtain ⟨-, -, framed⟩ := txMonitor_follows.course earlier sab _ (fun _ _ => trivial)
      ⟨rfl, bound⟩
    have here : n.cpu.variant = .sab80535 := earlier.variant.trans sab
    have opening := @writeOpened_cpu ω hooks n here index value
    have opened : (writeOpened hooks index value n).cpu.uart.Framed := by
      rw [opening]
      simp only [Cpu.opened]
      split
      · exact framed
      · exact framed
    obtain ⟨late, later, sent⟩ := ihInner (by rw [opening]; exact here) opened
    obtain ⟨rest, closed, apart⟩ := closing.records j rfl
    have host : ∀ serial (k : Machine ω), (writeClosed serial k).host = k.host := by
      intro serial k
      rw [writeClosed, adcFinishSfrTransaction_host]
      cases serial <;> rfl
    refine ⟨early ++ (late ++ rest), ?_, append reports ?_⟩
    · rw [closed, host, later, writeOpened_read, same]
      simp only [List.append_assoc]
    · -- The write itself is no boundary; what its callback does comes after it.
      have silent : (n.cpu.written index value).flatMap DeviceEvent.txRecords = [] := by
        simp only [Cpu.written]
        split
        · rfl
        · split <;> rfl
      rw [List.filter_append, List.flatMap_cons, List.flatMap_append, List.flatMap_append, silent,
        sent, quiet rest fun r member => other r (apart r member)]
      simp [DeviceEvent.txRecords]

/-! ### Frames in a run -/

section Frames

variable {early : List DeviceEvent} {before after : Cpu} {frame : Frame}

/-- The overflow puts the start bit of a frame on the line. -/
def Cpu.Starts (c : Cpu) (frame : Frame) : Prop := c.txRecord .txStart frame 0 false ∈ c.txRecords

/-- The line has nothing to send: it never had, or its last event ended a frame and started none. -/
def Ended (early : List DeviceEvent) : Prop :=
  early = [] ∨ ∃ earlier before after frame, early = earlier ++ [.overflow before after] ∧
    before.txRecords = [before.txRecord .txEnd frame 10 true]

/-- A boundary moves the line on and holds nothing. -/
theorem txMonitor_boundary (line : Line) {e : DeviceEvent} (fires : e.isBoundary = true) :
    txMonitor.next line e = line.boundary ∧ e.holds = none := by
  cases e with
  | overflow before after =>
    have fired : before.txFires = true := fires
    simp [txMonitor, fired, DeviceEvent.holds]
  | hold _ _ | enter | request | leave | turn _ _ => exact absurd fires Bool.false_ne_true

/-- A start takes what is held and puts it on the line. -/
theorem Line.records_start {line : Line} {c : Cpu}
    (started : c.txRecord .txStart frame 0 false ∈ line.records c) :
    line.held = some frame ∧ line.boundary = ⟨none, some (frame, 0)⟩ := by
  -- A record of a start tells the frame that was held.
  have held : c.txRecord .txStart frame 0 false ∈ line.startRecords c → line.held = some frame := by
    intro member
    obtain ⟨other, present, same⟩ := List.mem_map.mp member
    simp only [Cpu.txRecord, Record.uart.injEq] at same
    -- The record has its byte and its ninth bit.
    have equal : other = frame := by
      obtain ⟨-, -, -, data, ninth, -⟩ := same
      cases other
      cases frame
      simp_all
    rw [← equal]
    exact Option.mem_toList.mp present
  have start : line.held = some frame → line.start = ⟨none, some (frame, 0)⟩ := by
    intro same
    rw [Line.start, same]
    rfl
  simp only [Line.records] at started
  simp only [Line.boundary]
  -- A start is reported by an idle line, or behind an end.
  split at started
  · exact ⟨held started, start (held started)⟩
  · split at started
    · simp [Cpu.txRecord] at started
    · split at started
      · simp [Cpu.txRecord] at started
      · rcases List.mem_cons.mp started with other | member
        · simp [Cpu.txRecord] at other
        · rename_i sent _ _
          exact ⟨held member, by rw [if_neg (by omega)]; exact start (held member)⟩

/-- An overflow that starts a frame is a boundary. -/
theorem Cpu.Starts.fires {c : Cpu} (starts : c.Starts frame) : c.txFires = true := by
  cases fired : c.txFires with
  | true => rfl
  | false =>
    simp only [Cpu.Starts, Cpu.txRecords, fired] at starts
    exact absurd starts List.not_mem_nil

/-- An accepted history reports the line at each of its boundaries. -/
theorem Accepts.boundary {late : List DeviceEvent}
    (accepts : txMonitor.Accepts Line.idle (early ++ .overflow before after :: late))
    (fires : before.txFires = true) :
    before.txRecords = (txMonitor.after Line.idle early).records before ∧
      ((txMonitor.after Line.idle early).stops = true →
        has (after.sfr Reg.scon) Scon.ti = true) :=
  accepts.at fires

/-- After a start the frame is on the line and nothing is held. -/
theorem Accepts.started {late : List DeviceEvent}
    (accepts : txMonitor.Accepts Line.idle (early ++ .overflow before after :: late))
    (starts : before.Starts frame) :
    (txMonitor.after Line.idle early).held = some frame ∧
      txMonitor.after Line.idle (early ++ [.overflow before after]) = ⟨none, some (frame, 0)⟩ := by
  have fires := starts.fires
  obtain ⟨reported, -⟩ := Accepts.boundary accepts fires
  -- The boundary was accepted, so its records are those of the line.
  simp only [Cpu.Starts, reported] at starts
  obtain ⟨held, next⟩ := Line.records_start starts
  refine ⟨held, ?_⟩
  rw [txMonitor.after_append, Monitor.after_cons, Monitor.after_nil,
    (txMonitor_boundary _ (e := .overflow before after) fires).1, next]

/-- The line has indeed nothing to send. -/
theorem Ended.idle {late : List DeviceEvent} (ended : Ended early)
    (accepts : txMonitor.Accepts Line.idle (early ++ late)) :
    txMonitor.after Line.idle early = Line.idle := by
  rcases ended with rfl | ⟨earlier, before, after, frame, rfl, reports⟩
  · rfl
  · have fires : before.txFires = true := by
      cases fired : before.txFires with
      | true => rfl
      | false =>
        rw [Cpu.txRecords, fired] at reports
        exact absurd reports (List.cons_ne_nil _ _).symm
    rw [List.append_assoc] at accepts
    have reported := (Accepts.boundary accepts fires).1
    rw [reports] at reported
    rw [txMonitor.after_append, Monitor.after_cons, Monitor.after_nil,
      (txMonitor_boundary _ (e := .overflow before after) fires).1]
    generalize txMonitor.after Line.idle earlier = line at reported
    -- Only the eleventh boundary of a frame reports an end.
    have unheld : ∀ records, before.txRecord .txEnd frame 10 true :: records =
        [before.txRecord .txEnd frame 10 true] → records = [] := by
      intro records same
      exact (List.cons.inj same).2
    have nothing : line.startRecords before = [] → line.start = Line.idle := by
      intro none
      simp only [Line.startRecords, List.map_eq_nil_iff, Option.toList_eq_nil_iff] at none
      rw [Line.start, none]
      rfl
    simp only [Line.records] at reported
    simp only [Line.boundary]
    split at reported
    · rename_i quiet
      simp only [Line.startRecords] at reported
      cases held : line.held with
      | none =>
        rw [held] at reported
        exact absurd reported (List.cons_ne_nil _ _)
      | some other =>
        rw [held] at reported
        simp [Cpu.txRecord] at reported
    · split at reported
      · simp [Cpu.txRecord] at reported
      · split at reported
        · simp [Cpu.txRecord] at reported
        · rw [if_neg (by omega)]
          exact nothing (List.cons.inj reported).2.symm

/-- A reset leaves the line idle. -/
theorem Machine.IsReset.line (fresh : m.IsReset) :
    m.cpu.variant = .sab80535 ∧ m.cpu.uart.line = Line.idle ∧ m.cpu.uart.Framed := by
  obtain ⟨c, wipe, rand, image, entry, sab, same⟩ := fresh
  -- A reset makes the serial port anew, whatever was drawn for the buffer.
  have uart : ∃ drawn, m.cpu.uart = resetUart drawn := by
    rw [same]
    cases wipe <;> exact ⟨_, rfl⟩
  obtain ⟨drawn, uart⟩ := uart
  -- The new port is idle.
  refine ⟨?_, by rw [uart]; rfl, fun active => ?_⟩
  · rw [same]
    exact (c.reset_variant wipe rand).trans sab
  · rw [uart] at active
    exact absurd active Bool.false_ne_true

/-- What a record of the transmitter says of which byte. -/
def Record.sent : Record → Option (UartEvent × Byte)
  | .uart event _ _ data .. => some (event, data)
  | _ => none

/-- Mode 3 with an overflow in every cycle of IDLE, and a byte written while another one is sent. -/
def sending : List (Action (List Record)) :=
  [.call (.sfrWrite 0x98#8 0xC0#8), .call (.sfrWrite 0x87#8 0x81#8),
    .call (.sfrWrite 0x89#8 0x20#8), .call (.sfrWrite 0x8D#8 0xFF#8),
    .call (.sfrWrite 0x8B#8 0xFF#8), .call (.sfrWrite 0x88#8 0x40#8),
    .call (.sfrWrite 0x99#8 0x55#8)] ++ List.replicate 100 .tick ++
    .call (.sfrWrite 0x99#8 0x33#8) :: List.replicate 92 .tick

end Frames

end Emu80535
