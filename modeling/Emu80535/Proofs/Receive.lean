import Emu80535.Proofs.Events

/-! Receive frames: which overflow decides a frame, which one ends it, and what it may change. -/

namespace Emu80535

variable {ω : Type} {hooks : Hooks ω} {m n : Machine ω}

open Machine

/-! ### One overflow of the receiver -/

/-- Timer 1 overflows per bit: the rate SMOD selects. -/
def bitClocks (smod : Bool) : Nat := if smod then 16 else 32

/-- What a reader of the serial port sees of it stays as it is. -/
structure Unread (before after : Cpu) : Prop where
  data : after.uart.rxData = before.uart.rxData
  mirror : after.sfr Reg.sbuf = before.sfr Reg.sbuf
  rb8 : has (after.sfr Reg.scon) Scon.rb8 = has (before.sfr Reg.scon) Scon.rb8
  ri : has (after.sfr Reg.scon) Scon.ri = has (before.sfr Reg.scon) Scon.ri

/-- An accepted frame is there to be read. -/
structure Received (frame : Byte) (ninth : Bool) (after : Cpu) : Prop where
  data : after.uart.rxData = frame
  mirror : after.sfr Reg.sbuf = frame
  rb8 : has (after.sfr Reg.scon) Scon.rb8 = ninth
  ri : has (after.sfr Reg.scon) Scon.ri = true

/-- A frame is accepted when RI is clear and SM2 lets its ninth bit pass. -/
def Cpu.takes (c : Cpu) (ninth : Bool) : Bool :=
  !has (c.sfr Reg.scon) Scon.ri && (!has (c.sfr Reg.scon) Scon.sm2 || ninth)

/-- The receiver is in a frame, some overflows after it was injected. -/
structure UartState.Receives (u : UartState) (frame : Byte) (ninth smod : Bool) (clocks : Nat) :
    Prop where
  active : u.rxActive = true
  data : u.rxPendingData = frame
  rb8 : u.rxPendingNinth = ninth
  phase : u.rxDividerPhase.toNat = clocks % 32
  bit : u.rxBitIndex = clocks / bitClocks smod

/-- What stays unread over two steps stays unread over both. -/
theorem Unread.trans {a b c : Cpu} (first : Unread a b) (second : Unread b c) : Unread a c where
  data := second.data.trans first.data
  mirror := second.mirror.trans first.mirror
  rb8 := second.rb8.trans first.rb8
  ri := second.ri.trans first.ri

/-- A transmit boundary stores at most TI. -/
theorem Cpu.clockTx_sfr (c : Cpu) (smod : Bool) : (c.clockTx smod).sfr = c.sfr ∨
    (c.clockTx smod).sfr = Function.update c.sfr Reg.scon (c.sfr Reg.scon ||| Scon.ti) := by
  -- Only the boundary of the stop bit stores, and only TI.
  have boundary : ∀ k : Cpu, k.sfr = c.sfr → k.txBoundary.sfr = c.sfr ∨
      k.txBoundary.sfr = Function.update c.sfr Reg.scon (c.sfr Reg.scon ||| Scon.ti) := by
    intro k same
    rw [← same]
    cases stops : k.uart.stopping with
    | true =>
      right
      simp only [Cpu.txBoundary, stops, if_true]
      rfl
    | false =>
      left
      simp only [Cpu.txBoundary, stops, Bool.false_eq_true, if_false]
      rfl
  rw [Cpu.clockTx]
  split
  · exact boundary _ rfl
  · exact Or.inl rfl

/-- The transmitter shares SCON with the receiver but raises TI only. -/
theorem Cpu.clockTx_unread (c : Cpu) (smod : Bool) : Unread c (c.clockTx smod) ∧
    ∀ ninth, (c.clockTx smod).takes ninth = c.takes ninth := by
  have apart : Reg.sbuf ≠ Reg.scon := by decide
  -- The receiver's flags are other bits of SCON.
  have flags : ∀ mask, Scon.ti &&& mask = 0#8 →
      has ((c.clockTx smod).sfr Reg.scon) mask = has (c.sfr Reg.scon) mask := by
    intro mask other
    rcases c.clockTx_sfr smod with same | same
    · rw [same]
    · rw [same, Function.update_self]
      exact has_or_of_disjoint other
  have data := congrArg Receiver.rxData (c.clockTx_receiver smod)
  -- The received byte lies in another register.
  have mirror : (c.clockTx smod).sfr Reg.sbuf = c.sfr Reg.sbuf := by
    rcases c.clockTx_sfr smod with same | same
    · rw [same]
    · rw [same, Function.update_of_ne apart]
  refine ⟨⟨data, mirror, flags _ (by decide), flags _ (by decide)⟩, fun ninth => ?_⟩
  simp only [Cpu.takes, flags Scon.ri (by decide), flags Scon.sm2 (by decide)]

/-- The divider counts overflows modulo 32. -/
theorem dividerNext_toNat (phase : Byte) : (dividerNext phase).toNat = (phase.toNat + 1) % 32 := by
  revert phase
  decide

/-- A boundary is reached whenever a whole bit has been clocked. -/
theorem dividerFires_iff {phase : Byte} {clocks : Nat} (smod : Bool)
    (same : phase.toNat = clocks % 32) :
    dividerFires phase smod = true ↔ clocks % bitClocks smod = 0 := by
  -- The phase counts the clocks, so the boundaries are its whole bits.
  have zero : phase = 0#8 ↔ clocks % 32 = 0 := by
    rw [← same, ← BitVec.toNat_inj]
    rfl
  have half : phase = 16#8 ↔ clocks % 32 = 16 := by
    rw [← same, ← BitVec.toNat_inj]
    rfl
  -- With SMOD the half of the divider is a boundary, too.
  cases smod with
  | false => simp [dividerFires, bitClocks, zero]
  | true =>
    simp only [dividerFires, bitClocks, Bool.true_and, Bool.or_eq_true, beq_iff_eq, zero, half,
      if_true]
    omega

/-- What becomes of a frame with one more overflow of the serial clock. -/
structure RxClock (frame : Byte) (ninth smod : Bool) (clocks : Nat) (before after : Cpu) : Prop where
  goes : clocks < 11 * bitClocks smod → after.uart.Receives frame ninth smod clocks
  ends : clocks = 11 * bitClocks smod → after.uart.rxActive = false
  accepts : clocks = 10 * bitClocks smod → before.takes ninth = true → Received frame ninth after
  rejects : clocks = 10 * bitClocks smod → before.takes ninth = false → Unread before after
  others : clocks ≠ 10 * bitClocks smod → Unread before after

/-- Accepting a frame makes it readable. -/
theorem Cpu.received_received (c : Cpu) :
    Received c.uart.rxPendingData c.uart.rxPendingNinth c.received := by
  -- SBUF and SCON are two registers.
  have apart : Reg.sbuf ≠ Reg.scon := by decide
  have scon : c.received.sfr Reg.scon = c.receivedScon := by
    simp only [Cpu.received, Cpu.withUart, Cpu.store, Function.update_self]
  refine ⟨rfl, ?_, ?_, ?_⟩
  · simp only [Cpu.received, Cpu.withUart, Cpu.store, Function.update_of_ne apart,
      Function.update_self]
  · rw [scon]
    simp only [Cpu.receivedScon]
    rw [has_or_of_disjoint (by decide)]
    -- RB8 takes the ninth bit, and RI is set behind it.
    cases c.uart.rxPendingNinth with
    | true => exact has_or_self (by decide)
    | false => exact has_andNot_self
  · rw [scon]
    exact has_or_self (by decide)

/-- The CPU at a receive boundary, with the bit counted. -/
def Cpu.rxCounted (c : Cpu) : Cpu :=
  c.withUart { c.uart with rxBitIndex := c.uart.rxBitIndex + 1 }

/-- What a receive boundary of a frame comes to. -/
theorem Cpu.rxBoundary_cases (c : Cpu) :
    c.rxBoundary =
      if c.uart.rxBitIndex = 9 then
        if c.takes c.uart.rxPendingNinth then c.rxCounted.received else c.rxCounted
      else if c.uart.rxBitIndex = 10 then
        c.rxCounted.withUart { c.rxCounted.uart with rxActive := false }
      else c.rxCounted := by
  -- The source counts the bit before it looks at it.
  have takes : c.rxCounted.uartRxAccepts = c.takes c.uart.rxPendingNinth := rfl
  have bit : c.rxCounted.uart.rxBitIndex = c.uart.rxBitIndex + 1 := rfl
  have same : c.rxBoundary =
      if c.rxCounted.uart.rxBitIndex = 10 then
        if c.rxCounted.uartRxAccepts then c.rxCounted.received else c.rxCounted
      else if c.rxCounted.uart.rxBitIndex = 11 then
        c.rxCounted.withUart { c.rxCounted.uart with rxActive := false }
      else c.rxCounted := rfl
  rw [same, takes, bit]
  simp only [Nat.reduceEqDiff]

/-- A change of the serial port's private state reads nothing. -/
theorem Cpu.withUart_unread (c : Cpu) (u : UartState) (same : u.rxData = c.uart.rxData) :
    Unread c (c.withUart u) := ⟨same, rfl, rfl, rfl⟩

/-- One more overflow of the serial clock in a frame. -/
theorem Cpu.clockRx_clock {c : Cpu} {frame : Byte} {ninth smod : Bool} {clocks : Nat}
    (receives : c.uart.Receives frame ninth smod clocks) (early : clocks < 11 * bitClocks smod) :
    RxClock frame ninth smod (clocks + 1) c (c.clockRx smod) := by
  -- The divider has moved when the boundary is looked at.
  let moved := c.withUart { c.uart with rxDividerPhase := dividerNext c.uart.rxDividerPhase }
  have phase : moved.uart.rxDividerPhase.toNat = (clocks + 1) % 32 := by
    have step : moved.uart.rxDividerPhase.toNat = (c.uart.rxDividerPhase.toNat + 1) % 32 :=
      dividerNext_toNat _
    rw [step, receives.phase]
    omega
  have fires := dividerFires_iff smod phase
  have same : c.clockRx smod =
      if dividerFires moved.uart.rxDividerPhase smod then moved.rxBoundary else moved :=
    if_pos receives.active
  have still : Unread c moved := c.withUart_unread _ rfl
  have bit : moved.uart.rxBitIndex = clocks / bitClocks smod := receives.bit
  have rate : bitClocks smod = 16 ∨ bitClocks smod = 32 := by cases smod <;> simp [bitClocks]
  rw [same]
  by_cases boundary : (clocks + 1) % bitClocks smod = 0
  · rw [if_pos (fires.mpr boundary), Cpu.rxBoundary_cases, bit]
    have counted : Unread c moved.rxCounted := still.trans (moved.withUart_unread _ rfl)
    have rxBit : moved.rxCounted.uart.rxBitIndex = (clocks + 1) / bitClocks smod := by
      have next : moved.rxCounted.uart.rxBitIndex = moved.uart.rxBitIndex + 1 := rfl
      rw [next, bit]
      rcases rate with rate | rate <;> rw [rate] at boundary ⊢ <;> omega
    have goes : moved.rxCounted.uart.Receives frame ninth smod (clocks + 1) :=
      ⟨receives.active, receives.data, receives.rb8, phase, rxBit⟩
    by_cases decides : clocks + 1 = 10 * bitClocks smod
    · have nine : clocks / bitClocks smod = 9 := by
        rcases rate with rate | rate <;> rw [rate] at decides ⊢ <;> omega
      have takes : moved.takes moved.uart.rxPendingNinth = c.takes ninth := by
        have pending : moved.uart.rxPendingNinth = ninth := receives.rb8
        rw [pending]
        rfl
      rw [if_pos nine, takes]
      refine ⟨fun _ => ?_, fun last => ?_, fun _ accepted => ?_, fun _ refused => ?_,
        fun other => absurd decides other⟩
      · split
        · exact ⟨receives.active, receives.data, receives.rb8, phase, rxBit⟩
        · exact goes
      · rcases rate with rate | rate <;> rw [rate] at decides last <;> omega
      · rw [if_pos accepted]
        have got := moved.rxCounted.received_received
        have data : moved.rxCounted.uart.rxPendingData = frame := receives.data
        have pending : moved.rxCounted.uart.rxPendingNinth = ninth := receives.rb8
        rwa [data, pending] at got
      · rw [if_neg (by rw [refused]; exact Bool.false_ne_true)]
        exact counted
    · have other : clocks / bitClocks smod ≠ 9 := by
        rcases rate with rate | rate <;> rw [rate] at decides boundary ⊢ <;> omega
      rw [if_neg other]
      refine ⟨fun before => ?_, fun last => ?_, fun here => absurd here decides,
        fun here => absurd here decides, fun _ => ?_⟩
      · have unended : clocks / bitClocks smod ≠ 10 := by
          rcases rate with rate | rate <;> rw [rate] at before boundary ⊢ <;> omega
        rw [if_neg unended]
        exact goes
      · have ten : clocks / bitClocks smod = 10 := by
          rcases rate with rate | rate <;> rw [rate] at last ⊢ <;> omega
        rw [if_pos ten]
        rfl
      · split
        · exact counted.trans (Cpu.withUart_unread _ _ rfl)
        · exact counted
  · have waits : dividerFires moved.uart.rxDividerPhase smod ≠ true := fun fired =>
      boundary (fires.mp fired)
    rw [if_neg waits]
    refine ⟨fun _ => ⟨receives.active, receives.data, receives.rb8, phase, ?_⟩, fun last => ?_,
      fun here => ?_, fun here => ?_, fun _ => still⟩
    · rw [bit]
      rcases rate with rate | rate <;> rw [rate] at boundary ⊢ <;> omega
    all_goals
      rcases rate with rate | rate <;> rw [rate] at boundary early <;> omega

/-! ### A frame in a run -/

/-- Counts the overflows a frame has been clocked by, and says what each of them may do to it. -/
def rxMonitor (frame : Byte) (ninth smod : Bool) : Monitor Nat DeviceEvent where
  next clocks
    | .overflow before _ => if before.uartMode3 then clocks + 1 else clocks
    | _ => clocks
  permits clocks
    | .overflow before after => clocks < 11 * bitClocks smod →
        if before.uartMode3 then RxClock frame ninth smod (clocks + 1) before after
        else after = before
    | _ => True

/-- SMOD is as given whenever an overflow clocks the serial port. -/
def SteadyRate (smod : Bool) : DeviceEvent → Prop
  | .overflow before _ => before.uartMode3 = true → before.smod = smod
  | _ => True

/-- An overflow in mode 3 clocks a frame once. -/
theorem Cpu.serialClock_clock {c : Cpu} {frame : Byte} {ninth smod : Bool} {clocks : Nat}
    (mode : c.uartMode3 = true) (rate : c.smod = smod)
    (receives : c.uart.Receives frame ninth smod clocks) (early : clocks < 11 * bitClocks smod) :
    RxClock frame ninth smod (clocks + 1) c c.serialClock := by
  have half := c.clockTx_receiver smod
  obtain ⟨unread, takes⟩ := c.clockTx_unread smod
  -- The transmitter goes first, and leaves the receiver as it is.
  have there : (c.clockTx smod).uart.Receives frame ninth smod clocks := by
    refine ⟨(congrArg Receiver.rxActive half).trans receives.active,
      (congrArg Receiver.rxPendingData half).trans receives.data,
      (congrArg Receiver.rxPendingNinth half).trans receives.rb8, ?_,
      (congrArg Receiver.rxBitIndex half).trans receives.bit⟩
    have phase : (c.clockTx smod).uart.rxDividerPhase = c.uart.rxDividerPhase :=
      congrArg Receiver.rxDividerPhase half
    rw [phase]
    exact receives.phase
  -- The receiver's own clock does the rest, bit by bit.
  have clock := Cpu.clockRx_clock there early
  rw [Cpu.serialClock, if_pos mode, rate]
  exact ⟨clock.goes, clock.ends, fun decides took => clock.accepts decides ((takes ninth).trans took),
    fun decides refused => unread.trans (clock.rejects decides ((takes ninth).trans refused)),
    fun other => unread.trans (clock.others other)⟩

/-- A frame that is being received is followed until it has ended. -/
theorem rxMonitor_follows (frame : Byte) (ninth smod : Bool) :
    FollowsSerial hooks (rxMonitor frame ninth smod) (SteadyRate smod) fun clocks u =>
      clocks < 11 * bitClocks smod → u.Receives frame ninth smod clocks where
  apart := by
    intro clocks e other
    cases e <;> first | exact ⟨trivial, rfl⟩ | exact absurd other.symm Bool.false_ne_true
  hold := by
    intro clocks data tb8 u receives
    refine ⟨trivial, fun early => ?_⟩
    have still := receives early
    exact ⟨still.active, still.data, still.rb8, still.phase, still.bit⟩
  inject := by
    intro clocks data rb8 m receives early
    -- A frame in progress refuses another one.
    have refused : injectRxFrame hooks data rb8 m = (false, m) := by
      simp [injectRxFrame, (receives early).active]
    rw [refused]
    exact receives early
  overflow := by
    intro clocks c sab steady receives
    simp only [rxMonitor]
    cases mode : c.uartMode3 with
    | true =>
      simp only [if_true]
      refine ⟨fun early => c.serialClock_clock mode (steady mode) (receives early) early,
        fun early => ?_⟩
      exact (c.serialClock_clock mode (steady mode) (receives (by omega)) (by omega)).goes early
    | false =>
      have same : c.serialClock = c := by
        simp only [Cpu.serialClock, mode, Bool.false_eq_true, if_false]
      simp only [Bool.false_eq_true, if_false]
      refine ⟨fun _ => same, ?_⟩
      rw [same]
      exact receives

/-- An accepted injection starts a frame. -/
theorem injectRxFrame_receives {data : Byte} {ninth : Bool} (smod : Bool)
    (accepted : (injectRxFrame hooks data ninth m).1 = true) :
    m.cpu.variant = .sab80535 ∧
      (injectRxFrame hooks data ninth m).2.cpu.variant = .sab80535 ∧
      (injectRxFrame hooks data ninth m).2.cpu.uart.Receives data ninth smod 0 := by
  simp only [injectRxFrame] at accepted ⊢
  -- The frame was accepted in mode 3, which only one variant has.
  split at accepted
  · rename_i free
    have mode : m.cpu.uartMode3 = true := by
      simp only [Bool.and_eq_true] at free
      exact free.1.1
    have sab : m.cpu.variant = .sab80535 := by
      simp only [Cpu.uartMode3, Bool.and_eq_true, decide_eq_true_eq] at mode
      exact mode.1.1
    rw [if_pos free]
    simp only [emitUart_cpu, raw_cpu]
    -- The fresh receiver has clocked nothing.
    exact ⟨sab, sab, rfl, rfl, rfl, rfl, (Nat.zero_div _).symm⟩
  · exact absurd accepted Bool.false_ne_true

/-! ### Unread bytes and the mirror -/

/-- While RI is set an overflow leaves the received byte alone. -/
theorem Cpu.serialClock_unread {c : Cpu} (unread : has (c.sfr Reg.scon) Scon.ri = true) :
    Unread c c.serialClock := by
  -- With RI set every frame is turned away.
  have boundary : ∀ k : Cpu, has (k.sfr Reg.scon) Scon.ri = true → Unread k k.rxBoundary := by
    intro k ri
    have refuses : k.takes k.uart.rxPendingNinth = false := by simp [Cpu.takes, ri]
    have counted : Unread k k.rxCounted := k.withUart_unread _ rfl
    rw [Cpu.rxBoundary_cases, refuses]
    split
    · exact counted
    · split
      · exact counted.trans (Cpu.withUart_unread _ _ rfl)
      · exact counted
  rw [Cpu.serialClock]
  split
  · -- The transmitter may raise TI before the receiver is clocked.
    have sent := (c.clockTx_unread c.smod).1
    refine sent.trans ?_
    have ri : has ((c.clockTx c.smod).sfr Reg.scon) Scon.ri = true := sent.ri.trans unread
    generalize c.clockTx c.smod = k at ri
    simp only [Cpu.clockRx]
    split
    · split
      · exact (k.withUart_unread { k.uart with rxDividerPhase := dividerNext k.uart.rxDividerPhase }
          rfl).trans (boundary _ ri)
      · exact k.withUart_unread _ rfl
    · exact ⟨rfl, rfl, rfl, rfl⟩
  · exact ⟨rfl, rfl, rfl, rfl⟩

/-- SBUF shows the received byte. -/
def Cpu.Mirrors (c : Cpu) : Prop := c.sfr Reg.sbuf = c.uart.rxData

/-- A mirror in step stays in step while nothing is read. -/
theorem Unread.mirrors {a b : Cpu} (unread : Unread a b) (mirrors : a.Mirrors) : b.Mirrors :=
  unread.mirror.trans (mirrors.trans unread.data.symm)

/-- An overflow keeps the mirror. -/
theorem Cpu.serialClock_mirrors {c : Cpu} (mirrors : c.Mirrors) : c.serialClock.Mirrors := by
  -- A boundary stores both copies of an accepted byte, or neither.
  have boundary : ∀ k : Cpu, k.Mirrors → k.rxBoundary.Mirrors := by
    intro k before
    have counted : k.rxCounted.Mirrors := (k.withUart_unread _ rfl).mirrors before
    rw [Cpu.rxBoundary_cases]
    split
    · split
      · have got := k.rxCounted.received_received
        exact got.mirror.trans got.data.symm
      · exact counted
    · split
      · exact (Cpu.withUart_unread _ _ rfl).mirrors counted
      · exact counted
  rw [Cpu.serialClock]
  split
  · -- The transmitter touches neither of them.
    have sent : (c.clockTx c.smod).Mirrors := (c.clockTx_unread c.smod).1.mirrors mirrors
    generalize c.clockTx c.smod = k at sent
    simp only [Cpu.clockRx]
    split
    · have moved : (k.withUart
          { k.uart with rxDividerPhase := dividerNext k.uart.rxDividerPhase }).Mirrors := sent
      split
      · exact boundary _ moved
      · exact moved
    · exact sent
  · exact mirrors

/-- A course keeps the mirror, whatever firmware and callbacks write. -/
theorem Course.mirrors {journal : Option (Journal hooks)} {log : List DeviceEvent}
    (course : Course journal log m n) (sab : m.cpu.variant = .sab80535) :
    m.cpu.Mirrors → n.cpu.Mirrors := by
  -- Inside a write of SBUF the mirror shows the byte written, so nothing is claimed of it there.
  induction course with
  | refl m => exact id
  | @beside log m n k _ rest ih =>
    intro before
    have data : k.cpu.uart = n.cpu.uart := congrArg Devices.uart rest.devices
    have mirror : k.cpu.sfr Reg.sbuf = n.cpu.sfr Reg.sbuf := congrArg Devices.sbuf rest.devices
    rw [Cpu.Mirrors, data, mirror]
    exact ih sab before
  | overflow _ kept ih =>
    intro before
    rw [uartTimer1Overflow_cpu kept]
    exact Cpu.serialClock_mirrors (ih sab before)
  | @turn log m n _ ih =>
    intro before
    have change := Within.adcTicks (none : Option (Journal hooks)) n
    show (adcTick hooks n).cpu.Mirrors
    rw [Cpu.Mirrors, change.uart rfl, change.sfr _ (by decide)]
    exact ih sab before
  | @inject log m n data ninth _ ih =>
    intro before
    have still : (injectRxFrame hooks data ninth n).2.cpu.sfr = n.cpu.sfr ∧
        (injectRxFrame hooks data ninth n).2.cpu.uart.rxData = n.cpu.uart.rxData := by
      simp only [injectRxFrame]
      split
      · simp only [emitUart_cpu, raw_cpu]
        exact ⟨rfl, rfl⟩
      · exact ⟨rfl, rfl⟩
    rw [Cpu.Mirrors, still.1, still.2]
    exact ih sab before
  | input channel input _ ih =>
    intro before
    simp only [adcSetInput]
    split
    · exact ih sab before
    · exact ih sab before
  | @write log inner m n c k index value earlier _ closing ih ihInner =>
    intro before
    have here : n.cpu.variant = .sab80535 := earlier.variant.trans sab
    have opening := @writeOpened_cpu ω hooks n here index value
    have mirror := congrArg Devices.sbuf closing.devices
    have data := congrArg Devices.uart closing.devices
    have finished : ∀ d : Devices, d.finished.sbuf = d.sbuf := by
      intro d
      simp only [Devices.finished]
      split <;> rfl
    simp only [writeClosed, adcFinishSfrTransaction_devices, finished] at mirror
    rw [writeClosed_uart] at data
    have same : k.cpu.uart.rxData = c.cpu.uart.rxData := congrArg UartState.rxData data
    by_cases serial : index = Reg.sbuf
    · -- The mirror goes back to the received byte after the callback.
      have restored : k.cpu.sfr Reg.sbuf = c.cpu.uart.rxData := by
        refine Eq.trans mirror ?_
        simp only [here, serial, and_self, decide_true, if_true, Cpu.devices, setSfr_sfr,
          Function.update_self]
      exact restored.trans same.symm
    · have plain : decide (n.cpu.variant = .sab80535 ∧ index = Reg.sbuf) = false := by
        simp [serial]
      rw [plain] at mirror
      have opened : (writeOpened hooks index value n).cpu.Mirrors := by
        rw [opening]
        have kept : (n.cpu.opened index value).sfr Reg.sbuf = n.cpu.sfr Reg.sbuf := by
          simp [Cpu.opened, Cpu.store, Function.update_of_ne (Ne.symm serial)]
        have uart : (n.cpu.opened index value).uart = n.cpu.uart := by
          simp [Cpu.opened, serial]
        rw [Cpu.Mirrors, kept, uart]
        exact ih sab before
      have sabs : (writeOpened hooks index value n).cpu.variant = .sab80535 := by
        rw [opening]
        exact here
      exact Eq.trans mirror ((ihInner sabs opened).trans same.symm)

/-- A reset draws both alike. -/
theorem Machine.IsReset.mirrors (fresh : m.IsReset) : m.cpu.Mirrors := by
  obtain ⟨c, wipe, rand, image, entry, -, same⟩ := fresh
  have drawn : ∀ c : Cpu, (c.reset wipe rand).Mirrors := by
    intro c
    simp only [Cpu.Mirrors, Cpu.reset, Function.update_self]
    rfl
  rw [same]
  exact drawn c

/--
The life of a received frame.

From an accepted injection on, at a constant rate, the frame is decided by the overflow that
completes its tenth bit and ended by the one that completes its eleventh, and another injection is
refused until then. An unread byte is never overwritten, and SBUF shows the received byte in every
supervised state that is not aborted.
-/
theorem receive_frames (sticky : hooks.Sticky) (orderly : hooks.Orderly none) :
    (∀ (m : Machine ω) (data : Byte) (ninth smod : Bool),
        (injectRxFrame hooks data ninth m).1 = true →
        (∀ actions : List (Action ω), (∀ action ∈ actions, action.Plain hooks none) →
          (runActions hooks actions (injectRxFrame hooks data ninth m).2).aborted hooks = false →
          ∃ log, Course (none : Option (Journal hooks)) log
            (injectRxFrame hooks data ninth m).2
            (runActions hooks actions (injectRxFrame hooks data ninth m).2)) ∧
        ∀ log n, Course (none : Option (Journal hooks)) log
            (injectRxFrame hooks data ninth m).2 n →
          (∀ e ∈ log, SteadyRate smod e) →
          (rxMonitor data ninth smod).Accepts 0 log ∧
            ((rxMonitor data ninth smod).after 0 log < 11 * bitClocks smod →
              ∀ other rb8, (injectRxFrame hooks other rb8 n).1 = false)) ∧
      (∀ m : Machine ω, (uartTimer1Overflow hooks m).aborted hooks = false →
        has (m.cpu.sfr Reg.scon) Scon.ri = true →
          Unread m.cpu (uartTimer1Overflow hooks m).cpu) ∧
      ∀ m, Supervised hooks m → m.aborted hooks = false → m.cpu.variant = .sab80535 →
        m.cpu.Mirrors := by
  -- The three laws: of a frame, of a refused one, and of the mirror.
  refine ⟨fun m data ninth smod accepted => ?_, fun m kept unread => ?_,
    fun m supervised kept sab => ?_⟩
  · obtain ⟨-, sab, receives⟩ := injectRxFrame_receives smod accepted
    refine ⟨fun actions plain kept => (runActions_plays sticky orderly actions plain _).course kept,
      -- The monitor follows the frame over the course, as long as its rate stays.
      fun log n course steady => ?_⟩
    obtain ⟨accepts, after⟩ := (rxMonitor_follows data ninth smod).course course sab 0 steady
      fun _ => receives
    -- While the frame lasts the receiver is busy, so no other one is accepted.
    refine ⟨accepts, fun early other rb8 => ?_⟩
    simp [injectRxFrame, (after early).active]
  · rw [uartTimer1Overflow_cpu kept]
    exact Cpu.serialClock_unread unread
  · exact supervised.of_courses sticky orderly (fun m fresh => fresh.mirrors)
      -- The mirror is kept by every course between resets.
      (fun m n log course sab before => course.mirrors sab before) kept sab

/-- An embedder whose SBUF callback runs twenty machine cycles. -/
def progressing : Hooks Unit :=
  Hooks.none.withWrites (runsAt Hooks.none Reg.sbuf (List.replicate 20 .tick))

/-- A CPU that receives in mode 3, with an overflow of Timer 1 in every machine cycle. -/
def listening : Machine Unit :=
  runActions progressing
    [.call (.sfrWrite 0x98#8 0xD0#8), .call (.sfrWrite 0x87#8 0x80#8),
      .call (.sfrWrite 0x89#8 0x20#8), .call (.sfrWrite 0x8D#8 0xFF#8),
      .call (.sfrWrite 0x8B#8 0xFF#8), .call (.sfrWrite 0x88#8 0x40#8)]
    (Machine.boot fun _ => 0#8)

/-- The same CPU once a frame has been injected and firmware has written SBUF. -/
def answering : Machine Unit :=
  runActions progressing [.call (.sfrWrite 0x99#8 0x33#8)]
    (injectRxFrame progressing 0x55#8 true listening).2

set_option maxRecDepth 20000 in
/-- The first bit of the frame passes inside the write, which leaves the mirror in step. -/
theorem receive_frames_listening :
    (injectRxFrame progressing 0x55#8 true listening).1 = true ∧
      (∀ other rb8, (injectRxFrame progressing other rb8
        (injectRxFrame progressing 0x55#8 true listening).2).1 = false) ∧
      (∃ log, Course (none : Option (Journal progressing)) log
        (injectRxFrame progressing 0x55#8 true listening).2 answering) ∧
      answering.cpu.uart.rxBitIndex = 1 ∧ answering.cpu.Mirrors := by
  -- The callback that runs cycles nests in one that does nothing.
  have silent : Hooks.none.Orderly none := Hooks.orderly_of_silent (fun _ => rfl) none
  have sticky : progressing.Sticky :=
    Hooks.sticky_of_nests Hooks.none_sticky silent (nests_runsAt rfl)
  have orderly : progressing.Orderly none :=
    Hooks.orderly_of_nests Hooks.none_sticky silent (nests_runsAt rfl)
  -- The theorem itself, at the frame of the run.
  obtain ⟨frames, -, mirrors⟩ := receive_frames sticky orderly
  have accepted : (injectRxFrame progressing 0x55#8 true listening).1 = true := by decide
  obtain ⟨courses, laws⟩ := frames listening 0x55#8 true true accepted
  obtain ⟨-, refused⟩ := laws [] _ (.refl _) (fun e none => absurd none List.not_mem_nil)
  have booted : Supervised progressing listening :=
    .run rfl (.reset (Machine.boot_isReset fun _ => 0#8))
  have supervised : Supervised progressing answering :=
    .run rfl (.call (.injectRxFrame 0x55#8 true) booted)
  exact ⟨accepted, refused (Nat.zero_lt_succ _), courses _ (Action.plain_of_all rfl) rfl,
    by decide, mirrors answering supervised rfl (by decide)⟩

end Emu80535
