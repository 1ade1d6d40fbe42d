import Mathlib.Logic.Relation
import Emu80535.Proofs.Frame

/-! What peripherals do to the CPU object, as sequences of a few kinds of move. -/

namespace Emu80535

variable {ω : Type}

open Machine

/-! ### Moves -/

/-- The registers a peripheral counts or delivers data in. -/
def isCounting (index : SfrIndex) : Bool :=
  [Reg.tl0, Reg.tl1, Reg.th0, Reg.th1, Reg.sbuf, Reg.tl2, Reg.th2, Reg.adcon,
    Reg.addat].contains index

/-- The request flags that timers, the serial port and the converter raise. -/
def isRaised (index : SfrIndex) (mask : Byte) : Bool :=
  [(Reg.tcon, Tcon.tf0), (Reg.tcon, Tcon.tf1), (Reg.scon, Scon.ri), (Reg.scon, Scon.ti),
    (Reg.ircon, Ircon.tf2), (Reg.ircon, Ircon.iadc)].contains (index, mask)

/-- An external input that requests on its level rather than on an edge. -/
def Cpu.levelMode (c : Cpu) (source : ExternalSource) : Bool :=
  source.port == .p3 && !has (c.sfr Reg.tcon) source.edgeModeMask

/-- The CPU after a store to one register. -/
def Cpu.store (c : Cpu) (index : SfrIndex) (value : Byte) : Cpu :=
  { c with sfr := Function.update c.sfr index value }

/-- The CPU after a store to the byte that remembers level-asserted requests. -/
def Cpu.noteAsserted (c : Cpu) (value : Byte) : Cpu :=
  { c with pins := { c.pins with levelAsserted := value } }

/-- Everything a peripheral does to the CPU object, one change at a time. -/
inductive Move : Cpu → Cpu → Prop
  | uart (c : Cpu) (uart : UartState) : Move c { c with uart := uart }
  | adc (c : Cpu) (adc : AdcState) : Move c { c with adc := adc }
  | overflow (c : Cpu) (count : TimerId → Nat) : Move c { c with timerOverflowCount := count }
  | caches (c : Cpu) (pending enabled : Word) :
      Move c { c with irqPending := pending, irqEnabled := enabled }
  | count (c : Cpu) {index : SfrIndex} (value : Byte) (counting : isCounting index = true) :
      Move c (c.store index value)
  | raise (c : Cpu) {index : SfrIndex} {mask : Byte} (known : isRaised index mask = true) :
      Move c (c.store index (c.sfr index ||| mask))
  /-- The received ninth bit. -/
  | ninth (c : Cpu) (value : Byte)
      (same : value &&& ~~~Scon.rb8 = c.sfr Reg.scon &&& ~~~Scon.rb8) :
      Move c (c.store Reg.scon value)
  /-- The serial shortcut of the classic variants. -/
  | shortcut (c : Cpu) (sfr : SfrIndex → Byte) (classic : ClassicState)
      (other : c.variant ≠ .sab80535)
      (kept : ∀ i, isVolatile c.variant i = false → sfr i = c.sfr i) :
      Move c { c with sfr := sfr, classic := classic }
  /-- A low pin in level mode requests, and is remembered to have done so. -/
  | assert (c : Cpu) (source : ExternalSource) (level : c.levelMode source = true)
      (low : c.pinLevel source = false) :
      Move c ((c.store Reg.tcon (c.sfr Reg.tcon ||| source.irqSource.requestMask)).noteAsserted
        (c.pins.levelAsserted ||| source.sampleBit))
  /-- A high pin in level mode withdraws a request its level had made. -/
  | withdraw (c : Cpu) (source : ExternalSource) (level : c.levelMode source = true)
      (high : c.pinLevel source = true)
      (asserted : has c.pins.levelAsserted source.sampleBit = true) :
      Move c ((c.store Reg.tcon (c.sfr Reg.tcon &&& ~~~source.irqSource.requestMask)).noteAsserted
        (c.pins.levelAsserted &&& ~~~source.sampleBit))
  /-- In edge mode nothing is remembered. -/
  | relax (c : Cpu) (source : ExternalSource) (edge : c.levelMode source = false) :
      Move c (c.noteAsserted (c.pins.levelAsserted &&& ~~~source.sampleBit))

/-- Sequences of moves. -/
def Moves (a b : Cpu) : Prop := Relation.ReflTransGen Move a b

/-- A store outside the port latches does not move a pin. -/
theorem Cpu.store_pinLevel (c : Cpu) {index : SfrIndex} (value : Byte) (source : ExternalSource)
    (other : source.port.reg ≠ index) :
    (c.store index value).pinLevel source = c.pinLevel source := by
  simp only [Cpu.pinLevel, Cpu.getPins, Cpu.store, Function.update_of_ne other]

/-- TCON holds no latch. -/
theorem ExternalSource.latch_ne_tcon (source : ExternalSource) : source.port.reg ≠ Reg.tcon := by
  cases source <;> decide

/-- Storing a volatile register is invisible in the stable part. -/
theorem Cpu.store_stable (c : Cpu) {index : SfrIndex} (value : Byte)
    (loud : isVolatile c.variant index = true) : (c.store index value).stable = c.stable :=
  setSfr_stable ({ cpu := c, host := () } : Machine Unit) value loud

/-- The request registers are volatile. -/
theorem requestReg_volatile (variant : Variant) (source : IrqSource) :
    isVolatile variant source.requestReg = true := by
  cases source <;> rfl

/-- A counting register is volatile on every variant. -/
theorem isVolatile_of_counting (variant : Variant) {index : SfrIndex}
    (counting : isCounting index = true) : isVolatile variant index = true := by
  simp only [isCounting, List.contains_cons, List.contains_nil, Bool.or_false, Bool.or_eq_true,
    beq_iff_eq] at counting
  rcases counting with rfl | rfl | rfl | rfl | rfl | rfl | rfl | rfl | rfl <;> rfl

/-- The raised flags are those of the three request registers. -/
theorem isRaised_cases {index : SfrIndex} {mask : Byte} (known : isRaised index mask = true) :
    index = Reg.tcon ∧ (mask = Tcon.tf0 ∨ mask = Tcon.tf1) ∨
      index = Reg.scon ∧ (mask = Scon.ri ∨ mask = Scon.ti) ∨
      index = Reg.ircon ∧ (mask = Ircon.tf2 ∨ mask = Ircon.iadc) := by
  simp only [isRaised, List.contains_cons, List.contains_nil, Bool.or_false, Bool.or_eq_true,
    beq_iff_eq, Prod.mk.injEq] at known
  rcases known with h | h | h | h | h | h <;> simp [h.1, h.2]

/-- No move shows in the stable part. -/
theorem Move.stable {a b : Cpu} (move : Move a b) : b.stable = a.stable := by
  -- Counters, raised flags and pins are volatile; the shortcut keeps the registers that are not.
  cases move with
  | uart | adc | overflow | caches | relax => rfl
  | count value counting => exact a.store_stable value (isVolatile_of_counting _ counting)
  | raise known =>
    refine a.store_stable _ ?_
    rcases isRaised_cases known with ⟨rfl, -⟩ | ⟨rfl, -⟩ | ⟨rfl, -⟩ <;> rfl
  | ninth value same => exact a.store_stable _ rfl
  | assert | withdraw => exact a.store_stable _ rfl
  | shortcut sfr classic other kept =>
    have same : (fun i => if isVolatile a.variant i then 0#8 else sfr i) =
        fun i => if isVolatile a.variant i then 0#8 else a.sfr i := by
      funext i
      cases known : isVolatile a.variant i with
      | true => rfl
      | false => exact kept i known
    exact congrArg (fun sfr => { a.stable with sfr := sfr }) same

namespace Moves

variable {a b c : Cpu}

/-- Not moving is a sequence of moves. -/
theorem refl (c : Cpu) : Moves c c := Relation.ReflTransGen.refl

/-- One more move. -/
theorem move (moves : Moves a b) (last : Move b c) : Moves a c :=
  Relation.ReflTransGen.tail moves last

/-- No sequence of moves shows in the stable part. -/
theorem stable (moves : Moves a b) : b.stable = a.stable := by
  induction moves with
  | refl => rfl
  | tail _ last ih => exact last.stable.trans ih

/-- What every move keeps, sequences of moves keep. -/
theorem keeps {I : Cpu → Prop} (kept : ∀ a b, Move a b → I a → I b) (moves : Moves a b)
    (before : I a) : I b := by
  induction moves with
  | refl => exact before
  | tail _ last ih => exact kept _ _ last ih

/-! ### One rule for each peripheral function -/

section Rules

variable {hooks : Hooks ω} {n : Machine ω}

/-- A branch of two continuations is one of them. -/
theorem ite {p : Prop} [Decidable p] {x y : Machine ω} (yes : Moves c x.cpu)
    (no : Moves c y.cpu) : Moves c (if p then x else y).cpu := by
  split
  · exact yes
  · exact no

variable (moves : Moves c n.cpu)

include moves

/-- Reporting a raw fact is a sequence of moves. -/
theorem raw (fact : RawFact) : Moves c (n.raw hooks fact).cpu := by
  rw [raw_cpu]
  exact moves

/-- Handing out a record is a sequence of moves. -/
theorem emit (record : Record) : Moves c (n.emit hooks record).cpu := moves

/-- Tracing the serial port is a sequence of moves. -/
theorem emitUart (event : UartEvent) (cycle : Nat) (data : Byte) (ninth : Bool) (bitIndex : Nat)
    (bitValue : Bool) :
    Moves c (n.emitUart hooks event cycle data ninth bitIndex bitValue).cpu := moves

/-- Tracing the converter is a sequence of moves. -/
theorem emitAdc (event : AdcEvent) (cycle : Nat) :
    Moves c (n.emitAdc hooks event cycle).cpu := moves

/-- A change of the serial port's state is a sequence of moves. -/
theorem mapUart (f : UartState → UartState) : Moves c (n.mapUart f).cpu :=
  moves.move (.uart _ _)

/-- A change of the converter's state is a sequence of moves. -/
theorem mapAdc (f : AdcState → AdcState) : Moves c (n.mapAdc f).cpu := moves.move (.adc _ _)

/-- A store of a register is a sequence of moves. -/
theorem setSfr {index : SfrIndex} (value : Byte) (counting : isCounting index = true) :
    Moves c (n.setSfr index value).cpu := moves.move (.count _ value counting)

/-- A store of request flags is a sequence of moves. -/
theorem irqWrite {index : SfrIndex} {mask : Byte} (cycle : Nat)
    (known : isRaised index mask = true) :
    Moves c (n.irqWrite hooks index (n.cpu.sfr index ||| mask) cycle).cpu := by
  rw [irqWrite_cpu]
  exact moves.move (.raise _ known)

/-- Maintaining the request of one level is a sequence of moves. -/
theorem maintainLevelRequest {pins : Byte} {source : ExternalSource}
    (current : pins = n.cpu.getPins .p3) (wired : source.port = .p3) :
    Moves c (maintainLevelRequest hooks pins source n).cpu := by
  have level : n.cpu.pinLevel source = has pins source.pinMask := by
    rw [Cpu.pinLevel, wired, current]
  simp only [Emu80535.maintainLevelRequest]
  split
  · -- In edge mode the note is dropped; in level mode low asserts and high withdraws.
    rename_i edge
    exact moves.move (.relax _ source (by simp [Cpu.levelMode, edge]))
  · rename_i mode
    have levelMode : n.cpu.levelMode source = true := by simp [Cpu.levelMode, wired, mode]
    split
    · rename_i low
      simp only [setLevelAsserted, mapCpu_cpu, irqWrite_cpu]
      exact moves.move (.assert _ source levelMode (level.trans low))
    · rename_i raisedPin
      have high : n.cpu.pinLevel source = true := level.trans (by simpa using raisedPin)
      split
      · rename_i asserted
        exact moves.move (.withdraw _ source levelMode high asserted)
      · exact moves

/-- Maintaining the requests of levels is a sequence of moves. -/
theorem maintainLevelRequests : Moves c (maintainLevelRequests hooks n).cpu := by
  simp only [Emu80535.maintainLevelRequests]
  split
  · rename_i sab
    simp only [List.foldl_cons, List.foldl_nil]
    -- The first input's request does not move the pins the second is compared with.
    have first : Moves n.cpu
        (Emu80535.maintainLevelRequest hooks (n.cpu.getPins .p3) .int0 n).cpu :=
      (refl n.cpu).maintainLevelRequest rfl rfl
    exact (moves.maintainLevelRequest rfl rfl).maintainLevelRequest
      (Stable.getPins_eq first.stable sab .p3).symm rfl
  · exact moves

/-- Synchronising the request caches is a sequence of moves. -/
theorem irqSync : Moves c (irqSync hooks n).cpu :=
  moves.maintainLevelRequests.move (.caches _ _ _)

/-- Starting a transmission is a sequence of moves. -/
theorem uartTxStart (cycle : Nat) : Moves c (uartTxStart hooks cycle n).cpu := by
  simp only [Emu80535.uartTxStart]
  exact ((moves.mapUart _).raw _).emitUart _ _ _ _ _ _

/-- Sending the stop bit is a sequence of moves. -/
theorem uartTxStop (cycle : Nat) : Moves c (uartTxStop hooks cycle n).cpu := by
  simp only [Emu80535.uartTxStop]
  refine emitUart (ite (raw ?_ _) ?_) _ _ _ _ _ _
  all_goals exact ((moves.mapUart _).irqWrite _ rfl).raw _

/-- Ending a transmission is a sequence of moves. -/
theorem uartTxEnd (cycle : Nat) : Moves c (uartTxEnd hooks cycle n).cpu := by
  simp only [Emu80535.uartTxEnd]
  refine ite ?_ (ite (uartTxStart (mapUart ?_ _) cycle) (mapUart ?_ _))
  all_goals exact (moves.raw _).emitUart _ _ _ _ _ _

/-- A bit boundary of the transmitter is a sequence of moves. -/
theorem uartTxBoundary (cycle : Nat) : Moves c (uartTxBoundary hooks cycle n).cpu := by
  simp only [Emu80535.uartTxBoundary]
  refine ite (ite (moves.uartTxStart cycle) moves) (ite ?_ (ite ?_ ?_))
  · exact (moves.mapUart _).emitUart _ _ _ _ _ _
  · exact moves.uartTxStop cycle
  · exact moves.uartTxEnd cycle

/-- Storing the received ninth bit is a move, whichever way it goes. -/
theorem storeNinth (value : Byte)
    (same : value &&& ~~~Scon.rb8 = n.cpu.sfr Reg.scon &&& ~~~Scon.rb8) :
    Moves c (n.setSfr Reg.scon value).cpu := moves.move (.ninth _ value same)

/-- Accepting a frame is a sequence of moves. -/
theorem uartRxAccept (cycle : Nat) : Moves c (uartRxAccept hooks cycle n).cpu := by
  -- The ninth bit is stored into a cleared place, twice where it is set.
  have cleared : ∀ v : Byte, (v &&& ~~~Scon.rb8) &&& ~~~Scon.rb8 = v &&& ~~~Scon.rb8 := by
    intro v
    rw [BitVec.and_assoc, BitVec.and_self]
  have set : ∀ v : Byte, (v ||| Scon.rb8) &&& ~~~Scon.rb8 = v &&& ~~~Scon.rb8 := by
    intro v
    rw [BitVec.and_or_distrib_right]
    simp
  simp only [Emu80535.uartRxAccept]
  refine emitUart (raw (irqWrite (ite (storeNinth ?_ _ (set _)) ?_) _ rfl) _) _ _ _ _ _ _
  all_goals exact ((moves.mapUart _).setSfr _ rfl).storeNinth _ (cleared _)

/-- A bit boundary of the receiver is a sequence of moves. -/
theorem uartRxBoundary (cycle : Nat) : Moves c (uartRxBoundary hooks cycle n).cpu := by
  simp only [Emu80535.uartRxBoundary, uartRxDrop]
  refine ite (ite (uartRxAccept ?_ cycle) (emitUart (raw ?_ _) _ _ _ _ _ _))
    (ite (emitUart (raw (mapUart ?_ _) _) _ _ _ _ _ _) ?_)
  all_goals exact moves.mapUart _

/-- Clocking the serial port is a sequence of moves. -/
theorem uartTimer1Overflow : Moves c (uartTimer1Overflow hooks n).cpu := by
  simp only [Emu80535.uartTimer1Overflow, uartClockTx, uartClockRx]
  refine ite (ite ?_ (ite (ite (uartRxBoundary (mapUart ?_ _) _) (mapUart ?_ _)) ?_)) moves
  all_goals exact ite ((moves.mapUart _).uartTxBoundary _) (moves.mapUart _)

/-- Holding a byte for transmission is a sequence of moves. -/
theorem uartSbufWrite (value : Byte) : Moves c (uartSbufWrite hooks value n).cpu := by
  simp only [Emu80535.uartSbufWrite]
  exact ite ((moves.mapUart _).raw _) moves

/-- Injecting a frame is a sequence of moves. -/
theorem injectRxFrame (data : Byte) (ninth : Bool) :
    Moves c (injectRxFrame hooks data ninth n).2.cpu := by
  simp only [Emu80535.injectRxFrame]
  split
  · exact ((moves.mapUart _).raw _).emitUart _ _ _ _ _ _
  · exact moves

/-- Setting the converter's busy flag is a sequence of moves. -/
theorem setBusy (busy : Bool) : Moves c (n.setBusy busy).cpu := by
  simp only [Machine.setBusy]
  exact (moves.mapAdc _).setSfr _ rfl

/-- A cycle of the converter is a sequence of moves. -/
theorem adcTick : Moves c (adcTick hooks n).cpu := by
  simp only [Emu80535.adcTick, adcLatch, adcComplete]
  refine ite moves (ite ?_ (ite moves (ite (moves.mapAdc _) ?_)))
  · exact (((moves.mapAdc _).setBusy true).emitAdc _ _).mapAdc _
  · refine emitAdc (irqSync (irqWrite (setBusy (mapAdc (ite (setSfr ?_ _ rfl) ?_) _) _) _ rfl)) _ _
    all_goals exact moves.mapAdc _

/-- Closing a register transaction is a sequence of moves. -/
theorem adcFinishSfrTransaction : Moves c (adcFinishSfrTransaction n).cpu := by
  simp only [Emu80535.adcFinishSfrTransaction]
  refine ite (ite (mapAdc ?_ _) ?_) moves
  all_goals exact (moves.mapAdc _).setBusy _

/-- Opening a register transaction is a sequence of moves. -/
theorem sfrWriteEnter : Moves c (sfrWriteEnter n).cpu := by
  simp only [Emu80535.sfrWriteEnter]
  exact ite (moves.mapAdc _) moves

/-- Reporting an overflow of a timer is a sequence of moves. -/
theorem timerOverflowEmit (timer : TimerId) :
    Moves c (timerOverflowEmit hooks timer n).cpu := by
  have counted : Moves c (n.mapCpu fun c =>
      { c with timerOverflowCount :=
          Function.update c.timerOverflowCount timer (c.timerOverflowCount timer + 1) }).cpu :=
    moves.move (.overflow _ _)
  simp only [Emu80535.timerOverflowEmit]
  refine ite ?_ (emit ?_ _)
  all_goals exact ite counted.uartTimer1Overflow counted

/-- Raising a flag of TCON is a sequence of moves. -/
theorem raiseTcon {mask : Byte} (known : isRaised Reg.tcon mask = true) :
    Moves c (n.raiseTcon hooks mask).cpu := moves.irqWrite _ known

/-- Counting a register up is a sequence of moves. -/
theorem incSfr {index : SfrIndex} (counting : isCounting index = true) :
    Moves c (n.incSfr index).cpu := moves.setSfr _ counting

/-- Counting the low five bits of a register up is a sequence of moves. -/
theorem incSfrLow5 {index : SfrIndex} (counting : isCounting index = true) :
    Moves c (n.incSfrLow5 index).cpu := moves.setSfr _ counting

/-- A cycle of the upper half of a split Timer 0 is a sequence of moves. -/
theorem timer0SplitTick : Moves c (timer0SplitTick hooks n).cpu := by
  simp only [Emu80535.timer0SplitTick]
  refine ite (ite (ite (raiseTcon (incSfr ?_ rfl) rfl) (incSfr ?_ rfl)) ?_) moves
  all_goals exact ite (ite ((moves.incSfr rfl).raiseTcon rfl) (moves.incSfr rfl)) moves

/-- A cycle of Timer 0 is a sequence of moves. -/
theorem timer0Tick : Moves c (timer0Tick hooks n).cpu := by
  simp only [Emu80535.timer0Tick]
  -- One branch for each mode and each wrap, in the order of the source.
  refine ite (ite (ite (ite ?_ ?_) ?_) (ite (ite (ite ?_ ?_) ?_) (ite (ite ?_ ?_) moves))) moves
  · exact ((moves.incSfrLow5 rfl).incSfr rfl).raiseTcon rfl
  · exact (moves.incSfrLow5 rfl).incSfr rfl
  · exact moves.incSfrLow5 rfl
  · exact (((moves.incSfr rfl).incSfr rfl).raiseTcon rfl).timerOverflowEmit _
  · exact (moves.incSfr rfl).incSfr rfl
  · exact moves.incSfr rfl
  · exact ((moves.incSfr rfl).setSfr _ rfl).raiseTcon rfl
  · exact moves.incSfr rfl

/-- Raising the flag of Timer 1 is a sequence of moves. -/
theorem raiseTf1 : Moves c (raiseTf1 hooks n).cpu := by
  simp only [Emu80535.raiseTf1]
  exact ite moves (moves.raiseTcon rfl)

/-- Counting Timer 1 is a sequence of moves. -/
theorem timer1Count : Moves c (timer1Count hooks n).cpu := by
  simp only [Emu80535.timer1Count]
  -- One branch for each mode and each wrap, in the order of the source.
  refine ite (ite (ite ?_ ?_) ?_) (ite (ite (ite ?_ ?_) ?_) (ite (ite (ite ?_ ?_) ?_) moves))
  · exact ((moves.incSfrLow5 rfl).incSfr rfl).raiseTf1
  · exact (moves.incSfrLow5 rfl).incSfr rfl
  · exact moves.incSfrLow5 rfl
  · exact ((moves.incSfr rfl).incSfr rfl).raiseTf1
  · exact (moves.incSfr rfl).incSfr rfl
  · exact moves.incSfr rfl
  · exact (moves.incSfr rfl).setSfr _ rfl
  · exact (((moves.incSfr rfl).setSfr _ rfl).raiseTcon rfl).timerOverflowEmit _
  · exact moves.incSfr rfl

/-- On a classic variant a volatile register may be stored freely. -/
theorem storeClassic (other : n.cpu.variant ≠ .sab80535) {index : SfrIndex} (value : Byte)
    (loud : isVolatile n.cpu.variant index = true) : Moves c (n.setSfr index value).cpu := by
  refine moves.move (.shortcut _ _ n.cpu.classic other fun i quiet => ?_)
  have elsewhere : i ≠ index := by
    rintro rfl
    exact absurd (loud.symm.trans quiet) (by decide)
  exact Function.update_of_ne elsewhere _ _

/-- A change of the classic state is a sequence of moves. -/
theorem mapClassic (other : n.cpu.variant ≠ .sab80535) (f : Cpu → ClassicState) :
    Moves c (n.mapClassic f).cpu :=
  moves.move (.shortcut _ n.cpu.sfr _ other fun _ _ => rfl)

/-- Sending a byte by the classic shortcut is a sequence of moves. -/
theorem serialTx (other : n.cpu.variant ≠ .sab80535) : Moves c (serialTx n).cpu := by
  have latch : isVolatile n.cpu.variant Reg.p3 = true := by simp [isVolatile, other]
  simp only [Emu80535.serialTx, serialSent]
  -- Nothing is sent, the byte goes out, or it is the last one and raises the request.
  split
  · exact moves
  · split
    · refine mapClassic (storeClassic (mapClassic ?_ (by exact other) _) (by exact other) _ ?_)
        (by exact other) _
      · exact storeClassic (mapClassic moves other _) (by exact other) _ latch
      · exact requestReg_volatile _ .uart
    · exact storeClassic (mapClassic moves other _) (by exact other) _ latch

/-- The serial shortcut of the classic variants is a sequence of moves. -/
theorem classicSerial : Moves c (classicSerial n).cpu := by
  simp only [Emu80535.classicSerial]
  split
  · rename_i applies
    have sent := moves.serialTx applies.1
    -- Sending leaves the variant as it is, so the second part is still the shortcut.
    have variant : (Emu80535.serialTx n).cpu.variant = n.cpu.variant :=
      congrArg Fixed.variant (Stable.fixed_eq ((refl n.cpu).serialTx applies.1).stable)
    have other : (Emu80535.serialTx n).cpu.variant ≠ .sab80535 := by
      rw [variant]
      exact applies.1
    exact sent.storeClassic other _ (requestReg_volatile _ .timer1)
  · exact moves

/-- A cycle of Timers 0 and 1 is a sequence of moves. -/
theorem timerTick : Moves c (timerTick hooks n).cpu := by
  simp only [Emu80535.timerTick, timer1Tick]
  refine ite ?_ (ite (classicSerial (timer1Count ?_)) ?_)
  all_goals exact moves.timer0SplitTick.timer0Tick

/-- A cycle of Timer 2 is a sequence of moves. -/
theorem timer2Tick : Moves c (timer2Tick hooks n).cpu := by
  simp only [Emu80535.timer2Tick]
  refine ite (ite (ite ?_ (irqSync ?_)) ?_) moves
  · exact (((moves.setSfr _ rfl).setSfr _ rfl).irqWrite _ rfl).timerOverflowEmit _
  · exact (((moves.setSfr _ rfl).setSfr _ rfl).irqWrite _ rfl).timerOverflowEmit _
  · exact (moves.setSfr _ rfl).setSfr _ rfl

/-- The peripherals of a machine cycle only make moves. -/
theorem advancePeripherals : Moves c (advancePeripherals hooks n).cpu := by
  simp only [Emu80535.advancePeripherals]
  refine ite ?_ (ite (timer2Tick ?_) (adcTick (timer2Tick ?_)))
  all_goals exact (moves.raw _).timerTick

end Rules

end Moves

/-! ### The stable part under peripherals -/

section Peripherals

variable (hooks : Hooks ω) (m : Machine ω)

/-- Maintaining the requests of levels leaves the stable part alone. -/
@[simp] theorem maintainLevelRequests_stable :
    (maintainLevelRequests hooks m).cpu.stable = m.cpu.stable :=
  (Moves.refl m.cpu).maintainLevelRequests.stable

/-- Synchronising the request caches leaves the stable part alone. -/
@[simp] theorem irqSync_stable : (irqSync hooks m).cpu.stable = m.cpu.stable :=
  (Moves.refl m.cpu).irqSync.stable

/-- Holding a byte for transmission leaves the stable part alone. -/
@[simp] theorem uartSbufWrite_stable (value : Byte) :
    (uartSbufWrite hooks value m).cpu.stable = m.cpu.stable :=
  ((Moves.refl m.cpu).uartSbufWrite value).stable

/-- Injecting a frame leaves the stable part alone. -/
@[simp] theorem injectRxFrame_stable (data : Byte) (ninth : Bool) :
    (injectRxFrame hooks data ninth m).2.cpu.stable = m.cpu.stable :=
  ((Moves.refl m.cpu).injectRxFrame data ninth).stable

/-- Requesting a conversion leaves the stable part alone. -/
@[simp] theorem adcRequestStart_stable : (adcRequestStart m).cpu.stable = m.cpu.stable := rfl

/-- Closing a register transaction leaves the stable part alone. -/
@[simp] theorem adcFinishSfrTransaction_stable :
    (adcFinishSfrTransaction m).cpu.stable = m.cpu.stable :=
  (Moves.refl m.cpu).adcFinishSfrTransaction.stable

/-- Opening a register transaction leaves the stable part alone. -/
@[simp] theorem sfrWriteEnter_stable : (sfrWriteEnter m).cpu.stable = m.cpu.stable :=
  (Moves.refl m.cpu).sfrWriteEnter.stable

/-- A cycle of the peripherals leaves the stable part alone. -/
@[simp] theorem advancePeripherals_stable :
    (advancePeripherals hooks m).cpu.stable = m.cpu.stable :=
  (Moves.refl m.cpu).advancePeripherals.stable

/-- Noting what a trigger says of the level leaves the stable part alone. -/
@[simp] theorem noteLevel_stable (source : ExternalSource) (trigger : ExternalTrigger) :
    (noteLevel source trigger m).cpu.stable = m.cpu.stable := by
  simp only [noteLevel]
  -- Nothing is withdrawn, or one flag of an external input is.
  split
  · simp
  · rw [setLevelAsserted_stable]
    split
    · rw [clearFlags_cpu, setSfr_stable _ _ (requestReg_volatile _ _)]
    · rfl
  all_goals rfl

/-- A change at an external input leaves the stable part alone. -/
@[simp] theorem observeChange_stable (source : ExternalSource) (old new : Bool) :
    (observeChange hooks source old new m).cpu.stable = m.cpu.stable := by
  simp only [observeChange, emit_cpu, irqSync_stable]
  split
  · rw [irqWrite_cpu, setSfr_stable _ _ (requestReg_volatile _ _), noteLevel_stable]
  · rw [noteLevel_stable]

/-- Sampling one external input leaves the stable part alone. -/
@[simp] theorem sampleSource_stable (port : SabPort) (pins : Byte) (source : ExternalSource) :
    (sampleSource hooks port pins source m).cpu.stable = m.cpu.stable := by
  simp only [sampleSource]
  split
  · split
    · rfl
    · simp
  · rfl

/-- Sampling a port leaves the stable part alone. -/
@[simp] theorem samplePort_stable (port : SabPort) :
    (samplePort hooks port m).cpu.stable = m.cpu.stable := by
  simp only [samplePort]
  split
  · exact Fold.foldl_project (fun m : Machine ω => m.cpu.stable)
      (fun b source => sampleSource_stable hooks b port _ source) _ m
  · rfl

/-- Clearing the flag of an accepted source leaves the stable part alone. -/
@[simp] theorem autoClear_stable (source : IrqSource) :
    (autoClear source m).cpu.stable = m.cpu.stable := by
  cases source <;> simp only [autoClear] <;>
    first
    | rfl
    | (split
       · rw [clearFlags_cpu, setSfr_stable _ _ (by rfl)]
       · rfl)
    | rw [clearFlags_cpu, setSfr_stable _ _ (by rfl)]

/-- Setting a request from outside leaves the stable part alone. -/
@[simp] theorem setPending_stable (source : Nat) (pending : Bool) :
    (setPending hooks source pending m).2.cpu.stable = m.cpu.stable := by
  simp only [setPending]
  -- A source that does not exist and a variant that refuses it change nothing.
  split
  · rfl
  · split
    · simp only [emitIrq_cpu, irqSync_stable]
      split
      · rw [irqWrite_cpu, setSfr_stable _ _ (requestReg_volatile _ _)]
      · rw [clearFlags_cpu, setSfr_stable _ _ (requestReg_volatile _ _)]
    · rfl

end Peripherals

/-! ### Machine cycles -/

/-- The part a machine cycle leaves alone: drive, schedule and the clock itself are blanked out. -/
def Cpu.steady (c : Cpu) : Stable :=
  { c.stable with
    fixed := { c.fixed with
      mask := fun _ => 0#8
      levels := fun _ => 0#8
      schedule := resetSchedule
      machineCycleCount := 0 } }

/-- Equal stable parts have equal steady parts. -/
theorem Stable.steady_eq {a b : Cpu} (same : a.stable = b.stable) : a.steady = b.steady := by
  simp only [Cpu.steady, same, Stable.fixed_eq same]

/-- Equal steady parts agree on every register no peripheral writes. -/
theorem steady_sfr_eq {a b : Cpu} (same : a.steady = b.steady) {index : SfrIndex}
    (quiet : isVolatile b.variant index = false) : a.sfr index = b.sfr index := by
  have variant : a.variant = b.variant := congrArg (fun s : Stable => s.fixed.variant) same
  have entry := congrFun (congrArg Stable.sfr same) index
  simpa [Cpu.steady, Cpu.stable, variant, quiet] using entry

section Cycles

variable (hooks : Hooks ω) (m : Machine ω)

/-- Driving pins anew leaves the steady part alone. -/
@[simp] theorem redrive_steady (port : SabPort) (mask levels : Byte) :
    (redrive hooks port mask levels m).cpu.steady = m.cpu.steady := by
  simp only [redrive]
  rw [Stable.steady_eq (samplePort_stable hooks _ port)]
  rfl

/-- Driving a port leaves the steady part alone. -/
@[simp] theorem portDrive_steady (index : SfrIndex) (mask levels : Byte) :
    (portDrive hooks index mask levels m).2.cpu.steady = m.cpu.steady := by
  simp only [portDrive]
  split <;> simp

/-- Releasing a port leaves the steady part alone. -/
@[simp] theorem portRelease_steady (index : SfrIndex) (mask : Byte) :
    (portRelease hooks index mask m).2.cpu.steady = m.cpu.steady := by
  simp only [portRelease]
  split <;> simp

/-- Driving an external input leaves the steady part alone. -/
@[simp] theorem externalDrive_steady (source : Nat) (level : Bool) :
    (externalDrive hooks source level m).2.cpu.steady = m.cpu.steady := by
  simp only [externalDrive]
  split <;> simp

/-- Releasing an external input leaves the steady part alone. -/
@[simp] theorem externalRelease_steady (source : Nat) :
    (externalRelease hooks source m).2.cpu.steady = m.cpu.steady := by
  simp only [externalRelease]
  split <;> simp

/-- Applying a scheduled event leaves the steady part alone. -/
@[simp] theorem applyEvent_steady (event : ScheduleEvent) :
    (applyEvent hooks event m).2.cpu.steady = m.cpu.steady := by
  simp only [applyEvent]
  split <;> simp

/-- Scheduling an event leaves the steady part alone. -/
@[simp] theorem schedule_steady (event : ScheduleEvent) :
    (schedule hooks event m).2.cpu.steady = m.cpu.steady := by
  simp only [schedule]
  -- The checks refuse, an event that is due is applied, or it joins the queue.
  split
  · rfl
  · split
    · simp
    · split
      · rfl
      · split <;> rfl

/-- Applying the events that are due leaves the steady part alone. -/
@[simp] theorem applyDue_steady (fuel : Nat) :
    (applyDue hooks fuel m).cpu.steady = m.cpu.steady := by
  -- By induction on the events that may be due: each is taken off and applied.
  induction fuel generalizing m with
  | zero => rfl
  | succ fuel ih =>
    simp only [applyDue]
    split
    · split
      · rfl
      · rw [ih, applyEvent_steady]
        rfl
    · rfl

/-- Applying the events of a cycle leaves the steady part alone. -/
@[simp] theorem applyScheduled_steady : (applyScheduled hooks m).cpu.steady = m.cpu.steady := by
  have emptied : ∀ m : Machine ω,
      (m.mapCpu fun c => { c with schedule := { c.schedule with head := 0 } }).cpu.steady
        = m.cpu.steady := fun _ => rfl
  simp only [applyScheduled]
  split
  · rw [emptied, applyDue_steady]
  · rw [applyDue_steady]

/-- Completing a machine cycle moves the clock, the schedule and the drive, and nothing else. -/
@[simp] theorem completeMachineCycle_steady :
    (completeMachineCycle hooks m).cpu.steady = m.cpu.steady := by
  simp only [completeMachineCycle]
  rw [Stable.steady_eq (maintainLevelRequests_stable hooks _), applyScheduled_steady]
  rfl

/-- A machine cycle leaves the steady part alone. -/
@[simp] theorem advanceMachineCycle_steady :
    (advanceMachineCycle hooks m).cpu.steady = m.cpu.steady := by
  have peripherals := Stable.steady_eq (advancePeripherals_stable hooks m)
  simp only [advanceMachineCycle]
  split
  · rfl
  · split
    · exact peripherals
    · rw [completeMachineCycle_steady, peripherals]

end Cycles

end Emu80535
