import Emu80535.Proofs.Overlay
import Emu80535.Proofs.Ticks

/-! What drives a port from outside reaches firmware through plain reads alone. -/

namespace Emu80535

variable {ω : Type} {hooks : Hooks ω} {m n : Machine ω} {port : SabPort}

open Machine Op

/-! ### Everything but the drive -/

/-- The request flags that external inputs set. -/
def drivenFlags (index : SfrIndex) : Byte :=
  if index = Reg.tcon then Tcon.ie0 ||| Tcon.ie1
  else if index = Reg.ircon then
    Ircon.iex2 ||| Ircon.iex3 ||| Ircon.iex4 ||| Ircon.iex5 ||| Ircon.iex6
  else 0#8

/-- The CPU without the drive on its ports, what is derived from it, and the latch of one port. -/
def Cpu.undriven (port : SabPort) (c : Cpu) : Cpu :=
  { c with
    sfr := fun i => if i = port.reg then 0#8 else c.sfr i &&& ~~~(drivenFlags i)
    pins := ⟨fun _ => 0#8, fun _ => 0#8, 0#8, 0#8⟩
    irqPending := 0#16
    irqEnabled := 0#16 }

/-- Two Siemens CPUs that differ at most in the drive, and as given in one port latch. -/
structure Alike (port : SabPort) (latches : Byte → Byte → Prop) (a b : Cpu) : Prop where
  sab : a.variant = .sab80535
  rest : a.undriven port = b.undriven port
  latch : latches (a.sfr port.reg) (b.sfr port.reg)

/-- A store shows, less the flags that are not looked at. -/
theorem undriven_store (c : Cpu) (index : SfrIndex) (value : Byte) :
    (c.store index value).undriven port =
      if index = port.reg then c.undriven port
      else (c.undriven port).store index (value &&& ~~~(drivenFlags index)) := by
  -- Whether the stored register is the latch decides on which side the store is lost.
  have stored : ∀ i, (if i = port.reg then 0#8
      else Function.update c.sfr index value i &&& ~~~(drivenFlags i)) =
      if index = port.reg then (if i = port.reg then 0#8 else c.sfr i &&& ~~~(drivenFlags i))
      else Function.update (fun i => if i = port.reg then 0#8 else c.sfr i &&& ~~~(drivenFlags i))
        index (value &&& ~~~(drivenFlags index)) i := by
    intro i
    by_cases same : i = index
    · subst same
      by_cases here : i = port.reg <;> simp [here]
    · by_cases here : index = port.reg
      · have elsewhere : i ≠ port.reg := fun other => same (other.trans here.symm)
        simp [here, elsewhere]
      · simp [here, same]
  simp only [Cpu.undriven, Cpu.store, stored]
  split <;> rfl

/-- Setting or clearing flags that are not looked at does not show. -/
theorem undriven_flags (c : Cpu) {index : SfrIndex} (plain : index ≠ port.reg) {value : Byte}
    (same : value &&& ~~~(drivenFlags index) = c.sfr index &&& ~~~(drivenFlags index)) :
    (c.store index value).undriven port = c.undriven port := by
  rw [undriven_store, if_neg plain, same]
  have held : (c.undriven port).sfr index = c.sfr index &&& ~~~(drivenFlags index) := if_neg plain
  rw [← held, Cpu.store, Function.update_eq_self]

/-- The flag of an external input is one of them. -/
theorem requestMask_driven (source : ExternalSource) (t : Byte) :
    (t ||| source.irqSource.requestMask) &&&
        ~~~(drivenFlags source.irqSource.requestReg) =
      t &&& ~~~(drivenFlags source.irqSource.requestReg) ∧
    t &&& ~~~source.irqSource.requestMask &&&
        ~~~(drivenFlags source.irqSource.requestReg) =
      t &&& ~~~(drivenFlags source.irqSource.requestReg) := by
  revert t
  cases source <;> decide

/-- It is in no port latch. -/
theorem requestReg_plain (source : ExternalSource) (port : SabPort) :
    source.irqSource.requestReg ≠ port.reg := by
  cases source <;> cases port <;> decide

/-! ### Sampling -/

/-- One machine was changed in nothing but the drive and what is derived from it. -/
structure Sampled (port : SabPort) (m n : Machine ω) : Prop where
  rest : n.cpu.undriven port = m.cpu.undriven port
  latch : n.cpu.sfr port.reg = m.cpu.sfr port.reg

namespace Sampled

variable (sampled : Sampled port m n)

include sampled

/-- A request of a port input stays outside what is compared. -/
theorem request (source : ExternalSource) (cycle : Nat) :
    Sampled port m (n.irqWrite hooks source.irqSource.requestReg
      (n.cpu.sfr source.irqSource.requestReg ||| source.irqSource.requestMask) cycle) := by
  have plain := requestReg_plain source port
  refine ⟨?_, ?_⟩
  · rw [irqWrite_cpu, ← sampled.rest]
    exact undriven_flags n.cpu plain (requestMask_driven source _).1
  · rw [irqWrite_cpu, ← sampled.latch]
    exact Function.update_of_ne plain.symm _ _

/-- So does its withdrawal. -/
theorem withdraw (source : ExternalSource) :
    Sampled port m
      (n.clearFlags source.irqSource.requestReg source.irqSource.requestMask) := by
  have plain := requestReg_plain source port
  refine ⟨?_, ?_⟩
  · rw [← sampled.rest]
    exact undriven_flags n.cpu plain (requestMask_driven source _).2
  · rw [← sampled.latch]
    exact Function.update_of_ne plain.symm _ _

/-- The note of a held level is not compared either. -/
theorem setLevelAsserted (bit : Byte) (asserted : Bool) :
    Sampled port m (n.setLevelAsserted bit asserted) := ⟨sampled.rest, sampled.latch⟩

/-- Looking at the two levels only works on their flags and notes. -/
theorem maintainLevelRequests : Sampled port m (maintainLevelRequests hooks n) := by
  -- One input first; the order of the two does not matter here.
  have one : ∀ (k : Machine ω) (source : ExternalSource), source = .int0 ∨ source = .int1 →
      Sampled port m k →
        Sampled port m (maintainLevelRequest hooks (n.cpu.getPins .p3) source k) := by
    intro k source level held
    have reg : source.irqSource.requestReg = Reg.tcon := by
      rcases level with rfl | rfl <;> rfl
    have raised := fun cycle => @request ω hooks m k port held source cycle
    have cleared := held.withdraw source
    rw [reg] at raised cleared
    simp only [maintainLevelRequest]
    -- The branches are those of `maintain_level_requests`: edge mode, low pin, high pin.
    split
    · exact held.setLevelAsserted _ _
    · split
      · exact (raised _).setLevelAsserted _ _
      · split
        · exact cleared.setLevelAsserted _ _
        · exact held
  -- Both inputs share Port 3, and a machine without it does nothing.
  simp only [Emu80535.maintainLevelRequests]
  split
  · exact one _ _ (Or.inr rfl) (one _ _ (Or.inl rfl) sampled)
  · exact sampled

/-- Looking at the pins stays outside what is compared. -/
theorem irqSync : Sampled port m (irqSync hooks n) := by
  have maintained := @maintainLevelRequests ω hooks m n port sampled
  exact ⟨maintained.rest, maintained.latch⟩

/-- So does taking down what a trigger means for a level. -/
theorem noteLevel (source : ExternalSource) (trigger : ExternalTrigger) :
    Sampled port m (noteLevel source trigger n) := by
  -- Only the release of a level withdraws a request.
  cases trigger with
  | lowLevelAssert => exact sampled.setLevelAsserted _ _
  | levelRelease =>
    simp only [Emu80535.noteLevel]
    split
    · exact (sampled.withdraw source).setLevelAsserted _ _
    · exact sampled.setLevelAsserted _ _
  | nonQualifying => exact sampled
  | fallingEdge => exact sampled
  | risingEdge => exact sampled

/-- And observing a change of one input. -/
theorem observeChange (source : ExternalSource) (old new : Bool) :
    Sampled port m (observeChange hooks source old new n) := by
  have noted := sampled.noteLevel source (n.cpu.classify source old new).1
  simp only [Emu80535.observeChange]
  -- With a request or without one, the synchronisation comes last.
  split
  · have synced := @irqSync ω hooks _ _ _ (@request ω hooks _ _ _ noted source
      (Emu80535.noteLevel source (n.cpu.classify source old new).1 n).cpu.machineCycleCount)
    exact ⟨synced.rest, synced.latch⟩
  · have synced := @irqSync ω hooks _ _ _ noted
    exact ⟨synced.rest, synced.latch⟩

/-- One input is sampled. -/
theorem sampleSource (p : SabPort) (pins : Byte) (source : ExternalSource) :
    Sampled port m (sampleSource hooks p pins source n) := by
  -- The sample itself is a note of the sampler.
  have seen : ∀ level, Sampled port m (n.setSampled source.sampleBit level) :=
    fun _ => ⟨sampled.rest, sampled.latch⟩
  simp only [Emu80535.sampleSource]
  split
  · split
    · exact sampled
    · exact (seen _).observeChange source _ _
  · exact sampled

/-- All inputs of a port are sampled. -/
theorem samplePort (p : SabPort) : Sampled port m (samplePort hooks p n) := by
  simp only [Emu80535.samplePort]
  split
  · exact Fold.foldl_keeps (I := fun k => Sampled port m k)
      (fun source _ k held => held.sampleSource p _ source) sampled
  · exact sampled

end Sampled

/-! ### Two runs side by side -/

namespace Alike

variable {latches : Byte → Byte → Prop} {a b : Cpu}

/-- A change that does the same whatever drives the ports. -/
theorem map (alike : Alike port latches a b) (f : Cpu → Cpu)
    (variant : ∀ c, (f c).variant = c.variant)
    (blind : ∀ c, (f c).undriven port = f (c.undriven port))
    (latch : ∀ c, (f c).sfr port.reg = c.sfr port.reg) : Alike port latches (f a) (f b) where
  sab := (variant a).trans alike.sab
  rest := by rw [blind a, blind b, alike.rest]
  latch := by
    rw [latch a, latch b]
    exact alike.latch

/-- Sampling on either side does not show. -/
theorem sampled {m' n' : Machine ω} (alike : Alike port latches m.cpu n.cpu)
    (left : Sampled port m m') (right : Sampled port n n') :
    Alike port latches m'.cpu n'.cpu where
  sab := (congrArg (fun c : Cpu => c.variant) left.rest).trans alike.sab
  rest := left.rest.trans (alike.rest.trans right.rest.symm)
  latch := by
    rw [left.latch, right.latch]
    exact alike.latch

variable (alike : Alike port latches a b)

include alike

/-- Another register than the latch and the request flags. -/
theorem sfr {index : SfrIndex} (other : index ≠ port.reg) (plain : drivenFlags index = 0#8) :
    a.sfr index = b.sfr index := by
  have same := congrFun (congrArg (fun c : Cpu => c.sfr) alike.rest) index
  have whole : ~~~(0#8 : Byte) = BitVec.allOnes 8 := by decide
  simpa only [Cpu.undriven, if_neg other, plain, whole, BitVec.and_allOnes] using same

/-- Both machines are SAB ones. -/
theorem variant : b.variant = .sab80535 :=
  (congrArg (fun c : Cpu => c.variant) alike.rest).symm.trans alike.sab

/-- The converter is the same on both. -/
theorem adc : a.adc = b.adc := by
  have same := congrArg Cpu.adc alike.rest
  exact same

/-- The program counter is the same on both. -/
theorem pc : a.pc = b.pc := by
  have same := congrArg Cpu.pc alike.rest
  exact same

/-- Code memory is the same on both. -/
theorem code : a.code = b.code := by
  have same := congrArg Cpu.code alike.rest
  exact same

/-- Lower RAM is the same on both. -/
theorem lowerData : a.lowerData = b.lowerData := by
  have same := congrArg Cpu.lowerData alike.rest
  exact same

/-- A change of the converter alone keeps them alike. -/
theorem mapAdc (f : AdcState → AdcState) :
    Alike port latches { a with adc := f a.adc } { b with adc := f b.adc } :=
  alike.map (fun c => { c with adc := f c.adc }) (fun _ => rfl) (fun _ => rfl) fun _ => rfl

variable (reflexive : ∀ value, latches value value)

include reflexive

/-- The same byte stored on both sides. -/
theorem store (index : SfrIndex) (value : Byte) :
    Alike port latches (a.store index value) (b.store index value) where
  sab := alike.sab
  rest := by rw [undriven_store, undriven_store, alike.rest]
  latch := by
    -- The latch of the port is compared up to what the pins show, every other register exactly.
    by_cases here : index = port.reg
    · subst here
      simp only [Cpu.store, Function.update_self, reflexive]
    · simp only [Cpu.store, Function.update_of_ne (Ne.symm here)]
      exact alike.latch

end Alike

/-- A write of the serial buffer that ends unaborted passes both tests for an abort. -/
theorem sbufWrite_unaborted (silent : ∀ i, hooks.sfrwrite i = none) (sticky : hooks.Sticky)
    (value : Byte) (m : Machine ω) (kept : (sbufWrite hooks value m).aborted hooks = false) :
    let held := uartSbufWrite hooks value (m.raw hooks
      (.accessBegin m.cpu.machineCycleCount (sfrAddress Reg.sbuf) false value))
    ∃ k : Machine ω,
      k.cpu = (held.cpu.store Reg.sbuf value).store Reg.sbuf held.cpu.uart.rxData ∧
        (sbufWrite hooks value m).cpu = (adcFinishSfrTransaction k).cpu := by
  intro held
  -- An abort stays, so a write that ends unaborted was never aborted.
  have later : ∀ (k : Machine ω) (f : RawFact), k.aborted hooks = true →
      (k.raw hooks f).aborted hooks = true :=
    fun k f before => (Steps.raw (.refl k) f).aborted sticky before
  simp only [sbufWrite, sfrCallback, silent] at kept ⊢
  -- The first test stands behind the hold of the byte, the second behind the store.
  split at kept
  · rename_i aborted
    exact absurd (aborted.symm.trans kept) (by decide)
  · rename_i begun
    rw [if_neg begun]
    split at kept
    · rename_i aborted
      exact absurd ((later _ _ aborted).symm.trans kept) (by decide)
    · rename_i stored
      rw [if_neg stored]
      refine ⟨_, ?_, raw_cpu hooks _ _⟩
      rw [traceEmit_cpu]
      rfl

section Writes

variable {latches : Byte → Byte → Prop} (alike : Alike port latches m.cpu n.cpu)

include alike

/-- Entering a write transaction only counts its depth. -/
theorem Alike.enter : Alike port latches (sfrWriteEnter m).cpu (sfrWriteEnter n).cpu := by
  simp only [sfrWriteEnter, alike.sab, alike.variant, if_true]
  exact alike.mapAdc fun x => { x with sfrWriteDepth := x.sfrWriteDepth + 1 }

/-- The hold-off of interrupts is armed on both or on neither. -/
theorem Alike.holdOff (index : SfrIndex) :
    Alike port latches (holdOff index m).cpu (holdOff index n).cpu := by
  simp only [Emu80535.holdOff, alike.sab, alike.variant, true_and]
  -- The register written is the same, so the same branch is taken.
  split
  · exact alike.map (fun c => { c with irqInhibit := if c.inInstruction then 2 else 1 })
      (fun _ => rfl) (fun _ => rfl) fun _ => rfl
  · exact alike

/-- Holding a byte for the transmitter looks at SCON and ADCON, which are compared. -/
theorem Alike.sbufHold (value : Byte) :
    Alike port latches (uartSbufWrite hooks value m).cpu (uartSbufWrite hooks value n).cpu := by
  -- Neither of the two is a port.
  have control : m.cpu.sfr Reg.scon = n.cpu.sfr Reg.scon :=
    alike.sfr (by cases port <;> decide) rfl
  have rate : m.cpu.sfr Reg.adcon = n.cpu.sfr Reg.adcon :=
    alike.sfr (by cases port <;> decide) rfl
  have mode : m.cpu.uartMode3 = n.cpu.uartMode3 := by
    simp only [Cpu.uartMode3, alike.sab, alike.variant, control, rate]
  simp only [uartSbufWrite, mode, control]
  split
  · simp only [raw_cpu]
    exact alike.map (fun c => { c with uart := { c.uart with
        txPendingData := value
        txPendingNinth := has (n.cpu.sfr Reg.scon) Scon.tb8
        txPending := true } }) (fun _ => rfl) (fun _ => rfl) fun _ => rfl
  · exact alike

variable (reflexive : ∀ value, latches value value)

include reflexive

/-- The busy flag is stored in ADCON, which is compared. -/
theorem Alike.setBusy (busy : Bool) :
    Alike port latches (m.setBusy busy).cpu (n.setBusy busy).cpu := by
  -- ADCON is no latch of a port, so it is the same on both sides.
  have same : m.cpu.sfr Reg.adcon = n.cpu.sfr Reg.adcon :=
    alike.sfr (by cases port <;> decide) rfl
  have kept := (alike.mapAdc fun x => { x with busy := busy }).store reflexive Reg.adcon
    (if busy then n.cpu.sfr Reg.adcon ||| Adcon.bsy else n.cpu.sfr Reg.adcon &&& ~~~Adcon.bsy)
  show Alike port latches
    (Cpu.store { m.cpu with adc := { m.cpu.adc with busy := busy } } Reg.adcon
      (if busy then m.cpu.sfr Reg.adcon ||| Adcon.bsy else m.cpu.sfr Reg.adcon &&& ~~~Adcon.bsy)) _
  rw [same]
  exact kept

/-- So the end of a write transaction arms the converter on both or on neither. -/
theorem Alike.finish :
    Alike port latches (adcFinishSfrTransaction m).cpu (adcFinishSfrTransaction n).cpu := by
  -- The depth and the busy flag are the same on both sides, and so is the decision to arm.
  have left : Alike port latches
      (m.mapAdc fun x => { x with sfrWriteDepth := x.sfrWriteDepth - 1 }).cpu
      (n.mapAdc fun x => { x with sfrWriteDepth := x.sfrWriteDepth - 1 }).cpu :=
    alike.mapAdc fun x => { x with sfrWriteDepth := x.sfrWriteDepth - 1 }
  have busy : (m.mapAdc fun x => { x with sfrWriteDepth := x.sfrWriteDepth - 1 }).cpu.adc.busy =
      (n.mapAdc fun x => { x with sfrWriteDepth := x.sfrWriteDepth - 1 }).cpu.adc.busy :=
    congrArg AdcState.busy left.adc
  have shown := left.setBusy reflexive
    (n.mapAdc fun x => { x with sfrWriteDepth := x.sfrWriteDepth - 1 }).cpu.adc.busy
  have state := shown.adc
  simp only [adcFinishSfrTransaction, alike.sab, alike.variant, if_true, busy]
  rw [state]
  split
  · exact shown.mapAdc fun x => { x with startPending := false, armed := true }
  · exact shown

/-- A write of another register than the serial buffer. -/
theorem Alike.plainWrite (silent : ∀ i, hooks.sfrwrite i = none) {index : SfrIndex}
    (other : index ≠ Reg.sbuf) (value : Byte)
    (left : (sfrWrite hooks index value m).aborted hooks = false)
    (right : (sfrWrite hooks index value n).aborted hooks = false) :
    Alike port latches (sfrWrite hooks index value m).cpu (sfrWrite hooks index value n).cpu := by
  have same : m.cpu.storedValue index value = n.cpu.storedValue index value := by
    simp only [Cpu.storedValue, alike.sab, alike.variant, alike.adc]
  rw [sfrWrite_unaborted other value left, sfrWrite_unaborted other value right, same]
  -- The store, and what a write of DAPR asks of the converter.
  have stored : Alike port latches (written hooks index value m).cpu
      (written hooks index value n).cpu := by
    have entered := (@Alike.enter ω m n port latches alike).store reflexive index
      (n.cpu.storedValue index value)
    have kept : Alike port latches
        ((sfrWriteEnter m).irqWrite hooks index (n.cpu.storedValue index value)
          (sfrWriteEnter m).cpu.machineCycleCount).cpu
        ((sfrWriteEnter n).irqWrite hooks index (n.cpu.storedValue index value)
          (sfrWriteEnter n).cpu.machineCycleCount).cpu := by
      rw [irqWrite_cpu, irqWrite_cpu]
      exact entered
    simp only [written, sfrWriteBody, sfrCallback, silent, same, kept.sab, kept.variant, true_and]
    split
    · exact kept.mapAdc fun x =>
        { x with
          armRestart := if x.startPending then x.armRestart else x.active || x.armed
          active := false
          armed := false
          cycles := 0
          startPending := true }
    · exact kept
  have sampled : ∀ k : Machine ω, Sampled port k (sampleWritten hooks index k) := by
    intro k
    simp only [sampleWritten]
    split
    · exact Sampled.samplePort ⟨rfl, rfl⟩ _
    · exact ⟨rfl, rfl⟩
  have shown := stored.sampled (sampled _) (sampled _)
  simp only [sfrWriteTail]
  refine Alike.finish (Alike.holdOff ?_ index) reflexive
  rw [traceEmit_cpu, traceEmit_cpu]
  exact shown

/-- A write of the serial buffer. -/
theorem Alike.serialWrite (silent : ∀ i, hooks.sfrwrite i = none) (sticky : hooks.Sticky)
    (value : Byte) (left : (sbufWrite hooks value m).aborted hooks = false)
    (right : (sbufWrite hooks value n).aborted hooks = false) :
    Alike port latches (sbufWrite hooks value m).cpu (sbufWrite hooks value n).cpu := by
  -- On both sides the stores are made, and what is left is the end of the transaction.
  obtain ⟨j, fromM, doneM⟩ := sbufWrite_unaborted silent sticky value m left
  obtain ⟨k, fromN, doneN⟩ := sbufWrite_unaborted silent sticky value n right
  rw [doneM, doneN]
  refine Alike.finish ?_ reflexive
  rw [fromM, fromN]
  -- Up to the stores both machines have done the same.
  have held : Alike port latches
      (uartSbufWrite hooks value (m.raw hooks
        (.accessBegin m.cpu.machineCycleCount (sfrAddress Reg.sbuf) false value))).cpu
      (uartSbufWrite hooks value (n.raw hooks
        (.accessBegin n.cpu.machineCycleCount (sfrAddress Reg.sbuf) false value))).cpu := by
    refine Alike.sbufHold ?_ value
    rw [raw_cpu, raw_cpu]
    exact alike
  have received := congrArg (fun c : Cpu => c.uart.rxData) held.rest
  simp only [Cpu.undriven] at received
  rw [received]
  exact (held.store reflexive Reg.sbuf value).store reflexive Reg.sbuf _

/-- A write of any register. -/
theorem Alike.sfrWrite (silent : ∀ i, hooks.sfrwrite i = none) (sticky : hooks.Sticky)
    (index : SfrIndex) (value : Byte)
    (left : (sfrWrite hooks index value m).aborted hooks = false)
    (right : (sfrWrite hooks index value n).aborted hooks = false) :
    Alike port latches (sfrWrite hooks index value m).cpu (sfrWrite hooks index value n).cpu := by
  -- The serial buffer has a write of its own.
  by_cases serial : index = Reg.sbuf
  · subst serial
    have entered := @Alike.enter ω m n port latches alike
    have same : m.cpu.storedValue Reg.sbuf value = n.cpu.storedValue Reg.sbuf value := by
      simp only [Cpu.storedValue, alike.sab, alike.variant, alike.adc]
    simp only [Emu80535.sfrWrite, entered.sab, entered.variant, and_self, if_true, same]
      at left right ⊢
    exact entered.serialWrite reflexive silent sticky _ left right
  · exact alike.plainWrite reflexive silent serial value left right

end Writes

/-! ### Bodies on both sides -/

/-- Two bodies that end unaborted answer the same and leave CPUs that are related. -/
def Op.Agree {α : Type} (hooks : Hooks ω) (R : Cpu → Cpu → Prop) (p q : Op α) (m n : Machine ω) :
    Prop :=
  (p.run hooks m).2.aborted hooks = false → (q.run hooks n).2.aborted hooks = false →
    (p.run hooks m).1 = (q.run hooks n).1 ∧ R (p.run hooks m).2.cpu (q.run hooks n).2.cpu

/-- What a body may look at without the right to look at latches is the same on both sides. -/
theorem Alike.hide {latches : Byte → Byte → Prop} {a b : Cpu} (alike : Alike port latches a b)
    {r : Rights} (external : r.external = false) (latch : r.latch = false) (other : Cpu) :
    a.hide r other = b.hide r other := by
  -- Its own registers are neither a latch nor one of the request registers.
  have own : ∀ i, isOwn i = true → i ≠ port.reg ∧ drivenFlags i = 0#8 := by
    cases port <;> decide
  have registers : (fun i => if r.sees i then a.sfr i else other.sfr i) =
      fun i => if r.sees i then b.sfr i else other.sfr i := by
    funext i
    split
    · rename_i seen
      have mine : isOwn i = true := by
        simpa [Rights.sees, external, latch] using seen
      exact alike.sfr (own i mine).1 (own i mine).2
    · rfl
  have same := congrArg (fun c : Cpu => c.hide { r with external := false } other) alike.rest
  simp only [Cpu.hide, Cpu.undriven, Cpu.mk.injEq, external] at same ⊢
  simp only [registers]
  tauto

section Bodies

variable {latches : Byte → Byte → Prop} {α β : Type} {R S : Cpu → Cpu → Prop}
  (sticky : hooks.Sticky)

include sticky

/-- What ends unaborted was unaborted in between. -/
theorem Op.Agree.bind {p q : Op α} {f g : α → Op β} (first : p.Agree hooks R q m n)
    (second : R (p.run hooks m).2.cpu (q.run hooks n).2.cpu →
      (f (p.run hooks m).1).Agree hooks S (g (p.run hooks m).1) (p.run hooks m).2
        (q.run hooks n).2) :
    (p >>= f).Agree hooks S (q >>= g) m n := by
  intro left right
  rw [bind_eq, run_bind] at left right
  -- The first body was not aborted in between, or the second would have ended aborted.
  obtain ⟨same, related⟩ := first
    ((Steps.run (.refl _) (f (p.run hooks m).1)).unaborted sticky left)
    ((Steps.run (.refl _) (g (q.run hooks n).1)).unaborted sticky right)
  rw [bind_eq, run_bind, bind_eq, run_bind]
  rw [← same] at right ⊢
  exact second related left right

variable (silent : ∀ i, hooks.sfrwrite i = none) (reflexive : ∀ value, latches value value)

include silent reflexive

/-- An action that neither reads a register nor reaches outside. -/
theorem Alike.effect {r : Rights} (external : r.external = false) (leave : r.leave = false)
    {e : Effect} (allowed : r.allows e = true) (alike : Alike port latches m.cpu n.cpu)
    (left : (e.apply hooks m).aborted hooks = false)
    (right : (e.apply hooks n).aborted hooks = false) :
    Alike port latches (e.apply hooks m).cpu (e.apply hooks n).cpu := by
  -- Each allowed effect works alike on both, or is excluded by the rights.
  cases e with
  | setLower address value =>
    exact alike.map (fun c => { c with lowerData := Function.update c.lowerData address value })
      (fun _ => rfl) (fun _ => rfl) fun _ => rfl
  | setUpper address value =>
    exact alike.map (fun c => { c with
      upperData := c.upperData.map fun data => Function.update data address value })
      (fun _ => rfl) (fun _ => rfl) fun _ => rfl
  | setReg reg value => exact alike.store reflexive reg.index value
  | setPc pc => exact alike.map (fun c => { c with pc := pc }) (fun _ => rfl) (fun _ => rfl) fun _ => rfl
  | setExt address value => exact absurd (external.symm.trans allowed) (by decide)
  | setInterruptActive value =>
    exact alike.map (fun c => { c with classic := { c.classic with interruptActive := value } })
      (fun _ => rfl) (fun _ => rfl) fun _ => rfl
  | sfrWrite index value => exact alike.sfrWrite reflexive silent sticky index value left right
  -- An exception is noted, and nothing is looked at.
  | raise code =>
    exact alike.map (fun c => { c with exceptionRaised := true, lastException := some code })
      (fun _ => rfl) (fun _ => rfl) fun _ => rfl
  | irqReti originalSp => exact absurd (leave.symm.trans allowed) (by decide)
  | emit record => exact alike
  -- What is reported does not touch the CPU.
  | trace type address value =>
    simp only [Effect.apply, traceEmit_cpu]
    exact alike
  | fact f =>
    simp only [Effect.apply, raw_cpu]
    exact alike

/-- A body that reads no register, by induction on its tree. -/
theorem Op.Obeys.agree {r : Rights} {answer : α → Prop} (read : r.read = false)
    (modify : r.modify = false) (external : r.external = false) (leave : r.leave = false)
    (latch : r.latch = false) (calls : r.calls = false) {p : Op α} (obeys : p.Obeys r answer)
    (alike : Alike port latches m.cpu n.cpu) : p.Agree hooks (Alike port latches) p m n := by
  intro left right
  -- Induction on the tree, with the machines generalized.
  induction p generalizing m n with
  | ret value => exact ⟨rfl, alike⟩
  -- What is looked at is hidden from the port, so both continue with the same body.
  | look next ih =>
    have same : next m.cpu = next n.cpu := by
      rw [← obeys.1 m.cpu, alike.hide external latch, obeys.1]
    have after := ih m.cpu (obeys.2 m.cpu) alike left
    simp only [Op.run] at after left right ⊢
    rw [← same] at right ⊢
    exact after right
  -- The rest ends unaborted, hence so did the effect.
  | act e next ih =>
    refine ih obeys.2 ?_ left right
    exact Alike.effect sticky silent reflexive external leave obeys.1 alike
      ((Steps.run (.refl _) next).unaborted sticky left)
      ((Steps.run (.refl _) next).unaborted sticky right)
  -- Neither is aborted here, since both end unaborted.
  | aborted next ih =>
    have running : ∀ k : Machine ω, ((next (k.aborted hooks)).run hooks k).2.aborted hooks = false →
        k.aborted hooks = false := fun k => (Steps.run (.refl k) _).unaborted sticky
    have same : m.aborted hooks = n.aborted hooks := by
      rw [running m left, running n right]
    have after := ih (m.aborted hooks) (obeys _) alike left
    simp only [Op.run] at after right ⊢
    rw [← same] at right ⊢
    exact after right
  -- The remaining constructors need a right that the body has not got.
  | ask f next ih => exact absurd obeys.1 (by simp [modify, calls])
  | sfrRead index next ih => exact absurd (read.symm.trans obeys.1) (by decide)
  | sfrRmwRead index next ih => exact absurd (modify.symm.trans obeys.1) (by decide)
  | busRead address next ih => exact absurd (external.symm.trans obeys.1) (by decide)
  | busWrite address value next ih => exact absurd (external.symm.trans obeys.1) (by decide)

end Bodies

/-! ### Read-modify-write -/

section Modify

variable (sticky : hooks.Sticky) (silent : ∀ i, hooks.sfrwrite i = none)
  (alike : Alike port Eq m.cpu n.cpu)

include sticky silent

include alike

end Modify

/-! ### Plain reads -/

/-- The CPU whose latch of a port holds what its pins show, with nothing driving them. -/
def Cpu.resolve (c : Cpu) (port : SabPort) : Cpu :=
  { c with
    sfr := Function.update c.sfr port.reg
      (c.sfr port.reg &&& (~~~(c.pins.mask port) ||| c.pins.levels port))
    pins := { c.pins with mask := Function.update c.pins.mask port 0#8 } }

/-- Apart from the latch nothing shows of it. -/
theorem resolve_alike {c : Cpu} (sab : c.variant = .sab80535) (port : SabPort) :
    Alike port (fun x y => x = y ∨ x = c.sfr port.reg ∧ y = c.getPins port) c (c.resolve port) where
  sab := sab
  rest := by
    -- The one register that differs is the latch, which is not compared.
    have registers : ∀ i, (if i = port.reg then 0#8
        else Function.update c.sfr port.reg (c.getPins port) i &&& ~~~(drivenFlags i)) =
        if i = port.reg then 0#8 else c.sfr i &&& ~~~(drivenFlags i) := by
      intro i
      split
      · rfl
      · rename_i other
        rw [Function.update_of_ne other]
    simp only [Cpu.undriven, Cpu.resolve]
    simp only [Cpu.getPins] at registers
    simp only [registers]
  latch := Or.inr ⟨rfl, Function.update_self ..⟩

/-- One CPU and the other with resolved pins, both with the port as it was at the start. -/
structure Resolved (port : SabPort) (start a b : Cpu) : Prop where
  sab : a.variant = .sab80535
  same : b = a.resolve port
  latch : a.sfr port.reg = start.sfr port.reg
  pins : a.pins = start.pins

/-- Then they differ as they did at the start. -/
theorem Resolved.alike {start a b : Cpu} (resolved : Resolved port start a b) :
    Alike port (fun x y => x = y ∨ x = start.sfr port.reg ∧ y = start.getPins port) a b := by
  have shown := resolve_alike resolved.sab port
  rw [← resolved.same] at shown
  simp only [Cpu.getPins, resolved.latch, resolved.pins] at shown
  exact shown

/-- An action that writes no register through the gateway. -/
theorem Resolved.effect {start : Cpu} {r : Rights} (write : r.write = false)
    (external : r.external = false) (leave : r.leave = false) {e : Effect}
    (allowed : r.allows e = true) (resolved : Resolved port start m.cpu n.cpu) :
    Resolved port start (e.apply hooks m).cpu (e.apply hooks n).cpu := by
  have same := resolved.same
  -- Only stores into registers concern the port, and the gateway is excluded.
  cases e with
  -- A core register is no port, so the two updates commute.
  | setReg reg value =>
    have apart : reg.index ≠ port.reg := by cases reg <;> cases port <;> decide
    have kept : Function.update m.cpu.sfr reg.index value port.reg = m.cpu.sfr port.reg :=
      Function.update_of_ne apart.symm _ _
    refine ⟨resolved.sab, ?_, kept.trans resolved.latch, resolved.pins⟩
    simp only [Effect.apply, Machine.setSfr, same, Cpu.resolve, kept,
      Function.update_comm apart]
  | setExt address value => exact absurd (external.symm.trans allowed) (by decide)
  | sfrWrite index value => exact absurd (write.symm.trans allowed) (by decide)
  | irqReti originalSp => exact absurd (leave.symm.trans allowed) (by decide)
  | trace type address value =>
    simp only [Effect.apply, traceEmit_cpu]
    exact resolved
  | fact f =>
    simp only [Effect.apply, raw_cpu]
    exact resolved
  | emit record => exact resolved
  | setLower | setUpper | setPc | setInterruptActive | raise =>
    refine ⟨resolved.sab, ?_, resolved.latch, resolved.pins⟩
    simp only [Effect.apply, Machine.mapCpu, raiseException, same]
    rfl

section Plain

variable (sticky : hooks.Sticky) (silent : ∀ i, hooks.sfrread i = none)

include sticky silent

variable (quiet : ∀ i, hooks.sfrwrite i = none)

include quiet

end Plain

end Emu80535
