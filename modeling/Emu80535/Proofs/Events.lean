import Emu80535.Lib.History
import Emu80535.Proofs.Course
import Emu80535.Proofs.Overflow
import Emu80535.Proofs.Rights

/-! Every tick and every host call as a course of device events. -/

namespace Emu80535

variable {ω : Type} {hooks : Hooks ω}

open Machine

/-! ### Register writes, taken apart at the callback -/

/-- The machine a register write hands to the register's callback. -/
def writeOpened (hooks : Hooks ω) (index : SfrIndex) (value : Byte) (m : Machine ω) : Machine ω :=
  let value := m.cpu.storedValue index value
  let m := sfrWriteEnter m
  if m.cpu.variant = .sab80535 ∧ index = Reg.sbuf then
    let m := m.raw hooks
      (.accessBegin m.cpu.machineCycleCount (sfrAddress Reg.sbuf) false value)
    (uartSbufWrite hooks value m).setSfr Reg.sbuf value
  else
    let m := m.irqWrite hooks index value m.cpu.machineCycleCount
    if m.cpu.variant = .sab80535 ∧ index = Reg.dapr then adcRequestStart m else m

/-- The CPU a register write hands to the register's callback. -/
def Cpu.opened (c : Cpu) (index : SfrIndex) (value : Byte) : Cpu :=
  { c.store index (c.storedValue index value) with
    adc :=
      if index = Reg.dapr then
        { c.adc with
          sfrWriteDepth := c.adc.sfrWriteDepth + 1
          armRestart := if c.adc.startPending then c.adc.armRestart else c.adc.active || c.adc.armed
          active := false
          armed := false
          cycles := 0
          startPending := true }
      else { c.adc with sfrWriteDepth := c.adc.sfrWriteDepth + 1 }
    uart :=
      if index = Reg.sbuf ∧ c.uartMode3 then
        { c.uart with
          txPendingData := value
          txPendingNinth := has (c.sfr Reg.scon) Scon.tb8
          txPending := true }
      else c.uart }

/-- The machine the callback hands back. -/
def writeCalled (hooks : Hooks ω) (index : SfrIndex) (value : Byte) (m : Machine ω) : Machine ω :=
  (writeOpened hooks index value m).sfrCallback hooks index

/-- The rest of a write restores the serial mirror and closes the transaction. -/
def writeClosed (serial : Bool) (m : Machine ω) : Machine ω :=
  adcFinishSfrTransaction (if serial then m.setSfr Reg.sbuf m.cpu.uart.rxData else m)

section Write

variable {journal : Option (Journal hooks)} {m n : Machine ω}

/-- What has happened to the Siemens CPU when the callback is run. -/
theorem writeOpened_cpu (sab : m.cpu.variant = .sab80535) (index : SfrIndex) (value : Byte) :
    (writeOpened hooks index value m).cpu = m.cpu.opened index value := by
  -- Entering counts the depth and does nothing else.
  have entered : (sfrWriteEnter m).cpu =
      { m.cpu with adc := { m.cpu.adc with sfrWriteDepth := m.cpu.adc.sfrWriteDepth + 1 } } := by
    simp only [sfrWriteEnter, if_pos sab]
    rfl
  have variant : (sfrWriteEnter m).cpu.variant = .sab80535 := by
    rw [entered]
    exact sab
  have stored : ∀ (k : Machine ω) i v, (k.setSfr i v).cpu = k.cpu.store i v := fun _ _ _ => rfl
  simp only [writeOpened, Cpu.opened, variant, true_and]
  -- The serial buffer is opened in its own way.
  split
  · rename_i serial
    subst serial
    -- Neither DAPR nor ADCON is concerned.
    have plain : m.cpu.storedValue Reg.sbuf value = value := by
      simp [Cpu.storedValue, show Reg.sbuf ≠ Reg.adcon by decide]
    have other : Reg.sbuf ≠ Reg.dapr := by decide
    have mode : ∀ f, ((sfrWriteEnter m).raw hooks f).cpu.uartMode3 = m.cpu.uartMode3 := by
      intro f
      rw [raw_cpu, entered]
      rfl
    rw [plain, if_neg other]
    -- In mode 3 the byte is held before it is stored.
    simp only [uartSbufWrite, mode, true_and]
    split
    · rename_i mode3
      simp only [stored, raw_cpu, mapUart, mapCpu_cpu, entered]
      rfl
    · simp only [stored, raw_cpu, entered]
      rfl
  · -- Any other register is stored, and DAPR requests a conversion.
    rename_i other
    simp only [other, false_and, if_false]
    have written : ∀ v cycle, ((sfrWriteEnter m).irqWrite hooks index v cycle).cpu =
        { m.cpu.store index v with
          adc := { m.cpu.adc with sfrWriteDepth := m.cpu.adc.sfrWriteDepth + 1 } } := by
      intro v cycle
      rw [irqWrite_cpu, stored, entered]
      rfl
    have sabs : ∀ v cycle,
        ((sfrWriteEnter m).irqWrite hooks index v cycle).cpu.variant = .sab80535 := by
      intro v cycle
      rw [written]
      exact sab
    simp only [sabs, true_and]
    split
    · simp only [adcRequestStart, mapAdc, mapCpu_cpu, written]
      rfl
    · rw [written]
      rfl

/-- The devices after a transaction has been closed. -/
def Devices.finished (d : Devices) : Devices :=
  if d.variant = .sab80535 then
    let adc := { d.adc with sfrWriteDepth := d.adc.sfrWriteDepth - 1 }
    { d with
      adc := if adc.sfrWriteDepth = 0 ∧ adc.startPending then
          { adc with startPending := false, armed := true }
        else adc
      adcon := if adc.busy then d.adcon ||| Adcon.bsy else d.adcon &&& ~~~Adcon.bsy }
  else d

/-- Finishing a transaction keeps the variant. -/
theorem Devices.finished_variant (d : Devices) : d.finished.variant = d.variant := by
  simp only [Devices.finished]
  split <;> rfl

/-- The devices behind a transaction are those it finishes. -/
theorem adcFinishSfrTransaction_devices (m : Machine ω) :
    (adcFinishSfrTransaction m).cpu.devices = m.cpu.devices.finished := by
  have apart : Reg.sbuf ≠ Reg.adcon := by decide
  -- Another variant has no transactions; the outermost one may start a conversion.
  by_cases sab : m.cpu.variant = .sab80535
  · by_cases last : m.cpu.adc.sfrWriteDepth - 1 = 0 ∧ m.cpu.adc.startPending = true
    · simp [adcFinishSfrTransaction, Devices.finished, Cpu.devices, setBusy, mapAdc,
        Machine.setSfr, Machine.mapCpu, sab, last, Function.update_of_ne apart]
    · simp [adcFinishSfrTransaction, Devices.finished, Cpu.devices, setBusy, mapAdc,
        Machine.setSfr, Machine.mapCpu, sab, last, Function.update_of_ne apart]
  · simp [adcFinishSfrTransaction, Devices.finished, Cpu.devices, sab]

/-- Finishing a transaction does not touch the host. -/
theorem adcFinishSfrTransaction_host (m : Machine ω) :
    (adcFinishSfrTransaction m).host = m.host := by
  simp only [adcFinishSfrTransaction]
  split
  · split <;> rfl
  · rfl

/-- Closing a transaction looks at nothing beside the devices. -/
theorem Beside.finish (beside : Beside deviceView journal m n) :
    Beside deviceView journal (adcFinishSfrTransaction m) (adcFinishSfrTransaction n) where
  -- The devices behind it depend on those before it.
  shown := by
    have closed : (adcFinishSfrTransaction n).cpu.devices =
        (adcFinishSfrTransaction m).cpu.devices := by
      rw [adcFinishSfrTransaction_devices, adcFinishSfrTransaction_devices, beside.devices]
    exact closed
  records := by
    rw [adcFinishSfrTransaction_host, adcFinishSfrTransaction_host]
    exact beside.records
  aborts := by
    simp only [Machine.aborted, adcFinishSfrTransaction_host]
    exact beside.aborts

/-- A write that is not aborted closes what its callback left. -/
theorem sfrWrite_closed (sticky : hooks.Sticky) {index : SfrIndex} {value : Byte}
    (kept : (sfrWrite hooks index value m).aborted hooks = false) :
    (writeCalled hooks index value m).aborted hooks = false ∧
      Beside deviceView journal
        (writeClosed (decide (m.cpu.variant = .sab80535 ∧ index = Reg.sbuf))
          (writeCalled hooks index value m))
        (sfrWrite hooks index value m) := by
  -- Entering keeps the variant, so the same branch is taken behind it.
  have variant : (sfrWriteEnter m).cpu.variant = m.cpu.variant := by
    simp only [sfrWriteEnter]
    split <;> rfl
  by_cases serial : m.cpu.variant = .sab80535 ∧ index = Reg.sbuf
  · obtain ⟨sab, rfl⟩ := serial
    have entered := variant.trans sab
    simp only [Emu80535.sfrWrite, sbufWrite, writeCalled, writeOpened, entered, true_and, if_true]
      at kept ⊢
    -- The states on the way are named: begun, opened, called.
    generalize begun : (sfrWriteEnter m).raw hooks (.accessBegin (sfrWriteEnter m).cpu.machineCycleCount
      (sfrAddress Reg.sbuf) false (m.cpu.storedValue Reg.sbuf value)) = k at kept ⊢
    generalize opened : (uartSbufWrite hooks (m.cpu.storedValue Reg.sbuf value) k).setSfr Reg.sbuf
      (m.cpu.storedValue Reg.sbuf value) = o at kept ⊢
    -- An abort at either test would still be there at the end.
    have uncut : k.aborted hooks = false := by
      cases cut : k.aborted hooks with
      | false => rfl
      | true =>
        rw [if_pos cut] at kept
        exact cut.symm.trans kept
    rw [if_neg (ne_true_of_eq_false uncut)] at kept ⊢
    generalize called : o.sfrCallback hooks Reg.sbuf = c at kept ⊢
    have unended : c.aborted hooks = false := by
      cases cut : c.aborted hooks with
      | false => rfl
      | true =>
        rw [if_pos cut] at kept
        have after := ((Steps.refl c).rawFact (.accessEnd c.cpu.machineCycleCount
          ((sfrWriteEnter m).rawAnswer hooks (.accessBegin (sfrWriteEnter m).cpu.machineCycleCount
            (sfrAddress Reg.sbuf) false (m.cpu.storedValue Reg.sbuf value)))
          (sfrAddress Reg.sbuf) (m.cpu.storedValue Reg.sbuf value))).aborted sticky cut
        exact after.symm.trans kept
    rw [if_neg (ne_true_of_eq_false unended)]
    refine ⟨unended, ?_⟩
    simp only [writeClosed, sab, and_self, decide_true, if_true]
    -- Behind the callback there are reports, the end of the transaction and a fact.
    exact ((Beside.refl _).traceEmit _ _ _).finish.raw _
  · -- The plain write has one test, behind its callback.
    have plain : decide (m.cpu.variant = .sab80535 ∧ index = Reg.sbuf) = false := by simpa using serial
    rw [plain]
    rw [← variant] at serial
    have body : sfrWriteBody hooks index (m.cpu.storedValue index value) (sfrWriteEnter m) =
        writeCalled hooks index value m := by
      simp only [sfrWriteBody, writeCalled, writeOpened, if_neg serial]
    simp only [Emu80535.sfrWrite, if_neg serial, body] at kept ⊢
    generalize writeCalled hooks index value m = c at kept ⊢
    have unended : c.aborted hooks = false := by
      cases cut : c.aborted hooks with
      | false => rfl
      | true =>
        rw [if_pos cut] at kept
        exact cut.symm.trans kept
    rw [if_neg (ne_true_of_eq_false unended)]
    refine ⟨unended, ?_⟩
    -- Sampling a port and arming the hold-off are none of the devices' affairs.
    have sampled : Beside deviceView journal c (sampleWritten hooks index c) := by
      simp only [sampleWritten]
      split
      · exact (Beside.refl c).samplePort _
      · exact Beside.refl c
    -- Nor is the hold-off of interrupts.
    have held : ∀ {k : Machine ω}, Beside deviceView journal c k →
        Beside deviceView journal c (holdOff index k) := by
      intro k before
      simp only [holdOff, armInhibit]
      exact Beside.ite (before.mapCpu rfl) before
    exact (held (sampled.traceEmit _ _ _)).finish

end Write

/-! ### Courses -/

/-- What happens to the serial port and to the converter. -/
inductive DeviceEvent where
  /-- An overflow of Timer 1 reaches the serial port. -/
  | overflow (before after : Cpu)
  /-- A register write begins. -/
  | enter
  /-- A write of SBUF in mode 3 is held for transmission. -/
  | hold (data : Byte) (ninth : Bool)
  /-- A write of DAPR asks for a conversion. -/
  | request
  /-- A register write ends. -/
  | leave
  /-- A machine cycle completes, in which the converter has had its turn. -/
  | turn (before after : Cpu)

/-- The events of the serial port. -/
def DeviceEvent.serial : DeviceEvent → Bool
  | overflow .. | hold .. => true
  | enter | request | leave | turn .. => false

/-- What a register write tells the devices before its callback is run. -/
def Cpu.written (c : Cpu) (index : SfrIndex) (value : Byte) : List DeviceEvent :=
  if c.variant = .sab80535 ∧ index = Reg.dapr then [.request]
  else if index = Reg.sbuf ∧ c.uartMode3 then [.hold value (has (c.sfr Reg.scon) Scon.tb8)]
  else []

/--
A course of device events that is never aborted, with everything between them beside the devices.

The clock moves with the converter's turns only, by one for each. A register write contains the
course of its callback, in which machine cycles may pass like anywhere else.
-/
inductive Course (journal : Option (Journal hooks)) :
    List DeviceEvent → Machine ω → Machine ω → Prop
  | refl (m : Machine ω) : Course journal [] m m
  | beside {log : List DeviceEvent} {m n k : Machine ω} (course : Course journal log m n)
      (rest : Beside deviceView journal n k) : Course journal log m k
  | overflow {log : List DeviceEvent} {m n : Machine ω} (course : Course journal log m n)
      (kept : (uartTimer1Overflow hooks n).aborted hooks = false) :
      Course journal (log ++ [.overflow n.cpu (uartTimer1Overflow hooks n).cpu]) m
        (uartTimer1Overflow hooks n)
  | turn {log : List DeviceEvent} {m n : Machine ω} (course : Course journal log m n) :
      Course journal (log ++ [.turn n.cpu (adcTick hooks n).cpu]) m (adcTick hooks n).clocked
  | inject {log : List DeviceEvent} {m n : Machine ω} (data : Byte) (ninth : Bool)
      (course : Course journal log m n) :
      Course journal log m (injectRxFrame hooks data ninth n).2
  | input {log : List DeviceEvent} {m n : Machine ω} (channel : Nat) (input : Word)
      (course : Course journal log m n) : Course journal log m (adcSetInput channel input n).2
  | write {log inner : List DeviceEvent} {m n c k : Machine ω} (index : SfrIndex) (value : Byte)
      (course : Course journal log m n)
      (callback : Course journal inner (writeOpened hooks index value n) c)
      (closed : Beside deviceView journal
        (writeClosed (decide (n.cpu.variant = .sab80535 ∧ index = Reg.sbuf)) c) k) :
      Course journal (log ++ .enter :: (n.cpu.written index value ++ inner ++ [.leave])) m k

/--
Register write callbacks that work on the CPU through the core's own operations.

Such a callback may change its own state and everything beside the devices, write registers, inject
frames, set converter inputs and run machine cycles, also in the middle of an instruction.
-/
def Hooks.Orderly (hooks : Hooks ω) (journal : Option (Journal hooks)) : Prop :=
  ∀ index callback, hooks.sfrwrite index = some callback → ∀ m : Machine ω,
    (callback m).aborted hooks = false → ∃ log, Course journal log m (callback m)

/-- An embedder without register write callbacks. -/
theorem Hooks.orderly_of_silent (silent : ∀ index, hooks.sfrwrite index = .none)
    (journal : Option (Journal hooks)) : hooks.Orderly journal :=
  fun index _ installed => absurd installed (by rw [silent index]; nofun)

namespace Course

variable {journal : Option (Journal hooks)} {log late : List DeviceEvent} {m n k : Machine ω}

/-- Courses follow each other. -/
theorem trans (first : Course journal log m n) (second : Course journal late n k) :
    Course journal (log ++ late) m k := by
  -- Induction on the second one.
  induction second with
  | refl m => rwa [List.append_nil]
  | beside _ rest ih => exact .beside (ih first) rest
  | overflow _ kept ih =>
    rw [← List.append_assoc]
    exact .overflow (ih first) kept
  | turn _ ih =>
    rw [← List.append_assoc]
    exact .turn (ih first)
  | inject data ninth _ ih => exact .inject data ninth (ih first)
  | input channel input _ ih => exact .input channel input (ih first)
  | write index value _ callback closed ih =>
    rw [← List.append_assoc]
    exact .write index value (ih first) callback closed

/-- A course does not exchange the part. -/
theorem variant (course : Course journal log m n) : n.cpu.variant = m.cpu.variant := by
  -- No event exchanges the variant.
  induction course with
  | refl m => rfl
  | beside _ rest ih => exact (congrArg Devices.variant rest.devices).trans ih
  | @overflow log m n _ kept ih =>
    have change : Within (none : Option (Journal hooks)) serialScope n
        (uartTimer1Overflow hooks n) :=
      (Within.refl n).uartTimer1Overflow rfl (by decide) (by decide) fun _ _ _ _ _ _ _ => rfl
    have same := congrArg Cpu.variant change.rest
    exact Eq.trans same ih
  | @turn log m n _ ih =>
    have same := congrArg Cpu.variant (Within.adcTicks (none : Option (Journal hooks)) n).rest
    exact Eq.trans same ih
  | inject data ninth _ ih =>
    refine Eq.trans ?_ ih
    simp only [injectRxFrame]
    split
    · simp only [emitUart_cpu, raw_cpu]
      rfl
    · rfl
  | input channel input _ ih =>
    refine Eq.trans ?_ ih
    simp only [adcSetInput]
    split <;> rfl
  -- A write opens, calls and closes, each with the variant it found.
  | @write log inner m n c k index value _ _ closing ih ihInner =>
    have closed : ∀ (serial : Bool) (k : Machine ω), (writeClosed serial k).cpu.devices.variant =
        k.cpu.variant := by
      intro serial k
      rw [writeClosed, adcFinishSfrTransaction_devices, Devices.finished_variant]
      cases serial <;> rfl
    have opened : (writeOpened hooks index value n).cpu.variant = n.cpu.variant := by
      have entered : (sfrWriteEnter n).cpu.variant = n.cpu.variant := by
        simp only [sfrWriteEnter]
        split <;> rfl
      have held : ∀ (v : Byte) (k : Machine ω),
          (uartSbufWrite hooks v k).cpu.variant = k.cpu.variant := by
        intro v k
        simp only [uartSbufWrite]
        split
        · rw [raw_cpu]
          rfl
        · rfl
      have written : ∀ (v : Byte) (cycle : Nat) (k : Machine ω),
          (k.irqWrite hooks index v cycle).cpu.variant = k.cpu.variant := by
        intro v cycle k
        rw [irqWrite_cpu]
        rfl
      simp only [writeOpened]
      split
      · refine (held _ _).trans ?_
        rw [raw_cpu]
        exact entered
      · split
        · exact (written _ _ _).trans entered
        · exact (written _ _ _).trans entered
    have ends := congrArg Devices.variant closing.devices
    exact (((Eq.trans ends (closed _ _)).trans ihInner).trans opened).trans ih

end Course

/-! ### The serial port in a course -/

/-- A frame held for transmission. -/
def UartState.held (u : UartState) (data : Byte) (ninth : Bool) : UartState :=
  { u with txPendingData := data, txPendingNinth := ninth, txPending := true }

/-- Closing a register write leaves the serial port alone. -/
theorem writeClosed_uart (serial : Bool) (m : Machine ω) :
    (writeClosed serial m).cpu.devices.uart = m.cpu.uart := by
  have inner : ∀ d : Devices, d.finished.uart = d.uart := by
    intro d
    simp only [Devices.finished]
    split <;> rfl
  rw [writeClosed, adcFinishSfrTransaction_devices, inner]
  cases serial <;> rfl

/--
What a monitor needs to follow the serial port of the Siemens CPU through a course.

Only overflows, held frames and injections reach the port.
-/
structure FollowsSerial {σ : Type} (hooks : Hooks ω) (μ : Monitor σ DeviceEvent)
    (allowed : DeviceEvent → Prop) (P : σ → UartState → Prop) : Prop where
  apart : ∀ s e, e.serial = false → μ.permits s e ∧ μ.next s e = s
  hold : ∀ s data ninth u, P s u →
    μ.permits s (.hold data ninth) ∧ P (μ.next s (.hold data ninth)) (u.held data ninth)
  inject : ∀ s data ninth (m : Machine ω), P s m.cpu.uart →
    P s (injectRxFrame hooks data ninth m).2.cpu.uart
  overflow : ∀ s (c : Cpu), c.variant = .sab80535 → allowed (.overflow c c.serialClock) →
    P s c.uart → μ.permits s (.overflow c c.serialClock) ∧
      P (μ.next s (.overflow c c.serialClock)) c.serialClock.uart

/-- Events of other devices pass unnoticed. -/
theorem FollowsSerial.passes {σ : Type} {μ : Monitor σ DeviceEvent} {allowed : DeviceEvent → Prop}
    {P : σ → UartState → Prop} (follows : FollowsSerial hooks μ allowed P) (s : σ)
    {e : DeviceEvent} (other : e.serial = false) (rest : List DeviceEvent) :
    (μ.Accepts s (e :: rest) ↔ μ.Accepts s rest) ∧ μ.after s (e :: rest) = μ.after s rest := by
  obtain ⟨permitted, next⟩ := follows.apart s e other
  simp only [Monitor.Accepts, Monitor.after_cons, next, permitted, true_and]

/-- Opening a register write tells the serial port of a byte to hold, if of anything. -/
theorem FollowsSerial.opened {σ : Type} {μ : Monitor σ DeviceEvent} {allowed : DeviceEvent → Prop}
    {P : σ → UartState → Prop} (follows : FollowsSerial hooks μ allowed P) {c : Cpu}
    (sab : c.variant = .sab80535) (index : SfrIndex) (value : Byte) {s : σ} (before : P s c.uart) :
    μ.Accepts s (c.written index value) ∧
      P (μ.after s (c.written index value)) (c.opened index value).uart := by
  -- DAPR requests, SBUF in mode 3 holds, and the others tell nothing.
  simp only [Cpu.written, sab, true_and, Cpu.opened]
  by_cases dapr : index = Reg.dapr
  · have other : ¬ (index = Reg.sbuf ∧ c.uartMode3 = true) := by
      rw [dapr]
      exact fun both => absurd both.1 (by decide)
    rw [if_pos dapr, if_neg other]
    -- A request is the converter's affair.
    obtain ⟨passes, same⟩ := follows.passes s (e := .request) rfl []
    rw [same]
    exact ⟨passes.mpr trivial, before⟩
  · rw [if_neg dapr]
    by_cases serial : index = Reg.sbuf ∧ c.uartMode3 = true
    · rw [if_pos serial, if_pos serial]
      -- The byte is held with the ninth bit from SCON.
      obtain ⟨permitted, next⟩ := follows.hold _ value (has (c.sfr Reg.scon) Scon.tb8) _ before
      exact ⟨⟨permitted, trivial⟩, next⟩
    · rw [if_neg serial, if_neg serial]
      exact ⟨trivial, before⟩

/-- A monitor that follows the serial port accepts every course. -/
theorem FollowsSerial.course {σ : Type} {μ : Monitor σ DeviceEvent}
    {allowed : DeviceEvent → Prop} {P : σ → UartState → Prop}
    (follows : FollowsSerial hooks μ allowed P) {journal : Option (Journal hooks)}
    {log : List DeviceEvent} {m n : Machine ω} (course : Course journal log m n)
    (sab : m.cpu.variant = .sab80535) :
    ∀ s, (∀ e ∈ log, allowed e) → P s m.cpu.uart →
      μ.Accepts s log ∧ P (μ.after s log) n.cpu.uart := by
  -- The induction is on the course; a write contains the course of its callback.
  induction course with
  | refl m => exact fun s _ before => ⟨trivial, before⟩
  | @beside log m n k _ rest ih =>
    intro s steady before
    have same : k.cpu.uart = n.cpu.uart := congrArg Devices.uart rest.devices
    rw [same]
    exact ih sab s steady before
  | @overflow log m n earlier kept ih =>
    intro s steady before
    obtain ⟨accepts, after⟩ := ih sab s (fun e member => steady e (List.mem_append_left _ member))
      before
    have closed := uartTimer1Overflow_cpu kept
    have last := steady _ (List.mem_append_right _ (List.mem_singleton_self _))
    rw [closed] at last ⊢
    obtain ⟨permitted, next⟩ := follows.overflow _ n.cpu (earlier.variant.trans sab) last after
    refine ⟨(μ.accepts_concat ..).mpr ⟨accepts, permitted⟩, ?_⟩
    rw [μ.after_append]
    exact next
  | @turn log m n _ ih =>
    intro s steady before
    obtain ⟨accepts, after⟩ := ih sab s (fun e member => steady e (List.mem_append_left _ member))
      before
    obtain ⟨permitted, next⟩ := follows.apart (μ.after s log) (.turn n.cpu (adcTick hooks n).cpu) rfl
    have same : (adcTick hooks n).clocked.cpu.uart = n.cpu.uart :=
      (Within.adcTicks (none : Option (Journal hooks)) n).uart rfl
    refine ⟨(μ.accepts_concat ..).mpr ⟨accepts, permitted⟩, ?_⟩
    rw [μ.after_append, same]
    simp only [Monitor.after_cons, Monitor.after_nil, next]
    exact after
  | inject data ninth _ ih =>
    intro s steady before
    obtain ⟨accepts, after⟩ := ih sab s steady before
    exact ⟨accepts, follows.inject _ data ninth _ after⟩
  | @input log m n channel input _ ih =>
    intro s steady before
    obtain ⟨accepts, after⟩ := ih sab s steady before
    have same : (adcSetInput channel input n).2.cpu.uart = n.cpu.uart := by
      simp only [adcSetInput]
      split <;> rfl
    rw [same]
    exact ⟨accepts, after⟩
  | @write log inner m n c k index value earlier _ closing ih ihInner =>
    intro s steady before
    obtain ⟨accepts, after⟩ := ih sab s (fun e member => steady e (List.mem_append_left _ member))
      before
    have here : n.cpu.variant = .sab80535 := earlier.variant.trans sab
    have opening := @writeOpened_cpu ω hooks n here index value
    obtain ⟨starts, opened⟩ := follows.opened here index value after
    have sabs : (writeOpened hooks index value n).cpu.variant = .sab80535 := by
      rw [opening]
      exact here
    have member : ∀ e ∈ inner, e ∈ log ++ .enter :: (n.cpu.written index value ++ inner ++ [.leave]) :=
      fun e member => by simp [member]
    obtain ⟨inside, called⟩ := ihInner sabs _ (fun e within => steady e (member e within))
      (by rw [opening]; exact opened)
    have same : k.cpu.uart = c.cpu.uart :=
      Eq.trans (congrArg Devices.uart closing.devices) (writeClosed_uart _ _)
    -- What opens and closes the write is none of the serial port's affair.
    obtain ⟨enters, entered⟩ := follows.passes (μ.after s log) (e := .enter) rfl
      (n.cpu.written index value ++ inner ++ [.leave])
    obtain ⟨leaves, left⟩ := follows.passes
      (μ.after (μ.after (μ.after s log) (n.cpu.written index value)) inner) (e := .leave) rfl []
    refine ⟨?_, ?_⟩
    · rw [μ.accepts_append, enters, μ.accepts_append, μ.accepts_append, μ.after_append]
      exact ⟨accepts, ⟨starts, inside⟩, leaves.mpr trivial⟩
    · rw [μ.after_append, entered, μ.after_append, μ.after_append, left, same]
      exact called

/-! ### Every operation is a course -/

/-- One machine follows another in a course, unless execution was aborted on the way. -/
structure Plays (journal : Option (Journal hooks)) (m n : Machine ω) : Prop where
  aborts : m.aborted hooks = true → n.aborted hooks = true
  course : n.aborted hooks = false → ∃ log, Course journal log m n

namespace Plays

variable {journal : Option (Journal hooks)} {m n k : Machine ω}

/-- A machine that does nothing is a course. -/
theorem refl (m : Machine ω) : Plays journal m m :=
  ⟨id, fun _ => ⟨[], .refl m⟩⟩

/-- What is not aborted at the end was not aborted before. -/
theorem unaborted (plays : Plays journal m n) (kept : n.aborted hooks = false) :
    m.aborted hooks = false := by
  cases before : m.aborted hooks with
  | false => rfl
  | true => exact (plays.aborts before).symm.trans kept

/-- What plays in turn plays as a whole. -/
theorem trans (first : Plays journal m n) (second : Plays journal n k) :
    Plays journal m k where
  aborts := fun aborted => second.aborts (first.aborts aborted)
  course := by
    intro kept
    obtain ⟨log, early⟩ := first.course (second.unaborted kept)
    obtain ⟨late, later⟩ := second.course kept
    exact ⟨log ++ late, early.trans later⟩

/-- A branch of two continuations is one of them. -/
theorem ite {p : Prop} [Decidable p] {x y : Machine ω} (yes : Plays journal m x)
    (no : Plays journal m y) : Plays journal m (if p then x else y) := by
  split
  · exact yes
  · exact no

/-- Both branches play, whichever is taken. -/
theorem ite_snd {α : Type} {p : Prop} [Decidable p] {x y : α × Machine ω}
    (yes : Plays journal m x.2) (no : Plays journal m y.2) :
    Plays journal m (if p then x else y).2 := by
  split
  · exact yes
  · exact no

section Rules

variable (sticky : hooks.Sticky) (plays : Plays journal m n)

include sticky plays

/-- A sequence of steps that is one step of a course, unless it is aborted. -/
theorem andThen (steps : Steps hooks AnyChange n k)
    (course : n.aborted hooks = false → k.aborted hooks = false →
      ∃ log, Course journal log n k) : Plays journal m k :=
  plays.trans ⟨fun aborted => steps.aborted sticky aborted,
    fun kept => course (steps.unaborted sticky kept) kept⟩

/-- What the devices do not notice plays. -/
theorem beside (rest : Beside deviceView journal n k) : Plays journal m k :=
  plays.trans ⟨fun aborted => rest.aborts sticky aborted,
    fun _ => ⟨[], .beside (.refl n) rest⟩⟩

/-- An injected byte plays. -/
theorem inject (data : Byte) (ninth : Bool) :
    Plays journal m (injectRxFrame hooks data ninth n).2 :=
  plays.andThen sticky ((Steps.refl n).injectRxFrame data ninth).weaken
    fun _ _ => ⟨[], .inject data ninth (.refl n)⟩

omit sticky in
/-- So does a new input of the converter. -/
theorem input (channel : Nat) (input : Word) :
    Plays journal m (adcSetInput channel input n).2 := by
  refine plays.trans ⟨fun aborted => ?_, fun _ => ⟨[], .input channel input (.refl n)⟩⟩
  simp only [adcSetInput]
  split
  · exact aborted
  · exact aborted

/-- A write of a register, whose callback is a course of its own. -/
theorem write (orderly : hooks.Orderly journal) (index : SfrIndex) (value : Byte) :
    Plays journal m (sfrWrite hooks index value n) := by
  -- The write is no abort, so its callback returned.
  refine plays.andThen sticky ((Steps.refl n).sfrWrite index value).weaken fun _ kept => ?_
  obtain ⟨called, closed⟩ := @sfrWrite_closed ω hooks journal n sticky index value kept
  -- The callback is orderly, and without one nothing happens between opening and closing.
  have callback : ∃ inner, Course journal inner (writeOpened hooks index value n)
      (writeCalled hooks index value n) := by
    simp only [writeCalled, Machine.sfrCallback] at called ⊢
    split
    · rename_i callback installed
      rw [installed] at called
      exact orderly index callback installed _ called
    · exact ⟨[], .refl _⟩
  obtain ⟨inner, course⟩ := callback
  exact ⟨_, .write index value (.refl n) course closed⟩

/-- The body of an opcode. -/
theorem opTable (orderly : hooks.Orderly journal) (opcode : Byte) :
    Plays journal m ((opTable opcode).run hooks n).2 := by
  -- A body without register writes is beside the devices.
  refine Beside.run_only (fun k l before => before.beside sticky) (fun e permitted k before => ?_)
    (opTable_lawful opcode).only n plays
  -- Each write of the body is an event of its own.
  by_cases writes : ∃ index value, e = .sfrWrite index value
  · obtain ⟨index, value, rfl⟩ := writes
    exact before.write sticky orderly index value
  · refine before.beside sticky ((Beside.refl k).effect e ?_ ?_)
    · exact fun index value same => writes ⟨index, value, same⟩
    · rintro record rfl
      cases record with
      | movx => rfl
      | _ => exact absurd permitted Bool.false_ne_true

end Rules

/-! ### Machine cycles -/

section Cycles

variable (sticky : hooks.Sticky) (plays : Plays journal m n)

include sticky plays

/-- An overflow of Timer 1 plays. -/
theorem overflow : Plays journal m (uartTimer1Overflow hooks n) :=
  plays.andThen sticky (Steps.refl n).uartTimer1Overflow.weaken
    fun _ kept => ⟨_, .overflow (.refl n) kept⟩

/-- A change within a scope that holds nothing of the devices. -/
theorem within {scope : Scope} (change : Within journal scope n k)
    (steps : Steps hooks AnyChange n k) (still : k.cpu.stable = n.cpu.stable)
    (uart : scope.uart = false) (adc : scope.adc = false) (sbuf : Reg.sbuf ∉ scope.regs)
    (adcon : Reg.adcon ∉ scope.regs)
    (emits : ∀ record, scope.emits record = true → record.ofDevice = false) :
    Plays journal m k :=
  plays.beside sticky (.of_within change steps (clock_of_stable still) uart adc sbuf adcon emits)

/-- The ticks of Timer 0 play. -/
theorem timer0Ticks :
    Plays journal m (timer0Tick hooks (timer0SplitTick hooks n)) :=
  plays.within sticky (Within.timer0Ticks journal n)
    (Steps.refl n).timer0SplitTick.timer0Tick.weaken
    (Moves.refl n.cpu).timer0SplitTick.timer0Tick.stable rfl rfl (by decide) (by decide)
    fun record known => by cases record <;> first | rfl | exact absurd known Bool.false_ne_true

/-- Those of Timer 2 play. -/
theorem timer2Tick : Plays journal m (timer2Tick hooks n) :=
  plays.within sticky (Within.timer2Ticks journal n) (Steps.refl n).timer2Tick.weaken
    (Moves.refl n.cpu).timer2Tick.stable rfl rfl (by decide) (by decide)
    fun record known => by cases record <;> first | rfl | exact absurd known Bool.false_ne_true

/-- A wrap of Timer 1 clocks the serial port of the Siemens CPU. -/
theorem timerOverflowEmit : Plays journal m (timerOverflowEmit hooks .timer1 n) := by
  have counted : Plays journal m (n.mapCpu fun c =>
      { c with timerOverflowCount :=
          Function.update c.timerOverflowCount .timer1 (c.timerOverflowCount .timer1 + 1) }) :=
    plays.beside sticky ((Beside.refl n).cpu rfl rfl)
  have clocked := ite (p := TimerId.timer1 = .timer1 ∧ n.cpu.variant = .sab80535)
    (counted.overflow sticky) counted
  exact ite clocked (clocked.beside sticky ((Beside.refl _).emit rfl))

/-- Those of Timer 1 play, with the overflow they may have. -/
theorem timer1Tick : Plays journal m (timer1Tick hooks n) := by
  simp only [Emu80535.timer1Tick]
  split
  · rename_i runs
    -- In mode 2 a wrap is an overflow; elsewhere the tick is within its registers.
    have counted : Plays journal m (timer1Count hooks n) := by
      rcases timer1Count_cases hooks n runs with ⟨-, same⟩ | ⟨-, change⟩
      · rw [same]
        refine timerOverflowEmit sticky (plays.beside sticky ?_)
        exact (((Beside.refl n).storeOther _ (by decide) (by decide)).storeOther _ (by decide)
          (by decide)).irqWrite _ _ (by decide) (by decide)
      · exact plays.within sticky (change journal) (Steps.refl n).timer1Count.weaken
          (Moves.refl n.cpu).timer1Count.stable rfl rfl (by decide) (by decide)
          fun _ known => absurd known Bool.false_ne_true
    -- The serial port of the other variant is no device here.
    have serial : Within journal timer1Scope (timer1Count hooks n)
        (classicSerial (timer1Count hooks n)) :=
      (Within.refl _).classicSerial (by decide) (by decide) (by decide)
    refine counted.within sticky serial ?_ (Moves.refl _).classicSerial.stable rfl rfl (by decide)
      (by decide) fun _ known => absurd known Bool.false_ne_true
    simp only [classicSerial]
    exact Steps.ite ((Steps.refl _).serialTx.clearFlags _ _).weaken (.refl _)
  · exact plays

/-- The serial port and the converter get their turns in every machine cycle that completes. -/
theorem advanceMachineCycle : Plays journal m (advanceMachineCycle hooks n) := by
  refine plays.andThen sticky (Steps.refl n).advanceMachineCycle fun _ kept => ?_
  have whole := advanceMachineCycle_whole kept
  have begun : Plays journal n (n.raw hooks (.cycleBegin (n.cpu.machineCycleCount + 1))) :=
    (refl n).beside sticky ((Beside.refl n).raw _)
  obtain ⟨log, course⟩ :=
    (((begun.timer0Ticks sticky).timer1Tick sticky).timer2Tick sticky).course whole.timer2
  rw [whole.ends]
  exact ⟨_, .beside (.turn course) (.completes _)⟩

variable (orderly : hooks.Orderly journal)

include orderly

/-- An instruction plays. -/
theorem executeInstruction : Plays journal m (executeInstruction hooks n).2 := by
  -- Fetching is beside the devices, the body is a course.
  have begun := plays.beside sticky (Beside.refl n).beginInstruction
  have ran : Plays journal m
      (runInstruction hooks n.cpu.opcode (beginInstruction hooks n)) :=
    (begun.opTable sticky orderly n.cpu.opcode).beside sticky
      (((Beside.refl _).mapCpu rfl).raw _)
  exact ite_snd (begun.beside sticky ((Beside.refl _).cpu rfl rfl))
    (ite_snd ran (ran.beside sticky ((Beside.refl _).cpu rfl rfl)))

/-- A tick that starts an instruction plays. -/
theorem tickBody : Plays journal m (tickBody hooks n).2 := by
  have ran := plays.executeInstruction sticky orderly
  have parity : ∀ {k : Machine ω}, Plays journal m k →
      Plays journal m (Emu80535.advanceMachineCycle hooks (updateParity k)) :=
    fun before => (before.beside sticky (Beside.refl _).updateParity).advanceMachineCycle sticky
  simp only [Emu80535.tickBody]
  exact ite_snd (ite_snd (parity plays) (ite_snd (parity ran) ran))
    (plays.advanceMachineCycle sticky)

/-- A tick is a course of device events. -/
theorem tick : Plays journal m (tick hooks n).2 := by
  have handled := plays.beside sticky (Beside.refl n).handleInterrupts
  have pending : Plays journal m
      (n.mapCpu fun c => { c with tickDelay := c.tickDelay - 1 }) :=
    plays.beside sticky ((Beside.refl n).mapCpu rfl)
  simp only [Emu80535.tick]
  refine ite_snd plays (ite_snd (pending.advanceMachineCycle sticky) (ite_snd plays ?_))
  exact ite_snd (handled.advanceMachineCycle sticky)
    (ite_snd handled (handled.tickBody sticky orderly))

end Cycles

/-! ### Host calls and runs -/

section Calls

variable (sticky : hooks.Sticky) (plays : Plays journal m n)

include sticky plays

/-- Driving a port plays. -/
theorem redrive (port : SabPort) (mask levels : Byte) :
    Plays journal m (redrive hooks port mask levels n) := by
  refine Plays.beside sticky plays (Beside.samplePort ?_ port)
  exact (Beside.refl n).mapCpu rfl

/-- So does the call that drives one. -/
theorem portDrive (index : SfrIndex) (mask levels : Byte) :
    Plays journal m (portDrive hooks index mask levels n).2 := by
  simp only [Emu80535.portDrive]
  split
  · exact plays
  · exact plays.redrive sticky _ _ _

/-- And the one that releases it. -/
theorem portRelease (index : SfrIndex) (mask : Byte) :
    Plays journal m (portRelease hooks index mask n).2 := by
  simp only [Emu80535.portRelease]
  split
  · exact plays
  · exact plays.redrive sticky _ _ _

/-- And driving a single line. -/
theorem externalDrive (source : Nat) (level : Bool) :
    Plays journal m (externalDrive hooks source level n).2 := by
  simp only [Emu80535.externalDrive]
  split
  · exact plays
  · exact plays.portDrive sticky _ _ _

/-- And releasing it. -/
theorem externalRelease (source : Nat) :
    Plays journal m (externalRelease hooks source n).2 := by
  simp only [Emu80535.externalRelease]
  split
  · exact plays
  · exact plays.portRelease sticky _ _

/-- Scheduling plays, applied at once or not. -/
theorem schedule (event : ScheduleEvent) :
    Plays journal m (schedule hooks event n).2 := by
  simp only [Emu80535.schedule]
  refine ite_snd plays (ite_snd ?_ (ite_snd plays (ite_snd plays ?_)))
  · simp only [applyEvent]
    exact ite_snd (plays.externalDrive sticky _ _) (plays.externalRelease sticky _)
  · exact plays.beside sticky ((Beside.refl n).cpu rfl rfl)

/-- Requesting an interrupt plays. -/
theorem setPending (source : Nat) (pending : Bool) :
    Plays journal m (setPending hooks source pending n).2 := by
  -- The registers of requests are none of the devices'.
  have apart : ∀ s : IrqSource, Reg.sbuf ≠ s.requestReg ∧ Reg.adcon ≠ s.requestReg := by
    intro s
    cases s <;> decide
  simp only [Emu80535.setPending]
  split
  · exact plays
  · rename_i s _
    refine ite_snd (plays.beside sticky (Beside.emitIrq (Beside.irqSync (Beside.ite ?_ ?_)) _ _ _ _ _))
      plays
    · exact (Beside.refl n).irqWrite _ _ (apart s).1 (apart s).2
    · exact (Beside.refl n).storeOther _ (apart s).1 (apart s).2

/-- A host call that is no reset is a course of device events. -/
theorem hostCall (orderly : hooks.Orderly journal) (call : HostCall)
    (other : ∀ wipe rand, call ≠ .reset wipe rand) :
    Plays journal m (call.run hooks n).2 := by
  -- Each call, with the devices it can reach.
  cases call with
  | reset wipe rand => exact absurd rfl (other wipe rand)
  | setResetSeed _ | setBreakpoint _ _ | loadCode _ =>
    exact plays.beside sticky ((Beside.refl n).cpu rfl rfl)
  | setPending source pending => exact plays.setPending sticky source pending
  | portDrive _ _ _ => exact ite_snd plays (plays.portDrive sticky _ _ _)
  | portRelease _ _ => exact ite_snd plays (plays.portRelease sticky _ _)
  | externalDrive source level => exact plays.externalDrive sticky source level
  | externalRelease source => exact plays.externalRelease sticky source
  | schedule event => exact plays.schedule sticky event
  | clearSchedule => exact ite (plays.beside sticky ((Beside.refl n).cpu rfl rfl)) plays
  | injectRxFrame data ninth => exact plays.inject sticky data ninth
  | adcSetInput channel input => exact plays.input channel input
  | sfrRead _ => exact ite_snd plays (plays.beside sticky ((Beside.refl n).sfrRead _))
  | sfrWrite _ value => exact ite_snd plays (plays.write sticky orderly _ value)

end Calls

end Plays

/--
Actions of a run without a reset.

What the embedder does to its own state neither withdraws an abort nor rewrites its journal.
-/
def Action.Plain (hooks : Hooks ω) (journal : Option (Journal hooks)) : Action ω → Prop
  | tick => True
  | call c => ∀ wipe rand, c ≠ .reset wipe rand
  | own update => ∀ h, (hooks.aborted h = true → hooks.aborted (update h) = true) ∧
      ∀ j, journal = some j → j.read (update h) = j.read h

/-- The ticks and the host calls that are no reset. -/
def Action.plain : Action ω → Bool
  | tick => true
  | call (.reset _ _) => false
  | call _ => true
  | own _ => false

/-- They are plain for every embedder. -/
theorem Action.plain_of_all {actions : List (Action ω)} (all : actions.all Action.plain = true)
    {journal : Option (Journal hooks)} : ∀ action ∈ actions, action.Plain hooks journal := by
  -- A host call is plain as it stands, a change by the embedder is not.
  intro action member
  have known := List.all_eq_true.mp all action member
  cases action with
  | tick => trivial
  | call call =>
    rintro wipe rand rfl
    exact absurd known Bool.false_ne_true
  | own update => exact absurd known Bool.false_ne_true

/-- They lead from supervised states to supervised states. -/
theorem Supervised.run {actions : List (Action ω)} (all : actions.all Action.plain = true)
    {m : Machine ω} (supervised : Supervised hooks m) :
    Supervised hooks (runActions hooks actions m) := by
  refine Fold.foldl_keeps (I := fun n => Supervised hooks n) (fun action member n before => ?_)
    supervised
  -- Ticks and calls keep a supervised run going.
  have known := List.all_eq_true.mp all action member
  cases action with
  | tick => exact .tick before
  | call call => exact .call call before
  | own update => exact absurd known Bool.false_ne_true

/-- A run without a reset is a course of device events. -/
theorem runActions_plays {journal : Option (Journal hooks)} (sticky : hooks.Sticky)
    (orderly : hooks.Orderly journal) (actions : List (Action ω))
    (plain : ∀ action ∈ actions, action.Plain hooks journal) (m : Machine ω) :
    Plays journal m (runActions hooks actions m) := by
  -- The actions one after the other.
  refine Fold.foldl_keeps (I := fun n => Plays journal m n) (fun action member n before => ?_)
    (Plays.refl m)
  have allowed := plain action member
  cases action with
  | tick => exact before.tick sticky orderly
  | call call => exact before.hostCall sticky orderly call allowed
  -- An action of the embedder leaves the CPU.
  | own update =>
    refine before.beside sticky ((Beside.refl n).callback ?_ ?_)
    · exact (allowed n.host).2
    · exact fun _ => (allowed n.host).1

/-- A reset does not exchange the part. -/
theorem Cpu.reset_variant (c : Cpu) (wipe : Bool) (rand : Byte) :
    (c.reset wipe rand).variant = c.variant := by
  simp only [Cpu.reset, Cpu.wipeMemory]
  cases wipe <;> simp only [Bool.false_eq_true, if_false, if_true] <;> split <;> rfl

/-- What resets establish and courses keep holds of every supervised state that is not aborted. -/
theorem Supervised.of_courses {I : Cpu → Prop} (sticky : hooks.Sticky)
    (orderly : hooks.Orderly none) (reset : ∀ m : Machine ω, m.IsReset → I m.cpu)
    (course : ∀ (m n : Machine ω) log, Course (none : Option (Journal hooks)) log m n →
      m.cpu.variant = .sab80535 → I m.cpu → I n.cpu)
    {m : Machine ω} (supervised : Supervised hooks m) (kept : m.aborted hooks = false)
    (sab : m.cpu.variant = .sab80535) : I m.cpu := by
  -- One operation is a course from a state the induction speaks of.
  have played : ∀ {m n : Machine ω}, Plays (none : Option (Journal hooks)) m n →
      n.aborted hooks = false → n.cpu.variant = .sab80535 →
      (m.aborted hooks = false → m.cpu.variant = .sab80535 → I m.cpu) → I n.cpu := by
    intro m n plays kept sab before
    obtain ⟨log, played⟩ := plays.course kept
    have sabs := played.variant.symm.trans sab
    exact course m n log played sabs (before (plays.unaborted kept) sabs)
  induction supervised with
  | reset fresh => exact reset _ fresh
  | tick _ ih => exact played ((Plays.refl _).tick sticky orderly) kept sab ih
  | @call m call _ ih =>
    by_cases resets : ∃ wipe rand, call = .reset wipe rand
    · obtain ⟨wipe, rand, rfl⟩ := resets
      have before : m.cpu.variant = .sab80535 := (m.cpu.reset_variant wipe rand).symm.trans sab
      exact reset _ ⟨m.cpu, wipe, rand, _, _, before, rfl⟩
    · have other : ∀ wipe rand, call ≠ .reset wipe rand :=
        fun wipe rand same => resets ⟨wipe, rand, same⟩
      exact played ((Plays.refl _).hostCall sticky orderly call other) kept sab ih
  | @own m update _ withdrawn ih =>
    refine ih ?_ sab
    cases before : m.aborted hooks with
    | false => rfl
    | true => exact (withdrawn before).symm.trans kept

/-! ### Callbacks that run the core -/

/-- The same embedder with other register write callbacks. -/
def Hooks.withWrites (hooks : Hooks ω) (callbacks : SfrIndex → Option (Machine ω → Machine ω)) :
    Hooks ω :=
  { hooks with sfrwrite := callbacks }

/--
Register write callbacks that do what a host could do, machine cycles included.

Their own register writes reach the callbacks of the embedder they are added to, one level deeper.
-/
def Hooks.Nests (hooks : Hooks ω) (callbacks : SfrIndex → Option (Machine ω → Machine ω)) : Prop :=
  ∀ index callback, callbacks index = some callback → ∀ m : Machine ω,
    ∃ actions : List (Action ω), (∀ action ∈ actions, action.Plain hooks Option.none) ∧
      callback m = runActions hooks actions m

/-- A callback of one register that runs a list of actions. -/
def runsAt (hooks : Hooks ω) (register : SfrIndex) (actions : List (Action ω)) (index : SfrIndex) :
    Option (Machine ω → Machine ω) :=
  if index = register then some (runActions hooks actions) else none

/-- It does what a host could do, if the actions are ticks and host calls other than a reset. -/
theorem nests_runsAt {register : SfrIndex} {actions : List (Action ω)}
    (all : actions.all Action.plain = true) : hooks.Nests (runsAt hooks register actions) := by
  intro index callback installed m
  refine ⟨actions, Action.plain_of_all all, ?_⟩
  simp only [runsAt] at installed
  split at installed
  · rw [← Option.some.inj installed]
  · exact absurd installed (Option.some_ne_none _).symm

section Nests

variable {callbacks : SfrIndex → Option (Machine ω → Machine ω)} {m n : Machine ω}

/-- What happens beside the devices does so whichever register write callbacks are installed. -/
theorem Beside.withWrites (sticky : hooks.Sticky)
    (beside : Beside deviceView (none : Option (Journal hooks)) m n) :
    Beside deviceView (none : Option (Journal (hooks.withWrites callbacks))) m n where
  shown := beside.shown
  records := fun _ kept => absurd kept (Option.some_ne_none _).symm
  aborts := fun _ aborted => beside.aborts sticky aborted

/-- A course of one embedder is a course of the other, since its events call no such callback. -/
theorem Course.withWrites {log : List DeviceEvent} (sticky : hooks.Sticky)
    (course : Course (none : Option (Journal hooks)) log m n) :
    Course (none : Option (Journal (hooks.withWrites callbacks))) log m n := by
  -- Induction on the course; none of its events asks for the exchanged callbacks.
  induction course with
  | refl m => exact .refl m
  | beside _ rest ih => exact .beside ih (rest.withWrites sticky)
  | overflow _ kept ih => exact .overflow ih kept
  | turn _ ih => exact .turn ih
  | inject data ninth _ ih => exact .inject data ninth ih
  | input channel input _ ih => exact .input channel input ih
  | write index value _ _ closed ih ihInner =>
    exact .write index value ih ihInner (closed.withWrites sticky)

variable (sticky : hooks.Sticky) (orderly : hooks.Orderly Option.none)
  (nests : hooks.Nests callbacks)

include sticky orderly nests

/-- Callbacks that run the core do not withdraw an abort. -/
theorem Hooks.sticky_of_nests : (hooks.withWrites callbacks).Sticky where
  except := sticky.except
  sfrread := sticky.sfrread
  sfrwrite := by
    intro index callback installed m aborted
    -- A callback that runs the core is a run, and no run withdraws an abort.
    obtain ⟨actions, plain, same⟩ := nests index callback installed m
    rw [same]
    exact (runActions_plays sticky orderly actions plain m).aborts aborted
  xread := sticky.xread
  xwrite := sticky.xwrite
  emit := sticky.emit
  fact := sticky.fact

/-- They are orderly, since every run is a course. -/
theorem Hooks.orderly_of_nests : (hooks.withWrites callbacks).Orderly Option.none := by
  intro index callback installed m kept
  obtain ⟨actions, plain, same⟩ := nests index callback installed m
  rw [same] at kept ⊢
  obtain ⟨log, course⟩ := (runActions_plays sticky orderly actions plain m).course kept
  exact ⟨log, course.withWrites sticky⟩

end Nests

end Emu80535
