import Emu80535.Core.Host
import Emu80535.Trace.Record

/-! The observer inside the CPU facade, which makes observations of the core's raw facts. -/

namespace Emu80535

/-- `UINT64_MAX`, where counters of identities are exhausted. -/
def u64Max : Nat := 2 ^ 64 - 1

/-! ### State -/

/-- `struct observed_frame`. -/
structure ObservedFrame where
  id : Nat
  parent : Nat
  returnPc : Word
  sp : Byte
  kind : FrameKind
  irqSource : Nat
  deriving DecidableEq, Repr

/-- `struct observed_uart`, which is empty while it has no id. -/
structure ObservedUart where
  id : Nat := 0
  parent : Nat := 0
  order : Nat := 0
  scheduled : Nat := 0
  start : Nat := 0
  instruction : Nat := 0
  access : Nat := 0
  value : Word := 0#16
  deriving DecidableEq, Repr

/-- `struct cpu_observation_state`. -/
structure ObservationState where
  bound : Bool := false
  generation : Nat := 0
  sequence : Nat := 0
  nextInstruction : Nat := 0
  nextAccess : Nat := 0
  nextContext : Nat := 0
  nextFrame : Nat := 0
  retired : Nat := 0
  instruction : Nat := 0
  begin : Nat := 0
  deliveryParent : Nat := 0
  deliveryOrder : Nat := 0
  deliveryCycle : Nat := 0
  currentAccess : Nat := 0
  attemptedCycle : Nat := 0
  unboundCycle : Nat := 0
  unboundInstructions : Nat := 0
  accessOldKnown : Bool := false
  accessOld : Byte := 0#8
  accessKind : Byte := 0#8
  accessSpace : Space := .code
  accessAddress : Word := 0#16
  pc : Word := 0#16
  nextPc : Word := 0#16
  /-- `bytes` and `byte_mask`: what has been fetched of an instruction, by offset. -/
  bytes : Nat → Option Byte := fun _ => none
  irqDepth : Nat := 0
  pending : Bool := false
  opcodeDone : Bool := false
  closing : Bool := false
  faultEmitted : Bool := false
  unknownBase : Bool := false
  /-- `frames` and `depth`, innermost frame first. -/
  frames : List ObservedFrame := []
  rx : ObservedUart := {}
  tx : ObservedUart := {}
  hold : ObservedUart := {}

/-- The frames the facade can represent at once. -/
abbrev observedDepth : Nat := 64

/-- `struct emuif_cpu` beside its core, without the decode cache and the mark of a busy facade. -/
structure Facade (β : Type) where
  observation : ObservationState := {}
  sequence : Nat := 0
  inputOrder : Nat := 0
  inputCycle : Nat := 0
  inputMaxOrder : Nat := 0
  inputResetFloor : Nat := 0
  inputSeen : Bool := false
  txStart : Nat := 0
  portLatches : Fin 6 → Byte := fun _ => 0#8
  fault : Status := .ok
  loaded : Bool := false
  /-- What the sink has been handed, oldest first. -/
  emitted : List Observation := []
  /-- What the board's callbacks own. -/
  board : β

namespace Facade

variable {β : Type}

/-- Replace the observation state. -/
def mapObs (update : ObservationState → ObservationState) (f : Facade β) : Facade β :=
  { f with observation := update f.observation }

/-- `fail`: the first failure is the fault of the CPU. -/
def fail (status : Status) (f : Facade β) : Facade β :=
  -- The first failure stays.
  if status ≠ .ok ∧ f.fault = .ok then { f with fault := status } else f

end Facade

variable {β : Type}

/-! ### Making observations -/

/-- `obs_failure_reason`. -/
def obsFailureReason : Status → ObsReason
  | .unsupported => .unsupported
  | .exhausted => .exhausted
  | _ => .device

/-- `obs_init`. -/
def obsInit (c : Cpu) (o : ObservationState) (kind : ObsKind) (phase : ObsPhase) (cycle : Nat) :
    Observation where
  generation := o.generation
  cycle := cycle
  kind := kind
  phase := phase
  legacyInstructions := c.instructionCount
  retiredInstructions := o.retired
  instructionId := if o.pending then o.instruction else 0
  beginCycle := if o.pending then o.begin else 0
  pc := if o.pending then o.pc else c.pc
  known := ObsKnown.pc
  irqDepth := o.irqDepth

/-- `obs_emit`. -/
def obsEmit (e : Observation) (f : Facade β) : Facade β :=
  -- Without a sink nothing is numbered.
  if f.observation.bound = false then f
  -- The number that would follow the last one is a failure.
  else if f.observation.sequence = u64Max then f.fail .exhausted
  else
    { f with
      observation := { f.observation with sequence := f.observation.sequence + 1 }
      emitted := f.emitted ++ [{ e with sequence := f.observation.sequence + 1 }] }

/-- `obs_bytes`: the bytes fetched so far, up to the first one missing. -/
def ObservationState.captured (o : ObservationState) : List Byte :=
  match o.bytes 0, o.bytes 1, o.bytes 2 with
  | some a, some b, some c => [a, b, c]
  | some a, some b, none => [a, b]
  | some a, none, _ => [a]
  | none, _, _ => []

/-- The serial events that concern reception. -/
def ObsKind.isRx : ObsKind → Bool
  | .rxStart | .rxAccept | .rxDrop | .rxEnd => true
  | _ => false

/-- The serial events of a write of the buffer. -/
def ObsKind.isHold : ObsKind → Bool
  | .txHold | .txReplace => true
  | _ => false

/-- The serial events that tell the frame's value. -/
def ObsKind.tellsFrame : ObsKind → Bool
  | .rxAccept | .rxStart | .txHold | .txReplace | .txStart => true
  | _ => false

/-- The observation `obs_uart_event` makes of a frame. -/
def uartObservation (c : Cpu) (o : ObservationState) (u : ObservedUart) (kind : ObsKind)
    (reason : ObsReason) (cycle displaced : Nat) : Observation :=
  let e := obsInit c o kind (if kind.isHold then .effect else .peripheral) cycle
  let mode := ((c.sfr Reg.scon) >>> 6).toNat
  { e with
    frameId := u.id
    relatedFrameId := displaced
    reason := reason
    known := e.known ||| (ObsKnown.uartState ||| ObsKnown.timing)
    uartMode := mode
    uartWidth := if 2 ≤ mode then 9 else 8
    ninth := u.value.getLsbD 8
    scon := c.sfr Reg.scon
    tcon := c.sfr Reg.tcon
    startCycle := u.start
    scheduledCycle := u.scheduled
    parentStimulusId := if kind.isRx then u.parent else 0
    cpuInputOrder := if kind.isRx then u.order else 0
    inputStage := if kind.isRx then 1 else 0
    instructionId := if kind.isHold then u.instruction else e.instructionId
    accessId := if kind.isHold then u.access else 0
    newValue :=
      if kind.tellsFrame then { value := u.value.toNat, width := 16, known := true } else {} }

/-- `obs_uart_event`, which says nothing of an empty record. -/
def obsUartEvent (c : Cpu) (u : ObservedUart) (kind : ObsKind) (reason : ObsReason)
    (cycle displaced : Nat) (f : Facade β) : Facade β :=
  -- A frame that was never numbered is not spoken of.
  if u.id = 0 then f
  else obsEmit (uartObservation c f.observation u kind reason cycle displaced) f

/-- `obs_uart_new`, which leaves an empty record when the ids are exhausted. -/
def obsUartNew (value : Word) (f : Facade β) : Option ObservedUart × Facade β :=
  -- An empty record is what the caller keeps.
  if f.observation.nextFrame = u64Max then (none, f.fail .exhausted)
  else
    (some { id := f.observation.nextFrame + 1, value := value },
      f.mapObs fun o => { o with nextFrame := o.nextFrame + 1 })

/-- A serial frame as the sixteen-bit value of its record. -/
def frameValue (data : Byte) (ninth : Bool) : Word :=
  data.setWidth 16 ||| (if ninth then 0x100#16 else 0#16)

/-! ### Instructions -/

/-- `EMU_RAW_BEGIN`. -/
def obsBegin (c : Cpu) (cycle : Nat) (pc : Word) (opcode : Byte) (f : Facade β) : Facade β :=
  -- The identities of instructions are exhausted.
  if f.observation.nextInstruction = u64Max then f.fail .exhausted
  else
    let f := f.mapObs fun o =>
      { o with
        nextInstruction := o.nextInstruction + 1
        instruction := o.nextInstruction + 1
        -- The opcode has not ended yet, so its operands are still to come.
        pending := true
        opcodeDone := false
        closing := false
        pc := pc
        begin := cycle
        attemptedCycle := cycle
        bytes := fun offset => if offset = 0 then some opcode else none }
    let o := f.observation
    obsEmit { obsInit c o .instructionBegin .pre cycle with bytes := o.captured } f

/-- `EMU_RAW_OPERAND`: only the first fetch of each byte is captured. -/
def obsOperand (offset : Nat) (value : Byte) (f : Facade β) : Facade β :=
  let o := f.observation
  -- A second fetch of the same byte changes nothing.
  if o.pending ∧ offset < 3 ∧ o.bytes offset = none then
    f.mapObs fun o => { o with bytes := Function.update o.bytes offset (some value) }
  else f

/-- `EMU_RAW_OPCODE_END`. -/
def obsOpcodeEnd (pc : Word) (f : Facade β) : Facade β :=
  -- An instruction that faulted has no next address.
  if f.observation.pending ∧ f.fault = .ok then
    f.mapObs fun o => { o with opcodeDone := true, nextPc := pc }
  else f

/-! ### Contexts -/

/-- `EMU_RAW_CONTEXT_PREFLIGHT`. -/
def obsPreflight (f : Facade β) : Nat × Facade β :=
  if f.observation.nextContext = u64Max then (0, f.fail .exhausted) else (1, f)

/-- What the two kinds of entry tell of a new frame. -/
structure Entry where
  kind : FrameKind
  target : Word
  returnPc : Word
  spBefore : Byte
  spAfter : Byte
  irqSource : Nat

/-- `obs_context_push`: no answer where the identities are exhausted. -/
def obsContextPush (entry : Entry) (e : Observation) (f : Facade β) :
    Option Observation × Facade β :=
  let o := f.observation
  let e := { e with
    frameKind := entry.kind
    target := entry.target
    returnPc := entry.returnPc
    spBefore := entry.spBefore
    spAfter := entry.spAfter
    known := e.known ||| ObsKnown.target }
  let id := o.nextContext + 1
  if o.frames.length = observedDepth then
    -- After an unrepresented push none of the retained ancestors is a usable top frame.
    let lost := f.mapObs fun o => { o with unknownBase := true, frames := [] }
    if o.nextContext = u64Max then (none, lost.fail .exhausted)
    else
      (some { e with reason := .exhausted, contextId := id, spBefore := 0#8, spAfter := 0#8 },
        lost.mapObs fun o => { o with nextContext := id })
  -- The identities are exhausted before there is a frame.
  else if o.nextContext = u64Max then (none, f.fail .exhausted)
  else
    let parent := (o.frames.head?.map ObservedFrame.id).getD 0
    let frame : ObservedFrame :=
      { id := id
        parent := parent
        returnPc := entry.returnPc
        sp := entry.spAfter
        kind := entry.kind
        irqSource := entry.irqSource }
    (some { e with
        contextId := id
        parentContextId := parent
        known := e.known ||| ObsKnown.context },
      f.mapObs fun o => { o with nextContext := id, frames := frame :: o.frames })

/-- `EMU_RAW_CALL`. -/
def obsCall (c : Cpu) (cycle : Nat) (target returnPc : Word) (spBefore spAfter : Byte)
    (f : Facade β) : Facade β :=
  let pushed := obsContextPush ⟨.call, target, returnPc, spBefore, spAfter, 0⟩
    (obsInit c f.observation .call .effect cycle) f
  match pushed.1 with
  | none => pushed.2
  | some e => obsEmit e pushed.2

/-- `EMU_RAW_IRQ_ENTER`. -/
def obsIrqEnter (c : Cpu) (cycle : Nat) (source : IrqSource) (returnPc : Word)
    (spBefore spAfter : Byte) (f : Facade β) : Facade β :=
  let pushed := obsContextPush ⟨.irq, c.pc, returnPc, spBefore, spAfter, source.toNat⟩
    (obsInit c f.observation .irqEnter .boundary cycle) f
  match pushed.1 with
  | none => pushed.2
  | some e =>
    (obsEmit { e with irqSource := source.toNat } pushed.2).mapObs fun o =>
      -- The depth that is reported does not exceed a byte.
      { o with irqDepth := if o.irqDepth < 255 then o.irqDepth + 1 else o.irqDepth }

/-- The two instructions that leave a frame. -/
inductive Leave where
  | ret
  | reti
  deriving DecidableEq, Repr

/-- The observation the instruction is reported as. -/
def Leave.event : Leave → ObsKind
  | ret => .ret
  | reti => .reti

/-- The kind of frame the instruction leaves. -/
def Leave.frame : Leave → FrameKind
  | ret => .call
  | reti => .irq

/-- Whether a return matches the frame it leaves. -/
def ObservedFrame.matched (frame : ObservedFrame) (kind : FrameKind) (target : Word)
    (spBefore spAfter : Byte) : Bool :=
  frame.kind == kind && frame.returnPc == target && frame.sp == spBefore
    && frame.sp - 2#8 == spAfter

/-- The observation of a return and whether it has an identity to carry. -/
def obsLeaveFrame (leave : Leave) (target : Word) (spBefore spAfter : Byte) (e : Observation)
    (f : Facade β) : Option Observation × Facade β :=
  let o := f.observation
  let e := { e with
    frameKind := leave.frame
    target := target
    returnPc := target
    known := e.known ||| ObsKnown.target }
  let unknown := f.mapObs fun o => { o with unknownBase := true, frames := [] }
  match o.frames with
  -- A return without a frame to leave has an identity of its own.
  | [] =>
    if o.nextContext = u64Max then (none, f.fail .exhausted)
    else
      (some { e with contextId := o.nextContext + 1, reason := .context },
        unknown.mapObs fun o => { o with nextContext := o.nextContext + 1 })
  | frame :: _ =>
    let irqSource := if leave = .reti ∧ frame.kind = .irq then frame.irqSource else 0
    -- The frame is left when the instruction retires.
    if frame.matched leave.frame target spBefore spAfter then
      (some { e with
          contextId := frame.id
          parentContextId := frame.parent
          spBefore := spBefore
          spAfter := spAfter
          known := e.known ||| ObsKnown.context
          irqSource := irqSource },
        f.mapObs fun o => { o with closing := true })
    -- A return that does not match makes all retained frames unusable.
    else if o.nextContext = u64Max then (none, unknown.fail .exhausted)
    else
      (some { e with
          contextId := o.nextContext + 1
          reason := .context
          irqSource := irqSource },
        unknown.mapObs fun o => { o with nextContext := o.nextContext + 1 })

/-- `EMU_RAW_RET` and `EMU_RAW_RETI`. -/
def obsLeave (c : Cpu) (leave : Leave) (cycle : Nat) (target : Word) (spBefore spAfter : Byte)
    (f : Facade β) : Facade β :=
  let left := obsLeaveFrame leave target spBefore spAfter
    (obsInit c f.observation leave.event .effect cycle) f
  match left.1 with
  | none => left.2
  | some e =>
    let f := obsEmit e left.2
    if leave = .reti then f.mapObs fun o => { o with irqDepth := o.irqDepth - 1 } else f

/-! ### The serial port -/

/-- `EMU_RAW_TX_HOLD`. -/
def obsTxHold (c : Cpu) (cycle : Nat) (value : Word) (f : Facade β) : Facade β :=
  -- A frame held and not started is displaced by the new one.
  let displaced := f.observation.hold.id
  let fresh := obsUartNew value f
  match fresh.1 with
  | none => fresh.2.mapObs fun o => { o with hold := {} }
  | some frame =>
    let f := fresh.2.mapObs fun o =>
      { o with hold :=
          { frame with
            instruction := if o.pending then o.instruction else 0
            access := o.currentAccess
            scheduled := cycle } }
    if displaced = 0 then obsUartEvent c f.observation.hold .txHold .none cycle 0 f
    else obsUartEvent c f.observation.hold .txReplace .replaced cycle displaced f

/-- `EMU_RAW_TX_START`. -/
def obsTxStart (c : Cpu) (cycle : Nat) (f : Facade β) : Facade β :=
  -- The held frame is the one that starts.
  let f := f.mapObs fun o => { o with tx := { o.hold with start := cycle }, hold := {} }
  obsUartEvent c f.observation.tx .txStart .none cycle 0 f

/-- `EMU_RAW_TX_STOP` and `EMU_RAW_TX_TI`. -/
def obsTxEvent (c : Cpu) (kind : ObsKind) (cycle : Nat) (f : Facade β) : Facade β :=
  obsUartEvent c f.observation.tx kind .none cycle 0 f

/-- `EMU_RAW_TX_END`. -/
def obsTxEnd (c : Cpu) (cycle : Nat) (f : Facade β) : Facade β :=
  -- The record is emptied once its end has been reported.
  (obsTxEvent c .txEnd cycle f).mapObs fun o => { o with tx := {} }

/-- `EMU_RAW_RX_START`. -/
def obsRxStart (c : Cpu) (cycle : Nat) (value : Word) (f : Facade β) : Facade β :=
  let fresh := obsUartNew value f
  match fresh.1 with
  | none => fresh.2.mapObs fun o => { o with rx := {} }
  | some frame =>
    let f := fresh.2.mapObs fun o =>
      { o with rx :=
          { frame with
            parent := o.deliveryParent
            order := o.deliveryOrder
            scheduled := o.deliveryCycle
            start := cycle } }
    obsUartEvent c f.observation.rx .rxStart .none cycle 0 f

/-- `EMU_RAW_RX_ACCEPT` and `EMU_RAW_RX_DROP`. -/
def obsRxEvent (c : Cpu) (kind : ObsKind) (reason : ObsReason) (cycle : Nat) (f : Facade β) :
    Facade β :=
  obsUartEvent c f.observation.rx kind reason cycle 0 f

/-- `EMU_RAW_RX_END`. -/
def obsRxEnd (c : Cpu) (cycle : Nat) (f : Facade β) : Facade β :=
  (obsRxEvent c .rxEnd .none cycle f).mapObs fun o => { o with rx := {} }

/-- The reason a drop is reported with. -/
def DropReason.observed : DropReason → ObsReason
  | ri => .ri
  | sm2 => .sm2

/-! ### Accesses -/

/-- The direct address of the serial buffer. -/
abbrev sbufAddress : Word := 0x99#16

/-- `EMU_RAW_ACCESS_BEGIN`: an access in progress is joined, any other one gets an id. -/
def obsAccessBegin (c : Cpu) (cycle : Nat) (address : Word) (space : Space) (kind value : Byte)
    (f : Facade β) : Nat × Facade β :=
  let o := f.observation
  -- The frame that a write of SBUF would hold could not be numbered.
  if space = .sfr ∧ address = sbufAddress ∧ (c.sfr Reg.scon) &&& 0xC0#8 = 0xC0#8 ∧
      o.nextFrame = u64Max then
    (0, f.fail .exhausted)
  -- An access of the same place that is in progress is joined.
  else if o.currentAccess ≠ 0 ∧ o.accessSpace = space ∧ o.accessAddress = address then
    (o.currentAccess, f)
  -- Outside an instruction accesses have no identity.
  else if o.pending = false then (0, f)
  else if o.nextAccess = u64Max then (0, f.fail .exhausted)
  else
    let id := o.nextAccess + 1
    let f := f.mapObs fun o =>
      { o with
        nextAccess := id
        currentAccess := id
        accessKind := kind
        accessSpace := space
        accessAddress := address
        accessOldKnown := false }
    (id, obsEmit
      { obsInit c f.observation .accessAttempt .effect cycle with
        accessId := id
        space := space
        address := address
        access := kind
        newValue := if kind = ObsAccess.write then { value := value.toNat, known := true } else {} }
      f)

/-- `EMU_RAW_ACCESS_OLD`. -/
def obsAccessOld (access : Nat) (value : Byte) (f : Facade β) : Facade β :=
  if access ≠ 0 ∧ access = f.observation.currentAccess then
    f.mapObs fun o => { o with accessOld := value, accessOldKnown := true }
  else f

/-- `EMU_RAW_ACCESS_END`. -/
def obsAccessEnd (c : Cpu) (cycle access : Nat) (address : Word) (space : Space)
    (kind value : Byte) (f : Facade β) : Facade β :=
  -- An access without an identity is not reported.
  if access = 0 then f
  else
    let o := f.observation
    let current := access = o.currentAccess
    let e := { obsInit c o .accessResult .effect cycle with
      accessId := access
      address := address
      space := space
      access := if current then o.accessKind else kind
      oldValue :=
        -- The old value is known only where the access was begun as a modification.
        if current ∧ o.accessOldKnown then { value := o.accessOld.toNat, known := true } else {}
      status := f.fault
      partialEffects := f.fault != .ok
      reason := if f.fault = .ok then .none else obsFailureReason f.fault
      newValue := if f.fault = .ok then { value := value.toNat, known := true } else {} }
    (obsEmit e f).mapObs fun o => { o with currentAccess := 0 }

/-! ### The raw observer -/

/-- `obs_raw_fact`. -/
def obsRawFact (c : Cpu) (fact : RawFact) (f : Facade β) : Nat × Facade β :=
  -- An observer that is not bound sees nothing.
  if f.observation.bound = false then (0, f)
  else
    match fact with
    | .begin cycle pc opcode => (0, obsBegin c cycle pc opcode f)
    | .operand _ offset value => (0, obsOperand offset value f)
    | .cycleBegin cycle => (0, f.mapObs fun o => { o with attemptedCycle := cycle })
    | .opcodeEnd _ pc => (0, obsOpcodeEnd pc f)
    | .contextPreflight _ => obsPreflight f
    | .call cycle target returnPc spBefore spAfter =>
      (0, obsCall c cycle target returnPc spBefore spAfter f)
    | .irqEnter cycle source returnPc spBefore spAfter =>
      (0, obsIrqEnter c cycle source returnPc spBefore spAfter f)
    | .ret cycle target spBefore spAfter =>
      (0, obsLeave c .ret cycle target spBefore spAfter f)
    | .reti cycle target spBefore spAfter =>
      (0, obsLeave c .reti cycle target spBefore spAfter f)
    | .irqRequest cycle source =>
      (0, obsEmit
        { obsInit c f.observation .irqRequest .peripheral cycle with
          irqSource := source.toNat } f)
    | .txHold cycle data ninth => (0, obsTxHold c cycle (frameValue data ninth) f)
    | .txStart cycle _ _ => (0, obsTxStart c cycle f)
    | .txStop cycle => (0, obsTxEvent c .txStop cycle f)
    | .txTi cycle => (0, obsTxEvent c .txTi cycle f)
    | .txEnd cycle => (0, obsTxEnd c cycle f)
    | .rxStart cycle data ninth => (0, obsRxStart c cycle (frameValue data ninth) f)
    | .rxAccept cycle _ _ => (0, obsRxEvent c .rxAccept .none cycle f)
    | .rxDrop cycle reason => (0, obsRxEvent c .rxDrop reason.observed cycle f)
    | .rxEnd cycle => (0, obsRxEnd c cycle f)
    | .accessBegin cycle address rmw value =>
      obsAccessBegin c cycle (address.setWidth 16) .sfr
        (if rmw then ObsAccess.rmw else ObsAccess.write) value f
    | .accessOld _ access value => (0, obsAccessOld access value f)
    | .accessEnd cycle access address value =>
      (0, obsAccessEnd c cycle access (address.setWidth 16) .sfr ObsAccess.write value f)

/-- `obs_finish`, which the facade runs after every tick. -/
def obsFinishInstruction (c : Cpu) (f : Facade β) : Facade β :=
  let o := f.observation
  -- The instruction is over when it faulted or its last cycle has been completed.
  if o.pending ∧ (f.fault ≠ .ok ∨ (o.opcodeDone ∧ c.tickDelay = 0)) then
    -- The retired instructions are counted up to the last number, which is a fault.
    let f := if f.fault = .ok ∧ o.retired = u64Max then f.fail .exhausted else f
    let f := if f.fault = .ok then f.mapObs fun o => { o with retired := o.retired + 1 } else f
    let kept := f.fault = .ok
    let o := f.observation
    let e := obsInit c o (if kept then .instructionRetire else .instructionAbort)
      (if kept then .retire else .boundary) (if kept then c.machineCycleCount else o.attemptedCycle)
    let e := { e with
      status := f.fault
      partialEffects := f.fault != .ok
      reason := if kept then .none else obsFailureReason f.fault
      nextPc := if o.opcodeDone then o.nextPc else 0#16
      known := if o.opcodeDone then e.known ||| ObsKnown.nextPc else e.known
      bytes := o.captured }
    let f := obsEmit e f
    let f :=
      if f.fault = .ok ∧ f.observation.closing then
        -- The frame a return has left goes away.
        f.mapObs fun o => { o with frames := o.frames.tail }
      else f
    f.mapObs fun o => { o with pending := false, closing := false }
  else f

/-- The fault report of `obs_finish`. -/
def obsFinishFault (c : Cpu) (f : Facade β) : Facade β :=
  -- The fault is reported once.
  if f.fault ≠ .ok ∧ f.observation.faultEmitted = false then
    let e := { obsInit c f.observation .fault .boundary f.observation.attemptedCycle with
      status := f.fault
      partialEffects := true
      reason := obsFailureReason f.fault }
    obsEmit e (f.mapObs fun o => { o with faultEmitted := true })
  else f

/-- `obs_finish`. -/
def obsFinish (c : Cpu) (f : Facade β) : Facade β :=
  if f.observation.bound = false then f else obsFinishFault c (obsFinishInstruction c f)

/-- The facts `obs_reset` reports of what a reset interrupts. -/
def obsInterrupted (c : Cpu) (f : Facade β) : Facade β :=
  let cycle := c.machineCycleCount
  let o := f.observation
  let e := obsInit c o .instructionAbort .boundary cycle
  let e := { e with
    status := .state
    reason := .reset
    partialEffects := true
    nextPc := if o.opcodeDone then o.nextPc else 0#16
    known := if o.opcodeDone then e.known ||| ObsKnown.nextPc else e.known
    bytes := o.captured }
  -- The instruction that the reset cuts short is aborted.
  let f := if o.pending then (obsEmit e f).mapObs fun o => { o with pending := false } else f
  let f := obsUartEvent c f.observation.rx .rxEnd .reset cycle 0 f
  let f := obsUartEvent c f.observation.tx .txEnd .reset cycle 0 f
  -- The serial frames end with it.
  obsUartEvent c f.observation.hold .txEnd .reset cycle 0 f

/-- `obs_reset`. -/
def obsReset (c : Cpu) (f : Facade β) : Facade β :=
  let f := if f.observation.bound then obsInterrupted c f else f
  f.mapObs fun o =>
    { o with
      rx := {}
      tx := {}
      hold := {}
      pending := false
      closing := false
      frames := []
      irqDepth := 0
      unknownBase := false
      faultEmitted := false
      currentAccess := 0
      unboundCycle := 0
      unboundInstructions := 0
      attemptedCycle := 0 }

end Emu80535
