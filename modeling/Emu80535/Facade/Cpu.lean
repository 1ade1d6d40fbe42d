import Emu80535.Facade.Observer

/-! The facade an embedder drives a Siemens core through, and the board behind it. -/

namespace Emu80535

/-! ### The board -/

/-- `EMUIF_ACCESS_*`. -/
inductive Direction where
  | read
  | write
  deriving DecidableEq, Repr

/-- The kind of access the direction is observed as. -/
def Direction.observed : Direction → Byte
  | read => ObsAccess.read
  | write => ObsAccess.write

/-- `struct emuif_bus_access`. -/
structure BusAccess where
  cycle : Nat
  sequence : Nat
  direction : Direction
  pc : Word
  address : Word
  value : Byte
  portLatches : Fin 6 → Byte

/-- `struct emuif_bus_result`; it is intact while its prefix and reserved bytes are as they were. -/
structure BusResult where
  value : Byte
  intact : Bool

/-- `struct emuif_port_output`. -/
structure PortOutput where
  cycle : Nat
  sequence : Nat
  port : Fin 6
  previousLatch : Byte
  latch : Byte
  changedMask : Byte

/-- `struct emuif_signal_output` of the kind `EMUIF_OUTPUT_UART_FRAME`, which has nine bits. -/
structure SignalOutput where
  cycle : Nat
  startCycle : Nat
  sequence : Nat
  value : Word

/-- `struct emuif_cpu_hooks`: the board's callbacks act on a state of their own. -/
structure Board (β : Type) where
  busAccess : BusAccess → β → (Status × BusResult) × β
  portOutput : PortOutput → β → Status × β
  signalOutput : SignalOutput → β → Status × β

/-- A board without devices: it takes whatever is written and answers reads with ones. -/
def Board.bare : Board Unit where
  busAccess access board :=
    ((.ok, ⟨match access.direction with | .read => 0xFF#8 | .write => access.value, true⟩), board)
  portOutput _ board := (.ok, board)
  signalOutput _ board := (.ok, board)

/-- `port_addresses`. -/
def facadePort : Fin 6 → SfrIndex
  | 0 => Reg.p0
  | 1 => Reg.p1
  | 2 => Reg.p2
  | 3 => Reg.p3
  | 4 => Reg.p4
  | 5 => Reg.p5

variable {β : Type}

/-! ### Callbacks the facade installs in the core -/

/-- `sequence`: the next number of a board call, if there is one. -/
def Facade.nextSequence (f : Facade β) : Option Nat × Facade β :=
  -- The last number is never given out.
  if f.sequence = u64Max then (none, f.fail .exhausted)
  else (some (f.sequence + 1), { f with sequence := f.sequence + 1 })

/-- The port latches of the core. -/
def Cpu.latches (c : Cpu) (port : Fin 6) : Byte := c.sfr (facadePort port)

/-- `capture_access`. -/
def captureAccess (c : Cpu) (sequence : Nat) (address : Word) (direction : Direction)
    (value : Byte) : BusAccess where
  cycle := c.machineCycleCount
  sequence := sequence
  direction := direction
  pc := c.pc
  address := address
  value := value
  portLatches := c.latches

/-- The board's part of `bus`, which answers zero where it fails. -/
def busCall (board : Board β) (c : Cpu) (address : Word) (direction : Direction) (value : Byte)
    (f : Facade β) : Byte × Facade β :=
  let numbered := f.nextSequence
  match numbered.1 with
  | none => (0#8, numbered.2)
  | some sequence =>
    let f := numbered.2
    let answer := board.busAccess (captureAccess c sequence address direction value) f.board
    let f := { f with board := answer.2 }
    let result := answer.1.2
    -- A board that fails answers zero.
    if answer.1.1 ≠ .ok then (0#8, f.fail answer.1.1)
    -- A board that spoils the result, or changes what was written, is at fault.
    else if result.intact = false ∨ (direction = .write ∧ result.value ≠ value) then
      (0#8, f.fail .fault)
    else (result.value, f)

/-- `bus`, whose access is observed where an observer is attached. -/
def bus (board : Board β) (c : Cpu) (address : Word) (direction : Direction) (value : Byte)
    (f : Facade β) : Byte × Facade β :=
  -- After a fault the board is not called any more.
  if f.fault ≠ .ok then (0#8, f)
  else
    let watched := c.observed ∧ f.observation.bound
    let begun :=
      -- The access is observed before the board hears of it.
      if watched then
        obsAccessBegin c c.machineCycleCount address .xdata direction.observed value f
      else (0, f)
    if begun.2.fault ≠ .ok then (0#8, begun.2)
    else
      let called := busCall board c address direction value begun.2
      (called.1,
        if watched then
          obsAccessEnd c c.machineCycleCount begun.1 address .xdata direction.observed called.1
            called.2
        else called.2)

/-- `port_write`. -/
def portWrite (board : Board β) (port : Fin 6) (c : Cpu) (f : Facade β) : Facade β :=
  if f.fault ≠ .ok then f
  else
    let numbered := f.nextSequence
    match numbered.1 with
    | none => numbered.2
    | some sequence =>
      let f := numbered.2
      let previous := f.portLatches port
      let latch := c.latches port
      let answer := board.portOutput
        { cycle := c.machineCycleCount
          sequence := sequence
          port := port
          previousLatch := previous
          latch := latch
          changedMask := previous ^^^ latch } f.board
      -- The latches are those the board has been told of last.
      { f with
        portLatches := Function.update f.portLatches port latch
        board := answer.2 }.fail answer.1

/-- `uart_trace`: the board hears of a frame when it ends. -/
def uartTrace (board : Board β) (record : Record) (f : Facade β) : Facade β :=
  if f.fault ≠ .ok then f
  else
    match record with
    -- The start is kept until the frame ends.
    | .uart .txStart cycle .. => { f with txStart := cycle }
    -- The board hears of the frame when its last bit has left.
    | .uart .txEnd cycle _ data ninth .. =>
      let numbered := f.nextSequence
      match numbered.1 with
      | none => numbered.2
      | some sequence =>
        let f := numbered.2
        let answer := board.signalOutput
          { cycle := cycle
            startCycle := f.txStart
            sequence := sequence
            value := frameValue data ninth } f.board
        { f with board := answer.2 }.fail answer.1
    | _ => f

/-- The port whose output latch a register is. -/
def facadePortOf (index : SfrIndex) : Option (Fin 6) :=
  [0, 1, 2, 3, 4, 5].find? fun port => facadePort port == index

/-- What `create_cpu` installs in a Siemens core. -/
def facadeHooks (board : Board β) : Hooks (Facade β) where
  aborted f := f.fault != .ok
  except _ _ f := f.fail .fault
  sfrread _ := none
  sfrwrite index := (facadePortOf index).map fun port m =>
    { m with host := portWrite board port m.cpu m.host }
  xread := some fun c address f => bus board c address .read 0#8 f
  xwrite := some fun c address value f => (bus board c address .write value f).2
  emit record f := uartTrace board record f
  fact c fact f := obsRawFact c fact f

/-! ### The interface -/

/-- `struct emuif_cycle_result`. -/
structure CycleResult where
  cycle : Nat
  instructions : Nat
  progressed : Bool
  safeBoundary : Bool
  idle : Bool
  powerDown : Bool
  deriving DecidableEq, Repr

/-- `struct emuif_input`, with the caller's raw numbers. -/
structure Input where
  cycle : Nat
  order : Nat
  kind : Nat
  index : Nat
  value : Nat
  mask : Nat
  deriving DecidableEq, Repr

/-- A machine as the facade's functions see it. -/
abbrev FacadeMachine (β : Type) := Machine (Facade β)

namespace Machine

/-- Replace the facade's state beside its core. -/
def mapHost {ω : Type} (update : ω → ω) (m : Machine ω) : Machine ω :=
  { m with host := update m.host }

end Machine

/-- `cycle_result`. -/
def cycleResult (progressed : Bool) (m : FacadeMachine β) : CycleResult where
  cycle := m.cpu.machineCycleCount
  instructions := m.cpu.instructionCount
  progressed := progressed
  safeBoundary := m.host.fault == .ok && m.cpu.tickDelay == 0
  idle := has (m.cpu.sfr Reg.pcon) Pcon.idle
  powerDown := has (m.cpu.sfr Reg.pcon) Pcon.powerDown

/-- The tick of `cycle_cpu`, with the latches taken before it and the observation finished after. -/
def cycleTick (board : Board β) (m : FacadeMachine β) : FacadeMachine β :=
  -- The latches before the tick are what port writes compare with.
  let m := m.mapHost fun f => { f with portLatches := m.cpu.latches }
  let m := (tick (facadeHooks board) m).2
  m.mapHost (obsFinish m.cpu)

/-- `cycle_cpu`. -/
def cycleCpu (board : Board β) (m : FacadeMachine β) :
    Status × Option CycleResult × FacadeMachine β :=
  -- A core without code, or with a fault, does not run.
  if m.host.loaded = false ∨ m.host.fault ≠ .ok then (.state, none, m)
  -- Power down cannot be left but by reset, so the cycle is refused.
  else if has (m.cpu.sfr Reg.pcon) Pcon.powerDown ∧ m.cpu.tickDelay = 0 then
    (.unsupported, some (cycleResult false m), m)
  -- The counters have no room for another cycle.
  else if m.cpu.machineCycleCount = u64Max ∨ m.cpu.instructionCount = u64Max then
    let m := m.mapHost fun f => obsFinish m.cpu (f.fail .exhausted)
    (.exhausted, none, m)
  else
    let n := cycleTick board m
    -- A fault inside the cycle is its status.
    if n.host.fault ≠ .ok then (n.host.fault, none, n)
    else
      (.ok, some (cycleResult (n.cpu.machineCycleCount != m.cpu.machineCycleCount) n), n)

/-- `reset_private`. -/
def resetPrivate (m : FacadeMachine β) : FacadeMachine β :=
  m.mapHost fun f =>
    { f with
      fault := .ok
      inputResetFloor := f.inputMaxOrder
      inputSeen := false
      loaded := false
      txStart := 0
      portLatches := m.cpu.latches }

/-- `reset_cpu`. -/
def resetCpu (seed : BitVec 32) (entry : Word) (m : FacadeMachine β) : FacadeMachine β :=
  -- The reset is observed before the core forgets what it was doing.
  let m := m.mapHost (obsReset m.cpu)
  let m := m.mapCpu fun c =>
    { Cpu.reset true 0#8 { c with resetSeed := seed, resetSeedConfigured := true } with
      pc := entry }
  resetPrivate m

/-- `load_code`, of an image that fills code memory. -/
def loadCode (image : Word → Byte) (m : FacadeMachine β) : Status × FacadeMachine β :=
  -- Code is loaded before the first cycle only.
  if m.host.fault ≠ .ok ∨ m.cpu.machineCycleCount ≠ 0 ∨ m.cpu.tickDelay ≠ 0 then (.state, m)
  else
    (.ok, (m.mapCpu fun c => { c with codeMem := image }).mapHost fun f =>
      { f with loaded := true })

/-- `obs_rx_rejected`. -/
def obsRxRejected (c : Cpu) (input : Input) (reason : ObsReason) (f : Facade β) : Facade β :=
  if f.observation.bound = false then f
  else
    let fresh := obsUartNew (BitVec.ofNat 16 input.value) f
    match fresh.1 with
    | none => fresh.2
    | some frame =>
      let f := fresh.2
      let o := f.observation
      let frame := { frame with
        -- Only a delivered input has a parent.
        parent := if o.deliveryOrder = input.order then o.deliveryParent else 0
        order := input.order
        scheduled := input.cycle }
      let f := obsUartEvent c frame .rxDrop reason c.machineCycleCount 0 f
      obsUartEvent c frame .rxEnd reason c.machineCycleCount 0 f

/-- The byte and the ninth bit of a frame to be received. -/
def Input.data (input : Input) : Byte := BitVec.ofNat 8 input.value

/-- The ninth bit. -/
def Input.ninth (input : Input) : Bool := input.value.testBit 8

/-- `apply_input` for a frame: directly applied inputs name themselves while they are injected. -/
def applyUart (board : Board β) (input : Input) (m : FacadeMachine β) :
    Bool × FacadeMachine β :=
  -- A delivered input has named itself already.
  if m.host.observation.deliveryOrder = 0 then
    let m := m.mapHost fun f => f.mapObs fun o =>
      { o with deliveryOrder := input.order, deliveryCycle := input.cycle }
    let applied := injectRxFrame (facadeHooks board) input.data input.ninth m
    (applied.1, applied.2.mapHost fun f => f.mapObs fun o =>
      { o with deliveryOrder := 0, deliveryCycle := 0 })
  else injectRxFrame (facadeHooks board) input.data input.ninth m

/-- The register address of a port number an input may drive. -/
def drivenPort (index : Nat) : SfrIndex :=
  if index = 1 then Reg.p1 else if index = 3 then Reg.p3
  else if index = 4 then Reg.p4 else Reg.p5

/-- The switch of `apply_input`: a refusal, or whether the core took the input. -/
def applyKind (board : Board β) (input : Input) (m : FacadeMachine β) :
    Except Status Bool × FacadeMachine β :=
  let hooks := facadeHooks board
  let took := fun (answer : Bool × FacadeMachine β) => (Except.ok answer.1, answer.2)
  let mask := BitVec.ofNat 8 input.mask
  if input.kind = 0 then
    -- A port.
    if 5 < input.index ∨ 255 < input.value ∨ 255 < input.mask then (.error .range, m)
    else if input.index = 0 ∨ input.index = 2 then (.error .unsupported, m)
    else took (portDrive hooks (drivenPort input.index) mask input.data m)
  else if input.kind = 1 then
    -- An interrupt pin.
    if 6 < input.index ∨ 1 < input.value ∨ input.mask ≠ 1 then (.error .range, m)
    else took (externalDrive hooks input.index (input.value != 0) m)
  else if input.kind = 2 then
    if 7 < input.index ∨ 65535 < input.value ∨ input.mask ≠ 65535 then (.error .range, m)
    -- An analog channel.
    else took (adcSetInput input.index (BitVec.ofNat 16 input.value) m)
  else if input.kind = 3 then
    -- A frame of nine bits.
    if input.index ≠ 0 ∨ 511 < input.value ∨ input.mask ≠ 511 then (.error .range, m)
    else if (m.cpu.sfr Reg.scon) &&& 0xC0#8 ≠ 0xC0#8 then (.error .unsupported, m)
    else if m.host.observation.bound ∧ m.host.observation.nextFrame = u64Max then
      (.error .exhausted, m)
    -- A receiver that is off drops the frame, which is reported.
    else if has (m.cpu.sfr Reg.scon) Scon.ren = false then
      (.error .state, m.mapHost (obsRxRejected m.cpu input .ren))
    -- So does one that is receiving another frame.
    else if m.cpu.uart.rxActive then
      (.error .busy, m.mapHost (obsRxRejected m.cpu input .busy))
    else took (applyUart board input m)
  else if input.value ≠ 0 then (.error .range, m)
  -- The other inputs are releases, of ports up to five and of pins from 256 on.
  else if input.index ≤ 5 then
    if 255 < input.mask then (.error .range, m)
    else if input.index = 0 ∨ input.index = 2 then (.error .unsupported, m)
    else took (portRelease hooks (drivenPort input.index) mask m)
  else if 256 ≤ input.index ∧ input.index ≤ 262 ∧ input.mask = 1 then
    took (externalRelease hooks (input.index - 256) m)
  else (.error .range, m)

/-- `apply_input`. -/
def applyInput (board : Board β) (input : Input) (m : FacadeMachine β) :
    Status × FacadeMachine β :=
  let f := m.host
  if f.fault ≠ .ok then (.state, m)
  else if input.order = 0 then (.invalid, m)
  -- An input must be newer than the last one and not lie in the past.
  else if input.order ≤ f.inputResetFloor ∨
      (f.inputSeen ∧ input.cycle = f.inputCycle ∧ input.order ≤ f.inputOrder) ∨
      input.cycle < m.cpu.machineCycleCount then
    (.stale, m)
  -- Nor may it lie in the future.
  else if input.cycle ≠ m.cpu.machineCycleCount then (.range, m)
  else if 4 < input.kind then (.invalid, m)
  else if m.cpu.variant ≠ .sab80535 then (.unsupported, m)
  else
    let applied := applyKind board input m
    match applied.1 with
    | .error status => (status, applied.2)
    | .ok false => (.unsupported, applied.2)
    | .ok true =>
      -- Only an input that was taken counts for the order of the next one.
      (.ok, applied.2.mapHost fun f =>
        { f with
          inputOrder := input.order
          inputCycle := input.cycle
          inputSeen := true
          inputMaxOrder := max f.inputMaxOrder input.order })

/-! ### Observation -/

/-- `bind_observation`, to a sink that keeps what it is handed. -/
def bindObservation (generation : Nat) (m : FacadeMachine β) : Status × FacadeMachine β :=
  let o := m.host.observation
  -- The checks come in the order of the source.
  if generation = 0 then (.invalid, m)
  else if m.cpu.variant ≠ .sab80535 then (.unsupported, m)
  else if o.bound then (.busy, m)
  else if m.host.fault ≠ .ok ∨ m.cpu.tickDelay ≠ 0 ∨ m.cpu.uart.txActive ∨
      m.cpu.uart.txPending ∨ m.cpu.uart.rxActive then
    (.state, m)
  else
    let m := m.mapHost fun f => f.mapObs fun o =>
      let o :=
        -- What ran unobserved left frames nobody knows of.
        if m.cpu.machineCycleCount ≠ o.unboundCycle ∨
            m.cpu.instructionCount ≠ o.unboundInstructions then
          { o with unknownBase := true, frames := [], irqDepth := m.cpu.service.depth }
        else o
      { o with generation := generation, bound := true }
    (.ok, m.mapCpu fun c => { c with observed := true })

/-- `unbind_observation`. -/
def unbindObservation (m : FacadeMachine β) : Status × FacadeMachine β :=
  if m.host.observation.bound = false then (.ok, m)
  -- An instruction in progress cannot be left unobserved.
  else if m.cpu.tickDelay ≠ 0 ∨ m.host.observation.pending then (.state, m)
  else
    let m := m.mapHost fun f => f.mapObs fun o =>
      { o with
        unboundCycle := m.cpu.machineCycleCount
        unboundInstructions := m.cpu.instructionCount
        bound := false }
    (.ok, m.mapCpu fun c => { c with observed := false })

/-- `deliver_observation`: an input together with the stimulus it came from. -/
def deliverObservation (board : Board β) (parent : Nat) (input : Input) (m : FacadeMachine β) :
    Status × FacadeMachine β :=
  if m.host.observation.bound = false then (.state, m)
  else
    let m := m.mapHost fun f => f.mapObs fun o =>
      { o with
        deliveryParent := parent
        deliveryOrder := input.order
        deliveryCycle := input.cycle }
    let applied := applyInput board input m
    (applied.1, applied.2.mapHost fun f => f.mapObs fun o =>
      { o with deliveryParent := 0, deliveryOrder := 0, deliveryCycle := 0 })

/-- `emu_cpu_observation_lifecycle`. -/
def observationLifecycle (kind : ObsKind) (status : Status) (m : FacadeMachine β) :
    Status × FacadeMachine β :=
  let o := m.host.observation
  if o.bound = false then (.state, m)
  -- Only these events come from the owner, a fault with its status and the others without.
  else if (kind ≠ .reset ∧ kind ≠ .load ∧ kind ≠ .fault) ∨
      (if kind = .fault then status = .ok else status ≠ .ok) then
    (.invalid, m)
  -- A fault that has been reported is not reported again.
  else if kind = .fault ∧ o.faultEmitted then (.ok, m)
  else
    let e := { obsInit m.cpu o kind .boundary m.cpu.machineCycleCount with
      status := status
      partialEffects := kind == .fault
      reason := if kind = .fault then .device else .none }
    (.ok, m.mapHost fun f =>
      obsEmit e (if kind = .fault then f.mapObs fun o => { o with faultEmitted := true } else f))

/-! ### Runs -/

/-- `create_cpu` for the Siemens variant. -/
def createCpu (board : β) : FacadeMachine β :=
  resetPrivate
    { cpu := Cpu.reset true 0#8
        { Cpu.blank with resetSeed := 0x80535#32, resetSeedConfigured := true }
      host := { board := board } }

/-- The calls an owner makes of the facade. -/
inductive FacadeCall where
  | reset (seed : BitVec 32) (entry : Word)
  | loadCode (image : Word → Byte)
  | applyInput (input : Input)
  | deliver (parent : Nat) (input : Input)
  | cycle
  | bind (generation : Nat)
  | unbind
  | lifecycle (kind : ObsKind) (status : Status)

/-- What a call answers and does. -/
def FacadeCall.run (board : Board β) : FacadeCall → FacadeMachine β →
    (Status × Option CycleResult) × FacadeMachine β
  | reset seed entry, m => ((.ok, none), resetCpu seed entry m)
  | loadCode image, m =>
    let done := Emu80535.loadCode image m
    ((done.1, none), done.2)
  | applyInput input, m =>
    let done := Emu80535.applyInput board input m
    ((done.1, none), done.2)
  | deliver parent input, m =>
    let done := deliverObservation board parent input m
    ((done.1, none), done.2)
  | cycle, m =>
    let done := cycleCpu board m
    ((done.1, done.2.1), done.2.2)
  | bind generation, m =>
    let done := bindObservation generation m
    ((done.1, none), done.2)
  | unbind, m =>
    let done := unbindObservation m
    ((done.1, none), done.2)
  | lifecycle kind status, m =>
    let done := observationLifecycle kind status m
    ((done.1, none), done.2)

end Emu80535
