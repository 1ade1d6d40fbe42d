import Emu80535.Core.State

/-! Observations and the records a trace keeps of them. -/

namespace Emu80535

/-- Counters and identities of the contracts are unsigned 64-bit numbers. -/
def u64 (n : Nat) : Nat := n % 2 ^ 64

/-- `saturate`: a counter that stays at its largest value. -/
def saturate (n v : Nat) : Nat := min (n + v) (2 ^ 64 - 1)

/-- `emuif_status`. -/
inductive Status where
  | ok
  | invalid
  | version
  | state
  | range
  | capacity
  | unsupported
  | busy
  | stale
  | denied
  | fault
  | exhausted
  | io
  | hash
  | notFound
  deriving DecidableEq, Repr

/-! ### Observations -/

/-- `EMUIF_OBS_*`; `none` is the zero of a record without an event. -/
inductive ObsKind where
  | none
  | instructionBegin
  | instructionRetire
  | instructionAbort
  | accessAttempt
  | accessResult
  | call
  | ret
  | irqRequest
  | irqEnter
  | reti
  | reset
  | load
  | fault
  | inputAdmitted
  | inputDelivered
  | inputFailed
  | inputCancelled
  | rxStart
  | rxAccept
  | rxDrop
  | rxEnd
  | txHold
  | txReplace
  | txStart
  | txStop
  | txTi
  | txEnd
  | watch
  deriving DecidableEq, Repr

/-- `EMUIF_OBS_PHASE_*`. -/
inductive ObsPhase where
  | pre
  | effect
  | retire
  | peripheral
  | boundary
  deriving DecidableEq, Repr

/-- `EMUIF_OBS_REASON_*`. -/
inductive ObsReason where
  | none
  | ren
  | busy
  | ri
  | sm2
  | replaced
  | reset
  | unsupported
  | device
  | context
  | exhausted
  deriving DecidableEq, Repr

/-- `EMUIF_SPACE_*`. -/
inductive Space where
  | code
  | iram
  | sfr
  | xdata
  deriving DecidableEq, Repr

/-- `EMUIF_OBS_FRAME_*`. -/
inductive FrameKind where
  | none
  | call
  | irq
  | unknown
  deriving DecidableEq, Repr

namespace ObsAccess

/-- `EMUIF_OBS_ACCESS_*`. -/
abbrev fetch : Byte := 1#8
/-- The access read the location. -/
abbrev read : Byte := 2#8
/-- The access wrote it. -/
abbrev write : Byte := 4#8
/-- The access read it in order to write it. -/
abbrev rmw : Byte := 8#8

end ObsAccess

namespace ObsKnown

/-- `EMUIF_OBS_KNOWN_*`. -/
abbrev pc : Byte := 1#8
/-- The target is there. -/
abbrev target : Byte := 2#8
/-- The context is there. -/
abbrev context : Byte := 4#8
/-- The state of the serial port is there. -/
abbrev uartState : Byte := 8#8
/-- The timing is there. -/
abbrev timing : Byte := 16#8
/-- The next program counter is there. -/
abbrev nextPc : Byte := 32#8

end ObsKnown

/-- `struct emuif_observed_value`. -/
structure ObservedValue where
  value : Nat := 0
  width : Nat := 8
  known : Bool := false
  isSigned : Bool := false
  deriving DecidableEq, Repr

/-- `struct emuif_observation`, without the decoded text of an instruction. -/
structure Observation where
  generation : Nat := 0
  sequence : Nat := 0
  cycle : Nat := 0
  instructionId : Nat := 0
  legacyInstructions : Nat := 0
  retiredInstructions : Nat := 0
  accessId : Nat := 0
  parentStimulusId : Nat := 0
  cpuInputOrder : Nat := 0
  frameId : Nat := 0
  relatedFrameId : Nat := 0
  contextId : Nat := 0
  parentContextId : Nat := 0
  scheduledCycle : Nat := 0
  startCycle : Nat := 0
  sourceEventSequence : Nat := 0
  beginCycle : Nat := 0
  kind : ObsKind := .none
  phase : ObsPhase := .pre
  reason : ObsReason := .none
  known : Byte := 0#8
  /-- The board's stage is 0 and the CPU's is 1. -/
  inputStage : Nat := 0
  status : Status := .ok
  partialEffects : Bool := false
  space : Space := .code
  access : Byte := 0#8
  frameKind : FrameKind := .none
  irqSource : Nat := 0
  irqDepth : Nat := 0
  watchId : Nat := 0
  firedActions : BitVec 32 := 0#32
  pc : Word := 0#16
  target : Word := 0#16
  address : Word := 0#16
  returnPc : Word := 0#16
  nextPc : Word := 0#16
  spBefore : Byte := 0#8
  spAfter : Byte := 0#8
  bytes : List Byte := []
  uartMode : Nat := 0
  uartWidth : Nat := 0
  ninth : Bool := false
  scon : Byte := 0#8
  tcon : Byte := 0#8
  oldValue : ObservedValue := {}
  newValue : ObservedValue := {}
  deriving DecidableEq, Repr

/-! ### Records -/

/-- `EMUIF_RECORD_*`, as far as the trace engine makes them. -/
inductive RecordKind where
  | event
  | suppression
  | loss
  deriving DecidableEq, Repr

/-- `struct emuif_trace_record`. -/
structure TraceRecord where
  epoch : Nat := 0
  recordSequence : Nat := 0
  generation : Nat := 0
  firstSourceSequence : Nat := 0
  lastSourceSequence : Nat := 0
  count : Nat := 0
  kind : RecordKind := .event
  destinationId : Nat := 0
  traceIds : List Nat := []
  traceId : Nat := 0
  interruptPolicy : Nat := 0
  entryDepth : Nat := 0
  maximumDepth : Nat := 0
  event : Observation := {}
  deriving DecidableEq, Repr

/-- `struct emuif_trace_destination`; its kind is a ring or a file. -/
structure TraceDestination where
  destinationId : Nat
  isFile : Bool
  capacity : Nat
  stopOnFull : Bool
  deriving DecidableEq, Repr

end Emu80535
