import Emu80535.Core.Breakpoints
import Emu80535.Core.Host

/-! The debugger facade of `emu_debug.c`, which steps a core of its own. -/

namespace Emu80535

/-! ### The debugger object -/

/-- What `observe_instruction` keeps: the address of the instruction last reported. -/
structure Observed where
  pc : Word := 0#16
  instruction : Bool := false
  deriving DecidableEq, Repr

/-- The callbacks of the debugger's core: an instruction trace and nothing else. -/
def debuggerHooks : Hooks Observed where
  aborted _ := false
  except _ _ h := h
  sfrread _ := none
  sfrwrite _ := none
  xread := none
  xwrite := none
  emit record h :=
    match record with
    -- Only the instruction trace is taken note of.
    | .trace .instruction _ pc _ _ => { h with pc := pc, instruction := true }
    | _ => h
  fact _ _ h := (0, h)

/-- `enum em8051_debug_reason`. -/
inductive DebugReason where
  | entry
  | breakpoint
  | step
  | exception
  | halt
  | yield
  deriving DecidableEq, Repr

/-- `enum em8051_debug_status`, as far as the facade below answers it. -/
inductive DebugStatus where
  | ok
  | invalidArgument
  | invalidState
  | breakpointLimit
  deriving DecidableEq, Repr

/-- `struct em8051_debug_snapshot`. -/
structure DebugSnapshot where
  pc : Word
  a : Byte
  b : Byte
  psw : Byte
  sp : Byte
  dptr : Word
  r : BitVec 3 → Byte
  variant : Variant
  instructionCount : Nat
  machineCycleCount : Nat
  /-- An architectural stop rather than a yield. -/
  stopped : Bool
  reason : DebugReason
  exception : Option ExceptionCode

/-- `em8051_debug_capture_snapshot`. -/
def captureSnapshot (c : Cpu) (reason : DebugReason) (exception : Option ExceptionCode) :
    DebugSnapshot where
  pc := c.pc
  a := c.sfr Reg.acc
  b := c.sfr Reg.b
  psw := c.sfr Reg.psw
  sp := c.sfr Reg.sp
  dptr := c.dptr
  r i := c.lowerData (c.bankBase.setWidth 7 + i.setWidth 7)
  variant := c.variant
  instructionCount := c.instructionCount
  machineCycleCount := c.machineCycleCount
  stopped := reason != .yield
  reason := reason
  exception := exception

/-- `struct em8051_debugger`, without its disassembly cache. -/
structure Debugger where
  machine : Machine Observed
  image : Word → Byte
  breakpoints : Bitmap
  /-- The last boundary, once there is a valid one. -/
  boundary : Option DebugSnapshot
  loaded : Bool

/-- `em8051_debugger_create`, whose core `em8051_init_variant` seeds and resets. -/
def debuggerCreate : Debugger where
  machine :=
    { cpu := Cpu.reset true 0#8
        { Cpu.blank with resetSeed := 0x80535#32, resetSeedConfigured := true }
      host := {} }
  image _ := 0#8
  breakpoints := Bitmap.empty
  boundary := none
  loaded := false

/-- The part of `em8051_debugger_load` after the image file has been read and its hash checked. -/
def debuggerLoad (image : Word → Byte) (d : Debugger) : Debugger :=
  { d with
    image := image
    -- The image takes the place of the core's code; the core itself is not reset.
    machine := d.machine.mapCpu fun c => { c with codeMem := image }
    loaded := true
    boundary := none }

/-- `em8051_debugger_reset`, with the byte an unseeded reset would draw left unused. -/
def debuggerReset (seed : BitVec 32) (entry : Word) (d : Debugger) : DebugStatus × Debugger :=
  if d.loaded then
    let machine := d.machine.mapCpu fun c =>
      let c := Cpu.reset true 0#8 { c with resetSeed := seed, resetSeedConfigured := true }
      -- Reset clears the code, so the image is put back.
      { c with codeMem := d.image, pc := entry }
    (.ok, { d with
      machine := machine
      breakpoints := Bitmap.empty
      boundary := some (captureSnapshot machine.cpu .entry none) })
  else (.invalidState, d)

/-- `em8051_debugger_replace_breakpoints`, which keeps the old set when it refuses the new one. -/
def debuggerReplaceBreakpoints (addresses : List Word) (d : Debugger) : DebugStatus × Debugger :=
  if 1024 < addresses.length then (.breakpointLimit, d)
  else
    match breakpointReplace addresses with
    | none => (.invalidArgument, d)
    | some breakpoints => (.ok, { d with breakpoints := breakpoints })

/-! ### Execution -/

/-- `execute_one`, with the reason it reports and the exception code that goes with it. -/
def executeOne (fuel : Nat) (m : Machine Observed) :
    Option (DebugReason × Option ExceptionCode × Machine Observed) := do
  -- The observation of the last instruction is forgotten.
  let m := { m with host := { m.host with instruction := false } }
  let (reason, m) ← stepInstruction debuggerHooks fuel m
  match reason with
  | .exception =>
    return (.exception, if m.cpu.exceptionRaised then m.cpu.lastException else none, m)
  | .halt => return (.halt, none, m)
  | _ => return (.step, none, m)

/-- The loop of `em8051_debugger_run`, over the instructions its budget has left. -/
def debuggerLoop (fuel : Nat) (breakpoints : Bitmap) :
    Nat → Machine Observed → Option (DebugReason × Option ExceptionCode × Machine Observed)
  | 0, m => some (.yield, none, m)
  | left + 1, m =>
    -- The test comes before the instruction, at every boundary of the loop.
    if breakpointAt breakpoints m.cpu.pc then some (.breakpoint, none, m)
    else
      match executeOne fuel m with
      -- An exception or a halt ends the run, whatever the budget has left.
      | none => none
      | some (.exception, code, m) => some (.exception, code, m)
      | some (.halt, code, m) => some (.halt, code, m)
      | some (_, _, m) => debuggerLoop fuel breakpoints left m

/-- `EM8051_DEBUG_MAX_RUN_INSTRUCTIONS`. -/
def maxRunInstructions : Nat := 1000000

/-- `em8051_debugger_run`, with no answer when the fuel of its steps is too small. -/
def debuggerRun (fuel maxInstructions : Nat) (d : Debugger) : Option (DebugStatus × Debugger) :=
  -- A budget of zero or above the limit is refused.
  if maxInstructions = 0 ∨ maxRunInstructions < maxInstructions then some (.invalidArgument, d)
  -- There must be a boundary to start from.
  else if d.boundary.isNone then some (.invalidState, d)
  else
    (debuggerLoop fuel d.breakpoints maxInstructions d.machine).map fun (reason, code, m) =>
      (.ok, { d with machine := m, boundary := some (captureSnapshot m.cpu reason code) })

/-- `em8051_debugger_step`, which looks at no breakpoint. -/
def debuggerStep (fuel : Nat) (d : Debugger) : Option (DebugStatus × Debugger) :=
  if d.boundary.isNone then some (.invalidState, d)
  else
    (executeOne fuel d.machine).map fun (reason, code, m) =>
      (.ok, { d with machine := m, boundary := some (captureSnapshot m.cpu reason code) })

end Emu80535
