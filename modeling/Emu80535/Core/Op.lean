import Emu80535.Core.Timers

/-! A small language of opcode bodies, so that one induction covers all 256 of them. -/

namespace Emu80535

/-- The registers an opcode stores directly rather than through the write gateway. -/
inductive CoreReg where
  | acc
  | b
  | psw
  | sp
  | dpl
  | dph
  deriving DecidableEq, Repr

/-- Position of a directly stored register in the register file. -/
def CoreReg.index : CoreReg → SfrIndex
  | acc => Reg.acc
  | b => Reg.b
  | psw => Reg.psw
  | sp => Reg.sp
  | dpl => Reg.dpl
  | dph => Reg.dph

/-- The actions an opcode body can take on the machine. -/
inductive Effect where
  /-- Store a byte of lower internal RAM. -/
  | setLower (address : SfrIndex) (value : Byte)
  /-- Store a byte of upper internal RAM, when there is any. -/
  | setUpper (address : SfrIndex) (value : Byte)
  | setReg (reg : CoreReg) (value : Byte)
  | setPc (pc : Word)
  /-- Store a byte of the embedder's external data, when there is any. -/
  | setExt (address : Word) (value : Byte)
  | setInterruptActive (value : Byte)
  | sfrWrite (index : SfrIndex) (value : Byte)
  | raise (code : ExceptionCode)
  | irqReti (originalSp : Byte)
  | emit (record : Record)
  | trace (type : TraceType) (address : Word) (value : Byte)
  | fact (fact : RawFact)

/-- Opcode bodies, as trees of actions and of decisions on what they read. -/
inductive Op (α : Type) where
  | ret (value : α)
  | look (next : Cpu → Op α)
  | act (effect : Effect) (next : Op α)
  /-- `em8051_execution_aborted`. -/
  | aborted (next : Bool → Op α)
  /-- `emu_cpu_raw` where its answer matters. -/
  | ask (fact : RawFact) (next : Nat → Op α)
  | sfrRead (index : SfrIndex) (next : Byte → Op α)
  | sfrRmwRead (index : SfrIndex) (next : Byte → Op α)
  /-- The `xread` callback, with no answer where none is installed. -/
  | busRead (address : Word) (next : Option Byte → Op α)
  /-- The `xwrite` callback, telling whether one is installed. -/
  | busWrite (address : Word) (value : Byte) (next : Bool → Op α)

namespace Op

variable {α β : Type}

/-- Continue every leaf of an opcode body. -/
def bind : Op α → (α → Op β) → Op β
  | ret value, f => f value
  | look next, f => look fun c => (next c).bind f
  | act effect next, f => act effect (next.bind f)
  | aborted next, f => aborted fun b => (next b).bind f
  | ask fact next, f => ask fact fun n => (next n).bind f
  | sfrRead index next, f => sfrRead index fun v => (next v).bind f
  | sfrRmwRead index next, f => sfrRmwRead index fun v => (next v).bind f
  | busRead address next, f => busRead address fun v => (next v).bind f
  | busWrite address value next, f => busWrite address value fun b => (next b).bind f

instance : Monad Op where
  pure := ret
  bind := bind

/-- Look at the CPU. -/
def cpu : Op Cpu := look ret

/-- Take one action. -/
def perform (effect : Effect) : Op Unit := act effect (ret ())

/-- Ask whether execution has been aborted. -/
def isAborted : Op Bool := aborted ret

end Op

/-! ### Return from interrupt -/

variable {ω : Type}

/-- The status flags an interrupt handler is expected to restore. -/
def restoredFlags : Byte := Psw.ov ||| Psw.rs0 ||| Psw.rs1 ||| Psw.ac ||| Psw.c

/-- Raise an exception when a condition holds. -/
def Machine.raiseIf (hooks : Hooks ω) (condition : Bool) (code : ExceptionCode)
    (m : Machine ω) : Machine ω :=
  if condition then m.raiseException hooks code else m

/-- The release of the innermost entry in `em8051_sab_irq_reti`. -/
def irqRelease (hooks : Hooks ω) (m : Machine ω) : Machine ω :=
  let index := m.cpu.service.depth - 1
  let source := m.cpu.service.sourceStack index
  let priority := m.cpu.service.priorityStack index
  let m := m.mapCpu fun c =>
    { c with service := { c.service with
        depth := index
        inService := c.service.inService &&& ~~~(1#16 <<< source) } }
  let m := irqSync hooks m
  m.emitIrq hooks .release source priority false m.cpu.irqPending

/-- `em8051_sab_irq_reti`: three consistency checks, each of which may abort, then the release. -/
def sabIrqReti (hooks : Hooks ω) (originalSp : Byte) (m : Machine ω) : Machine ω :=
  if m.cpu.variant = .sab80535 then
    -- Outside a service RETI only arms the hold-off.
    if m.cpu.service.depth ≠ 0 then
      let index := m.cpu.service.depth - 1
      let m := m.raiseIf hooks (m.cpu.service.savedAcc index != m.cpu.sfr Reg.acc)
        .iretAccMismatch
      if m.aborted hooks then m
      else
        let m := m.raiseIf hooks (m.cpu.service.savedSp index != originalSp) .iretSpMismatch
        if m.aborted hooks then m
        else
          let m := m.raiseIf hooks
            (m.cpu.service.savedPsw index &&& restoredFlags
              != m.cpu.sfr Reg.psw &&& restoredFlags) .iretPswMismatch
          if m.aborted hooks then m else armInhibit (irqRelease hooks m)
    else armInhibit m
  else m

/-! ### Execution -/

/-- What one action does to the machine. -/
def Effect.apply (hooks : Hooks ω) : Effect → Machine ω → Machine ω
  | setLower address value, m =>
    m.mapCpu fun c => { c with lowerData := Function.update c.lowerData address value }
  | setUpper address value, m =>
    m.mapCpu fun c =>
      { c with upperData := c.upperData.map fun data => Function.update data address value }
  | setReg reg value, m => m.setSfr reg.index value
  | setPc pc, m => m.mapCpu fun c => { c with pc := pc }
  | setExt address value, m =>
    -- An address beyond the buffer wraps, as in the source.
    m.mapCpu fun c =>
      { c with extData := c.extData.map fun data =>
          Function.update data (address &&& c.extDataMaxIdx) value }
  | setInterruptActive value, m =>
    m.mapCpu fun c => { c with classic := { c.classic with interruptActive := value } }
  | sfrWrite index value, m => Emu80535.sfrWrite hooks index value m
  | raise code, m => m.raiseException hooks code
  | irqReti originalSp, m => sabIrqReti hooks originalSp m
  | emit record, m => m.emit hooks record
  | trace type address value, m => m.traceEmit hooks type address value
  | fact f, m => m.raw hooks f

namespace Op

variable {α β : Type}

/-- Execute an opcode body. -/
def run (hooks : Hooks ω) : Op α → Machine ω → α × Machine ω
  | ret value, m => (value, m)
  | look next, m => (next m.cpu).run hooks m
  | act effect next, m => next.run hooks (effect.apply hooks m)
  | aborted next, m => (next (m.aborted hooks)).run hooks m
  | ask fact next, m => (next (m.rawAnswer hooks fact)).run hooks (m.raw hooks fact)
  | sfrRead index next, m =>
    let answer := Emu80535.sfrRead hooks index m
    (next answer.1).run hooks answer.2
  | sfrRmwRead index next, m =>
    let answer := Emu80535.sfrRmwRead hooks index m
    (next answer.1).run hooks answer.2
  -- Without a callback the opcode body turns to the embedder's buffer.
  | busRead address next, m =>
    match hooks.xread with
    | some callback =>
      let answer := callback m.cpu address m.host
      (next (some answer.1)).run hooks { m with host := answer.2 }
    | none => (next none).run hooks m
  | busWrite address value next, m =>
    match hooks.xwrite with
    | some callback =>
      (next true).run hooks { m with host := callback m.cpu address value m.host }
    | none => (next false).run hooks m

/-- Executing a sequence threads the machine through both halves. -/
theorem run_bind (hooks : Hooks ω) (p : Op α) (f : α → Op β) (m : Machine ω) :
    (p.bind f).run hooks m = (f (p.run hooks m).1).run hooks (p.run hooks m).2 := by
  -- The two sides take the same step at every constructor of the first half.
  induction p generalizing m with
  | ret value => rfl
  | look next ih => exact ih m.cpu m
  | act effect next ih => exact ih (effect.apply hooks m)
  | aborted next ih => exact ih (m.aborted hooks) m
  | ask fact next ih => exact ih (m.rawAnswer hooks fact) (m.raw hooks fact)
  | sfrRead index next ih => exact ih _ _
  | sfrRmwRead index next ih => exact ih _ _
  | busRead address next ih =>
    simp only [bind, run]
    split <;> exact ih _ _
  | busWrite address value next ih =>
    simp only [bind, run]
    split <;> exact ih _ _

end Op

end Emu80535
