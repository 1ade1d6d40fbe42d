import Emu80535.Proofs.Bounded
import Emu80535.Proofs.Exchange
import Emu80535.Proofs.Spaces

/-! Calls, interrupt entries and pushes, and the returns and pops that undo them. -/

namespace Emu80535

variable {ω : Type} {hooks : Hooks ω} {m : Machine ω}

open Machine Op

/-! ### The stack of the Siemens CPU -/

/-- A Siemens CPU has upper internal RAM, which its stack reaches. -/
structure Cpu.Siemens (c : Cpu) : Prop where
  sab : c.variant = .sab80535
  upper : c.upperData.isSome = true

/-- Every stack address has RAM behind it. -/
theorem Cpu.Siemens.backed {c : Cpu} (siemens : c.Siemens) (address : Byte) :
    c.stackBacked address = true := by
  have present : c.upperData.isNone = false := by
    rw [Option.isNone_eq_false_iff]
    exact siemens.upper
  simp [Cpu.stackBacked, present]

/-- A push stores below a pointer that does not wrap, and raises the stack exception otherwise. -/
theorem pushToStack_exact (siemens : m.cpu.Siemens) (value : Byte) :
    (pushToStack value).run hooks m =
      if m.cpu.sfr Reg.sp + 1#8 = 0#8 then
        (false, (m.mapCpu fun c => c.push value).raiseException hooks .stack)
      else (true, m.mapCpu fun c => c.push value) := by
  split
  · -- The write happens before the test: the byte wraps into cell zero, then the exception is
    -- raised.
    rename_i wraps
    simp only [pushToStack, Op.bind_eq, Op.run_cpu_bind, Op.run_perform_bind,
      run_writeMemIndir_bind, Op.pure_eq, siemens.backed, if_true]
    rw [if_pos wraps]
    simp only [Cpu.push, mapCpu]
    split <;> rfl
  · rename_i room
    refine pushToStack_run value m ?_
    simp [Cpu.canPush, siemens.backed, room]

/-- A pop takes from a pointer that does not wrap, and raises the stack exception otherwise. -/
theorem popFromStack_exact (siemens : m.cpu.Siemens) :
    popFromStack.run hooks m =
      if m.cpu.sfr Reg.sp - 1#8 = 0xFF#8 then
        (none, (m.mapCpu Cpu.pop).raiseException hooks .stack)
      else (some (m.cpu.readIndir (m.cpu.sfr Reg.sp)), m.mapCpu Cpu.pop) := by
  split
  · -- The read happens before the test as well.
    rename_i wraps
    simp only [popFromStack, Op.bind_eq, Op.run_cpu_bind, Op.run_perform_bind,
      Op.pure_eq, siemens.backed, if_true]
    rw [if_pos wraps]
    rfl
  · rename_i room
    refine run_popFromStack m ?_
    simp [Cpu.canPop, siemens.backed, room]

/-- What is read behind a push. -/
theorem push_readIndir {c : Cpu} (upper : c.upperData.isSome = true) (value : Byte) :
    (c.push value).readIndir = Function.update c.readIndir (c.sfr Reg.sp + 1#8) value :=
  -- A push is a move of the pointer and then a store.
  (readIndir_storeIndir
    (c := { c with sfr := Function.update c.sfr Reg.sp (c.sfr Reg.sp + 1#8) }) upper _ _).trans rfl

/-- A push moves the pointer and keeps the CPU a Siemens one. -/
theorem push_siemens {c : Cpu} (siemens : c.Siemens) (value : Byte) :
    (c.push value).Siemens ∧ (c.push value).sfr Reg.sp = c.sfr Reg.sp + 1#8 ∧
      (c.push value).pc = c.pc := by
  have moved : Function.update c.sfr Reg.sp (c.sfr Reg.sp + 1#8) Reg.sp = c.sfr Reg.sp + 1#8 :=
    Function.update_self ..
  simp only [Cpu.push]
  split
  · exact ⟨⟨siemens.sab, by simpa using siemens.upper⟩, moved, rfl⟩
  · exact ⟨⟨siemens.sab, siemens.upper⟩, moved, rfl⟩

/-! ### Return addresses -/

/-- A return address lies on the stack above a pointer. -/
structure OnStack (c : Cpu) (sp : Byte) (address : Word) : Prop where
  siemens : c.Siemens
  pointer : c.sfr Reg.sp = sp + 1#8 + 1#8
  high : c.readIndir (sp + 1#8 + 1#8) = (address >>> 8).setWidth 8
  low : c.readIndir (sp + 1#8) = address.setWidth 8
  first : sp + 1#8 ≠ 0#8
  second : sp + 1#8 + 1#8 ≠ 0#8

/-- The CPU after an address has been pushed, low byte first. -/
def Cpu.pushWord (c : Cpu) (address : Word) : Cpu :=
  (c.push (address.setWidth 8)).push ((address >>> 8).setWidth 8)

/-- Pushing an address puts it on the stack. -/
theorem pushWord_onStack {c : Cpu} (siemens : c.Siemens) (address : Word)
    (first : c.sfr Reg.sp + 1#8 ≠ 0#8) (second : c.sfr Reg.sp + 1#8 + 1#8 ≠ 0#8) :
    OnStack (c.pushWord address) (c.sfr Reg.sp) address := by
  obtain ⟨lower, lowPointer, -⟩ := push_siemens siemens (address.setWidth 8)
  obtain ⟨higher, highPointer, -⟩ := push_siemens lower ((address >>> 8).setWidth 8)
  -- The pointer does not wrap, so the two cells are different ones.
  have apart : c.sfr Reg.sp + 1#8 ≠ c.sfr Reg.sp + 1#8 + 1#8 := by bv_omega
  have cells : (c.pushWord address).readIndir =
      Function.update (Function.update c.readIndir (c.sfr Reg.sp + 1#8) (address.setWidth 8))
        (c.sfr Reg.sp + 1#8 + 1#8) ((address >>> 8).setWidth 8) := by
    rw [Cpu.pushWord, push_readIndir lower.upper, push_readIndir siemens.upper, lowPointer]
  refine ⟨higher, highPointer.trans (by rw [lowPointer]), ?_, ?_, first, second⟩
  · rw [cells, Function.update_self]
  · rw [cells, Function.update_of_ne apart, Function.update_self]

/-- Bookkeeping, parity and other registers do not touch it. -/
theorem OnStack.of_same {c d : Cpu} {sp : Byte} {address : Word} (onStack : OnStack c sp address)
    (variant : d.variant = c.variant) (lower : d.lowerData = c.lowerData)
    (upper : d.upperData = c.upperData) (pointer : d.sfr Reg.sp = c.sfr Reg.sp) :
    OnStack d sp address := by
  -- The two cells of the address are in internal RAM, which is the same.
  have cells : d.readIndir = c.readIndir := by
    unfold Cpu.readIndir
    rw [lower, upper]
  exact ⟨⟨variant.trans onStack.siemens.sab, upper ▸ onStack.siemens.upper⟩,
    pointer.trans onStack.pointer, cells ▸ onStack.high, cells ▸ onStack.low, onStack.first,
    onStack.second⟩

/-- The callee left the pointer and both bytes of its return address as it found them. -/
structure Balanced (entry exit : Cpu) : Prop where
  siemens : exit.Siemens
  pointer : exit.sfr Reg.sp = entry.sfr Reg.sp
  high : exit.readIndir (entry.sfr Reg.sp) = entry.readIndir (entry.sfr Reg.sp)
  low : exit.readIndir (entry.sfr Reg.sp - 1#8) = entry.readIndir (entry.sfr Reg.sp - 1#8)

/-- A callee that is balanced comes back with the return address on the stack. -/
theorem OnStack.of_balanced {c d : Cpu} {sp : Byte} {address : Word} (onStack : OnStack c sp address)
    (balanced : Balanced c d) : OnStack d sp address := by
  have below : c.sfr Reg.sp - 1#8 = sp + 1#8 := by
    rw [onStack.pointer]
    bv_omega
  refine ⟨balanced.siemens, balanced.pointer.trans onStack.pointer, ?_, ?_, onStack.first,
    onStack.second⟩
  · rw [← onStack.high, ← onStack.pointer, balanced.high]
  · rw [← onStack.low, ← below, balanced.low]

/-- Two bytes of an address make it again. -/
theorem append_bytes (address : Word) :
    ((address >>> 8).setWidth 8 : Byte) ++ (address.setWidth 8 : Byte) = address := by
  apply BitVec.eq_of_toNat_eq
  have bound := address.isLt
  simp only [BitVec.toNat_append, BitVec.toNat_setWidth, BitVec.toNat_ushiftRight]
  rw [Nat.shiftRight_eq_div_pow, Nat.shiftLeft_eq, Nat.mul_comm, ← Nat.two_pow_add_eq_or_of_lt]
  · omega
  · omega

/-- What the bookkeeping and the parity update of an instruction leave of its body's work. -/
structure AfterBody (body after : Cpu) : Prop where
  variant : after.variant = body.variant
  lower : after.lowerData = body.lowerData
  upper : after.upperData = body.upperData
  pc : after.pc = body.pc
  sfr : ∀ index, index ≠ Reg.psw → after.sfr index = body.sfr index

/-- An instruction is its body, its bookkeeping and the parity update. -/
theorem executed_afterBody (m : Machine ω) :
    AfterBody ((opTable m.cpu.opcode).run hooks m).2.cpu (m.executed hooks).cpu := by
  have ran := @runInstruction_cpu _ hooks m.cpu.opcode m
  generalize ((opTable m.cpu.opcode).run hooks m).2.cpu = body at ran
  -- Each field in turn: the bookkeeping and the parity update write none of them.
  refine ⟨(congrArg Cpu.variant ran).trans rfl, (congrArg Cpu.lowerData ran).trans rfl,
    (congrArg Cpu.upperData ran).trans rfl, (congrArg Cpu.pc ran).trans rfl, fun index other => ?_⟩
  have kept : (m.executed hooks).cpu.sfr index =
      (runInstruction hooks m.cpu.opcode m).cpu.sfr index := Function.update_of_ne other _ _
  have registers : (runInstruction hooks m.cpu.opcode m).cpu.sfr = body.sfr :=
    (congrArg Cpu.sfr ran).trans rfl
  rw [kept, registers]

/-! ### Calls -/

/-- The two calls. -/
inductive CallForm where
  | acall
  | lcall
  deriving DecidableEq, Repr

namespace CallForm

/-- The opcodes of a call. -/
def Codes : CallForm → Byte → Prop
  | acall, opcode => opcode &&& 0x1F#8 = 0x11#8
  | lcall, opcode => opcode = 0x12#8

/-- The size of a call. -/
def size : CallForm → Word
  | acall => 2#16
  | lcall => 3#16

/-- The machine in which a call asks the observer: ACALL has already read its operand. -/
def asks (hooks : Hooks ω) (m : Machine ω) : CallForm → Machine ω
  | acall => (operand1.run hooks m).2
  | lcall => m

end CallForm

/-- What follows a preflight that passes and two pushes that have room. -/
theorem pushes_run {α : Type} (n : Machine ω) (siemens : n.cpu.Siemens) (address : Word)
    (first : n.cpu.sfr Reg.sp + 1#8 ≠ 0#8) (second : n.cpu.sfr Reg.sp + 1#8 + 1#8 ≠ 0#8)
    (rest : Op α) (failed : Op α) :
    Op.run hooks (do
      if ← pushToStack (address.setWidth 8) then
        if ← pushToStack ((address >>> 8).setWidth 8) then rest else failed
      else failed) n = rest.run hooks (n.mapCpu fun c => c.pushWord address) := by
  obtain ⟨lower, pointer, -⟩ := push_siemens siemens (address.setWidth 8)
  -- The first push does not wrap, and the second starts where it left the pointer.
  have again : (n.mapCpu fun c => c.push (address.setWidth 8)).cpu.sfr Reg.sp + 1#8 ≠ 0#8 := by
    rw [mapCpu_cpu, pointer]
    exact second
  have low := (@pushToStack_exact _ hooks _ siemens (address.setWidth 8)).trans
    (if_neg first)
  have high := (@pushToStack_exact _ hooks
    (n.mapCpu fun c => c.push (address.setWidth 8)) lower
    ((address >>> 8).setWidth 8)).trans (if_neg again)
  rw [Op.bind_eq, Op.run_bind, low]
  simp only [if_true]
  rw [Op.bind_eq, Op.run_bind, high]
  rfl

/-- Reporting a call and storing its target changes nothing but the program counter. -/
theorem callEnds_cpu (target returnPc : Word) (n : Machine ω) :
    (Op.run hooks (do
      callFact target returnPc
      perform (.setPc target)
      pure 1 : Op Nat) n).2.cpu = { n.cpu with pc := target } := by
  have told : ((callFact target returnPc).run hooks n).2.cpu = n.cpu := raw_cpu hooks n _
  rw [Op.bind_eq, Op.run_bind]
  show ({ ((callFact target returnPc).run hooks n).2.cpu with pc := target } : Cpu) = _
  rw [told]

/-- A call that is not refused and does not run out of stack pushes its return address. -/
theorem call_cpu (form : CallForm) (siemens : m.cpu.Siemens) (codes : form.Codes m.cpu.opcode)
    (asked : (preflight.run hooks (form.asks hooks m)).1 = true)
    (first : m.cpu.sfr Reg.sp + 1#8 ≠ 0#8) (second : m.cpu.sfr Reg.sp + 1#8 + 1#8 ≠ 0#8) :
    ∃ pc, ((opTable m.cpu.opcode).run hooks m).2.cpu =
      { m.cpu.pushWord (m.cpu.pc + form.size) with pc } := by
  cases form with
  | acall =>
    have opcode : opTable m.cpu.opcode = acallOffset := opTable_acall _ codes
    rw [opcode, acallOffset, Op.bind_eq, Op.run_bind]
    have fetched : (operand1.run hooks m).2.cpu = m.cpu := operand1_cpu m
    change (preflight.run hooks (operand1.run hooks m).2).1 = true at asked
    generalize operand1.run hooks m = low at fetched asked
    rw [Op.bind_eq, Op.run_cpu_bind, fetched, Op.bind_eq, Op.run_bind]
    have reported : (preflight.run hooks low.2).2.cpu = m.cpu := (preflight_cpu _).trans fetched
    generalize preflight.run hooks low.2 = n at asked reported
    rw [asked]
    simp only [if_true]
    refine ⟨m.cpu.ajmpTarget low.1, ?_⟩
    rw [pushes_run n.2 (reported ▸ siemens) _ (reported ▸ first) (reported ▸ second), callEnds_cpu,
      mapCpu_cpu, reported]
    rfl
  | lcall =>
    have opcode : opTable m.cpu.opcode = lcallAddress := by
      rw [show m.cpu.opcode = 0x12#8 from codes]
      rfl
    rw [opcode, lcallAddress, Op.bind_eq, Op.run_bind]
    change (preflight.run hooks m).1 = true at asked
    have reported : (preflight.run hooks m).2.cpu = m.cpu := preflight_cpu _
    generalize preflight.run hooks m = n at asked reported
    rw [asked]
    simp only [if_true]
    rw [Op.bind_eq, Op.run_cpu_bind,
      pushes_run n.2 (reported ▸ siemens) _ (reported ▸ first) (reported ▸ second)]
    -- Both operands are fetched from behind the pushes, which do not move the program counter.
    have pushed : (n.2.mapCpu fun c => c.pushWord (n.2.cpu.pc + 3#16)).cpu =
        m.cpu.pushWord (m.cpu.pc + 3#16) := by
      rw [mapCpu_cpu, reported]
    generalize n.2.mapCpu (fun c => c.pushWord (n.2.cpu.pc + 3#16)) = k at pushed
    rw [Op.bind_eq, Op.run_bind]
    have high : (operand1.run hooks k).2.cpu = k.cpu := operand1_cpu k
    generalize operand1.run hooks k = highRead at high
    rw [Op.bind_eq, Op.run_bind]
    have low : (operand2.run hooks highRead.2).2.cpu = highRead.2.cpu := operand_cpu 2 highRead.2
    generalize operand2.run hooks highRead.2 = lowRead at low
    refine ⟨highRead.1 ++ lowRead.1, ?_⟩
    rw [callEnds_cpu, low, high, pushed]
    rfl

/-- What a call leaves on the stack, once the instruction is done. -/
theorem call_onStack (form : CallForm) (siemens : m.cpu.Siemens) (codes : form.Codes m.cpu.opcode)
    (asked : (preflight.run hooks (form.asks hooks m)).1 = true)
    (first : m.cpu.sfr Reg.sp + 1#8 ≠ 0#8) (second : m.cpu.sfr Reg.sp + 1#8 + 1#8 ≠ 0#8) :
    OnStack (m.executed hooks).cpu (m.cpu.sfr Reg.sp) (m.cpu.pc + form.size) := by
  obtain ⟨pc, body⟩ := call_cpu form siemens codes asked first second
  have ran := @executed_afterBody _ hooks m
  rw [body] at ran
  exact (pushWord_onStack siemens (m.cpu.pc + form.size) first second).of_same
    ran.variant ran.lower ran.upper (ran.sfr _ (by decide))

/-! ### Interrupt entries -/

/-- Two pushes of an address that both succeed had room, and did nothing else. -/
theorem pushReturn_exact (n : Machine ω) (siemens : n.cpu.Siemens)
    (done : (pushReturn hooks n).1 = true) :
    (pushReturn hooks n).2 = (n.mapCpu fun c => c.pushWord n.cpu.pc) ∧
      n.cpu.sfr Reg.sp + 1#8 ≠ 0#8 ∧ n.cpu.sfr Reg.sp + 1#8 + 1#8 ≠ 0#8 := by
  obtain ⟨lower, pointer, kept⟩ := push_siemens siemens (n.cpu.pc.setWidth 8)
  have low := @pushToStack_exact _ hooks _ siemens (n.cpu.pc.setWidth 8)
  -- Whether the first push wraps, then whether the second does: each failure contradicts `done`.
  by_cases first : n.cpu.sfr Reg.sp + 1#8 = 0#8
  · rw [if_pos first] at low
    simp only [pushReturn, low] at done
    exact absurd done Bool.noConfusion
  · rw [if_neg first] at low
    have high := @pushToStack_exact _ hooks
      (n.mapCpu fun c => c.push (n.cpu.pc.setWidth 8)) lower
      ((n.cpu.pc >>> 8).setWidth 8)
    rw [mapCpu_cpu, pointer] at high
    by_cases second : n.cpu.sfr Reg.sp + 1#8 + 1#8 = 0#8
    · rw [if_pos second] at high
      simp only [pushReturn, low, if_true, mapCpu_cpu, kept, high] at done
      exact absurd done Bool.noConfusion
    · rw [if_neg second] at high
      refine ⟨?_, first, second⟩
      simp only [pushReturn, low, if_true, mapCpu_cpu, kept, high]
      rfl

/-- The handler that puts one more source in service has pushed the interrupted address. -/
theorem entered_onStack (siemens : m.cpu.Siemens)
    (entered : (handleInterrupts hooks m).2.cpu.service.depth = m.cpu.service.depth + 1) :
    OnStack (handleInterrupts hooks m).2.cpu (m.cpu.sfr Reg.sp) m.cpu.pc := by
  -- Without a commit the in-service stack is that of before.
  have unchanged : ∀ c : Cpu, (handleInterrupts hooks m).2.cpu = c →
      c.service = m.cpu.service → False := by
    intro c same kept
    rw [same, kept] at entered
    exact absurd entered (Nat.ne_of_lt (Nat.lt_succ_self _))
  have handler : handleInterrupts hooks m = handleSabInterrupts hooks m := if_pos siemens.sab
  have synced := irqSync_stable hooks m
  have service : (irqSync hooks m).cpu.service = m.cpu.service := congrArg Stable.service synced
  rw [handler] at unchanged ⊢
  rcases handleSabInterrupts_cases hooks m with ⟨same, -⟩ | ⟨source, -, -, -, -, attempt⟩
  · exact (unchanged _ (by rw [same]) service).elim
  · rw [attempt] at unchanged ⊢
    have variant : (irqSync hooks m).cpu.variant = .sab80535 :=
      (congrArg (fun s : Stable => s.fixed.variant) synced).trans siemens.sab
    have pc : (irqSync hooks m).cpu.pc = m.cpu.pc := congrArg Stable.pc synced
    have pointer : (irqSync hooks m).cpu.sfr Reg.sp = m.cpu.sfr Reg.sp :=
      Stable.sfr_eq_sab synced siemens.sab rfl
    have upper : (irqSync hooks m).cpu.upperData = m.cpu.upperData :=
      congrArg Stable.upperData synced
    generalize irqSync hooks m = s at *
    have split := @enterInterrupt_eq _ hooks source s
    generalize asked : s.raw hooks (.contextPreflight s.cpu.machineCycleCount) = n at split
    have reported : n.cpu = s.cpu := by rw [← asked, raw_cpu]
    split at split
    · exact (unchanged _ (by rw [split]) (reported ▸ service)).elim
    · have ready : n.cpu.Siemens := by
        rw [reported]
        exact ⟨variant, upper ▸ siemens.upper⟩
      have kept := @enterInterrupt_cases _ hooks source s
      cases done : (pushReturn hooks n).1 with
      | false =>
        simp only [done, Bool.false_eq_true, if_false] at split
        rcases kept with ⟨-, same⟩ | committed
        · exact (unchanged _ rfl (same.service.trans service)).elim
        · rw [split] at committed
          exact absurd (congrArg Prod.fst committed) Bool.noConfusion
      | true =>
        obtain ⟨pushed, first, second⟩ := pushReturn_exact n ready done
        simp only [done, if_true, pushed] at split
        rw [split]
        have onStack := pushWord_onStack ready n.cpu.pc first second
        have stable := @acceptInterrupt_stable ω hooks source (s.cpu.irqPriority source) s.cpu.pc
          (s.cpu.sfr Reg.sp) s.cpu.irqPending (n.mapCpu fun c => c.pushWord n.cpu.pc)
        have quiet : isVolatile .sab80535 Reg.sp = false := rfl
        have register := (sfr_of_afterEntry stable onStack.siemens.sab quiet).trans
          (Function.update_of_ne (by decide) _ _)
        have address : n.cpu.pc = m.cpu.pc := by rw [reported, pc]
        have base : n.cpu.sfr Reg.sp = m.cpu.sfr Reg.sp := by rw [reported, pointer]
        rw [← address, ← base]
        exact onStack.of_same (congrArg (fun s : Stable => s.fixed.variant) stable)
          (congrArg Stable.lowerData stable) (congrArg Stable.upperData stable) register

/-! ### Returns -/

/-- A pop moves the pointer down. -/
theorem pop_sp (c : Cpu) : c.pop.sfr Reg.sp = c.sfr Reg.sp - 1#8 := by
  show Function.update c.sfr Reg.sp (c.sfr Reg.sp - 1#8) Reg.sp = _
  rw [Function.update_self]

/-- Two pops of a return address answer it and put the pointer back. -/
theorem pops_run {α : Type} {sp : Byte} {address : Word} (k : Machine ω)
    (onStack : OnStack k.cpu sp address) (rest : Byte → Byte → Op α) (first second : Op α) :
    Op.run hooks (do
      let some high ← popFromStack | first
      let some low ← popFromStack | second
      rest high low) k =
      (rest ((address >>> 8).setWidth 8) (address.setWidth 8)).run hooks
        ((k.mapCpu Cpu.pop).mapCpu Cpu.pop) := by
  -- The pointer stands two above the old one, so neither pop reaches the end of the stack.
  have top : k.cpu.sfr Reg.sp - 1#8 ≠ 0xFF#8 := by
    rw [onStack.pointer]
    have := onStack.second
    bv_omega
  have moved : (k.mapCpu Cpu.pop).cpu.sfr Reg.sp = sp + 1#8 := by
    rw [mapCpu_cpu, pop_sp, onStack.pointer]
    bv_omega
  have next : (k.mapCpu Cpu.pop).cpu.sfr Reg.sp - 1#8 ≠ 0xFF#8 := by
    rw [moved]
    have := onStack.first
    bv_omega
  have popped : (k.mapCpu Cpu.pop).cpu.Siemens := ⟨onStack.siemens.sab, onStack.siemens.upper⟩
  have high := (@popFromStack_exact _ hooks _ onStack.siemens).trans (if_neg top)
  have low := (@popFromStack_exact _ hooks _ popped).trans (if_neg next)
  rw [onStack.pointer, onStack.high] at high
  have cell : (k.mapCpu Cpu.pop).cpu.readIndir = k.cpu.readIndir := rfl
  rw [moved, cell, onStack.low] at low
  rw [Op.bind_eq, Op.run_bind, high]
  dsimp only
  rw [Op.bind_eq, Op.run_bind, low]

/-- The pointer two pops leave. -/
theorem pops_sp {c : Cpu} {sp : Byte} {address : Word} (onStack : OnStack c sp address) :
    c.pop.pop.sfr Reg.sp = sp := by
  rw [pop_sp, pop_sp, onStack.pointer]
  bv_omega

/-- RET goes to the address on the stack. -/
theorem ret_returns {sp : Byte} {address : Word} (onStack : OnStack m.cpu sp address)
    (opcode : m.cpu.opcode = 0x22#8) :
    (m.executed hooks).cpu.pc = address ∧ (m.executed hooks).cpu.sfr Reg.sp = sp := by
  have ran := @executed_afterBody _ hooks m
  have table : opTable m.cpu.opcode = retOp := by rw [opcode]; rfl
  -- The two pops answer the bytes of the address, and the rest of the opcode jumps to them.
  have body : retOp.run hooks m = _ := pops_run m onStack (fun high low => do
      perform (.setPc (high ++ low))
      let c ← cpu
      let sp := c.sfr Reg.sp
      perform (.fact (.ret c.machineCycleCount c.pc (sp + 2#8) sp))
      pure 1) (pure 1) (pure 1)
  have told : (retOp.run hooks m).2.cpu = { m.cpu.pop.pop with
      pc := ((address >>> 8).setWidth 8 : Byte) ++ (address.setWidth 8 : Byte) } := by
    rw [body]
    exact raw_cpu hooks _ _
  rw [table, told] at ran
  exact ⟨ran.pc.trans (append_bytes address), (ran.sfr _ (by decide)).trans (pops_sp onStack)⟩

/-- Leaving an interrupt does not move the stack pointer. -/
theorem sabIrqReti_sp (originalSp : Byte) (n : Machine ω) (sab : n.cpu.variant = .sab80535) :
    (sabIrqReti hooks originalSp n).cpu.sfr Reg.sp = n.cpu.sfr Reg.sp := by
  have kept : (sabIrqReti hooks originalSp n).cpu.stable.sfr = n.cpu.stable.sfr ∧
      (sabIrqReti hooks originalSp n).cpu.variant = .sab80535 := by
    -- The pointer is in the part that the end of a service leaves stable.
    rcases @sabIrqReti_stable ω hooks originalSp n with ⟨same, -⟩ | ⟨-, same⟩
    · exact ⟨congrArg Stable.sfr same,
        (congrArg (fun s : Stable => s.fixed.variant) same).trans sab⟩
    · exact ⟨(congrArg Stable.sfr same).trans rfl,
        (congrArg (fun s : Stable => s.fixed.variant) same).trans sab⟩
  have entry := congrFun kept.1 Reg.sp
  have quiet : isVolatile .sab80535 Reg.sp = false := rfl
  simpa [Cpu.stable, kept.2, sab, quiet] using entry

/-- So does RETI on the Siemens CPU, unless one of its checks aborts it. -/
theorem reti_returns {sp : Byte} {address : Word} (onStack : OnStack m.cpu sp address)
    (opcode : m.cpu.opcode = 0x32#8)
    (unaborted : ((opTable m.cpu.opcode).run hooks m).2.aborted hooks = false) :
    (m.executed hooks).cpu.pc = address ∧ (m.executed hooks).cpu.sfr Reg.sp = sp := by
  have ran := @executed_afterBody _ hooks m
  have table : opTable m.cpu.opcode = reti := by rw [opcode]; rfl
  -- Like RET, but the level is left before the jump, which the checks may abort.
  have body : reti.run hooks m = _ := pops_run m onStack (fun high low => do
      if ← leaveInterrupt (m.cpu.sfr Reg.sp) then
        perform (.setPc (high ++ low))
        let c ← cpu
        let sp := c.sfr Reg.sp
        perform (.fact (.reti c.machineCycleCount c.pc (sp + 2#8) sp))
        pure 1
      else pure 0) (pure 1) (pure 1)
  rw [table] at ran unaborted
  rw [body] at ran unaborted
  clear body
  generalize popped : (m.mapCpu Cpu.pop).mapCpu Cpu.pop = n at ran unaborted
  have variant : n.cpu.variant = .sab80535 := by
    rw [← popped]
    exact onStack.siemens.sab
  have pointer : n.cpu.sfr Reg.sp = sp := by
    rw [← popped]
    exact pops_sp onStack
  rw [Op.bind_eq, Op.run_bind, leaveInterrupt_run _ n variant] at ran unaborted
  have kept := @sabIrqReti_sp _ hooks (m.cpu.sfr Reg.sp) n variant
  generalize sabIrqReti hooks (m.cpu.sfr Reg.sp) n = k at ran unaborted kept
  -- An aborted return contradicts the hypothesis; otherwise the jump is that of RET.
  cases aborted : k.aborted hooks with
  | true =>
    rw [aborted] at unaborted
    exact absurd (aborted.symm.trans unaborted) (by decide)
  | false =>
    rw [aborted] at ran
    have told : (Op.run hooks (do
        perform (.setPc (((address >>> 8).setWidth 8 : Byte) ++ (address.setWidth 8 : Byte)))
        let c ← cpu
        let sp := c.sfr Reg.sp
        perform (.fact (.reti c.machineCycleCount c.pc (sp + 2#8) sp))
        pure 1 : Op Nat) k).2.cpu = { k.cpu with
          pc := ((address >>> 8).setWidth 8 : Byte) ++ (address.setWidth 8 : Byte) } :=
      raw_cpu hooks _ _
    have after : AfterBody { k.cpu with
        pc := ((address >>> 8).setWidth 8 : Byte) ++ (address.setWidth 8 : Byte) }
        (m.executed hooks).cpu := told ▸ ran
    exact ⟨after.pc.trans (append_bytes address),
      (after.sfr _ (by decide)).trans (kept.trans pointer)⟩

/-! ### PUSH and POP -/

/-- Two CPUs agree on the stack and on the pointer. -/
structure SameStack (a b : Cpu) : Prop where
  variant : b.variant = a.variant
  lower : b.lowerData = a.lowerData
  upper : b.upperData = a.upperData
  pointer : b.sfr Reg.sp = a.sfr Reg.sp

/-- What an instruction's body leaves on the stack, the instruction does. -/
theorem SameStack.executed {c : Cpu}
    (body : SameStack c ((opTable m.cpu.opcode).run hooks m).2.cpu) :
    SameStack c (m.executed hooks).cpu := by
  have ran := @executed_afterBody _ hooks m
  exact ⟨ran.variant.trans body.variant, ran.lower.trans body.lower, ran.upper.trans body.upper,
    (ran.sfr _ (by decide)).trans body.pointer⟩

/-- PUSH pushes the byte it names, whether or not there is room for it. -/
theorem push_sameStack (siemens : m.cpu.Siemens) (opcode : m.cpu.opcode = 0xC0#8)
    (inner : ¬0x7F#8 < m.cpu.code (m.cpu.pc + 1#16)) :
    SameStack (m.cpu.push (m.cpu.lowerData ((m.cpu.code (m.cpu.pc + 1#16)).setWidth 7)))
      (m.executed hooks).cpu := by
  refine SameStack.executed ?_
  have table : opTable m.cpu.opcode = pushMem := by rw [opcode]; rfl
  rw [table, pushMem, Op.bind_eq, Op.run_bind]
  have fetched : (operand1.run hooks m).2.cpu = m.cpu := operand1_cpu m
  have byte : (operand1.run hooks m).1 = m.cpu.code (m.cpu.pc + 1#16) := rfl
  generalize operand1.run hooks m = n at fetched byte
  -- The operand is below the registers, so the read is a plain one.
  have read : (readMem n.1).run hooks n.2 = (n.2.cpu.lowerData (n.1.setWidth 7), n.2) := by
    rw [readMem, if_neg (byte ▸ inner)]
    rfl
  rw [Op.bind_eq, Op.run_bind, read, Op.bind_eq, Op.run_bind,
    pushToStack_exact (fetched ▸ siemens), fetched, byte]
  -- With room or without it the byte is in its cell; only the exception differs.
  split
  · exact ⟨congrArg (fun c : Cpu => (c.push _).variant) fetched,
      congrArg (fun c : Cpu => (c.push _).lowerData) fetched,
      congrArg (fun c : Cpu => (c.push _).upperData) fetched,
      congrArg (fun c : Cpu => (c.push _).sfr Reg.sp) fetched⟩
  · exact ⟨congrArg (fun c : Cpu => (c.push _).variant) fetched,
      congrArg (fun c : Cpu => (c.push _).lowerData) fetched,
      congrArg (fun c : Cpu => (c.push _).upperData) fetched,
      congrArg (fun c : Cpu => (c.push _).sfr Reg.sp) fetched⟩

/-- POP stores what it pops, unless the pointer wraps. -/
theorem pop_sameStack (siemens : m.cpu.Siemens) (opcode : m.cpu.opcode = 0xD0#8)
    (inner : ¬0x7F#8 < m.cpu.code (m.cpu.pc + 1#16)) :
    SameStack
      (if m.cpu.sfr Reg.sp - 1#8 = 0xFF#8 then m.cpu.pop
      else { m.cpu.pop with
        lowerData := Function.update m.cpu.lowerData
          ((m.cpu.code (m.cpu.pc + 1#16)).setWidth 7) (m.cpu.readIndir (m.cpu.sfr Reg.sp)) })
      (m.executed hooks).cpu := by
  refine SameStack.executed ?_
  have table : opTable m.cpu.opcode = popMem := by rw [opcode]; rfl
  rw [table, popMem, Op.bind_eq, Op.run_bind]
  have fetched : (operand1.run hooks m).2.cpu = m.cpu := operand1_cpu m
  have byte : (operand1.run hooks m).1 = m.cpu.code (m.cpu.pc + 1#16) := rfl
  generalize operand1.run hooks m = n at fetched byte
  rw [Op.bind_eq, Op.run_bind, popFromStack_exact (fetched ▸ siemens), fetched, byte]
  have popped : n.2.cpu.pop = m.cpu.pop := congrArg Cpu.pop fetched
  split
  · show SameStack m.cpu.pop
      { n.2.cpu.pop with exceptionRaised := true, lastException := some .stack }
    rw [popped]
    exact ⟨rfl, rfl, rfl, rfl⟩
  · -- The program counter does not move where the store was aborted.
    have stored : ∃ pc, ((storeMem (m.cpu.code (m.cpu.pc + 1#16))
        (m.cpu.readIndir (m.cpu.sfr Reg.sp)) 2#16 1).run hooks (n.2.mapCpu Cpu.pop)).2.cpu =
        { m.cpu.pop with
          lowerData := Function.update m.cpu.lowerData
            ((m.cpu.code (m.cpu.pc + 1#16)).setWidth 7) (m.cpu.readIndir (m.cpu.sfr Reg.sp))
          pc } := by
      rw [storeMem, writeMem, if_neg inner, Op.bind_eq, Op.run_perform_bind, Op.bind_eq,
        Op.run_bind, ← fetched]
      split
      · exact ⟨_, rfl⟩
      · exact ⟨_, rfl⟩
    obtain ⟨pc, stored⟩ := stored
    show SameStack _ ((storeMem (m.cpu.code (m.cpu.pc + 1#16))
        (m.cpu.readIndir (m.cpu.sfr Reg.sp)) 2#16 1).run hooks (n.2.mapCpu Cpu.pop)).2.cpu
    rw [stored]
    exact ⟨rfl, rfl, rfl, rfl⟩

/-- A push leaves the byte it pushes where that came from. -/
theorem push_lowerData (c : Cpu) (i : SfrIndex) :
    (c.push (c.lowerData i)).lowerData i = c.lowerData i := by
  simp only [Cpu.push]
  split
  · rfl
  · by_cases here : i = ((c.sfr Reg.sp + 1#8).setWidth 7 : SfrIndex)
    · rw [← here]
      exact Function.update_self ..
    · exact Function.update_of_ne here _ _

/-- POP of the byte that was pushed puts the byte and the pointer back. -/
theorem pop_restores {k : Machine ω} {i : SfrIndex} (siemens : m.cpu.Siemens)
    (pushed : SameStack (m.cpu.push (m.cpu.lowerData i)) k.cpu) (opcode : k.cpu.opcode = 0xD0#8)
    (inner : ¬0x7F#8 < k.cpu.code (k.cpu.pc + 1#16))
    (same : (k.cpu.code (k.cpu.pc + 1#16)).setWidth 7 = i) :
    (k.executed hooks).cpu.lowerData i = m.cpu.lowerData i ∧
      (k.executed hooks).cpu.sfr Reg.sp = m.cpu.sfr Reg.sp := by
  obtain ⟨after, moved, -⟩ := push_siemens siemens (m.cpu.lowerData i)
  have ready : k.cpu.Siemens := ⟨pushed.variant.trans after.sab, pushed.upper ▸ after.upper⟩
  have pointer : k.cpu.sfr Reg.sp = m.cpu.sfr Reg.sp + 1#8 := pushed.pointer.trans moved
  -- The pop sees the cell the push wrote, since the stack between is the same.
  have back : k.cpu.sfr Reg.sp - 1#8 = m.cpu.sfr Reg.sp := by
    rw [pointer]
    bv_omega
  have cells : k.cpu.readIndir = (m.cpu.push (m.cpu.lowerData i)).readIndir := by
    unfold Cpu.readIndir
    rw [pushed.lower, pushed.upper]
  have top : k.cpu.readIndir (k.cpu.sfr Reg.sp) = m.cpu.lowerData i := by
    rw [cells, push_readIndir siemens.upper, pointer, Function.update_self]
  have popped := @pop_sameStack _ hooks _ ready opcode inner
  rw [same, top] at popped
  -- Direct RAM may hold the cell itself; then the byte is written to where it already is.
  split at popped
  · refine ⟨?_, popped.pointer.trans ((pop_sp _).trans back)⟩
    exact (congrFun (popped.lower.trans pushed.lower) i).trans (push_lowerData m.cpu i)
  · refine ⟨?_, popped.pointer.trans ((pop_sp _).trans back)⟩
    exact (congrFun popped.lower i).trans (Function.update_self ..)

/-! ### The round trips -/

/--
A call or an interrupt entry with room for its return address is undone by the return of a balanced
callee, and PUSH of a byte of internal RAM by POP. The stack exception is raised exactly where a
push or a pop wraps the pointer.
-/
theorem stack_round_trip (siemens : m.cpu.Siemens) :
    (∀ form : CallForm, form.Codes m.cpu.opcode →
      (preflight.run hooks (form.asks hooks m)).1 = true →
      m.cpu.sfr Reg.sp + 1#8 ≠ 0#8 → m.cpu.sfr Reg.sp + 1#8 + 1#8 ≠ 0#8 →
      ∀ k : Machine ω, Balanced (m.executed hooks).cpu k.cpu → k.cpu.opcode = 0x22#8 →
        (k.executed hooks).cpu.pc = m.cpu.pc + form.size ∧
        (k.executed hooks).cpu.sfr Reg.sp = m.cpu.sfr Reg.sp) ∧
    ((handleInterrupts hooks m).2.cpu.service.depth = m.cpu.service.depth + 1 →
      ∀ k : Machine ω, Balanced (handleInterrupts hooks m).2.cpu k.cpu → k.cpu.opcode = 0x32#8 →
        ((opTable k.cpu.opcode).run hooks k).2.aborted hooks = false →
        (k.executed hooks).cpu.pc = m.cpu.pc ∧
        (k.executed hooks).cpu.sfr Reg.sp = m.cpu.sfr Reg.sp) ∧
    (m.cpu.opcode = 0xC0#8 → ¬0x7F#8 < m.cpu.code (m.cpu.pc + 1#16) →
      ∀ k : Machine ω, SameStack (m.executed hooks).cpu k.cpu → k.cpu.opcode = 0xD0#8 →
        k.cpu.code (k.cpu.pc + 1#16) = m.cpu.code (m.cpu.pc + 1#16) →
        let x : SfrIndex := (m.cpu.code (m.cpu.pc + 1#16)).setWidth 7
        (k.executed hooks).cpu.lowerData x = m.cpu.lowerData x ∧
        (k.executed hooks).cpu.sfr Reg.sp = m.cpu.sfr Reg.sp) ∧
    (∀ value, (pushToStack value).run hooks m =
      if m.cpu.sfr Reg.sp + 1#8 = 0#8 then
        (false, (m.mapCpu fun c => c.push value).raiseException hooks .stack)
      else (true, m.mapCpu fun c => c.push value)) ∧
    popFromStack.run hooks m =
      if m.cpu.sfr Reg.sp - 1#8 = 0xFF#8 then
        (none, (m.mapCpu Cpu.pop).raiseException hooks .stack)
      else (some (m.cpu.readIndir (m.cpu.sfr Reg.sp)), m.mapCpu Cpu.pop) := by
  refine ⟨fun form codes asked first second k balanced opcode => ?_,
    fun entered k balanced opcode unaborted => ?_, fun opcode inner k between again same => ?_,
    pushToStack_exact siemens, popFromStack_exact siemens⟩
  · -- The call, the interrupt and the pair of push and pop, each by its own lemmas.
    exact ret_returns
      ((call_onStack form siemens codes asked first second).of_balanced balanced) opcode
  · exact reti_returns ((entered_onStack siemens entered).of_balanced balanced) opcode unaborted
  · have pushed := @push_sameStack _ hooks _ siemens opcode inner
    have kept : SameStack (m.cpu.push
        (m.cpu.lowerData ((m.cpu.code (m.cpu.pc + 1#16)).setWidth 7))) k.cpu :=
      ⟨between.variant.trans pushed.variant, between.lower.trans pushed.lower,
        between.upper.trans pushed.upper, between.pointer.trans pushed.pointer⟩
    exact pop_restores siemens kept again (same ▸ inner) (by rw [same])

/-- A machine at the top of a code memory filled with one opcode. -/
def atTop (opcode : Byte) : Machine Unit :=
  (Machine.boot fun _ => opcode).mapCpu fun c =>
    { c with upperData := some fun _ => 0#8, pc := 0xFFFF#16 }

/-- The same machine with another opcode everywhere. -/
def Machine.refilled (m : Machine Unit) (opcode : Byte) : Machine Unit :=
  m.mapCpu fun c => { c with codeMem := fun _ => opcode }

/-- The same machine with Timer 0 enabled and requesting. -/
def Machine.requesting (m : Machine Unit) : Machine Unit :=
  (m.setSfr Reg.ien0 0x82#8).setSfr Reg.tcon 0x20#8

/-- At the last address, LCALL returns to the third one and an interrupt to the last itself. -/
theorem stack_round_trip_top :
    ((((atTop 0x12#8).executed Hooks.none).refilled 0x22#8).executed Hooks.none).cpu.pc =
        (atTop 0x12#8).cpu.pc + CallForm.lcall.size ∧
      (((handleInterrupts Hooks.none (atTop 0x00#8).requesting).2.refilled 0x32#8).executed
        Hooks.none).cpu.pc = (atTop 0x00#8).requesting.cpu.pc :=
  ⟨((@stack_round_trip Unit Hooks.none (atTop 0x12#8) ⟨rfl, rfl⟩).1 .lcall rfl rfl (by decide)
      (by decide) (((atTop 0x12#8).executed Hooks.none).refilled 0x22#8)
      ⟨⟨rfl, rfl⟩, rfl, rfl, rfl⟩ rfl).1,
    ((@stack_round_trip Unit Hooks.none (atTop 0x00#8).requesting ⟨rfl, rfl⟩).2.1 rfl
      ((handleInterrupts Hooks.none (atTop 0x00#8).requesting).2.refilled 0x32#8)
      ⟨⟨rfl, rfl⟩, rfl, rfl, rfl⟩ rfl rfl).1⟩

end Emu80535
