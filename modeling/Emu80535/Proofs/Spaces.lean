import Emu80535.Proofs.Keeps
import Emu80535.Proofs.Overlay

/-! Upper internal RAM and the register file share addresses, and no instruction confuses them. -/

namespace Emu80535

variable {ω : Type} {hooks : Hooks ω} {m : Machine ω}

open Machine Op

/-! ### Footprints -/

/-- Contents for the two spaces that share the addresses from 0x80 up. -/
structure Contents where
  upper : SfrIndex → Byte
  sfr : SfrIndex → Byte

/-- The cells of the two spaces an instruction may read or write. -/
structure Footprint where
  upper : SfrIndex → Bool
  sfr : SfrIndex → Bool

/-- Other contents in every cell outside the footprint. -/
def Footprint.refill (p : Footprint) (other : Contents) (c : Cpu) : Cpu :=
  { c with
    upperData := c.upperData.map fun data i => if p.upper i then data i else other.upper i
    sfr := fun i => if p.sfr i then c.sfr i else other.sfr i }

/--
Refilling everything outside the footprint makes no difference to a body, which also stores
nothing but some registers.
-/
structure Op.Confined {α : Type} (hooks : Hooks ω) (f : Cpu → Cpu) (stores : SfrIndex → Bool)
    (p : Op α) (m : Machine ω) : Prop where
  apart : p.Apart hooks f m
  frame : ∀ i, stores i = false → (p.run hooks m).2.cpu.sfr i = m.cpu.sfr i

namespace Op.Confined

variable {α β : Type} {f : Cpu → Cpu} {stores : SfrIndex → Bool}

/-- One part after another is confined. -/
theorem bind {p : Op α} {g : α → Op β} (first : p.Confined hooks f stores m)
    (second : (g (p.run hooks m).1).Confined hooks f stores (p.run hooks m).2) :
    (p >>= g).Confined hooks f stores m where
  apart := first.apart.bind second.apart
  frame := by
    intro i other
    rw [bind_eq, run_bind]
    exact (second.frame i other).trans (first.frame i other)

/-- A look at what a refill leaves alone is confined. -/
theorem look {g : Cpu → Op α} (same : g (f m.cpu) = g m.cpu)
    (rest : (g m.cpu).Confined hooks f stores m) : (cpu >>= g).Confined hooks f stores m where
  apart := .look same rest.apart
  frame := rest.frame

/-- A branch that is confined on both sides is confined. -/
theorem ite {c : Prop} [Decidable c] {p q : Op α} (yes : p.Confined hooks f stores m)
    (no : q.Confined hooks f stores m) : (if c then p else q).Confined hooks f stores m := by
  split
  · exact yes
  · exact no

/-- An answer is confined. -/
theorem ret (value : α) : (pure value : Op α).Confined hooks f stores m := ⟨rfl, fun _ _ => rfl⟩

end Op.Confined

section Parts

variable {p : Footprint} {other : Contents} {stores : SfrIndex → Bool}
  (blind : hooks.Blind (p.refill other))

/-! ### Actions -/

/-- A store in lower RAM is confined. -/
theorem setLower_confined (address : SfrIndex) (value : Byte) (m : Machine ω) :
    (perform (.setLower address value)).Confined hooks (p.refill other) stores m :=
  ⟨.perform rfl, fun _ _ => rfl⟩

/-- Setting the program counter is confined. -/
theorem setPc_confined (pc : Word) (m : Machine ω) :
    (perform (.setPc pc)).Confined hooks (p.refill other) stores m :=
  ⟨.perform rfl, fun _ _ => rfl⟩

/-- A store in a cell of upper RAM that the footprint holds is confined. -/
theorem setUpper_confined {address : SfrIndex} (touched : p.upper address = true) (value : Byte)
    (m : Machine ω) :
    (perform (.setUpper address value)).Confined hooks (p.refill other) stores m := by
  refine ⟨.perform ?_, fun _ _ => rfl⟩
  -- The stored cell is one the refill leaves alone.
  have same : ∀ data : SfrIndex → Byte,
      (Function.update (fun i => if p.upper i then data i else other.upper i) address value) =
        fun i => if p.upper i then Function.update data address value i else other.upper i := by
    intro data
    funext i
    by_cases here : i = address
    · simp [here, touched]
    · simp [here]
  simp only [Effect.apply, Machine.mapCpu, Footprint.refill, Option.map_map]
  cases m.cpu.upperData with
  | none => rfl
  | some data => simp only [Option.map_some, Function.comp, same]

/-- A store of a register that the footprint holds is confined. -/
theorem setReg_confined {reg : CoreReg} (touched : p.sfr reg.index = true)
    (stored : stores reg.index = true) (value : Byte) (m : Machine ω) :
    (perform (.setReg reg value)).Confined hooks (p.refill other) stores m := by
  -- Refilling and storing commute because the register is kept by the refill.
  refine ⟨.perform ?_, fun i kept => ?_⟩
  · -- The two arrays agree cell by cell, the stored one and the others.
    have same : Function.update (fun i => if p.sfr i then m.cpu.sfr i else other.sfr i) reg.index
          value =
        fun i => if p.sfr i then Function.update m.cpu.sfr reg.index value i else other.sfr i := by
      funext i
      by_cases here : i = reg.index
      · simp [here, touched]
      · simp [here]
    simp only [Effect.apply, Machine.setSfr_other _ _ reg.index_other, Machine.mapCpu,
      Footprint.refill, same]
  · -- A register that the footprint does not store is another one.
    have elsewhere : i ≠ reg.index := by
      rintro rfl
      exact absurd (stored.symm.trans kept) (by decide)
    exact Function.update_of_ne elsewhere _ _

include blind

/-- Reporting a fact is confined. -/
theorem fact_confined (f : RawFact) (m : Machine ω) :
    (perform (.fact f)).Confined hooks (p.refill other) stores m :=
  ⟨.perform (blind.rawFact rfl), fun i _ => congrFun (congrArg Cpu.sfr (raw_cpu hooks m f)) i⟩

/-- Raising an exception is confined. -/
theorem raise_confined (code : ExceptionCode) (m : Machine ω) :
    (perform (.raise code)).Confined hooks (p.refill other) stores m :=
  ⟨.perform (blind.raiseException rfl), fun _ _ => rfl⟩

/-- Asking an observer is confined. -/
theorem ask_confined (f : RawFact) (m : Machine ω) :
    (ask f pure).Confined hooks (p.refill other) stores m := by
  refine ⟨?_, fun i _ => congrFun (congrArg Cpu.sfr (raw_cpu hooks m f)) i⟩
  have answer : (m.mapCpu (p.refill other)).rawAnswer hooks f = m.rawAnswer hooks f :=
    blind.rawAnswer rfl
  have told : (m.mapCpu (p.refill other)).raw hooks f = (m.raw hooks f).mapCpu (p.refill other) :=
    blind.rawFact rfl
  simp only [Op.Apart, Op.run, answer, told]
  rfl

/-! ### Parts that use neither space -/

/-- Fetching an operand byte is confined. -/
theorem operand_confined (offset : Nat) (m : Machine ω) :
    (operand offset).Confined hooks (p.refill other) stores m :=
  .look rfl (.bind (fact_confined blind _ m) (.ret _))

omit blind in
/-- Stepping over an instruction is confined. -/
theorem advancePc_confined (length : Word) (m : Machine ω) :
    (advancePc length).Confined hooks (p.refill other) stores m :=
  .look rfl (setPc_confined _ m)

omit blind in
/-- A relative branch is confined. -/
theorem branchPc_confined (offset : Byte) (length : Word) (m : Machine ω) :
    (branchPc offset length).Confined hooks (p.refill other) stores m :=
  .look rfl (setPc_confined _ m)

omit blind in
/-- Stepping over an instruction ends most bodies. -/
theorem step_confined (length : Word) (cycles : Nat) (m : Machine ω) :
    (do advancePc length; pure cycles : Op Nat).Confined hooks (p.refill other) stores m :=
  .bind (advancePc_confined length m) (.ret _)

/-- A three-byte conditional branch is confined. -/
theorem branchIf3_confined (condition : Bool) (m : Machine ω) :
    (branchIf3 condition).Confined hooks (p.refill other) stores m :=
  .ite (.bind (operand_confined blind 2 m) (.bind (branchPc_confined _ _ _) (.ret _)))
    (step_confined _ _ _)

omit blind in
/-- Setting the carry is confined. -/
theorem setCarry_confined (touched : p.sfr Reg.psw = true) (stored : stores Reg.psw = true)
    (carry : Bool) (m : Machine ω) :
    (setCarry carry).Confined hooks (p.refill other) stores m := by
  refine .look ?_ (@setReg_confined ω hooks p other stores .psw touched stored _ m)
  simp only [Footprint.refill, touched, if_true]

/-! ### Internal RAM -/

omit blind in
/-- The pointed byte is the same in both, when its cell is in the footprint. -/
theorem refill_readIndir {address : Byte}
    (touched : 0x7F#8 < address → p.upper (address.setWidth 7) = true) (c : Cpu) :
    (p.refill other c).readIndir address = c.readIndir address := by
  -- Only an address above 7Fh looks at a cell that the refill could have changed.
  simp only [Cpu.readIndir, Footprint.refill]
  split
  · rename_i high
    cases c.upperData with
    | none => rfl
    | some data => simp only [Option.map_some, touched high, if_true]
  · rfl

omit blind in
/-- Writing an indirect byte is confined. -/
theorem writeMemIndir_confined {address : Byte}
    (touched : 0x7F#8 < address → p.upper (address.setWidth 7) = true) (value : Byte)
    (m : Machine ω) :
    (writeMemIndir address value).Confined hooks (p.refill other) stores m := by
  simp only [writeMemIndir]
  split
  · rename_i high
    exact setUpper_confined (touched high) value m
  · exact setLower_confined _ value m

omit blind in
/-- A refill leaves alone whether the stack has memory behind it. -/
theorem refill_stackBacked (c : Cpu) (address : Byte) :
    (p.refill other c).stackBacked address = c.stackBacked address := by
  simp only [Cpu.stackBacked, Footprint.refill, Option.isNone_map]

/-- A push touches its own cell and the stack pointer. -/
theorem pushToStack_confined (pointer : p.sfr Reg.sp = true) (stored : stores Reg.sp = true)
    (value : Byte) (m : Machine ω)
    (touched : 0x7F#8 < m.cpu.sfr Reg.sp + 1#8 →
      p.upper ((m.cpu.sfr Reg.sp + 1#8).setWidth 7) = true) :
    (pushToStack value).Confined hooks (p.refill other) stores m := by
  -- The pointer is read before it is moved, so both sides look at the same cell.
  refine .look ?_ (.bind (@setReg_confined ω hooks p other stores .sp pointer stored _ m)
    (.ite (.bind (writeMemIndir_confined touched _ _) (.ite ?_ (.ret _))) ?_))
  · have same : (p.refill other m.cpu).sfr Reg.sp = m.cpu.sfr Reg.sp := by
      simp only [Footprint.refill, pointer, if_true]
    simp only [same, refill_stackBacked]
  · -- An exception reads and stores no register.
    exact .bind (raise_confined blind _ _) (.ret _)
  · exact .bind (raise_confined blind _ _) (.ret _)

/-- A pop touches its own cell and the stack pointer. -/
theorem popFromStack_confined (pointer : p.sfr Reg.sp = true) (stored : stores Reg.sp = true)
    (m : Machine ω)
    (touched : 0x7F#8 < m.cpu.sfr Reg.sp → p.upper ((m.cpu.sfr Reg.sp).setWidth 7) = true) :
    popFromStack.Confined hooks (p.refill other) stores m := by
  -- The byte is read before the pointer is moved.
  refine .look ?_ (.ite (.bind (@setReg_confined ω hooks p other stores .sp pointer stored _ m)
    (.ite ?_ (.ret _))) ?_)
  · have same : (p.refill other m.cpu).sfr Reg.sp = m.cpu.sfr Reg.sp := by
      simp only [Footprint.refill, pointer, if_true]
    simp only [same, refill_stackBacked, refill_readIndir touched]
  · exact .bind (raise_confined blind _ _) (.ret _)
  · exact .bind (raise_confined blind _ _) (.ret _)

/-! ### Direct reads -/

/-- Reading a register through the gateway touches that register. -/
theorem readMem_confined {address : Byte}
    (touched : 0x7F#8 < address → p.sfr (sfrIndex address) = true) (m : Machine ω) :
    (readMem address).Confined hooks (p.refill other) stores m := by
  -- Below 80h the access is one to lower RAM, which the refill shares.
  simp only [readMem]
  split
  · rename_i high
    refine ⟨?_, fun i _ => congrFun (congrArg Cpu.sfr (sfrRead_cpu hooks _ m)) i⟩
    -- The register in the footprint has its old value in both.
    have seen : (p.refill other m.cpu).sfr (sfrIndex address) = m.cpu.sfr (sfrIndex address) := by
      simp only [Footprint.refill, touched high, if_true]
    have same : sfrRead hooks (sfrIndex address) (m.mapCpu (p.refill other)) =
        ((sfrRead hooks (sfrIndex address) m).1,
          (sfrRead hooks (sfrIndex address) m).2.mapCpu (p.refill other)) := by
      -- A read callback, the receiver's buffer, a port and a plain register are told apart.
      simp only [sfrRead]
      split
      · -- The callback is blind to the refill, by assumption.
        rename_i callback installed
        have answer : callback (m.mapCpu (p.refill other)).cpu (m.mapCpu (p.refill other)).host =
            callback m.cpu m.host := blind.sfrread _ callback installed _ _
        rw [answer]
        rfl
      · -- The SAB buffer of SBUF lies outside the registers.
        by_cases buffer : m.cpu.variant = .sab80535 ∧ sfrIndex address = Reg.sbuf
        · rw [if_pos buffer, if_pos (by exact buffer)]
          rfl
        · rw [if_neg buffer, if_neg (by exact buffer)]
          cases known : m.cpu.portIndex (sfrIndex address) with
          | none =>
            rw [show (m.mapCpu (p.refill other)).cpu.portIndex (sfrIndex address) = none from known]
            exact congrArg (Prod.mk · (m.mapCpu (p.refill other))) seen
          -- A port reads its pins, and these lie outside the registers as well.
          | some port =>
            have latch : port.reg = sfrIndex address := portIndex_reg known
            have pins : (p.refill other m.cpu).getPins port = m.cpu.getPins port := by
              simp only [Cpu.getPins, latch, seen]
              rfl
            rw [show (m.mapCpu (p.refill other)).cpu.portIndex (sfrIndex address) = some port
              from known]
            exact congrArg (Prod.mk · (m.mapCpu (p.refill other))) pins
    simp only [Op.Apart, Op.run, same]
    rfl
  · exact .look rfl (.ret _)

/-! ### Bodies that use a pointer register -/

section Pointers

variable (bank : p.sfr Reg.psw = true)
  (touched : 0x7F#8 < m.cpu.indirRxAddress → p.upper (m.cpu.indirRxAddress.setWidth 7) = true)

omit blind in
include bank in
/-- The pointer register is found through the bank bits. -/
theorem refill_pointer (c : Cpu) : (p.refill other c).indirRxAddress = c.indirRxAddress := by
  simp only [Cpu.indirRxAddress, Cpu.bankBase, Cpu.opcode, Cpu.code, Footprint.refill, bank,
    if_true]

omit blind in
include bank touched in
/-- So is the byte it points at. -/
theorem refill_pointed :
    (p.refill other m.cpu).readIndir (p.refill other m.cpu).indirRxAddress =
      m.cpu.readIndir m.cpu.indirRxAddress := by
  rw [refill_pointer bank, refill_readIndir touched]

omit blind in
include bank touched in
/-- A body with an indirect operand is confined. -/
theorem indirOp_confined {f : Cpu → Byte → Byte} (seen : f (p.refill other m.cpu) = f m.cpu) :
    (indirOp f).Confined hooks (p.refill other) stores m := by
  refine .look ?_ (.bind (writeMemIndir_confined touched _ m) (step_confined _ _ _))
  simp only [refill_pointer bank, refill_readIndir touched, seen]

include bank touched in
/-- `mov_indir_rx_imm` is confined. -/
theorem movIndirRxImm_confined : movIndirRxImm.Confined hooks (p.refill other) stores m := by
  refine .look ?_ (.bind (operand_confined blind 1 m)
    (.bind (writeMemIndir_confined touched _ _) (step_confined _ _ _)))
  simp only [refill_pointer bank]

include bank touched in
/-- `mov_indir_rx_mem` is confined. -/
theorem movIndirRxMem_confined
    (direct : 0x7F#8 < m.cpu.code (m.cpu.pc + 1#16) →
      p.sfr (sfrIndex (m.cpu.code (m.cpu.pc + 1#16))) = true) :
    movIndirRxMem.Confined hooks (p.refill other) stores m := by
  refine .look ?_ (.bind (operand_confined blind 1 m) (.bind (readMem_confined blind direct _)
    (.bind (writeMemIndir_confined touched _ _) (step_confined _ _ _))))
  simp only [refill_pointer bank]

include bank touched in
/-- `cjne_indir_rx_imm_offset` is confined. -/
theorem cjneIndirRxImmOffset_confined (stored : stores Reg.psw = true) :
    cjneIndirRxImmOffset.Confined hooks (p.refill other) stores m := by
  refine .look ?_ (.bind (operand_confined blind 1 m) (.bind (setCarry_confined bank stored _ _)
    (branchIf3_confined blind _ _)))
  simp only [refill_pointed bank touched]

section Accumulator

variable (accumulator : p.sfr Reg.acc = true) (kept : stores Reg.acc = true)

omit blind in
include accumulator in
/-- A refill leaves alone ACC. -/
theorem refill_acc (c : Cpu) : (p.refill other c).sfr Reg.acc = c.sfr Reg.acc := by
  simp only [Footprint.refill, accumulator, if_true]

omit blind in
include accumulator kept in
/-- Setting ACC is confined. -/
theorem setAcc_confined (value : Byte) (m : Machine ω) :
    (setAcc value).Confined hooks (p.refill other) stores m :=
  @setReg_confined ω hooks p other stores .acc accumulator kept value m

omit blind in
include bank touched accumulator kept in
/-- A logical operation with an indirect byte is confined. -/
theorem logicIndirRx_confined (f : Byte → Byte → Byte) :
    (logicIndirRx f).Confined hooks (p.refill other) stores m := by
  refine .look ?_ (.look ?_ (.bind (setAcc_confined accumulator kept _ m) (step_confined _ _ _)))
  · simp only [refill_pointed bank touched]
  · simp only [refill_acc accumulator]

omit blind in
include bank touched accumulator kept in
/-- `mov_aIndir_rx` is confined. -/
theorem movAIndirRx_confined : movAIndirRx.Confined hooks (p.refill other) stores m := by
  refine .look ?_ (.bind (setAcc_confined accumulator kept _ m) (step_confined _ _ _))
  simp only [refill_pointed bank touched]

omit blind in
include bank touched accumulator kept in
/-- `xch_aIndir_rx` is confined. -/
theorem xchAIndirRx_confined : xchAIndirRx.Confined hooks (p.refill other) stores m := by
  refine .look ?_ (.bind (writeMemIndir_confined touched _ m)
    (.bind (setAcc_confined accumulator kept _ _) (step_confined _ _ _)))
  simp only [refill_pointer bank, refill_readIndir touched, refill_acc accumulator]

omit blind in
include bank touched accumulator kept in
/-- `xchd_aIndir_rx` is confined. -/
theorem xchdAIndirRx_confined : xchdAIndirRx.Confined hooks (p.refill other) stores m := by
  refine .look ?_ (.bind (setAcc_confined accumulator kept _ _)
    (.bind (writeMemIndir_confined touched _ _) (step_confined _ _ _)))
  simp only [refill_pointer bank, refill_readIndir touched, refill_acc accumulator]

variable (flags : stores Reg.psw = true)

omit blind in
include bank flags in
/-- Setting the arithmetic flags is confined. -/
theorem solveFlags_confined (carry auxcarry overflow : Bool) (m : Machine ω) :
    (solveFlags carry auxcarry overflow).Confined hooks (p.refill other) stores m := by
  refine .look ?_ (@setReg_confined ω hooks p other stores .psw bank flags _ m)
  simp only [Footprint.refill, bank, if_true]

omit blind in
include bank accumulator kept flags in
/-- An addition to ACC is confined. -/
theorem addAcc_confined (value : Byte) (carry : Bool) (length : Word) (m : Machine ω) :
    (addAcc value carry length).Confined hooks (p.refill other) stores m := by
  refine .look ?_ (.bind (solveFlags_confined bank flags _ _ _ m)
    (.bind (setAcc_confined accumulator kept _ _) (step_confined _ _ _)))
  simp only [refill_acc accumulator]

omit blind in
include bank accumulator kept flags in
/-- A subtraction from ACC is confined. -/
theorem subAcc_confined (value : Byte) (carry : Bool) (length : Word) (m : Machine ω) :
    (subAcc value carry length).Confined hooks (p.refill other) stores m := by
  refine .look ?_ (.bind (solveFlags_confined bank flags _ _ _ m)
    (.bind (setAcc_confined accumulator kept _ _) (step_confined _ _ _)))
  simp only [refill_acc accumulator]

omit blind in
include bank touched in
/-- The indirect forms of addition and subtraction, with or without the carry flag. -/
theorem arithIndirRx_confined {arith : Byte → Bool → Word → Op Nat}
    (confined : ∀ value carry length,
      (arith value carry length).Confined hooks (p.refill other) stores m)
    {carryIn : Cpu → Bool} (seen : carryIn (p.refill other m.cpu) = carryIn m.cpu) :
    (do let c ← cpu; arith (c.readIndir c.indirRxAddress) (carryIn c) 1#16 : Op Nat).Confined hooks
      (p.refill other) stores m := by
  refine .look ?_ (confined _ _ _)
  simp only [refill_pointed bank touched, seen]

end Accumulator

end Pointers

/-! ### Bodies that use the stack -/

section Stack

variable (pointer : p.sfr Reg.sp = true) (stored : stores Reg.sp = true)

omit blind in
/-- Fetching an operand byte, as a change of the CPU. -/
theorem operand_cpu (offset : Nat) (m : Machine ω) :
    ((operand offset).run hooks m).2.cpu = m.cpu := raw_cpu hooks m _

omit blind in
/-- Reading a direct byte, as a change of the CPU. -/
theorem readMem_cpu (address : Byte) (m : Machine ω) :
    ((readMem address).run hooks m).2.cpu = m.cpu := by
  simp only [readMem, run_ite]
  split
  · exact sfrRead_cpu hooks _ m
  · rfl

omit blind in
/-- Asking an observer for leave, as a change of the CPU. -/
theorem preflight_cpu (m : Machine ω) : (preflight.run hooks m).2.cpu = m.cpu := by
  -- The request for leave is one answer of the observer and the event that it sees.
  have shape : preflight.run hooks m =
      if m.cpu.observed then
        (m.rawAnswer hooks (.contextPreflight m.cpu.machineCycleCount) != 0,
          m.raw hooks (.contextPreflight m.cpu.machineCycleCount))
      else (true, m) := by
    simp only [preflight, bind_eq, run_cpu_bind, run_ite]
    split <;> rfl
  rw [shape]
  -- Neither the event nor going without one changes the CPU.
  split
  · exact raw_cpu hooks m _
  · rfl

omit blind in
/-- A push moves the pointer even when it fails. -/
theorem pushToStack_sp (value : Byte) (m : Machine ω) :
    ((pushToStack value).run hooks m).2.cpu.sfr Reg.sp = m.cpu.sfr Reg.sp + 1#8 := by
  -- The pointer is stored before the cell is.
  have stored : ((Effect.setReg .sp (m.cpu.sfr Reg.sp + 1#8)).apply hooks m).cpu.sfr Reg.sp =
      m.cpu.sfr Reg.sp + 1#8 := by
    simp [Effect.apply, Machine.setSfr, CoreReg.index]
  simp only [pushToStack, bind_eq, run_cpu_bind, run_perform_bind, run_ite, run_writeMemIndir_bind,
    pure_eq]
  -- What comes behind the store may fail, but moves nothing back.
  split
  · split <;> split <;> exact stored
  · exact stored

omit blind in
/-- A pop moves the pointer down, unless there is nothing behind it. -/
theorem popFromStack_sp (m : Machine ω) :
    (popFromStack.run hooks m).2.cpu.sfr Reg.sp = m.cpu.sfr Reg.sp - 1#8 ∨
      (popFromStack.run hooks m).2.cpu.sfr Reg.sp = m.cpu.sfr Reg.sp := by
  -- The pointer is stored behind the test for an empty stack.
  have stored : ((Effect.setReg .sp (m.cpu.sfr Reg.sp - 1#8)).apply hooks m).cpu.sfr Reg.sp =
      m.cpu.sfr Reg.sp - 1#8 := by
    simp [Effect.apply, Machine.setSfr, CoreReg.index]
  simp only [popFromStack, bind_eq, run_cpu_bind, run_perform_bind, run_ite, pure_eq]
  -- Only a stack without backing leaves the pointer where it was.
  split
  · left
    split <;> exact stored
  · right
    rfl

/-- Asking an observer for leave is confined. -/
theorem preflight_confined (m : Machine ω) :
    preflight.Confined hooks (p.refill other) stores m :=
  .look rfl (.ite (.bind (ask_confined blind _ m) (.ret _)) (.ret _))

include pointer in
/-- Reporting a call is confined. -/
theorem callFact_confined (target returnPc : Word) (m : Machine ω) :
    (callFact target returnPc).Confined hooks (p.refill other) stores m := by
  refine .look ?_ (fact_confined blind _ m)
  simp only [Footprint.refill, pointer, if_true]

include pointer stored

/-- The second of two pushes finds the pointer one higher. -/
theorem pushAgain_confined (low high : Byte) (m : Machine ω)
    (second : 0x7F#8 < m.cpu.sfr Reg.sp + 1#8 + 1#8 →
      p.upper ((m.cpu.sfr Reg.sp + 1#8 + 1#8).setWidth 7) = true) :
    (pushToStack high).Confined hooks (p.refill other) stores
      ((pushToStack low).run hooks m).2 := by
  refine pushToStack_confined blind pointer stored high _ ?_
  rw [pushToStack_sp]
  exact second

/-- The second of two pops finds the pointer one lower, or where it was. -/
theorem popAgain_confined (m : Machine ω)
    (first : 0x7F#8 < m.cpu.sfr Reg.sp → p.upper ((m.cpu.sfr Reg.sp).setWidth 7) = true)
    (second : 0x7F#8 < m.cpu.sfr Reg.sp - 1#8 →
      p.upper ((m.cpu.sfr Reg.sp - 1#8).setWidth 7) = true) :
    popFromStack.Confined hooks (p.refill other) stores (popFromStack.run hooks m).2 := by
  refine popFromStack_confined blind pointer stored _ ?_
  -- The first pop has moved the pointer, or has found nothing behind it.
  rcases @popFromStack_sp ω hooks m with down | still
  · rw [down]
    exact second
  · rw [still]
    exact first

section Calls

variable
  (first : 0x7F#8 < m.cpu.sfr Reg.sp + 1#8 →
    p.upper ((m.cpu.sfr Reg.sp + 1#8).setWidth 7) = true)
  (second : 0x7F#8 < m.cpu.sfr Reg.sp + 1#8 + 1#8 →
    p.upper ((m.cpu.sfr Reg.sp + 1#8 + 1#8).setWidth 7) = true)

include first second

/-- `acall_offset` is confined. -/
theorem acallOffset_confined : acallOffset.Confined hooks (p.refill other) stores m := by
  have kept : (preflight.run hooks (operand1.run hooks m).2).2.cpu = m.cpu :=
    (preflight_cpu _).trans (operand_cpu 1 m)
  refine .bind (operand_confined blind 1 m) (.look rfl (.bind (preflight_confined blind _)
    (.ite (.bind (pushToStack_confined blind pointer stored _ _ ?_) (.ite (.bind
      (pushAgain_confined blind pointer stored _ _ _ ?_) (.ite ?_ (.ret _))) (.ret _))) (.ret _))))
  · simpa only [kept] using first
  · simpa only [kept] using second
  · exact .bind (callFact_confined blind pointer _ _ _) (.bind (setPc_confined _ _) (.ret _))

/-- `lcall_address` is confined. -/
theorem lcallAddress_confined : lcallAddress.Confined hooks (p.refill other) stores m := by
  refine .bind (preflight_confined blind _) (.ite (.look rfl (.bind
    (pushToStack_confined blind pointer stored _ _ ?_) (.ite (.bind
      (pushAgain_confined blind pointer stored _ _ _ ?_) (.ite ?_ (.ret _))) (.ret _)))) (.ret _))
  · simpa only [preflight_cpu] using first
  · simpa only [preflight_cpu] using second
  -- The operands are fetched only once both halves of the return address are out.
  · exact .bind (operand_confined blind 1 _) (.bind (operand_confined blind 2 _)
      (.bind (callFact_confined blind pointer _ _ _) (.bind (setPc_confined _ _) (.ret _))))

end Calls

/-- `ret_op` is confined. -/
theorem retOp_confined
    (first : 0x7F#8 < m.cpu.sfr Reg.sp → p.upper ((m.cpu.sfr Reg.sp).setWidth 7) = true)
    (second : 0x7F#8 < m.cpu.sfr Reg.sp - 1#8 →
      p.upper ((m.cpu.sfr Reg.sp - 1#8).setWidth 7) = true) :
    retOp.Confined hooks (p.refill other) stores m := by
  -- Each pop that fails ends the return.
  refine .bind (popFromStack_confined blind pointer stored m first) ?_
  cases (popFromStack.run hooks m).1 with
  | none => exact .ret _
  | some high =>
    refine .bind (popAgain_confined blind pointer stored m first second) ?_
    cases (popFromStack.run hooks (popFromStack.run hooks m).2).1 with
    | none => exact .ret _
    | some low =>
      refine .bind (setPc_confined _ _) (.look ?_ (.bind (fact_confined blind _ _) (.ret _)))
      simp only [Footprint.refill, pointer, if_true]

/-- `push_mem` is confined. -/
theorem pushMem_confined
    (first : 0x7F#8 < m.cpu.sfr Reg.sp + 1#8 →
      p.upper ((m.cpu.sfr Reg.sp + 1#8).setWidth 7) = true)
    (direct : 0x7F#8 < m.cpu.code (m.cpu.pc + 1#16) →
      p.sfr (sfrIndex (m.cpu.code (m.cpu.pc + 1#16))) = true) :
    -- The operand, the register it names, then the push.
    pushMem.Confined hooks (p.refill other) stores m := by
  refine .bind (operand_confined blind 1 m) (.bind (readMem_confined blind direct _)
    (.bind (pushToStack_confined blind pointer stored _ _ ?_)
      (.ite (step_confined _ _ _) (.ret _))))
  -- The pointer is the one before, since reading changes no register.
  have kept : ((readMem (operand1.run hooks m).1).run hooks (operand1.run hooks m).2).2.cpu =
      m.cpu := (readMem_cpu _ _).trans (operand_cpu 1 m)
  simpa only [kept] using first

end Stack

end Parts

/-! ### How each instruction addresses the two spaces -/

/-- The ways an instruction reaches the addresses from 0x80 up. -/
inductive Reach where
  /-- Only the registers every opcode body works on. -/
  | registers
  /-- The P1 latch as well, which is reported with every external access. -/
  | external
  /-- A direct or bit-addressed operand, through the register gateway. -/
  | direct
  /-- A byte behind a pointer register, with the registers the instruction stores. -/
  | indirect (accumulator : Bool) (stores : List SfrIndex)
  /-- MOV @Ri,direct. -/
  | indirectFromDirect
  /-- MOV direct,@Ri. -/
  | directFromIndirect
  | push
  | pop
  | call
  | ret
  | reti

namespace Reach

/-- The internal RAM addresses reached through a pointer register or the stack pointer. -/
def cells (c : Cpu) : Reach → List Byte
  | registers | external | direct => []
  | indirect _ _ | indirectFromDirect | directFromIndirect => [c.indirRxAddress]
  | push => [c.sfr Reg.sp + 1#8]
  | pop => [c.sfr Reg.sp]
  | call => [c.sfr Reg.sp + 1#8, c.sfr Reg.sp + 1#8 + 1#8]
  | ret | reti => [c.sfr Reg.sp, c.sfr Reg.sp - 1#8]

/-- The register position of a direct operand above internal RAM. -/
def isOperand (c : Cpu) (index : SfrIndex) : Bool :=
  let address := c.code (c.pc + 1#16)
  0x7F#8 < address && index == sfrIndex address

/-- The registers that are read or written. -/
def sees (c : Cpu) (index : SfrIndex) : Reach → Bool
  | registers => isOwn index
  | external => isOwn index || index == Reg.p1
  | indirect accumulator _ => index == Reg.psw || (accumulator && index == Reg.acc)
  | indirectFromDirect => index == Reg.psw || isOperand c index
  | push => index == Reg.sp || isOperand c index
  | call | ret => index == Reg.sp
  -- Their direct operand, or the release of an interrupt, goes through the whole register file.
  | direct | directFromIndirect | pop | reti => true

/-- The registers that may be written. -/
def stores (index : SfrIndex) : Reach → Bool
  | registers | external => isOwn index
  | indirect _ stores => stores.contains index
  | indirectFromDirect => false
  | push | call | ret => index == Reg.sp
  -- The release of an interrupt looks at the request levels again.
  | reti => isOwn index || index == Reg.tcon
  | direct | directFromIndirect | pop => true

/-- The cells of the two spaces an instruction may read or write. -/
def footprint (r : Reach) (c : Cpu) : Footprint where
  upper index := (r.cells c).contains (sfrAddress index)
  sfr index := r.sees c index

end Reach

/-- The instructions on a byte behind R0 or R1, row by row. -/
def indirectForms : List (Op Nat) :=
  [incIndirRx, decIndirRx, addAIndirRx, addcAIndirRx, orlAIndirRx, anlAIndirRx, xrlAIndirRx,
   movIndirRxImm, movMemIndirRx, subbAIndirRx, movIndirRxMem, cjneIndirRxImmOffset, xchAIndirRx,
   xchdAIndirRx, movAIndirRx, movIndirRxA]

/-- How they reach the two spaces. -/
def indirectReach : List Reach :=
  [.indirect false [], .indirect false [], .indirect true [Reg.acc, Reg.psw],
   .indirect true [Reg.acc, Reg.psw], .indirect true [Reg.acc], .indirect true [Reg.acc],
   .indirect true [Reg.acc], .indirect false [], .directFromIndirect,
   .indirect true [Reg.acc, Reg.psw], .indirectFromDirect, .indirect false [Reg.psw],
   .indirect true [Reg.acc], .indirect true [Reg.acc], .indirect true [Reg.acc],
   .indirect true []]

/-- How an opcode reaches the two spaces. -/
def opReach (opcode : Byte) : Reach :=
  let r := opRights opcode
  if opcode &&& 0x0E#8 = 0x06#8 then indirectReach[(opcode >>> 4).toNat]?.getD .registers
  else if opcode &&& 0x1F#8 = 0x11#8 ∨ opcode = 0x12#8 then .call
  else if opcode = 0x22#8 then .ret
  else if opcode = 0x32#8 then .reti
  else if opcode = 0xC0#8 then .push
  else if opcode = 0xD0#8 then .pop
  else if r.read || r.modify || r.write || r.latch then .direct
  else if r.external then .external
  else .registers

/-- Whatever stands outside its footprint makes no difference to an instruction. -/
def Op.Reaches (p : Op Nat) (r : Reach) : Prop :=
  ∀ (ω : Type) (hooks : Hooks ω) (m : Machine ω) (other : Contents),
    hooks.Blind ((r.footprint m.cpu).refill other) →
      p.Confined hooks ((r.footprint m.cpu).refill other) (fun i => r.stores i) m

/-- An address above the lower half is the address of its own cell. -/
theorem sfrAddress_setWidth : ∀ address : Byte, 0x7F#8 < address →
    sfrAddress (address.setWidth 7) = address := by
  decide

/-- A cell that is reached is in the footprint. -/
theorem Reach.touched {r : Reach} {c : Cpu} {address : Byte} (reached : address ∈ r.cells c) :
    0x7F#8 < address → (r.footprint c).upper (address.setWidth 7) = true := by
  intro high
  simp only [Reach.footprint, sfrAddress_setWidth address high, List.contains_iff_mem, reached]

/-! ### Instructions that reach the whole register file -/

section Gateway

variable {p : Footprint} {other : Contents} (whole : ∀ i, p.sfr i = true)

include whole

/-- Where the whole register file is in the footprint, refilling is an overlay of upper RAM. -/
theorem Footprint.refill_eq : p.refill other = Overlay.apply
    { upper := fun data => data.map fun cells i => if p.upper i then cells i else other.upper i } := by
  funext c
  simp only [Footprint.refill, Overlay.apply, whole, if_true, id, ite_self]

/-- Every right but that to upper internal RAM tolerates it. -/
theorem refill_tolerated (blind : hooks.Blind (p.refill other)) {r : Rights}
    (bare : r.upper = false) : r.Tolerates hooks (p.refill other) := by
  rw [Footprint.refill_eq whole] at blind ⊢
  refine Overlay.tolerated blind (fun upper => ?_) (fun _ => rfl) (fun _ => rfl) fun data => ?_
  · exact absurd (bare.symm.trans upper) (by decide)
  · exact Option.isSome_map

/-- `mov_mem_indir_rx` does not tell a refill from the original. -/
theorem movMemIndirRx_apart (blind : hooks.Blind (p.refill other))
    (touched : 0x7F#8 < m.cpu.indirRxAddress → p.upper (m.cpu.indirRxAddress.setWidth 7) = true) :
    movMemIndirRx.Apart hooks (p.refill other) m := by
  -- The operand byte is code, which no refill touches.
  have fetched : operand1.Confined hooks (p.refill other) (fun _ => true) m :=
    operand_confined blind 1 m
  refine .look ?_ (.bind fetched.apart ?_)
  · simp only [refill_pointer (whole _), refill_readIndir touched]
  · -- The store behind it goes through the gateway, with the right to write.
    have lawful : ∀ target value, (storeMem target value 2#16 1).Lawful { write := true } :=
      fun _ _ => storeMem_lawful rfl _ _ _ (by decide)
    exact (lawful _ _).apart blind (refill_tolerated whole blind rfl) _

/-- `pop_mem` does not tell a refill from the original. -/
theorem popMem_apart (blind : hooks.Blind (p.refill other))
    (touched : 0x7F#8 < m.cpu.sfr Reg.sp → p.upper ((m.cpu.sfr Reg.sp).setWidth 7) = true) :
    popMem.Apart hooks (p.refill other) m := by
  have fetched : operand1.Confined hooks (p.refill other) (fun _ => true) m :=
    operand_confined blind 1 m
  -- The operand is fetched first and leaves the pointer as it was.
  have kept : (operand1.run hooks m).2.cpu = m.cpu := operand_cpu 1 m
  have popped : popFromStack.Confined hooks (p.refill other) (fun _ => true)
      (operand1.run hooks m).2 :=
    popFromStack_confined blind (whole _) rfl _ (by simpa only [kept] using touched)
  -- With nothing on the stack the body ends with an exception.
  refine .bind fetched.apart (.bind popped.apart ?_)
  cases (popFromStack.run hooks (operand1.run hooks m).2).1 with
  | none => rfl
  | some value =>
    have lawful : ∀ target, (storeMem target value 2#16 1).Lawful { write := true } :=
      fun _ => storeMem_lawful rfl _ _ _ (by decide)
    exact (lawful _).apart blind (refill_tolerated whole blind rfl) _

/-- `reti` does not tell a refill from the original. -/
theorem reti_apart (blind : hooks.Blind (p.refill other))
    (first : 0x7F#8 < m.cpu.sfr Reg.sp → p.upper ((m.cpu.sfr Reg.sp).setWidth 7) = true)
    (second : 0x7F#8 < m.cpu.sfr Reg.sp - 1#8 →
      p.upper ((m.cpu.sfr Reg.sp - 1#8).setWidth 7) = true) :
    reti.Apart hooks (p.refill other) m := by
  have top : popFromStack.Confined hooks (p.refill other) (fun _ => true) m :=
    popFromStack_confined blind (whole _) rfl m first
  have below : popFromStack.Confined hooks (p.refill other) (fun _ => true)
      (popFromStack.run hooks m).2 := popAgain_confined blind (whole _) rfl m first second
  have sp : ∀ c : Cpu, (p.refill other c).sfr Reg.sp = c.sfr Reg.sp := by
    intro c
    simp only [Footprint.refill, whole, if_true]
  refine .look ?_ (.bind top.apart ?_)
  · simp only [sp]
  cases (popFromStack.run hooks m).1 with
  | none => rfl
  | some high =>
    refine .bind below.apart ?_
    cases (popFromStack.run hooks (popFromStack.run hooks m).2).1 with
    | none => rfl
    | some low =>
      -- The release of an interrupt uses the register file, but no internal RAM.
      have leaves : ∀ sp, (leaveInterrupt sp).Obeys { leave := true, classic := true }
          fun _ => True := fun sp => leaveInterrupt_obeys rfl rfl sp
      have tolerates := @refill_tolerated ω hooks p other whole blind
        { leave := true, classic := true } rfl
      refine .bind ((leaves _).apart blind tolerates _) (.ite (fun _ => ?_) fun _ => rfl)
      have returns : (do
          perform (.setPc (high ++ low))
          let c ← cpu
          let sp := c.sfr Reg.sp
          perform (.fact (.reti c.machineCycleCount c.pc (sp + 2#8) sp))
          pure 1 : Op Nat).Obeys {} fun _ => True :=
        (obeys_perform rfl).andThen fun _ => obeys_look (fun _ _ => rfl) fun _ =>
          (obeys_perform rfl).andThen fun _ => trivial
      exact returns.apart blind (refill_tolerated whole blind rfl) _

end Gateway

/-! ### Instructions that reach neither space -/

section Registers

/-- The release of an interrupt stores no register but TCON. -/
theorem sabIrqReti_sfr (originalSp : Byte) (m : Machine ω) {i : SfrIndex} (other : i ≠ Reg.tcon) :
    (sabIrqReti hooks originalSp m).cpu.sfr i = m.cpu.sfr i := by
  -- The exception checks of the return change no register.
  have checked : ∀ (condition : Bool) (code : ExceptionCode) (k : Machine ω),
      (k.raiseIf hooks condition code).cpu.sfr = k.cpu.sfr := by
    intro condition code k
    cases condition <;> rfl
  -- Release and inhibit look at the pins again, which reaches TCON alone.
  have released : ∀ k : Machine ω, (armInhibit (irqRelease hooks k)).cpu.sfr i = k.cpu.sfr i := by
    intro k
    have synced : ∀ n : Machine ω, Within (none : Option (Journal hooks)) { regs := [Reg.tcon] } n
        (irqSync hooks n) := fun n => (Within.refl n).irqSync (List.mem_singleton.mpr rfl)
    simp only [armInhibit, irqRelease, Machine.mapCpu, emitIrq_cpu]
    exact (synced _).sfr i (fun member => other (List.mem_singleton.mp member))
  -- The stack of entries decides how many checks there are before the release.
  simp only [sabIrqReti]
  split
  · split
    · split
      · rw [checked]
      · split
        · rw [checked, checked]
        · split
          · rw [checked, checked, checked]
          · rw [released, checked, checked, checked]
    · rfl
  · rfl

variable {r : Rights} (write : r.write = false)

include write

/-- Without the gateway a body stores none but its own registers. -/
theorem lawful_keepsSfr {p : Op Nat} (lawful : p.Lawful r) (m : Machine ω) (i : SfrIndex)
    (other : isOwn i = false) (kept : r.leave = false ∨ i ≠ Reg.tcon) :
    (p.run hooks m).2.cpu.sfr i = m.cpu.sfr i := by
  -- A relation between the registers that every allowed effect keeps is kept by the body.
  refine lawful.only.rel (R := fun a b : Cpu => b.sfr i = a.sfr i) (fun _ => rfl)
    (fun _ _ _ first second => second.trans first) (fun e allowed n => ?_) m
  cases e with
  -- Its own registers are not among those the claim is about.
  | setReg reg value =>
    have elsewhere : i ≠ reg.index := by
      rintro rfl
      cases reg <;> exact absurd other (by decide)
    exact Function.update_of_ne elsewhere _ _
  | sfrWrite index value => exact absurd (write.symm.trans allowed) (by decide)
  -- RETI is the one effect that stores another register, and that is TCON.
  | irqReti originalSp =>
    rcases kept with barred | elsewhere
    · exact absurd (barred.symm.trans allowed) (by decide)
    · exact sabIrqReti_sfr originalSp n elsewhere
  | trace type address value => exact congrArg (fun c : Cpu => c.sfr i) (traceEmit_cpu hooks n _ _ _)
  | fact f => exact congrArg (fun c : Cpu => c.sfr i) (raw_cpu hooks n f)
  | _ => rfl

variable (leave : r.leave = false)

include leave

/-- Its rights tolerate any refill that leaves the registers it sees alone. -/
theorem registers_tolerated {p : Footprint} {other : Contents}
    (blind : hooks.Blind (p.refill other)) (own : ∀ i, r.sees i = true → p.sfr i = true)
    (upper : r.upper = false) (read : r.read = false) (modify : r.modify = false) :
    r.Tolerates hooks (p.refill other) where
  -- What the body may see is in the footprint, so hiding the rest hides the refill.
  hidden := by
    intro c x
    -- A visible register is one of the footprint by assumption.
    have seen : (fun i => if r.sees i then (if p.sfr i then c.sfr i else other.sfr i) else x.sfr i) =
        fun i => if r.sees i then c.sfr i else x.sfr i := by
      funext i
      split
      · rename_i visible
        rw [if_pos (own i visible)]
      · rfl
    have cells : (c.upperData.map fun data i => if p.upper i then data i else other.upper i).map
        (fun _ => x.upperData.getD fun _ => 0#8) =
          c.upperData.map fun _ => x.upperData.getD fun _ => 0#8 := by
      cases c.upperData <;> rfl
    simp only [Cpu.hide, Footprint.refill, upper, seen, cells, Bool.false_eq_true, if_false]
  effects := by
    -- Effects that reach the spaces are excluded by the rights.
    intro e allowed m
    cases e with
    | setUpper address value => exact absurd (upper.symm.trans allowed) (by decide)
    | sfrWrite index value => exact absurd (write.symm.trans allowed) (by decide)
    | irqReti originalSp => exact absurd (leave.symm.trans allowed) (by decide)
    -- A store of an own register is confined to it.
    | setReg reg value =>
      have touched : p.sfr reg.index = true := by
        refine own _ ?_
        have mine : isOwn reg.index = true := by cases reg <;> decide
        simp only [Rights.sees, mine, Bool.true_or]
      exact congrArg Prod.snd
        (@setReg_confined ω hooks p other (fun _ => true) reg touched rfl value m).apart
    | raise code => exact blind.raiseException rfl
    | fact f => exact blind.rawFact rfl
    -- Reporting looks at the abort flag and the clock only.
    | trace type address value =>
      have stopped : (m.mapCpu (p.refill other)).aborted hooks = m.aborted hooks := rfl
      simp only [Effect.apply, Machine.traceEmit, stopped]
      split <;> rfl
    | _ => rfl
  read := fun right => absurd (read.symm.trans right) (by decide)
  modify := fun right => absurd (modify.symm.trans right) (by decide)

end Registers

/-! ### Every instruction -/

/-- The pointed cell of an indirect form. -/
theorem Reach.pointed {r : Reach} {c : Cpu} (cells : r.cells c = [c.indirRxAddress]) :
    0x7F#8 < c.indirRxAddress →
      (r.footprint c).upper (c.indirRxAddress.setWidth 7) = true := by
  refine Reach.touched ?_
  rw [cells]
  exact List.mem_singleton.mpr rfl

/-- The indirect forms, row by row. -/
theorem indirectForms_reach : List.Forall₂ Op.Reaches indirectForms indirectReach := by
  -- Four shapes cover most of the sixteen rows: alter, combine, add and subtract.
  have alters : ∀ {f : Cpu → Byte → Byte}, (∀ c d, f c = f d) →
      (indirOp f).Reaches (.indirect false []) := by
    intro f same ω hooks m other blind
    exact indirOp_confined rfl (Reach.pointed rfl) (same _ _)
  have combines : ∀ f, (logicIndirRx f).Reaches (.indirect true [Reg.acc]) := by
    intro f ω hooks m other blind
    exact logicIndirRx_confined rfl (Reach.pointed rfl) rfl rfl f
  have carried : ∀ (p : Footprint) (other : Contents) (c : Cpu), p.sfr Reg.psw = true →
      (p.refill other c).carry = c.carry := by
    intro p other c bank
    simp only [Cpu.carry, Footprint.refill, bank, if_true]
  have adds : ∀ carryIn : Cpu → Bool, (∀ (p : Footprint) (other : Contents) (c : Cpu),
      p.sfr Reg.psw = true → carryIn (p.refill other c) = carryIn c) →
      (do let c ← cpu; addAcc (c.readIndir c.indirRxAddress) (carryIn c) 1#16 : Op Nat).Reaches
        (.indirect true [Reg.acc, Reg.psw]) := by
    intro carryIn seen ω hooks m other blind
    exact @arithIndirRx_confined ω hooks m _ other _ rfl (Reach.pointed rfl) addAcc
      (fun _ _ _ => addAcc_confined rfl rfl rfl rfl _ _ _ _) carryIn (seen _ _ _ rfl)
  have subtracts : (do
      let c ← cpu; subAcc (c.readIndir c.indirRxAddress) c.carry 1#16 : Op Nat).Reaches
        (.indirect true [Reg.acc, Reg.psw]) := by
    intro ω hooks m other blind
    exact @arithIndirRx_confined ω hooks m _ other _ rfl (Reach.pointed rfl) subAcc
      (fun _ _ _ => subAcc_confined rfl rfl rfl rfl _ _ _ _) Cpu.carry (carried _ _ _ rfl)
  -- The remaining rows have shapes of their own.
  simp only [indirectForms, indirectReach, List.forall₂_cons, List.forall₂_nil_left_iff, and_true]
  refine ⟨alters fun _ _ => rfl, alters fun _ _ => rfl, adds (fun _ => false) fun _ _ _ _ => rfl,
    adds Cpu.carry carried, combines _, combines _, combines _, ?_, ?_, subtracts, ?_, ?_, ?_, ?_,
    ?_, ?_⟩
  · intro ω hooks m other blind
    exact movIndirRxImm_confined blind rfl (Reach.pointed rfl)
  · intro ω hooks m other blind
    exact ⟨movMemIndirRx_apart (fun _ => rfl) blind (Reach.pointed rfl),
      fun _ no => absurd no (by simp [Reach.stores])⟩
  · intro ω hooks m other blind
    refine movIndirRxMem_confined blind rfl (Reach.pointed rfl) fun high => ?_
    simp [Reach.footprint, Reach.sees, Reach.isOperand, high]
  · intro ω hooks m other blind
    exact cjneIndirRxImmOffset_confined blind rfl (Reach.pointed rfl) rfl
  · intro ω hooks m other blind
    exact xchAIndirRx_confined rfl (Reach.pointed rfl) rfl rfl
  · intro ω hooks m other blind
    exact xchdAIndirRx_confined rfl (Reach.pointed rfl) rfl rfl
  · intro ω hooks m other blind
    exact movAIndirRx_confined rfl (Reach.pointed rfl) rfl rfl
  · intro ω hooks m other blind
    refine indirOp_confined rfl (Reach.pointed rfl) ?_
    funext value
    exact refill_acc rfl _

/-- Column 6 and column 7 of the opcode map hold the indirect forms. -/
theorem opTable_indirect : ∀ opcode : Byte, opcode &&& 0x0E#8 = 0x06#8 →
    opTable opcode = indirectForms[(opcode >>> 4).toNat]?.getD nop := by
  -- The row is the high nibble, the column the low one, of which bit 3 must be clear.
  intro opcode column
  have low : has opcode 0x08#8 = false ∧
      ((opcode &&& 7#8).toNat = 6 ∨ (opcode &&& 7#8).toNat = 7) := by
    revert opcode
    decide
  -- A column of the map is what its rows have at that place.
  have column : ∀ (rows : List (List (Op Nat))) (forms : List (Op Nat)) (j i : Nat),
      rows.map (fun row => row[j]?) = forms.map some →
        (rows[i]?.bind fun row => row[j]?).getD nop = forms[i]?.getD nop := by
    intro rows forms j i same
    have entry := congrArg (fun xs => xs[i]?) same
    simp only [List.getElem?_map] at entry
    cases row : rows[i]? <;> cases form : forms[i]? <;> simp_all
  -- Column 7 has the same forms as column 6, with R1 in place of R0.
  rw [opTable, low.1]
  rcases low.2 with six | seven
  · rw [six]
    exact column opRows indirectForms 6 _ rfl
  · rw [seven]
    exact column opRows indirectForms 7 _ rfl

/-- The opcodes that are left have no right to upper internal RAM. -/
theorem opRights_bare : ∀ opcode : Byte, ¬opcode &&& 0x0E#8 = 0x06#8 →
    ¬(opcode &&& 0x1F#8 = 0x11#8 ∨ opcode = 0x12#8) → ¬opcode = 0x22#8 → ¬opcode = 0x32#8 →
      ¬opcode = 0xC0#8 → ¬opcode = 0xD0#8 →
        (opRights opcode).upper = false ∧ (opRights opcode).leave = false := by
  decide +kernel

/-- Bodies with no right to either space work on their own registers, and report the P1 latch. -/
theorem lawful_reaches {p : Op Nat} {r : Rights} (lawful : p.Lawful r) {reach : Reach}
    (kind : reach = .registers ∧ r.external = false ∨ reach = .external)
    (upper : r.upper = false) (read : r.read = false) (modify : r.modify = false)
    (write : r.write = false) (latch : r.latch = false) (leave : r.leave = false) :
    p.Reaches reach := by
  intro ω hooks m other blind
  -- What such a body sees is in its footprint: its own registers, or also the P1 latch.
  have own : ∀ i, r.sees i = true → (reach.footprint m.cpu).sfr i = true := by
    intro i seen
    simp only [Rights.sees, latch, Bool.or_false] at seen
    rcases kind with ⟨rfl, bare⟩ | rfl
    · simpa [bare, Reach.footprint, Reach.sees] using seen
    · simp only [Bool.or_eq_true, Bool.and_eq_true] at seen
      simp only [Reach.footprint, Reach.sees, Bool.or_eq_true]
      exact seen.imp id And.right
  -- It stores its own registers only, by the same rights.
  refine ⟨lawful.apart blind (registers_tolerated write leave blind own upper read modify) m,
    fun i kept => lawful_keepsSfr write lawful m i ?_ (Or.inl leave)⟩
  rcases kind with ⟨rfl, -⟩ | rfl <;> exact kept

/-- ACALL stands in every second row of its column. -/
theorem opTable_acall : ∀ opcode : Byte, opcode &&& 0x1F#8 = 0x11#8 →
    opTable opcode = acallOffset := by
  intro opcode odd
  have rows : ∀ opcode : Byte, opcode &&& 0x1F#8 = 0x11#8 → opcode = 0x11#8 ∨ opcode = 0x31#8 ∨
      opcode = 0x51#8 ∨ opcode = 0x71#8 ∨ opcode = 0x91#8 ∨ opcode = 0xB1#8 ∨ opcode = 0xD1#8 ∨
        opcode = 0xF1#8 := by
    decide
  rcases rows opcode odd with rfl | rfl | rfl | rfl | rfl | rfl | rfl | rfl <;> rfl

/-- Every opcode reaches the two spaces as its row and column say. -/
theorem opTable_reaches (opcode : Byte) : (opTable opcode).Reaches (opReach opcode) := by
  have calls : ∀ p : Op Nat, p = acallOffset ∨ p = lcallAddress → p.Reaches .call := by
    rintro p (rfl | rfl) ω hooks m other blind
    · exact acallOffset_confined blind rfl rfl (Reach.touched (by simp [Reach.cells]))
        (Reach.touched (by simp [Reach.cells]))
    · exact lcallAddress_confined blind rfl rfl (Reach.touched (by simp [Reach.cells]))
        (Reach.touched (by simp [Reach.cells]))
  by_cases pointer : opcode &&& 0x0E#8 = 0x06#8
  · have missing : nop.Reaches .registers :=
      @lawful_reaches _ {} nop_lawful _ (Or.inl ⟨rfl, rfl⟩) rfl rfl rfl rfl rfl rfl
    simp only [opReach, if_pos pointer, opTable_indirect opcode pointer]
    exact forall₂_getD indirectForms_reach missing _
  by_cases call : opcode &&& 0x1F#8 = 0x11#8 ∨ opcode = 0x12#8
  · simp only [opReach, if_neg pointer, if_pos call]
    refine calls _ (call.imp (opTable_acall opcode) ?_)
    rintro rfl
    rfl
  by_cases returns : opcode = 0x22#8
  · subst returns
    intro ω hooks m other blind
    exact retOp_confined blind rfl rfl (@Reach.touched .ret _ _ (by simp [Reach.cells]))
      (@Reach.touched .ret _ _ (by simp [Reach.cells]))
  by_cases leaves : opcode = 0x32#8
  · subst leaves
    intro ω hooks m other blind
    refine ⟨reti_apart (fun _ => rfl) blind (@Reach.touched .reti _ _ (by simp [Reach.cells]))
      (@Reach.touched .reti _ _ (by simp [Reach.cells])), fun i no => ?_⟩
    have outside : isOwn i = false ∧ i ≠ Reg.tcon := by
      have neither : (isOwn i || i == Reg.tcon) = false := no
      simpa using neither
    have lawful : reti.Lawful { upper := true, leave := true, classic := true } :=
      reti_lawful rfl rfl rfl
    exact lawful_keepsSfr rfl lawful m i outside.1 (Or.inr outside.2)
  by_cases pushes : opcode = 0xC0#8
  · subst pushes
    intro ω hooks m other blind
    refine pushMem_confined blind rfl rfl (@Reach.touched .push _ _ (by simp [Reach.cells]))
      fun high => ?_
    show (Reach.push.footprint m.cpu).sfr _ = true
    simp [Reach.footprint, Reach.sees, Reach.isOperand, high]
  by_cases pops : opcode = 0xD0#8
  · subst pops
    intro ω hooks m other blind
    exact ⟨popMem_apart (fun _ => rfl) blind (@Reach.touched .pop _ _ (by simp [Reach.cells])),
      fun _ no => absurd (show true = false from no) (by decide)⟩
  -- What is left is told apart by its rights.
  obtain ⟨upper, leave⟩ := opRights_bare opcode pointer call returns leaves pushes pops
  have lawful := opTable_lawful opcode
  simp only [opReach, if_neg pointer, if_neg call, if_neg returns, if_neg leaves, if_neg pushes,
    if_neg pops]
  generalize opRights opcode = r at upper leave lawful
  generalize opTable opcode = p at lawful
  split
  · intro ω hooks m other blind
    exact ⟨lawful.apart blind (refill_tolerated (fun _ => rfl) blind upper) m,
      fun _ no => absurd no (by simp [Reach.stores])⟩
  · rename_i bare
    simp only [Bool.or_eq_true, not_or, Bool.not_eq_true] at bare
    obtain ⟨⟨⟨read, modify⟩, write⟩, latch⟩ := bare
    split
    · exact lawful_reaches lawful (Or.inr rfl) upper read modify write latch leave
    · rename_i inside
      exact lawful_reaches lawful (Or.inl ⟨rfl, by simpa using inside⟩) upper read modify write
        latch leave

/-! ### Pointers above the lower half -/

/-- The programs behind a pointer at a cell of upper internal RAM that holds a byte, row by row. -/
def upperForms (cell : SfrIndex) (value : Byte) : List (Op Nat) :=
  let store (new : Op Byte) (length : Word) (delay : Nat) : Op Nat := do
    perform (.setUpper cell (← new))
    advancePc length
    pure delay
  let nibbles (c : Cpu) : Byte := (c.sfr Reg.acc &&& 0xF0#8) ||| (value &&& 0x0F#8)
  [store (pure (value + 1#8)) 1#16 0,
   store (pure (value - 1#8)) 1#16 0,
   addAcc value false 1#16,
   do addAcc value (← cpu).carry 1#16,
   logicAcc (· ||| ·) value 1#16,
   logicAcc (· &&& ·) value 1#16,
   logicAcc (· ^^^ ·) value 1#16,
   store operand1 2#16 0,
   do storeMem (← operand1) value 2#16 1,
   do subAcc value (← cpu).carry 1#16,
   store (do readMem (← operand1)) 2#16 1,
   do compareBranch value (← operand1),
   do
    perform (.setUpper cell ((← cpu).sfr Reg.acc))
    accOp fun _ => value,
   do
    let c ← cpu
    setAcc (nibbles c)
    perform (.setUpper cell ((value &&& 0xF0#8) ||| (nibbles c &&& 0x0F#8)))
    advancePc 1#16
    pure 0,
   accOp fun _ => value,
   store (do pure ((← cpu).sfr Reg.acc)) 1#16 0]

/-- Behind a pointer above the lower half stands the cell of upper internal RAM. -/
theorem opTable_upper {opcode : Byte} (pointer : opcode &&& 0x0E#8 = 0x06#8) (m : Machine ω)
    {data : SfrIndex → Byte} (backed : m.cpu.upperData = some data)
    (high : 0x7F#8 < m.cpu.indirRxAddress) :
    (opTable opcode).run hooks m =
      ((upperForms (m.cpu.indirRxAddress.setWidth 7)
        (data (m.cpu.indirRxAddress.setWidth 7)))[(opcode >>> 4).toNat]?.getD nop).run hooks m := by
  have byte : m.cpu.readIndir m.cpu.indirRxAddress =
      data (m.cpu.indirRxAddress.setWidth 7) := by
    simp only [Cpu.readIndir, if_pos high, backed]
  have forms : List.Forall₂ (fun p q : Op Nat => p.run hooks m = q.run hooks m) indirectForms
      (upperForms (m.cpu.indirRxAddress.setWidth 7) (data (m.cpu.indirRxAddress.setWidth 7))) := by
    simp only [indirectForms, upperForms, List.forall₂_cons, List.forall₂_nil_left_iff, and_true]
    -- The forms that only read differ in nothing, those that store in where the byte goes.
    rw [← byte]
    refine ⟨?_, ?_, rfl, rfl, rfl, rfl, rfl, ?_, rfl, rfl, ?_, rfl, ?_, ?_, rfl, ?_⟩
    all_goals
      simp only [incIndirRx, decIndirRx, movIndirRxA, indirOp, movIndirRxImm, movIndirRxMem,
        xchAIndirRx, xchdAIndirRx, bind_eq, run_cpu_bind, writeMemIndir, if_pos high]
      try rfl
  rw [opTable_indirect opcode pointer]
  exact @forall₂_getD _ _ _ _ _ forms _ _ rfl _

/-! ### Pushes and pops -/

/-- With upper RAM behind it, a push stores its byte there and moves the pointer, no more. -/
theorem pushToStack_upper (value : Byte) (n : Machine ω) {data : SfrIndex → Byte}
    (backed : n.cpu.upperData = some data) (high : 0x7F#8 < n.cpu.sfr Reg.sp + 1#8) :
    (pushToStack value).run hooks n = (true, n.mapCpu fun c =>
      { c with
        sfr := Function.update c.sfr Reg.sp (c.sfr Reg.sp + 1#8)
        upperData := some (Function.update data ((c.sfr Reg.sp + 1#8).setWidth 7) value) }) := by
  -- A cell above 7Fh is backed by upper RAM, so the push cannot fail.
  have room : n.cpu.canPush = true := by
    have wraps : n.cpu.sfr Reg.sp + 1#8 ≠ 0#8 := by
      intro zero
      rw [zero] at high
      exact absurd high (by decide)
    simp [Cpu.canPush, Cpu.stackBacked, backed, wraps]
  -- The run of a push with room is known, and only the cell has to be named.
  rw [pushToStack_run value n room]
  simp only [Machine.mapCpu, Cpu.push, if_pos high, backed, Option.map_some]

/-- With upper RAM behind it, a pop answers the byte there and moves the pointer, no more. -/
theorem popFromStack_upper (n : Machine ω) {data : SfrIndex → Byte}
    (backed : n.cpu.upperData = some data) (high : 0x7F#8 < n.cpu.sfr Reg.sp) :
    popFromStack.run hooks n = (some (data ((n.cpu.sfr Reg.sp).setWidth 7)), n.mapCpu fun c =>
      { c with sfr := Function.update c.sfr Reg.sp (c.sfr Reg.sp - 1#8) }) := by
  -- The cell below is backed too, unless the pointer wraps, which it does not from above 7Fh.
  have room : n.cpu.canPop = true := by
    have wraps : n.cpu.sfr Reg.sp - 1#8 ≠ 0xFF#8 := by
      have below : ∀ sp : Byte, 0x7F#8 < sp → sp - 1#8 ≠ 0xFF#8 := by decide
      exact below _ high
    simp [Cpu.canPop, Cpu.stackBacked, backed, wraps]
  rw [run_popFromStack n room]
  simp only [Cpu.readIndir, if_pos high, backed]
  rfl

/-! ### Interrupt entry -/

/-- The contents of a cell of upper internal RAM, when there is any. -/
def Cpu.cell (c : Cpu) (i : SfrIndex) : Option Byte := c.upperData.map fun data => data i

/-- A push changes at most the cell above the pointer. -/
theorem push_cell (value : Byte) (n : Machine ω) {i : SfrIndex}
    (apart : sfrAddress i ≠ n.cpu.sfr Reg.sp + 1#8) :
    ((pushToStack value).run hooks n).2.cpu.cell i = n.cpu.cell i := by
  have stored : 0x7F#8 < n.cpu.sfr Reg.sp + 1#8 →
      (n.cpu.upperData.map fun data =>
        Function.update data ((n.cpu.sfr Reg.sp + 1#8).setWidth 7) value).map (fun data => data i) =
          n.cpu.cell i := by
    intro high
    have elsewhere : i ≠ (n.cpu.sfr Reg.sp + 1#8).setWidth 7 := by
      rintro rfl
      exact apart (sfrAddress_setWidth _ high)
    simp only [Cpu.cell, Option.map_map]
    congr 1
    funext data
    exact Function.update_of_ne elsewhere _ _
  simp only [pushToStack, bind_eq, run_cpu_bind, run_perform_bind, run_ite, run_writeMemIndir_bind,
    pure_eq]
  -- The wrap test only decides about the exception, the address decides where the byte goes.
  split
  · split
    · split
      · rename_i high
        exact stored high
      · rfl
    · split
      · rename_i high
        exact stored high
      · rfl
  · rfl

/-- What an interrupt entry may change: the pointer, IDLE, request flags and two cells. -/
structure EntryOnly (a b : Cpu) : Prop where
  sfr : ∀ i, i ∉ [Reg.sp, Reg.pcon, Reg.tcon, Reg.ircon] → b.sfr i = a.sfr i
  cells : ∀ i, sfrAddress i ≠ a.sfr Reg.sp + 1#8 → sfrAddress i ≠ a.sfr Reg.sp + 1#8 + 1#8 →
    b.cell i = a.cell i

/-- One push. -/
theorem push_entryOnly (value : Byte) (n : Machine ω) :
    EntryOnly n.cpu ((pushToStack value).run hooks n).2.cpu where
  sfr := by
    intro i outside
    refine (pushToStack_sameButStack value n).sfr i ?_
    rintro rfl
    exact outside (by decide)
  cells := fun i low _ => push_cell value n low

/-- Two pushes in a row. -/
theorem pushes_entryOnly (low high : Byte) (n : Machine ω) :
    EntryOnly n.cpu ((pushToStack high).run hooks ((pushToStack low).run hooks n).2).2.cpu where
  sfr := fun i outside =>
    ((push_entryOnly high _).sfr i outside).trans ((push_entryOnly low n).sfr i outside)
  -- The second push writes the cell behind the one of the first.
  cells := by
    intro i first second
    have above : sfrAddress i ≠ ((pushToStack low).run hooks n).2.cpu.sfr Reg.sp + 1#8 := by
      rw [pushToStack_sp]
      exact second
    exact (push_cell high _ above).trans (push_cell low n first)

/-- What follows the pushes leaves internal RAM alone. -/
theorem EntryOnly.then {a b c : Cpu} (first : EntryOnly a b)
    (sfr : ∀ i, i ∉ [Reg.sp, Reg.pcon, Reg.tcon, Reg.ircon] → c.sfr i = b.sfr i)
    (upper : c.upperData = b.upperData) : EntryOnly a c where
  sfr := fun i outside => (sfr i outside).trans (first.sfr i outside)
  cells := by
    intro i low high
    rw [Cpu.cell, upper]
    exact first.cells i low high

/-- What comes before them also leaves the pointer alone. -/
theorem EntryOnly.after {a b c : Cpu} (second : EntryOnly b c)
    (sfr : ∀ i, i ∉ [Reg.tcon, Reg.ircon] → b.sfr i = a.sfr i)
    (upper : b.upperData = a.upperData) : EntryOnly a c where
  -- The two sets of registers are joined.
  sfr := by
    intro i outside
    refine (second.sfr i outside).trans (sfr i fun inside => outside ?_)
    simp only [List.mem_cons, List.not_mem_nil, or_false] at inside ⊢
    tauto
  -- The pointer is not among what came before, so the cells are counted from the same place.
  cells := by
    have sp : b.sfr Reg.sp = a.sfr Reg.sp := sfr Reg.sp (by decide)
    intro i low high
    rw [second.cells i (by rwa [sp]) (by rwa [sp]), Cpu.cell, upper]
    rfl

/-- Nothing changed. -/
theorem EntryOnly.refl (a : Cpu) : EntryOnly a a := ⟨fun _ _ => rfl, fun _ _ _ => rfl⟩

/-- Clearing the flag of the accepted source and looking at the levels again stay in two flags. -/
theorem autoClear_within (source : IrqSource) (n : Machine ω) :
    Within (none : Option (Journal hooks)) pinScope n (irqSync hooks (autoClear source n)) := by
  have tcon : Reg.tcon ∈ pinScope.regs := by decide
  have ircon : Reg.ircon ∈ pinScope.regs := by decide
  -- Behind the flag only the levels are looked at, and these are the same two registers.
  refine Within.irqSync ?_ tcon
  have same : Within (none : Option (Journal hooks)) pinScope n n := Within.refl n
  -- Every source clears one flag at most; a level-triggered one clears none.
  cases source <;> simp only [autoClear]
  all_goals first
    | exact same
    | exact same.clearFlags _ tcon
    | exact same.clearFlags _ ircon
    | exact Within.ite (same.clearFlags _ tcon) same

/-- Accepting a source works on PCON and the request flags. -/
theorem acceptInterrupt_entryOnly (source : IrqSource) (priority : Nat) (returnPc : Word)
    (spBefore : Byte) (pending : Word) {a : Cpu} {n : Machine ω} (first : EntryOnly a n.cpu) :
    EntryOnly a (acceptInterrupt hooks source priority returnPc spBefore pending n).cpu := by
  -- Upper RAM and the pointer belong to what accepting leaves stable.
  have upper := congrArg Stable.upperData
    (@acceptInterrupt_stable ω hooks source priority returnPc spBefore pending n)
  refine first.then (fun i outside => ?_) upper
  simp only [List.mem_cons, List.not_mem_nil, or_false, not_or] at outside
  obtain ⟨-, pcon, tcon, ircon⟩ := outside
  -- Left are PCON and the two registers of flags.
  simp only [acceptInterrupt, emitIrq_cpu]
  refine ((autoClear_within source _).sfr i ?_).trans ?_
  · simp [pinScope, tcon, ircon]
  · rw [raw_cpu]
    exact Function.update_of_ne pcon _ _

/-- So an entry to a selected source has this frame, wherever it ends. -/
theorem enterInterrupt_entryOnly (source : IrqSource) (m : Machine ω) :
    EntryOnly m.cpu (enterInterrupt hooks source m).2.cpu := by
  simp only [enterInterrupt]
  -- Leave is asked for first, and that changes no register.
  generalize kept : m.raw hooks (.contextPreflight m.cpu.machineCycleCount) = n
  have same : m.cpu = n.cpu := by rw [← kept, raw_cpu]
  rw [same]
  -- Either there is no leave, or a push fails, or the source is accepted.
  split
  · exact EntryOnly.refl _
  · split
    · split
      · exact acceptInterrupt_entryOnly _ _ _ _ _ (pushes_entryOnly _ _ n)
      · exact pushes_entryOnly _ _ n
    · exact push_entryOnly _ n

/-- The classic commit clears IDLE and the flag of a timer. -/
theorem acceptClassic_entryOnly (source : ClassicSource) (hi : Bool) {a : Cpu} {n : Machine ω}
    (first : EntryOnly a n.cpu) : EntryOnly a (acceptClassic source hi n).cpu := by
  -- No branch writes a cell.
  have upper : (acceptClassic source hi n).cpu.upperData = n.cpu.upperData := by
    cases source <;> simp only [acceptClassic, mapCpu_cpu, Machine.clearFlags, Machine.setSfr]
  refine first.then (fun i outside => ?_) upper
  simp only [List.mem_cons, List.not_mem_nil, or_false, not_or] at outside
  obtain ⟨-, pcon, tcon, -⟩ := outside
  have idle : Function.update n.cpu.sfr Reg.pcon (n.cpu.sfr Reg.pcon &&& ~~~Pcon.idle) i =
      n.cpu.sfr i := Function.update_of_ne pcon _ _
  -- Only the two timers have a flag that entry clears.
  cases source with
  | timer0 => exact (Function.update_of_ne tcon _ _).trans idle
  | timer1 => exact (Function.update_of_ne tcon _ _).trans idle
  | int0 => exact idle
  | int1 => exact idle
  | serial => exact idle

/-- An interrupt entry touches the pointer, IDLE, request flags and two cells of the stack. -/
theorem handleInterrupts_entryOnly (m : Machine ω) :
    EntryOnly m.cpu (handleInterrupts hooks m).2.cpu := by
  -- The pins are looked at before anything is selected.
  have synced : Within (none : Option (Journal hooks)) pinScope m (irqSync hooks m) :=
    (Within.refl m).irqSync (by decide)
  have upper : (irqSync hooks m).cpu.upperData = m.cpu.upperData := by
    conv_rhs => rw [← synced.rest]
    rfl
  have before : ∀ {c : Cpu}, EntryOnly (irqSync hooks m).cpu c → EntryOnly m.cpu c :=
    fun rest => rest.after synced.sfr upper
  simp only [handleInterrupts]
  -- The two variants select and enter in different ways.
  split
  · -- Without a selected source nothing happens behind the look at the pins.
    rcases handleSabInterrupts_cases hooks m with ⟨same, -⟩ | ⟨source, -, -, -, -, same⟩
    · rw [same]
      exact before (EntryOnly.refl _)
    · rw [same]
      exact before (enterInterrupt_entryOnly source _)
  · -- The classic core has no pins to look at, and enters at one of two priorities.
    simp only [handleClassicInterrupts]
    split
    · exact EntryOnly.refl _
    · split
      · exact EntryOnly.refl _
      · split
        · exact EntryOnly.refl _
        · split
          · split
            · exact acceptClassic_entryOnly _ _ (pushes_entryOnly _ _ m)
            · exact pushes_entryOnly _ _ m
          · exact push_entryOnly _ m

/-! ### No aliases -/

/-- An instruction changes no cell of upper internal RAM that it does not reach. -/
theorem Op.Reaches.cell {p : Op Nat} {r : Reach} (reaches : p.Reaches r) (settled : hooks.Settled)
    (m : Machine ω) (blind : ∀ other, hooks.Blind ((r.footprint m.cpu).refill other))
    {i : SfrIndex} (apart : sfrAddress i ∉ r.cells m.cpu) :
    (p.run hooks m).2.cpu.cell i = m.cpu.cell i := by
  -- Refilling with its own contents changes nothing before, and so nothing after.
  let own : Contents := ⟨m.cpu.upperData.getD fun _ => 0#8, m.cpu.sfr⟩
  have unseen : (r.footprint m.cpu).upper i = false := by
    simpa [Reach.footprint, List.contains_iff_mem] using apart
  have same : (r.footprint m.cpu).refill own m.cpu = m.cpu := by
    have cells : (m.cpu.upperData.map fun data j =>
        if (r.footprint m.cpu).upper j then data j else own.upper j) = m.cpu.upperData := by
      cases kept : m.cpu.upperData with
      | none => rfl
      | some data => simp [own, kept]
    simp only [Footprint.refill, cells, own, ite_self]
  have before : m.mapCpu ((r.footprint m.cpu).refill own) = m := by
    rw [Machine.mapCpu, same]
  have refilled := congrArg (fun result => result.2.cpu.cell i)
    (reaches ω hooks m own (blind own)).apart
  rw [before] at refilled
  have backed : (p.run hooks m).2.cpu.upperData.isSome = m.cpu.upperData.isSome :=
    (settled.keepsAll fun _ backed => backed = m.cpu.upperData.isSome).run p m rfl
  rw [refilled]
  simp only [Cpu.cell, Machine.mapCpu, Footprint.refill, Option.map_map, Function.comp_def, unseen,
    Bool.false_eq_true, if_false, own]
  cases kept : m.cpu.upperData <;> cases left : (p.run hooks m).2.cpu.upperData <;>
    simp [kept, left] at backed ⊢

/-- The whole register file and no upper internal RAM. -/
def registerSpace : Footprint where
  upper _ := false
  sfr _ := true

/-- A direct access goes without upper internal RAM. -/
theorem direct_apart (m : Machine ω) (other : Contents)
    (blind : hooks.Blind (registerSpace.refill other)) (address value : Byte) :
    (readMem address).Apart hooks (registerSpace.refill other) m ∧
      (writeMem address value).Apart hooks (registerSpace.refill other) m := by
  -- A direct access has the right to registers, and none to upper RAM.
  have tolerates := @refill_tolerated ω hooks registerSpace other (fun _ => rfl) blind
    { read := true, write := true } rfl
  have reads : (readMem address).Obeys { read := true, write := true } fun _ => True :=
    readMem_obeys rfl address
  have writes : (writeMem address value).Obeys { read := true, write := true } fun _ => True :=
    writeMem_obeys rfl address value
  exact ⟨reads.apart blind tolerates m, writes.apart blind tolerates m⟩

/--
On a CPU with upper internal RAM no indirect address is an alias of a register, and no direct
address one of upper internal RAM.
-/
theorem address_spaces_separate (settled : hooks.Settled) (m : Machine ω)
    {data : SfrIndex → Byte} (backed : m.cpu.upperData = some data)
    (blind : ∀ other, hooks.Blind (((opReach m.cpu.opcode).footprint m.cpu).refill other)) :
    -- Outside the cells its form names, other contents make no difference.
    (∀ other, (opTable m.cpu.opcode).Apart hooks
      (((opReach m.cpu.opcode).footprint m.cpu).refill other) m) ∧
    (∀ i, sfrAddress i ∉ (opReach m.cpu.opcode).cells m.cpu →
      ((opTable m.cpu.opcode).run hooks m).2.cpu.cell i = m.cpu.cell i) ∧
    (∀ i, (opReach m.cpu.opcode).stores i = false →
      ((opTable m.cpu.opcode).run hooks m).2.cpu.sfr i = m.cpu.sfr i) ∧
    -- A pointer above the lower half stands for a cell of upper internal RAM.
    (m.cpu.opcode &&& 0x0E#8 = 0x06#8 → 0x7F#8 < m.cpu.indirRxAddress →
      (opTable m.cpu.opcode).run hooks m =
        ((upperForms (m.cpu.indirRxAddress.setWidth 7) (data (m.cpu.indirRxAddress.setWidth 7)))[
          (m.cpu.opcode >>> 4).toNat]?.getD nop).run hooks m) ∧
    -- So does the stack pointer, in whatever instruction or interrupt entry.
    (∀ value, 0x7F#8 < m.cpu.sfr Reg.sp + 1#8 →
      (pushToStack value).run hooks m = (true, m.mapCpu fun c =>
        { c with
          sfr := Function.update c.sfr Reg.sp (c.sfr Reg.sp + 1#8)
          upperData := some (Function.update data ((c.sfr Reg.sp + 1#8).setWidth 7) value) })) ∧
    (0x7F#8 < m.cpu.sfr Reg.sp →
      popFromStack.run hooks m = (some (data ((m.cpu.sfr Reg.sp).setWidth 7)), m.mapCpu fun c =>
        { c with sfr := Function.update c.sfr Reg.sp (c.sfr Reg.sp - 1#8) })) ∧
    EntryOnly m.cpu (handleInterrupts hooks m).2.cpu ∧
    -- A direct operand is the same with any other upper internal RAM.
    (∀ other, hooks.Blind (registerSpace.refill other) → ∀ address value,
      (readMem address).Apart hooks (registerSpace.refill other) m ∧
        (writeMem address value).Apart hooks (registerSpace.refill other) m) := by
  have reaches := opTable_reaches m.cpu.opcode
  refine ⟨fun other => (reaches ω hooks m other (blind other)).apart,
    fun i apart => reaches.cell settled m blind apart, fun i kept => ?_,
    fun pointer high => opTable_upper pointer m backed high,
    fun value high => pushToStack_upper value m backed high,
    fun high => popFromStack_upper m backed high, handleInterrupts_entryOnly m,
    fun other blind => direct_apart m other blind⟩
  exact (reaches ω hooks m ⟨data, m.cpu.sfr⟩ (blind _)).frame i kept

/-- R0 points at the cell that shares its address with ACC, and `INC @R0` comes next. -/
def pointerAtAcc : Machine Unit :=
  (Machine.boot fun _ => 0x06#8).mapCpu fun c =>
    { c with
      lowerData := Function.update c.lowerData 0#7 0xE0#8
      upperData := some fun _ => 0x41#8
      sfr := Function.update c.sfr Reg.acc 0x10#8 }

/-- The increment is of the cell, and ACC stays as it is. -/
theorem address_spaces_separate_pointerAtAcc :
    ((opTable pointerAtAcc.cpu.opcode).run Hooks.none pointerAtAcc).2.cpu.cell 0x60#7 =
        some 0x42#8 ∧
      ((opTable pointerAtAcc.cpu.opcode).run Hooks.none pointerAtAcc).2.cpu.sfr Reg.acc =
        0x10#8 := by
  -- Without callbacks nothing remembers what it was handed.
  have settled : Hooks.none.Settled :=
    fun _ _ installed => absurd installed (by simp [Hooks.none])
  -- The frame and the cell are two parts of the law; the value of the cell is computed.
  obtain ⟨-, -, frame, behind, -⟩ := address_spaces_separate settled pointerAtAcc rfl
    fun other => Hooks.none_blind _
  refine ⟨?_, (frame Reg.acc (by decide)).trans (by decide)⟩
  rw [behind (by decide) (by decide)]
  decide

end Emu80535
