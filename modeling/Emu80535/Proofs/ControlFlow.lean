import Mathlib.Data.List.Forall2
import Emu80535.Proofs.Disassembly
import Emu80535.Proofs.RoundTrip

/-! Where every opcode body leaves the program counter, next to what its decoder says. -/

namespace Emu80535

variable {ω : Type} {hooks : Hooks ω} {α β : Type} {m : Machine ω}

open Machine Op

/-! ### The place of execution -/

/-- The program counter and the code memory. -/
def Stable.place (s : Stable) : Word × (Word → Byte) × Word :=
  (s.pc, s.fixed.codeMem, s.fixed.codeMemMaxIdx)

/-- The place a CPU object is at. -/
def Cpu.place (c : Cpu) : Word × (Word → Byte) × Word := c.stable.place

/-- A register write callback neither jumps nor exchanges the code. -/
def Hooks.KeepsPlace (hooks : Hooks ω) : Prop :=
  ∀ index callback, hooks.sfrwrite index = some callback → ∀ m : Machine ω,
    (callback m).cpu.place = m.cpu.place

namespace Cpu

variable {a b : Cpu}

/-- The place of a CPU contains its program counter. -/
theorem place_pc (same : b.place = a.place) : b.pc = a.pc := congrArg Prod.fst same

/-- And the code it executes. -/
theorem place_code (same : b.place = a.place) : b.code = a.code := by
  have memory : b.codeMem = a.codeMem := congrArg (fun p => p.2.1) same
  have mask : b.codeMemMaxIdx = a.codeMemMaxIdx := congrArg (fun p => p.2.2) same
  funext address
  rw [Cpu.code, Cpu.code, memory, mask]

/-- A stable CPU stays in its place. -/
theorem place_of_stable (same : b.stable = a.stable) : b.place = a.place :=
  congrArg Stable.place same

end Cpu

/-- A callback that keeps the place leaves it. -/
theorem sfrCallback_place (keeps : hooks.KeepsPlace) (index : SfrIndex) (m : Machine ω) :
    (m.sfrCallback hooks index).cpu.place = m.cpu.place := by
  simp only [Machine.sfrCallback]
  split
  · rename_i callback installed
    exact keeps index callback installed m
  · rfl

/-- A register write goes nowhere. -/
theorem sfrWrite_place (keeps : hooks.KeepsPlace) (index : SfrIndex) (value : Byte)
    (m : Machine ω) : (sfrWrite hooks index value m).cpu.place = m.cpu.place := by
  have entered : (sfrWriteEnter m).cpu.place = m.cpu.place :=
    Cpu.place_of_stable (sfrWriteEnter_stable m)
  have stored : ∀ (i : SfrIndex) (v : Byte) (k : Machine ω),
      (k.setSfr i v).cpu.place = k.cpu.place := fun i v k => rfl
  have asked : ∀ (f : RawFact) (k : Machine ω), (k.raw hooks f).cpu.place = k.cpu.place :=
    fun f k => congrArg Cpu.place (raw_cpu hooks k f)
  have sent : ∀ (v : Byte) (k : Machine ω),
      (uartSbufWrite hooks v k).cpu.place = k.cpu.place :=
    fun v k => Cpu.place_of_stable (uartSbufWrite_stable ..)
  simp only [sfrWrite]
  split
  · -- Every part of a write of the serial buffer goes nowhere.
    simp only [sbufWrite]
    split
    · simp only [asked, entered]
    · split
      · simp only [asked, sfrCallback_place keeps, stored, sent, entered]
      · rw [asked, Cpu.place_of_stable (adcFinishSfrTransaction_stable _), traceEmit_cpu]
        simp only [stored, sfrCallback_place keeps, sent, asked, entered]
  · have body : ∀ (v : Byte) (k : Machine ω),
        (sfrWriteBody hooks index v k).cpu.place = k.cpu.place := by
      intro v k
      simp only [sfrWriteBody]
      rw [sfrCallback_place keeps]
      split
      · rw [Cpu.place_of_stable (adcRequestStart_stable _), irqWrite_cpu, stored]
      · rw [irqWrite_cpu, stored]
    split
    · rw [body, entered]
    · refine (congrArg Stable.place (sfrWriteTail_stable index _ _)).trans ?_
      exact (body _ _).trans entered

/-- An action other than storing the program counter goes nowhere. -/
theorem Effect.apply_place (keeps : hooks.KeepsPlace) (e : Effect) (stays : ∀ pc, e ≠ .setPc pc)
    (m : Machine ω) : (e.apply hooks m).cpu.place = m.cpu.place := by
  -- Of all the actions only a jump goes anywhere.
  cases e with
  | setPc pc => exact absurd rfl (stays pc)
  | setLower _ _ | setUpper _ _ | setReg _ _ | setExt _ _ | setInterruptActive _ | raise _
  | emit _ => rfl
  | sfrWrite index value => exact sfrWrite_place keeps index value m
  -- Leaving an interrupt is stable up to the entry it pops.
  | irqReti originalSp =>
    rcases @sabIrqReti_stable ω hooks originalSp m with ⟨same, -⟩ | ⟨-, same⟩
    · exact Cpu.place_of_stable same
    · exact (congrArg Stable.place same).trans rfl
  | trace type address value => exact congrArg Cpu.place (traceEmit_cpu hooks m _ _ _)
  | fact f => exact congrArg Cpu.place (raw_cpu hooks m f)

/-! ### Performed actions -/

namespace Op

/-- Whether a body performs an action of a kind when it is run. -/
def performs (hooks : Hooks ω) (kind : Effect → Bool) : Op α → Machine ω → Bool
  | ret _, _ => false
  | look next, m => (next m.cpu).performs hooks kind m
  | act effect next, m => kind effect || next.performs hooks kind (effect.apply hooks m)
  | aborted next, m => (next (m.aborted hooks)).performs hooks kind m
  | ask fact next, m => (next (m.rawAnswer hooks fact)).performs hooks kind (m.raw hooks fact)
  | sfrRead index next, m =>
    let answer := Emu80535.sfrRead hooks index m
    (next answer.1).performs hooks kind answer.2
  | sfrRmwRead index next, m =>
    let answer := Emu80535.sfrRmwRead hooks index m
    (next answer.1).performs hooks kind answer.2
  | busRead address next, m =>
    match hooks.xread with
    | some callback =>
      let answer := callback m.cpu address m.host
      (next (some answer.1)).performs hooks kind { m with host := answer.2 }
    | none => (next none).performs hooks kind m
  | busWrite address value next, m =>
    match hooks.xwrite with
    | some callback =>
      (next true).performs hooks kind { m with host := callback m.cpu address value m.host }
    | none => (next false).performs hooks kind m

/-- A sequence performs what either half performs. -/
theorem performs_bind (hooks : Hooks ω) (kind : Effect → Bool) (p : Op α) (f : α → Op β)
    (m : Machine ω) :
    (p.bind f).performs hooks kind m =
      (p.performs hooks kind m || (f (p.run hooks m).1).performs hooks kind (p.run hooks m).2) := by
  -- Induction on the first body, with the machine generalized.
  induction p generalizing m with
  | ret value => rfl
  | look next ih => exact ih m.cpu m
  -- An action performs itself, and then what is behind it.
  | act effect next ih =>
    simp only [Op.bind, performs, ih, Bool.or_assoc]
    rfl
  | aborted next ih => exact ih (m.aborted hooks) m
  | ask fact next ih => exact ih (m.rawAnswer hooks fact) (m.raw hooks fact)
  | sfrRead index next ih => exact ih _ _
  | sfrRmwRead index next ih => exact ih _ _
  -- A bus that is not installed answers by itself.
  | busRead address next ih =>
    cases installed : hooks.xread <;> simp only [Op.bind, performs, Op.run, installed, ih]
  | busWrite address value next ih =>
    cases installed : hooks.xwrite <;> simp only [Op.bind, performs, Op.run, installed, ih]

end Op

/-- The stack exception. -/
def Effect.raisesStack : Effect → Bool
  | .raise code => code == .stack
  | _ => false

/-- A body that is run without an abort and without a stack exception. -/
structure Op.Completes (hooks : Hooks ω) (p : Op α) (m : Machine ω) : Prop where
  unaborted : (p.run hooks m).2.aborted hooks = false
  stacked : p.performs hooks Effect.raisesStack m = false

/-- What completes completes in its second half. -/
theorem Op.Completes.later {p : Op α} {f : α → Op β} (completes : (p.bind f).Completes hooks m) :
    (f (p.run hooks m).1).Completes hooks (p.run hooks m).2 := by
  obtain ⟨unaborted, stacked⟩ := completes
  rw [performs_bind, Bool.or_eq_false_iff] at stacked
  rw [run_bind] at unaborted
  exact ⟨unaborted, stacked.2⟩

/-! ### Bodies that lead to one place -/

namespace Op

/-- A body that has come to its end. -/
def Stops : Op α → Prop
  | ret _ => True
  | _ => False

/--
A body that leads from one program counter to another.

It may end elsewhere once it has found itself aborted, or has raised the stack exception.
-/
def Leads (target : Word) : Op α → Word → Prop
  | ret _, pc => pc = target
  | look next, pc => ∀ c : Cpu, (next { c with pc }).Leads target pc
  | act (.setPc next) rest, _ => rest.Leads target next
  | act (.raise .stack) _, _ => True
  | act _ rest, pc => rest.Leads target pc
  | aborted next, pc => (next false).Leads target pc ∧ (next true).Stops
  | ask _ next, pc => ∀ n, (next n).Leads target pc
  | sfrRead _ next, pc => ∀ v, (next v).Leads target pc
  | sfrRmwRead _ next, pc => ∀ v, (next v).Leads target pc
  | busRead _ next, pc => ∀ v, (next v).Leads target pc
  | busWrite _ _ next, pc => ∀ b, (next b).Leads target pc

/-- Both branches lead there if the condition decides between them. -/
theorem leads_ite {target pc : Word} {p : Prop} [Decidable p] {a b : Op α} :
    (if p then a else b).Leads target pc ↔ (p → a.Leads target pc) ∧ (¬p → b.Leads target pc) := by
  split <;> simp_all

/-- Such a body gets there unless it is cut short. -/
theorem Leads.run (keeps : hooks.KeepsPlace) {target : Word} {p : Op α}
    (leads : p.Leads target m.cpu.pc) (completes : p.Completes hooks m) :
    (p.run hooks m).2.cpu.pc = target := by
  obtain ⟨unaborted, stacked⟩ := completes
  -- The place is followed through the tree; only a store of the program counter moves it.
  induction p generalizing m with
  | ret value => exact leads
  | look next ih => exact ih m.cpu (leads m.cpu) unaborted stacked
  | act e next ih =>
    simp only [performs, Bool.or_eq_false_iff] at stacked
    by_cases jumps : ∃ pc, e = .setPc pc
    · obtain ⟨pc, rfl⟩ := jumps
      exact @ih (Effect.apply hooks (.setPc pc) m) leads unaborted stacked.2
    · have place := e.apply_place keeps (fun pc here => jumps ⟨pc, here⟩) m
      have rest : next.Leads target m.cpu.pc := by
        cases e with
        | setPc pc => exact absurd ⟨pc, rfl⟩ jumps
        | raise raised =>
          cases raised with
          | stack => exact absurd stacked.1 (by decide)
          | _ => exact leads
        | _ => exact leads
      rw [← Cpu.place_pc place] at rest
      exact ih rest unaborted stacked.2
  | aborted next ih =>
    cases cut : m.aborted hooks with
    | false =>
      simp only [Op.run, performs, cut] at unaborted stacked ⊢
      exact ih false leads.1 unaborted stacked
    | true =>
      -- A body that notices an abort ends there, still aborted.
      simp only [Op.run, cut] at unaborted
      have finished := leads.2
      cases stopped : next true with
      | ret value =>
        rw [stopped] at unaborted
        exact absurd (cut.symm.trans unaborted) (by decide)
      | _ => rw [stopped] at finished; exact finished.elim
  | ask fact next ih =>
    have place : (m.raw hooks fact).cpu = m.cpu := raw_cpu hooks m fact
    exact ih _ (place ▸ leads _) unaborted stacked
  | sfrRead index next ih =>
    have place : (Emu80535.sfrRead hooks index m).2.cpu = m.cpu := sfrRead_cpu hooks index m
    exact ih _ (place ▸ leads _) unaborted stacked
  | sfrRmwRead index next ih =>
    have place : (Emu80535.sfrRmwRead hooks index m).2.cpu = m.cpu := sfrRmwRead_cpu hooks index m
    exact ih _ (place ▸ leads _) unaborted stacked
  | busRead address next ih =>
    cases installed : hooks.xread with
    | none =>
      simp only [Op.run, performs, installed] at unaborted stacked ⊢
      exact ih _ (leads _) unaborted stacked
    | some callback =>
      simp only [Op.run, performs, installed] at unaborted stacked ⊢
      exact @ih _ { m with host := (callback m.cpu address m.host).2 } (leads _) unaborted
        stacked
  | busWrite address value next ih =>
    cases installed : hooks.xwrite with
    | none =>
      simp only [Op.run, performs, installed] at unaborted stacked ⊢
      exact ih _ (leads _) unaborted stacked
    | some callback =>
      simp only [Op.run, performs, installed] at unaborted stacked ⊢
      exact @ih _ { m with host := callback m.cpu address value m.host } (leads _) unaborted
        stacked

end Op

/-! ### Instructions in sequence -/

/-- A body that leads to the instruction behind the one a decoder sees. -/
def Follows (p : Op Nat) (d : Decoder) : Prop :=
  ∀ pc, p.Leads (pc + BitVec.ofNat 16 d.size) pc

/-- The decoders of the instructions that transfer control. -/
def transferring : List Decoder :=
  [disasmAjmpOffset, disasmLjmpAddress, disasmAcallOffset, disasmLcallAddress, disasmRet,
   disasmReti, disasmJmpIndirADptr, disasmJbcBitaddrOffset, disasmJbBitaddrOffset,
   disasmJnbBitaddrOffset, disasmJcOffset, disasmJncOffset, disasmJzOffset, disasmJnzOffset,
   disasmSjmpOffset, disasmCjneAImmOffset, disasmCjneAMemOffset, disasmCjneIndirRxImmOffset,
   disasmCjneRxImmOffset, disasmDjnzMemOffset, disasmDjnzRxOffset]

/-- The register forms step over themselves, but for those that branch. -/
theorem rxRow_follows :
    List.Forall₂ (fun p d => d ∉ transferring → Follows p d) rxRow disasmRxRow := by
  simp [rxRow, disasmRxRow, Follows, Op.Leads, Op.leads_ite, Op.bind, Op.bind_if, Op.cpu, perform,
    Bind.bind, Pure.pure, operand1, operand, setPsw, setAcc, advancePc, readMem, writeMem,
    storeMem, isAborted, Op.Stops, incRx, rxOp, decRx, addARx, addcARx, addAcc, addSolveFlags,
    solveFlags, orlARx, anlARx, xrlARx, logicRx, logicAcc, movRxImm, movMemRx, subbARx, subAcc,
    subSolveFlags, movRxMem, xchARx, movARx, accOp, movRxA, transferring, disasmIncRx,
    disasmDecRx, disasmAddARx, disasmAddcARx, disasmOrlARx, disasmAnlARx, disasmXrlARx,
    disasmMovRxImm, disasmMovMemRx, disasmSubbARx, disasmMovRxMem, disasmCjneRxImmOffset,
    disasmXchARx, disasmDjnzRxOffset, disasmMovARx, disasmMovRxA]

/-- A MOVX read steps over itself, whoever answers it. -/
theorem movxRead_follows (address pc : Word) :
    (movxRead address).Leads (pc + 1#16) pc := by
  intro context answer
  cases answer with
  | some value => simp [Op.Leads, Op.Stops, Op.bind, Op.cpu, perform, Bind.bind,
      Pure.pure, isAborted, setAcc, movxReadTail, movxEmit, advancePc]
  | none =>
    cases context.extData <;>
      simp [Op.Leads, Op.bind, Op.cpu, perform, Bind.bind, Pure.pure, setAcc, movxReadTail,
        movxEmit, advancePc]

/-- The first eight rows of the two tables agree, entry by entry. -/
theorem firstRows_follows :
    List.Forall₂ (List.Forall₂ fun p d => d ∉ transferring → Follows p d)
      (opRows.take 8) (disasmRows.take 8) := by
  simp [opRows, disasmRows, Follows, Op.Leads, Op.leads_ite, Op.Stops, transferring,
    Op.bind, Op.bind_if, Op.cpu, perform, Bind.bind, Pure.pure, isAborted, operand1, operand,
    operand2, setPsw, setAcc, advancePc, readMem, writeMem, storeMem, setCarry, accOp,
    writeMemIndir, readMemRmw, modifyLatch, readBit, addSolveFlags,
    solveFlags, addAcc, addImm, raiseUnless, nop, rrA, incA, incMem, incIndirRx, indirOp, rrcA,
    decA, decMem, decIndirRx, rlA, addAImm, addAMem, addAIndirRx, rlcA, addcAImm, addcAMem,
    addcAIndirRx, orlMemA, orlMemImm, logicMemImm, orlAImm, orlAMem, orlAIndirRx, logicImm,
    logicMem, logicIndirRx, logicAcc, anlMemA, logicMemAcc, anlMemImm, anlAImm, anlAMem,
    anlAIndirRx, xrlMemA, xrlMemImm, xrlAImm, xrlAMem, xrlAIndirRx, orlCBitaddr, carryOp, movAImm,
    movMemImm, movIndirRxImm, disasmNop, disasmAjmpOffset, disasmLjmpAddress, disasmRrA,
    disasmIncA, disasmIncMem, disasmIncIndirRx, disasmJbcBitaddrOffset, disasmAcallOffset,
    disasmLcallAddress, disasmRrcA, disasmDecA, disasmDecMem, disasmDecIndirRx,
    disasmJbBitaddrOffset, disasmRet, disasmRlA, disasmAddAImm, disasmAddAMem, disasmAddAIndirRx,
    disasmJnbBitaddrOffset, disasmReti, disasmRlcA, disasmAddcAImm, disasmAddcAMem,
    disasmAddcAIndirRx, disasmJcOffset, disasmOrlMemA, disasmOrlMemImm, disasmOrlAImm,
    disasmOrlAMem, disasmOrlAIndirRx, disasmJncOffset, disasmAnlMemA, disasmAnlMemImm,
    disasmAnlAImm, disasmAnlAMem, disasmAnlAIndirRx, disasmJzOffset, disasmXrlMemA,
    disasmXrlMemImm, disasmXrlAImm, disasmXrlAMem, disasmXrlAIndirRx, disasmJnzOffset,
    disasmOrlCBitaddr, disasmJmpIndirADptr, disasmMovAImm, disasmMovMemImm, disasmMovIndirRxImm]

/-- And so do the last eight. -/
theorem lastRows_follows :
    List.Forall₂ (List.Forall₂ fun p d => d ∉ transferring → Follows p d)
      (opRows.drop 8) (disasmRows.drop 8) := by
  simp [opRows, disasmRows, Follows, Op.Leads, Op.leads_ite, Op.Stops, transferring,
    Op.bind, Op.bind_if, Op.cpu, perform, Bind.bind, Pure.pure, isAborted, operand1, operand,
    operand2, setPsw, setAcc, advancePc, readMem, writeMem, storeMem, setCarry, accOp,
    writeMemIndir, modifyLatch, pushToStack, popFromStack, readBit, raiseUnless,
    carryOp, anlCBitaddr, movcAIndirAPc, divAb, movMemMem, movMemIndirRx, movDptrImm, movBitaddrC,
    latchOp, movcAIndirADptr, subbAImm, subbAMem, subbAIndirRx, subAcc, subSolveFlags, solveFlags,
    orlCComplBitaddr, movCBitaddr, incDptr, mulAb, nop, movIndirRxMem, anlCComplBitaddr,
    cplBitaddr, cplC, pushMem, clrBitaddr, clrC, swapA, xchAMem, xchAIndirRx, popMem, setbBitaddr,
    setbC, daA, xchdAIndirRx, movxAIndirDptr, movxAIndirRx, movxEmit, clrA, movAMem, movAIndirRx,
    movxIndirDptrA, movxIndirRxA, movxWrite, movxWriteTail, cplA, movMemA, movIndirRxA, indirOp,
    movxRead_follows, disasmSjmpOffset, disasmAjmpOffset, disasmAnlCBitaddr, disasmMovcAIndirAPc,
    disasmDivAb, disasmMovMemMem, disasmMovMemIndirRx, disasmMovDptrImm, disasmAcallOffset,
    disasmMovBitaddrC, disasmMovcAIndirADptr, disasmSubbAImm, disasmSubbAMem, disasmSubbAIndirRx,
    disasmOrlCComplBitaddr, disasmMovCBitaddr, disasmIncDptr, disasmMulAb, disasmNop,
    disasmMovIndirRxMem, disasmAnlCComplBitaddr, disasmCplBitaddr, disasmCplC,
    disasmCjneAImmOffset, disasmCjneAMemOffset, disasmCjneIndirRxImmOffset, disasmPushMem,
    disasmClrBitaddr, disasmClrC, disasmSwapA, disasmXchAMem, disasmXchAIndirRx, disasmPopMem,
    disasmSetbBitaddr, disasmSetbC, disasmDaA, disasmDjnzMemOffset, disasmXchdAIndirRx,
    disasmMovxAIndirDptr, disasmMovxAIndirRx, disasmClrA, disasmMovAMem, disasmMovAIndirRx,
    disasmMovxIndirDptrA, disasmMovxIndirRxA, disasmCplA, disasmMovMemA, disasmMovIndirRxA]

/-! ### Relative branches -/

/-- The relative branches, by the test each makes. -/
inductive Branch where
  | jbc
  | jb
  | jnb
  | jc
  | jnc
  | jz
  | jnz
  | sjmp
  | cjneAImm
  | cjneAMem
  | cjneIndirRx
  | cjneRx
  | djnzMem
  | djnzRx
  deriving DecidableEq, Repr

namespace Branch

/-- Whether a branch is taken, found out the way its body does. -/
def test : Branch → Op Bool
  | jbc => do
    let address ← operand1
    let c ← cpu
    pure (has (c.latchByte (bitLocation address)) (bitMask address))
  | jb => do readBit (← operand1)
  | jnb => do
    let bit ← readBit (← operand1)
    pure !bit
  | jc => do pure (← cpu).carry
  | jnc => do pure !(← cpu).carry
  | jz => do pure ((← cpu).sfr Reg.acc == 0#8)
  | jnz => do pure ((← cpu).sfr Reg.acc != 0#8)
  | sjmp => pure true
  | cjneAImm => do pure ((← cpu).sfr Reg.acc != (← operand1))
  | cjneAMem => do pure ((← cpu).sfr Reg.acc != (← readMem (← operand1)))
  | cjneIndirRx => do
    let c ← cpu
    pure (c.readIndir c.indirRxAddress != (← operand1))
  | cjneRx => do pure ((← cpu).rx != (← operand1))
  | djnzMem => do pure ((← readMemRmw (← operand1)) - 1#8 != 0#8)
  | djnzRx => do pure ((← cpu).rx - 1#8 != 0#8)

/-- The bodies of the branches. -/
def body : Branch → Op Nat
  | jbc => jbcBitaddrOffset
  | jb => jbBitaddrOffset
  | jnb => jnbBitaddrOffset
  | jc => jcOffset
  | jnc => jncOffset
  | jz => jzOffset
  | jnz => jnzOffset
  | sjmp => sjmpOffset
  | cjneAImm => cjneAImmOffset
  | cjneAMem => cjneAMemOffset
  | cjneIndirRx => cjneIndirRxImmOffset
  | cjneRx => cjneRxImmOffset
  | djnzMem => djnzMemOffset
  | djnzRx => djnzRxOffset

/-- Their decoders. -/
def decoder : Branch → Decoder
  | jbc => disasmJbcBitaddrOffset
  | jb => disasmJbBitaddrOffset
  | jnb => disasmJnbBitaddrOffset
  | jc => disasmJcOffset
  | jnc => disasmJncOffset
  | jz => disasmJzOffset
  | jnz => disasmJnzOffset
  | sjmp => disasmSjmpOffset
  | cjneAImm => disasmCjneAImmOffset
  | cjneAMem => disasmCjneAMemOffset
  | cjneIndirRx => disasmCjneIndirRxImmOffset
  | cjneRx => disasmCjneRxImmOffset
  | djnzMem => disasmDjnzMemOffset
  | djnzRx => disasmDjnzRxOffset

/-- The branch an opcode is, if it is one. -/
def ofOpcode? (opcode : Byte) : Option Branch :=
  if opcode &&& 0xF8#8 = 0xB8#8 then some cjneRx
  else if opcode &&& 0xF8#8 = 0xD8#8 then some djnzRx
  else if opcode &&& 0xFE#8 = 0xB6#8 then some cjneIndirRx
  else
    [(0x10#8, jbc), (0x20#8, jb), (0x30#8, jnb), (0x40#8, jc), (0x50#8, jnc), (0x60#8, jz),
      (0x70#8, jnz), (0x80#8, sjmp), (0xB4#8, cjneAImm), (0xB5#8, cjneAMem),
      (0xD5#8, djnzMem)].lookup opcode

/-- The displacement is the last byte of the instruction. -/
def target (b : Branch) (taken : Bool) (c : Cpu) : Word :=
  let rel := c.code (c.pc + BitVec.ofNat 16 (b.decoder.size - 1))
  c.pc + BitVec.ofNat 16 b.decoder.size + if taken then rel.signExtend 16 else 0#16

end Branch

/-- Where a branch ends once its test is made. -/
theorem relative_run (offset : Nat) (length : Word) (taken : Bool) (n : Machine ω) :
    (Op.run hooks (do
      if taken then branchPc (← operand offset) length
      else advancePc length
      pure 1 : Op Nat) n).2.cpu.pc =
      n.cpu.pc + length +
        if taken then (n.cpu.code (n.cpu.pc + BitVec.ofNat 16 offset)).signExtend 16 else 0#16 := by
  -- A branch that is taken fetches its displacement and adds it to what is behind it.
  cases taken with
  | true =>
    simp only [if_true, bind_eq, run_bind]
    have fetched : ((operand offset).run hooks n).2.cpu = n.cpu := operand_cpu offset n
    have value : ((operand offset).run hooks n).1 =
        n.cpu.code (n.cpu.pc + BitVec.ofNat 16 offset) := rfl
    generalize (operand offset).run hooks n = done at fetched value
    show done.2.cpu.pc + done.1.signExtend 16 + length = _
    rw [fetched, value, BitVec.add_assoc, BitVec.add_assoc, BitVec.add_comm length]
  -- One that is not taken adds nothing.
  | false => exact (BitVec.add_zero _).symm

/-- The same once a body has made its test and its stores, which go nowhere. -/
theorem relative_after {n : Machine ω} (place : n.cpu.place = m.cpu.place) (offset : Nat)
    (length : Word) (taken : Bool) :
    (Op.run hooks (do
      if taken then branchPc (← operand offset) length
      else advancePc length
      pure 1 : Op Nat) n).2.cpu.pc =
      m.cpu.pc + length +
        if taken then (m.cpu.code (m.cpu.pc + BitVec.ofNat 16 offset)).signExtend 16 else 0#16 := by
  rw [relative_run, Cpu.place_pc place, Cpu.place_code place]

/-- A comparison replaces the carry flag and branches when its operands differ. -/
theorem compareBranch_run {n : Machine ω} (place : n.cpu.place = m.cpu.place) (left right : Byte) :
    ((compareBranch left right).run hooks n).2.cpu.pc =
      m.cpu.pc + 3#16 + if (left != right) then (m.cpu.code (m.cpu.pc + 2#16)).signExtend 16
        else 0#16 := by
  rw [compareBranch, bind_eq, run_bind]
  have stored : ((setCarry (decide (left < right))).run hooks n).2.cpu.place = n.cpu.place := rfl
  exact relative_after (stored.trans place) 2 3#16 (left != right)

/-- Reading a bit changes no register. -/
theorem readBit_cpu (address : Byte) (n : Machine ω) :
    ((readBit address).run hooks n).2.cpu = n.cpu := by
  rw [readBit, bind_eq, run_bind]
  exact readMem_cpu (bitLocation address) n

/-- Nor does reading a byte for modification. -/
theorem readMemRmw_cpu (address : Byte) (n : Machine ω) :
    ((readMemRmw address).run hooks n).2.cpu = n.cpu := by
  simp only [readMemRmw, run_ite, bind_eq]
  split
  · -- A latch is read without a look at the pins.
    show ((Emu80535.sfrRmwRead hooks (sfrIndex address) _).2.raw hooks _).cpu = n.cpu
    rw [raw_cpu, sfrRmwRead_cpu, raw_cpu]
  · split
    · exact sfrRmwRead_cpu hooks _ n
    · rfl

/-- Looking at the CPU takes nothing. -/
theorem Op.Completes.looked {f : Cpu → Op α} (completes : (cpu.bind f).Completes hooks m) :
    (f m.cpu).Completes hooks m := ⟨completes.unaborted, completes.stacked⟩

/-- A body that does nothing but find itself aborted does not complete. -/
theorem Op.Completes.not_cut {f : Bool → Op α} (completes : (Op.aborted f).Completes hooks m)
    {value : α} (cut : f true = ret value) : m.aborted hooks = false := by
  cases stopped : m.aborted hooks with
  | false => rfl
  | true =>
    have unaborted := completes.unaborted
    simp only [Op.run, stopped, cut] at unaborted
    exact absurd unaborted (by decide)

/-- A write of a direct byte goes nowhere. -/
theorem writeMem_place (keeps : hooks.KeepsPlace) (address value : Byte) (n : Machine ω) :
    ((writeMem address value).run hooks n).2.cpu.place = n.cpu.place := by
  simp only [writeMem, run_ite]
  split
  · exact sfrWrite_place keeps _ value n
  · rfl

/-- A modification of a latch goes nowhere, and answers false only when it was aborted. -/
theorem modifyLatch_ends (keeps : hooks.KeepsPlace) (location : Byte)
    (update : Cpu → Byte → Byte) (n : Machine ω) :
    ((modifyLatch location update).run hooks n).2.cpu.place = n.cpu.place ∧
      (((modifyLatch location update).run hooks n).1 = false →
        ((modifyLatch location update).run hooks n).2.aborted hooks = true) := by
  have wrote := writeMem_place keeps location (update n.cpu (n.cpu.latchByte location)) n
  -- The write answers whether it was aborted, and does not move the place in the code.
  simp only [modifyLatch, bind_eq, run_bind]
  split
  · exact ⟨wrote, fun failed => by simpa using failed⟩
  · exact ⟨wrote, fun failed => absurd failed (by simp)⟩

/-- JBC clears the latch it has tested before it branches. -/
theorem jbc_ends (keeps : hooks.KeepsPlace) (completes : jbcBitaddrOffset.Completes hooks m) :
    (jbcBitaddrOffset.run hooks m).2.cpu.pc =
      Branch.jbc.target (Branch.jbc.test.run hooks m).1 m.cpu := by
  have first : (operand1.run hooks m).2.cpu = m.cpu := operand1_cpu m
  have kept := completes.unaborted
  -- The bit is tested in the latch as it was fetched.
  rw [jbcBitaddrOffset, bind_eq, run_bind, bind_eq, run_cpu_bind] at kept ⊢
  simp only [Branch.target, Branch.test, bind_eq, run_bind]
  generalize operand1.run hooks m = fetched at first kept ⊢
  change _ = m.cpu.pc + 3#16 + if has (fetched.2.cpu.latchByte (bitLocation fetched.1))
    (bitMask fetched.1) then (m.cpu.code (m.cpu.pc + 2#16)).signExtend 16 else 0#16
  dsimp only at kept ⊢
  -- With the bit set the latch is modified first.
  by_cases latched : has (fetched.2.cpu.latchByte (bitLocation fetched.1)) (bitMask fetched.1)
  · rw [if_pos latched] at kept ⊢
    rw [if_pos latched]
    rw [bind_eq, run_bind] at kept
    rw [run_bind]
    -- The modification leaves the place, or fails by an abort.
    obtain ⟨place, failed⟩ := modifyLatch_ends keeps (bitLocation fetched.1)
      (fun _ latch => latch &&& ~~~(bitMask fetched.1)) fetched.2
    generalize (modifyLatch (bitLocation fetched.1) _).run hooks fetched.2 = wrote
      at place failed kept ⊢
    cases done : wrote.1 with
    | true =>
      simp only [if_true]
      exact relative_after (place.trans (congrArg Cpu.place first)) 2 3#16 true
    | false =>
      simp only [done] at kept
      exact absurd ((failed done).symm.trans kept) (by decide)
  · -- With the bit clear nothing is modified.
    rw [if_neg latched, if_neg latched]
    exact relative_after (congrArg Cpu.place first) 2 3#16 false

/-- Every branch that completes ends behind itself, or at its displacement from there. -/
theorem Branch.ends (keeps : hooks.KeepsPlace) (b : Branch)
    (completes : b.body.Completes hooks m) :
    (b.body.run hooks m).2.cpu.pc = b.target (b.test.run hooks m).1 m.cpu := by
  have first : (operand1.run hooks m).2.cpu = m.cpu := operand1_cpu m
  -- The plain branches test what is there; the others read first.
  cases b with
  | jc => exact relative_run 1 2#16 m.cpu.carry m
  | jnc => exact relative_run 1 2#16 (!m.cpu.carry) m
  | jz => exact relative_run 1 2#16 (m.cpu.sfr Reg.acc == 0#8) m
  | jnz => exact relative_run 1 2#16 (m.cpu.sfr Reg.acc != 0#8) m
  | sjmp => exact relative_run 1 2#16 true m
  -- JB and JNB read the bit their operand names.
  | jb =>
    show (jbBitaddrOffset.run hooks m).2.cpu.pc = _
    rw [jbBitaddrOffset, bind_eq, run_bind, bind_eq, run_bind]
    refine (relative_after (congrArg Cpu.place ((readBit_cpu _ _).trans first)) 2 3#16 _).trans ?_
    simp only [target, test, bind_eq, run_bind]
    rfl
  | jnb =>
    show (jnbBitaddrOffset.run hooks m).2.cpu.pc = _
    rw [jnbBitaddrOffset, bind_eq, run_bind, bind_eq, run_bind]
    refine (relative_after (congrArg Cpu.place ((readBit_cpu _ _).trans first)) 2 3#16 _).trans ?_
    simp only [target, test, bind_eq, run_bind]
    rfl
  -- The comparisons read their operand, in one case through the gateway.
  | cjneAImm =>
    show (cjneAImmOffset.run hooks m).2.cpu.pc = _
    rw [cjneAImmOffset, bind_eq, run_bind]
    refine (compareBranch_run (congrArg Cpu.place first) _ _).trans ?_
    rw [first]
    rfl
  | cjneAMem =>
    show (cjneAMemOffset.run hooks m).2.cpu.pc = _
    rw [cjneAMemOffset, bind_eq, run_bind, bind_eq, run_bind]
    have second : ((readMem (operand1.run hooks m).1).run hooks (operand1.run hooks m).2).2.cpu =
        m.cpu := (readMem_cpu _ _).trans first
    refine (compareBranch_run (congrArg Cpu.place second) _ _).trans ?_
    simp only [target, test, bind_eq, run_bind, second]
    rfl
  | cjneIndirRx =>
    exact compareBranch_run (congrArg Cpu.place first) (m.cpu.readIndir m.cpu.indirRxAddress)
      (operand1.run hooks m).1
  | cjneRx => exact compareBranch_run (congrArg Cpu.place first) m.cpu.rx (operand1.run hooks m).1
  -- DJNZ on memory stores before it branches, and completing means that the store did.
  | djnzMem =>
    change djnzMemOffset.Completes hooks m at completes
    show (djnzMemOffset.run hooks m).2.cpu.pc = _
    rw [djnzMemOffset, bind_eq] at completes ⊢
    have read : ((readMemRmw (operand1.run hooks m).1).run hooks
        (operand1.run hooks m).2).2.cpu = m.cpu := (readMemRmw_cpu _ _).trans first
    have wrote := completes.later.later.later.not_cut rfl
    rw [run_bind, bind_eq, run_bind, bind_eq, run_bind]
    simp only [bind_eq, run_isAborted_bind, wrote, Bool.false_eq_true, if_false]
    refine (relative_after ((writeMem_place keeps _ _ _).trans (congrArg Cpu.place read)) 2 3#16
      _).trans ?_
    simp only [target, test, bind_eq, run_bind]
    rfl
  | djnzRx =>
    exact @relative_after _ _ m ((Effect.setLower m.cpu.rxAddress (m.cpu.rx - 1#8)).apply hooks m)
      rfl 1 2#16 (m.cpu.rx - 1#8 != 0#8)
  -- JBC has a lemma of its own.
  | jbc => exact jbc_ends keeps completes

/-! ### Absolute jumps and calls -/

/-- A text prints a code address as the target of an absolute jump or call. -/
def Prints (text : String) (address : Word) : Prop :=
  ∃ mnemonic ∈ ["AJMP  #", "LJMP  #", "ACALL ", "LCALL #"],
    text = mnemonic ++ hexWord address ++ "h"

/-- No text prints two addresses. -/
theorem Prints.unique {text : String} {a b : Word} (first : Prints text a)
    (second : Prints text b) : a = b := by
  obtain ⟨one, known, rfl⟩ := first
  obtain ⟨other, also, same⟩ := second
  have sizes : ∀ w : Word, (hexWord w).length = 4 := fun w => by
    rw [hexWord, String.length_append, hexByte_length, hexByte_length]
  -- Both texts end with the four digits of the address.
  have lengths := congrArg String.length same
  simp only [String.length_append, sizes] at lengths
  have texts := congrArg String.toList same
  simp only [String.toList_append] at texts
  -- What stands before them has the same length, so the digits are the same.
  have heads : one.toList.length = other.toList.length := by
    rw [String.length_toList, String.length_toList]
    omega
  have words : (hexWord a).toList = (hexWord b).toList := by
    simp only [List.append_assoc] at texts
    refine (List.append_inj (List.append_inj texts heads).2 ?_).1
    rw [String.length_toList, String.length_toList, sizes, sizes]
  exact hexWord_injective (String.toList_inj.mp words)

/-- The page of a decoder's text is the one the bodies jump within. -/
theorem print_page (c : Cpu) : Piece.page.print c c.pc =
    hexWord (c.ajmpTarget (c.code (c.pc + 1#16))) ++ "h" := rfl

/-- A text of a mnemonic and an address prints that address. -/
theorem prints_pair {size : Nat} {mnemonic : String} {piece : Piece} {c : Cpu} {address : Word}
    (known : mnemonic ∈ ["AJMP  #", "LJMP  #", "ACALL ", "LCALL #"])
    (shown : piece.print c c.pc = hexWord address ++ "h") :
    Prints ((Decoder.mk size [.text mnemonic, piece]).decode c c.pc).2 address := by
  refine ⟨mnemonic, known, ?_⟩
  show mnemonic ++ (piece.print c c.pc ++ "") = _
  rw [String.append_empty, shown, String.append_assoc]

/-- An observer's refusal of a call leaves the machine aborted. -/
theorem preflight_refused {n : Machine ω} (attended : n.Attended hooks)
    (refused : (preflight.run hooks n).1 = false) :
    (preflight.run hooks n).2.aborted hooks = true := by
  -- The preflight asks only an observer.
  have shape : preflight.run hooks n =
      if n.cpu.observed then
        (n.rawAnswer hooks (.contextPreflight n.cpu.machineCycleCount) != 0,
          n.raw hooks (.contextPreflight n.cpu.machineCycleCount))
      else (true, n) := by
    simp only [preflight, bind_eq, run_cpu_bind, run_ite]
    split <;> rfl
  rw [shape] at refused ⊢
  -- An observer that refuses has aborted, by assumption.
  by_cases observed : n.cpu.observed = true
  · simp only [observed, if_true, Machine.rawAnswer, Machine.raw] at refused ⊢
    exact attended observed _ _ _ (by simpa using refused)
  · rw [if_neg observed] at refused
    exact Bool.noConfusion refused

/-- A push raises the stack exception exactly when it has no room. -/
theorem pushToStack_performs (value : Byte) (n : Machine ω) :
    (pushToStack value).performs hooks Effect.raisesStack n = !n.cpu.canPush := by
  -- The byte is stored without raising anything.
  have stored : ∀ k : Machine ω,
      (writeMemIndir (n.cpu.sfr Reg.sp + 1#8) value).performs hooks Effect.raisesStack k =
        false := by
    intro k
    simp only [writeMemIndir]
    split <;> rfl
  show (Effect.raisesStack (.setReg .sp (n.cpu.sfr Reg.sp + 1#8)) ||
    Op.performs hooks Effect.raisesStack (if n.cpu.stackBacked _ then _ else _) _) = _
  simp only [Cpu.canPush]
  -- Without backing the push fails at once, and a wrap of the pointer fails behind the store.
  by_cases backed : n.cpu.stackBacked (n.cpu.sfr Reg.sp + 1#8) = true
  · rw [if_pos backed, bind_eq, performs_bind, stored, backed]
    by_cases wrapped : n.cpu.sfr Reg.sp + 1#8 = 0#8
    · rw [if_pos wrapped, wrapped]
      rfl
    · rw [if_neg wrapped, bne_iff_ne.mpr wrapped]
      rfl
  · rw [if_neg backed, Bool.not_eq_true _ |>.mp backed]
    rfl

/-- Two pushes that complete push an address, and what follows them completes. -/
theorem pushes_complete {n : Machine ω} {address : Word} {rest failed : Op α}
    (completes : Op.Completes hooks (do
      if ← pushToStack (address.setWidth 8) then
        if ← pushToStack ((address >>> 8).setWidth 8) then rest else failed
      else failed) n) :
    Op.run hooks (do
      if ← pushToStack (address.setWidth 8) then
        if ← pushToStack ((address >>> 8).setWidth 8) then rest else failed
      else failed) n = rest.run hooks (n.mapCpu fun c => c.pushWord address) ∧
    rest.Completes hooks (n.mapCpu fun c => c.pushWord address) := by
  -- A push that completes has found room.
  have room : ∀ {k : Machine ω} {value : Byte} {f : Bool → Op α},
      ((pushToStack value).bind f).Completes hooks k →
        (pushToStack value).run hooks k = (true, k.mapCpu fun c => c.push value) := by
    intro k value f done
    refine pushToStack_run value k ?_
    have clean := done.stacked
    rw [performs_bind, pushToStack_performs, Bool.or_eq_false_iff] at clean
    simpa using clean.1
  -- The low byte is pushed first.
  rw [bind_eq] at completes ⊢
  have low := room completes
  have later := completes.later
  rw [run_bind, low]
  rw [low] at later
  simp only [if_true, bind_eq] at later ⊢
  -- Then the high one, if the first push succeeded.
  have high := room later
  have last := later.later
  rw [run_bind, high]
  rw [high] at last
  exact ⟨rfl, last⟩

/-- An AJMP goes to its page target. -/
theorem ajmpOffset_pc (m : Machine ω) : (ajmpOffset.run hooks m).2.cpu.pc =
    m.cpu.ajmpTarget (m.cpu.code (m.cpu.pc + 1#16)) := by
  have fetched : (operand1.run hooks m).2.cpu = m.cpu := operand1_cpu m
  have value : (operand1.run hooks m).1 = m.cpu.code (m.cpu.pc + 1#16) := rfl
  rw [ajmpOffset, bind_eq, run_bind]
  show (operand1.run hooks m).2.cpu.ajmpTarget (operand1.run hooks m).1 = _
  rw [fetched, value]

/-- And an LJMP to its two operands. -/
theorem ljmpAddress_pc (m : Machine ω) : (ljmpAddress.run hooks m).2.cpu.pc =
    m.cpu.code (m.cpu.pc + 1#16) ++ m.cpu.code (m.cpu.pc + 2#16) := by
  have fetched : (operand1.run hooks m).2.cpu = m.cpu := operand1_cpu m
  rw [ljmpAddress, bind_eq, run_bind]
  show (m.cpu.code (m.cpu.pc + 1#16) ++ (operand1.run hooks m).2.cpu.code
    ((operand1.run hooks m).2.cpu.pc + 2#16) : Word) = _
  rw [fetched]

/-- What a preflight lets complete goes on with the CPU it found. -/
theorem preflight_complete {n : Machine ω} (attended : n.Attended hooks) {rest : Op α} {value : α}
    (completes : Op.Completes hooks (do
      if ← preflight then rest else ret value) n) :
    ∃ k : Machine ω, k.cpu = n.cpu ∧ rest.Completes hooks k ∧
      Op.run hooks (do
        if ← preflight then rest else ret value) n = rest.run hooks k := by
  -- Asking changes no register.
  refine ⟨(preflight.run hooks n).2, preflight_cpu n, ?_⟩
  have refused := preflight_refused attended
  rw [bind_eq] at completes ⊢
  have later := completes.later
  rw [run_bind]
  generalize preflight.run hooks n = asked at refused later ⊢
  -- A refusal would have left the machine aborted, against completion.
  cases answer : asked.1 with
  | true =>
    rw [answer, if_pos rfl] at later
    exact ⟨later, rfl⟩
  | false =>
    rw [answer] at later
    exact absurd ((refused answer).symm.trans later.unaborted) (by decide)

/-- Pushing an address goes nowhere. -/
theorem pushWord_place (c : Cpu) (address : Word) : (c.pushWord address).place = c.place := by
  have push : ∀ (k : Cpu) (value : Byte), (k.push value).place = k.place := by
    intro k value
    simp only [Cpu.push]
    split <;> rfl
  rw [Cpu.pushWord, push, push]

/-- A call that completes pushes the address behind itself, goes to its target, and no more. -/
theorem acallOffset_complete (attended : m.Attended hooks)
    (completes : acallOffset.Completes hooks m) :
    (acallOffset.run hooks m).2.cpu =
      { m.cpu.pushWord (m.cpu.pc + 2#16) with
        pc := m.cpu.ajmpTarget (m.cpu.code (m.cpu.pc + 1#16)) } := by
  -- The operand is fetched, leave is asked for, and both bytes are pushed.
  have fetched : (operand1.run hooks m).2.cpu = m.cpu := operand1_cpu m
  have value : (operand1.run hooks m).1 = m.cpu.code (m.cpu.pc + 1#16) := rfl
  rw [acallOffset, bind_eq] at completes ⊢
  have later := completes.later.looked
  rw [run_bind]
  generalize operand1.run hooks m = low at fetched value later ⊢
  rw [bind_eq, run_cpu_bind]
  have watched : low.2.Attended hooks := fun observed => attended (fetched ▸ observed)
  obtain ⟨k, same, rest, ran⟩ := preflight_complete watched later
  obtain ⟨pushed, -⟩ := pushes_complete rest
  refine (congrArg (fun done => done.2.cpu) (ran.trans pushed)).trans ?_
  refine (callEnds_cpu _ _ _).trans ?_
  rw [mapCpu_cpu, same, fetched, value]

/-- The same for LCALL, whose operands are fetched after the pushes. -/
theorem lcallAddress_complete (attended : m.Attended hooks)
    (completes : lcallAddress.Completes hooks m) :
    (lcallAddress.run hooks m).2.cpu =
      { m.cpu.pushWord (m.cpu.pc + 3#16) with
        pc := m.cpu.code (m.cpu.pc + 1#16) ++ m.cpu.code (m.cpu.pc + 2#16) } := by
  obtain ⟨k, same, rest, ran⟩ := preflight_complete attended completes
  obtain ⟨pushed, -⟩ := pushes_complete rest.looked
  -- Both operands are fetched from behind the pushes, which do not move the program counter.
  have fetched : ∀ (offset : Nat) (n : Machine ω),
      n.cpu = m.cpu.pushWord (m.cpu.pc + 3#16) →
      ((operand offset).run hooks n).2.cpu = n.cpu ∧ ((operand offset).run hooks n).1 =
        m.cpu.code (m.cpu.pc + BitVec.ofNat 16 offset) := by
    intro offset n here
    refine ⟨operand_cpu offset n, ?_⟩
    show n.cpu.code (n.cpu.pc + BitVec.ofNat 16 offset) = _
    rw [here, Cpu.place_code (pushWord_place ..), Cpu.place_pc (pushWord_place ..)]
  have start : (k.mapCpu fun c => c.pushWord (k.cpu.pc + 3#16)).cpu =
      m.cpu.pushWord (m.cpu.pc + 3#16) := by
    rw [mapCpu_cpu, same]
  refine (congrArg (fun done => done.2.cpu) (ran.trans pushed)).trans ?_
  generalize k.mapCpu (fun c => c.pushWord (k.cpu.pc + 3#16)) = n at start
  rw [bind_eq, run_bind, operand1]
  obtain ⟨high, first⟩ := fetched 1 n start
  generalize (operand 1).run hooks n = highRead at high first
  rw [bind_eq, run_bind, operand2]
  obtain ⟨low, second⟩ := fetched 2 highRead.2 (high.trans start)
  generalize (operand 2).run hooks highRead.2 = lowRead at low second
  refine (callEnds_cpu _ _ _).trans ?_
  rw [low, high, start, first, second]

/-! ### Decoders and bodies -/

/-- How an opcode passes control on. -/
inductive Flow where
  | next
  | branch (b : Branch)
  | jump
  | call
  /-- The returns, and the jump to a computed address. -/
  | computed
  deriving DecidableEq, Repr

/-- The flow of an opcode. -/
def flow (opcode : Byte) : Flow :=
  if opcode &&& 0x1F#8 = 0x01#8 ∨ opcode = 0x02#8 then .jump
  else if opcode &&& 0x1F#8 = 0x11#8 ∨ opcode = 0x12#8 then .call
  else if opcode = 0x22#8 ∨ opcode = 0x32#8 ∨ opcode = 0x73#8 then .computed
  else
    match Branch.ofOpcode? opcode with
    | some b => .branch b
    | none => .next

namespace Flow

/-- What the size and the text of a decoder say about the CPU after the body. -/
def Law (hooks : Hooks ω) (m : Machine ω) (decoded : Nat × String) (after : Cpu) : Flow → Prop
  | next => after.pc = m.cpu.pc + BitVec.ofNat 16 decoded.1
  | branch b =>
    after.pc = m.cpu.pc + BitVec.ofNat 16 decoded.1 +
      if (b.test.run hooks m).1 then
        (m.cpu.code (m.cpu.pc + BitVec.ofNat 16 (decoded.1 - 1))).signExtend 16
      else 0#16
  | jump => ∀ address, Prints decoded.2 address ↔ address = after.pc
  | call =>
    (∀ address, Prints decoded.2 address ↔ address = after.pc) ∧
      after = { m.cpu.pushWord (m.cpu.pc + BitVec.ofNat 16 decoded.1) with pc := after.pc }
  | computed => True

end Flow

/-- The opcodes that do not transfer control have decoders that say so. -/
theorem flow_next : ∀ opcode, flow opcode = .next → decTable opcode ∉ transferring := by
  decide +kernel

/-- The branches among the opcodes are those of the list. -/
theorem flow_branch : ∀ opcode b, flow opcode = .branch b → Branch.ofOpcode? opcode = some b := by
  intro opcode b is
  simp only [flow] at is
  split_ifs at is
  split at is
  · rename_i found
    cases is
    exact found
  · exact absurd is (by simp)

/-- The jumps are AJMP and LJMP. -/
theorem flow_jump : ∀ opcode, flow opcode = .jump →
    opcode &&& 0x1F#8 = 0x01#8 ∨ opcode = 0x02#8 := by
  decide +kernel

/-- The calls are ACALL and LCALL. -/
theorem flow_call : ∀ opcode, flow opcode = .call →
    opcode &&& 0x1F#8 = 0x11#8 ∨ opcode = 0x12#8 := by
  decide +kernel

/-- Every opcode of the table but the transfers leads to the instruction behind it. -/
theorem opTable_follows (opcode : Byte) (stays : decTable opcode ∉ transferring) :
    Follows (opTable opcode) (decTable opcode) := by
  -- A reserved opcode goes on to the next one as well.
  have unused : disasmNop ∉ transferring → Follows nop disasmNop := fun _ pc => by
    simp [Op.Leads, Op.Stops, nop, disasmNop, raiseUnless, Op.bind, Op.bind_if, Op.leads_ite,
      Op.cpu, perform, Bind.bind, Pure.pure, isAborted, advancePc]
  -- The two halves of the tables are joined again.
  have rows : List.Forall₂ (List.Forall₂ fun p d => d ∉ transferring → Follows p d)
      (opRows.take 8 ++ opRows.drop 8) (disasmRows.take 8 ++ disasmRows.drop 8) :=
    List.rel_append firstRows_follows lastRows_follows
  rw [List.take_append_drop, List.take_append_drop] at rows
  have cell : ∀ {γ : Type} (row : Option (List γ)) (k : Nat) (default : γ),
      (row.bind fun entries => entries[k]?).getD default = (row.getD [])[k]?.getD default := by
    intro γ row k default
    cases row <;> rfl
  revert stays
  -- An opcode with bit 3 set is one of a register, and any other stands in the table.
  simp only [opTable, decTable]
  split
  · exact forall₂_getD rxRow_follows unused _
  · rw [cell, cell]
    exact forall₂_getD (forall₂_getD rows .nil _) unused _

namespace Branch

/-- The decoder of a branch is that of its opcodes. -/
theorem decTable_eq : ∀ opcode, ∀ b ∈ ofOpcode? opcode, decTable opcode = b.decoder := by
  decide +kernel

/-- The upper half of a row holds one register form. -/
theorem opTable_upper {opcode : Byte} (upper : has opcode 0x08#8 = true) :
    opTable opcode = rxRow[(opcode >>> 4).toNat]?.getD nop := if_pos upper

/-- And so is its body. -/
theorem opTable_eq (opcode : Byte) (b : Branch) (found : ofOpcode? opcode = some b) :
    opTable opcode = b.body := by
  -- The opcodes of a register and of a pointer are told by their upper bits.
  have registers : ∀ opcode : Byte, (opcode &&& 0xF8#8 = 0xB8#8 →
      has opcode 0x08#8 = true ∧ (opcode >>> 4).toNat = 11) ∧ (opcode &&& 0xF8#8 = 0xD8#8 →
      has opcode 0x08#8 = true ∧ (opcode >>> 4).toNat = 13) := by decide
  have pointers : ∀ opcode : Byte, opcode &&& 0xFE#8 = 0xB6#8 →
      opcode = 0xB6#8 ∨ opcode = 0xB7#8 := by decide
  -- The three groups first, then the eleven single opcodes.
  simp only [ofOpcode?] at found
  split_ifs at found with compares counts points
  · cases found
    obtain ⟨upper, row⟩ := (registers opcode).1 compares
    rw [opTable_upper upper, row]
    rfl
  · cases found
    obtain ⟨upper, row⟩ := (registers opcode).2 counts
    rw [opTable_upper upper, row]
    rfl
  · cases found
    rcases pointers opcode points with rfl | rfl <;> rfl
  · -- Each of them is looked up in the list.
    obtain ⟨_, _, listed, -⟩ := List.lookup_eq_some_iff.mp found
    have member := congrArg (fun entries => (opcode, b) ∈ entries) listed
    simp only [List.mem_append, List.mem_cons, Prod.mk.injEq, List.not_mem_nil, or_false, true_or,
      or_true, eq_iff_iff, iff_true] at member
    rcases member with h | h | h | h | h | h | h | h | h | h | h <;> obtain ⟨rfl, rfl⟩ := h <;> rfl

end Branch

/-- AJMP stands in every second row of its column. -/
theorem opTable_ajmp (opcode : Byte) (even : opcode &&& 0x1F#8 = 0x01#8) :
    opTable opcode = ajmpOffset ∧ decTable opcode = disasmAjmpOffset := by
  have rows : ∀ opcode : Byte, opcode &&& 0x1F#8 = 0x01#8 → opcode = 0x01#8 ∨ opcode = 0x21#8 ∨
      opcode = 0x41#8 ∨ opcode = 0x61#8 ∨ opcode = 0x81#8 ∨ opcode = 0xA1#8 ∨ opcode = 0xC1#8 ∨
        opcode = 0xE1#8 := by
    decide
  rcases rows opcode even with rfl | rfl | rfl | rfl | rfl | rfl | rfl | rfl <;> exact ⟨rfl, rfl⟩

/-- And the decoder of ACALL where ACALL stands. -/
theorem decTable_acall : ∀ opcode : Byte, opcode &&& 0x1F#8 = 0x11#8 →
    decTable opcode = disasmAcallOffset := by
  decide +kernel

/-- A body that completes leaves the program counter where its decoder says. -/
theorem flow_law (keeps : hooks.KeepsPlace) (attended : m.Attended hooks)
    (completes : (opTable m.cpu.opcode).Completes hooks m) :
    (flow m.cpu.opcode).Law hooks m ((decTable m.cpu.opcode).decode m.cpu m.cpu.pc)
      ((opTable m.cpu.opcode).run hooks m).2.cpu := by
  -- A text that prints the target prints no other address.
  have printed : ∀ {text : String} {target address : Word}, Prints text target →
      (Prints text address ↔ address = target) := fun shown =>
    ⟨fun also => also.unique shown, fun same => same ▸ shown⟩
  -- What the opcode does to the counter decides what its law says.
  cases kind : flow m.cpu.opcode with
  | next =>
    exact (opTable_follows _ (flow_next _ kind) m.cpu.pc).run keeps completes
  | branch b =>
    have found := flow_branch _ _ kind
    rw [Branch.opTable_eq _ _ found] at completes ⊢
    rw [Branch.decTable_eq _ _ found]
    exact b.ends keeps completes
  -- Jumps print their target as an address.
  | jump =>
    intro address
    rcases flow_jump _ kind with page | long
    · obtain ⟨body, decoder⟩ := opTable_ajmp _ page
      rw [body, decoder, ajmpOffset_pc]
      exact printed (prints_pair (by decide) (print_page m.cpu))
    · rw [long, show opTable 0x02#8 = ljmpAddress from rfl, ljmpAddress_pc]
      exact printed (prints_pair (by decide) rfl)
  -- Calls do, too, and push the address behind themselves.
  | call =>
    rcases flow_call _ kind with page | long
    · rw [opTable_acall _ page] at completes ⊢
      rw [decTable_acall _ page, acallOffset_complete attended completes]
      exact ⟨fun address => printed (prints_pair (by decide) (print_page m.cpu)), rfl⟩
    · rw [long, show opTable 0x12#8 = lcallAddress from rfl] at completes ⊢
      rw [lcallAddress_complete attended completes]
      exact ⟨fun address => printed (prints_pair (by decide) rfl), rfl⟩
  -- Returns and the computed jump have no target in their text.
  | computed => trivial

/--
Decoder and body agree on the length of an instruction and on where it leads, and a capture of one
to three bytes decodes as the code memory it was taken from. Other captures are refused.
-/
theorem decoder_agrees (keeps : hooks.KeepsPlace) (attended : m.Attended hooks) :
    ((opTable m.cpu.opcode).Completes hooks m →
      (flow m.cpu.opcode).Law hooks m ((decTable m.cpu.opcode).decode m.cpu m.cpu.pc)
        ((opTable m.cpu.opcode).run hooks m).2.cpu) ∧
    ∀ (c : Cpu) (pc : Word) (bytes : Fin 3 → Byte) (count : Nat),
      (1 ≤ count ∧ count ≤ 3 → ∀ full : Cpu, Holds full pc bytes count →
        full.variant = c.variant →
        em8051DecodeCaptured c pc bytes count =
          ((emuDecodeAt full pc).1,
            if (emuDecodeAt full pc).1 ≤ count then (emuDecodeAt full pc).2 else "")) ∧
      (¬(1 ≤ count ∧ count ≤ 3) → em8051DecodeCaptured c pc bytes count = (0, "")) :=
  ⟨flow_law keeps attended, fun c pc bytes count =>
    ⟨fun range full holds variant => holds.captured range.1 range.2 variant,
      fun out => captured_refused c pc bytes (by omega)⟩⟩

/-- A call from the last address of the code space, by a CPU without callbacks. -/
theorem decoder_agrees_top :
    ((opTable (atTop 0x12#8).cpu.opcode).run Hooks.none (atTop 0x12#8)).2.cpu =
      { (atTop 0x12#8).cpu.pushWord 0x0002#16 with pc := 0x1212#16 } :=
  ((@decoder_agrees Unit Hooks.none (atTop 0x12#8) (fun _ _ installed => nomatch installed)
    (fun observed => absurd observed (by decide))).1 ⟨rfl, rfl⟩).2

/-- An empty capture has size zero, whatever the code memory holds. -/
theorem captured_empty :
    Holds Cpu.blank 0#16 (fun _ => 0#8) 0 ∧
      (em8051DecodeCaptured Cpu.blank 0#16 (fun _ => 0#8) 0).1 ≠ (emuDecodeAt Cpu.blank 0#16).1 :=
  ⟨⟨rfl, fun _ none => absurd none (by omega)⟩, by decide⟩

end Emu80535
