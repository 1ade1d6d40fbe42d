import Emu80535.Proofs.Ticks

/-! What the opcode bodies do at the register write gateway, and what that does to the hold-off. -/

namespace Emu80535

variable {ω : Type} {hooks : Hooks ω} {α β : Type}

open Op

/-! ### One write at most -/

/-- An action that neither goes through the write gateway nor leaves an interrupt. -/
def Effect.Direct : Effect → Prop
  | .sfrWrite _ _ | .irqReti _ => False
  | _ => True

namespace Op

/-- On no path does a body write through the gateway twice, and on none does it leave an interrupt. -/
def Gated : Op α → Prop
  | ret _ => True
  | look next => ∀ c, (next c).Gated
  | act (.sfrWrite _ _) next => next.Only Effect.Direct
  | act (.irqReti _) _ => False
  | act _ next => next.Gated
  | aborted next => ∀ b, (next b).Gated
  | ask _ next => ∀ n, (next n).Gated
  | sfrRead _ next => ∀ v, (next v).Gated
  | sfrRmwRead _ next => ∀ v, (next v).Gated
  | busRead _ next => ∀ v, (next v).Gated
  | busWrite _ _ next => ∀ b, (next b).Gated

/-- A choice is gated if both branches are. -/
theorem gated_ite {p : Prop} [Decidable p] {a b : Op α} :
    (if p then a else b).Gated ↔ (p → a.Gated) ∧ (¬p → b.Gated) := by
  split <;> simp_all

/-- And made of the effects that both are made of. -/
theorem only_ite {kind : Effect → Prop} {p : Prop} [Decidable p] {a b : Op α} :
    (if p then a else b).Only kind ↔ (p → a.Only kind) ∧ (¬p → b.Only kind) := by
  split <;> simp_all

/-- What follows a choice follows both branches. -/
theorem bind_if {p : Prop} [Decidable p] (a b : Op α) (f : α → Op β) :
    (if p then a else b).bind f = if p then a.bind f else b.bind f := by
  split <;> rfl

end Op

/-- The register forms write the gateway once at most. -/
theorem rxRow_gated : ∀ p ∈ rxRow, p.Gated := by
  -- Each body unfolds to its tree, and the tree has one write on each path at most.
  simp [Op.Gated, Op.Only, Effect.Direct, Op.bind, Op.bind_if, Op.gated_ite, Op.only_ite, Op.cpu,
    perform, Bind.bind, Pure.pure, isAborted, operand1, operand, operand2, setPsw, setAcc,
    advancePc, readMem, writeMem, storeMem, setCarry, branchIf3, branchPc, rxRow, incRx, rxOp,
    decRx, addARx, addcARx, addAcc, addSolveFlags, solveFlags, orlARx, anlARx, xrlARx, logicRx,
    logicAcc, movRxImm, movMemRx, subbARx, subAcc, subSolveFlags, movRxMem, cjneRxImmOffset,
    compareBranch, xchARx, djnzRxOffset, movARx, accOp, movRxA]

/-- The opcode map with the return from interrupt blanked out. -/
def rowsButReti : List (List (Op Nat)) := opRows.set 3 ((opRows.getD 3 []).set 2 nop)

/-- The other forms of the first half of the map write the gateway once at most. -/
theorem firstRows_gated : ∀ row ∈ rowsButReti.take 8, ∀ p ∈ row, p.Gated := by
  simp [Op.Gated, Op.Only, Effect.Direct, Op.bind, Op.bind_if, Op.gated_ite, Op.only_ite, Op.cpu,
    perform, Bind.bind, Pure.pure, isAborted, operand1, operand, operand2, setPsw, setAcc,
    advancePc, readMem, writeMem, storeMem, setCarry, branchIf3, branchPc, accOp, writeMemIndir,
    readMemRmw, modifyLatch, preflight, pushToStack, popFromStack, callFact, readBit,
    addSolveFlags, solveFlags, addAcc, addImm, raiseUnless, rowsButReti, opRows, nop, ajmpOffset,
    ljmpAddress, rrA, incA, incMem, incIndirRx, indirOp, jbcBitaddrOffset, acallOffset,
    lcallAddress, rrcA, decA, decMem, decIndirRx, jbBitaddrOffset, retOp, rlA, addAImm, addAMem,
    addAIndirRx, jnbBitaddrOffset, rlcA, addcAImm, addcAMem, addcAIndirRx, jcOffset, branchIf,
    orlMemA, orlMemImm, logicMemImm, orlAImm, orlAMem, orlAIndirRx, logicImm, logicMem,
    logicIndirRx, logicAcc, jncOffset, anlMemA, logicMemAcc, anlMemImm, anlAImm, anlAMem,
    anlAIndirRx, jzOffset, xrlMemA, xrlMemImm, xrlAImm, xrlAMem, xrlAIndirRx, jnzOffset,
    orlCBitaddr, carryOp, jmpIndirADptr, movAImm, movMemImm, movIndirRxImm]

/-- A MOVX read goes nowhere near the gateway, whoever answers it. -/
theorem movxRead_gated (address : Word) : (movxRead address).Gated := by
  intro context answer
  cases answer with
  | some value => simp [Op.Gated, Op.bind, Op.gated_ite, Op.cpu, perform, Bind.bind,
      Pure.pure, isAborted, setAcc, movxReadTail, movxEmit, advancePc]
  | none =>
    cases context.extData <;>
      simp [Op.Gated, Op.bind, Op.cpu, perform, Bind.bind, Pure.pure, setAcc, movxReadTail,
        movxEmit, advancePc]

/-- And so do those of the second half. -/
theorem lastRows_gated : ∀ row ∈ rowsButReti.drop 8, ∀ p ∈ row, p.Gated := by
  simp [Op.Gated, Op.Only, Effect.Direct, Op.bind, Op.bind_if, Op.gated_ite, Op.only_ite, Op.cpu,
    perform, Bind.bind, Pure.pure, isAborted, operand1, operand, operand2, setPsw, setAcc,
    advancePc, readMem, writeMem, storeMem, setCarry, branchIf3, branchPc, accOp, writeMemIndir,
    readMemRmw, modifyLatch, preflight, pushToStack, popFromStack, callFact, readBit,
    raiseUnless, rowsButReti, opRows, ajmpOffset, acallOffset, carryOp, sjmpOffset, anlCBitaddr,
    movcAIndirAPc, divAb, movMemMem, movMemIndirRx, movDptrImm, movBitaddrC, latchOp,
    movcAIndirADptr, subbAImm, subbAMem, subbAIndirRx, subAcc, subSolveFlags, solveFlags,
    orlCComplBitaddr, movCBitaddr, incDptr, mulAb, nop, movIndirRxMem, anlCComplBitaddr,
    cplBitaddr, cplC, cjneAImmOffset, cjneAMemOffset, cjneIndirRxImmOffset, compareBranch,
    pushMem, clrBitaddr, clrC, swapA, xchAMem, xchAIndirRx, popMem, setbBitaddr, setbC, daA,
    djnzMemOffset, xchdAIndirRx, movxAIndirDptr, movxAIndirRx, movxRead_gated, movxEmit, clrA,
    movAMem, movAIndirRx, movxIndirDptrA, movxIndirRxA, movxWrite, movxWriteTail, cplA,
    movMemA, movIndirRxA, indirOp]

/-- Every row of the map without the return from interrupt is gated. -/
theorem rowsButReti_gated : ∀ row ∈ rowsButReti, ∀ p ∈ row, p.Gated := by
  intro row member
  rw [← List.take_append_drop 8 rowsButReti, List.mem_append] at member
  rcases member with first | last
  · exact firstRows_gated row first
  · exact lastRows_gated row last

/-- A cell of the map that is not the return from interrupt. -/
theorem cell_gated {r k : Nat} {row : List (Op Nat)} {p : Op Nat} (found : opRows[r]? = some row)
    (cell : row[k]? = some p) (elsewhere : ¬(r = 3 ∧ k = 2)) : p.Gated := by
  -- In the third row that entry is blanked out, and no other one.
  by_cases third : r = 3
  · subst third
    have same : opRows.getD 3 [] = row := by rw [List.getD_eq_getElem?_getD, found]; rfl
    have blanked : (row.set 2 nop)[k]? = some p := by
      rw [List.getElem?_set_ne (fun second => elsewhere ⟨rfl, second.symm⟩)]
      exact cell
    have member : row.set 2 nop ∈ rowsButReti := by
      rw [rowsButReti, same]
      exact List.mem_of_getElem? (List.getElem?_set_self (List.getElem?_eq_some_iff.mp found).1)
    exact rowsButReti_gated _ member p (List.mem_of_getElem? blanked)
  · -- The other rows are as they stand in the map.
    have kept : rowsButReti[r]? = some row := by
      rw [rowsButReti, List.getElem?_set_ne (Ne.symm third)]
      exact found
    exact rowsButReti_gated row (List.mem_of_getElem? kept) p (List.mem_of_getElem? cell)

/-- The cell of the return from interrupt has one opcode. -/
theorem retiCell {opcode : Byte} (other : opcode ≠ 0x32#8) (lower : has opcode 0x08#8 = false) :
    ¬((opcode >>> 4).toNat = 3 ∧ (opcode &&& 7#8).toNat = 2) := by
  have only : ∀ b : Byte, has b 0x08#8 = false → (b >>> 4).toNat = 3 → (b &&& 7#8).toNat = 2 →
      b = 0x32#8 := by decide
  exact fun here => other (only opcode lower here.1 here.2)

/-- Every opcode but the return from interrupt writes the gateway once at most. -/
theorem opTable_gated {opcode : Byte} (other : opcode ≠ 0x32#8) : (opTable opcode).Gated := by
  have unused : nop.Gated := rowsButReti_gated _ (List.mem_cons_self ..) _ (List.mem_cons_self ..)
  -- An opcode of a register stands in a row of its own.
  simp only [opTable]
  split
  · cases found : rxRow[(opcode >>> 4).toNat]? with
    | none => exact unused
    | some p => exact rxRow_gated p (List.mem_of_getElem? found)
  · -- Any other stands in the map, whose empty places do nothing.
    rename_i lower
    cases found : opRows[(opcode >>> 4).toNat]? with
    | none => exact unused
    | some row =>
      cases cell : row[(opcode &&& 7#8).toNat]? with
      | none =>
        show ((row[(opcode &&& 7#8).toNat]?).getD nop).Gated
        rw [cell]
        exact unused
      | some p =>
        show ((row[(opcode &&& 7#8).toNat]?).getD nop).Gated
        rw [cell]
        exact cell_gated found cell (retiCell other (by simpa using lower))

/-! ### Performed writes -/

/-- An action that stores one of the interrupt control registers. -/
def Effect.writesControl : Effect → Bool
  | .sfrWrite index _ => isIrqControl index
  | .setReg reg _ => isIrqControl reg.index
  | _ => false

/-- Whether a body performs such an action when it is run. -/
def Op.writesControl (hooks : Hooks ω) : Op α → Machine ω → Bool
  | ret _, _ => false
  | look next, m => (next m.cpu).writesControl hooks m
  | act effect next, m => effect.writesControl || next.writesControl hooks (effect.apply hooks m)
  | aborted next, m => (next (m.aborted hooks)).writesControl hooks m
  | ask fact next, m => (next (m.rawAnswer hooks fact)).writesControl hooks (m.raw hooks fact)
  | sfrRead index next, m =>
    let answer := Emu80535.sfrRead hooks index m
    (next answer.1).writesControl hooks answer.2
  | sfrRmwRead index next, m =>
    let answer := Emu80535.sfrRmwRead hooks index m
    (next answer.1).writesControl hooks answer.2
  | busRead address next, m =>
    match hooks.xread with
    | some callback =>
      let answer := callback m.cpu address m.host
      (next (some answer.1)).writesControl hooks { m with host := answer.2 }
    | none => (next none).writesControl hooks m
  | busWrite address value next, m =>
    match hooks.xwrite with
    | some callback =>
      (next true).writesControl hooks { m with host := callback m.cpu address value m.host }
    | none => (next false).writesControl hooks m

section HoldOff

open Machine

/-- No directly stored register is a control register. -/
theorem CoreReg.not_control (reg : CoreReg) : isIrqControl reg.index = false := by
  cases reg <;> decide

/-- What actions away from the gateway leave alone. -/
structure SameHold (a b : Cpu) : Prop where
  inhibit : b.irqInhibit = a.irqInhibit
  pcon : b.sfr Reg.pcon = a.sfr Reg.pcon
  fixed : b.fixed = a.fixed

namespace SameHold

/-- A CPU has the same hold-off as itself. -/
theorem refl (c : Cpu) : SameHold c c := ⟨rfl, rfl, rfl⟩

/-- And what has the same as another has the same as the first. -/
theorem trans (a b c : Cpu) (first : SameHold a b) (second : SameHold b c) : SameHold a c :=
  ⟨second.inhibit.trans first.inhibit, second.pcon.trans first.pcon,
    second.fixed.trans first.fixed⟩

end SameHold

/-- A direct action leaves the hold-off alone, and it stores no control register. -/
theorem Effect.Direct.keeps (e : Effect) (direct : e.Direct) (m : Machine ω) :
    SameHold m.cpu (e.apply hooks m).cpu := by
  -- A direct action stores neither the hold-off nor PCON.
  cases e with
  | setLower _ _ | setUpper _ _ | setPc _ | setExt _ _ | setInterruptActive _ | emit _ | raise _ =>
    exact ⟨rfl, rfl, rfl⟩
  | setReg reg value => exact ⟨rfl, Function.update_of_ne (by cases reg <;> decide) _ _, rfl⟩
  -- The gateway and the return are not direct.
  | sfrWrite _ _ | irqReti _ => exact absurd direct id
  | trace type address value =>
    have same : ((Effect.trace type address value).apply hooks m).cpu = m.cpu :=
      traceEmit_cpu hooks m _ _ _
    rw [same]
    exact .refl _
  | fact f =>
    have same : ((Effect.fact f).apply hooks m).cpu = m.cpu := raw_cpu hooks m f
    rw [same]
    exact .refl _

/-- A direct action stores no control register. -/
theorem Effect.Direct.not_control {e : Effect} (direct : e.Direct) : e.writesControl = false := by
  cases e with
  | setReg reg value => exact reg.not_control
  | sfrWrite _ _ | irqReti _ => exact absurd direct id
  | _ => rfl

/-- A body of actions that store no control register stores none. -/
theorem Op.Only.not_control {kind : Effect → Prop}
    (spares : ∀ e : Effect, kind e → e.writesControl = false) {p : Op α} (only : p.Only kind)
    (m : Machine ω) : p.writesControl hooks m = false := by
  -- Induction on the body, each action being of the kind.
  induction p generalizing m with
  | ret value => rfl
  | look next ih => exact ih _ (only _) m
  | act e next ih =>
    simp only [Op.writesControl, spares e only.1, Bool.false_or]
    exact ih only.2 _
  | aborted next ih => exact ih _ (only _) m
  | ask fact next ih => exact ih _ (only _) _
  | sfrRead index next ih => exact ih _ (only _) _
  | sfrRmwRead index next ih => exact ih _ (only _) _
  | busRead address next ih =>
    simp only [Op.writesControl]
    split <;> exact ih _ (only _) _
  | busWrite address value next ih =>
    simp only [Op.writesControl]
    split <;> exact ih _ (only _) _

/-- What a gated body comes to: direct actions, with one register write among them at most. -/
inductive Op.Passes (hooks : Hooks ω) (p : Op α) (m : Machine ω) : Prop
  | direct (same : SameHold m.cpu (p.run hooks m).2.cpu)
      (none : p.writesControl hooks m = false) : Op.Passes hooks p m
  | write (index : SfrIndex) (value : Byte) (n : Machine ω) (before : SameHold m.cpu n.cpu)
      (after : SameHold (sfrWrite hooks index value n).cpu (p.run hooks m).2.cpu)
      (steps : Steps hooks SameFixed (sfrWrite hooks index value n) (p.run hooks m).2)
      (control : p.writesControl hooks m = isIrqControl index) : Op.Passes hooks p m

/-- One more direct action in front. -/
theorem Op.Passes.cons {e : Effect} {next : Op α} {m : Machine ω} (direct : e.Direct)
    (passes : next.Passes hooks (e.apply hooks m)) : (Op.act e next).Passes hooks m := by
  -- A direct action writes no register, so what passes is what passes behind it.
  have first := @Effect.Direct.keeps ω hooks e direct m
  have silent : (Op.act e next).writesControl hooks m =
      next.writesControl hooks (e.apply hooks m) := by
    simp only [Op.writesControl, direct.not_control, Bool.false_or]
  cases passes with
  | direct same none => exact .direct (first.trans _ _ _ same) (silent.trans none)
  | write index value n before after steps control =>
    exact .write index value n (first.trans _ _ _ before) after steps (silent.trans control)

/-- A step that changes only the callbacks' state passes on what follows it. -/
theorem Op.Passes.of_step {p q : Op α} {m n : Machine ω} (passes : q.Passes hooks n)
    (same : n.cpu = m.cpu) (run : p.run hooks m = q.run hooks n)
    (writes : p.writesControl hooks m = q.writesControl hooks n) : p.Passes hooks m := by
  cases passes with
  | direct kept none => exact .direct (by rw [run, ← same]; exact kept) (writes.trans none)
  | write index value k before after steps control =>
    exact .write index value k (by rw [← same]; exact before) (by rw [run]; exact after)
      (by rw [run]; exact steps) (writes.trans control)

/-- Every gated body passes, by induction on its tree. -/
theorem Op.Gated.passes {p : Op α} (gated : p.Gated) (m : Machine ω) : p.Passes hooks m := by
  induction p generalizing m with
  | ret value => exact .direct (.refl _) rfl
  | look next ih => exact (ih _ (gated _) m).of_step rfl rfl rfl
  | act e next ih =>
    cases e with
    | sfrWrite index value =>
      -- After the one write all actions are direct.
      have only : next.Only Effect.Direct := gated
      have rest : SameHold (sfrWrite hooks index value m).cpu
          (next.run hooks (sfrWrite hooks index value m)).2.cpu :=
        only.rel SameHold.refl SameHold.trans Effect.Direct.keeps _
      refine .write index value m (.refl _) rest (Steps.run (.refl _) next) ?_
      show (isIrqControl index || next.writesControl hooks (sfrWrite hooks index value m)) = _
      rw [only.not_control fun e => Effect.Direct.not_control, Bool.or_false]
    | irqReti _ => exact absurd gated id
    | setLower _ _ | setUpper _ _ | setReg _ _ | setPc _ | setExt _ _ | setInterruptActive _
    | raise _ | emit _ | trace _ _ _ | fact _ => exact (ih gated _).cons trivial
  | aborted next ih => exact (ih _ (gated _) m).of_step rfl rfl rfl
  | ask fact next ih => exact (ih _ (gated _) (m.raw hooks fact)).of_step (raw_cpu ..) rfl rfl
  | sfrRead index next ih =>
    exact (ih _ (gated _) (Emu80535.sfrRead hooks index m).2).of_step (sfrRead_cpu ..) rfl rfl
  | sfrRmwRead index next ih =>
    exact (ih _ (gated _) (Emu80535.sfrRmwRead hooks index m).2).of_step (sfrRmwRead_cpu ..) rfl
      rfl
  | busRead address next ih =>
    cases installed : hooks.xread with
    | none =>
      exact (ih none (gated _) m).of_step rfl (by simp only [Op.run, installed])
        (by simp only [Op.writesControl, installed])
    | some callback =>
      have rest := ih (some (callback m.cpu address m.host).1) (gated _)
        { m with host := (callback m.cpu address m.host).2 }
      exact rest.of_step rfl (by simp only [Op.run, installed])
        (by simp only [Op.writesControl, installed])
  | busWrite address value next ih =>
    cases installed : hooks.xwrite with
    | none =>
      exact (ih false (gated _) m).of_step rfl (by simp only [Op.run, installed])
        (by simp only [Op.writesControl, installed])
    | some callback =>
      exact (ih true (gated _) { m with host := callback m.cpu address value m.host }).of_step rfl
        (by simp only [Op.run, installed]) (by simp only [Op.writesControl, installed])

/-- A register write arms the hold-off or leaves it alone, and arming leaves PCON alone. -/
theorem sfrWrite_inhibit (quiet : hooks.Quiet) (index : SfrIndex) (value : Byte)
    (m : Machine ω) (sab : m.cpu.variant = .sab80535) :
    (sfrWrite hooks index value m).cpu.irqInhibit = m.cpu.irqInhibit ∨
      (isIrqControl index = true ∧
        (sfrWrite hooks index value m).cpu.irqInhibit = m.cpu.armValue ∧
        (sfrWrite hooks index value m).cpu.sfr Reg.pcon = m.cpu.sfr Reg.pcon) := by
  -- The write leaves it or arms it, and arms it only for a control register.
  rcases sfrWrite_stable quiet index value m with same | ⟨-, control, same⟩
  · exact Or.inl (congrArg Stable.irqInhibit same)
  · refine Or.inr ⟨control, congrArg Stable.irqInhibit same, ?_⟩
    -- PCON is none of these.
    have other : Reg.pcon ≠ index := by
      rintro rfl
      exact absurd control (by decide)
    exact sfrWrite_sfr quiet value sab other rfl

section Bodies

variable {p : Op α} (gated : p.Gated) (quiet : hooks.Quiet) (m : Machine ω)
  (sab : m.cpu.variant = .sab80535)

include gated quiet sab

/-- A gated body that changes the hold-off leaves PCON alone. -/
theorem Op.Gated.idle :
    (p.run hooks m).2.cpu.irqInhibit = m.cpu.irqInhibit ∨
      ((p.run hooks m).2.cpu.irqInhibit = m.cpu.armValue ∧
        (p.run hooks m).2.cpu.sfr Reg.pcon = m.cpu.sfr Reg.pcon) := by
  -- Such a body writes the gateway once or not at all.
  cases @Op.Gated.passes ω hooks α p gated m with
  | direct same _ => exact Or.inl same.inhibit
  -- Before and behind the write the hold-off stays.
  | write index value n before after _ _ =>
    have variant := (congrArg Fixed.variant before.fixed).trans sab
    rcases sfrWrite_inhibit quiet index value n variant with kept | ⟨-, armed, pcon⟩
    · exact Or.inl (after.inhibit.trans (kept.trans before.inhibit))
    · exact Or.inr ⟨after.inhibit.trans (armed.trans (armValue_eq before.fixed)),
        after.pcon.trans (pcon.trans before.pcon)⟩

/-- A gated body that stores no control register leaves the hold-off alone. -/
theorem Op.Gated.unarmed (none : p.writesControl hooks m = false) :
    (p.run hooks m).2.cpu.irqInhibit = m.cpu.irqInhibit := by
  cases @Op.Gated.passes ω hooks α p gated m with
  | direct same _ => exact same.inhibit
  | write index value n before after _ control =>
    have variant := (congrArg Fixed.variant before.fixed).trans sab
    rcases sfrWrite_inhibit quiet index value n variant with kept | ⟨stored, -⟩
    · exact after.inhibit.trans (kept.trans before.inhibit)
    · exact absurd (none.symm.trans (control.trans stored)) (by decide)

/-- A gated body that stores one, and is not aborted, arms the hold-off. -/
theorem Op.Gated.armed (sticky : hooks.Sticky) (stores : p.writesControl hooks m = true)
    (kept : (p.run hooks m).2.aborted hooks = false) :
    (p.run hooks m).2.cpu.irqInhibit = m.cpu.armValue := by
  -- No write, which contradicts the hypothesis, or the one write that arms.
  cases @Op.Gated.passes ω hooks α p gated m with
  | direct _ none => exact absurd (stores.symm.trans none) (by decide)
  | write index value n before after steps control =>
    have variant := (congrArg Fixed.variant before.fixed).trans sab
    have armed := sfrWrite_armed quiet value n variant (control.symm.trans stores)
      (steps.unaborted sticky kept)
    exact after.inhibit.trans (armed.trans (armValue_eq before.fixed))

end Bodies

/-! ### The return from interrupt -/

/-- An action that does not go through the write gateway. -/
def Effect.Ungated : Effect → Prop
  | .sfrWrite _ _ => False
  | _ => True

/-- The return from interrupt does not write through the gateway. -/
theorem reti_ungated : reti.Only Effect.Ungated := by
  simp [Op.Only, Effect.Ungated, Op.bind, Op.bind_if, Op.only_ite, Op.cpu, perform, Bind.bind,
    Pure.pure, isAborted, popFromStack, raiseUnless, leaveInterrupt, classicReti, reti]

/-- An action away from the gateway stores no control register. -/
theorem Effect.Ungated.not_control (e : Effect) (ungated : e.Ungated) :
    e.writesControl = false := by
  cases e with
  | setReg reg value => exact reg.not_control
  | sfrWrite _ _ => exact absurd ungated id
  | _ => rfl

/-- The return from interrupt stores no control register. -/
theorem reti_not_control (m : Machine ω) : reti.writesControl hooks m = false :=
  reti_ungated.not_control Effect.Ungated.not_control m

/-- On the Siemens CPU an action away from the gateway leaves PCON alone. -/
theorem Effect.Ungated.pcon (e : Effect) (ungated : e.Ungated) (m : Machine ω)
    (sab : m.cpu.variant = .sab80535) :
    (e.apply hooks m).cpu.variant = .sab80535 ∧
      (e.apply hooks m).cpu.sfr Reg.pcon = m.cpu.sfr Reg.pcon := by
  -- A direct action keeps both.
  have direct : e.Direct → (e.apply hooks m).cpu.variant = .sab80535 ∧
      (e.apply hooks m).cpu.sfr Reg.pcon = m.cpu.sfr Reg.pcon := fun away =>
    ⟨(congrArg Fixed.variant (away.keeps e m).fixed).trans sab, (away.keeps e m).pcon⟩
  cases e with
  | sfrWrite _ _ => exact absurd ungated id
  -- Leaving an interrupt keeps them too: it stores TCON at most.
  | irqReti originalSp =>
    rcases @sabIrqReti_stable ω hooks originalSp m with ⟨same, -⟩ | ⟨-, same⟩
    · exact ⟨(congrArg Fixed.variant (Stable.fixed_eq same)).trans sab,
        Stable.sfr_eq_sab same sab rfl⟩
    · have released : (sabIrqReti hooks originalSp m).cpu.stable = Cpu.stable { m.cpu with
          service := m.cpu.service.pop, irqInhibit := m.cpu.armValue } := same
      exact ⟨(congrArg Fixed.variant (Stable.fixed_eq released)).trans sab,
        Stable.sfr_eq_sab released sab rfl⟩
  | setLower _ _ | setUpper _ _ | setReg _ _ | setPc _ | setExt _ _ | setInterruptActive _
  | raise _ | emit _ | trace _ _ _ | fact _ => exact direct trivial

/-- So the return from interrupt does. -/
theorem reti_pcon (m : Machine ω) (sab : m.cpu.variant = .sab80535) :
    (reti.run hooks m).2.cpu.sfr Reg.pcon = m.cpu.sfr Reg.pcon := by
  -- PCON is no register the return touches, and the variant stays along the way.
  have kept : m.cpu.variant = .sab80535 → (reti.run hooks m).2.cpu.variant = .sab80535 ∧
      (reti.run hooks m).2.cpu.sfr Reg.pcon = m.cpu.sfr Reg.pcon :=
    reti_ungated.rel (R := fun a b => a.variant = .sab80535 → b.variant = .sab80535 ∧
        b.sfr Reg.pcon = a.sfr Reg.pcon)
      (fun _ same => ⟨same, rfl⟩)
      (fun _ _ _ first second same =>
        ⟨(second (first same).1).1, (second (first same).1).2.trans (first same).2⟩)
      Effect.Ungated.pcon m
  exact (kept sab).2

end HoldOff

/-! ### The write forms -/

/-- INC, DEC, ORL, ANL, XRL, XCH and DJNZ of a direct byte, and the moves to one. -/
def directForms : List Byte :=
  [0x05#8, 0x15#8, 0x42#8, 0x43#8, 0x52#8, 0x53#8, 0x62#8, 0x63#8, 0x75#8, 0x86#8, 0x87#8, 0x88#8,
    0x89#8, 0x8A#8, 0x8B#8, 0x8C#8, 0x8D#8, 0x8E#8, 0x8F#8, 0xC5#8, 0xD5#8, 0xF5#8]

/-- MOV bit,C and CPL, CLR and SETB of a bit. -/
def bitForms : List Byte := [0x92#8, 0xB2#8, 0xC2#8, 0xD2#8]

/-- The byte an instruction writes through direct or bit addressing, by its opcode and operands. -/
def Cpu.directTarget (c : Cpu) : Option Byte :=
  let first := c.code (c.pc + 1#16)
  if c.opcode ∈ directForms then some first
  -- MOV direct,direct has its target in the second operand.
  else if c.opcode = 0x85#8 then some (c.code (c.pc + 2#16))
  else if c.opcode ∈ bitForms then some (bitLocation first)
  -- JBC writes only a bit it finds set, and POP only what it can pop.
  else if c.opcode = 0x10#8 then
    if has (c.latchByte (bitLocation first)) (bitMask first) then some (bitLocation first) else none
  else if c.opcode = 0xD0#8 then
    if c.canPop then some first else none
  else none

/-- The addresses of the four interrupt control registers. -/
def isControlAddress (address : Byte) : Bool :=
  decide (0x7F#8 < address) && isIrqControl (sfrIndex address)

section Forms

/-- A sequence stores a control register when either half does. -/
theorem Op.writesControl_bind (p : Op α) (f : α → Op β) (m : Machine ω) :
    (p.bind f).writesControl hooks m =
      (p.writesControl hooks m ||
        (f (p.run hooks m).1).writesControl hooks (p.run hooks m).2) := by
  -- Induction on the first half, with the machine generalized.
  induction p generalizing m with
  | ret value => exact (Bool.false_or _).symm
  | look next ih => exact ih _ m
  | act e next ih => simp only [Op.bind, Op.writesControl, Op.run, ih, Bool.or_assoc]
  | aborted next ih => exact ih _ m
  | ask fact next ih => exact ih _ _
  | sfrRead index next ih => exact ih _ _
  | sfrRmwRead index next ih => exact ih _ _
  -- A bus answers by its callback or by itself.
  | busRead address next ih =>
    cases installed : hooks.xread with
    | none =>
      simp only [Op.bind, Op.writesControl, Op.run, installed]
      exact ih _ _
    | some callback =>
      simp only [Op.bind, Op.writesControl, Op.run, installed]
      exact ih _ _
  | busWrite address value next ih =>
    cases installed : hooks.xwrite with
    | none =>
      simp only [Op.bind, Op.writesControl, Op.run, installed]
      exact ih _ _
    | some callback =>
      simp only [Op.bind, Op.writesControl, Op.run, installed]
      exact ih _ _

/-- The first half is enough. -/
theorem Op.writesControl_first {p : Op α} {f : α → Op β} {m : Machine ω}
    (first : p.writesControl hooks m = true) : (p.bind f).writesControl hooks m = true := by
  rw [Op.writesControl_bind, first, Bool.true_or]

/-- So is the second. -/
theorem Op.writesControl_second {p : Op α} {f : α → Op β} {m : Machine ω}
    (second : (f (p.run hooks m).1).writesControl hooks (p.run hooks m).2 = true) :
    (p.bind f).writesControl hooks m = true := by
  rw [Op.writesControl_bind, second, Bool.or_true]

variable {address : Byte} (control : isControlAddress address = true)

include control

/-- A write to the address of a control register stores it. -/
theorem writeMem_writesControl (value : Byte) (m : Machine ω) :
    (writeMem address value).writesControl hooks m = true := by
  simp only [isControlAddress, Bool.and_eq_true, decide_eq_true_eq] at control
  have shape : writeMem address value = perform (.sfrWrite (sfrIndex address) value) :=
    if_pos control.1
  rw [shape]
  show (isIrqControl (sfrIndex address) || false) = true
  rw [control.2, Bool.true_or]

/-- So does an instruction that stores there. -/
theorem storeMem_writesControl (value : Byte) (length : Word) (cycles : Nat) (m : Machine ω) :
    (storeMem address value length cycles).writesControl hooks m = true :=
  Op.writesControl_first (writeMem_writesControl control value m)

/-- So does one that modifies the latch there. -/
theorem modifyLatch_writesControl (update : Cpu → Byte → Byte) (m : Machine ω) :
    (modifyLatch address update).writesControl hooks m = true :=
  Op.writesControl_second (Op.writesControl_first (writeMem_writesControl control _ m))

end Forms

section Table

variable {m : Machine ω}

/-- The direct forms store the register their first operand names. -/
theorem directForms_write (control : isControlAddress (m.cpu.code (m.cpu.pc + 1#16)) = true) :
    ∀ opcode ∈ directForms, (opTable opcode).writesControl hooks m = true := by
  -- Reads and looks come first, and the store is made on every path.
  have store := fun n v l k => @storeMem_writesControl ω hooks _ control v l k n
  have inc : incMem.writesControl hooks m = true :=
    Op.writesControl_second (Op.writesControl_second (store _ _ _ _))
  have dec : decMem.writesControl hooks m = true :=
    Op.writesControl_second (Op.writesControl_second (store _ _ _ _))
  have orl : orlMemA.writesControl hooks m = true :=
    Op.writesControl_second (Op.writesControl_second (Op.writesControl_second (store _ _ _ _)))
  have immediate : ∀ f, (logicMemImm f).writesControl hooks m = true := fun f =>
    Op.writesControl_second (Op.writesControl_second (Op.writesControl_second (store _ _ _ _)))
  have latch : ∀ f, (logicMemAcc f).writesControl hooks m = true := fun f =>
    Op.writesControl_second (Op.writesControl_first (modifyLatch_writesControl control _ _))
  have movImm : movMemImm.writesControl hooks m = true :=
    Op.writesControl_second (Op.writesControl_second (store _ _ _ _))
  have movIndir : movMemIndirRx.writesControl hooks m = true :=
    Op.writesControl_second (Op.writesControl_second (store _ _ _ _))
  have movRx : movMemRx.writesControl hooks m = true :=
    Op.writesControl_second (Op.writesControl_second (store _ _ _ _))
  have movAcc : movMemA.writesControl hooks m = true :=
    Op.writesControl_second (Op.writesControl_second (store _ _ _ _))
  have xch : xchAMem.writesControl hooks m = true :=
    Op.writesControl_second (Op.writesControl_second (Op.writesControl_second
      (Op.writesControl_first (writeMem_writesControl control _ _))))
  have djnz : djnzMemOffset.writesControl hooks m = true :=
    Op.writesControl_second (Op.writesControl_second
      (Op.writesControl_first (writeMem_writesControl control _ _)))
  simp only [directForms, List.forall_mem_cons, List.not_mem_nil, false_imp_iff, implies_true,
    and_true]
  exact ⟨inc, dec, orl, immediate _, latch _, immediate _, latch _, immediate _, movImm, movIndir,
    movIndir, movRx, movRx, movRx, movRx, movRx, movRx, movRx, movRx, xch, djnz, movAcc⟩

/-- The bit forms store the register their operand's bit is in. -/
theorem bitForms_write
    (control : isControlAddress (bitLocation (m.cpu.code (m.cpu.pc + 1#16))) = true) :
    ∀ opcode ∈ bitForms, (opTable opcode).writesControl hooks m = true := by
  have latch : ∀ update cycles, (latchOp update cycles).writesControl hooks m = true :=
    fun _ _ => Op.writesControl_second
      (Op.writesControl_first (modifyLatch_writesControl control _ _))
  simp only [bitForms, List.forall_mem_cons, List.not_mem_nil, false_imp_iff, implies_true,
    and_true]
  exact ⟨latch _ _, latch _ _, latch _ _, latch _ _⟩

/-- Fetching an operand leaves the CPU alone. -/
theorem operand1_cpu (m : Machine ω) : (operand1.run hooks m).2.cpu = m.cpu :=
  Machine.raw_cpu ..

/-- A write form whose target is a control register stores it. -/
theorem directTarget_writes {target : Byte} (found : m.cpu.directTarget = some target)
    (control : isControlAddress target = true) :
    (opTable m.cpu.opcode).writesControl hooks m = true := by
  simp only [Cpu.directTarget] at found
  split at found
  · rename_i direct
    obtain rfl := Option.some.inj found
    exact directForms_write control _ direct
  · split at found
    · rename_i move
      obtain rfl := Option.some.inj found
      have second : (operand2.run hooks (operand1.run hooks m).2).1 =
          m.cpu.code (m.cpu.pc + 2#16) := by
        show (operand1.run hooks m).2.cpu.code ((operand1.run hooks m).2.cpu.pc + 2#16) = _
        rw [operand1_cpu]
      rw [← second] at control
      rw [move]
      exact Op.writesControl_second (Op.writesControl_second (Op.writesControl_second
        (storeMem_writesControl control _ _ _ _)))
    · split at found
      · rename_i bit
        obtain rfl := Option.some.inj found
        exact bitForms_write control _ bit
      · split at found
        · rename_i jbc
          split at found
          · rename_i set
            obtain rfl := Option.some.inj found
            rw [jbc]
            -- The latch tested is the one before the operand was reported.
            refine Op.writesControl_second (Op.writesControl_second ?_)
            have tested : has (((operand1.run hooks m).2.cpu).latchByte
                (bitLocation (operand1.run hooks m).1)) (bitMask (operand1.run hooks m).1) =
                  true := by
              rw [operand1_cpu]
              exact set
            refine Eq.trans (congrArg (Op.writesControl hooks · _) (if_pos tested)) ?_
            exact Op.writesControl_first (modifyLatch_writesControl control _ _)
          · exact absurd found (by simp)
        · split at found
          · rename_i pop
            split at found
            · rename_i room
              obtain rfl := Option.some.inj found
              rw [pop]
              refine Op.writesControl_second (Op.writesControl_second ?_)
              rw [run_popFromStack _ (by rw [operand1_cpu]; exact room)]
              exact storeMem_writesControl control _ _ _ _
            · exact absurd found (by simp)
          · exact absurd found (by simp)

end Table

end Emu80535
