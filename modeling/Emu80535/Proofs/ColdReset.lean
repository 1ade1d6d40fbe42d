import Emu80535.Proofs.Keeps
import Emu80535.Proofs.Overlay

/-! A cold reset leaves nothing behind that a Siemens CPU would look at. -/

namespace Emu80535

variable {ω : Type} {hooks : Hooks ω} {m n : Machine ω} {o : Overlay} {size : Word}

open Machine Op

/-! ### What a reset leaves behind -/

/--
An overlay that no Siemens CPU sees.

It may replace the state of the classic controller, a disabled breakpoint, the PC of the last
instruction that was traced, and bytes beyond the end of external data.
-/
structure Overlay.Unseen (size : Word) (o : Overlay) : Prop where
  upper : o.upper = id
  ext : ∃ beyond : Word → Byte,
    o.ext = Option.map fun data a => if a ≤ size then data a else beyond a

/-- Callbacks that neither look at what is left behind nor rebuild the CPU. -/
structure Hooks.Oblivious (hooks : Hooks ω) : Prop where
  blind : ∀ size o, Overlay.Unseen size o → hooks.Blind o.apply
  build : ∀ index callback, hooks.sfrwrite index = some callback → ∀ m : Machine ω,
    (callback m).cpu.variant = m.cpu.variant ∧
      (callback m).cpu.extDataMaxIdx = m.cpu.extDataMaxIdx

/-- A Siemens CPU with external data of a given size. -/
structure Cpu.Sized (size : Word) (c : Cpu) : Prop where
  sab : c.variant = .sab80535
  ext : c.extDataMaxIdx = size

/-- Outside resets a CPU keeps its build. -/
theorem Hooks.Oblivious.keepsAll (oblivious : hooks.Oblivious) (size : Word) :
    KeepsAll hooks (Cpu.Sized size) := by
  -- Only the variant and the size of external data are asked for, and callbacks keep both.
  have kept := @keepsAll_still ω hooks
    (fun s => s.variant = .sab80535 ∧ s.extDataMaxIdx = size) fun index callback installed m held => by
      obtain ⟨variant, ext⟩ := oblivious.build index callback installed m
      simp only [Cpu.still, variant, ext]
      exact held
  -- The two ways to say it are the same predicate.
  have same : (fun c : Cpu => c.still.variant = .sab80535 ∧ c.still.extDataMaxIdx = size) =
      Cpu.Sized size := by
    funext c
    exact propext ⟨fun held => ⟨held.1, held.2⟩, fun held => ⟨held.sab, held.ext⟩⟩
  rw [← same]
  exact kept

/-! ### Opcode bodies -/

/-- Reading the bus without looking at what a replacement changes. -/
theorem Hooks.Blind.busRead {f : Cpu → Cpu} (blind : hooks.Blind f) (address : Word)
    (m : Machine ω) : (Op.busRead address pure).Apart hooks f m := by
  simp only [Op.Apart, Op.run]
  -- With a callback the answer is the callback's, which does not look at the change either.
  split
  · rename_i callback installed
    have same : callback (m.mapCpu f).cpu address (m.mapCpu f).host =
        callback m.cpu address m.host := blind.xread callback installed _ _ _
    rw [same]
    rfl
  · rfl

/-- Writing it. -/
theorem Hooks.Blind.busWrite {f : Cpu → Cpu} (blind : hooks.Blind f) (address : Word) (value : Byte)
    (m : Machine ω) : (Op.busWrite address value pure).Apart hooks f m := by
  simp only [Op.Apart, Op.run]
  -- With a callback the answer is the callback's, which does not look at the change either.
  split
  · rename_i callback installed
    have same : callback (m.mapCpu f).cpu address value (m.mapCpu f).host =
        callback m.cpu address value m.host := blind.xwrite callback installed _ _ _ _
    rw [same]
    rfl
  · rfl

/-- A masked address is inside external data. -/
theorem masked_le (address size : Word) : address &&& size ≤ size := by
  rw [BitVec.le_def, BitVec.toNat_and]
  exact Nat.and_le_right

/-- A store inside external data does not touch what is beyond it. -/
theorem Overlay.Unseen.setExt_apart (unseen : o.Unseen size) {address : Word} {value : Byte}
    (masked : m.cpu.extDataMaxIdx = size) :
    (Effect.setExt address value).apply hooks (m.mapCpu o.apply) =
      ((Effect.setExt address value).apply hooks m).mapCpu o.apply := by
  obtain ⟨beyond, ext⟩ := unseen.ext
  have inside := masked_le address size
  -- The address is masked into the buffer, where the overlay changes nothing.
  have stored : ∀ data : Word → Byte,
      (Function.update (fun a => if a ≤ size then data a else beyond a) (address &&& size) value) =
        fun a => if a ≤ size then Function.update data (address &&& size) value a else beyond a := by
    intro data
    funext a
    -- Inside the buffer the new byte stands on both sides, elsewhere the old one.
    by_cases here : a = address &&& size
    · simp [here, inside]
    · simp [here]
  simp only [Effect.apply, Machine.mapCpu, Overlay.apply, ext, masked]
  cases m.cpu.extData with
  | none => rfl
  | some data => simp only [Option.map_some, stored]

section Bodies

variable (unseen : o.Unseen size) (blind : hooks.Blind o.apply)

include unseen blind

/-- Rights to neither external data nor the classic controller. -/
theorem Overlay.Unseen.tolerated {r : Rights} (external : r.external = false)
    (classic : r.classic = false) : r.Tolerates hooks o.apply := by
  refine Overlay.tolerated blind (fun _ => unseen.upper) (fun right => ?_) (fun right => ?_)
    fun data => by rw [unseen.upper]; rfl
  · exact absurd (external.symm.trans right) (by decide)
  · exact absurd (classic.symm.trans right) (by decide)

/-- A part with such rights. -/
theorem Overlay.Unseen.apart {α : Type} {p : Op α} {r : Rights} {answer : α → Prop}
    (obeys : p.Obeys r answer) (external : r.external = false) (classic : r.classic = false)
    (m : Machine ω) : p.Apart hooks o.apply m :=
  obeys.apart blind (unseen.tolerated blind external classic) m

/-- The byte a MOVX reads is inside external data. -/
theorem Overlay.Unseen.movxRead_apart (address : Word) (sized : m.cpu.Sized size) :
    (movxRead address).Apart hooks o.apply m := by
  have tail : ∀ supported (n : Machine ω),
      (movxReadTail m.cpu address supported).Apart hooks o.apply n := by
    intro supported n
    refine .look rfl (.bind (.perform rfl) (.bind (.perform (over_traceEmit _ _ _)) ?_))
    exact unseen.apart blind (@lawful_step {} 1#16 1 (by decide)) rfl rfl _
  have stores : ∀ value (n : Machine ω), (setAcc value).Apart hooks o.apply n :=
    fun value n => .perform rfl
  obtain ⟨beyond, ext⟩ := unseen.ext
  refine .look ?_ (.bind ?_ ?_)
  · -- Only the masked byte of external data is looked at.
    have inside := masked_le address size
    have buffer : (o.apply m.cpu).extData =
        m.cpu.extData.map fun data a => if a ≤ size then data a else beyond a :=
      congrFun ext m.cpu.extData
    have same : (o.apply m.cpu).extDataMaxIdx = size := sized.ext
    simp only [buffer, same, sized.ext]
    cases m.cpu.extData with
    | none => rfl
    | some data =>
      simp only [Option.map_some, if_pos inside]
      rfl
  · exact blind.busRead address m
  · cases ((Op.busRead address pure).run hooks m).1 with
    | some value =>
      exact .bind rfl (.ite (fun _ => rfl) fun _ => .bind (stores _ _) (tail _ _))
    | none =>
      cases m.cpu.extData with
      | some data => exact .bind (stores _ _) (tail _ _)
      | none => exact tail _ _

/-- The byte a MOVX writes is inside external data. -/
theorem Overlay.Unseen.movxWrite_apart (address : Word) (sized : m.cpu.Sized size) :
    (movxWrite address).Apart hooks o.apply m := by
  -- What comes behind the store looks at no external data.
  have tail : ∀ supported (n : Machine ω),
      (movxWriteTail m.cpu address supported).Apart hooks o.apply n := by
    intro supported n
    refine .look rfl (.bind (.perform rfl) (.bind (.perform (over_traceEmit _ _ _)) ?_))
    exact unseen.apart blind (@lawful_step {} 1#16 1 (by decide)) rfl rfl _
  obtain ⟨beyond, ext⟩ := unseen.ext
  -- Both machines have the buffer or neither has.
  have present : (o.apply m.cpu).extData.isSome = m.cpu.extData.isSome := by
    have buffer : (o.apply m.cpu).extData = _ := congrFun ext m.cpu.extData
    rw [buffer, Option.isSome_map]
  -- The bus is asked first, and only without an answer is the buffer written.
  refine .look ?_ (.bind (blind.busWrite address _ m) (.ite (fun _ => ?_) fun _ => ?_))
  · rw [present]
    rfl
  · exact .bind rfl (.ite (fun _ => rfl) fun _ => tail _ _)
  · refine .bind (.perform ?_) (tail _ _)
    -- Asking the bus changes no register, so the size of the buffer is the known one.
    have same : ((Op.busWrite address (m.cpu.sfr Reg.acc) pure).run hooks m).2.cpu = m.cpu := by
      simp only [Op.run]
      split <;> rfl
    generalize ((Op.busWrite address (m.cpu.sfr Reg.acc) pure).run hooks m).2 = k at same
    have masked : k.cpu.extDataMaxIdx = size := by
      rw [same]
      exact sized.ext
    exact unseen.setExt_apart masked

/-- The Siemens controller keeps its own record of what is in service. -/
theorem Overlay.Unseen.leave_apart (sab : n.cpu.variant = .sab80535) (originalSp : Byte) :
    (leaveInterrupt originalSp).Apart hooks o.apply n := by
  have released : ∀ k : Machine ω,
      (do perform (.irqReti originalSp); return !(← isAborted) : Op Bool).Apart hooks o.apply k := by
    -- Returning and asking for an abort touch nothing the overlay replaces.
    intro k
    have obeys : (do perform (.irqReti originalSp); return !(← isAborted) : Op Bool).Obeys
        { leave := true } fun _ => True :=
      (obeys_perform rfl).andThen fun _ => obeys_isAborted.andThen fun _ => trivial
    exact unseen.apart blind obeys rfl rfl k
  refine .look rfl (.ite (fun _ => released n) fun other => absurd sab other)

/-- RETI does not see what is left behind. -/
theorem Overlay.Unseen.reti_apart (sized : m.cpu.Sized size) : reti.Apart hooks o.apply m := by
  have pops : ∀ n : Machine ω, popFromStack.Apart hooks o.apply n := fun n =>
    unseen.apart blind (@popFromStack_obeys { upper := true } rfl) rfl rfl n
  have kept : ∀ n : Machine ω, (popFromStack.run hooks n).2.cpu.variant = n.cpu.variant :=
    fun n => congrArg Fixed.variant (popFromStack_sameButStack n).fixed
  -- Two pops leave the variant, so the return is the one of the SAB.
  have still : (popFromStack.run hooks (popFromStack.run hooks m).2).2.cpu.variant =
      .sab80535 := by
    rw [kept, kept]
    exact sized.sab
  -- Each pop that fails ends the return.
  refine .look rfl (.bind (pops m) ?_)
  cases (popFromStack.run hooks m).1 with
  | none => rfl
  | some high =>
    refine .bind (pops _) ?_
    cases (popFromStack.run hooks (popFromStack.run hooks m).2).1 with
    | none => rfl
    | some low =>
      -- Behind the release only the counter is set and the return reported.
      have returns : (do
          perform (.setPc (high ++ low))
          let c ← cpu
          let sp := c.sfr Reg.sp
          perform (.fact (.reti c.machineCycleCount c.pc (sp + 2#8) sp))
          pure 1 : Op Nat).Obeys {} fun _ => True :=
        (obeys_perform rfl).andThen fun _ => obeys_look (fun _ _ => rfl) fun _ =>
          (obeys_perform rfl).andThen fun _ => trivial
      exact .bind (unseen.leave_apart blind still _)
        (.ite (fun _ => unseen.apart blind returns rfl rfl _) fun _ => rfl)

/-- No opcode sees what is left behind. -/
theorem Overlay.Unseen.opTable_apart (sized : m.cpu.Sized size) (opcode : Byte) :
    (opTable opcode).Apart hooks o.apply m := by
  -- Besides MOVX and RETI no opcode has a right to what an overlay hides.
  have bare : ∀ opcode : Byte,
      (opcode = 0xE0#8 ∨ opcode = 0xE2#8 ∨ opcode = 0xE3#8) ∨
      (opcode = 0xF0#8 ∨ opcode = 0xF2#8 ∨ opcode = 0xF3#8) ∨ opcode = 0x32#8 ∨
        (opRights opcode).external = false ∧ (opRights opcode).classic = false := by
    decide
  -- MOVX reads and writes by the data pointer or by a register.
  have reads : ∀ address : Cpu → Word, address (o.apply m.cpu) = address m.cpu →
      (do movxRead (address (← cpu)) : Op Nat).Apart hooks o.apply m :=
    fun address seen => .look (by rw [seen]) (unseen.movxRead_apart blind _ sized)
  have writes : ∀ address : Cpu → Word, address (o.apply m.cpu) = address m.cpu →
      (do movxWrite (address (← cpu)) : Op Nat).Apart hooks o.apply m :=
    fun address seen => .look (by rw [seen]) (unseen.movxWrite_apart blind _ sized)
  -- The three groups, and all the others by their rights.
  rcases bare opcode with (rfl | rfl | rfl) | (rfl | rfl | rfl) | rfl | ⟨external, classic⟩
  · exact reads Cpu.dptr rfl
  · exact reads (fun c => c.indirRxAddress.setWidth 16) rfl
  · exact reads (fun c => c.indirRxAddress.setWidth 16) rfl
  · exact writes Cpu.dptr rfl
  · exact writes (fun c => c.indirRxAddress.setWidth 16) rfl
  · exact writes (fun c => c.indirRxAddress.setWidth 16) rfl
  · exact unseen.reti_apart blind sized
  · exact unseen.apart blind (opTable_lawful opcode) external classic m

end Bodies

/-! ### Machine cycles -/

section Cycles

variable (blind : hooks.Blind o.apply)

include blind

/-- Nor is the end of a machine cycle. -/
theorem Hooks.Blind.completeMachineCycle (m : Machine ω) :
    completeMachineCycle hooks (m.over o) = (completeMachineCycle hooks m).over o := by
  -- The count of cycles is not part of the overlay.
  have counted : ((m.over o).mapCpu fun c =>
      { c with machineCycleCount := c.machineCycleCount + 1 }) =
      (m.mapCpu fun c => { c with machineCycleCount := c.machineCycleCount + 1 }).over o := rfl
  simp only [Emu80535.completeMachineCycle, counted, blind.applyScheduled,
    blind.maintainLevelRequests]

/-- Nor is a machine cycle as a whole. -/
theorem Hooks.Blind.advanceMachineCycle (sab : m.cpu.variant = .sab80535) :
    advanceMachineCycle hooks (m.over o) = (advanceMachineCycle hooks m).over o := by
  have begun : (m.raw hooks (.cycleBegin (m.cpu.machineCycleCount + 1))).cpu.variant =
      .sab80535 := by
    rw [raw_cpu]
    exact sab
  -- The peripherals tick one after the other, each blind to what is left behind.
  have peripherals : advancePeripherals hooks (m.over o) = (advancePeripherals hooks m).over o := by
    simp -implicitDefEqProofs only [advancePeripherals, over_clock, blind.raw,
      blind.timerTick begun, blind.timer2Tick, blind.adcTick, over_aborted, ite_over]
  simp -implicitDefEqProofs only [Emu80535.advanceMachineCycle, peripherals, over_aborted,
    blind.completeMachineCycle, ite_over]

end Cycles

/-! ### Interrupt entry -/

section Entry

variable (unseen : o.Unseen size) (blind : hooks.Blind o.apply)

include unseen blind

/-- A push does not see it. -/
theorem Overlay.Unseen.pushToStack (value : Byte) (m : Machine ω) :
    (pushToStack value).run hooks (m.over o) =
      (((pushToStack value).run hooks m).1, ((pushToStack value).run hooks m).2.over o) :=
  unseen.apart blind (@pushToStack_obeys { upper := true } rfl value) rfl rfl m

omit unseen in
/-- Nor does accepting a source. -/
theorem Hooks.Blind.acceptInterrupt (source : IrqSource) (priority : Nat) (returnPc : Word)
    (spBefore : Byte) (pending : Word) (m : Machine ω) :
    acceptInterrupt hooks source priority returnPc spBefore pending (m.over o) =
      (acceptInterrupt hooks source priority returnPc spBefore pending m).over o := by
  -- Clearing the flag of a source is a store of a register that is not hidden.
  have cleared : ∀ k : Machine ω, autoClear source (k.over o) = (autoClear source k).over o := by
    intro k
    cases source <;> simp -implicitDefEqProofs [autoClear]
  -- The fields set at entry are none of the overlay's.
  have entered : ∀ k : Machine ω, (k.over o).mapCpu (fun c =>
        { c with
          pc := source.vector
          tickDelay := 1
          service := c.service.push source priority c }) =
      (k.mapCpu fun c =>
        { c with
          pc := source.vector
          tickDelay := 1
          service := c.service.push source priority c }).over o := fun _ => rfl
  simp only [Emu80535.acceptInterrupt, over_sfr, over_setSfr, entered, blind.raw, cleared,
    blind.irqSync, over_emitIrq, over_clock]

/-- Nor an entry to a selected source. -/
theorem Overlay.Unseen.enterInterrupt (source : IrqSource) (m : Machine ω) :
    enterInterrupt hooks source (m.over o) =
      ((enterInterrupt hooks source m).1, (enterInterrupt hooks source m).2.over o) := by
  have answered : ∀ fact, (m.over o).rawAnswer hooks fact = m.rawAnswer hooks fact :=
    fun _ => blind.rawAnswer rfl
  have priority : (m.over o).cpu.irqPriority source = m.cpu.irqPriority source := rfl
  simp -implicitDefEqProofs only [Emu80535.enterInterrupt, over_clock, over_observed, answered,
    priority, blind.raw, over_pending, over_pc, over_sfr, unseen.pushToStack blind,
    blind.acceptInterrupt, ite_over_snd]

/-- Nor the look for interrupts. -/
theorem Overlay.Unseen.handleInterrupts (sab : m.cpu.variant = .sab80535) :
    handleInterrupts hooks (m.over o) =
      ((handleInterrupts hooks m).1, (handleInterrupts hooks m).2.over o) := by
  -- Arbitration reads registers and the service stack.
  have found : ∀ k : Machine ω, (k.over o).cpu.arbitrate = k.cpu.arbitrate := fun _ => rfl
  have held : ∀ k : Machine ω, (k.over o).cpu.irqInhibit = k.cpu.irqInhibit := fun _ => rfl
  have there : (m.over o).cpu.variant = .sab80535 := sab
  simp only [Emu80535.handleInterrupts, if_pos sab, if_pos there, handleSabInterrupts,
    blind.irqSync, found, held, over_sfr, over_service]
  -- Held off, an interrupt in service, or nothing to accept: in each case both do the same.
  split
  · rfl
  · split
    · rfl
    · cases (Emu80535.irqSync hooks m).cpu.arbitrate with
      | none => rfl
      | some source =>
        dsimp only
        split
        · rfl
        · exact unseen.enterInterrupt blind source _

end Entry

/-! ### Ticks -/

/-- The overlay once an instruction has been traced. -/
def Overlay.traced (o : Overlay) : Overlay := { o with tracePc := id }

/-- What is left of the traced PC does not matter. -/
theorem Overlay.Unseen.traced (unseen : o.Unseen size) : o.traced.Unseen size :=
  ⟨unseen.upper, unseen.ext⟩

/-- An instruction ends with the traced PC it set at its beginning. -/
theorem Overlay.Unseen.executeInstruction (unseen : o.Unseen size) (oblivious : hooks.Oblivious)
    (sized : m.cpu.Sized size) :
    executeInstruction hooks (m.over o) =
      ((executeInstruction hooks m).1, (executeInstruction hooks m).2.over o.traced) := by
  -- Behind the first assignment both have the same traced PC.
  have blind := oblivious.blind size o.traced unseen.traced
  have opcode : (m.over o).cpu.opcode = m.cpu.opcode := rfl
  -- The fetch and its report are the same on both.
  have begun : beginInstruction hooks (m.over o) =
      (beginInstruction hooks m).over o.traced := by
    have marked : ((m.over o).mapCpu fun c => { c with tracePc := c.pc, inInstruction := true }) =
        (m.mapCpu fun c => { c with tracePc := c.pc, inInstruction := true }).over o.traced := rfl
    simp only [beginInstruction, opcode, marked, blind.raw, over_traceEmit, over_clock, over_pc]
  -- Fields outside the overlay are set in the same way on both.
  have left : ∀ (k : Machine ω) (f : Cpu → Cpu), (∀ c, f (o.traced.apply c) = o.traced.apply (f c)) →
      (k.over o.traced).mapCpu f = (k.mapCpu f).over o.traced := by
    intro k f same
    simp only [Machine.over, Machine.mapCpu, same]
  -- With the instruction over, its flag is cleared on both.
  have outside : ∀ c : Cpu, ({ o.traced.apply c with inInstruction := false } : Cpu) =
      o.traced.apply { c with inInstruction := false } := by
    intro c
    simp only [Overlay.apply, Overlay.traced, id, ite_self]
  -- The body is one of the table, none of which sees the overlay.
  have ran : ∀ (op : Byte) (k : Machine ω), k.cpu.Sized size →
      runInstruction hooks op (k.over o.traced) = (runInstruction hooks op k).over o.traced := by
    intro op k sized
    have body : (opTable op).run hooks (k.over o.traced) =
        (((opTable op).run hooks k).1, ((opTable op).run hooks k).2.over o.traced) :=
      unseen.traced.opTable_apart blind sized op
    have ended := left ((opTable op).run hooks k).2
      (fun c => { c with tickDelay := ((opTable op).run hooks k).1, inInstruction := false })
      fun c => congrArg (fun c : Cpu => { c with tickDelay := ((opTable op).run hooks k).1 }) (outside c)
    simp only [runInstruction, body, ended, blind.raw, over_clock, over_pc]
  have cut := fun k => left k (fun c => { c with inInstruction := false }) outside
  have counted : ∀ k : Machine ω, countInstruction (k.over o.traced) =
      (countInstruction k).over o.traced := fun _ => rfl
  -- Nothing before the body changes the build.
  have still : (beginInstruction hooks m).cpu.Sized size := by
    rw [beginInstruction_cpu]
    exact ⟨sized.sab, sized.ext⟩
  simp -implicitDefEqProofs only [Emu80535.executeInstruction, opcode, begun, over_aborted,
    ran _ _ still, counted, cut, ite_over_snd]

/-- An instruction keeps the build of the CPU. -/
theorem executeInstruction_sized (oblivious : hooks.Oblivious) (sized : m.cpu.Sized size) :
    (executeInstruction hooks m).2.cpu.Sized size := by
  -- Begin, body and end each leave the variant and the size.
  have begun : (beginInstruction hooks m).cpu.Sized size := by
    rw [beginInstruction_cpu]
    exact ⟨sized.sab, sized.ext⟩
  have ran : ∀ opcode, (runInstruction hooks opcode (beginInstruction hooks m)).cpu.Sized size := by
    intro opcode
    have held := (oblivious.keepsAll size).run (opTable opcode) _ begun
    rw [runInstruction_cpu]
    exact ⟨held.sab, held.ext⟩
  -- An abort at the fetch ends the instruction before its body.
  simp only [executeInstruction]
  split
  · exact ⟨begun.sab, begun.ext⟩
  · split
    · exact ran _
    · exact ⟨(ran _).sab, (ran _).ext⟩

/-- Two Siemens CPUs that differ at most in what a reset leaves behind. -/
structure Twin (size : Word) (m n : Machine ω) : Prop where
  sized : m.cpu.Sized size
  laid : ∃ o : Overlay, o.Unseen size ∧ n = m.over o

/-- A tick keeps the build of the CPU. -/
theorem tick_sized (oblivious : hooks.Oblivious) (sized : m.cpu.Sized size) :
    (tick hooks m).2.cpu.Sized size := by
  rcases (oblivious.keepsAll size).tickCycle m sized with ⟨k, -, same, held⟩ | ⟨-, held⟩
  · rw [same]
    have steady := congrArg Stable.fixed (advanceMachineCycle_steady hooks k)
    exact ⟨(congrArg Fixed.variant steady).trans held.sab,
      (congrArg Fixed.extDataMaxIdx steady).trans held.ext⟩
  · exact held

/-- Twins stay twins over a tick, which answers the same on both. -/
theorem Twin.tick (oblivious : hooks.Oblivious) (twin : Twin size m n) :
    (tick hooks n).1 = (tick hooks m).1 ∧ Twin size (tick hooks m).2 (tick hooks n).2 := by
  obtain ⟨sized, o, unseen, rfl⟩ := twin
  have blind := oblivious.blind size o unseen
  have stays := @tick_sized ω hooks m size oblivious sized
  suffices ∃ o' : Overlay, o'.Unseen size ∧
      tick hooks (m.over o) = ((tick hooks m).1, (tick hooks m).2.over o') by
    obtain ⟨o', unseen', same⟩ := this
    rw [same]
    exact ⟨rfl, stays, o', unseen', rfl⟩
  have handled := unseen.handleInterrupts blind sized.sab
  have after : (handleInterrupts hooks m).2.cpu.Sized size :=
    (oblivious.keepsAll size).handleInterrupts sized
  have delayed : ((m.over o).mapCpu fun c => { c with tickDelay := c.tickDelay - 1 }) =
      (m.mapCpu fun c => { c with tickDelay := c.tickDelay - 1 }).over o := rfl
  have parity : ∀ (k : Machine ω) (o : Overlay), updateParity (k.over o) = (updateParity k).over o :=
    fun _ _ => rfl
  simp only [Emu80535.tick, tickBody, over_aborted, over_delay, over_sfr, delayed, handled]
  split
  · exact ⟨o, unseen, rfl⟩
  · split
    · exact ⟨o, unseen, by rw [blind.advanceMachineCycle (by exact sized.sab)]⟩
    · split
      · exact ⟨o, unseen, rfl⟩
      · split
        · exact ⟨o, unseen, by rw [blind.advanceMachineCycle after.sab]⟩
        · split
          · exact ⟨o, unseen, rfl⟩
          · split
            · split
              · refine ⟨o, unseen, ?_⟩
                rw [parity, blind.advanceMachineCycle (by exact after.sab)]
              · -- From here on both have traced the same instruction.
                have executed := unseen.executeInstruction oblivious after
                have later := oblivious.blind size o.traced unseen.traced
                refine ⟨o.traced, unseen.traced, ?_⟩
                simp only [executed, parity]
                split
                · have sab : (updateParity (Emu80535.executeInstruction hooks
                      (Emu80535.handleInterrupts hooks m).2).2).cpu.variant = .sab80535 :=
                    (executeInstruction_sized oblivious after).sab
                  rw [later.advanceMachineCycle sab]
                · rfl
            · exact ⟨o, unseen, by rw [blind.advanceMachineCycle after.sab]⟩

/-! ### Host calls -/

/-- What a later reset makes of the overlay. -/
def Overlay.afterReset (o : Overlay) (c : Cpu) : Overlay :=
  { o with
    classic := fun _ =>
      { o.classic c.classic with
        interruptActive := 0#8
        serialOutRemainingBits := 0
        serialInterruptTrigger := false }
    breakpoint := if c.breakpointEnabled then id else o.breakpoint
    tracePc := if c.inInstruction then id else o.tracePc }

/-- A later reset leaves behind what was left behind before. -/
theorem Overlay.Unseen.reset (unseen : o.Unseen size) (wipe : Bool) (rand : Byte) {c : Cpu}
    (sized : c.Sized size) :
    (o.apply c).reset wipe rand = (o.afterReset c).apply (c.reset wipe rand) := by
  obtain ⟨beyond, ext⟩ := unseen.ext
  -- The SAB has upper RAM, so it is cleared on both.
  have backed : c.variant.hasUpperIram = true := by
    rw [sized.sab]
    rfl
  -- Clearing what is inside and hiding what is outside commute.
  have wiped : ∀ data : Option (Word → Byte),
      ((data.map fun data a => if a ≤ size then data a else beyond a).map
        fun data a => if a ≤ size then 0#8 else data a) =
      (data.map fun data a => if a ≤ size then 0#8 else data a).map
        fun data a => if a ≤ size then data a else beyond a := by
    rintro (_ | data)
    · rfl
    · simp only [Option.map_some]
      congr 1
      funext a
      split <;> rfl
  -- A disabled breakpoint is left behind by a reset, an enabled one is the same on both.
  have marked : (if c.breakpointEnabled then c.breakpoint else o.breakpoint c.breakpoint) =
      (if c.breakpointEnabled then id else o.breakpoint) c.breakpoint := by
    split <;> rfl
  -- The same for the traced PC outside an instruction.
  have seen : (if c.inInstruction then c.tracePc else o.tracePc c.tracePc) =
      (if c.inInstruction then id else o.tracePc) c.tracePc := by
    split <;> rfl
  -- With a wipe memory is cleared too, where it exists.
  cases wipe with
  | false =>
    simp only [Cpu.reset, Cpu.resetSbuf, Overlay.apply, Overlay.afterReset, unseen.upper, ext, id,
      backed, marked, seen, if_true, Bool.false_eq_true, if_false]
  | true =>
    simp only [Cpu.reset, Cpu.resetSbuf, Cpu.wipeMemory, Overlay.apply, Overlay.afterReset,
      unseen.upper, ext, id, backed, marked, seen, sized.ext, wiped, if_true, Bool.false_eq_true,
      if_false]

/-- A reset keeps the build of the CPU. -/
theorem reset_sized (wipe : Bool) (rand : Byte) {c : Cpu} (sized : c.Sized size) :
    (c.reset wipe rand).Sized size := by
  have backed : c.variant.hasUpperIram = true := by
    rw [sized.sab]
    rfl
  -- Neither kind of reset changes the variant or the size.
  cases wipe with
  | false =>
    simp only [Cpu.reset, backed, if_true, Bool.false_eq_true, if_false]
    exact ⟨sized.sab, sized.ext⟩
  | true =>
    simp only [Cpu.reset, Cpu.wipeMemory, backed, if_true]
    exact ⟨sized.sab, sized.ext⟩

/-- Twins stay twins over a host call, which answers the same on both. -/
theorem Twin.call (oblivious : hooks.Oblivious) (twin : Twin size m n) (call : HostCall) :
    (call.run hooks n).1 = (call.run hooks m).1 ∧
      Twin size (call.run hooks m).2 (call.run hooks n).2 := by
  -- Every call but a reset is blind to the overlay.
  obtain ⟨sized, o, unseen, rfl⟩ := twin
  have blind := oblivious.blind size o unseen
  have stays : (∀ wipe rand, call ≠ .reset wipe rand) → (call.run hooks m).2.cpu.Sized size :=
    fun other => (oblivious.keepsAll size).hostCall call other m sized
  -- Calls that commute with the overlay leave it as it is.
  have commutes : (∀ wipe rand, call ≠ .reset wipe rand) →
      call.run hooks (m.over o) = ((call.run hooks m).1, (call.run hooks m).2.over o) →
      (call.run hooks (m.over o)).1 = (call.run hooks m).1 ∧
        Twin size (call.run hooks m).2 (call.run hooks (m.over o)).2 := by
    intro other same
    rw [same]
    exact ⟨rfl, stays other, o, unseen, rfl⟩
  -- A reset and a new breakpoint change the overlay, the other calls do not.
  cases call with
  | reset wipe rand =>
    refine ⟨rfl, reset_sized wipe rand sized, o.afterReset m.cpu, ⟨unseen.upper, unseen.ext⟩, ?_⟩
    exact congrArg (fun c => { m with cpu := c }) (unseen.reset wipe rand sized)
  -- Setting a breakpoint leaves nothing behind of the old one.
  | setBreakpoint pc enabled =>
    refine ⟨rfl, ⟨sized.sab, sized.ext⟩, { o with breakpoint := id }, ⟨unseen.upper, unseen.ext⟩, ?_⟩
    cases enabled <;> rfl
  | setResetSeed seed => exact commutes (by simp) rfl
  | setPending source pending => exact commutes (by simp) (blind.setPending source pending m)
  -- A port that is not addressed is left alone on both.
  | portDrive address mask levels =>
    refine commutes (by simp) ?_
    simp only [HostCall.run]
    split
    · rfl
    · exact blind.portDrive _ mask levels m
  | portRelease address mask =>
    refine commutes (by simp) ?_
    simp only [HostCall.run]
    split
    · rfl
    · exact blind.portRelease _ mask m
  | externalDrive source level => exact commutes (by simp) (blind.externalDrive source level m)
  | externalRelease source => exact commutes (by simp) (blind.externalRelease source m)
  | schedule event => exact commutes (by simp) (blind.schedule event m)
  -- Clearing the schedule sets two fields that are compared.
  | clearSchedule =>
    have cleared : ((m.over o).mapCpu fun c =>
        { c with schedule := { c.schedule with head := 0, count := 0 } }) =
        (m.mapCpu fun c => { c with schedule := { c.schedule with head := 0, count := 0 } }).over o :=
      rfl
    refine commutes (by simp) ?_
    simp -implicitDefEqProofs only [HostCall.run, Emu80535.clearSchedule, over_variant, cleared,
      ite_over]
  | injectRxFrame data ninth => exact commutes (by simp) (blind.injectRxFrame data ninth m)
  | adcSetInput channel input =>
    refine commutes (by simp) ?_
    simp -implicitDefEqProofs only [HostCall.run, Emu80535.adcSetInput, over_variant, over_mapAdc,
      ite_over_snd]
  -- The address is checked before anything is read.
  | sfrRead address =>
    refine commutes (by simp) ?_
    simp only [HostCall.run]
    split
    · rfl
    · rw [blind.sfrRead]
  | sfrWrite address value =>
    refine commutes (by simp) ?_
    simp only [HostCall.run]
    split
    · rfl
    · rw [blind.sfrWrite]
  | loadCode image => exact commutes (by simp) rfl

/-! ### Bounded runs -/

section Runs

variable (oblivious : hooks.Oblivious)

include oblivious

/-- Twins stay twins through the ticks that an instruction still takes. -/
theorem Twin.drainTicks (fuel : Nat) (twin : Twin size m n) :
    Twin size (drainTicks hooks fuel m) (drainTicks hooks fuel n) := by
  -- Both count the same delay and stop at the same abort.
  induction fuel generalizing m n with
  | zero => exact twin
  | succ fuel ih =>
    have same : n.cpu.tickDelay = m.cpu.tickDelay ∧ n.aborted hooks = m.aborted hooks := by
      obtain ⟨-, o, -, rfl⟩ := twin
      exact ⟨rfl, rfl⟩
    simp only [Emu80535.drainTicks, same.1, same.2]
    split
    · exact ih (twin.tick oblivious).2
    · exact twin

omit oblivious in
/-- The tests of `run_control` see an enabled breakpoint only. -/
theorem Twin.stopAt (target : Option Word) (start limit : Nat) (twin : Twin size m n) :
    stopAt hooks target start limit n = stopAt hooks target start limit m := by
  -- The tests look at the abort, the counter, the exception and the breakpoint.
  obtain ⟨-, o, -, rfl⟩ := twin
  have enabled : (m.over o).cpu.breakpointEnabled = m.cpu.breakpointEnabled := rfl
  have address : m.cpu.breakpointEnabled = true →
      (m.over o).cpu.breakpoint = m.cpu.breakpoint := fun on => if_pos on
  have raised : (m.over o).cpu.exceptionRaised = m.cpu.exceptionRaised := rfl
  have counted : (m.over o).cpu.instructionCount = m.cpu.instructionCount := rfl
  -- A breakpoint's address is looked at only while it is enabled.
  cases on : m.cpu.breakpointEnabled with
  | true =>
    simp only [Emu80535.stopAt, over_aborted, over_pc, over_sfr, enabled, address on, raised, counted]
  | false =>
    simp only [Emu80535.stopAt, over_aborted, over_pc, over_sfr, enabled, on, raised, counted,
      Bool.false_eq_true, false_and, if_false]

/-- A run gives the same reason on both, and twins where it stops. -/
theorem Twin.runLoop (target : Option Word) (start limit fuel : Nat) (twin : Twin size m n) :
    (runLoop hooks target start limit fuel m = none ∧
        runLoop hooks target start limit fuel n = none) ∨
      ∃ reason x y, runLoop hooks target start limit fuel m = some (reason, x) ∧
        runLoop hooks target start limit fuel n = some (reason, y) ∧ Twin size x y := by
  -- Induction on the fuel; both stop in the same turn or go on to the next.
  induction fuel generalizing m n with
  | zero => exact Or.inl ⟨rfl, rfl⟩
  | succ fuel ih =>
    have same : n.cpu.tickDelay = m.cpu.tickDelay := by
      obtain ⟨-, o, -, rfl⟩ := twin
      rfl
    have drained := twin.drainTicks oblivious m.cpu.tickDelay
    simp only [Emu80535.runLoop, same, drained.stopAt]
    -- The tests agree, so either both stop here or both tick once more.
    cases Emu80535.stopAt hooks target start limit (Emu80535.drainTicks hooks m.cpu.tickDelay m) with
    | some reason => exact Or.inr ⟨reason, _, _, rfl, rfl, drained⟩
    | none => exact ih (drained.tick oblivious).2

end Runs

/-! ### Requests -/

/-- What an embedder asks of the core. -/
inductive Request (ω : Type) where
  | act (action : Action ω)
  /-- `em8051_run`, `em8051_run_to_pc` and `em8051_step_instruction`. -/
  | run (target : Option Word) (maxInstructions fuel : Nat)

/-- What the core answers. -/
inductive Response where
  | answered (ok : Bool)
  | stopped (result : Option RunResult)

/-- The answer to a request, and the machine after it. -/
def Request.serve (hooks : Hooks ω) : Request ω → Machine ω → Response × Machine ω
  | act .tick, m => (.answered (tick hooks m).1, (tick hooks m).2)
  | act (.call call), m => (.answered (call.run hooks m).1, (call.run hooks m).2)
  | act (.own update), m => (.answered true, { m with host := update m.host })
  | run target maxInstructions fuel, m =>
    match runControl hooks target maxInstructions fuel m with
    | some (reason, n) => (.stopped (some (fillRunResult reason m.cpu n.cpu)), n)
    | none => (.stopped none, m)

/-- The answers to a sequence of requests, and the machine at its end. -/
def serveAll (hooks : Hooks ω) : List (Request ω) → Machine ω → List Response × Machine ω
  | [], m => ([], m)
  | request :: rest, m =>
    let done := request.serve hooks m
    let later := serveAll hooks rest done.2
    (done.1 :: later.1, later.2)

/-- Twins answer a request alike. -/
theorem Twin.serve (oblivious : hooks.Oblivious) (twin : Twin size m n) (request : Request ω) :
    (request.serve hooks n).1 = (request.serve hooks m).1 ∧
      Twin size (request.serve hooks m).2 (request.serve hooks n).2 := by
  -- An action of the host, or a run.
  cases request with
  | act action =>
    cases action with
    | tick =>
      obtain ⟨same, later⟩ := twin.tick oblivious
      exact ⟨congrArg Response.answered same, later⟩
    | call call =>
      obtain ⟨same, later⟩ := twin.call oblivious call
      exact ⟨congrArg Response.answered same, later⟩
    | own update =>
      obtain ⟨sized, o, unseen, rfl⟩ := twin
      exact ⟨rfl, sized, o, unseen, rfl⟩
  | run target maxInstructions fuel =>
    -- The result is filled from fields that are compared.
    have results : ∀ reason (a b c d : Machine ω), Twin size a b → Twin size c d →
        fillRunResult reason b.cpu d.cpu = fillRunResult reason a.cpu c.cpu := by
      rintro reason a b c d ⟨-, o, -, rfl⟩ ⟨-, o', -, rfl⟩
      rfl
    -- A run starts by clearing the exception on both.
    have cleared : Twin size
        (m.mapCpu fun c => { c with exceptionRaised := false, lastException := none })
        (n.mapCpu fun c => { c with exceptionRaised := false, lastException := none }) := by
      obtain ⟨sized, o, unseen, rfl⟩ := twin
      exact ⟨⟨sized.sab, sized.ext⟩, o, unseen, rfl⟩
    have counted : n.cpu.instructionCount = m.cpu.instructionCount := by
      obtain ⟨-, o, -, rfl⟩ := twin
      rfl
    -- Both runs count from the same number of instructions.
    have here : runControl hooks target maxInstructions fuel m =
        Emu80535.runLoop hooks target m.cpu.instructionCount maxInstructions fuel
          (m.mapCpu fun c => { c with exceptionRaised := false, lastException := none }) := rfl
    have there : runControl hooks target maxInstructions fuel n =
        Emu80535.runLoop hooks target m.cpu.instructionCount maxInstructions fuel
          (n.mapCpu fun c => { c with exceptionRaised := false, lastException := none }) := by
      rw [← counted]
      rfl
    -- Either both run out of fuel, or both stop for the same reason.
    rcases cleared.runLoop oblivious target m.cpu.instructionCount maxInstructions fuel with
      ⟨left, right⟩ | ⟨reason, x, y, left, right, later⟩
    · simp only [Request.serve, here, there, left, right, true_and]
      exact twin
    · simp only [Request.serve, here, there, left, right, results reason m n x y twin later, true_and]
      exact later

/-- And so a whole sequence of them. -/
theorem Twin.serveAll (oblivious : hooks.Oblivious) (requests : List (Request ω))
    (twin : Twin size m n) :
    (serveAll hooks requests n).1 = (serveAll hooks requests m).1 ∧
      Twin size (serveAll hooks requests m).2 (serveAll hooks requests n).2 := by
  -- By induction on the requests.
  induction requests generalizing m n with
  | nil => exact ⟨rfl, twin⟩
  | cons request rest ih =>
    obtain ⟨answer, after⟩ := twin.serve oblivious request
    obtain ⟨answers, done⟩ := ih after
    simp only [Emu80535.serveAll, answer, answers, true_and]
    exact done

/-! ### After a cold reset -/

/-- A seeded cold reset, after which the embedder loads its firmware and starts over. -/
def Machine.restart (seed : BitVec 32) (rand : Byte) (image : Word → Byte) (host : ω)
    (m : Machine ω) : Machine ω where
  cpu := { Cpu.reset true rand { m.cpu with resetSeed := seed, resetSeedConfigured := true } with
    codeMem := image }
  host := host

/--
The architectural state of a Siemens CPU.

Left out are the state of the classic controller, a disabled breakpoint, the PC of the last
instruction that was traced, and bytes beyond the end of external data.
-/
def Cpu.architectural (c : Cpu) : Cpu :=
  { c with
    extData := c.extData.map fun data a => if a ≤ c.extDataMaxIdx then data a else 0#8
    classic := Cpu.blank.classic
    breakpoint := if c.breakpointEnabled then c.breakpoint else 0#16
    tracePc := if c.inInstruction then c.tracePc else 0#16 }

/-- Twins have the same architectural state. -/
theorem Twin.architectural (twin : Twin size m n) :
    n.cpu.architectural = m.cpu.architectural := by
  obtain ⟨sized, o, unseen, rfl⟩ := twin
  obtain ⟨beyond, ext⟩ := unseen.ext
  -- What lies beyond the buffer does not count as architectural.
  have buffer : ∀ data : Option (Word → Byte),
      ((data.map fun data a => if a ≤ size then data a else beyond a).map
        fun data a => if a ≤ size then data a else 0#8) =
      data.map fun data a => if a ≤ size then data a else 0#8 := by
    rintro (_ | data)
    · rfl
    · simp only [Option.map_some]
      congr 1
      funext a
      split <;> rfl
  -- Neither does a disabled breakpoint.
  have marked : (if m.cpu.breakpointEnabled then
        if m.cpu.breakpointEnabled then m.cpu.breakpoint else o.breakpoint m.cpu.breakpoint
      else 0#16) = if m.cpu.breakpointEnabled then m.cpu.breakpoint else 0#16 := by
    split <;> rfl
  -- Nor the traced PC of an instruction that has ended.
  have seen : (if m.cpu.inInstruction then
        if m.cpu.inInstruction then m.cpu.tracePc else o.tracePc m.cpu.tracePc
      else 0#16) = if m.cpu.inInstruction then m.cpu.tracePc else 0#16 := by
    split <;> rfl
  simp only [Machine.over, Machine.mapCpu, Overlay.apply, Cpu.architectural, ext, unseen.upper, id,
    sized.ext, buffer, marked, seen]

/-- Two CPUs of the same build are twins after a cold reset. -/
theorem restart_twin (left : m.cpu.variant = .sab80535) (right : n.cpu.variant = .sab80535)
    (code : n.cpu.codeMemMaxIdx = m.cpu.codeMemMaxIdx)
    (ext : n.cpu.extDataMaxIdx = m.cpu.extDataMaxIdx)
    (buffer : n.cpu.extData.isSome = m.cpu.extData.isSome)
    (unwatched : m.cpu.observed = false ∧ n.cpu.observed = false) (seed : BitVec 32)
    (rand rand' : Byte) (image : Word → Byte) (host : ω) :
    Twin m.cpu.extDataMaxIdx (m.restart seed rand image host) (n.restart seed rand' image host) := by
  have backed : Variant.sab80535.hasUpperIram = true := rfl
  -- What the second CPU has kept is laid over the first.
  let o : Overlay :=
    { ext := Option.map fun data a =>
        if a ≤ m.cpu.extDataMaxIdx then data a else (n.cpu.extData.getD fun _ => 0#8) a
      classic := fun _ =>
        { n.cpu.classic with
          interruptActive := 0#8
          serialOutRemainingBits := 0
          serialInterruptTrigger := false }
      breakpoint := fun _ => n.cpu.breakpoint
      tracePc := fun _ => n.cpu.tracePc }
  have wiped : (n.cpu.extData.map fun data a => if a ≤ m.cpu.extDataMaxIdx then 0#8 else data a) =
      (m.cpu.extData.map fun data a => if a ≤ m.cpu.extDataMaxIdx then 0#8 else data a).map
        fun data a =>
          if a ≤ m.cpu.extDataMaxIdx then data a else (n.cpu.extData.getD fun _ => 0#8) a := by
    cases here : m.cpu.extData <;> cases there : n.cpu.extData <;> simp [here, there] at buffer ⊢
    funext a
    split <;> rfl
  have sized := @reset_sized m.cpu.extDataMaxIdx true rand
    { m.cpu with resetSeed := seed, resetSeedConfigured := true } ⟨left, rfl⟩
  refine ⟨⟨sized.sab, sized.ext⟩, o, ⟨rfl, _, rfl⟩, ?_⟩
  simp only [Machine.restart, Machine.over, Machine.mapCpu, Overlay.apply, Cpu.reset, Cpu.resetSbuf,
    Cpu.wipeMemory, left, right, backed, code, ext, wiped, unwatched, o, id, if_true,
    Bool.false_eq_true, if_false]
  rfl

/--
A seeded cold reset forgets everything that came before it.

Whatever two Siemens CPUs of one build went through, once both have been reset and given the same
firmware they answer every sequence of ticks, runs and host calls alike, hand the embedder the same
records, and have the same architectural state at its end.
-/
theorem cold_reset_forgets (oblivious : hooks.Oblivious) (m n : Machine ω)
    (left : m.cpu.variant = .sab80535) (right : n.cpu.variant = .sab80535)
    (code : n.cpu.codeMemMaxIdx = m.cpu.codeMemMaxIdx)
    (ext : n.cpu.extDataMaxIdx = m.cpu.extDataMaxIdx)
    (buffer : n.cpu.extData.isSome = m.cpu.extData.isSome)
    (unwatched : m.cpu.observed = false ∧ n.cpu.observed = false) (seed : BitVec 32)
    (rand rand' : Byte) (image : Word → Byte) (host : ω) (requests : List (Request ω)) :
    let here := serveAll hooks requests (m.restart seed rand image host)
    let there := serveAll hooks requests (n.restart seed rand' image host)
    there.1 = here.1 ∧ there.2.host = here.2.host ∧
      there.2.cpu.architectural = here.2.cpu.architectural := by
  intro here there
  -- Behind the restart the two machines are twins, and stay so.
  obtain ⟨answers, done⟩ := (restart_twin left right code ext buffer unwatched seed rand rand' image
    host).serveAll oblivious requests
  refine ⟨answers, ?_, done.architectural⟩
  -- The host's state is the same, since an overlay is one of the CPU.
  obtain ⟨-, o, -, same⟩ := done
  have hosts := congrArg Machine.host same
  exact hosts

/-- A CPU that has been at work, next to a fresh one. -/
def worked : Machine Unit where
  cpu :=
    { Cpu.blank with
      pc := 0x1234#16
      breakpoint := 0x0003#16
      extData := some fun _ => 0xAA#8
      extDataMaxIdx := 0x00FF#16
      classic := { Cpu.blank.classic with serialInterruptTrigger := true } }
  host := ()

/-- After the reset it steps through the firmware as the fresh one does. -/
theorem cold_reset_forgets_worked :
    let fresh : Machine Unit :=
      { cpu := { Cpu.blank with extData := some fun _ => 0#8, extDataMaxIdx := 0x00FF#16 }
        host := () }
    let requests : List (Request Unit) := [.act (.call (.injectRxFrame 0x55#8 true)), .act .tick]
    let here := serveAll Hooks.none requests (worked.restart 7#32 0#8 (fun _ => 0#8) ())
    let there := serveAll Hooks.none requests (fresh.restart 7#32 1#8 (fun _ => 0#8) ())
    there.1 = here.1 ∧ there.2.cpu.architectural = here.2.cpu.architectural := by
  intro fresh requests here there
  -- With no callback there is nothing that could remember the machine before.
  have oblivious : Hooks.none.Oblivious (ω := Unit) :=
    ⟨fun _ o _ => Hooks.none_blind o.apply,
      fun _ _ installed => absurd installed (by simp [Hooks.none])⟩
  obtain ⟨answers, -, state⟩ := cold_reset_forgets oblivious worked fresh rfl rfl rfl rfl rfl
    ⟨rfl, rfl⟩ 7#32 0#8 1#8 (fun _ => 0#8) () requests
  exact ⟨answers, state⟩

end Emu80535
