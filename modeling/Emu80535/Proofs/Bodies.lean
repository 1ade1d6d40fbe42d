import Emu80535.Proofs.Steps

/-! Rules for opcode bodies, and what the stack and return-from-interrupt primitives do. -/

namespace Emu80535

variable {ω : Type} {hooks : Hooks ω} {α β : Type}

open Machine

/-! ### Register reads -/

/-- Reading a register changes at most the callbacks' state. -/
theorem sfrRead_cpu (hooks : Hooks ω) (index : SfrIndex) (m : Machine ω) :
    (sfrRead hooks index m).2.cpu = m.cpu := by
  simp only [sfrRead]
  split
  · rfl
  · split
    · rfl
    · split <;> rfl

/-- The latch read of a register leaves the core alone. -/
theorem sfrRmwRead_cpu (hooks : Hooks ω) (index : SfrIndex) (m : Machine ω) :
    (sfrRmwRead hooks index m).2.cpu = m.cpu := by
  simp only [sfrRmwRead]
  split
  · rfl
  · exact sfrRead_cpu hooks index m

/-! ### Rules for opcode bodies -/

namespace Op

/-- Every action a body can take, on any path, is of a given kind. -/
def Only (kind : Effect → Prop) : Op α → Prop
  | ret _ => True
  | look next => ∀ c, (next c).Only kind
  | act effect next => kind effect ∧ next.Only kind
  | aborted next => ∀ b, (next b).Only kind
  | ask _ next => ∀ n, (next n).Only kind
  | sfrRead _ next => ∀ v, (next v).Only kind
  | sfrRmwRead _ next => ∀ v, (next v).Only kind
  | busRead _ next => ∀ v, (next v).Only kind
  | busWrite _ _ next => ∀ b, (next b).Only kind

/-- Sequencing keeps the kinds of action of both halves. -/
theorem only_bind {kind : Effect → Prop} {p : Op α} {f : α → Op β} (first : p.Only kind)
    (second : ∀ a, (f a).Only kind) : (p.bind f).Only kind := by
  -- By induction on the first half.
  induction p with
  | ret value => exact second value
  | look next ih => exact fun c => ih c (first c)
  | act effect next ih => exact ⟨first.1, ih first.2⟩
  | aborted next ih => exact fun b => ih b (first b)
  | ask fact next ih => exact fun n => ih n (first n)
  | sfrRead index next ih => exact fun v => ih v (first v)
  | sfrRmwRead index next ih => exact fun v => ih v (first v)
  | busRead address next ih => exact fun v => ih v (first v)
  | busWrite address value next ih => exact fun b => ih b (first b)

/-- No restriction is always met. -/
theorem only_any (p : Op α) : p.Only fun _ => True := by
  -- By induction on the tree, no node of which is restricted.
  induction p with
  | ret value => trivial
  | look next ih => exact ih
  | act effect next ih => exact ⟨trivial, ih⟩
  | aborted next ih => exact ih
  | ask fact next ih => exact ih
  | sfrRead index next ih => exact ih
  | sfrRmwRead index next ih => exact ih
  | busRead address next ih => exact ih
  | busWrite address value next ih => exact ih

/--
What all its actions obey, a body obeys.

Reads change only the callbacks' state, so the relation has to ignore that state.
-/
theorem Only.rel {kind : Effect → Prop} {R : Cpu → Cpu → Prop} (refl : ∀ c, R c c)
    (trans : ∀ a b c, R a b → R b c → R a c)
    (effect : ∀ e, kind e → ∀ m : Machine ω, R m.cpu (e.apply hooks m).cpu) {p : Op α}
    (only : p.Only kind) (m : Machine ω) : R m.cpu (p.run hooks m).2.cpu := by
  -- By induction on the body; only its actions can move the state.
  induction p generalizing m with
  | ret value => exact refl _
  | look next ih => exact ih _ (only _) m
  | act e next ih => exact trans _ _ _ (effect e only.1 m) (ih only.2 _)
  | aborted next ih => exact ih _ (only _) m
  | ask fact next ih =>
    -- What the observer is asked changes the host alone.
    have rest := ih (m.rawAnswer hooks fact) (only _) (m.raw hooks fact)
    rwa [raw_cpu] at rest
  | sfrRead index next ih =>
    have rest := ih (Emu80535.sfrRead hooks index m).1 (only _) (Emu80535.sfrRead hooks index m).2
    rwa [sfrRead_cpu] at rest
  | sfrRmwRead index next ih =>
    have rest := ih (Emu80535.sfrRmwRead hooks index m).1 (only _)
      (Emu80535.sfrRmwRead hooks index m).2
    rwa [sfrRmwRead_cpu] at rest
  -- A callback of the bus changes the host alone.
  | busRead address next ih =>
    simp only [Op.run]
    split
    · rename_i callback _
      exact ih _ (only _) { m with host := (callback m.cpu address m.host).2 }
    · exact ih _ (only _) m
  | busWrite address value next ih =>
    simp only [Op.run]
    split
    · rename_i callback _
      exact ih _ (only _) { m with host := callback m.cpu address value m.host }
    · exact ih _ (only _) m

/-- A property of the CPU that every action keeps is kept by every body. -/
theorem run_keeps {I : Cpu → Prop}
    (effect : ∀ (e : Effect) (m : Machine ω), I m.cpu → I (e.apply hooks m).cpu) (p : Op α)
    (m : Machine ω) (before : I m.cpu) : I (p.run hooks m).2.cpu := by
  have kept : I m.cpu → I (p.run hooks m).2.cpu :=
    (only_any p).rel (R := fun a b => I a → I b) (fun _ h => h)
      (fun _ _ _ first second h => second (first h)) (fun e _ m => effect e m) m
  exact kept before

/-- A property that every unaborted action keeps is kept by every unaborted body. -/
theorem run_unaborted {I : Cpu → Prop} (sticky : hooks.Sticky)
    (effect : ∀ (e : Effect) (m : Machine ω), I m.cpu → (e.apply hooks m).aborted hooks = false →
      I (e.apply hooks m).cpu) (p : Op α) (m : Machine ω) (before : I m.cpu)
    (kept : (p.run hooks m).2.aborted hooks = false) : I (p.run hooks m).2.cpu := by
  induction p generalizing m with
  | ret value => exact before
  | look next ih => exact ih _ m before kept
  | act e next ih =>
    -- What ends unaborted was unaborted after its first action.
    have first := (Steps.run (.refl (e.apply hooks m)) next).unaborted sticky kept
    exact ih _ (effect e m before first) kept
  | aborted next ih => exact ih _ m before kept
  | ask fact next ih => exact ih _ _ (by rwa [raw_cpu]) kept
  | sfrRead index next ih => exact ih _ _ (by rwa [sfrRead_cpu]) kept
  | sfrRmwRead index next ih => exact ih _ _ (by rwa [sfrRmwRead_cpu]) kept
  | busRead address next ih =>
    simp only [Op.run] at kept ⊢
    split
    · rename_i callback installed
      rw [installed] at kept
      exact ih _ _ before kept
    · rename_i absent
      rw [absent] at kept
      exact ih _ _ before kept
  | busWrite address value next ih =>
    simp only [Op.run] at kept ⊢
    split
    · rename_i callback installed
      rw [installed] at kept
      exact ih _ _ before kept
    · rename_i absent
      rw [absent] at kept
      exact ih _ _ before kept

/-- The first steps of a body, as a body of its own. -/
def take : Nat → Op α → Op Unit
  | 0, _ => ret ()
  | _ + 1, ret _ => ret ()
  | k + 1, look next => look fun c => (next c).take k
  | k + 1, act effect next => act effect (next.take k)
  | k + 1, aborted next => aborted fun b => (next b).take k
  | k + 1, ask fact next => ask fact fun n => (next n).take k
  | k + 1, sfrRead index next => sfrRead index fun v => (next v).take k
  | k + 1, sfrRmwRead index next => sfrRmwRead index fun v => (next v).take k
  | k + 1, busRead address next => busRead address fun v => (next v).take k
  | k + 1, busWrite address value next => busWrite address value fun b => (next b).take k

/-! The laws that let bodies in `do` notation be taken apart. -/

/-- An answer in a body. -/
@[simp] theorem pure_eq (value : α) : (pure value : Op α) = ret value := rfl

/-- The sequence of two bodies. -/
@[simp] theorem bind_eq (p : Op α) (f : α → Op β) : (p >>= f) = p.bind f := rfl

/-- Running an answer. -/
@[simp] theorem run_ret (value : α) (m : Machine ω) :
    (ret value : Op α).run hooks m = (value, m) := rfl

/-- Running an action. -/
@[simp] theorem run_perform (e : Effect) (m : Machine ω) :
    (perform e).run hooks m = ((), e.apply hooks m) := rfl

/-- Looking at the core, and going on. -/
@[simp] theorem run_cpu_bind (f : Cpu → Op α) (m : Machine ω) :
    (cpu.bind f).run hooks m = (f m.cpu).run hooks m := rfl

/-- An action, and what follows it. -/
@[simp] theorem run_perform_bind (e : Effect) (f : Unit → Op α) (m : Machine ω) :
    ((perform e).bind f).run hooks m = (f ()).run hooks (e.apply hooks m) := rfl

/-- The test for an abort, and what follows it. -/
@[simp] theorem run_isAborted_bind (f : Bool → Op α) (m : Machine ω) :
    (isAborted.bind f).run hooks m = (f (m.aborted hooks)).run hooks m := rfl

/-- A body chosen by a condition. -/
@[simp] theorem run_ite {p : Prop} [Decidable p] (a b : Op α) (m : Machine ω) :
    (if p then a else b).run hooks m = if p then a.run hooks m else b.run hooks m := by
  split <;> rfl

end Op

/-! ### The stack -/

namespace Cpu

/-- The CPU after a byte has been pushed. -/
def push (c : Cpu) (value : Byte) : Cpu :=
  let sp := c.sfr Reg.sp + 1#8
  let c := { c with sfr := Function.update c.sfr Reg.sp sp }
  if 0x7F#8 < sp then
    { c with upperData := c.upperData.map fun data => Function.update data (sp.setWidth 7) value }
  else { c with lowerData := Function.update c.lowerData (sp.setWidth 7) value }

/-- The stack has room for one more byte: the pointer does not wrap and has RAM behind it. -/
def canPush (c : Cpu) : Bool :=
  c.stackBacked (c.sfr Reg.sp + 1#8) && c.sfr Reg.sp + 1#8 != 0#8

/-- The CPU after a byte has been popped. -/
def pop (c : Cpu) : Cpu := { c with sfr := Function.update c.sfr Reg.sp (c.sfr Reg.sp - 1#8) }

/-- The stack has a byte to give: the pointer has RAM behind it and does not wrap. -/
def canPop (c : Cpu) : Bool :=
  c.stackBacked (c.sfr Reg.sp) && c.sfr Reg.sp - 1#8 != 0xFF#8

end Cpu

/-- Storing through the pointer is one update of internal RAM. -/
theorem run_writeMemIndir_bind (address value : Byte) (f : Unit → Op α) (m : Machine ω) :
    ((writeMemIndir address value).bind f).run hooks m =
      (f ()).run hooks
        (if 0x7F#8 < address then (Effect.setUpper (address.setWidth 7) value).apply hooks m
        else (Effect.setLower (address.setWidth 7) value).apply hooks m) := by
  simp only [writeMemIndir]
  split <;> rfl

/-- A push that has room stores its byte and succeeds. -/
theorem pushToStack_run (value : Byte) (m : Machine ω) (room : m.cpu.canPush = true) :
    (pushToStack value).run hooks m = (true, m.mapCpu fun c => c.push value) := by
  simp only [Cpu.canPush, Bool.and_eq_true, bne_iff_ne, ne_eq] at room
  simp only [pushToStack, Op.bind_eq, Op.run_cpu_bind, Op.run_perform_bind, run_writeMemIndir_bind,
    Op.pure_eq, Op.run_ret, room.1, room.2, if_true, if_false]
  simp only [Cpu.push, mapCpu]
  split <;> rfl

/-- A push succeeds exactly when there is room. -/
theorem pushToStack_fst (value : Byte) (m : Machine ω) :
    ((pushToStack value).run hooks m).1 = m.cpu.canPush := by
  simp only [pushToStack, Op.bind_eq, Op.run_cpu_bind, Op.run_perform_bind, Op.run_ite,
    run_writeMemIndir_bind, Op.pure_eq, Op.run_ret, Cpu.canPush]
  -- Either the pointer has no RAM behind it, or it may have wrapped to zero.
  split
  · rename_i backed
    by_cases wrapped : m.cpu.sfr Reg.sp + 1#8 = 0#8
    · simp [wrapped]
    · simp [backed, wrapped]
  · rename_i bare
    simp [bare]

/-- A pop that has a byte to give moves the pointer and answers the byte. -/
theorem run_popFromStack (m : Machine ω) (room : m.cpu.canPop = true) :
    popFromStack.run hooks m =
      (some (m.cpu.readIndir (m.cpu.sfr Reg.sp)), m.mapCpu Cpu.pop) := by
  simp only [Cpu.canPop, Bool.and_eq_true, bne_iff_ne, ne_eq] at room
  simp only [popFromStack, Op.bind_eq, Op.run_cpu_bind, Op.run_perform_bind,
    Op.pure_eq, Op.run_ret, room.1, room.2, if_true, if_false]
  rfl

/-- What follows such a pop continues with the byte. -/
theorem run_popFromStack_bind (f : Option Byte → Op α) (m : Machine ω)
    (room : m.cpu.canPop = true) :
    (popFromStack.bind f).run hooks m =
      (f (some (m.cpu.readIndir (m.cpu.sfr Reg.sp)))).run hooks (m.mapCpu Cpu.pop) := by
  rw [Op.run_bind, run_popFromStack m room]

/-- The actions of a push or a pop: the pointer, internal RAM, and the stack exception. -/
def StackEffect : Effect → Prop
  | .setReg reg _ => reg = .sp
  | .setLower _ _ | .setUpper _ _ => True
  | .raise code => code = .stack
  | _ => False

/-- A push takes actions on the stack only. -/
theorem pushToStack_only (value : Byte) : (pushToStack value).Only StackEffect := by
  refine Op.only_bind (fun _ => trivial) fun c => Op.only_bind ⟨rfl, trivial⟩ fun _ => ?_
  -- A wrapped stack, one with no memory behind it, or the plain push.
  split
  · refine Op.only_bind ?_ fun _ => ?_
    · simp only [writeMemIndir]
      split <;> exact ⟨trivial, trivial⟩
    · split
      · exact ⟨rfl, trivial⟩
      · trivial
  · exact ⟨rfl, trivial⟩

/-- So does a pop. -/
theorem popFromStack_only : popFromStack.Only StackEffect := by
  refine Op.only_bind (fun _ => trivial) fun c => ?_
  dsimp only
  split
  · refine Op.only_bind ⟨rfl, trivial⟩ fun _ => ?_
    split
    · exact ⟨rfl, trivial⟩
    · trivial
  · exact ⟨rfl, trivial⟩

/-- What a stack access leaves alone: everything stable but internal RAM and the pointer. -/
structure SameButStack (a b : Cpu) : Prop where
  fixed : b.fixed = a.fixed
  pc : b.pc = a.pc
  service : b.service = a.service
  irqInhibit : b.irqInhibit = a.irqInhibit
  irqPending : b.irqPending = a.irqPending
  irqEnabled : b.irqEnabled = a.irqEnabled
  levelAsserted : b.pins = a.pins
  sfr : ∀ index, index ≠ Reg.sp → b.sfr index = a.sfr index
  extData : b.extData = a.extData
  uart : b.uart = a.uart
  adc : b.adc = a.adc

namespace SameButStack

/-- The variant is another part that stays. -/
theorem variant {a b : Cpu} (same : SameButStack a b) : b.variant = a.variant :=
  congrArg Fixed.variant same.fixed

/-- The stack may also stay. -/
theorem refl (c : Cpu) : SameButStack c c :=
  ⟨rfl, rfl, rfl, rfl, rfl, rfl, rfl, fun _ _ => rfl, rfl, rfl, rfl⟩

/-- Changes of the stack add up. -/
theorem trans (a b c : Cpu) (first : SameButStack a b) (second : SameButStack b c) :
    SameButStack a c where
  fixed := second.fixed.trans first.fixed
  pc := second.pc.trans first.pc
  service := second.service.trans first.service
  irqInhibit := second.irqInhibit.trans first.irqInhibit
  irqPending := second.irqPending.trans first.irqPending
  irqEnabled := second.irqEnabled.trans first.irqEnabled
  levelAsserted := second.levelAsserted.trans first.levelAsserted
  sfr := fun index other => (second.sfr index other).trans (first.sfr index other)
  extData := second.extData.trans first.extData
  uart := second.uart.trans first.uart
  adc := second.adc.trans first.adc

end SameButStack

/-- A stack action leaves the rest of the CPU alone. -/
theorem StackEffect.sameButStack (e : Effect) (stack : StackEffect e) (m : Machine ω) :
    SameButStack m.cpu (e.apply hooks m).cpu := by
  cases e with
  | setLower _ _ | setUpper _ _ | raise _ =>
    exact ⟨rfl, rfl, rfl, rfl, rfl, rfl, rfl, fun _ _ => rfl, rfl, rfl, rfl⟩
  | setReg reg value =>
    have only : reg = .sp := stack
    subst only
    refine ⟨rfl, rfl, rfl, rfl, rfl, rfl, rfl, fun index other => ?_, rfl, rfl, rfl⟩
    exact Function.update_of_ne other _ _
  | _ => exact absurd stack (by simp [StackEffect])

/-- A push, whether or not it succeeds, touches only internal RAM and the pointer. -/
theorem pushToStack_sameButStack (value : Byte) (m : Machine ω) :
    SameButStack m.cpu ((pushToStack value).run hooks m).2.cpu :=
  (pushToStack_only value).rel SameButStack.refl SameButStack.trans
    StackEffect.sameButStack m

/-- And so does a pop. -/
theorem popFromStack_sameButStack (m : Machine ω) :
    SameButStack m.cpu (popFromStack.run hooks m).2.cpu :=
  popFromStack_only.rel SameButStack.refl SameButStack.trans StackEffect.sameButStack m

/-! ### Return from interrupt -/

/-- The in-service stack after its innermost entry has been released. -/
def IrqService.pop (v : IrqService) : IrqService :=
  if v.depth = 0 then v
  else
    { v with
      depth := v.depth - 1
      inService := v.inService &&& ~~~(1#16 <<< v.sourceStack (v.depth - 1)) }

/-- The release of the innermost entry shows in the stable part as one pop. -/
theorem irqRelease_stable (m : Machine ω) (nested : m.cpu.service.depth ≠ 0) :
    (irqRelease hooks m).cpu.stable = { m.cpu.stable with service := m.cpu.service.pop } := by
  simp only [irqRelease, emitIrq_cpu, irqSync_stable, IrqService.pop, if_neg nested]
  rfl

/--
Return from interrupt, unless it is aborted by one of its checks, releases the innermost entry and
arms the hold-off.
-/
theorem sabIrqReti_stable (originalSp : Byte) (m : Machine ω) :
    ((sabIrqReti hooks originalSp m).cpu.stable = m.cpu.stable ∧
        ((sabIrqReti hooks originalSp m).aborted hooks = true ∨ m.cpu.variant ≠ .sab80535)) ∨
      (m.cpu.variant = .sab80535 ∧
        (sabIrqReti hooks originalSp m).cpu.stable =
          { m.cpu.stable with
            service := m.cpu.service.pop
            irqInhibit := m.cpu.armValue }) := by
  have arm : ∀ n : Machine ω, (armInhibit n).cpu.stable =
      { n.cpu.stable with irqInhibit := n.cpu.armValue } := fun _ => rfl
  simp only [sabIrqReti]
  split
  · rename_i sab
    split
    · rename_i nested
      -- Each of the three checks may end the operation with an abort.
      split
      · rename_i stopped
        exact Or.inl ⟨raiseIf_stable hooks m _ _, Or.inl stopped⟩
      · split
        · rename_i stopped
          refine Or.inl ⟨?_, Or.inl stopped⟩
          rw [raiseIf_stable, raiseIf_stable]
        · split
          · rename_i stopped
            refine Or.inl ⟨?_, Or.inl stopped⟩
            rw [raiseIf_stable, raiseIf_stable, raiseIf_stable]
          · refine Or.inr ⟨sab, ?_⟩
            generalize checked : (raiseIf hooks _ .iretPswMismatch _ : Machine ω) = n
            have same : n.cpu.stable = m.cpu.stable := by
              rw [← checked, raiseIf_stable, raiseIf_stable, raiseIf_stable]
            have service : n.cpu.service = m.cpu.service := congrArg Stable.service same
            have released : (irqRelease hooks n).cpu.stable =
                { n.cpu.stable with service := n.cpu.service.pop } :=
              irqRelease_stable n (by rw [service]; exact nested)
            have fixed : (irqRelease hooks n).cpu.fixed = m.cpu.fixed := by
              have := congrArg Stable.fixed released
              exact this.trans (congrArg Stable.fixed same)
            rw [arm, released, armValue_eq fixed, same, service]
    · rename_i top
      have empty : m.cpu.service.depth = 0 := by simpa using top
      refine Or.inr ⟨sab, ?_⟩
      rw [arm, IrqService.pop, if_pos empty]
      rfl
  · rename_i classic
    exact Or.inl ⟨rfl, Or.inr classic⟩

/-- On the Siemens CPU leaving an interrupt is the controller's release and one abort test. -/
theorem leaveInterrupt_run (originalSp : Byte) (m : Machine ω)
    (sab : m.cpu.variant = .sab80535) :
    (leaveInterrupt originalSp).run hooks m =
      (!(sabIrqReti hooks originalSp m).aborted hooks, sabIrqReti hooks originalSp m) := by
  simp only [leaveInterrupt, Op.bind_eq, Op.run_cpu_bind, sab, if_true, Op.run_perform_bind,
    Op.run_isAborted_bind, Op.pure_eq, Op.run_ret, Effect.apply]

/-- The stack gives the two bytes a return takes. -/
def Cpu.canReturn (c : Cpu) : Bool := c.canPop && c.pop.canPop

/--
A return from interrupt that finds its address on the stack and is not aborted releases the
innermost entry and arms the hold-off.
-/
theorem reti_stable (m : Machine ω) (sab : m.cpu.variant = .sab80535)
    (returns : m.cpu.canReturn = true) (kept : (reti.run hooks m).2.aborted hooks = false) :
    (reti.run hooks m).2.cpu.service = m.cpu.service.pop ∧
      (reti.run hooks m).2.cpu.irqInhibit = m.cpu.armValue := by
  simp only [Cpu.canReturn, Bool.and_eq_true] at returns
  -- Both pops succeed and leave the variant and the in-service stack alone.
  simp only [reti, Op.bind_eq, Op.run_cpu_bind] at kept ⊢
  rw [run_popFromStack_bind _ m returns.1] at kept ⊢
  dsimp only at kept ⊢
  rw [run_popFromStack_bind _ (m.mapCpu Cpu.pop) returns.2] at kept ⊢
  dsimp only at kept ⊢
  generalize popped : (m.mapCpu Cpu.pop).mapCpu Cpu.pop = n at kept ⊢
  have same : n.cpu.variant = m.cpu.variant ∧ n.cpu.service = m.cpu.service ∧
      n.cpu.armValue = m.cpu.armValue := by
    rw [← popped]
    exact ⟨rfl, rfl, rfl⟩
  rw [← same.2.1, ← same.2.2]
  rw [Op.run_bind, leaveInterrupt_run _ n (same.1.trans sab)] at kept ⊢
  rcases @sabIrqReti_stable ω hooks (m.cpu.sfr Reg.sp) n with ⟨-, cut⟩ | ⟨-, released⟩
  · -- An aborted check ends the body at once, which the hypothesis excludes.
    have aborted := cut.resolve_right (fun classic => classic (same.1.trans sab))
    simp only [aborted] at kept
    exact absurd (aborted.symm.trans kept) (by decide)
  · -- What is left stores the program counter and reports the return.
    generalize sabIrqReti hooks (m.cpu.sfr Reg.sp) n = k at kept released ⊢
    have service : k.cpu.service = n.cpu.service.pop := congrArg Stable.service released
    have inhibit : k.cpu.irqInhibit = n.cpu.armValue := congrArg Stable.irqInhibit released
    simp only [Op.run_ite, Op.run_cpu_bind, Op.run_perform_bind, Op.pure_eq, Op.run_ret,
      Effect.apply] at kept ⊢
    split
    · rw [raw_cpu]
      exact ⟨service, inhibit⟩
    · exact ⟨service, inhibit⟩

/-! ### Whole bodies -/

/-- No action of a quiet machine's opcodes changes the fixed part. -/
theorem Effect.apply_fixed (quiet : hooks.Quiet) (e : Effect) (m : Machine ω) :
    (e.apply hooks m).cpu.fixed = m.cpu.fixed := by
  -- Most actions store into parts that are not fixed.
  cases e with
  | setLower _ _ | setUpper _ _ | setPc _ | setExt _ _ | setInterruptActive _ | setReg _ _
  | emit _ | raise _ => rfl
  -- A write may store a quiet register, which is not fixed either.
  | sfrWrite index value =>
    rcases sfrWrite_stable quiet index value m with same | ⟨-, -, same⟩
    · exact congrArg Stable.fixed same
    · exact congrArg Stable.fixed same
  | irqReti originalSp =>
    rcases @sabIrqReti_stable ω hooks originalSp m with ⟨same, -⟩ | ⟨-, same⟩
    · exact congrArg Stable.fixed same
    · exact congrArg Stable.fixed same
  | trace type address value => exact congrArg Cpu.fixed (traceEmit_cpu hooks m _ _ _)
  | fact f => exact congrArg Cpu.fixed (raw_cpu hooks m f)

/-- No opcode body of a quiet machine changes the fixed part. -/
theorem Op.run_fixed (quiet : hooks.Quiet) (p : Op α) (m : Machine ω) :
    (p.run hooks m).2.cpu.fixed = m.cpu.fixed :=
  (only_any p).rel (R := fun a b => b.fixed = a.fixed) (fun _ => rfl)
    (fun _ _ _ first second => second.trans first) (fun e _ m => e.apply_fixed quiet m) m

/-- An opcode's action leaves the held part alone or releases the innermost interrupt. -/
theorem Effect.apply_held (passive : hooks.Passive) (e : Effect) (m : Machine ω) :
    (e.apply hooks m).cpu.held = m.cpu.held ∨
      (e.apply hooks m).cpu.held = { m.cpu.held with service := m.cpu.service.pop } := by
  -- Most actions store into parts that are not held.
  cases e with
  | setLower _ _ | setUpper _ _ | setPc _ | setExt _ _ | setInterruptActive _ | setReg _ _
  | emit _ | raise _ => exact Or.inl rfl
  | sfrWrite index value => exact Or.inl (sfrWrite_held passive index value m)
  -- Only a RETI takes an entry off the service stack.
  | irqReti originalSp =>
    rcases @sabIrqReti_stable ω hooks originalSp m with ⟨same, -⟩ | ⟨-, same⟩
    · exact Or.inl (Stable.held_eq same)
    · right
      exact congrArg₂ (fun (f : Fixed) v => Held.mk f.variant f.inInstruction v)
        (congrArg Stable.fixed same) (congrArg Stable.service same)
  | trace type address value => exact Or.inl (congrArg Cpu.held (traceEmit_cpu hooks m _ _ _))
  | fact f => exact Or.inl (congrArg Cpu.held (raw_cpu hooks m f))

/-- What releases and register writes keep, every opcode body keeps. -/
theorem Op.run_held {I : Held → Prop} (passive : hooks.Passive)
    (released : ∀ h : Held, I h → I { h with service := h.service.pop }) (p : Op α)
    (m : Machine ω) (before : I m.cpu.held) : I (p.run hooks m).2.cpu.held := by
  refine Op.run_keeps (I := fun c => I c.held) (fun e m start => ?_) p m before
  rcases e.apply_held passive m with same | popped
  · rw [same]
    exact start
  · rw [popped]
    exact released _ start

end Emu80535
