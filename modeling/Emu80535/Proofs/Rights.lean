import Mathlib.Data.List.Forall2
import Emu80535.Proofs.Bodies

/-! What each opcode body may look at and act on, as a table that is checked against the bodies. -/

namespace Emu80535

open Machine

/-! ### Rights -/

/-- What an opcode body may do beyond working on its own registers and on lower internal RAM. -/
structure Rights where
  /-- Look at or store upper internal RAM. -/
  upper : Bool := false
  /-- Look at a register of the register file that is none of its own. -/
  latch : Bool := false
  /-- Read a register through the gateway. -/
  read : Bool := false
  /-- Read a register for modification through the gateway. -/
  modify : Bool := false
  /-- Write a register through the gateway. -/
  write : Bool := false
  /-- Access external data, and report the P1 latch with it. -/
  external : Bool := false
  /-- Return from an interrupt of the Siemens controller. -/
  leave : Bool := false
  /-- Look at and change the state of the classic controller. -/
  classic : Bool := false
  /-- Ask an attached observer for leave to call. -/
  calls : Bool := false
  deriving DecidableEq, Repr

/-- The registers every opcode body may look at. -/
def isOwn (index : SfrIndex) : Bool :=
  [Reg.acc, Reg.b, Reg.psw, Reg.sp, Reg.dpl, Reg.dph].contains index

/-- The actions the rights permit. -/
def Rights.allows (r : Rights) : Effect → Bool
  | .setUpper _ _ => r.upper
  | .setExt _ _ => r.external
  | .setInterruptActive _ => r.classic
  | .sfrWrite _ _ => r.write
  | .irqReti _ => r.leave
  | .emit (.movx ..) => r.external
  | .emit _ => false
  | .setLower _ _ | .setReg _ _ | .setPc _ | .raise _ | .trace _ _ _ | .fact _ => true

/-- The register file as far as the rights let it be seen. -/
def Rights.sees (r : Rights) (index : SfrIndex) : Bool :=
  isOwn index || r.latch || (r.external && index == Reg.p1)

/--
The CPU with everything a body has no right to look at taken from another one.

Whether there is upper internal RAM at all is part of the configuration, which a body may look at.
-/
def Cpu.hide (c : Cpu) (r : Rights) (other : Cpu) : Cpu :=
  { other with
    variant := c.variant
    codeMem := c.codeMem
    codeMemMaxIdx := c.codeMemMaxIdx
    extData := if r.external then c.extData else other.extData
    extDataMaxIdx := c.extDataMaxIdx
    lowerData := c.lowerData
    upperData :=
      if r.upper then c.upperData
      else c.upperData.map fun _ => other.upperData.getD fun _ => 0#8
    sfr := fun i => if r.sees i then c.sfr i else other.sfr i
    pc := c.pc
    machineCycleCount := c.machineCycleCount
    classic := if r.classic then c.classic else other.classic
    observed := c.observed }

namespace Op

variable {α β : Type}

/-- Every step of a body is within the rights, and its answer is as given. -/
def Obeys (r : Rights) (answer : α → Prop) : Op α → Prop
  | ret value => answer value
  | look next => (∀ other c, next (c.hide r other) = next c) ∧ ∀ c, (next c).Obeys r answer
  | act effect next => r.allows effect = true ∧ next.Obeys r answer
  | aborted next => ∀ b, (next b).Obeys r answer
  | ask _ next => (r.modify || r.calls) = true ∧ ∀ n, (next n).Obeys r answer
  | sfrRead _ next => r.read = true ∧ ∀ v, (next v).Obeys r answer
  | sfrRmwRead _ next => r.modify = true ∧ ∀ v, (next v).Obeys r answer
  | busRead _ next => r.external = true ∧ ∀ v, (next v).Obeys r answer
  | busWrite _ _ next => r.external = true ∧ ∀ b, (next b).Obeys r answer

end Op

/-! ### The table -/

/-- Rights of the register forms, column by column of `rxRow`. -/
def rxRights : List Rights :=
  [{}, {}, {}, {}, {}, {}, {}, {},
   { write := true }, {}, { read := true }, {}, {}, {}, {}, {}]

/-- Rights of the other forms, in the places their bodies have in `opRows`. -/
def rightsRows : List (List Rights) :=
  let upper : Rights := { upper := true }
  let read : Rights := { read := true }
  let write : Rights := { write := true }
  let modify : Rights := { modify := true, write := true }
  let latch : Rights := { latch := true, write := true }
  let external : Rights := { external := true }
  let call : Rights := { upper := true, calls := true }
  [[{}, {}, {}, {}, {}, modify, upper, upper],
   [latch, call, call, {}, {}, modify, upper, upper],
   [read, {}, upper, {}, {}, read, upper, upper],
   [read, call, { upper := true, leave := true, classic := true }, {}, {}, read, upper, upper],
   [{}, {}, modify, modify, {}, read, upper, upper],
   [{}, call, latch, modify, {}, read, upper, upper],
   [{}, {}, latch, modify, {}, read, upper, upper],
   [{}, call, read, {}, {}, write, upper, upper],
   [{}, {}, read, {}, {}, { read := true, write := true }, { upper := true, write := true },
     { upper := true, write := true }],
   [{}, call, latch, {}, {}, read, upper, upper],
   [read, {}, read, {}, {}, {}, { upper := true, read := true }, { upper := true, read := true }],
   [read, call, latch, {}, {}, read, upper, upper],
   [{ upper := true, read := true }, {}, latch, {}, {}, { read := true, write := true }, upper,
     upper],
   [{ upper := true, write := true }, call, latch, {}, {}, modify, upper, upper],
   [external, {}, external, external, {}, read, upper, upper],
   [external, call, external, external, {}, write, upper, upper]]

/-- The rights of an opcode, looked up as `opTable` looks up its body. -/
def opRights (opcode : Byte) : Rights :=
  let row := (opcode >>> 4).toNat
  if has opcode 0x08#8 then rxRights[row]?.getD {}
  else (rightsRows[row]?.bind fun rights => rights[(opcode &&& 7#8).toNat]?).getD {}

namespace Op

variable {α β : Type} {r : Rights} {answer : α → Prop}

/-- A body within its rights takes only actions they permit. -/
theorem Obeys.only {p : Op α} (obeys : p.Obeys r answer) : p.Only fun e => r.allows e = true := by
  -- By induction on the tree; only an action is restricted.
  induction p with
  | ret value => trivial
  | look next ih => exact fun c => ih c (obeys.2 c)
  | act effect next ih => exact ⟨obeys.1, ih obeys.2⟩
  | aborted next ih => exact fun b => ih b (obeys b)
  | ask fact next ih => exact fun n => ih n (obeys.2 n)
  | sfrRead index next ih => exact fun v => ih v (obeys.2 v)
  | sfrRmwRead index next ih => exact fun v => ih v (obeys.2 v)
  | busRead address next ih => exact fun v => ih v (obeys.2 v)
  | busWrite address value next ih => exact fun b => ih b (obeys.2 b)

/-! ### Parts of bodies -/

/-- Sequencing stays within the rights of both halves. -/
theorem Obeys.bind {p : Op α} {f : α → Op β} {Q : α → Prop} {answer : β → Prop}
    (first : p.Obeys r Q) (second : ∀ a, Q a → (f a).Obeys r answer) :
    (p.bind f).Obeys r answer := by
  -- By induction on the first half; its result is where the second half begins.
  induction p with
  | ret value => exact second value first
  | look next ih =>
    refine ⟨fun other c => ?_, fun c => ih c (first.2 c)⟩
    exact congrArg (fun q => Op.bind q f) (first.1 other c)
  | act effect next ih => exact ⟨first.1, ih first.2⟩
  | aborted next ih => exact fun b => ih b (first b)
  | ask fact next ih => exact ⟨first.1, fun n => ih n (first.2 n)⟩
  | sfrRead index next ih => exact ⟨first.1, fun v => ih v (first.2 v)⟩
  | sfrRmwRead index next ih => exact ⟨first.1, fun v => ih v (first.2 v)⟩
  | busRead address next ih => exact ⟨first.1, fun v => ih v (first.2 v)⟩
  | busWrite address value next ih => exact ⟨first.1, fun b => ih b (first.2 b)⟩

/-- A part whose answer does not matter, followed by the rest. -/
theorem Obeys.andThen {p : Op α} {f : α → Op β} {answer : β → Prop}
    (first : p.Obeys r fun _ => True) (second : ∀ a, (f a).Obeys r answer) :
    (p >>= f).Obeys r answer := first.bind fun a _ => second a

/-- A look at the CPU that sees nothing hidden. -/
theorem obeys_look {f : Cpu → Op α} (seen : ∀ other c, f (c.hide r other) = f c)
    (rest : ∀ c, (f c).Obeys r answer) : (cpu >>= f).Obeys r answer := ⟨seen, rest⟩

/-- An action the rights permit. -/
theorem obeys_perform {e : Effect} (allowed : r.allows e = true) :
    (perform e).Obeys r fun _ => True := ⟨allowed, trivial⟩

/-- Asking whether execution is aborted needs no right. -/
theorem obeys_isAborted : isAborted.Obeys r fun _ => True := fun _ => trivial

/-- A branch within the rights on both sides. -/
theorem obeys_ite {c : Prop} [Decidable c] {p q : Op α} (yes : p.Obeys r answer)
    (no : q.Obeys r answer) : (if c then p else q).Obeys r answer := by
  split
  · exact yes
  · exact no

end Op

open Op

section Parts

variable {r : Rights}

/-- Fetching an operand byte keeps within the rights. -/
theorem operand_obeys (offset : Nat) : (operand offset).Obeys r fun _ => True :=
  obeys_look (fun _ _ => rfl) fun _ => (obeys_perform rfl).andThen fun _ => trivial

/-- Stepping over an instruction keeps within the rights. -/
theorem advancePc_obeys (length : Word) : (advancePc length).Obeys r fun _ => True :=
  obeys_look (fun _ _ => rfl) fun _ => obeys_perform rfl

/-- A relative branch keeps within the rights. -/
theorem branchPc_obeys (offset : Byte) (length : Word) :
    (branchPc offset length).Obeys r fun _ => True :=
  obeys_look (fun _ _ => rfl) fun _ => obeys_perform rfl

/-- Setting the carry keeps within the rights. -/
theorem setCarry_obeys (carry : Bool) : (setCarry carry).Obeys r fun _ => True :=
  obeys_look (fun _ _ => rfl) fun _ => obeys_perform rfl

/-- Setting the arithmetic flags keeps within the rights. -/
theorem solveFlags_obeys (carry auxcarry overflow : Bool) :
    (solveFlags carry auxcarry overflow).Obeys r fun _ => True :=
  obeys_look (fun _ _ => rfl) fun _ => obeys_perform rfl

/-- Reading a direct byte keeps within the rights. -/
theorem readMem_obeys (read : r.read = true) (address : Byte) :
    (readMem address).Obeys r fun _ => True :=
  obeys_ite ⟨read, fun _ => trivial⟩ (obeys_look (fun _ _ => rfl) fun _ => trivial)

/-- Reading a direct byte for modification keeps within the rights. -/
theorem readMemRmw_obeys (modify : r.modify = true) (address : Byte) :
    (readMemRmw address).Obeys r fun _ => True := by
  refine obeys_ite ?_ (obeys_ite ⟨modify, fun _ => trivial⟩
    (obeys_look (fun _ _ => rfl) fun _ => trivial))
  -- The serial buffer's read is reported before and after.
  have asks : (r.modify || r.calls) = true := by rw [modify, Bool.true_or]
  refine obeys_look (fun _ _ => rfl) fun _ => ⟨asks, fun _ => ⟨modify, fun _ => ?_⟩⟩
  exact obeys_look (fun _ _ => rfl) fun _ => (obeys_perform rfl).andThen fun _ => trivial

/-- Writing a direct byte keeps within the rights. -/
theorem writeMem_obeys (write : r.write = true) (address value : Byte) :
    (writeMem address value).Obeys r fun _ => True :=
  obeys_ite (obeys_perform write) (obeys_perform rfl)

/-- Writing an indirect byte keeps within the rights. -/
theorem writeMemIndir_obeys (upper : r.upper = true) (address value : Byte) :
    (writeMemIndir address value).Obeys r fun _ => True :=
  obeys_ite (obeys_perform upper) (obeys_perform rfl)

/-- Raising an exception where a check fails keeps within the rights. -/
theorem raiseUnless_obeys (ok : Bool) (code : ExceptionCode) :
    (raiseUnless ok code).Obeys r fun _ => True := obeys_ite trivial (obeys_perform rfl)

/-- Pushing looks only at the stack pointer and at whether there is memory behind it. -/
theorem pushToStack_obeys (upper : r.upper = true) (value : Byte) :
    (pushToStack value).Obeys r fun _ => True := by
  refine obeys_look (fun other c => ?_) fun c => (obeys_perform rfl).andThen fun _ => ?_
  · simp only [Cpu.stackBacked, Cpu.hide, upper, if_true]
    rfl
  · refine obeys_ite ((writeMemIndir_obeys upper _ _).andThen fun _ => ?_) ?_
    · exact obeys_ite ((obeys_perform rfl).andThen fun _ => trivial) trivial
    · exact (obeys_perform rfl).andThen fun _ => trivial

/-- Popping a byte keeps within the rights. -/
theorem popFromStack_obeys (upper : r.upper = true) : popFromStack.Obeys r fun _ => True := by
  refine obeys_look (fun other c => ?_) fun c => obeys_ite ((obeys_perform rfl).andThen fun _ => ?_)
    ((obeys_perform rfl).andThen fun _ => trivial)
  · simp only [Cpu.stackBacked, Cpu.readIndir, Cpu.hide, upper, if_true]
    rfl
  · exact obeys_ite ((obeys_perform rfl).andThen fun _ => trivial) trivial

/-- Asking an observer for leave keeps within the rights. -/
theorem preflight_obeys (calls : r.calls = true) : preflight.Obeys r fun _ => True := by
  have asks : (r.modify || r.calls) = true := by rw [calls, Bool.or_true]
  exact obeys_look (fun _ _ => rfl) fun _ => obeys_ite ⟨asks, fun _ => trivial⟩ trivial

/-- Reporting a call keeps within the rights. -/
theorem callFact_obeys (target returnPc : Word) : (callFact target returnPc).Obeys r fun _ => True :=
  obeys_look (fun _ _ => rfl) fun _ => obeys_perform rfl

/-- Reading a bit keeps within the rights. -/
theorem readBit_obeys (read : r.read = true) (address : Byte) :
    (readBit address).Obeys r fun _ => True :=
  (readMem_obeys read _).andThen fun _ => trivial

/-- A latch is looked at where it stands in the register file. -/
theorem modifyLatch_obeys (latch : r.latch = true) (write : r.write = true) (location : Byte)
    {update : Cpu → Byte → Byte} (seen : ∀ other c, update (c.hide r other) = update c) :
    (modifyLatch location update).Obeys r fun _ => True := by
  refine obeys_look (fun other c => ?_) fun c => (writeMem_obeys write _ _).andThen fun _ => ?_
  · have same : (c.hide r other).latchByte location = c.latchByte location := by
      simp only [Cpu.latchByte, Cpu.hide, Rights.sees, latch, Bool.or_true, Bool.true_or, if_true]
    rw [seen, same]
  · exact obeys_ite (obeys_isAborted.andThen fun _ => trivial) trivial

end Parts

/-! ### Whole bodies -/

/-- A whole body is within the rights and takes at most three further cycles. -/
def Op.Lawful (r : Rights) (p : Op Nat) : Prop := p.Obeys r fun cycles => cycles ≤ 3

section Bodies

variable {r : Rights}

/-- Doing nothing for at most three further cycles is lawful. -/
theorem lawful_pure {cycles : Nat} (few : cycles ≤ 3) : (pure cycles : Op Nat).Lawful r := few

/-- Stepping over an instruction ends most bodies. -/
theorem lawful_step (length : Word) {cycles : Nat} (few : cycles ≤ 3) :
    (do advancePc length; pure cycles : Op Nat).Lawful r :=
  (advancePc_obeys length).andThen fun _ => lawful_pure few

/-- A relative branch over a known operand is lawful. -/
theorem lawful_branch {offset : Op Byte} (known : offset.Obeys r fun _ => True) (length : Word) :
    (do branchPc (← offset) length; pure 1 : Op Nat).Lawful r :=
  known.andThen fun _ => (branchPc_obeys _ length).andThen fun _ => lawful_pure (by decide)

/-! Jumps and calls. -/

/-- `ajmp_offset` is lawful. -/
theorem ajmpOffset_lawful : ajmpOffset.Lawful r :=
  (operand_obeys 1).andThen fun _ => obeys_look (fun _ _ => rfl) fun _ =>
    (obeys_perform rfl).andThen fun _ => lawful_pure (by decide)

/-- `ljmp_address` is lawful. -/
theorem ljmpAddress_lawful : ljmpAddress.Lawful r :=
  (operand_obeys 1).andThen fun _ => (operand_obeys 2).andThen fun _ =>
    (obeys_perform rfl).andThen fun _ => lawful_pure (by decide)

/-- `acall_offset` is lawful. -/
theorem acallOffset_lawful (upper : r.upper = true) (calls : r.calls = true) :
    acallOffset.Lawful r := by
  refine (operand_obeys 1).andThen fun _ => obeys_look (fun _ _ => rfl) fun _ =>
    (preflight_obeys calls).andThen fun _ => obeys_ite ((pushToStack_obeys upper _).andThen fun _ =>
      obeys_ite ((pushToStack_obeys upper _).andThen fun _ => obeys_ite ?_ ?_) ?_) ?_
  · exact (callFact_obeys _ _).andThen fun _ => (obeys_perform rfl).andThen fun _ =>
      lawful_pure (by decide)
  all_goals exact lawful_pure (by decide)

/-- `lcall_address` is lawful. -/
theorem lcallAddress_lawful (upper : r.upper = true) (calls : r.calls = true) :
    lcallAddress.Lawful r := by
  refine (preflight_obeys calls).andThen fun _ => obeys_ite (obeys_look (fun _ _ => rfl) fun _ =>
    (pushToStack_obeys upper _).andThen fun _ => obeys_ite ((pushToStack_obeys upper _).andThen
      fun _ => obeys_ite ?_ ?_) ?_) ?_
  · exact (operand_obeys 1).andThen fun _ => (operand_obeys 2).andThen fun _ =>
      (callFact_obeys _ _).andThen fun _ => (obeys_perform rfl).andThen fun _ =>
        lawful_pure (by decide)
  all_goals exact lawful_pure (by decide)

/-- `ret_op` is lawful. -/
theorem retOp_lawful (upper : r.upper = true) : retOp.Lawful r := by
  -- Two pops, of which either may fail, and the jump behind them.
  refine (popFromStack_obeys upper).andThen fun high => ?_
  cases high with
  | none => exact lawful_pure (by decide)
  | some high =>
    refine (popFromStack_obeys upper).andThen fun low => ?_
    cases low with
    | none => exact lawful_pure (by decide)
    | some low =>
      exact (obeys_perform rfl).andThen fun _ => obeys_look (fun _ _ => rfl) fun _ =>
        (obeys_perform rfl).andThen fun _ => lawful_pure (by decide)

/-- A short conditional branch is lawful. -/
theorem branchIf_lawful {condition : Cpu → Bool}
    (seen : ∀ other c, condition (c.hide r other) = condition c) :
    (branchIf condition).Lawful r := by
  refine obeys_look (fun other c => by rw [seen]) fun _ => obeys_ite ?_ ?_
  · exact (operand_obeys 1).andThen fun _ => (branchPc_obeys _ _).andThen fun _ =>
      lawful_pure (by decide)
  · exact lawful_step _ (by decide)

/-- `sjmp_offset` is lawful. -/
theorem sjmpOffset_lawful : sjmpOffset.Lawful r := lawful_branch (operand_obeys 1) _

/-- `jmp_indir_aDptr` is lawful. -/
theorem jmpIndirADptr_lawful : jmpIndirADptr.Lawful r :=
  obeys_look (fun _ _ => rfl) fun _ => (obeys_perform rfl).andThen fun _ => lawful_pure (by decide)

/-- A three-byte conditional branch is lawful. -/
theorem branchIf3_lawful (condition : Bool) : (branchIf3 condition).Lawful r :=
  obeys_ite ((operand_obeys 2).andThen fun _ => (branchPc_obeys _ _).andThen fun _ =>
    lawful_pure (by decide)) (lawful_step _ (by decide))

/-! Return from interrupt. -/

/-- Leaving an interrupt of the classic controller keeps within the rights. -/
theorem classicReti_obeys (classic : r.classic = true) (originalSp : Byte) :
    (classicReti originalSp).Obeys r fun _ => True := by
  have kept : ∀ other c, (Cpu.hide c r other).classic = c.classic := by
    intro other c
    simp only [Cpu.hide, classic, if_true]
  refine obeys_look (fun other c => ?_) fun c => obeys_ite trivial ?_
  · rw [kept]
    rfl
  -- Each of the three checks is followed by an abort test.
  · refine (raiseUnless_obeys _ _).andThen fun _ => obeys_isAborted.andThen fun _ =>
      obeys_ite trivial ?_
    refine (raiseUnless_obeys _ _).andThen fun _ => obeys_isAborted.andThen fun _ =>
      obeys_ite trivial ?_
    refine (raiseUnless_obeys _ _).andThen fun _ => obeys_isAborted.andThen fun _ =>
      obeys_ite trivial ?_
    have permitted : ∀ value, r.allows (.setInterruptActive value) = true := fun _ => classic
    exact (obeys_perform (permitted _)).andThen fun _ => trivial

/-- Leaving an interrupt keeps within the rights. -/
theorem leaveInterrupt_obeys (leave : r.leave = true) (classic : r.classic = true)
    (originalSp : Byte) : (leaveInterrupt originalSp).Obeys r fun _ => True := by
  have permitted : r.allows (.irqReti originalSp) = true := leave
  exact obeys_look (fun _ _ => rfl) fun _ => obeys_ite
    ((obeys_perform permitted).andThen fun _ => obeys_isAborted.andThen fun _ => trivial)
    (classicReti_obeys classic originalSp)

/-- `reti` is lawful. -/
theorem reti_lawful (upper : r.upper = true) (leave : r.leave = true) (classic : r.classic = true) :
    -- Two pops, of which either may fail, the end of the service, and the jump.
    reti.Lawful r := by
  refine obeys_look (fun _ _ => rfl) fun _ => (popFromStack_obeys upper).andThen fun high => ?_
  cases high with
  | none => exact lawful_pure (by decide)
  | some high =>
    refine (popFromStack_obeys upper).andThen fun low => ?_
    cases low with
    | none => exact lawful_pure (by decide)
    | some low =>
      refine (leaveInterrupt_obeys leave classic _).andThen fun _ => obeys_ite ?_
        (lawful_pure (by decide))
      exact (obeys_perform rfl).andThen fun _ => obeys_look (fun _ _ => rfl) fun _ =>
        (obeys_perform rfl).andThen fun _ => lawful_pure (by decide)

/-! Bits. -/

/-- `jb_bitaddr_offset` is lawful. -/
theorem jbBitaddrOffset_lawful (read : r.read = true) : jbBitaddrOffset.Lawful r :=
  (operand_obeys 1).andThen fun _ => (readBit_obeys read _).andThen fun _ => branchIf3_lawful _

/-- `jnb_bitaddr_offset` is lawful. -/
theorem jnbBitaddrOffset_lawful (read : r.read = true) : jnbBitaddrOffset.Lawful r :=
  (operand_obeys 1).andThen fun _ => (readBit_obeys read _).andThen fun _ => branchIf3_lawful _

/-- `jbc_bitaddr_offset` is lawful. -/
theorem jbcBitaddrOffset_lawful (latch : r.latch = true) (write : r.write = true) :
    jbcBitaddrOffset.Lawful r := by
  refine (operand_obeys 1).andThen fun address => obeys_look (fun other c => ?_) fun _ =>
    obeys_ite ?_ (branchIf3_lawful _)
  · -- The latch that is read belongs to what the instruction may see.
    have same : (c.hide r other).latchByte (bitLocation address) =
        c.latchByte (bitLocation address) := by
      simp only [Cpu.latchByte, Cpu.hide, Rights.sees, latch, Bool.or_true, Bool.true_or, if_true]
    simp only [same]
  · exact (modifyLatch_obeys latch write _ fun _ _ => rfl).andThen fun _ =>
      obeys_ite (branchIf3_lawful _) (lawful_pure (by decide))

/-- A body that combines the carry with a bit is lawful. -/
theorem carryOp_lawful (read : r.read = true) (combine : Bool → Bool → Bool) {cycles : Nat}
    (few : cycles ≤ 3) : (carryOp combine cycles).Lawful r :=
  (operand_obeys 1).andThen fun _ => obeys_look (fun _ _ => rfl) fun _ =>
    (readBit_obeys read _).andThen fun _ => (setCarry_obeys _).andThen fun _ => lawful_step _ few

/-- A body that changes a bit where it stands is lawful. -/
theorem latchOp_lawful (latch : r.latch = true) (write : r.write = true)
    {update : Byte → Cpu → Byte → Byte} {cycles : Nat} (few : cycles ≤ 3)
    (seen : ∀ address other c, update address (c.hide r other) = update address c) :
    (latchOp update cycles).Lawful r :=
  (operand_obeys 1).andThen fun address => (modifyLatch_obeys latch write _ (seen address)).andThen
    fun _ => obeys_ite (lawful_step _ few) (lawful_pure (by decide))

/-- The three instructions on the carry flag alone. -/
theorem carryFlag_lawful {f : Cpu → Byte} (seen : ∀ other c, f (c.hide r other) = f c) :
    (do let c ← cpu; setPsw (f c); advancePc 1#16; pure 0 : Op Nat).Lawful r :=
  obeys_look (fun other c => by rw [seen]) fun _ => (obeys_perform rfl).andThen fun _ =>
    lawful_step _ (by decide)

/-! The accumulator. -/

/-- A body that sets ACC is lawful. -/
theorem accOp_lawful {f : Cpu → Byte} (seen : ∀ other c, f (c.hide r other) = f c) :
    (accOp f).Lawful r :=
  obeys_look (fun other c => by rw [seen]) fun _ => (obeys_perform rfl).andThen fun _ =>
    lawful_step _ (by decide)

/-- `movc_aIndir_aDptr` is lawful. -/
theorem movcAIndirADptr_lawful : movcAIndirADptr.Lawful r :=
  Obeys.bind (accOp_lawful fun _ _ => rfl) fun _ _ => lawful_pure (by decide)

/-- `rrc_a` is lawful. -/
theorem rrcA_lawful : rrcA.Lawful r :=
  obeys_look (fun _ _ => rfl) fun _ => (obeys_perform rfl).andThen fun _ =>
    (setCarry_obeys _).andThen fun _ => lawful_step _ (by decide)

/-- `rlc_a` is lawful. -/
theorem rlcA_lawful : rlcA.Lawful r :=
  obeys_look (fun _ _ => rfl) fun _ => (obeys_perform rfl).andThen fun _ =>
    (setCarry_obeys _).andThen fun _ => lawful_step _ (by decide)

/-- A logical operation with ACC is lawful. -/
theorem logicAcc_lawful (f : Byte → Byte → Byte) (value : Byte) (length : Word) :
    (logicAcc f value length).Lawful r :=
  obeys_look (fun _ _ => rfl) fun _ => (obeys_perform rfl).andThen fun _ =>
    lawful_step _ (by decide)

/-- A logical operation with an operand byte is lawful. -/
theorem logicImm_lawful (f : Byte → Byte → Byte) : (logicImm f).Lawful r :=
  (operand_obeys 1).andThen fun _ => logicAcc_lawful f _ _

/-- A logical operation with a direct byte is lawful. -/
theorem logicMem_lawful (read : r.read = true) (f : Byte → Byte → Byte) : (logicMem f).Lawful r :=
  (operand_obeys 1).andThen fun _ => (readMem_obeys read _).andThen fun _ => logicAcc_lawful f _ _

/-- Indirect reads see upper internal RAM only with the right to it. -/
theorem hide_readIndir (upper : r.upper = true) (other c : Cpu) :
    (c.hide r other).readIndir = c.readIndir := by
  funext address
  simp only [Cpu.readIndir, Cpu.hide, upper, if_true]

/-- A body that starts with an indirect read. -/
theorem indirect_lawful (upper : r.upper = true) {rest : Cpu → Byte → Op Nat}
    (seen : ∀ other c, rest (c.hide r other) = rest c)
    (lawful : ∀ c value, (rest c value).Lawful r) :
    (do let c ← cpu; rest c (c.readIndir c.indirRxAddress) : Op Nat).Lawful r := by
  refine obeys_look (fun other c => ?_) fun c => lawful c _
  rw [seen, hide_readIndir upper]
  rfl

/-- A logical operation with an indirect byte is lawful. -/
theorem logicIndirRx_lawful (upper : r.upper = true) (f : Byte → Byte → Byte) :
    (logicIndirRx f).Lawful r :=
  @indirect_lawful r upper (fun _ value => logicAcc f value 1#16) (fun _ _ => rfl)
    fun _ _ => logicAcc_lawful f _ _

/-- A logical operation with a register is lawful. -/
theorem logicRx_lawful (f : Byte → Byte → Byte) : (logicRx f).Lawful r :=
  obeys_look (fun _ _ => rfl) fun _ => logicAcc_lawful f _ _

/-- An addition to ACC is lawful. -/
theorem addAcc_lawful (value : Byte) (carry : Bool) (length : Word) :
    (addAcc value carry length).Lawful r :=
  obeys_look (fun _ _ => rfl) fun _ => (solveFlags_obeys _ _ _).andThen fun _ =>
    (obeys_perform rfl).andThen fun _ => lawful_step _ (by decide)

/-- A subtraction from ACC is lawful. -/
theorem subAcc_lawful (value : Byte) (carry : Bool) (length : Word) :
    (subAcc value carry length).Lawful r :=
  obeys_look (fun _ _ => rfl) fun _ => (solveFlags_obeys _ _ _).andThen fun _ =>
    (obeys_perform rfl).andThen fun _ => lawful_step _ (by decide)

/-- The direct forms of addition and subtraction, with or without the carry flag. -/
theorem arithMem_lawful (read : r.read = true) {arith : Byte → Bool → Word → Op Nat}
    (lawful : ∀ value carry length, (arith value carry length).Lawful r) {carryIn : Cpu → Bool}
    (seen : ∀ other c, carryIn (c.hide r other) = carryIn c) :
    (do let c ← cpu; arith (← readMem (← operand1)) (carryIn c) 2#16 : Op Nat).Lawful r :=
  obeys_look (fun other c => by rw [seen]) fun _ => (operand_obeys 1).andThen fun _ =>
    (readMem_obeys read _).andThen fun _ => lawful _ _ _

/-- `add_aMem` is lawful. -/
theorem addAMem_lawful (read : r.read = true) : addAMem.Lawful r :=
  (operand_obeys 1).andThen fun _ => (readMem_obeys read _).andThen fun _ => addAcc_lawful _ _ _

/-- The indirect forms. -/
theorem arithIndirRx_lawful (upper : r.upper = true) {arith : Byte → Bool → Word → Op Nat}
    (lawful : ∀ value carry length, (arith value carry length).Lawful r) {carryIn : Cpu → Bool}
    (seen : ∀ other c, carryIn (c.hide r other) = carryIn c) :
    (do let c ← cpu; arith (c.readIndir c.indirRxAddress) (carryIn c) 1#16 : Op Nat).Lawful r :=
  @indirect_lawful r upper (fun c value => arith value (carryIn c) 1#16)
    (fun other c => by simp only [seen]) fun _ _ => lawful _ _ _

/-- The register forms. -/
theorem arithRx_lawful {arith : Byte → Bool → Word → Op Nat}
    (lawful : ∀ value carry length, (arith value carry length).Lawful r) {carryIn : Cpu → Bool}
    (seen : ∀ other c, carryIn (c.hide r other) = carryIn c) :
    (do let c ← cpu; arith c.rx (carryIn c) 1#16 : Op Nat).Lawful r := by
  refine obeys_look (fun other c => ?_) fun _ => lawful _ _ _
  rw [seen]
  rfl

/-- An addition of an operand byte is lawful. -/
theorem addImm_lawful {carryIn : Cpu → Bool}
    (seen : ∀ other c, carryIn (c.hide r other) = carryIn c) : (addImm carryIn).Lawful r := by
  refine obeys_look (fun other c => ?_) fun _ => (operand_obeys 1).andThen fun _ =>
    (solveFlags_obeys _ _ _).andThen fun _ => (operand_obeys 1).andThen fun _ =>
      (obeys_perform rfl).andThen fun _ => lawful_step _ (by decide)
  rw [seen]
  rfl

/-- `subb_aImm` is lawful. -/
theorem subbAImm_lawful : subbAImm.Lawful r :=
  obeys_look (fun _ _ => rfl) fun _ => (operand_obeys 1).andThen fun _ =>
    (solveFlags_obeys _ _ _).andThen fun _ => (operand_obeys 1).andThen fun _ =>
      (obeys_perform rfl).andThen fun _ => lawful_step _ (by decide)

/-- `da_a` is lawful. -/
theorem daA_lawful : daA.Lawful r := by
  refine obeys_look (fun _ _ => rfl) fun _ => obeys_ite ?_ ?_
  · exact (obeys_perform rfl).andThen fun _ => (obeys_perform rfl).andThen fun _ =>
      lawful_step _ (by decide)
  · exact (obeys_perform rfl).andThen fun _ => lawful_step _ (by decide)

/-- `mul_ab` is lawful. -/
theorem mulAb_lawful : mulAb.Lawful r :=
  obeys_look (fun _ _ => rfl) fun _ => (obeys_perform rfl).andThen fun _ =>
    (obeys_perform rfl).andThen fun _ => (obeys_perform rfl).andThen fun _ =>
      lawful_step _ (by decide)

/-- `div_ab` is lawful. -/
theorem divAb_lawful : divAb.Lawful r :=
  obeys_look (fun _ _ => rfl) fun _ => (obeys_perform rfl).andThen fun _ =>
    (obeys_perform rfl).andThen fun _ => (obeys_perform rfl).andThen fun _ =>
      lawful_step _ (by decide)

/-! Direct bytes. -/

/-- A store of a direct byte is lawful. -/
theorem storeMem_lawful (write : r.write = true) (address value : Byte) (length : Word)
    {cycles : Nat} (few : cycles ≤ 3) : (storeMem address value length cycles).Lawful r :=
  (writeMem_obeys write _ _).andThen fun _ => obeys_isAborted.andThen fun _ =>
    obeys_ite (lawful_pure (by decide)) (lawful_step _ few)

/-- INC and DEC of a direct byte. -/
theorem modifyMem_lawful (modify : r.modify = true) (write : r.write = true) (f : Byte → Byte) :
    (do
      let address ← operand1
      let value ← readMemRmw address
      storeMem address (f value) 2#16 0 : Op Nat).Lawful r :=
  (operand_obeys 1).andThen fun _ => (readMemRmw_obeys modify _).andThen fun _ =>
    storeMem_lawful write _ _ _ (by decide)

/-- `orl_mem_a` is lawful. -/
theorem orlMemA_lawful (modify : r.modify = true) (write : r.write = true) : orlMemA.Lawful r :=
  (operand_obeys 1).andThen fun _ => (readMemRmw_obeys modify _).andThen fun _ =>
    obeys_look (fun _ _ => rfl) fun _ => storeMem_lawful write _ _ _ (by decide)

/-- A logical operation of a direct byte with an operand byte is lawful. -/
theorem logicMemImm_lawful (modify : r.modify = true) (write : r.write = true)
    (f : Byte → Byte → Byte) : (logicMemImm f).Lawful r :=
  (operand_obeys 1).andThen fun _ => (readMemRmw_obeys modify _).andThen fun _ =>
    (operand_obeys 2).andThen fun _ => storeMem_lawful write _ _ _ (by decide)

/-- A logical operation of a direct byte with ACC is lawful. -/
theorem logicMemAcc_lawful (latch : r.latch = true) (write : r.write = true)
    (f : Byte → Byte → Byte) : (logicMemAcc f).Lawful r :=
  (operand_obeys 1).andThen fun _ => (modifyLatch_obeys latch write _ fun _ _ => rfl).andThen
    fun _ => obeys_ite (lawful_step _ (by decide)) (lawful_pure (by decide))

/-- `djnz_mem_offset` is lawful. -/
theorem djnzMemOffset_lawful (modify : r.modify = true) (write : r.write = true) :
    djnzMemOffset.Lawful r :=
  (operand_obeys 1).andThen fun _ => (readMemRmw_obeys modify _).andThen fun _ =>
    (writeMem_obeys write _ _).andThen fun _ => obeys_isAborted.andThen fun _ =>
      obeys_ite (lawful_pure (by decide)) (branchIf3_lawful _)

/-! Moves. -/

/-- `mov_aImm` is lawful. -/
theorem movAImm_lawful : movAImm.Lawful r :=
  (operand_obeys 1).andThen fun _ => (obeys_perform rfl).andThen fun _ =>
    lawful_step _ (by decide)

/-- `mov_aMem` is lawful. -/
theorem movAMem_lawful (read : r.read = true) : movAMem.Lawful r :=
  (operand_obeys 1).andThen fun _ => (readMem_obeys read _).andThen fun _ =>
    (raiseUnless_obeys _ _).andThen fun _ => obeys_isAborted.andThen fun _ =>
      obeys_ite (lawful_pure (by decide))
        ((obeys_perform rfl).andThen fun _ => lawful_step _ (by decide))

/-- `mov_mem_imm` is lawful. -/
theorem movMemImm_lawful (write : r.write = true) : movMemImm.Lawful r :=
  (operand_obeys 1).andThen fun _ => (operand_obeys 2).andThen fun _ =>
    storeMem_lawful write _ _ _ (by decide)

/-- `mov_mem_mem` is lawful. -/
theorem movMemMem_lawful (read : r.read = true) (write : r.write = true) : movMemMem.Lawful r :=
  (operand_obeys 1).andThen fun _ => (operand_obeys 2).andThen fun _ =>
    (readMem_obeys read _).andThen fun _ => storeMem_lawful write _ _ _ (by decide)

/-- `mov_mem_indir_rx` is lawful. -/
theorem movMemIndirRx_lawful (upper : r.upper = true) (write : r.write = true) :
    movMemIndirRx.Lawful r :=
  @indirect_lawful r upper (fun _ value => do let target ← operand1; storeMem target value 2#16 1)
    (fun _ _ => rfl) fun _ _ => (operand_obeys 1).andThen fun _ =>
      storeMem_lawful write _ _ _ (by decide)

/-- `mov_mem_a` is lawful. -/
theorem movMemA_lawful (write : r.write = true) : movMemA.Lawful r :=
  (operand_obeys 1).andThen fun _ => obeys_look (fun _ _ => rfl) fun _ =>
    storeMem_lawful write _ _ _ (by decide)

/-- `mov_mem_rx` is lawful. -/
theorem movMemRx_lawful (write : r.write = true) : movMemRx.Lawful r :=
  obeys_look (fun _ _ => rfl) fun _ => (operand_obeys 1).andThen fun _ =>
    storeMem_lawful write _ _ _ (by decide)

/-- `mov_dptr_imm` is lawful. -/
theorem movDptrImm_lawful : movDptrImm.Lawful r :=
  (operand_obeys 1).andThen fun _ => (obeys_perform rfl).andThen fun _ =>
    (operand_obeys 2).andThen fun _ => (obeys_perform rfl).andThen fun _ =>
      lawful_step _ (by decide)

/-- `inc_dptr` is lawful. -/
theorem incDptr_lawful : incDptr.Lawful r := by
  refine obeys_look (fun _ _ => rfl) fun _ => (obeys_perform rfl).andThen fun _ => obeys_ite ?_ ?_
  · exact (obeys_perform rfl).andThen fun _ => lawful_step _ (by decide)
  · exact lawful_step _ (by decide)

/-- `mov_indir_rx_imm` is lawful. -/
theorem movIndirRxImm_lawful (upper : r.upper = true) : movIndirRxImm.Lawful r :=
  obeys_look (fun _ _ => rfl) fun _ => (operand_obeys 1).andThen fun _ =>
    (writeMemIndir_obeys upper _ _).andThen fun _ => lawful_step _ (by decide)

/-- `mov_indir_rx_mem` is lawful. -/
theorem movIndirRxMem_lawful (upper : r.upper = true) (read : r.read = true) :
    movIndirRxMem.Lawful r :=
  obeys_look (fun _ _ => rfl) fun _ => (operand_obeys 1).andThen fun _ =>
    (readMem_obeys read _).andThen fun _ => (writeMemIndir_obeys upper _ _).andThen fun _ =>
      lawful_step _ (by decide)

/-- A body with an indirect operand is lawful. -/
theorem indirOp_lawful (upper : r.upper = true) {f : Cpu → Byte → Byte}
    (seen : ∀ other c, f (c.hide r other) = f c) : (indirOp f).Lawful r := by
  refine @indirect_lawful r upper
    (fun c value => do writeMemIndir c.indirRxAddress (f c value); advancePc 1#16; pure 0)
    (fun other c => ?_) fun _ _ => (writeMemIndir_obeys upper _ _).andThen fun _ =>
      lawful_step _ (by decide)
  simp only [seen]
  rfl

/-- `xch_aIndir_rx` is lawful. -/
theorem xchAIndirRx_lawful (upper : r.upper = true) : xchAIndirRx.Lawful r :=
  @indirect_lawful r upper (fun c value => do
      writeMemIndir c.indirRxAddress (c.sfr Reg.acc); setAcc value; advancePc 1#16; pure 0)
    (fun _ _ => rfl) fun _ _ => (writeMemIndir_obeys upper _ _).andThen fun _ =>
      (obeys_perform rfl).andThen fun _ => lawful_step _ (by decide)

/-- `xchd_aIndir_rx` is lawful. -/
theorem xchdAIndirRx_lawful (upper : r.upper = true) : xchdAIndirRx.Lawful r :=
  @indirect_lawful r upper (fun c value => do
      let acc := (c.sfr Reg.acc &&& 0xF0#8) ||| (value &&& 0x0F#8)
      setAcc acc
      writeMemIndir c.indirRxAddress ((value &&& 0xF0#8) ||| (acc &&& 0x0F#8))
      advancePc 1#16
      pure 0)
    (fun _ _ => rfl) fun _ _ => (obeys_perform rfl).andThen fun _ =>
      (writeMemIndir_obeys upper _ _).andThen fun _ => lawful_step _ (by decide)

/-- `xch_aMem` is lawful. -/
theorem xchAMem_lawful (read : r.read = true) (write : r.write = true) : xchAMem.Lawful r :=
  (operand_obeys 1).andThen fun _ => (readMem_obeys read _).andThen fun _ =>
    obeys_look (fun _ _ => rfl) fun _ => (writeMem_obeys write _ _).andThen fun _ =>
      obeys_isAborted.andThen fun _ => obeys_ite (lawful_pure (by decide))
        ((obeys_perform rfl).andThen fun _ => lawful_step _ (by decide))

/-- `push_mem` is lawful. -/
theorem pushMem_lawful (upper : r.upper = true) (read : r.read = true) : pushMem.Lawful r :=
  (operand_obeys 1).andThen fun _ => (readMem_obeys read _).andThen fun _ =>
    (pushToStack_obeys upper _).andThen fun _ =>
      obeys_ite (lawful_step _ (by decide)) (lawful_pure (by decide))

/-- `pop_mem` is lawful. -/
theorem popMem_lawful (upper : r.upper = true) (write : r.write = true) : popMem.Lawful r := by
  refine (operand_obeys 1).andThen fun _ => (popFromStack_obeys upper).andThen fun value => ?_
  cases value with
  | none => exact lawful_pure (by decide)
  | some value => exact storeMem_lawful write _ _ _ (by decide)

/-! Registers of the current bank. -/

/-- A body with a register operand is lawful. -/
theorem rxOp_lawful {f : Cpu → Byte} (seen : ∀ other c, f (c.hide r other) = f c) :
    (rxOp f).Lawful r := by
  refine obeys_look (fun other c => ?_) fun _ => (obeys_perform rfl).andThen fun _ =>
    lawful_step _ (by decide)
  rw [seen]
  rfl

/-- `mov_rx_imm` is lawful. -/
theorem movRxImm_lawful : movRxImm.Lawful r :=
  obeys_look (fun _ _ => rfl) fun _ => (operand_obeys 1).andThen fun _ =>
    (obeys_perform rfl).andThen fun _ => lawful_step _ (by decide)

/-- `mov_rx_mem` is lawful. -/
theorem movRxMem_lawful (read : r.read = true) : movRxMem.Lawful r :=
  obeys_look (fun _ _ => rfl) fun _ => (operand_obeys 1).andThen fun _ =>
    (readMem_obeys read _).andThen fun _ => (obeys_perform rfl).andThen fun _ =>
      lawful_step _ (by decide)

/-- `xch_aRx` is lawful. -/
theorem xchARx_lawful : xchARx.Lawful r :=
  obeys_look (fun _ _ => rfl) fun _ => (obeys_perform rfl).andThen fun _ =>
    (obeys_perform rfl).andThen fun _ => lawful_step _ (by decide)

/-- `djnz_rx_offset` is lawful. -/
theorem djnzRxOffset_lawful : djnzRxOffset.Lawful r := by
  refine obeys_look (fun _ _ => rfl) fun _ => (obeys_perform rfl).andThen fun _ => obeys_ite ?_ ?_
  · exact lawful_branch (operand_obeys 1) _
  · exact lawful_step _ (by decide)

/-! Compare and branch. -/

/-- A comparison with a branch is lawful. -/
theorem compareBranch_lawful (left right : Byte) : (compareBranch left right).Lawful r :=
  (setCarry_obeys _).andThen fun _ => branchIf3_lawful _

/-- `cjne_aImm_offset` is lawful. -/
theorem cjneAImmOffset_lawful : cjneAImmOffset.Lawful r :=
  (operand_obeys 1).andThen fun _ => obeys_look (fun _ _ => rfl) fun _ => compareBranch_lawful _ _

/-- `cjne_aMem_offset` is lawful. -/
theorem cjneAMemOffset_lawful (read : r.read = true) : cjneAMemOffset.Lawful r :=
  (operand_obeys 1).andThen fun _ => (readMem_obeys read _).andThen fun _ =>
    obeys_look (fun _ _ => rfl) fun _ => compareBranch_lawful _ _

/-- `cjne_indir_rx_imm_offset` is lawful. -/
theorem cjneIndirRxImmOffset_lawful (upper : r.upper = true) : cjneIndirRxImmOffset.Lawful r :=
  @indirect_lawful r upper (fun _ value => do compareBranch value (← operand1))
    (fun _ _ => rfl) fun _ _ => (operand_obeys 1).andThen fun _ => compareBranch_lawful _ _

/-- `cjne_rx_imm_offset` is lawful. -/
theorem cjneRxImmOffset_lawful : cjneRxImmOffset.Lawful r :=
  obeys_look (fun _ _ => rfl) fun _ => (operand_obeys 1).andThen fun _ => compareBranch_lawful _ _

/-! External data. -/

/-- The report of an access shows the P1 latch. -/
theorem movxEmit_seen (external : r.external = true) (address : Word) (write : Bool)
    (other c : Cpu) : (movxEmit (c.hide r other) address write) = movxEmit c address write := by
  have latch : (c.hide r other).sfr Reg.p1 = c.sfr Reg.p1 := by
    simp only [Cpu.hide, Rights.sees, external, Bool.true_and, beq_self_eq_true, Bool.or_true,
      if_true]
  funext value
  simp only [movxEmit, latch]
  rfl

/-- Reporting an external access keeps within the rights. -/
theorem movxEmit_obeys (external : r.external = true) (context : Cpu) (address : Word)
    (write : Bool) (value : Byte) :
    (movxEmit context address write value).Obeys r fun _ => True := by
  have permitted : ∀ cycle pc latch,
      r.allows (.emit (.movx cycle pc address write value latch)) = true :=
    fun _ _ _ => external
  exact obeys_perform (permitted _ _ _)

/-- What follows a read of external data is lawful. -/
theorem movxReadTail_lawful (external : r.external = true) (context : Cpu) (address : Word)
    (supported : Bool) : (movxReadTail context address supported).Lawful r :=
  obeys_look (fun _ _ => rfl) fun _ => (movxEmit_obeys external _ _ _ _).andThen fun _ =>
    (obeys_perform rfl).andThen fun _ => lawful_step _ (by decide)

/-- A read of external data is lawful. -/
theorem movxRead_lawful (external : r.external = true) (address : Word) :
    (movxRead address).Lawful r := by
  refine obeys_look (fun other c => ?_) fun c => Obeys.andThen ⟨external, fun _ => trivial⟩
    fun answer => ?_
  · -- The buffer is looked at only with the right to external data.
    have tail : movxReadTail (c.hide r other) address = movxReadTail c address := by
      funext supported
      simp only [movxReadTail, movxEmit_seen external]
    have buffer : (c.hide r other).extData = c.extData := by
      simp only [Cpu.hide, external, if_true]
    simp only [tail, buffer]
    rfl
  · -- A callback answers, or the buffer does, or there is neither.
    cases answer with
    | some value =>
      exact obeys_isAborted.andThen fun _ => obeys_ite (lawful_pure (by decide))
        ((obeys_perform rfl).andThen fun _ => movxReadTail_lawful external _ _ _)
    | none =>
      cases c.extData with
      | some data => exact (obeys_perform rfl).andThen fun _ => movxReadTail_lawful external _ _ _
      | none => exact movxReadTail_lawful external _ _ _

/-- What follows a write of external data is lawful. -/
theorem movxWriteTail_lawful (external : r.external = true) (context : Cpu) (address : Word)
    (supported : Bool) : (movxWriteTail context address supported).Lawful r :=
  obeys_look (fun _ _ => rfl) fun _ => (movxEmit_obeys external _ _ _ _).andThen fun _ =>
    (obeys_perform rfl).andThen fun _ => lawful_step _ (by decide)

/-- A write of external data is lawful. -/
theorem movxWrite_lawful (external : r.external = true) (address : Word) :
    (movxWrite address).Lawful r := by
  have permitted : ∀ value, r.allows (.setExt address value) = true := fun _ => external
  refine obeys_look (fun other c => ?_) fun c => Obeys.andThen ⟨external, fun _ => trivial⟩
    fun installed => obeys_ite ?_ ?_
  · -- The buffer is looked at only with the right to external data.
    have tail : movxWriteTail (c.hide r other) address = movxWriteTail c address := by
      funext supported
      simp only [movxWriteTail, movxEmit_seen external]
      rfl
    have buffer : (c.hide r other).extData = c.extData := by
      simp only [Cpu.hide, external, if_true]
    simp only [tail, buffer]
    rfl
  · -- A callback takes the value, which may abort, or the buffer does.
    exact obeys_isAborted.andThen fun _ => obeys_ite (lawful_pure (by decide))
      (movxWriteTail_lawful external _ _ _)
  · exact (obeys_perform (permitted _)).andThen fun _ => movxWriteTail_lawful external _ _ _

/-- The four forms, which differ in where the address comes from. -/
theorem movx_lawful {access : Word → Op Nat} (lawful : ∀ address, (access address).Lawful r)
    {address : Cpu → Word} (seen : ∀ other c, address (c.hide r other) = address c) :
    (do access (address (← cpu)) : Op Nat).Lawful r :=
  obeys_look (fun other c => by rw [seen]) fun _ => lawful _

/-- `nop` is lawful. -/
theorem nop_lawful : nop.Lawful r :=
  obeys_look (fun _ _ => rfl) fun _ => (raiseUnless_obeys _ _).andThen fun _ =>
    obeys_isAborted.andThen fun _ => obeys_ite (lawful_pure (by decide))
      (lawful_step _ (by decide))

end Bodies

/-! ### The whole table -/

/-- The register forms, column by column. -/
theorem rxRow_lawful : List.Forall₂ (fun p r => Op.Lawful r p) rxRow rxRights := by
  -- The arithmetic forms share two lemmas, which differ in the operation.
  have arith := fun {carryIn : Cpu → Bool} {r : Rights} => @arithRx_lawful r addAcc
    (fun _ _ _ => addAcc_lawful _ _ _) carryIn
  have borrow := fun {r : Rights} => @arithRx_lawful r subAcc (fun _ _ _ => subAcc_lawful _ _ _)
    Cpu.carry
  simp only [rxRow, rxRights, List.forall₂_cons, List.forall₂_nil_left_iff, and_true]
  exact ⟨rxOp_lawful fun _ _ => rfl, rxOp_lawful fun _ _ => rfl, arith fun _ _ => rfl,
    arith fun _ _ => rfl, logicRx_lawful _, logicRx_lawful _, logicRx_lawful _, movRxImm_lawful,
    movMemRx_lawful rfl, borrow fun _ _ => rfl, movRxMem_lawful rfl, cjneRxImmOffset_lawful,
    xchARx_lawful, djnzRxOffset_lawful, accOp_lawful fun _ _ => rfl, rxOp_lawful fun _ _ => rfl⟩

/-- The other forms, row by row. -/
theorem opRows_lawful :
    List.Forall₂ (List.Forall₂ fun p r => Op.Lawful r p) opRows rightsRows := by
  -- The forms that take their rights as a hypothesis are named; the others are applied at once.
  have indirect : ∀ {r : Rights}, r.upper = true → movAIndirRx.Lawful r := fun upper =>
    accOp_lawful fun other c => by rw [hide_readIndir upper]; rfl
  have adds := fun {carryIn : Cpu → Bool} {r : Rights} (upper : r.upper = true) =>
    @arithIndirRx_lawful r upper addAcc (fun _ _ _ => addAcc_lawful _ _ _) carryIn
  have subtracts := fun {r : Rights} (upper : r.upper = true) =>
    @arithIndirRx_lawful r upper subAcc (fun _ _ _ => subAcc_lawful _ _ _) Cpu.carry
  have addcAMem : ∀ {r : Rights}, r.read = true → addcAMem.Lawful r := fun {r} read =>
    @arithMem_lawful r read addAcc (fun _ _ _ => addAcc_lawful _ _ _) Cpu.carry fun _ _ => rfl
  have subbAMem : ∀ {r : Rights}, r.read = true → subbAMem.Lawful r := fun {r} read =>
    @arithMem_lawful r read subAcc (fun _ _ _ => subAcc_lawful _ _ _) Cpu.carry fun _ _ => rfl
  simp only [opRows, rightsRows, List.forall₂_cons, List.forall₂_nil_left_iff, and_true]
  -- One line for each row of the table, in its order.
  refine ⟨⟨nop_lawful, ajmpOffset_lawful, ljmpAddress_lawful, accOp_lawful fun _ _ => rfl,
      accOp_lawful fun _ _ => rfl, modifyMem_lawful rfl rfl _, indirOp_lawful rfl fun _ _ => rfl,
      indirOp_lawful rfl fun _ _ => rfl⟩,
    ⟨jbcBitaddrOffset_lawful rfl rfl, acallOffset_lawful rfl rfl, lcallAddress_lawful rfl rfl, rrcA_lawful,
      accOp_lawful fun _ _ => rfl, modifyMem_lawful rfl rfl _, indirOp_lawful rfl fun _ _ => rfl,
      indirOp_lawful rfl fun _ _ => rfl⟩,
    ⟨jbBitaddrOffset_lawful rfl, ajmpOffset_lawful, retOp_lawful rfl, accOp_lawful fun _ _ => rfl,
      addImm_lawful fun _ _ => rfl, addAMem_lawful rfl, adds rfl fun _ _ => rfl,
      adds rfl fun _ _ => rfl⟩,
    ⟨jnbBitaddrOffset_lawful rfl, acallOffset_lawful rfl rfl, reti_lawful rfl rfl rfl, rlcA_lawful,
      addImm_lawful fun _ _ => rfl, addcAMem rfl, adds rfl fun _ _ => rfl,
      adds rfl fun _ _ => rfl⟩,
    ⟨branchIf_lawful fun _ _ => rfl, ajmpOffset_lawful, orlMemA_lawful rfl rfl,
      logicMemImm_lawful rfl rfl _, logicImm_lawful _, logicMem_lawful rfl _,
      logicIndirRx_lawful rfl _, logicIndirRx_lawful rfl _⟩,
    ⟨branchIf_lawful fun _ _ => rfl, acallOffset_lawful rfl rfl, logicMemAcc_lawful rfl rfl _,
      logicMemImm_lawful rfl rfl _, logicImm_lawful _, logicMem_lawful rfl _,
      logicIndirRx_lawful rfl _, logicIndirRx_lawful rfl _⟩,
    ⟨branchIf_lawful fun _ _ => rfl, ajmpOffset_lawful, logicMemAcc_lawful rfl rfl _,
      logicMemImm_lawful rfl rfl _, logicImm_lawful _, logicMem_lawful rfl _,
      logicIndirRx_lawful rfl _, logicIndirRx_lawful rfl _⟩,
    ⟨branchIf_lawful fun _ _ => rfl, acallOffset_lawful rfl rfl, carryOp_lawful rfl _ (by decide),
      jmpIndirADptr_lawful, movAImm_lawful, movMemImm_lawful rfl, movIndirRxImm_lawful rfl,
      movIndirRxImm_lawful rfl⟩,
    ⟨sjmpOffset_lawful, ajmpOffset_lawful, carryOp_lawful rfl _ (by decide),
      accOp_lawful fun _ _ => rfl, divAb_lawful, movMemMem_lawful rfl rfl,
      movMemIndirRx_lawful rfl rfl, movMemIndirRx_lawful rfl rfl⟩,
    ⟨movDptrImm_lawful, acallOffset_lawful rfl rfl,
      latchOp_lawful rfl rfl (by decide) fun _ _ _ => rfl, movcAIndirADptr_lawful,
      subbAImm_lawful, subbAMem rfl, subtracts rfl fun _ _ => rfl,
      subtracts rfl fun _ _ => rfl⟩,
    ⟨carryOp_lawful rfl _ (by decide), ajmpOffset_lawful, carryOp_lawful rfl _ (by decide),
      incDptr_lawful, mulAb_lawful, nop_lawful, movIndirRxMem_lawful rfl rfl,
      movIndirRxMem_lawful rfl rfl⟩,
    ⟨carryOp_lawful rfl _ (by decide), acallOffset_lawful rfl rfl,
      latchOp_lawful rfl rfl (by decide) fun _ _ _ => rfl, carryFlag_lawful fun _ _ => rfl,
      cjneAImmOffset_lawful, cjneAMemOffset_lawful rfl, cjneIndirRxImmOffset_lawful rfl,
      cjneIndirRxImmOffset_lawful rfl⟩,
    ⟨pushMem_lawful rfl rfl, ajmpOffset_lawful,
      latchOp_lawful rfl rfl (by decide) fun _ _ _ => rfl, carryFlag_lawful fun _ _ => rfl,
      accOp_lawful fun _ _ => rfl, xchAMem_lawful rfl rfl, xchAIndirRx_lawful rfl,
      xchAIndirRx_lawful rfl⟩,
    ⟨popMem_lawful rfl rfl, acallOffset_lawful rfl rfl,
      latchOp_lawful rfl rfl (by decide) fun _ _ _ => rfl, carryFlag_lawful fun _ _ => rfl,
      daA_lawful, djnzMemOffset_lawful rfl rfl, xchdAIndirRx_lawful rfl,
      xchdAIndirRx_lawful rfl⟩,
    ⟨movx_lawful (movxRead_lawful rfl) fun _ _ => rfl, ajmpOffset_lawful,
      movx_lawful (movxRead_lawful rfl) fun _ _ => rfl,
      movx_lawful (movxRead_lawful rfl) fun _ _ => rfl, accOp_lawful fun _ _ => rfl,
      movAMem_lawful rfl, indirect rfl, indirect rfl⟩,
    ⟨movx_lawful (movxWrite_lawful rfl) fun _ _ => rfl, acallOffset_lawful rfl rfl,
      movx_lawful (movxWrite_lawful rfl) fun _ _ => rfl,
      movx_lawful (movxWrite_lawful rfl) fun _ _ => rfl, accOp_lawful fun _ _ => rfl,
      movMemA_lawful rfl, indirOp_lawful rfl fun _ _ => rfl, indirOp_lawful rfl fun _ _ => rfl⟩⟩

/-- Related lists have related entries, also beyond their ends when the defaults are related. -/
theorem forall₂_getD {α β : Type} {R : α → β → Prop} {xs : List α} {ys : List β}
    (related : List.Forall₂ R xs ys) {a : α} {b : β} (default : R a b) (i : Nat) :
    R (xs[i]?.getD a) (ys[i]?.getD b) := by
  induction related generalizing i with
  | nil => exact default
  | cons first _ ih =>
    cases i with
    | zero => exact first
    | succ i => exact ih i

/-- Every opcode body keeps within the rights of its opcode and answers with at most three. -/
theorem opTable_lawful (opcode : Byte) : (opTable opcode).Lawful (opRights opcode) := by
  simp only [opTable, opRights]
  split
  · exact forall₂_getD rxRow_lawful nop_lawful _
  -- The row is looked up first, and a missing row is one of defaults only.
  · have bound : ∀ {α : Type} (rows : List (List α)) (default : α) (i j : Nat),
        (rows[i]?.bind fun row => row[j]?).getD default = (rows[i]?.getD [])[j]?.getD default := by
      intro α rows default i j
      cases rows[i]? with
      | none => rfl
      | some row => rfl
    rw [bound, bound]
    exact forall₂_getD (forall₂_getD opRows_lawful .nil _) nop_lawful _

end Emu80535
