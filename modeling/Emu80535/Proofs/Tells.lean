import Emu80535.Proofs.Rights

/-! Which facts an opcode body reports itself. -/

namespace Emu80535

variable {α β : Type}

/-- The facts an opcode body reports itself, besides those of the write gateway. -/
def RawFact.bodily : RawFact → Bool
  | .operand .. | .contextPreflight .. | .accessBegin .. | .accessOld .. => true
  | .call .. | .ret .. | .reti .. => true
  | _ => false

/-- Whether a fact is about an access. -/
def RawFact.ofAccess : RawFact → Bool
  | .accessBegin .. | .accessOld .. | .accessEnd .. => true
  | _ => false

/-- The bodies that modify a direct byte through `read_mem_rmw`. -/
def directModifiers : List (Op Nat) :=
  [incMem, decMem, orlMemA, orlMemImm, anlMemImm, xrlMemImm, djnzMemOffset]

namespace Op

/-- Every fact a body reports, on any path, is one that may be told. -/
def Tells (told : RawFact → Prop) : Op α → Prop
  | ret _ => True
  | look next => ∀ c, (next c).Tells told
  | act effect next => (∀ f, effect = .fact f → told f) ∧ next.Tells told
  | aborted next => ∀ b, (next b).Tells told
  | ask fact next => told fact ∧ ∀ n, (next n).Tells told
  | sfrRead _ next => ∀ v, (next v).Tells told
  | sfrRmwRead _ next => ∀ v, (next v).Tells told
  | busRead _ next => ∀ v, (next v).Tells told
  | busWrite _ _ next => ∀ b, (next b).Tells told

variable {told more : RawFact → Prop}

/-- What may be told where less may be told may be told where more may be. -/
theorem Tells.mono {p : Op α} (tells : p.Tells told) (wider : ∀ f, told f → more f) :
    p.Tells more := by
  -- By induction on the tree; only an action and a question tell anything.
  induction p with
  | ret value => trivial
  | look next ih => exact fun c => ih c (tells c)
  | act effect next ih => exact ⟨fun f same => wider f (tells.1 f same), ih tells.2⟩
  | aborted next ih => exact fun b => ih b (tells b)
  | ask fact next ih => exact ⟨wider fact tells.1, fun n => ih n (tells.2 n)⟩
  | sfrRead index next ih => exact fun v => ih v (tells v)
  | sfrRmwRead index next ih => exact fun v => ih v (tells v)
  | busRead address next ih => exact fun v => ih v (tells v)
  | busWrite address value next ih => exact fun b => ih b (tells b)

/-- What follows a choice may be put into its branches. -/
theorem bind_ite {c : Prop} [Decidable c] (p q : Op α) (f : α → Op β) :
    (if c then p else q).bind f = if c then p.bind f else q.bind f := by
  split <;> rfl

/-- A choice tells what the branch taken tells. -/
theorem tells_ite {c : Prop} [Decidable c] (p q : Op α) :
    (if c then p else q).Tells told ↔ (c → p.Tells told) ∧ (¬c → q.Tells told) := by
  by_cases holds : c <;> simp [holds]

end Op

open Op

section Table

/-! Bodies are followed action by action, through both outcomes of every test. -/

attribute [local simp] Op.bind Op.bind_ite Op.tells_ite Op.Tells Op.cpu Op.perform Op.isAborted
  RawFact.bodily RawFact.ofAccess
attribute [local simp]
  operand operand1 operand2 setAcc setPsw advancePc branchPc setCarry readMem readMemRmw writeMem
  writeMemIndir pushToStack popFromStack solveFlags addSolveFlags subSolveFlags preflight callFact
  raiseUnless classicReti leaveInterrupt readBit modifyLatch movxEmit movxReadTail movxWriteTail

/-- What a body tells that modifies no direct byte. -/
def RawFact.ofBody (f : RawFact) : Prop := f.bodily = true ∧ f.ofAccess = false

attribute [local simp] RawFact.ofBody

variable {told : RawFact → Prop}

/-! ### Families of bodies -/

/-- `ajmp_offset` tells only facts of its own. -/
theorem ajmpOffset_tells : ajmpOffset.Tells RawFact.ofBody := by simp [ajmpOffset]

/-- `acall_offset` tells only facts of its own. -/
theorem acallOffset_tells : acallOffset.Tells RawFact.ofBody := by simp [acallOffset]

/-- A short conditional branch tells only facts of its own. -/
theorem branchIf_tells (condition : Cpu → Bool) : (branchIf condition).Tells RawFact.ofBody := by
  simp [branchIf]

/-- A three-byte conditional branch tells only facts of its own. -/
theorem branchIf3_tells (condition : Bool) : (branchIf3 condition).Tells RawFact.ofBody := by
  simp [branchIf3]

/-- A body that combines the carry with a bit tells only facts of its own. -/
theorem carryOp_tells (combine : Bool → Bool → Bool) (cycles : Nat) :
    (carryOp combine cycles).Tells RawFact.ofBody := by
  simp [carryOp]

/-- A body that changes a bit where it stands tells only facts of its own. -/
theorem latchOp_tells (update : Byte → Cpu → Byte → Byte) (cycles : Nat) :
    (latchOp update cycles).Tells RawFact.ofBody := by
  simp [latchOp]

/-- A body that sets ACC tells only facts of its own. -/
theorem accOp_tells (f : Cpu → Byte) : (accOp f).Tells told := by simp [accOp]

/-- A logical operation with ACC tells only facts of its own. -/
theorem logicAcc_tells (f : Byte → Byte → Byte) (value : Byte) (length : Word) :
    (logicAcc f value length).Tells told := by
  simp [logicAcc]

/-- An addition to ACC tells only facts of its own. -/
theorem addAcc_tells (value : Byte) (carry : Bool) (length : Word) :
    (addAcc value carry length).Tells told := by
  simp [addAcc]

/-- A subtraction from ACC tells only facts of its own. -/
theorem subAcc_tells (value : Byte) (carry : Bool) (length : Word) :
    (subAcc value carry length).Tells told := by
  simp [subAcc]

/-- An addition of an operand byte tells only facts of its own. -/
theorem addImm_tells (carryIn : Cpu → Bool) : (addImm carryIn).Tells RawFact.ofBody := by
  simp [addImm]

/-- A store of a direct byte tells only facts of its own. -/
theorem storeMem_tells (address value : Byte) (length : Word) (cycles : Nat) :
    (storeMem address value length cycles).Tells told := by
  simp [storeMem]

/-- A body with an indirect operand tells only facts of its own. -/
theorem indirOp_tells (f : Cpu → Byte → Byte) : (indirOp f).Tells told := by simp [indirOp]

/-- A body with a register operand tells only facts of its own. -/
theorem rxOp_tells (f : Cpu → Byte) : (rxOp f).Tells told := by simp [rxOp]

/-- A comparison with a branch tells only facts of its own. -/
theorem compareBranch_tells (left right : Byte) :
    (compareBranch left right).Tells RawFact.ofBody := by
  simp [compareBranch, branchIf3]

/-- A MOVX reports no fact. -/
theorem movxRead_tells (address : Word) : (movxRead address).Tells told := by
  refine fun context answer => ?_
  cases answer with
  | some value => simp
  | none =>
    -- The embedder's buffer answers where there is one.
    cases context.extData with
    | some data => simp
    | none => simp

/-- A write of external data tells only facts of its own. -/
theorem movxWrite_tells (address : Word) : (movxWrite address).Tells told := by
  simp [movxWrite]

/-- `nop` tells only facts of its own. -/
theorem nop_tells : nop.Tells told := by simp [nop]

/-! ### Rows -/

attribute [local simp] ajmpOffset_tells acallOffset_tells branchIf_tells branchIf3_tells
  carryOp_tells latchOp_tells accOp_tells logicAcc_tells addAcc_tells subAcc_tells addImm_tells
  storeMem_tells indirOp_tells rxOp_tells compareBranch_tells movxRead_tells movxWrite_tells
  nop_tells
attribute [local simp]
  ljmpAddress lcallAddress retOp reti jcOffset jncOffset jzOffset jnzOffset sjmpOffset
  jmpIndirADptr jbBitaddrOffset jnbBitaddrOffset jbcBitaddrOffset orlCBitaddr anlCBitaddr
  orlCComplBitaddr anlCComplBitaddr movCBitaddr movBitaddrC cplBitaddr clrBitaddr setbBitaddr cplC
  clrC setbC rrA rlA incA decA swapA clrA cplA movARx movAIndirRx movcAIndirAPc rrcA rlcA logicImm
  logicMem logicIndirRx logicRx orlAImm orlAMem orlAIndirRx orlARx anlAImm anlAMem anlAIndirRx
  anlARx xrlAImm xrlAMem xrlAIndirRx xrlARx addAImm addAMem addAIndirRx addARx addcAImm addcAMem
  addcAIndirRx addcARx subbAImm subbAMem subbAIndirRx subbARx daA mulAb divAb logicMemAcc anlMemA
  xrlMemA movAImm movAMem movMemImm movMemMem movMemIndirRx movMemA movMemRx movDptrImm incDptr
  movIndirRxImm movIndirRxMem movIndirRxA incIndirRx decIndirRx xchAIndirRx xchdAIndirRx xchAMem
  pushMem popMem incRx decRx movRxA movRxImm movRxMem xchARx djnzRxOffset cjneAImmOffset
  cjneAMemOffset cjneIndirRxImmOffset cjneRxImmOffset movxAIndirDptr movxAIndirRx movxIndirDptrA
  movxIndirRxA

/-- `movc_aIndir_aDptr` tells only facts of its own. -/
theorem movcAIndirADptr_tells : movcAIndirADptr.Tells told := by simp [movcAIndirADptr, accOp]

/-- The register forms. -/
theorem rxRow_plain : ∀ p ∈ rxRow, p.Tells RawFact.ofBody := by simp [rxRow]

/-- The modifiers are in the list. -/
theorem modifiers_listed :
    (incMem ∈ directModifiers ∧ decMem ∈ directModifiers ∧ orlMemA ∈ directModifiers ∧
      djnzMemOffset ∈ directModifiers) ∧
    orlMemImm ∈ directModifiers ∧ anlMemImm ∈ directModifiers ∧ xrlMemImm ∈ directModifiers := by
  simp only [directModifiers, List.mem_cons, true_or, or_true, and_self]

/-- The bodies that modify a direct byte tell facts of a body. -/
theorem modifiers_tell : ∀ p ∈ directModifiers, p.Tells fun f => f.bodily = true := by
  simp [directModifiers, incMem, decMem, orlMemA, logicMemImm, orlMemImm, anlMemImm, xrlMemImm,
    djnzMemOffset, branchIf3]

/-- The other forms, row by row. -/
theorem firstRows_plain : ∀ row ∈ opRows.take 5, ∀ p ∈ row,
    p ∈ directModifiers ∨ p.Tells RawFact.ofBody := by
  simp [opRows, modifiers_listed]

/-- The rows in the middle of the table. -/
theorem middleRows_plain : ∀ row ∈ (opRows.drop 5).take 5, ∀ p ∈ row,
    p ∈ directModifiers ∨ p.Tells RawFact.ofBody := by
  simp [opRows, modifiers_listed, movcAIndirADptr_tells]

/-- The rows at its end. -/
theorem lastRows_plain : ∀ row ∈ opRows.drop 10, ∀ p ∈ row,
    p ∈ directModifiers ∨ p.Tells RawFact.ofBody := by
  simp [opRows, modifiers_listed]

/-- All rows, in the three parts. -/
theorem opRows_plain : ∀ row ∈ opRows, ∀ p ∈ row,
    p ∈ directModifiers ∨ p.Tells RawFact.ofBody := by
  intro row member
  rw [← List.take_append_drop 5 opRows, ← List.take_append_drop 5 (opRows.drop 5),
    List.drop_drop] at member
  rcases List.mem_append.mp member with first | rest
  · exact firstRows_plain row first
  · rcases List.mem_append.mp rest with middle | last
    · exact middleRows_plain row middle
    · exact lastRows_plain row last

end Table

/-- Looking up a list with a default finds a member or the default. -/
theorem getD_mem {α : Type} (xs : List α) (i : Nat) (default : α) :
    xs[i]?.getD default ∈ xs ∨ xs[i]?.getD default = default := by
  cases found : xs[i]? with
  | none => exact Or.inr rfl
  | some x => exact Or.inl (List.mem_of_getElem? found)

/-- Whatever holds of the bodies in the rows and of NOP holds of every body. -/
theorem opTable_all {P : Op Nat → Prop} (registers : ∀ p ∈ rxRow, P p)
    (others : ∀ row ∈ opRows, ∀ p ∈ row, P p) (absent : P nop) (opcode : Byte) :
    P (opTable opcode) := by
  simp only [opTable]
  -- The eight register columns share a row; the other columns have rows of their own.
  split
  · rcases getD_mem rxRow (opcode >>> 4).toNat nop with member | default
    · exact registers _ member
    · rw [default]
      exact absent
  · cases row : opRows[(opcode >>> 4).toNat]? with
    | none => exact absent
    | some row' =>
      rcases getD_mem row' (opcode &&& 7#8).toNat nop with member | default
      · exact others _ (List.mem_of_getElem? row) _ member
      · show P (row'[(opcode &&& 7#8).toNat]?.getD nop)
        rw [default]
        exact absent

/-- What an opcode body tells, unless it modifies a direct byte. -/
theorem opTable_plain (opcode : Byte) :
    opTable opcode ∈ directModifiers ∨ (opTable opcode).Tells RawFact.ofBody :=
  opTable_all (P := fun p => p ∈ directModifiers ∨ p.Tells RawFact.ofBody)
    (fun p member => Or.inr (rxRow_plain p member)) opRows_plain (Or.inr nop_tells) opcode

/-- An opcode body reports bodily facts only. -/
theorem opTable_tells (opcode : Byte) : (opTable opcode).Tells fun f => f.bodily = true :=
  (opTable_plain opcode).elim (modifiers_tell _) fun tells => tells.mono fun _ both => both.1

end Emu80535
