import Emu80535.Proofs.Decimal

/-! The exchange instructions: what they swap, and what running one twice restores. -/

namespace Emu80535

variable {ω : Type} {hooks : Hooks ω}

/-! ### Instructions -/

/-- The instructions that exchange ACC and a byte of internal RAM. -/
inductive Exchange where
  | direct
  | indirect (i : Fin 2)
  | register (n : Fin 8)
  deriving DecidableEq, Repr

namespace Exchange

/-- The opcode of an exchange. -/
def opcode : Exchange → Byte
  | direct => 0xC5#8
  | indirect i => BitVec.ofNat 8 (0xC6 + i)
  | register n => BitVec.ofNat 8 (0xC8 + n)

/-- The byte of internal RAM an exchange works on. -/
def address (c : Cpu) : Exchange → Byte
  | direct => c.code (c.pc + 1#16)
  | indirect _ => c.indirRxAddress
  | register _ => c.rxAddress.setWidth 8

/-- The register that holds that address, where a register does. -/
def pointer (c : Cpu) : Exchange → Option Byte
  | indirect _ => some ((c.opcode &&& 1#8) + c.bankBase)
  | _ => none

end Exchange

/-! ### Internal RAM -/

/-- Internal RAM with another byte at an address. -/
def Cpu.storeIndir (c : Cpu) (address value : Byte) : Cpu :=
  if 0x7F#8 < address then
    { c with upperData := c.upperData.map fun data =>
        Function.update data (address.setWidth 7) value }
  else { c with lowerData := Function.update c.lowerData (address.setWidth 7) value }

/-- Two addresses of one half of internal RAM differ in their low bits. -/
theorem setWidth_ne {a b : Byte} (half : 0x7F#8 < a ↔ 0x7F#8 < b) (different : a ≠ b) :
    (a.setWidth 7 : SfrIndex) ≠ b.setWidth 7 := by
  -- Seven bits and the half they are in make the whole address.
  intro same
  have low := congrArg BitVec.toNat same
  simp only [BitVec.toNat_setWidth, BitVec.lt_def] at low half
  refine different (BitVec.eq_of_toNat_eq ?_)
  have boundA := a.isLt
  have boundB := b.isLt
  change (127 < a.toNat ↔ 127 < b.toNat) at half
  omega

/-- What is read behind a store, where there is upper internal RAM. -/
theorem readIndir_storeIndir {c : Cpu} (upper : c.upperData.isSome = true) (a v : Byte) :
    (c.storeIndir a v).readIndir = Function.update c.readIndir a v := by
  obtain ⟨data, present⟩ := Option.isSome_iff_exists.mp upper
  funext b
  -- Lower and upper internal RAM are two arrays, so the halves of the addresses decide.
  by_cases same : b = a
  · subst same
    rw [Function.update_self]
    unfold Cpu.storeIndir Cpu.readIndir
    by_cases high : 0x7F#8 < b
    · simp only [if_pos high, present, Option.map_some, Function.update_self]
    · simp only [if_neg high, Function.update_self]
  · rw [Function.update_of_ne same]
    unfold Cpu.storeIndir Cpu.readIndir
    by_cases high : 0x7F#8 < a
    · by_cases here : 0x7F#8 < b
      · have apart := setWidth_ne (iff_of_true here high) same
        simp only [if_pos high, if_pos here, present, Option.map_some,
          Function.update_of_ne apart]
      · simp only [if_pos high, if_neg here]
    · by_cases here : 0x7F#8 < b
      · simp only [if_neg high, if_pos here]
      · have apart := setWidth_ne (iff_of_false here high) same
        simp only [if_neg high, if_neg here, Function.update_of_ne apart]

/-! ### Bodies -/

/-- ACC and one byte of internal RAM are replaced, and the program counter moves. -/
def Cpu.replaced (c : Cpu) (address taken given : Byte) (length : Word) : Cpu :=
  { c.storeIndir address given with
    sfr := Function.update c.sfr Reg.acc taken
    pc := c.pc + length }

/-- `xch_a_indir_rx`. -/
theorem xchAIndirRx_cpu (m : Machine ω) :
    (xchAIndirRx.run hooks m).2.cpu = m.cpu.replaced m.cpu.indirRxAddress
      (m.cpu.readIndir m.cpu.indirRxAddress) (m.cpu.sfr Reg.acc) 1#16 := by
  -- The pointer is read before the accumulator is written, so the body is this sequence.
  show (Op.run hooks (do
    writeMemIndir m.cpu.indirRxAddress (m.cpu.sfr Reg.acc)
    setAcc (m.cpu.readIndir m.cpu.indirRxAddress)
    advancePc 1#16
    pure 0 : Op Nat) m).2.cpu = _
  unfold writeMemIndir Cpu.replaced Cpu.storeIndir
  split <;> rfl

/-- `xch_a_rx`. -/
theorem xchARx_cpu (m : Machine ω) :
    (xchARx.run hooks m).2.cpu = m.cpu.replaced (m.cpu.rxAddress.setWidth 8)
      (m.cpu.readIndir (m.cpu.rxAddress.setWidth 8)) (m.cpu.sfr Reg.acc) 1#16 := by
  -- A bank register is below the upper half, where indirect and direct RAM are the same.
  have low : ¬0x7F#8 < m.cpu.rxAddress.setWidth 8 := by
    have bound := m.cpu.rxAddress.isLt
    rw [BitVec.lt_def, BitVec.toNat_setWidth]
    change ¬127 < _
    omega
  have back : (m.cpu.rxAddress.setWidth 8).setWidth 7 = m.cpu.rxAddress := by
    apply BitVec.eq_of_toNat_eq
    have bound := m.cpu.rxAddress.isLt
    simp only [BitVec.toNat_setWidth]
    omega
  unfold Cpu.replaced Cpu.storeIndir Cpu.readIndir
  rw [if_neg low, if_neg low, back]
  rfl

/-- `xch_a_mem` on internal RAM, unless it is aborted. -/
theorem xchAMem_cpu {m : Machine ω} (iram : ¬0x7F#8 < m.cpu.code (m.cpu.pc + 1#16))
    (unaborted : (xchAMem.run hooks m).2.aborted hooks = false) :
    (xchAMem.run hooks m).2.cpu = m.cpu.replaced (m.cpu.code (m.cpu.pc + 1#16))
      (m.cpu.readIndir (m.cpu.code (m.cpu.pc + 1#16))) (m.cpu.sfr Reg.acc) 2#16 := by
  have cpu : (operand1.run hooks m).2.cpu = m.cpu := operand1_cpu m
  have body : xchAMem.run hooks m = Op.run hooks (do
      let value ← readMem (m.cpu.code (m.cpu.pc + 1#16))
      let c ← Op.cpu
      writeMem (m.cpu.code (m.cpu.pc + 1#16)) (c.sfr Reg.acc)
      if ← Op.isAborted then pure 0
      else
        setAcc value
        advancePc 2#16
        pure 0 : Op Nat) (operand1.run hooks m).2 := rfl
  rw [body] at unaborted ⊢
  clear body
  -- From here on only the CPU behind the fetch matters, which is as before.
  generalize (operand1.run hooks m).2 = fetched at cpu unaborted ⊢
  obtain ⟨c, host, stores⟩ := fetched
  obtain rfl : c = m.cpu := cpu
  generalize m.cpu.code (m.cpu.pc + 1#16) = address at iram unaborted ⊢
  let stored := (Effect.setLower (address.setWidth 7) (m.cpu.sfr Reg.acc)).apply hooks ⟨m.cpu, host, stores⟩
  have low : Op.run hooks (do
      let value ← readMem address
      let c ← Op.cpu
      writeMem address (c.sfr Reg.acc)
      if ← Op.isAborted then pure 0
      else
        setAcc value
        advancePc 2#16
        pure 0 : Op Nat) ⟨m.cpu, host, stores⟩ = Op.run hooks
      (if stored.aborted hooks then pure 0 else (do
        setAcc (m.cpu.lowerData (address.setWidth 7))
        advancePc 2#16
        pure 0 : Op Nat)) stored := by
    unfold readMem writeMem
    simp only [if_neg iram]
    rfl
  rw [low] at unaborted ⊢
  have going : stored.aborted hooks = false := by
    by_contra aborted
    rw [Bool.not_eq_false] at aborted
    rw [if_pos aborted] at unaborted
    exact Bool.false_ne_true (unaborted.symm.trans aborted)
  rw [if_neg (by rw [going]; exact Bool.false_ne_true)]
  unfold Cpu.replaced Cpu.storeIndir Cpu.readIndir
  rw [if_neg iram, if_neg iram]
  rfl

/-- `xchd_a_indir_rx`, which stores the low digit it has just taken. -/
theorem xchdAIndirRx_cpu (m : Machine ω) :
    let value := m.cpu.readIndir m.cpu.indirRxAddress
    let taken := (m.cpu.sfr Reg.acc &&& 0xF0#8) ||| (value &&& 0x0F#8)
    (xchdAIndirRx.run hooks m).2.cpu = m.cpu.replaced m.cpu.indirRxAddress taken
      ((value &&& 0xF0#8) ||| (taken &&& 0x0F#8)) 1#16 := by
  intro value taken
  -- The byte is written from the accumulator that was just stored, not from the one before.
  show (Op.run hooks (do
    setAcc taken
    writeMemIndir m.cpu.indirRxAddress ((value &&& 0xF0#8) ||| (taken &&& 0x0F#8))
    advancePc 1#16
    pure 0 : Op Nat) m).2.cpu = _
  unfold writeMemIndir Cpu.replaced Cpu.storeIndir
  split <;> rfl

/-! ### Execution -/

/-- The first step of an exchange. -/
def Exchange.length : Exchange → Word
  | .direct => 2#16
  | .indirect _ | .register _ => 1#16

/-- The body of every exchange swaps ACC and its byte. -/
theorem exchange_cpu (x : Exchange) {m : Machine ω} (fetched : m.cpu.opcode = x.opcode)
    (iram : x = .direct → ¬0x7F#8 < x.address m.cpu)
    (unaborted : ((opTable m.cpu.opcode).run hooks m).2.aborted hooks = false) :
    ((opTable m.cpu.opcode).run hooks m).2.cpu = m.cpu.replaced (x.address m.cpu)
      (m.cpu.readIndir (x.address m.cpu)) (m.cpu.sfr Reg.acc) x.length := by
  rw [fetched] at unaborted ⊢
  -- One body for each form, found through the opcode table.
  cases x with
  | direct => exact xchAMem_cpu (iram rfl) unaborted
  | indirect i =>
    have body : opTable (Exchange.indirect i).opcode = xchAIndirRx := by fin_cases i <;> rfl
    rw [body]
    exact xchAIndirRx_cpu m
  | register n =>
    have body : opTable (Exchange.register n).opcode = xchARx := by fin_cases n <;> rfl
    rw [body]
    exact xchARx_cpu m

/-- What an instruction that replaces ACC and a byte leaves behind, with the parity of ACC. -/
structure Replaces (before after : Cpu) (address taken given : Byte) (length : Word) : Prop where
  acc : after.sfr Reg.acc = taken
  iram : after.readIndir = Function.update before.readIndir address given
  upper : after.upperData.isSome = true
  sfr : ∀ index, index ≠ Reg.acc → index ≠ Reg.psw → after.sfr index = before.sfr index
  psw : after.sfr Reg.psw &&& ~~~Psw.p = before.sfr Reg.psw &&& ~~~Psw.p
  pc : after.pc = before.pc + length

/-- The parity update and the bookkeeping of an instruction add nothing else. -/
theorem replaces_of_body {m : Machine ω} {address taken given : Byte} {length : Word}
    (upper : m.cpu.upperData.isSome = true)
    (body : ((opTable m.cpu.opcode).run hooks m).2.cpu =
      m.cpu.replaced address taken given length) :
    Replaces m.cpu (updateParity (runInstruction hooks m.cpu.opcode m)).cpu address taken given
      length := by
  have ran : (runInstruction hooks m.cpu.opcode m).cpu =
      { m.cpu.replaced address taken given length with
        tickDelay := ((opTable m.cpu.opcode).run hooks m).1
        inInstruction := false } := by
    rw [runInstruction_cpu, body]
  -- Parity is a bit of PSW, and the accumulator is another register.
  have other : Reg.acc ≠ Reg.psw := by decide
  have readIndir : (m.cpu.replaced address taken given length).readIndir =
      Function.update m.cpu.readIndir address given := readIndir_storeIndir upper address given
  have present : (m.cpu.storeIndir address given).upperData.isSome = true := by
    unfold Cpu.storeIndir
    split
    · simpa using upper
    · exact upper
  have registers : (runInstruction hooks m.cpu.opcode m).cpu.sfr =
      Function.update m.cpu.sfr Reg.acc taken := congrArg Cpu.sfr ran
  have parity : (updateParity (runInstruction hooks m.cpu.opcode m)).cpu.sfr =
      Function.update (Function.update m.cpu.sfr Reg.acc taken) Reg.psw
        ((Function.update m.cpu.sfr Reg.acc taken Reg.psw &&& ~~~Psw.p) |||
          parityBit (Function.update m.cpu.sfr Reg.acc taken Reg.acc)) := by
    rw [← registers]
    rfl
  have lower : (runInstruction hooks m.cpu.opcode m).cpu.readIndir =
      (m.cpu.replaced address taken given length).readIndir :=
    (congrArg Cpu.readIndir ran).trans rfl
  have higher : (runInstruction hooks m.cpu.opcode m).cpu.upperData =
      (m.cpu.storeIndir address given).upperData :=
    (congrArg Cpu.upperData ran).trans rfl
  have counter : (runInstruction hooks m.cpu.opcode m).cpu.pc = m.cpu.pc + length :=
    congrArg Cpu.pc ran
  -- Memory, the registers and the counter come from the body; only parity is added.
  refine ⟨?_, lower.trans readIndir, (congrArg Option.isSome higher).trans present,
    fun index notAcc notPsw => ?_, ?_, counter⟩
  · rw [parity, Function.update_of_ne other, Function.update_self]
  · rw [parity, Function.update_of_ne notPsw, Function.update_of_ne notAcc]
  · rw [parity, Function.update_self, Arithmetic.parity_apart (by decide),
      Function.update_of_ne (Ne.symm other)]

/-! ### Twice -/

/-- The instruction at the program counter, and the parity update behind it. -/
def Machine.executed (hooks : Hooks ω) (m : Machine ω) : Machine ω :=
  updateParity (runInstruction hooks m.cpu.opcode m)

/-- An exchange comes next on a CPU with upper internal RAM, and it is not aborted. -/
structure Exchange.Ready (x : Exchange) (hooks : Hooks ω) (m : Machine ω) : Prop where
  fetched : m.cpu.opcode = x.opcode
  upper : m.cpu.upperData.isSome = true
  iram : x = .direct → ¬0x7F#8 < x.address m.cpu
  completes : ((opTable m.cpu.opcode).run hooks m).2.aborted hooks = false

/-- ACC and the byte of the exchange change places. -/
def Exchange.Swaps (x : Exchange) (before after : Cpu) : Prop :=
  Replaces before after (x.address before) (before.readIndir (x.address before))
    (before.sfr Reg.acc) x.length

/-- The exchange changes the register that points to its byte. -/
def Exchange.Repoints (x : Exchange) (c : Cpu) : Prop :=
  x.pointer c = some (x.address c) ∧ c.readIndir (x.address c) ≠ c.sfr Reg.acc

/-- ACC and internal RAM are as they were. -/
def Restored (before after : Cpu) : Prop :=
  after.sfr Reg.acc = before.sfr Reg.acc ∧ after.readIndir = before.readIndir

/-- An exchange swaps. -/
theorem exchange_swaps {x : Exchange} {m : Machine ω} (ready : x.Ready hooks m) :
    x.Swaps m.cpu (m.executed hooks).cpu :=
  replaces_of_body ready.upper (exchange_cpu x ready.fetched ready.iram ready.completes)

/-- The register banks lie in lower internal RAM. -/
theorem Exchange.pointer_low (opcode psw : Byte) :
    ¬0x7F#8 < (opcode &&& 1#8) + 8#8 * ((psw &&& (Psw.rs0 ||| Psw.rs1)) >>> 3) := by
  -- Four banks of eight bytes, and the pointers are the first two of each.
  have bank : ∀ psw : Byte, 8#8 * ((psw &&& (Psw.rs0 ||| Psw.rs1)) >>> 3) ≤ 24#8 := by decide +kernel
  have low : ∀ opcode : Byte, opcode &&& 1#8 ≤ 1#8 := by decide +kernel
  have bankBound := bank psw
  have lowBound := low opcode
  rw [BitVec.le_def] at bankBound lowBound
  rw [BitVec.lt_def, BitVec.toNat_add]
  change _ ≤ 24 at bankBound
  change _ ≤ 1 at lowBound
  change ¬127 < _
  omega

/-- The pointer register holds the address. -/
theorem Exchange.pointer_holds {x : Exchange} {c : Cpu} {cell : Byte}
    (points : x.pointer c = some cell) : c.readIndir cell = x.address c := by
  cases x with
  -- Only the indirect form has a pointer, and its cell is in direct RAM.
  | direct | register => cases points
  | indirect i =>
    obtain rfl : (c.opcode &&& 1#8) + c.bankBase = cell := Option.some.inj points
    have low : ¬0x7F#8 < (c.opcode &&& 1#8) + c.bankBase :=
      Exchange.pointer_low c.opcode (c.sfr Reg.psw)
    unfold Cpu.readIndir
    rw [if_neg low]
    rfl

/-- The bank selection is not a parity matter. -/
theorem bankBase_of_psw {c d : Cpu}
    (psw : d.sfr Reg.psw &&& ~~~Psw.p = c.sfr Reg.psw &&& ~~~Psw.p) : d.bankBase = c.bankBase := by
  have apart : ∀ psw : Byte, psw &&& (Psw.rs0 ||| Psw.rs1) =
      (psw &&& ~~~Psw.p) &&& (Psw.rs0 ||| Psw.rs1) := by decide +kernel
  unfold Cpu.bankBase
  rw [apart (d.sfr Reg.psw), apart (c.sfr Reg.psw), psw]

/-- A second exchange works on the same byte, unless its pointer register was that byte. -/
theorem address_again {x : Exchange} {c d : Cpu} (sameOpcode : d.opcode = c.opcode)
    (sameOperand : x = .direct → x.address d = x.address c) (bank : d.bankBase = c.bankBase)
    (pointed : ∀ cell, x.pointer c = some cell → d.readIndir cell = c.readIndir cell) :
    x.address d = x.address c := by
  -- The operand of the direct form is in code; the other two forms depend on the bank.
  cases x with
  | direct => exact sameOperand rfl
  | indirect i =>
    have points : (Exchange.indirect i).pointer d = (Exchange.indirect i).pointer c := by
      unfold Exchange.pointer
      rw [sameOpcode, bank]
    rw [← Exchange.pointer_holds (points.trans rfl), ← Exchange.pointer_holds (c := c) rfl]
    exact pointed _ rfl
  | register n =>
    show (Cpu.rxAddress d).setWidth 8 = (Cpu.rxAddress c).setWidth 8
    unfold Cpu.rxAddress
    rw [sameOpcode, bank]

/--
The exchanges swap ACC and a byte of internal RAM and touch nothing else, and a second one restores
both unless the first changed the very register it is addressed by. XCHD takes the low digit of the
byte into ACC and keeps both high digits.
-/
theorem exchange_law (hooks : Hooks ω) :
    (∀ (x : Exchange) (m : Machine ω), x.Ready hooks m →
      x.Swaps m.cpu (m.executed hooks).cpu ∧
      ∀ (k : Machine ω) (pc : Word), k.cpu = { (m.executed hooks).cpu with pc } →
        x.Ready hooks k → (x = .direct → x.address k.cpu = x.address m.cpu) →
        (Restored m.cpu (k.executed hooks).cpu ↔ ¬x.Repoints m.cpu)) ∧
    ∀ (i : Fin 2) (m : Machine ω), m.cpu.opcode = BitVec.ofNat 8 (0xD6 + i) →
      m.cpu.upperData.isSome = true →
      let byte := m.cpu.readIndir m.cpu.indirRxAddress
      ∃ given, given &&& 0xF0#8 = byte &&& 0xF0#8 ∧
        Replaces m.cpu (m.executed hooks).cpu m.cpu.indirRxAddress
          ((m.cpu.sfr Reg.acc &&& 0xF0#8) ||| (byte &&& 0x0F#8)) given 1#16 := by
  refine ⟨fun x m ready => ⟨exchange_swaps ready, ?_⟩, ?_⟩
  · intro k pc again readyAgain sameOperand
    have first := exchange_swaps ready
    have second := exchange_swaps readyAgain
    have iram : k.cpu.readIndir = Function.update m.cpu.readIndir (x.address m.cpu)
        (m.cpu.sfr Reg.acc) := by
      rw [again]
      exact first.iram
    have acc : k.cpu.sfr Reg.acc = m.cpu.readIndir (x.address m.cpu) := by
      rw [again]
      exact first.acc
    have bank : k.cpu.bankBase = m.cpu.bankBase := by
      refine bankBase_of_psw ?_
      rw [again]
      exact first.psw
    have opcode : k.cpu.opcode = m.cpu.opcode := readyAgain.fetched.trans ready.fetched.symm
    have accAgain := second.acc
    have iramAgain := second.iram
    rw [acc] at iramAgain
    by_cases repoints : x.Repoints m.cpu
    · refine iff_of_false (fun restored => ?_) (not_not_intro repoints)
      obtain ⟨points, changed⟩ := repoints
      have pointsAgain : x.pointer k.cpu = some (x.address m.cpu) := by
        rw [← points]
        cases x with
        | direct | register => rfl
        | indirect i =>
          unfold Exchange.pointer
          rw [opcode, bank]
      have moved : x.address k.cpu = m.cpu.sfr Reg.acc := by
        rw [← Exchange.pointer_holds pointsAgain, iram, Function.update_self]
      -- The byte is its own address here, and the second exchange works somewhere else.
      have self : m.cpu.readIndir (x.address m.cpu) = x.address m.cpu :=
        Exchange.pointer_holds points
      have elsewhere : x.address m.cpu ≠ x.address k.cpu := by
        rw [moved, ← self]
        exact changed
      have byte := congrFun (iramAgain.symm.trans restored.2) (x.address m.cpu)
      rw [Function.update_of_ne elsewhere, iram, Function.update_self] at byte
      exact changed byte.symm
    · have address : x.address k.cpu = x.address m.cpu := by
        refine address_again opcode sameOperand bank fun cell points => ?_
        rw [iram]
        by_cases same : cell = x.address m.cpu
        · subst same
          rw [Function.update_self]
          exact (not_not.mp fun changed => repoints ⟨points, changed⟩).symm
        · rw [Function.update_of_ne same]
      refine iff_of_true ⟨?_, ?_⟩ repoints
      · rw [accAgain, address, iram, Function.update_self]
      · rw [iramAgain, address, iram, Function.update_idem, Function.update_eq_self]
  · intro i m fetched upper byte
    have body : opTable m.cpu.opcode = xchdAIndirRx := by
      rw [fetched]
      fin_cases i <;> rfl
    refine ⟨_, ?_, replaces_of_body upper (by rw [body]; exact xchdAIndirRx_cpu m)⟩
    have digits : ∀ a b : Byte, (a &&& 0xF0#8 ||| b &&& 0x0F#8) &&& 0xF0#8 = a &&& 0xF0#8 := by
      intro a b
      rw [BitVec.and_or_distrib_right, BitVec.and_assoc, BitVec.and_assoc]
      simp
    exact digits byte _

/-- A CPU with upper internal RAM before one instruction. -/
def beforeExchange (opcode acc : Byte) : Machine Unit :=
  (Machine.boot fun _ => opcode).mapCpu fun c =>
    { c with
      upperData := some fun _ => 0#8
      sfr := Function.update c.sfr Reg.acc acc }

/-- Running `XCH A,R0` twice restores ACC and R0. -/
theorem exchange_law_register :
    let m := beforeExchange 0xC8#8 5#8
    Restored m.cpu ((m.executed Hooks.none).executed Hooks.none).cpu :=
  (((exchange_law Hooks.none).1 (.register 0) (beforeExchange 0xC8#8 5#8)
      ⟨rfl, rfl, (nomatch ·), rfl⟩).2 _ _ rfl
    ⟨rfl, rfl, (nomatch ·), rfl⟩ (nomatch ·)).mpr
    (nomatch ·.1)

/-- `XCH A,@R0` loses its byte where R0 points to itself. -/
theorem pointer_not_restored :
    let m := beforeExchange 0xC6#8 5#8
    Exchange.Ready (.indirect 0) Hooks.none m ∧
      Exchange.Ready (.indirect 0) Hooks.none (m.executed Hooks.none) ∧
      ¬Restored m.cpu ((m.executed Hooks.none).executed Hooks.none).cpu :=
  ⟨⟨rfl, rfl, (nomatch ·), rfl⟩, ⟨rfl, rfl, (nomatch ·), rfl⟩,
    fun restored => absurd (congrFun restored.2 0#8) (by decide)⟩

end Emu80535
