import Emu80535.Core.Disasm
import Mathlib

/-! What every decoder reads, how long its text is, and the decoding of captured instructions. -/

namespace Emu80535

/-! ### Formatting -/

/-- Two digits are written for a byte. -/
theorem hexByte_length (value : Byte) : (hexByte value).length = 2 := by simp [hexByte]

/-- Different bytes are written differently. -/
theorem hexByte_injective {a b : Byte} (same : hexByte a = hexByte b) : a = b := by
  -- The sixteen digits are told apart, and the two halves make up the byte.
  have digits : ∀ i < 16, ∀ j < 16, "0123456789ABCDEF".toList.getD i '?' =
      "0123456789ABCDEF".toList.getD j '?' → i = j := by decide
  have texts := congrArg String.toList same
  simp only [hexByte, String.toList_ofList, List.cons.injEq, and_true] at texts
  have aBound := a.isLt
  have bBound := b.isLt
  have high := digits _ (by omega) _ (by omega) texts.1
  have low := digits _ (by omega) _ (by omega) texts.2
  apply BitVec.eq_of_toNat_eq
  omega

/-- Different words are written differently. -/
theorem hexWord_injective {a b : Word} (same : hexWord a = hexWord b) : a = b := by
  have texts := congrArg String.toList same
  -- The two halves have texts of one length, so the text splits between them.
  simp only [hexWord, String.toList_append] at texts
  have sizes : (hexByte ((a >>> 8).setWidth 8)).toList.length =
      (hexByte ((b >>> 8).setWidth 8)).toList.length := by
    rw [String.length_toList, String.length_toList, hexByte_length, hexByte_length]
  obtain ⟨high, low⟩ := List.append_inj texts sizes
  have highs := hexByte_injective (String.toList_inj.mp high)
  have lows := hexByte_injective (String.toList_inj.mp low)
  apply BitVec.eq_of_toNat_eq
  have upper := congrArg BitVec.toNat highs
  have lower := congrArg BitVec.toNat lows
  simp only [BitVec.toNat_setWidth, BitVec.toNat_ushiftRight, Nat.shiftRight_eq_div_pow]
    at upper lower
  have aBound := a.isLt
  have bBound := b.isLt
  omega

/-! ### Names -/

/-- The name of a register is short if all names are, and so is its address. -/
theorem registerName_length (variant : Variant) {sab classic : List (Byte × String)}
    (short : ∀ name ∈ sab ++ classic, name.2.length ≤ 5) (address : Byte) :
    (registerName variant sab classic address).length ≤ 5 := by
  -- A name that is found is one of the list.
  have listed : ∀ names ⊆ sab ++ classic, ∀ name, names.lookup address = some name →
      name.length ≤ 5 := by
    intro names inside name found
    obtain ⟨before, after, rfl, -⟩ := List.lookup_eq_some_iff.mp found
    exact short _ (inside (List.mem_append_right _ List.mem_cons_self))
  have bare : (hexByte address ++ "h").length ≤ 5 := by
    rw [String.length_append, hexByte_length]
    decide
  rw [registerName]
  -- The Siemens names come first, then the common ones, then the bare address.
  cases first : (if variant = .sab80535 then sab.lookup address else none) with
  | some name =>
    split at first
    · exact listed sab (List.subset_append_left _ _) name first
    · exact absurd first (by simp)
  | none =>
    cases second : classic.lookup address with
    | some name => exact listed classic (List.subset_append_right _ _) name second
    | none => exact bare

/-- The name of a direct address takes at most five characters. -/
theorem memMemonic_length (variant : Variant) (value : Byte) :
    (memMemonicForVariant variant value).length ≤ 5 := by
  have short : ∀ name ∈ sabRegisterNames ++ registerNames, name.2.length ≤ 5 := by decide +kernel
  rw [memMemonicForVariant]
  split
  · exact registerName_length variant short value
  · rw [String.length_append, hexByte_length]
    decide

/-- The name of a bit takes two more, the point and its digit. -/
theorem bitaddrMemonic_length (variant : Variant) (value : Byte) :
    (bitaddrMemonicForVariant variant value).length ≤ 7 := by
  have short : ∀ name ∈ sabBitRegisterNames ++ bitRegisterNames, name.2.length ≤ 5 := by
    decide +kernel
  have digit : ∀ v : Byte, (toString (v &&& 7#8).toNat).length = 1 := by decide +kernel
  have point : ".".length = 1 := by decide
  -- The register and the point, or the bare address with its suffix.
  simp only [bitaddrMemonicForVariant, String.length_append, digit, point]
  split
  · have named := registerName_length variant short (value &&& 0xF8#8)
    omega
  · rw [String.length_append, hexByte_length]
    decide

namespace Piece

/-- The characters a piece prints at most. -/
def width : Piece → Nat
  | text s => s.length
  | mem _ => 5
  | bitaddr => 7
  | imm _ => 4
  | rel _ => 5
  | indirRx => 3
  | rx => 2
  | page | address => 5
  | dptr => 7
  | nop => 9

/-- The bytes of the instruction up to the last one a piece prints. -/
def reach : Piece → Nat
  | text _ => 0
  | mem offset | imm offset | rel offset => offset + 1
  | indirRx | rx | nop => 1
  | bitaddr | page => 2
  | address | dptr => 3

/-- No operand takes more room than its width. -/
theorem print_length (c : Cpu) (position : Word) (p : Piece) :
    (p.print c position).length ≤ p.width := by
  -- One bound for each kind of operand.
  cases p with
  | text s => exact Nat.le_refl _
  | mem offset => exact memMemonic_length _ _
  | bitaddr => exact bitaddrMemonic_length _ _
  | imm offset =>
    simp only [print, width, String.length_append, hexByte_length]
    decide
  | rel offset =>
    have signs : ∀ v : Byte, (signedText v).length ≤ 4 := by decide +kernel
    have mark : "#".length = 1 := by decide
    simp only [print, width, String.length_append, mark]
    have shown := signs (c.code (position + BitVec.ofNat 16 offset))
    omega
  | indirRx =>
    have digit : ∀ v : Byte, (toString (v &&& 1#8).toNat).length = 1 := by decide +kernel
    simp only [print, width, String.length_append, digit]
    decide
  | rx =>
    have digit : ∀ v : Byte, (toString (v &&& 7#8).toNat).length = 1 := by decide +kernel
    simp only [print, width, String.length_append, digit]
    decide
  | page | address =>
    simp only [print, width, hexWord, String.length_append, hexByte_length]
    decide
  | dptr =>
    simp only [print, width, String.length_append, hexByte_length]
    decide
  | nop =>
    simp only [print, width]
    split <;> decide

/-- Where two CPUs hold the same instruction, a piece prints the same. -/
theorem print_congr {c d : Cpu} (variant : d.variant = c.variant) {position : Word} (p : Piece)
    (held : ∀ k < p.reach, d.code (position + BitVec.ofNat 16 k) =
      c.code (position + BitVec.ofNat 16 k)) : p.print d position = p.print c position := by
  have opcode : 0 < p.reach → d.code position = c.code position := fun reached => by
    simpa using held 0 reached
  have first : 1 < p.reach → d.code (position + 1#16) = c.code (position + 1#16) := held 1
  have second : 2 < p.reach → d.code (position + 2#16) = c.code (position + 2#16) := held 2
  -- A piece reads the opcode and the bytes within its reach, and nothing else of the CPU.
  cases p with
  | text s => rfl
  | mem offset => simp only [print, variant, held offset (Nat.lt_succ_self _)]
  | bitaddr => simp only [print, variant, first (by decide)]
  | imm offset | rel offset => simp only [print, held offset (Nat.lt_succ_self _)]
  | indirRx | rx | nop => simp only [print, opcode (by decide)]
  | page => simp only [print, opcode (by decide), first (by decide)]
  | address | dptr => simp only [print, first (by decide), second (by decide)]

end Piece

namespace Decoder

/-- The text of a decoder fits the sum of the widths of its pieces. -/
theorem text_length (d : Decoder) (c : Cpu) (position : Word) :
    (d.decode c position).2.length ≤ (d.format.map Piece.width).sum := by
  simp only [decode]
  induction d.format with
  | nil => exact Nat.le_refl _
  | cons piece rest ih =>
    simp only [List.foldr_cons, List.map_cons, List.sum_cons, String.length_append]
    exact Nat.add_le_add (piece.print_length c position) ih

/-- A decoder that stays within its size decodes what its size holds. -/
theorem decode_congr {d : Decoder} (within : ∀ piece ∈ d.format, piece.reach ≤ d.size)
    {b c : Cpu} (variant : c.variant = b.variant) {position : Word}
    (held : ∀ k < d.size, c.code (position + BitVec.ofNat 16 k) =
      b.code (position + BitVec.ofNat 16 k)) : d.decode c position = d.decode b position := by
  -- The text is put together from pieces, each of which stays within the size.
  have texts : d.format.foldr (fun piece rest => piece.print c position ++ rest) "" =
      d.format.foldr (fun piece rest => piece.print b position ++ rest) "" := by
    refine List.foldr_ext _ _ _ fun piece member rest => ?_
    have same : piece.print c position = piece.print b position :=
      Piece.print_congr variant piece fun k reached =>
        held k (Nat.lt_of_lt_of_le reached (within piece member))
    rw [same]
  rw [decode, decode, texts]

end Decoder

/-! ### The table -/

/-- Whatever holds of the decoders in the rows holds of every decoder. -/
theorem decTable_all {P : Decoder → Prop}
    (listed : ∀ row ∈ disasmRxRow :: disasmRows, ∀ d ∈ row, P d) (opcode : Byte) :
    P (decTable opcode) := by
  -- An absent entry is the decoder of NOP, as the table of the source has it.
  have nop : P disasmNop := listed disasmRows.head! (by simp [disasmRows]) _ (by simp [disasmRows])
  have get : ∀ row ∈ disasmRxRow :: disasmRows, ∀ i : Nat, P (row[i]?.getD disasmNop) := by
    intro row member i
    cases found : row[i]? with
    | none => exact nop
    | some d => exact listed row member d (List.mem_of_getElem? found)
  rw [decTable]
  split
  · exact get _ List.mem_cons_self _
  · cases found : disasmRows[(opcode >>> 4).toNat]? with
    | none => exact nop
    | some row => exact get row (List.mem_cons_of_mem _ (List.mem_of_getElem? found)) _

/-- Every instruction has one to three bytes. -/
theorem decTable_size : ∀ opcode, 1 ≤ (decTable opcode).size ∧ (decTable opcode).size ≤ 3 :=
  decTable_all (P := fun d => 1 ≤ d.size ∧ d.size ≤ 3) (by decide +kernel)

/-- No decoder prints a byte beyond the size it returns. -/
theorem decTable_within : ∀ opcode, ∀ piece ∈ (decTable opcode).format,
    piece.reach ≤ (decTable opcode).size :=
  decTable_all (P := fun d => ∀ piece ∈ d.format, piece.reach ≤ d.size) (by decide +kernel)

/-- No text needs more than the buffer of a captured instruction holds. -/
theorem decTable_length (opcode : Byte) (c : Cpu) (position : Word) :
    ((decTable opcode).decode c position).2.length ≤ 96 := by
  have widths := @decTable_all (fun d => (d.format.map Piece.width).sum ≤ 96) (by decide +kernel)
  exact Nat.le_trans (Decoder.text_length _ c position) (widths opcode)

/-! ### Captured instructions -/

/-- The three slots of the view are different ones, also where the position wraps. -/
theorem slot_injective (pc : Word) {i j : Nat} (first : i < 3) (second : j < 3)
    (same : (pc + BitVec.ofNat 16 i) &&& 3#16 = (pc + BitVec.ofNat 16 j) &&& 3#16) : i = j := by
  have slots := congrArg BitVec.toNat same
  have mask : ∀ n : Nat, n &&& 3 = n % 4 := fun n => Nat.and_two_pow_sub_one_eq_mod n 2
  simp only [BitVec.toNat_and, BitVec.toNat_add, BitVec.toNat_ofNat, mask] at slots
  omega

/-- The view holds each captured byte at its own position. -/
theorem capturedView_code (variant : Variant) (pc : Word) (bytes : Fin 3 → Byte) {count : Nat}
    (i : Fin 3) (captured : i.val < count) :
    (capturedView variant pc bytes count).code (pc + BitVec.ofNat 16 i) = bytes i := by
  have apart : ∀ j : Fin 3, j ≠ i →
      (pc + BitVec.ofNat 16 i) &&& 3#16 ≠ (pc + BitVec.ofNat 16 j) &&& 3#16 := fun j other same =>
    other (Fin.ext (slot_injective pc j.isLt i.isLt same.symm))
  -- The last of the three conditional stores at this slot is its own.
  have stores : ∀ (slots : List (Fin 3)) (code : Word → Byte),
      code ((pc + BitVec.ofNat 16 i) &&& 3#16) = bytes i ∨ i ∈ slots →
      slots.foldl
        (fun (code : Word → Byte) (j : Fin 3) =>
          if j.val < count then
            Function.update code ((pc + BitVec.ofNat 16 j) &&& 3#16) (bytes j)
          else code) code ((pc + BitVec.ofNat 16 i) &&& 3#16) = bytes i := by
    intro slots
    induction slots with
    | nil => exact fun code here => here.resolve_right (List.not_mem_nil)
    | cons j rest ih =>
      intro code here
      rw [List.foldl_cons]
      apply ih
      by_cases own : j = i
      · subst own
        left
        rw [if_pos captured, Function.update_self]
      · rcases here with stored | member
        · left
          split
          · rw [Function.update_of_ne (apart j own)]
            exact stored
          · exact stored
        · exact Or.inr ((List.mem_cons.mp member).resolve_left fun same => own same.symm)
  exact stores (List.finRange 3) _ (Or.inr (List.mem_finRange i))

/-- Code memory without a mask that holds the first bytes of an instruction at a position. -/
structure Holds (full : Cpu) (pc : Word) (bytes : Fin 3 → Byte) (count : Nat) : Prop where
  unmasked : full.codeMemMaxIdx = 0xFFFF#16
  code : ∀ i : Fin 3, i.val < count → full.codeMem (pc + BitVec.ofNat 16 i) = bytes i

namespace Holds

variable {full : Cpu} {pc : Word} {bytes : Fin 3 → Byte} {count : Nat}

/-- The code the decoder sees is the code that was captured. -/
theorem code_eq (holds : Holds full pc bytes count) {k : Nat} (small : k < 3)
    (captured : k < count) : full.code (pc + BitVec.ofNat 16 k) = bytes ⟨k, small⟩ := by
  rw [Cpu.code, holds.unmasked]
  have whole : ∀ w : Word, w &&& 0xFFFF#16 = w := fun w => BitVec.and_allOnes
  rw [whole]
  exact holds.code ⟨k, small⟩ captured

/--
A capture decodes to the size the full code memory gives, and to its text once it is complete.
-/
theorem captured (holds : Holds full pc bytes count) (some : 1 ≤ count) (most : count ≤ 3)
    {c : Cpu} (variant : full.variant = c.variant) :
    em8051DecodeCaptured c pc bytes count =
      ((emuDecodeAt full pc).1,
        if (emuDecodeAt full pc).1 ≤ count then (emuDecodeAt full pc).2 else "") := by
  have opcode : full.codeMem pc = bytes 0 := by
    simpa using holds.code 0 (show 0 < count by omega)
  have range : ¬(count = 0 ∨ 3 < count) := by omega
  have view : (capturedView c.variant pc bytes count).variant = full.variant := variant.symm
  -- The view and the full memory hold the same bytes of the instruction.
  have held : ∀ k < 3, k < count →
      (capturedView c.variant pc bytes count).code (pc + BitVec.ofNat 16 k) =
        full.code (pc + BitVec.ofNat 16 k) := fun k small captured => by
    rw [capturedView_code c.variant pc bytes ⟨k, small⟩ captured, holds.code_eq small captured]
  rw [em8051DecodeCaptured, if_neg range, emuDecodeAt, opcode]
  generalize capturedView c.variant pc bytes count = seen at view held
  have sizes := decTable_size (bytes 0)
  have within := decTable_within (bytes 0)
  have short := decTable_length (bytes 0) full pc
  generalize decTable (bytes 0) = d at sizes within short
  by_cases complete : d.size ≤ count
  · have same : d.decode seen pc = d.decode full pc :=
      Decoder.decode_congr within view fun k inside => held k (by omega) (by omega)
    rw [← String.length_toList] at short
    show (if d.size ≤ count then (d.size, _) else _) = (d.size, if d.size ≤ count then _ else _)
    rw [if_pos complete, if_pos complete, same, List.take_of_length_le short,
      String.ofList_toList]
  · show (if d.size ≤ count then _ else _) = (d.size, if d.size ≤ count then _ else _)
    rw [if_neg complete, if_neg complete]
    rfl

end Holds

/-- What is no capture at all, or too long for one, is refused with an empty text. -/
theorem captured_refused (c : Cpu) (pc : Word) (bytes : Fin 3 → Byte) {count : Nat}
    (out : count = 0 ∨ 3 < count) : em8051DecodeCaptured c pc bytes count = (0, "") := by
  rw [em8051DecodeCaptured, if_pos out]

end Emu80535
