import Emu80535.Core.Host

/-! The decoders that turn instructions into text, and the table that dispatches to them. -/

namespace Emu80535

/-! ### Formatting -/

/-- `%02X`. -/
def hexByte (value : Byte) : String :=
  let digit (n : Nat) : Char := "0123456789ABCDEF".toList.getD n '?'
  String.ofList [digit (value.toNat / 16), digit (value.toNat % 16)]

/-- `%04X`. -/
def hexWord (value : Word) : String :=
  hexByte ((value >>> 8).setWidth 8) ++ hexByte (value.setWidth 8)

/-- `%+d` of a byte read as a signed number. -/
def signedText (value : Byte) : String :=
  if 0 ≤ value.toInt then "+" ++ toString value.toInt else toString value.toInt

/-! ### Names -/

/-- The special function registers of the classic 8051 that a bit address can designate. -/
def bitRegisterNames : List (Byte × String) :=
  [(0xE0#8, "ACC"), (0xF0#8, "B"), (0xD0#8, "PSW"), (0x81#8, "SP"), (0x82#8, "DPL"),
   (0x83#8, "DPH"), (0x80#8, "P0"), (0x90#8, "P1"), (0xA0#8, "P2"), (0xB0#8, "P3"),
   (0xB8#8, "IP"), (0xA8#8, "IE"), (0x89#8, "TMOD"), (0x88#8, "TCON"), (0x8C#8, "TH0"),
   (0x8A#8, "TL0"), (0x8D#8, "TH1"), (0x8B#8, "TL1"), (0x98#8, "SCON"), (0x87#8, "PCON")]

/-- The special function registers of the classic 8051. -/
def registerNames : List (Byte × String) := bitRegisterNames ++ [(0x99#8, "SBUF")]

/-- The registers the Siemens variant adds or renames. -/
def sabRegisterNames : List (Byte × String) :=
  [(0xA8#8, "IEN0"), (0xA9#8, "IP0"), (0xB8#8, "IEN1"), (0xB9#8, "IP1"), (0xC0#8, "IRCON"),
   (0xC1#8, "CCEN"), (0xC8#8, "T2CON"), (0xCA#8, "CRCL"), (0xCB#8, "CRCH"), (0xCC#8, "TL2"),
   (0xCD#8, "TH2"), (0xD8#8, "ADCON"), (0xD9#8, "ADDAT"), (0xDA#8, "DAPR"), (0xDB#8, "P6"),
   (0xE8#8, "P4"), (0xF8#8, "P5")]

/-- Those of them that a bit address can designate. -/
def sabBitRegisterNames : List (Byte × String) :=
  [(0xA8#8, "IEN0"), (0xB8#8, "IEN1"), (0xC0#8, "IRCON"), (0xC8#8, "T2CON"), (0xD8#8, "ADCON"),
   (0xE8#8, "P4"), (0xF8#8, "P5")]

/-- The name of a register, or its address where neither list has one. -/
def registerName (variant : Variant) (sab classic : List (Byte × String)) (address : Byte) :
    String :=
  let siemens := if variant = .sab80535 then sab.lookup address else none
  (siemens.or (classic.lookup address)).getD (hexByte address ++ "h")

/-- `mem_memonic_for_variant`. -/
def memMemonicForVariant (variant : Variant) (value : Byte) : String :=
  if 0x7F#8 < value then registerName variant sabRegisterNames registerNames value
  else hexByte value ++ "h"

/-- `bitaddr_memonic_for_variant`. -/
def bitaddrMemonicForVariant (variant : Variant) (value : Byte) : String :=
  let regname :=
    if 0x7F#8 < value then
      registerName variant sabBitRegisterNames bitRegisterNames (value &&& 0xF8#8)
    else hexByte (value >>> 3) ++ "h"
  regname ++ "." ++ toString (value &&& 7#8).toNat

/-! ### Decoders -/

/-- What the format string of a decoder is made of, with the argument each directive prints. -/
inductive Piece where
  | text (s : String)
  /-- `mem_memonic` of the operand at this offset. -/
  | mem (offset : Nat)
  /-- `bitaddr_memonic` of the first operand. -/
  | bitaddr
  /-- `#%02Xh` of the operand at this offset. -/
  | imm (offset : Nat)
  /-- `#%+d` of the operand at this offset. -/
  | rel (offset : Nat)
  /-- `@R%d`, the register from the low bit of the opcode. -/
  | indirRx
  /-- `R%d`, the register from the low three bits of the opcode. -/
  | rx
  /-- `%04Xh` of the target within the page of the following instruction. -/
  | page
  /-- `%04Xh` of both operands, the high byte first. -/
  | address
  /-- `#0%02X%02Xh` of both operands. -/
  | dptr
  /-- What `disasm_nop` prints, which also stands in the one unused slot. -/
  | nop
  deriving DecidableEq, Repr

namespace Piece

/-- What a piece prints for the instruction at a position. -/
def print (c : Cpu) (position : Word) : Piece → String
  | text s => s
  | mem offset => memMemonicForVariant c.variant (c.code (position + BitVec.ofNat 16 offset))
  | bitaddr => bitaddrMemonicForVariant c.variant (c.code (position + 1#16))
  | imm offset => "#" ++ hexByte (c.code (position + BitVec.ofNat 16 offset)) ++ "h"
  | rel offset => "#" ++ signedText (c.code (position + BitVec.ofNat 16 offset))
  | indirRx => "@R" ++ toString (c.code position &&& 1#8).toNat
  | rx => "R" ++ toString (c.code position &&& 7#8).toNat
  | page =>
    hexWord
      (((position + 2#16) &&& 0xF800#16) ||| (c.code (position + 1#16)).setWidth 16
        ||| ((c.code position &&& 0xE0#8).setWidth 16 <<< 3)) ++ "h"
  | address => hexWord (c.code (position + 1#16) ++ c.code (position + 2#16)) ++ "h"
  | dptr =>
    "#0" ++ hexByte (c.code (position + 1#16)) ++ hexByte (c.code (position + 2#16)) ++ "h"
  | nop => if c.code position ≠ 0#8 then "??UNKNOWN" else "NOP"

end Piece

/-- A decoder: the size it returns and the format of its text. -/
structure Decoder where
  size : Nat
  format : List Piece
  deriving DecidableEq, Repr

/-- What a decoder returns for the instruction at a position, and the text it writes. -/
def Decoder.decode (d : Decoder) (c : Cpu) (position : Word) : Nat × String :=
  (d.size, d.format.foldr (fun piece rest => piece.print c position ++ rest) "")

open Piece

/-- `disasm_ajmp_offset`. -/
def disasmAjmpOffset : Decoder := ⟨2, [text "AJMP  #", page]⟩

/-- `disasm_ljmp_address`. -/
def disasmLjmpAddress : Decoder := ⟨3, [text "LJMP  #", address]⟩

/-- `disasm_rr_a`. -/
def disasmRrA : Decoder := ⟨1, [text "RR    A"]⟩

/-- `disasm_inc_a`. -/
def disasmIncA : Decoder := ⟨1, [text "INC   A"]⟩

/-- `disasm_inc_mem`. -/
def disasmIncMem : Decoder := ⟨2, [text "INC   ", mem 1]⟩

/-- `disasm_inc_indir_rx`. -/
def disasmIncIndirRx : Decoder := ⟨1, [text "INC   ", indirRx]⟩

/-- `disasm_jbc_bitaddr_offset`. -/
def disasmJbcBitaddrOffset : Decoder := ⟨3, [text "JBC   ", bitaddr, text ", ", rel 2]⟩

/-- `disasm_acall_offset`. -/
def disasmAcallOffset : Decoder := ⟨2, [text "ACALL ", page]⟩

/-- `disasm_lcall_address`. -/
def disasmLcallAddress : Decoder := ⟨3, [text "LCALL #", address]⟩

/-- `disasm_rrc_a`. -/
def disasmRrcA : Decoder := ⟨1, [text "RRC   A"]⟩

/-- `disasm_dec_a`. -/
def disasmDecA : Decoder := ⟨1, [text "DEC   A"]⟩

/-- `disasm_dec_mem`. -/
def disasmDecMem : Decoder := ⟨2, [text "DEC   ", mem 1]⟩

/-- `disasm_dec_indir_rx`. -/
def disasmDecIndirRx : Decoder := ⟨1, [text "DEC   ", indirRx]⟩

/-- `disasm_jb_bitaddr_offset`. -/
def disasmJbBitaddrOffset : Decoder := ⟨3, [text "JB   ", bitaddr, text ", ", rel 2]⟩

/-- `disasm_ret`. -/
def disasmRet : Decoder := ⟨1, [text "RET"]⟩

/-- `disasm_rl_a`. -/
def disasmRlA : Decoder := ⟨1, [text "RL    A"]⟩

/-- `disasm_add_a_imm`. -/
def disasmAddAImm : Decoder := ⟨2, [text "ADD   A, ", imm 1]⟩

/-- `disasm_add_a_mem`. -/
def disasmAddAMem : Decoder := ⟨2, [text "ADD   A, ", mem 1]⟩

/-- `disasm_add_a_indir_rx`. -/
def disasmAddAIndirRx : Decoder := ⟨1, [text "ADD   A, ", indirRx]⟩

/-- `disasm_jnb_bitaddr_offset`. -/
def disasmJnbBitaddrOffset : Decoder := ⟨3, [text "JNB   ", bitaddr, text ", ", rel 2]⟩

/-- `disasm_reti`. -/
def disasmReti : Decoder := ⟨1, [text "RETI"]⟩

/-- `disasm_rlc_a`. -/
def disasmRlcA : Decoder := ⟨1, [text "RLC   A"]⟩

/-- `disasm_addc_a_imm`. -/
def disasmAddcAImm : Decoder := ⟨2, [text "ADDC  A, ", imm 1]⟩

/-- `disasm_addc_a_mem`. -/
def disasmAddcAMem : Decoder := ⟨2, [text "ADDC  A, ", mem 1]⟩

/-- `disasm_addc_a_indir_rx`. -/
def disasmAddcAIndirRx : Decoder := ⟨1, [text "ADDC  A, ", indirRx]⟩

/-- `disasm_jc_offset`. -/
def disasmJcOffset : Decoder := ⟨2, [text "JC    ", rel 1]⟩

/-- `disasm_orl_mem_a`. -/
def disasmOrlMemA : Decoder := ⟨2, [text "ORL   ", mem 1, text ", A"]⟩

/-- `disasm_orl_mem_imm`. -/
def disasmOrlMemImm : Decoder := ⟨3, [text "ORL   ", mem 1, text ", ", imm 2]⟩

/-- `disasm_orl_a_imm`. -/
def disasmOrlAImm : Decoder := ⟨2, [text "ORL   A, ", imm 1]⟩

/-- `disasm_orl_a_mem`. -/
def disasmOrlAMem : Decoder := ⟨2, [text "ORL   A, ", mem 1]⟩

/-- `disasm_orl_a_indir_rx`. -/
def disasmOrlAIndirRx : Decoder := ⟨1, [text "ORL   A, ", indirRx]⟩

/-- `disasm_jnc_offset`. -/
def disasmJncOffset : Decoder := ⟨2, [text "JNC   ", rel 1]⟩

/-- `disasm_anl_mem_a`. -/
def disasmAnlMemA : Decoder := ⟨2, [text "ANL   ", mem 1, text ", A"]⟩

/-- `disasm_anl_mem_imm`. -/
def disasmAnlMemImm : Decoder := ⟨3, [text "ANL   ", mem 1, text ", ", imm 2]⟩

/-- `disasm_anl_a_imm`. -/
def disasmAnlAImm : Decoder := ⟨2, [text "ANL   A, ", imm 1]⟩

/-- `disasm_anl_a_mem`. -/
def disasmAnlAMem : Decoder := ⟨2, [text "ANL   A, ", mem 1]⟩

/-- `disasm_anl_a_indir_rx`. -/
def disasmAnlAIndirRx : Decoder := ⟨1, [text "ANL   A, ", indirRx]⟩

/-- `disasm_jz_offset`. -/
def disasmJzOffset : Decoder := ⟨2, [text "JZ    ", rel 1]⟩

/-- `disasm_xrl_mem_a`. -/
def disasmXrlMemA : Decoder := ⟨2, [text "XRL   ", mem 1, text ", A"]⟩

/-- `disasm_xrl_mem_imm`. -/
def disasmXrlMemImm : Decoder := ⟨3, [text "XRL   ", mem 1, text ", ", imm 2]⟩

/-- `disasm_xrl_a_imm`. -/
def disasmXrlAImm : Decoder := ⟨2, [text "XRL   A, ", imm 1]⟩

/-- `disasm_xrl_a_mem`. -/
def disasmXrlAMem : Decoder := ⟨2, [text "XRL   A, ", mem 1]⟩

/-- `disasm_xrl_a_indir_rx`. -/
def disasmXrlAIndirRx : Decoder := ⟨1, [text "XRL   A, ", indirRx]⟩

/-- `disasm_jnz_offset`. -/
def disasmJnzOffset : Decoder := ⟨2, [text "JNZ   ", rel 1]⟩

/-- `disasm_orl_c_bitaddr`. -/
def disasmOrlCBitaddr : Decoder := ⟨2, [text "ORL   C, ", bitaddr]⟩

/-- `disasm_jmp_indir_a_dptr`. -/
def disasmJmpIndirADptr : Decoder := ⟨1, [text "JMP   @A+DPTR"]⟩

/-- `disasm_mov_a_imm`. -/
def disasmMovAImm : Decoder := ⟨2, [text "MOV   A, ", imm 1]⟩

/-- `disasm_mov_mem_imm`. -/
def disasmMovMemImm : Decoder := ⟨3, [text "MOV   ", mem 1, text ", ", imm 2]⟩

/-- `disasm_mov_indir_rx_imm`. -/
def disasmMovIndirRxImm : Decoder := ⟨2, [text "MOV   ", indirRx, text ", ", imm 1]⟩

/-- `disasm_sjmp_offset`. -/
def disasmSjmpOffset : Decoder := ⟨2, [text "SJMP  ", rel 1]⟩

/-- `disasm_anl_c_bitaddr`. -/
def disasmAnlCBitaddr : Decoder := ⟨2, [text "ANL   C, ", bitaddr]⟩

/-- `disasm_movc_a_indir_a_pc`. -/
def disasmMovcAIndirAPc : Decoder := ⟨1, [text "MOVC  A, @A+PC"]⟩

/-- `disasm_div_ab`. -/
def disasmDivAb : Decoder := ⟨1, [text "DIV   AB"]⟩

/-- `disasm_mov_mem_mem`, which prints its operands the other way round than they are stored. -/
def disasmMovMemMem : Decoder := ⟨3, [text "MOV   ", mem 2, text ", ", mem 1]⟩

/-- `disasm_mov_mem_indir_rx`. -/
def disasmMovMemIndirRx : Decoder := ⟨2, [text "MOV   ", mem 1, text ", ", indirRx]⟩

/-- `disasm_mov_dptr_imm`. -/
def disasmMovDptrImm : Decoder := ⟨3, [text "MOV   DPTR, ", dptr]⟩

/-- `disasm_mov_bitaddr_c`. -/
def disasmMovBitaddrC : Decoder := ⟨2, [text "MOV   ", bitaddr, text ", C"]⟩

/-- `disasm_movc_a_indir_a_dptr`. -/
def disasmMovcAIndirADptr : Decoder := ⟨1, [text "MOVC  A, @A+DPTR"]⟩

/-- `disasm_subb_a_imm`. -/
def disasmSubbAImm : Decoder := ⟨2, [text "SUBB  A, ", imm 1]⟩

/-- `disasm_subb_a_mem`. -/
def disasmSubbAMem : Decoder := ⟨2, [text "SUBB  A, ", mem 1]⟩

/-- `disasm_subb_a_indir_rx`. -/
def disasmSubbAIndirRx : Decoder := ⟨1, [text "SUBB  A, ", indirRx]⟩

/-- `disasm_orl_c_compl_bitaddr`. -/
def disasmOrlCComplBitaddr : Decoder := ⟨2, [text "ORL   C, /", bitaddr]⟩

/-- `disasm_mov_c_bitaddr`. -/
def disasmMovCBitaddr : Decoder := ⟨2, [text "MOV   C, ", bitaddr]⟩

/-- `disasm_inc_dptr`. -/
def disasmIncDptr : Decoder := ⟨1, [text "INC   DPTR"]⟩

/-- `disasm_mul_ab`. -/
def disasmMulAb : Decoder := ⟨1, [text "MUL   AB"]⟩

/-- `disasm_mov_indir_rx_mem`. -/
def disasmMovIndirRxMem : Decoder := ⟨2, [text "MOV   ", indirRx, text ", ", mem 1]⟩

/-- `disasm_anl_c_compl_bitaddr`. -/
def disasmAnlCComplBitaddr : Decoder := ⟨2, [text "ANL   C, /", bitaddr]⟩

/-- `disasm_cpl_bitaddr`. -/
def disasmCplBitaddr : Decoder := ⟨2, [text "CPL   ", bitaddr]⟩

/-- `disasm_cpl_c`. -/
def disasmCplC : Decoder := ⟨1, [text "CPL   C"]⟩

/-- `disasm_cjne_a_imm_offset`. -/
def disasmCjneAImmOffset : Decoder := ⟨3, [text "CJNE  A, ", imm 1, text ", ", rel 2]⟩

/-- `disasm_cjne_a_mem_offset`. -/
def disasmCjneAMemOffset : Decoder := ⟨3, [text "CJNE  A, ", mem 1, text ", ", rel 2]⟩

/-- `disasm_cjne_indir_rx_imm_offset`. -/
def disasmCjneIndirRxImmOffset : Decoder :=
  ⟨3, [text "CJNE  ", indirRx, text ", ", imm 1, text ", ", rel 2]⟩

/-- `disasm_push_mem`. -/
def disasmPushMem : Decoder := ⟨2, [text "PUSH  ", mem 1]⟩

/-- `disasm_clr_bitaddr`. -/
def disasmClrBitaddr : Decoder := ⟨2, [text "CLR   ", bitaddr]⟩

/-- `disasm_clr_c`. -/
def disasmClrC : Decoder := ⟨1, [text "CLR   C"]⟩

/-- `disasm_swap_a`. -/
def disasmSwapA : Decoder := ⟨1, [text "SWAP  A"]⟩

/-- `disasm_xch_a_mem`. -/
def disasmXchAMem : Decoder := ⟨2, [text "XCH   A, ", mem 1]⟩

/-- `disasm_xch_a_indir_rx`. -/
def disasmXchAIndirRx : Decoder := ⟨1, [text "XCH   A, ", indirRx]⟩

/-- `disasm_pop_mem`. -/
def disasmPopMem : Decoder := ⟨2, [text "POP   ", mem 1]⟩

/-- `disasm_setb_bitaddr`. -/
def disasmSetbBitaddr : Decoder := ⟨2, [text "SETB  ", bitaddr]⟩

/-- `disasm_setb_c`. -/
def disasmSetbC : Decoder := ⟨1, [text "SETB  C"]⟩

/-- `disasm_da_a`. -/
def disasmDaA : Decoder := ⟨1, [text "DA    A"]⟩

/-- `disasm_djnz_mem_offset`. -/
def disasmDjnzMemOffset : Decoder := ⟨3, [text "DJNZ  ", mem 1, text ", ", rel 2]⟩

/-- `disasm_xchd_a_indir_rx`. -/
def disasmXchdAIndirRx : Decoder := ⟨1, [text "XCHD  A, ", indirRx]⟩

/-- `disasm_movx_a_indir_dptr`. -/
def disasmMovxAIndirDptr : Decoder := ⟨1, [text "MOVX  A, @DPTR"]⟩

/-- `disasm_movx_a_indir_rx`. -/
def disasmMovxAIndirRx : Decoder := ⟨1, [text "MOVX  A, ", indirRx]⟩

/-- `disasm_clr_a`. -/
def disasmClrA : Decoder := ⟨1, [text "CLR   A"]⟩

/-- `disasm_mov_a_mem`. -/
def disasmMovAMem : Decoder := ⟨2, [text "MOV   A, ", mem 1]⟩

/-- `disasm_mov_a_indir_rx`. -/
def disasmMovAIndirRx : Decoder := ⟨1, [text "MOV   A, ", indirRx]⟩

/-- `disasm_movx_indir_dptr_a`. -/
def disasmMovxIndirDptrA : Decoder := ⟨1, [text "MOVX  @DPTR, A"]⟩

/-- `disasm_movx_indir_rx_a`. -/
def disasmMovxIndirRxA : Decoder := ⟨1, [text "MOVX  ", indirRx, text ", A"]⟩

/-- `disasm_cpl_a`. -/
def disasmCplA : Decoder := ⟨1, [text "CPL   A"]⟩

/-- `disasm_mov_mem_a`. -/
def disasmMovMemA : Decoder := ⟨2, [text "MOV   ", mem 1, text ", A"]⟩

/-- `disasm_mov_indir_rx_a`. -/
def disasmMovIndirRxA : Decoder := ⟨1, [text "MOV   ", indirRx, text ", A"]⟩

/-- `disasm_nop`. -/
def disasmNop : Decoder := ⟨1, [Piece.nop]⟩

/-- `disasm_inc_rx`. -/
def disasmIncRx : Decoder := ⟨1, [text "INC   ", rx]⟩

/-- `disasm_dec_rx`. -/
def disasmDecRx : Decoder := ⟨1, [text "DEC   ", rx]⟩

/-- `disasm_add_a_rx`. -/
def disasmAddARx : Decoder := ⟨1, [text "ADD   A, ", rx]⟩

/-- `disasm_addc_a_rx`. -/
def disasmAddcARx : Decoder := ⟨1, [text "ADDC  A, ", rx]⟩

/-- `disasm_orl_a_rx`. -/
def disasmOrlARx : Decoder := ⟨1, [text "ORL   A, ", rx]⟩

/-- `disasm_anl_a_rx`. -/
def disasmAnlARx : Decoder := ⟨1, [text "ANL   A, ", rx]⟩

/-- `disasm_xrl_a_rx`. -/
def disasmXrlARx : Decoder := ⟨1, [text "XRL   A, ", rx]⟩

/-- `disasm_mov_rx_imm`. -/
def disasmMovRxImm : Decoder := ⟨2, [text "MOV   ", rx, text ", ", imm 1]⟩

/-- `disasm_mov_mem_rx`. -/
def disasmMovMemRx : Decoder := ⟨2, [text "MOV   ", mem 1, text ", ", rx]⟩

/-- `disasm_subb_a_rx`. -/
def disasmSubbARx : Decoder := ⟨1, [text "SUBB  A, ", rx]⟩

/-- `disasm_mov_rx_mem`. -/
def disasmMovRxMem : Decoder := ⟨2, [text "MOV   ", rx, text ", ", mem 1]⟩

/-- `disasm_cjne_rx_imm_offset`. -/
def disasmCjneRxImmOffset : Decoder :=
  ⟨3, [text "CJNE  ", rx, text ", ", imm 1, text ", ", rel 2]⟩

/-- `disasm_xch_a_rx`. -/
def disasmXchARx : Decoder := ⟨1, [text "XCH   A, ", rx]⟩

/-- `disasm_djnz_rx_offset`. -/
def disasmDjnzRxOffset : Decoder := ⟨2, [text "DJNZ  ", rx, text ", ", rel 1]⟩

/-- `disasm_mov_a_rx`. -/
def disasmMovARx : Decoder := ⟨1, [text "MOV   A, ", rx]⟩

/-- `disasm_mov_rx_a`. -/
def disasmMovRxA : Decoder := ⟨1, [text "MOV   ", rx, text ", A"]⟩

/-! ### Dispatch -/

/-- The register forms, which `disasm_setptrs` installs in the upper half of each row. -/
def disasmRxRow : List Decoder :=
  [disasmIncRx, disasmDecRx, disasmAddARx, disasmAddcARx, disasmOrlARx, disasmAnlARx,
   disasmXrlARx, disasmMovRxImm, disasmMovMemRx, disasmSubbARx, disasmMovRxMem,
   disasmCjneRxImmOffset, disasmXchARx, disasmDjnzRxOffset, disasmMovARx, disasmMovRxA]

/-- The lower half of each row of the decoder table. -/
def disasmRows : List (List Decoder) :=
  [[disasmNop, disasmAjmpOffset, disasmLjmpAddress, disasmRrA, disasmIncA, disasmIncMem,
     disasmIncIndirRx, disasmIncIndirRx],
   [disasmJbcBitaddrOffset, disasmAcallOffset, disasmLcallAddress, disasmRrcA, disasmDecA,
     disasmDecMem, disasmDecIndirRx, disasmDecIndirRx],
   [disasmJbBitaddrOffset, disasmAjmpOffset, disasmRet, disasmRlA, disasmAddAImm, disasmAddAMem,
     disasmAddAIndirRx, disasmAddAIndirRx],
   [disasmJnbBitaddrOffset, disasmAcallOffset, disasmReti, disasmRlcA, disasmAddcAImm,
     disasmAddcAMem, disasmAddcAIndirRx, disasmAddcAIndirRx],
   [disasmJcOffset, disasmAjmpOffset, disasmOrlMemA, disasmOrlMemImm, disasmOrlAImm,
     disasmOrlAMem, disasmOrlAIndirRx, disasmOrlAIndirRx],
   [disasmJncOffset, disasmAcallOffset, disasmAnlMemA, disasmAnlMemImm, disasmAnlAImm,
     disasmAnlAMem, disasmAnlAIndirRx, disasmAnlAIndirRx],
   [disasmJzOffset, disasmAjmpOffset, disasmXrlMemA, disasmXrlMemImm, disasmXrlAImm,
     disasmXrlAMem, disasmXrlAIndirRx, disasmXrlAIndirRx],
   [disasmJnzOffset, disasmAcallOffset, disasmOrlCBitaddr, disasmJmpIndirADptr, disasmMovAImm,
     disasmMovMemImm, disasmMovIndirRxImm, disasmMovIndirRxImm],
   [disasmSjmpOffset, disasmAjmpOffset, disasmAnlCBitaddr, disasmMovcAIndirAPc, disasmDivAb,
     disasmMovMemMem, disasmMovMemIndirRx, disasmMovMemIndirRx],
   [disasmMovDptrImm, disasmAcallOffset, disasmMovBitaddrC, disasmMovcAIndirADptr,
     disasmSubbAImm, disasmSubbAMem, disasmSubbAIndirRx, disasmSubbAIndirRx],
   [disasmOrlCComplBitaddr, disasmAjmpOffset, disasmMovCBitaddr, disasmIncDptr, disasmMulAb,
     disasmNop, disasmMovIndirRxMem, disasmMovIndirRxMem],
   [disasmAnlCComplBitaddr, disasmAcallOffset, disasmCplBitaddr, disasmCplC, disasmCjneAImmOffset,
     disasmCjneAMemOffset, disasmCjneIndirRxImmOffset, disasmCjneIndirRxImmOffset],
   [disasmPushMem, disasmAjmpOffset, disasmClrBitaddr, disasmClrC, disasmSwapA, disasmXchAMem,
     disasmXchAIndirRx, disasmXchAIndirRx],
   [disasmPopMem, disasmAcallOffset, disasmSetbBitaddr, disasmSetbC, disasmDaA,
     disasmDjnzMemOffset, disasmXchdAIndirRx, disasmXchdAIndirRx],
   [disasmMovxAIndirDptr, disasmAjmpOffset, disasmMovxAIndirRx, disasmMovxAIndirRx, disasmClrA,
     disasmMovAMem, disasmMovAIndirRx, disasmMovAIndirRx],
   [disasmMovxIndirDptrA, disasmAcallOffset, disasmMovxIndirRxA, disasmMovxIndirRxA, disasmCplA,
     disasmMovMemA, disasmMovIndirRxA, disasmMovIndirRxA]]

/-- The table `disasm_setptrs` builds. -/
def decTable (opcode : Byte) : Decoder :=
  let row := (opcode >>> 4).toNat
  if has opcode 0x08#8 then disasmRxRow[row]?.getD disasmNop
  else (disasmRows[row]?.bind fun decoders => decoders[(opcode &&& 7#8).toNat]?).getD disasmNop

/-- `emu_decode_at`. -/
def emuDecodeAt (c : Cpu) (address : Word) : Nat × String :=
  (decTable (c.codeMem address)).decode c address

/-! ### Captured instructions -/

/-- The circular view of four bytes that holds what has been captured from a position on. -/
def capturedView (variant : Variant) (pc : Word) (bytes : Fin 3 → Byte) (count : Nat) : Cpu :=
  { Cpu.blank with
    variant
    codeMem := (List.finRange 3).foldl
      (fun (code : Word → Byte) (i : Fin 3) =>
        if i.val < count then Function.update code ((pc + BitVec.ofNat 16 i) &&& 3#16) (bytes i)
        else code)
      fun _ => 0#8
    codeMemMaxIdx := 3#16 }

/-- `em8051_decode_captured`, whose text holds 96 characters at most. -/
def em8051DecodeCaptured (c : Cpu) (pc : Word) (bytes : Fin 3 → Byte) (count : Nat) :
    Nat × String :=
  if count = 0 ∨ 3 < count then (0, "")
  else
    let view := capturedView c.variant pc bytes count
    let decoded := (decTable (bytes 0)).decode view pc
    if decoded.1 ≤ count then (decoded.1, String.ofList (decoded.2.toList.take 96))
    else (decoded.1, "")

end Emu80535
