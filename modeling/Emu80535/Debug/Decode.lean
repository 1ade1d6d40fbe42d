import Emu80535.Core.Disasm

/-! The windows of decoded instructions, and the history that decodes backwards. -/

namespace Emu80535

/-- `struct em8051_debug_decoded`. -/
structure Decoded where
  address : Word
  size : Nat
  valid : Bool
  text : String
  deriving DecidableEq, Repr

/-- `enum em8051_debug_status`, as far as a decode window answers it. -/
inductive DecodeStatus where
  | ok
  | invalidArgument
  | range
  | internal
  deriving DecidableEq, Repr

/-- `struct emu_decode_cache`: the instruction before an address, where it is known. -/
structure DecodeCache where
  predecessor : Word → Word
  known : Word → Bool

/-- `EM8051_DEBUG_MAX_DECODE_INSTRUCTIONS`. -/
abbrev maxDecodeInstructions : Nat := 256

/-- `CODE_SIZE`. -/
abbrev codeSize : Nat := 65536

/-- `emu_decode_clear`. -/
def emuDecodeClear (cache : DecodeCache) : DecodeCache := { cache with known := fun _ => false }

/-- One entry of the history. -/
def DecodeCache.note (cache : DecodeCache) (address predecessor : Word) : DecodeCache where
  predecessor := Function.update cache.predecessor address predecessor
  known := Function.update cache.known address true

/-- `emu_decode_completed`: an instruction that went on to the one behind it. -/
def emuDecodeCompleted (cache : DecodeCache) (pc : Word) (size : Nat) (resultingPc : Word) :
    DecodeCache :=
  let sequential := pc.toNat + size
  -- Only an instruction that went on to the next one tells where it began.
  if size ≠ 0 ∧ sequential < codeSize ∧ resultingPc.toNat = sequential then
    cache.note (BitVec.ofNat 16 sequential) pc
  else cache

/-- `decode_record`. -/
def decodeRecord (c : Cpu) (address : Nat) : Except DecodeStatus Decoded :=
  if 0xFFFF < address then .error .range
  else
    let decoded := emuDecodeAt c (BitVec.ofNat 16 address)
    -- The last byte of the instruction must lie in the code space.
    if decoded.1 = 0 ∨ codeSize < address + decoded.1 then .error .range
    else
      .ok
        { address := BitVec.ofNat 16 address
          size := decoded.1
          valid := true
          text := decoded.2 }

/-- `invalid_record`. -/
def invalidRecord (address : Word) : Decoded where
  address := address
  size := 1
  valid := false
  text := "<invalid>"

/-! ### Backwards -/

/-- The variables of the backward loop: how far it is, and the last records it has found. -/
structure Backward where
  cursor : Nat
  known : Bool
  temporary : Nat → Decoded

/-- One pass of the backward loop of `emu_decode_window`. -/
def backwardStep (c : Cpu) (cache : DecodeCache) (predecessorCount temporaryCount : Nat)
    (b : Backward) (step : Nat) : Except DecodeStatus Backward :=
  let place (cursor : Nat) (known : Bool) (record : Decoded) : Backward :=
    { cursor
      known
      temporary :=
        -- Only the records that the window can hold are kept, the farthest one first.
        if predecessorCount - temporaryCount ≤ step then
          Function.update b.temporary (predecessorCount - step - 1) record
        else b.temporary }
  let cursor := BitVec.ofNat 16 b.cursor
  -- The history is followed while it has an entry for the cursor.
  if b.known && cache.known cursor then do
    let record ← decodeRecord c (cache.predecessor cursor).toNat
    .ok (place (cache.predecessor cursor).toNat true record)
  -- A placeholder is one byte long, so the search ends at address zero.
  else if b.cursor = 0 then .error .range
  else .ok (place (b.cursor - 1) false (invalidRecord (BitVec.ofNat 16 (b.cursor - 1))))

/-- The backward loop of `emu_decode_window`. -/
def backward (c : Cpu) (cache : DecodeCache) (predecessorCount temporaryCount base : Nat) :
    Except DecodeStatus Backward :=
  (List.range predecessorCount).foldlM (backwardStep c cache predecessorCount temporaryCount)
    { cursor := base, known := true, temporary := fun _ => invalidRecord 0#16 }

/-! ### Forwards -/

/-- One pass of the loop of `emu_decode_window` that skips instructions. -/
def skipStep (c : Cpu) (cursor : Nat) : Except DecodeStatus Nat := do
  let skipped ← decodeRecord c cursor
  -- The next instruction has to begin inside the code space.
  if 0xFFFF < cursor + skipped.size then .error .range
  else .ok (cursor + skipped.size)

/-- The loop of `emu_decode_window` that skips instructions. -/
def skipInstructions (c : Cpu) (instructions base : Nat) : Except DecodeStatus Nat :=
  (List.range instructions).foldlM (fun cursor _ => skipStep c cursor) base

/--
The last loop of `emu_decode_window`, for a number of records still to come.

It answers the records and the staged entries of the history, addresses with their predecessors.
-/
def decodeRecords (c : Cpu) : Nat → Nat → Except DecodeStatus (List Decoded × List (Word × Word))
  | 0, _ => .ok ([], [])
  | remaining + 1, cursor => do
    let record ← decodeRecord c cursor
    let next := cursor + record.size
    -- The entry of the next address is staged, and committed with the window.
    let staged :=
      if next < codeSize then [(BitVec.ofNat 16 next, BitVec.ofNat 16 cursor)] else []
    -- A record is missing behind the end of the code space.
    if 0 < remaining ∧ 0xFFFF < next then .error .range
    else
      let rest ← decodeRecords c remaining next
      .ok (record :: rest.1, staged ++ rest.2)

/-! ### Windows -/

/--
`emu_decode_window` up to its commit: the staged records and the staged entries of the history.

The last two arguments are whether the temporary records can be allocated, and the count.
-/
def stageWindow (c : Cpu) (cache : DecodeCache) (reference : Word)
    (byteOffset instructionOffset : Int) (allocated : Bool) (count : Nat) :
    Except DecodeStatus (List Decoded × List (Word × Word)) :=
  if count = 0 ∨ maxDecodeInstructions < count ∨ byteOffset < -65536 ∨ 65536 < byteOffset ∨
      instructionOffset < -65536 ∨ 65536 < instructionOffset then .error .invalidArgument
  else
    let base := reference.toNat + byteOffset
    -- The base may lie outside the code space on either side.
    if base < 0 ∨ 0xFFFF < base then .error .range
    -- A window before its base begins with what the history finds there.
    else if instructionOffset < 0 then do
      let predecessorCount := (-instructionOffset).toNat
      let temporaryCount := min predecessorCount count
      -- The temporary records are the only memory that is allocated.
      if temporaryCount ≠ 0 ∧ allocated = false then .error .internal
      else
        let b ← backward c cache predecessorCount temporaryCount base.toNat
        let rest ← decodeRecords c (count - temporaryCount) base.toNat
        .ok ((List.range temporaryCount).map b.temporary ++ rest.1, rest.2)
    else do
      let cursor ← skipInstructions c instructionOffset.toNat base.toNat
      decodeRecords c count cursor

/-- What a call of `emu_decode_window` answers and leaves behind. -/
structure WindowResult where
  status : DecodeStatus
  cache : DecodeCache
  /-- The caller's records. -/
  records : Nat → Decoded

/-- `emu_decode_window`, which commits nothing before everything is staged. -/
def emuDecodeWindow (c : Cpu) (cache : DecodeCache) (reference : Word)
    (byteOffset instructionOffset : Int) (allocated : Bool) (count : Nat)
    (records : Nat → Decoded) : WindowResult :=
  match stageWindow c cache reference byteOffset instructionOffset allocated count with
  | .error status => { status, cache, records }
  | .ok (staged, entries) =>
    { status := .ok
      cache := entries.foldl (fun cache entry => cache.note entry.1 entry.2) cache
      records := fun i => staged[i]?.getD (records i) }

/-! ### Runs -/

/-- What can happen to a decode history and the code it is about. -/
inductive DecodeAction where
  /-- A new code image, by `em8051_debugger_load` or `load_cpu`. -/
  | load (image : Word → Byte)
  /-- `em8051_debugger_reset` or `reset_private`. -/
  | reset
  /-- An instruction at `pc` completed and left the program counter at `resultingPc`. -/
  | executed (pc resultingPc : Word)
  | window (reference : Word) (byteOffset instructionOffset : Int) (allocated : Bool)
      (count : Nat) (records : Nat → Decoded)

/-- A code image and the history kept about it. -/
structure Decoding where
  cpu : Cpu
  cache : DecodeCache

namespace Decoding

/-- The effect of one action. The size of an executed instruction is decoded where it begins. -/
def run (d : Decoding) : DecodeAction → Decoding
  | .load image => { cpu := { d.cpu with codeMem := image }, cache := emuDecodeClear d.cache }
  | .reset => { d with cache := emuDecodeClear d.cache }
  | .executed pc resultingPc =>
    { d with cache := emuDecodeCompleted d.cache pc (emuDecodeAt d.cpu pc).1 resultingPc }
  | .window reference byteOffset instructionOffset allocated count records =>
    { d with
      cache :=
        (emuDecodeWindow d.cpu d.cache reference byteOffset instructionOffset allocated count
          records).cache }

end Decoding

end Emu80535
