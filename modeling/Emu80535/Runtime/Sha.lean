import Emu80535.Core.State
import Mathlib

/-! The SHA-256 that identifies images and configurations. -/

namespace Emu80535

/-- `gSHA256Constants`. -/
def sha256Constants : Vector (BitVec 32) 64 :=
  #v[0x428a2f98#32, 0x71374491#32, 0xb5c0fbcf#32, 0xe9b5dba5#32,
    0x3956c25b#32, 0x59f111f1#32, 0x923f82a4#32, 0xab1c5ed5#32,
    0xd807aa98#32, 0x12835b01#32, 0x243185be#32, 0x550c7dc3#32,
    0x72be5d74#32, 0x80deb1fe#32, 0x9bdc06a7#32, 0xc19bf174#32,
    0xe49b69c1#32, 0xefbe4786#32, 0x0fc19dc6#32, 0x240ca1cc#32,
    0x2de92c6f#32, 0x4a7484aa#32, 0x5cb0a9dc#32, 0x76f988da#32,
    0x983e5152#32, 0xa831c66d#32, 0xb00327c8#32, 0xbf597fc7#32,
    0xc6e00bf3#32, 0xd5a79147#32, 0x06ca6351#32, 0x14292967#32,
    0x27b70a85#32, 0x2e1b2138#32, 0x4d2c6dfc#32, 0x53380d13#32,
    0x650a7354#32, 0x766a0abb#32, 0x81c2c92e#32, 0x92722c85#32,
    0xa2bfe8a1#32, 0xa81a664b#32, 0xc24b8b70#32, 0xc76c51a3#32,
    0xd192e819#32, 0xd6990624#32, 0xf40e3585#32, 0x106aa070#32,
    0x19a4c116#32, 0x1e376c08#32, 0x2748774c#32, 0x34b0bcb5#32,
    0x391c0cb3#32, 0x4ed8aa4a#32, 0x5b9cca4f#32, 0x682e6ff3#32,
    0x748f82ee#32, 0x78a5636f#32, 0x84c87814#32, 0x8cc70208#32,
    0x90befffa#32, 0xa4506ceb#32, 0xbef9a3f7#32, 0xc67178f2#32]

/-- `struct sha256_context`. -/
structure Sha256Context where
  state : Vector (BitVec 32) 8
  bitCount : BitVec 64
  block : Vector Byte 64
  used : Nat
  deriving Inhabited

/-- `rotate_right`. -/
def rotateRight (value : BitVec 32) (bits : Nat) : BitVec 32 :=
  value >>> bits ||| value <<< (32 - bits)

/-! ### `sha256_transform` -/

/-- A word of the block, as the first loop reads it. -/
def sha256Word (block : Vector Byte 64) (i : Fin 16) : BitVec 32 :=
  (block[i.val * 4].setWidth 32) <<< 24 ||| (block[i.val * 4 + 1].setWidth 32) <<< 16 |||
    (block[i.val * 4 + 2].setWidth 32) <<< 8 ||| block[i.val * 4 + 3].setWidth 32

/-- The word that the second loop makes of those before it. -/
def sha256NextWord {i : Nat} (words : Vector (BitVec 32) i) (late : ¬i < 16) : BitVec 32 :=
  let s0 := rotateRight words[i - 15] 7 ^^^ rotateRight words[i - 15] 18 ^^^ words[i - 15] >>> 3
  let s1 := rotateRight words[i - 2] 17 ^^^ rotateRight words[i - 2] 19 ^^^ words[i - 2] >>> 10
  words[i - 16] + s0 + words[i - 7] + s1

/-- The words that the first two loops have written after so many rounds. -/
def sha256Words (block : Vector Byte 64) : (i : Nat) → Vector (BitVec 32) i
  | 0 => #v[]
  | i + 1 =>
    let words := sha256Words block i
    -- The first sixteen words are read from the block, the others computed.
    words.push
      (if first : i < 16 then sha256Word block ⟨i, first⟩ else sha256NextWord words first)

/-- The locals `a` to `h`. -/
structure Sha256Locals where
  a : BitVec 32
  b : BitVec 32
  c : BitVec 32
  d : BitVec 32
  e : BitVec 32
  f : BitVec 32
  g : BitVec 32
  h : BitVec 32

/-- A round of the third loop. -/
def sha256Round (constant word : BitVec 32) (v : Sha256Locals) : Sha256Locals :=
  -- The names are those of the locals in the source.
  let s1 := rotateRight v.e 6 ^^^ rotateRight v.e 11 ^^^ rotateRight v.e 25
  let choice := (v.e &&& v.f) ^^^ (~~~v.e &&& v.g)
  let temp1 := v.h + s1 + choice + constant + word
  let s0 := rotateRight v.a 2 ^^^ rotateRight v.a 13 ^^^ rotateRight v.a 22
  let majority := (v.a &&& v.b) ^^^ (v.a &&& v.c) ^^^ (v.b &&& v.c)
  let temp2 := s0 + majority
  { h := v.g, g := v.f, f := v.e, e := v.d + temp1,
    d := v.c, c := v.b, b := v.a, a := temp1 + temp2 }

/-- `sha256_transform`, which changes the state alone. -/
def sha256Transform (block : Vector Byte 64) (state : Vector (BitVec 32) 8) :
    Vector (BitVec 32) 8 :=
  let words := sha256Words block 64
  let start : Sha256Locals :=
    ⟨state[0], state[1], state[2], state[3], state[4], state[5], state[6], state[7]⟩
  let v := Fin.foldl 64 (fun v i => sha256Round sha256Constants[i] words[i] v) start
  #v[state[0] + v.a, state[1] + v.b, state[2] + v.c, state[3] + v.d,
    state[4] + v.e, state[5] + v.f, state[6] + v.g, state[7] + v.h]

/-! ### Contexts -/

/-- `sha256_init`, which leaves the block as it is. -/
def sha256Init (context : Sha256Context) : Sha256Context :=
  { context with
    state := #v[0x6a09e667#32, 0xbb67ae85#32, 0x3c6ef372#32, 0xa54ff53a#32,
      0x510e527f#32, 0x9b05688c#32, 0x1f83d9ab#32, 0x5be0cd19#32]
    bitCount := 0#64
    used := 0 }

namespace Sha256Context

/-- `memcpy` into the block behind what is used of it. -/
def copy (piece : List Byte) (c : Sha256Context) : Sha256Context :=
  { c with
    block := Vector.ofFn fun i =>
      if c.used ≤ i ∧ i < c.used + piece.length then piece.getD (i - c.used) 0#8 else c.block[i]
    used := c.used + piece.length }

/-- A byte put behind what is used of the block. -/
def put (b : Byte) (c : Sha256Context) : Sha256Context :=
  { c with block := c.block.setIfInBounds c.used b, used := c.used + 1 }

/-- The block transformed into the state. -/
def transform (c : Sha256Context) : Sha256Context :=
  { c with state := sha256Transform c.block c.state }

/-- Zeros put up to a bound, which takes a loop as many rounds as are missing. -/
def putZeros (bound : Nat) (c : Sha256Context) : Sha256Context :=
  (List.range (bound - c.used)).foldl (fun c _ => c.put 0#8) c

/-- The eight bytes of the length, which the loop writes from the end of the block. -/
def putLength (totalBits : BitVec 64) (c : Sha256Context) : Sha256Context :=
  { c with
    block := Fin.foldl 8
      (fun block i => block.set (63 - i.val) ((totalBits >>> (i.val * 8)).setWidth 8)) c.block }

end Sha256Context

/-- A round of the loop of `sha256_update`, which takes what still fits the block. -/
def sha256Take (data : List Byte) (context : Sha256Context) : Sha256Context :=
  let taken := context.copy (data.take (64 - context.used))
  -- A block that is full is transformed at once.
  if taken.used = 64 then
    { taken.transform with bitCount := taken.bitCount + 512#64, used := 0 }
  else taken

/-- The loop of `sha256_update` in so many rounds. -/
def sha256Updating : Nat → List Byte → Sha256Context → Option Sha256Context
  | 0, _, _ => none
  | fuel + 1, data, context =>
    if data.length = 0 then some context
    else sha256Updating fuel (data.drop (64 - context.used)) (sha256Take data context)

/-- `sha256_update`, with no answer where it loops for too long. -/
def sha256Update (data : List Byte) (context : Sha256Context) : Option Sha256Context :=
  sha256Updating (data.length + 1) data context

/-- `sha256_final`, by the digest it writes. -/
def sha256Final (context : Sha256Context) : List Byte :=
  let totalBits := context.bitCount + BitVec.ofNat 64 context.used * 8#64
  -- The padding begins with one bit, in the byte behind the data.
  let ended := context.put 0x80#8
  let roomy :=
    -- Without room for the length the block is filled up and transformed first.
    if 56 < ended.used then { (ended.putZeros 64).transform with used := 0 } else ended
  let state := ((roomy.putZeros 56).putLength totalBits).transform.state
  state.toList.flatMap fun (w : BitVec 32) =>
    [(w >>> 24).setWidth 8, (w >>> 16).setWidth 8, (w >>> 8).setWidth 8, w.setWidth 8]

/-- `digits[value]` of `sha256_hex`. -/
def sha256Digit (value : Nat) : Byte :=
  BitVec.ofNat 8 ("0123456789abcdef".toList.getD value 'x').toNat

/-- `sha256_hex` of data, in a context of any content. -/
def sha256Hex (data : List Byte) (context : Sha256Context) : Option (List Byte) :=
  (sha256Update data (sha256Init context)).map fun context =>
    ((sha256Final context).flatMap fun (b : Byte) =>
      [sha256Digit (b >>> 4).toNat, sha256Digit (b &&& 0x0f#8).toNat]) ++ [0#8]

end Emu80535
