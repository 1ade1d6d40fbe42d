import Emu80535.Runtime.Sha
import Emu80535.Lib.Sha256

/-! The digests of the emulator are those of FIPS 180-4, however the message comes in pieces. -/

namespace Emu80535

/-! ### The transformation of a block -/

section Transform

/-- The table holds the roots of the first 64 primes. -/
theorem sha256Constants_eq (t : Fin 64) : sha256Constants.get t = Sha256.constant t := by
  have roots : ∀ t : Fin 64,
      sha256Constants.get t =
        BitVec.ofNat 32 (Nat.nthRoot 3 (Sha256.primes.get t * 2 ^ 96)) := by
    decide +kernel
  rw [roots, Sha256.constant, Sha256.nth_prime]

/-- So does the initial state for the first eight. -/
theorem sha256Init_state (context : Sha256Context) :
    (sha256Init context).state = Sha256.initial := by
  -- The constants of the source are the fractional parts of the first eight square roots.
  have roots : ∀ i : Fin 8, (#v[0x6a09e667#32, 0xbb67ae85#32, 0x3c6ef372#32, 0xa54ff53a#32,
      0x510e527f#32, 0x9b05688c#32, 0x1f83d9ab#32, 0x5be0cd19#32] : Vector (BitVec 32) 8)[i] =
        BitVec.ofNat 32
          (Nat.sqrt (Sha256.primes.get (i.castLE (show 8 ≤ 64 by decide)) * 2 ^ 64)) := by
    decide +kernel
  refine Vector.ext fun i inside => ?_
  rw [Sha256.initial, Vector.getElem_ofFn]
  exact (roots ⟨i, inside⟩).trans
    (by rw [← Sha256.nth_prime (Fin.castLE (by decide) ⟨i, inside⟩)]; rfl)

/-- A rotation by less than a word is the one of the specification. -/
theorem rotateRight_eq (value : BitVec 32) {bits : Nat} (small : bits < 32) :
    rotateRight value bits = value.rotateRight bits := by
  rw [BitVec.rotateRight, BitVec.rotateRightAux, Nat.mod_eq_of_lt small]
  rfl

/-- A number with lower digits put into it. -/
theorem or_digits {a b k : Nat} (small : b < 2 ^ k) : a * 2 ^ k ||| b = a * 2 ^ k + b := by
  rw [← Nat.shiftLeft_eq, ← Nat.shiftLeft_add_eq_or_of_lt small]

/-- Bytes put side by side by shifts are digits of one number. -/
theorem sha256Word_eq (block : Vector Byte 64) (i : Fin 16) :
    sha256Word block i = Sha256.word block.toList i := by
  -- The block is read as a list.
  have read : ∀ j (inside : j < 64), block.toList.getD j 0#8 = block[j] := fun j inside => by
    rw [List.getD_eq_getElem _ _ (by simpa using inside), Vector.getElem_toList]
  refine BitVec.eq_of_toNat_eq ?_
  rw [Sha256.word_toNat, read _ (by omega), read _ (by omega), read _ (by omega),
    read _ (by omega), sha256Word]
  simp only [Nat.mul_comm 4 i.val]
  generalize block[i.val * 4] = first, block[i.val * 4 + 1] = second,
    block[i.val * 4 + 2] = third, block[i.val * 4 + 3] = fourth
  -- Each byte is shifted into its place without loss.
  have shifted : ∀ (b : Byte) (k : Nat), k ≤ 24 →
      ((b.setWidth 32) <<< k).toNat = b.toNat * 2 ^ k := by
    intro b k small
    have bound : b.toNat * 2 ^ k < 2 ^ 8 * 2 ^ 24 :=
      Nat.mul_lt_mul_of_lt_of_le b.isLt (Nat.pow_le_pow_right (by decide) small) (by decide)
    rw [BitVec.toNat_shiftLeft, BitVec.toNat_setWidth,
      Nat.mod_eq_of_lt (by omega : b.toNat < 2 ^ 32), Nat.shiftLeft_eq,
      Nat.mod_eq_of_lt (by omega)]
  have last : (fourth.setWidth 32).toNat = fourth.toNat := by
    rw [BitVec.toNat_setWidth, Nat.mod_eq_of_lt (by omega)]
  rw [BitVec.toNat_or, BitVec.toNat_or, BitVec.toNat_or, shifted _ _ (by decide),
    shifted _ _ (by decide), shifted _ _ (by decide), last, or_digits (by omega)]
  -- The digits are put together two at a time, from the highest on.
  rw [show first.toNat * 2 ^ 24 + second.toNat * 2 ^ 16 =
      (first.toNat * 2 ^ 8 + second.toNat) * 2 ^ 16 by omega, or_digits (by omega),
    show (first.toNat * 2 ^ 8 + second.toNat) * 2 ^ 16 + third.toNat * 2 ^ 8 =
      ((first.toNat * 2 ^ 8 + second.toNat) * 2 ^ 8 + third.toNat) * 2 ^ 8 by omega,
    or_digits (by omega)]

/-- The words are those of the message schedule, which only looks back. -/
theorem sha256Words_eq (block : Vector Byte 64) {count i : Nat} (inside : i < count) :
    (sha256Words block count)[i] = Sha256.schedule block.toList i := by
  -- By induction on the words computed so far.
  induction count generalizing i with
  | zero => exact absurd inside (Nat.not_lt_zero i)
  | succ count ih =>
    simp only [sha256Words]
    rcases Nat.lt_succ_iff_lt_or_eq.mp inside with earlier | rfl
    · rw [Vector.getElem_push_lt earlier]
      exact ih earlier
    · -- The word just computed is read from the block, or comes from four earlier ones.
      rw [Vector.getElem_push_eq, Sha256.schedule]
      split
      · exact sha256Word_eq block _
      · rw [sha256NextWord, ih (by omega), ih (by omega), ih (by omega), ih (by omega)]
        simp only [rotateRight_eq, Nat.reduceLT]
        show _ = Sha256.lowerSigma1 _ + _ + Sha256.lowerSigma0 _ + _
        rw [Sha256.lowerSigma0, Sha256.lowerSigma1]
        ac_rfl

/-- The locals, as working variables. -/
def Sha256Locals.working (v : Sha256Locals) : Sha256.Working :=
  ⟨v.a, v.b, v.c, v.d, v.e, v.f, v.g, v.h⟩

/-- A round is the specification's. -/
theorem sha256Round_eq (constant word : BitVec 32) (v : Sha256Locals) :
    (sha256Round constant word v).working = Sha256.round constant word v.working := by
  simp only [sha256Round, Sha256.round, Sha256Locals.working, Sha256.upperSigma0,
    Sha256.upperSigma1, Sha256.ch, Sha256.maj, rotateRight_eq, Nat.reduceLT]

/-- Rounds keep the locals and the working variables the same. -/
theorem sha256Rounds_eq (constant word : Nat → BitVec 32) (count : Nat) (v : Sha256Locals) :
    (Fin.foldl count (fun v i => sha256Round (constant i) (word i) v) v).working =
      Fin.foldl count (fun v t => Sha256.round (constant t) (word t) v) v.working := by
  induction count with
  | zero => rfl
  | succ count ih =>
    rw [Fin.foldl_succ_last, Fin.foldl_succ_last, sha256Round_eq]
    exact congrArg _ ih

/-- The last additions of a transformation, which name the old state first. -/
theorem added_eq (v : Sha256Locals) (state : Vector (BitVec 32) 8) :
    #v[state.get 0 + v.a, state.get 1 + v.b, state.get 2 + v.c, state.get 3 + v.d,
      state.get 4 + v.e, state.get 5 + v.f, state.get 6 + v.g, state.get 7 + v.h] =
        v.working.add state := by
  simp only [Sha256.Working.add, Sha256Locals.working, BitVec.add_comm]

/-- The transformation is the compression of the specification. -/
theorem sha256Transform_eq (block : Vector Byte 64) (state : Vector (BitVec 32) 8) :
    sha256Transform block state = Sha256.compress state block.toList := by
  let start : Sha256Locals :=
    ⟨state[0], state[1], state[2], state[3], state[4], state[5], state[6], state[7]⟩
  -- Constants and words are those of the specification, so all rounds are.
  have inputs : (fun v (i : Fin 64) =>
      sha256Round sha256Constants[i] (sha256Words block 64)[i] v) =
        fun v (i : Fin 64) => sha256Round (Sha256.constant i) (Sha256.schedule block.toList i) v :=
    funext fun v => funext fun i => congrArg₂ (fun constant word => sha256Round constant word v)
      (sha256Constants_eq i) (sha256Words_eq block i.isLt)
  have rounds : (Fin.foldl 64 (fun v (i : Fin 64) =>
      sha256Round sha256Constants[i] (sha256Words block 64)[i] v) start).working =
        Fin.foldl 64 (fun v t => Sha256.round (Sha256.constant t)
          (Sha256.schedule block.toList t) v) start.working := by
    rw [inputs]
    exact sha256Rounds_eq Sha256.constant (Sha256.schedule block.toList) 64 start
  exact (added_eq _ state).trans (congrArg (Sha256.Working.add · state) rounds)

end Transform

/-! ### Blocks in the making -/

/--
A context holds bytes: the whole blocks of them in its state, and the rest at the front of its
block.
-/
structure Sha256Context.Fills (bytes : List Byte) (n : Nat) (c : Sha256Context) : Prop where
  state : c.state = Sha256.chain bytes n
  size : bytes.length = 64 * n + c.used
  fits : c.used ≤ 64
  block : c.block.toList.take c.used = bytes.drop (64 * n)

namespace Sha256Context

variable (c : Sha256Context)

/-- Copying leaves the state alone. -/
@[simp] theorem copy_state (piece : List Byte) : (c.copy piece).state = c.state := by
  simp only [copy]

/-- It leaves the count of bits alone. -/
@[simp] theorem copy_bitCount (piece : List Byte) : (c.copy piece).bitCount = c.bitCount := by
  simp only [copy]

/-- It uses up as much of the block as it copies. -/
@[simp] theorem copy_used (piece : List Byte) : (c.copy piece).used = c.used + piece.length := by
  simp only [copy]

/-- A byte put into the block leaves the state alone. -/
@[simp] theorem put_state (b : Byte) : (c.put b).state = c.state := by simp only [put]

/-- It uses up one byte of the block. -/
@[simp] theorem put_used (b : Byte) : (c.put b).used = c.used + 1 := by simp only [put]

end Sha256Context

namespace Sha256Context.Fills

variable {bytes : List Byte} {n : Nat} {c : Sha256Context}

/-- Nothing has been put into a fresh context. -/
theorem init (context : Sha256Context) : Fills [] 0 (sha256Init context) :=
  ⟨sha256Init_state context, rfl, Nat.zero_le 64, rfl⟩

/-- Bytes that fit are copied behind those that are there. -/
theorem copy (fills : Fills bytes n c) {piece : List Byte} (fit : c.used + piece.length ≤ 64) :
    Fills (bytes ++ piece) n (c.copy piece) := by
  have size := fills.size
  refine ⟨?_, ?_, by rwa [copy_used], ?_⟩
  · -- The state does not depend on bytes of the block that is not complete.
    rw [copy_state, fills.state, Sha256.chain_append (by omega)]
  · rw [List.length_append, size, Nat.add_assoc, copy_used]
  · rw [List.drop_append_of_le_length (by omega), ← fills.block]
    -- The block is compared byte by byte, in front of the copy and inside it.
    refine List.ext_getElem (by simp [Sha256Context.copy]; omega) fun i inside _ => ?_
    rw [List.length_take] at inside
    simp only [Sha256Context.copy, List.getElem_take, Vector.getElem_toList, Vector.getElem_ofFn]
    by_cases old : i < c.used
    · rw [if_neg (by omega), Fin.getElem_fin, List.getElem_append_left (by simp; omega),
        List.getElem_take, Vector.getElem_toList]
    · have length : (c.block.toList.take c.used).length = c.used := by simp; omega
      have new : i - c.used < piece.length := by
        simp only [Sha256Context.copy] at inside
        omega
      rw [if_pos (by omega), List.getElem_append_right (by omega)]
      simp only [length]
      exact List.getD_eq_getElem _ _ new

/-- A single byte is put behind them. -/
theorem put (fills : Fills bytes n c) (b : Byte) (room : c.used < 64) :
    -- As for a copy of one byte.
    Fills (bytes ++ [b]) n (c.put b) := by
  have size := fills.size
  refine ⟨?_, ?_, by rwa [put_used], ?_⟩
  · rw [put_state, fills.state, Sha256.chain_append (by omega)]
  · rw [List.length_append, size, Nat.add_assoc, put_used, List.length_singleton]
  · rw [List.drop_append_of_le_length (by omega), ← fills.block]
    refine List.ext_getElem (by simp [Sha256Context.put]; omega) fun i inside _ => ?_
    rw [List.length_take] at inside
    simp only [Sha256Context.put, List.getElem_take, Vector.getElem_toList,
      Vector.getElem_setIfInBounds] at inside ⊢
    have length : (c.block.toList.take c.used).length = c.used := by simp; omega
    by_cases old : i < c.used
    · rw [if_neg (by omega), List.getElem_append_left (by omega), List.getElem_take,
        Vector.getElem_toList]
    · rw [if_pos (by omega), List.getElem_append_right (by omega)]
      simp only [length, List.getElem_singleton]

/-- Zeros are put behind them up to a bound. -/
theorem putZeros (fills : Fills bytes n c) {bound : Nat} (above : c.used ≤ bound)
    (most : bound ≤ 64) :
    Fills (bytes ++ List.replicate (bound - c.used) 0#8) n (c.putZeros bound) ∧
      (c.putZeros bound).used = bound := by
  -- After so many rounds so many zeros lie behind, by induction on the rounds.
  have rounds : ∀ count ≤ bound - c.used,
      Fills (bytes ++ List.replicate count 0#8) n
        ((List.range count).foldl (fun c _ => c.put 0#8) c) ∧
      ((List.range count).foldl (fun c _ => c.put 0#8) c).used = c.used + count := by
    intro count within
    induction count with
    | zero => exact ⟨by simpa using fills, rfl⟩
    | succ count ih =>
      obtain ⟨before, used⟩ := ih (by omega)
      rw [List.range_succ, List.foldl_append, List.replicate_succ', ← List.append_assoc]
      refine ⟨before.put 0#8 (by omega), ?_⟩
      rw [List.foldl_cons, List.foldl_nil, put_used, used, Nat.add_assoc]
  obtain ⟨zeros, used⟩ := rounds _ (Nat.le_refl _)
  exact ⟨zeros, used.trans (by omega)⟩

/-- A full block goes into the state. -/
theorem transform (fills : Fills bytes n c) (full : c.used = 64) (bits : BitVec 64) :
    Fills bytes (n + 1) { c.transform with bitCount := bits, used := 0 } := by
  have size := fills.size
  refine ⟨?_, by simp only; omega, Nat.zero_le 64, ?_⟩
  · -- The block is whole, so the state is that of the block before, transformed.
    have whole := fills.block
    rw [full, List.take_of_length_le (by simp)] at whole
    rw [Sha256.chain_succ whole.symm (by simp), ← fills.state]
    exact sha256Transform_eq c.block c.state
  · rw [List.drop_eq_nil_of_le (by omega)]
    rfl

end Sha256Context.Fills

/-! ### Pieces of a message -/

/-- What lies between two calls: a block not yet full, and the count of the bits before it. -/
structure Sha256Context.Between (message : List Byte) (c : Sha256Context) : Prop where
  fills : ∃ n, Sha256Context.Fills message n c ∧ c.bitCount = BitVec.ofNat 64 (512 * n)
  room : c.used < 64

/-- A round of an update takes on what it takes of the data. -/
theorem sha256Take_between {message data : List Byte} {c : Sha256Context}
    (between : c.Between message) :
    (sha256Take data c).Between (message ++ data.take (64 - c.used)) := by
  obtain ⟨⟨n, fills, bits⟩, room⟩ := between
  have fit : c.used + (data.take (64 - c.used)).length ≤ 64 := by
    rw [List.length_take]
    omega
  -- The piece is copied, and completes the block or not.
  have copied := fills.copy fit
  rw [sha256Take]
  dsimp only
  split
  · -- A full block is transformed, and the next one begins.
    rename_i full
    refine ⟨⟨n + 1, copied.transform full _, ?_⟩, Nat.zero_lt_succ 63⟩
    rw [Nat.mul_succ, BitVec.ofNat_add, ← bits, Sha256Context.copy_bitCount]
  · rename_i partly
    exact ⟨⟨n, copied, (Sha256Context.copy_bitCount c _).trans bits⟩, lt_of_le_of_ne copied.fits partly⟩

/-- The loop of an update ends and takes on all of the data. -/
theorem sha256Updating_between {fuel : Nat} {message data : List Byte} {c : Sha256Context}
    (between : c.Between message) (enough : data.length < fuel) :
    ∃ c', sha256Updating fuel data c = some c' ∧ c'.Between (message ++ data) := by
  -- Each round finds room in the block, so it shortens the data.
  induction fuel generalizing message data c with
  | zero => exact absurd enough (Nat.not_lt_zero _)
  | succ fuel ih =>
    rw [sha256Updating]
    split
    · rename_i none
      rw [List.length_eq_zero_iff.mp none, List.append_nil]
      exact ⟨c, rfl, between⟩
    · rename_i some
      have room := between.room
      have rest := ih (@sha256Take_between _ data _ between)
        (show (data.drop (64 - c.used)).length < fuel by rw [List.length_drop]; omega)
      rwa [List.append_assoc, List.take_append_drop] at rest

/-- A message in pieces. -/
theorem sha256Update_between {message : List Byte} {c : Sha256Context} (pieces : List (List Byte))
    (between : c.Between message) :
    ∃ c', pieces.foldlM (fun c data => sha256Update data c) c = some c' ∧
      c'.Between (message ++ pieces.flatten) := by
  -- By induction on the pieces.
  induction pieces generalizing message c with
  | nil => exact ⟨c, rfl, by rwa [List.flatten_nil, List.append_nil]⟩
  | cons data pieces ih =>
    obtain ⟨next, updated, between⟩ := sha256Updating_between between (Nat.lt_succ_self data.length)
    obtain ⟨last, rest, between⟩ := ih between
    refine ⟨last, ?_, by rwa [List.flatten_cons, ← List.append_assoc]⟩
    rw [List.foldlM_cons, sha256Update, updated]
    exact rest

/-! ### The end of a message -/

/-- The loop of the length, after some of its rounds. -/
theorem putLength_getElem (totalBits : BitVec 64) (block : Vector Byte 64) {count : Nat}
    (within : count ≤ 8) {j : Nat} (inside : j < 64) :
    (Fin.foldl count (fun (block : Vector Byte 64) (i : Fin count) =>
      block.set (63 - i.val) ((totalBits >>> (i.val * 8)).setWidth 8)) block)[j] =
      if 64 - count ≤ j then (totalBits >>> ((63 - j) * 8)).setWidth 8 else block[j] := by
  -- By induction on the rounds, each of which writes one byte further to the front.
  induction count with
  | zero => rw [Fin.foldl_zero, if_neg (by omega)]
  | succ count ih =>
    rw [Fin.foldl_succ_last, Vector.getElem_set, Fin.val_last]
    -- The byte this round writes.
    split
    · rename_i last
      rw [if_pos (by omega), ← last]
      congr 3
      omega
    · -- Another byte, written by an earlier round or not at all.
      refine (ih (by omega)).trans ?_
      by_cases behind : 64 - count ≤ j
      · rw [if_pos behind, if_pos (by omega)]
      · rw [if_neg behind, if_neg (by omega)]

/-- The length lies behind what the block held before. -/
theorem putLength_block (totalBits : BitVec 64) (c : Sha256Context) :
    (c.putLength totalBits).block.toList =
      c.block.toList.take 56 ++ Sha256.bigEndian 8 totalBits.toNat := by
  -- The block is compared byte by byte.
  refine List.ext_getElem (by simp [Sha256.bigEndian_length]) fun j inside _ => ?_
  rw [Vector.length_toList] at inside
  have front : (c.block.toList.take 56).length = 56 := by simp
  simp only [Sha256Context.putLength, Vector.getElem_toList]
  rw [putLength_getElem totalBits c.block (Nat.le_refl 8) inside]
  by_cases behind : 56 ≤ j
  · -- A byte of the length is a digit to the base 256.
    rw [if_pos behind, List.getElem_append_right (by omega)]
    simp only [Sha256.bigEndian, List.getElem_map, List.getElem_range, front]
    refine BitVec.eq_of_toNat_eq ?_
    rw [BitVec.toNat_setWidth, BitVec.toNat_ushiftRight, BitVec.toNat_ofNat,
      Nat.shiftRight_eq_div_pow, Nat.mul_comm, Nat.pow_mul, show 8 - 1 - (j - 56) = 63 - j by omega]
  · rw [if_neg behind, List.getElem_append_left (by omega), List.getElem_take,
      Vector.getElem_toList]

/-- The last block, once the length is in it. -/
theorem Sha256Context.Fills.putLength {bytes : List Byte} {n : Nat} {c : Sha256Context}
    (fills : Fills bytes n c) (room : c.used = 56) (totalBits : BitVec 64) :
    (c.putLength totalBits).transform.state =
      Sha256.chain (bytes ++ Sha256.bigEndian 8 totalBits.toNat) (n + 1) := by
  have size := fills.size
  have block := fills.block
  rw [room] at block
  -- The last block is what the message and its length leave behind whole blocks.
  have whole : (bytes ++ Sha256.bigEndian 8 totalBits.toNat).drop (64 * n) =
      (c.putLength totalBits).block.toList := by
    rw [List.drop_append_of_le_length (by omega), putLength_block, block]
  rw [Sha256.chain_succ whole (by simp), Sha256.chain_append (by omega), ← fills.state]
  exact sha256Transform_eq _ _

/-- The four bytes of a word of the digest. -/
theorem digestBytes_eq (w : BitVec 32) :
    [(w >>> 24).setWidth 8, (w >>> 16).setWidth 8, (w >>> 8).setWidth 8, w.setWidth 8] =
      Sha256.bigEndian 4 w.toNat := by
  -- Each byte is a digit of the word to the base 256.
  have byte : ∀ k, (w >>> (8 * k)).setWidth 8 = BitVec.ofNat 8 (w.toNat / 256 ^ k) := by
    intro k
    refine BitVec.eq_of_toNat_eq ?_
    rw [BitVec.toNat_setWidth, BitVec.toNat_ushiftRight, BitVec.toNat_ofNat,
      Nat.shiftRight_eq_div_pow, Nat.pow_mul]
  have last : w.setWidth 8 = BitVec.ofNat 8 (w.toNat / 256 ^ 0) := by
    rw [pow_zero, Nat.div_one]
    rfl
  rw [last]
  exact congrArg₂ _ (byte 3) (congrArg₂ _ (byte 2) (congrArg₂ _ (byte 1) rfl))

/-- The end of a message pads it as the standard says. -/
theorem sha256Final_eq {message : List Byte} {c : Sha256Context} (between : c.Between message)
    (small : message.length < 2 ^ 61) : sha256Final c = Sha256.digest message := by
  obtain ⟨⟨n, fills, bits⟩, room⟩ := between
  have size := fills.size
  -- The count of bits does not wrap.
  have total : (c.bitCount + BitVec.ofNat 64 c.used * 8#64).toNat = 8 * message.length := by
    rw [bits, BitVec.toNat_add, BitVec.toNat_mul, BitVec.toNat_ofNat, BitVec.toNat_ofNat,
      BitVec.toNat_ofNat]
    omega
  have closed := fills.put 0x80#8 room
  have one := Sha256Context.put_used c 0x80#8
  rw [sha256Final]
  dsimp only
  generalize c.bitCount + BitVec.ofNat 64 c.used * 8#64 = totalBits at total ⊢
  generalize c.put 0x80#8 = ended at *
  -- Where the length does not fit any more, zeros complete the block and another one begins.
  obtain ⟨m, count, begun, fits, zeros⟩ : ∃ m count,
      Sha256Context.Fills (message ++ [0x80#8] ++ List.replicate count 0#8) m
        (if 56 < ended.used then { (ended.putZeros 64).transform with used := 0 } else ended) ∧
      (if 56 < ended.used then { (ended.putZeros 64).transform with used := 0 }
        else ended : Sha256Context).used ≤ 56 ∧
      count + (56 - (if 56 < ended.used then { (ended.putZeros 64).transform with used := 0 }
        else ended : Sha256Context).used) = Sha256.zeros message.length := by
    by_cases late : 56 < ended.used
    · rw [if_pos late]
      obtain ⟨full, used⟩ := closed.putZeros (by omega) (Nat.le_refl 64)
      refine ⟨n + 1, 64 - ended.used, full.transform used _, Nat.zero_le 56, ?_⟩
      dsimp only
      rw [Sha256.zeros]
      omega
    · rw [if_neg late]
      refine ⟨n, 0, by simpa using closed, Nat.le_of_not_lt late, ?_⟩
      rw [Sha256.zeros]
      omega
  generalize (if 56 < ended.used then { (ended.putZeros 64).transform with used := 0 }
    else ended : Sha256Context) = roomy at *
  obtain ⟨filled, used⟩ := begun.putZeros fits (by decide)
  have padded : message ++ [0x80#8] ++ List.replicate count 0#8 ++
      List.replicate (56 - roomy.used) 0#8 ++ Sha256.bigEndian 8 totalBits.toNat =
        Sha256.pad message := by
    rw [Sha256.pad, total, ← zeros, ← List.replicate_append_replicate]
    simp only [List.append_assoc, List.cons_append, List.nil_append]
  have blocks : (Sha256.pad message).length / 64 = m + 1 := by
    have length := filled.size
    rw [← padded, List.length_append, length, used, Sha256.bigEndian_length]
    omega
  rw [filled.putLength used, padded, Sha256.digest, blocks]
  exact List.flatMap_congr fun w _ => digestBytes_eq w

/-! ### Digests -/

/-- The digits of the text form. -/
theorem sha256Digit_eq {value : Nat} (small : value < 16) :
    sha256Digit value = BitVec.ofNat 8 (Nat.digitChar value).toNat := by
  have all : ∀ v : Fin 16, sha256Digit v = BitVec.ofNat 8 (Nat.digitChar v).toNat := by decide
  exact all ⟨value, small⟩

/-- `sha256_hex` writes the digest of the specification in lower case. -/
theorem sha256Hex_eq {data : List Byte} (small : data.length < 2 ^ 61) (context : Sha256Context) :
    sha256Hex data context =
      some ((Sha256.lowerHex (Sha256.digest data)).map (BitVec.ofNat 8 ·.toNat) ++ [0#8]) := by
  -- A fresh context has taken nothing yet.
  have fresh : (sha256Init context).Between [] :=
    ⟨⟨0, Sha256Context.Fills.init context, rfl⟩, Nat.zero_lt_succ 63⟩
  obtain ⟨c, updated, between⟩ := sha256Updating_between fresh (Nat.lt_succ_self data.length)
  rw [sha256Hex, sha256Update, updated, Option.map_some, sha256Final_eq between small,
    Sha256.lowerHex, List.map_flatMap]
  refine congrArg (fun text => some (text ++ [0#8])) (List.flatMap_congr fun b _ => ?_)
  -- The two digits of a byte are its halves.
  have high : (b >>> 4).toNat = b.toNat / 16 := by
    rw [BitVec.toNat_ushiftRight, Nat.shiftRight_eq_div_pow]
  have low : (b &&& 0x0f#8).toNat = b.toNat % 16 := by
    rw [BitVec.toNat_and]
    exact Nat.and_two_pow_sub_one_eq_mod b.toNat 4
  rw [high, low, sha256Digit_eq (by omega), sha256Digit_eq (by omega)]
  rfl

/--
However a message comes in pieces, the digest is the one of FIPS 180-4 for the whole of it, and the
text form has it in lowercase hexadecimal digits.
-/
theorem sha256_correct (context scratch : Sha256Context) (pieces : List (List Byte))
    (small : pieces.flatten.length < 2 ^ 61) :
    (∃ c, pieces.foldlM (fun c data => sha256Update data c) (sha256Init context) = some c ∧
      sha256Final c = Sha256.digest pieces.flatten) ∧
    sha256Hex pieces.flatten scratch =
      some ((Sha256.lowerHex (Sha256.digest pieces.flatten)).map (BitVec.ofNat 8 ·.toNat) ++
        [0#8]) := by
  -- A fresh context is between blocks of the empty text.
  have fresh : (sha256Init context).Between [] :=
    ⟨⟨0, Sha256Context.Fills.init context, rfl⟩, Nat.zero_lt_succ 63⟩
  obtain ⟨c, updated, between⟩ := sha256Update_between pieces fresh
  exact ⟨⟨c, updated, sha256Final_eq between small⟩, sha256Hex_eq small scratch⟩

/-- The three letters `abc` in two pieces and an empty one. -/
theorem sha256_correct_letters :
    (∃ c, [[0x61#8], [], [0x62#8, 0x63#8]].foldlM (fun c data => sha256Update data c)
        (sha256Init default) = some c ∧
      sha256Final c = Sha256.digest [0x61#8, 0x62#8, 0x63#8]) ∧
    sha256Hex [0x61#8, 0x62#8, 0x63#8] default =
      some ((Sha256.lowerHex (Sha256.digest [0x61#8, 0x62#8, 0x63#8])).map
        (BitVec.ofNat 8 ·.toNat) ++ [0#8]) :=
  sha256_correct default default [[0x61#8], [], [0x62#8, 0x63#8]] (by decide)

end Emu80535
