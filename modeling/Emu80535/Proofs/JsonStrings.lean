import Emu80535.Lib.JsonString
import Emu80535.Proofs.JsonDocument

/-! Strings of JSON documents decode to the characters they stand for, in UTF-8. -/

namespace Emu80535

open JsonGrammar Recogniser
open Utf8 (encode encode_eq WellFormed)

/-! ### Code points -/

/-- A digit is worth what it stands for. -/
theorem hexValue_toNat {c : Byte} (digit : isHex c = true) :
    (hexValue c).toNat = hexDigitValue c := by
  rw [isHex_iff] at digit
  simp only [hexValue, hexDigitValue, ascii, BitVec.le_def, BitVec.toNat_ofNat]
  simp
  split_ifs <;> simp <;> omega

/-- One more digit for a code point. -/
theorem hexCodepoint_next {codepoint : BitVec 32} {c : Byte} {value bound : Nat}
    (same : codepoint.toNat = value) (small : value < bound) (fits : bound ≤ 2 ^ 28)
    (digit : isHex c = true) :
    (codepoint <<< 4 ||| hexValue c).toNat = value * 16 + hexDigitValue c ∧
      value * 16 + hexDigitValue c < bound * 16 := by
  have low := hexDigitValue_lt digit
  refine ⟨?_, by omega⟩
  -- The lower four bits are free, so the digit is put into them.
  rw [BitVec.toNat_or, BitVec.toNat_shiftLeft, same, hexValue_toNat digit,
    Nat.mod_eq_of_lt (by rw [Nat.shiftLeft_eq]; omega), ← Nat.shiftLeft_add_eq_or_of_lt low,
    Nat.shiftLeft_eq]

section Digits

variable {text : List Byte}

/-- Four digits make their code unit. -/
theorem hexCodepoint_four {i : Nat} {x y z w : Byte} {rest : List Byte}
    (here : text.drop i = x :: y :: z :: w :: rest)
    (digits : isHex x = true ∧ isHex y = true ∧ isHex z = true ∧ isHex w = true) :
    ∃ codepoint, hexCodepoint text 4 i 0#32 = some codepoint ∧
      codepoint.toNat = codeUnit x y z w := by
  -- The four bytes are read at four offsets.
  have at0 := (getElem?_here here).1
  have at1 := (getElem?_here (drop_more 1 (s := [x]) here rfl)).1
  have at2 := (getElem?_here (drop_more 2 (s := [x, y]) here rfl)).1
  have at3 := (getElem?_here (drop_more 3 (s := [x, y, z]) here rfl)).1
  obtain ⟨one, two, three, four⟩ := digits
  -- Each step multiplies by 16 and keeps below the next power.
  obtain ⟨first, below⟩ := @hexCodepoint_next 0#32 x 0 1 rfl Nat.one_pos (by decide) one
  obtain ⟨second, below⟩ := hexCodepoint_next first below (by decide) two
  obtain ⟨third, below⟩ := hexCodepoint_next second below (by decide) three
  obtain ⟨fourth, -⟩ := hexCodepoint_next third below (by decide) four
  refine ⟨_, ?_, fourth.trans ?_⟩
  · simp only [hexCodepoint, at0, at1, at2, at3, Option.bind_some, Nat.add_assoc, Nat.reduceAdd]
  · rw [codeUnit, Nat.zero_mul, Nat.zero_add]

end Digits

/-- A group of bits with the mark of its byte in front. -/
theorem marked_byte {n mark width : Nat} (small : n < 2 ^ width) :
    mark <<< width ||| n = n + mark * 2 ^ width := by
  rw [← Nat.shiftLeft_add_eq_or_of_lt small, Nat.shiftLeft_eq, Nat.add_comm]

/-- A byte of an encoding, as `append_utf8` computes it. -/
theorem encoded_byte {value : BitVec 32} {n mark : Nat} (width : Nat) (same : value.toNat = n)
    (small : n < 2 ^ width) (fits : n + mark * 2 ^ width < 256) :
    (BitVec.ofNat 32 (mark <<< width) ||| value).setWidth 8 =
      BitVec.ofNat 8 (n + mark * 2 ^ width) := by
  -- The mark of the leading byte does not overlap the bits of the value.
  have size : mark <<< width < 2 ^ 32 := by
    rw [Nat.shiftLeft_eq]
    omega
  apply BitVec.eq_of_toNat_eq
  rw [BitVec.toNat_setWidth, BitVec.toNat_or, BitVec.toNat_ofNat, BitVec.toNat_ofNat, same,
    Nat.mod_eq_of_lt size, marked_byte small]

/-- Six bits of a code point. -/
theorem six_bits (value : BitVec 32) : (value &&& 0x3f#32).toNat = value.toNat % 64 := by
  rw [BitVec.toNat_and]
  exact Nat.and_two_pow_sub_one_eq_mod value.toNat 6

/-- A shift divides. -/
theorem shifted_bits (value : BitVec 32) (k : Nat) : (value >>> k).toNat = value.toNat / 2 ^ k := by
  rw [BitVec.toNat_ushiftRight, Nat.shiftRight_eq_div_pow]

/-- `append_utf8` encodes characters. -/
theorem encodedUtf8_char {codepoint : BitVec 32} {c : Char} (same : codepoint.toNat = c.toNat) :
    encodedUtf8 codepoint = some (encode c) := by
  -- A character lies below 110000h, and its halves of a pair are not characters.
  have top : c.toNat < 0x110000 := by
    rcases c.valid with below | both
    · exact Nat.lt_trans below (by decide)
    · exact both.2
  -- Bytes behind the first carry six bits each.
  have tail (value : BitVec 32) : (0x80#32 ||| value &&& 0x3f#32).setWidth 8 =
      BitVec.ofNat 8 (value.toNat % 64 + 0x80) :=
    @encoded_byte _ _ 2 6 (six_bits value) (Nat.mod_lt _ (by decide)) (by omega)
  have shift (k : Nat) : (codepoint >>> k).toNat = c.toNat / 2 ^ k := by
    rw [shifted_bits, same]
  rw [encodedUtf8, encode_eq, Utf8.encodeNat]
  simp only [BitVec.le_def, same, tail, shift, BitVec.toNat_ofNat, Nat.reducePow, Nat.reduceMod]
  -- The cases are those of `append_utf8`: one, two, three and four bytes.
  split
  · congr 2
    apply BitVec.eq_of_toNat_eq
    rw [BitVec.toNat_setWidth, same, BitVec.toNat_ofNat]
  · split
    · have lead : (0xc0#32 ||| codepoint >>> 6).setWidth 8 = BitVec.ofNat 8 (c.toNat / 64 + 0xC0) :=
        @encoded_byte _ _ 6 5 (shift 6) (by omega) (by omega)
      rw [lead]
    · split
      · have lead : (0xe0#32 ||| codepoint >>> 12).setWidth 8 =
            BitVec.ofNat 8 (c.toNat / 4096 + 0xE0) :=
          @encoded_byte _ _ 14 4 (shift 12) (by omega) (by omega)
        rw [lead]
      · have lead : (0xf0#32 ||| codepoint >>> 18).setWidth 8 =
            BitVec.ofNat 8 (c.toNat / 262144 + 0xF0) :=
          @encoded_byte _ _ 30 3 (shift 18) (by omega) (by omega)
        rw [if_pos (by omega), lead]

/-- `append_utf8` of a character, by the room there is. -/
theorem appendUtf8_char {capacity : Nat} {used : List Byte} {codepoint : BitVec 32} {c : Char}
    (same : codepoint.toNat = c.toNat) :
    appendUtf8 capacity used codepoint =
      if used.length + (encode c).length < capacity then some (used ++ encode c) else none := by
  rw [appendUtf8, encodedUtf8_char same, Option.bind_some]
  by_cases full : capacity ≤ used.length + (encode c).length
  · rw [if_pos full, if_neg (Nat.not_lt.mpr full)]
  · rw [if_neg full, if_pos (Nat.not_le.mp full)]

/-! ### The loop -/

section Loop

variable {text : List Byte} {stop capacity : Nat} {allowNull : Bool}

/-- Whether what some characters are encoded in fits, with the zero character where it may be. -/
def Fits (capacity : Nat) (allowNull : Bool) (used : List Byte) (cs : List Char) : Prop :=
  used.length + (cs.flatMap encode).length < capacity ∧
    (allowNull = true ∨ ∀ c ∈ cs, c.toNat ≠ 0)

/-- Whether characters fit can be computed. -/
instance (capacity : Nat) (allowNull : Bool) (used : List Byte) (cs : List Char) :
    Decidable (Fits capacity allowNull used cs) := inferInstanceAs (Decidable (_ ∧ _))

/-- The loop passes a part of the text and writes some characters, where they fit. -/
def Decodes (text : List Byte) (stop capacity : Nat) (allowNull : Bool) (i : Nat) (used : List Byte)
    (piece : List Byte) (cs : List Char) : Prop :=
  ∃ rounds ≤ piece.length, ∀ fuel, decodeLoop text stop capacity allowNull (fuel + rounds) i used =
    if Fits capacity allowNull used cs then
      decodeLoop text stop capacity allowNull fuel (i + piece.length) (used ++ cs.flatMap encode)
    else some none

/-- Characters fit where the first of them do, and the others behind these. -/
theorem fits_append {used : List Byte} {cs cs' : List Char} :
    Fits capacity allowNull used (cs ++ cs') ↔ Fits capacity allowNull used cs ∧
      Fits capacity allowNull (used ++ cs.flatMap encode) cs' := by
  simp only [Fits, List.flatMap_append, List.length_append, List.mem_append]
  -- The bytes needed add up, and no character is null in either half or in both.
  constructor
  · rintro ⟨room, null⟩
    refine ⟨⟨by omega, ?_⟩, by omega, ?_⟩
    · exact null.imp_right fun none c member => none c (Or.inl member)
    · exact null.imp_right fun none c member => none c (Or.inr member)
  · rintro ⟨⟨-, null⟩, room, null'⟩
    refine ⟨by omega, ?_⟩
    rcases null with allowed | none
    · exact Or.inl allowed
    · exact null'.imp_right fun none' c member => member.elim (none c) (none' c)

/-- Decoding one piece behind another. -/
theorem Decodes.append {i : Nat} {used piece piece' : List Byte} {cs cs' : List Char}
    (first : Decodes text stop capacity allowNull i used piece cs)
    (second : Fits capacity allowNull used cs →
      Decodes text stop capacity allowNull (i + piece.length) (used ++ cs.flatMap encode) piece' cs') :
    Decodes text stop capacity allowNull i used (piece ++ piece') (cs ++ cs') := by
  obtain ⟨rounds, within, first⟩ := first
  -- The second piece is reached only where the first one fitted.
  by_cases fits : Fits capacity allowNull used cs
  · obtain ⟨rounds', within', second⟩ := second fits
    refine ⟨rounds' + rounds, by rw [List.length_append]; omega, fun fuel => ?_⟩
    rw [← Nat.add_assoc, first, if_pos fits, second, List.length_append, List.flatMap_append,
      Nat.add_assoc, List.append_assoc]
    by_cases fits' : Fits capacity allowNull (used ++ cs.flatMap encode) cs'
    · rw [if_pos fits', if_pos (fits_append.mpr ⟨fits, fits'⟩)]
    · rw [if_neg fits', if_neg fun all => fits' (fits_append.mp all).2]
  · refine ⟨rounds, by rw [List.length_append]; omega, fun fuel => ?_⟩
    rw [first, if_neg fits, if_neg fun all => fits (fits_append.mp all).1]

/-- Bytes that stand for themselves are copied while there is room. -/
theorem decodeLoop_bytes {bytes : List Byte} (other : backslash ∉ bytes) {i : Nat}
    {used rest : List Byte} (here : text.drop i = bytes ++ rest) (within : i + bytes.length ≤ stop)
    (room : used.length < capacity) (fuel : Nat) :
    decodeLoop text stop capacity allowNull (fuel + bytes.length) i used =
      if used.length + bytes.length < capacity then
        decodeLoop text stop capacity allowNull fuel (i + bytes.length) (used ++ bytes)
      else some none := by
  -- By induction on the bytes; each takes one round and one byte of room.
  induction bytes generalizing i used with
  | nil =>
    rw [List.length_nil, Nat.add_zero, Nat.add_zero, Nat.add_zero, if_pos room, List.append_nil]
  | cons b bytes ih =>
    obtain ⟨read, -⟩ := getElem?_here here
    rw [List.length_cons] at within
    have bare : b ≠ backslash := fun same => other (same ▸ List.mem_cons_self)
    rw [List.length_cons, ← Nat.add_assoc, decodeLoop, if_neg (by omega), read, Option.bind_some,
      if_pos bare]
    -- The terminator of the buffer needs one byte, which is why the last one does not fit.
    by_cases full : capacity ≤ used.length + 1
    · rw [if_pos full, if_neg (by omega)]
    · rw [if_neg full, ih (fun member => other (List.mem_cons_of_mem _ member))
        (drop_more 1 (s := [b]) here rfl) (by omega)
        (by rw [List.length_append, List.length_singleton]; omega), List.length_append,
        List.length_singleton, List.append_assoc, List.singleton_append, Nat.add_assoc,
        Nat.add_assoc, Nat.add_comm 1 bytes.length]

/-- What it takes for one character to fit. -/
theorem fits_one {used : List Byte} {c : Char} : Fits capacity allowNull used [c] ↔
    used.length + (encode c).length < capacity ∧ (allowNull = true ∨ c.toNat ≠ 0) := by
  simp [Fits]

/-- The characters of short escapes, as the decoder has them. -/
theorem shortEscape_char {b : Byte} {c : Char} (known : (b, c.toNat) ∈ shortEscapes) :
    b ≠ ascii 'u' ∧ shortEscape b = some (BitVec.ofNat 8 c.toNat) ∧ c.toNat ≠ 0 ∧
      c.toNat < 0x80 := by
  simp only [shortEscapes, List.mem_cons, Prod.mk.injEq, List.not_mem_nil, or_false] at known
  rcases known with ⟨rfl, value⟩ | ⟨rfl, value⟩ | ⟨rfl, value⟩ | ⟨rfl, value⟩ | ⟨rfl, value⟩ |
    ⟨rfl, value⟩ | ⟨rfl, value⟩ | ⟨rfl, value⟩ <;> rw [value] <;> decide

/-- A round for an escape of a code point. -/
theorem decodeLoop_codepoint {i behind : Nat} {used rest : List Byte} {codepoint : BitVec 32}
    {c : Char} (here : text.drop i = backslash :: ascii 'u' :: rest) (within : i < stop)
    (read : escapedCodepoint text stop (i + 2) = some (some (codepoint, behind)))
    (same : codepoint.toNat = c.toNat) (fuel : Nat) :
    decodeLoop text stop capacity allowNull (fuel + 1) i used =
      if Fits capacity allowNull used [c] then
        decodeLoop text stop capacity allowNull fuel behind (used ++ encode c)
      else some none := by
  -- The round sees the backslash and the letter, and then reads the code point.
  have at0 := (getElem?_here here).1
  have at1 := (getElem?_here (drop_more 1 (s := [backslash]) here rfl)).1
  have zero : codepoint = 0#32 ↔ c.toNat = 0 := by
    rw [← same, ← BitVec.toNat_inj]
    rfl
  rw [decodeLoop, if_neg (by omega), at0, Option.bind_some, if_neg (by simp), at1, Option.bind_some,
    if_pos rfl, read, Option.bind_some]
  simp only [zero, appendUtf8_char same]
  -- A zero is refused unless the caller allows it.
  by_cases null : c.toNat = 0 ∧ allowNull = false
  · rw [if_pos null, if_neg]
    rw [fits_one, null.2]
    exact fun fits => fits.2.elim Bool.false_ne_true fun some => some null.1
  · rw [if_neg null]
    by_cases room : used.length + (encode c).length < capacity
    · rw [if_pos room, if_pos]
      refine fits_one.mpr ⟨room, ?_⟩
      by_contra both
      simp only [not_or, Bool.not_eq_true, not_not] at both
      exact null ⟨both.2, both.1⟩
    · rw [if_neg room, if_neg fun fits => room (fits_one.mp fits).1]

/-- An escape of a character of its own. -/
theorem escapedCodepoint_unit {i : Nat} {x y z w : Byte} {rest : List Byte}
    (here : text.drop i = x :: y :: z :: w :: rest)
    (digits : isHex x = true ∧ isHex y = true ∧ isHex z = true ∧ isHex w = true)
    (whole : ¬(0xD800 ≤ codeUnit x y z w ∧ codeUnit x y z w ≤ 0xDFFF)) :
    ∃ codepoint, escapedCodepoint text stop i = some (some (codepoint, i + 4)) ∧
      codepoint.toNat = codeUnit x y z w := by
  -- The value is no half of a pair, so neither branch for pairs is taken.
  obtain ⟨codepoint, read, value⟩ := hexCodepoint_four here digits
  refine ⟨codepoint, ?_, value⟩
  rw [escapedCodepoint, read, Option.bind_some]
  simp only [BitVec.le_def, value, BitVec.toNat_ofNat, Nat.reducePow, Nat.reduceMod]
  rw [if_neg (by omega), if_neg (by omega)]

/-- An escape of the first half of a pair, with what comes behind it. -/
theorem escapedCodepoint_high {i : Nat} {x y z w : Byte} {rest : List Byte}
    (here : text.drop i = x :: y :: z :: w :: rest)
    (digits : isHex x = true ∧ isHex y = true ∧ isHex z = true ∧ isHex w = true)
    (high : 0xD800 ≤ codeUnit x y z w ∧ codeUnit x y z w ≤ 0xDBFF) :
    ∃ codepoint : BitVec 32, codepoint.toNat = codeUnit x y z w ∧
      escapedCodepoint text stop i =
        if stop ≤ i + 9 then some none
        else
          text[i + 4]?.bind fun c =>
            if c ≠ backslash then some none
            else
              text[i + 5]?.bind fun c =>
                if c ≠ ascii 'u' then some none
                else
                  (hexCodepoint text 4 (i + 6) 0#32).map fun low =>
                    if low < 0xdc00#32 ∨ 0xdfff#32 < low then none
                    else
                      some (0x10000#32 + (codepoint - 0xd800#32) <<< 10 + (low - 0xdc00#32),
                        i + 10) := by
  -- The value is the first half of a pair, so the second half is asked for.
  obtain ⟨codepoint, read, value⟩ := hexCodepoint_four here digits
  refine ⟨codepoint, value, ?_⟩
  rw [escapedCodepoint, read, Option.bind_some, if_pos]
  simp only [BitVec.le_def, value, BitVec.toNat_ofNat, Nat.reducePow, Nat.reduceMod]
  exact high

/-- An escape of the second half of a pair. -/
theorem escapedCodepoint_low {i : Nat} {x y z w : Byte} {rest : List Byte}
    (here : text.drop i = x :: y :: z :: w :: rest)
    (digits : isHex x = true ∧ isHex y = true ∧ isHex z = true ∧ isHex w = true)
    (low : 0xDC00 ≤ codeUnit x y z w ∧ codeUnit x y z w ≤ 0xDFFF) :
    escapedCodepoint text stop i = some none := by
  obtain ⟨codepoint, read, value⟩ := hexCodepoint_four here digits
  rw [escapedCodepoint, read, Option.bind_some]
  simp only [BitVec.le_def, value, BitVec.toNat_ofNat, Nat.reducePow, Nat.reduceMod]
  rw [if_neg (by omega), if_pos low]

/-- The code point of a pair. -/
theorem paired_toNat {high low : BitVec 32} (upper : 0xD800 ≤ high.toNat ∧ high.toNat ≤ 0xDBFF)
    (lower : 0xDC00 ≤ low.toNat ∧ low.toNat ≤ 0xDFFF) :
    (0x10000#32 + (high - 0xd800#32) <<< 10 + (low - 0xdc00#32)).toNat =
      0x10000 + (high.toNat - 0xD800) * 0x400 + (low.toNat - 0xDC00) := by
  -- Neither subtraction wraps.
  have first : (high - 0xd800#32).toNat = high.toNat - 0xD800 := by
    rw [BitVec.toNat_sub_of_le (by rw [BitVec.le_def]; exact upper.1)]
    rfl
  have second : (low - 0xdc00#32).toNat = low.toNat - 0xDC00 := by
    rw [BitVec.toNat_sub_of_le (by rw [BitVec.le_def]; exact lower.1)]
    rfl
  rw [BitVec.toNat_add, BitVec.toNat_add, BitVec.toNat_shiftLeft, first, second, Nat.shiftLeft_eq,
    BitVec.toNat_ofNat]
  omega

/-- One character. -/
theorem piece_decodes {piece : List Byte} {c : Char} (first : Letter piece c) {i : Nat}
    {used rest : List Byte} (here : text.drop i = piece ++ rest)
    (within : i + piece.length ≤ stop) (room : used.length < capacity) :
    Decodes text stop capacity allowNull i used piece [c] := by
  -- One case for each way a character is written.
  cases first with
  | plain printable bare =>
    -- A character that stands for itself has no backslash in its encoding.
    have other : backslash ∉ encode c := fun member =>
      absurd (encode_plain printable bare member) (by decide)
    refine ⟨_, Nat.le_refl _, fun fuel => ?_⟩
    rw [decodeLoop_bytes other here within room, List.flatMap_singleton]
    have same : Fits capacity allowNull used [c] ↔ used.length + (encode c).length < capacity :=
      fits_one.trans (and_iff_left (Or.inr (by omega)))
    simp only [same]
  -- A short escape of two bytes.
  | @short b c known =>
    obtain ⟨other, stands, some, small⟩ := shortEscape_char known
    have at0 := (getElem?_here here).1
    have at1 := (getElem?_here (drop_more 1 (s := [backslash]) here rfl)).1
    refine ⟨1, by simp, fun fuel => ?_⟩
    simp only [List.length_cons, List.length_nil] at within
    rw [decodeLoop, if_neg (by omega), at0, Option.bind_some, if_neg (by simp), at1,
      Option.bind_some, if_neg other, stands, List.flatMap_singleton, encode_ascii small]
    dsimp only
    have same : Fits capacity allowNull used [c] ↔ ¬capacity ≤ used.length + 1 := by
      rw [fits_one, encode_ascii small, List.length_singleton, Nat.not_le]
      exact and_iff_left (Or.inr some)
    by_cases full : capacity ≤ used.length + 1
    · rw [if_pos full, if_neg (not_not_intro full ∘ same.mp)]
    · rw [if_neg full, if_pos (same.mpr full)]
      rfl
  -- An escape of one code unit, which is no half of a pair.
  | @unit x y z w c digits value =>
    have whole : ¬(0xD800 ≤ codeUnit x y z w ∧ codeUnit x y z w ≤ 0xDFFF) := by
      have valid : c.toNat.isValidChar := c.valid
      simp only [Nat.isValidChar] at valid
      omega
    obtain ⟨codepoint, read, same⟩ := @escapedCodepoint_unit text stop (i + 2) x y z w rest
      (drop_more 2 (s := [backslash, ascii 'u']) here rfl) digits whole
    simp only [List.length_cons, List.length_nil] at within
    refine ⟨1, by simp, fun fuel => ?_⟩
    rw [List.flatMap_singleton]
    exact decodeLoop_codepoint here (by omega) read (same.trans value.symm) fuel
  -- Two escapes that make one character.
  | @pair x y z w x' y' z' w' c digits digits' high low value =>
    obtain ⟨first, upper, read⟩ := @escapedCodepoint_high text stop (i + 2) x y z w _
      (drop_more 2 (s := [backslash, ascii 'u']) here rfl) digits high
    obtain ⟨second, read', lower⟩ := @hexCodepoint_four text (i + 8) x' y' z' w' rest
      (drop_more 8 (s := [backslash, ascii 'u', x, y, z, w, backslash, ascii 'u']) here rfl) digits'
    have at6 := (getElem?_here
      (drop_more 6 (s := [backslash, ascii 'u', x, y, z, w]) here rfl)).1
    have at7 := (getElem?_here
      (drop_more 7 (s := [backslash, ascii 'u', x, y, z, w, backslash]) here rfl)).1
    simp only [List.length_cons, List.length_nil] at within
    simp only [Nat.add_assoc, Nat.reduceAdd] at read
    rw [if_neg (by omega), at6, Option.bind_some, if_neg (by simp), at7, Option.bind_some,
      if_neg (by simp), read', Option.map_some, if_neg (by
        simp only [BitVec.lt_def, lower, BitVec.toNat_ofNat, Nat.reducePow, Nat.reduceMod]
        omega)] at read
    have same := @paired_toNat first second (by rwa [upper]) (by rwa [lower])
    rw [upper, lower, ← value] at same
    refine ⟨1, by simp, fun fuel => ?_⟩
    rw [List.flatMap_singleton]
    exact decodeLoop_codepoint here (by omega) read same fuel

/-- A run of characters. -/
theorem means_decodes {raw : List Byte} {cs : List Char} (means : Means raw cs) {i : Nat}
    {used rest : List Byte} (here : text.drop i = raw ++ rest) (within : i + raw.length ≤ stop)
    (room : used.length < capacity) : Decodes text stop capacity allowNull i used raw cs := by
  -- By induction on the characters, each one decoded where the last one ended.
  induction means generalizing i used with
  | nil =>
    refine ⟨0, Nat.zero_le _, fun fuel => ?_⟩
    have fits : Fits capacity allowNull used [] := ⟨room, Or.inr (by simp)⟩
    rw [if_pos fits, List.flatMap_nil, List.append_nil]
    rfl
  | @cons piece raw c cs first rest' ih =>
    rw [List.append_assoc] at here
    rw [List.length_append] at within
    have one : Decodes text stop capacity allowNull i used piece [c] :=
      piece_decodes first here (by omega) room
    refine one.append fun fits => ?_
    refine ih (drop_after here) (by omega) ?_
    rw [List.length_append]
    exact fits.1

/-- Half of a surrogate pair. -/
theorem lone_decodes {back : List Byte} (lone : Lone back) {i : Nat} {used rest : List Byte}
    (here : text.drop i = back ++ rest) (within : i + back.length = stop) (fuel : Nat) :
    decodeLoop text stop capacity allowNull (fuel + 1) i used = some none := by
  have round {raw : List Byte} (here : text.drop i = backslash :: ascii 'u' :: raw)
      (within : i < stop) (refused : escapedCodepoint text stop (i + 2) = some none) :
      decodeLoop text stop capacity allowNull (fuel + 1) i used = some none := by
    have at0 := (getElem?_here here).1
    have at1 := (getElem?_here (drop_more 1 (s := [backslash]) here rfl)).1
    rw [decodeLoop, if_neg (by omega), at0, Option.bind_some, if_neg (by simp), at1,
      Option.bind_some, if_pos rfl, refused]
    rfl
  cases lone with
  | @low x y z w raw digits half =>
    simp only [List.length_cons] at within
    exact round here (by omega)
      (escapedCodepoint_low (drop_more 2 (s := [backslash, ascii 'u']) here rfl) digits half)
  | @high x y z w raw digits half behind alone =>
    simp only [List.length_cons] at within
    refine round here (by omega) ?_
    obtain ⟨first, upper, read⟩ := @escapedCodepoint_high text stop (i + 2) x y z w _
      (drop_more 2 (s := [backslash, ascii 'u']) here rfl) digits half
    rw [read]
    have tail : text.drop (i + 6) = raw ++ rest :=
      drop_more 6 (s := [backslash, ascii 'u', x, y, z, w]) here rfl
    by_cases short : stop ≤ i + 2 + 9
    · rw [if_pos short]
    · rw [if_neg short]
      simp only [Nat.add_assoc, Nat.reduceAdd]
      -- An escape may come behind it, but not of the other half.
      cases raw with
      | nil => exact absurd within (by simp only [List.length_nil]; omega)
      | cons c raw =>
        rw [(getElem?_here tail).1, Option.bind_some]
        by_cases escapes : c = backslash
        · subst escapes
          rw [if_neg (by simp)]
          rcases body_cases behind with none | ⟨d, t, same, plain, -⟩ | ⟨d, t, same, known, -⟩ |
            ⟨x', y', z', w', t, same, digits', -⟩
          · exact absurd none (by simp)
          · rw [← (List.cons.inj same).1] at plain
            exact absurd plain (by decide)
          · obtain rfl := (List.cons.inj same).2
            have tail' := drop_more 1 (s := [backslash]) tail rfl
            rw [(getElem?_here tail').1, Option.bind_some, if_pos]
            rintro rfl
            exact absurd known (by decide)
          · obtain rfl := (List.cons.inj same).2
            have tail' := drop_more 1 (s := [backslash]) tail rfl
            rw [(getElem?_here tail').1, Option.bind_some, if_neg (by simp)]
            obtain ⟨second, read', lower⟩ := @hexCodepoint_four text (i + 8) x' y' z' w' _
              (drop_more 2 (s := [backslash, ascii 'u']) tail rfl) digits'
            rw [read', Option.map_some, if_pos]
            have other := alone x' y' z' w' t rfl
            simp only [BitVec.lt_def, lower, BitVec.toNat_ofNat, Nat.reducePow, Nat.reduceMod]
            omega
        · rw [if_pos escapes]

end Loop

/-! ### Tokens -/

/-- A token of a string whose raw text is given. -/
structure StringAt (d : JsonDocument) (t : Int) (token : JsonToken) (raw : List Byte) : Prop where
  found : d.token t = some token
  type : token.type = .string
  start : 0 ≤ token.start
  stop : token.stop = token.start + raw.length
  here : ∃ rest, d.text.drop token.start.toNat = raw ++ quote :: rest

section Tokens

variable {d : JsonDocument} {t : Int} {token : JsonToken} {raw : List Byte}

/-- The decoder begins at the raw text and ends behind it. -/
theorem StringAt.decode (lies : StringAt d t token raw) {capacity : Nat} (some : 0 < capacity)
    (allowNull : Bool) : jsonStringDecode d t capacity allowNull =
      decodeLoop d.text (token.start.toNat + raw.length) capacity allowNull (d.text.length + 1)
        token.start.toNat [] := by
  have start := lies.start
  rw [jsonStringDecode, if_neg some.ne', lies.found]
  dsimp only
  rw [if_neg (not_not_intro lies.type), lies.stop,
    show (token.start + raw.length).toNat = token.start.toNat + raw.length by omega]

/-- A string is shorter than the text it lies in. -/
theorem StringAt.length (lies : StringAt d t token raw) : raw.length < d.text.length := by
  obtain ⟨rest, here⟩ := lies.here
  have size := congrArg List.length here
  rw [List.length_drop, List.length_append, List.length_cons] at size
  omega

/-- What the decoder makes of the characters a string begins with. -/
theorem StringAt.passes {front back : List Byte} (lies : StringAt d t token (front ++ back))
    {cs : List Char} (means : Means front cs) {capacity : Nat} (filled : 0 < capacity)
    (allowNull : Bool) : ∃ fuel, back.length < fuel ∧
      jsonStringDecode d t capacity allowNull =
        if Fits capacity allowNull [] cs then
          decodeLoop d.text (token.start.toNat + front.length + back.length) capacity allowNull fuel
            (token.start.toNat + front.length) (cs.flatMap encode)
        else some none := by
  obtain ⟨rest, here⟩ := lies.here
  have size := lies.length
  -- The fuel of the decoder is what the text is long, and the characters take no more rounds than
  -- bytes.
  rw [List.length_append] at size
  rw [List.append_assoc] at here
  obtain ⟨rounds, within, passes⟩ := @means_decodes d.text
    (token.start.toNat + (front.length + back.length)) capacity allowNull _ _ means _ [] _ here
    (by omega) filled
  refine ⟨d.text.length + 1 - rounds, by omega, ?_⟩
  have enough := passes (d.text.length + 1 - rounds)
  rw [show d.text.length + 1 - rounds + rounds = d.text.length + 1 by omega] at enough
  rw [lies.decode filled, List.length_append, enough, List.nil_append, Nat.add_assoc]

/-- A string decodes to the characters it stands for, where they fit. -/
theorem jsonStringDecode_means (lies : StringAt d t token raw) {cs : List Char}
    (means : Means raw cs) (capacity : Nat) (allowNull : Bool) :
    jsonStringDecode d t capacity allowNull =
      some (if Fits capacity allowNull [] cs then some (cs.flatMap encode) else none) := by
  -- Without room nothing is decoded, not even an empty string.
  rcases Nat.eq_zero_or_pos capacity with rfl | some
  · rw [if_neg fun fits => absurd fits.1 (Nat.not_lt_zero _)]
    rfl
  · rw [← List.append_nil raw] at lies
    obtain ⟨fuel, enough, ran⟩ := lies.passes means some allowNull
    obtain ⟨fuel, rfl⟩ := Nat.exists_eq_add_one_of_ne_zero (Nat.ne_of_gt enough)
    rw [ran]
    -- The loop ends where the string does.
    split
    · rw [decodeLoop, if_pos (by simp)]
    · rfl

/-- A string with half of a surrogate pair does not decode. -/
theorem jsonStringDecode_half {front back : List Byte} {cs : List Char}
    (lies : StringAt d t token (front ++ back)) (means : Means front cs) (lone : Lone back)
    (capacity : Nat) (allowNull : Bool) :
    jsonStringDecode d t capacity allowNull = some none := by
  -- Without room the answer is the same.
  rcases Nat.eq_zero_or_pos capacity with rfl | some
  · rfl
  · obtain ⟨fuel, enough, ran⟩ := lies.passes means some allowNull
    obtain ⟨fuel, rfl⟩ := Nat.exists_eq_add_one_of_ne_zero (Nat.ne_of_gt (Nat.zero_lt_of_lt enough))
    obtain ⟨rest, here⟩ := lies.here
    rw [List.append_assoc] at here
    rw [ran]
    -- The decoder reaches the half, and refuses it.
    split
    · exact lone_decodes lone (drop_after here) rfl _
    · rfl

end Tokens

/-! ### Documents -/

section Documents

variable {d : JsonDocument} {n : Node} {t : Int} {token : JsonToken}

/-- String tokens of a document. -/
theorem DocumentOf.stringAt (of : DocumentOf d n) (found : d.token t = some token)
    (type : token.type = .string) : StringAt d t token (d.slice token) := by
  obtain ⟨before, after, whole, -, -, start, stop⟩ := of.string (token_eq_some found).2 type
  refine ⟨found, type, by omega, by omega, after, ?_⟩
  rw [start, Int.toNat_natCast, whole, List.drop_append,
    List.drop_eq_nil_of_le (Nat.le_add_right _ _), Nat.add_sub_cancel_left]
  rfl

/-- A string of a document that stands for no characters does not decode. -/
theorem jsonStringDecode_lone (of : DocumentOf d n) (found : d.token t = some token)
    (type : token.type = .string) (none : ∀ cs, ¬Means (d.slice token) cs) (capacity : Nat)
    (allowNull : Bool) : jsonStringDecode d t capacity allowNull = some .none := by
  have lies := of.stringAt found type
  obtain ⟨-, -, -, word, encoded, -⟩ := of.string (token_eq_some found).2 type
  -- A string body stands for characters, or for some up to half of a pair.
  obtain ⟨front, back, cs, whole, means, ends | lone⟩ := means_or_lone word encoded
  · rw [ends, List.append_nil] at whole
    exact absurd (whole ▸ means) (none cs)
  · rw [whole] at lies
    exact jsonStringDecode_half lies means lone capacity allowNull

/-- A string decodes exactly where it stands for characters that fit. -/
theorem jsonStringDecode_iff (of : DocumentOf d n) (found : d.token t = some token)
    (type : token.type = .string) (capacity : Nat) (allowNull : Bool) (decoded : List Byte) :
    jsonStringDecode d t capacity allowNull = some (some decoded) ↔
      ∃ cs, Means (d.slice token) cs ∧ Fits capacity allowNull [] cs ∧
        decoded = cs.flatMap encode := by
  -- What a string decodes to is known in both cases.
  by_cases stands : ∃ cs, Means (d.slice token) cs
  · constructor
    · intro ran
      obtain ⟨cs, means⟩ := stands
      rw [jsonStringDecode_means (of.stringAt found type) means, Option.some.injEq] at ran
      split at ran
      · rename_i fits
        exact ⟨cs, means, fits, (Option.some.inj ran).symm⟩
      · exact absurd ran (by simp)
    · rintro ⟨cs, means, fits, rfl⟩
      rw [jsonStringDecode_means (of.stringAt found type) means, if_pos fits]
  · rw [jsonStringDecode_lone of found type fun cs means => stands ⟨cs, means⟩]
    exact iff_of_false (by simp) fun both => stands ⟨_, both.choose_spec.1⟩

/-- The decoder does not leave the text. -/
theorem jsonStringDecode_answers (of : DocumentOf d n) (found : d.token t = some token)
    (type : token.type = .string) (capacity : Nat) (allowNull : Bool) :
    ∃ decoded, jsonStringDecode d t capacity allowNull = some decoded := by
  by_cases stands : ∃ cs, Means (d.slice token) cs
  · obtain ⟨cs, means⟩ := stands
    exact ⟨_, jsonStringDecode_means (of.stringAt found type) means capacity allowNull⟩
  · exact ⟨_, jsonStringDecode_lone of found type (fun cs means => stands ⟨cs, means⟩) capacity
      allowNull⟩

end Documents

end Emu80535
