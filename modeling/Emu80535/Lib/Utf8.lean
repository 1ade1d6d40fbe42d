import Mathlib.Data.List.Basic

/-! Well-formed UTF-8 over bytes, and how it is told from the bytes at its front. -/

namespace Utf8

/-- The bytes that encode a character. -/
def encode (c : Char) : List (BitVec 8) := (String.utf8EncodeChar c).map UInt8.toBitVec

/-- Bytes that encode characters, one after another. -/
def WellFormed (bytes : List (BitVec 8)) : Prop := ∃ cs : List Char, bytes = cs.flatMap encode

/--
What follows a lead byte: the number of continuation bytes, and the bounds of the first of them.
-/
def follow (lead : Nat) : Option (Nat × Nat × Nat) :=
  if lead < 0x80 then some (0, 0, 0)
  else if 0xC2 ≤ lead ∧ lead ≤ 0xDF then some (1, 0x80, 0xBF)
  else if lead = 0xE0 then some (2, 0xA0, 0xBF)
  else if lead = 0xED then some (2, 0x80, 0x9F)
  else if 0xE1 ≤ lead ∧ lead ≤ 0xEF then some (2, 0x80, 0xBF)
  else if lead = 0xF0 then some (3, 0x90, 0xBF)
  else if 0xF1 ≤ lead ∧ lead ≤ 0xF3 then some (3, 0x80, 0xBF)
  else if lead = 0xF4 then some (3, 0x80, 0x8F)
  else none

/-- What remains behind so many continuation bytes, the first of which lies within bounds. -/
def behindTails (low high : Nat) : Nat → List (BitVec 8) → Option (List (BitVec 8))
  | 0, rest => some rest
  | _ + 1, [] => none
  | count + 1, b :: rest =>
    if low ≤ b.toNat ∧ b.toNat ≤ high then behindTails 0x80 0xBF count rest else none

/-- What remains behind the character at the front. -/
def behindChar : List (BitVec 8) → Option (List (BitVec 8))
  | [] => none
  | lead :: rest => (follow lead.toNat).bind fun (count, low, high) => behindTails low high count rest

/-! ### Encodings -/

/-- The encoding of a character by its number. -/
def encodeNat (n : Nat) : List (BitVec 8) :=
  if n ≤ 0x7F then [BitVec.ofNat 8 n]
  else if n ≤ 0x7FF then [BitVec.ofNat 8 (n / 64 + 0xC0), BitVec.ofNat 8 (n % 64 + 0x80)]
  else if n ≤ 0xFFFF then
    [BitVec.ofNat 8 (n / 4096 + 0xE0), BitVec.ofNat 8 (n / 64 % 64 + 0x80),
     BitVec.ofNat 8 (n % 64 + 0x80)]
  else
    [BitVec.ofNat 8 (n / 262144 + 0xF0), BitVec.ofNat 8 (n / 4096 % 64 + 0x80),
     BitVec.ofNat 8 (n / 64 % 64 + 0x80), BitVec.ofNat 8 (n % 64 + 0x80)]

/-- Lean's own encoder, by the number of the character. -/
theorem encode_eq (c : Char) : encode c = encodeNat c.toNat := by
  have valid := c.valid
  have top : c.toNat < 0x110000 := by
    rcases valid with below | both
    · exact Nat.lt_trans below (by decide)
    · exact both.2
  show List.map UInt8.toBitVec (String.utf8EncodeChar c) = _
  have value : c.val.toNat = c.toNat := rfl
  simp only [String.utf8EncodeChar, encodeNat, value]
  -- One case for each number of bytes, with the bits that the lead byte keeps.
  split
  · rfl
  · split
    · rw [Nat.mod_eq_of_lt (by omega : c.toNat / 64 < 0x20)]
      rfl
    · split
      · rw [Nat.mod_eq_of_lt (by omega : c.toNat / 4096 < 0x10)]
        rfl
      · rw [Nat.mod_eq_of_lt (by omega : c.toNat / 262144 < 0x08)]
        rfl

/-- A character has at least one byte. -/
theorem encode_ne_nil (c : Char) : encode c ≠ [] := by
  rw [encode_eq, encodeNat]
  split_ifs <;> exact List.cons_ne_nil _ _

/-- Every number outside the surrogates has its character. -/
theorem exists_char {n : Nat} (valid : n.isValidChar) : ∃ c : Char, c.toNat = n :=
  ⟨⟨UInt32.ofNatLT n (by rcases valid with below | both <;> simp only [UInt32.size] <;> omega), valid⟩,
    rfl⟩

/-! ### The front of a text -/

/-- The five shapes of a character: how many continuation bytes, and the bounds of the first. -/
theorem follow_cases {lead count low high : Nat} (found : follow lead = some (count, low, high)) :
    (lead < 0x80 ∧ count = 0) ∨
    (0xC2 ≤ lead ∧ lead ≤ 0xDF ∧ count = 1 ∧ low = 0x80 ∧ high = 0xBF) ∨
    (0xE0 ≤ lead ∧ lead ≤ 0xEF ∧ count = 2 ∧ 0x80 ≤ low ∧ high ≤ 0xBF ∧
      (lead = 0xE0 → low = 0xA0) ∧ (lead = 0xED → high = 0x9F)) ∨
    (0xF0 ≤ lead ∧ lead ≤ 0xF4 ∧ count = 3 ∧ 0x80 ≤ low ∧ high ≤ 0xBF ∧
      (lead = 0xF0 → low = 0x90) ∧ (lead = 0xF4 → high = 0x8F)) := by
  simp only [follow] at found
  split_ifs at found <;> simp only [Option.some.injEq, Prod.mk.injEq] at found <;> omega

/-- One more continuation byte. -/
theorem behindTails_cons {low high count : Nat} {b : BitVec 8} {rest : List (BitVec 8)}
    (bounds : low ≤ b.toNat ∧ b.toNat ≤ high) :
    behindTails low high (count + 1) (b :: rest) = behindTails 0x80 0xBF count rest :=
  if_pos bounds

/-- A continuation byte that has been passed. -/
theorem behindTails_some {low high count : Nat} {l rest : List (BitVec 8)}
    (passed : behindTails low high (count + 1) l = some rest) :
    ∃ b l', l = b :: l' ∧ low ≤ b.toNat ∧ b.toNat ≤ high ∧
      behindTails 0x80 0xBF count l' = some rest := by
  -- The byte is there and within its bounds, or nothing passes.
  cases l with
  | nil => exact absurd passed (by simp [behindTails])
  | cons b l' =>
    rw [behindTails] at passed
    split at passed
    · rename_i bounds
      exact ⟨b, l', rfl, bounds.1, bounds.2, passed⟩
    · exact absurd passed (by simp)

/-- The number of a small byte. -/
theorem small_toNat {m : Nat} (below : m < 256) : (BitVec.ofNat 8 m).toNat = m := by
  rw [BitVec.toNat_ofNat, Nat.mod_eq_of_lt below]

/-- A character at the front is found. -/
theorem behindChar_encode (c : Char) (rest : List (BitVec 8)) :
    behindChar (encode c ++ rest) = some rest := by
  rw [encode_eq]
  have valid : c.toNat.isValidChar := c.valid
  generalize c.toNat = n at valid
  simp only [Nat.isValidChar] at valid
  have tail : ∀ m, (BitVec.ofNat 8 (m % 64 + 0x80)).toNat = m % 64 + 0x80 := fun m =>
    small_toNat (by omega)
  rw [encodeNat]
  split
  · show (follow (BitVec.ofNat 8 n).toNat).bind _ = _
    rw [small_toNat (by omega), follow, if_pos (by omega)]
    rfl
  · split
    · show (follow (BitVec.ofNat 8 (n / 64 + 0xC0)).toNat).bind _ = _
      rw [small_toNat (by omega), follow, if_neg (by omega), if_pos (by omega), Option.bind_some]
      exact behindTails_cons (by rw [tail]; omega)
    · split
      · show (follow (BitVec.ofNat 8 (n / 4096 + 0xE0)).toNat).bind _ = _
        rw [small_toNat (by omega)]
        obtain ⟨low, high, found, above, below⟩ : ∃ low high,
            follow (n / 4096 + 0xE0) = some (2, low, high) ∧ low ≤ n / 64 % 64 + 0x80 ∧
              n / 64 % 64 + 0x80 ≤ high := by
          -- Short forms and surrogates are what the bounds of the second byte leave out.
          by_cases first : n / 4096 = 0
          · exact ⟨0xA0, 0xBF, by rw [first]; rfl, by omega, by omega⟩
          · by_cases last : n / 4096 = 13
            · exact ⟨0x80, 0x9F, by rw [last]; rfl, by omega, by omega⟩
            · refine ⟨0x80, 0xBF, ?_, by omega, by omega⟩
              rw [follow, if_neg (by omega), if_neg (by omega), if_neg (by omega),
                if_neg (by omega), if_pos (by omega)]
        rw [found, Option.bind_some]
        exact (behindTails_cons (by rw [tail]; exact ⟨above, below⟩)).trans
          (behindTails_cons (by rw [tail]; omega))
      · show (follow (BitVec.ofNat 8 (n / 262144 + 0xF0)).toNat).bind _ = _
        rw [small_toNat (by omega)]
        obtain ⟨low, high, found, above, below⟩ : ∃ low high,
            follow (n / 262144 + 0xF0) = some (3, low, high) ∧ low ≤ n / 4096 % 64 + 0x80 ∧
              n / 4096 % 64 + 0x80 ≤ high := by
          by_cases first : n / 262144 = 0
          · exact ⟨0x90, 0xBF, by rw [first]; rfl, by omega, by omega⟩
          · by_cases last : n / 262144 = 4
            · exact ⟨0x80, 0x8F, by rw [last]; rfl, by omega, by omega⟩
            · refine ⟨0x80, 0xBF, ?_, by omega, by omega⟩
              rw [follow, if_neg (by omega), if_neg (by omega), if_neg (by omega),
                if_neg (by omega), if_neg (by omega), if_neg (by omega), if_pos (by omega)]
        rw [found, Option.bind_some]
        exact ((behindTails_cons (by rw [tail]; exact ⟨above, below⟩)).trans
          (behindTails_cons (by rw [tail]; omega))).trans (behindTails_cons (by rw [tail]; omega))

/-- What is found at the front is a character. -/
theorem behindChar_some {l rest : List (BitVec 8)} (found : behindChar l = some rest) :
    ∃ c, l = encode c ++ rest := by
  cases l with
  | nil => exact absurd found (by simp [behindChar])
  | cons lead l =>
    obtain ⟨⟨count, low, high⟩, shape, tails⟩ := Option.bind_eq_some_iff.mp found
    have byte : ∀ (b : BitVec 8) {m : Nat}, m = b.toNat → BitVec.ofNat 8 m = b := fun b m same => by
      rw [same, BitVec.ofNat_toNat, BitVec.setWidth_eq]
    dsimp only at tails
    -- One case for each number of bytes, in each of which the bits make up a character.
    rcases follow_cases shape with ⟨ascii, rfl⟩ | ⟨lower, upper, rfl, rfl, rfl⟩ |
      ⟨lower, upper, rfl, least, most, short, surrogate⟩ |
      ⟨lower, upper, rfl, least, most, short, large⟩
    · obtain ⟨c, value⟩ := @exists_char lead.toNat (by simp only [Nat.isValidChar]; omega)
      refine ⟨c, ?_⟩
      rw [encode_eq, value, encodeNat, if_pos (by omega), byte lead rfl]
      cases tails
      rfl
    · obtain ⟨b, _, rfl, above, below, tails⟩ := behindTails_some tails
      cases tails
      obtain ⟨c, value⟩ := @exists_char ((lead.toNat - 0xC0) * 64 + (b.toNat - 0x80))
        (by simp only [Nat.isValidChar]; omega)
      refine ⟨c, ?_⟩
      rw [encode_eq, value, encodeNat, if_neg (by omega), if_pos (by omega), byte lead (by omega),
        byte b (by omega)]
      rfl
    · obtain ⟨b, _, rfl, above, below, tails⟩ := behindTails_some tails
      obtain ⟨d, _, rfl, above', below', tails⟩ := behindTails_some tails
      cases tails
      obtain ⟨c, value⟩ := @exists_char
        ((lead.toNat - 0xE0) * 4096 + (b.toNat - 0x80) * 64 + (d.toNat - 0x80))
        (by simp only [Nat.isValidChar]; omega)
      refine ⟨c, ?_⟩
      rw [encode_eq, value, encodeNat, if_neg (by omega), if_neg (by omega), if_pos (by omega),
        byte lead (by omega), byte b (by omega), byte d (by omega)]
      rfl
    · obtain ⟨b, _, rfl, above, below, tails⟩ := behindTails_some tails
      obtain ⟨d, _, rfl, above', below', tails⟩ := behindTails_some tails
      obtain ⟨e, _, rfl, above'', below'', tails⟩ := behindTails_some tails
      cases tails
      obtain ⟨c, value⟩ := @exists_char ((lead.toNat - 0xF0) * 262144 + (b.toNat - 0x80) * 4096 +
        (d.toNat - 0x80) * 64 + (e.toNat - 0x80)) (by simp only [Nat.isValidChar]; omega)
      refine ⟨c, ?_⟩
      rw [encode_eq, value, encodeNat, if_neg (by omega), if_neg (by omega), if_neg (by omega),
        byte lead (by omega), byte b (by omega), byte d (by omega), byte e (by omega)]
      rfl

/-- A byte of ASCII in the encoding of a character is all of it. -/
theorem ascii_encode {c : Char} {b : BitVec 8} (member : b ∈ encode c) (ascii : b.toNat < 0x80) :
    encode c = [b] := by
  have top : c.toNat < 0x110000 := by
    rcases c.valid with below | both
    · exact Nat.lt_trans below (by decide)
    · exact both.2
  -- Lead and continuation bytes of longer characters are all above ASCII.
  have other : ∀ m, m < 256 → 0x80 ≤ m → b ≠ BitVec.ofNat 8 m := by
    rintro m below above rfl
    rw [small_toNat below] at ascii
    omega
  rw [encode_eq, encodeNat] at member ⊢
  split at member
  · rename_i one
    rw [if_pos one, ← List.mem_singleton.mp member]
  · split at member
    · rcases List.mem_pair.mp member with same | same <;>
        exact absurd same (other _ (by omega) (by omega))
    · split at member <;> simp only [List.mem_cons, List.not_mem_nil, or_false] at member
      · rcases member with same | same | same <;> exact absurd same (other _ (by omega) (by omega))
      · rcases member with same | same | same | same <;>
          exact absurd same (other _ (by omega) (by omega))

/-- The character of a byte of ASCII. -/
theorem exists_ascii {b : BitVec 8} (ascii : b.toNat < 0x80) :
    ∃ c : Char, c.toNat = b.toNat ∧ encode c = [b] := by
  obtain ⟨c, value⟩ := @exists_char b.toNat (by simp only [Nat.isValidChar]; omega)
  refine ⟨c, value, ?_⟩
  rw [encode_eq, value, encodeNat, if_pos (by omega), BitVec.ofNat_toNat, BitVec.setWidth_eq]

/-- A character in front of a byte of ASCII lies in front of it as a whole. -/
theorem behindChar_ascii {l : List (BitVec 8)} {b : BitVec 8} (ascii : b.toNat < 0x80)
    (rest : List (BitVec 8)) (some : l ≠ []) :
    behindChar (l ++ b :: rest) = (behindChar l).map (· ++ b :: rest) := by
  cases alone : behindChar l with
  | some r =>
    obtain ⟨c, rfl⟩ := behindChar_some alone
    rw [List.append_assoc, behindChar_encode, Option.map_some]
  | none =>
    refine Option.eq_none_iff_forall_not_mem.mpr fun r found => ?_
    obtain ⟨c, split⟩ := behindChar_some found
    rcases List.append_eq_append_iff.mp split with ⟨u, whole, tail⟩ | ⟨u, rfl, -⟩
    · -- The character takes in the byte, or ends right in front of it.
      cases u with
      | nil =>
        rw [List.append_nil] at whole
        have found := behindChar_encode c []
        rw [List.append_nil, whole, alone] at found
        exact absurd found (by simp)
      | cons d u =>
        obtain ⟨rfl, -⟩ := List.cons.inj tail
        have one := ascii_encode (whole ▸ List.mem_append_right l List.mem_cons_self) ascii
        have size := congrArg List.length (whole.symm.trans one)
        rw [List.length_append, List.length_cons, List.length_singleton] at size
        exact some (List.length_eq_zero_iff.mp (by omega))
    · rw [behindChar_encode] at alone
      exact absurd alone (by simp)

/-- Behind a character lies less. -/
theorem behindChar_suffix {l rest : List (BitVec 8)} (found : behindChar l = some rest) :
    rest.length < l.length ∧ rest <:+ l := by
  obtain ⟨c, rfl⟩ := behindChar_some found
  have front := List.length_pos_iff.mpr (encode_ne_nil c)
  rw [List.length_append]
  exact ⟨by omega, List.suffix_append _ _⟩

/-! ### Whole texts -/

/-- The empty text is well formed. -/
theorem wellFormed_nil : WellFormed [] := ⟨[], rfl⟩

/-- A text with a character at the front is as well formed as what remains. -/
theorem wellFormed_of_behindChar {l rest : List (BitVec 8)} (found : behindChar l = some rest) :
    WellFormed l ↔ WellFormed rest := by
  -- Decoding takes off the one character that the encoding begins with.
  constructor
  · rintro ⟨cs, rfl⟩
    cases cs with
    | nil => exact absurd found (by simp [behindChar])
    | cons c cs =>
      rw [List.flatMap_cons, behindChar_encode] at found
      exact ⟨cs, (Option.some.inj found).symm⟩
  · rintro ⟨cs, rfl⟩
    obtain ⟨c, rfl⟩ := behindChar_some found
    exact ⟨c :: cs, rfl⟩

/-- A text with no character at the front is empty or not well formed. -/
theorem not_wellFormed {l : List (BitVec 8)} (some : l ≠ []) (none : behindChar l = none) :
    ¬WellFormed l := by
  rintro ⟨cs, rfl⟩
  cases cs with
  | nil => exact some rfl
  | cons c cs => exact absurd none (by rw [List.flatMap_cons, behindChar_encode]; simp)

/-- A text is the encoding of one row of characters. -/
theorem flatMap_encode_injective {cs cs' : List Char} (same : cs.flatMap encode = cs'.flatMap encode) :
    cs = cs' := by
  -- Both encodings are one byte array, which is decoded in one way.
  have bytes (l : List Char) :
      l.flatMap encode = (l.flatMap String.utf8EncodeChar).map UInt8.toBitVec := by
    rw [List.map_flatMap]
    rfl
  rw [bytes, bytes] at same
  have whole := List.map_injective_iff.mpr (fun _ _ => UInt8.toBitVec_inj.mp) same
  have encoded : cs.utf8Encode = cs'.utf8Encode := by rw [List.utf8Encode, List.utf8Encode, whole]
  have decoded := congrArg ByteArray.utf8Decode? encoded
  rw [List.utf8Decode?_utf8Encode, List.utf8Decode?_utf8Encode, Option.some.injEq] at decoded
  simpa using decoded

/-- A byte of ASCII parts a text. -/
theorem wellFormed_ascii {l r : List (BitVec 8)} {b : BitVec 8} (ascii : b.toNat < 0x80) :
    WellFormed (l ++ b :: r) ↔ WellFormed l ∧ WellFormed r := by
  -- By the characters of the part in front.
  induction size : l.length using Nat.strongRecOn generalizing l with
  | ind n ih =>
    by_cases some : l = []
    · obtain ⟨c, -, one⟩ := exists_ascii ascii
      have found := behindChar_encode c r
      rw [one, List.singleton_append] at found
      rw [some, List.nil_append, wellFormed_of_behindChar found]
      exact (and_iff_right wellFormed_nil).symm
    · have behind := behindChar_ascii ascii r some
      cases found : behindChar l with
      | none =>
        rw [found, Option.map_none] at behind
        exact iff_of_false (not_wellFormed (by simp) behind)
          fun both => not_wellFormed some found both.1
      | some t =>
        rw [found, Option.map_some] at behind
        rw [wellFormed_of_behindChar behind, wellFormed_of_behindChar found]
        exact ih t.length (size ▸ (behindChar_suffix found).1) rfl

end Utf8
