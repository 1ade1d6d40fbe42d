import Emu80535.Lib.JsonTree
import Emu80535.Lib.Utf8

/-! What strings of the JSON grammar stand for, character by character. -/

open Computability

namespace JsonGrammar

open Recogniser
open Utf8 (encode encode_eq WellFormed)

/-! ### Characters and escapes -/

/-- The value of a hexadecimal digit. -/
def hexDigitValue (c : BitVec 8) : Nat :=
  if c ≤ ascii '9' then c.toNat - 0x30
  else if c ≤ ascii 'F' then c.toNat - 0x37
  else c.toNat - 0x57

/-- The number that four hexadecimal digits make. -/
def codeUnit (a b c d : BitVec 8) : Nat :=
  ((hexDigitValue a * 16 + hexDigitValue b) * 16 + hexDigitValue c) * 16 + hexDigitValue d

/-- What stands behind the backslash of a short escape, and the character that it stands for. -/
def shortEscapes : List (BitVec 8 × Nat) :=
  [(quote, 0x22), (backslash, 0x5C), (ascii '/', 0x2F), (ascii 'b', 0x08), (ascii 'f', 0x0C),
   (ascii 'n', 0x0A), (ascii 'r', 0x0D), (ascii 't', 0x09)]

/-- One character of a string, as it is or as an escape. -/
inductive Letter : List (BitVec 8) → Char → Prop
  | plain {c : Char} (printable : 0x20 ≤ c.toNat) (bare : c.toNat ≠ 0x22 ∧ c.toNat ≠ 0x5C) :
    Letter (encode c) c
  | short {b : BitVec 8} {c : Char} (known : (b, c.toNat) ∈ shortEscapes) :
    Letter [backslash, b] c
  | unit {x y z w : BitVec 8} {c : Char}
    (digits : isHex x = true ∧ isHex y = true ∧ isHex z = true ∧ isHex w = true)
    (value : c.toNat = codeUnit x y z w) : Letter [backslash, ascii 'u', x, y, z, w] c
  | pair {x y z w x' y' z' w' : BitVec 8} {c : Char}
    (digits : isHex x = true ∧ isHex y = true ∧ isHex z = true ∧ isHex w = true)
    (digits' : isHex x' = true ∧ isHex y' = true ∧ isHex z' = true ∧ isHex w' = true)
    (high : 0xD800 ≤ codeUnit x y z w ∧ codeUnit x y z w ≤ 0xDBFF)
    (low : 0xDC00 ≤ codeUnit x' y' z' w' ∧ codeUnit x' y' z' w' ≤ 0xDFFF)
    (value : c.toNat =
      0x10000 + (codeUnit x y z w - 0xD800) * 0x400 + (codeUnit x' y' z' w' - 0xDC00)) :
    Letter [backslash, ascii 'u', x, y, z, w, backslash, ascii 'u', x', y', z', w'] c

/-- The characters that the raw text of a string stands for. -/
inductive Means : List (BitVec 8) → List Char → Prop
  | nil : Means [] []
  | cons {piece raw : List (BitVec 8)} {c : Char} {cs : List Char} (first : Letter piece c)
    (rest : Means raw cs) : Means (piece ++ raw) (c :: cs)

/-- An escape for one half of a surrogate pair without the other. -/
inductive Lone : List (BitVec 8) → Prop
  | low {x y z w : BitVec 8} {raw : List (BitVec 8)}
    (digits : isHex x = true ∧ isHex y = true ∧ isHex z = true ∧ isHex w = true)
    (half : 0xDC00 ≤ codeUnit x y z w ∧ codeUnit x y z w ≤ 0xDFFF) :
    Lone (backslash :: ascii 'u' :: x :: y :: z :: w :: raw)
  | high {x y z w : BitVec 8} {raw : List (BitVec 8)}
    (digits : isHex x = true ∧ isHex y = true ∧ isHex z = true ∧ isHex w = true)
    (half : 0xD800 ≤ codeUnit x y z w ∧ codeUnit x y z w ≤ 0xDBFF)
    (behind : raw ∈ body)
    (alone : ∀ x' y' z' w' t, raw = backslash :: ascii 'u' :: x' :: y' :: z' :: w' :: t →
      ¬(0xDC00 ≤ codeUnit x' y' z' w' ∧ codeUnit x' y' z' w' ≤ 0xDFFF)) :
    Lone (backslash :: ascii 'u' :: x :: y :: z :: w :: raw)

/-! ### Texts of strings -/

/-- The empty text is the text of a string. -/
theorem body_nil : [] ∈ body := Language.nil_mem_kstar _

/-- A word in front of the text of a string is the text of one again. -/
theorem body_append {w raw : List (BitVec 8)}
    (word : w ∈ symbols isPlain + char backslash * escaped) (rest : raw ∈ body) :
    w ++ raw ∈ body :=
  (mul_kstar_le_kstar : _ * body ≤ body) (Language.append_mem_mul word rest)

/-- A plain byte may come first. -/
theorem body_plain {c : BitVec 8} {raw : List (BitVec 8)} (plain : isPlain c = true)
    (rest : raw ∈ body) : c :: raw ∈ body :=
  body_append (w := [c]) ((Language.mem_add _ _ _).mpr (Or.inl (mem_symbols.mpr ⟨c, plain, rfl⟩)))
    rest

/-- A short escape may come first. -/
theorem body_short {c : BitVec 8} {raw : List (BitVec 8)} (known : isShortEscape c = true)
    (rest : raw ∈ body) : backslash :: c :: raw ∈ body :=
  body_append (w := [backslash, c]) ((Language.mem_add _ _ _).mpr (Or.inr
    (Language.append_mem_mul (a := [backslash]) (mem_char.mpr rfl)
      ((Language.mem_add _ _ _).mpr (Or.inl (mem_symbols.mpr ⟨c, known, rfl⟩)))))) rest

/-- An escape of four digits may come first. -/
theorem body_hex {x y z w : BitVec 8} {raw : List (BitVec 8)}
    (digits : isHex x = true ∧ isHex y = true ∧ isHex z = true ∧ isHex w = true)
    (rest : raw ∈ body) : backslash :: ascii 'u' :: x :: y :: z :: w :: raw ∈ body := by
  obtain ⟨one, two, three, four⟩ := digits
  -- Four digits in a row are the fourth power of one.
  have hex : [x, y, z, w] ∈ symbols isHex ^ 4 := by
    simp only [pow_succ, pow_zero, one_mul]
    exact Language.append_mem_mul (a := [x, y, z]) (Language.append_mem_mul (a := [x, y])
      (Language.append_mem_mul (a := [x]) (mem_symbols.mpr ⟨x, one, rfl⟩)
        (mem_symbols.mpr ⟨y, two, rfl⟩)) (mem_symbols.mpr ⟨z, three, rfl⟩))
        (mem_symbols.mpr ⟨w, four, rfl⟩)
  exact body_append (w := [backslash, ascii 'u', x, y, z, w]) ((Language.mem_add _ _ _).mpr (Or.inr
    (Language.append_mem_mul (a := [backslash]) (mem_char.mpr rfl)
      ((Language.mem_add _ _ _).mpr (Or.inr (Language.append_mem_mul (a := [ascii 'u'])
        (mem_char.mpr rfl) hex)))))) rest

/-- How the text of a string begins, and that the rest is one again. -/
theorem body_cases {raw : List (BitVec 8)} (word : raw ∈ body) :
    raw = [] ∨ (∃ c t, raw = c :: t ∧ isPlain c = true ∧ t ∈ body) ∨
      (∃ c t, raw = backslash :: c :: t ∧ isShortEscape c = true ∧ t ∈ body) ∨
      ∃ x y z w t, raw = backslash :: ascii 'u' :: x :: y :: z :: w :: t ∧
        (isHex x = true ∧ isHex y = true ∧ isHex z = true ∧ isHex w = true) ∧ t ∈ body := by
  -- By induction on the text, with its membership carried along.
  have both := body_induction (motive := fun raw => raw ∈ body ∧
    (raw = [] ∨ (∃ c t, raw = c :: t ∧ isPlain c = true ∧ t ∈ body) ∨
      (∃ c t, raw = backslash :: c :: t ∧ isShortEscape c = true ∧ t ∈ body) ∨
      ∃ x y z w t, raw = backslash :: ascii 'u' :: x :: y :: z :: w :: t ∧
        (isHex x = true ∧ isHex y = true ∧ isHex z = true ∧ isHex w = true) ∧ t ∈ body))
    ⟨body_nil, Or.inl rfl⟩
    (fun c raw plain rest => ⟨body_plain plain rest.1,
      Or.inr (Or.inl ⟨c, raw, rfl, plain, rest.1⟩)⟩)
    (fun c raw known rest => ⟨body_short known rest.1,
      Or.inr (Or.inr (Or.inl ⟨c, raw, rfl, known, rest.1⟩))⟩)
    (fun a b c d raw one two three four rest => ⟨body_hex ⟨one, two, three, four⟩ rest.1,
      Or.inr (Or.inr (Or.inr ⟨a, b, c, d, raw, rfl, ⟨one, two, three, four⟩, rest.1⟩))⟩)
    word
  exact both.2

/-- What is no backslash is plain. -/
theorem body_tail {c : BitVec 8} {raw : List (BitVec 8)} (word : c :: raw ∈ body)
    (other : c ≠ backslash) : isPlain c = true ∧ raw ∈ body := by
  rcases body_cases word with none | ⟨d, t, same, plain, rest⟩ | ⟨d, t, same, -⟩ |
    ⟨x, y, z, w, t, same, -⟩
  · exact absurd none (by simp)
  · obtain ⟨rfl, rfl⟩ := List.cons.inj same
    exact ⟨plain, rest⟩
  · exact absurd (List.cons.inj same).1 other
  · exact absurd (List.cons.inj same).1 other

/-- What comes before the first escape is plain. -/
theorem body_drop {front raw : List (BitVec 8)} (word : front ++ raw ∈ body)
    (other : backslash ∉ front) : (∀ c ∈ front, isPlain c = true) ∧ raw ∈ body := by
  induction front with
  | nil => exact ⟨fun c member => absurd member List.not_mem_nil, word⟩
  | cons c front ih =>
    obtain ⟨plain, rest⟩ := body_tail word fun same => other (same ▸ List.mem_cons_self)
    obtain ⟨all, rest⟩ := ih rest fun member => other (List.mem_cons_of_mem _ member)
    exact ⟨List.forall_mem_cons.mpr ⟨plain, all⟩, rest⟩

/-! ### Meanings -/

/-- The value of a digit is below sixteen. -/
theorem hexDigitValue_lt {c : BitVec 8} (digit : isHex c = true) : hexDigitValue c < 16 := by
  rw [isHex_iff] at digit
  have nine : c ≤ ascii '9' ↔ c.toNat ≤ 0x39 := BitVec.le_def
  have letter : c ≤ ascii 'F' ↔ c.toNat ≤ 0x46 := BitVec.le_def
  simp only [hexDigitValue, nine, letter]
  split_ifs <;> omega

/-- The value of four digits is below 65536. -/
theorem codeUnit_lt {x y z w : BitVec 8}
    (digits : isHex x = true ∧ isHex y = true ∧ isHex z = true ∧ isHex w = true) :
    codeUnit x y z w < 0x10000 := by
  have one := hexDigitValue_lt digits.1
  have two := hexDigitValue_lt digits.2.1
  have three := hexDigitValue_lt digits.2.2.1
  have four := hexDigitValue_lt digits.2.2.2
  rw [codeUnit]
  omega

/-- The encoding of a character of ASCII. -/
theorem encode_ascii {c : Char} (small : c.toNat < 0x80) : encode c = [BitVec.ofNat 8 c.toNat] := by
  rw [encode_eq, Utf8.encodeNat, if_pos (by omega)]

/-- Other bytes are what the other characters are encoded in. -/
theorem encode_high {c : Char} (large : 0x80 ≤ c.toNat) {b : BitVec 8} (member : b ∈ encode c) :
    0x80 ≤ b.toNat := by
  by_contra small
  have one := Utf8.ascii_encode member (Nat.not_le.mp small)
  rw [encode_eq, Utf8.encodeNat, if_neg (by omega)] at one
  have size := congrArg List.length one
  split_ifs at size <;> exact absurd size (by simp)

/-- No byte of a multi-byte character is special. -/
theorem isPlain_high {b : BitVec 8} (large : 0x80 ≤ b.toNat) : isPlain b = true := by
  simp only [isPlain, Bool.and_eq_true, decide_eq_true_eq, bne_iff_ne, BitVec.le_def]
  refine ⟨⟨Nat.le_trans (by decide) large, ?_⟩, ?_⟩ <;> rintro rfl <;> exact absurd large (by decide)

/-- The bytes of a character that stands for itself. -/
theorem encode_plain {c : Char} (printable : 0x20 ≤ c.toNat)
    (bare : c.toNat ≠ 0x22 ∧ c.toNat ≠ 0x5C) {b : BitVec 8} (member : b ∈ encode c) :
    isPlain b = true := by
  -- An ASCII character is its own byte; the bytes of a longer one are all high.
  by_cases small : c.toNat < 0x80
  · rw [encode_ascii small, List.mem_singleton] at member
    have value : b.toNat = c.toNat := by rw [member, Utf8.small_toNat (by omega)]
    simp only [isPlain, Bool.and_eq_true, decide_eq_true_eq, bne_iff_ne, BitVec.le_def]
    refine ⟨⟨value ▸ printable, ?_⟩, ?_⟩ <;> rintro rfl
    · exact bare.1 value.symm
    · exact bare.2 value.symm
  · exact isPlain_high (encode_high (Nat.not_lt.mp small) member)

/-- The spelling of a character may come first. -/
theorem Letter.body {piece raw : List (BitVec 8)} {c : Char} (first : Letter piece c)
    (rest : raw ∈ body) : piece ++ raw ∈ body := by
  -- One case for each way to spell a character.
  cases first with
  | plain printable bare =>
    have all := fun b member => encode_plain (b := b) printable bare member
    generalize encode c = bytes at all
    induction bytes with
    | nil => exact rest
    | cons b bytes ih =>
      exact body_plain (all b List.mem_cons_self)
        (ih fun d member => all d (List.mem_cons_of_mem _ member))
  | @short b c known =>
    refine body_short ?_ rest
    simp only [shortEscapes, List.mem_cons, Prod.mk.injEq, List.not_mem_nil, or_false] at known
    rcases known with ⟨rfl, -⟩ | ⟨rfl, -⟩ | ⟨rfl, -⟩ | ⟨rfl, -⟩ | ⟨rfl, -⟩ | ⟨rfl, -⟩ | ⟨rfl, -⟩ |
      ⟨rfl, -⟩ <;> decide
  | unit digits value => exact body_hex digits rest
  | pair digits digits' high low value => exact body_hex digits (body_hex digits' rest)

/-- What has a meaning is the text of a string. -/
theorem Means.body {raw : List (BitVec 8)} {cs : List Char} (means : Means raw cs) :
    raw ∈ body := by
  induction means with
  | nil => exact body_nil
  | cons first rest ih => exact first.body ih

/-- A character is encoded in at most so many bytes. -/
theorem encode_length_le (c : Char) {bound : Nat} (large : 0x10000 ≤ c.toNat → 4 ≤ bound)
    (middle : 0x800 ≤ c.toNat → 3 ≤ bound) (small : 0x80 ≤ c.toNat → 2 ≤ bound)
    (least : 1 ≤ bound) : (encode c).length ≤ bound := by
  rw [encode_eq, Utf8.encodeNat]
  split_ifs <;> simp only [List.length_cons, List.length_nil] <;> omega

/-- No character is encoded longer than it is spelt. -/
theorem Letter.length {piece : List (BitVec 8)} {c : Char} (first : Letter piece c) :
    (encode c).length ≤ piece.length := by
  -- One case for each way to spell a character, the longest encoding of each known.
  cases first with
  | plain => exact Nat.le_refl _
  | @short b c known =>
    have small : c.toNat < 0x80 := by
      simp only [shortEscapes, List.mem_cons, Prod.mk.injEq, List.not_mem_nil, or_false] at known
      omega
    rw [encode_ascii small]
    exact Nat.le_add_left _ _
  | unit digits value =>
    have := codeUnit_lt digits
    refine encode_length_le c (fun _ => ?_) (fun _ => ?_) (fun _ => ?_) ?_ <;>
      simp only [List.length_cons, List.length_nil] <;> omega
  | pair => exact encode_length_le c (by simp) (by simp) (by simp) (by simp)

/-- No string is shorter than what it stands for. -/
theorem Means.length {raw : List (BitVec 8)} {cs : List Char} (means : Means raw cs) :
    (cs.flatMap encode).length ≤ raw.length := by
  induction means with
  | nil => exact Nat.le_refl _
  | cons first rest ih =>
    rw [List.flatMap_cons, List.length_append, List.length_append]
    exact Nat.add_le_add first.length ih

/-- The characters of the escapes. -/
theorem exists_short {b : BitVec 8} (known : isShortEscape b = true) :
    ∃ c : Char, (b, c.toNat) ∈ shortEscapes := by
  simp only [isShortEscape, Bool.or_eq_true, beq_iff_eq, asciis, List.contains_eq_mem, List.map_cons,
    List.map_nil, decide_eq_true_eq, List.mem_cons, List.not_mem_nil, or_false] at known
  -- The eight escapes, each with its own character.
  rcases known with (rfl | rfl) | rfl | rfl | rfl | rfl | rfl | rfl
  · exact ⟨Char.ofNat 0x22, by decide⟩
  · exact ⟨Char.ofNat 0x5C, by decide⟩
  · exact ⟨Char.ofNat 0x2F, by decide⟩
  · exact ⟨Char.ofNat 0x08, by decide⟩
  · exact ⟨Char.ofNat 0x0C, by decide⟩
  · exact ⟨Char.ofNat 0x0A, by decide⟩
  · exact ⟨Char.ofNat 0x0D, by decide⟩
  · exact ⟨Char.ofNat 0x09, by decide⟩

/-- The text of a string begins with a character or half of one, or ends. -/
theorem body_piece {raw : List (BitVec 8)} (word : raw ∈ body) (valid : WellFormed raw) :
    raw = [] ∨ Lone raw ∨ ∃ piece c t, raw = piece ++ t ∧ piece ≠ [] ∧ Letter piece c ∧ t ∈ body ∧
      WellFormed t := by
  have behind {b : BitVec 8} {t : List (BitVec 8)} (ascii : b.toNat < 0x80)
      (valid : WellFormed (b :: t)) : WellFormed t :=
    ((Utf8.wellFormed_ascii (l := []) ascii).mp valid).2
  have digit {b : BitVec 8} (hex : isHex b = true) : b.toNat < 0x80 := by
    rw [isHex_iff] at hex
    omega
  have beyond {x y z w : BitVec 8} {t : List (BitVec 8)}
      (digits : isHex x = true ∧ isHex y = true ∧ isHex z = true ∧ isHex w = true)
      (valid : WellFormed (backslash :: ascii 'u' :: x :: y :: z :: w :: t)) : WellFormed t :=
    behind (digit digits.2.2.2) (behind (digit digits.2.2.1) (behind (digit digits.2.1)
      (behind (digit digits.1) (behind (by decide) (behind (by decide) valid)))))
  rcases body_cases word with none | ⟨b, t, rfl, plain, rest⟩ | ⟨b, t, rfl, known, rest⟩ |
    ⟨x, y, z, w, t, rfl, digits, rest⟩
  · exact Or.inl none
  · -- A character, of which the byte at the front is the first.
    obtain ⟨cs, whole⟩ := valid
    cases cs with
    | nil => exact absurd whole (by simp)
    | cons c cs =>
      rw [List.flatMap_cons] at whole
      simp only [isPlain, Bool.and_eq_true, decide_eq_true_eq, bne_iff_ne, BitVec.le_def] at plain
      have first : encode c = b :: (encode c).tail := by
        cases bytes : encode c with
        | nil => exact absurd bytes (Utf8.encode_ne_nil c)
        | cons d bytes =>
          rw [bytes] at whole
          rw [(List.cons.inj whole).1, List.tail_cons]
      have other : backslash ∉ encode c := by
        intro member
        have one := Utf8.ascii_encode member (by decide)
        rw [first] at one
        exact plain.2 (List.cons.inj one).1
      have word' := body_drop (whole ▸ word) other
      refine Or.inr (Or.inr ⟨encode c, c, cs.flatMap encode, whole, Utf8.encode_ne_nil c, ?_,
        word'.2, ⟨cs, rfl⟩⟩)
      by_cases small : c.toNat < 0x80
      · have one : b = BitVec.ofNat 8 c.toNat := by
          rw [encode_ascii small] at first
          exact (List.cons.inj first).1.symm
        have value : b.toNat = c.toNat := by rw [one, Utf8.small_toNat (by omega)]
        refine Letter.plain (value ▸ plain.1.1) ⟨fun same => plain.1.2 ?_, fun same => plain.2 ?_⟩ <;>
          rw [one, same] <;> rfl
      · exact Letter.plain (by omega) ⟨by omega, by omega⟩
  · obtain ⟨c, found⟩ := exists_short known
    have small : b.toNat < 0x80 := by
      simp only [shortEscapes, List.mem_cons, Prod.mk.injEq, List.not_mem_nil, or_false] at found
      rcases found with ⟨rfl, -⟩ | ⟨rfl, -⟩ | ⟨rfl, -⟩ | ⟨rfl, -⟩ | ⟨rfl, -⟩ | ⟨rfl, -⟩ |
        ⟨rfl, -⟩ | ⟨rfl, -⟩ <;> decide
    exact Or.inr (Or.inr ⟨[backslash, b], c, t, rfl, by simp, Letter.short found, rest,
      behind small (behind (by decide) valid)⟩)
  · have size := codeUnit_lt digits
    have valid' := beyond digits valid
    by_cases low : 0xDC00 ≤ codeUnit x y z w ∧ codeUnit x y z w ≤ 0xDFFF
    · exact Or.inr (Or.inl (Lone.low digits low))
    by_cases high : 0xD800 ≤ codeUnit x y z w ∧ codeUnit x y z w ≤ 0xDBFF
    · by_cases paired : ∃ x' y' z' w' t', t = backslash :: ascii 'u' :: x' :: y' :: z' :: w' :: t' ∧
          0xDC00 ≤ codeUnit x' y' z' w' ∧ codeUnit x' y' z' w' ≤ 0xDFFF
      · obtain ⟨x', y', z', w', t', rfl, low'⟩ := paired
        have digits' : (isHex x' = true ∧ isHex y' = true ∧ isHex z' = true ∧ isHex w' = true) ∧
            t' ∈ body := by
          rcases body_cases rest with none | ⟨b, u, same, plain, -⟩ | ⟨b, u, same, known, -⟩ |
            ⟨_, _, _, _, _, same, digits', rest'⟩
          · exact absurd none (by simp)
          · rw [← (List.cons.inj same).1] at plain
            exact absurd plain (by decide)
          · rw [← (List.cons.inj (List.cons.inj same).2).1] at known
            exact absurd known (by decide)
          · simp only [List.cons.injEq, true_and] at same
            obtain ⟨rfl, rfl, rfl, rfl, rfl⟩ := same
            exact ⟨digits', rest'⟩
        obtain ⟨c, value⟩ := @Utf8.exists_char (0x10000 + (codeUnit x y z w - 0xD800) * 0x400 +
          (codeUnit x' y' z' w' - 0xDC00)) (by simp only [Nat.isValidChar]; omega)
        exact Or.inr (Or.inr ⟨_, c, t', rfl, by simp, Letter.pair digits digits'.1 high low' value,
          digits'.2, beyond digits'.1 valid'⟩)
      · exact Or.inr (Or.inl (Lone.high digits high rest fun x' y' z' w' t' same both =>
          paired ⟨x', y', z', w', t', same, both⟩))
    · obtain ⟨c, value⟩ := @Utf8.exists_char (codeUnit x y z w)
        (by simp only [Nat.isValidChar]; omega)
      exact Or.inr (Or.inr ⟨[backslash, ascii 'u', x, y, z, w], c, t, rfl, by simp,
        Letter.unit digits value, rest, valid'⟩)

/-- Every string stands for some characters, unless half of a surrogate pair comes behind them. -/
theorem means_or_lone {raw : List (BitVec 8)} (word : raw ∈ body) (valid : WellFormed raw) :
    ∃ front back cs, raw = front ++ back ∧ Means front cs ∧ (back = [] ∨ Lone back) := by
  -- By induction on the length: nothing left, half a pair in front, or one more character.
  induction size : raw.length using Nat.strongRecOn generalizing raw with
  | ind n ih =>
    rcases body_piece word valid with none | lone | ⟨piece, c, t, rfl, some, first, rest, valid⟩
    · exact ⟨[], raw, [], rfl, Means.nil, Or.inl none⟩
    · exact ⟨[], raw, [], rfl, Means.nil, Or.inr lone⟩
    · have front := List.length_pos_iff.mpr some
      rw [List.length_append] at size
      obtain ⟨front, back, cs, rfl, means, ends⟩ := ih t.length (by omega) rest valid rfl
      exact ⟨piece ++ front, back, c :: cs, (List.append_assoc ..).symm, Means.cons first means, ends⟩

end JsonGrammar
