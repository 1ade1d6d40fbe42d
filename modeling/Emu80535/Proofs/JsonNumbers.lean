import Mathlib.Data.List.TakeWhile
import Emu80535.Lib.JsonNumber
import Emu80535.Proofs.JsonStrings

/-! Numbers of JSON documents are read exactly, from strings and from primitives. -/

namespace Emu80535

open JsonGrammar Recogniser
open Utf8 (encode)

/-! ### Numbers in strings -/

/-- The number some digits make behind another one. -/
def valueFrom (n : Nat) (text : List Byte) : Nat :=
  text.foldl (fun n c => 10 * n + (c.toNat - 0x30)) n

/-- Digits only make a number larger. -/
theorem valueFrom_le (n : Nat) (text : List Byte) : n ≤ valueFrom n text := by
  induction text generalizing n with
  | nil => exact Nat.le_refl n
  | cons c text ih => exact Nat.le_trans (by omega) (ih (10 * n + (c.toNat - 0x30)))

/-- What the loop makes of a character. -/
theorem u64_digit (c : Byte) : (isDigit c = true ↔ ¬9#32 < c.signExtend 32 - 0x30#32) ∧
    (isDigit c = true → (c.signExtend 32 - 0x30#32).toNat = c.toNat - 0x30) := by
  have small := c.isLt
  -- The source subtracts in a signed character, so bytes from 80h on come out huge.
  have whole : (c.signExtend 32).toNat = c.toNat + if 0x80 ≤ c.toNat then 0xFFFFFF00 else 0 := by
    rw [BitVec.toNat_signExtend, BitVec.msb_eq_decide, BitVec.toNat_setWidth,
      Nat.mod_eq_of_lt (by omega)]
    simp only [decide_eq_true_eq]
  have less : (c.signExtend 32 - 0x30#32).toNat =
      (0xFFFFFFD0 + (c.signExtend 32).toNat) % 0x100000000 := by
    rw [BitVec.toNat_sub]
    rfl
  rw [isDigit_iff, BitVec.lt_def, less, whole, BitVec.toNat_ofNat]
  split <;> omega

/-- The guard against overflow is exact. -/
theorem u64_guard {digit : BitVec 32} (n : BitVec 64) (small : digit.toNat ≤ 9) :
    (-1#64 - digit.setWidth 64) / 10#64 < n ↔ 2 ^ 64 ≤ 10 * n.toNat + digit.toNat := by
  have wide : (digit.setWidth 64).toNat = digit.toNat := BitVec.toNat_setWidth_of_le (by decide)
  -- The right side of the guard does not wrap, so it is a fact about numbers.
  have rest : (-1#64 - digit.setWidth 64).toNat = 2 ^ 64 - 1 - digit.toNat := by
    rw [BitVec.toNat_sub_of_le (by rw [BitVec.le_def, wide]; exact Nat.le_trans small (by decide)),
      wide]
    rfl
  rw [BitVec.lt_def, BitVec.toNat_udiv, rest]
  have ten : (10#64).toNat = 10 := rfl
  rw [ten]
  omega

/-- The loop computes the number unless a character or the number is out of range. -/
theorem u64Loop_eq (text : List Byte) (n : BitVec 64) :
    u64Loop text n =
      if (∀ c ∈ text, isDigit c = true) ∧ valueFrom n.toNat text < 2 ^ 64 then
        some (BitVec.ofNat 64 (valueFrom n.toNat text))
      else none := by
  -- By the characters; a number that is too large stays too large.
  induction text generalizing n with
  | nil =>
    rw [if_pos ⟨by simp, n.isLt⟩, u64Loop, valueFrom, List.foldl_nil, BitVec.ofNat_toNat,
      BitVec.setWidth_eq]
  | cons c rest ih =>
    obtain ⟨is, value⟩ := u64_digit c
    rw [u64Loop]
    generalize c.signExtend 32 - 0x30#32 = digit at is value
    by_cases digits : isDigit c = true
    · have value := value digits
      have small : digit.toNat ≤ 9 := BitVec.not_lt.mp (is.mp digits)
      have wide : (digit.setWidth 64).toNat = digit.toNat := BitVec.toNat_setWidth_of_le (by decide)
      have next : valueFrom n.toNat (c :: rest) =
          valueFrom (10 * n.toNat + digit.toNat) rest := by
        rw [value]
        rfl
      by_cases large : 2 ^ 64 ≤ 10 * n.toNat + digit.toNat
      · rw [if_pos (Or.inr ((u64_guard n small).mpr large)), if_neg]
        rintro ⟨-, below⟩
        have grown := valueFrom_le (10 * n.toNat + digit.toNat) rest
        rw [next] at below
        omega
      · have sum : (n * 10#64 + digit.setWidth 64).toNat = 10 * n.toNat + digit.toNat := by
          rw [BitVec.toNat_add, BitVec.toNat_mul, wide]
          have ten : (10#64).toNat = 10 := rfl
          rw [ten]
          omega
        rw [if_neg (not_or.mpr ⟨is.mp digits, fun guard => large ((u64_guard n small).mp guard)⟩),
          ih, sum, next]
        simp only [List.forall_mem_cons, digits, true_and]
    · rw [if_pos (Or.inl (not_not.mp fun not => digits (is.mpr not))), if_neg]
      exact fun both => digits (both.1 c List.mem_cons_self)

/-- The loop of `json_u64` from zero on reads a numeral. -/
theorem u64Loop_zero (text : List Byte) (v : BitVec 64) :
    u64Loop text 0#64 = some v ↔
      (∀ c ∈ text, isDigit c = true) ∧ numeralValue text = v.toNat := by
  have start : valueFrom (0#64).toNat text = numeralValue text := rfl
  rw [u64Loop_eq, start]
  constructor
  · -- It answers for digits whose number fits.
    intro ran
    split at ran
    · rename_i both
      rw [← Option.some.inj ran, BitVec.toNat_ofNat, Nat.mod_eq_of_lt both.2]
      exact ⟨both.1, rfl⟩
    · exact absurd ran (by simp)
  · -- The other way the number is that of the answer.
    rintro ⟨digits, value⟩
    rw [if_pos ⟨digits, value ▸ v.isLt⟩, value, BitVec.ofNat_toNat, BitVec.setWidth_eq]

/-- The numeral of a number is the encoding of its digits. -/
theorem encode_digits (n : Nat) : (Nat.toDigits 10 n).flatMap encode = numeral n := by
  -- The digits of a number are ASCII.
  have digits : ∀ c ∈ Nat.toDigits 10 n, c.isDigit = true := fun c member =>
    Nat.isDigit_of_mem_toDigits (by decide) (by decide) member
  rw [numeral]
  generalize Nat.toDigits 10 n = cs at digits
  -- By induction on the digits, each of which encodes to itself.
  induction cs with
  | nil => rfl
  | cons c cs ih =>
    have digit := digits c List.mem_cons_self
    simp only [Char.isDigit, Bool.and_eq_true, decide_eq_true_eq] at digit
    have upper : c.toNat ≤ 57 := digit.2
    rw [List.flatMap_cons, encode_ascii (by omega),
      ih fun c member => digits c (List.mem_cons_of_mem _ member)]
    rfl

/-- The numerals of 64-bit numbers have at most twenty digits. -/
theorem numeral_length (v : BitVec 64) : (numeral v.toNat).length ≤ 20 := by
  rw [numeral, List.length_map, Nat.length_toDigits_le_iff (by decide) (by decide)]
  exact v.isLt.trans (by decide)

section Documents

variable {d : JsonDocument} {n : Node} {t : Int} {token : JsonToken}

/-- A string that stands for the digits of a number is read as that number. -/
theorem jsonU64_iff (of : DocumentOf d n) (found : d.token t = some token)
    (type : token.type = .string) (v : BitVec 64) :
    jsonU64 d t = some (some v) ↔ Means (d.slice token) (Nat.toDigits 10 v.toNat) := by
  constructor
  · -- What was read is a canonical numeral of the value.
    intro ran
    obtain ⟨decoded, read, checked⟩ := Option.map_eq_some_iff.mp ran
    obtain ⟨text, same, ran⟩ := Option.bind_eq_some_iff.mp checked
    rw [same] at read
    split at ran
    · exact absurd ran (by simp)
    rename_i plain
    rw [not_or] at plain
    obtain ⟨digits, value⟩ := (u64Loop_zero _ v).mp ran
    -- Without leading zeros a numeral is that of one number.
    obtain ⟨m, whole⟩ := canonical_iff.mp ⟨plain.1, plain.2, digits⟩
    rw [whole, numeralValue_numeral] at value
    obtain ⟨cs, means, -, same⟩ := (jsonStringDecode_iff of found type 21 false text).mp read
    rw [whole, value, ← encode_digits] at same
    rwa [Utf8.flatMap_encode_injective same]
  · intro means
    have text := encode_digits v.toNat
    -- Twenty digits and a terminator fit the buffer of the source.
    have fits : Fits 21 false [] (Nat.toDigits 10 v.toNat) := by
      refine ⟨?_, Or.inr fun c member => ?_⟩
      · rw [text, List.length_nil, Nat.zero_add]
        exact Nat.lt_succ_of_le (numeral_length v)
      · have digit := Nat.isDigit_of_mem_toDigits (by decide) (by decide) member
        simp only [Char.isDigit, Bool.and_eq_true, decide_eq_true_eq] at digit
        have lower : 48 ≤ c.toNat := digit.1
        omega
    have read := (jsonStringDecode_iff of found type 21 false _).mpr ⟨_, means, fits, rfl⟩
    rw [text] at read
    obtain ⟨some, leading, digits⟩ := canonical_iff.mpr ⟨v.toNat, rfl⟩
    rw [jsonU64, jsonString, read, Option.map_some, Option.bind_some,
      if_neg (not_or.mpr ⟨some, leading⟩),
      (u64Loop_zero _ v).mpr ⟨digits, numeralValue_numeral v.toNat⟩]

end Documents

/-! ### Primitives -/

/-- Digits are no blanks. -/
theorem isSpace_other {c : Byte} (other : isDigit c = true ∨ c = ascii '-') : isSpace c = false := by
  rcases other with digit | rfl
  · rw [isDigit_iff] at digit
    simp only [isSpace, ← BitVec.toNat_inj, BitVec.le_def, ← Bool.not_eq_true, Bool.or_eq_true,
      Bool.and_eq_true, decide_eq_true_eq, beq_iff_eq, BitVec.toNat_ofNat]
    omega
  · rfl

/-- The loop over the digits of a numeral takes all of it. -/
theorem numeral_taken (n : Nat) : (numeral n).takeWhile isDigit = numeral n ∧
    (numeral n).dropWhile isDigit = [] :=
  ⟨List.takeWhile_eq_self_iff.mpr numeral_digits, List.dropWhile_eq_nil_iff.mpr numeral_digits⟩

/-- A value, cut off where it leaves 64 bits. -/
def saturated (value : Int) : Int × Bool :=
  if value < -2 ^ 63 then (-2 ^ 63, true)
  else if 2 ^ 63 ≤ value then (2 ^ 63 - 1, true)
  else (value, false)

/-- The bounds of `json_integer` hold for a value where they hold for what remains of it. -/
theorem saturated_bounds (value minimum : Int) (maximum : Nat) :
    (if (saturated value).2 = true ∨ ([] : List Byte) ≠ [] ∨ (saturated value).1 < minimum ∨
        (0 ≤ (saturated value).1 ∧ maximum < (saturated value).1.toNat) then none
      else some (saturated value).1) =
      if -2 ^ 63 ≤ value ∧ value < 2 ^ 63 ∧ minimum ≤ value ∧ value ≤ maximum then some value
      else none := by
  rw [saturated]
  -- Below the range `strtoll` fails, and so do the bounds.
  by_cases below : value < -2 ^ 63
  · rw [if_pos below, if_pos (Or.inl rfl), if_neg (by omega)]
  rw [if_neg below]
  by_cases above : 2 ^ 63 ≤ value
  · rw [if_pos above, if_pos (Or.inl rfl), if_neg (by omega)]
  rw [if_neg above]
  simp only [Bool.false_eq_true, ne_eq, not_true, false_or]
  -- Within the range the caller's bounds decide.
  by_cases outside : value < minimum ∨ 0 ≤ value ∧ maximum < value.toNat
  · rw [if_pos outside, if_neg (by omega)]
  · rw [if_neg outside, if_pos (by omega)]

/-- `strtoll` reads an integer to its end. -/
theorem strtoll_integer {raw : List Byte} {v : Int} (text : IntegerText raw v) :
    strtoll raw = ((saturated v).1, (saturated v).2, []) := by
  -- No blank stands before the digits.
  have unspaced : raw.dropWhile isSpace = raw := by
    cases raw with
    | nil => rfl
    | cons c t =>
      exact List.dropWhile_cons_of_neg (Bool.eq_false_iff.mp
        (isSpace_other (text.chars c List.mem_cons_self)))
  have finish (value : Int) : (if value < -2 ^ 63 then (-2 ^ 63, true, ([] : List Byte))
      else if 2 ^ 63 ≤ value then (2 ^ 63 - 1, true, []) else (value, false, [])) =
      ((saturated value).1, (saturated value).2, []) := by
    rw [saturated]
    split_ifs <;> rfl
  rw [strtoll, unspaced]
  -- A numeral without a sign.
  cases text with
  | plain n =>
    obtain ⟨c, t, whole⟩ := List.exists_cons_of_ne_nil (numeral_ne_nil n)
    have digit := numeral_digits c (whole ▸ List.mem_cons_self)
    obtain ⟨minus, plus, -⟩ := isDigit_other digit
    have unsigned : ((numeral n).head? == some (ascii '-')) = false ∧
        ((numeral n).head? == some (ascii '+')) = false := by
      rw [whole, List.head?_cons]
      exact ⟨minus, plus⟩
    have some : (numeral n).isEmpty = false := by
      rw [whole]
      rfl
    simp only [unsigned.1, unsigned.2, Bool.or_self, Bool.false_eq_true, if_false,
      (numeral_taken n).1, (numeral_taken n).2, some]
    rw [show digitsValue (numeral n) = n from numeralValue_numeral n]
    exact finish n
  -- A numeral behind a minus sign.
  | minus n =>
    have some : (numeral n).isEmpty = false := List.isEmpty_eq_false_iff.mpr (numeral_ne_nil n)
    simp only [List.head?_cons, beq_self_eq_true, Bool.true_or, if_true, List.tail_cons,
      (numeral_taken n).1, (numeral_taken n).2, some, Bool.false_eq_true, if_false]
    rw [show digitsValue (numeral n) = n from numeralValue_numeral n]
    exact finish (-n)

/-- A number that is no integer has a point or a letter. -/
theorem number_cases {raw : List Byte} (word : raw ∈ number) :
    (∃ v, IntegerText raw v) ∨ ascii '.' ∈ raw ∨ ascii 'e' ∈ raw ∨ ascii 'E' ∈ raw := by
  -- The three parts of a number: integer, fraction, exponent.
  obtain ⟨sign, signed, _, behind, rfl⟩ := Language.mem_mul.mp word
  obtain ⟨whole, integer, _, stages, rfl⟩ := Language.mem_mul.mp behind
  obtain ⟨fraction, one, exponent, two, rfl⟩ := Language.mem_mul.mp stages
  -- Without fraction and exponent it is an integer.
  rcases (Language.mem_add _ _ _).mp one with none | some
  · rcases (Language.mem_add _ _ _).mp two with none' | some'
    · rw [(Language.mem_one _).mp none, (Language.mem_one _).mp none', List.append_nil,
        List.append_nil]
      exact Or.inl (mem_integer.mp (Language.append_mem_mul signed integer))
    · -- An exponent begins with its letter.
      obtain ⟨_, ⟨c, letter, rfl⟩, t, -, rfl⟩ := Language.mem_mul.mp some'
      rw [Bool.or_eq_true, beq_iff_eq, beq_iff_eq] at letter
      rcases letter with rfl | rfl <;> simp
  · -- A fraction begins with its point.
    obtain ⟨_, ⟨c, point, rfl⟩, t, -, rfl⟩ := Language.mem_mul.mp some
    rw [beq_iff_eq.mp point]
    simp

/-- Integers have none of those. -/
theorem integer_other {raw : List Byte} {v : Int} (text : IntegerText raw v) :
    ascii '.' ∉ raw ∧ ascii 'e' ∉ raw ∧ ascii 'E' ∉ raw ∧ raw ≠ [] := by
  -- A sign and digits are all the characters of an integer.
  have chars := text.chars
  refine ⟨fun member => ?_, fun member => ?_, fun member => ?_, ?_⟩
  · exact absurd (chars _ member) (by decide)
  · exact absurd (chars _ member) (by decide)
  · exact absurd (chars _ member) (by decide)
  · cases text with
    | plain n => exact numeral_ne_nil n
    | minus n => simp

/-- An integer has one value. -/
theorem integer_unique {raw : List Byte} {v w : Int} (text : IntegerText raw v)
    (text' : IntegerText raw w) : v = w := by
  -- No numeral begins with a minus sign.
  have first (m n : Nat) : numeral m ≠ ascii '-' :: numeral n := fun same =>
    absurd (numeral_digits (n := m) (ascii '-') (same ▸ List.mem_cons_self)) (by decide)
  cases text with
  | plain n =>
    generalize whole : numeral n = raw at text'
    cases text' with
    | plain m => rw [← numeralValue_numeral n, whole, numeralValue_numeral]
    | minus m => exact absurd whole (first n m)
  | minus n =>
    generalize whole : ascii '-' :: numeral n = raw at text'
    cases text' with
    | plain m => exact absurd whole.symm (first m n)
    | minus m =>
      rw [← numeralValue_numeral n, (List.cons.inj whole).2, numeralValue_numeral]

section Integers

variable {d : JsonDocument} {n : Node} {t : Int} {token : JsonToken}

/-- An integer is read where it lies within its bounds. -/
theorem jsonInteger_iff (of : DocumentOf d n) (found : d.token t = some token)
    (type : token.type = .primitive) (minimum : Int) (maximum : Nat) (v : Int) :
    jsonInteger d t minimum maximum = some v ↔
      IntegerText (d.slice token) v ∧ (d.slice token).length ≤ 31 ∧ -2 ^ 63 ≤ v ∧ v < 2 ^ 63 ∧
        minimum ≤ v ∧ v ≤ maximum := by
  have word := of.primitive (token_eq_some found).2 type
  rw [jsonInteger, found, Option.bind_some]
  dsimp only
  generalize d.slice token = raw at word
  by_cases integer : ∃ w, IntegerText raw w
  · obtain ⟨w, text⟩ := integer
    obtain ⟨point, letter, letter', some⟩ := integer_other text
    rw [strtoll_integer text]
    dsimp only
    by_cases long : 32 ≤ raw.length
    · rw [if_pos (Or.inr (Or.inr (Or.inl long)))]
      exact iff_of_false (by simp) fun both => Nat.not_lt.mpr both.2.1 long
    · have shape : ¬(token.type ≠ .primitive ∨ raw.length = 0 ∨ 32 ≤ raw.length ∨ ascii '.' ∈ raw ∨
          ascii 'e' ∈ raw ∨ ascii 'E' ∈ raw) := by
        simp only [not_or, not_not]
        exact ⟨type, mt List.length_eq_zero_iff.mp some, long, point, letter, letter'⟩
      rw [if_neg shape, saturated_bounds]
      constructor
      · intro read
        split at read
        · rename_i within
          obtain rfl := Option.some.inj read
          exact ⟨text, by omega, within⟩
        · exact absurd read (by simp)
      · rintro ⟨text', -, within⟩
        obtain rfl := integer_unique text text'
        rw [if_pos within]
  · refine iff_of_false ?_ fun both => integer ⟨v, both.1⟩
    rcases (Language.mem_add _ _ _).mp word with known | numeric
    · rcases known with rfl | rfl | rfl
      · rw [if_pos (by simp [asciis])]
        simp
      · rw [if_pos (by simp [asciis])]
        simp
      · -- No letter of it stops the check, but `strtoll` reads none of it.
        have unread : strtoll (asciis ['n', 'u', 'l', 'l']) =
            (0, false, asciis ['n', 'u', 'l', 'l']) := by decide
        rw [unread]
        dsimp only
        split
        · simp
        · rw [if_pos (by simp [asciis])]
          simp
    · rcases number_cases numeric with is | point | letter | letter'
      · exact absurd is integer
      · rw [if_pos (by simp [point])]
        simp
      · rw [if_pos (by simp [letter])]
        simp
      · rw [if_pos (by simp [letter'])]
        simp

end Integers

/-! ### Both kinds of numbers -/

/--
In a document that has been parsed, a string token is read as a 64-bit number exactly where it
stands for the decimal digits of that number, and a primitive token as a number within bounds
exactly where it is the text of that number with at most 31 characters.
-/
theorem json_integers_exact {text : List Byte} {strict multiline : Bool} {d : JsonDocument}
    (parsed : parseDocument text strict multiline = some (some d)) {t : Int} {token : JsonToken}
    (found : d.token t = some token) :
    (token.type = .string → (∃ answer, jsonU64 d t = some answer) ∧
      ∀ v : BitVec 64, jsonU64 d t = some (some v) ↔
        Means (d.slice token) (Nat.toDigits 10 v.toNat)) ∧
    (token.type = .primitive → ∀ (minimum : Int) (maximum : Nat) (v : Int),
      jsonInteger d t minimum maximum = some v ↔
        IntegerText (d.slice token) v ∧ (d.slice token).length ≤ 31 ∧ -2 ^ 63 ≤ v ∧ v < 2 ^ 63 ∧
          minimum ≤ v ∧ v ≤ maximum) := by
  obtain ⟨-, n, of, -⟩ := parseDocument_some parsed
  -- The string half and the integer half, and that the string half has an answer.
  refine ⟨fun type => ⟨?_, jsonU64_iff of found type⟩, fun type => jsonInteger_iff of found type⟩
  obtain ⟨decoded, read⟩ := jsonStringDecode_answers of found type 21 false
  rw [jsonU64, jsonString, read]
  exact ⟨_, rfl⟩

/-- A member named `7`, with -12 for its value. -/
def numberedDocument : JsonDocument :=
  ⟨[objectOpen, quote, ascii '7', quote, ascii ':', ascii '-', ascii '1', ascii '2', objectClose],
    [⟨.object, 0, 9, 2, -1⟩, ⟨.string, 2, 3, 0, 0⟩, ⟨.primitive, 5, 8, 0, 0⟩]⟩

/-- The numbered document is parsed as it stands. -/
theorem numberedDocument_parsed :
    parseDocument numberedDocument.text true false = some (some numberedDocument) := by
  rfl

/-- Both readers meet their laws on a document with a string of digits and a negative number. -/
theorem json_integers_exact_numbered :
    (jsonU64 numberedDocument 1 = some (some 7#64) ↔
      Means (numberedDocument.slice ⟨.string, 2, 3, 0, 0⟩) (Nat.toDigits 10 (7#64).toNat)) ∧
    (jsonInteger numberedDocument 2 (-20) 5 = some (-12) ↔
      IntegerText (numberedDocument.slice ⟨.primitive, 5, 8, 0, 0⟩) (-12) ∧
        (numberedDocument.slice ⟨.primitive, 5, 8, 0, 0⟩).length ≤ 31 ∧
          -2 ^ 63 ≤ (-12 : Int) ∧ (-12 : Int) < 2 ^ 63 ∧ (-20 : Int) ≤ -12 ∧ (-12 : Int) ≤ 5) :=
  ⟨((json_integers_exact numberedDocument_parsed (t := 1) rfl).1 rfl).2 7#64,
    (json_integers_exact numberedDocument_parsed (t := 2) rfl).2 rfl (-20) 5 (-12)⟩

end Emu80535
