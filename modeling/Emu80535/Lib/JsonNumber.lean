import Emu80535.Lib.JsonGrammar

/-! Integers of the JSON grammar are decimal numerals. -/

open Computability

namespace JsonGrammar

open Recogniser

/-- The decimal numeral of a number. -/
def numeral (n : Nat) : List (BitVec 8) := (Nat.toDigits 10 n).map ascii

/-- The number that some digits make. -/
def numeralValue (s : List (BitVec 8)) : Nat := s.foldl (fun n c => 10 * n + (c.toNat - 0x30)) 0

/-- A numeral for a number, with a sign if it is below zero, or if it is to stand for zero. -/
inductive IntegerText : List (BitVec 8) → Int → Prop
  | plain (n : Nat) : IntegerText (numeral n) n
  | minus (n : Nat) : IntegerText (ascii '-' :: numeral n) (-n)

/-! ### Digits -/

/-- The digit of a number below ten. -/
def digit (n : Nat) : BitVec 8 := BitVec.ofNat 8 (0x30 + n)

/-- The byte of a digit. -/
theorem digit_toNat {n : Nat} (small : n < 10) : (digit n).toNat = 0x30 + n := by
  rw [digit, BitVec.toNat_ofNat, Nat.mod_eq_of_lt (by omega)]

/-- It is one. -/
theorem isDigit_digit {n : Nat} (small : n < 10) : isDigit (digit n) = true := by
  rw [isDigit_iff, digit_toNat small]
  omega

/-- Every digit is the digit of its number. -/
theorem digit_value {c : BitVec 8} (is : isDigit c = true) :
    c.toNat - 0x30 < 10 ∧ digit (c.toNat - 0x30) = c := by
  rw [isDigit_iff] at is
  refine ⟨by omega, BitVec.eq_of_toNat_eq ?_⟩
  rw [digit_toNat (by omega)]
  omega

/-- The character Lean prints for a digit is that byte. -/
theorem ascii_digitChar {n : Nat} (small : n < 10) : ascii n.digitChar = digit n := by
  have all : ∀ n < 10, ascii (Nat.digitChar n) = digit n := by decide
  exact all n small

/-! ### Numerals -/

/-- A number below ten is written with one digit. -/
theorem numeral_small {n : Nat} (small : n < 10) : numeral n = [digit n] := by
  rw [numeral, Nat.toDigits_of_lt_base small, List.map_cons, List.map_nil, ascii_digitChar small]

/-- A numeral with one more digit. -/
theorem numeral_append {n d : Nat} (some : 0 < n) (small : d < 10) :
    numeral (10 * n + d) = numeral n ++ [digit d] := by
  rw [← numeral_small small, numeral, numeral, numeral, ← List.map_append,
    Nat.toDigits_append_toDigits (by decide) some small]

/-- A numeral begins with a digit that is no zero, unless it is zero itself. -/
theorem numeral_word {n : Nat} (some : 0 < n) :
    numeral n ∈ symbols (fun c => isDigit c && c != ascii '0') * (symbols isDigit)∗ := by
  -- By all digits but the last.
  induction n using Nat.strongRecOn with
  | ind n ih =>
    by_cases small : n < 10
    · rw [numeral_small small]
      refine Language.append_mem_mul (a := [digit n]) (mem_symbols.mpr ⟨_, ?_, rfl⟩)
        (Language.nil_mem_kstar _)
      rw [Bool.and_eq_true, bne_iff_ne]
      refine ⟨isDigit_digit small, fun same => ?_⟩
      have value := congrArg BitVec.toNat same
      rw [digit_toNat small] at value
      exact absurd value (by rw [show (ascii '0').toNat = 0x30 from rfl]; omega)
    · have split : n = 10 * (n / 10) + n % 10 := (Nat.div_add_mod n 10).symm
      rw [split, numeral_append (by omega) (Nat.mod_lt _ (by decide))]
      obtain ⟨s, first, t, rest, whole⟩ := Language.mem_mul.mp (ih (n / 10) (by omega) (by omega))
      rw [← whole, List.append_assoc]
      refine Language.append_mem_mul first (mem_symbols_kstar.mpr fun c member => ?_)
      rcases List.mem_append.mp member with member | member
      · exact mem_symbols_kstar.mp rest c member
      · rw [List.mem_singleton.mp member]
        exact isDigit_digit (Nat.mod_lt _ (by decide))

/-- A numeral is an integer of the grammar. -/
theorem numeral_int (n : Nat) : numeral n ∈ int := by
  refine (Language.mem_add _ _ _).mpr ?_
  rcases Nat.eq_zero_or_pos n with rfl | some
  · exact Or.inl ⟨ascii '0', beq_self_eq_true _, rfl⟩
  · exact Or.inr (numeral_word some)

/-- A numeral has digits only. -/
theorem numeral_digits {n : Nat} : ∀ c ∈ numeral n, isDigit c = true := by
  intro c member
  -- Zero is written with its own digit; another number begins with one that is no zero.
  rcases Nat.eq_zero_or_pos n with rfl | some
  · rw [numeral_small (by decide), List.mem_singleton] at member
    rw [member]
    exact isDigit_digit (by decide)
  · obtain ⟨s, ⟨d, first, rfl⟩, t, rest, whole⟩ := Language.mem_mul.mp (numeral_word some)
    rw [← whole, List.singleton_append, List.mem_cons] at member
    rcases member with rfl | member
    · exact (Bool.and_eq_true _ _ ▸ first).1
    · exact mem_symbols_kstar.mp rest c member

/-- And at least one of them. -/
theorem numeral_ne_nil (n : Nat) : numeral n ≠ [] := by
  rw [numeral, Ne, List.map_eq_nil_iff]
  exact Nat.toDigits_ne_nil

/-- One more digit at the end. -/
theorem numeralValue_append (s : List (BitVec 8)) (c : BitVec 8) :
    numeralValue (s ++ [c]) = 10 * numeralValue s + (c.toNat - 0x30) := by
  rw [numeralValue, List.foldl_append]
  rfl

/-- A numeral is read back. -/
theorem numeralValue_numeral (n : Nat) : numeralValue (numeral n) = n := by
  -- By induction on the number: the last digit is split off, and the rest is smaller.
  induction n using Nat.strongRecOn with
  | ind n ih =>
    by_cases small : n < 10
    · rw [numeral_small small, numeralValue, List.foldl_cons, List.foldl_nil, digit_toNat small]
      omega
    · have split : n = 10 * (n / 10) + n % 10 := (Nat.div_add_mod n 10).symm
      have last : n % 10 < 10 := Nat.mod_lt _ (by decide)
      conv_lhs => rw [split]
      rw [numeral_append (by omega) last, numeralValue_append, ih (n / 10) (by omega),
        digit_toNat last]
      omega

/-- The digits behind one that is no zero. -/
theorem numeral_of_digits {c : BitVec 8} (first : isDigit c = true) (some : c ≠ ascii '0')
    {t : List (BitVec 8)} (rest : ∀ d ∈ t, isDigit d = true) :
    ∃ n, 0 < n ∧ c :: t = numeral n := by
  obtain ⟨small, same⟩ := digit_value first
  -- By induction on the digits, the last of them taken off each time.
  induction t using List.reverseRecOn with
  | nil =>
    refine ⟨c.toNat - 0x30, ?_, by rw [numeral_small small, same]⟩
    by_contra none
    refine some ?_
    rw [← same, Nat.eq_zero_of_not_pos none]
    rfl
  | append_singleton t d ih =>
    obtain ⟨n, some, whole⟩ := ih fun e member => rest e (List.mem_append_left _ member)
    obtain ⟨small, same⟩ := digit_value (rest d (by simp))
    refine ⟨10 * n + (d.toNat - 0x30), by omega, ?_⟩
    rw [numeral_append some small, same, ← whole, List.cons_append]

/-- The integer parts of numbers are the numerals. -/
theorem mem_int {s : List (BitVec 8)} : s ∈ int ↔ ∃ n, s = numeral n := by
  constructor
  · intro word
    -- Zero alone, or digits behind one that is no zero.
    rcases (Language.mem_add _ _ _).mp word with ⟨c, zero, rfl⟩ | digits
    · exact ⟨0, by rw [beq_iff_eq.mp zero]; rfl⟩
    · obtain ⟨_, ⟨c, first, rfl⟩, t, rest, rfl⟩ := Language.mem_mul.mp digits
      rw [Bool.and_eq_true, bne_iff_ne] at first
      obtain ⟨n, -, whole⟩ := numeral_of_digits first.1 first.2 (mem_symbols_kstar.mp rest)
      exact ⟨n, whole⟩
  · rintro ⟨n, rfl⟩
    exact numeral_int n

/-- The numbers without fraction and exponent are the texts of integers. -/
theorem mem_integer {s : List (BitVec 8)} :
    s ∈ (1 + char (ascii '-')) * int ↔ ∃ v, IntegerText s v := by
  constructor
  · intro word
    -- With a sign or without one, and in either case a numeral behind it.
    obtain ⟨sign, signed, t, unsigned, rfl⟩ := Language.mem_mul.mp word
    obtain ⟨n, rfl⟩ := mem_int.mp unsigned
    rcases (Language.mem_add _ _ _).mp signed with none | ⟨c, minus, rfl⟩
    · rw [(Language.mem_one sign).mp none]
      exact ⟨_, IntegerText.plain n⟩
    · rw [beq_iff_eq.mp minus]
      exact ⟨_, IntegerText.minus n⟩
  · rintro ⟨v, plain | minus⟩
    · exact Language.append_mem_mul (a := []) ((Language.mem_add _ _ _).mpr (Or.inl rfl))
        (numeral_int _)
    · exact Language.append_mem_mul (a := [ascii '-'])
        ((Language.mem_add _ _ _).mpr (Or.inr ⟨_, beq_self_eq_true _, rfl⟩)) (numeral_int _)

/-- The characters of integers. -/
theorem IntegerText.chars {s : List (BitVec 8)} {v : Int} (text : IntegerText s v) :
    ∀ c ∈ s, isDigit c = true ∨ c = ascii '-' := by
  cases text with
  | plain n => exact fun c member => Or.inl (numeral_digits c member)
  | minus n =>
    intro c member
    rcases List.mem_cons.mp member with rfl | member
    · exact Or.inr rfl
    · exact Or.inl (numeral_digits c member)

/-- Digits without a leading zero are a numeral. -/
theorem canonical_iff {s : List (BitVec 8)} :
    (s ≠ [] ∧ ¬(s.head? = some (ascii '0') ∧ 1 < s.length) ∧ ∀ c ∈ s, isDigit c = true) ↔
      ∃ n, s = numeral n := by
  rw [← mem_int]
  constructor
  · rintro ⟨some, leading, all⟩
    -- A first digit of zero must be alone; another one may be followed by any digits.
    cases s with
    | nil => exact absurd rfl some
    | cons c t =>
      refine (Language.mem_add _ _ _).mpr ?_
      by_cases zero : c = ascii '0'
      · cases t with
        | nil => exact Or.inl ⟨c, beq_iff_eq.mpr zero, rfl⟩
        | cons d t => exact absurd ⟨by rw [zero]; rfl, by simp⟩ leading
      · refine Or.inr (Language.append_mem_mul (a := [c]) ⟨c, ?_, rfl⟩
          (mem_symbols_kstar.mpr fun d member => all d (List.mem_cons_of_mem _ member)))
        rw [Bool.and_eq_true, bne_iff_ne]
        exact ⟨all c List.mem_cons_self, zero⟩
  · intro word
    obtain ⟨n, rfl⟩ := mem_int.mp word
    refine ⟨numeral_ne_nil n, ?_, numeral_digits⟩
    rintro ⟨zero, long⟩
    rcases (Language.mem_add _ _ _).mp word with ⟨c, -, alone⟩ | digits
    · rw [alone] at long
      exact absurd long (by simp)
    · obtain ⟨_, ⟨c, first, rfl⟩, t, -, whole⟩ := Language.mem_mul.mp digits
      rw [← whole, List.singleton_append, List.head?_cons] at zero
      rw [Option.some.inj zero] at first
      exact absurd first (by decide)

end JsonGrammar
