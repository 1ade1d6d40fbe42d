import Emu80535.Json.Syntax

/-! The syntax check accepts the JSON grammar, and never reads past the text. -/

open Computability

namespace Emu80535

open JsonGrammar Recogniser

variable {text : List Byte} {start : Nat}

/-! ### Termination within the text -/

section Total

/-- A run of digits is total. -/
theorem total_numberDigits : Total text start (numberDigits text) := total_next.andThen total_skip

/-- The integer part is total. -/
theorem total_numberInteger : Total text start (numberInteger text) := by
  refine total_byNext fun c => ?_
  split
  · exact total_next
  · split
    · exact total_fail
    · exact total_next.andThen total_skip

/-- The stages of `json_number` are total. -/
theorem total_numberStages : Total text start (numberStages text) :=
  (total_whenNext total_pass).andThen (total_numberInteger.andThen
    ((total_whenNext total_numberDigits).andThen
      (total_whenNext ((total_whenNext total_pass).andThen total_numberDigits))))

/-- `json_number` answers for every text. -/
theorem jsonNumber_total (text : List Byte) : ∃ b, jsonNumber text = some b := by
  obtain ⟨b, j, ran, -⟩ := @total_numberStages text 0 0 (Nat.le_refl 0) (Nat.zero_le _)
  exact ⟨_, by rw [jsonNumber, ran, Option.map_some]⟩

/-- `json_primitive_valid` answers on every text. -/
theorem jsonPrimitiveValid_total (text : List Byte) : ∃ b, jsonPrimitiveValid text = some b := by
  simp only [jsonPrimitiveValid]
  split
  · exact ⟨true, rfl⟩
  · exact jsonNumber_total text

/-- Skipping whitespace is total. -/
theorem total_syntaxSpace : Total text start (syntaxSpace text) := total_skip

/-- One character of a string is total, whichever it is. -/
theorem total_syntaxCharacter (value : Byte) : Total text start (syntaxCharacter text value) := by
  simp only [syntaxCharacter]
  -- A control character fails, a backslash reads an escape, anything else stands for itself.
  split
  · exact total_fail
  · split
    · refine total_byNext fun c => ?_
      split
      · exact total_next.andThen (total_next.times 4)
      · exact total_next
    · exact total_pass

/-- A string is total. -/
theorem total_syntaxString : Total text start (syntaxString text) :=
  total_next.andThen ((total_units total_syntaxCharacter _).later (by omega))

/-- Items between brackets are total when one item is. -/
theorem total_syntaxItems (close : Byte) {item : Recogniser} (total : Total text 0 item) :
    Total text start (syntaxItems text close item) :=
  total_next.andThen (total_syntaxSpace.andThen (total_unlessNext
    ((total_items (total.andThen total_syntaxSpace) total_syntaxSpace _).later (by omega))))

/-- A primitive is total. -/
theorem total_syntaxPrimitive : Total text start (syntaxPrimitive text) := by
  intro i late inside
  obtain ⟨b, j, ran, after, before⟩ := @total_skip _ text _
    (fun c => !strchr (asciis [' ', '\t', '\r', '\n', ',', ']'] ++ [objectClose]) c)
    i late inside
  rw [syntaxPrimitive, ran, Option.bind_some]
  -- An empty run is refused; another is checked as a whole.
  by_cases none : j = i
  · exact ⟨false, j, if_pos none, after, before⟩
  · obtain ⟨b, valid⟩ := jsonPrimitiveValid_total ((text.drop i).take (j - i))
    exact ⟨b, j, by rw [if_neg none, valid, Option.map_some], after, before⟩

/-- A value of any number of levels is total, by induction on the levels. -/
theorem total_syntaxValue (levels : Nat) : Total text 0 (syntaxValue text levels) := by
  induction levels with
  | zero => exact total_fail
  | succ levels ih =>
    refine total_byNext fun c => ?_
    -- An object, an array, a string, or one of the other values.
    split
    · exact total_syntaxItems _ (total_syntaxString.andThen (total_syntaxSpace.andThen
        (total_next.andThen (total_syntaxSpace.andThen ih))))
    · split
      · exact total_syntaxItems _ ih
      · split
        · exact total_syntaxString
        · exact total_syntaxPrimitive

/-- The check answers for every text. -/
theorem jsonSyntaxValid_total (text : List Byte) : ∃ b, jsonSyntaxValid text = some b := by
  obtain ⟨b, j, ran, -⟩ := total_syntaxSpace.andThen ((total_syntaxValue 64).andThen
    total_syntaxSpace) 0 (Nat.le_refl 0) (Nat.zero_le text.length)
  exact ⟨_, by rw [jsonSyntaxValid, ran, Option.map_some]⟩

end Total

/-! ### Numbers -/

section Numbers

/-- Nothing stops everything. -/
theorem stops_nil (test : Byte → Bool) : Stops test [] := fun _ none => absurd none (by simp)

/-- A byte that fails the test stops it. -/
theorem stops_cons {test : Byte → Bool} {c : Byte} {t : List Byte} (stops : test c = false) :
    Stops test (c :: t) := by
  intro d first
  obtain rfl := Option.some.inj first
  exact stops

/-- Digits are none of the other characters of a number. -/
theorem isDigit_other {c : Byte} (digit : isDigit c = true) :
    (c == ascii '-') = false ∧ (c == ascii '+') = false ∧ (c == ascii '.') = false ∧
      (c == ascii 'e') = false ∧ (c == ascii 'E') = false := by
  simp only [isDigit, Bool.and_eq_true, decide_eq_true_eq] at digit
  simp only [beq_eq_false_iff_ne]
  refine ⟨?_, ?_, ?_, ?_, ?_⟩ <;> rintro rfl <;> exact absurd digit (by decide)

/-- The range test of the source, for all but zero. -/
theorem outside_iff {c : Byte} (other : c ≠ ascii '0') :
    (c < ascii '1' ∨ ascii '9' < c) ↔ isDigit c = false := by
  have zero : ascii '0' = 0x30#8 := rfl
  have one : ascii '1' = 0x31#8 := rfl
  have nine : ascii '9' = 0x39#8 := rfl
  simp only [isDigit, Bool.and_eq_false_iff, decide_eq_false_iff_not, zero, one, nine] at other ⊢
  bv_omega

/-- The integer part of a number begins with a digit. -/
theorem int_first {s : List Byte} (word : s ∈ int) : ∃ c t, s = c :: t ∧ isDigit c = true := by
  rcases (Language.mem_add _ _ _).mp word with ⟨c, zero, rfl⟩ | digits
  · exact ⟨c, [], rfl, by rw [beq_iff_eq.mp zero]; decide⟩
  · obtain ⟨c, t, digit, rfl, -⟩ := mem_symbols_mul.mp digits
    exact ⟨c, t, rfl, (Bool.and_eq_true _ _ ▸ digit).1⟩

/-- Digits are one digit with a run of others. -/
theorem numberDigits_recognises :
    Recognises text start (numberDigits text) digits (Stops isDigit) :=
  Recognises.next.andThen Recognises.skip fun _ _ _ _ => trivial

/-- The integer part is a zero or a number without leading zeros. -/
theorem numberInteger_recognises :
    Recognises text start (numberInteger text) int (Stops isDigit) := by
  have chosen : ∀ c, Recognises text start
      (if c == ascii '0' then next text fun _ => true
        else if c < ascii '1' || ascii '9' < c then fail
        else (next text fun _ => true).andThen (skip text isDigit))
      (if c == ascii '0' then symbols fun _ => true
        else if c < ascii '1' || ascii '9' < c then 0
        else symbols (fun _ => true) * (symbols isDigit)∗) (Stops isDigit) := by
    -- `json_number` chooses by the first byte.
    intro c
    split
    · exact Recognises.next.weaken rfl fun _ _ => trivial
    · split
      · exact Recognises.fail
      · exact Recognises.next.andThen Recognises.skip fun _ _ _ _ => trivial
  refine (Recognises.byNext chosen fun c => ?_).weaken ?_ fun _ => id
  · split
    · exact nil_notMem_symbols
    · split
      · exact Language.notMem_zero _
      · exact nil_notMem_symbols_mul
  · -- The grammar gives the same choice, byte by byte.
    ext w
    rw [int, Language.mem_add]
    cases w with
    | nil => simp [char]
    | cons c t =>
      rw [cons_mem_byFirst, char, cons_mem_symbols, cons_mem_symbols_mul]
      by_cases zero : c = ascii '0'
      · simp [zero]
      · by_cases outside : c < ascii '1' ∨ ascii '9' < c
        · simp [zero, outside, (outside_iff zero).mp outside]
        · have digit : isDigit c = true :=
            Bool.of_not_eq_false fun other => outside ((outside_iff zero).mpr other)
          simp [zero, outside, digit]

/-- The exponent: after its letter come a sign, or not, and digits. -/
theorem numberExponent_recognises :
    Recognises text start (numberExponent text)
      ((1 + symbols fun c => c == ascii '+' || c == ascii '-') * digits) (Stops isDigit) := by
  refine ((Recognises.whenNext Recognises.pass).andThen numberDigits_recognises
    fun t rest word _ => ⟨trivial, ?_⟩).weaken (by rw [mul_one]) fun _ => id
  obtain ⟨c, u, digit, rfl, -⟩ := mem_symbols_mul.mp word
  have other := isDigit_other digit
  exact stops_cons (by simp [other])

/-- What may come after the integer part of a number begins with no digit and no point. -/
theorem exp_stops {t : List Byte} (word : t ∈ 1 + exp) :
    Stops isDigit (t ++ []) ∧ Stops (· == ascii '.') (t ++ []) := by
  rcases (Language.mem_add _ _ _).mp word with none | some
  · obtain rfl := (Language.mem_one t).mp none
    exact ⟨stops_nil _, stops_nil _⟩
  · obtain ⟨c, u, letter, rfl, -⟩ := mem_symbols_mul.mp some
    simp only [Bool.or_eq_true, beq_iff_eq] at letter
    constructor <;> refine stops_cons ?_ <;> rcases letter with rfl | rfl <;> decide

/-- The stages find a number that nothing follows. -/
theorem numberStages_recognises :
    Recognises text start (numberStages text) number (· = []) := by
  have exponent : Recognises text start (whenNext text
      (fun c => c == ascii 'e' || c == ascii 'E') (numberExponent text)) (1 + exp) (· = []) :=
    (Recognises.whenNext numberExponent_recognises).weaken rfl fun _ none =>
      none ▸ ⟨stops_nil _, stops_nil _⟩
  have fraction := (@Recognises.whenNext _ text start _ _ _ (· == ascii '.')
    numberDigits_recognises).andThen exponent fun t rest word none => by
      subst none
      exact exp_stops word
  have integer := (@numberInteger_recognises text start).andThen fraction
    fun t rest word none => by
      subst none
      obtain ⟨u, first, v, second, rfl⟩ := Language.mem_mul.mp word
      rcases (Language.mem_add _ _ _).mp first with none | some
      · obtain rfl := (Language.mem_one u).mp none
        exact (exp_stops second).1
      · obtain ⟨c, u, point, rfl, -⟩ := mem_symbols_mul.mp some
        obtain rfl := beq_iff_eq.mp point
        exact stops_cons (by decide)
  refine ((@Recognises.whenNext _ text start _ _ _ (· == ascii '-')
    Recognises.pass).andThen integer fun t rest word none => ⟨trivial, ?_⟩).weaken
      (by rw [mul_one]; rfl) fun _ => id
  -- The integer part begins with a digit, so a sign is found where there is one.
  obtain ⟨u, first, v, -, rfl⟩ := Language.mem_mul.mp word
  obtain ⟨c, t, rfl, digit⟩ := int_first first
  exact stops_cons (isDigit_other digit).1

/-- `json_number` accepts the grammar's numbers. -/
theorem jsonNumber_iff (text : List Byte) : jsonNumber text = some true ↔ text ∈ number := by
  have recognises := @numberStages_recognises text 0
  -- A match ends where the text does, so the word is the whole text.
  constructor
  · intro accepted
    obtain ⟨⟨b, j⟩, ran, both⟩ := Option.map_eq_some_iff.mp accepted
    simp only [Bool.and_eq_true, beq_iff_eq] at both
    obtain ⟨rfl, rfl⟩ := both
    obtain ⟨s, word, split⟩ := recognises.sound 0 text.length (Nat.le_refl 0) (Nat.zero_le _) ran
    rw [List.drop_zero, List.drop_length, List.append_nil] at split
    exact split ▸ word
  · -- The other way the whole text is a word with nothing behind it.
    intro word
    have ran := recognises.complete 0 text [] (Nat.le_refl 0) (Nat.zero_le _) word rfl (by simp)
    rw [jsonNumber, ran]
    simp

end Numbers

/-! ### Primitives -/

/-- What ends a primitive. -/
def isDelimiter (c : Byte) : Bool :=
  isBlank c || c == ascii ',' || c == arrayClose || c == objectClose

/-- What may follow a value. -/
def Follow : List Byte → Prop := Stops fun c => !isDelimiter c

section Primitives

/-- `json_primitive_valid` accepts the literals and the numbers. -/
theorem jsonPrimitiveValid_iff (text : List Byte) :
    jsonPrimitiveValid text = some true ↔ text ∈ literal + number := by
  rw [Language.mem_add, ← jsonNumber_iff, jsonPrimitiveValid]
  have named : text ∈ literals ↔ text ∈ literal := by
    simp only [literals, List.mem_cons, List.not_mem_nil, or_false]
    rfl
  rw [← named]
  by_cases known : text ∈ literals <;> simp [known]

/-- The words without delimiters. -/
def undelimited : Language Byte := (symbols fun c => !isDelimiter c)∗

/-- Words without delimiters may follow each other. -/
theorem undelimited_mul {L M : Language Byte} (first : L ≤ undelimited) (second : M ≤ undelimited) :
    L * M ≤ undelimited :=
  (mul_le_mul' first second).trans (kstar_mul_kstar _).le

/-- Bytes that are no delimiters make words without them. -/
theorem undelimited_symbols {test : Byte → Bool}
    (other : ∀ c, test c = true → isDelimiter c = false) : symbols test ≤ undelimited :=
  (symbols_mono fun c passes => by simp [other c passes]).trans le_kstar

/-- So does one byte. -/
theorem undelimited_char {c : Byte} (other : isDelimiter c = false) : char c ≤ undelimited :=
  undelimited_symbols fun d same => by rwa [beq_iff_eq.mp same]

/-- No digit is a delimiter. -/
theorem isDigit_undelimited {c : Byte} (digit : isDigit c = true) : isDelimiter c = false := by
  simp only [isDigit, Bool.and_eq_true, decide_eq_true_eq] at digit
  simp only [isDelimiter, isBlank, asciis, List.map_cons, List.map_nil, Bool.or_eq_false_iff,
    List.contains_cons, List.contains_nil, Bool.or_false, beq_eq_false_iff_ne]
  refine ⟨⟨⟨⟨?_, ?_, ?_, ?_⟩, ?_⟩, ?_⟩, ?_⟩ <;> rintro rfl <;> exact absurd digit (by decide)

/-- No number has a delimiter in it. -/
theorem number_undelimited : number ≤ undelimited := by
  -- Each part of the grammar's number is made of other bytes.
  have one : (1 : Language Byte) ≤ undelimited := one_le_kstar
  have digit : symbols isDigit ≤ undelimited := undelimited_symbols fun _ => isDigit_undelimited
  have run : (symbols isDigit)∗ ≤ undelimited :=
    kstar_mono (symbols_mono fun c digit => by simp [isDigit_undelimited digit])
  have all : digits ≤ undelimited := undelimited_mul digit run
  have nonzero : symbols (fun c => isDigit c && c != ascii '0') ≤ undelimited :=
    undelimited_symbols fun c passes => isDigit_undelimited (Bool.and_eq_true _ _ ▸ passes).1
  have whole : int ≤ undelimited :=
    add_le (undelimited_char (by decide)) (undelimited_mul nonzero run)
  have letters : symbols (fun c => c == ascii 'e' || c == ascii 'E') ≤ undelimited :=
    undelimited_symbols fun c passes => by
      simp only [Bool.or_eq_true, beq_iff_eq] at passes
      rcases passes with rfl | rfl <;> decide
  have signs : symbols (fun c => c == ascii '+' || c == ascii '-') ≤ undelimited :=
    undelimited_symbols fun c passes => by
      simp only [Bool.or_eq_true, beq_iff_eq] at passes
      rcases passes with rfl | rfl <;> decide
  exact undelimited_mul (add_le one (undelimited_char (by decide)))
    (undelimited_mul whole (undelimited_mul
      (add_le one (undelimited_mul (undelimited_char (by decide)) all))
      (add_le one (undelimited_mul letters (undelimited_mul (add_le one signs) all)))))

/-- A number begins with a digit or a minus sign. -/
theorem number_first {s : List Byte} (word : s ∈ number) :
    ∃ c t, s = c :: t ∧ (isDigit c = true ∨ c = ascii '-') := by
  obtain ⟨sign, signed, rest, unsigned, rfl⟩ := Language.mem_mul.mp word
  rcases (Language.mem_add _ _ _).mp signed with none | ⟨c, minus, rfl⟩
  · obtain rfl := (Language.mem_one sign).mp none
    obtain ⟨whole, first, more, -, rfl⟩ := Language.mem_mul.mp unsigned
    obtain ⟨c, t, rfl, digit⟩ := int_first first
    exact ⟨c, t ++ more, rfl, Or.inl digit⟩
  · exact ⟨c, rest, rfl, Or.inr (beq_iff_eq.mp minus)⟩

/-- Primitives have no delimiter, and begin with no bracket or quotation mark. -/
theorem primitive_plain {s : List Byte} (word : s ∈ literal + number) :
    s ∈ undelimited ∧ ∃ c t, s = c :: t ∧
      (c == objectOpen) = false ∧ (c == arrayOpen) = false ∧ (c == quote) = false := by
  -- The literals are three words, and a number begins with a digit or a minus sign.
  rcases (Language.mem_add _ _ _).mp word with known | numeric
  · rcases known with rfl | rfl | rfl <;>
      exact ⟨mem_symbols_kstar.mpr (by decide), _, _, rfl, by decide⟩
  · refine ⟨number_undelimited numeric, ?_⟩
    obtain ⟨c, t, rfl, first⟩ := number_first numeric
    refine ⟨c, t, rfl, ?_⟩
    rcases first with digit | rfl
    · simp only [isDigit, Bool.and_eq_true, decide_eq_true_eq] at digit
      simp only [beq_eq_false_iff_ne]
      refine ⟨?_, ?_, ?_⟩ <;> rintro rfl <;> exact absurd digit (by decide)
    · decide

end Primitives

/-! ### Characters of strings -/

/-- What a character of a string calls for after it. -/
def characterTail (c : Byte) : Language Byte :=
  if c < 0x20#8 then 0 else if c == backslash then escaped else 1

/-- A character of a string with what it calls for. -/
theorem characters_eq :
    unitWords (· == quote) characterTail = symbols isPlain + char backslash * escaped := by
  -- A word of either language has a first byte, which decides.
  ext w
  cases w with
  | nil =>
    simp only [Language.mem_add, char, nil_notMem_symbols, nil_notMem_symbols_mul, or_false,
      iff_false]
    rintro ⟨c, t, -, wrong, -⟩
    cases wrong
  | cons c t =>
    simp only [Language.mem_add, char, cons_mem_symbols, cons_mem_symbols_mul]
    constructor
    · -- The tail of the byte says what follows it.
      rintro ⟨d, u, opened, same, called⟩
      injection same with first rest
      subst first rest
      simp only [characterTail] at called
      split at called
      · exact absurd called (Language.notMem_zero _)
      · rename_i printable
        split at called
        · rename_i escape
          exact Or.inr ⟨escape, called⟩
        · rename_i unescaped
          refine Or.inl ⟨?_, (Language.mem_one t).mp called⟩
          simp only [isPlain, bne, opened, Bool.not_false, Bool.and_true, Bool.and_eq_true,
            decide_eq_true_eq, Bool.not_eq_true']
          exact ⟨BitVec.not_lt.mp printable, Bool.eq_false_iff.mpr unescaped⟩
    · -- A plain byte has no tail, and a backslash has its escape.
      rintro (⟨plain, rfl⟩ | ⟨escape, called⟩)
      · simp only [isPlain, bne, Bool.and_eq_true, decide_eq_true_eq, Bool.not_eq_true'] at plain
        refine ⟨c, [], plain.1.2, rfl, ?_⟩
        rw [characterTail, if_neg (BitVec.not_lt.mpr plain.1.1), if_neg (by simp [plain.2])]
        exact Language.nil_mem_one
      · obtain rfl := beq_iff_eq.mp escape
        exact ⟨backslash, t, by decide, rfl, called⟩

/-! ### Values -/

/-- A word of values begins with no delimiter. -/
def Opens (L : Language Byte) : Prop := ∀ s ∈ L, ∃ c t, s = c :: t ∧ isDelimiter c = false

/-- What opens with no delimiter still does with something behind it. -/
theorem Opens.mul {L : Language Byte} (opens : Opens L) (M : Language Byte) : Opens (L * M) := by
  intro s word
  obtain ⟨u, first, v, -, rfl⟩ := Language.mem_mul.mp word
  obtain ⟨c, t, rfl, other⟩ := opens u first
  exact ⟨c, t ++ v, rfl, other⟩

/-- A byte that is no delimiter opens so. -/
theorem opens_char {c : Byte} (other : isDelimiter c = false) : Opens (char c) := by
  rintro s ⟨d, same, rfl⟩
  exact ⟨d, [], rfl, by rwa [beq_iff_eq.mp same]⟩

/-- Strings open with a quotation mark. -/
theorem opens_string : Opens string := (opens_char (by decide)).mul _

/-- No value opens with a delimiter. -/
theorem opens_value (levels : Nat) : Opens (value levels) := by
  cases levels with
  | zero => exact fun s word => absurd word (Language.notMem_zero s)
  | succ levels =>
    intro s word
    simp only [value, Language.mem_add] at word
    -- One case for each kind of value, by its first byte.
    rcases word with (((known | numeric) | quoted) | array) | object
    · rcases known with rfl | rfl | rfl <;> exact ⟨_, _, rfl, by decide⟩
    · obtain ⟨c, t, rfl, digit | rfl⟩ := number_first numeric
      · exact ⟨c, t, rfl, isDigit_undelimited digit⟩
      · exact ⟨_, t, rfl, by decide⟩
    · exact opens_string s quoted
    · exact (opens_char (by decide)).mul _ s array
    · exact (opens_char (by decide)).mul _ s object

/-- Blanks are delimiters. -/
theorem isDelimiter_of_isBlank {c : Byte} (blank : isBlank c = true) : isDelimiter c = true := by
  simp [isDelimiter, blank]

/-- A value begins with no whitespace. -/
theorem Opens.stops {L : Language Byte} (opens : Opens L) {s : List Byte} (word : s ∈ L)
    (rest : List Byte) : Stops isBlank (s ++ rest) := by
  obtain ⟨c, t, rfl, other⟩ := opens s word
  refine stops_cons (Bool.eq_false_iff.mpr fun blank => ?_)
  rw [isDelimiter_of_isBlank blank] at other
  exact absurd other (by simp)

/-- Whitespace may follow a value where what comes after it may. -/
theorem follow_ws {s rest : List Byte} (word : s ∈ ws) (follows : Follow rest) :
    Follow (s ++ rest) := by
  cases s with
  | nil => exact follows
  | cons c t =>
    have blank := mem_symbols_kstar.mp word c (List.mem_cons_self ..)
    exact stops_cons (by rw [isDelimiter_of_isBlank blank]; rfl)

/-- What comes behind an opening bracket. -/
def behindBracket (closing : Byte) (item : Language Byte) : Language Byte :=
  ws * (char closing + item * ws * (char (ascii ',') * ws * (item * ws))∗ * char closing)

/-- The values that begin with a given character. -/
def valueWords (levels : Nat) (c : Byte) : Language Byte :=
  if c == objectOpen then symbols (fun _ => true) * behindBracket objectClose (member (value levels))
  else if c == arrayOpen then symbols (fun _ => true) * behindBracket arrayClose (value levels)
  else if c == quote then string
  else literal + number

/-- A value is not empty. -/
theorem valueWords_filled (levels : Nat) (c : Byte) : [] ∉ valueWords levels c := by
  rw [valueWords]
  -- Every kind of value begins with a symbol.
  split
  · exact nil_notMem_symbols_mul
  · split
    · exact nil_notMem_symbols_mul
    · split
      · exact nil_notMem_symbols_mul
      · intro word
        obtain ⟨-, c, t, wrong, -⟩ := primitive_plain word
        exact absurd wrong (List.cons_ne_nil _ _).symm

/-- The first character of a value tells its kind. -/
theorem byFirst_valueWords (levels : Nat) :
    byFirst (valueWords levels) = value (levels + 1) := by
  have arrays : bracketed arrayOpen arrayClose (value levels) =
      char arrayOpen * behindBracket arrayClose (value levels) := rfl
  have objects : bracketed objectOpen objectClose (member (value levels)) =
      char objectOpen * behindBracket objectClose (member (value levels)) := rfl
  ext w
  rw [value, Language.mem_add, Language.mem_add, Language.mem_add, arrays, objects]
  cases w with
  | nil =>
    simp only [nil_notMem_byFirst, char, nil_notMem_symbols_mul, or_false, false_iff, not_or]
    refine ⟨fun word => ?_, nil_notMem_symbols_mul⟩
    obtain ⟨-, c, t, wrong, -⟩ := primitive_plain word
    exact absurd wrong (List.cons_ne_nil _ _).symm
  | cons c t =>
    have primitive : c :: t ∈ literal + number →
        (c == objectOpen) = false ∧ (c == arrayOpen) = false ∧ (c == quote) = false := by
      intro word
      obtain ⟨-, d, u, same, other⟩ := primitive_plain word
      injection same with first
      exact first ▸ other
    have quoted : c :: t ∈ string → (c == quote) = true := fun word =>
      (cons_mem_symbols_mul.mp word).1
    rw [cons_mem_byFirst, valueWords, char, char, cons_mem_symbols_mul, cons_mem_symbols_mul]
    -- The kinds exclude one another by the character they begin with.
    have apart : ∀ {d e : Byte}, (d == e) = false → (c == d) = true → (c == e) = false := by
      intro d e other same
      rwa [beq_iff_eq.mp same]
    have never : ∀ {b : Bool}, b = true → b = false → False := by
      intro b yes no
      exact Bool.false_ne_true (no.symm.trans yes)
    by_cases object : (c == objectOpen) = true
    · rw [if_pos object, cons_mem_symbols_mul]
      constructor
      · exact fun word => Or.inr ⟨object, word.2⟩
      · rintro (((word | word) | word) | word)
        · exact (never object (primitive word).1).elim
        · exact (never object (apart (by decide) (quoted word))).elim
        · exact (never object (apart (by decide) word.1)).elim
        · exact ⟨rfl, word.2⟩
    · rw [if_neg object]
      by_cases array : (c == arrayOpen) = true
      · rw [if_pos array, cons_mem_symbols_mul]
        constructor
        · exact fun word => Or.inl (Or.inr ⟨array, word.2⟩)
        · rintro (((word | word) | word) | word)
          · exact (never array (primitive word).2.1).elim
          · exact (never array (apart (by decide) (quoted word))).elim
          · exact ⟨rfl, word.2⟩
          · exact absurd word.1 object
      · rw [if_neg array]
        by_cases mark : (c == quote) = true
        · rw [if_pos mark]
          constructor
          · exact fun word => Or.inl (Or.inl (Or.inr word))
          · rintro (((word | word) | word) | word)
            · exact (never mark (primitive word).2.2).elim
            · exact word
            · exact absurd word.1 array
            · exact absurd word.1 object
        · rw [if_neg mark]
          constructor
          · exact fun word => Or.inl (Or.inl (Or.inl word))
          · rintro (((word | word) | word) | word)
            · exact word
            · exact absurd (quoted word) mark
            · exact absurd word.1 array
            · exact absurd word.1 object

/-! ### Texts without NUL -/

section Plain

variable (plain : 0#8 ∉ text)

include plain

/-- Without a zero byte in the text `strchr` is membership. -/
theorem strchr_plain (chars : List Byte) {c : Byte} (member : c ∈ text) :
    strchr chars c = chars.contains c := by
  have other : (c == 0#8) = false := beq_eq_false_iff_ne.mpr fun zero => plain (zero ▸ member)
  rw [strchr, other, Bool.false_or]

/-- `syntax_space` skips the grammar's whitespace. -/
theorem syntaxSpace_recognises :
    Recognises text start (syntaxSpace text) ws (Stops isBlank) := by
  have same : syntaxSpace text = skip text isBlank := skip_congr fun c => strchr_plain plain _
  rw [same]
  exact Recognises.skip

/-- A primitive is found where a delimiter or nothing follows it. -/
theorem syntaxPrimitive_recognises :
    Recognises text start (syntaxPrimitive text) (literal + number) Follow := by
  -- `strchr` also finds the terminator, which the text does not hold.
  have same : skip text (fun c =>
      !strchr (asciis [' ', '\t', '\r', '\n', ',', ']'] ++ [objectClose]) c) =
        skip text fun c => !isDelimiter c := by
    refine skip_congr fun c member => ?_
    rw [strchr_plain plain _ member]
    rw [Bool.eq_iff_iff]
    simp [isDelimiter, isBlank, asciis, arrayClose, ascii, and_assoc]
  have scan : Recognises text start (skip text fun c => !isDelimiter c) undelimited Follow :=
    Recognises.skip
  refine ⟨total_syntaxPrimitive, fun i j late inside ran => ?_,
    fun i s rest late inside word follows split => ?_⟩
  · -- Soundness: the run is a word that the check accepts.
    rw [syntaxPrimitive, same] at ran
    obtain ⟨b, k, scanned, after, before⟩ := scan.total i late inside
    rw [scanned, Option.bind_some] at ran
    by_cases none : k = i
    · simp [none] at ran
    · rw [if_neg none] at ran
      obtain ⟨valid, primitive, both⟩ := Option.map_eq_some_iff.mp ran
      obtain ⟨rfl, rfl⟩ := Prod.mk.inj both
      refine ⟨_, (jsonPrimitiveValid_iff _).mp primitive, ?_⟩
      rw [← Nat.add_sub_cancel' after, ← List.drop_drop, Nat.add_sub_cancel_left,
        List.take_append_drop]
  · -- Completeness: the run ends where the word does, since words have no delimiters.
    obtain ⟨bare, c, t, rfl, -⟩ := primitive_plain word
    have scanned := scan.complete i _ rest late inside bare follows split
    have taken : (text.drop i).take (i + (c :: t).length - i) = c :: t := by
      rw [Nat.add_sub_cancel_left, split, List.take_left]
    rw [syntaxPrimitive, same, scanned, Option.bind_some, if_neg (by simp), taken,
      (jsonPrimitiveValid_iff _).mpr word, Option.map_some]

/-- What follows a backslash. -/
theorem escape_recognises :
    Recognises text start (byNext text fun c =>
      if c == ascii 'u' then (next text fun _ => true).andThen ((next text isHex).times 4)
      else next text (strchr (quote :: backslash :: asciis ['/', 'b', 'f', 'n', 'r', 't'])))
      escaped fun _ => True := by
  -- The letters behind a backslash are the grammar's.
  have short : next text (strchr (quote :: backslash :: asciis ['/', 'b', 'f', 'n', 'r', 't'])) =
      next text isShortEscape := by
    refine next_congr fun c member => ?_
    rw [strchr_plain plain _ member]
    rw [Bool.eq_iff_iff]
    simp [isShortEscape, or_assoc]
  rw [short]
  refine (Recognises.byNext (L := fun c => if c == ascii 'u' then
    symbols (fun _ => true) * symbols isHex ^ 4 else symbols isShortEscape) (fun c => ?_)
      fun c => ?_).weaken ?_ fun _ => id
  · split
    · exact Recognises.next.andThen (Recognises.next.times 4) fun _ _ _ _ => trivial
    · exact Recognises.next
  · split
    · exact nil_notMem_symbols_mul
    · exact nil_notMem_symbols
  · -- By the first byte: `u` asks for four digits, and the others are complete.
    ext w
    cases w with
    | nil =>
      rw [escaped, Language.mem_add, char]
      simp
    | cons c t =>
      rw [cons_mem_byFirst, escaped, Language.mem_add, char, cons_mem_symbols,
        cons_mem_symbols_mul]
      by_cases unicode : (c == ascii 'u') = true
      · obtain rfl := beq_iff_eq.mp unicode
        have long : isShortEscape (ascii 'u') = false := by decide
        simp [long]
      · simp [unicode]

/-- `syntax_string` accepts the grammar's strings. -/
theorem syntaxString_recognises :
    Recognises text start (syntaxString text) string fun _ => True := by
  -- A character is chosen by its first byte, like its tail.
  have character : ∀ c, Recognises text 0 (syntaxCharacter text c) (characterTail c)
      fun _ => True := by
    intro c
    simp only [syntaxCharacter, characterTail]
    split
    · exact Recognises.fail
    · split
      · exact escape_recognises plain
      · exact Recognises.pass
  have tail := @Recognises.later _ _ _ _ _ _
    (@Recognises.units _ _ (· == quote) _ _ character (text.length + 1)) start (by omega)
  rw [characters_eq] at tail
  exact Recognises.next.andThen tail fun _ _ _ _ => trivial

/-- Items between brackets are found when one item is. -/
theorem syntaxItems_recognises {close : Byte} {item : Recogniser} {L : Language Byte}
    (recognises : Recognises text 0 item L Follow) (opens : Opens L)
    (closes : isDelimiter close = true) (solid : isBlank close = false)
    (apart : (close == ascii ',') = false) :
    Recognises text start (syntaxItems text close item)
      (symbols (fun _ => true) * behindBracket close L) fun _ => True := by
  -- An item takes the whitespace behind it along.
  have spaced : Recognises text 0 (item.andThen (syntaxSpace text)) (L * ws)
      fun rest => Follow rest ∧ Stops isBlank rest :=
    (recognises.andThen ((syntaxSpace_recognises plain).weaken rfl fun _ stops => stops.2)
      fun t rest word stops => follow_ws word stops.1)
  -- The list goes on at a comma and ends at the bracket.
  have list := @Recognises.items _ _ _ _ _ _ (· == close) (· == ascii ',') _ _
    spaced (syntaxSpace_recognises plain)
    (fun c closing => by rw [beq_iff_eq.mp closing]; exact apart)
    (fun c t ends => by
      rcases ends with closing | comma
      · rw [beq_iff_eq.mp closing]
        exact ⟨stops_cons (by rw [closes]; rfl), stops_cons solid⟩
      · rw [beq_iff_eq.mp comma]
        exact ⟨stops_cons (by decide), stops_cons (by decide)⟩)
    (fun s t word => (opens.mul ws).stops word t) (text.length + 1)
  -- The bracket may close at once, which no item can be mistaken for.
  have choice := @Recognises.unlessNext _ _ _ _ _ _ (· == close)
    (@Recognises.later _ _ _ _ _ _ list start (by omega))
    fun s word => by
      obtain ⟨c, t, rfl, other⟩ := ((opens.mul ws).mul _).mul _ s word
      refine ⟨c, t, rfl, beq_eq_false_iff_ne.mpr fun same => ?_⟩
      rw [same, closes] at other
      exact absurd other (by simp)
  refine Recognises.next.andThen ((syntaxSpace_recognises plain).andThen choice
    fun t rest word _ => ?_) fun _ _ _ _ => trivial
  -- What follows the whitespace is the bracket or an item, and neither is blank.
  rcases (Language.mem_add _ _ _).mp word with ⟨c, closing, rfl⟩ | items
  · rw [beq_iff_eq.mp closing]
    exact stops_cons solid
  · exact (((opens.mul ws).mul _).mul _).stops items rest

/-- A member is found when its value is. -/
theorem syntaxMember_recognises {value : Recogniser} {L : Language Byte}
    (recognises : Recognises text 0 value L Follow) (opens : Opens L) :
    Recognises text 0 ((syntaxString text).andThen
      ((syntaxSpace text).andThen
        ((next text (· == ascii ':')).andThen ((syntaxSpace text).andThen value))))
      (member L) Follow := by
  -- The parts are joined from the last one on.
  have valued := (syntaxSpace_recognises plain).andThen recognises
    fun t rest word _ => opens.stops word rest
  have coloned := (@Recognises.next _ _ _ (· == ascii ':')).andThen valued
    fun _ _ _ _ => trivial
  refine (syntaxString_recognises plain).andThen ((syntaxSpace_recognises plain).andThen coloned
    fun t rest word _ => ?_) fun _ _ _ _ => trivial
  obtain ⟨c, u, colon, rfl, -⟩ := mem_symbols_mul.mp word
  obtain rfl := beq_iff_eq.mp colon
  exact stops_cons (by decide)

/-- The values of so many levels are what `syntax_value` accepts, by induction on the levels. -/
theorem syntaxValue_recognises (levels : Nat) :
    Recognises text 0 (syntaxValue text levels) (value levels) Follow := by
  -- The first byte of a value chooses its kind, as in `syntax_value`.
  induction levels with
  | zero => exact Recognises.fail
  | succ levels ih =>
    refine (Recognises.byNext (L := valueWords levels) (fun c => ?_)
      (valueWords_filled levels)).weaken (byFirst_valueWords levels) fun _ => id
    rw [valueWords]
    split
    · exact (syntaxItems_recognises plain (syntaxMember_recognises plain ih (opens_value levels))
        (opens_string.mul _) rfl rfl rfl).weaken rfl fun _ _ => trivial
    · split
      · exact (syntaxItems_recognises plain ih (opens_value levels) rfl rfl rfl).weaken rfl
          fun _ _ => trivial
      · split
        · exact (syntaxString_recognises plain).weaken rfl fun _ _ => trivial
        · exact syntaxPrimitive_recognises plain

/-- `json_syntax_valid` accepts the texts of the grammar that nest no deeper than 64 levels. -/
theorem jsonSyntaxValid_iff : jsonSyntaxValid text = some true ↔ text ∈ JsonGrammar.text 64 := by
  -- A text is whitespace, a value and whitespace, with nothing behind.
  have recognises := (@syntaxSpace_recognises _ 0 plain).andThen
    ((syntaxValue_recognises plain 64).andThen
      ((syntaxSpace_recognises plain).weaken (G := (· = [])) rfl fun _ none => none ▸ stops_nil _)
      fun t rest word none => follow_ws word (none ▸ stops_nil _))
    fun t rest word _ => ((opens_value 64).mul ws).stops word rest
  constructor
  · intro accepted
    obtain ⟨⟨b, j⟩, ran, both⟩ := Option.map_eq_some_iff.mp accepted
    simp only [Bool.and_eq_true, beq_iff_eq] at both
    obtain ⟨rfl, rfl⟩ := both
    obtain ⟨s, word, split⟩ := recognises.sound 0 text.length (Nat.le_refl 0) (Nat.zero_le _) ran
    rw [List.drop_zero, List.drop_length, List.append_nil] at split
    exact split ▸ word
  · intro word
    have ran := recognises.complete 0 text [] (Nat.le_refl 0) (Nat.zero_le _) word rfl (by simp)
    rw [jsonSyntaxValid, ran]
    simp

end Plain

/--
The check ends inside every text it is given, and accepts one without NUL exactly when it is a
value of at most 64 nested levels with whitespace around it.
-/
theorem json_syntax_accepts (text : List Byte) :
    (∃ valid, jsonSyntaxValid text = some valid) ∧
      (0#8 ∉ text → (jsonSyntaxValid text = some true ↔ text ∈ JsonGrammar.text 64)) :=
  ⟨jsonSyntaxValid_total text, jsonSyntaxValid_iff⟩

/-- A lone digit between blanks is a text. -/
theorem json_syntax_accepts_digit :
    jsonSyntaxValid [0x20#8, 0x37#8, 0x0A#8] = some true ↔
      [0x20#8, 0x37#8, 0x0A#8] ∈ JsonGrammar.text 64 :=
  (json_syntax_accepts [0x20#8, 0x37#8, 0x0A#8]).2 (by decide)

end Emu80535
