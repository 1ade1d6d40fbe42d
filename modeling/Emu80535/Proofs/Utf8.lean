import Emu80535.Json.Utf8
import Emu80535.Debug.Trace
import Emu80535.Lib.Utf8

/-! Both checks of UTF-8 accept the well-formed texts, and neither reads past the end. -/

namespace Emu80535

open Utf8

/-! ### Bytes -/

/-- The test for continuation bytes, as a range. -/
theorem continuation_iff (b : Byte) :
    b &&& 0xc0#8 = 0x80#8 ↔ 0x80 ≤ b.toNat ∧ b.toNat ≤ 0xBF := by
  have all : ∀ n < 256, BitVec.ofNat 8 n &&& 0xc0#8 = 0x80#8 ↔ 0x80 ≤ n ∧ n ≤ 0xBF := by
    decide +kernel
  simpa using all b.toNat b.isLt

/-- The low bits of a byte are its remainder. -/
theorem toNat_low (b : Byte) (width : Nat) (small : width ≤ 8) :
    (b &&& BitVec.ofNat 8 (2 ^ width - 1)).toNat = b.toNat % 2 ^ width := by
  have le : 2 ^ width ≤ 2 ^ 8 := Nat.pow_le_pow_right (by decide) small
  have pos : 0 < 2 ^ width := Nat.two_pow_pos width
  rw [BitVec.toNat_and, BitVec.toNat_ofNat, Nat.mod_eq_of_lt (by omega),
    Nat.and_two_pow_sub_one_eq_mod]

/-- A code point with the bits of one more continuation byte. -/
theorem codepoint_next {codepoint : BitVec 32} (b : Byte) (small : codepoint.toNat < 2 ^ 26) :
    (codepoint <<< 6 ||| (b &&& 0x3f#8).setWidth 32).toNat =
      codepoint.toNat * 64 + b.toNat % 64 := by
  have low : (b &&& 0x3f#8).toNat = b.toNat % 64 := toNat_low b 6 (by decide)
  have fits : b.toNat % 64 < 2 ^ 6 := Nat.mod_lt _ (by decide)
  have shifted : codepoint.toNat <<< 6 = codepoint.toNat * 64 := Nat.shiftLeft_eq _ 6
  rw [BitVec.toNat_or, BitVec.toNat_setWidth, BitVec.toNat_shiftLeft, low,
    Nat.mod_eq_of_lt (by omega : b.toNat % 64 < 2 ^ 32), Nat.mod_eq_of_lt (by omega),
    ← Nat.shiftLeft_add_eq_or_of_lt fits, shifted]

/-! ### The rounds of `utf8_valid` -/

section Round

variable {text : List Byte}

/-- What the inner loop has read where it goes through. -/
theorem utf8Tail_cons {i : Nat} {b : Byte} {rest : List Byte} (need : Nat) (codepoint : BitVec 32)
    (here : text.drop i = b :: rest) :
    utf8Tail text (need + 1) i codepoint =
      if 0x80 ≤ b.toNat ∧ b.toNat ≤ 0xBF then
        utf8Tail text need (i + 1) (codepoint <<< 6 ||| (b &&& 0x3f#8).setWidth 32)
      else some none := by
  have read : text[i]? = some b := by rw [← List.head?_drop, here, List.head?_cons]
  rw [utf8Tail, read, Option.bind_some]
  -- A continuation byte shifts its six bits in, any other byte ends the loop.
  by_cases tail : 0x80 ≤ b.toNat ∧ b.toNat ≤ 0xBF
  · rw [if_neg (not_not.mpr ((continuation_iff b).mpr tail)), if_pos tail]
  · rw [if_pos fun same => tail ((continuation_iff b).mp same), if_neg tail]

/-- Behind the first byte of what remains. -/
theorem drop_behind {i : Nat} {b : Byte} {rest : List Byte} (here : text.drop i = b :: rest) :
    text.drop (i + 1) = rest := by
  rw [← List.tail_drop, here, List.tail_cons]

/-- What is refused, by numbers. -/
theorem utf8Refused_iff (first : Byte) (codepoint : BitVec 32) :
    utf8Refused first codepoint ↔
      codepoint.toNat < 0x80 ∨ (codepoint.toNat < 0x800 ∧ 0xe0 ≤ first.toNat) ∨
        (codepoint.toNat < 0x10000 ∧ 0xf0 ≤ first.toNat) ∨
        (0xd800 ≤ codepoint.toNat ∧ codepoint.toNat ≤ 0xdfff) ∨ 0x10ffff < codepoint.toNat :=
  Iff.rfl

/-- A lead byte that calls for one more. -/
theorem follow_two {lead : Nat} (range : 0xC2 ≤ lead ∧ lead ≤ 0xDF) :
    follow lead = some (1, 0x80, 0xBF) := by
  rw [follow, if_neg (by omega), if_pos range]

/-- A lead byte that calls for two more, the first of them in a range of its own. -/
theorem follow_three {lead : Nat} (range : 0xE0 ≤ lead ∧ lead ≤ 0xEF) :
    ∃ low high, follow lead = some (2, low, high) ∧ 0x80 ≤ low ∧ high ≤ 0xBF ∧
      (low = if lead = 0xE0 then 0xA0 else 0x80) ∧ (high = if lead = 0xED then 0x9F else 0xBF) := by
  simp only [follow]
  split_ifs <;> first | omega | exact ⟨_, _, rfl, by decide, by decide, rfl, rfl⟩

/-- A lead byte that calls for three more, the first of them in a range of its own. -/
theorem follow_four {lead : Nat} (range : 0xF0 ≤ lead ∧ lead ≤ 0xF4) :
    ∃ low high, follow lead = some (3, low, high) ∧ 0x80 ≤ low ∧ high ≤ 0xBF ∧
      (low = if lead = 0xF0 then 0x90 else 0x80) ∧ (high = if lead = 0xF4 then 0x8F else 0xBF) := by
  simp only [follow]
  split_ifs <;> first | omega | exact ⟨_, _, rfl, by decide, by decide, rfl, rfl⟩

/-- Too few continuation bytes are never passed. -/
theorem behindTails_short {low high need : Nat} {rest : List Byte} (short : rest.length < need) :
    behindTails low high need rest = none := by
  induction need generalizing low high rest with
  | zero => exact absurd short (Nat.not_lt_zero _)
  | succ need ih =>
    cases rest with
    | nil => rfl
    | cons b rest =>
      rw [behindTails, ih (Nat.lt_of_succ_lt_succ short), ite_self]

/-- A byte outside its range ends the character. -/
theorem behindTails_outside {low high need : Nat} {b : Byte} {rest : List Byte}
    (outside : ¬(low ≤ b.toNat ∧ b.toNat ≤ high)) :
    behindTails low high (need + 1) (b :: rest) = none := if_neg outside

/-- A character of two bytes. -/
theorem utf8Tail_two {i : Nat} {lead b : Byte} {rest : List Byte} {codepoint : BitVec 32}
    (here : text.drop i = b :: rest) (range : 0xC2 ≤ lead.toNat ∧ lead.toNat ≤ 0xDF)
    (bits : codepoint.toNat = lead.toNat % 2 ^ 5) :
    ((utf8Tail text 1 i codepoint).map fun
      | none => none
      | some (codepoint, behind) => if utf8Refused lead codepoint then none else some behind) =
      some ((behindTails 0x80 0xBF 1 (b :: rest)).map fun _ => i + 1) := by
  -- The one continuation byte is in the range of all of them.
  rw [utf8Tail_cons 0 codepoint here]
  by_cases tail : 0x80 ≤ b.toNat ∧ b.toNat ≤ 0xBF
  · have value := @codepoint_next codepoint b (by omega)
    rw [if_pos tail, behindTails_cons tail]
    generalize codepoint <<< 6 ||| (b &&& 0x3f#8).setWidth 32 = whole at value
    show some (if utf8Refused lead whole then none else some (i + 1)) = some (some (i + 1))
    -- Two bytes from C2h on are never a short form.
    rw [if_neg]
    rw [utf8Refused_iff]
    omega
  · rw [if_neg tail, behindTails_outside tail]
    rfl

/-- A character of three bytes: the first of the other two tells short forms and surrogates. -/
theorem utf8Tail_three {i low high : Nat} {lead b d : Byte} {rest : List Byte}
    {codepoint : BitVec 32} (here : text.drop i = b :: d :: rest)
    (range : 0xE0 ≤ lead.toNat ∧ lead.toNat ≤ 0xEF) (least : 0x80 ≤ low) (most : high ≤ 0xBF)
    (short : low = if lead.toNat = 0xE0 then 0xA0 else 0x80)
    (surrogate : high = if lead.toNat = 0xED then 0x9F else 0xBF)
    (bits : codepoint.toNat = lead.toNat % 2 ^ 4) :
    ((utf8Tail text 2 i codepoint).map fun
      | none => none
      | some (codepoint, behind) => if utf8Refused lead codepoint then none else some behind) =
      some ((behindTails low high 2 (b :: d :: rest)).map fun _ => i + 2) := by
  -- Both continuation bytes are looked at, and the first decides about the code point.
  rw [utf8Tail_cons 1 codepoint here]
  by_cases first : 0x80 ≤ b.toNat ∧ b.toNat ≤ 0xBF
  · have value := @codepoint_next codepoint b (by omega)
    rw [if_pos first]
    generalize codepoint <<< 6 ||| (b &&& 0x3f#8).setWidth 32 = upper at value
    rw [utf8Tail_cons 0 upper (drop_behind here)]
    by_cases second : 0x80 ≤ d.toNat ∧ d.toNat ≤ 0xBF
    · have value' := @codepoint_next upper d (by omega)
      rw [if_pos second]
      generalize upper <<< 6 ||| (d &&& 0x3f#8).setWidth 32 = whole at value'
      show some (if utf8Refused lead whole then none else some (i + 2)) = _
      -- Within its own range the code point is neither too short nor a surrogate.
      by_cases bounds : low ≤ b.toNat ∧ b.toNat ≤ high
      · rw [behindTails_cons bounds, behindTails_cons second, if_neg]
        · rfl
        · rw [utf8Refused_iff]
          split_ifs at short surrogate <;> omega
      · -- Outside of it the code point is refused.
        rw [behindTails_outside bounds, if_pos]
        · rfl
        · rw [utf8Refused_iff]
          split_ifs at short surrogate <;> omega
    · rw [if_neg second, behindTails]
      split
      · rw [behindTails_outside second]
        rfl
      · rfl
  · rw [if_neg first, behindTails_outside fun bounds => first (by omega)]
    rfl

/-- A character of four bytes: the first of the other three tells short forms and the bound. -/
theorem utf8Tail_four {i low high : Nat} {lead b d e : Byte} {rest : List Byte}
    {codepoint : BitVec 32} (here : text.drop i = b :: d :: e :: rest)
    (range : 0xF0 ≤ lead.toNat ∧ lead.toNat ≤ 0xF4) (least : 0x80 ≤ low) (most : high ≤ 0xBF)
    (short : low = if lead.toNat = 0xF0 then 0x90 else 0x80)
    (large : high = if lead.toNat = 0xF4 then 0x8F else 0xBF)
    (bits : codepoint.toNat = lead.toNat % 2 ^ 3) :
    ((utf8Tail text 3 i codepoint).map fun
      | none => none
      | some (codepoint, behind) => if utf8Refused lead codepoint then none else some behind) =
      some ((behindTails low high 3 (b :: d :: e :: rest)).map fun _ => i + 3) := by
  -- As for three bytes, with the upper bound in place of the surrogates.
  rw [utf8Tail_cons 2 codepoint here]
  by_cases first : 0x80 ≤ b.toNat ∧ b.toNat ≤ 0xBF
  · have value := @codepoint_next codepoint b (by omega)
    rw [if_pos first]
    generalize codepoint <<< 6 ||| (b &&& 0x3f#8).setWidth 32 = upper at value
    rw [utf8Tail_cons 1 upper (drop_behind here)]
    by_cases second : 0x80 ≤ d.toNat ∧ d.toNat ≤ 0xBF
    · have value' := @codepoint_next upper d (by omega)
      rw [if_pos second]
      generalize upper <<< 6 ||| (d &&& 0x3f#8).setWidth 32 = middle at value'
      rw [utf8Tail_cons 0 middle (drop_behind (drop_behind here))]
      by_cases third : 0x80 ≤ e.toNat ∧ e.toNat ≤ 0xBF
      · have value'' := @codepoint_next middle e (by omega)
        rw [if_pos third]
        generalize middle <<< 6 ||| (e &&& 0x3f#8).setWidth 32 = whole at value''
        show some (if utf8Refused lead whole then none else some (i + 3)) = _
        -- Within its own range the code point is neither too short nor too large.
        by_cases bounds : low ≤ b.toNat ∧ b.toNat ≤ high
        · rw [behindTails_cons bounds, behindTails_cons second, behindTails_cons third, if_neg]
          · rfl
          · rw [utf8Refused_iff]
            split_ifs at short large <;> omega
        · -- Outside of it the code point is refused.
          rw [behindTails_outside bounds, if_pos]
          · rfl
          · rw [utf8Refused_iff]
            split_ifs at short large <;> omega
      · rw [if_neg third, behindTails]
        split
        · rw [behindTails_cons second, behindTails_outside third]
          rfl
        · rfl
    · rw [if_neg second, behindTails]
      split
      · rw [behindTails_outside second]
        rfl
      · rfl
  · rw [if_neg first, behindTails_outside fun bounds => first (by omega)]
    rfl

/-- A lead byte as the table has it. -/
theorem follow_other {lead : Nat} (large : ¬lead < 0x80) (two : ¬(0xC2 ≤ lead ∧ lead ≤ 0xDF))
    (three : ¬(0xE0 ≤ lead ∧ lead ≤ 0xEF)) (four : ¬(0xF0 ≤ lead ∧ lead ≤ 0xF4)) :
    follow lead = none := by
  rw [follow]
  split_ifs <;> first | rfl | omega

/-- A round finds the character at the front, by the position behind it. -/
theorem utf8Round_eq {i : Nat} {lead : Byte} {rest : List Byte}
    (here : text.drop i = lead :: rest) :
    ∃ count low high,
      (follow lead.toNat = none ∧ utf8Round text i = some none) ∨
      (follow lead.toNat = some (count, low, high) ∧
        utf8Round text i = some ((behindTails low high count rest).map fun _ => i + 1 + count)) := by
  -- The cases are those of the lead byte.
  have read : text[i]? = some lead := by rw [← List.head?_drop, here, List.head?_cons]
  have size : text.length = i + 1 + rest.length := by
    have whole := congrArg List.length here
    have inside := (List.getElem?_eq_some_iff.mp read).1
    rw [List.length_drop, List.length_cons] at whole
    omega
  have tails := drop_behind here
  rw [utf8Round, read, Option.bind_some]
  by_cases ascii : lead < 0x80#8
  · -- ASCII needs nothing behind it.
    exact ⟨0, 0, 0, Or.inr ⟨if_pos ascii, if_pos ascii⟩⟩
  rw [if_neg ascii]
  by_cases two : 0xc2#8 ≤ lead ∧ lead ≤ 0xdf#8
  · -- One byte must follow.
    refine ⟨1, 0x80, 0xBF, Or.inr ⟨follow_two two, ?_⟩⟩
    rw [utf8Lead, if_pos two]
    dsimp only
    rcases rest with _ | ⟨b, rest⟩
    · rw [if_pos (by simp [size]), behindTails_short (by decide)]
      rfl
    · rw [if_neg (by simp [size])]
      exact utf8Tail_two tails two (by
        rw [BitVec.toNat_setWidth, show 0x1f#8 = BitVec.ofNat 8 (2 ^ 5 - 1) from rfl,
          toNat_low lead 5 (by decide)]
        omega)
  by_cases three : 0xe0#8 ≤ lead ∧ lead ≤ 0xef#8
  · -- Two bytes must follow, of which the text may lack some.
    obtain ⟨low, high, shape, least, most, short, surrogate⟩ := follow_three three
    refine ⟨2, low, high, Or.inr ⟨shape, ?_⟩⟩
    rw [utf8Lead, if_neg two, if_pos three]
    dsimp only
    rcases rest with _ | ⟨b, _ | ⟨d, rest⟩⟩
    · rw [if_pos (by simp [size]), behindTails_short (by decide)]
      rfl
    · rw [if_pos (by simp [size]), behindTails_short (by simp)]
      rfl
    · rw [if_neg (by simp [size])]
      exact utf8Tail_three tails three least most short surrogate (by
        rw [BitVec.toNat_setWidth, show 0x0f#8 = BitVec.ofNat 8 (2 ^ 4 - 1) from rfl,
          toNat_low lead 4 (by decide)]
        omega)
  by_cases four : 0xf0#8 ≤ lead ∧ lead ≤ 0xf4#8
  · -- Three bytes must follow.
    obtain ⟨low, high, shape, least, most, short, large⟩ := follow_four four
    refine ⟨3, low, high, Or.inr ⟨shape, ?_⟩⟩
    rw [utf8Lead, if_neg two, if_neg three, if_pos four]
    dsimp only
    rcases rest with _ | ⟨b, _ | ⟨d, _ | ⟨e, rest⟩⟩⟩
    · rw [if_pos (by simp [size]), behindTails_short (by decide)]
      rfl
    · rw [if_pos (by simp [size]), behindTails_short (by simp)]
      rfl
    · rw [if_pos (by simp [size]), behindTails_short (by simp)]
      rfl
    · rw [if_neg (by simp [size])]
      exact utf8Tail_four tails four least most short large (by
        rw [BitVec.toNat_setWidth, show 0x07#8 = BitVec.ofNat 8 (2 ^ 3 - 1) from rfl,
          toNat_low lead 3 (by decide)]
        omega)
  · -- No other byte leads a character.
    refine ⟨0, 0, 0, Or.inl ⟨follow_other ascii two three four, ?_⟩⟩
    rw [utf8Lead, if_neg two, if_neg three, if_neg four]

/-- What lies behind a character is a suffix. -/
theorem behindTails_eq_drop {low high count : Nat} {l rest : List Byte}
    (passed : behindTails low high count l = some rest) : rest = l.drop count := by
  induction count generalizing low high l with
  | zero => exact (Option.some.inj passed).symm
  | succ count ih =>
    obtain ⟨b, l, rfl, -, -, passed⟩ := behindTails_some passed
    exact ih passed

/-- A round at a character, and a round where there is none. -/
theorem utf8Round_behind {i : Nat} (inside : i < text.length) :
    (behindChar (text.drop i) = none ∧ utf8Round text i = some none) ∨
    ∃ behind, i < behind ∧ behindChar (text.drop i) = some (text.drop behind) ∧
      utf8Round text i = some (some behind) := by
  obtain ⟨lead, rest, here⟩ : ∃ lead rest, text.drop i = lead :: rest :=
    ⟨_, _, List.drop_eq_getElem_cons inside⟩
  -- The lead byte is refused, or its character is complete or not.
  obtain ⟨count, low, high, ⟨shape, ran⟩ | ⟨shape, ran⟩⟩ := utf8Round_eq here
  · exact Or.inl ⟨by rw [here, behindChar, shape, Option.bind_none], ran⟩
  · have front : behindChar (text.drop i) = behindTails low high count rest := by
      rw [here, behindChar, shape, Option.bind_some]
    cases passed : behindTails low high count rest with
    | none => exact Or.inl ⟨front.trans passed, by rw [ran, passed, Option.map_none]⟩
    | some behind =>
      refine Or.inr ⟨i + 1 + count, by omega, ?_, by rw [ran, passed, Option.map_some]⟩
      rw [front, passed, behindTails_eq_drop passed, ← drop_behind here, List.drop_drop]

/-- The loop answers whether the rest of the text is well formed. -/
theorem utf8Loop_answers {fuel i : Nat} (enough : text.length - i < fuel) :
    ∃ b, utf8Loop text fuel i = some b ∧ (b = true ↔ WellFormed (text.drop i)) := by
  -- By the rounds: each passes one character, so the text runs out before the rounds do.
  induction fuel generalizing i with
  | zero => exact absurd enough (Nat.not_lt_zero _)
  | succ fuel ih =>
    rw [utf8Loop]
    by_cases past : text.length ≤ i
    · refine ⟨true, if_pos past, ?_⟩
      rw [List.drop_eq_nil_of_le past]
      exact iff_of_true rfl wellFormed_nil
    · rw [if_neg past]
      rcases utf8Round_behind (Nat.not_le.mp past) with ⟨none, ran⟩ | ⟨behind, later, found, ran⟩
      · rw [ran]
        refine ⟨false, rfl, iff_of_false (by decide) (not_wellFormed ?_ none)⟩
        rw [Ne, List.drop_eq_nil_iff]
        exact past
      · rw [ran, Option.bind_some, wellFormed_of_behindChar found]
        exact ih (by omega)

end Round

/-- `utf8_valid` answers for every text, and accepts the well-formed ones. -/
theorem utf8Valid_answers (text : List Byte) :
    ∃ b, utf8Valid text = some b ∧ (b = true ↔ WellFormed text) :=
  utf8Loop_answers (by omega)

/-- `utf8_valid` accepts the well-formed texts. -/
theorem utf8Valid_iff (text : List Byte) : utf8Valid text = some true ↔ WellFormed text := by
  obtain ⟨b, ran, valid⟩ := utf8Valid_answers text
  rw [ran, Option.some.injEq, valid]

/-! ### Terminated fields -/

section Terminated

open Debug

/-- What the router calls a continuation byte. -/
theorem isTail_iff (b : Byte) : isTail b = true ↔ 0x80 ≤ b.toNat ∧ b.toNat ≤ 0xBF :=
  decide_eq_true_iff

/-- Bounds on continuation bytes, as the check of a field has them and as the table has them. -/
theorem isTail_three {lead b d : Byte} {low high : Nat}
    (short : low = if lead.toNat = 0xE0 then 0xA0 else 0x80)
    (surrogate : high = if lead.toNat = 0xED then 0x9F else 0xBF) :
    (!(!isTail d || lead == 0xe0#8 && decide (b < 0xa0#8) ||
      lead == 0xed#8 && decide (0x9f#8 < b) || !isTail b)) = true ↔
      (low ≤ b.toNat ∧ b.toNat ≤ high) ∧ 0x80 ≤ d.toNat ∧ d.toNat ≤ 0xBF := by
  -- The masks and comparisons of the check, as bounds on the numbers of the bytes.
  simp only [Bool.not_eq_true', Bool.or_eq_false_iff, Bool.not_eq_false', isTail_iff,
    Bool.and_eq_false_iff, beq_eq_false_iff_ne, decide_eq_false_iff_not, ne_eq, ← BitVec.toNat_inj,
    BitVec.lt_def, BitVec.toNat_ofNat]
  split_ifs at short surrogate <;> omega

/-- What the router checks of the last three bytes of four. -/
theorem isTail_four {lead b d e : Byte} {low high : Nat}
    (short : low = if lead.toNat = 0xF0 then 0x90 else 0x80)
    (large : high = if lead.toNat = 0xF4 then 0x8F else 0xBF) :
    (!(!isTail d || !isTail e || lead == 0xf0#8 && decide (b < 0x90#8) ||
      lead == 0xf4#8 && decide (0x8f#8 < b) || !isTail b)) = true ↔
      (low ≤ b.toNat ∧ b.toNat ≤ high) ∧ (0x80 ≤ d.toNat ∧ d.toNat ≤ 0xBF) ∧
        0x80 ≤ e.toNat ∧ e.toNat ≤ 0xBF := by
  -- The masks and comparisons of the check, as bounds on the numbers of the bytes.
  simp only [Bool.not_eq_true', Bool.or_eq_false_iff, Bool.not_eq_false', isTail_iff,
    Bool.and_eq_false_iff, beq_eq_false_iff_ne, decide_eq_false_iff_not, ne_eq, ← BitVec.toNat_inj,
    BitVec.lt_def, BitVec.toNat_ofNat]
  split_ifs at short large <;> omega

/-- The check of a field goes from character to character up to the terminator. -/
theorem utf8Terminated_cons {lead : Byte} (l : List Byte) (some : lead ≠ 0#8) :
    utf8Terminated (lead :: l) = ((behindChar (lead :: l)).map utf8Terminated).getD false := by
  -- The cases are those of the lead byte, as in the parser's check.
  rw [utf8Terminated.eq_def]
  dsimp only
  rw [if_neg some, behindChar]
  by_cases ascii : lead ≤ 0x7f#8
  · rw [if_pos ascii, follow, if_pos (show lead.toNat < 0x80 from Nat.lt_succ_of_le ascii)]
    rfl
  rw [if_neg ascii]
  by_cases two : 0xc2#8 ≤ lead ∧ lead ≤ 0xdf#8
  · -- One byte must follow.
    rw [if_pos two, follow_two two, Option.bind_some]
    rcases l with _ | ⟨b, l⟩
    · rfl
    · dsimp only
      by_cases tail : 0x80 ≤ b.toNat ∧ b.toNat ≤ 0xBF
      · rw [(isTail_iff b).mpr tail, behindTails_cons tail]
        rfl
      · rw [Bool.eq_false_iff.mpr fun is => tail ((isTail_iff b).mp is), behindTails_outside tail]
        rfl
  rw [if_neg two]
  by_cases three : 0xe0#8 ≤ lead ∧ lead ≤ 0xef#8
  · -- Two bytes must follow, the first of them in its own range.
    obtain ⟨low, high, shape, -, -, short, surrogate⟩ := follow_three three
    rw [if_pos three, shape, Option.bind_some]
    rcases l with _ | ⟨b, _ | ⟨d, l⟩⟩ <;> dsimp only
    · rfl
    · rw [behindTails_short (by simp)]
      rfl
    · have same := @isTail_three lead b d low high short surrogate
      generalize (!(!isTail d || _ || _ || !isTail b)) = shaped at same
      by_cases bounds : low ≤ b.toNat ∧ b.toNat ≤ high
      · rw [behindTails_cons bounds]
        by_cases tail : 0x80 ≤ d.toNat ∧ d.toNat ≤ 0xBF
        · rw [same.mpr ⟨bounds, tail⟩, behindTails_cons tail]
          rfl
        · rw [Bool.eq_false_iff.mpr fun is => tail (same.mp is).2, behindTails_outside tail]
          rfl
      · rw [Bool.eq_false_iff.mpr fun is => bounds (same.mp is).1, behindTails_outside bounds]
        rfl
  rw [if_neg three]
  by_cases four : 0xf0#8 ≤ lead ∧ lead ≤ 0xf4#8
  · -- Three bytes must follow, the first of them in its own range.
    obtain ⟨low, high, shape, -, -, short, large⟩ := follow_four four
    rw [if_pos four, shape, Option.bind_some]
    rcases l with _ | ⟨b, _ | ⟨d, _ | ⟨e, l⟩⟩⟩ <;> dsimp only
    · rfl
    · rw [behindTails_short (by simp)]
      rfl
    · rw [behindTails_short (by simp)]
      rfl
    · have same := @isTail_four lead b d e low high short large
      generalize (!(!isTail d || !isTail e || _ || _ || !isTail b)) = shaped at same
      by_cases bounds : low ≤ b.toNat ∧ b.toNat ≤ high
      · rw [behindTails_cons bounds]
        by_cases tail : 0x80 ≤ d.toNat ∧ d.toNat ≤ 0xBF
        · rw [behindTails_cons tail]
          by_cases last : 0x80 ≤ e.toNat ∧ e.toNat ≤ 0xBF
          · rw [same.mpr ⟨bounds, tail, last⟩, behindTails_cons last]
            rfl
          · rw [Bool.eq_false_iff.mpr fun is => last (same.mp is).2.2, behindTails_outside last]
            rfl
        · rw [Bool.eq_false_iff.mpr fun is => tail (same.mp is).2.1, behindTails_outside tail]
          rfl
      · rw [Bool.eq_false_iff.mpr fun is => bounds (same.mp is).1, behindTails_outside bounds]
        rfl
  · -- The lead byte is refused.
    rw [if_neg four, follow_other (fun small => ascii (Nat.le_of_lt_succ small)) two three four]
    rfl

/-- A field is accepted where the bytes in front of its terminator are well formed. -/
theorem utf8Terminated_iff {l : List Byte} (rest : List Byte) (free : (0#8 : Byte) ∉ l) :
    utf8Terminated (l ++ 0#8 :: rest) = true ↔ WellFormed l := by
  -- By the characters in front of the terminator.
  induction size : l.length using Nat.strongRecOn generalizing l with
  | ind n ih =>
    cases l with
    | nil =>
      rw [List.nil_append, utf8Terminated.eq_def]
      exact iff_of_true (if_pos rfl) wellFormed_nil
    | cons lead t =>
      have other : lead ≠ 0#8 := fun zero => free (zero ▸ List.mem_cons_self)
      rw [List.cons_append, utf8Terminated_cons _ other, ← List.cons_append,
        behindChar_ascii (by decide) rest (by simp), Option.map_map]
      cases found : behindChar (lead :: t) with
      | none => exact iff_of_false Bool.false_ne_true (not_wellFormed (by simp) found)
      | some r =>
        obtain ⟨shorter, inside⟩ := behindChar_suffix found
        rw [wellFormed_of_behindChar found]
        exact ih r.length (size ▸ shorter) (fun zero => free (inside.subset zero)) rfl

/-- Without a terminator no field is accepted. -/
theorem utf8Terminated_unterminated {l : List Byte} (free : (0#8 : Byte) ∉ l) :
    utf8Terminated l = false := by
  -- By induction on the length, from character to character.
  induction size : l.length using Nat.strongRecOn generalizing l with
  | ind n ih =>
    cases l with
    | nil => rfl
    | cons lead t =>
      have other : lead ≠ 0#8 := fun zero => free (zero ▸ List.mem_cons_self)
      rw [utf8Terminated_cons _ other]
      cases found : behindChar (lead :: t) with
      | none => rfl
      | some r =>
        obtain ⟨shorter, inside⟩ := behindChar_suffix found
        exact ih r.length (size ▸ shorter) (fun zero => free (inside.subset zero)) rfl

end Terminated

/-! ### Both checks -/

/--
`utf8_valid` answers for every text without a read past its end, and accepts exactly the encodings
of characters; the check of a router's text fields accepts a field where it has a terminator and
`utf8_valid` accepts what stands in front of it.
-/
theorem utf8_checks_agree (text : List Byte) :
    (∃ b, utf8Valid text = some b) ∧ (utf8Valid text = some true ↔ WellFormed text) ∧
      ((0#8 : Byte) ∉ text → Debug.utf8Terminated text = false ∧ ∀ rest,
        (Debug.utf8Terminated (text ++ 0#8 :: rest) = true ↔ utf8Valid text = some true)) := by
  obtain ⟨b, answered, -⟩ := utf8Valid_answers text
  refine ⟨⟨b, answered⟩, utf8Valid_iff text, fun free => ⟨utf8Terminated_unterminated free, ?_⟩⟩
  intro rest
  rw [utf8Terminated_iff rest free, utf8Valid_iff]

/-- Two letters and a terminator. -/
theorem utf8_checks_agree_letters :
    (∃ b, utf8Valid [0x6F#8, 0xC3#8, 0xB8#8] = some b) ∧
      (utf8Valid [0x6F#8, 0xC3#8, 0xB8#8] = some true ↔
        WellFormed [0x6F#8, 0xC3#8, 0xB8#8]) ∧
      (Debug.utf8Terminated [0x6F#8, 0xC3#8, 0xB8#8, 0#8, 0x80#8] = true ↔
        utf8Valid [0x6F#8, 0xC3#8, 0xB8#8] = some true) :=
  have agree := utf8_checks_agree [0x6F#8, 0xC3#8, 0xB8#8]
  ⟨agree.1, agree.2.1, (agree.2.2 (by decide)).2 [0x80#8]⟩

end Emu80535
