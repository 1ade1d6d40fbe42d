import Mathlib

/-! Recognisers that walk a text by position, and the languages they accept. -/

open Computability

/--
A recogniser at a position: whether it accepts, and where it stops.

It has no answer where it reads past the end of the text or where a loop of it runs out of rounds.
-/
abbrev Recogniser := Nat → Option (Bool × Nat)

namespace Recogniser

variable {α : Type*}

/-! ### Recognisers -/

/-- Accept without reading. -/
def pass : Recogniser := fun i => some (true, i)

/-- Reject without reading. -/
def fail : Recogniser := fun i => some (false, i)

/-- Two recognisers in a row. -/
def andThen (first second : Recogniser) : Recogniser := fun i =>
  (first i).bind fun done => if done.1 then second done.2 else some (false, done.2)

/-- The same recogniser several times. -/
def times (r : Recogniser) : Nat → Recogniser
  | 0 => pass
  | n + 1 => r.andThen (times r n)

section Reading

variable (text : List α)

/-- Step over one symbol, which has to pass a test. -/
def next (test : α → Bool) : Recogniser := fun i =>
  if text.length ≤ i then some (false, i) else text[i]?.bind fun c => some (test c, i + 1)

/-- Go on as the next symbol says, without stepping over it. -/
def byNext (select : α → Recogniser) : Recogniser := fun i =>
  if text.length ≤ i then some (false, i) else text[i]?.bind fun c => select c i

/-- Step over the next symbol and go on after it, if it passes a test. -/
def whenNext (test : α → Bool) (rest : Recogniser) : Recogniser := fun i =>
  if text.length ≤ i then some (true, i)
  else text[i]?.bind fun c => if test c then rest (i + 1) else some (true, i)

/-- Step over the next symbol if it passes a test, and else go on. -/
def unlessNext (test : α → Bool) (rest : Recogniser) : Recogniser := fun i =>
  if text.length ≤ i then rest i
  else text[i]?.bind fun c => if test c then some (true, i + 1) else rest i

/-- Step over all symbols that pass a test, in so many rounds. -/
def skipWithin (test : α → Bool) : Nat → Recogniser
  | 0 => fun _ => none
  | fuel + 1 => whenNext text test (skipWithin test fuel)

/-- Step over all symbols that pass a test. -/
def skip (test : α → Bool) : Recogniser := skipWithin text test (text.length + 1)

/-- Units up to a closing symbol, each told from its first symbol. -/
def units (close : α → Bool) (unit : α → Recogniser) : Nat → Recogniser
  | 0 => fun _ => none
  | fuel + 1 => byNext text fun c =>
    if close c then next text fun _ => true
    else (next text fun _ => true).andThen ((unit c).andThen (units close unit fuel))

/-- Items up to a closing symbol, with a separator and a gap between any two. -/
def items (close separator : α → Bool) (item gap : Recogniser) : Nat → Recogniser
  | 0 => fun _ => none
  | fuel + 1 => item.andThen (byNext text fun c =>
      if close c then next text fun _ => true
      else (next text separator).andThen (gap.andThen (items close separator item gap fuel)))

end Reading

/-! ### Totality -/

/-- From a position on a recogniser has an answer, and stops inside the text and not before it. -/
def Total (text : List α) (start : Nat) (r : Recogniser) : Prop :=
  ∀ i, start ≤ i → i ≤ text.length → ∃ b j, r i = some (b, j) ∧ i ≤ j ∧ j ≤ text.length

section Total

variable {text : List α} {start : Nat} {r s : Recogniser} {test close separator : α → Bool}

/-- What lies at a position inside the text. -/
theorem getElem?_inside {i : Nat} (inside : ¬text.length ≤ i) :
    ∃ c, text[i]? = some c ∧ text.drop i = c :: text.drop (i + 1) :=
  ⟨text.get ⟨i, Nat.not_le.mp inside⟩, List.getElem?_eq_getElem _, List.drop_eq_getElem_cons _⟩

/-- A later start asks for less. -/
theorem Total.later (total : Total text start r) {later : Nat} (after : start ≤ later) :
    Total text later r := fun i late => total i (after.trans late)

/-- Past the end there is nothing to show. -/
theorem total_past (past : text.length < start) : Total text start r := fun _ late inside =>
  absurd (past.trans_le (late.trans inside)) (Nat.lt_irrefl _)

/-- A recogniser that reads nothing is total. -/
theorem total_pass : Total text start pass :=
  fun i _ inside => ⟨true, i, rfl, Nat.le_refl i, inside⟩

/-- So is one that refuses at once. -/
theorem total_fail : Total text start fail :=
  fun i _ inside => ⟨false, i, rfl, Nat.le_refl i, inside⟩

/-- Two total recognisers in a row. -/
theorem Total.andThen (first : Total text start r) (second : Total text start s) :
    Total text start (r.andThen s) := by
  intro i late inside
  obtain ⟨b, j, ran, after, before⟩ := first i late inside
  cases b with
  | false => exact ⟨false, j, by simp [Recogniser.andThen, ran], after, before⟩
  | true =>
    obtain ⟨b, k, ran', after', before'⟩ := second j (late.trans after) before
    exact ⟨b, k, by simp [Recogniser.andThen, ran, ran'], after.trans after', before'⟩

/-- A total recogniser, several times in a row. -/
theorem Total.times (total : Total text start r) (n : Nat) : Total text start (r.times n) := by
  induction n with
  | zero => exact total_pass
  | succ n ih => exact total.andThen ih

/-- What follows a symbol starts later than the symbol. -/
theorem Total.afterNext (total : Total text (start + 1) r) :
    Total text start ((next text test).andThen r) := by
  intro i late inside
  rw [Recogniser.andThen, next]
  -- At the end of the text, at a symbol that passes, and at one that does not.
  by_cases ended : text.length ≤ i
  · exact ⟨false, i, by rw [if_pos ended]; rfl, Nat.le_refl i, inside⟩
  · obtain ⟨c, read, -⟩ := getElem?_inside ended
    rw [if_neg ended, read, Option.bind_some, Option.bind_some]
    by_cases passes : test c = true
    · rw [if_pos passes]
      obtain ⟨b, j, ran, after, before⟩ := total (i + 1) (by omega) (by omega)
      exact ⟨b, j, ran, by omega, before⟩
    · exact ⟨false, i + 1, if_neg passes, by omega, by omega⟩

/-- A recogniser followed by nothing is itself. -/
theorem andThen_pass (r : Recogniser) : r.andThen pass = r := by
  funext i
  cases ran : r i with
  | none => simp [andThen, ran]
  | some done =>
    obtain ⟨b, j⟩ := done
    cases b <;> simp [andThen, ran, pass]

/-- A symbol is read or refused. -/
theorem total_next : Total text start (next text test) := by
  rw [← andThen_pass (next text test)]
  exact total_pass.afterNext

/-- A recogniser told from its first symbol. -/
theorem total_byNext {select : α → Recogniser} (total : ∀ c, Total text start (select c)) :
    Total text start (byNext text select) := by
  intro i late inside
  by_cases ended : text.length ≤ i
  · exact ⟨false, i, if_pos ended, Nat.le_refl i, inside⟩
  · obtain ⟨c, read, -⟩ := getElem?_inside ended
    rw [byNext, if_neg ended, read]
    exact total c i late inside

/-- A recogniser behind a symbol that may be absent. -/
theorem total_whenNext (total : Total text (start + 1) r) :
    Total text start (whenNext text test r) := by
  intro i late inside
  -- The end of the text, a symbol that passes, and one that does not.
  by_cases ended : text.length ≤ i
  · exact ⟨true, i, if_pos ended, Nat.le_refl i, inside⟩
  · obtain ⟨c, read, -⟩ := getElem?_inside ended
    rw [whenNext, if_neg ended, read, Option.bind_some]
    by_cases passes : test c = true
    · rw [if_pos passes]
      obtain ⟨b, j, ran, after, before⟩ := total (i + 1) (by omega) (by omega)
      exact ⟨b, j, ran, by omega, before⟩
    · exact ⟨true, i, if_neg passes, Nat.le_refl i, inside⟩

/-- A recogniser in place of a symbol that may be absent. -/
theorem total_unlessNext (total : Total text start r) :
    Total text start (unlessNext text test r) := by
  intro i late inside
  -- The end of the text, a symbol that passes, and one that does not.
  by_cases ended : text.length ≤ i
  · rw [unlessNext, if_pos ended]
    exact total i late inside
  · obtain ⟨c, read, -⟩ := getElem?_inside ended
    rw [unlessNext, if_neg ended, read, Option.bind_some]
    by_cases passes : test c = true
    · exact ⟨true, i + 1, if_pos passes, by omega, by omega⟩
    · rw [if_neg passes]
      exact total i late inside

/-- Every round of these loops steps over a symbol. -/
theorem total_skipWithin (fuel : Nat) :
    Total text (text.length + 1 - fuel) (skipWithin text test fuel) := by
  induction fuel with
  | zero => exact total_past (Nat.lt_succ_self _)
  | succ fuel ih => exact total_whenNext (ih.later (by omega))

/-- Skipping symbols never fails. -/
theorem total_skip : Total text start (skip text test) :=
  (total_skipWithin (text.length + 1)).later (by omega)

/-- Units up to a closing symbol. -/
theorem total_units {unit : α → Recogniser} (total : ∀ c, Total text 0 (unit c)) (fuel : Nat) :
    Total text (text.length + 1 - fuel) (units text close unit fuel) := by
  induction fuel with
  | zero => exact total_past (Nat.lt_succ_self _)
  | succ fuel ih =>
    refine total_byNext fun c => ?_
    split
    · exact total_next
    · exact (((total c).later (Nat.zero_le _)).andThen (ih.later (by omega))).afterNext

/-- Items up to a closing symbol, with separators and gaps between them. -/
theorem total_items {item gap : Recogniser} (item_total : Total text 0 item)
    (gap_total : Total text 0 gap) (fuel : Nat) :
    Total text (text.length + 1 - fuel) (items text close separator item gap fuel) := by
  -- By induction on the fuel, one item and one gap for each piece of it.
  induction fuel with
  | zero => exact total_past (Nat.lt_succ_self _)
  | succ fuel ih =>
    refine (item_total.later (Nat.zero_le _)).andThen (total_byNext fun c => ?_)
    split
    · exact total_next
    · exact ((gap_total.later (Nat.zero_le _)).andThen (ih.later (by omega))).afterNext

end Total

/-! ### Languages -/

/-- The words of one symbol that passes a test. -/
def symbols (test : α → Bool) : Language α := {s | ∃ c, test c = true ∧ s = [c]}

/-- The words of the language that their first symbol calls for. -/
def byFirst (L : α → Language α) : Language α := {s | ∃ c t, s = c :: t ∧ s ∈ L c}

/-- A first symbol other than a closing one, and a word it calls for after it. -/
def unitWords (close : α → Bool) (L : α → Language α) : Language α :=
  {s | ∃ c t, close c = false ∧ s = c :: t ∧ t ∈ L c}

section Words

variable {test close separator : α → Bool} {L : Language α} {w : List α}

/-- A word of one symbol. -/
theorem mem_symbols : w ∈ symbols test ↔ ∃ c, test c = true ∧ w = [c] := Iff.rfl

/-- A symbol and a word behind it. -/
theorem mem_symbols_mul :
    w ∈ symbols test * L ↔ ∃ c t, test c = true ∧ w = c :: t ∧ t ∈ L := by
  constructor
  · intro word
    obtain ⟨_, ⟨c, passes, rfl⟩, t, after, rfl⟩ := Language.mem_mul.mp word
    exact ⟨c, t, passes, rfl, after⟩
  · rintro ⟨c, t, passes, rfl, after⟩
    exact Language.append_mem_mul (a := [c]) ⟨c, passes, rfl⟩ after

/-- The empty word is none of one symbol. -/
@[simp] theorem nil_notMem_symbols : [] ∉ symbols test :=
  fun ⟨_, _, wrong⟩ => absurd wrong (List.cons_ne_nil _ _).symm

/-- A word of one symbol has no other symbols. -/
@[simp] theorem cons_mem_symbols {c : α} {t : List α} :
    c :: t ∈ symbols test ↔ test c = true ∧ t = [] := by
  constructor
  · rintro ⟨d, passes, same⟩
    injection same with first rest
    exact ⟨first ▸ passes, rest⟩
  · rintro ⟨passes, rfl⟩
    exact ⟨c, passes, rfl⟩

/-- The empty word does not begin with a symbol. -/
@[simp] theorem nil_notMem_symbols_mul : [] ∉ symbols test * L := by
  intro word
  obtain ⟨_, _, _, wrong, _⟩ := mem_symbols_mul.mp word
  exact absurd wrong (List.cons_ne_nil _ _).symm

/-- What begins with a symbol, and what follows it. -/
@[simp] theorem cons_mem_symbols_mul {c : α} {t : List α} :
    c :: t ∈ symbols test * L ↔ test c = true ∧ t ∈ L := by
  rw [mem_symbols_mul]
  constructor
  · rintro ⟨d, u, passes, same, after⟩
    injection same with first rest
    exact ⟨first ▸ passes, rest ▸ after⟩
  · rintro ⟨passes, after⟩
    exact ⟨c, t, passes, rfl, after⟩

/-- The empty word has no first symbol. -/
@[simp] theorem nil_notMem_byFirst {L : α → Language α} : [] ∉ byFirst L :=
  fun ⟨_, _, wrong, _⟩ => absurd wrong (List.cons_ne_nil _ _).symm

/-- A word is told from its first symbol. -/
@[simp] theorem cons_mem_byFirst {L : α → Language α} {c : α} {t : List α} :
    c :: t ∈ byFirst L ↔ c :: t ∈ L c := by
  constructor
  · rintro ⟨d, u, same, word⟩
    injection same with first
    exact first ▸ word
  · exact fun word => ⟨c, t, rfl, word⟩

/-- A test that asks for less has more words. -/
theorem symbols_mono {other : α → Bool} (weaker : ∀ c, test c = true → other c = true) :
    symbols test ≤ symbols other := by
  rintro w ⟨c, passes, rfl⟩
  exact ⟨c, weaker c passes, rfl⟩

/-- Repeated symbols are a word all of whose symbols pass. -/
theorem mem_symbols_kstar : w ∈ (symbols test)∗ ↔ ∀ c ∈ w, test c = true := by
  constructor
  · -- A concatenation of single symbols, and each word is the concatenation of its own.
    intro word
    obtain ⟨pieces, rfl, single⟩ := Language.mem_kstar.mp word
    intro c member
    obtain ⟨piece, listed, inside⟩ := List.mem_flatten.mp member
    obtain ⟨d, passes, rfl⟩ := single piece listed
    rwa [List.mem_singleton.mp inside]
  · intro all
    refine Language.mem_kstar.mpr ⟨w.map fun c => [c], ?_, fun piece listed => ?_⟩
    · exact (List.flatMap_singleton' w).symm
    · obtain ⟨c, member, rfl⟩ := List.mem_map.mp listed
      exact ⟨c, all c member, rfl⟩

/-- Reading the first symbol and then its unit is reading a unit. -/
theorem byFirst_units (L : α → Language α) (U : Language α) :
    byFirst (fun c => if close c then symbols fun _ => true
      else symbols (fun _ => true) * (L c * U)) = symbols close + unitWords close L * U := by
  ext w
  rw [Language.mem_add, Language.mem_mul]
  -- The empty word is in neither; by the first symbol otherwise, which closes or opens a unit.
  cases w with
  | nil =>
    simp only [nil_notMem_byFirst, nil_notMem_symbols, false_or, false_iff]
    rintro ⟨_, ⟨c, u, -, rfl, -⟩, v, -, wrong⟩
    cases wrong
  | cons c t =>
    rw [cons_mem_byFirst, cons_mem_symbols]
    by_cases closed : close c = true
    · rw [if_pos closed, cons_mem_symbols]
      constructor
      · exact fun word => Or.inl ⟨closed, word.2⟩
      · rintro (word | ⟨_, ⟨d, u, opened, rfl, -⟩, v, -, same⟩)
        · exact ⟨rfl, word.2⟩
        · injection same with first
          rw [first, closed] at opened
          exact absurd opened (Bool.true_eq_false ▸ id)
    · rw [if_neg closed, cons_mem_symbols_mul, Language.mem_mul]
      constructor
      · rintro ⟨-, u, called, v, more, rfl⟩
        exact Or.inr ⟨c :: u, ⟨c, u, Bool.eq_false_iff.mpr closed, rfl, called⟩, v, more, rfl⟩
      · rintro (word | ⟨_, ⟨d, u, opened, rfl, called⟩, v, more, same⟩)
        · exact absurd word.1 closed
        · injection same with first rest
          exact ⟨rfl, u, first ▸ called, v, more, rest⟩

/-- A closing symbol or a separator tells its own first symbol. -/
theorem byFirst_items (apart : ∀ c, close c = true → separator c = false) :
    byFirst (fun c => if close c then symbols fun _ => true else symbols separator * L) =
      symbols close + symbols separator * L := by
  ext w
  rw [Language.mem_add]
  -- By the first symbol of the word, which closes or does not.
  cases w with
  | nil => simp
  | cons c t =>
    rw [cons_mem_byFirst]
    by_cases closed : close c = true
    · simp [closed, apart c closed]
    · simp [closed]

end Words

/-- A word that does not begin with a symbol that passes a test. -/
def Stops (test : α → Bool) (rest : List α) : Prop := ∀ c ∈ rest.head?, test c = false

/--
From a position on, a recogniser accepts exactly the words of a language.

It finds such a word wherever what comes after the word is as the second predicate says.
-/
structure Recognises (text : List α) (start : Nat) (r : Recogniser) (L : Language α)
    (F : List α → Prop) : Prop where
  total : Total text start r
  sound : ∀ i j, start ≤ i → i ≤ text.length → r i = some (true, j) →
    ∃ s ∈ L, text.drop i = s ++ text.drop j
  complete : ∀ i s rest, start ≤ i → i ≤ text.length → s ∈ L → F rest →
    text.drop i = s ++ rest → r i = some (true, i + s.length)

section Recognises

variable {text : List α} {start : Nat} {r s : Recogniser} {L M N : Language α}
  {F G : List α → Prop} {test close separator : α → Bool}

/-- What remains after a word. -/
theorem drop_after {i : Nat} {s rest : List α} (split : text.drop i = s ++ rest) :
    text.drop (i + s.length) = rest := by
  rw [← List.drop_drop, split, List.drop_left]

/-- What is split off the text ends inside it. -/
theorem inside_after {i : Nat} {s rest : List α} (inside : i ≤ text.length)
    (split : text.drop i = s ++ rest) : i + s.length ≤ text.length := by
  have lengths := congrArg List.length split
  rw [List.length_drop, List.length_append] at lengths
  omega

namespace Recognises

/-- A recogniser of equal words, asked only where it was known to work. -/
theorem weaken (recognises : Recognises text start r L F) (same : L = M)
    (asked : ∀ rest, G rest → F rest) : Recognises text start r M G where
  total := recognises.total
  sound := same ▸ recognises.sound
  complete i s rest late inside word follows :=
    recognises.complete i s rest late inside (same ▸ word) (asked rest follows)

/-- What is recognised from a place on is recognised from any later one. -/
theorem later (recognises : Recognises text start r L F) {later : Nat} (after : start ≤ later) :
    Recognises text later r L F where
  total := recognises.total.later after
  sound i j late := recognises.sound i j (after.trans late)
  complete i s rest late := recognises.complete i s rest (after.trans late)

/-- Past the end every recogniser recognises anything. -/
theorem past (past : text.length < start) : Recognises text start r L F where
  total := total_past past
  sound _ _ late inside := absurd (past.trans_le (late.trans inside)) (Nat.lt_irrefl _)
  complete _ _ _ late inside := absurd (past.trans_le (late.trans inside)) (Nat.lt_irrefl _)

/-- Reading nothing recognises the empty word. -/
theorem pass : Recognises text start pass 1 fun _ => True where
  total := total_pass
  sound i j _ _ ran := by
    simp only [Recogniser.pass, Option.some.injEq, Prod.mk.injEq, true_and] at ran
    exact ⟨[], Language.nil_mem_one, by rw [ran, List.nil_append]⟩
  complete i s rest _ _ word _ _ := by
    rw [(Language.mem_one s).mp word]
    rfl

/-- Refusing at once recognises nothing. -/
theorem fail : Recognises text start fail 0 F where
  total := total_fail
  sound i j _ _ ran := by
    simp only [Recogniser.fail, Option.some.injEq, Prod.mk.injEq, Bool.false_eq_true,
      false_and] at ran
  complete i s _ _ _ word := absurd word (Language.notMem_zero s)

/-- Words in a row, where the second leaves the first to be found. -/
theorem andThen (first : Recognises text start r L F) (second : Recognises text start s M G)
    (joint : ∀ t rest, t ∈ M → G rest → F (t ++ rest)) :
    Recognises text start (r.andThen s) (L * M) G where
  total := first.total.andThen second.total
  -- What both read is what the first read and then the second.
  sound i k late inside ran := by
    obtain ⟨b, j, ran', after, before⟩ := first.total i late inside
    rw [Recogniser.andThen, ran', Option.bind_some] at ran
    cases b with
    | false => simp at ran
    | true =>
      obtain ⟨u, word, split⟩ := first.sound i j late inside ran'
      obtain ⟨v, word', split'⟩ := second.sound j k (late.trans after) before ran
      exact ⟨u ++ v, Language.append_mem_mul word word', by
        rw [split, split', List.append_assoc]⟩
  -- The second word, and what follows it, leave the first one to be found.
  complete i w rest late inside word follows split := by
    obtain ⟨u, first_word, v, second_word, rfl⟩ := Language.mem_mul.mp word
    rw [List.append_assoc] at split
    have ran := first.complete i u (v ++ rest) late inside first_word
      (joint v rest second_word follows) split
    have ran' := second.complete (i + u.length) v rest (by omega) (inside_after inside split)
      second_word follows (drop_after split)
    rw [Recogniser.andThen, ran, Option.bind_some, if_pos rfl, ran', List.length_append,
      Nat.add_assoc]

/-- The same word several times. -/
theorem times (recognises : Recognises text start r L fun _ => True) (n : Nat) :
    Recognises text start (r.times n) (L ^ n) fun _ => True := by
  induction n with
  | zero => exact pass
  | succ n ih =>
    rw [pow_succ']
    exact recognises.andThen ih fun _ _ _ _ => trivial

/-- A symbol, and a word after it. -/
theorem afterNext (recognises : Recognises text (start + 1) r L F) :
    Recognises text start ((Recogniser.next text test).andThen r) (symbols test * L) F where
  total := recognises.total.afterNext
  -- The symbol is read first; at the end of the text or at another symbol nothing is accepted.
  sound i j late inside ran := by
    rw [Recogniser.andThen, Recogniser.next] at ran
    by_cases ended : text.length ≤ i
    · simp [if_pos ended] at ran
    · obtain ⟨c, read, split⟩ := getElem?_inside ended
      rw [if_neg ended, read, Option.bind_some, Option.bind_some] at ran
      by_cases passes : test c = true
      · rw [if_pos passes] at ran
        obtain ⟨s, word, split'⟩ := recognises.sound (i + 1) j (by omega) (by omega) ran
        exact ⟨[c] ++ s, Language.append_mem_mul ⟨c, passes, rfl⟩ word, by
          rw [split, split', List.append_assoc, List.singleton_append]⟩
      · simp [if_neg passes] at ran
  complete i w rest late inside word follows split := by
    obtain ⟨_, ⟨c, passes, rfl⟩, v, after, rfl⟩ := Language.mem_mul.mp word
    have ended : ¬text.length ≤ i := by
      have more := inside_after inside split
      simp only [List.length_append, List.length_singleton] at more
      omega
    obtain ⟨d, read, split'⟩ := getElem?_inside ended
    have same := split'.symm.trans split
    simp only [List.cons_append, List.nil_append, List.cons.injEq] at same
    have ran := recognises.complete (i + 1) v rest (by omega) (by omega) after follows same.2
    rw [Recogniser.andThen, Recogniser.next, if_neg ended, read, Option.bind_some,
      Option.bind_some, same.1, if_pos passes, ran]
    simp only [List.singleton_append, List.length_cons]
    congr 2
    omega

/-- One symbol. -/
theorem next : Recognises text start (Recogniser.next text test) (symbols test) fun _ => True := by
  have recognises := @afterNext _ _ _ _ _ _ test (@pass _ text (start + 1))
  rwa [andThen_pass, mul_one] at recognises

/-- A word, told from its first symbol. -/
theorem byNext {select : α → Recogniser} {L : α → Language α}
    (recognises : ∀ c, Recognises text start (select c) (L c) F) (filled : ∀ c, [] ∉ L c) :
    Recognises text start (Recogniser.byNext text select) (byFirst L) F where
  total := total_byNext fun c => (recognises c).total
  -- The first symbol read selects the recogniser, and belongs to the word it reads.
  sound i j late inside ran := by
    rw [Recogniser.byNext] at ran
    by_cases ended : text.length ≤ i
    · simp [if_pos ended] at ran
    · obtain ⟨c, read, split⟩ := getElem?_inside ended
      rw [if_neg ended, read, Option.bind_some] at ran
      obtain ⟨s, word, split'⟩ := (recognises c).sound i j late inside ran
      cases s with
      | nil => exact absurd word (filled c)
      | cons d t =>
        have same := split.symm.trans split'
        simp only [List.cons_append, List.cons.injEq] at same
        exact ⟨d :: t, ⟨d, t, rfl, same.1 ▸ word⟩, split'⟩
  complete i w rest late inside word follows split := by
    obtain ⟨c, t, rfl, word⟩ := word
    have ended : ¬text.length ≤ i := by
      have more := inside_after inside split
      simp only [List.length_cons] at more
      omega
    obtain ⟨d, read, split'⟩ := getElem?_inside ended
    have same := split'.symm.trans split
    simp only [List.cons_append, List.cons.injEq] at same
    rw [Recogniser.byNext, if_neg ended, read, Option.bind_some, same.1]
    exact (recognises c).complete i (c :: t) rest late inside word follows split

/-- A word after a symbol, or nothing. -/
theorem whenNext (recognises : Recognises text (start + 1) r L F) :
    Recognises text start (Recogniser.whenNext text test r) (1 + symbols test * L)
      fun rest => F rest ∧ Stops test rest where
  -- Either the word is empty and the next symbol does not pass, or it begins with one that does.
  total := total_whenNext recognises.total
  sound i j late inside ran := by
    rw [Recogniser.whenNext] at ran
    by_cases ended : text.length ≤ i
    · rw [if_pos ended, Option.some.injEq, Prod.mk.injEq] at ran
      exact ⟨[], Or.inl Language.nil_mem_one, by rw [ran.2, List.nil_append]⟩
    · obtain ⟨c, read, split⟩ := getElem?_inside ended
      rw [if_neg ended, read, Option.bind_some] at ran
      by_cases passes : test c = true
      · rw [if_pos passes] at ran
        obtain ⟨s, word, split'⟩ := recognises.sound (i + 1) j (by omega) (by omega) ran
        refine ⟨[c] ++ s, Or.inr (Language.append_mem_mul ⟨c, passes, rfl⟩ word), ?_⟩
        rw [split, split', List.append_assoc, List.singleton_append]
      · rw [if_neg passes, Option.some.injEq, Prod.mk.injEq] at ran
        exact ⟨[], Or.inl Language.nil_mem_one, by rw [ran.2, List.nil_append]⟩
  complete i w rest late inside word follows split := by
    rw [Recogniser.whenNext]
    rcases (Language.mem_add _ _ _).mp word with none | some
    · obtain rfl := (Language.mem_one w).mp none
      by_cases ended : text.length ≤ i
      · exact if_pos ended
      · obtain ⟨c, read, split'⟩ := getElem?_inside ended
        rw [List.nil_append, split'] at split
        have stops : test c = false := follows.2 c (by rw [← split]; rfl)
        rw [if_neg ended, read, Option.bind_some, if_neg (by rw [stops]; exact Bool.false_ne_true)]
        rfl
    · obtain ⟨_, ⟨c, passes, rfl⟩, v, after, rfl⟩ := Language.mem_mul.mp some
      have ended : ¬text.length ≤ i := by
        have more := inside_after inside split
        simp only [List.length_append, List.length_singleton] at more
        omega
      obtain ⟨d, read, split'⟩ := getElem?_inside ended
      have same := split'.symm.trans split
      simp only [List.cons_append, List.nil_append, List.cons.injEq] at same
      have ran := recognises.complete (i + 1) v rest (by omega) (by omega) after follows.1 same.2
      rw [if_neg ended, read, Option.bind_some, same.1, if_pos passes, ran]
      simp only [List.singleton_append, List.length_cons]
      congr 2
      omega

/-- A symbol, or a word that does not begin with such a symbol. -/
theorem unlessNext (recognises : Recognises text start r L F)
    (apart : ∀ s ∈ L, ∃ c t, s = c :: t ∧ test c = false) :
    Recognises text start (Recogniser.unlessNext text test r) (symbols test + L) F where
  -- The words of the alternative do not begin with such a symbol, so the first one decides.
  total := total_unlessNext recognises.total
  sound i j late inside ran := by
    rw [Recogniser.unlessNext] at ran
    by_cases ended : text.length ≤ i
    · rw [if_pos ended] at ran
      obtain ⟨s, word, split⟩ := recognises.sound i j late inside ran
      exact ⟨s, Or.inr word, split⟩
    · obtain ⟨c, read, split⟩ := getElem?_inside ended
      rw [if_neg ended, read, Option.bind_some] at ran
      by_cases passes : test c = true
      · rw [if_pos passes, Option.some.injEq, Prod.mk.injEq] at ran
        exact ⟨[c], Or.inl ⟨c, passes, rfl⟩, by rw [split, ran.2]; rfl⟩
      · rw [if_neg passes] at ran
        obtain ⟨s, word, split'⟩ := recognises.sound i j late inside ran
        exact ⟨s, Or.inr word, split'⟩
  complete i w rest late inside word follows split := by
    have ended : ¬text.length ≤ i := by
      have more := inside_after inside split
      rcases (Language.mem_add _ _ _).mp word with ⟨c, -, rfl⟩ | other
      · simp only [List.length_cons, List.length_nil] at more
        omega
      · obtain ⟨c, t, rfl, -⟩ := apart w other
        simp only [List.length_cons] at more
        omega
    obtain ⟨d, read, split'⟩ := getElem?_inside ended
    have same := split'.symm.trans split
    rw [Recogniser.unlessNext, if_neg ended, read, Option.bind_some]
    rcases (Language.mem_add _ _ _).mp word with ⟨c, passes, rfl⟩ | other
    · simp only [List.cons_append, List.nil_append, List.cons.injEq] at same
      rw [same.1, if_pos passes]
      rfl
    · obtain ⟨c, t, rfl, stops⟩ := apart w other
      simp only [List.cons_append, List.cons.injEq] at same
      rw [same.1, if_neg (by rw [stops]; exact Bool.false_ne_true)]
      exact recognises.complete i (c :: t) rest late inside other follows split

/-- All symbols that pass a test, up to one that does not. -/
theorem skip : Recognises text start (Recogniser.skip text test) (symbols test)∗ (Stops test) := by
  -- By induction on the fuel, as one symbol more or none.
  have within : ∀ fuel, Recognises text (text.length + 1 - fuel) (skipWithin text test fuel)
      (symbols test)∗ (Stops test) := by
    intro fuel
    induction fuel with
    | zero => exact past (Nat.lt_succ_self _)
    | succ fuel ih =>
      have round := @whenNext _ _ _ _ _ _ test
        (ih.later (by omega : _ ≤ text.length + 1 - (fuel + 1) + 1))
      exact round.weaken (Language.one_add_self_mul_kstar_eq_kstar _) fun rest stops =>
        ⟨stops, stops⟩
  exact (within (text.length + 1)).later (by omega)

/-- Units up to a closing symbol. -/
theorem units {unit : α → Recogniser} {L : α → Language α}
    (recognises : ∀ c, Recognises text 0 (unit c) (L c) fun _ => True) (fuel : Nat) :
    Recognises text (text.length + 1 - fuel) (Recogniser.units text close unit fuel)
      ((unitWords close L)∗ * symbols close) fun _ => True := by
  let all : Language α := (unitWords close L)∗ * symbols close
  have unrolled : symbols close + unitWords close L * all = all := by
    show _ = (unitWords close L)∗ * symbols close
    conv_rhs => rw [← Language.one_add_self_mul_kstar_eq_kstar, add_mul, one_mul, mul_assoc]
  -- By induction on the fuel, which the text cannot exhaust.
  induction fuel with
  | zero => exact past (Nat.lt_succ_self _)
  | succ fuel ih =>
    refine (byNext (L := fun c => if close c then symbols fun _ => true
      else symbols (fun _ => true) * (L c * all)) (fun c => ?_) fun c => ?_).weaken
        ((byFirst_units L all).trans unrolled) fun _ => id
    · split
      · exact next
      · exact ((((recognises c).later (Nat.zero_le _)).andThen (ih.later (by omega))
          fun _ _ _ _ => trivial).afterNext)
    · split
      · exact nil_notMem_symbols
      · exact nil_notMem_symbols_mul

/-- Items up to a closing symbol, where what may follow an item is known. -/
theorem items {item gap : Recogniser} (item_words : Recognises text 0 item L F)
    (gap_words : Recognises text 0 gap M G)
    (apart : ∀ c, close c = true → separator c = false)
    (followed : ∀ c t, close c = true ∨ separator c = true → F (c :: t))
    (begun : ∀ s t, s ∈ L → G (s ++ t)) (fuel : Nat) :
    Recognises text (text.length + 1 - fuel)
      (Recogniser.items text close separator item gap fuel)
      (L * (symbols separator * M * L)∗ * symbols close) fun _ => True := by
  -- One item, and then the closing symbol or a separator, a gap and the items again.
  let more : Language α := symbols separator * M * L
  have unrolled : L * (symbols close + symbols separator * (M * (L * more∗ * symbols close))) =
      L * more∗ * symbols close := by
    have round : more∗ = 1 + more * more∗ := (Language.one_add_self_mul_kstar_eq_kstar _).symm
    conv_rhs => rw [round]
    simp only [mul_add, add_mul, mul_one, mul_assoc, more]
  induction fuel with
  | zero => exact past (Nat.lt_succ_self _)
  | succ fuel ih =>
    refine ((item_words.later (Nat.zero_le _)).andThen (byNext (L := fun c =>
      if close c then symbols fun _ => true
      else symbols separator * (M * (L * more∗ * symbols close))) (F := fun _ => True)
        (fun c => ?_) fun c => ?_) ?_).weaken ?_ fun _ => id
    · split
      · exact next
      · refine ((gap_words.later (Nat.zero_le _)).andThen (ih.later (by omega))
          fun s t word _ => ?_).afterNext
        obtain ⟨_, first, _, -, rfl⟩ := Language.mem_mul.mp word
        obtain ⟨u, item, _, -, rfl⟩ := Language.mem_mul.mp first
        simp only [List.append_assoc]
        exact begun u _ item
    · split
      · exact nil_notMem_symbols
      · exact nil_notMem_symbols_mul
    · rw [byFirst_items apart]
      rintro t rest (⟨c, closed, rfl⟩ | word) -
      · exact followed c _ (Or.inl closed)
      · obtain ⟨c, t, separates, rfl, -⟩ := mem_symbols_mul.mp word
        exact followed c _ (Or.inr separates)
    · rw [byFirst_items apart]
      exact unrolled

end Recognises

/-- A recogniser reads only the symbols of its text. -/
theorem skip_congr {other : α → Bool} (same : ∀ c ∈ text, test c = other c) :
    Recogniser.skip text test = Recogniser.skip text other := by
  -- By induction on the symbols skipped; each of them is one of the text.
  have within : ∀ fuel, skipWithin text test fuel = skipWithin text other fuel := by
    intro fuel
    induction fuel with
    | zero => rfl
    | succ fuel ih =>
      funext i
      simp only [skipWithin, whenNext, ih]
      split
      · rfl
      · rename_i ended
        rw [List.getElem?_eq_getElem (Nat.not_le.mp ended), Option.bind_some, Option.bind_some,
          same _ (List.getElem_mem _)]
  exact within _

/-- And so does a recogniser of one symbol. -/
theorem next_congr {other : α → Bool} (same : ∀ c ∈ text, test c = other c) :
    Recogniser.next text test = Recogniser.next text other := by
  funext i
  simp only [Recogniser.next]
  split
  · rfl
  · rename_i ended
    rw [List.getElem?_eq_getElem (Nat.not_le.mp ended), Option.bind_some, Option.bind_some,
      same _ (List.getElem_mem _)]

end Recognises

end Recogniser
