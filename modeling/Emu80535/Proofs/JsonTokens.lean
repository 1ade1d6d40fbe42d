import Emu80535.Json.Document
import Emu80535.Lib.JsonTree
import Emu80535.Proofs.JsonSyntax

/-! The tokens of a text are its keys and values in the order in which they begin. -/

namespace Emu80535

open JsonGrammar Recogniser Computability

/-! ### Nodes as tokens -/

mutual

/-- A node as tokens, the first of which is to have a number. -/
def nodeTokens (parent : Int) (base : Nat) : Node → List JsonToken
  | .string start raw => [⟨.string, start, (start + raw.length : Nat), 0, parent⟩]
  | .primitive start raw => [⟨.primitive, start, (start + raw.length : Nat), 0, parent⟩]
  | .container object start stop children =>
    ⟨if object then .object else .array, start, stop, children.length, parent⟩ ::
      nodesTokens base (base + 1) children

/-- The tokens of several nodes, one behind the other. -/
def nodesTokens (parent : Int) (base : Nat) : List Node → List JsonToken
  | [] => []
  | n :: ns => nodeTokens parent base n ++ nodesTokens parent (base + n.count) ns

end

mutual

/-- A node has as many tokens as it counts nodes. -/
theorem nodeTokens_length (parent : Int) (base : Nat) (n : Node) :
    (nodeTokens parent base n).length = n.count := by
  cases n with
  | string => rfl
  | primitive => rfl
  | container object start stop children =>
    rw [nodeTokens, List.length_cons, nodesTokens_length, Node.count]

/-- And so have several. -/
theorem nodesTokens_length (parent : Int) (base : Nat) (ns : List Node) :
    (nodesTokens parent base ns).length = Node.counts ns := by
  cases ns with
  | nil => rfl
  | cons n ns =>
    rw [nodesTokens, List.length_append, nodeTokens_length, nodesTokens_length, Node.counts]

end

/-- The tokens of a node lie in a row. -/
def LiesIn (tokens : List JsonToken) (base : Nat) (k : Nat) (m : Node) : Prop :=
  ∃ parent, (tokens.drop k).take m.count = nodeTokens parent (base + k) m

mutual

/-- The tokens of a node hold those of every node inside it, at its place. -/
theorem nodeTokens_holds (parent : Int) (base : Nat) (n : Node) {k : Nat} {m : Node}
    (at_k : n.all[k]? = some m) : LiesIn (nodeTokens parent base n) base k m := by
  -- A node without children only holds itself.
  cases n with
  | string start raw =>
    cases k with
    | zero => exact ⟨parent, by cases at_k; rfl⟩
    | succ k => exact absurd at_k (by simp [Node.all])
  | primitive start raw =>
    cases k with
    | zero => exact ⟨parent, by cases at_k; rfl⟩
    | succ k => exact absurd at_k (by simp [Node.all])
  -- The node itself comes first, and its children behind it.
  | container object start stop children =>
    cases k with
    | zero =>
      cases at_k
      exact ⟨parent, List.take_of_length_le (nodeTokens_length _ _ _).le⟩
    | succ k =>
      obtain ⟨parent', found⟩ := nodesTokens_holds base (base + 1) children
        (by simpa [Node.all] using at_k)
      refine ⟨parent', ?_⟩
      rw [nodeTokens, List.drop_succ_cons, found, Nat.add_assoc, Nat.add_comm 1 k]

/-- The tokens of several nodes hold those of every node in them. -/
theorem nodesTokens_holds (parent : Int) (base : Nat) (ns : List Node) {k : Nat} {m : Node}
    (at_k : (Node.alls ns)[k]? = some m) : LiesIn (nodesTokens parent base ns) base k m := by
  cases ns with
  | nil => exact absurd at_k (by simp [Node.alls])
  | cons n ns =>
    have size : n.all.length = n.count := Node.all_length n
    have length := nodeTokens_length parent base n
    rw [Node.alls] at at_k
    -- The place lies within the first node or behind it.
    rcases Nat.lt_or_ge k n.all.length with inside | behind
    · rw [List.getElem?_append_left inside] at at_k
      obtain ⟨parent', found⟩ := nodeTokens_holds parent base n at_k
      refine ⟨parent', ?_⟩
      have sizes := congrArg List.length found
      rw [List.length_take, List.length_drop, nodeTokens_length, nodeTokens_length] at sizes
      rw [nodesTokens, List.drop_append_of_le_length (by omega),
        List.take_append_of_le_length (by rw [List.length_drop]; omega), found]
    · rw [List.getElem?_append_right behind, size] at at_k
      obtain ⟨parent', found⟩ := nodesTokens_holds parent (base + n.count) ns at_k
      refine ⟨parent', ?_⟩
      rw [nodesTokens, List.drop_append, List.drop_eq_nil_of_le (by omega), List.nil_append,
        length, found, show base + n.count + (k - n.count) = base + k by omega]

end

/-! ### Characters of primitives -/

/-- The characters of numbers. -/
def isNumeric (c : Byte) : Bool :=
  isDigit c || c == ascii '-' || c == ascii '+' || c == ascii '.' || c == ascii 'e' ||
    c == ascii 'E'

/-- The characters of numbers, by their codes. -/
theorem isNumeric_iff {c : Byte} : isNumeric c = true ↔ (0x30 ≤ c.toNat ∧ c.toNat ≤ 0x39) ∨
    c.toNat = 0x2D ∨ c.toNat = 0x2B ∨ c.toNat = 0x2E ∨ c.toNat = 0x65 ∨ c.toNat = 0x45 := by
  simp [isNumeric, isDigit_iff, ascii, ← BitVec.toNat_inj, or_assoc]

/-- The characters that end a primitive, by their codes. -/
theorem jsonPrimitiveStop_iff {c : Byte} : jsonPrimitiveStop c = true ↔ c.toNat = 0x00 ∨
    c.toNat = 0x20 ∨ c.toNat = 0x09 ∨ c.toNat = 0x0D ∨ c.toNat = 0x0A ∨ c.toNat = 0x2C ∨
    c.toNat = 0x5D ∨ c.toNat = 0x7D ∨ c.toNat = 0x3A := by
  simp [jsonPrimitiveStop, strchr, asciis, ascii, objectClose, ← BitVec.toNat_inj]

/-- Numbers consist of those. -/
theorem number_numeric : number ≤ (symbols isNumeric)∗ := by
  -- Languages in the star are closed under product, and the parts are such languages.
  have one : (1 : Language Byte) ≤ (symbols isNumeric)∗ := one_le_kstar
  have mul : ∀ {L M : Language Byte}, L ≤ (symbols isNumeric)∗ → M ≤ (symbols isNumeric)∗ →
      L * M ≤ (symbols isNumeric)∗ :=
    fun first second => (mul_le_mul' first second).trans (kstar_mul_kstar _).le
  have some : ∀ {test : Byte → Bool}, (∀ c, test c = true → isNumeric c = true) →
      symbols test ≤ (symbols isNumeric)∗ :=
    fun is => (symbols_mono is).trans le_kstar
  have digit : symbols isDigit ≤ symbols isNumeric := symbols_mono fun c is => by
    simp [isNumeric, is]
  have run : (symbols isDigit)∗ ≤ (symbols isNumeric)∗ := kstar_mono digit
  have all : digits ≤ (symbols isNumeric)∗ := mul (digit.trans le_kstar) run
  have whole : int ≤ (symbols isNumeric)∗ :=
    add_le (some fun c is => by rw [beq_iff_eq.mp is]; decide)
      (mul (some fun c is => by simp [isNumeric, (Bool.and_eq_true _ _ ▸ is).1]) run)
  have sign : char (ascii '-') ≤ (symbols isNumeric)∗ :=
    some fun c is => by rw [beq_iff_eq.mp is]; decide
  have point : char (ascii '.') ≤ (symbols isNumeric)∗ :=
    some fun c is => by rw [beq_iff_eq.mp is]; decide
  have letters : symbols (fun c => c == ascii 'e' || c == ascii 'E') ≤ (symbols isNumeric)∗ :=
    some fun c is => by rcases Bool.or_eq_true _ _ ▸ is with is | is <;> simp [isNumeric, is]
  have signs : symbols (fun c => c == ascii '+' || c == ascii '-') ≤ (symbols isNumeric)∗ :=
    some fun c is => by rcases Bool.or_eq_true _ _ ▸ is with is | is <;> simp [isNumeric, is]
  -- Sign, integer, fraction and exponent, in the order of the grammar.
  exact mul (add_le one sign) (mul whole (mul (add_le one (mul point all))
    (add_le one (mul letters (mul (add_le one signs) all)))))

/-- What no primitive has in it. -/
theorem primitive_stop {s : List Byte} (word : s ∈ literal + number) :
    ∀ c ∈ s, jsonPrimitiveStop c = false := by
  rcases (Language.mem_add _ _ _).mp word with known | numeric
  · rcases known with rfl | rfl | rfl <;> decide
  · intro c member
    have is := isNumeric_iff.mp (mem_symbols_kstar.mp (number_numeric numeric) c member)
    rw [← Bool.not_eq_true, jsonPrimitiveStop_iff]
    omega

/-! ### Rounds -/

section Rounds

variable {text : List Byte} {capacity : Nat}

/-- A run of the loop from one state to another, with no more rounds than positions. -/
def Reaches (text : List Byte) (capacity : Nat) (p q : JsonParser) : Prop :=
  ∃ rounds, p.position + rounds ≤ q.position ∧
    ∀ fuel, jsonLoop text capacity (fuel + rounds) p = jsonLoop text capacity fuel q

/-- No round leads nowhere. -/
theorem Reaches.refl (p : JsonParser) : Reaches text capacity p p := ⟨0, Nat.le_refl _, fun _ => rfl⟩

/-- Rounds follow each other. -/
theorem Reaches.trans {p q r : JsonParser} (first : Reaches text capacity p q)
    (second : Reaches text capacity q r) : Reaches text capacity p r := by
  obtain ⟨k, before, first⟩ := first
  obtain ⟨l, after, second⟩ := second
  refine ⟨k + l, by omega, fun fuel => ?_⟩
  rw [Nat.add_comm k l, ← Nat.add_assoc, first, second]

/-- One round. -/
theorem Reaches.round {p q : JsonParser} (inside : p.position < text.length)
    (ran : jsonRound text capacity p = some (.ok q)) (forward : p.position ≤ q.position) :
    Reaches text capacity p { q with position := q.position + 1 } := by
  refine ⟨1, Nat.succ_le_succ forward, fun fuel => ?_⟩
  rw [jsonLoop, if_neg (Nat.not_le.mpr inside), ran]
  rfl

/-- The character at a position is the first of the rest. -/
theorem getElem?_here {i : Nat} {c : Byte} {rest : List Byte} (here : text.drop i = c :: rest) :
    text[i]? = some c ∧ i < text.length := by
  have read : text[i]? = some c := by rw [← List.head?_drop, here, List.head?_cons]
  exact ⟨read, (List.getElem?_eq_some_iff.mp read).1⟩

/-- What lies behind some text of a known length. -/
theorem drop_more {i : Nat} {s rest : List Byte} (k : Nat) (here : text.drop i = s ++ rest)
    (size : s.length = k) : text.drop (i + k) = rest := by
  rw [← size, drop_after here]

/-- A character that changes nothing. -/
theorem reaches_skip {i : Nat} {c : Byte} {rest : List Byte} {tokens : List JsonToken}
    {parent : Int} (here : text.drop i = c :: rest)
    (skipped : c = ascii ':' ∨ c = ascii ',' ∨ isBlank c = true) :
    Reaches text capacity ⟨i, tokens, parent⟩ ⟨i + 1, tokens, parent⟩ := by
  obtain ⟨read, inside⟩ := getElem?_here here
  refine Reaches.round (q := ⟨i, tokens, parent⟩) inside ?_ (Nat.le_refl i)
  -- Blank are the four characters that the parser skips.
  have blanks : isBlank c = true → c = ascii ' ' ∨ c = ascii '\t' ∨ c = ascii '\r' ∨
      c = ascii '\n' := by
    intro blank
    simpa [isBlank, asciis] using blank
  -- The parser compares the character with each kind in turn.
  rw [jsonRound, read, Option.bind_some]
  rcases skipped with rfl | rfl | blank
  · rfl
  · rfl
  · rcases blanks blank with rfl | rfl | rfl | rfl <;> rfl

/-- Blanks are passed one by one. -/
theorem reaches_blank {i : Nat} {gap rest : List Byte} {tokens : List JsonToken} {parent : Int}
    (here : text.drop i = gap ++ rest) (blank : gap ∈ ws) :
    Reaches text capacity ⟨i, tokens, parent⟩ ⟨i + gap.length, tokens, parent⟩ := by
  -- Every character of a gap is blank, and the induction is on these.
  have all := mem_symbols_kstar.mp blank
  clear blank
  induction gap generalizing i with
  | nil => exact Reaches.refl _
  | cons c gap ih =>
    have first : Reaches text capacity ⟨i, tokens, parent⟩ ⟨i + 1, tokens, parent⟩ :=
      reaches_skip here (Or.inr (Or.inr (all c List.mem_cons_self)))
    have more := ih (drop_more 1 (s := [c]) here rfl) fun d member => all d (List.mem_cons_of_mem _ member)
    rw [List.length_cons, Nat.add_comm gap.length 1, ← Nat.add_assoc]
    exact first.trans more

/-- Colons and commas are passed alike. -/
theorem reaches_separator {i : Nat} {object odd : Bool} {rest : List Byte}
    {tokens : List JsonToken} {parent : Int}
    (here : text.drop i = separator object odd :: rest) :
    Reaches text capacity ⟨i, tokens, parent⟩ ⟨i + 1, tokens, parent⟩ :=
  reaches_skip here (by cases object <;> cases odd <;> decide)

/-! ### Strings and primitives -/

/-- Digits are passed one by one. -/
theorem jsonHexDigits_four {i : Nat} {e a b c d : Byte} {rest : List Byte}
    (here : text.drop i = e :: a :: b :: c :: d :: rest) (one : isHex a = true)
    (two : isHex b = true) (three : isHex c = true) (four : isHex d = true) :
    jsonHexDigits text 4 i = some (.ok (i + 4)) := by
  -- All four digits lie inside the text.
  have at1 := getElem?_here (drop_more 1 (s := [e]) here rfl)
  have at2 := getElem?_here (drop_more 2 (s := [e, a]) here rfl)
  have at3 := getElem?_here (drop_more 3 (s := [e, a, b]) here rfl)
  have at4 := getElem?_here (drop_more 4 (s := [e, a, b, c]) here rfl)
  simp only [jsonHexDigits, Nat.not_le.mpr at1.2, Nat.not_le.mpr at2.2, Nat.not_le.mpr at3.2,
    Nat.not_le.mpr at4.2, at1.1, at2.1, at3.1, at4.1, one, two, three, four, if_true, if_false,
    Option.bind_some, Nat.add_assoc, Nat.reduceAdd]

/-- The end of a string is found behind its text. -/
theorem jsonStringEnd_body {raw : List Byte} (plain : raw ∈ body) {i fuel : Nat}
    {rest : List Byte} (here : text.drop i = raw ++ quote :: rest) (enough : raw.length < fuel) :
    jsonStringEnd text fuel i = some (.ok (i + raw.length)) := by
  revert i fuel
  -- The induction is over the body of a string, by the kind of its next character.
  refine body_induction (motive := fun raw => ∀ {i fuel : Nat}, text.drop i = raw ++ quote :: rest →
    raw.length < fuel → jsonStringEnd text fuel i = some (.ok (i + raw.length)))
    ?nil ?plain ?short ?hex plain
  -- At the end stands the quote.
  case nil =>
    intro i fuel here enough
    obtain ⟨fuel, rfl⟩ := Nat.exists_eq_add_one_of_ne_zero (Nat.ne_of_gt enough)
    obtain ⟨read, inside⟩ := getElem?_here here
    rw [jsonStringEnd, if_neg (Nat.not_le.mpr inside), read, Option.bind_some, if_pos rfl]
    rfl
  -- A plain character is neither a quote nor a backslash nor a control character.
  case plain =>
    intro c raw printable ih i fuel here enough
    obtain ⟨fuel, rfl⟩ := Nat.exists_eq_add_one_of_ne_zero (Nat.ne_of_gt (Nat.zero_lt_of_lt enough))
    obtain ⟨read, inside⟩ := getElem?_here here
    simp only [isPlain, Bool.and_eq_true, decide_eq_true_eq, bne_iff_ne] at printable
    rw [jsonStringEnd, if_neg (Nat.not_le.mpr inside), read, Option.bind_some,
      if_neg printable.1.2, if_neg (BitVec.not_lt.mpr printable.1.1), if_neg printable.2,
      ih (drop_more 1 (s := [c]) here rfl) (Nat.lt_of_succ_lt_succ enough), List.length_cons]
    congr 2
    omega
  -- Behind a backslash stands a letter of the list, and the two are passed together.
  case short =>
    intro c raw known ih i fuel here enough
    obtain ⟨fuel, rfl⟩ := Nat.exists_eq_add_one_of_ne_zero (Nat.ne_of_gt (Nat.zero_lt_of_lt enough))
    obtain ⟨read, inside⟩ := getElem?_here here
    obtain ⟨read', inside'⟩ := getElem?_here (drop_more 1 (s := [backslash]) here rfl)
    have other : c ≠ ascii 'u' := by
      rintro rfl
      exact absurd known (by decide)
    have found : strchr (quote :: backslash :: asciis ['/', 'b', 'f', 'n', 'r', 't']) c = true := by
      simp only [isShortEscape, Bool.or_eq_true] at known
      simp only [strchr, List.contains_cons, Bool.or_eq_true]
      exact Or.inr (or_assoc.mp known)
    rw [jsonStringEnd, if_neg (Nat.not_le.mpr inside), read, Option.bind_some,
      if_neg (by decide), if_neg (by decide), if_pos rfl, if_neg (Nat.not_le.mpr inside')]
    rw [read', Option.bind_some, if_neg other, if_pos found,
      ih (drop_more 2 (s := [backslash, c]) here rfl)
        (by simp only [List.length_cons] at enough; omega)]
    congr 2
    simp only [List.length_cons]
    omega
  -- Behind `\u` stand four digits, and the six are passed together.
  case hex =>
    intro a b c d raw one two three four ih i fuel here enough
    obtain ⟨fuel, rfl⟩ := Nat.exists_eq_add_one_of_ne_zero (Nat.ne_of_gt (Nat.zero_lt_of_lt enough))
    obtain ⟨read, inside⟩ := getElem?_here here
    have behind := drop_more 1 (s := [backslash]) here rfl
    obtain ⟨read', inside'⟩ := getElem?_here behind
    rw [jsonStringEnd, if_neg (Nat.not_le.mpr inside), read, Option.bind_some,
      if_neg (by decide), if_neg (by decide), if_pos rfl, if_neg (Nat.not_le.mpr inside')]
    rw [read', Option.bind_some, if_pos rfl, jsonHexDigits_four behind one two three four,
      Option.bind_some]
    refine (ih (drop_more 6 (s := [backslash, ascii 'u', a, b, c, d]) here rfl)
        (by simp only [List.length_cons] at enough; omega)).trans ?_
    congr 2
    simp only [List.length_cons]
    omega

/-- A child is counted in front of what is allocated later. -/
theorem jsonAddChild_append {parent : Int} {tokens counted : List JsonToken}
    (added : jsonAddChild parent tokens = some counted) (more : List JsonToken) :
    jsonAddChild parent (tokens ++ more) = some (counted ++ more) := by
  rw [jsonAddChild] at added ⊢
  -- The parent lies in front, so its place is the same with more behind.
  split at added
  · rename_i some
    obtain ⟨token, found, rfl⟩ := Option.map_eq_some_iff.mp added
    have inside := (List.getElem?_eq_some_iff.mp found).1
    rw [if_pos some, List.getElem?_append_left inside, found, Option.map_some,
      List.set_append_left _ _ inside]
  · rename_i none
    rw [if_neg none, ← Option.some.inj added]

/-- Counting a child allocates nothing. -/
theorem jsonAddChild_length {parent : Int} {tokens counted : List JsonToken}
    (added : jsonAddChild parent tokens = some counted) : counted.length = tokens.length := by
  rw [jsonAddChild] at added
  split at added
  · obtain ⟨token, found, rfl⟩ := Option.map_eq_some_iff.mp added
    exact List.length_set
  · rw [← Option.some.inj added]

/-- A token that fits is put behind the others and counted as a child. -/
theorem jsonAppend_fits {parser : JsonParser} {token : JsonToken} {counted : List JsonToken}
    (room : parser.tokens.length < capacity)
    (added : jsonAddChild parser.parent parser.tokens = some counted) :
    jsonAppend capacity token parser =
      some (.ok { parser with tokens := counted ++ [token] }) := by
  rw [jsonAppend, jsonAllocate, if_neg (Nat.not_le.mpr room)]
  dsimp only
  rw [jsonAddChild_append added, Option.map_some]

/-- A string becomes one token, counted in its parent. -/
theorem reaches_string {i : Nat} {raw rest : List Byte} {tokens counted : List JsonToken}
    {parent : Int} (plain : raw ∈ body) (here : text.drop i = quote :: (raw ++ [quote]) ++ rest)
    (room : tokens.length < capacity) (added : jsonAddChild parent tokens = some counted) :
    Reaches text capacity ⟨i, tokens, parent⟩
      ⟨i + (raw.length + 2),
        counted ++ [⟨.string, (i + 1 : Nat), (i + 1 + raw.length : Nat), 0, parent⟩],
        parent⟩ := by
  obtain ⟨read, inside⟩ := getElem?_here here
  -- Behind the opening quote stand the text and the closing one.
  have behind : text.drop (i + 1) = raw ++ quote :: rest := by
    have tail := drop_more 1 (s := [quote]) here rfl
    exact tail.trans (by simp)
  -- The rest of the text is fuel enough for it.
  have size : raw.length < text.length + 1 := by
    have whole := congrArg List.length behind
    rw [List.length_drop, List.length_append, List.length_cons] at whole
    omega
  -- The round ends at the closing quote, with the token allocated.
  have ran : jsonRound text capacity ⟨i, tokens, parent⟩ = some (.ok ⟨i + 1 + raw.length,
      counted ++ [⟨.string, (i + 1 : Nat), (i + 1 + raw.length : Nat), 0, parent⟩],
      parent⟩) := by
    rw [jsonRound, read, Option.bind_some, if_neg (by decide), if_neg (by decide), if_pos rfl,
      jsonParseString]
    dsimp only
    rw [jsonStringEnd_body plain behind size, Option.bind_some]
    dsimp only
    rw [@jsonAppend_fits _ ⟨i + 1 + raw.length, tokens, parent⟩ _ _ room added]
  -- The loop steps over the quote.
  have round := Reaches.round inside ran (show i ≤ i + 1 + raw.length by omega)
  dsimp only at round
  rwa [show i + 1 + raw.length + 1 = i + (raw.length + 2) by omega] at round

/-- What ends a primitive may follow it. -/
def Ends (rest : List Byte) : Prop := Stops (fun c => !jsonPrimitiveStop c) rest

/-- A primitive becomes one token. -/
theorem reaches_primitive {i : Nat} {raw rest : List Byte} {tokens counted : List JsonToken}
    {parent : Int} (named : raw ∈ literal + number) (here : text.drop i = raw ++ rest)
    (ends : Ends rest) (room : tokens.length < capacity)
    (added : jsonAddChild parent tokens = some counted) :
    Reaches text capacity ⟨i, tokens, parent⟩
      ⟨i + raw.length, counted ++ [⟨.primitive, i, (i + raw.length : Nat), 0, parent⟩],
        parent⟩ := by
  obtain ⟨bare, c, t, rfl, notObject, notArray, notQuote⟩ := primitive_plain named
  have free := primitive_stop named
  have first := free c List.mem_cons_self
  obtain ⟨read, inside⟩ := getElem?_here here
  simp only [beq_eq_false_iff_ne] at notObject notArray notQuote
  -- What ends a primitive is none of its own characters.
  have others : c ≠ objectClose ∧ c ≠ arrayClose ∧ c ≠ ascii ':' ∧ c ≠ ascii ',' := by
    refine ⟨?_, ?_, ?_, ?_⟩ <;> rintro rfl <;> exact absurd first (by decide)
  have unblank : ¬isBlank c = true := by
    intro blank
    simp only [isBlank, asciis, List.contains_eq_mem, List.map_cons, List.map_nil,
      decide_eq_true_eq, List.mem_cons, List.not_mem_nil, or_false] at blank
    rcases blank with rfl | rfl | rfl | rfl <;> exact absurd first (by decide)
  have scanned : skip text (fun c => !jsonPrimitiveStop c) i = some (true, i + (c :: t).length) := by
    refine (@Recognises.skip _ text 0 fun c => !jsonPrimitiveStop c).complete i (c :: t) rest
      (Nat.zero_le i) inside.le (mem_symbols_kstar.mpr fun d member => ?_) ends here
    rw [free d member]
    rfl
  have taken : (text.drop i).take (i + (c :: t).length - i) = c :: t := by
    rw [Nat.add_sub_cancel_left, here, List.take_left]
  have ran : jsonRound text capacity ⟨i, tokens, parent⟩ = some (.ok ⟨i + (c :: t).length - 1,
      counted ++ [⟨.primitive, i, (i + (c :: t).length : Nat), 0, parent⟩], parent⟩) := by
    rw [jsonRound, read, Option.bind_some, if_neg (by simp [notObject, notArray]),
      if_neg (by simp [others]), if_neg notQuote, if_neg (by simp [others]), if_neg unblank,
      jsonPrimitive]
    dsimp only
    rw [scanned, Option.bind_some, if_neg (by simp), taken, (jsonPrimitiveValid_iff _).mpr named,
      Option.bind_some, if_pos rfl,
      @jsonAppend_fits _ ⟨i + (c :: t).length - 1, tokens, parent⟩ _ _ room added]
  have round := Reaches.round inside ran
    (show i ≤ i + (c :: t).length - 1 by rw [List.length_cons]; omega)
  dsimp only at round
  rwa [show i + (c :: t).length - 1 + 1 = i + (c :: t).length by
    rw [List.length_cons]; omega] at round

/-! ### Containers -/

/-- An opening bracket becomes a token that is open, and the parent of what follows. -/
theorem reaches_open {i : Nat} {object : Bool} {rest : List Byte} {tokens counted : List JsonToken}
    {parent : Int} (here : text.drop i = opening object :: rest) (room : tokens.length < capacity)
    (added : jsonAddChild parent tokens = some counted) :
    Reaches text capacity ⟨i, tokens, parent⟩
      ⟨i + 1, counted ++ [⟨if object then .object else .array, i, -1, 0, parent⟩],
        counted.length⟩ := by
  obtain ⟨read, inside⟩ := getElem?_here here
  -- The type is that of the bracket.
  have type : (if opening object = objectOpen then JsonType.object else .array) =
      if object then .object else .array := by
    cases object <;> rfl
  have ran : jsonRound text capacity ⟨i, tokens, parent⟩ = some (.ok ⟨i,
      counted ++ [⟨if object then .object else .array, i, -1, 0, parent⟩], counted.length⟩) := by
    rw [jsonRound, read, Option.bind_some, if_pos (by cases object <;> decide), jsonOpen, type,
      @jsonAppend_fits _ ⟨i, tokens, parent⟩ _ _ room added, Option.map_some]
    simp [Except.map]
  -- The loop steps over the bracket.
  exact Reaches.round inside ran (Nat.le_refl i)

/-- A closing bracket gives the innermost open token its end. -/
theorem reaches_close {i : Nat} {object : Bool} {rest : List Byte} {before after : List JsonToken}
    {token : JsonToken} (here : text.drop i = closing object :: rest)
    (type : token.type = if object then .object else .array) :
    Reaches text capacity ⟨i, before ++ token :: after, before.length⟩
      ⟨i + 1, before ++ { token with stop := (i + 1 : Nat) } :: after, token.parent⟩ := by
  obtain ⟨read, inside⟩ := getElem?_here here
  refine Reaches.round (q := ⟨i, before ++ { token with stop := (i + 1 : Nat) } :: after,
    token.parent⟩) inside ?_ (Nat.le_refl i)
  -- The parent is open and of the type of the bracket, so no fault is found.
  rw [jsonRound, read, Option.bind_some, if_neg (by cases object <;> decide),
    if_pos (by cases object <;> decide), jsonClose]
  dsimp only
  rw [if_neg (by omega), Int.toNat_natCast, List.getElem?_append_right (Nat.le_refl _),
    Nat.sub_self, List.getElem?_cons_zero, Option.map_some, if_neg (by
      rw [type]
      cases object <;> decide), List.set_append_right _ _ (Nat.le_refl _), Nat.sub_self,
    List.set_cons_zero]
  rfl

/-- A child of the container that is open is counted there. -/
theorem jsonAddChild_open (before after : List JsonToken) (token : JsonToken) :
    jsonAddChild before.length (before ++ token :: after) =
      some (before ++ { token with size := token.size + 1 } :: after) := by
  rw [jsonAddChild, if_pos (by omega), Int.toNat_natCast,
    List.getElem?_append_right (Nat.le_refl _), Nat.sub_self, List.getElem?_cons_zero,
    Option.map_some, List.set_append_right _ _ (Nat.le_refl _), Nat.sub_self, List.set_cons_zero]

/-- What comes behind a child ends a primitive. -/
theorem ends_rest {i : Nat} {object odd : Bool} {gap t : List Byte} {ns : List Node}
    (blank : gap ∈ ws) (more : Spells (.rest object odd) i t ns) (rest : List Byte) :
    Ends (gap ++ (t ++ rest)) := by
  -- Either a separator or bracket follows, or blanks do.
  cases gap with
  | nil =>
    cases more <;> refine stops_cons ?_ <;> cases object <;> try cases odd
    all_goals decide
  | cons c gap =>
    refine stops_cons ?_
    have is := mem_symbols_kstar.mp blank c List.mem_cons_self
    simp only [isBlank, asciis, List.contains_eq_mem, List.map_cons, List.map_nil,
      decide_eq_true_eq, List.mem_cons, List.not_mem_nil, or_false] at is
    rcases is with rfl | rfl | rfl | rfl <;> decide

/-- The loop runs through a part and leaves its nodes as tokens. -/
def Runs (text : List Byte) (capacity : Nat) : Part → Nat → List Byte → List Node → Prop
  | .value, i, s, ns =>
    ∀ {rest : List Byte} {tokens counted : List JsonToken} {parent : Int},
      text.drop i = s ++ rest → Ends rest → tokens.length + Node.counts ns ≤ capacity →
      jsonAddChild parent tokens = some counted →
      Reaches text capacity ⟨i, tokens, parent⟩
        ⟨i + s.length, counted ++ nodesTokens parent tokens.length ns, parent⟩
  | .first object, i, s, ns | .rest object _, i, s, ns =>
    ∀ {rest : List Byte} {before after : List JsonToken} {token : JsonToken},
      text.drop i = s ++ rest → token.type = (if object then .object else .array) →
      before.length + 1 + after.length + Node.counts ns ≤ capacity →
      Reaches text capacity ⟨i, before ++ token :: after, before.length⟩
        ⟨i + s.length, before ++
          { token with size := token.size + ns.length, stop := (i + s.length : Nat) } ::
            (after ++ nodesTokens before.length (before.length + 1 + after.length) ns),
          token.parent⟩

/-- A child, the whitespace behind it and what follows. -/
theorem Runs.child {i : Nat} {object odd : Bool} {s gap t : List Byte} {n : Node} {ns : List Node}
    (child : Runs text capacity .value i s [n]) (blank : gap ∈ ws)
    (spans : Spells (.rest object odd) (i + s.length + gap.length) t ns)
    (more : Runs text capacity (.rest object odd) (i + s.length + gap.length) t ns) :
    Runs text capacity (.first object) i (s ++ (gap ++ t)) (n :: ns) := by
  -- The room is for the child and for what follows it.
  intro rest before after token here type room
  rw [Node.counts] at room
  have whole : text.drop i = s ++ (gap ++ (t ++ rest)) := by
    rw [here, List.append_assoc, List.append_assoc]
  have length : (before ++ token :: after).length = before.length + 1 + after.length := by
    rw [List.length_append, List.length_cons]
    omega
  have one (base : Nat) : nodesTokens before.length base [n] = nodeTokens before.length base n :=
    List.append_nil _
  -- The child is counted in the container that is open.
  have first := child whole (ends_rest blank spans rest) (by
    rw [length, Node.counts, Node.counts]
    omega) (jsonAddChild_open before after token)
  rw [length, one, List.append_assoc, List.cons_append] at first
  -- The tokens of the child are from here on a list of known length.
  generalize sized : nodeTokens before.length (before.length + 1 + after.length) n = mine at first
  have size : mine.length = n.count := sized ▸ nodeTokens_length _ _ _
  -- What follows begins behind the child, in a container that has counted it.
  have last := @more rest before (after ++ mine) { token with size := token.size + 1 }
    (drop_after (drop_after whole)) type (by rw [List.length_append, size]; omega)
  -- Child, blanks, rest.
  have all := first.trans ((reaches_blank (drop_after whole) blank).trans last)
  rw [nodesTokens, sized]
  simp only [List.length_append, List.length_cons, size, List.append_assoc, Nat.add_assoc,
    Int.add_assoc] at all ⊢
  rwa [Int.add_comm 1 (ns.length : Int)] at all

/-- By the parts of a text. -/
theorem runs_of_spans {part : Part} {i : Nat} {s : List Byte} {ns : List Node}
    (spans : Spells part i s ns) : Runs text capacity part i s ns := by
  -- One case for each way a part of a text is spelled.
  induction spans with
  | @string i raw plain =>
    intro rest tokens counted parent here ends room added
    have ran := reaches_string plain here room added
    rw [List.length_cons, List.length_append]
    exact ran
  | @primitive i raw named =>
    intro rest tokens counted parent here ends room added
    exact reaches_primitive named here ends room added
  -- The bracket opens a token, and what is inside closes it.
  | @container i object gap s children blank inner ih =>
    intro rest tokens counted parent here ends room added
    have length := jsonAddChild_length added
    have behind : text.drop (i + 1) = gap ++ (s ++ rest) := by
      have tail := drop_more 1 (s := [opening object]) here rfl
      rw [tail]
      simp only [List.append_eq, List.append_assoc]
    simp only [Node.counts, Node.count] at room
    -- The children are read in the container that has just been opened.
    have opened := @reaches_open text capacity i object _ tokens counted parent here (by omega) added
    have inside := @ih rest counted [] ⟨if object then .object else .array, i, -1, 0, parent⟩
      (drop_after behind) rfl (by rw [List.length_nil]; omega)
    have all := opened.trans ((reaches_blank behind blank).trans inside)
    have size : i + (opening object :: (gap ++ s)).length = i + 1 + gap.length + s.length := by
      simp only [List.length_append, List.length_cons]
      omega
    rw [size]
    simpa [nodesTokens, nodeTokens, length] using all
  -- An empty container closes at once.
  | @none i object =>
    intro rest before after token here type room
    have closed := @reaches_close text capacity i object rest before after token here type
    simpa [nodesTokens] using closed
  | @some i object s gap t n ns child key blank more child_ih more_ih =>
    exact Runs.child child_ih blank more more_ih
  | @close i object odd paired =>
    intro rest before after token here type room
    have closed := @reaches_close text capacity i object rest before after token here type
    simpa [nodesTokens] using closed
  -- A separator, a child and the rest.
  | @next i object odd gap s gap' t n ns blank child key blank' more child_ih more_ih =>
    intro rest before after token here type room
    have behind : text.drop (i + 1) = gap ++ (s ++ (gap' ++ t) ++ rest) := by
      have tail := drop_more 1 (s := [separator object odd]) here rfl
      rw [tail]
      simp only [List.append_eq, List.append_assoc]
    have all := (reaches_separator here).trans ((reaches_blank behind blank).trans
      (Runs.child child_ih blank' more more_ih (drop_after behind) type room))
    have length : i + (separator object odd :: (gap ++ (s ++ (gap' ++ t)))).length =
        i + 1 + gap.length + (s ++ (gap' ++ t)).length := by
      simp only [List.length_append, List.length_cons]
      omega
    rw [length]
    exact all

/-! ### Whole texts -/

/-- A text with enough room for its tokens. -/
theorem jsonParse_spans {gap s gap' : List Byte} {n : Node} (blank : gap ∈ ws)
    (spans : Spells .value gap.length s [n]) (blank' : gap' ∈ ws)
    (whole : text = gap ++ (s ++ gap')) (room : n.count ≤ capacity) :
    jsonParse text capacity = some (.ok (nodeTokens (-1) 0 n)) := by
  have here : text.drop 0 = gap ++ (s ++ gap') := by rw [List.drop_zero, whole]
  have behind := drop_after here
  rw [Nat.zero_add] at behind
  -- Behind the value there are only blanks, which end a primitive.
  have ends : Ends gap' := by
    cases gap' with
    | nil => exact stops_nil _
    | cons c gap' =>
      refine stops_cons ?_
      have is := mem_symbols_kstar.mp blank' c List.mem_cons_self
      simp only [isBlank, asciis, List.contains_eq_mem, List.map_cons, List.map_nil,
        decide_eq_true_eq, List.mem_cons, List.not_mem_nil, or_false] at is
      rcases is with rfl | rfl | rfl | rfl <;> decide
  -- The value lies between two gaps, and the parser passes all three.
  have ran := @runs_of_spans text capacity .value gap.length s [n] spans gap' [] [] (-1) behind ends
    (by simpa [Node.counts] using room) rfl
  have last := @reaches_blank text capacity (gap.length + s.length) gap' []
    ([] ++ nodesTokens (-1) 0 [n]) (-1) (by rw [List.append_nil]; exact drop_after behind) blank'
  have before : Reaches text capacity ⟨0, [], -1⟩ ⟨0 + gap.length, [], -1⟩ :=
    reaches_blank here blank
  have all := before.trans (by rw [Nat.zero_add]; exact ran.trans last)
  obtain ⟨rounds, within, all⟩ := all
  have size : text.length = gap.length + s.length + gap'.length := by
    rw [whole, List.length_append, List.length_append, Nat.add_assoc]
  dsimp only at within
  -- At the end of the text the loop stops.
  have done (fuel : Nat) (q : JsonParser) (past : text.length ≤ q.position) :
      jsonLoop text capacity (fuel + 1) q = some (.ok q) := if_pos past
  -- The fuel is one more than the characters, which is one more than the rounds need.
  have enough := (all (text.length - rounds + 1)).trans
    (done _ _ (by dsimp only; omega))
  rw [show text.length - rounds + 1 + rounds = text.length + 1 by omega] at enough
  rw [jsonParse, enough, Option.map_some]
  -- At least one token was allocated, so the text is not empty.
  have some : 0 < (nodeTokens (-1) 0 n).length := by
    rw [nodeTokens_length]
    cases n <;> simp [Node.count]
  simp [nodesTokens, some.ne']

/-! ### Capacities -/

/-- More room changes nothing where the tokens fit. -/
theorem jsonAppend_more {token : JsonToken} {p q : JsonParser}
    (appended : jsonAppend capacity token p = some (.ok q)) :
    q.tokens.length ≤ capacity ∧
      ∀ more, capacity ≤ more → jsonAppend more token p = some (.ok q) := by
  rw [jsonAppend, jsonAllocate] at appended
  split at appended
  · exact absurd appended (by simp)
  · -- Allocation only asks whether there is room.
    rename_i tokens allocated
    split at allocated
    · exact absurd allocated (by simp)
    · rename_i room
      obtain rfl := Option.some.inj allocated
      obtain ⟨counted, added, same⟩ := Option.map_eq_some_iff.mp appended
      injection same with same
      subst same
      -- What was counted has the length of what was allocated.
      constructor
      · show counted.length ≤ capacity
        rw [jsonAddChild_length added, List.length_append, List.length_singleton]
        omega
      · intro more larger
        rw [jsonAppend, jsonAllocate, if_neg (by omega)]
        dsimp only
        rw [added]
        rfl

/-- More room changes nothing where a bracket has opened. -/
theorem jsonOpen_more {value : Byte} {p q : JsonParser}
    (ran : jsonOpen capacity value p = some (.ok q)) :
    q.tokens.length ≤ capacity ∧ ∀ more, capacity ≤ more → jsonOpen more value p = some (.ok q) := by
  obtain ⟨appended, ran, same⟩ := Option.map_eq_some_iff.mp ran
  -- The token of the container is what needs the room.
  cases appended with
  | error fault => exact absurd same (by simp [Except.map])
  | ok r =>
    obtain ⟨length, wider⟩ := jsonAppend_more ran
    simp only [Except.map, Except.ok.injEq] at same
    refine ⟨by rw [← same]; exact length, fun more larger => ?_⟩
    rw [jsonOpen, wider more larger, Option.map_some, ← same]
    rfl

/-- A closing bracket allocates nothing. -/
theorem jsonClose_tokens {value : Byte} {p q : JsonParser}
    (ran : jsonClose value p = some (.ok q)) : q.tokens.length = p.tokens.length := by
  rw [jsonClose] at ran
  -- The expected type is a matter of the bracket alone.
  generalize (if value = objectClose then JsonType.object else .array) = expected at ran
  split at ran
  · exact absurd ran (by simp)
  · obtain ⟨token, found, ran⟩ := Option.map_eq_some_iff.mp ran
    split at ran
    · exact absurd ran (by simp)
    · injection ran with same
      rw [← same]
      exact List.length_set

/-- More room changes nothing where a string has been read. -/
theorem jsonParseString_more {p q : JsonParser}
    (ran : jsonParseString text capacity p = some (.ok q)) :
    q.tokens.length ≤ capacity ∧
      ∀ more, capacity ≤ more → jsonParseString text more p = some (.ok q) := by
  obtain ⟨ended, scanned, ran⟩ := Option.bind_eq_some_iff.mp ran
  -- The token of the string is what needs the room.
  cases ended with
  | error fault => exact absurd ran (by simp)
  | ok i =>
    obtain ⟨length, wider⟩ := jsonAppend_more ran
    refine ⟨length, fun more larger => ?_⟩
    rw [jsonParseString, scanned, Option.bind_some]
    exact wider more larger

/-- Nor where a primitive has been. -/
theorem jsonPrimitive_more {p q : JsonParser}
    (ran : jsonPrimitive text capacity p = some (.ok q)) :
    q.tokens.length ≤ capacity ∧
      ∀ more, capacity ≤ more → jsonPrimitive text more p = some (.ok q) := by
  obtain ⟨done, scanned, ran⟩ := Option.bind_eq_some_iff.mp ran
  -- The end of the primitive and its check do not depend on the room.
  split at ran
  · exact absurd ran (by simp)
  · rename_i some
    obtain ⟨valid, checked, ran⟩ := Option.bind_eq_some_iff.mp ran
    split at ran
    · rename_i accepted
      obtain ⟨length, wider⟩ := jsonAppend_more ran
      refine ⟨length, fun more larger => ?_⟩
      rw [jsonPrimitive, scanned, Option.bind_some, if_neg some, checked, Option.bind_some, if_pos accepted]
      exact wider more larger
    · exact absurd ran (by simp)

/-- Nor in any round. -/
theorem jsonRound_more {p q : JsonParser} (within : p.tokens.length ≤ capacity)
    (ran : jsonRound text capacity p = some (.ok q)) :
    q.tokens.length ≤ capacity ∧
      ∀ more, capacity ≤ more → jsonRound text more p = some (.ok q) := by
  obtain ⟨value, read, ran⟩ := Option.bind_eq_some_iff.mp ran
  simp only [jsonRound, read, Option.bind_some]
  -- Only the branches that allocate know the capacity.
  by_cases opens : value = objectOpen ∨ value = arrayOpen
  · simp only [if_pos opens] at ran ⊢
    exact jsonOpen_more ran
  simp only [if_neg opens] at ran ⊢
  by_cases closes : value = objectClose ∨ value = arrayClose
  · simp only [if_pos closes] at ran ⊢
    exact ⟨(jsonClose_tokens ran).trans_le within, fun _ _ => ran⟩
  simp only [if_neg closes] at ran ⊢
  by_cases quotes : value = quote
  · simp only [if_pos quotes] at ran ⊢
    exact jsonParseString_more ran
  simp only [if_neg quotes] at ran ⊢
  by_cases separates : value = ascii ':' ∨ value = ascii ','
  · simp only [if_pos separates] at ran ⊢
    cases ran
    exact ⟨within, fun _ _ => rfl⟩
  simp only [if_neg separates] at ran ⊢
  by_cases blank : isBlank value = true
  · simp only [if_pos blank] at ran ⊢
    cases ran
    exact ⟨within, fun _ _ => rfl⟩
  simp only [if_neg blank] at ran ⊢
  exact jsonPrimitive_more ran

/-- Nor in all of them, by induction on the fuel. -/
theorem jsonLoop_more {fuel : Nat} {p q : JsonParser} (within : p.tokens.length ≤ capacity)
    (ran : jsonLoop text capacity fuel p = some (.ok q)) :
    q.tokens.length ≤ capacity ∧
      ∀ more, capacity ≤ more → jsonLoop text more fuel p = some (.ok q) := by
  induction fuel generalizing p with
  | zero => exact absurd ran (by simp [jsonLoop])
  | succ fuel ih =>
    rw [jsonLoop] at ran
    split at ran
    · rename_i past
      cases ran
      exact ⟨within, fun _ _ => if_pos past⟩
    · -- One round, and the rest from where it leads.
      rename_i inside
      obtain ⟨next, round, ran⟩ := Option.bind_eq_some_iff.mp ran
      cases next with
      | error fault => exact absurd ran (by simp)
      | ok r =>
        obtain ⟨length, wider⟩ := jsonRound_more within round
        obtain ⟨last, widest⟩ := @ih ⟨r.position + 1, r.tokens, r.parent⟩ length ran
        refine ⟨last, fun more larger => ?_⟩
        rw [jsonLoop, if_neg inside, wider more larger, Option.bind_some]
        exact widest more larger

/-- The tokens fit the capacity, and are the same with more of it. -/
theorem jsonParse_more {tokens : List JsonToken}
    (parsed : jsonParse text capacity = some (.ok tokens)) :
    tokens.length ≤ capacity ∧
      ∀ more, capacity ≤ more → jsonParse text more = some (.ok tokens) := by
  obtain ⟨last, ran, checked⟩ := Option.map_eq_some_iff.mp parsed
  cases last with
  -- The loop has ended, and only the test for open containers is left.
  | error fault => exact absurd checked (by simp)
  | ok p =>
    obtain ⟨length, wider⟩ := jsonLoop_more (Nat.zero_le _) ran
    dsimp only at checked
    split at checked
    · exact absurd checked (by simp)
    · rename_i closed
      injection checked with same
      subst same
      refine ⟨length, fun more larger => ?_⟩
      rw [jsonParse, wider more larger, Option.map_some]
      exact congrArg some (if_neg closed)

/-- The tokens of a text of the grammar, by its capacity. -/
theorem jsonParse_iff {gap s gap' : List Byte} {n : Node} (blank : gap ∈ ws)
    (spans : Spells .value gap.length s [n]) (blank' : gap' ∈ ws)
    (whole : text = gap ++ (s ++ gap')) (tokens : List JsonToken) :
    jsonParse text capacity = some (.ok tokens) ↔
      n.count ≤ capacity ∧ tokens = nodeTokens (-1) 0 n := by
  constructor
  · -- With room enough for both the parser gives the tokens of the tree, so these are the ones.
    intro parsed
    obtain ⟨length, wider⟩ := jsonParse_more parsed
    have roomy : jsonParse text (max capacity n.count) = some (.ok (nodeTokens (-1) 0 n)) :=
      jsonParse_spans blank spans blank' whole (le_max_right _ _)
    rw [wider _ (le_max_left _ _), Option.some.injEq, Except.ok.injEq] at roomy
    subst roomy
    rw [nodeTokens_length] at length
    exact ⟨length, rfl⟩
  · -- And where they fit they are given.
    rintro ⟨room, rfl⟩
    exact jsonParse_spans blank spans blank' whole room

end Rounds

end Emu80535
