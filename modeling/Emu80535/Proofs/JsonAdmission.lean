import Emu80535.Proofs.JsonStrict

/-! What the strict parser of documents admits, and that its capacity decides nothing. -/

namespace Emu80535

open JsonGrammar Recogniser
open Utf8 (WellFormed)

/-! ### Smaller capacities -/

section Capacity

variable {text : List Byte} {capacity more : Nat}

/-- A result in less room is the one in more, unless the room has run out. -/
def Cut {α : Type} (less whole : Option (Except JsonFault α)) : Prop :=
  less = whole ∨ less = some (.error .full)

/-- Room for one more token or none. -/
theorem jsonAppend_cut (fits : capacity ≤ more) (token : JsonToken) (p : JsonParser) :
    Cut (jsonAppend capacity token p) (jsonAppend more token p) := by
  rcases Nat.lt_or_ge p.tokens.length capacity with room | none
  · refine Or.inl ?_
    rw [jsonAppend, jsonAppend, jsonAllocate, jsonAllocate, if_neg (by omega), if_neg (by omega)]
  · refine Or.inr ?_
    rw [jsonAppend, jsonAllocate, if_pos none]

/-- A round allocates at most once. -/
theorem jsonRound_cut (fits : capacity ≤ more) (p : JsonParser) :
    Cut (jsonRound text capacity p) (jsonRound text more p) := by
  rw [jsonRound, jsonRound]
  cases text[p.position]? with
  | none => exact Or.inl rfl
  | some value =>
    -- The rounds are the same up to the branch that allocates.
    simp only [Option.bind_some]
    by_cases opens : value = objectOpen ∨ value = arrayOpen
    · rw [if_pos opens, if_pos opens, jsonOpen, jsonOpen]
      rcases @jsonAppend_cut capacity more fits
        ⟨if value = objectOpen then .object else .array, p.position, -1, 0, p.parent⟩ p
        with same | full
      · exact Or.inl (by rw [same])
      · exact Or.inr (by rw [full]; rfl)
    rw [if_neg opens, if_neg opens]
    by_cases closes : value = objectClose ∨ value = arrayClose
    · rw [if_pos closes, if_pos closes]
      exact Or.inl rfl
    rw [if_neg closes, if_neg closes]
    -- A string or a primitive allocates its token at the end.
    by_cases quoted : value = quote
    · rw [if_pos quoted, if_pos quoted, jsonParseString, jsonParseString]
      rcases jsonStringEnd text (text.length + 1) (p.position + 1) with _ | _ | i
      · exact Or.inl rfl
      · exact Or.inl rfl
      · exact jsonAppend_cut fits _ _
    rw [if_neg quoted, if_neg quoted]
    by_cases separates : value = ascii ':' ∨ value = ascii ','
    · rw [if_pos separates, if_pos separates]
      exact Or.inl rfl
    rw [if_neg separates, if_neg separates]
    by_cases blank : isBlank value = true
    · rw [if_pos blank, if_pos blank]
      exact Or.inl rfl
    rw [if_neg blank, if_neg blank, jsonPrimitive, jsonPrimitive]
    cases skip text (fun c => !jsonPrimitiveStop c) p.position with
    | none => exact Or.inl rfl
    | some done =>
      simp only [Option.bind_some]
      by_cases empty : done.2 = p.position
      · rw [if_pos empty, if_pos empty]
        exact Or.inl rfl
      rw [if_neg empty, if_neg empty]
      rcases jsonPrimitiveValid ((text.drop p.position).take (done.2 - p.position)) with _ | valid
      · exact Or.inl rfl
      · cases valid with
        | false => exact Or.inl rfl
        | true => exact jsonAppend_cut fits _ _

/-- A loop that answers in more room answers in less. -/
theorem jsonLoop_cut (fits : capacity ≤ more) {fuel : Nat} {p : JsonParser} :
    Cut (jsonLoop text capacity fuel p) (jsonLoop text more fuel p) := by
  -- By induction on the rounds: they agree, or the smaller parser is full.
  induction fuel generalizing p with
  | zero => exact Or.inl rfl
  | succ fuel ih =>
    rw [jsonLoop, jsonLoop]
    by_cases ended : text.length ≤ p.position
    · rw [if_pos ended, if_pos ended]
      exact Or.inl rfl
    rw [if_neg ended, if_neg ended]
    rcases @jsonRound_cut text capacity more fits p with same | full
    · rw [same]
      rcases jsonRound text more p with _ | _ | q
      · exact Or.inl rfl
      · exact Or.inl rfl
      · exact ih
    · exact Or.inr (by rw [full]; rfl)

/-- The parser answers on the text of a node, whatever its capacity. -/
theorem jsonParse_answers {n : Node} (spells : TextOf text n) (capacity : Nat) :
    ∃ result, jsonParse text capacity = some result := by
  -- With room for every token the parser answers; with less it answers the same or is full.
  rcases Nat.lt_or_ge capacity n.count with small | large
  · have whole := (jsonParse_textOf spells n.count _).mpr ⟨Nat.le_refl _, rfl⟩
    rw [jsonParse] at whole ⊢
    obtain ⟨run, ran, -⟩ := Option.map_eq_some_iff.mp whole
    rcases @jsonLoop_cut text capacity n.count (Nat.le_of_lt small) (text.length + 1) ⟨0, [], -1⟩
      with same | full
    · exact ⟨_, by rw [same, ran]; rfl⟩
    · exact ⟨_, by rw [full]; rfl⟩
  · exact ⟨_, (jsonParse_textOf spells capacity _).mpr ⟨large, rfl⟩⟩

end Capacity

/-! ### Tokens one by one -/

/-- What the strict parser checks of a node at a level. -/
def PassesAt (level : Nat) : Node → Prop
  | .string start raw => level ≤ 16 ∧ ∃ text, KeyIs (.string start raw) text
  | .primitive .. => level ≤ 16
  | .container false _ _ children => level ≤ 16 ∧ children.length ≤ 1024
  | .container true _ _ children => level ≤ 16 ∧ children.length ≤ 512 ∧
    (∀ key ∈ Node.keyNodes children, ∃ text, KeyIs key text) ∧
      (Node.keyNodes children).Pairwise KeysDiffer

section Checks

variable {d : JsonDocument} {n : Node}

/-- The check of a token answers, and says what the node of the token is. -/
theorem strictToken_node (of : DocumentOf d n) {k l : Nat} {m : Node} {token : JsonToken}
    (found : d.tokens[k]? = some token) (here : n.all[k]? = some m)
    (lies : (n.levels 1)[k]? = some l) :
    -- The check counts the levels above the token, and the parser's depth is one more.
    ∃ b, strictToken d k token = some b ∧ (b = true ↔ PassesAt l m) := by
  have inside := (List.getElem?_eq_some_iff.mp found).1
  obtain ⟨depth, ran, counted⟩ := depthLoop_level of.toTokensOf found lies
    (Nat.lt_succ_of_lt inside) 1
  obtain rfl : depth = l := by omega
  obtain ⟨m', parent, -, -, -, here', -, -, head, -⟩ := of.toTokensOf.token found
  obtain rfl := Option.some.inj (here.symm.trans here')
  rw [strictToken, ran, Option.bind_some]
  -- What is checked depends on the kind of the node.
  cases m with
  | string start raw =>
    obtain rfl := Option.some.inj head
    obtain ⟨-, -, -, decodes, fails⟩ := strict_decode of here rfl
    -- A string lies deep enough and decodes.
    by_cases deep : 16 < depth
    · refine ⟨false, if_pos (Or.inl deep), iff_of_false (by decide) fun passes => ?_⟩
      exact absurd passes.1 (Nat.not_le.mpr deep)
    rw [if_neg (by simp [deep]), if_pos rfl]
    by_cases stands : ∃ text, KeyIs (.string start raw) text
    · obtain ⟨text, is⟩ := stands
      rw [decodes text is]
      exact ⟨true, rfl, iff_of_true rfl ⟨Nat.not_lt.mp deep, text, is⟩⟩
    · rw [fails fun text is => stands ⟨text, is⟩]
      exact ⟨false, rfl, iff_of_false (by decide) fun passes => stands passes.2⟩
  | primitive start raw =>
    obtain rfl := Option.some.inj head
    by_cases deep : 16 < depth
    · refine ⟨false, if_pos (Or.inl deep), iff_of_false (by decide) fun passes => ?_⟩
      exact absurd passes (Nat.not_le.mpr deep)
    rw [if_neg (by simp [deep])]
    exact ⟨true, rfl, iff_of_true rfl (Nat.not_lt.mp deep)⟩
  | container object start stop children =>
    -- Arrays are checked for their size, objects for their size and keys.
    obtain rfl := Option.some.inj head
    cases object with
    | false =>
      by_cases refused : 16 < depth ∨ 1024 < children.length
      · refine ⟨false, if_pos ?_, iff_of_false (by decide) fun passes => ?_⟩
        · exact refused.imp_right fun large => Or.inl ⟨rfl, by simpa using large⟩
        · exact absurd refused (by simp only [PassesAt] at passes; omega)
      rw [if_neg (by simp; omega)]
      exact ⟨true, rfl, iff_of_true rfl ⟨by omega, by omega⟩⟩
    | true =>
      by_cases refused : 16 < depth ∨ 512 < children.length
      · refine ⟨false, if_pos ?_, iff_of_false (by decide) fun passes => ?_⟩
        · exact refused.imp_right fun large => Or.inr ⟨rfl, by simpa using large⟩
        · exact absurd refused (by simp only [PassesAt] at passes; omega)
      rw [if_neg (by simp; omega)]
      have few := (jsonMember_loop of here []).2
      have row : InRow n (k + 1) ([] ++ children) := inRow_children here
      -- Of an object its keys are checked, with none in front of the first.
      obtain ⟨b, looped, checks⟩ := keyLoop_row of row trivial rfl (of.remaining here)
        (by simp [Node.keyNodes]) few (by simpa using Nat.le_of_lt_succ few)
      refine ⟨b, looped, checks.trans ?_⟩
      simp only [PassesAt, Node.keyNodes, List.not_mem_nil, false_implies, implies_true, and_true]
      exact ⟨fun both => ⟨by omega, by omega, both⟩, fun passes => passes.2.2⟩

/-- What is left of a count of values behind tokens. -/
def valuesLeft (tokens : List JsonToken) (values : BitVec 32) : BitVec 32 :=
  tokens.foldl (fun values token =>
    if token.type = .object then values - BitVec.ofInt 32 token.size / 2#32 else values) values

/-- The loop answers where the checks of its tokens do. -/
theorem strictLoop_answers {i : Nat} {tokens : List JsonToken} (values : BitVec 32)
    (checks : ∀ k token, tokens[k]? = some token → ∃ b, strictToken d (i + k) token = some b) :
    ∃ b, strictLoop d i tokens values = some b ∧
      (b = true ↔ (∀ k token, tokens[k]? = some token → strictToken d (i + k) token = some true) ∧
        ¬8192#32 < valuesLeft tokens values) := by
  -- By induction on the tokens that remain.
  induction tokens generalizing i values with
  | nil => exact ⟨_, rfl, by simp [valuesLeft]⟩
  | cons token rest ih =>
    -- The check of this token decides whether the loop goes on.
    obtain ⟨b, checked⟩ := checks 0 token rfl
    have later : ∀ k next, rest[k]? = some next → ∃ b, strictToken d (i + 1 + k) next = some b := by
      intro k next found
      have check := checks (k + 1) next (by rwa [List.getElem?_cons_succ])
      rwa [Nat.add_comm k 1, ← Nat.add_assoc] at check
    rw [Nat.add_zero] at checked
    cases b with
    | false =>
      refine ⟨false, ?_, iff_of_false (by decide) fun all => ?_⟩
      · rw [strictLoop, checked]
        rfl
      · have first := all.1 0 token rfl
        rw [Nat.add_zero, checked] at first
        exact absurd first (by simp)
    | true =>
      obtain ⟨b, ran, iff⟩ := ih (i := i + 1)
        (if token.type = .object then values - BitVec.ofInt 32 token.size / 2#32 else values) later
      refine ⟨b, ?_, iff.trans (and_congr ?_ Iff.rfl)⟩
      · rw [strictLoop, checked]
        exact ran
      -- The tokens behind are checked at the next index.
      constructor
      · intro behind k next found
        cases k with
        | zero =>
          obtain rfl := Option.some.inj found
          exact checked
        | succ k =>
          rw [List.getElem?_cons_succ] at found
          have check := behind k next found
          rwa [Nat.add_assoc, Nat.add_comm 1 k] at check
      · intro all k next found
        have check := all (k + 1) next (by rwa [List.getElem?_cons_succ])
        rwa [Nat.add_comm k 1, ← Nat.add_assoc] at check

end Checks

/-! ### Values -/

/-- Half of a size is taken off a count that has as many. -/
theorem half_taken {values size : Nat} (fits : values < 2 ^ 31) (small : size < 2 ^ 31)
    (more : size / 2 ≤ values) :
    BitVec.ofNat 32 values - BitVec.ofInt 32 size / 2#32 = BitVec.ofNat 32 (values - size / 2) := by
  apply BitVec.eq_of_toNat_eq
  have two : (2#32).toNat = 2 := rfl
  rw [BitVec.ofInt_natCast, BitVec.toNat_sub, BitVec.toNat_udiv, two, BitVec.toNat_ofNat,
    BitVec.toNat_ofNat, BitVec.toNat_ofNat, Nat.mod_eq_of_lt (by omega : size < _),
    Nat.mod_eq_of_lt (by omega : values < _), Nat.mod_eq_of_lt (by omega : values - size / 2 < _)]
  omega

mutual

/-- The keys of a node do not count as values. -/
theorem valuesLeft_node (parent : Int) (base : Nat) (n : Node) {values : Nat}
    (fits : values < 2 ^ 31) (more : n.keys ≤ values) (small : n.count < 2 ^ 31) :
    valuesLeft (nodeTokens parent base n) (BitVec.ofNat 32 values) =
      BitVec.ofNat 32 (values - n.keys) := by
  -- Only objects have keys, which are half of their children.
  cases n with
  | string start raw => rfl
  | primitive start raw => rfl
  | container object start stop children =>
    have counted := Node.keyss_counts children
    rw [Node.count] at small
    rw [Node.keys] at more ⊢
    rw [nodeTokens, valuesLeft, List.foldl_cons]
    cases object with
    | false =>
      simp only [Bool.false_eq_true, if_false, Nat.zero_add] at more ⊢
      exact valuesLeft_nodes base (base + 1) children fits more (by omega)
    | true =>
      rw [if_pos rfl] at more ⊢
      rw [← Nat.sub_sub, if_pos rfl, half_taken fits (by omega) (by omega)]
      exact valuesLeft_nodes base (base + 1) children (by omega) (by omega) (by omega)

/-- The same of a list of nodes. -/
theorem valuesLeft_nodes (parent : Int) (base : Nat) (ns : List Node) {values : Nat}
    (fits : values < 2 ^ 31) (more : Node.keyss ns ≤ values) (small : Node.counts ns < 2 ^ 31) :
    valuesLeft (nodesTokens parent base ns) (BitVec.ofNat 32 values) =
      BitVec.ofNat 32 (values - Node.keyss ns) := by
  cases ns with
  | nil => rfl
  | cons n ns =>
    rw [Node.counts] at small
    rw [Node.keyss] at more ⊢
    have first := valuesLeft_node parent base n fits (by omega) (by omega)
    -- The nodes are subtracted one after the other.
    have later := valuesLeft_nodes parent (base + n.count) ns
      (Nat.lt_of_le_of_lt (Nat.sub_le values n.keys) fits) (by omega) (by omega)
    rw [valuesLeft] at first later
    rw [nodesTokens, valuesLeft, List.foldl_append, first, later, Nat.sub_sub]

end

/-! ### Documents -/

/-- A node whose text the strict parser admits. -/
structure Admitted (n : Node) : Prop where
  root : ∃ start stop children, n = .container true start stop children
  passes : ∀ (k : Nat) (m : Node) (l : Nat), n.all[k]? = some m →
    (n.levels 1)[k]? = some l → PassesAt l m
  values : n.count - n.keys ≤ 8192

/-- The loop of the strict parser over the tokens of a node. -/
theorem strictLoop_document {d : JsonDocument} {n : Node} (of : DocumentOf d n)
    (small : n.count < 2 ^ 31) :
    ∃ b, strictLoop d 0 d.tokens (BitVec.ofNat 32 d.tokens.length) = some b ∧
      (b = true ↔ (∀ (k : Nat) (m : Node) (l : Nat), n.all[k]? = some m →
          (n.levels 1)[k]? = some l → PassesAt l m) ∧ n.count - n.keys ≤ 8192) := by
  have size : d.tokens.length = n.count := by rw [of.length, Node.all_length]
  -- A token and its node have the same index.
  have listed : ∀ {k : Nat} {token : JsonToken}, d.tokens[k]? = some token →
      ∃ (m : Node) (l : Nat), n.all[k]? = some m ∧ (n.levels 1)[k]? = some l := by
    intro k token found
    have inside := (List.getElem?_eq_some_iff.mp found).1
    exact ⟨_, _, List.getElem?_eq_getElem (by rw [Node.all_length]; omega),
      List.getElem?_eq_getElem (by rw [Node.levels_length]; omega)⟩
  obtain ⟨b, ran, iff⟩ := @strictLoop_answers d 0 d.tokens (BitVec.ofNat 32 d.tokens.length) (by
    intro k token found
    obtain ⟨m, l, here, lies⟩ := listed found
    obtain ⟨b, checked, -⟩ := strictToken_node of found here lies
    exact ⟨b, by rw [Nat.zero_add, checked]⟩)
  refine ⟨b, ran, iff.trans (and_congr ?_ ?_)⟩
  · -- The checks of all tokens are those of all nodes.
    refine ⟨fun all k m l here lies => ?_, fun all k token found => ?_⟩
    · obtain ⟨token, found, -⟩ := of.extent here
      obtain ⟨b, checked, passes⟩ := strictToken_node of found here lies
      have check := all k token found
      rw [Nat.zero_add, checked] at check
      exact passes.mp (Option.some.inj check)
    · obtain ⟨m, l, here, lies⟩ := listed found
      obtain ⟨b, checked, passes⟩ := strictToken_node of found here lies
      rw [Nat.zero_add, checked, passes.mpr (all k m l here lies)]
  · -- The values left are the tokens without the keys.
    have keys := Node.keys_count n
    have left : valuesLeft d.tokens (BitVec.ofNat 32 d.tokens.length) =
        BitVec.ofNat 32 (n.count - n.keys) := by
      rw [size, of.tokens]
      exact valuesLeft_node (-1) 0 n small (by omega) small
    rw [left, BitVec.lt_def, BitVec.toNat_ofNat, BitVec.toNat_ofNat,
      Nat.mod_eq_of_lt (by omega : n.count - n.keys < 2 ^ 32)]
    omega

/-- The text of a node is not empty. -/
theorem TextOf.length_pos {text : List Byte} {n : Node} (spells : TextOf text n) :
    0 < text.length := by
  obtain ⟨gap, -, s, gap', -, rfl, spelled⟩ := spells
  have member : n ∈ Node.alls [n] := by
    cases n <;> simp [Node.alls, Node.all]
  have within := (spelled.ordered primitive_filled).1 n member
  simp only [List.length_append]
  omega

/-- An admitted node lies no deeper than its levels, and has room in the parser. -/
theorem Admitted.bounds {n : Node} (admitted : Admitted n) : n.depth ≤ 16 ∧ n.count ≤ 16384 := by
  have keys := Node.keys_count n
  refine ⟨?_, by have values := admitted.values; omega⟩
  -- A node of more levels would have a token that is refused for its depth.
  have deep := (Node.levels_le 1 16 n).mp (by
    intro l member
    obtain ⟨k, lies⟩ := List.mem_iff_getElem?.mp member
    have inside := (List.getElem?_eq_some_iff.mp lies).1
    rw [Node.levels_length, ← Node.all_length] at inside
    have passes := admitted.passes k _ l (List.getElem?_eq_getElem inside) lies
    revert passes
    rcases n.all[k] with _ | _ | ⟨_ | _, _, _, _⟩
    · exact And.left
    · exact id
    · exact And.left
    · exact And.left)
  omega

/-- A text that is refused before it is tokenized is the text of no node, or too long or ended. -/
theorem parseDocument_refused {text : List Byte} (strict multiline : Bool)
    (refused : ¬(1 ≤ text.length ∧ text.length ≤ 65535 ∧ (0#8 : Byte) ∉ text ∧ WellFormed text ∧
      ∃ n, TextOf text n ∧ n.depth ≤ 64)) :
    parseDocument text strict multiline = some none := by
  -- The checks in front of the tokenizer come in the order of the source.
  rw [parseDocument]
  split
  · rfl
  rename_i sized
  obtain ⟨filled, within, plain⟩ : text.length ≠ 0 ∧ text.length ≤ 65535 ∧ 0#8 ∉ text := by
    simpa only [not_or, Nat.not_lt] using sized
  obtain ⟨b, ran, iff⟩ := utf8Valid_answers text
  cases b with
  | false => rw [ran]; rfl
  | true =>
    obtain ⟨valid, checked⟩ := jsonSyntaxValid_total text
    cases valid with
    | false => rw [ran, Option.bind_some, checked]; rfl
    | true =>
      exact absurd ⟨by omega, within, plain, iff.mp rfl,
        mem_text.mp ((jsonSyntaxValid_iff plain).mp checked)⟩ refused

/-- What the strict parser makes of the text of a node. -/
theorem parseDocument_node {text : List Byte} {n : Node} (spells : TextOf text n)
    (within : text.length ≤ 65535) (plain : (0#8 : Byte) ∉ text) (encoded : WellFormed text)
    (deep : n.depth ≤ 64) (multiline : Bool) :
    ∃ answer, parseDocument text true multiline = some answer ∧
      (answer.isSome = true ↔
        (multiline = false → ascii '\r' ∉ text ∧ ascii '\n' ∉ text) ∧ Admitted n) := by
  have checked : jsonSyntaxValid text = some true :=
    (jsonSyntaxValid_iff plain).mpr (mem_text.mpr ⟨n, spells, deep⟩)
  have filled := spells.length_pos
  have sized : ¬(text.length = 0 ∨ 65535 < text.length ∨ 0#8 ∈ text) :=
    not_or.mpr ⟨by omega, not_or.mpr ⟨by omega, plain⟩⟩
  rw [parseDocument, if_neg sized, (utf8Valid_iff text).mpr encoded,
    Option.bind_some, checked]
  simp only [Bool.not_true, Bool.false_eq_true, if_false, Option.bind_some, if_true]
  rcases Nat.lt_or_ge 16384 n.count with large | small
  · -- The parser runs out of tokens, which takes more values than are admitted.
    obtain ⟨result, ran⟩ := jsonParse_answers spells 16384
    refine ⟨none, ?_, iff_of_false (by decide) fun both => ?_⟩
    · cases result with
      | error fault => rw [ran]; rfl
      | ok tokens =>
        have fits := ((jsonParse_textOf spells _ _).mp ran).1
        omega
    · have room := both.2.bounds.2
      omega
  rw [(jsonParse_textOf spells 16384 _).mpr ⟨small, rfl⟩, Option.bind_some]
  dsimp only
  by_cases root : ∃ start stop children, n = .container true start stop children
  · obtain ⟨b, ran, iff⟩ := @strictLoop_document ⟨text, nodeTokens (-1) 0 n⟩ n
      ⟨⟨spells, rfl⟩, plain, encoded⟩ (by omega)
    have object : (nodeTokens (-1) 0 n).head?.map JsonToken.type = some JsonType.object := by
      obtain ⟨start, stop, children, rfl⟩ := root
      rfl
    rw [if_neg (by rw [object]; exact fun wrong => wrong rfl)]
    by_cases lines : multiline = false ∧ (ascii '\r' ∈ text ∨ ascii '\n' ∈ text)
    · refine ⟨none, if_pos lines, iff_of_false (by decide) fun both => ?_⟩
      exact lines.2.elim (both.1 lines.1).1 (both.1 lines.1).2
    · rw [if_neg lines, ran, Option.map_some]
      refine ⟨_, rfl, ?_⟩
      have single : multiline = false → ascii '\r' ∉ text ∧ ascii '\n' ∉ text := fun one =>
        not_or.mp fun breaks => lines ⟨one, breaks⟩
      cases b with
      | true =>
        obtain ⟨passes, values⟩ := iff.mp rfl
        exact iff_of_true rfl ⟨single, root, passes, values⟩
      | false =>
        refine iff_of_false (by simp) fun both => ?_
        exact absurd (iff.mpr ⟨both.2.passes, both.2.values⟩) Bool.false_ne_true
  · refine ⟨none, if_pos fun object => root ?_, iff_of_false (by decide) fun both =>
      root both.2.root⟩
    cases n with
    | string => exact absurd object (by simp [nodeTokens])
    | primitive => exact absurd object (by simp [nodeTokens])
    | container object' start stop children =>
      cases object' with
      | false => exact absurd object (by simp [nodeTokens])
      | true => exact ⟨start, stop, children, rfl⟩

/-- The strict parser answers on every text, and admits exactly what its limits allow. -/
theorem parseDocument_iff (text : List Byte) (multiline : Bool) :
    ∃ answer, parseDocument text true multiline = some answer ∧
      (answer.isSome = true ↔ 1 ≤ text.length ∧ text.length ≤ 65535 ∧ (0#8 : Byte) ∉ text ∧
        WellFormed text ∧ (multiline = false → ascii '\r' ∉ text ∧ ascii '\n' ∉ text) ∧
          ∃ n, TextOf text n ∧ Admitted n) := by
  by_cases read : 1 ≤ text.length ∧ text.length ≤ 65535 ∧ (0#8 : Byte) ∉ text ∧
      WellFormed text ∧ ∃ n, TextOf text n ∧ n.depth ≤ 64
  · obtain ⟨filled, within, plain, encoded, n, spells, deep⟩ := read
    obtain ⟨answer, parsed, admits⟩ :=
      parseDocument_node spells within plain encoded deep multiline
    refine ⟨answer, parsed, admits.trans ⟨fun both => ?_, fun all => ?_⟩⟩
    · exact ⟨filled, within, plain, encoded, both.1, n, spells, both.2⟩
    · -- Two nodes of one text are told apart by nothing that the parser answers.
      obtain ⟨-, -, -, -, single, n', spells', admitted⟩ := all
      obtain ⟨answer', parsed', admits'⟩ := parseDocument_node spells' within plain encoded
        (Nat.le_trans admitted.bounds.1 (by decide)) multiline
      obtain rfl := Option.some.inj (parsed.symm.trans parsed')
      exact admits.mp (admits'.mpr ⟨single, admitted⟩)
  · refine ⟨none, parseDocument_refused true multiline read, iff_of_false (by decide) fun all => ?_⟩
    obtain ⟨filled, within, plain, encoded, -, n, spells, admitted⟩ := all
    exact read ⟨filled, within, plain, encoded, n, spells,
      Nat.le_trans admitted.bounds.1 (by decide)⟩

end Emu80535
