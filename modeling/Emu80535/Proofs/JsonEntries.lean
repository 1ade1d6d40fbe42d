import Emu80535.Proofs.JsonAdmission

/-! The three entries of the document parser: which texts each takes, and that they read alike. -/

namespace Emu80535

open JsonGrammar
open Utf8 (WellFormed)

variable {text : List Byte} {n : Node}

/-- A text is the text of one row of tokens. -/
theorem TextOf.tokens_unique {n' : Node} (spells : TextOf text n) (spells' : TextOf text n') :
    nodeTokens (-1) 0 n = nodeTokens (-1) 0 n' := by
  have parsed := (jsonParse_textOf spells (max n.count n'.count) _).mpr ⟨Nat.le_max_left .., rfl⟩
  exact ((jsonParse_textOf spells' _ _).mp parsed).2

/-- Its root and its size are those of its tokens. -/
theorem TextOf.same {n' : Node} (spells : TextOf text n) (spells' : TextOf text n') :
    n.count = n'.count ∧
      ((∃ start stop children, n = .container true start stop children) ↔
        ∃ start stop children, n' = .container true start stop children) := by
  have tokens := spells.tokens_unique spells'
  -- The type of the first token tells what the root is.
  have root : ∀ m : Node, ((nodeTokens (-1) 0 m).head?.map JsonToken.type = some .object ↔
      ∃ start stop children, m = .container true start stop children) := by
    intro m
    cases m with
    | string => simp [nodeTokens]
    | primitive => simp [nodeTokens]
    | container object start stop children => cases object <;> simp [nodeTokens]
  refine ⟨?_, ?_⟩
  · rw [← nodeTokens_length (-1) 0 n, tokens, nodeTokens_length]
  · rw [← root n, tokens, root n']

/-- What the lenient parser makes of the text of a node. -/
theorem parseDocument_lenient (spells : TextOf text n) (within : text.length ≤ 65535)
    (plain : (0#8 : Byte) ∉ text) (encoded : WellFormed text) (deep : n.depth ≤ 64)
    (multiline : Bool) :
    ∃ answer, parseDocument text false multiline = some answer ∧
      (answer.isSome = true ↔ n.count ≤ 4096 ∧
        ∃ start stop children, n = .container true start stop children) := by
  -- The checks in front of the tokenizer pass.
  have checked : jsonSyntaxValid text = some true :=
    (jsonSyntaxValid_iff plain).mpr (mem_text.mpr ⟨n, spells, deep⟩)
  have filled := spells.length_pos
  have sized : ¬(text.length = 0 ∨ 65535 < text.length ∨ 0#8 ∈ text) :=
    not_or.mpr ⟨by omega, not_or.mpr ⟨by omega, plain⟩⟩
  rw [parseDocument, if_neg sized, (utf8Valid_iff text).mpr encoded, Option.bind_some, checked]
  simp only [Bool.not_true, Bool.false_eq_true, if_false, Option.bind_some, Bool.not_false, if_true]
  -- Too many tokens fill up the parser, one way or the other.
  rcases Nat.lt_or_ge 4096 n.count with large | small
  · obtain ⟨result, ran⟩ := jsonParse_answers spells 4096
    refine ⟨none, ?_, iff_of_false (by decide) fun both => by omega⟩
    cases result with
    | error fault => rw [ran]; rfl
    | ok tokens =>
      have fits := ((jsonParse_textOf spells _ _).mp ran).1
      omega
  -- With room for its tokens the root decides.
  rw [(jsonParse_textOf spells 4096 _).mpr ⟨small, rfl⟩, Option.bind_some]
  dsimp only
  cases n with
  | string => exact ⟨none, if_pos (by simp [nodeTokens]), by simp⟩
  | primitive => exact ⟨none, if_pos (by simp [nodeTokens]), by simp⟩
  | container object start stop children =>
    cases object with
    | false => exact ⟨none, if_pos (by simp [nodeTokens]), by simp⟩
    | true =>
      rw [if_neg (by simp [nodeTokens])]
      exact ⟨_, rfl, iff_of_true rfl ⟨small, start, stop, children, rfl⟩⟩

/-- Whatever is read of a text, by whichever entry, is the same document. -/
theorem parseDocument_unique {strict multiline strict' multiline' : Bool} {d d' : JsonDocument}
    (parsed : parseDocument text strict multiline = some (some d))
    (parsed' : parseDocument text strict' multiline' = some (some d')) : d = d' := by
  -- Both documents spell the text, and a text has one list of tokens.
  obtain ⟨here, n, of, -⟩ := parseDocument_some parsed
  obtain ⟨here', n', of', -⟩ := parseDocument_some parsed'
  have spells := of.spans
  have spells' := of'.spans
  rw [here] at spells
  rw [here'] at spells'
  have tokens := of.tokens.trans ((spells.tokens_unique spells').trans of'.tokens.symm)
  cases d
  cases d'
  simp only at here here' tokens
  rw [here, here', tokens]

/-- An entry that takes a text takes what any other reads of it. -/
theorem parseDocument_transfer {strict multiline strict' multiline' : Bool} {d : JsonDocument}
    (parsed : parseDocument text strict multiline = some (some d)) {answer : Option JsonDocument}
    (answered : parseDocument text strict' multiline' = some answer)
    (taken : answer.isSome = true) : parseDocument text strict' multiline' = some (some d) := by
  obtain ⟨d', rfl⟩ := Option.isSome_iff_exists.mp taken
  rw [answered, parseDocument_unique answered parsed]

/--
The lenient entry takes the objects of up to 4096 tokens. The multiline entry takes what the strict
one takes, and what only its line breaks keep from it. A text that several take is one document.
-/
theorem document_entries_agree (text : List Byte) :
    (∃ answer, jsonDocumentParse text false = some answer ∧
      (answer.isSome = true ↔ 1 ≤ text.length ∧ text.length ≤ 65535 ∧ (0#8 : Byte) ∉ text ∧
        WellFormed text ∧ ∃ n, TextOf text n ∧ n.depth ≤ 64 ∧ n.count ≤ 4096 ∧
          ∃ start stop children, n = .container true start stop children)) ∧
      (∀ d, jsonDocumentParse text true = some (some d) ↔
        jsonDocumentParseMultiline text = some (some d) ∧
          ascii '\r' ∉ text ∧ ascii '\n' ∉ text) ∧
        ∀ d, jsonDocumentParseMultiline text = some (some d) →
          (jsonDocumentParse text false = some (some d) ↔ d.tokens.length ≤ 4096) := by
  refine ⟨?_, fun d => ?_, fun d parsed => ?_⟩
  · by_cases read : 1 ≤ text.length ∧ text.length ≤ 65535 ∧ (0#8 : Byte) ∉ text ∧
        WellFormed text ∧ ∃ n, TextOf text n ∧ n.depth ≤ 64
    · obtain ⟨filled, within, plain, encoded, n, spells, deep⟩ := read
      obtain ⟨answer, parsed, takes⟩ := parseDocument_lenient spells within plain encoded deep false
      refine ⟨answer, parsed, takes.trans ⟨fun both => ?_, fun all => ?_⟩⟩
      · exact ⟨filled, within, plain, encoded, n, spells, deep, both⟩
      · obtain ⟨-, -, -, -, n', spells', -, small, root⟩ := all
        obtain ⟨size, roots⟩ := spells.same spells'
        exact ⟨by omega, roots.mpr root⟩
    · refine ⟨none, parseDocument_refused false false read, iff_of_false (by decide) fun all => ?_⟩
      obtain ⟨filled, within, plain, encoded, n, spells, deep, -⟩ := all
      exact read ⟨filled, within, plain, encoded, n, spells, deep⟩
  · obtain ⟨answer, answered, single⟩ := parseDocument_iff text false
    obtain ⟨answer', answered', several⟩ := parseDocument_iff text true
    constructor
    · intro parsed
      obtain rfl := Option.some.inj (answered.symm.trans parsed)
      obtain ⟨filled, within, plain, encoded, lines, node⟩ := single.mp rfl
      exact ⟨parseDocument_transfer parsed answered'
        (several.mpr ⟨filled, within, plain, encoded,
          fun wrong => absurd wrong.symm Bool.false_ne_true, node⟩), lines rfl⟩
    · rintro ⟨parsed, lines⟩
      obtain rfl := Option.some.inj (answered'.symm.trans parsed)
      obtain ⟨filled, within, plain, encoded, -, node⟩ := several.mp rfl
      exact parseDocument_transfer parsed answered
        (single.mpr ⟨filled, within, plain, encoded, fun _ => lines, node⟩)
  · -- A document that the strict parser has read is that of an object.
    obtain ⟨answer, answered, several⟩ := parseDocument_iff text true
    obtain rfl := Option.some.inj (answered.symm.trans parsed)
    obtain ⟨-, within, plain, encoded, -, n, spells, admitted⟩ := several.mp rfl
    obtain ⟨answer', answered', takes⟩ := parseDocument_lenient spells within plain encoded
      (Nat.le_trans admitted.bounds.1 (by decide)) false
    obtain ⟨here, n', of, -⟩ := parseDocument_some parsed
    have spells' := of.spans
    rw [here] at spells'
    have size : d.tokens.length = n.count := by
      rw [of.tokens, ← spells.tokens_unique spells', nodeTokens_length]
    constructor
    · intro lenient
      obtain rfl := Option.some.inj (answered'.symm.trans lenient)
      rw [size]
      exact (takes.mp rfl).1
    · intro small
      exact parseDocument_transfer parsed answered'
        (takes.mpr ⟨by omega, admitted.root⟩)

end Emu80535
