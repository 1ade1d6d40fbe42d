import Emu80535.Proofs.JsonTokens
import Emu80535.Proofs.Utf8

/-! Documents that have been parsed: what their tokens say of their texts. -/

namespace Emu80535

open JsonGrammar Recogniser
open Utf8 (WellFormed wellFormed_ascii)

/-- A text is the text of a node, with whitespace around it. -/
def TextOf (text : List Byte) (n : Node) : Prop :=
  ∃ gap ∈ ws, ∃ s, ∃ gap' ∈ ws, text = gap ++ (s ++ gap') ∧ Spells .value gap.length s [n]

/-- The tokens of a text are those of its node. -/
structure TokensOf (d : JsonDocument) (n : Node) : Prop where
  spans : TextOf d.text n
  tokens : d.tokens = nodeTokens (-1) 0 n

/-- A document over a text of characters other than NUL that the syntax check accepts. -/
structure DocumentOf (d : JsonDocument) (n : Node) : Prop extends TokensOf d n where
  plain : (0#8 : Byte) ∉ d.text
  encoded : WellFormed d.text

/-- The texts of the grammar are those of nodes. -/
theorem mem_text {text : List Byte} : text ∈ JsonGrammar.text 64 ↔
    ∃ n, TextOf text n ∧ n.depth ≤ 64 := by
  simp only [JsonGrammar.text, Language.mem_mul]
  constructor
  · rintro ⟨gap, blank, _, ⟨s, word, gap', blank', rfl⟩, rfl⟩
    obtain ⟨n, spells, deep⟩ := (mem_value gap.length).mp word
    exact ⟨n, ⟨gap, blank, s, gap', blank', rfl, spells⟩, deep⟩
  · rintro ⟨n, ⟨gap, blank, s, gap', blank', rfl, spells⟩, deep⟩
    exact ⟨gap, blank, _, ⟨s, (mem_value gap.length).mpr ⟨n, spells, deep⟩, gap', blank', rfl⟩, rfl⟩

/-- The tokens of a text that passes the syntax check, by their capacity. -/
theorem jsonParse_textOf {text : List Byte} {n : Node} (spells : TextOf text n) (capacity : Nat)
    (tokens : List JsonToken) : jsonParse text capacity = some (.ok tokens) ↔
      n.count ≤ capacity ∧ tokens = nodeTokens (-1) 0 n := by
  obtain ⟨gap, blank, s, gap', blank', whole, spells⟩ := spells
  exact jsonParse_iff blank spells blank' whole tokens

/-- Whichever way a document has been parsed. -/
theorem parseDocument_some {text : List Byte} {strict multiline : Bool} {d : JsonDocument}
    (parsed : parseDocument text strict multiline = some (some d)) : d.text = text ∧
      ∃ n, DocumentOf d n ∧ n.depth ≤ 64 := by
  -- The checks in front of the tokenizer have all passed.
  rw [parseDocument] at parsed
  split at parsed
  · exact absurd parsed (by simp)
  rename_i sized
  simp only [not_or, Nat.not_lt] at sized
  obtain ⟨-, -, plain⟩ := sized
  obtain ⟨encoded, ran, parsed⟩ := Option.bind_eq_some_iff.mp parsed
  cases encoded with
  | false => exact absurd parsed (by simp)
  | true =>
    obtain ⟨valid, checked, parsed⟩ := Option.bind_eq_some_iff.mp parsed
    cases valid with
    | false => exact absurd parsed (by simp)
    | true =>
      obtain ⟨tokenized, tokens, parsed⟩ := Option.bind_eq_some_iff.mp parsed
      cases tokenized with
      | error fault => exact absurd parsed (by simp)
      | ok tokens' =>
        -- The text has a node, whose tokens the parser must have made.
        obtain ⟨n, spells, deep⟩ := mem_text.mp ((jsonSyntaxValid_iff plain).mp checked)
        obtain ⟨-, same⟩ := (jsonParse_textOf spells _ _).mp tokens
        have whole : d = ⟨text, tokens'⟩ := by
          -- What follows the tokenizer changes nothing of the document.
          dsimp only at parsed
          split at parsed
          · exact absurd parsed (by simp)
          split at parsed
          · exact (Option.some.inj (Option.some.inj parsed)).symm
          split at parsed
          · exact absurd parsed (by simp)
          obtain ⟨accepted, -, parsed⟩ := Option.map_eq_some_iff.mp parsed
          split at parsed
          · exact (Option.some.inj parsed).symm
          · exact absurd parsed (by simp)
        subst whole
        exact ⟨rfl, n, ⟨⟨spells, same⟩, plain, (utf8Valid_iff text).mp ran⟩, deep⟩

variable {d : JsonDocument} {n : Node}

/-- A token stands for a part of the text. -/
theorem TokensOf.token (of : TokensOf d n) {k : Nat} {token : JsonToken} (found : d.tokens[k]? = some token) :
    ∃ m parent before s after, n.all[k]? = some m ∧ d.text = before ++ (s ++ after) ∧
      Spells .value before.length s [m] ∧ (nodeTokens parent k m).head? = some token ∧
      (d.tokens.drop k).take m.count = nodeTokens parent k m := by
  obtain ⟨gap, -, s, gap', -, whole, spans⟩ := of.spans
  have inside : k < n.all.length := by
    -- The index lies in the list of parts, since there is one token for each.
    rw [Node.all_length, ← nodeTokens_length (-1) 0, ← of.tokens]
    exact (List.getElem?_eq_some_iff.mp found).1
  have member : n.all[k]? = some n.all[k] := List.getElem?_eq_getElem inside
  obtain ⟨parent, row⟩ := nodeTokens_holds (-1) 0 n member
  rw [Nat.zero_add, ← of.tokens] at row
  -- The part lies inside the text of the root.
  obtain ⟨before, t, after, same, spans'⟩ := spans.inside (m := n.all[k]) (by
    rw [Node.alls, Node.alls, List.append_nil]
    exact List.getElem_mem inside)
  refine ⟨n.all[k], parent, gap ++ before, t, after ++ gap', member, ?_, ?_, ?_, row⟩
  · rw [whole, same]
    simp only [List.append_assoc]
  · rwa [List.length_append]
  · have some : 0 < n.all[k].count := by cases n.all[k] <;> simp [Node.count]
    rw [← row, List.head?_take, if_neg some.ne', List.head?_drop, found]

namespace DocumentOf

/-- What a string token has between its ends. -/
theorem string (of : DocumentOf d n) {k : Nat} {token : JsonToken}
    (found : d.tokens[k]? = some token) (type : token.type = .string) :
    ∃ before after, d.text = before ++ (quote :: (d.slice token ++ quote :: after)) ∧
      d.slice token ∈ body ∧ WellFormed (d.slice token) ∧
      token.start = (before.length + 1 : Nat) ∧
      token.stop = (before.length + 1 + (d.slice token).length : Nat) := by
  -- The kind of the part is that of the token.
  obtain ⟨m, parent, before, s, after, -, whole, spans, head, -⟩ := of.token found
  cases spans with
  | @string _ raw plain =>
    obtain rfl := Option.some.inj head
    -- A string lies between its quotation marks.
    have text : d.text = before ++ (quote :: (raw ++ quote :: after)) := by
      rw [whole]
      simp only [List.cons_append, List.append_assoc, List.nil_append]
    have behind : d.text.drop (before.length + 1) = raw ++ quote :: after := by
      rw [text, List.drop_append, List.drop_eq_nil_of_le (Nat.le_add_right _ _),
        Nat.add_sub_cancel_left]
      rfl
    -- The slice is what lies between them.
    have slice : d.slice ⟨.string, (before.length + 1 : Nat),
        (before.length + 1 + raw.length : Nat), 0, parent⟩ = raw := by
      rw [JsonDocument.slice]
      dsimp only
      rw [Int.toNat_natCast, behind, show ((before.length + 1 + raw.length : Nat) -
        ((before.length + 1 : Nat) : Int)).toNat = raw.length by omega, List.take_left]
    rw [slice]
    refine ⟨before, after, text, plain, ?_, rfl, rfl⟩
    -- A part between two ASCII characters is well formed by itself.
    have encoded := of.encoded
    rw [text, wellFormed_ascii (by decide), wellFormed_ascii (by decide)] at encoded
    exact encoded.2.1
  | primitive =>
    obtain rfl := Option.some.inj head
    exact absurd type (by simp)
  | @container _ object =>
    obtain rfl := Option.some.inj head
    cases object <;> exact absurd type (by simp)

/-- What a primitive token has between its ends. -/
theorem primitive (of : DocumentOf d n) {k : Nat} {token : JsonToken}
    (found : d.tokens[k]? = some token) (type : token.type = .primitive) :
    d.slice token ∈ literal + number := by
  obtain ⟨m, parent, before, s, after, -, whole, spans, head, -⟩ := of.token found
  -- The kind of the part is that of the token.
  cases spans with
  | string =>
    obtain rfl := Option.some.inj head
    exact absurd type (by simp)
  | primitive named =>
    obtain rfl := Option.some.inj head
    have slice : d.slice ⟨.primitive, before.length, (before.length + s.length : Nat), 0, parent⟩ =
        s := by
      rw [JsonDocument.slice, whole]
      dsimp only
      rw [Int.toNat_natCast, List.drop_left, show ((before.length + s.length : Nat) -
        (before.length : Int)).toNat = s.length by omega, List.take_left]
    rw [slice]
    exact named
  | @container _ object =>
    obtain rfl := Option.some.inj head
    cases object <;> exact absurd type (by simp)

end DocumentOf

/-- A token by its number. -/
theorem token_eq_some {d : JsonDocument} {t : Int} {token : JsonToken}
    (found : d.token t = some token) : 0 ≤ t ∧ d.tokens[t.toNat]? = some token := by
  rw [JsonDocument.token] at found
  split at found
  · exact absurd found (by simp)
  · exact ⟨by omega, found⟩

end Emu80535
