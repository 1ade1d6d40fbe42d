import Emu80535.Proofs.JsonStrings

/-! Compaction leaves a value without its whitespace. -/

namespace Emu80535

open JsonGrammar Recogniser

/-! ### Values of documents -/

/-- A token is the first of a node, which lies in the text. -/
structure Denotes (d : JsonDocument) (t : Nat) (m : Node) : Prop where
  text : ∃ before s after, d.text = before ++ (s ++ after) ∧ Spells .value before.length s [m]
  tokens : ∃ parent, (d.tokens.drop t).take m.count = nodeTokens parent t m

/-- The token itself. -/
theorem Denotes.token {d : JsonDocument} {t : Nat} {m : Node} (denotes : Denotes d t m) :
    ∃ parent, d.token t = (nodeTokens parent t m).head? := by
  obtain ⟨parent, row⟩ := denotes.tokens
  refine ⟨parent, ?_⟩
  rw [← row, List.head?_take, if_neg (Node.count_pos m).ne', List.head?_drop, JsonDocument.token,
    if_neg (by omega), Int.toNat_natCast]

/-- Every token of a document denotes what is there in its node. -/
theorem DocumentOf.denotes {d : JsonDocument} {n : Node} (of : DocumentOf d n) {k : Nat}
    {token : JsonToken} (found : d.tokens[k]? = some token) :
    ∃ m, n.all[k]? = some m ∧ Denotes d k m := by
  obtain ⟨m, parent, before, s, after, member, whole, spans, -, row⟩ := of.token found
  exact ⟨m, member, ⟨before, s, after, whole, spans⟩, parent, row⟩

/-! ### The automaton -/

end Emu80535
