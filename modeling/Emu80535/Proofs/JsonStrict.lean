import Emu80535.Proofs.JsonWalks

/-! What the strict parser asks of a document beyond its syntax. -/

namespace Emu80535

open JsonGrammar Recogniser
open Utf8 (encode)

/-! ### Levels -/

mutual

/-- A token has the parent of the first one, or comes behind its own parent, one level above. -/
theorem nodeTokens_parent (parent : Int) (base level : Nat) (n : Node) {k l : Nat}
    {token : JsonToken} (found : (nodeTokens parent base n)[k]? = some token)
    (lies : (n.levels level)[k]? = some l) :
    (token.parent = parent ∧ l = level) ∨ ∃ j < k, token.parent = (base + j : Nat) ∧
      ∃ l', (n.levels level)[j]? = some l' ∧ l = l' + 1 := by
  -- A leaf has one token, which is the first.
  cases n with
  | string start raw =>
    cases k with
    | zero =>
      obtain rfl := Option.some.inj found
      exact Or.inl ⟨rfl, (Option.some.inj lies).symm⟩
    | succ k => exact absurd found (by simp [nodeTokens])
  | primitive start raw =>
    cases k with
    | zero =>
      obtain rfl := Option.some.inj found
      exact Or.inl ⟨rfl, (Option.some.inj lies).symm⟩
    | succ k => exact absurd found (by simp [nodeTokens])
  -- A token of a container is its own, or one of its children, whose parents lie behind the
  -- bracket.
  | container object start stop children =>
    cases k with
    | zero =>
      obtain rfl := Option.some.inj found
      exact Or.inl ⟨rfl, (Option.some.inj lies).symm⟩
    | succ k =>
      rw [nodeTokens, List.getElem?_cons_succ] at found
      rw [Node.levels, List.getElem?_cons_succ] at lies
      refine Or.inr ?_
      -- A child has the container as its parent, or comes behind its own parent among the
      -- children.
      rcases nodesTokens_parent base (base + 1) (level + 1) children found lies with
        ⟨same, rfl⟩ | ⟨j, before, same, l', above, rfl⟩
      · exact ⟨0, Nat.succ_pos k, same, level, rfl, rfl⟩
      · refine ⟨j + 1, Nat.succ_lt_succ before, ?_, l', ?_, rfl⟩
        · rw [same, Nat.add_assoc, Nat.add_comm 1 j]
        · rw [Node.levels, List.getElem?_cons_succ, above]

/-- The same of a list of nodes, whose first ones all have the parent of the list. -/
theorem nodesTokens_parent (parent : Int) (base level : Nat) (ns : List Node) {k l : Nat}
    {token : JsonToken} (found : (nodesTokens parent base ns)[k]? = some token)
    (lies : (Node.levelss level ns)[k]? = some l) :
    (token.parent = parent ∧ l = level) ∨ ∃ j < k, token.parent = (base + j : Nat) ∧
      ∃ l', (Node.levelss level ns)[j]? = some l' ∧ l = l' + 1 := by
  cases ns with
  | nil => exact absurd found (by simp [nodesTokens])
  | cons n ns =>
    have size := nodeTokens_length parent base n
    have size' := Node.levels_length level n
    rw [nodesTokens] at found
    rw [Node.levelss] at lies ⊢
    -- The token lies in the first node or behind it.
    rcases Nat.lt_or_ge k n.count with inside | behind
    · rw [List.getElem?_append_left (by omega)] at found lies
      rcases nodeTokens_parent parent base level n found lies with
        same | ⟨j, before, same, l', above, rfl⟩
      · exact Or.inl same
      · exact Or.inr ⟨j, before, same, l', by rwa [List.getElem?_append_left (by omega)], rfl⟩
    · rw [List.getElem?_append_right (by omega), size] at found
      rw [List.getElem?_append_right (by omega), size'] at lies
      rcases nodesTokens_parent parent (base + n.count) level ns found lies with
        same | ⟨j, before, same, l', above, rfl⟩
      · exact Or.inl same
      · refine Or.inr ⟨n.count + j, by omega, by rw [same, Nat.add_assoc], l', ?_, rfl⟩
        rw [List.getElem?_append_right (by omega), size', Nat.add_sub_cancel_left, above]

end

section Checks

variable {d : JsonDocument} {n : Node}

/-- The loop over the ancestors of a token counts its level. -/
theorem depthLoop_level (of : TokensOf d n) {k l : Nat} {token : JsonToken}
    (found : d.tokens[k]? = some token) (lies : (n.levels 1)[k]? = some l) {fuel : Nat}
    (enough : k < fuel) (depth : Nat) :
    ∃ last, depthLoop d fuel token.parent depth = some last ∧ last + 1 = depth + l := by
  -- The parent of a token comes before it, so this is an induction on its index.
  induction k using Nat.strongRecOn generalizing l token fuel depth with
  | ind k ih =>
    obtain ⟨fuel, rfl⟩ := Nat.exists_eq_add_one_of_ne_zero (Nat.ne_of_gt (Nat.zero_lt_of_lt enough))
    have listed := found
    rw [of.tokens] at listed
    -- The loop ends at the root, or goes on with the parent, which lies one level above.
    rcases nodeTokens_parent (-1) 0 1 n listed lies with ⟨root, rfl⟩ | ⟨j, before, same, l', above, rfl⟩
    · exact ⟨depth, by rw [depthLoop, root, if_pos (by decide)], rfl⟩
    · rw [Nat.zero_add] at same
      have inside : j < d.tokens.length :=
        Nat.lt_trans before (List.getElem?_eq_some_iff.mp found).1
      have parent : d.tokens[j]? = some d.tokens[j] := List.getElem?_eq_getElem inside
      have enough : j < fuel := by omega
      obtain ⟨last, ran, counted⟩ := ih j before parent above enough (depth + 1)
      refine ⟨last, ?_, by omega⟩
      rw [depthLoop, same, if_neg (by omega), Int.toNat_natCast, parent, Option.bind_some, ran]

/-! ### Keys of an object -/

/-- Keys that do not stand for the same text. -/
def KeysDiffer (key other : Node) : Prop := ∀ text, KeyIs key text → ¬KeyIs other text

/-- A key decodes in the room the strict parser has. -/
theorem strict_decode (of : DocumentOf d n) {k : Nat} {key : Node} (found : n.all[k]? = some key)
    (string : key.isString = true) : ∃ token, d.tokens[k]? = some token ∧
      token.start = key.start ∧
      (∀ text, KeyIs key text → jsonStringDecode d k (d.text.length + 1) true = some (some text)) ∧
      ((∀ text, ¬KeyIs key text) → jsonStringDecode d k (d.text.length + 1) true = some none) := by
  obtain ⟨token, listed, -, start, size, decode⟩ := key_decode of found string
  obtain ⟨decodes, fails⟩ := decode (d.text.length + 1) (by omega)
  exact ⟨token, listed, start, decodes, fails⟩

/-- A key is one token. -/
theorem isString_count {key : Node} (string : key.isString = true) : key.count = 1 := by
  cases key with
  | string => rfl
  | primitive => exact absurd string (by simp [Node.isString])
  | container => exact absurd string (by simp [Node.isString])

/-- The loop over the keys in front of a key looks for the same text. -/
theorem priorLoop_row (of : DocumentOf d n) {front : List Node} {base key : Nat}
    (row : InRow n base front) (paired : Node.Paired front) (last : key = base + Node.counts front)
    (decode : ∀ e ∈ Node.keyNodes front, ∃ text, KeyIs e text) (decoded : List Byte) {fuel : Nat}
    (enough : front.length < fuel) :
    ∃ b, priorLoop d key decoded fuel base = some b ∧
      (b = true ↔ ∀ e ∈ Node.keyNodes front, ¬KeyIs e decoded) := by
  obtain ⟨fuel, rfl⟩ := Nat.exists_eq_add_one_of_ne_zero (Nat.ne_of_gt (Nat.zero_lt_of_lt enough))
  -- The keys in front are passed two tokens at a time, a key and its value.
  induction front using Node.keyNodes.induct generalizing base fuel with
  | case1 first value rest ih =>
    obtain ⟨here, row'⟩ := inRow_cons row
    obtain ⟨there, row''⟩ := inRow_cons row'
    have one := isString_count paired.1
    have some := Node.count_pos value
    rw [one] at there row''
    simp only [Node.counts, one] at last
    simp only [List.length_cons] at enough
    obtain ⟨fuel, rfl⟩ := Nat.exists_eq_add_one_of_ne_zero (by omega : fuel ≠ 0)
    obtain ⟨text, is⟩ := decode first List.mem_cons_self
    obtain ⟨token, -, -, decodes, -⟩ := strict_decode of here paired.1
    rw [priorLoop, if_neg (by omega), decodes text is, Option.bind_some]
    dsimp only
    -- The loop stops at the first key with the same text.
    by_cases same : decoded = text
    · refine ⟨false, if_pos same, iff_of_false (by decide) fun none => ?_⟩
      exact none first List.mem_cons_self (same ▸ is)
    · obtain ⟨b, ran, distinct⟩ := ih row'' paired.2 (by omega)
        (fun e member => decode e (List.mem_cons_of_mem _ member)) fuel (by omega)
      refine ⟨b, ?_, ?_⟩
      · rw [if_neg same, next_eq of.toTokensOf there, Option.bind_some, ran]
      · rw [distinct, Node.keyNodes, List.forall_mem_cons]
        -- The pairs in front of the key are used up.
        exact (and_iff_right fun is' => same (keyIs_unique is' is)).symm
  | case2 front none =>
    rcases front with _ | ⟨first, _ | ⟨value, rest⟩⟩
    · refine ⟨true, ?_, iff_of_true rfl (by simp [Node.keyNodes])⟩
      rw [priorLoop, if_pos (by rw [last, Node.counts]; omega)]
    · exact absurd paired id
    · exact absurd rfl (none first value rest)

/-- Pairs may follow pairs, with the keys of both. -/
theorem paired_append {front rest : List Node} (paired : Node.Paired front)
    (paired' : Node.Paired rest) : Node.Paired (front ++ rest) ∧
      Node.keyNodes (front ++ rest) = Node.keyNodes front ++ Node.keyNodes rest := by
  -- By induction on the pairs in front.
  induction front using Node.keyNodes.induct with
  | case1 first value more ih =>
    obtain ⟨all, keys⟩ := ih paired.2
    exact ⟨⟨paired.1, all⟩, congrArg (first :: ·) keys⟩
  | case2 front none =>
    rcases front with _ | ⟨first, _ | ⟨value, more⟩⟩
    · exact ⟨paired', rfl⟩
    · exact absurd paired id
    · exact absurd rfl (none first value more)

/-- The loop over the keys of an object checks that they decode, to different texts. -/
theorem keyLoop_row (of : DocumentOf d n) {t stop : Nat} {front rest : List Node} {base : Nat}
    (row : InRow n (t + 1) (front ++ rest)) (paired : Node.Paired front)
    (here : base = t + 1 + Node.counts front) (remaining : Remaining n base stop rest)
    (decode : ∀ e ∈ Node.keyNodes front, ∃ text, KeyIs e text) {fuel : Nat}
    (enough : rest.length < fuel) (long : (front ++ rest).length ≤ d.tokens.length) :
    ∃ b, keyLoop d t stop fuel base = some b ∧
      (b = true ↔ (∀ e ∈ Node.keyNodes rest, ∃ text, KeyIs e text) ∧
        (Node.keyNodes rest).Pairwise KeysDiffer ∧
          ∀ e ∈ Node.keyNodes rest, ∀ e' ∈ Node.keyNodes front, KeysDiffer e e') := by
  obtain ⟨fuel, rfl⟩ := Nat.exists_eq_add_one_of_ne_zero (Nat.ne_of_gt (Nat.zero_lt_of_lt enough))
  -- By induction on the members behind; those in front are the keys already checked.
  induction rest using Node.keyNodes.induct generalizing front base fuel with
  | case1 key value more ih =>
    obtain ⟨first, row'⟩ := inRow_cons remaining.row
    obtain ⟨second, -⟩ := inRow_cons row'
    have one := isString_count remaining.paired.1
    rw [one] at second
    have inside := remaining.inside 0 (by rw [Node.counts, one]; omega) key first
    simp only [List.length_cons] at enough
    obtain ⟨fuel, rfl⟩ := Nat.exists_eq_add_one_of_ne_zero (by omega : fuel ≠ 0)
    obtain ⟨token, listed, start, decodes, fails⟩ := strict_decode of first remaining.paired.1
    have begins : ¬((stop : Int) ≤ token.start) := by
      rw [start]
      omega
    rw [keyLoop, listed]
    dsimp only
    rw [if_neg begins, Node.keyNodes, List.forall_mem_cons, List.forall_mem_cons,
      List.pairwise_cons]
    -- A key that does not decode stops the check.
    by_cases stands : ∃ text, KeyIs key text
    · obtain ⟨text, is⟩ := stands
      rw [decodes text is, Option.bind_some]
      -- The keys in front stand in one row, which is what the inner loop walks over.
      have front_row : InRow n (t + 1) front := by
        intro k within
        have size := Node.alls_length front
        have whole := row k (by rw [Node.counts_append]; omega)
        rw [whole, Node.alls_append, List.getElem?_append_left (by omega)]
      rw [List.length_append] at long
      have enough : front.length < d.tokens.length + 1 := by omega
      obtain ⟨differs, ran, distinct⟩ := priorLoop_row of front_row paired here decode text enough
      dsimp only
      rw [ran, Option.bind_some]
      -- A key with the text of an earlier one stops the check.
      cases differs with
      | false =>
        refine ⟨false, rfl, iff_of_false (by decide) fun all => ?_⟩
        exact absurd (distinct.mpr fun e member is' => all.2.2.1 e member text is is') (by decide)
      | true =>
        have pair : Node.Paired [key, value] := ⟨remaining.paired.1, trivial⟩
        obtain ⟨paired', keys⟩ := paired_append paired pair
        obtain ⟨b, ran, iff⟩ := @ih (front ++ [key, value]) (base + key.count + value.count)
          (by rw [List.append_assoc]; exact row) paired'
          (by rw [Node.counts_append, here]; simp only [Node.counts]; omega) remaining.tail
          (by
            rw [keys]
            exact fun e member => (List.mem_append.mp member).elim (decode e) fun last =>
              List.mem_singleton.mp last ▸ ⟨text, is⟩)
          (by simpa [List.length_append] using long) fuel (by omega)
        refine ⟨b, ?_, ?_⟩
        · rw [if_pos rfl, next_eq of.toTokensOf second, Option.bind_some, ← ran, one]
        · -- The key just checked now counts among those in front.
          rw [iff, keys]
          have nothing := distinct.mp rfl
          -- What was checked behind it, with the key itself in front.
          constructor
          · rintro ⟨decodes, apart, others⟩
            refine ⟨⟨⟨text, is⟩, decodes⟩, ⟨fun e member text' is' other => ?_, apart⟩,
              fun e member text' is' other => ?_,
              fun e member e' member' => others e member e' (List.mem_append_left _ member')⟩
            · exact others e member key (List.mem_append_right _ List.mem_cons_self) text' other is'
            · exact nothing e member (keyIs_unique is' is ▸ other)
          · -- The other way: the keys behind differ from this one and from those in front of it.
            rintro ⟨⟨-, decodes⟩, ⟨first, apart⟩, -, others⟩
            refine ⟨decodes, apart, fun e member e' member' => ?_⟩
            rcases List.mem_append.mp member' with member' | last
            · exact others e member e' member'
            · obtain rfl : e' = key := by simpa [Node.keyNodes] using last
              exact fun text' is' other => first e member text' other is'
    · refine ⟨false, ?_, iff_of_false (by decide) fun all => stands all.1.1⟩
      rw [fails fun text is => stands ⟨text, is⟩, Option.bind_some]
  -- Behind the last member the next token starts outside the object.
  | case2 rest none =>
    obtain rfl := remaining.nil none
    refine ⟨true, ?_, iff_of_true rfl (by simp [Node.keyNodes])⟩
    rw [keyLoop]
    cases listed : d.tokens[base]? with
    | none => rfl
    | some token =>
      have inside := (List.getElem?_eq_some_iff.mp listed).1
      rw [of.length] at inside
      have member : n.all[base]? = some n.all[base] := List.getElem?_eq_getElem inside
      obtain ⟨token', listed', start, -⟩ := of.extent member
      obtain rfl := Option.some.inj (listed.symm.trans listed')
      have last := remaining.outside _ member
      dsimp only
      rw [if_pos (by rw [start]; omega)]

end Checks

/-! ### Tokens one by one -/

section Loop

variable {d : JsonDocument}

end Loop

end Emu80535
