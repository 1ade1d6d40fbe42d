import Emu80535.Proofs.JsonAdmission

/-! The tokenizer agrees with the grammar, and the strict parser with its limits. -/

namespace Emu80535

open JsonGrammar
open Utf8 (WellFormed encode)

variable {d : JsonDocument} {n : Node}

/-! ### Children -/

/-- The tokens of two lists of nodes, one behind the other. -/
theorem nodesTokens_append (parent : Int) (base : Nat) (front rest : List Node) :
    nodesTokens parent base (front ++ rest) =
      nodesTokens parent base front ++ nodesTokens parent (base + Node.counts front) rest := by
  induction front generalizing base with
  | nil => rfl
  | cons first front ih =>
    rw [List.cons_append, nodesTokens, nodesTokens, ih, Node.counts, List.append_assoc,
      Nat.add_assoc]

/-- The rest of a row begins behind its front. -/
theorem inRow_append {base : Nat} {front rest : List Node} (row : InRow n base (front ++ rest)) :
    InRow n (base + Node.counts front) rest := by
  induction front generalizing base with
  | nil => exact row
  | cons first front ih =>
    rw [Node.counts, ← Nat.add_assoc]
    exact ih (inRow_cons row).2

/-- The tokens of a node begin with its own. -/
theorem nodeTokens_head (parent : Int) (base : Nat) (m : Node) :
    ∃ token, (nodeTokens parent base m)[0]? = some token ∧ token.parent = parent := by
  cases m with
  | string => exact ⟨_, rfl, rfl⟩
  | primitive => exact ⟨_, rfl, rfl⟩
  | container => exact ⟨_, rfl, rfl⟩

/-- The tokens of a container: its own, and those of its children behind it. -/
theorem TokensOf.container (of : TokensOf d n) {t start stop : Nat} {object : Bool}
    {children : List Node} (found : n.all[t]? = some (.container object start stop children)) :
    ∃ parent, (d.tokens.drop t).take (Node.counts children + 1) =
      ⟨if object then .object else .array, start, stop, children.length, parent⟩ ::
        nodesTokens t (t + 1) children := by
  obtain ⟨parent, tokens⟩ := nodeTokens_holds (-1) 0 n found
  refine ⟨parent, ?_⟩
  rw [Nat.zero_add, ← of.tokens, Node.count, nodeTokens] at tokens
  exact tokens

/-- A child is numbered behind its elder siblings, and names the container that it lies in. -/
theorem TokensOf.child (of : TokensOf d n) {t start stop : Nat} {object : Bool}
    {front back : List Node} {child : Node}
    (found : n.all[t]? = some (.container object start stop (front ++ child :: back))) :
    n.all[t + 1 + Node.counts front]? = some child ∧
      ∃ token, d.tokens[t + 1 + Node.counts front]? = some token ∧ token.parent = t := by
  refine ⟨(inRow_cons (inRow_append (inRow_children found))).1, ?_⟩
  obtain ⟨parent, tokens⟩ := of.container found
  obtain ⟨token, head, above⟩ := nodeTokens_head t (t + 1 + Node.counts front) child
  refine ⟨token, ?_, above⟩
  have some := Node.count_pos child
  -- Behind the container's own token come those of the elder siblings.
  have listed := congrArg (fun row => row[1 + Node.counts front]?) tokens
  rw [Nat.add_comm 1, List.getElem?_cons_succ, nodesTokens_append,
    List.getElem?_append_right (by rw [nodesTokens_length]), nodesTokens_length,
    Nat.sub_self, nodesTokens,
    List.getElem?_append_left (by rw [nodeTokens_length]; omega), head,
    List.getElem?_take_of_lt (by rw [Node.counts_append, Node.counts]; omega),
    List.getElem?_drop] at listed
  rw [← listed]
  congr 1
  omega

/-! ### Tokens -/

/-- Tokens that are the keys and values of a text in preorder. -/
structure Tokenized (d : JsonDocument) (n : Node) : Prop where
  tokens : d.tokens = nodeTokens (-1) 0 n
  count : d.tokens.length = n.count
  extents : ∀ (k : Nat) (m : Node), n.all[k]? = some m →
    ∃ token, d.tokens[k]? = some token ∧ token.start = m.start ∧ token.stop = m.stop
  nested : Ordered n.all
  root : ∃ token, d.tokens[0]? = some token ∧ token.parent = -1
  /-- A container counts its children. -/
  sizes : ∀ (t : Nat) (object : Bool) (start stop : Nat) (children : List Node),
    n.all[t]? = some (.container object start stop children) →
      ∃ token, d.tokens[t]? = some token ∧ token.size = children.length ∧
        token.type = if object then .object else .array
  parents : ∀ (t : Nat) (object : Bool) (start stop : Nat) (front : List Node) (child : Node)
    (back : List Node), n.all[t]? = some (.container object start stop (front ++ child :: back)) →
      n.all[t + 1 + Node.counts front]? = some child ∧
        ∃ token, d.tokens[t + 1 + Node.counts front]? = some token ∧ token.parent = t
  /-- Behind a child comes the number of its next sibling. -/
  siblings : ∀ (t : Nat) (object : Bool) (start stop : Nat) (front : List Node) (child : Node)
    (back : List Node), n.all[t]? = some (.container object start stop (front ++ child :: back)) →
      d.next (t + 1 + Node.counts front) = some (t + 1 + Node.counts (front ++ [child]))

/-- The tokens of a text have every property that readers rely on. -/
theorem TokensOf.tokenized (of : TokensOf d n) : Tokenized d n where
  tokens := of.tokens
  count := by rw [of.length, Node.all_length]
  extents _ _ found := of.extent found
  nested := of.ordered
  root := by
    rw [of.tokens]
    exact nodeTokens_head (-1) 0 n
  sizes t object start stop children found := by
    obtain ⟨parent, tokens⟩ := of.container found
    -- The first token of a container is its own.
    have listed := congrArg (fun row => row[0]?) tokens
    rw [List.getElem?_take_of_lt (by omega), List.getElem?_drop] at listed
    exact ⟨_, listed, rfl, rfl⟩
  parents _ _ _ _ _ _ _ found := of.child found
  siblings t object start stop front child back found := by
    rw [next_eq of (of.child found).1, Node.counts_append, Nat.add_assoc (t + 1)]
    rfl

/-! ### Members -/

/-- What `json_member` finds in an object of which every key decodes. -/
def FindsMembers (d : JsonDocument) (t : Nat) (children : List Node) : Prop :=
  (∀ key ∈ Node.keyNodes children, ∃ text, KeyIs key text) → ∀ name,
    (∀ front key number back, Node.members (t + 1) children = front ++ (key, number) :: back →
      KeyIs key name → (∀ e ∈ front ++ back, ¬KeyIs e.1 name) →
        jsonMember d t name = some (number : Nat)) ∧
      ((∀ key ∈ Node.keyNodes children, ¬KeyIs key name) → jsonMember d t name = some (-1))

/-- What the lookups of a document answer is what they were asked for. -/
theorem DocumentOf.findsMembers (of : DocumentOf d n) {t start stop : Nat} {children : List Node}
    (found : n.all[t]? = some (.container true start stop children)) :
    FindsMembers d t children := by
  intro decode name
  obtain ⟨present, absent, -⟩ := jsonMember_cases of found name
  -- A key that decodes to something else decodes to another name.
  have other : ∀ e ∈ Node.members (t + 1) children, ¬KeyIs e.1 name →
      ∃ text, KeyIs e.1 text ∧ text ≠ name := by
    intro e member apart
    obtain ⟨text, is⟩ := decode e.1 (by
      rw [← Node.members_keys (t + 1)]
      exact List.mem_map_of_mem member)
    exact ⟨text, is, fun same => apart (same ▸ is)⟩
  constructor
  · intro front key number back split is alone
    refine (present front key number back split is).1 fun e member => other e ?_ (alone e member)
    rw [split]
    exact (List.mem_append.mp member).elim (List.mem_append_left _) fun behind =>
      List.mem_append_right _ (List.mem_cons_of_mem _ behind)
  · intro none
    refine absent fun e member => other e member (none e.1 ?_)
    rw [← Node.members_keys (t + 1)]
    exact List.mem_map_of_mem member

/-! ### The agreement -/

/--
On every text without terminators that the syntax check accepts, the tokenizer finds its keys and
values, and lookups find the members where the text is one of characters; so they do in every
parsed document; and the strict parser admits exactly what its limits allow, of which the room for
tokens is none.
-/
theorem json_documents_agree (text : List Byte) :
    ((0#8 : Byte) ∉ text → jsonSyntaxValid text = some true →
      (∃ n, TextOf text n) ∧ ∀ n, TextOf text n → ∀ capacity, n.count ≤ capacity →
        ∃ tokens, jsonParse text capacity = some (.ok tokens) ∧ Tokenized ⟨text, tokens⟩ n ∧
          (WellFormed text → ∀ (t start stop : Nat) (children : List Node),
            n.all[t]? = some (.container true start stop children) →
              FindsMembers ⟨text, tokens⟩ t children)) ∧
      (∀ strict multiline d, parseDocument text strict multiline = some (some d) →
        ∃ n, TextOf text n ∧ Tokenized d n ∧ ∀ (t start stop : Nat) (children : List Node),
          n.all[t]? = some (.container true start stop children) → FindsMembers d t children) ∧
        ∃ answer, jsonDocumentParse text true = some answer ∧
          (answer.isSome = true ↔ 1 ≤ text.length ∧ text.length ≤ 65535 ∧ (0#8 : Byte) ∉ text ∧
            WellFormed text ∧ ascii '\r' ∉ text ∧ ascii '\n' ∉ text ∧
              ∃ n, TextOf text n ∧ Admitted n) := by
  -- A text by itself, a document however it was parsed, and the strict parser's acceptance.
  refine ⟨fun plain valid => ?_, fun strict multiline d parsed => ?_, ?_⟩
  · obtain ⟨n, spells, -⟩ := mem_text.mp ((jsonSyntaxValid_iff plain).mp valid)
    refine ⟨⟨n, spells⟩, fun n spells capacity room => ?_⟩
    -- The tokens are those of any node with that text.
    have of : TokensOf ⟨text, nodeTokens (-1) 0 n⟩ n := ⟨spells, rfl⟩
    refine ⟨_, (jsonParse_textOf spells capacity _).mpr ⟨room, rfl⟩, of.tokenized,
      fun encoded t start stop children found => ?_⟩
    have document : DocumentOf ⟨text, nodeTokens (-1) 0 n⟩ n := ⟨of, plain, encoded⟩
    exact document.findsMembers found
  · obtain ⟨rfl, n, of, -⟩ := parseDocument_some parsed
    exact ⟨n, of.spans, of.tokenized, fun t start stop children found => of.findsMembers found⟩
  · obtain ⟨answer, parsed, admits⟩ := parseDocument_iff text false
    exact ⟨answer, parsed, by simpa only [true_implies, and_assoc] using admits⟩

/-- A letter written as an escape. -/
def escapedLetter : List Byte :=
  [backslash, ascii 'u', ascii '0', ascii '0', ascii '6', ascii '2']

/-- Two members, of which the second one's name is written as an escape. -/
def twoMembers : List Byte :=
  objectOpen :: ((quote :: ([ascii 'a'] ++ [quote])) ++ (ascii ':' :: (quote :: ([ascii '7'] ++
    [quote]) ++ (ascii ',' :: ((quote :: (escapedLetter ++ [quote])) ++ (ascii ':' ::
      (quote :: ([ascii '8'] ++ [quote]) ++ [objectClose])))))))

/-- The children of its node. -/
def twoMembersChildren : List Node :=
  [.string 2 [ascii 'a'], .string 6 [ascii '7'], .string 10 escapedLetter, .string 19 [ascii '8']]

/-- What its strings stand for. -/
theorem twoMembers_means : Means [ascii 'a'] ['a'] ∧ Means [ascii '7'] ['7'] ∧
    Means escapedLetter ['b'] ∧ Means [ascii '8'] ['8'] := by
  have plain : ∀ c : Char, 0x20 ≤ c.toNat → c.toNat ≠ 0x22 ∧ c.toNat ≠ 0x5C →
      Means (encode c ++ []) [c] := fun c printable bare => .cons (.plain printable bare) .nil
  exact ⟨plain 'a' (by decide) (by decide), plain '7' (by decide) (by decide),
    .cons (.unit (by decide) (by decide)) .nil, plain '8' (by decide) (by decide)⟩

/-- The text is that of the node. -/
theorem twoMembers_text : TextOf twoMembers (.container true 0 22 twoMembersChildren) := by
  obtain ⟨first, second, third, fourth⟩ := twoMembers_means
  have odd : true = true → true = false → ∀ m : Node, m.isString = true :=
    fun _ wrong => absurd wrong.symm Bool.false_ne_true
  refine ⟨[], ws_nil, twoMembers, [], ws_nil, by simp, ?_⟩
  refine @Spells.container 0 true [] _ _ ws_nil (.some (.string first.body) (fun _ => rfl) ws_nil ?_)
  refine @Spells.next _ true true [] _ [] _ _ _ ws_nil (.string second.body)
    (fun one wrong => odd one wrong _) ws_nil ?_
  refine @Spells.next _ true false [] _ [] _ _ _ ws_nil (.string third.body) (fun _ _ => rfl)
    ws_nil ?_
  exact @Spells.next _ true true [] _ [] _ _ _ ws_nil (.string fourth.body)
    (fun one wrong => odd one wrong _) ws_nil (.close fun _ => rfl)

/-- The member named by the escape is found by its letter, and no member by another letter. -/
theorem json_documents_agree_member :
    ∃ tokens, jsonParse twoMembers 5 = some (.ok tokens) ∧
      Tokenized ⟨twoMembers, tokens⟩ (.container true 0 22 twoMembersChildren) ∧
      jsonMember ⟨twoMembers, tokens⟩ 0 [0x62#8] = some 4 ∧
      jsonMember ⟨twoMembers, tokens⟩ 0 [0x63#8] = some (-1) := by
  obtain ⟨-, agree⟩ := (json_documents_agree twoMembers).1 (by decide) rfl
  obtain ⟨tokens, parsed, tokenized, finds⟩ := agree _ twoMembers_text 5 (by decide)
  obtain ⟨first, -, third, -⟩ := twoMembers_means
  -- The names of the two members, and that they have no others.
  have a : KeyIs (.string 2 [ascii 'a']) [0x61#8] := ⟨_, first, by decide⟩
  have b : KeyIs (.string 10 escapedLetter) [0x62#8] := ⟨_, third, by decide⟩
  have others : ∀ {key : Node} {name other : List Byte}, KeyIs key name → name ≠ other →
      ¬KeyIs key other := fun is apart is' => apart (keyIs_unique is is')
  have members : FindsMembers ⟨twoMembers, tokens⟩ 0 twoMembersChildren :=
    finds ((utf8Valid_iff twoMembers).mp rfl) 0 0 22 twoMembersChildren rfl
  have keys : ∀ {P : Node → Prop}, P (.string 2 [ascii 'a']) → P (.string 10 escapedLetter) →
      ∀ key ∈ Node.keyNodes twoMembersChildren, P key := by
    intro P one two key member
    rcases List.mem_cons.mp member with rfl | last
    · exact one
    · rw [List.mem_singleton.mp last]
      exact two
  have decode : ∀ key ∈ Node.keyNodes twoMembersChildren, ∃ text, KeyIs key text :=
    keys ⟨_, a⟩ ⟨_, b⟩
  refine ⟨tokens, parsed, tokenized, ?_, ?_⟩
  · refine (members decode [0x62#8]).1 [(.string 2 [ascii 'a'], 2)] _ 4 [] rfl b fun e member => ?_
    rw [List.mem_singleton.mp member]
    exact others a (by decide)
  · exact (members decode [0x63#8]).2 (keys (others a (by decide)) (others b (by decide)))

/-- A key that stands for no text: `{"a":1,"\uD800":2}`. -/
def halfKeyed : JsonDocument :=
  ⟨[objectOpen, quote, ascii 'a', quote, ascii ':', ascii '1', ascii ',', quote, backslash,
      ascii 'u', ascii 'D', ascii '8', ascii '0', ascii '0', quote, ascii ':', ascii '2',
      objectClose],
    [⟨.object, 0, 18, 4, -1⟩, ⟨.string, 2, 3, 0, 0⟩, ⟨.primitive, 5, 6, 0, 0⟩,
      ⟨.string, 8, 14, 0, 0⟩, ⟨.primitive, 16, 17, 0, 0⟩]⟩

/--
Behind a terminator the two scanners part: the syntax check skips it, the tokenizer does not. And a
member is not found where another key stands for no text.
-/
theorem json_documents_disagree :
    (jsonSyntaxValid [0x7B#8, 0x7D#8, 0x00#8] = some true ∧
      jsonParse [0x7B#8, 0x7D#8, 0x00#8] 4096 = some (.error .malformed)) ∧
      parseDocument halfKeyed.text false false = some (some halfKeyed) ∧
        jsonMember halfKeyed 0 [ascii 'a'] = some (-2) := by
  refine ⟨⟨rfl, rfl⟩, ?_, ?_⟩
  · decide +kernel
  · decide +kernel

end Emu80535
