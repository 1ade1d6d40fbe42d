import Emu80535.Lib.JsonOrder
import Emu80535.Proofs.JsonStrings

/-! Walks over the tokens of a document: the next sibling, and the members of an object. -/

namespace Emu80535

open JsonGrammar Recogniser
open Utf8 (encode)

/-! ### Extents of tokens -/

mutual

/-- The tokens of a node lie where its parts lie. -/
theorem nodeTokens_extents (parent : Int) (base : Nat) (n : Node) :
    (nodeTokens parent base n).map (fun token => (token.start, token.stop)) =
      n.all.map fun m => ((m.start : Int), (m.stop : Int)) := by
  cases n with
  | string => rfl
  | primitive => rfl
  | container object start stop children =>
    rw [nodeTokens, Node.all, List.map_cons, List.map_cons, nodesTokens_extents]
    rfl

/-- The same of a list of nodes. -/
theorem nodesTokens_extents (parent : Int) (base : Nat) (ns : List Node) :
    (nodesTokens parent base ns).map (fun token => (token.start, token.stop)) =
      (Node.alls ns).map fun m => ((m.start : Int), (m.stop : Int)) := by
  cases ns with
  | nil => rfl
  | cons n ns =>
    rw [nodesTokens, Node.alls, List.map_append, List.map_append, nodeTokens_extents,
      nodesTokens_extents]

end

/-- So many elements pass a test. -/
theorem length_takeWhile {α : Type} {test : α → Bool} {l : List α} {c : Nat}
    (passes : ∀ j x, l[j]? = some x → j < c → test x = true)
    (stops : ∀ x, l[c]? = some x → test x = false) (within : c ≤ l.length) :
    (l.takeWhile test).length = c := by
  -- By induction on the list and the number.
  induction l generalizing c with
  | nil => exact (Nat.le_zero.mp within).symm
  | cons x l ih =>
    cases c with
    | zero => rw [List.takeWhile_cons_of_neg (by simp [stops x rfl]), List.length_nil]
    | succ c =>
      rw [List.takeWhile_cons_of_pos (passes 0 x rfl (Nat.succ_pos c)), List.length_cons,
        ih (fun j y found less => passes (j + 1) y found (Nat.succ_lt_succ less))
          (fun y found => stops y found) (Nat.le_of_succ_le_succ within)]

section Walks

variable {d : JsonDocument} {n : Node}

/-- Words of primitives are not empty. -/
theorem primitive_filled : ∀ s ∈ literal + number, s ≠ ([] : List Byte) := by
  intro s word
  obtain ⟨-, c, t, rfl, -⟩ := primitive_plain word
  exact List.cons_ne_nil c t

/-- The nodes of a document are in order. -/
theorem TokensOf.ordered (of : TokensOf d n) : Ordered n.all := by
  obtain ⟨gap, -, s, gap', -, -, spans⟩ := of.spans
  have ordered := (spans.ordered primitive_filled).2
  rwa [Node.alls, Node.alls, List.append_nil] at ordered

/-- The token of a node lies where the node does. -/
theorem TokensOf.extent (of : TokensOf d n) {k : Nat} {m : Node} (found : n.all[k]? = some m) :
    ∃ token, d.tokens[k]? = some token ∧ token.start = m.start ∧ token.stop = m.stop := by
  have extents := congrArg (·[k]?) (nodeTokens_extents (-1) 0 n)
  rw [← of.tokens, List.getElem?_map, List.getElem?_map, found, Option.map_some] at extents
  obtain ⟨token, listed, same⟩ := Option.map_eq_some_iff.mp extents
  exact ⟨token, listed, (Prod.mk.inj same).1, (Prod.mk.inj same).2⟩

/-- A document has one token for each part of its node. -/
theorem TokensOf.length (of : TokensOf d n) : d.tokens.length = n.all.length := by
  rw [of.tokens, nodeTokens_length, Node.all_length]

/-- What comes behind a token and what is inside it comes next. -/
theorem next_eq (of : TokensOf d n) {k : Nat} {m : Node} (found : n.all[k]? = some m) :
    d.next k = some (k + m.count) := by
  obtain ⟨token, listed, -, stop⟩ := of.extent found
  have within := Node.all_count n found
  have some := Node.count_pos m
  have size := of.length
  rw [Node.all_length] at size
  -- A later token begins inside the extent exactly if it is inside the node.
  have later {j : Nat} {other : JsonToken} (listed : d.tokens[j]? = Option.some other)
      (less : k < j) : (other.start < token.stop) ↔ j < k + m.count := by
    have inside := (List.getElem?_eq_some_iff.mp listed).1
    rw [of.length] at inside
    have member : n.all[j]? = Option.some n.all[j] := List.getElem?_eq_getElem inside
    obtain ⟨other', listed', start', -⟩ := of.extent member
    obtain rfl := Option.some.inj (listed.symm.trans listed')
    obtain ⟨near, far⟩ := of.ordered k j m _ found member less
    rw [start', stop]
    constructor
    · intro before
      by_contra behind
      have := far (by omega)
      omega
    · intro inside
      have := near inside
      omega
  rw [JsonDocument.next, listed, Option.map_some, length_takeWhile (c := m.count - 1)]
  · congr 1
    omega
  · intro j other found less
    rw [List.getElem?_drop] at found
    exact decide_eq_true ((later found (by omega)).mpr (by omega))
  · intro other found
    rw [List.getElem?_drop] at found
    exact decide_eq_false fun before => absurd ((later found (by omega)).mp before) (by omega)
  · rw [List.length_drop]
    omega

/-! ### Members -/

/-- A key that stands for a text. -/
def KeyIs (key : Node) (text : List Byte) : Prop :=
  ∃ cs, Means key.raw cs ∧ text = cs.flatMap encode

/-- A key stands for one text only. -/
theorem keyIs_unique {key : Node} {text text' : List Byte} (is : KeyIs key text)
    (is' : KeyIs key text') : text = text' := by
  obtain ⟨cs, means, rfl⟩ := is
  obtain ⟨cs', means', rfl⟩ := is'
  -- A document with nothing but that string decodes to both.
  have lies : StringAt ⟨key.raw ++ [quote], [⟨.string, 0, key.raw.length, 0, -1⟩]⟩ 0
      ⟨.string, 0, key.raw.length, 0, -1⟩ key.raw :=
    ⟨rfl, rfl, Int.le_refl 0, (Int.zero_add _).symm, [], rfl⟩
  have one := jsonStringDecode_means lies means
    ((cs.flatMap encode).length + (cs'.flatMap encode).length + 1) true
  rw [jsonStringDecode_means lies means', if_pos ⟨by rw [List.length_nil]; omega, Or.inl rfl⟩,
    if_pos ⟨by rw [List.length_nil]; omega, Or.inl rfl⟩] at one
  exact (Option.some.inj (Option.some.inj one)).symm

/-- Nodes that come in a row from a number on. -/
def InRow (n : Node) (base : Nat) (ns : List Node) : Prop :=
  ∀ k < Node.counts ns, n.all[base + k]? = (Node.alls ns)[k]?

/-- A row begins with its first node, and goes on behind it. -/
theorem inRow_cons {base : Nat} {m : Node} {ns : List Node} (row : InRow n base (m :: ns)) :
    n.all[base]? = some m ∧ InRow n (base + m.count) ns := by
  have size := Node.all_length m
  have some := Node.count_pos m
  -- The first token of the row is that of the first node.
  constructor
  · have first := row 0 (by rw [Node.counts]; omega)
    rw [Nat.add_zero, Node.alls, List.getElem?_append_left (by omega)] at first
    rw [first]
    cases m <;> rfl
  · -- What lies behind it is the row of the others.
    intro k inside
    have behind := row (m.count + k) (by rw [Node.counts]; omega)
    rw [Node.alls, List.getElem?_append_right (by omega), ← Nat.add_assoc] at behind
    rw [behind]
    congr 1
    omega

/-- The children of a container come behind it. -/
theorem inRow_children {t : Nat} {object : Bool} {start stop : Nat} {children : List Node}
    (found : n.all[t]? = some (.container object start stop children)) :
    InRow n (t + 1) children := by
  intro k inside
  rw [Nat.add_assoc, Nat.add_comm 1 k,
    Node.all_segment n found (j := k + 1) (by rw [Node.count]; omega), Node.all,
    List.getElem?_cons_succ]

/-- The key of a member decodes to what it stands for, with as much room as its own text has. -/
theorem key_decode (of : DocumentOf d n) {k : Nat} {key : Node} (found : n.all[k]? = some key)
    (string : key.isString = true) : ∃ token, d.tokens[k]? = some token ∧ token.type = .string ∧
      token.start = key.start ∧ (token.stop - token.start).toNat < d.text.length ∧
      ∀ capacity, (token.stop - token.start).toNat < capacity →
        (∀ text, KeyIs key text → jsonStringDecode d k capacity true = some (some text)) ∧
          ((∀ text, ¬KeyIs key text) → jsonStringDecode d k capacity true = some none) := by
  obtain ⟨token, listed, start, stop⟩ := of.extent found
  obtain ⟨m, parent, before, s, after, found', whole, spans, head, -⟩ := of.token listed
  obtain rfl := Option.some.inj (found.symm.trans found')
  -- A key is a string, so two cases are none.
  cases key with
  | primitive => exact absurd string (by simp [Node.isString])
  | container => exact absurd string (by simp [Node.isString])
  | string position raw =>
    obtain rfl := Option.some.inj head
    have type : (⟨.string, position, (position + raw.length : Nat), 0, parent⟩ : JsonToken).type =
      .string := rfl
    -- The token of the key, and its text in the document.
    have at_k : d.token (k : Int) = some
        ⟨.string, position, (position + raw.length : Nat), 0, parent⟩ := by
      rw [JsonDocument.token, if_neg (by omega), Int.toNat_natCast]
      exact listed
    have lies := of.stringAt at_k type
    -- The slice of the token is what stands between the quotation marks.
    have slice : d.slice ⟨.string, position, (position + raw.length : Nat), 0, parent⟩ = raw := by
      cases spans with
      | string plain =>
        rw [JsonDocument.slice, whole]
        dsimp only
        rw [Int.toNat_natCast, List.drop_append, List.drop_eq_nil_of_le (Nat.le_add_right _ _),
          Nat.add_sub_cancel_left, List.nil_append, List.cons_append, List.drop_succ_cons,
          List.drop_zero, List.append_assoc,
          show ((before.length + 1 + raw.length : Nat) - ((before.length + 1 : Nat) : Int)).toNat =
            raw.length by omega, List.take_left]
    have size : raw.length < d.text.length := by
      rw [slice] at lies
      exact lies.length
    -- No text is longer than its spelling, so the room is enough.
    refine ⟨_, listed, rfl, rfl, by dsimp only; omega, fun capacity room => ⟨?_, fun none => ?_⟩⟩
    · rintro text ⟨cs, means, rfl⟩
      have length : (cs.flatMap encode).length ≤ raw.length := means.length
      have fits : Fits capacity true [] cs := by
        refine ⟨?_, Or.inl rfl⟩
        dsimp only at room
        rw [List.length_nil]
        omega
      rw [slice] at lies
      rw [jsonStringDecode_means lies means, if_pos fits]
    · refine jsonStringDecode_lone of at_k type (fun cs means => none _ ⟨cs, ?_, rfl⟩) capacity true
      rwa [slice] at means

/-- A round of the loop of `json_member`. -/
theorem memberLoop_pair (of : DocumentOf d n) {base : Nat} {key value : Node} {rest : List Node}
    (row : InRow n base (key :: value :: rest)) (string : key.isString = true) {stop : Nat}
    (inside : ∀ k < Node.counts (key :: value :: rest), ∀ m, n.all[base + k]? = some m →
      m.start < stop) (name : List Byte) (fuel : Nat) (found : Int) :
    (∀ text, KeyIs key text → memberLoop d stop name (fuel + 1) base found =
        if text = name ∧ 0 ≤ found then some (-2)
        else memberLoop d stop name fuel (base + key.count + value.count)
          (if text = name then (base + key.count : Nat) else found)) ∧
      ((∀ text, ¬KeyIs key text) → memberLoop d stop name (fuel + 1) base found = some (-2)) := by
  obtain ⟨first, row'⟩ := inRow_cons row
  obtain ⟨second, -⟩ := inRow_cons row'
  -- A key is one token, so its value is the next one.
  have one : key.count = 1 := by
    cases key with
    | string => rfl
    | primitive => exact absurd string (by simp [Node.isString])
    | container => exact absurd string (by simp [Node.isString])
  rw [one] at second ⊢
  have some := Node.count_pos value
  obtain ⟨token, listed, type, start, -, decode⟩ := key_decode of first string
  obtain ⟨token', listed', start', -⟩ := of.extent second
  have before := inside 0 (by rw [Node.counts]; omega) key first
  have before' := inside 1 (by rw [Node.counts, Node.counts, one]; omega) value second
  obtain ⟨decodes, fails⟩ := decode ((token.stop - token.start).toNat + 1) (Nat.lt_succ_self _)
  -- Neither check of `json_member` stops the round.
  have shape : ¬(token.type ≠ .string ∨ (stop : Int) ≤ token'.start) := by
    rw [start']
    simp only [type, ne_eq, not_true, false_or]
    omega
  have begins : ¬((stop : Int) ≤ token.start) := by
    rw [start]
    omega
  -- The key decodes, and is compared with the name.
  constructor
  · intro text is
    rw [memberLoop, listed]
    dsimp only
    rw [if_neg begins, listed']
    dsimp only
    rw [if_neg shape, decodes text is, Option.bind_some]
    dsimp only
    rw [next_eq of.toTokensOf second, Option.bind_some]
  · -- The key does not decode, which ends the search with -2.
    intro none
    rw [memberLoop, listed]
    dsimp only
    rw [if_neg begins, listed']
    dsimp only
    rw [if_neg shape, fails none, Option.bind_some]

/-- The end of the loop of `json_member`. -/
theorem memberLoop_end (of : DocumentOf d n) {base stop : Nat}
    (outside : ∀ m, n.all[base]? = some m → stop ≤ m.start) (name : List Byte) (fuel : Nat)
    (found : Int) : memberLoop d stop name (fuel + 1) base found = some found := by
  rw [memberLoop]
  -- The loop ends behind the last token, or at a token that lies behind the object.
  cases listed : d.tokens[base]? with
  | none => rfl
  | some token =>
    have inside := (List.getElem?_eq_some_iff.mp listed).1
    rw [of.length] at inside
    have member : n.all[base]? = some n.all[base] := List.getElem?_eq_getElem inside
    obtain ⟨token', listed', start, -⟩ := of.extent member
    obtain rfl := Option.some.inj (listed.symm.trans listed')
    have last := outside _ member
    dsimp only
    rw [if_pos (by rw [start]; omega)]

/-- The members of an object that the loop has not come to. -/
structure Remaining (n : Node) (base stop : Nat) (ns : List Node) : Prop where
  row : InRow n base ns
  paired : Node.Paired ns
  inside : ∀ k < Node.counts ns, ∀ m, n.all[base + k]? = some m → m.start < stop
  outside : ∀ m, n.all[base + Node.counts ns]? = some m → stop ≤ m.start

/-- What remains behind a member. -/
theorem Remaining.tail {base stop : Nat} {key value : Node} {rest : List Node}
    (remaining : Remaining n base stop (key :: value :: rest)) :
    Remaining n (base + key.count + value.count) stop rest := by
  have counted : Node.counts (key :: value :: rest) =
      key.count + value.count + Node.counts rest := by
    rw [Node.counts, Node.counts, Nat.add_assoc]
  -- The fields of the law hold of a shorter row at a later index.
  refine ⟨(inRow_cons (inRow_cons remaining.row).2).2, remaining.paired.2, ?_, ?_⟩
  · intro k inside m found
    refine remaining.inside (key.count + value.count + k) (by omega) m ?_
    rwa [← Nat.add_assoc, ← Nat.add_assoc]
  · intro m found
    refine remaining.outside m ?_
    rwa [counted, ← Nat.add_assoc, ← Nat.add_assoc]

/-- Without a pair there is no child. -/
theorem Remaining.nil {base stop : Nat} {ns : List Node} (remaining : Remaining n base stop ns)
    (none : ∀ key value rest, ns = key :: value :: rest → False) : ns = [] := by
  match ns, remaining.paired, none with
  | [], _, _ => rfl
  | [_], paired, _ => exact absurd paired id
  | key :: value :: rest, _, none => exact absurd rfl (none key value rest)

variable {name : List Byte} {base stop : Nat} {ns : List Node}

/-- No key is the name. -/
theorem memberLoop_absent (of : DocumentOf d n) (remaining : Remaining n base stop ns) {fuel : Nat}
    (enough : ns.length < fuel) (found : Int)
    (others : ∀ e ∈ Node.members base ns, ∃ text, KeyIs e.1 text ∧ text ≠ name) :
    memberLoop d stop name fuel base found = some found := by
  obtain ⟨fuel, rfl⟩ := Nat.exists_eq_add_one_of_ne_zero (Nat.ne_of_gt (Nat.zero_lt_of_lt enough))
  -- By induction on the members that remain.
  induction base, ns using Node.members.induct generalizing fuel with
  | case1 base key value rest ih =>
    rw [Node.members] at others
    obtain ⟨text, is, other⟩ := others _ List.mem_cons_self
    simp only [List.length_cons] at enough
    obtain ⟨fuel, rfl⟩ := Nat.exists_eq_add_one_of_ne_zero (by omega : fuel ≠ 0)
    rw [(memberLoop_pair of remaining.row remaining.paired.1 remaining.inside name _ found).1 text is,
      if_neg fun both => other both.1, if_neg other]
    exact ih remaining.tail (fun e member => others e (List.mem_cons_of_mem _ member)) _ (by omega)
  -- No member remains.
  | case2 base ns none =>
    obtain rfl := remaining.nil none
    exact memberLoop_end of remaining.outside name fuel found

/-- One key is the name. -/
theorem memberLoop_present (of : DocumentOf d n) (remaining : Remaining n base stop ns) {fuel : Nat}
    (enough : ns.length < fuel) {found : Int} (before : found < 0) {front back : List (Node × Nat)}
    {key : Node} {number : Nat} (split : Node.members base ns = front ++ (key, number) :: back)
    (is : KeyIs key name) (others : ∀ e ∈ front ++ back, ∃ text, KeyIs e.1 text ∧ text ≠ name) :
    memberLoop d stop name fuel base found = some number := by
  obtain ⟨fuel, rfl⟩ := Nat.exists_eq_add_one_of_ne_zero (Nat.ne_of_gt (Nat.zero_lt_of_lt enough))
  -- By induction on the members; the one with the name is the first or comes later.
  induction base, ns using Node.members.induct generalizing fuel front with
  | case1 base first value rest ih =>
    simp only [List.length_cons] at enough
    obtain ⟨fuel, rfl⟩ := Nat.exists_eq_add_one_of_ne_zero (by omega : fuel ≠ 0)
    have round := memberLoop_pair of remaining.row remaining.paired.1 remaining.inside name (fuel + 1)
      found
    rw [Node.members] at split
    cases front with
    -- This member has the name, and none behind it does.
    | nil =>
      obtain ⟨same, rfl⟩ := List.cons.inj split
      obtain ⟨rfl, rfl⟩ := Prod.mk.inj same
      rw [round.1 name is, if_neg fun both => absurd both.2 (by omega), if_pos rfl]
      exact memberLoop_absent of remaining.tail (by omega) _ others
    -- This member is another, and the search goes on.
    | cons e front =>
      obtain ⟨rfl, later⟩ := List.cons.inj split
      obtain ⟨text, is', other⟩ := others _ (List.mem_append_left _ List.mem_cons_self)
      rw [round.1 text is', if_neg fun both => other both.1, if_neg other]
      exact ih remaining.tail later (fun e member => others e (List.mem_cons_of_mem _ member)) _
        (by omega)
  | case2 base ns none =>
    obtain rfl := remaining.nil none
    exact absurd split (by simp [Node.members])

/-- A key stands for nothing. -/
theorem memberLoop_undecoded (of : DocumentOf d n) (remaining : Remaining n base stop ns)
    {fuel : Nat} (enough : ns.length < fuel) (found : Int)
    (lost : ∃ e ∈ Node.members base ns, ∀ text, ¬KeyIs e.1 text) :
    memberLoop d stop name fuel base found = some (-2) := by
  obtain ⟨fuel, rfl⟩ := Nat.exists_eq_add_one_of_ne_zero (Nat.ne_of_gt (Nat.zero_lt_of_lt enough))
  -- By induction on the members, one of which does not decode.
  induction base, ns using Node.members.induct generalizing fuel found with
  | case1 base key value rest ih =>
    simp only [List.length_cons] at enough
    obtain ⟨fuel, rfl⟩ := Nat.exists_eq_add_one_of_ne_zero (by omega : fuel ≠ 0)
    have round := memberLoop_pair of remaining.row remaining.paired.1 remaining.inside name (fuel + 1)
      found
    -- This key decodes, so the lost one comes later, unless the name was found twice before.
    by_cases decodes : ∃ text, KeyIs key text
    · obtain ⟨text, is⟩ := decodes
      rw [round.1 text is]
      split
      · rfl
      · obtain ⟨e, member, none⟩ := lost
        rw [Node.members, List.mem_cons] at member
        rcases member with rfl | member
        · exact absurd is (none text)
        · exact ih remaining.tail _ ⟨e, member, none⟩ _ (by omega)
    · exact round.2 fun text is => decodes ⟨text, is⟩
  | case2 base ns none =>
    obtain rfl := remaining.nil none
    exact absurd lost (by simp [Node.members])

/-- One more key is the name. -/
theorem memberLoop_repeated (of : DocumentOf d n) (remaining : Remaining n base stop ns) {fuel : Nat}
    (enough : ns.length < fuel) {found : Int} (before : 0 ≤ found)
    (again : ∃ e ∈ Node.members base ns, KeyIs e.1 name) :
    memberLoop d stop name fuel base found = some (-2) := by
  obtain ⟨fuel, rfl⟩ := Nat.exists_eq_add_one_of_ne_zero (Nat.ne_of_gt (Nat.zero_lt_of_lt enough))
  -- By induction on the members behind the first one that was found.
  induction base, ns using Node.members.induct generalizing fuel found with
  | case1 base key value rest ih =>
    simp only [List.length_cons] at enough
    obtain ⟨fuel, rfl⟩ := Nat.exists_eq_add_one_of_ne_zero (by omega : fuel ≠ 0)
    have round := memberLoop_pair of remaining.row remaining.paired.1 remaining.inside name (fuel + 1)
      found
    by_cases decodes : ∃ text, KeyIs key text
    · obtain ⟨text, is⟩ := decodes
      rw [round.1 text is]
      -- The name again is refused; another name leaves what was found.
      by_cases same : text = name
      · rw [if_pos ⟨same, before⟩]
      · rw [if_neg fun both => same both.1, if_neg same]
        obtain ⟨e, member, is'⟩ := again
        rw [Node.members, List.mem_cons] at member
        rcases member with rfl | member
        · exact absurd (keyIs_unique is is') same
        · exact ih remaining.tail before ⟨e, member, is'⟩ _ (by omega)
    · exact round.2 fun text is => decodes ⟨text, is⟩
  | case2 base ns none =>
    obtain rfl := remaining.nil none
    exact absurd again (by simp [Node.members])

/-- Two keys are the name. -/
theorem memberLoop_twice (of : DocumentOf d n) (remaining : Remaining n base stop ns) {fuel : Nat}
    (enough : ns.length < fuel) (found : Int) {front back : List (Node × Nat)}
    {key : Node} {number : Nat} (split : Node.members base ns = front ++ (key, number) :: back)
    (is : KeyIs key name) (again : ∃ e ∈ back, KeyIs e.1 name) :
    memberLoop d stop name fuel base found = some (-2) := by
  obtain ⟨fuel, rfl⟩ := Nat.exists_eq_add_one_of_ne_zero (Nat.ne_of_gt (Nat.zero_lt_of_lt enough))
  -- By induction on the members up to the first with the name.
  induction base, ns using Node.members.induct generalizing fuel found front with
  | case1 base first value rest ih =>
    simp only [List.length_cons] at enough
    obtain ⟨fuel, rfl⟩ := Nat.exists_eq_add_one_of_ne_zero (by omega : fuel ≠ 0)
    have round := memberLoop_pair of remaining.row remaining.paired.1 remaining.inside name (fuel + 1)
      found
    rw [Node.members] at split
    cases front with
    -- The first one is found here, and again behind it.
    | nil =>
      obtain ⟨same, rfl⟩ := List.cons.inj split
      obtain ⟨rfl, rfl⟩ := Prod.mk.inj same
      rw [round.1 name is]
      by_cases found : 0 ≤ found
      · rw [if_pos ⟨rfl, found⟩]
      · rw [if_neg fun both => found both.2, if_pos rfl]
        refine memberLoop_repeated of remaining.tail ?_ (Int.natCast_nonneg _) again
        omega
    -- The first one comes later.
    | cons e front =>
      obtain ⟨rfl, later⟩ := List.cons.inj split
      by_cases decodes : ∃ text, KeyIs first text
      · obtain ⟨text, is'⟩ := decodes
        rw [round.1 text is']
        split
        · rfl
        · exact ih remaining.tail _ later _ (by omega)
      · exact round.2 fun text is => decodes ⟨text, is⟩
  | case2 base ns none =>
    obtain rfl := remaining.nil none
    exact absurd split (by simp [Node.members])

/-- The members of an object before the loop begins. -/
theorem DocumentOf.remaining (of : DocumentOf d n) {t start : Nat} {children : List Node}
    (found : n.all[t]? = some (.container true start stop children)) :
    Remaining n (t + 1) stop children := by
  have size : (Node.container true start stop children).count = Node.counts children + 1 := rfl
  -- The four fields: the row, the pairs, and where the parts of the object lie.
  refine ⟨inRow_children found, ?_, ?_, ?_⟩
  · obtain ⟨token, listed, -⟩ := of.extent found
    obtain ⟨m, parent, before, s, after, found', -, spells, -⟩ := of.token listed
    obtain rfl := Option.some.inj (found.symm.trans found')
    cases spells with
    | container blank inner => exact inner.paired.1 (Or.inl rfl)
  · intro k inside m member
    exact ((of.ordered t _ _ m found member (by omega)).1 (by omega)).2.1
  · intro m member
    exact (of.ordered t _ _ m found member (by omega)).2 (by omega)

/-- An object's token, and the loop over its members. -/
theorem jsonMember_loop (of : DocumentOf d n) {t start : Nat} {children : List Node}
    (found : n.all[t]? = some (.container true start stop children)) (name : List Byte) :
    jsonMember d t name = memberLoop d stop name (d.tokens.length + 1) (t + 1) (-1) ∧
      children.length < d.tokens.length + 1 := by
  obtain ⟨token, listed, -, ends⟩ := of.extent found
  obtain ⟨m, parent, before, s, after, found', -, -, head, -⟩ := of.token listed
  obtain rfl := Option.some.inj (found.symm.trans found')
  -- The token is that of an object, so the walk begins behind it.
  have at_t : d.token (t : Int) = some token := by
    rw [JsonDocument.token, if_neg (by omega), Int.toNat_natCast]
    exact listed
  have type : token.type = .object := by
    rw [← Option.some.inj head]
    rfl
  constructor
  · rw [jsonMember, at_t]
    dsimp only
    rw [if_neg (not_not_intro type), ends]
    rfl
  · -- The loop has one round for each token, and an object has no more members than tokens.
    have within := Node.all_count n found
    have more := Node.keyss_counts children
    rw [of.length, Node.all_length]
    simp only [Node.count] at within
    omega

/-- `json_member` finds the value of the one member with a name, and none where there is none. -/
theorem jsonMember_cases (of : DocumentOf d n) {t start : Nat} {children : List Node}
    (found : n.all[t]? = some (.container true start stop children)) (name : List Byte) :
    (∀ front key number back, Node.members (t + 1) children = front ++ (key, number) :: back →
        KeyIs key name →
        ((∀ e ∈ front ++ back, ∃ text, KeyIs e.1 text ∧ text ≠ name) →
          jsonMember d t name = some (number : Nat)) ∧
        ((∃ e ∈ back, KeyIs e.1 name) → jsonMember d t name = some (-2))) ∧
      ((∀ e ∈ Node.members (t + 1) children, ∃ text, KeyIs e.1 text ∧ text ≠ name) →
        jsonMember d t name = some (-1)) ∧
      ((∃ e ∈ Node.members (t + 1) children, ∀ text, ¬KeyIs e.1 text) →
        jsonMember d t name = some (-2)) := by
  obtain ⟨loop, enough⟩ := jsonMember_loop of found name
  have remaining := of.remaining found
  rw [loop]
  -- The loop's four outcomes, one for each case of the statement.
  refine ⟨fun front key number back split is => ⟨?_, ?_⟩, ?_, ?_⟩
  · exact memberLoop_present of remaining enough (by decide) split is
  · exact memberLoop_twice of remaining enough (-1) split is
  · exact memberLoop_absent of remaining enough (-1)
  · exact memberLoop_undecoded of remaining enough (-1)

end Walks

end Emu80535
