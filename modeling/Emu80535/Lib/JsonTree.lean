import Emu80535.Lib.JsonGrammar

/-! Values of the JSON grammar as trees, in a text and without one. -/

open Computability

namespace JsonGrammar

open Recogniser

/-! ### Trees -/

/-- A value without its whitespace: the children of an object are its keys and values in turn. -/
inductive Tree
  | string (raw : List (BitVec 8))
  | primitive (raw : List (BitVec 8))
  | container (object : Bool) (children : List Tree)

mutual

/-- How deep a tree nests. -/
def Tree.depth : Tree → Nat
  | .string _ => 1
  | .primitive _ => 1
  | .container _ children => Tree.depths children + 1

/-- The depth of the deepest of some trees. -/
def Tree.depths : List Tree → Nat
  | [] => 0
  | t :: ts => max t.depth (Tree.depths ts)

end

mutual

/-- How many values and keys a tree has, itself included. -/
def Tree.count : Tree → Nat
  | .string _ => 1
  | .primitive _ => 1
  | .container _ children => Tree.counts children + 1

/-- The nodes of some trees. -/
def Tree.counts : List Tree → Nat
  | [] => 0
  | t :: ts => t.count + Tree.counts ts

end

/-- A value with where it lies in a text. -/
inductive Node
  | string (start : Nat) (raw : List (BitVec 8))
  | primitive (start : Nat) (raw : List (BitVec 8))
  | container (object : Bool) (start stop : Nat) (children : List Node)

namespace Node

/-- Strings alone may be keys. -/
def isString : Node → Bool
  | string .. => true
  | _ => false

mutual

/-- A node without its places. -/
def tree : Node → Tree
  | string _ raw => .string raw
  | primitive _ raw => .primitive raw
  | container object _ _ children => .container object (trees children)

/-- The trees of some nodes. -/
def trees : List Node → List Tree
  | [] => []
  | n :: ns => n.tree :: trees ns

end

mutual

/-- How deep a node nests, a node without children at 1. -/
def depth : Node → Nat
  | string .. => 1
  | primitive .. => 1
  | container _ _ _ children => depths children + 1

/-- The depth of the deepest of some nodes. -/
def depths : List Node → Nat
  | [] => 0
  | n :: ns => max n.depth (depths ns)

end

mutual

/-- How many values and keys a node has, itself included. -/
def count : Node → Nat
  | string .. => 1
  | primitive .. => 1
  | container _ _ _ children => counts children + 1

/-- The nodes some nodes hold. -/
def counts : List Node → Nat
  | [] => 0
  | n :: ns => n.count + counts ns

end

/-- A node holds itself. -/
theorem count_pos (n : Node) : 0 < n.count := by cases n <;> simp [count]

mutual

/-- A node and what lies inside it, in the order in which they begin. -/
def all : Node → List Node
  | string start raw => [string start raw]
  | primitive start raw => [primitive start raw]
  | container object start stop children => container object start stop children :: alls children

/-- The nodes in some nodes, in the order of the text. -/
def alls : List Node → List Node
  | [] => []
  | n :: ns => n.all ++ alls ns

end

mutual

/-- A node lists as many nodes as it holds. -/
theorem all_length (n : Node) : n.all.length = n.count := by
  cases n with
  | string => rfl
  | primitive => rfl
  | container object start stop children =>
    rw [all, List.length_cons, alls_length, count]

/-- And so do some nodes. -/
theorem alls_length (ns : List Node) : (alls ns).length = counts ns := by
  cases ns with
  | nil => rfl
  | cons n ns => rw [alls, List.length_append, all_length, alls_length, counts]

end

/-- Two runs of nodes hold as many as both. -/
theorem counts_append (ns ns' : List Node) : counts (ns ++ ns') = counts ns + counts ns' := by
  induction ns with
  | nil => rw [List.nil_append, counts, Nat.zero_add]
  | cons n ns ih => rw [List.cons_append, counts, ih, counts, Nat.add_assoc]

/-- And list them one behind the other. -/
theorem alls_append (ns ns' : List Node) : alls (ns ++ ns') = alls ns ++ alls ns' := by
  induction ns with
  | nil => rfl
  | cons n ns ih => rw [List.cons_append, alls, ih, alls, List.append_assoc]

mutual

/-- A node is as deep as its tree. -/
theorem tree_depth (n : Node) : n.tree.depth = n.depth := by
  cases n with
  | string => rfl
  | primitive => rfl
  | container object start stop children => rw [tree, Tree.depth, trees_depths, depth]

/-- And so are some nodes. -/
theorem trees_depths (ns : List Node) : Tree.depths (trees ns) = depths ns := by
  cases ns with
  | nil => rfl
  | cons n ns => rw [trees, Tree.depths, tree_depth, trees_depths, depths]

end

mutual

/-- A node holds as many nodes as its tree. -/
theorem tree_count (n : Node) : n.tree.count = n.count := by
  cases n with
  | string => rfl
  | primitive => rfl
  | container object start stop children => rw [tree, Tree.count, trees_counts, count]

/-- And so do some nodes. -/
theorem trees_counts (ns : List Node) : Tree.counts (trees ns) = counts ns := by
  cases ns with
  | nil => rfl
  | cons n ns => rw [trees, Tree.counts, tree_count, trees_counts, counts]

end

mutual

/-- What lies inside a node nests no deeper. -/
theorem depth_of_all (n : Node) {m : Node} (member : m ∈ n.all) : m.depth ≤ n.depth := by
  -- A leaf holds itself alone.
  cases n with
  | string start raw =>
    rw [all, List.mem_singleton] at member
    exact member ▸ Nat.le_refl _
  | primitive start raw =>
    rw [all, List.mem_singleton] at member
    exact member ▸ Nat.le_refl _
  | container object start stop children =>
    rw [all, List.mem_cons] at member
    rcases member with rfl | member
    · exact Nat.le_refl _
    · exact Nat.le_succ_of_le (depth_of_alls children member)

/-- What lies inside some nodes nests no deeper than they do. -/
theorem depth_of_alls (ns : List Node) {m : Node} (member : m ∈ alls ns) :
    m.depth ≤ depths ns := by
  cases ns with
  | nil => exact absurd member (by simp [alls])
  | cons n ns =>
    rw [alls, List.mem_append] at member
    rcases member with member | member
    · exact Nat.le_trans (depth_of_all n member) (Nat.le_max_left _ _)
    · exact Nat.le_trans (depth_of_alls ns member) (Nat.le_max_right _ _)

end

end Node

/-! ### Texts of trees -/

/-- The bracket that opens a container. -/
def opening (object : Bool) : BitVec 8 := if object then objectOpen else arrayOpen

/-- The byte that closes a container. -/
def closing (object : Bool) : BitVec 8 := if object then objectClose else arrayClose

/-- What stands in front of a child behind an odd or an even number of children. -/
def separator (object odd : Bool) : BitVec 8 := if object && odd then ascii ':' else ascii ','

/-- What may stand between the quotation marks of a string. -/
def body : Language (BitVec 8) := (symbols isPlain + char backslash * escaped)∗

/-- The parts of a text that nodes are read from. -/
inductive Part
  | value
  | first (object : Bool)
  | rest (object odd : Bool)

/--
Nodes that lie at a position of a text and make up a part of it: a value, or what stands behind
the bracket that opens a container, or behind a child and the whitespace after it.
-/
inductive Spells : Part → Nat → List (BitVec 8) → List Node → Prop
  | string {i : Nat} {raw : List (BitVec 8)} (plain : raw ∈ body) :
    Spells .value i (quote :: (raw ++ [quote])) [.string (i + 1) raw]
  | primitive {i : Nat} {raw : List (BitVec 8)} (named : raw ∈ literal + number) :
    Spells .value i raw [.primitive i raw]
  | container {i : Nat} {object : Bool} {gap s : List (BitVec 8)} {children : List Node}
    (blank : gap ∈ ws) (inner : Spells (.first object) (i + 1 + gap.length) s children) :
    Spells .value i (opening object :: (gap ++ s))
      [.container object i (i + 1 + gap.length + s.length) children]
  | none {i : Nat} {object : Bool} : Spells (.first object) i [closing object] []
  | some {i : Nat} {object : Bool} {s gap t : List (BitVec 8)} {n : Node} {ns : List Node}
    (child : Spells .value i s [n]) (key : object = true → n.isString = true) (blank : gap ∈ ws)
    (more : Spells (.rest object true) (i + s.length + gap.length) t ns) :
    Spells (.first object) i (s ++ (gap ++ t)) (n :: ns)
  | close {i : Nat} {object odd : Bool} (paired : object = true → odd = false) :
    Spells (.rest object odd) i [closing object] []
  | next {i : Nat} {object odd : Bool} {gap s gap' t : List (BitVec 8)} {n : Node} {ns : List Node}
    (blank : gap ∈ ws) (child : Spells .value (i + 1 + gap.length) s [n])
    (key : object = true → odd = false → n.isString = true) (blank' : gap' ∈ ws)
    (more : Spells (.rest object !odd) (i + 1 + gap.length + s.length + gap'.length) t ns) :
    Spells (.rest object odd) i (separator object odd :: (gap ++ (s ++ (gap' ++ t)))) (n :: ns)

/-- Whatever lies inside some nodes lies in their text. -/
theorem Spells.inside {part : Part} {i : Nat} {s : List (BitVec 8)} {ns : List Node}
    (spans : Spells part i s ns) {m : Node} (member : m ∈ Node.alls ns) :
    ∃ before t after, s = before ++ (t ++ after) ∧ Spells .value (i + before.length) t [m] := by
  -- By induction on the spelling; a node inside is the node itself or inside a part of it.
  induction spans with
  | string plain =>
    obtain rfl := List.mem_singleton.mp (by simpa [Node.alls, Node.all] using member)
    exact ⟨[], _, [], by simp, Spells.string plain⟩
  | primitive named =>
    obtain rfl := List.mem_singleton.mp (by simpa [Node.alls, Node.all] using member)
    exact ⟨[], _, [], by simp, Spells.primitive named⟩
  | @container i object gap s children blank inner ih =>
    simp only [Node.alls, Node.all, List.append_nil, List.mem_cons] at member
    rcases member with rfl | member
    · exact ⟨[], _, [], by simp, Spells.container blank inner⟩
    · obtain ⟨before, t, after, rfl, spans⟩ := ih member
      refine ⟨opening object :: (gap ++ before), t, after, by simp, ?_⟩
      rwa [show i + (opening object :: (gap ++ before)).length = i + 1 + gap.length + before.length
        by simp only [List.length_cons, List.length_append]; omega]
  | none => exact absurd member (by simp [Node.alls])
  | @some i object s gap t n ns child key blank more child_ih more_ih =>
    simp only [Node.alls, List.mem_append] at member
    rcases member with member | member
    · obtain ⟨before, u, after, rfl, spans⟩ := child_ih (by simpa [Node.alls] using member)
      exact ⟨before, u, after ++ (gap ++ t), by simp, spans⟩
    · obtain ⟨before, u, after, rfl, spans⟩ := more_ih member
      refine ⟨s ++ (gap ++ before), u, after, by simp, ?_⟩
      rwa [show i + (s ++ (gap ++ before)).length = i + s.length + gap.length + before.length
        by simp only [List.length_append]; omega]
  | close paired => exact absurd member (by simp [Node.alls])
  | @next i object odd gap s gap' t n ns blank child key blank' more child_ih more_ih =>
    simp only [Node.alls, List.mem_append] at member
    rcases member with member | member
    · obtain ⟨before, u, after, rfl, spans⟩ := child_ih (by simpa [Node.alls] using member)
      refine ⟨separator object odd :: (gap ++ before), u, after ++ (gap' ++ t), by simp, ?_⟩
      rwa [show i + (separator object odd :: (gap ++ before)).length =
        i + 1 + gap.length + before.length by
          simp only [List.length_cons, List.length_append]; omega]
    · obtain ⟨before, u, after, rfl, spans⟩ := more_ih member
      refine ⟨separator object odd :: (gap ++ (s ++ (gap' ++ before))), u, after, by simp, ?_⟩
      rwa [show i + (separator object odd :: (gap ++ (s ++ (gap' ++ before)))).length =
        i + 1 + gap.length + s.length + gap'.length + before.length by
          simp only [List.length_cons, List.length_append]; omega]

/-! ### Strings -/

/-- The text of a string ends, or begins with a character or an escape. -/
theorem body_induction {motive : List (BitVec 8) → Prop} (nil : motive [])
    (plain : ∀ c raw, isPlain c = true → motive raw → motive (c :: raw))
    (short : ∀ c raw, isShortEscape c = true → motive raw → motive (backslash :: c :: raw))
    (hex : ∀ a b c d raw, isHex a = true → isHex b = true → isHex c = true → isHex d = true →
      motive raw → motive (backslash :: ascii 'u' :: a :: b :: c :: d :: raw))
    {raw : List (BitVec 8)} (word : raw ∈ body) : motive raw := by
  obtain ⟨words, rfl, all⟩ := Language.mem_kstar.mp word
  clear word
  -- By induction on the words of the repetition: a plain byte, a short escape or four digits.
  induction words with
  | nil => exact nil
  | cons w words ih =>
    have rest := ih fun y member => all y (List.mem_cons_of_mem _ member)
    rcases (Language.mem_add _ _ _).mp (all w List.mem_cons_self) with ⟨c, printable, rfl⟩ | escape
    · exact plain c _ printable rest
    · obtain ⟨_, ⟨_, rfl', rfl⟩, u, behind, rfl⟩ := Language.mem_mul.mp escape
      obtain rfl := beq_iff_eq.mp rfl'
      rcases (Language.mem_add _ _ _).mp behind with ⟨c, known, rfl⟩ | unicode
      · exact short c _ known rest
      · simp only [char, pow_succ, pow_zero, one_mul, Language.mem_mul, mem_symbols,
          beq_iff_eq] at unicode
        obtain ⟨_, ⟨_, rfl, rfl⟩, _, ⟨_, ⟨_, ⟨_, ⟨a, one, rfl⟩, _, ⟨b, two, rfl⟩, rfl⟩, _,
          ⟨c, three, rfl⟩, rfl⟩, _, ⟨d, four, rfl⟩, rfl⟩, rfl⟩ := unicode
        exact hex a b c d _ one two three four rest

/-! ### From the grammar to trees -/

/-- One more piece in front of a repetition. -/
theorem append_kstar {L C : Language (BitVec 8)} {s t : List (BitVec 8)} (head : s ∈ L)
    (tail : t ∈ L∗ * C) : s ++ t ∈ L∗ * C := by
  obtain ⟨u, star, v, last, rfl⟩ := Language.mem_mul.mp tail
  rw [← List.append_assoc]
  refine Language.append_mem_mul ?_ last
  exact (mul_kstar_le_kstar : L * L∗ ≤ L∗) (Language.append_mem_mul head star)

/-- A string, as its raw text between quotation marks. -/
theorem mem_string {s : List (BitVec 8)} :
    s ∈ string ↔ ∃ raw ∈ body, s = quote :: (raw ++ [quote]) := by
  simp only [string, body, char, Language.mem_mul, mem_symbols, beq_iff_eq]
  constructor
  · rintro ⟨_, ⟨_, rfl, rfl⟩, _, ⟨raw, plain, _, ⟨_, rfl, rfl⟩, rfl⟩, rfl⟩
    exact ⟨raw, plain, rfl⟩
  · rintro ⟨raw, plain, rfl⟩
    exact ⟨_, ⟨_, rfl, rfl⟩, _, ⟨raw, plain, _, ⟨_, rfl, rfl⟩, rfl⟩, rfl⟩

/-- The word of one given byte. -/
theorem mem_char {c : BitVec 8} {s : List (BitVec 8)} : s ∈ char c ↔ s = [c] := by
  simp only [char, mem_symbols, beq_iff_eq, exists_eq_left]

section Trees

variable {levels : Nat}

/-- What every value of so many levels is to have. -/
def Rooted (levels : Nat) : Prop :=
  ∀ s ∈ value levels, ∀ i, ∃ n, Spells .value i s [n] ∧ n.depth ≤ levels

/-- A node is at least one deep. -/
theorem Node.depth_pos (n : Node) : 0 < n.depth := by
  cases n <;> simp [Node.depth]

/-- Items of an array behind the first. -/
theorem rest_array (rooted : Rooted levels) {s : List (BitVec 8)}
    (word : s ∈ (char (ascii ',') * ws * (value levels * ws))∗ * char arrayClose) (odd : Bool)
    (i : Nat) : ∃ ns, Spells (.rest false odd) i s ns ∧ Node.depths ns ≤ levels := by
  obtain ⟨u, star, v, last, rfl⟩ := Language.mem_mul.mp word
  obtain rfl := mem_char.mp last
  obtain ⟨words, rfl, all⟩ := Language.mem_kstar.mp star
  clear word star last
  -- By induction on the repetition; a pair of a comma and an item is one step of the part.
  induction words generalizing odd i with
  | nil => exact ⟨[], Spells.close (by simp), Nat.zero_le _⟩
  | cons w words ih =>
    have item := all w List.mem_cons_self
    simp only [Language.mem_mul] at item
    obtain ⟨_, ⟨_, comma, gap, blank, rfl⟩, _, ⟨s, word, gap', blank', rfl⟩, rfl⟩ := item
    obtain rfl := mem_char.mp comma
    obtain ⟨n, child, deep⟩ := rooted s word (i + 1 + gap.length)
    obtain ⟨ns, more, deep'⟩ := ih (!odd) (i + 1 + gap.length + s.length + gap'.length)
      fun y member => all y (List.mem_cons_of_mem _ member)
    refine ⟨n :: ns, ?_, max_le deep deep'⟩
    have spans := @Spells.next i false odd _ _ _ _ _ _ blank child (by simp) blank' more
    simpa [separator] using spans

/-- A member, as its name, two gaps and its value. -/
theorem mem_member {L : Language (BitVec 8)} {m : List (BitVec 8)} (word : m ∈ member L) :
    ∃ raw ∈ body, ∃ gap ∈ ws, ∃ gap' ∈ ws, ∃ s ∈ L,
      m = quote :: (raw ++ [quote]) ++ (gap ++ ascii ':' :: (gap' ++ s)) := by
  simp only [member, Language.mem_mul] at word
  obtain ⟨name, quoted, _, ⟨gap, blank, _, ⟨_, colon, _, ⟨gap', blank', s, word, rfl⟩, rfl⟩, rfl⟩,
    rfl⟩ := word
  obtain ⟨raw, plain, rfl⟩ := mem_string.mp quoted
  obtain rfl := mem_char.mp colon
  exact ⟨raw, plain, gap, blank, gap', blank', s, word, rfl⟩

/-- The value of a member behind its name, and the members behind it. -/
theorem rest_colon (rooted : Rooted levels) {gap' gap'' s t : List (BitVec 8)}
    (blank : gap' ∈ ws) (word : s ∈ value levels) (blank' : gap'' ∈ ws)
    (more : ∀ i, ∃ ns, Spells (.rest true false) i t ns ∧ Node.depths ns ≤ levels) (i : Nat) :
    ∃ ns, Spells (.rest true true) i (ascii ':' :: (gap' ++ (s ++ (gap'' ++ t)))) ns ∧
      0 < levels ∧ Node.depths ns ≤ levels := by
  obtain ⟨n, child, deep⟩ := rooted s word (i + 1 + gap'.length)
  obtain ⟨ns, more, deep'⟩ := more (i + 1 + gap'.length + s.length + gap''.length)
  exact ⟨n :: ns, @Spells.next i true true _ _ _ _ _ _ blank child (by simp) blank' more,
    n.depth_pos.trans_le deep, max_le deep deep'⟩

/-- Members of an object behind the first. -/
theorem rest_object (rooted : Rooted levels) {s : List (BitVec 8)}
    (word : s ∈ (char (ascii ',') * ws * (member (value levels) * ws))∗ * char objectClose)
    (i : Nat) : ∃ ns, Spells (.rest true false) i s ns ∧ Node.depths ns ≤ levels := by
  obtain ⟨u, star, v, last, rfl⟩ := Language.mem_mul.mp word
  obtain rfl := mem_char.mp last
  obtain ⟨words, rfl, all⟩ := Language.mem_kstar.mp star
  clear word star last
  -- By induction on the repetition; a name, a colon and a value are two steps of the part.
  induction words generalizing i with
  | nil => exact ⟨[], Spells.close (by simp), Nat.zero_le _⟩
  | cons w words ih =>
    have item := all w List.mem_cons_self
    simp only [Language.mem_mul] at item
    obtain ⟨_, ⟨_, comma, gap, blank, rfl⟩, _, ⟨m, named, gap₃, blank₃, rfl⟩, rfl⟩ := item
    obtain rfl := mem_char.mp comma
    obtain ⟨raw, plain, gap₁, blank₁, gap₂, blank₂, s, word, rfl⟩ := mem_member named
    obtain ⟨ns, more, some, deep⟩ := rest_colon rooted blank₂ word blank₃
      (fun i => ih i fun y member => all y (List.mem_cons_of_mem _ member)) _
    refine ⟨.string (i + 1 + gap.length + 1) raw :: ns, ?_, max_le some deep⟩
    have spans := @Spells.next i true false _ _ _ _ _ _ blank (Spells.string plain)
      (fun _ _ => rfl) blank₁ more
    simpa [separator] using spans

/-- A value begins a container where the items behind its bracket do. -/
theorem rooted (levels : Nat) : Rooted levels := by
  -- By induction on the levels; a container spends one of them on what it holds.
  induction levels with
  | zero => exact fun s word => absurd word (Language.notMem_zero s)
  | succ levels ih =>
    intro s word i
    simp only [value, Language.mem_add] at word
    rcases word with (((known | numeric) | quoted) | array) | object
    · exact ⟨_, Spells.primitive ((Language.mem_add _ _ _).mpr (Or.inl known)),
        by simp [Node.depth]⟩
    · exact ⟨_, Spells.primitive ((Language.mem_add _ _ _).mpr (Or.inr numeric)),
        by simp [Node.depth]⟩
    · obtain ⟨raw, plain, rfl⟩ := mem_string.mp quoted
      exact ⟨_, Spells.string plain, by simp [Node.depth]⟩
    · simp only [bracketed, Language.mem_mul (l := ws), Language.mem_mul (l := char _)] at array
      obtain ⟨_, opened, _, ⟨gap, blank, inner, tail, rfl⟩, rfl⟩ := array
      obtain rfl := mem_char.mp opened
      obtain ⟨ns, spans, deep⟩ : ∃ ns, Spells (.first false) (i + 1 + gap.length) inner ns ∧
          Node.depths ns ≤ levels := by
        rcases (Language.mem_add _ _ _).mp tail with closed | items
        · obtain rfl := mem_char.mp closed
          exact ⟨[], Spells.none, Nat.zero_le _⟩
        · rw [mul_assoc, mul_assoc] at items
          obtain ⟨s, word, _, ⟨gap', blank', t, items, rfl⟩, rfl⟩ := items
          obtain ⟨n, child, deep⟩ := ih s word (i + 1 + gap.length)
          obtain ⟨ns, more, deep'⟩ := rest_array ih items true _
          exact ⟨n :: ns, Spells.some child (by simp) blank' more, max_le deep deep'⟩
      have whole := @Spells.container i false _ _ _ blank spans
      exact ⟨_, whole, by simpa [Node.depth] using deep⟩
    · simp only [bracketed, Language.mem_mul (l := ws), Language.mem_mul (l := char _)] at object
      obtain ⟨_, opened, _, ⟨gap, blank, inner, tail, rfl⟩, rfl⟩ := object
      obtain rfl := mem_char.mp opened
      obtain ⟨ns, spans, deep⟩ : ∃ ns, Spells (.first true) (i + 1 + gap.length) inner ns ∧
          Node.depths ns ≤ levels := by
        rcases (Language.mem_add _ _ _).mp tail with closed | items
        · obtain rfl := mem_char.mp closed
          exact ⟨[], Spells.none, Nat.zero_le _⟩
        · rw [mul_assoc, mul_assoc] at items
          obtain ⟨m, named, _, ⟨gap₃, blank₃, t, items, rfl⟩, rfl⟩ := items
          obtain ⟨raw, plain, gap₁, blank₁, gap₂, blank₂, s, word, rfl⟩ := mem_member named
          obtain ⟨ns, more, some, deep⟩ := rest_colon ih blank₂ word blank₃
            (fun i => rest_object ih items i)
            (i + 1 + gap.length + (quote :: (raw ++ [quote])).length + gap₁.length)
          refine ⟨.string (i + 1 + gap.length + 1) raw :: ns, ?_, max_le some deep⟩
          have spans := @Spells.some (i + 1 + gap.length) true _ _ _ _ _ (Spells.string plain)
            (fun _ => rfl) blank₁ more
          simpa using spans
      have whole := @Spells.container i true _ _ _ blank spans
      exact ⟨_, whole, by simpa [Node.depth] using deep⟩

/-! ### From trees to the grammar -/

/-- Members or items behind a comma. -/
def others (item : Language (BitVec 8)) (close : BitVec 8) : Language (BitVec 8) :=
  (char (ascii ',') * ws * (item * ws))∗ * char close

/-- The words of a part whose nodes nest in so many levels. -/
def partWords (levels : Nat) : Part → Language (BitVec 8)
  | .value => value levels
  | .first false => char arrayClose + value levels * (ws * others (value levels) arrayClose)
  | .first true =>
    char objectClose + member (value levels) * (ws * others (member (value levels)) objectClose)
  | .rest false _ => others (value levels) arrayClose
  | .rest true false => others (member (value levels)) objectClose
  | .rest true true =>
    char (ascii ':') * (ws * (value levels * (ws * others (member (value levels)) objectClose)))

/-- A comma and an item in front of the others. -/
theorem others_cons {item : Language (BitVec 8)} {close : BitVec 8} {gap s gap' t : List (BitVec 8)}
    (blank : gap ∈ ws) (word : s ∈ item) (blank' : gap' ∈ ws) (more : t ∈ others item close) :
    ascii ',' :: (gap ++ (s ++ (gap' ++ t))) ∈ others item close := by
  have head : ascii ',' :: (gap ++ (s ++ gap')) ∈ char (ascii ',') * ws * (item * ws) :=
    Language.append_mem_mul (Language.append_mem_mul (mem_char.mpr rfl) blank)
      (Language.append_mem_mul word blank')
  have all := append_kstar head more
  simpa [others] using all

/-- The closing byte alone. -/
theorem others_nil {item : Language (BitVec 8)} {close : BitVec 8} : [close] ∈ others item close :=
  Language.append_mem_mul (Language.nil_mem_kstar _) (mem_char.mpr rfl)

/-- Behind the name of a member come a colon and its value. -/
theorem member_of_colon {levels : Nat} {n : Node} {i : Nat} {s gap t : List (BitVec 8)}
    (child : Spells .value i s [n]) (key : n.isString = true) (blank : gap ∈ ws)
    (more : t ∈ partWords levels (.rest true true)) :
    ∃ m ∈ member (value levels), ∃ gap' ∈ ws, ∃ u ∈ others (member (value levels)) objectClose,
      s ++ (gap ++ t) = m ++ (gap' ++ u) := by
  -- Only a string can be a name, so the child is one.
  cases child with
  | string plain =>
    rename_i raw
    simp only [partWords, Language.mem_mul] at more
    obtain ⟨_, colon, _, ⟨gap₂, blank₂, _, ⟨v, word, _, ⟨gap₃, blank₃, u, others, rfl⟩, rfl⟩, rfl⟩,
      rfl⟩ := more
    refine ⟨quote :: (raw ++ [quote]) ++ (gap ++ ([ascii ':'] ++ (gap₂ ++ v))),
      Language.append_mem_mul (mem_string.mpr ⟨raw, plain, rfl⟩) (Language.append_mem_mul blank
        (Language.append_mem_mul (mem_char.mpr rfl) (Language.append_mem_mul blank₂ word))),
      gap₃, blank₃, u, others, ?_⟩
    rw [mem_char.mp colon]
    simp only [List.append_assoc]
  | primitive => exact absurd key (by simp [Node.isString])
  | container => exact absurd key (by simp [Node.isString])

/-- The first node and the others nest within the levels, and there is at least one. -/
theorem Node.depths_cons {n : Node} {ns : List Node} {levels : Nat}
    (deep : Node.depths (n :: ns) ≤ levels) :
    Node.depths [n] ≤ levels ∧ Node.depths ns ≤ levels ∧ 0 < levels :=
  ⟨max_le (le_of_max_le_left deep) (Nat.zero_le _), le_of_max_le_right deep,
    n.depth_pos.trans_le (le_of_max_le_left deep)⟩

/-- What nodes make up is in the grammar, by the levels they nest in. -/
theorem words_of_spans {part : Part} {i : Nat} {s : List (BitVec 8)} {ns : List Node}
    (spans : Spells part i s ns) {levels : Nat} (deep : Node.depths ns ≤ levels) :
    s ∈ partWords levels part := by
  -- By induction on the spelling, one alternative of the grammar for each way to spell.
  induction spans generalizing levels with
  | string plain =>
    obtain ⟨levels, rfl⟩ := Nat.exists_eq_succ_of_ne_zero (Node.depths_cons deep).2.2.ne'
    simp only [partWords, value, Language.mem_add]
    exact Or.inl (Or.inl (Or.inr (mem_string.mpr ⟨_, plain, rfl⟩)))
  | primitive named =>
    obtain ⟨levels, rfl⟩ := Nat.exists_eq_succ_of_ne_zero (Node.depths_cons deep).2.2.ne'
    simp only [partWords, value, Language.mem_add]
    exact Or.inl (Or.inl (Or.inl ((Language.mem_add _ _ _).mp named)))
  | @container i object gap s children blank inner ih =>
    obtain ⟨levels, rfl⟩ := Nat.exists_eq_succ_of_ne_zero (Node.depths_cons deep).2.2.ne'
    have below : Node.depths children ≤ levels :=
      Nat.le_of_succ_le_succ (le_of_max_le_left deep)
    simp only [partWords, value, Language.mem_add]
    cases object
    · refine Or.inl (Or.inr ?_)
      have items := ih below
      rw [partWords, others, ← mul_assoc, ← mul_assoc] at items
      exact Language.append_mem_mul (mem_char.mpr rfl) (Language.append_mem_mul blank items)
    · refine Or.inr ?_
      have items := ih below
      rw [partWords, others, ← mul_assoc, ← mul_assoc] at items
      exact Language.append_mem_mul (mem_char.mpr rfl) (Language.append_mem_mul blank items)
  | @none i object =>
    cases object <;> exact (Language.mem_add _ _ _).mpr (Or.inl (mem_char.mpr rfl))
  | @some i object s gap t n ns child key blank more child_ih more_ih =>
    obtain ⟨one, others, -⟩ := Node.depths_cons deep
    cases object
    · exact (Language.mem_add _ _ _).mpr (Or.inr (Language.append_mem_mul (child_ih one)
        (Language.append_mem_mul blank (more_ih others))))
    · obtain ⟨m, word, gap', blank', u, members, same⟩ :=
        member_of_colon child (key rfl) blank (more_ih others)
      rw [same]
      exact (Language.mem_add _ _ _).mpr (Or.inr (Language.append_mem_mul word
        (Language.append_mem_mul blank' members)))
  | @close i object odd paired =>
    cases object
    · exact others_nil
    · rw [paired rfl]
      exact others_nil
  | @next i object odd gap s gap' t n ns blank child key blank' more child_ih more_ih =>
    obtain ⟨one, others, -⟩ := Node.depths_cons deep
    cases object
    · exact others_cons blank (child_ih one) blank' (more_ih others)
    · cases odd
      · obtain ⟨m, word, gap', blank', u, members, same⟩ :=
          member_of_colon child (key rfl rfl) blank' (more_ih others)
        rw [same]
        exact others_cons blank word blank' members
      · exact Language.append_mem_mul (mem_char.mpr rfl) (Language.append_mem_mul blank
          (Language.append_mem_mul (child_ih one) (Language.append_mem_mul blank'
            (more_ih others))))

/-- The values of so many levels are what single nodes of so many levels make up. -/
theorem mem_value {s : List (BitVec 8)} (i : Nat) :
    s ∈ value levels ↔ ∃ n, Spells .value i s [n] ∧ n.depth ≤ levels :=
  ⟨fun word => rooted levels s word i,
    fun ⟨_, spans, deep⟩ => words_of_spans spans (max_le deep (Nat.zero_le _))⟩

/-! ### Texts without whitespace -/

mutual

/-- A tree as a text without whitespace. -/
def Tree.dense : Tree → List (BitVec 8)
  | .string raw => quote :: (raw ++ [quote])
  | .primitive raw => raw
  | .container object children => opening object :: Tree.denseFirst object children

/-- The children of a container behind its bracket. -/
def Tree.denseFirst (object : Bool) : List Tree → List (BitVec 8)
  | [] => [closing object]
  | t :: ts => t.dense ++ Tree.denseRest object true ts

/-- The children of a container behind some of them. -/
def Tree.denseRest (object odd : Bool) : List Tree → List (BitVec 8)
  | [] => [closing object]
  | t :: ts => separator object odd :: (t.dense ++ Tree.denseRest object (!odd) ts)

end

/-- A part as a text without whitespace. -/
def Part.dense (ts : List Tree) : Part → List (BitVec 8)
  | .value => ts.flatMap Tree.dense
  | .first object => Tree.denseFirst object ts
  | .rest object odd => Tree.denseRest object odd ts

/-- No whitespace is whitespace. -/
theorem ws_nil : ([] : List (BitVec 8)) ∈ ws := Language.nil_mem_kstar _

/-- The dense text of a value. -/
theorem Part.dense_value (t : Tree) : Part.value.dense [t] = t.dense := by
  simp [Part.dense]

/-- The dense text behind an opening bracket. -/
theorem Part.dense_first (object : Bool) (ts : List Tree) :
    (Part.first object).dense ts = Tree.denseFirst object ts := rfl

/-- The dense text behind an item. -/
theorem Part.dense_rest (object odd : Bool) (ts : List Tree) :
    (Part.rest object odd).dense ts = Tree.denseRest object odd ts := rfl

/-- The nodes of one tree are one node. -/
theorem Node.trees_singleton {ns : List Node} {t : Tree} (same : Node.trees ns = [t]) :
    ∃ n, ns = [n] ∧ n.tree = t := by
  cases ns with
  | nil => exact absurd same (by simp [Node.trees])
  | cons n ns =>
    cases ns with
    | nil => exact ⟨n, rfl, (List.cons.inj same).1⟩
    | cons n' ns => exact absurd same (by simp [Node.trees])

/-- A node is a string when its tree says so. -/
theorem Node.isString_tree {n n' : Node} (same : n'.tree = n.tree) : n'.isString = n.isString := by
  cases n <;> cases n' <;> first | rfl | exact absurd same (by simp [Node.tree])

/-- Without its whitespace a part has the same trees. -/
theorem Spells.dense {part : Part} {i : Nat} {s : List (BitVec 8)} {ns : List Node}
    (spans : Spells part i s ns) (j : Nat) :
    ∃ ns', Spells part j (part.dense (Node.trees ns)) ns' ∧ Node.trees ns' = Node.trees ns := by
  -- By induction on the spelling, with every gap made empty.
  induction spans generalizing j with
  | @string i raw plain =>
    refine ⟨[.string (j + 1) raw], ?_, rfl⟩
    simp only [Node.trees, Part.dense_value]
    exact Spells.string plain
  | @primitive i raw named =>
    refine ⟨[.primitive j raw], ?_, rfl⟩
    simp only [Node.trees, Part.dense_value]
    exact Spells.primitive named
  | @container i object gap s children blank inner ih =>
    obtain ⟨ns', spans, same⟩ := ih (j + 1)
    have whole := @Spells.container j object [] _ _ ws_nil spans
    simp only [Node.trees, Node.tree, Part.dense_value, Tree.dense]
    exact ⟨_, whole, by simp only [Node.trees, Node.tree, same]⟩
  | none => exact ⟨[], Spells.none, rfl⟩
  | @some i object s gap t n ns child key blank more child_ih more_ih =>
    obtain ⟨one, spans, same⟩ := child_ih j
    obtain ⟨n', rfl, alike⟩ := Node.trees_singleton same
    simp only [Node.trees, Part.dense_value] at spans
    obtain ⟨ns', more, same'⟩ := more_ih (j + n.tree.dense.length)
    refine ⟨n' :: ns', ?_, by simp only [Node.trees, alike, same']⟩
    exact Spells.some spans (fun object => (Node.isString_tree alike).trans (key object)) ws_nil more
  | close paired => exact ⟨[], Spells.close paired, rfl⟩
  | @next i object odd gap s gap' t n ns blank child key blank' more child_ih more_ih =>
    obtain ⟨one, spans, same⟩ := child_ih (j + 1)
    obtain ⟨n', rfl, alike⟩ := Node.trees_singleton same
    simp only [Node.trees, Part.dense_value] at spans
    obtain ⟨ns', more, same'⟩ := more_ih (j + 1 + n.tree.dense.length)
    refine ⟨n' :: ns', ?_, by simp only [Node.trees, alike, same']⟩
    exact Spells.next ws_nil spans
      (fun object odd => (Node.isString_tree alike).trans (key object odd)) ws_nil more

/-- Only whitespace is left out. -/
theorem Spells.sublist {part : Part} {i : Nat} {s : List (BitVec 8)} {ns : List Node}
    (spans : Spells part i s ns) : (part.dense (Node.trees ns)).Sublist s := by
  -- By induction on the spelling; a gap is what the dense text leaves out.
  induction spans with
  | string plain =>
    simp only [Node.trees, Part.dense_value]
    exact List.Sublist.refl _
  | primitive named =>
    simp only [Node.trees, Part.dense_value]
    exact List.Sublist.refl _
  | container blank inner ih =>
    simp only [Node.trees, Node.tree, Part.dense_value, Tree.dense]
    exact (ih.trans (List.sublist_append_right _ _)).cons_cons _
  | none => exact List.Sublist.refl _
  | @some i object s gap t n ns child key blank more child_ih more_ih =>
    simp only [Node.trees, Part.dense_value] at child_ih
    exact child_ih.append (more_ih.trans (List.sublist_append_right _ _))
  | close paired => exact List.Sublist.refl _
  | @next i object odd gap s gap' t n ns blank child key blank' more child_ih more_ih =>
    simp only [Node.trees, Part.dense_value] at child_ih
    exact ((child_ih.append (more_ih.trans (List.sublist_append_right _ _))).trans
      (List.sublist_append_right _ _)).cons_cons _

/-- A position between the quotation marks of a string of some nodes. -/
def Quoted (ns : List Node) (k : Nat) : Prop :=
  ∃ start raw, Node.string start raw ∈ Node.alls ns ∧ start ≤ k ∧ k < start + raw.length

/-- The blanks of a text lie at some positions only. -/
def BlankIn (inside : Nat → Prop) (i : Nat) (s : List (BitVec 8)) : Prop :=
  ∀ k c, s[k]? = some c → isBlank c = true → inside (i + k)

/-- Blanks inside fewer places are inside more. -/
theorem BlankIn.mono {inside inside' : Nat → Prop} {i : Nat} {s : List (BitVec 8)}
    (blanks : BlankIn inside i s) (more : ∀ k, inside k → inside' k) : BlankIn inside' i s :=
  fun k c found blank => more _ (blanks k c found blank)

/-- Two parts, one behind the other. -/
theorem BlankIn.append {inside : Nat → Prop} {i : Nat} {s t : List (BitVec 8)}
    (first : BlankIn inside i s) (second : BlankIn inside (i + s.length) t) :
    BlankIn inside i (s ++ t) := by
  intro k c found blank
  -- In the first part, or in the one behind it.
  rcases Nat.lt_or_ge k s.length with before | behind
  · rw [List.getElem?_append_left before] at found
    exact first k c found blank
  · rw [List.getElem?_append_right behind] at found
    have later := second _ c found blank
    rwa [show i + s.length + (k - s.length) = i + k by omega] at later

/-- A part without blanks. -/
theorem BlankIn.none {inside : Nat → Prop} {i : Nat} {s : List (BitVec 8)}
    (other : ∀ c ∈ s, isBlank c = false) : BlankIn inside i s := by
  intro k c found blank
  rw [other c (List.mem_of_getElem? found)] at blank
  exact absurd blank Bool.false_ne_true

/-- A byte that is no blank, and a part behind it. -/
theorem BlankIn.cons {inside : Nat → Prop} {i : Nat} {c : BitVec 8} {s : List (BitVec 8)}
    (other : isBlank c = false) (rest : BlankIn inside (i + 1) s) : BlankIn inside i (c :: s) :=
  BlankIn.append (s := [c]) (BlankIn.none fun _ member => List.mem_singleton.mp member ▸ other) rest

/-- A text as short as its trees allow has blanks in its strings only. -/
theorem Spells.tight {part : Part} {i : Nat} {s : List (BitVec 8)} {ns : List Node}
    (spans : Spells part i s ns) (bare : ∀ s ∈ literal + number, ∀ c ∈ s, isBlank c = false)
    (short : s.length = (part.dense (Node.trees ns)).length) : BlankIn (Quoted ns) i s := by
  have brackets (object : Bool) : isBlank (closing object) = false := by cases object <;> decide
  have between (object odd : Bool) : isBlank (separator object odd) = false := by
    cases object <;> cases odd <;> decide
  have here {n : Node} {ns : List Node} (k : Nat) (quoted : Quoted [n] k) : Quoted (n :: ns) k := by
    obtain ⟨start, raw, member, within⟩ := quoted
    simp only [Node.alls, List.append_nil] at member
    exact ⟨start, raw, List.mem_append_left _ member, within⟩
  have later {n : Node} {ns : List Node} (k : Nat) (quoted : Quoted ns k) : Quoted (n :: ns) k := by
    obtain ⟨start, raw, member, within⟩ := quoted
    exact ⟨start, raw, List.mem_append_right _ member, within⟩
  -- In each case the lengths leave no room for whitespace.
  induction spans with
  | @string i raw plain =>
    refine BlankIn.cons (by decide) (BlankIn.append ?_ (BlankIn.none (by decide)))
    intro k c found blank
    refine ⟨i + 1, raw, by simp [Node.alls, Node.all], by omega, ?_⟩
    have inside := (List.getElem?_eq_some_iff.mp found).1
    omega
  | primitive named => exact BlankIn.none (bare _ named)
  | @container i object gap s children blank inner ih =>
    have least := inner.sublist.length_le
    simp only [Node.trees, Node.tree, Part.dense_value, Part.dense_first, Tree.dense,
      List.length_cons, List.length_append] at short least ih
    obtain rfl := List.length_eq_zero_iff.mp (by omega : gap.length = 0)
    refine BlankIn.cons (by cases object <;> decide) ((ih (by omega)).mono fun k quoted => ?_)
    obtain ⟨start, raw, member, within⟩ := quoted
    exact ⟨start, raw, by simp [Node.alls, Node.all, member], within⟩
  | none => exact BlankIn.none fun c member => List.mem_singleton.mp member ▸ brackets _
  | @some i object s gap t n ns child key blank more child_ih more_ih =>
    have least := child.sublist.length_le
    have least' := more.sublist.length_le
    simp only [Node.trees, Part.dense_value, Part.dense_first, Part.dense_rest, Tree.denseFirst,
      List.length_append] at short least least' child_ih more_ih
    obtain rfl := List.length_eq_zero_iff.mp (by omega : gap.length = 0)
    exact BlankIn.append ((child_ih (by omega)).mono here) ((more_ih (by omega)).mono later)
  | close paired => exact BlankIn.none fun c member => List.mem_singleton.mp member ▸ brackets _
  | @next i object odd gap s gap' t n ns blank child key blank' more child_ih more_ih =>
    have least := child.sublist.length_le
    have least' := more.sublist.length_le
    simp only [Node.trees, Part.dense_value, Part.dense_rest, Tree.denseRest, List.length_append,
      List.length_cons] at short least least' child_ih more_ih
    obtain rfl := List.length_eq_zero_iff.mp (by omega : gap.length = 0)
    obtain rfl := List.length_eq_zero_iff.mp (by omega : gap'.length = 0)
    exact BlankIn.cons (between object odd) (BlankIn.append (s := s)
      ((child_ih (by omega)).mono here) ((more_ih (by omega)).mono later))

end Trees

end JsonGrammar
