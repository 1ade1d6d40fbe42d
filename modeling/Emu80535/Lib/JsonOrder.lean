import Emu80535.Lib.JsonTree

/-! Nodes in the order in which they begin: where they end, how deep they lie, which are keys. -/

open Computability

namespace JsonGrammar

open Recogniser

namespace Node

/-- Where a node begins, a string behind its quotation mark. -/
def start : Node → Nat
  | string start _ => start
  | primitive start _ => start
  | container _ start _ _ => start

/-- What a node goes up to. -/
def stop : Node → Nat
  | string start raw => start + raw.length
  | primitive start raw => start + raw.length
  | container _ _ stop _ => stop

mutual

/-- What lies inside a node ends within it. -/
theorem all_count (n : Node) {k : Nat} {m : Node} (found : n.all[k]? = some m) :
    k + m.count ≤ n.count := by
  -- A leaf holds itself alone; a container holds itself and what its children hold.
  cases n with
  | string start raw =>
    cases k with
    | zero =>
      obtain rfl := Option.some.inj found
      exact (Nat.zero_add _).le
    | succ k => exact absurd found (by simp [all])
  | primitive start raw =>
    cases k with
    | zero =>
      obtain rfl := Option.some.inj found
      exact (Nat.zero_add _).le
    | succ k => exact absurd found (by simp [all])
  | container object start stop children =>
    cases k with
    | zero =>
      obtain rfl := Option.some.inj found
      exact (Nat.zero_add _).le
    | succ k =>
      have within := alls_count children (by simpa [all] using found)
      rw [count]
      omega

/-- And what lies inside some nodes ends within them. -/
theorem alls_count (ns : List Node) {k : Nat} {m : Node} (found : (alls ns)[k]? = some m) :
    k + m.count ≤ counts ns := by
  cases ns with
  | nil => exact absurd found (by simp [alls])
  | cons n ns =>
    have size := all_length n
    rw [alls] at found
    rw [counts]
    -- In the first node, or in the nodes behind it.
    rcases Nat.lt_or_ge k n.all.length with inside | behind
    · rw [List.getElem?_append_left inside] at found
      have within := all_count n found
      omega
    · rw [List.getElem?_append_right behind] at found
      have within := alls_count ns found
      omega

end

mutual

/-- What lies inside a node comes right behind it. -/
theorem all_segment (n : Node) {k : Nat} {m : Node} (found : n.all[k]? = some m) {j : Nat}
    (inside : j < m.count) : n.all[k + j]? = m.all[j]? := by
  -- By the kind of the node, as before: its own position, or a place below it.
  cases n with
  | string start raw =>
    cases k with
    | zero =>
      obtain rfl := Option.some.inj found
      rw [Nat.zero_add]
    | succ k => exact absurd found (by simp [all])
  | primitive start raw =>
    cases k with
    | zero =>
      obtain rfl := Option.some.inj found
      rw [Nat.zero_add]
    | succ k => exact absurd found (by simp [all])
  | container object start stop children =>
    cases k with
    | zero =>
      obtain rfl := Option.some.inj found
      rw [Nat.zero_add]
    | succ k =>
      have below := alls_segment children (by simpa [all] using found) inside
      rw [← below, all, Nat.add_right_comm, List.getElem?_cons_succ]

/-- What lies inside some nodes comes right behind them. -/
theorem alls_segment (ns : List Node) {k : Nat} {m : Node} (found : (alls ns)[k]? = some m) {j : Nat}
    (inside : j < m.count) : (alls ns)[k + j]? = m.all[j]? := by
  cases ns with
  | nil => exact absurd found (by simp [alls])
  | cons n ns =>
    have size := all_length n
    rw [alls] at found ⊢
    -- In the first node, or in the nodes behind it.
    rcases Nat.lt_or_ge k n.all.length with front | behind
    · rw [List.getElem?_append_left front] at found
      have within := all_count n found
      rw [List.getElem?_append_left (by omega), all_segment n found inside]
    · rw [List.getElem?_append_right behind] at found
      rw [List.getElem?_append_right (by omega), ← alls_segment ns found inside]
      congr 1
      omega

end

end Node

/-! ### Extents -/

/-- Nodes in which each holds those that come next, as many as it has, and ends before all others. -/
def Ordered (ms : List Node) : Prop :=
  ∀ (k j : Nat) (m m' : Node), ms[k]? = some m → ms[j]? = some m' → k < j →
    (j < k + m.count → m.start ≤ m'.start ∧ m'.start < m.stop ∧ m'.stop ≤ m.stop) ∧
      (k + m.count ≤ j → m.stop ≤ m'.start)

/-- One node is in order. -/
theorem ordered_singleton (m : Node) : Ordered [m] := by
  intro k j _ _ first second less
  have one := (List.getElem?_eq_some_iff.mp first).1
  have two := (List.getElem?_eq_some_iff.mp second).1
  rw [List.length_singleton] at one two
  omega

/-- Nodes that lie between two positions, and begin before the second one. -/
def Between (i j : Nat) (ms : List Node) : Prop :=
  ∀ m ∈ ms, i ≤ m.start ∧ m.start < j ∧ m.start ≤ m.stop ∧ m.stop ≤ j

/-- A place that is wider holds as much. -/
theorem Between.mono {i j i' j' : Nat} {ms : List Node} (between : Between i j ms) (front : i' ≤ i)
    (back : j ≤ j') : Between i' j' ms := fun m member => by
  obtain ⟨first, begins, ends, last⟩ := between m member
  omega

/-- What lies in a place together lies in it one after the other. -/
theorem Between.append {i j : Nat} {ms ms' : List Node} (first : Between i j ms)
    (second : Between i j ms') : Between i j (ms ++ ms') := fun m member =>
  (List.mem_append.mp member).elim (first m) (second m)

/-- Nodes of which the first do not reach the others. -/
theorem Ordered.append {ms ms' : List Node} {i j l : Nat} (first : Ordered ms)
    (second : Ordered ms') (before : Between i j ms) (behind : Between j l ms')
    (within : ∀ (k : Nat) (m : Node), ms[k]? = some m → k + m.count ≤ ms.length) :
    Ordered (ms ++ ms') := by
  -- Both nodes in the first part, one in each, or both in the second.
  intro k k' m m' found found' less
  rcases Nat.lt_or_ge k ms.length with inside | outside
  · rw [List.getElem?_append_left inside] at found
    have size := within k m found
    rcases Nat.lt_or_ge k' ms.length with inside' | outside'
    · rw [List.getElem?_append_left inside'] at found'
      exact first k k' m m' found found' less
    · rw [List.getElem?_append_right outside'] at found'
      have one := before m (List.mem_of_getElem? found)
      have two := behind m' (List.mem_of_getElem? found')
      exact ⟨fun near => by omega, fun _ => by omega⟩
  · rw [List.getElem?_append_right outside] at found
    rw [List.getElem?_append_right (by omega)] at found'
    have both := second _ _ m m' found found' (by omega)
    exact ⟨fun near => both.1 (by omega), fun far => both.2 (by omega)⟩

/-- The nodes of a text lie in it, in order. -/
theorem Spells.ordered {part : Part} {i : Nat} {s : List (BitVec 8)} {ns : List Node}
    (spans : Spells part i s ns) (filled : ∀ s ∈ literal + number, s ≠ []) :
    Between i (i + s.length) (Node.alls ns) ∧ Ordered (Node.alls ns) := by
  -- By induction on the spelling, with the bounds and the order proved together.
  induction spans with
  | @string i raw plain =>
    rw [Node.alls, Node.alls, Node.all, List.append_nil]
    refine ⟨fun m member => ?_, ordered_singleton _⟩
    obtain rfl := List.mem_singleton.mp member
    simp only [Node.start, Node.stop, List.length_cons, List.length_append, List.length_nil]
    omega
  | @primitive i raw named =>
    have some := List.length_pos_iff.mpr (filled raw named)
    rw [Node.alls, Node.alls, Node.all, List.append_nil]
    refine ⟨fun m member => ?_, ordered_singleton _⟩
    obtain rfl := List.mem_singleton.mp member
    simp only [Node.start, Node.stop]
    omega
  | @container i object gap s children blank inner ih =>
    obtain ⟨between, ordered⟩ := ih
    rw [Node.alls, Node.alls, Node.all, List.append_nil]
    have size : i + (opening object :: (gap ++ s)).length = i + 1 + gap.length + s.length := by
      rw [List.length_cons, List.length_append]
      omega
    rw [size]
    constructor
    · intro m member
      rcases List.mem_cons.mp member with rfl | member
      · simp only [Node.start, Node.stop]
        omega
      · have bounds := between m member
        omega
    · intro k j m m' found found' less
      obtain ⟨j, rfl⟩ := Nat.exists_eq_add_one_of_ne_zero (Nat.ne_of_gt (Nat.zero_lt_of_lt less))
      rw [List.getElem?_cons_succ] at found'
      cases k with
      | zero =>
        obtain rfl := Option.some.inj found
        have bounds := between m' (List.mem_of_getElem? found')
        have size := (List.getElem?_eq_some_iff.mp found').1
        rw [Node.alls_length] at size
        have begins : (Node.container object i (i + 1 + gap.length + s.length) children).start = i :=
          rfl
        have ends : (Node.container object i (i + 1 + gap.length + s.length) children).stop =
          i + 1 + gap.length + s.length := rfl
        rw [begins, ends, Node.count]
        exact ⟨fun _ => by omega, fun far => by omega⟩
      | succ k =>
        rw [List.getElem?_cons_succ] at found
        have both := ordered k j m m' found found' (by omega)
        exact ⟨fun near => both.1 (by omega), fun far => both.2 (by omega)⟩
  | none =>
    exact ⟨fun m member => absurd member (by simp [Node.alls]), fun k j m m' found => absurd found
      (by simp [Node.alls])⟩
  | @some i object s gap t n ns child key blank more child_ih more_ih =>
    obtain ⟨between, ordered⟩ := child_ih
    obtain ⟨between', ordered'⟩ := more_ih
    rw [Node.alls, Node.alls, List.append_nil] at between ordered
    have size : i + (s ++ (gap ++ t)).length = i + s.length + gap.length + t.length := by
      simp only [List.length_append]
      omega
    rw [size, Node.alls]
    exact ⟨(between.mono (Nat.le_refl _) (by omega)).append (between'.mono (by omega) (Nat.le_refl _)),
      ordered.append ordered' (between.mono (Nat.le_refl _) (by omega : _ ≤ i + s.length + gap.length))
        between' fun k m found => (Node.all_length n).symm ▸ Node.all_count n found⟩
  | close paired =>
    exact ⟨fun m member => absurd member (by simp [Node.alls]), fun k j m m' found => absurd found
      (by simp [Node.alls])⟩
  | @next i object odd gap s gap' t n ns blank child key blank' more child_ih more_ih =>
    obtain ⟨between, ordered⟩ := child_ih
    obtain ⟨between', ordered'⟩ := more_ih
    rw [Node.alls, Node.alls, List.append_nil] at between ordered
    have size : i + (separator object odd :: (gap ++ (s ++ (gap' ++ t)))).length =
        i + 1 + gap.length + s.length + gap'.length + t.length := by
      simp only [List.length_append, List.length_cons]
      omega
    rw [size, Node.alls]
    exact ⟨(between.mono (by omega) (by omega)).append (between'.mono (by omega) (Nat.le_refl _)),
      ordered.append ordered' (between.mono (by omega : i ≤ _)
        (by omega : _ ≤ i + 1 + gap.length + s.length + gap'.length))
        between' fun k m found => (Node.all_length n).symm ▸ Node.all_count n found⟩

/-! ### Levels -/

namespace Node

mutual

/-- How deep each node of `all` lies, the first of them at a given level. -/
def levels (level : Nat) : Node → List Nat
  | string .. => [level]
  | primitive .. => [level]
  | container _ _ _ children => level :: levelss (level + 1) children

/-- The levels of some nodes. -/
def levelss (level : Nat) : List Node → List Nat
  | [] => []
  | n :: ns => n.levels level ++ levelss level ns

end

mutual

/-- A node has one level for each of its nodes. -/
theorem levels_length (level : Nat) (n : Node) : (n.levels level).length = n.count := by
  cases n with
  | string => rfl
  | primitive => rfl
  | container object start stop children =>
    rw [levels, List.length_cons, levelss_length, count]

/-- And so have some nodes. -/
theorem levelss_length (level : Nat) (ns : List Node) : (levelss level ns).length = counts ns := by
  cases ns with
  | nil => rfl
  | cons n ns => rw [levelss, List.length_append, levels_length, levelss_length, counts]

end

mutual

/-- The depth of a node is the level of what lies deepest. -/
theorem levels_le (level bound : Nat) (n : Node) :
    (∀ l ∈ n.levels level, l ≤ bound) ↔ level + n.depth ≤ bound + 1 := by
  -- A leaf is at its own level; a container has its children one level below.
  cases n with
  | string => simp [levels, depth]
  | primitive => simp [levels, depth]
  | container object start stop children =>
    rw [levels, List.forall_mem_cons, levelss_le, depth]
    cases children with
    | nil =>
      simp only [depths, true_or, and_true]
      omega
    | cons n ns =>
      simp only [reduceCtorEq, false_or]
      omega

/-- The depths of some nodes are the levels of what lies deepest in them. -/
theorem levelss_le (level bound : Nat) (ns : List Node) :
    (∀ l ∈ levelss level ns, l ≤ bound) ↔ (ns = [] ∨ level + depths ns ≤ bound + 1) := by
  cases ns with
  | nil => simp [levelss]
  | cons n ns =>
    rw [levelss, List.forall_mem_append, levels_le, levelss_le, depths]
    -- The first node, and those behind it if there are any.
    cases ns with
    | nil =>
      simp only [depths, reduceCtorEq, false_or, true_or, and_true]
      omega
    | cons n' ns =>
      simp only [reduceCtorEq, false_or]
      omega

end

/-! ### Members -/

/-- The text between the quotation marks of a key. -/
def raw : Node → List (BitVec 8)
  | string _ raw => raw
  | _ => []

/-- Keys and values in turn. -/
def Paired : List Node → Prop
  | [] => True
  | [_] => False
  | key :: _ :: rest => key.isString = true ∧ Paired rest

/--
The members of an object by the number of the first key: each key, and the number of its value.
-/
def members : Nat → List Node → List (Node × Nat)
  | base, key :: value :: rest =>
    (key, base + key.count) :: members (base + key.count + value.count) rest
  | _, _ => []

/-- The keys of an object. -/
def keyNodes : List Node → List Node
  | key :: _ :: rest => key :: keyNodes rest
  | _ => []

/-- Half of the children of an object are keys. -/
theorem keyNodes_length (ns : List Node) : (keyNodes ns).length = ns.length / 2 := by
  -- By induction on the pairs of children; fewer than two make no pair.
  induction ns using keyNodes.induct with
  | case1 key value rest ih =>
    rw [keyNodes, List.length_cons, ih, List.length_cons, List.length_cons]
    omega
  | case2 ns none =>
    match ns, none with
    | [], _ => rfl
    | [_], _ => simp [keyNodes]
    | key :: value :: rest, none => exact absurd rfl (none key value rest)

/-- The members of an object are its keys, in order. -/
theorem members_keys (base : Nat) (ns : List Node) :
    (members base ns).map Prod.fst = keyNodes ns := by
  induction base, ns using members.induct with
  | case1 base key value rest ih => rw [members, keyNodes, List.map_cons, ih]
  | case2 ns base none =>
    match ns, none with
    | [], _ => rfl
    | [_], _ => rfl
    | key :: value :: rest, none => exact absurd rfl (none key value rest)

/-- Keys are strings among the children. -/
theorem keyNodes_string {ns : List Node} (paired : Paired ns) :
    ∀ key ∈ keyNodes ns, key ∈ ns ∧ key.isString = true := by
  -- By induction on the pairs of children.
  induction ns using keyNodes.induct with
  | case1 key value rest ih =>
    intro other member
    rw [keyNodes, List.mem_cons] at member
    rcases member with rfl | member
    · exact ⟨List.mem_cons_self, paired.1⟩
    · obtain ⟨inside, string⟩ := ih paired.2 other member
      exact ⟨List.mem_cons_of_mem _ (List.mem_cons_of_mem _ inside), string⟩
  | case2 ns none =>
    intro key member
    match ns, none with
    | [], _ => exact absurd member (by simp [keyNodes])
    | [_], _ => exact absurd member (by simp [keyNodes])
    | key :: value :: rest, none => exact absurd rfl (none key value rest)

mutual

/-- How many keys there are in a node. -/
def keys : Node → Nat
  | string .. => 0
  | primitive .. => 0
  | container object _ _ children => (if object then children.length / 2 else 0) + keyss children

/-- The keys of some nodes. -/
def keyss : List Node → Nat
  | [] => 0
  | n :: ns => n.keys + keyss ns

end

mutual

/-- There are more values than keys. -/
theorem keys_count (n : Node) : 2 * n.keys + 1 ≤ n.count := by
  cases n with
  | string => simp [keys, count]
  | primitive => simp [keys, count]
  | container object start stop children =>
    have more := keyss_counts children
    rw [keys, count]
    split <;> omega

/-- Each key is a node, and its value another one. -/
theorem keyss_counts (ns : List Node) : 2 * keyss ns + ns.length ≤ counts ns := by
  cases ns with
  | nil => exact Nat.le_refl _
  | cons n ns =>
    have one := keys_count n
    have more := keyss_counts ns
    rw [keyss, counts, List.length_cons]
    omega

end

end Node

/-- The children of objects are keys and values. -/
theorem Spells.paired {part : Part} {i : Nat} {s : List (BitVec 8)} {ns : List Node}
    (spans : Spells part i s ns) :
    (part = .first true ∨ part = .rest true false → Node.Paired ns) ∧
      (part = .rest true true → ∃ value rest, ns = value :: rest ∧ Node.Paired rest) := by
  -- By induction on the spelling: keys and values alternate inside an object.
  induction spans with
  | string => simp
  | primitive => simp
  | container => simp
  | none => exact ⟨fun _ => trivial, by simp⟩
  | @some i object s gap t n ns child key blank more child_ih more_ih =>
    refine ⟨fun part => ?_, by simp⟩
    obtain rfl : object = true := by simpa using part
    obtain ⟨value, rest, rfl, paired⟩ := more_ih.2 rfl
    exact ⟨key rfl, paired⟩
  | @close i object odd paired =>
    refine ⟨fun _ => trivial, fun part => ?_⟩
    simp only [Part.rest.injEq] at part
    exact absurd (paired part.1) (by simp [part.2])
  | @next i object odd gap s gap' t n ns blank child key blank' more child_ih more_ih =>
    constructor
    · intro part
      obtain ⟨rfl, rfl⟩ : object = true ∧ odd = false := by simpa using part
      obtain ⟨value, rest, rfl, paired⟩ := more_ih.2 rfl
      exact ⟨key rfl rfl, paired⟩
    · intro part
      obtain ⟨rfl, rfl⟩ : object = true ∧ odd = true := by simpa using part
      exact ⟨n, ns, rfl, more_ih.1 (Or.inr rfl)⟩

end JsonGrammar
