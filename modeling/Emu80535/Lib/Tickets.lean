import Mathlib.Data.List.Basic

/-!
Queues whose entries hold ascending tickets, cut by a barrier.

Entries up to the barrier stand before those behind it, whatever joins or leaves the queue.
-/

namespace Tickets

variable {α : Type*} (ticket : α → Nat) (barrier : Nat)

/-- Each entry holds a greater ticket than those before it. -/
def Ascending (queue : List α) : Prop := queue.Pairwise fun a b => ticket a < ticket b

/-- The entries up to the barrier. -/
def upTo (queue : List α) : List α := queue.filter fun a => decide (ticket a ≤ barrier)

/-- The entries behind it. -/
def behind (queue : List α) : List α := queue.filter fun a => decide (barrier < ticket a)

variable {ticket barrier} {queue : List α} {a : α}

/-- A barrier no entry has reached is behind the whole queue. -/
theorem upTo_all (all : ∀ a ∈ queue, ticket a ≤ barrier) : upTo ticket barrier queue = queue :=
  List.filter_eq_self.mpr fun a member => decide_eq_true (all a member)

/-- Nothing of it is behind the barrier. -/
theorem behind_none (all : ∀ a ∈ queue, ticket a ≤ barrier) : behind ticket barrier queue = [] :=
  List.filter_eq_nil_iff.mpr fun a member => by
    simpa using all a member

/-- A barrier every entry has passed is before the whole queue. -/
theorem upTo_none (all : ∀ a ∈ queue, barrier < ticket a) : upTo ticket barrier queue = [] :=
  List.filter_eq_nil_iff.mpr fun a member => by
    simpa using all a member

/-- All of it is behind the barrier. -/
theorem behind_all (all : ∀ a ∈ queue, barrier < ticket a) : behind ticket barrier queue = queue :=
  List.filter_eq_self.mpr fun a member => decide_eq_true (all a member)

/-- An entry that joins behind the barrier leaves those before it alone. -/
theorem upTo_joined (later : barrier < ticket a) :
    upTo ticket barrier (queue ++ [a]) = upTo ticket barrier queue := by
  have passed : ¬ticket a ≤ barrier := by omega
  simp [upTo, passed]

/-- It comes last of those behind it. -/
theorem behind_joined (later : barrier < ticket a) :
    behind ticket barrier (queue ++ [a]) = behind ticket barrier queue ++ [a] := by
  simp [behind, later]

/-- The head comes first of those up to the barrier. -/
theorem upTo_head (due : ticket a ≤ barrier) :
    upTo ticket barrier (a :: queue) = a :: upTo ticket barrier queue := by
  simp [upTo, due]

/-- It is not behind it. -/
theorem behind_head (due : ticket a ≤ barrier) :
    behind ticket barrier (a :: queue) = behind ticket barrier queue := by
  have before : ¬barrier < ticket a := by omega
  simp [behind, before]

/-- Behind a head that has passed the barrier everything has. -/
theorem Ascending.passed (ascending : Ascending ticket (a :: queue)) (later : barrier < ticket a) :
    ∀ b ∈ a :: queue, barrier < ticket b := by
  intro b member
  rcases List.mem_cons.mp member with rfl | member
  · exact later
  · exact Nat.lt_trans later (List.rel_of_pairwise_cons ascending member)

/-- An entry with a greater ticket than all may join. -/
theorem Ascending.joined (ascending : Ascending ticket queue)
    (greatest : ∀ b ∈ queue, ticket b < ticket a) : Ascending ticket (queue ++ [a]) := by
  refine List.pairwise_append.mpr ⟨ascending, List.pairwise_singleton _ a, ?_⟩
  intro b member c last
  rw [List.mem_singleton.mp last]
  exact greatest b member

/-- The head may leave. -/
theorem Ascending.tail (ascending : Ascending ticket (a :: queue)) : Ascending ticket queue :=
  (List.pairwise_cons.mp ascending).2

end Tickets
