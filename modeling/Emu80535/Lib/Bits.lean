import Mathlib.Data.List.Basic

/-! Single-bit masks of bit vectors: testing one, and collecting several. -/

namespace Bits

variable {w : Nat}

/-- A one shifted left has exactly the bit it was shifted to. -/
theorem getLsbD_one_shiftLeft (k n : Nat) :
    (1#w <<< k).getLsbD n = (decide (n < w) && decide (n = k)) := by
  rw [BitVec.getLsbD_shiftLeft]
  -- Outside the width there is no bit; below the shift the bits are zeros.
  by_cases inside : n < w
  · by_cases same : n = k
    · subst same
      have : 0 < w := by omega
      simp [inside, this]
    · by_cases below : n < k
      · simp [below, same]
      · have distance : ¬n - k = 0 := by omega
        simp [inside, below, same, BitVec.getLsbD_one, distance]
  · simp [inside]

/-- A vector meets a single-bit mask exactly when it has that bit. -/
theorem and_one_shiftLeft_eq_zero_iff {x : BitVec w} {k : Nat} (inside : k < w) :
    x &&& 1#w <<< k = 0#w ↔ x.getLsbD k = false := by
  -- The mask has the one bit, so the rest of the vector is of no concern.
  constructor
  · intro disjoint
    have bit := congrArg (fun y : BitVec w => y.getLsbD k) disjoint
    simpa [BitVec.getLsbD_and, getLsbD_one_shiftLeft, inside] using bit
  · intro clear
    apply BitVec.eq_of_getLsbD_eq
    intro n _
    rw [BitVec.getLsbD_and, getLsbD_one_shiftLeft]
    by_cases same : n = k
    · simp [same, clear]
    · simp [same]

variable {α : Type*}

/-- The mask a scan collects has the bits it started with and those of the selected elements. -/
theorem getLsbD_foldl_or (select : α → Bool) (index : α → Nat) (l : List α) (start : BitVec w)
    {n : Nat} (inside : n < w) :
    (l.foldl (fun acc a => if select a then acc ||| 1#w <<< index a else acc) start).getLsbD n =
      (start.getLsbD n || l.any fun a => select a && decide (n = index a)) := by
  -- By induction on the list, the mask collected so far carried along.
  induction l generalizing start with
  | nil => simp
  | cons a l ih =>
    rw [List.foldl_cons, ih, List.any_cons]
    by_cases chosen : select a = true
    · rw [if_pos chosen, BitVec.getLsbD_or, getLsbD_one_shiftLeft, Bool.or_assoc]
      simp [chosen, inside]
    · simp [chosen]

end Bits
