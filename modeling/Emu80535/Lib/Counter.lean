import Mathlib.Logic.Function.Iterate

/-! Counters that wrap to a reload value. -/

namespace Emu80535

/-- A counter and how often it has wrapped. -/
structure Counter where
  value : Nat
  wraps : Nat
  deriving DecidableEq, Repr

namespace Counter

variable {top reload : Nat}

/-- One step: the value that follows the last one below the top is the reload. -/
def step (top reload : Nat) (c : Counter) : Counter :=
  if c.value + 1 = top then ⟨reload, c.wraps + 1⟩ else ⟨c.value + 1, c.wraps⟩

/-- How far a counter has come, wraps included. -/
def position (top reload : Nat) (c : Counter) : Nat := c.value + (top - reload) * c.wraps

/-- What holds of a counter that started below its top. -/
structure Inside (top reload : Nat) (c : Counter) : Prop where
  below : c.value < top
  above : c.wraps ≠ 0 → reload ≤ c.value

/-- A step stays inside and comes one further. -/
theorem step_inside {c : Counter} (room : reload < top) (inside : Inside top reload c) :
    Inside top reload (step top reload c) ∧
      position top reload (step top reload c) = position top reload c + 1 := by
  have below := inside.below
  have above := inside.above
  simp only [step]
  -- At the top the reload value comes next, and below it the next number.
  split
  · rename_i last
    refine ⟨⟨room, fun _ => Nat.le_refl _⟩, ?_⟩
    simp only [position]
    rw [Nat.mul_add]
    omega
  · rename_i more
    refine ⟨⟨by dsimp only; omega, fun wrapped => Nat.le_succ_of_le (above wrapped)⟩, ?_⟩
    simp only [position]
    omega

/-- Any number of steps does. -/
theorem iterate_inside {c : Counter} (room : reload < top) (inside : Inside top reload c) (n : Nat) :
    Inside top reload ((step top reload)^[n] c) ∧
      position top reload ((step top reload)^[n] c) = position top reload c + n := by
  -- By induction on the number of steps.
  induction n with
  | zero => exact ⟨inside, rfl⟩
  | succ n ih =>
    rw [Function.iterate_succ_apply']
    obtain ⟨still, further⟩ := step_inside room ih.1
    refine ⟨still, further.trans ?_⟩
    rw [ih.2, Nat.add_assoc]

/-- Where a counter stands and how often it has wrapped after n steps from a value. -/
def after (top reload value n : Nat) : Counter :=
  if value + n < top then ⟨value + n, 0⟩
  else ⟨reload + (value + n - top) % (top - reload), 1 + (value + n - top) / (top - reload)⟩

/-- The value is the start plus the steps until the first wrap, and periodic from there. -/
theorem after_value (top reload value n : Nat) :
    (after top reload value n).value =
      if value + n < top then value + n
      else reload + (value + n - top) % (top - reload) := by
  simp only [after]
  split <;> rfl

/-- The steps of a counter have a closed form. -/
theorem iterate_eq {value : Nat} (room : reload < top) (below : value < top) (n : Nat) :
    (step top reload)^[n] ⟨value, 0⟩ = after top reload value n := by
  obtain ⟨⟨under, beyond⟩, further⟩ := iterate_inside (c := ⟨value, 0⟩) room
    ⟨below, fun wrapped => absurd rfl wrapped⟩ n
  generalize (step top reload)^[n] ⟨value, 0⟩ = c at under beyond further
  -- The position determines the value and the wraps, because the value is less than a period wide.
  obtain ⟨stands, wraps⟩ := c
  simp only [position, Nat.mul_zero, Nat.add_zero] at under beyond further
  simp only [after]
  split
  · rename_i early
    have none : wraps = 0 := by
      by_contra wrapped
      have := beyond wrapped
      have : top - reload ≤ (top - reload) * wraps :=
        Nat.le_mul_of_pos_right _ (Nat.pos_of_ne_zero wrapped)
      omega
    rw [none] at further ⊢
    rw [← further]
    simp
  · rename_i late
    have some : wraps ≠ 0 := by
      intro none
      rw [none] at further
      omega
    obtain ⟨before, rfl⟩ := Nat.exists_eq_succ_of_ne_zero some
    have above := beyond some
    have rest : value + n - top = (stands - reload) + (top - reload) * before := by
      rw [Nat.mul_succ] at further
      omega
    have narrow : stands - reload < top - reload := by omega
    rw [rest, Nat.add_mul_mod_self_left, Nat.mod_eq_of_lt narrow,
      Nat.add_mul_div_left _ _ (by omega), Nat.div_eq_of_lt narrow]
    congr 1 <;> omega

/-- Without a reload these are the remainder and the quotient. -/
theorem after_zero (positive : 0 < top) (value n : Nat) :
    after top 0 value n = ⟨(value + n) % top, (value + n) / top⟩ := by
  simp only [after, Nat.sub_zero, Nat.zero_add]
  split
  · rename_i early
    rw [Nat.mod_eq_of_lt early, Nat.div_eq_of_lt early]
  · rename_i late
    have enough : top ≤ value + n := Nat.le_of_not_lt late
    rw [Nat.mod_eq_sub_mod enough, Nat.div_eq_sub_div positive enough, Nat.add_comm 1]

/-- A counter has wrapped as soon as its start and its steps reach the top. -/
theorem after_wraps_pos (top reload value n : Nat) :
    0 < (after top reload value n).wraps ↔ top ≤ value + n := by
  simp only [after]
  split
  · rename_i early
    exact iff_of_false (Nat.lt_irrefl 0) (Nat.not_le_of_lt early)
  · rename_i late
    exact iff_of_true (Nat.add_pos_left Nat.one_pos _) (Nat.le_of_not_lt late)

end Counter

end Emu80535
