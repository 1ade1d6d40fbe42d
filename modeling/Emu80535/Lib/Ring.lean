import Mathlib.Data.List.Range
import Mathlib.Data.Nat.ModEq
import Mathlib.Logic.Function.Basic

/-! A ring buffer over an unbounded array of slots, read as the list of its contents. -/

namespace Ring

variable {α : Type*} {capacity head count : Nat} {slots : Nat → α}

/-- The contents of a ring, oldest first. -/
def contents (capacity : Nat) (slots : Nat → α) (head count : Nat) : List α :=
  -- Entries lie at consecutive distances from the head, modulo the capacity.
  (List.range count).map fun offset => slots ((head + offset) % capacity)

@[simp] theorem contents_zero : contents capacity slots head 0 = [] := rfl

@[simp] theorem length_contents : (contents capacity slots head count).length = count := by
  simp [contents]

/-- Writing behind the last entry of a ring that is not full appends to its contents. -/
theorem contents_push (x : α) (room : count < capacity) :
    contents capacity (Function.update slots ((head + count) % capacity) x) head (count + 1) =
      contents capacity slots head count ++ [x] := by
  -- No entry is a whole turn away from the new one, so none is overwritten.
  have apart : ∀ offset ∈ List.range count,
      Function.update slots ((head + count) % capacity) x ((head + offset) % capacity) =
        slots ((head + offset) % capacity) := by
    intro offset member
    have before := List.mem_range.mp member
    refine Function.update_of_ne (fun same => ?_) _ _
    have turn : (head + offset) ≡ (head + count) [MOD capacity] := same
    have equal : offset = count :=
      Nat.ModEq.eq_of_lt_of_lt (Nat.ModEq.add_left_cancel' head turn) (by omega) room
    omega
  rw [contents, List.range_succ, List.map_append, List.map_singleton, Function.update_self]
  exact congrArg (· ++ [x]) (List.map_congr_left apart)

/-- Moving the head past the oldest entry takes it off the contents. -/
theorem contents_pop (inside : head < capacity) (some : count ≠ 0) :
    contents capacity slots head count =
      slots head :: contents capacity slots ((head + 1) % capacity) (count - 1) := by
  obtain ⟨rest, rfl⟩ := Nat.exists_eq_succ_of_ne_zero some
  have first : slots ((head + 0) % capacity) = slots head := by
    rw [Nat.add_zero, Nat.mod_eq_of_lt inside]
  -- The offsets behind the first are those from the next slot.
  have shift : ∀ offset, slots ((head + (offset + 1)) % capacity) =
      slots (((head + 1) % capacity + offset) % capacity) := by
    intro offset
    rw [Nat.mod_add_mod]
    congr 2
    omega
  rw [contents, List.range_succ_eq_map, List.map_cons, List.map_map, first]
  exact congrArg (slots head :: ·) (List.map_congr_left fun offset _ => shift offset)

/-- The last entry of a ring that is not empty. -/
theorem getLast?_contents (some : count ≠ 0) :
    (contents capacity slots head count).getLast? =
      .some (slots ((head + (count - 1)) % capacity)) := by
  obtain ⟨rest, rfl⟩ := Nat.exists_eq_succ_of_ne_zero some
  rw [contents, List.range_succ, List.map_append, List.map_singleton, List.getLast?_concat]
  rfl

end Ring
