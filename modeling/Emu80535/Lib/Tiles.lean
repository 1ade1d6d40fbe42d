import Mathlib.Data.List.Basic

/-! Lists of sized items that lie end to end. -/

section

variable {α : Type*} (start size : α → Nat)

/-- The items lie end to end, from one position to another. -/
inductive Tiles : Nat → List α → Nat → Prop
  | nil (a : Nat) : Tiles a [] a
  | cons {x : α} {xs : List α} {a b : Nat} (first : start x = a)
      (rest : Tiles (a + size x) xs b) : Tiles a (x :: xs) b

end

namespace Tiles

variable {α : Type*} {start size : α → Nat} {xs ys : List α} {a b c : Nat}

/-- Tilings that meet join. -/
theorem append (first : Tiles start size a xs b) (second : Tiles start size b ys c) :
    Tiles start size a (xs ++ ys) c := by
  induction first with
  | nil => exact second
  | cons here _ ih => exact .cons here (ih second)

/-- Every prefix of a tiling tiles up to somewhere. -/
theorem take (tiles : Tiles start size a xs b) (n : Nat) :
    ∃ mid, Tiles start size a (xs.take n) mid := by
  -- By induction on the tiling, the prefix shortened with it.
  induction tiles generalizing n with
  | nil a => exact ⟨a, by simpa using Tiles.nil a⟩
  | @cons x xs a b first rest ih =>
    cases n with
    | zero => exact ⟨a, .nil a⟩
    | succ n =>
      obtain ⟨mid, shorter⟩ := ih n
      exact ⟨mid, .cons first shorter⟩

/-- The first item starts where the tiling does. -/
theorem start_eq {x : α} (tiles : Tiles start size a (x :: xs) b) : start x = a := by
  cases tiles with
  | cons first _ => exact first

/-- An item that can be read starts where a tiling of the later ones does. -/
theorem drop (tiles : Tiles start size a xs b) {i : Nat} {x : α} (found : xs[i]? = some x) :
    Tiles start size (start x) (xs.drop i) b := by
  -- By induction on the tiling, the place moved with it.
  induction tiles generalizing i with
  | nil a => exact absurd found (by simp)
  | @cons y ys a b first rest ih =>
    cases i with
    | zero =>
      cases found
      rw [first]
      exact .cons first rest
    | succ i => exact ih found

/-- Each item ends where the next one starts. -/
theorem adjacent (tiles : Tiles start size a xs b) {i : Nat} {x y : α} (here : xs[i]? = some x)
    (next : xs[i + 1]? = some y) : start x + size x = start y := by
  have later := tiles.drop here
  -- From the place on, the tiling begins with the two items.
  have shape : xs.drop i = x :: y :: xs.drop (i + 2) := by
    have inside := (List.getElem?_eq_some_iff.mp here)
    have beyond := (List.getElem?_eq_some_iff.mp next)
    rw [List.drop_eq_getElem_cons inside.1, inside.2, List.drop_eq_getElem_cons beyond.1, beyond.2]
  rw [shape] at later
  cases later with
  | cons _ rest => exact rest.start_eq.symm

end Tiles
