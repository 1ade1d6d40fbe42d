import Mathlib.Data.List.Basic

/-! A stream cut into the frames that a separator ends. -/

namespace Frames

variable {α : Type*} (stop : α)

/-- Frames as they are sent, each with the separator that ends it. -/
def joined (fs : List (List α)) : List α := fs.flatMap fun f => f ++ [stop]

section Joined

variable {stop} {fs gs : List (List α)}

/-- Two runs of frames are joined one behind the other. -/
theorem joined_append : joined stop (fs ++ gs) = joined stop fs ++ joined stop gs :=
  List.flatMap_append

/-- One more frame is joined behind the others. -/
theorem joined_concat {f : List α} : joined stop (fs ++ [f]) = joined stop fs ++ (f ++ [stop]) := by
  rw [joined_append]
  exact congrArg _ (List.append_nil _)

end Joined

variable [DecidableEq α]

/-- The frames a separator ends, without it, and what comes after the last one. -/
def cut : List α → List (List α) × List α
  | [] => ([], [])
  | c :: s =>
    if c = stop then ([] :: (cut s).1, (cut s).2)
    else
      match (cut s).1 with
      | [] => ([], c :: (cut s).2)
      | f :: fs => ((c :: f) :: fs, (cut s).2)

/-- The frames of a stream. -/
def ended (s : List α) : List (List α) := (cut stop s).1

variable {stop} {s u : List α} {fs : List (List α)}

end Frames
