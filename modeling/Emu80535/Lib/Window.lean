import Mathlib.Data.List.Basic
import Mathlib.Data.List.Range

/-! A history that only grows while its oldest entries are forgotten, and the pages read of it. -/

/-- Everything that was ever recorded, and how much of it is gone. -/
structure Window (α : Type*) where
  history : List α
  lost : Nat

namespace Window

variable {α : Type*} {v w x : Window α}

/-- One more entry is recorded. -/
def push (w : Window α) (entry : α) : Window α := { w with history := w.history ++ [entry] }

/-- One more of the oldest entries is gone. -/
def forget (w : Window α) : Window α := { w with lost := w.lost + 1 }

/-- A later window records more and has forgotten more. -/
structure Extends (v w : Window α) : Prop where
  history : v.history <+: w.history
  lost : v.lost ≤ w.lost

/-- What a reader is given: the entries, and how many are missing before them. -/
structure Page (α : Type*) where
  lost : Nat
  entries : List α

/-- The page behind a cursor. -/
def page (w : Window α) (cursor limit : Nat) : Page α where
  lost := w.lost - cursor
  entries := (w.history.drop (max cursor w.lost)).take limit

/-- Where the next page begins. -/
def Page.next (p : Page α) (cursor : Nat) : Nat :=
  if p.entries = [] then cursor else cursor + p.lost + p.entries.length

/-- The entries of a page are those of the history at consecutive positions. -/
theorem page_getElem? (w : Window α) (cursor limit i : Nat)
    (within : i < (w.page cursor limit).entries.length) :
    (w.page cursor limit).entries[i]? =
      w.history[cursor + (w.page cursor limit).lost + i]? := by
  have bound : i < limit := by
    simp only [page, List.length_take] at within
    omega
  -- The page is a stretch of the history, cut at its limit.
  simp only [page]
  rw [List.getElem?_take_of_lt bound, List.getElem?_drop]
  congr 1
  omega

/-- A cursor stays within the history. -/
theorem page_next_le (w : Window α) {cursor : Nat} (limit : Nat)
    (inside : cursor ≤ w.history.length) :
    cursor ≤ (w.page cursor limit).next cursor ∧
      (w.page cursor limit).next cursor ≤ w.history.length := by
  simp only [Page.next]
  -- An empty page moves nothing; another one ends inside the history.
  split
  · exact ⟨Nat.le_refl _, inside⟩
  · rename_i some
    have positive := List.length_pos_iff.mpr some
    simp only [page, List.length_take, List.length_drop] at positive ⊢
    omega

/-- A reader takes pages of ever later windows, each from where the last one ended. -/
inductive Reading (cursor : Nat) (v : Window α) : List (Page α) → Nat → Window α → Prop
  | start : Reading cursor v [] cursor v
  | grow {now : Nat} {w x : Window α} {pages : List (Page α)} (reading : Reading cursor v pages now w)
      (later : Extends w x) : Reading cursor v pages now x
  | read {now : Nat} {w : Window α} {pages : List (Page α)} (limit : Nat)
      (reading : Reading cursor v pages now w) :
      Reading cursor v (pages ++ [w.page now limit]) ((w.page now limit).next now) w

namespace Reading

variable {cursor now : Nat} {pages : List (Page α)}

/-- The cursor of a reader never leaves the history. -/
theorem inside (reading : Reading cursor v pages now w) (within : cursor ≤ v.history.length) :
    now ≤ w.history.length := by
  induction reading with
  | start => exact within
  | grow _ later ih => exact ih.trans later.history.length_le
  | read limit _ ih => exact (page_next_le _ limit ih).2

/-- Nor does it go back. -/
theorem onwards (reading : Reading cursor v pages now w) (within : cursor ≤ v.history.length) :
    cursor ≤ now := by
  induction reading with
  | start => exact Nat.le_refl _
  | grow _ _ ih => exact ih
  | read limit reading ih =>
    exact ih.trans (page_next_le _ limit (reading.inside within)).1

/--
What a reader has received are entries of the history at increasing positions.

No entry is received twice, and none differs from what was recorded.
-/
theorem received (reading : Reading cursor v pages now w) (within : cursor ≤ v.history.length) :
    ∃ positions : List Nat, positions.Pairwise (· < ·) ∧
      (∀ i ∈ positions, cursor ≤ i ∧ i < now) ∧
      (pages.flatMap Page.entries).map some = positions.map fun i => w.history[i]? := by
  induction reading with
  | start => exact ⟨[], .nil, fun i member => absurd member List.not_mem_nil, rfl⟩
  | @grow now w x pages reading later ih =>
    obtain ⟨positions, increasing, bounds, same⟩ := ih
    refine ⟨positions, increasing, bounds, same.trans (List.map_congr_left fun i member => ?_)⟩
    -- What was recorded before the cursor is still recorded.
    have before : i < w.history.length :=
      Nat.lt_of_lt_of_le (bounds i member).2 (reading.inside within)
    obtain ⟨rest, grown⟩ := later.history
    rw [← grown, List.getElem?_append_left before]
  | @read now w pages limit reading ih =>
    obtain ⟨positions, increasing, bounds, same⟩ := ih
    let p := w.page now limit
    have entries : p.entries.map some =
        (List.range' (now + p.lost) p.entries.length).map fun i => w.history[i]? := by
      refine List.ext_getElem? fun i => ?_
      by_cases inside : i < p.entries.length
      · rw [List.getElem?_map, List.getElem?_map, List.getElem?_range' inside,
          List.getElem?_eq_getElem inside]
        have here := w.page_getElem? now limit i inside
        rw [List.getElem?_eq_getElem inside] at here
        simpa [p] using here
      · rw [List.getElem?_eq_none (by simpa using inside),
          List.getElem?_eq_none (by simpa using inside)]
    have next : p.entries ≠ [] → p.next now = now + p.lost + p.entries.length := fun some =>
      if_neg some
    refine ⟨positions ++ List.range' (now + p.lost) p.entries.length, ?_, fun i member => ?_, ?_⟩
    · refine List.pairwise_append.mpr ⟨increasing, List.pairwise_lt_range', ?_⟩
      intro i old j new
      have early := (bounds i old).2
      have late := List.mem_range'_1.mp new
      omega
    · have onwards := page_next_le w limit (reading.inside within)
      have moved : now ≤ p.next now := onwards.1
      rcases List.mem_append.mp member with old | new
      · have early := bounds i old
        exact ⟨early.1, Nat.lt_of_lt_of_le early.2 moved⟩
      · have late := List.mem_range'_1.mp new
        have some : p.entries ≠ [] := List.length_pos_iff.mp (by omega)
        have started := reading.onwards within
        have target : (w.page now limit).next now = now + p.lost + p.entries.length := next some
        rw [target]
        omega
    · rw [List.flatMap_append, List.map_append, List.map_append, same]
      simp only [List.flatMap_cons, List.flatMap_nil, List.append_nil]
      exact congrArg _ entries

end Reading

end Window
