import Mathlib.Data.Finset.Card
import Mathlib.Data.Finset.Range
import Mathlib.Logic.Function.Basic

/-! Tables with open addressing, which are searched one slot after another from a key's home. -/

namespace Probing

variable {α : Type*} (size : Nat) (vacant : α) (home : α → Nat)

/-- What a search meets first. -/
inductive Outcome where
  | found
  | free (slot : Nat)
  | full
  deriving DecidableEq, Repr

/-- The slot of a probe for a key, which wraps around. -/
def slot (key : α) (probe : Nat) : Nat := (home key + probe) % size

section

variable {size home}

/-- A slot is inside the table. -/
theorem slot_lt (positive : 0 < size) (key : α) (probe : Nat) : slot size home key probe < size :=
  Nat.mod_lt _ positive

/-- The probes reach every slot. -/
theorem slot_reaches {s : Nat} (inside : s < size) (key : α) :
    ∃ i < size, slot size home key i = s := by
  -- The distance from the home slot to the one asked for, around the end of the table.
  have below : home key % size < size := Nat.mod_lt _ (by omega)
  refine ⟨(s + (size - home key % size)) % size, Nat.mod_lt _ (by omega), ?_⟩
  have whole : home key + (s + (size - home key % size)) =
      s + size * (home key / size + 1) := by
    have split := Nat.div_add_mod (home key) size
    rw [Nat.mul_add, Nat.mul_one]
    omega
  rw [slot, Nat.add_mod_mod, whole, Nat.add_mul_mod_self_left, Nat.mod_eq_of_lt inside]

end

variable [DecidableEq α]

/-- A search for a key, for a number of probes still to make and the next of them. -/
def search (table : Nat → α) (key : α) : Nat → Nat → Outcome
  | 0, _ => .full
  | left + 1, probe =>
    if table (slot size home key probe) = key then .found
    else if table (slot size home key probe) = vacant then .free (slot size home key probe)
    else search table key left (probe + 1)

/-- Every key lies behind no vacant slot of its own path. -/
def Packed (table : Nat → α) : Prop :=
  ∀ s < size, table s ≠ vacant → ∃ i < size, slot size home (table s) i = s ∧
    ∀ j < i, table (slot size home (table s) j) ≠ vacant

/-- The slots that hold a key. -/
def occupied (table : Nat → α) : Finset Nat :=
  (Finset.range size).filter fun s => table s ≠ vacant

variable {size vacant home} {table : Nat → α} {key : α}

/-- Neither the key nor a vacant slot is met by these probes. -/
def Passes (size : Nat) (vacant : α) (home : α → Nat) (table : Nat → α) (key : α)
    (first last : Nat) : Prop :=
  ∀ j, first ≤ j → j < last →
    table (slot size home key j) ≠ key ∧ table (slot size home key j) ≠ vacant

/-- What a search has met on its way to its answer. -/
theorem search_spec (left probe : Nat) :
    match search size vacant home table key left probe with
    | .found => ∃ i, probe ≤ i ∧ i < probe + left ∧ table (slot size home key i) = key
    | .free s => ∃ i, probe ≤ i ∧ i < probe + left ∧ s = slot size home key i ∧
        table s = vacant ∧ table s ≠ key ∧ Passes size vacant home table key probe i
    | .full => Passes size vacant home table key probe (probe + left) := by
  -- The induction is on the probes that are left.
  induction left generalizing probe with
  | zero => exact fun j low high => absurd high (by omega)
  | succ left ih =>
    rw [search]
    by_cases here : table (slot size home key probe) = key
    · rw [if_pos here]
      exact ⟨probe, Nat.le_refl _, by omega, here⟩
    · rw [if_neg here]
      by_cases none : table (slot size home key probe) = vacant
      · rw [if_pos none]
        exact ⟨probe, Nat.le_refl _, by omega, rfl, none, here,
          fun j low high => absurd high (by omega)⟩
      · rw [if_neg none]
        have further : ∀ last, Passes size vacant home table key (probe + 1) last →
            Passes size vacant home table key probe last := by
          intro last later j low high
          rcases Nat.eq_or_lt_of_le low with rfl | beyond
          · exact ⟨here, none⟩
          · exact later j beyond high
        have rest := ih (probe + 1)
        cases met : search size vacant home table key left (probe + 1) with
        | found =>
          rw [met] at rest
          obtain ⟨i, low, high, there⟩ := rest
          exact ⟨i, by omega, by omega, there⟩
        | free s =>
          rw [met] at rest
          obtain ⟨i, low, high, same, free, other, passed⟩ := rest
          exact ⟨i, by omega, by omega, same, free, other, further i passed⟩
        | full =>
          rw [met] at rest
          have end_ : probe + 1 + left = probe + (left + 1) := by omega
          exact further _ (end_ ▸ rest)

namespace Packed

/-- A key that the table holds is found. -/
theorem search_found (packed : Packed size vacant home table) (real : key ≠ vacant)
    (held : ∃ s < size, table s = key) : search size vacant home table key size 0 = .found := by
  obtain ⟨s, inside, rfl⟩ := held
  obtain ⟨i, reached, here, path⟩ := packed s inside real
  have met := @search_spec _ size vacant home _ table (table s) size 0
  cases outcome : search size vacant home table (table s) size 0 with
  | found => rfl
  | free s' =>
    rw [outcome] at met
    obtain ⟨i', -, -, same, free, -, passed⟩ := met
    -- A vacant slot on the way to the key would have ended its own insertion there.
    rcases Nat.lt_trichotomy i' i with early | equal | late
    · exact absurd (same ▸ free) (path i' early)
    · rw [same, equal, here] at free
      exact absurd free real
    · exact absurd (congrArg table here) (passed i (Nat.zero_le _) late).1
  | full =>
    rw [outcome] at met
    exact absurd (congrArg table here) (met i (Nat.zero_le _) (by omega)).1

/-- For a key that the table does not hold, a search finds a vacant slot when there is one. -/
theorem search_free (absent : ∀ s < size, table s ≠ key) (room : ∃ s < size, table s = vacant) :
    ∃ s < size, search size vacant home table key size 0 = .free s ∧ table s = vacant := by
  obtain ⟨s, inside, none⟩ := room
  have met := @search_spec _ size vacant home _ table key size 0
  -- The key is not there, and a full table has no vacant slot.
  cases outcome : search size vacant home table key size 0 with
  | found =>
    rw [outcome] at met
    obtain ⟨i, -, -, there⟩ := met
    exact absurd there (absent _ (slot_lt (by omega) key i))
  | free s' =>
    rw [outcome] at met
    obtain ⟨i, -, -, same, free, -⟩ := met
    exact ⟨s', same ▸ slot_lt (by omega) key i, rfl, free⟩
  | full =>
    rw [outcome] at met
    obtain ⟨i, reached, here⟩ := @slot_reaches _ size home s inside key
    exact absurd (here ▸ none) (met i (Nat.zero_le _) (by omega)).2

/-- A key may be put into the vacant slot that a search for it ends at. -/
theorem store (packed : Packed size vacant home table) (real : key ≠ vacant) {s : Nat}
    (ends : search size vacant home table key size 0 = .free s) :
    Packed size vacant home (Function.update table s key) := by
  have met := @search_spec _ size vacant home _ table key size 0
  rw [ends] at met
  obtain ⟨i, -, reached, same, free, -, passed⟩ := met
  -- Slots that were not vacant before are not vacant now.
  have filled : ∀ t, table t ≠ vacant → Function.update table s key t ≠ vacant := by
    intro t before
    by_cases here : t = s
    · rw [here, Function.update_self]
      exact real
    · rwa [Function.update_of_ne here]
  intro t inside now
  by_cases here : t = s
  · subst here
    rw [Function.update_self]
    refine ⟨i, by omega, same.symm, fun j early => filled _ ?_⟩
    exact (passed j (Nat.zero_le _) early).2
  · rw [Function.update_of_ne here] at now ⊢
    obtain ⟨k, below, there, path⟩ := packed t inside now
    exact ⟨k, below, there, fun j early => filled _ (path j early)⟩

end Packed

/-- Filling a vacant slot occupies one more. -/
theorem card_occupied_update {s : Nat} (inside : s < size) (free : table s = vacant)
    (real : key ≠ vacant) :
    (occupied size vacant (Function.update table s key)).card =
      (occupied size vacant table).card + 1 := by
  have outside : s ∉ occupied size vacant table := by simp [occupied, free]
  rw [← Finset.card_insert_of_notMem outside]
  congr 1
  ext t
  -- The occupied slots are those from before and this one.
  simp only [occupied, Finset.mem_filter, Finset.mem_range, Finset.mem_insert]
  by_cases here : t = s
  · subst here
    simp [inside, real]
  · simp [here]

/-- A table with fewer keys than slots has a vacant one. -/
theorem exists_vacant (room : (occupied size vacant table).card < size) :
    ∃ s < size, table s = vacant := by
  by_contra none
  have all : occupied size vacant table = Finset.range size :=
    Finset.filter_true_of_mem fun s member free =>
      none ⟨s, Finset.mem_range.mp member, free⟩
  rw [all, Finset.card_range] at room
  exact absurd room (Nat.lt_irrefl _)

end Probing
