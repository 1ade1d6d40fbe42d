import Mathlib.Data.List.Pairwise

/-! Left folds: what they leave alone, what they keep true, and the first maximum they find. -/

namespace Fold

variable {α β γ : Type*}

/-- A projection no step changes is unchanged by the whole fold. -/
theorem foldl_project (project : β → γ) {f : β → α → β}
    (step : ∀ b a, project (f b a) = project b) (l : List α) (b : β) :
    project (l.foldl f b) = project b := by
  induction l generalizing b with
  | nil => rfl
  | cons a l ih => rw [List.foldl_cons, ih, step]

/-- A property every step keeps holds after the whole fold. -/
theorem foldl_keeps {I : β → Prop} {f : β → α → β} {l : List α} {b : β}
    (step : ∀ a ∈ l, ∀ b, I b → I (f b a)) (start : I b) : I (l.foldl f b) := by
  induction l generalizing b with
  | nil => exact start
  | cons a l ih =>
    refine ih (fun a' member => step a' (List.mem_cons_of_mem a member)) ?_
    exact step a List.mem_cons_self b start

/-- A reflexive and transitive relation every step obeys holds between the ends of a fold. -/
theorem foldl_rel {R : β → β → Prop} {f : β → α → β} (refl : ∀ b, R b b)
    (trans : ∀ a b c, R a b → R b c → R a c) (step : ∀ b a, R b (f b a)) (l : List α) (b : β) :
    R b (l.foldl f b) := by
  induction l generalizing b with
  | nil => exact refl b
  | cons a l ih => exact trans _ _ _ (step b a) (ih (f b a))

/-! ### First maximum -/

/-- Keep the better of the champion and a challenger, preferring the champion on a tie. -/
def challenge (eligible : α → Bool) (key : α → Nat) (best : Option α) (a : α) : Option α :=
  if eligible a then
    match best with
    | none => some a
    | some b => if key b < key a then some a else best
  else best

/-- What it is to win among a list: eligible, of greatest key, and earliest of those. -/
structure Wins (eligible : α → Bool) (key rank : α → Nat) (l : List α) (a : α) : Prop where
  member : a ∈ l
  fits : eligible a = true
  best : ∀ b ∈ l, eligible b = true → key b < key a ∨ (key b = key a ∧ rank a ≤ rank b)

/-- The champion of a scan, over the champion it started from and the rest of the list. -/
theorem foldl_challenge_some (eligible : α → Bool) (key rank : α → Nat) {seen l : List α}
    (sorted : (seen ++ l).Pairwise (fun a b => rank a < rank b)) :
    ∀ {best : Option α},
      (best = none → ∀ a ∈ seen, eligible a = false) →
      (∀ a, best = some a → Wins eligible key rank seen a) →
      ((l.foldl (challenge eligible key) best = none → ∀ a ∈ seen ++ l, eligible a = false) ∧
        ∀ a, l.foldl (challenge eligible key) best = some a →
          Wins eligible key rank (seen ++ l) a) := by
  -- The invariant is the statement itself for the part of the list already scanned.
  induction l generalizing seen with
  | nil =>
    intro best noBest someBest
    simpa using ⟨noBest, someBest⟩
  | cons x l ih =>
    intro best noBest someBest
    have split : seen ++ x :: l = (seen ++ [x]) ++ l := by simp
    rw [List.foldl_cons, split]
    -- Everything already seen ranks before the challenger.
    have before : ∀ a ∈ seen, rank a < rank x := by
      intro a member
      exact (List.pairwise_append.mp sorted).2.2 a member x List.mem_cons_self
    refine ih (split ▸ sorted) ?_ ?_
    · intro unchallenged a member
      cases champion : best with
      | none =>
        by_cases fit : eligible x = true
        · simp [challenge, fit, champion] at unchallenged
        · rcases List.mem_append.mp member with old | new
          · exact noBest champion a old
          · rw [List.mem_singleton.mp new]
            exact Bool.not_eq_true _ ▸ fit
      | some b =>
        by_cases fit : eligible x = true
        · simp only [challenge, fit, champion, if_true] at unchallenged
          split at unchallenged <;> cases unchallenged
        · simp [challenge, fit, champion] at unchallenged
    · intro a chosen
      by_cases fit : eligible x = true
      · cases champion : best with
        | none =>
          -- The first eligible element of the list.
          simp only [challenge, fit, champion, if_true, Option.some.injEq] at chosen
          subst chosen
          refine ⟨by simp, fit, fun b member able => ?_⟩
          rcases List.mem_append.mp member with old | new
          · exact absurd able (by simp [noBest champion b old])
          · rw [List.mem_singleton.mp new]
            exact Or.inr ⟨rfl, Nat.le_refl _⟩
        | some b =>
          have wins := someBest b champion
          simp only [challenge, fit, champion, if_true] at chosen
          split at chosen
          · -- The challenger is strictly better than everything seen before.
            rename_i better
            cases chosen
            refine ⟨by simp, fit, fun d member able => ?_⟩
            rcases List.mem_append.mp member with old | new
            · rcases wins.best d old able with less | ⟨same, -⟩ <;> exact Or.inl (by omega)
            · rw [List.mem_singleton.mp new]
              exact Or.inr ⟨rfl, Nat.le_refl _⟩
          · -- The champion stays, and ranks before an equal challenger.
            rename_i notBetter
            cases chosen
            refine ⟨by simp [wins.member], wins.fits, fun d member able => ?_⟩
            rcases List.mem_append.mp member with old | new
            · exact wins.best d old able
            · have early := before a wins.member
              rw [List.mem_singleton.mp new]
              omega
      · have kept : best = some a := by simpa [challenge, fit] using chosen
        have wins := someBest a kept
        refine ⟨by simp [wins.member], wins.fits, fun d member able => ?_⟩
        rcases List.mem_append.mp member with old | new
        · exact wins.best d old able
        · rw [List.mem_singleton.mp new] at able
          exact absurd able fit

/-- A scan finds nothing exactly when nothing is eligible. -/
theorem foldl_challenge_eq_none_iff {eligible : α → Bool} {key : α → Nat} (rank : α → Nat)
    {l : List α} (sorted : l.Pairwise (fun a b => rank a < rank b)) :
    l.foldl (challenge eligible key) none = none ↔ ∀ a ∈ l, eligible a = false := by
  have spec := @foldl_challenge_some α eligible key rank [] l (by simpa using sorted) none
    (by simp) (by simp)
  -- The scan over a list without any earlier winner, read in both directions.
  constructor
  · simpa using spec.1
  · intro noneFit
    cases found : l.foldl (challenge eligible key) none with
    | none => rfl
    | some a =>
      have wins := spec.2 a found
      exact absurd wins.fits (by simp [noneFit a (by simpa using wins.member)])

/-- A scan finds exactly the winner. -/
theorem foldl_challenge_eq_some_iff {eligible : α → Bool} {key rank : α → Nat} {l : List α}
    (sorted : l.Pairwise (fun a b => rank a < rank b))
    (separates : ∀ a ∈ l, ∀ b ∈ l, rank a = rank b → a = b) (a : α) :
    l.foldl (challenge eligible key) none = some a ↔ Wins eligible key rank l a := by
  have spec := @foldl_challenge_some α eligible key rank [] l (by simpa using sorted) none
    (by simp) (by simp)
  simp only [List.nil_append] at spec
  constructor
  · exact spec.2 a
  · intro wins
    cases found : l.foldl (challenge eligible key) none with
    | none => exact absurd wins.fits (by simp [spec.1 found a wins.member])
    | some b =>
      -- Two winners beat each other, so they tie in key and in rank.
      have other := spec.2 b found
      have forward := wins.best b other.member other.fits
      have backward := other.best a wins.member wins.fits
      rw [separates b other.member a wins.member (by omega)]

end Fold
