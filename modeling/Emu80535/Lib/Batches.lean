import Mathlib

/-!
Items that pass or are held back in batches, each batch told of by one summary.

The account of what happened is lawful when every summary tells exactly what waits behind the one
before it, and no item passes while another waits.
-/

namespace Batches

variable {α : Type*}

/-- One line of an account. -/
inductive Entry (α : Type*) where
  | offered (item : α)
  | held (item : α)
  | passed (item : α)
  | summary (first last : α) (count : Nat)

/-! ### What waits -/

/-- The items that wait after one more entry. -/
def Entry.after (items : List α) : Entry α → List α
  | .held item => items ++ [item]
  | .summary _ _ _ => []
  | _ => items

/-- The items held back since the last summary. -/
def waiting (account : List (Entry α)) : List α := account.foldl Entry.after []

/-- An account goes on where it stopped. -/
theorem waiting_append (account more : List (Entry α)) :
    waiting (account ++ more) = more.foldl Entry.after (waiting account) := List.foldl_append

/-- A summary tells the ends of a batch and its size. -/
def Tells (items : List α) (first last : α) (count : Nat) : Prop :=
  items.head? = some first ∧ items.getLast? = some last ∧ items.length = count

/-- A batch of one item. -/
theorem tells_one (item : α) : Tells [item] item item 1 := ⟨rfl, rfl, rfl⟩

/-- One more item. -/
theorem Tells.grow {items : List α} {first last : α} {count : Nat}
    (tells : Tells items first last count) (item : α) :
    Tells (items ++ [item]) first item (count + 1) := by
  obtain ⟨head, -, length⟩ := tells
  refine ⟨?_, List.getLast?_concat, ?_⟩
  · rw [List.head?_append, head]
    rfl
  · rw [List.length_append, length]
    rfl

/-! ### Lawful accounts -/

/-- What an entry may follow. -/
def Entry.Fits (items : List α) : Entry α → Prop
  | .passed _ => items = []
  | .summary first last count => Tells items first last count
  | _ => True

/-- Each entry fits what waits before it. -/
def Lawful (account : List (Entry α)) : Prop :=
  ∀ before entry later, account = before ++ entry :: later → entry.Fits (waiting before)

/-- Nothing has happened. -/
theorem lawful_nil : Lawful ([] : List (Entry α)) := by
  intro before entry later empty
  exact absurd empty.symm (List.append_ne_nil_of_right_ne_nil before (List.cons_ne_nil entry later))

/-- One more entry that fits. -/
theorem Lawful.concat {account : List (Entry α)} (lawful : Lawful account) (entry : Entry α)
    (fits : entry.Fits (waiting account)) : Lawful (account ++ [entry]) := by
  intro before found later split
  -- The entry in question is the new one, or the account had it before.
  rcases List.eq_nil_or_concat later with rfl | ⟨rest, last, rfl⟩
  · obtain ⟨rfl, same⟩ := List.append_inj' split rfl
    obtain ⟨rfl, -⟩ := List.cons.inj same
    exact fits
  · have longer : account ++ [entry] = before ++ found :: rest ++ [last] := by
      simpa using split
    exact lawful before found rest (List.append_inj_left' longer rfl)

/-! ### Balance -/

/-- The items offered. -/
def offers (account : List (Entry α)) : List α :=
  account.filterMap fun entry =>
    match entry with
    | .offered item => some item
    | _ => none

/-- The items whose fate is settled: they passed or are held back. -/
def settled (account : List (Entry α)) : List α :=
  account.filterMap fun entry =>
    match entry with
    | .held item => some item
    | .passed item => some item
    | _ => none

/-- The items that passed. -/
def passes (account : List (Entry α)) : List α :=
  account.filterMap fun entry =>
    match entry with
    | .passed item => some item
    | _ => none

/-- The sizes of the batches told of. -/
def counts (account : List (Entry α)) : List Nat :=
  account.filterMap fun entry =>
    match entry with
    | .summary _ _ count => some count
    | _ => none

/-- The offers of two accounts. -/
@[simp] theorem offers_append (account more : List (Entry α)) :
    offers (account ++ more) = offers account ++ offers more := List.filterMap_append

/-- What two accounts have settled. -/
@[simp] theorem settled_append (account more : List (Entry α)) :
    settled (account ++ more) = settled account ++ settled more := List.filterMap_append

/-- What passed in two accounts. -/
@[simp] theorem passes_append (account more : List (Entry α)) :
    passes (account ++ more) = passes account ++ passes more := List.filterMap_append

/-- What the summaries of two accounts count. -/
@[simp] theorem counts_append (account more : List (Entry α)) :
    counts (account ++ more) = counts account ++ counts more := List.filterMap_append

/-- Every item settled has passed, is told of by a summary, or waits. -/
theorem Lawful.balance {account : List (Entry α)} (lawful : Lawful account) :
    (settled account).length =
      (passes account).length + (counts account).sum + (waiting account).length := by
  induction account using List.reverseRecOn with
  | nil => rfl
  | append_singleton account entry ih =>
    have fits : entry.Fits (waiting account) := lawful account entry [] rfl
    have before := ih fun b found later split =>
      lawful b found (later ++ [entry]) (by rw [split]; simp)
    rw [settled_append, passes_append, counts_append, waiting_append, List.length_append,
      List.length_append, List.sum_append]
    cases entry with
    | offered item => exact before
    | held item =>
      have waits : ([Entry.held item].foldl Entry.after (waiting account)).length =
          (waiting account).length + 1 := List.length_append
      rw [waits]
      change (settled account).length + 1 =
        (passes account).length + 0 + ((counts account).sum + 0) + _
      omega
    | passed item =>
      change (settled account).length + 1 =
        (passes account).length + 1 + ((counts account).sum + 0) + (waiting account).length
      omega
    | summary first last count =>
      -- The batch leaves the queue as a whole and is counted as a whole.
      have size : (waiting account).length = count := fits.2.2
      change (settled account).length + 0 =
        (passes account).length + 0 + ((counts account).sum + (count + 0)) + 0
      omega

/-! ### Keeping the account -/

/-- The batch a gatherer remembers: its ends and its size. -/
structure Batch (α : Type*) where
  first : α
  last : α
  count : Nat

/-- The batch after one more item. -/
def grown (batch : Option (Batch α)) (item : α) : Batch α :=
  match batch with
  | none => ⟨item, item, 1⟩
  | some b => ⟨b.first, item, b.count + 1⟩

/-- A gatherer remembers what waits. -/
def Remembers (batch : Option (Batch α)) (items : List α) : Prop :=
  match batch with
  | none => items = []
  | some b => Tells items b.first b.last b.count

/-- The account of a gatherer that keeps the law. -/
structure Kept (batch : Option (Batch α)) (account : List (Entry α)) : Prop where
  lawful : Lawful account
  remembered : Remembers batch (waiting account)
  /-- Every item offered passes or is held back, in order. -/
  decided : offers account = settled account

variable {batch : Option (Batch α)} {account : List (Entry α)}

/-- A gatherer that has done nothing. -/
theorem Kept.start : Kept (none : Option (Batch α)) [] := ⟨lawful_nil, rfl, rfl⟩

/-- An item is held back. -/
theorem Kept.hold (kept : Kept batch account) (item : α) :
    Kept (some (grown batch item)) (account ++ [.offered item, .held item]) := by
  have offer : Lawful (account ++ [.offered item]) := kept.lawful.concat (.offered item) trivial
  have items : waiting (account ++ [.offered item, .held item]) = waiting account ++ [item] :=
    waiting_append account _
  -- The item is offered and held, so it joins what is waiting.
  refine ⟨?_, ?_, ?_⟩
  · have both := offer.concat (.held item) trivial
    rwa [List.append_assoc] at both
  · rw [items]
    cases batch with
    | none =>
      have empty : waiting account = [] := kept.remembered
      rw [empty]
      exact tells_one item
    | some b => exact Tells.grow kept.remembered item
  · rw [offers_append, settled_append, kept.decided]
    rfl

/-- The entries for a batch that is told of. -/
def told : Option (Batch α) → List (Entry α)
  | none => []
  | some b => [.summary b.first b.last b.count]

/-- The batch is told of and forgotten. -/
theorem Kept.release (kept : Kept batch account) : Kept none (account ++ told batch) := by
  cases batch with
  | none => simpa [told] using kept
  | some b =>
    refine ⟨kept.lawful.concat (.summary b.first b.last b.count) kept.remembered, ?_, ?_⟩
    · exact waiting_append account _
    · rw [offers_append, settled_append, kept.decided]
      rfl

/-- The batch is told of before an item passes. -/
theorem Kept.pass (kept : Kept batch account) (item : α) :
    Kept none (account ++ (.offered item :: told batch ++ [.passed item])) := by
  have offer : Lawful (account ++ [.offered item]) := kept.lawful.concat (.offered item) trivial
  have same : waiting (account ++ [.offered item]) = waiting account := waiting_append account _
  -- The summary releases what is waiting, so the item passes with nothing held back.
  have release : Lawful (account ++ [.offered item] ++ told batch) ∧
      waiting (account ++ [.offered item] ++ told batch) = [] := by
    cases batch with
    | none => simpa [told, same] using ⟨offer, kept.remembered⟩
    | some b =>
      have fits : Entry.Fits (waiting (account ++ [.offered item]))
          (.summary b.first b.last b.count) := by
        rw [same]
        exact kept.remembered
      exact ⟨offer.concat _ fits, waiting_append _ _⟩
  have shape : account ++ (.offered item :: told batch ++ [.passed item]) =
      account ++ [.offered item] ++ told batch ++ [.passed item] := by simp
  rw [shape]
  refine ⟨release.1.concat (.passed item) release.2, ?_, ?_⟩
  · exact (waiting_append _ _).trans release.2
  · have nothing : offers (told batch) = [] ∧ settled (told batch) = [] := by
      cases batch with
      | none => exact ⟨rfl, rfl⟩
      | some b => exact ⟨rfl, rfl⟩
    simp only [offers_append, settled_append, nothing.1, nothing.2, kept.decided,
      List.append_nil]
    change settled account ++ [item] ++ [] = settled account ++ [] ++ [item]
    rw [List.append_nil, List.append_nil]

end Batches
