import Mathlib.Data.List.Perm.Basic
import Mathlib.Data.List.Range

/-!
Accounts of items that are admitted for a later time and then delivered, failed or cancelled.

The account is kept from a log of what a program did with its items, and it is sound when every
item admitted has met exactly one of these fates, at its time and in its order.
-/

namespace Ledger

variable {α : Type*} {due : α → Nat}

/-- An admitted item with its place in the order of admission. -/
structure Ticket (α : Type*) where
  order : Nat
  item : α
  deriving DecidableEq

/-- Earlier due, or due at the same time and admitted earlier. -/
def Before (due : α → Nat) (a b : Ticket α) : Prop :=
  due a.item < due b.item ∨ due a.item = due b.item ∧ a.order < b.order

/-- What a program can do with an item. -/
inductive Event (α : Type*) where
  | enroll (item : α)
  | deliver (item : α) (clock : Nat)
  | fail (item : α) (clock : Nat)
  | cancel (item : α)
  /-- The clock starts again, and with it the order of deliveries. -/
  | restart

/-- Whether an event is a failure. -/
def Event.isFail : Event α → Bool
  | .fail _ _ => true
  | _ => false

/-- The state of an account. -/
structure Account (α : Type*) where
  /-- Every item ever admitted, in order; a ticket's order is its place here. -/
  admitted : List α := []
  queue : List (Ticket α) := []
  /-- Deliveries since the last restart, each with the clock it was made at. -/
  delivered : List (Ticket α × Nat) := []
  /-- Deliveries before it. -/
  past : List (Ticket α × Nat) := []
  failed : List (Ticket α × Nat) := []
  cancelled : List (Ticket α) := []
  /-- Items delivered, failed or cancelled out of turn or without being admitted. -/
  strays : List α := []

/-! ### Keeping the account -/

/-- Put a new ticket behind all that are due no later. -/
def place (due : α → Nat) (t : Ticket α) : List (Ticket α) → List (Ticket α)
  | [] => [t]
  | q :: rest => if due q.item ≤ due t.item then q :: place due t rest else t :: q :: rest

/-- The ticket admitted first. -/
def oldest : List (Ticket α) → Option (Ticket α)
  | [] => none
  | t :: rest =>
    match oldest rest with
    | none => some t
    | some u => if u.order < t.order then some u else some t

namespace Account

variable [DecidableEq α]

/-- Take the head of the queue, provided it is the item named. -/
def take (item : α) (account : Account α) : Option (Ticket α × Account α) :=
  match account.queue with
  | [] => none
  | t :: rest => if t.item = item then some (t, { account with queue := rest }) else none

/-- Enter one event. -/
def enter (due : α → Nat) (account : Account α) : Event α → Account α
  | .enroll item =>
    { account with
      admitted := account.admitted ++ [item]
      queue := place due ⟨account.admitted.length, item⟩ account.queue }
  | .deliver item clock =>
    match account.take item with
    | some (t, rest) => { rest with delivered := rest.delivered ++ [(t, clock)] }
    | none => { account with strays := account.strays ++ [item] }
  | .fail item clock =>
    match account.take item with
    | some (t, rest) => { rest with failed := rest.failed ++ [(t, clock)] }
    | none => { account with strays := account.strays ++ [item] }
  | .cancel item =>
    match oldest account.queue with
    | some t =>
      if t.item = item then
        { account with
          queue := account.queue.erase t
          cancelled := account.cancelled ++ [t] }
      else { account with strays := account.strays ++ [item] }
    | none => { account with strays := account.strays ++ [item] }
  | .restart => { account with past := account.past ++ account.delivered, delivered := [] }

/-- The account of a whole log. -/
def ofLog (due : α → Nat) (log : List (Event α)) : Account α := log.foldl (enter due) {}

/-- A longer log extends the account of a shorter one. -/
theorem ofLog_append (log more : List (Event α)) :
    ofLog due (log ++ more) = more.foldl (enter due) (ofLog due log) := List.foldl_append

/-- Only failures fail tickets. -/
theorem ofLog_failed {log : List (Event α)} (never : ∀ e ∈ log, e.isFail = false) :
    (ofLog due log).failed = [] := by
  have step : ∀ (account : Account α) (e : Event α), e.isFail = false →
      -- One event fails no ticket unless it is a failure.
      (account.enter due e).failed = account.failed := by
    intro account e other
    cases e with
    | enroll item => rfl
    | deliver item clock =>
      simp only [enter, take]
      cases account.queue with
      | nil => rfl
      | cons t rest => by_cases same : t.item = item <;> simp [same]
    | fail item clock => exact absurd other Bool.noConfusion
    | cancel item =>
      simp only [enter]
      cases oldest account.queue with
      | none => rfl
      | some t => by_cases same : t.item = item <;> simp [same]
    | restart => rfl
  have all : ∀ account : Account α, (log.foldl (enter due) account).failed = account.failed := by
    induction log with
    | nil => exact fun _ => rfl
    | cons e rest ih =>
      intro account
      have others := ih fun f member => never f (List.mem_cons_of_mem e member)
      rw [List.foldl_cons, others, step account e (never e List.mem_cons_self)]
  exact all {}

omit [DecidableEq α] in
/-- Every ticket the account knows of. -/
def tickets (account : Account α) : List (Ticket α) :=
  account.queue ++ account.delivered.map Prod.fst ++ account.past.map Prod.fst ++
    account.failed.map Prod.fst ++ account.cancelled

end Account

/-! ### Sound accounts -/

/-- Every item admitted has met one fate, at its time and in its order. -/
structure Sound (due : α → Nat) (clock : Nat) (account : Account α) : Prop where
  /-- Every ticket number given out is held by exactly one ticket. -/
  accounted : (account.tickets.map Ticket.order).Perm (List.range account.admitted.length)
  /-- And that ticket is for the item admitted under the number. -/
  named : ∀ t ∈ account.tickets, account.admitted[t.order]? = some t.item
  sorted : account.queue.Pairwise (Before due)
  /-- Nothing waits for a time that has passed. -/
  ahead : ∀ t ∈ account.queue, clock ≤ due t.item
  /-- Deliveries and failures are made when they are due. -/
  punctual : ∀ d ∈ account.delivered ++ account.past ++ account.failed, d.2 = due d.1.item
  reached : ∀ d ∈ account.delivered, due d.1.item ≤ clock
  ordered : (account.delivered.map Prod.fst).Pairwise (Before due)
  /-- What has been delivered comes before what waits. -/
  turn : ∀ d ∈ account.delivered, ∀ t ∈ account.queue, Before due d.1 t
  proper : account.strays = []

/-- Nothing waits for the present. -/
def Drained (due : α → Nat) (clock : Nat) (account : Account α) : Prop :=
  ∀ t ∈ account.queue, clock < due t.item

/-- An account without tickets is sound. -/
theorem sound_empty (clock : Nat) : Sound due clock ({} : Account α) where
  accounted := List.Perm.refl _
  named := nofun
  sorted := List.Pairwise.nil
  ahead := nofun
  punctual := nofun
  reached := nofun
  ordered := List.Pairwise.nil
  turn := nofun
  proper := rfl

/-! ### Placing a ticket -/

/-- Placing a ticket adds it and nothing else. -/
theorem place_perm (t : Ticket α) (queue : List (Ticket α)) :
    (place due t queue).Perm (t :: queue) := by
  induction queue with
  | nil => exact List.Perm.refl _
  | cons q rest ih =>
    simp only [place]
    split
    · exact (List.Perm.cons q ih).trans (List.Perm.swap t q rest)
    · exact List.Perm.refl _

/-- What is in a queue after a ticket was placed. -/
theorem mem_place {t u : Ticket α} {queue : List (Ticket α)} :
    u ∈ place due t queue ↔ u = t ∨ u ∈ queue := by
  rw [(place_perm t queue).mem_iff, List.mem_cons]

/-- The newest ticket is placed in order. -/
theorem place_sorted {t : Ticket α} {queue : List (Ticket α)} (sorted : queue.Pairwise (Before due))
    (newest : ∀ q ∈ queue, q.order < t.order) : (place due t queue).Pairwise (Before due) := by
  induction queue with
  | nil => exact List.pairwise_singleton ..
  | cons q rest ih =>
    obtain ⟨first, others⟩ := List.pairwise_cons.mp sorted
    simp only [place]
    split
    · -- The ticket goes behind this one, being due no earlier and newer.
      rename_i behind
      refine List.pairwise_cons.mpr ⟨fun u member => ?_,
        ih others fun r inside => newest r (List.mem_cons_of_mem q inside)⟩
      rcases mem_place.mp member with rfl | inside
      · rcases Nat.lt_or_eq_of_le behind with early | same
        · exact Or.inl early
        · exact Or.inr ⟨same, newest q List.mem_cons_self⟩
      · exact first u inside
    · -- The ticket goes in front of this one, and so of all behind it.
      rename_i front
      refine List.pairwise_cons.mpr ⟨fun u member => Or.inl ?_, sorted⟩
      rcases List.mem_cons.mp member with rfl | inside
      · omega
      · rcases first u inside with early | ⟨same, -⟩
        · omega
        · omega

/-- A ticket due no earlier than all others goes to the end. -/
theorem place_last {t : Ticket α} {queue : List (Ticket α)}
    (late : ∀ q ∈ queue, due q.item ≤ due t.item) : place due t queue = queue ++ [t] := by
  induction queue with
  | nil => rfl
  | cons q rest ih =>
    have others := ih fun r inside => late r (List.mem_cons_of_mem q inside)
    rw [place, if_pos (late q List.mem_cons_self), others, List.cons_append]

/-- A ticket due before all others goes to the front. -/
theorem place_first {t : Ticket α} {queue : List (Ticket α)}
    (early : ∀ q ∈ queue, due t.item < due q.item) : place due t queue = t :: queue := by
  cases queue with
  | nil => rfl
  | cons q rest =>
    have front := early q List.mem_cons_self
    rw [place, if_neg (by omega)]

/-! ### The oldest ticket -/

/-- A queue without tickets has no oldest one. -/
theorem oldest_eq_none_iff {queue : List (Ticket α)} : oldest queue = none ↔ queue = [] := by
  -- A queue with a ticket has an oldest one, the first or one of the rest.
  cases queue with
  | nil => simp [oldest]
  | cons t rest =>
    simp only [oldest, reduceCtorEq, iff_false]
    cases oldest rest with
    | none => exact nofun
    | some u =>
      dsimp only
      split <;> exact nofun

/-- It is in the queue, and none is older. -/
theorem oldest_spec {queue : List (Ticket α)} {t : Ticket α} (found : oldest queue = some t) :
    t ∈ queue ∧ ∀ u ∈ queue, t.order ≤ u.order := by
  induction queue generalizing t with
  | nil => exact absurd found nofun
  | cons q rest ih =>
    simp only [oldest] at found
    cases older : oldest rest with
    | none =>
      -- The rest is empty, so the head is the only ticket.
      rw [older] at found
      obtain rfl := Option.some.inj found
      rw [oldest_eq_none_iff.mp older]
      simp
    | some u =>
      rw [older] at found
      obtain ⟨inside, least⟩ := ih older
      dsimp only at found
      split at found
      · rename_i newer
        obtain rfl := Option.some.inj found
        refine ⟨List.mem_cons_of_mem q inside, fun r member => ?_⟩
        rcases List.mem_cons.mp member with rfl | other
        · omega
        · exact least r other
      · rename_i older
        obtain rfl := Option.some.inj found
        refine ⟨List.mem_cons_self, fun r member => ?_⟩
        rcases List.mem_cons.mp member with rfl | other
        · exact Nat.le_refl _
        · have := least r other
          omega

/-- In a queue in the order of admission it is the head. -/
theorem oldest_head {t : Ticket α} {rest : List (Ticket α)}
    (first : ∀ u ∈ rest, t.order < u.order) : oldest (t :: rest) = some t := by
  simp only [oldest]
  cases older : oldest rest with
  | none => rfl
  | some u =>
    have later := first u (oldest_spec older).1
    dsimp only
    rw [if_neg (by omega)]

/-! ### What each event does to a sound account -/

namespace Sound

variable {clock : Nat} {account : Account α}

/-- Every ticket is older than the next one. -/
theorem newest (sound : Sound due clock account) {t : Ticket α} (known : t ∈ account.tickets) :
    t.order < account.admitted.length :=
  List.mem_range.mp (sound.accounted.mem_iff.mp (List.mem_map_of_mem known))

omit due in
/-- A waiting ticket is one of the account's. -/
theorem mem_tickets_of_queue {t : Ticket α} (waits : t ∈ account.queue) :
    t ∈ account.tickets := by
  simp [Account.tickets, waits]

omit due in
/-- And so is a delivered one. -/
theorem mem_tickets_of_delivered {d : Ticket α × Nat} (made : d ∈ account.delivered) :
    d.1 ∈ account.tickets := by
  have : d.1 ∈ account.delivered.map Prod.fst := List.mem_map_of_mem made
  simp only [Account.tickets, List.mem_append]
  tauto

/-- Waiting longer keeps an account sound as long as nothing is due. -/
theorem wait (sound : Sound due clock account) (drained : Drained due clock account) :
    Sound due (clock + 1) account :=
  { sound with
    ahead := drained
    reached := fun d made => Nat.le_succ_of_le (sound.reached d made) }

variable [DecidableEq α]

/-- Admitting an item for the present or later. -/
theorem enroll (sound : Sound due clock account) {item : α} (later : clock ≤ due item) :
    Sound due clock (account.enter due (.enroll item)) := by
  have placed : (place due ⟨account.admitted.length, item⟩ account.queue).Perm
      (⟨account.admitted.length, item⟩ :: account.queue) := place_perm _ _
  have all : (account.enter due (.enroll item)).tickets.Perm
      (⟨account.admitted.length, item⟩ :: account.tickets) := by
    simp only [Account.tickets, Account.enter, List.append_assoc]
    exact placed.append_right _
  refine ⟨?_, fun t known => ?_, ?_, fun t waits => ?_, sound.punctual, sound.reached,
    sound.ordered, fun d made t waits => ?_, sound.proper⟩
  · -- The new ticket takes the next number.
    refine (all.map Ticket.order).trans ?_
    simp only [Account.enter, List.map_cons, List.length_append, List.length_singleton,
      List.range_succ]
    exact (List.Perm.cons _ sound.accounted).trans (List.perm_append_singleton ..).symm
  · rcases List.mem_cons.mp (all.mem_iff.mp known) with rfl | old
    · simp [Account.enter]
    · simp only [Account.enter]
      rw [List.getElem?_append_left (sound.newest old)]
      exact sound.named t old
  · exact place_sorted sound.sorted fun q waits => sound.newest (mem_tickets_of_queue waits)
  · rcases mem_place.mp waits with rfl | old
    · exact later
    · exact sound.ahead t old
  · rcases mem_place.mp waits with rfl | old
    · -- What was delivered is due by now and was admitted earlier.
      have past := sound.reached d made
      rcases Nat.lt_or_eq_of_le (Nat.le_trans past later) with early | same
      · exact Or.inl early
      · exact Or.inr ⟨same, sound.newest (mem_tickets_of_delivered made)⟩
    · exact sound.turn d made t old

/-- The account without the head of its queue. -/
theorem take_head {t : Ticket α} {rest : List (Ticket α)} (head : account.queue = t :: rest) :
    account.take t.item = some (t, { account with queue := rest }) := by
  simp [Account.take, head]

/-- Delivering the head of the queue when it is due. -/
theorem deliver (sound : Sound due clock account) {t : Ticket α} {rest : List (Ticket α)}
    (head : account.queue = t :: rest) (now : due t.item = clock) :
    Sound due clock (account.enter due (.deliver t.item clock)) := by
  obtain ⟨first, others⟩ := List.pairwise_cons.mp (head ▸ sound.sorted)
  have inside : t ∈ account.queue := head ▸ List.mem_cons_self
  have behind : ∀ u ∈ rest, u ∈ account.queue := fun u member => head ▸ List.mem_cons_of_mem t member
  have entered : account.enter due (.deliver t.item clock) =
      { account with queue := rest, delivered := account.delivered ++ [(t, clock)] } := by
    simp only [Account.enter, take_head head]
  -- The ticket moves from the queue to the delivered ones.
  have all : (account.enter due (.deliver t.item clock)).tickets.Perm account.tickets := by
    rw [entered]
    refine List.perm_iff_count.mpr fun u => ?_
    simp only [Account.tickets, head, List.count_append, List.count_cons, List.map_append,
      List.map_cons, List.map_nil, List.count_nil]
    omega
  rw [entered] at all ⊢
  refine ⟨(all.map _).trans sound.accounted, fun u known => sound.named u (all.mem_iff.mp known),
    others, fun u waits => sound.ahead u (behind u waits), fun d made => ?_, fun d made => ?_, ?_,
    fun d made u waits => ?_, sound.proper⟩
  · simp only [List.mem_append, List.mem_singleton] at made
    rcases made with ((old | rfl) | past) | failed
    · exact sound.punctual d (by simp [old])
    · exact now.symm
    · exact sound.punctual d (by simp [past])
    · exact sound.punctual d (by simp [failed])
  · rcases List.mem_append.mp made with old | new
    · exact sound.reached d old
    · rw [List.mem_singleton.mp new]
      exact Nat.le_of_eq now
  · -- Every ticket delivered before was due before this one.
    simp only [List.map_append, List.map_cons, List.map_nil]
    refine List.pairwise_append.mpr ⟨sound.ordered, List.pairwise_singleton .., ?_⟩
    intro u made v new
    obtain ⟨d, old, rfl⟩ := List.mem_map.mp made
    rw [List.mem_singleton.mp new]
    exact sound.turn d old t inside
  · rcases List.mem_append.mp made with old | new
    · exact sound.turn d old u (behind u waits)
    · rw [List.mem_singleton.mp new]
      exact first u waits

omit [DecidableEq α] in
/-- Taking tickets off the queue without delivering them. -/
theorem withdraw (sound : Sound due clock account) {after : Account α}
    (admitted : after.admitted = account.admitted) (all : after.tickets.Perm account.tickets)
    (fewer : after.queue.Sublist account.queue) (delivered : after.delivered = account.delivered)
    (punctual : ∀ d ∈ after.past ++ after.failed, d.2 = due d.1.item)
    (proper : after.strays = []) : Sound due clock after := by
  -- What is left in the queue was in it, and nothing was delivered.
  refine ⟨?_, fun t known => ?_, sound.sorted.sublist fewer,
    fun t waits => sound.ahead t (fewer.subset waits), fun d made => ?_, ?_, ?_, ?_, proper⟩
  · rw [admitted]
    exact (all.map _).trans sound.accounted
  · rw [admitted]
    exact sound.named t (all.mem_iff.mp known)
  · rw [List.append_assoc] at made
    rcases List.mem_append.mp made with old | other
    · exact sound.punctual d (by rw [← delivered]; simp [old])
    · exact punctual d other
  · rw [delivered]
    exact sound.reached
  · rw [delivered]
    exact sound.ordered
  · rw [delivered]
    exact fun d made t waits => sound.turn d made t (fewer.subset waits)

/-- Cancelling the oldest ticket. -/
theorem cancel (sound : Sound due clock account) {t : Ticket α}
    (first : oldest account.queue = some t) :
    Sound due clock (account.enter due (.cancel t.item)) := by
  have inside := (oldest_spec first).1
  have entered : account.enter due (.cancel t.item) =
      { account with
        queue := account.queue.erase t
        cancelled := account.cancelled ++ [t] } := by
    simp only [Account.enter, first, if_true]
  -- The ticket moves from the queue to the cancelled ones.
  have all : (account.enter due (.cancel t.item)).tickets.Perm account.tickets := by
    rw [entered]
    have queue := List.perm_cons_erase inside
    refine List.perm_iff_count.mpr fun u => ?_
    have counts := queue.count_eq u
    simp only [Account.tickets, List.count_append, List.count_cons, List.count_nil] at counts ⊢
    omega
  rw [entered] at all ⊢
  refine sound.withdraw rfl all List.erase_sublist rfl (fun d made => ?_) sound.proper
  rw [List.mem_append] at made
  rcases made with past | failed
  · exact sound.punctual d (by simp [past])
  · exact sound.punctual d (by simp [failed])

/-- Cancelling everything in the order of admission, when the queue is in that order. -/
theorem cancelAll (sound : Sound due clock account)
    (fifo : account.queue.Pairwise fun a b => a.order < b.order) :
    (((account.queue.map Ticket.item).map Event.cancel).foldl (Account.enter due) account).queue =
        [] ∧
      Sound due clock
        (((account.queue.map Ticket.item).map Event.cancel).foldl (Account.enter due) account) := by
  generalize waiting : account.queue = queue at fifo ⊢
  induction queue generalizing account with
  | nil => exact ⟨waiting, sound⟩
  | cons t rest ih =>
    obtain ⟨first, others⟩ := List.pairwise_cons.mp fifo
    -- The head is the oldest, so it is the one cancelled.
    have head : oldest account.queue = some t := by
      rw [waiting]
      exact oldest_head first
    have entered : (account.enter due (.cancel t.item)).queue = rest := by
      simp only [Account.enter, head, if_true]
      rw [waiting, List.erase_cons_head]
    exact ih (sound.cancel head) entered others

/-- Starting the clock again once nothing waits. -/
theorem restart (sound : Sound due clock account) (empty : account.queue = []) :
    Sound due 0 (account.enter due .restart) := by
  have all : (account.enter due .restart).tickets.Perm account.tickets := by
    refine List.perm_iff_count.mpr fun u => ?_
    simp only [Account.tickets, Account.enter, List.count_append, List.map_append, List.map_nil,
      List.count_nil]
    omega
  -- With an empty queue nothing is due on the new clock.
  refine ⟨(all.map _).trans sound.accounted, fun u known => sound.named u (all.mem_iff.mp known),
    sound.sorted, fun t waits => ?_, fun d made => ?_, nofun, List.Pairwise.nil, nofun,
    sound.proper⟩
  · have waiting : t ∈ account.queue := waits
    rw [empty] at waiting
    exact absurd waiting nofun
  · simp only [Account.enter, List.mem_append] at made
    refine sound.punctual d ?_
    simp only [List.mem_append]
    tauto

end Sound

end Ledger
