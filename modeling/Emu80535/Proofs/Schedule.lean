import Emu80535.Lib.Ledger
import Emu80535.Lib.Ring
import Emu80535.Proofs.Clock
import Emu80535.Proofs.Requests
import Emu80535.Proofs.Wiring

/-! The external schedule: its ring, and the fate of every event it accepts. -/

namespace Emu80535

variable {ω : Type} {hooks : Hooks ω} {m n : Machine ω}

open Machine Ledger

/-! ### The ring -/

/-- The events that wait in the ring, in the order they will be applied. -/
def Schedule.pending (q : Schedule) : List ScheduleEvent :=
  Ring.contents scheduleCapacity q.slots q.head q.count

/-- Those of them a clock has reached. -/
def Schedule.dueBy (q : Schedule) (clock : Nat) : List ScheduleEvent :=
  q.pending.takeWhile fun event => event.machineCycle ≤ clock

/-! ### Applying what is due -/

/-- The machine once the head has been taken off its ring. -/
def Machine.unqueued (m : Machine ω) : Machine ω :=
  m.mapCpu fun c =>
    { c with schedule := { c.schedule with
        head := (c.schedule.head + 1) % scheduleCapacity
        count := c.schedule.count - 1 } }

/-- The machine to which the event at the head of its ring has been applied. -/
def deliver (hooks : Hooks ω) (m : Machine ω) (event : ScheduleEvent) : Machine ω :=
  (applyEvent hooks event m.unqueued).2

/-- The machine whose ring, once it is empty, starts at the first slot again. -/
def Machine.rewound (m : Machine ω) : Machine ω :=
  if m.cpu.schedule.count = 0 then
    m.mapCpu fun c => { c with schedule := { c.schedule with head := 0 } }
  else m

/--
What a tick may do about the schedule.

A completed machine cycle moves the clock by one and applies to the machine the events that this
makes due, each of them once and in the order of the ring; nothing else is applied or removed.
-/
inductive Serves (hooks : Hooks ω) (m n : Machine ω) : Prop
  /-- No machine cycle is completed. -/
  | idle (timetable : n.cpu.timetable = m.cpu.timetable)
      (driven : n.cpu.drivenLevel = m.cpu.drivenLevel)
  /-- One is, from the machine its peripherals left. -/
  | cycle (k : Machine ω)
      (start : k.cpu.timetable = (m.cpu.schedule, m.cpu.machineCycleCount + 1))
      (ends : n = maintainLevelRequests hooks
        ((m.cpu.schedule.dueBy (m.cpu.machineCycleCount + 1)).foldl (deliver hooks) k).rewound)
      (clock : n.cpu.machineCycleCount = m.cpu.machineCycleCount + 1)
      (waits : m.cpu.schedule.pending =
        m.cpu.schedule.dueBy (m.cpu.machineCycleCount + 1) ++ n.cpu.schedule.pending)
      (driven : n.cpu.drivenLevel =
        (m.cpu.schedule.dueBy (m.cpu.machineCycleCount + 1)).foldl
          (fun drive event => event.rewire drive) m.cpu.drivenLevel)

/-! ### The log of a run -/

/-- What the log says of a list of deliveries made at one time. -/
def deliveries (events : List ScheduleEvent) (clock : Nat) : List (Event ScheduleEvent) :=
  events.map fun event => .deliver event clock

/-- The events a tick applies: those due by the clock it leaves, where it has moved the clock. -/
def tickLog (hooks : Hooks ω) (m : Machine ω) : List (Event ScheduleEvent) :=
  let clock := (tick hooks m).2.cpu.machineCycleCount
  if clock = m.cpu.machineCycleCount then []
  else deliveries (m.cpu.schedule.dueBy clock) clock

/-- What a host call accepts, applies at once or removes. -/
def callLog (hooks : Hooks ω) (call : HostCall) (m : Machine ω) : List (Event ScheduleEvent) :=
  match call with
  | .schedule event =>
    if (schedule hooks event m).1 then
      -- An event for the present is applied without being queued.
      if event.machineCycle = m.cpu.machineCycleCount then
        [.enroll event, .deliver event m.cpu.machineCycleCount]
      else [.enroll event]
    else []
  | .clearSchedule => m.cpu.schedule.pending.map .cancel
  | .reset _ _ => m.cpu.schedule.pending.map .cancel ++ [.restart]
  | _ => []

/-- Runs from a reset with the log of what they did to the schedule. -/
inductive Logged (hooks : Hooks ω) : Machine ω → List (Event ScheduleEvent) → Prop
  | reset {m : Machine ω} (fresh : m.IsReset) : Logged hooks m []
  | tick {m : Machine ω} {log : List (Event ScheduleEvent)} (before : Logged hooks m log) :
      Logged hooks (tick hooks m).2 (log ++ tickLog hooks m)
  | call {m : Machine ω} {log : List (Event ScheduleEvent)} (call : HostCall)
      (before : Logged hooks m log) :
      Logged hooks (call.run hooks m).2 (log ++ callLog hooks call m)
  | own {m : Machine ω} {log : List (Event ScheduleEvent)} (update : ω → ω)
      (before : Logged hooks m log) : Logged hooks { m with host := update m.host } log

/-- A logged run is one from a reset. -/
theorem Logged.reachable {log : List (Event ScheduleEvent)} (run : Logged hooks m log) :
    Reachable hooks m := by
  induction run with
  | reset fresh => exact ⟨_, [], fresh, rfl⟩
  | tick _ ih => exact ih.step .tick
  | call c _ ih => exact ih.step (.call c)
  | own update _ ih => exact ih.step (.own update)

/-- The account of the events a run has accepted. -/
def bookkeeping (log : List (Event ScheduleEvent)) : Account ScheduleEvent :=
  Account.ofLog ScheduleEvent.machineCycle log

/-! ### The invariant -/

/-- The ring holds what its account says waits, all of it later than the clock. -/
structure Booked (table : Schedule × Nat) (account : Account ScheduleEvent) : Prop where
  head : table.1.head < scheduleCapacity
  count : table.1.count ≤ scheduleCapacity
  queue : account.queue.map Ticket.item = table.1.pending
  /-- The ring is also in the order of acceptance. -/
  fifo : account.queue.Pairwise fun a b => a.order < b.order
  sound : Sound ScheduleEvent.machineCycle table.2 account

/-- The account after more of the log. -/
def recorded (account : Account ScheduleEvent) (log : List (Event ScheduleEvent)) :
    Account ScheduleEvent :=
  log.foldl (Account.enter ScheduleEvent.machineCycle) account

namespace Booked

variable {table : Schedule × Nat} {account : Account ScheduleEvent}

/-- The ring is in the order of its cycles. -/
theorem sorted (booked : Booked table account) :
    table.1.pending.Pairwise fun a b => a.machineCycle ≤ b.machineCycle := by
  rw [← booked.queue]
  refine List.pairwise_map.mpr (booked.sound.sorted.imp fun {a b} before => ?_)
  rcases before with early | ⟨same, -⟩
  · exact Nat.le_of_lt early
  · exact Nat.le_of_eq same

/-- Nothing in the ring is later than its last entry. -/
theorem le_last (booked : Booked table account) {event : ScheduleEvent} {cycle : Nat}
    (member : event ∈ table.1.pending)
    (last : table.1.count ≠ 0 → (table.1.entry (table.1.count - 1)).machineCycle ≤ cycle) :
    event.machineCycle ≤ cycle := by
  -- An empty ring has no entries.
  by_cases none : table.1.count = 0
  · rw [Schedule.pending, none, Ring.contents_zero] at member
    exact absurd member nofun
  · -- The ring is sorted, so its last entry is the latest.
    obtain ⟨front, whole⟩ := List.getLast?_eq_some_iff.mp (Ring.getLast?_contents none)
    have order := booked.sorted
    rw [Schedule.pending, whole] at order member
    rcases List.mem_append.mp member with earlier | end_
    · have before := (List.pairwise_append.mp order).2.2 event earlier _ (List.mem_singleton_self _)
      exact Nat.le_trans before (last none)
    · rw [List.mem_singleton.mp end_]
      exact last none

/-- The head of the ring is the head of the queue. -/
theorem split (booked : Booked table account) (some : table.1.count ≠ 0) :
    ∃ t rest, account.queue = t :: rest ∧ t.item = table.1.slots table.1.head ∧
      rest.map Ticket.item = Ring.contents scheduleCapacity table.1.slots
        ((table.1.head + 1) % scheduleCapacity) (table.1.count - 1) := by
  -- Taking the head off the ring takes it off the queue.
  have contents := booked.queue
  rw [Schedule.pending, Ring.contents_pop booked.head some] at contents
  cases waiting : account.queue with
  | nil =>
    rw [waiting] at contents
    exact absurd contents nofun
  | cons t rest =>
    rw [waiting, List.map_cons] at contents
    exact ⟨t, rest, rfl, List.head_eq_of_cons_eq contents, List.tail_eq_of_cons_eq contents⟩

/-- Taking the head off the ring delivers it, when it is due. -/
theorem deliver (booked : Booked table account) (some : table.1.count ≠ 0)
    (now : (table.1.slots table.1.head).machineCycle = table.2) :
    Booked ({ table.1 with
        head := (table.1.head + 1) % scheduleCapacity
        count := table.1.count - 1 }, table.2)
      (account.enter ScheduleEvent.machineCycle
        (.deliver (table.1.slots table.1.head) table.2)) := by
  -- The head of the queue is the head of the ring.
  obtain ⟨t, rest, waiting, item, others⟩ := booked.split some
  have sound := booked.sound.deliver waiting (item ▸ now)
  have ascending := (List.pairwise_cons.mp (waiting ▸ booked.fifo)).2
  rw [← item]
  -- What is left is still in order, and its tickets as well.
  refine ⟨Nat.mod_lt _ (by decide), Nat.le_trans (Nat.sub_le _ _) booked.count, ?_, ?_, sound⟩
  · simp only [Account.enter, Sound.take_head waiting]
    exact others
  · simp only [Account.enter, Sound.take_head waiting]
    exact ascending

/-- The head of an empty ring may be anywhere. -/
theorem rewind (booked : Booked table account) (none : table.1.count = 0) :
    Booked ({ table.1 with head := 0 }, table.2) account := by
  refine ⟨Nat.zero_lt_succ _, booked.count, ?_, booked.fifo, booked.sound⟩
  rw [booked.queue, Schedule.pending, Schedule.pending, none]
  rfl

end Booked

/-! ### Cycles -/

section Loop

variable (hooks)

/-- Applying the event at the head takes it off the ring, and that is all it does to it. -/
theorem deliver_timetable (m : Machine ω) (event : ScheduleEvent) :
    (deliver hooks m event).cpu.timetable =
      ({ m.cpu.schedule with
          head := (m.cpu.schedule.head + 1) % scheduleCapacity
          count := m.cpu.schedule.count - 1 }, m.cpu.machineCycleCount) :=
  @applyEvent_timetable ω hooks m.unqueued event

/-- And it rewires the inputs. -/
theorem deliver_drivenLevel (sab : m.cpu.variant = .sab80535) (event : ScheduleEvent) :
    (deliver hooks m event).cpu.drivenLevel = event.rewire m.cpu.drivenLevel :=
  @applyEvent_drivenLevel ω hooks m.unqueued sab event

/-- Delivering keeps the variant. -/
theorem deliver_sab (sab : m.cpu.variant = .sab80535) (event : ScheduleEvent) :
    (deliver hooks m event).cpu.variant = .sab80535 :=
  @applyEvent_sab ω hooks m.unqueued sab event

/-- Nothing is due at an empty ring, or while its head is not. -/
theorem dueBy_ends {q : Schedule} {clock : Nat} (inside : q.head < scheduleCapacity)
    (ends : q.count = 0 ∨ clock < (q.slots q.head).machineCycle) : q.dueBy clock = [] := by
  by_cases none : q.count = 0
  · rw [Schedule.dueBy, Schedule.pending, none, Ring.contents_zero]
    rfl
  · have later := ends.resolve_left none
    rw [Schedule.dueBy, Schedule.pending, Ring.contents_pop inside none,
      List.takeWhile_cons_of_neg (by simpa using later)]

/-- A head that is due comes first, and the rest as it stands once the head is off the ring. -/
theorem dueBy_goes {q : Schedule} {clock : Nat} (inside : q.head < scheduleCapacity)
    (busy : q.count ≠ 0) (due : ¬clock < (q.slots q.head).machineCycle) :
    q.dueBy clock = q.slots q.head :: Schedule.dueBy { q with
      head := (q.head + 1) % scheduleCapacity
      count := q.count - 1 } clock := by
  rw [Schedule.dueBy, Schedule.pending, Ring.contents_pop inside busy,
    List.takeWhile_cons_of_pos (by simpa using due)]
  rfl

/-- The loop applies the events that are due, one after another. -/
theorem applyDue_eq (fuel : Nat) (m : Machine ω) (sab : m.cpu.variant = .sab80535)
    (inside : m.cpu.schedule.head < scheduleCapacity) (enough : m.cpu.schedule.count ≤ fuel) :
    applyDue hooks fuel m =
      (m.cpu.schedule.dueBy m.cpu.machineCycleCount).foldl (deliver hooks) m := by
  -- The induction is on the fuel, which covers the entries that are left.
  induction fuel generalizing m with
  | zero =>
    rw [dueBy_ends inside (Or.inl (Nat.le_zero.mp enough))]
    rfl
  | succ fuel ih =>
    by_cases ends : m.cpu.schedule.count = 0 ∨ m.cpu.machineCycleCount <
        (m.cpu.schedule.slots m.cpu.schedule.head).machineCycle
    · rw [dueBy_ends inside ends]
      simp only [applyDue]
      rcases ends with none | later
      · simp [none]
      · simp [later]
    · obtain ⟨busy, due⟩ := not_or.mp ends
      have goes : applyDue hooks (fuel + 1) m = applyDue hooks fuel
          (deliver hooks m (m.cpu.schedule.slots m.cpu.schedule.head)) :=
        (if_pos ⟨sab, busy⟩).trans (if_neg due)
      have applied := deliver_timetable hooks m (m.cpu.schedule.slots m.cpu.schedule.head)
      have variant := @deliver_sab ω hooks m sab (m.cpu.schedule.slots m.cpu.schedule.head)
      rw [goes, dueBy_goes inside busy due, List.foldl_cons]
      generalize deliver hooks m (m.cpu.schedule.slots m.cpu.schedule.head) = k
        at applied variant ⊢
      have ring : k.cpu.schedule = _ := congrArg Prod.fst applied
      have clock : k.cpu.machineCycleCount = m.cpu.machineCycleCount := congrArg Prod.snd applied
      rw [ih k variant (by rw [ring]; exact Nat.mod_lt _ (by decide))
        (by rw [ring]; exact Nat.sub_le_of_le_add enough), ring, clock]

/-- The whole of `sab_external_apply_scheduled` is that, and a ring that starts again when empty. -/
theorem applyScheduled_eq (m : Machine ω) (sab : m.cpu.variant = .sab80535)
    (inside : m.cpu.schedule.head < scheduleCapacity) :
    applyScheduled hooks m =
      ((m.cpu.schedule.dueBy m.cpu.machineCycleCount).foldl (deliver hooks) m).rewound := by
  rw [← applyDue_eq hooks m.cpu.schedule.count m sab inside (Nat.le_refl _)]
  rfl

/-- Applying events one after another rewires the inputs one after another. -/
theorem foldl_deliver_drivenLevel (events : List ScheduleEvent) (m : Machine ω)
    (sab : m.cpu.variant = .sab80535) :
    (events.foldl (deliver hooks) m).cpu.drivenLevel =
      events.foldl (fun drive event => event.rewire drive) m.cpu.drivenLevel := by
  induction events generalizing m with
  | nil => rfl
  | cons event rest ih =>
    rw [List.foldl_cons, List.foldl_cons, ih _ (deliver_sab hooks sab event),
      deliver_drivenLevel hooks sab event]

end Loop

/-- A ring whose head is not due has nothing due. -/
theorem Booked.drained {table : Schedule × Nat} {account : Account ScheduleEvent}
    (booked : Booked table account) (ends : table.1.count = 0 ∨
      table.2 < (table.1.slots table.1.head).machineCycle) :
    Drained ScheduleEvent.machineCycle table.2 account := by
  -- With the ring empty nothing waits; otherwise all of it waits for later than the head.
  intro u waits
  by_cases busy : table.1.count = 0
  · have contents := booked.queue
    rw [Schedule.pending, busy, Ring.contents_zero] at contents
    rw [List.map_eq_nil_iff.mp contents] at waits
    exact absurd waits nofun
  · obtain ⟨t, rest, waiting, item, -⟩ := booked.split busy
    have later : table.2 < t.item.machineCycle := by
      rw [item]
      exact ends.resolve_left busy
    -- The queue is sorted by cycle, and by ticket within one.
    have order := List.pairwise_cons.mp (waiting ▸ booked.sound.sorted)
    rw [waiting] at waits
    rcases List.mem_cons.mp waits with rfl | behind
    · exact later
    · rcases order.1 u behind with early | ⟨same, -⟩
      · exact Nat.lt_trans later early
      · exact Nat.lt_of_lt_of_eq later same

/-- What the deliveries of one clock leave: a ring in order, in which nothing else is due. -/
structure Delivered (hooks : Hooks ω) (m : Machine ω) (account : Account ScheduleEvent)
    (due : List ScheduleEvent) : Prop where
  clock : (due.foldl (deliver hooks) m).cpu.machineCycleCount = m.cpu.machineCycleCount
  booked : Booked (due.foldl (deliver hooks) m).cpu.timetable
    (recorded account (deliveries due m.cpu.machineCycleCount))
  drained : Drained ScheduleEvent.machineCycle m.cpu.machineCycleCount
    (recorded account (deliveries due m.cpu.machineCycleCount))
  waits : m.cpu.schedule.pending = due ++ (due.foldl (deliver hooks) m).cpu.schedule.pending

/-- The loop delivers what is due and nothing else, and leaves nothing due. -/
theorem deliver_booked {account : Account ScheduleEvent} (left : Nat) (m : Machine ω)
    (enough : m.cpu.schedule.count ≤ left) (booked : Booked m.cpu.timetable account) :
    Delivered hooks m account (m.cpu.schedule.dueBy m.cpu.machineCycleCount) := by
  have inside : m.cpu.schedule.head < scheduleCapacity := booked.head
  -- The induction is on the entries that may be left in the ring.
  induction left generalizing m account with
  | zero =>
    have none := Nat.le_zero.mp enough
    rw [dueBy_ends inside (Or.inl none)]
    exact ⟨rfl, booked, booked.drained (Or.inl none), rfl⟩
  | succ left ih =>
    by_cases ends : m.cpu.schedule.count = 0 ∨ m.cpu.machineCycleCount <
        (m.cpu.schedule.slots m.cpu.schedule.head).machineCycle
    · rw [dueBy_ends inside ends]
      exact ⟨rfl, booked, booked.drained ends, rfl⟩
    · obtain ⟨busy, due⟩ := not_or.mp ends
      -- The head is due, and by the invariant not overdue.
      obtain ⟨t, rest, waiting, item, -⟩ := booked.split busy
      have bound : m.cpu.machineCycleCount ≤ t.item.machineCycle :=
        booked.sound.ahead t (waiting ▸ List.mem_cons_self)
      have now : (m.cpu.schedule.slots m.cpu.schedule.head).machineCycle =
          m.cpu.machineCycleCount :=
        Nat.le_antisymm (Nat.le_of_not_lt due) (item ▸ bound)
      have applied := deliver_timetable hooks m (m.cpu.schedule.slots m.cpu.schedule.head)
      have delivered := booked.deliver busy now
      have ring : (deliver hooks m (m.cpu.schedule.slots m.cpu.schedule.head)).cpu.schedule = _ :=
        congrArg Prod.fst applied
      have clock : (deliver hooks m
          (m.cpu.schedule.slots m.cpu.schedule.head)).cpu.machineCycleCount =
            m.cpu.machineCycleCount := congrArg Prod.snd applied
      have others := ih (deliver hooks m (m.cpu.schedule.slots m.cpu.schedule.head))
        (by rw [ring]; exact Nat.sub_le_of_le_add enough) (applied ▸ delivered)
        (by rw [ring]; exact Nat.mod_lt _ (by decide))
      rw [clock, ring] at others
      rw [dueBy_goes inside busy due]
      refine ⟨others.clock.trans clock, ?_, ?_, ?_⟩
      · have after := others.booked
        rw [clock] at after
        exact after
      · have after := others.drained
        rw [clock] at after
        exact after
      · rw [Schedule.pending, Ring.contents_pop inside busy, List.cons_append]
        have after := others.waits
        rw [ring] at after
        exact congrArg _ after

/-- Starting an empty ring again changes nothing that waits. -/
theorem rewound_booked {account : Account ScheduleEvent} {m : Machine ω}
    (booked : Booked m.cpu.timetable account) :
    Booked m.rewound.cpu.timetable account ∧
      m.rewound.cpu.schedule.pending = m.cpu.schedule.pending ∧
      m.rewound.cpu.machineCycleCount = m.cpu.machineCycleCount ∧
      m.rewound.cpu.drivenLevel = m.cpu.drivenLevel := by
  -- Only an empty ring is started again, and it holds nothing in either place.
  rw [Machine.rewound]
  split
  · rename_i none
    refine ⟨booked.rewind none, ?_, rfl, rfl⟩
    simp only [Schedule.pending, mapCpu_cpu, none, Ring.contents_zero]
  · exact ⟨booked, rfl, rfl, rfl⟩

/-- A sound timetable with nothing due, which is what holds between operations. -/
structure OnTime (table : Schedule × Nat) (account : Account ScheduleEvent) : Prop where
  booked : Booked table account
  drained : Drained ScheduleEvent.machineCycle table.2 account

/-- What a tick does to the schedule, together with what stays sound. -/
structure Served (hooks : Hooks ω) (m n : Machine ω) (account : Account ScheduleEvent) : Prop where
  serves : Serves hooks m n
  onTime : OnTime n.cpu.timetable (recorded account
    (if n.cpu.machineCycleCount = m.cpu.machineCycleCount then []
      else deliveries (m.cpu.schedule.dueBy n.cpu.machineCycleCount) n.cpu.machineCycleCount))

/-- Where the clock stays, nothing is delivered. -/
theorem Served.idle {account : Account ScheduleEvent} (before : OnTime m.cpu.timetable account)
    (timetable : n.cpu.timetable = m.cpu.timetable)
    (driven : n.cpu.drivenLevel = m.cpu.drivenLevel) : Served hooks m n account := by
  refine ⟨.idle timetable driven, ?_⟩
  have clock : n.cpu.machineCycleCount = m.cpu.machineCycleCount := congrArg Prod.snd timetable
  rw [if_pos clock, timetable]
  exact before

/-- A machine cycle that is completed moves the clock by one and delivers what that makes due. -/
theorem Served.cycle {account : Account ScheduleEvent} (k : Machine ω)
    (sab : k.cpu.variant = .sab80535) (before : OnTime m.cpu.timetable account)
    (start : k.cpu.timetable = (m.cpu.schedule, m.cpu.machineCycleCount + 1))
    (driven : k.cpu.drivenLevel = m.cpu.drivenLevel) :
    Served hooks m (maintainLevelRequests hooks (applyScheduled hooks k)) account := by
  have ring : k.cpu.schedule = m.cpu.schedule := congrArg Prod.fst start
  have moved : k.cpu.machineCycleCount = m.cpu.machineCycleCount + 1 := congrArg Prod.snd start
  -- What is due in the new cycle has been waiting since the last one.
  have waited : Booked k.cpu.timetable account := by
    rw [start]
    exact { before.booked with sound := before.booked.sound.wait before.drained }
  -- All of that is delivered, in the order of the ring.
  have delivered := @deliver_booked ω hooks account k.cpu.schedule.count k (Nat.le_refl _) waited
  have rewires := foldl_deliver_drivenLevel hooks
    (k.cpu.schedule.dueBy k.cpu.machineCycleCount) k sab
  have shape := applyScheduled_eq hooks k sab waited.head
  rw [ring, moved] at delivered rewires shape
  have booked := delivered.booked
  have drained := delivered.drained
  have waits := delivered.waits
  have clock := delivered.clock
  rw [moved] at booked drained clock
  rw [ring] at waits
  -- Behind the deliveries an empty ring is started again.
  obtain ⟨again, same, stays, keeps⟩ := rewound_booked booked
  rw [shape]
  generalize made : ((m.cpu.schedule.dueBy (m.cpu.machineCycleCount + 1)).foldl (deliver hooks) k) = a
    at booked clock waits rewires again same stays keeps ⊢
  -- The levels are looked at last, which concerns neither the ring nor the clock.
  have fixed := Stable.fixed_eq (maintainLevelRequests_stable hooks a.rewound)
  have final := timetable_of_fixed fixed
  have schedule : (maintainLevelRequests hooks a.rewound).cpu.schedule = a.rewound.cpu.schedule :=
    congrArg Prod.fst final
  have time : (maintainLevelRequests hooks a.rewound).cpu.machineCycleCount =
      m.cpu.machineCycleCount + 1 := (congrArg Prod.snd final).trans (stays.trans clock)
  -- The parts of the law, each read off the steps above.
  refine ⟨.cycle k start (by rw [made]) time ?_ ?_, ?_⟩
  · rw [schedule, same]
    exact waits
  · rw [drivenLevel_of_fixed fixed, keeps, rewires, driven]
  · rw [time, if_neg (Nat.succ_ne_self _), final]
    refine ⟨again, ?_⟩
    have now : a.rewound.cpu.timetable.2 = m.cpu.machineCycleCount + 1 := stays.trans clock
    rw [now]
    exact drained

/-- A machine cycle serves the schedule. -/
theorem advanceMachineCycle_served {account : Account ScheduleEvent} (k : Machine ω)
    (sab : k.cpu.variant = .sab80535) (before : OnTime m.cpu.timetable account)
    (start : k.cpu.timetable = m.cpu.timetable)
    (driven : k.cpu.drivenLevel = m.cpu.drivenLevel) :
    Served hooks m (advanceMachineCycle hooks k) account := by
  have fixed := Stable.fixed_eq (advancePeripherals_stable hooks k)
  have same := timetable_of_fixed fixed
  have ring : (advancePeripherals hooks k).cpu.schedule = m.cpu.schedule :=
    congrArg Prod.fst (same.trans start)
  have clock : (advancePeripherals hooks k).cpu.machineCycleCount = m.cpu.machineCycleCount :=
    congrArg Prod.snd (same.trans start)
  simp only [advanceMachineCycle]
  split
  · exact Served.idle before start driven
  · split
    · -- An abort in a peripheral leaves the clock where it was.
      exact Served.idle before (same.trans start) ((drivenLevel_of_fixed fixed).trans driven)
    · refine Served.cycle (clocked hooks k) ((congrArg Fixed.variant fixed).trans sab) before ?_
        ((drivenLevel_of_fixed fixed).trans driven)
      simp only [Cpu.timetable, clocked, mapCpu_cpu, ring, clock]

/-! ### Ticks -/

/-- What a tick leaves alone until it advances a machine cycle. -/
structure Untouched (m n : Machine ω) : Prop where
  timetable : n.cpu.timetable = m.cpu.timetable
  variant : n.cpu.variant = m.cpu.variant
  driven : n.cpu.drivenLevel = m.cpu.drivenLevel

/-- A tick advances one machine cycle at most, from the timetable and the inputs it found. -/
theorem tick_tickCycle (quiet : hooks.Quiet) (m : Machine ω) :
    (∃ k, (tick hooks m).2 = advanceMachineCycle hooks k ∧ Untouched m k) ∨
      Untouched m (tick hooks m).2 := by
  -- Each part of the tick keeps timetable, variant and driven levels.
  let held (c : Cpu) : Prop :=
    c.timetable = m.cpu.timetable ∧ c.variant = m.cpu.variant ∧ c.drivenLevel = m.cpu.drivenLevel
  have fixed : ∀ {a b : Cpu} {delay : Nat},
      b.fixed = { a.fixed with tickDelay := delay } → held a → held b := by
    -- All three are among what is fixed.
    intro a b delay same before
    have ring : b.schedule = a.schedule := congrArg Fixed.schedule same
    have clock : b.machineCycleCount = a.machineCycleCount :=
      congrArg Fixed.machineCycleCount same
    have mask : b.pins.mask = a.pins.mask := congrArg Fixed.mask same
    have levels : b.pins.levels = a.pins.levels := congrArg Fixed.levels same
    refine ⟨?_, (congrArg Fixed.variant same).trans before.2.1, ?_⟩
    · rw [← before.1, Cpu.timetable, ring, clock, Cpu.timetable]
    · rw [← before.2.2]
      funext source
      simp only [Cpu.drivenLevel, mask, levels]
  -- What leads to the cycle keeps them, and the cycle is the last step.
  have kept := @tickCycle_keeps ω hooks held (fun _ before => before)
    (fun n before => (handleInterrupts_fixed hooks n).elim fun _ same => fixed same before)
    (fun _ before => before) (fun _ _ _ before => before) (fun _ _ before => before)
    (fun _ before => before)
    (fun opcode n before => fixed (Op.run_fixed quiet (opTable opcode) n) before) m
    ⟨rfl, rfl, rfl⟩
  rcases kept with ⟨k, -, ends, timetable, variant, driven⟩ | ⟨-, timetable, variant, driven⟩
  · exact Or.inl ⟨k, ends, timetable, variant, driven⟩
  · exact Or.inr ⟨timetable, variant, driven⟩

/-- So a tick serves the schedule. -/
theorem tick_served {account : Account ScheduleEvent} (quiet : hooks.Quiet) (m : Machine ω)
    (sab : m.cpu.variant = .sab80535) (before : OnTime m.cpu.timetable account) :
    Served hooks m (tick hooks m).2 account := by
  rcases tick_tickCycle quiet m with ⟨k, ends, same⟩ | same
  · rw [ends]
    exact advanceMachineCycle_served k (same.variant.trans sab) before same.timetable same.driven
  · exact Served.idle before same.timetable same.driven

/-! ### Host calls -/

/-- Driving pins that are not there changes nothing. -/
theorem applyEvent_refused (event : ScheduleEvent)
    (refused : (applyEvent hooks event m).1 = false) : (applyEvent hooks event m).2 = m := by
  -- Both ways to drive a port refuse an address that is none before they change anything.
  have drive : ∀ index mask levels, (portDrive hooks index mask levels m).1 = false →
      (portDrive hooks index mask levels m).2 = m := by
    intro index mask levels
    simp only [portDrive]
    split
    · exact fun _ => rfl
    · exact fun done => absurd done Bool.noConfusion
  have release : ∀ index mask, (portRelease hooks index mask m).1 = false →
      (portRelease hooks index mask m).2 = m := by
    intro index mask
    simp only [portRelease]
    split
    · exact fun _ => rfl
    · exact fun done => absurd done Bool.noConfusion
  revert refused
  -- An event is a drive or a release of one line.
  simp only [applyEvent]
  split
  · simp only [externalDrive]
    split
    · exact fun _ => rfl
    · exact drive _ _ _
  · simp only [externalRelease]
    split
    · exact fun _ => rfl
    · exact release _ _

/-- A call that is refused changes nothing at all. -/
theorem schedule_refused (event : ScheduleEvent) (refused : (schedule hooks event m).1 = false) :
    (schedule hooks event m).2 = m := by
  revert refused
  -- The tests in the order of the source.
  simp only [schedule]
  split
  · exact fun _ => rfl
  · split
    · exact applyEvent_refused event
    · split
      · exact fun _ => rfl
      · split
        · exact fun _ => rfl
        · exact fun done => absurd done Bool.noConfusion

/-- What an accepted call has found. -/
theorem schedule_accepted {event : ScheduleEvent} (accepted : (schedule hooks event m).1 = true) :
    m.cpu.machineCycleCount ≤ event.machineCycle ∧
      ((event.machineCycle = m.cpu.machineCycleCount ∧
          schedule hooks event m = applyEvent hooks event m) ∨
        (event.machineCycle ≠ m.cpu.machineCycleCount ∧
          m.cpu.schedule.count < scheduleCapacity ∧
          (m.cpu.schedule.count ≠ 0 →
            (m.cpu.schedule.entry (m.cpu.schedule.count - 1)).machineCycle ≤ event.machineCycle) ∧
          (schedule hooks event m).2 = m.mapCpu fun c =>
            { c with schedule := { m.cpu.schedule with
                slots := Function.update m.cpu.schedule.slots
                  (m.cpu.schedule.slotAt m.cpu.schedule.count) event
                count := m.cpu.schedule.count + 1 } })) := by
  revert accepted
  -- Each test that passes leaves its fact.
  simp only [schedule]
  split
  · exact fun refused => absurd refused Bool.noConfusion
  · rename_i fits
    have reachable : m.cpu.machineCycleCount ≤ event.machineCycle :=
      Nat.le_of_not_lt fun past => fits (Or.inr (Or.inr (Or.inr past)))
    -- An event of the present cycle is applied at once, and any other one waits.
    split
    · rename_i now
      exact fun _ => ⟨reachable, Or.inl ⟨now, rfl⟩⟩
    · rename_i later
      split
      · exact fun refused => absurd refused Bool.noConfusion
      · rename_i ordered
        split
        · exact fun refused => absurd refused Bool.noConfusion
        · rename_i room
          refine fun _ => ⟨reachable, Or.inr ⟨later, Nat.lt_of_not_le room, fun busy => ?_, rfl⟩⟩
          exact Nat.le_of_not_lt fun early => ordered ⟨busy, early⟩

/-- Accepting an event keeps the timetable sound. -/
theorem schedule_onTime {account : Account ScheduleEvent} (event : ScheduleEvent)
    (before : OnTime m.cpu.timetable account) :
    OnTime (schedule hooks event m).2.cpu.timetable
      (recorded account (callLog hooks (.schedule event) m)) := by
  simp only [callLog]
  split
  · rename_i accepted
    obtain ⟨reachable, ⟨now, applied⟩ | ⟨later, room, ordered, queued⟩⟩ :=
      schedule_accepted accepted
    · -- The new ticket is ahead of all that wait, so it is the one delivered.
      rw [if_pos now, applied, applyEvent_timetable]
      have front : place ScheduleEvent.machineCycle ⟨account.admitted.length, event⟩
          account.queue = ⟨account.admitted.length, event⟩ :: account.queue :=
        place_first fun q waits => Nat.lt_of_le_of_lt (Nat.le_of_eq now) (before.drained q waits)
      have admitted := before.booked.sound.enroll reachable
      have delivered := admitted.deliver front now
      have entered : recorded account
          [.enroll event, .deliver event m.cpu.machineCycleCount] =
            (account.enter ScheduleEvent.machineCycle (.enroll event)).enter
              ScheduleEvent.machineCycle (.deliver event m.cpu.machineCycleCount) := rfl
      have queue : (recorded account
          [.enroll event, .deliver event m.cpu.machineCycleCount]).queue = account.queue := by
        rw [entered]
        simp only [Account.enter, front]
        simp [Account.take]
      refine ⟨⟨before.booked.head, before.booked.count, ?_, ?_, delivered⟩, fun t waits => ?_⟩
      · rw [queue]
        exact before.booked.queue
      · rw [queue]
        exact before.booked.fifo
      · rw [queue] at waits
        exact before.drained t waits
    · -- The new ticket goes to the end of the queue, as its event goes to the end of the ring.
      rw [if_neg later, queued]
      have last : ∀ q ∈ account.queue, q.item.machineCycle ≤ event.machineCycle := by
        intro q waits
        have member : q.item ∈ m.cpu.schedule.pending := by
          rw [← show account.queue.map Ticket.item = m.cpu.schedule.pending from
            before.booked.queue]
          exact List.mem_map_of_mem waits
        exact before.booked.le_last member ordered
      have back : place ScheduleEvent.machineCycle ⟨account.admitted.length, event⟩
          account.queue = account.queue ++ [⟨account.admitted.length, event⟩] := place_last last
      have admitted := before.booked.sound.enroll reachable
      have queue : (recorded account [.enroll event]).queue =
          account.queue ++ [⟨account.admitted.length, event⟩] := back
      refine ⟨⟨before.booked.head, room, ?_, ?_, admitted⟩, fun t waits => ?_⟩
      · rw [queue, List.map_append, before.booked.queue]
        exact (Ring.contents_push event room).symm
      · rw [queue]
        refine List.pairwise_append.mpr ⟨before.booked.fifo, List.pairwise_singleton ..,
          fun t waits u new => ?_⟩
        rw [List.mem_singleton.mp new]
        exact before.booked.sound.newest (Sound.mem_tickets_of_queue waits)
      · rw [queue] at waits
        rcases List.mem_append.mp waits with old | new
        · exact before.drained t old
        · rw [List.mem_singleton.mp new]
          exact Nat.lt_of_le_of_ne reachable (Ne.symm later)
  · rename_i refused
    rw [schedule_refused event (by simpa using refused)]
    exact before

/-- A call that removes everything cancels it in the order of acceptance. -/
theorem recorded_cancels {table : Schedule × Nat} {account : Account ScheduleEvent}
    (booked : Booked table account) :
    (recorded account (table.1.pending.map .cancel)).queue = [] ∧
      Sound ScheduleEvent.machineCycle table.2
        (recorded account (table.1.pending.map .cancel)) := by
  rw [← booked.queue]
  exact booked.sound.cancelAll booked.fifo

/-- An empty ring is on time. -/
theorem onTime_empty {table : Schedule × Nat} {account : Account ScheduleEvent}
    (head : table.1.head = 0) (none : table.1.count = 0) (empty : account.queue = [])
    (sound : Sound ScheduleEvent.machineCycle table.2 account) : OnTime table account := by
  -- With nothing in the ring there is nothing to be checked.
  refine ⟨⟨by rw [head]; decide, by rw [none]; exact Nat.zero_le _, ?_, ?_, sound⟩, ?_⟩
  · rw [empty, Schedule.pending, none]
    rfl
  · rw [empty]
    exact List.Pairwise.nil
  · intro t waits
    rw [empty] at waits
    exact absurd waits nofun

/-- Every host call keeps the timetable sound. -/
theorem hostCall_onTime {account : Account ScheduleEvent} (quiet : hooks.Quiet)
    (sab : m.cpu.variant = .sab80535) (call : HostCall)
    (before : OnTime m.cpu.timetable account) :
    OnTime (call.run hooks m).2.cpu.timetable (recorded account (callLog hooks call m)) := by
  -- All calls but three leave the ring and the clock alone.
  have still : ∀ {k : Machine ω}, k.cpu.timetable = m.cpu.timetable →
      OnTime k.cpu.timetable account := fun same => same ▸ before
  cases call with
  | schedule event => exact schedule_onTime event before
  | clearSchedule =>
    obtain ⟨empty, sound⟩ := recorded_cancels before.booked
    simp only [HostCall.run, clearSchedule, if_pos sab]
    exact onTime_empty rfl rfl empty sound
  | reset wipe rand =>
    obtain ⟨empty, sound⟩ := recorded_cancels before.booked
    have entered : recorded account (callLog hooks (.reset wipe rand) m) =
        (recorded account (m.cpu.schedule.pending.map .cancel)).enter
          ScheduleEvent.machineCycle .restart := List.foldl_append
    rw [entered]
    exact onTime_empty rfl rfl empty (sound.restart empty)
  | setResetSeed _ | setBreakpoint _ _ | loadCode _ => exact still rfl
  | setPending source pending =>
    exact still (timetable_of_fixed (Stable.fixed_eq (setPending_stable hooks m source pending)))
  | portDrive address mask levels =>
    simp only [HostCall.run]
    split
    · exact before
    · exact still (portDrive_timetable _ _ _)
  | portRelease address mask =>
    simp only [HostCall.run]
    split
    · exact before
    · exact still (portRelease_timetable _ _)
  | externalDrive source level => exact still (externalDrive_timetable _ _)
  | externalRelease source => exact still (externalRelease_timetable _)
  | injectRxFrame data ninth =>
    exact still (timetable_of_fixed (Stable.fixed_eq (injectRxFrame_stable hooks m data ninth)))
  | adcSetInput channel input =>
    simp only [HostCall.run, adcSetInput]
    split <;> exact still rfl
  | sfrRead address =>
    simp only [HostCall.run]
    split
    · exact before
    · refine still (congrArg Cpu.timetable ?_)
      exact sfrRead_cpu hooks _ m
  | sfrWrite address value =>
    simp only [HostCall.run]
    split
    · exact before
    · refine still (timetable_of_fixed ?_)
      rcases sfrWrite_stable quiet (sfrIndex address) value m with same | ⟨-, -, same⟩
      · exact congrArg Stable.fixed same
      · exact congrArg Stable.fixed same

/-! ### Whole runs -/

/-- Nothing in a log is a failure. -/
theorem Logged.never_fails {log : List (Event ScheduleEvent)} (run : Logged hooks m log) :
    ∀ e ∈ log, e.isFail = false := by
  -- A log is made of bookings, deliveries and cancellations.
  induction run with
  | reset _ => exact nofun
  | @tick k log _ ih =>
    intro e member
    rcases List.mem_append.mp member with old | new
    · -- A tick only delivers.
      exact ih e old
    · simp only [tickLog] at new
      split at new
      · exact absurd new nofun
      · obtain ⟨event, -, rfl⟩ := List.mem_map.mp new
        rfl
  | @call k log c _ ih =>
    intro e member
    -- Clearing and resetting only cancel.
    have cancels : ∀ q : List ScheduleEvent, ∀ e ∈ q.map Event.cancel, e.isFail = false := by
      intro q e inside
      obtain ⟨event, -, rfl⟩ := List.mem_map.mp inside
      rfl
    rcases List.mem_append.mp member with old | new
    · exact ih e old
    · cases c with
      | schedule event =>
        simp only [callLog] at new
        split at new
        · split at new
          · rcases List.mem_cons.mp new with rfl | last
            · rfl
            · rw [List.mem_singleton.mp last]
              rfl
          · rw [List.mem_singleton.mp new]
            rfl
        · exact absurd new nofun
      | clearSchedule => exact cancels _ e new
      | reset wipe rand =>
        rcases List.mem_append.mp new with removed | last
        · exact cancels _ e removed
        · rw [List.mem_singleton.mp last]
          rfl
      | _ => exact absurd new nofun
  | own _ _ ih => exact ih

/-- Whatever a run does, its timetable stays sound. -/
theorem Logged.onTime {log : List (Event ScheduleEvent)} (quiet : hooks.Quiet)
    (run : Logged hooks m log) : OnTime m.cpu.timetable (bookkeeping log) := by
  -- Induction on the run: each step keeps what is booked on time.
  induction run with
  | reset fresh =>
    obtain ⟨c, wipe, rand, image, entry, -, same⟩ := fresh
    rw [same]
    exact onTime_empty rfl rfl rfl (sound_empty _)
  -- A tick serves what its cycle makes due.
  | @tick k log before ih =>
    have sab := (before.reachable.atRest quiet.passive).sab
    rw [bookkeeping, Account.ofLog_append]
    exact (tick_served quiet k sab ih).onTime
  | @call k log c before ih =>
    have sab := (before.reachable.atRest quiet.passive).sab
    rw [bookkeeping, Account.ofLog_append]
    exact hostCall_onTime quiet sab c ih
  | own update _ ih => exact ih

/-- What a host call that schedules an event does, as its answer and its time say. -/
structure Schedules (hooks : Hooks ω) (m : Machine ω) (event : ScheduleEvent) : Prop where
  /-- An event for the present is applied at once, without being queued. -/
  present : (schedule hooks event m).1 = true → event.machineCycle = m.cpu.machineCycleCount →
    schedule hooks event m = applyEvent hooks event m ∧
      (schedule hooks event m).2.cpu.drivenLevel = event.rewire m.cpu.drivenLevel ∧
      (schedule hooks event m).2.cpu.timetable = m.cpu.timetable
  /-- One for later waits behind all others, and nothing is applied. -/
  later : (schedule hooks event m).1 = true → event.machineCycle ≠ m.cpu.machineCycleCount →
    (schedule hooks event m).2.cpu.schedule.pending = m.cpu.schedule.pending ++ [event] ∧
      (schedule hooks event m).2 =
        m.mapCpu fun c => { c with schedule := (schedule hooks event m).2.cpu.schedule }
  /-- One that is refused changes nothing at all. -/
  refused : (schedule hooks event m).1 = false → (schedule hooks event m).2 = m

/-- Every such call does. -/
theorem schedules (sab : m.cpu.variant = .sab80535) (event : ScheduleEvent) :
    Schedules hooks m event where
  present accepted now := by
    -- An accepted event is applied at once or waits, by its cycle.
    rcases (schedule_accepted accepted).2 with ⟨-, applied⟩ | ⟨later, -⟩
    · rw [applied]
      exact ⟨rfl, applyEvent_drivenLevel sab event, applyEvent_timetable event⟩
    · exact absurd now later
  later accepted later := by
    rcases (schedule_accepted accepted).2 with ⟨now, -⟩ | ⟨-, room, -, queued⟩
    · exact absurd now later
    · rw [queued]
      exact ⟨Ring.contents_push event room, rfl⟩
  refused := schedule_refused event

/--
The external schedule over every run: its ring stays within its bounds and in order, with nothing
due; its account is sound, so that every event accepted is delivered once, when the cycle counter
reaches its cycle, and in order, unless it is cancelled first; a delivery is the event applied to
the machine, by the tick whose cycle made it due or at once; and a call that is refused changes
nothing.
-/
theorem external_schedule {log : List (Event ScheduleEvent)} (quiet : hooks.Quiet)
    (run : Logged hooks m log) :
    m.cpu.schedule.head < scheduleCapacity ∧ m.cpu.schedule.count ≤ scheduleCapacity ∧
      (m.cpu.schedule.pending.Pairwise fun a b => a.machineCycle ≤ b.machineCycle) ∧
      (∀ event ∈ m.cpu.schedule.pending, m.cpu.machineCycleCount < event.machineCycle) ∧
      Sound ScheduleEvent.machineCycle m.cpu.machineCycleCount (bookkeeping log) ∧
      (bookkeeping log).queue.map Ticket.item = m.cpu.schedule.pending ∧
      (bookkeeping log).failed = [] ∧ Serves hooks m (tick hooks m).2 ∧
      ∀ event, Schedules hooks m event := by
  have onTime := run.onTime quiet
  have sab := (run.reachable.atRest quiet.passive).sab
  have booked := onTime.booked
  -- The parts of the law are fields of the invariant.
  refine ⟨booked.head, booked.count, booked.sorted, fun event waits => ?_, booked.sound,
    booked.queue, Account.ofLog_failed run.never_fails, (tick_served quiet m sab onTime).serves,
    schedules sab⟩
  rw [← show (bookkeeping log).queue.map Ticket.item = m.cpu.schedule.pending from booked.queue]
    at waits
  obtain ⟨t, waiting, rfl⟩ := List.mem_map.mp waits
  -- Nothing that waits was due, or it would have been delivered.
  exact onTime.drained t waiting

/-- The boot machine with a falling edge of INT0 scheduled for its second cycle. -/
def scheduledBoot : Machine Unit :=
  (HostCall.run Hooks.none (.schedule ⟨2, 0, 0, false⟩) (Machine.boot fun _ => 0#8)).2

/-- The edge waits over the first cycle; the second applies it, and drives the pin low. -/
theorem external_schedule_edge :
    ∃ log, Logged Hooks.none (tick Hooks.none scheduledBoot).2 log ∧
      (tick Hooks.none scheduledBoot).2.cpu.drivenLevel .int0 = none ∧
      (bookkeeping log).delivered = [] ∧
      (tick Hooks.none scheduledBoot).2.cpu.schedule.dueBy 2 = [⟨2, 0, 0, false⟩] ∧
      Serves Hooks.none (tick Hooks.none scheduledBoot).2
        (tick Hooks.none (tick Hooks.none scheduledBoot).2).2 ∧
      (tick Hooks.none (tick Hooks.none scheduledBoot).2).2.cpu.drivenLevel .int0 = some false ∧
      (bookkeeping (log ++ tickLog Hooks.none (tick Hooks.none scheduledBoot).2)).delivered =
        [(⟨0, ⟨2, 0, 0, false⟩⟩, 2)] := by
  -- The pin is scheduled for the second cycle, and one tick has passed.
  have run : Logged Hooks.none (tick Hooks.none scheduledBoot).2 _ :=
    .tick (.call (.schedule ⟨2, 0, 0, false⟩) (.reset (Machine.boot_isReset fun _ => 0#8)))
  refine ⟨_, run, by decide, by decide, by decide, ?_, by decide, by decide⟩
  exact (external_schedule Hooks.none_quiet run).2.2.2.2.2.2.2.1

end Emu80535
