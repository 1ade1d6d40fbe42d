import Emu80535.Proofs.SinkWriter

/-! The order a file sink writes its records in. -/

namespace Emu80535.FileSink

open Tickets

variable {recordJson : TraceRecord → Output} {s s' : Sink} {c d : System} {es fs : List Event}

-- The texts of headers and footers do not matter here.
attribute [local irreducible] headerJson footerJson

/-! ### What waits -/

/-- The records that have been given a place, in the order of the places. -/
def planned (es : List Event) : List TraceRecord :=
  es.filterMap fun e =>
    match e with
    | .planned r => some r
    | _ => none

/-- Later events only add places. -/
@[simp] theorem planned_append (es fs : List Event) :
    planned (es ++ fs) = planned es ++ planned fs := List.filterMap_append

/-- The loss that an operation is to write before it completes. -/
def reserved (s : Sink) : List TraceRecord :=
  if s.barrierLoss.count ≠ 0 then [s.lossRecord s.barrierLoss] else []

/-- Whether a flush or a close is pending. -/
def Operation.pending : Operation → Bool
  | .flush => true
  | .close => true
  | _ => false

/-- What is to be written before the pending operation completes. -/
def due (s : Sink) : List TraceRecord :=
  (upTo Queued.ticket s.barrierTicket s.queue).map (·.record) ++ reserved s

/-- The records that wait, in the order they are to be written in. -/
def waiting (s : Sink) : List TraceRecord :=
  if s.operation.pending then due s ++ (behind Queued.ticket s.barrierTicket s.queue).map (·.record)
  else s.queue.map (·.record)

/-- The records whose lines have been completed. -/
def written (es : List Event) : List TraceRecord :=
  es.filterMap fun e =>
    match e with
    | .wrote r => some r
    | _ => none

/-- Later events only add lines. -/
@[simp] theorem written_append (es fs : List Event) :
    written (es ++ fs) = written es ++ written fs := List.filterMap_append

/-! ### Control -/

/-- The state of a sink that performs an operation and has not failed. -/
def Operation.state : Operation → State
  | .none => .open_
  | .opening => .flushPending
  | .flush => .flushPending
  | .close => .closePending

/-- The sink is open, or on its way from or to it. -/
structure Live (s : Sink) : Prop where
  error : s.status.error = .ok
  state : s.status.state = s.operation.state
  opening : s.operation = .opening → s.queue = [] ∧ s.files = [] ∧ s.status.records = 0
  closing : s.operation = .close → ∀ q ∈ s.queue, q.ticket ≤ s.barrierTicket

/-- The sink is closed or has failed. -/
structure Done (s : Sink) : Prop where
  state : s.status.state = .closed ∨ s.status.state = .failed
  operation : s.operation = .none
  queue : s.queue = []

/-- A limit has been reached, and the last segment is about to be closed. -/
structure Limited (s : Sink) : Prop where
  state : s.status.state = .closePending
  error : s.status.error = .capacity
  operation : s.operation = .close
  queue : s.queue = []

/-- What the sink is like while the writer is somewhere. -/
def Control (c : System) : Prop :=
  match c.writer with
  | .waiting => Live c.sink ∨ Done c.sink
  | .busy (.failure _) => Live c.sink ∨ Done c.sink
  | .busy .opening => Live c.sink ∧ c.sink.operation = .opening
  | .busy (.record _) => Live c.sink ∧ c.sink.operation ≠ .opening
  | .busy (.barrier close _) =>
    Live c.sink ∧ c.sink.operation = (if close then .close else .flush) ∧
      c.sink.barrierLoss.count = 0 ∧ ∀ q ∈ c.sink.queue, c.sink.barrierTicket < q.ticket
  | .limited => Limited c.sink

/-- The tickets given out, and the numbers to be given out next. -/
structure Numbers (s : Sink) : Prop where
  sequence : s.nextSequence ≤ u64Max
  ticket : s.nextTicket ≤ u64Max
  ascending : Ascending Queued.ticket s.queue
  given : ∀ q ∈ s.queue, q.ticket ≤ u64Max ∧ (s.nextTicket ≠ 0 → q.ticket < s.nextTicket)
  barrier : s.nextTicket ≠ 0 → s.barrierTicket < s.nextTicket

/-- No operation has been requested. -/
def Unrequested (es : List Event) : Prop := ∀ e ∈ es, ∀ close pending, e ≠ .requested close pending

/-- The loss that was pending when an operation was requested has been given the last place. -/
def Marked (es : List Event) : Prop :=
  ∀ before close pending after, es = before ++ .requested close pending :: after →
    pending.count ≠ 0 → ∃ earlier r, planned before = earlier ++ [r] ∧ r.kind = .loss ∧
      r.count = pending.count ∧ r.firstSourceSequence = pending.first ∧
      r.lastSourceSequence = pending.last

/-- When a request is completed, what had a place before it is written, and nothing else. -/
def Completed (es : List Event) : Prop :=
  ∀ before close pending after close' rest,
    es = before ++ .requested close pending :: after ++ .completed close' :: rest →
      Unrequested after →
        written (before ++ .requested close pending :: after) = planned before

/-- What is written and what waits is what has been given a place, in its order. -/
structure Order (es : List Event) (c : System) : Prop where
  ascending : Ascending TraceRecord.recordSequence (planned es)
  given : c.sink.nextSequence ≠ 0 → ∀ r ∈ planned es, r.recordSequence < c.sink.nextSequence
  lines : c.sink.lines = written es
  written : c.sink.lines <+: planned es
  exact_ : Live c.sink → c.sink.lines ++ inHand c.sink c.writer ++ waiting c.sink = planned es
  /-- What has been given a place before the pending request is written or due. -/
  point : Live c.sink → c.sink.operation.pending = true → ∃ before close pending after,
    es = before ++ .requested close pending :: after ∧ Unrequested after ∧
      c.sink.lines ++ inHand c.sink c.writer ++ due c.sink = planned before
  completed : Completed es
  marked : Marked es

/-- The files keep the limits, and the writer knows their sizes. -/
structure Sizes (c : System) : Prop where
  limits : Limits c.sink
  segment : 0 < c.sink.request.maxSegments
  record : 0 < c.sink.request.maxTotalRecords
  writing : Live c.sink → c.sink.operation ≠ .opening →
    Measured footerReserve c.sink ∧ c.sink.lines.length < c.sink.request.maxTotalRecords
  closing : c.writer = .limited → Measured footerReserve c.sink

/-- What holds of a sink and of the events of its lifetime. -/
structure Sound (es : List Event) (c : System) : Prop where
  control : Control c
  numbers : Numbers c.sink
  order : Order es c
  sizes : Sizes c

/-! ### Changes that do not matter -/

/-- Sinks that differ in nothing but the losses, the generation and a requested failure. -/
structure Same (s s' : Sink) : Prop where
  queue : s'.queue = s.queue
  operation : s'.operation = s.operation
  nextSequence : s'.nextSequence = s.nextSequence
  nextTicket : s'.nextTicket = s.nextTicket
  barrierTicket : s'.barrierTicket = s.barrierTicket
  barrierLoss : s'.barrierLoss = s.barrierLoss
  request : s'.request = s.request
  state : s'.status.state = s.status.state
  error : s'.status.error = s.status.error
  destinationId : s'.status.destinationId = s.status.destinationId
  segment : s'.status.segment = s.status.segment
  records : s'.status.records = s.status.records
  segmentBytes : s'.segmentBytes = s.segmentBytes
  files : s'.files = s.files

/-- A loss makes the same record for the same destination. -/
theorem lossRecord_same (same : s'.status.destinationId = s.status.destinationId) (loss : Loss) :
    s'.lossRecord loss = s.lossRecord loss := by
  simp only [Sink.lossRecord, same]

/-- The writer has the same in hand. -/
theorem inHand_same (same : s'.status.destinationId = s.status.destinationId) (w : Writer) :
    inHand s' w = inHand s w := by
  unfold inHand
  split
  · rfl
  · rw [lossRecord_same same]
  · rfl

/-- The same loss is reserved. -/
theorem reserved_same (same : s'.status.destinationId = s.status.destinationId)
    (loss : s'.barrierLoss = s.barrierLoss) : reserved s' = reserved s := by
  simp only [reserved, loss, lossRecord_same same]

namespace Same

variable (same : Same s s')
include same

/-- The same lines are written. -/
theorem lines : s'.lines = s.lines := by
  simp only [Sink.lines, same.files]

/-- The same records are due. -/
theorem due : due s' = due s := by
  rw [FileSink.due, FileSink.due, same.queue, same.barrierTicket,
    reserved_same same.destinationId same.barrierLoss]

/-- The same records wait. -/
theorem waiting : waiting s' = waiting s := by
  rw [FileSink.waiting, FileSink.waiting, same.due, same.operation, same.queue,
    same.barrierTicket]

/-- A live sink stays one. -/
theorem live : Live s' ↔ Live s := by
  -- The relation is symmetric in the fields that matter, so each way rewrites them once.
  constructor
  · rintro ⟨error, state, opening, closing⟩
    rw [same.error] at error
    rw [same.state, same.operation] at state
    rw [same.operation, same.queue, same.files, same.records] at opening
    rw [same.operation, same.queue, same.barrierTicket] at closing
    exact ⟨error, state, opening, closing⟩
  · rintro ⟨error, state, opening, closing⟩
    rw [← same.error] at error
    rw [← same.state, ← same.operation] at state
    rw [← same.operation, ← same.queue, ← same.files, ← same.records] at opening
    rw [← same.operation, ← same.queue, ← same.barrierTicket] at closing
    exact ⟨error, state, opening, closing⟩

/-- So does one that is over. -/
theorem done (finished : Done s) : Done s' where
  state := by
    rw [same.state]
    exact finished.state
  operation := same.operation.trans finished.operation
  queue := same.queue.trans finished.queue

/-- So does one at a limit. -/
theorem limited (finished : Limited s) : Limited s' where
  state := same.state.trans finished.state
  error := same.error.trans finished.error
  operation := same.operation.trans finished.operation
  queue := same.queue.trans finished.queue

/-- The writer finds it as it left it. -/
theorem control {w : Writer} (control : Control ⟨s, w⟩) : Control ⟨s', w⟩ := by
  -- Where the writer rests, it is enough that the sink is still live or still done.
  have sinkRests : Live s ∨ Done s → Live s' ∨ Done s' := fun before =>
    before.imp same.live.mpr same.done
  -- What the writer holds decides what has to be known of the sink.
  cases w with
  | waiting => exact sinkRests control
  | limited => exact same.limited control
  | busy task =>
    cases task with
    | failure error => exact sinkRests control
    | opening => exact ⟨same.live.mpr control.1, same.operation.trans control.2⟩
    | record r => exact ⟨same.live.mpr control.1, same.operation ▸ control.2⟩
    | barrier close loss =>
      obtain ⟨live, operation, taken, passed⟩ := control
      -- A barrier also remembers the loss it took and the records it has passed.
      refine ⟨same.live.mpr live, same.operation.trans operation, ?_, ?_⟩
      · exact (congrArg Loss.count same.barrierLoss).trans taken
      · simp only [same.queue, same.barrierTicket]
        exact passed

/-- The numbers are the same. -/
theorem numbers (numbers : Numbers s) : Numbers s' where
  sequence := same.nextSequence ▸ numbers.sequence
  ticket := same.nextTicket ▸ numbers.ticket
  ascending := same.queue ▸ numbers.ascending
  -- The tickets of the queue and the next one are read from the same fields.
  given := by
    rw [same.queue, same.nextTicket]
    exact numbers.given
  barrier := by
    rw [same.barrierTicket, same.nextTicket]
    exact numbers.barrier

/-- The order is the same. -/
theorem order {w : Writer} (order : Order es ⟨s, w⟩) : Order es ⟨s', w⟩ where
  ascending := order.ascending
  given := by
    simp only [same.nextSequence]
    exact order.given
  lines := same.lines.trans order.lines
  written := same.lines ▸ order.written
  -- The equation of the lines is stated for live sinks, and both are live together.
  exact_ live := by
    simp only [same.lines, inHand_same same.destinationId, same.waiting]
    exact order.exact_ (same.live.mp live)
  -- The point that a flush has to reach is the latest request of the same history.
  point live pending := by
    simp only [same.lines, inHand_same same.destinationId, same.due]
    exact order.point (same.live.mp live) (same.operation ▸ pending)
  completed := order.completed
  marked := order.marked

/-- The sizes are the same. -/
theorem sizes {w : Writer} (sizes : Sizes ⟨s, w⟩) : Sizes ⟨s', w⟩ := by
  -- A measure reads the files, the segment and the records of the request.
  have measured : ∀ {n : Nat}, Measured n s → Measured n s' := by
    rintro n ⟨room, segments, records⟩
    refine ⟨?_, ?_, ?_⟩
    · rw [same.files, same.segmentBytes, same.request]
      exact room
    · rw [same.files, same.segment]
      exact segments
    · rw [same.records, same.lines]
      exact records
  refine ⟨⟨?_, ?_, ?_⟩, ?_, ?_, ?_, fun limited => measured (sizes.closing limited)⟩
  · -- The limits are the request's, which no step of this kind touches.
    simp only [same.files, same.request]
    exact sizes.limits.bytes
  · simp only [same.files, same.request]
    exact sizes.limits.segments
  · simp only [same.lines, same.request]
    exact sizes.limits.records
  · simp only [same.request]
    exact sizes.segment
  · simp only [same.request]
    exact sizes.record
  · -- A writer that is about to write still has the room it had.
    intro live ready
    obtain ⟨before, fewer⟩ := sizes.writing (same.live.mp live) (same.operation ▸ ready)
    refine ⟨measured before, ?_⟩
    simp only [same.lines, same.request]
    exact fewer

/-- All of it is the same. -/
theorem sound {w : Writer} (sound : Sound es ⟨s, w⟩) : Sound es ⟨s', w⟩ :=
  ⟨same.control sound.control, same.numbers sound.numbers, same.order sound.order,
    same.sizes sound.sizes⟩

end Same

/-! ### Events that do not matter -/

/-- How a longer list splits at an entry. -/
theorem snoc_split {α : Type} {es before after : List α} {e x : α}
    (same : es ++ [e] = before ++ x :: after) :
    after = [] ∧ e = x ∧ es = before ∨
      ∃ rest, after = rest ++ [e] ∧ es = before ++ x :: rest := by
  -- Either the list stops at the entry, or it goes on to the old last one.
  rcases List.eq_nil_or_concat after with rfl | ⟨rest, last, rfl⟩
  · obtain ⟨front, back⟩ := List.append_inj' same rfl
    exact .inl ⟨rfl, (List.cons.inj back).1, front⟩
  · rw [List.concat_eq_append, ← List.cons_append, ← List.append_assoc] at same
    obtain ⟨front, back⟩ := List.append_inj' same rfl
    exact .inr ⟨rest, by rw [(List.cons.inj back).1, List.concat_eq_append], front⟩

/-- Only completions complete a request. -/
theorem Completed.other {e : Event} (completed : Completed es)
    (uncompleted : ∀ close, e ≠ .completed close) : Completed (es ++ [e]) := by
  intro before close pending after close' rest same quiet
  rcases snoc_split same with ⟨-, isCompletion, -⟩ | ⟨shorter, -, split⟩
  · exact absurd isCompletion (uncompleted close')
  · exact completed before close pending after close' shorter split quiet

/-- A completion completes the latest request. -/
theorem Completed.completed {close' : Bool} (completed : Completed es)
    (reached : ∀ before close pending after, es = before ++ .requested close pending :: after →
      Unrequested after → written es = planned before) :
    Completed (es ++ [.completed close']) := by
  intro before close pending after close'' rest same quiet
  rcases snoc_split same with ⟨-, -, split⟩ | ⟨shorter, -, split⟩
  · rw [← split]
    exact reached before close pending after split quiet
  · exact completed before close pending after close'' shorter split quiet

/-- Only requests mark a loss. -/
theorem Marked.other {e : Event} (marked : Marked es)
    (unrequested : ∀ close pending, e ≠ .requested close pending) : Marked (es ++ [e]) := by
  intro before close pending after same
  rcases snoc_split same with ⟨-, isRequest, -⟩ | ⟨rest, -, shorter⟩
  · exact absurd isRequest (unrequested close pending)
  · exact marked before close pending rest shorter

/-- A request marks the loss that is pending. -/
theorem Marked.requested {close : Bool} {pending : Loss} (marked : Marked es)
    (reserved : pending.count ≠ 0 → ∃ earlier r, planned es = earlier ++ [r] ∧ r.kind = .loss ∧
      r.count = pending.count ∧ r.firstSourceSequence = pending.first ∧
      r.lastSourceSequence = pending.last) :
    Marked (es ++ [.requested close pending]) := by
  intro before close' pending' after same
  -- Only the new entry can be the request that the law is asked about.
  rcases snoc_split same with ⟨-, isRequest, rfl⟩ | ⟨rest, -, shorter⟩
  · cases isRequest
    exact reserved
  · exact marked before close' pending' rest shorter

/-- Events that neither give a place nor concern an operation. -/
def Event.plain : Event → Bool
  | .offered _ _ => true
  | .givenUp _ => true
  | _ => false

/-- They leave the order alone. -/
theorem Order.plain {e : Event} (order : Order es c) (plain : e.plain = true) :
    Order (es ++ [e]) c := by
  -- Such an event names no record, neither a planned one nor a written one.
  have unplanned : planned (es ++ [e]) = planned es := by
    rw [planned_append]
    cases e with
    | offered status view => exact List.append_nil _
    | planned record => exact Bool.noConfusion plain
    | requested close pending => exact Bool.noConfusion plain
    | wrote record => exact Bool.noConfusion plain
    | completed close => exact Bool.noConfusion plain
    | givenUp record => exact List.append_nil _
  have unwritten : FileSink.written (es ++ [e]) = FileSink.written es := by
    rw [written_append]
    cases e with
    | offered status view => exact List.append_nil _
    | planned record => exact List.append_nil _
    | requested close pending => exact List.append_nil _
    | wrote record => exact Bool.noConfusion plain
    | completed close => exact List.append_nil _
    | givenUp record => exact List.append_nil _
  have unrequested : ∀ close pending, e ≠ .requested close pending := by
    rintro close pending rfl
    exact Bool.noConfusion plain
  have uncompleted : ∀ close, e ≠ .completed close := by
    rintro close rfl
    exact Bool.noConfusion plain
  -- Every part of the order reads the history through these two lists only.
  refine ⟨?_, ?_, ?_, ?_, ?_, ?_, ?_, ?_⟩
  · exact unplanned ▸ order.ascending
  · exact unplanned ▸ order.given
  · exact unwritten ▸ order.lines
  · exact unplanned ▸ order.written
  · exact unplanned ▸ order.exact_
  · -- The latest request stays the latest behind an event that is none.
    intro live pending_
    obtain ⟨before, close, pending, after, same, quiet, reached⟩ := order.point live pending_
    refine ⟨before, close, pending, after ++ [e], ?_, ?_, reached⟩
    · rw [same, List.append_assoc, List.cons_append]
    · intro f member
      rcases List.mem_append.mp member with member | member
      · exact quiet f member
      · exact List.mem_singleton.mp member ▸ unrequested
  · exact order.completed.other uncompleted
  · exact order.marked.other unrequested

/-- Any number of them does. -/
theorem Order.plains (order : Order es c) (plain : ∀ e ∈ fs, e.plain = true) :
    Order (es ++ fs) c := by
  induction fs generalizing es with
  | nil => exact (List.append_nil es).symm ▸ order
  | cons e rest ih =>
    rw [List.append_cons]
    refine ih (order.plain (plain e List.mem_cons_self)) ?_
    exact fun f member => plain f (List.mem_cons_of_mem e member)

/-! ### A record joins the queue -/

/-- The next number, unless there is none. -/
theorem u64_succ {n : Nat} (bounded : n ≤ u64Max) (more : u64 (n + 1) ≠ 0) :
    u64 (n + 1) = n + 1 := by
  unfold u64 u64Max at *
  omega

/-- Numbers stay within their type. -/
theorem u64_le (n : Nat) : u64 n ≤ u64Max := by
  unfold u64 u64Max
  omega

/-- A record as `put_record` queues it. -/
def placed (s : Sink) (r : TraceRecord) : TraceRecord :=
  { r with
    destinationId := s.status.destinationId
    epoch := 1
    recordSequence := s.nextSequence }

/-- What can take a record. -/
structure Taking (s : Sink) : Prop where
  live : Live s
  opened : s.operation ≠ .opening
  open_ : s.operation ≠ .close
  sequence : s.nextSequence ≠ 0
  ticket : s.nextTicket ≠ 0

/-- The tickets go on ascending. -/
theorem Numbers.put (numbers : Numbers s) (taking : Taking s) (r : TraceRecord) :
    Numbers (s.putRecord r) := by
  -- The ticket does not wrap: an offer is refused before it would.
  have step := fun more => u64_succ numbers.ticket more
  refine ⟨u64_le _, u64_le _, ?_, ?_, ?_⟩
  · -- The new ticket is above all those given out before it.
    exact numbers.ascending.joined fun q member => (numbers.given q member).2 taking.ticket
  · -- Both the records that waited and the new one are below the next ticket.
    intro q member
    rcases List.mem_append.mp member with member | member
    · obtain ⟨bounded, below⟩ := numbers.given q member
      refine ⟨bounded, fun more => ?_⟩
      change q.ticket < u64 (s.nextTicket + 1)
      rw [step more]
      exact Nat.lt_succ_of_lt (below taking.ticket)
    · rw [List.mem_singleton.mp member]
      refine ⟨numbers.ticket, fun more => ?_⟩
      change s.nextTicket < u64 (s.nextTicket + 1)
      rw [step more]
      exact Nat.lt_succ_self _
  · -- The barrier stands below the tickets still to be given out.
    intro more
    change s.barrierTicket < u64 (s.nextTicket + 1)
    rw [step more]
    exact Nat.lt_succ_of_lt (numbers.barrier taking.ticket)

/-- The sink stays live. -/
theorem Live.put (taking : Taking s) (r : TraceRecord) : Live (s.putRecord r) :=
  ⟨taking.live.error, taking.live.state, fun opening => absurd opening taking.opened,
    fun closing => absurd closing taking.open_⟩

/-- A live sink has reached no limit. -/
theorem Live.unlimited (live : Live s) : ¬Limited s := by
  intro limited
  have same := live.error.symm.trans limited.error
  exact Status.noConfusion same

/-- A live sink is not over. -/
theorem Live.unfinished (live : Live s) : ¬Done s := by
  intro done
  have open_ : s.status.state = .open_ := live.state.trans (congrArg Operation.state done.operation)
  rcases done.state with closed | failed
  · exact State.noConfusion (open_.symm.trans closed)
  · exact State.noConfusion (open_.symm.trans failed)

/-- The writer is not disturbed. -/
theorem control_put {w : Writer} (control : Control ⟨s, w⟩) (numbers : Numbers s)
    (taking : Taking s) (r : TraceRecord) : Control ⟨s.putRecord r, w⟩ := by
  have live := Live.put taking r
  -- A limited sink takes no records, and one that is opening neither.
  cases w with
  | waiting => exact .inl live
  | limited => exact absurd control taking.live.unlimited
  | busy task =>
    cases task with
    | failure error => exact .inl live
    | opening => exact absurd control.2 taking.opened
    | record r => exact ⟨live, taking.opened⟩
    | barrier close loss =>
      obtain ⟨-, operation, taken, passed⟩ := control
      refine ⟨live, operation, taken, ?_⟩
      -- A barrier that has been taken up stays behind the new record as well.
      intro q member
      rcases List.mem_append.mp member with member | member
      · exact passed q member
      · rw [List.mem_singleton.mp member]
        exact numbers.barrier taking.ticket

/-- A record that joins the queue waits last. -/
theorem waiting_put (numbers : Numbers s) (taking : Taking s) (r : TraceRecord) :
    due (s.putRecord r) = due s ∧ waiting (s.putRecord r) = waiting s ++ [placed s r] := by
  -- The new ticket lies above the barrier, so the record is not due before it.
  have later : s.barrierTicket < (Queued.mk (placed s r) s.nextTicket).ticket :=
    numbers.barrier taking.ticket
  have due_ : due (s.putRecord r) = due s := by
    change (upTo Queued.ticket s.barrierTicket (s.queue ++ [⟨placed s r, s.nextTicket⟩])).map _ ++
      reserved s = due s
    rw [upTo_joined later]
    rfl
  refine ⟨due_, ?_⟩
  -- While an operation is pending the queue is read in two parts, and the record joins the second.
  unfold waiting
  rw [due_]
  change (if s.operation.pending then due s ++ (behind Queued.ticket s.barrierTicket
    (s.queue ++ [⟨placed s r, s.nextTicket⟩])).map _ else (s.queue ++ [_]).map _) = _
  split
  · rw [behind_joined later, List.map_append, List.append_assoc]
    rfl
  · rw [List.map_append]
    rfl

/-- A record that joins the queue gets the last place. -/
theorem Order.put {w : Writer} (order : Order es ⟨s, w⟩) (numbers : Numbers s)
    (taking : Taking s) (r : TraceRecord) :
    Order (es ++ [.planned (placed s r)]) ⟨s.putRecord r, w⟩ := by
  obtain ⟨due_, waiting_⟩ := waiting_put numbers taking r
  have places : planned (es ++ [.planned (placed s r)]) = planned es ++ [placed s r] :=
    planned_append _ _
  have hand : inHand (s.putRecord r) w = inHand s w := inHand_same rfl w
  have lines : (s.putRecord r).lines = s.lines := rfl
  have unwritten : FileSink.written (es ++ [.planned (placed s r)]) = FileSink.written es :=
    (written_append _ _).trans (List.append_nil _)
  -- The record joins the plan and the queue at once, and each part of the order is checked for
  -- that.
  refine ⟨?_, ?_, unwritten ▸ order.lines, ?_, ?_, ?_, ?_, ?_⟩
  · -- Its number is above all that were given out.
    rw [places]
    exact order.ascending.joined fun q member => order.given taking.sequence q member
  · -- The numbers given out now include its own.
    intro more q member
    change u64 (s.nextSequence + 1) ≠ 0 at more
    change q.recordSequence < u64 (s.nextSequence + 1)
    rw [u64_succ numbers.sequence more]
    rw [places] at member
    rcases List.mem_append.mp member with member | member
    · exact Nat.lt_succ_of_lt (order.given taking.sequence q member)
    · rw [List.mem_singleton.mp member]
      exact Nat.lt_succ_self _
  · rw [places]
    exact order.written.trans (List.prefix_append _ _)
  · -- What is written, in hand and waiting grows at its end by the record.
    intro _
    simp only [places, hand, lines, waiting_, ← List.append_assoc]
    exact congrArg (· ++ [placed s r]) (order.exact_ taking.live)
  · -- The point of the latest request is not moved by a record behind it.
    intro _ pending_
    obtain ⟨before, close, pending, after, same, quiet, reached⟩ := order.point taking.live pending_
    refine ⟨before, close, pending, after ++ [.planned (placed s r)], ?_, ?_, ?_⟩
    · rw [same, List.append_assoc, List.cons_append]
    · intro f member
      rcases List.mem_append.mp member with member | member
      · exact quiet f member
      · exact List.mem_singleton.mp member ▸ fun _ _ => Event.noConfusion
    · simp only [hand, lines, due_]
      exact reached
  · exact order.completed.other fun _ => Event.noConfusion
  · exact order.marked.other fun _ _ => Event.noConfusion

/-- The files are not touched. -/
theorem Sizes.put {w : Writer} (sizes : Sizes ⟨s, w⟩) (taking : Taking s) (r : TraceRecord) :
    Sizes ⟨s.putRecord r, w⟩ where
  limits := ⟨sizes.limits.bytes, sizes.limits.segments, sizes.limits.records⟩
  segment := sizes.segment
  record := sizes.record
  -- The files and the lines do not change, so the room left is that of before.
  writing _ ready :=
    have before := sizes.writing taking.live ready
    ⟨⟨before.1.room, before.1.segments, before.1.records⟩, before.2⟩
  closing limited :=
    have before := sizes.closing limited
    ⟨before.room, before.segments, before.records⟩

/-- All of it holds on. -/
theorem Sound.put {w : Writer} (sound : Sound es ⟨s, w⟩) (taking : Taking s) (r : TraceRecord) :
    Sound (es ++ [.planned (placed s r)]) ⟨s.putRecord r, w⟩ :=
  ⟨control_put sound.control sound.numbers taking r, sound.numbers.put taking r,
    sound.order.put sound.numbers taking r, sound.sizes.put taking r⟩

/-! ### Offers -/

/-- A sink takes offers, be it into the queue or into the pending loss. -/
structure Going (s : Sink) : Prop where
  failed : s.status.state ≠ .failed
  closed : s.status.state ≠ .closed
  closing : s.status.state ≠ .closePending

/-- What becomes of an offer. -/
inductive Offer (v : TraceRecord) (s : Sink) : Sink → Prop
  /-- The sink has failed or reached a limit, and counts the view. -/
  | counted (finished : s.status.state = .failed ∨
      (s.status.state = .closed ∨ s.status.state = .closePending) ∧ s.status.error = .capacity) :
    Offer v s (Sink.lose 1 { s with generation := v.generation })
  /-- The sink is closed or being closed. -/
  | ignored (finished : s.status.state = .closed ∨ s.status.state = .closePending)
    (unlimited : s.status.error ≠ .capacity) : Offer v s { s with generation := v.generation }
  /-- The view adds to the pending loss, and perhaps to a reason to fail. -/
  | remembered (going : Going s) (failure : Status) :
    Offer v s { Sink.rememberLoss v { s with generation := v.generation } with
      failureRequested := failure }
  | queued (going : Going s) (opened : s.operation ≠ .opening)
    (room : s.sequenceRoom (if s.pendingLoss.count ≠ 0 then 2 else 1) = true) :
    Offer v s (Sink.putRecord v (Sink.putPending v { s with generation := v.generation }))

/-- Nothing else does. -/
theorem providerEnqueue_offer (v : TraceRecord) (s : Sink) :
    Offer v s (s.providerEnqueue v).2 := by
  -- The branches are those of `provider_enqueue`, outermost test first.
  unfold Sink.providerEnqueue
  dsimp only
  split
  · -- A sink that is over counts the view as lost.
    next finished => exact .counted finished
  · next uncounted =>
    split
    · -- A closing sink neither takes it nor counts it.
      next finished =>
      exact .ignored finished fun limited => uncounted (.inr ⟨finished, limited⟩)
    · next open_ =>
      have going : Going s := ⟨fun failed => uncounted (.inl failed),
        fun closed => open_ (.inl closed), fun closing => open_ (.inr closing)⟩
      -- Before the first segment is open every view is remembered as lost.
      split
      · exact .remembered going s.failureRequested
      · next opened =>
        generalize needed : (if s.pendingLoss.count ≠ 0 then 2 else 1) = n
        -- A full queue and numbers that run out remember it as well.
        split
        · exact .remembered going s.failureRequested
        · split
          · next room => exact .queued going opened (needed ▸ room)
          · exact .remembered going .exhausted

/-- Room for two is room for one. -/
theorem sequenceRoom_nonzero {n : Nat} (room : s.sequenceRoom n = true) :
    s.nextSequence ≠ 0 ∧ s.nextTicket ≠ 0 := by
  simp only [Sink.sequenceRoom, decide_eq_true_eq] at room
  exact ⟨room.1, room.2.2.1⟩

/-- A sink that is sound is live, over or at a limit. -/
theorem Control.sink (control : Control c) : Live c.sink ∨ Done c.sink ∨ Limited c.sink := by
  -- The writer says which of the three it is.
  obtain ⟨s, w⟩ := c
  cases w with
  | waiting => exact control.imp id .inl
  | limited => exact .inr (.inr control)
  | busy task =>
    cases task with
    | failure error => exact control.imp id .inl
    | opening => exact .inl control.1
    | record r => exact .inl control.1
    | barrier close loss => exact .inl control.1

/-- One that takes offers is live, and is not being closed. -/
theorem Control.going (control : Control c) (going : Going c.sink) :
    Live c.sink ∧ c.sink.operation ≠ .close := by
  rcases control.sink with live | done | limited
  · refine ⟨live, fun closing => going.closing ?_⟩
    exact live.state.trans (congrArg Operation.state closing)
  · exact absurd done.state (not_or.mpr ⟨going.closed, going.failed⟩)
  · exact absurd limited.state going.closing

/-- A record can be put behind another one if there is room for both. -/
theorem Taking.put (taking : Taking s) (numbers : Numbers s) (room : s.sequenceRoom 2 = true)
    (r : TraceRecord) : Taking (s.putRecord r) := by
  -- Room for two numbers leaves a further one behind the first.
  simp only [Sink.sequenceRoom, decide_eq_true_eq] at room
  have sequence := numbers.sequence
  have ticket := numbers.ticket
  refine ⟨Live.put taking r, taking.opened, taking.open_, ?_, ?_⟩
  · change u64 (s.nextSequence + 1) ≠ 0
    unfold u64
    unfold u64Max at room
    omega
  · change u64 (s.nextTicket + 1) ≠ 0
    unfold u64
    unfold u64Max at room
    omega

/-- The records that an offer queues, in their order. -/
def joining (v : TraceRecord) (s : Sink) : List TraceRecord :=
  if s.pendingLoss.count ≠ 0 then
    [placed s (s.lossRecord { s.pendingLoss with generation := v.generation }),
      placed (Sink.putPending v s) v]
  else [placed s v]

/-- The queue grows by them. -/
theorem putPending_queue (v : TraceRecord) (s : Sink) :
    (((s.putPending v).putRecord v).queue.drop s.queue.length).map (·.record) = joining v s := by
  -- With a loss pending its marker stands in front of the view.
  unfold joining Sink.putPending
  split
  · change ((s.queue ++ [_] ++ [_]).drop s.queue.length).map _ = _
    rw [List.append_assoc, List.drop_left]
    rfl
  · change ((s.queue ++ [_]).drop s.queue.length).map _ = _
    rw [List.drop_left]
    rfl

/-- They get the last places. -/
theorem Sound.join {w : Writer} (sound : Sound es ⟨s, w⟩) (taking : Taking s) (v : TraceRecord)
    (room : s.sequenceRoom (if s.pendingLoss.count ≠ 0 then 2 else 1) = true) :
    Sound (es ++ (joining v s).map .planned) ⟨(s.putPending v).putRecord v, w⟩ := by
  unfold joining
  -- With a loss pending two records join the queue, and without one only the view does.
  by_cases pending : s.pendingLoss.count ≠ 0
  · -- The marker joins first.
    rw [if_pos pending] at room
    have marker := s.lossRecord { s.pendingLoss with generation := v.generation }
    have first := sound.put taking (s.lossRecord { s.pendingLoss with generation := v.generation })
    have cleared : Same (s.putRecord (s.lossRecord
        { s.pendingLoss with generation := v.generation })) (s.putPending v) := by
      unfold Sink.putPending
      rw [if_pos pending]
      exact ⟨rfl, rfl, rfl, rfl, rfl, rfl, rfl, rfl, rfl, rfl, rfl, rfl, rfl, rfl⟩
    -- The room that was asked for is enough for the view behind the marker.
    have next := taking.put sound.numbers room (s.lossRecord
      { s.pendingLoss with generation := v.generation })
    have still : Taking (s.putPending v) :=
      ⟨cleared.live.mpr next.live, cleared.operation ▸ next.opened,
        cleared.operation ▸ next.open_, cleared.nextSequence ▸ next.sequence,
        cleared.nextTicket ▸ next.ticket⟩
    rw [if_pos pending]
    have second := (cleared.sound first).put still v
    rwa [List.append_assoc] at second
  · -- Without a loss `put_pending` does nothing.
    rw [if_neg pending]
    have same : s.putPending v = s := if_neg pending
    rw [same]
    exact sound.put taking v

/-- An offer that queues nothing keeps a sink sound. -/
theorem Sound.unqueued {w : Writer} (sound : Sound es ⟨s, w⟩) (v : TraceRecord)
    (same : Same s s') : Sound (es ++ offerEvents v s s') ⟨s', w⟩ := by
  have nothing : offerEvents v s s' = [.offered s.status v] := by
    unfold offerEvents
    rw [same.queue, List.drop_length]
    rfl
  rw [nothing]
  exact same.sound ⟨sound.control, sound.numbers, sound.order.plain rfl, sound.sizes⟩

/-- An offer keeps a sink sound. -/
theorem Sound.enqueue {w : Writer} (sound : Sound es ⟨s, w⟩) (v : TraceRecord) :
    Sound (es ++ offerEvents v s (s.providerEnqueue v).2) ⟨(s.providerEnqueue v).2, w⟩ := by
  have offer := providerEnqueue_offer v s
  generalize (s.providerEnqueue v).2 = s' at offer ⊢
  -- Only the last of the four outcomes changes the queue.
  cases offer with
  | counted finished =>
    exact sound.unqueued v ⟨rfl, rfl, rfl, rfl, rfl, rfl, rfl, rfl, rfl, rfl, rfl, rfl, rfl, rfl⟩
  | ignored finished unlimited =>
    exact sound.unqueued v ⟨rfl, rfl, rfl, rfl, rfl, rfl, rfl, rfl, rfl, rfl, rfl, rfl, rfl, rfl⟩
  | remembered going failure =>
    exact sound.unqueued v ⟨rfl, rfl, rfl, rfl, rfl, rfl, rfl, rfl, rfl, rfl, rfl, rfl, rfl, rfl⟩
  | queued going opened room =>
    obtain ⟨live, open_⟩ := sound.control.going going
    obtain ⟨sequence, ticket⟩ := sequenceRoom_nonzero room
    -- The generation of the view is taken over first, which no part of the invariant reads.
    have renamed : Same s { s with generation := v.generation } :=
      ⟨rfl, rfl, rfl, rfl, rfl, rfl, rfl, rfl, rfl, rfl, rfl, rfl, rfl, rfl⟩
    have offered : Sound (es ++ [.offered s.status v]) ⟨s, w⟩ :=
      ⟨sound.control, sound.numbers, sound.order.plain rfl, sound.sizes⟩
    have joined := (renamed.sound offered).join
      ⟨renamed.live.mpr live, opened, open_, sequence, ticket⟩ v room
    -- The events of an offer are the offer and the records that have joined.
    have events : offerEvents v s (Sink.putRecord v (Sink.putPending v
        { s with generation := v.generation })) =
        .offered s.status v :: (joining v { s with generation := v.generation }).map .planned := by
      rw [← putPending_queue v { s with generation := v.generation }, List.map_map]
      rfl
    rw [events]
    rwa [List.append_assoc] at joined

/-! ### Requests -/

/-- What becomes of a request. -/
inductive Requested (close : Bool) (generation : Nat) (s : Sink) : Sink → Prop
  | refused (failure : Status) :
    Requested close generation s { s with failureRequested := failure }
  | accepted (closed : s.status.state ≠ .closed) (failed : s.status.state ≠ .failed)
    (idle : s.operation = .none) (room : s.pendingLoss.count ≠ 0 → s.nextSequence ≠ 0) :
    Requested close generation s (s.accept close generation)

/-- Nothing else does. -/
theorem operationLocked_requested (close : Bool) (generation : Nat) (s : Sink) :
    Requested close generation s (s.operationLocked close generation).2 := by
  -- The tests stand in the order of `operation_locked`, and only the last way accepts.
  unfold Sink.operationLocked
  split
  · exact .refused s.failureRequested
  · next open_ =>
    split
    · exact .refused s.failureRequested
    · next idle =>
      split
      · exact .refused s.failureRequested
      · split
        · exact .refused .exhausted
        · next room =>
          refine .accepted (fun closed => open_ (.inl closed)) (fun failed => open_ (.inr failed))
            ?_ fun pending none => room ⟨pending, none⟩
          -- An operation that is under way has been refused before.
          by_contra busy
          exact idle (.inl busy)

/-- Closing all sinks requests a close, and fails a sink that cannot take the request. -/
theorem closeAll_requested (generation : Nat) (s : Sink) :
    Requested true generation s (s.closeAll generation) := by
  unfold Sink.closeAll
  split
  · exact .refused s.failureRequested
  · have request := operationLocked_requested true generation s
    dsimp only
    split
    · next exhausted =>
      -- An accepted request does not answer this way.
      have unaccepted : (s.operationLocked true generation).2 =
          { s with
            failureRequested := (s.operationLocked true generation).2.failureRequested } := by
        revert exhausted
        unfold Sink.operationLocked
        split
        · exact fun _ => rfl
        · split
          · exact fun _ => rfl
          · split
            · exact fun _ => rfl
            · split
              · exact fun _ => rfl
              · exact fun answer => Status.noConfusion answer
      rw [unaccepted]
      exact .refused .exhausted
    · exact request

/-- The sink stays live, now with an operation. -/
theorem Live.accept (live : Live s) (numbers : Numbers s) (close : Bool) (generation : Nat) :
    Live (s.accept close generation) ∧
      ∀ q ∈ s.queue, q.ticket ≤ (s.accept close generation).barrierTicket := by
  -- The barrier's ticket is the last one given out.
  have before : ∀ q ∈ s.queue, q.ticket ≤ (s.accept close generation).barrierTicket := by
    intro q member
    obtain ⟨bounded, below⟩ := numbers.given q member
    unfold Sink.accept
    dsimp only
    split
    · next more => exact Nat.le_sub_one_of_lt (below more)
    · exact bounded
  refine ⟨⟨live.error, ?_, ?_, fun _ => before⟩, before⟩
  · cases close with
    | true => rfl
    | false => rfl
  · -- An accepted request is a flush or a close, never an opening.
    intro opening
    cases close with
    | true => exact Operation.noConfusion opening
    | false => exact Operation.noConfusion opening

/-- An operation is pending behind the request. -/
theorem accept_pending (close : Bool) (generation : Nat) :
    (s.accept close generation).operation.pending = true := by
  cases close with
  | true => rfl
  | false => rfl

/-- All that waits is due. -/
theorem waiting_accept (live : Live s) (numbers : Numbers s) (idle : s.operation = .none)
    (close : Bool) (generation : Nat) :
    due (s.accept close generation) = waiting s ++ reserved (s.accept close generation) ∧
      waiting (s.accept close generation) =
        waiting s ++ reserved (s.accept close generation) := by
  -- Before the request nothing was pending, so all that waits is the queue.
  have before := (live.accept numbers close generation).2
  have queue : (s.accept close generation).queue = s.queue := rfl
  have waits : waiting s = s.queue.map (·.record) := by
    unfold waiting
    rw [idle]
    rfl
  have due_ : due (s.accept close generation) =
      waiting s ++ reserved (s.accept close generation) := by
    -- The barrier stands behind the whole queue, so the queue is due with the reserved marker.
    rw [due, queue, upTo_all before, waits]
  refine ⟨due_, ?_⟩
  rw [waiting, accept_pending, if_pos rfl, due_, queue, behind_none before]
  exact List.append_nil _

/-- The numbers go on, and the barrier stands before those to come. -/
theorem Numbers.accept (numbers : Numbers s) (close : Bool) (generation : Nat) :
    Numbers (s.accept close generation) := by
  refine ⟨?_, numbers.ticket, numbers.ascending, numbers.given, ?_⟩
  · -- The number reserved for the marker is taken from the sequence.
    unfold Sink.accept
    dsimp only
    split
    · exact u64_le _
    · exact numbers.sequence
  · -- The barrier lies one below the next ticket.
    intro more
    have some : s.nextTicket ≠ 0 := more
    unfold Sink.accept
    dsimp only
    rw [if_pos some]
    exact Nat.sub_one_lt some

/-- The writer is not disturbed. -/
theorem control_accept {w : Writer} (control : Control ⟨s, w⟩) (live : Live s)
    (numbers : Numbers s) (idle : s.operation = .none) (close : Bool) (generation : Nat) :
    Control ⟨s.accept close generation, w⟩ := by
  have going := (live.accept numbers close generation).1
  -- No operation was under way, so the writer is not at a barrier and not opening.
  cases w with
  | waiting => exact .inl going
  | limited => exact absurd control live.unlimited
  | busy task =>
    cases task with
    | failure error => exact .inl going
    | opening => exact Operation.noConfusion (idle.symm.trans control.2)
    | record r =>
      refine ⟨going, ?_⟩
      cases close with
      | true => exact Operation.noConfusion
      | false => exact Operation.noConfusion
    | barrier close loss =>
      have busy := idle.symm.trans control.2.1
      cases close with
      | true => exact Operation.noConfusion busy
      | false => exact Operation.noConfusion busy

/-- The record of the loss that a request finds pending. -/
theorem reserved_accept (close : Bool) (generation : Nat) :
    s.pendingLoss.count = 0 ∧ reserved (s.accept close generation) = [] ∨
      s.pendingLoss.count ≠ 0 ∧ ∃ r, reserved (s.accept close generation) = [r] ∧
        r.recordSequence = s.nextSequence ∧ r.kind = .loss ∧ r.count = s.pendingLoss.count ∧
        r.firstSourceSequence = s.pendingLoss.first ∧
        r.lastSourceSequence = s.pendingLoss.last := by
  -- A pending loss gets its record at the request, not when the barrier is written.
  by_cases pending : s.pendingLoss.count = 0
  · refine .inl ⟨pending, ?_⟩
    simp [reserved, Sink.accept, pending]
  · have taken : (s.accept close generation).barrierLoss =
        { s.pendingLoss with sequence := s.nextSequence, generation := generation } :=
      if_pos pending
    refine .inr ⟨pending, s.lossRecord
      { s.pendingLoss with sequence := s.nextSequence, generation := generation }, ?_,
      rfl, rfl, rfl, rfl, rfl⟩
    rw [reserved, taken]
    exact if_pos pending

/-- What an accepted request reports. -/
theorem requestEvents_accept (close : Bool) (generation : Nat) :
    requestEvents close s (s.accept close generation) =
      (reserved (s.accept close generation)).map .planned ++
        [.requested close s.pendingLoss] := by
  -- The identifier of the operation moves on, which is how an accepted request is told.
  have next : (s.accept close generation).status.operationId ≠ s.status.operationId :=
    Nat.succ_ne_self _
  unfold requestEvents reserved
  rw [if_neg next]
  split
  · rfl
  · rfl

/-- An accepted request keeps the order. -/
theorem Order.accept {w : Writer} (order : Order es ⟨s, w⟩) (live : Live s)
    (numbers : Numbers s) (idle : s.operation = .none)
    (room : s.pendingLoss.count ≠ 0 → s.nextSequence ≠ 0) (close : Bool) (generation : Nat) :
    Order (es ++ requestEvents close s (s.accept close generation))
      ⟨s.accept close generation, w⟩ := by
  obtain ⟨due_, waiting_⟩ := waiting_accept live numbers idle close generation
  have hand : inHand (s.accept close generation) w = inHand s w := inHand_same rfl w
  have lines : (s.accept close generation).lines = s.lines := rfl
  -- Before the request everything planned is written, in hand or waiting.
  have reached : s.lines ++ inHand s w ++ waiting s = planned es := order.exact_ live
  rw [requestEvents_accept, ← List.append_assoc]
  -- The marker of a loss is planned by the request itself.
  have reservedPlanned : planned (es ++ (reserved (s.accept close generation)).map .planned) =
      planned es ++ reserved (s.accept close generation) := by
    rw [planned_append]
    congr 1
    unfold reserved
    split
    · rfl
    · rfl
  have places : planned (es ++ (reserved (s.accept close generation)).map .planned ++
      [.requested close s.pendingLoss]) = planned es ++ reserved (s.accept close generation) := by
    rw [planned_append, reservedPlanned]
    exact List.append_nil _
  have exactly : s.lines ++ inHand s w ++ (waiting s ++ reserved (s.accept close generation)) =
      planned es ++ reserved (s.accept close generation) := by
    rw [← List.append_assoc, reached]
  -- Most parts follow by whether a loss was pending.
  have next := reserved_accept (s := s) close generation
  have later : ∀ q ∈ planned es, s.pendingLoss.count ≠ 0 → q.recordSequence < s.nextSequence :=
    fun q member pending => order.given (room pending) q member
  have unwritten : FileSink.written ((reserved (s.accept close generation)).map .planned ++
      [.requested close s.pendingLoss]) = [] := by
    rcases next with ⟨-, none⟩ | ⟨-, r, one, -⟩
    · rw [none]
      rfl
    · rw [one]
      rfl
  refine ⟨?_, ?_, ?_, ?_, ?_, ?_, ?_, ?_⟩
  · -- The marker's number is the next one, above all that were planned.
    rw [places]
    rcases next with ⟨-, none⟩ | ⟨pending, r, one, sequence, -⟩
    · rw [none, List.append_nil]
      exact order.ascending
    · rw [one]
      exact order.ascending.joined fun q member => sequence ▸ later q member pending
  · -- The next number moves on only where a marker has taken one.
    rw [places]
    intro more q member
    change (if s.pendingLoss.count ≠ 0 then u64 (s.nextSequence + 1) else s.nextSequence) ≠ 0
      at more
    change q.recordSequence <
      if s.pendingLoss.count ≠ 0 then u64 (s.nextSequence + 1) else s.nextSequence
    rcases next with ⟨nothing, none⟩ | ⟨pending, r, one, sequence, -⟩
    · rw [none, List.append_nil] at member
      rw [if_neg (not_not.mpr nothing)] at more ⊢
      exact order.given more q member
    · rw [if_pos pending] at more ⊢
      rw [u64_succ numbers.sequence more]
      rw [one] at member
      rcases List.mem_append.mp member with member | member
      · exact Nat.lt_succ_of_lt (later q member pending)
      · rw [List.mem_singleton.mp member, sequence]
        exact Nat.lt_succ_self _
  · -- A request writes nothing.
    rw [List.append_assoc, written_append, unwritten, List.append_nil]
    exact order.lines
  · rw [places]
    exact order.written.trans (List.prefix_append _ _)
  · -- The queue grows by the marker, as the plan does.
    intro _
    rw [places]
    simp only [lines, hand, waiting_]
    exact exactly
  · -- The request is now the latest, and what it has to reach is all that is planned.
    intro _ _
    refine ⟨_, close, s.pendingLoss, [], rfl, fun e member => absurd member List.not_mem_nil, ?_⟩
    rw [reservedPlanned]
    simp only [lines, hand, due_]
    exact exactly
  · -- Nothing is completed by asking.
    refine Completed.other ?_ fun _ => Event.noConfusion
    rcases next with ⟨-, none⟩ | ⟨-, r, one, -⟩
    · rw [none]
      exact (List.append_nil es).symm ▸ order.completed
    · rw [one]
      exact order.completed.other fun _ => Event.noConfusion
  · -- The marker that the law wants is the one planned just before the request.
    have others : Marked (es ++ (reserved (s.accept close generation)).map .planned) := by
      rcases next with ⟨-, none⟩ | ⟨-, r, one, -⟩
      · rw [none]
        exact (List.append_nil es).symm ▸ order.marked
      · rw [one]
        exact order.marked.other fun _ _ => Event.noConfusion
    refine others.requested fun pending => ?_
    rcases next with ⟨nothing, -⟩ | ⟨-, r, one, -, kind, count, first, last⟩
    · exact absurd nothing pending
    · exact ⟨planned es, r, reservedPlanned.trans (one ▸ rfl), kind, count, first, last⟩

/-- A request keeps a sink sound. -/
theorem Sound.request {w : Writer} {close : Bool} {generation : Nat} (sound : Sound es ⟨s, w⟩)
    (requested : Requested close generation s s') :
    Sound (es ++ requestEvents close s s') ⟨s', w⟩ := by
  -- A refused request only leaves a failure to be reported.
  cases requested with
  | refused failure =>
    have nothing : requestEvents close s { s with failureRequested := failure } = [] :=
      if_pos rfl
    have same : Same s { s with failureRequested := failure } :=
      ⟨rfl, rfl, rfl, rfl, rfl, rfl, rfl, rfl, rfl, rfl, rfl, rfl, rfl, rfl⟩
    rw [nothing, List.append_nil]
    exact same.sound sound
  | accepted closed failed idle room =>
    -- A sink without an operation that is neither closed nor failed is live.
    have live : Live s := by
      rcases sound.control.sink with live | done | limited
      · exact live
      · exact absurd done.state (not_or.mpr ⟨closed, failed⟩)
      · exact Operation.noConfusion (idle.symm.trans limited.operation)
    have ready : s.operation ≠ .opening := by
      rw [idle]
      exact Operation.noConfusion
    refine ⟨control_accept sound.control live sound.numbers idle close generation,
      sound.numbers.accept close generation,
      sound.order.accept live sound.numbers idle room close generation, ?_⟩
    -- The files are as they were, and so is the room in them.
    have measured := sound.sizes.writing live ready
    refine ⟨⟨sound.sizes.limits.bytes, sound.sizes.limits.segments, sound.sizes.limits.records⟩,
      sound.sizes.segment, sound.sizes.record, fun _ _ => ?_, fun limited => ?_⟩
    · exact ⟨⟨measured.1.room, measured.1.segments, measured.1.records⟩, measured.2⟩
    · exact ⟨measured.1.room, measured.1.segments, measured.1.records⟩

/-! ### Tasks begin -/

/-- What the writer takes up. -/
inductive Selected (s : Sink) : Task → Sink → Prop
  | failure : Selected s (.failure s.failureRequested) { s with ioBusy := true }
  | opening (opening : s.operation = .opening) : Selected s .opening { s with ioBusy := true }
  | record {q : Queued} {rest : List Queued} (queue : s.queue = q :: rest)
    (opened : s.operation ≠ .opening)
    (ready : s.operation = .none ∨ q.ticket ≤ s.barrierTicket) :
    Selected s (.record q.record) { s with queue := rest, ioBusy := true }
  | barrier (pending : s.operation.pending = true)
    (passed : ∀ q ∈ s.queue.head?, s.barrierTicket < q.ticket) :
    Selected s (.barrier (s.operation == .close) s.barrierLoss)
      { s with barrierLoss := {}, ioBusy := true }

/-- It takes up nothing else. -/
theorem selectTask_selected {t : Task} (selected : s.selectTask = some (t, s')) :
    Selected s t s' := by
  -- The branches are those of `select_task`, which looks at failures, opening, records, barriers.
  unfold Sink.selectTask at selected
  split at selected
  · exact absurd selected (by simp)
  · split at selected
    · cases selected
      exact .failure
    · split at selected
      · next opening =>
        cases selected
        exact .opening opening
      · next opened =>
        -- A flush and a close are the two operations that wait for a barrier.
        have pending_ : s.operation = .flush ∨ s.operation = .close →
            s.operation.pending = true := by
          rintro (flush | close)
          · exact flush ▸ rfl
          · exact close ▸ rfl
        dsimp only at selected
        -- A barrier needs either an empty queue or a head behind it.
        split at selected
        · next queue =>
          split at selected
          · next pending =>
            cases selected
            refine .barrier (pending_ pending) ?_
            rw [queue]
            exact fun _ none => absurd none (by simp)
          · exact absurd selected (by simp)
        · next q rest queue =>
          -- The head is taken up if no operation waits for it, or if it is due.
          split at selected
          · next ready =>
            cases selected
            exact .record queue opened ready
          · next passed =>
            split at selected
            · next pending =>
              cases selected
              refine .barrier (pending_ pending) ?_
              intro q' head
              rw [queue, List.head?_cons] at head
              cases head
              -- A head that is not ready is not due.
              exact Nat.lt_of_not_le fun due => passed (.inr due)
            · exact absurd selected (by simp)

/-- A sink that performs an operation or holds records is live while the writer waits. -/
theorem Control.live (control : Control ⟨s, .waiting⟩)
    (busy : s.operation ≠ .none ∨ s.queue ≠ []) : Live s := by
  rcases control with live | done
  · exact live
  · rcases busy with operation | queue
    · exact absurd done.operation operation
    · exact absurd done.queue queue

/-- A record that is taken up was the first to wait. -/
theorem waiting_taken {q : Queued} {rest : List Queued} (queue : s.queue = q :: rest)
    (ready : s.operation = .none ∨ q.ticket ≤ s.barrierTicket) :
    waiting s = q.record :: waiting { s with queue := rest, ioBusy := true } ∧
      (s.operation.pending = true →
        due s = q.record :: due { s with queue := rest, ioBusy := true }) := by
  -- An operation takes up only records in front of its barrier.
  have due_ : s.operation.pending = true →
      due s = q.record :: due { s with queue := rest, ioBusy := true } := by
    intro pending
    have before : q.ticket ≤ s.barrierTicket := by
      rcases ready with idle | before
      · rw [idle] at pending
        exact absurd pending Bool.false_ne_true
      · exact before
    rw [due, queue, upTo_head before]
    rfl
  refine ⟨?_, due_⟩
  -- Whether an operation is pending decides how the waiting records are read.
  by_cases pending : s.operation.pending = true
  · have before : q.ticket ≤ s.barrierTicket := by
      rcases ready with idle | before
      · rw [idle] at pending
        exact absurd pending Bool.false_ne_true
      · exact before
    rw [waiting, if_pos pending, due_ pending, queue, behind_head before]
    exact (congrArg (q.record :: ·) (if_pos pending)).symm
  · rw [waiting, if_neg pending, queue]
    exact (congrArg (q.record :: ·) (if_neg pending)).symm

/-- Taking up a task that writes no record keeps a sink sound. -/
theorem Sound.mark {t : Task} (sound : Sound es ⟨s, .waiting⟩)
    (control : Control ⟨{ s with ioBusy := true }, .busy t⟩)
    (empty : inHand { s with ioBusy := true } (.busy t) = []) :
    Sound es ⟨{ s with ioBusy := true }, .busy t⟩ := by
  -- The flag that the writer is busy is read by no part of the invariant.
  have marked : Same s { s with ioBusy := true } :=
    ⟨rfl, rfl, rfl, rfl, rfl, rfl, rfl, rfl, rfl, rfl, rfl, rfl, rfl, rfl⟩
  have same : Sound es ⟨{ s with ioBusy := true }, .waiting⟩ := marked.sound sound
  refine ⟨control, same.numbers,
    ⟨same.order.ascending, same.order.given, same.order.lines, same.order.written, ?_, ?_,
      same.order.completed, same.order.marked⟩,
    ⟨same.sizes.limits, same.sizes.segment, same.sizes.record, same.sizes.writing,
      Writer.noConfusion⟩⟩
  · -- With nothing in hand both equations read as they did while the writer waited.
    simp only [empty]
    exact same.order.exact_
  · simp only [empty]
    exact same.order.point

/-- Taking up the first record moves it from the queue into the writer's hand. -/
theorem Sound.selectRecord {q : Queued} {rest : List Queued} (sound : Sound es ⟨s, .waiting⟩)
    (queue : s.queue = q :: rest) (opened : s.operation ≠ .opening)
    (ready : s.operation = .none ∨ q.ticket ≤ s.barrierTicket) :
    Sound es ⟨{ s with queue := rest, ioBusy := true }, .busy (.record q.record)⟩ := by
  obtain ⟨control, numbers, order, sizes⟩ := sound
  -- A queue with a record in it shows the sink live.
  have live := control.live (.inr (queue ▸ List.cons_ne_nil _ _))
  obtain ⟨waiting_, due_⟩ := waiting_taken queue ready
  have member : ∀ q' ∈ rest, q' ∈ s.queue := fun q' member =>
    queue ▸ List.mem_cons_of_mem q member
  -- A closing sink still has only records in front of its barrier.
  have going : Live { s with queue := rest, ioBusy := true } :=
    ⟨live.error, live.state, fun opening => absurd opening opened,
      fun closing q' inRest => live.closing closing q' (member q' inRest)⟩
  refine ⟨⟨going, opened⟩, ⟨numbers.sequence, numbers.ticket, ?_, ?_, numbers.barrier⟩,
    ⟨order.ascending, order.given, order.lines, order.written, ?_, ?_, order.completed,
      order.marked⟩,
    ⟨⟨sizes.limits.bytes, sizes.limits.segments, sizes.limits.records⟩, sizes.segment,
      sizes.record, ?_, Writer.noConfusion⟩⟩
  · -- What is left of the queue ascends as a part of it.
    have ascending := numbers.ascending
    rw [queue] at ascending
    exact ascending.tail
  · exact fun q' inRest => numbers.given q' (member q' inRest)
  · -- The record has changed sides: it waited, and now it is in hand.
    intro _
    have before : s.lines ++ [] ++ waiting s = planned es := order.exact_ live
    rw [waiting_, List.append_nil, List.append_cons] at before
    exact before
  · -- The same holds of the records that the latest request waits for.
    intro _ pending_
    obtain ⟨before, close, pending, after, same, quiet, reached⟩ := order.point live pending_
    refine ⟨before, close, pending, after, same, quiet, ?_⟩
    have reached_ : s.lines ++ [] ++ due s = planned before := reached
    rw [due_ pending_, List.append_nil, List.append_cons] at reached_
    exact reached_
  · -- The files have not been touched.
    intro _ ready_
    have measured := sizes.writing live ready_
    exact ⟨⟨measured.1.room, measured.1.segments, measured.1.records⟩, measured.2⟩

/-- A barrier that may be taken up has every record before it behind it. -/
theorem Numbers.all_passed (numbers : Numbers s)
    (passed : ∀ q ∈ s.queue.head?, s.barrierTicket < q.ticket) :
    ∀ q ∈ s.queue, s.barrierTicket < q.ticket := by
  intro q member
  have ascending := numbers.ascending
  -- The head is behind the barrier, and the queue ascends from it.
  cases queue : s.queue with
  | nil => exact absurd (queue ▸ member) List.not_mem_nil
  | cons head rest =>
    rw [queue] at ascending member
    exact ascending.passed (passed head (queue ▸ rfl)) q member

/-- Then only the record of a loss is due, which the barrier takes along. -/
theorem due_taken (all : ∀ q ∈ s.queue, s.barrierTicket < q.ticket) :
    due s = reserved s ∧ due { s with barrierLoss := {}, ioBusy := true } = [] := by
  have taken : reserved { s with barrierLoss := {}, ioBusy := true } = [] := rfl
  constructor
  · rw [due, upTo_none all]
    rfl
  · rw [due, taken, List.append_nil]
    exact congrArg _ (upTo_none all)

/-- Taking up a barrier moves the record of a loss into the writer's hand. -/
theorem Sound.selectBarrier (sound : Sound es ⟨s, .waiting⟩) (pending_ : s.operation.pending = true)
    (passed : ∀ q ∈ s.queue.head?, s.barrierTicket < q.ticket) :
    Sound es ⟨{ s with barrierLoss := {}, ioBusy := true },
      .busy (.barrier (s.operation == .close) s.barrierLoss)⟩ := by
  obtain ⟨control, numbers, order, sizes⟩ := sound
  have busy : s.operation ≠ .none := by
    intro idle
    rw [idle] at pending_
    exact Bool.noConfusion pending_
  have live := control.live (.inl busy)
  have all := numbers.all_passed passed
  obtain ⟨dueBefore, dueAfter⟩ := due_taken all
  -- In hand is now the marker that was reserved for the barrier.
  have hand : inHand { s with barrierLoss := {}, ioBusy := true }
      (.busy (.barrier (s.operation == .close) s.barrierLoss)) = reserved s := rfl
  have going : Live { s with barrierLoss := {}, ioBusy := true } :=
    ⟨live.error, live.state, live.opening, live.closing⟩
  refine ⟨⟨going, ?_, rfl, all⟩, ⟨numbers.sequence, numbers.ticket, numbers.ascending,
    numbers.given, numbers.barrier⟩,
    ⟨order.ascending, order.given, order.lines, order.written, ?_, ?_, order.completed,
      order.marked⟩,
    ⟨⟨sizes.limits.bytes, sizes.limits.segments, sizes.limits.records⟩, sizes.segment,
      sizes.record, ?_, Writer.noConfusion⟩⟩
  · -- The writer keeps which of the two operations it serves.
    change s.operation = if (s.operation == .close) = true then .close else .flush
    cases operation : s.operation with
    | none => exact absurd operation busy
    | opening => exact Bool.noConfusion (operation ▸ pending_ : Operation.opening.pending = true)
    | flush => rfl
    | close => rfl
  · -- The marker was due and is in hand now; nothing in front of it is left.
    intro _
    have before : s.lines ++ [] ++ waiting s = planned es := order.exact_ live
    rw [waiting, if_pos pending_, dueBefore, List.append_nil, ← List.append_assoc] at before
    change s.lines ++ inHand _ _ ++ (if s.operation.pending then _ else _) = _
    rw [hand, if_pos pending_, dueAfter]
    exact before
  · -- The request the barrier belongs to is the latest.
    intro _ _
    obtain ⟨before, close, pending, after, same, quiet, reached⟩ := order.point live pending_
    refine ⟨before, close, pending, after, same, quiet, ?_⟩
    have reached_ : s.lines ++ [] ++ due s = planned before := reached
    rw [dueBefore, List.append_nil] at reached_
    change s.lines ++ inHand _ _ ++ due _ = _
    rw [hand, dueAfter, List.append_nil]
    exact reached_
  · intro _ ready_
    have measured := sizes.writing live ready_
    exact ⟨⟨measured.1.room, measured.1.segments, measured.1.records⟩, measured.2⟩

/-- Taking up a task keeps a sink sound. -/
theorem Sound.select {t : Task} (sound : Sound es ⟨s, .waiting⟩) (selected : Selected s t s') :
    Sound es ⟨s', .busy t⟩ := by
  have marked : Same s { s with ioBusy := true } :=
    ⟨rfl, rfl, rfl, rfl, rfl, rfl, rfl, rfl, rfl, rfl, rfl, rfl, rfl, rfl⟩
  -- One lemma for each task that can be taken up.
  cases selected with
  | failure => exact sound.mark (marked.sound sound).control rfl
  | opening opening =>
    have live := sound.control.live (.inl (opening ▸ Operation.noConfusion))
    exact sound.mark ⟨marked.live.mpr live, opening⟩ rfl
  | record queue opened ready => exact sound.selectRecord queue opened ready
  | barrier pending passed => exact sound.selectBarrier pending passed

/-! ### Tasks end -/

/-- Only records that are written count as written. -/
theorem written_wrote (rs : List TraceRecord) : written (rs.map .wrote) = rs := by
  induction rs with
  | nil => rfl
  | cons r rest ih => exact congrArg (r :: ·) ih

/-- They get no place by it. -/
theorem planned_wrote (rs : List TraceRecord) : planned (rs.map .wrote) = [] := by
  induction rs with
  | nil => rfl
  | cons r rest ih => exact ih

/-- More lines keep the order if they are those that were to come. -/
theorem Order.wrote {w w' : Writer} (order : Order es ⟨s, w⟩) (rs : List TraceRecord)
    (lines : s'.lines = s.lines ++ rs) (next : s'.lines <+: planned es)
    (sequence : s'.nextSequence = s.nextSequence)
    (exactly : Live s' → s'.lines ++ inHand s' w' ++ waiting s' = planned es)
    (point : Live s' → s'.operation.pending = true → ∃ before close pending after,
      es = before ++ .requested close pending :: after ∧ Unrequested after ∧
        s'.lines ++ inHand s' w' ++ due s' = planned before) :
    Order (es ++ rs.map .wrote) ⟨s', w'⟩ := by
  -- Writing plans nothing.
  have places : planned (es ++ rs.map .wrote) = planned es := by
    rw [planned_append, planned_wrote, List.append_nil]
  refine ⟨places ▸ order.ascending, ?_, ?_, places ▸ next, places ▸ exactly, ?_, ?_, ?_⟩
  · rw [places]
    simp only [sequence]
    exact order.given
  · -- What is written is what was written and the new lines.
    rw [written_append, written_wrote, ← order.lines]
    exact lines
  · -- The events of writing are no requests.
    intro live pending_
    obtain ⟨before, close, pending, after, same, quiet, reached⟩ := point live pending_
    refine ⟨before, close, pending, after ++ rs.map .wrote, ?_, ?_, reached⟩
    · rw [same, List.append_assoc, List.cons_append]
    · intro e member
      rcases List.mem_append.mp member with member | member
      · exact quiet e member
      · obtain ⟨r, -, rfl⟩ := List.mem_map.mp member
        exact fun _ _ => Event.noConfusion
  · -- Nor do they complete one, whatever their number.
    have completed := order.completed
    clear places lines next exactly point order
    induction rs generalizing es with
    | nil => exact (List.append_nil es).symm ▸ completed
    | cons r rest ih =>
      rw [List.map_cons, List.append_cons]
      exact ih (completed.other fun _ => Event.noConfusion)
  · -- The same induction for the markers.
    have marked := order.marked
    clear places lines next exactly point order
    induction rs generalizing es with
    | nil => exact (List.append_nil es).symm ▸ marked
    | cons r rest ih =>
      rw [List.map_cons, List.append_cons]
      exact ih (marked.other fun _ _ => Event.noConfusion)

/-- Records that are given up leave the order alone. -/
theorem Order.gaveUp (order : Order es c) (rs : List TraceRecord) :
    Order (es ++ rs.map .givenUp) c :=
  order.plains fun e member => by
    obtain ⟨r, -, rfl⟩ := List.mem_map.mp member
    rfl

/-- An empty queue keeps the numbers. -/
theorem Numbers.emptied (numbers : Numbers s) (shared : Shared s s') {s₂ : Sink}
    (sequence : s₂.nextSequence = s'.nextSequence) (ticket : s₂.nextTicket = s'.nextTicket)
    (barrier : s₂.barrierTicket = s'.barrierTicket) (queue : s₂.queue = []) : Numbers s₂ where
  -- The numbers are not given back when a queue is given up.
  sequence := by
    rw [sequence, shared.nextSequence]
    exact numbers.sequence
  ticket := by
    rw [ticket, shared.nextTicket]
    exact numbers.ticket
  ascending := queue ▸ List.Pairwise.nil
  given q member := absurd (queue ▸ member) List.not_mem_nil
  barrier := by
    rw [barrier, ticket, shared.barrierTicket, shared.nextTicket]
    exact numbers.barrier

/-- A sink that fails is over. -/
theorem failSink_done (error : Status) (n : Nat) (s : Sink) : Done (s.failSink error n) :=
  ⟨.inr rfl, rfl, rfl⟩

/-- A sink that reaches a limit is at a limit. -/
theorem capacityBegin_limited (s : Sink) : Limited s.capacityBegin := ⟨rfl, rfl, rfl, rfl⟩

/-- One that is over is not live. -/
theorem Done.dead (done : Done s) : ¬Live s := fun live => live.unfinished done

/-- One at a limit is not live. -/
theorem Limited.dead (limited : Limited s) : ¬Live s := fun live => live.unlimited limited

/-- Failing keeps a sink sound, whatever has been written before. -/
theorem Sound.fail {w : Writer} (sound : Sound es ⟨s, w⟩) (shared : Shared s s')
    (limits : Limits s') (rs gone : List TraceRecord) (lines : s'.lines = s.lines ++ rs)
    (next : s'.lines <+: planned es) (error : Status) (n : Nat) :
    Sound (es ++ (rs.map .wrote ++ gone.map .givenUp)) ⟨s'.failSink error n, .waiting⟩ := by
  -- A sink that has failed is over, so what is said of live sinks holds of it without content.
  have finished := failSink_done error n s'
  have ended : Order (es ++ rs.map .wrote) ⟨s'.failSink error n, .waiting⟩ :=
    sound.order.wrote rs lines next shared.nextSequence (fun live => absurd live finished.dead)
      fun live => absurd live finished.dead
  -- What was written before the failure stays in the files and in the order.
  refine ⟨.inr finished, sound.numbers.emptied shared rfl rfl rfl rfl, ?_, ?_⟩
  · rw [← List.append_assoc]
    exact ended.gaveUp gone
  · refine ⟨⟨limits.bytes, limits.segments, limits.records⟩, ?_, ?_,
      fun live => absurd live finished.dead, Writer.noConfusion⟩
    · exact shared.request ▸ sound.sizes.segment
    · exact shared.request ▸ sound.sizes.record

/-- So does reaching a limit. -/
theorem Sound.limit {w : Writer} (sound : Sound es ⟨s, w⟩) (shared : Shared s s')
    (limits : Limits s') (measured : Measured footerReserve s') (rs gone : List TraceRecord)
    (lines : s'.lines = s.lines ++ rs) (next : s'.lines <+: planned es) :
    Sound (es ++ (rs.map .wrote ++ gone.map .givenUp)) ⟨s'.capacityBegin, .limited⟩ := by
  -- A sink at its limit is not live either, only its footer is still to come.
  have finished := capacityBegin_limited s'
  have ended : Order (es ++ rs.map .wrote) ⟨s'.capacityBegin, .limited⟩ :=
    sound.order.wrote rs lines next shared.nextSequence (fun live => absurd live finished.dead)
      fun live => absurd live finished.dead
  refine ⟨finished, sound.numbers.emptied shared rfl rfl rfl rfl, ?_, ?_⟩
  · rw [← List.append_assoc]
    exact ended.gaveUp gone
  · -- The footer fits: the room for it was kept all the time.
    refine ⟨⟨limits.bytes, limits.segments, limits.records⟩, ?_, ?_,
      fun live => absurd live finished.dead,
      fun _ => ⟨measured.room, measured.segments, measured.records⟩⟩
    · exact shared.request ▸ sound.sizes.segment
    · exact shared.request ▸ sound.sizes.record

/-- What holds behind an attempt to write what is in hand. -/
structure Outcome (s : Sink) (hand : List TraceRecord) (result : Wrote × Sink) : Prop where
  shared : Shared s result.2
  limits : Limits result.2
  lines : result.2.lines = s.lines ++ if result.1.complete then hand else []
  measured : result.1 ≠ .unwritten → Measured footerReserve result.2
  unfinished : result.1 = .written →
    result.2.lines.length < result.2.request.maxTotalRecords

/-- It holds behind `write_record`. -/
theorem writeRecord_outcome (io : Io) (r : TraceRecord) (limits : Limits s)
    (measured : Measured footerReserve s)
    (unfinished : s.lines.length < s.request.maxTotalRecords) :
    Outcome s [r] (s.writeRecord recordJson io r) := by
  obtain ⟨bounded, left, below⟩ :=
    @Sink.writeRecord_limits recordJson s io r limits measured unfinished
  have shared : Shared s (s.writeRecord recordJson io r).2 := Sink.writeRecord_shared io r
  -- The file system may answer anything; the limits are those checked by `write_record`.
  refine ⟨shared, bounded, Sink.lines_writeRecord measured.some, left, fun written => ?_⟩
  rw [shared.request]
  exact below written

/-- With nothing in hand there is nothing to write. -/
theorem outcome_nothing (limits : Limits s) (measured : Measured footerReserve s)
    (unfinished : s.lines.length < s.request.maxTotalRecords) :
    Outcome s [] (.written, s) :=
  ⟨(Kept.refl s).toShared, limits, (List.append_nil _).symm, fun _ => measured,
    fun _ => unfinished⟩

/-- What is in hand is not written yet. -/
theorem Order.fresh {w : Writer} (order : Order es ⟨s, w⟩) (live : Live s) :
    ∀ r ∈ inHand s w, r ∉ s.lines := by
  intro r inHand_ inLines
  have ascending := order.ascending
  rw [← order.exact_ live] at ascending
  have apart := (List.pairwise_append.mp (List.pairwise_append.mp ascending).1).2.2
  exact Nat.lt_irrefl _ (apart r inLines r inHand_)

/-- The records a task has given up. -/
def gone (t : Task) (s : Sink) (c : System) : List TraceRecord :=
  (inHand s (.busy t) ++ s.queue.map (·.record)).filter fun r =>
    r ∉ c.sink.lines ∧ r ∉ c.sink.queue.map (·.record)

/-- The completion of a barrier. -/
def completion (t : Task) (c : System) : List Event :=
  match t with
  | .barrier close _ =>
    if c.writer = .waiting ∧ c.sink.status.state ≠ .failed then [.completed close] else []
  | _ => []

/-- The events of a task, by what it has written. -/
theorem taskEvents_wrote {t : Task} (rs : List TraceRecord)
    (fresh : ∀ r ∈ inHand s (.busy t), r ∉ s.lines) (lines : c.sink.lines = s.lines ++ rs)
    (some : rs = [] ∨ rs = inHand s (.busy t)) :
    taskEvents t s c = rs.map .wrote ++ (gone t s c).map .givenUp ++ completion t c := by
  -- The records that are new in the files are told by not having been in them.
  have new : ((inHand s (.busy t)).filter fun r => decide (r ∈ c.sink.lines)) = rs := by
    rcases some with rfl | rfl
    · rw [List.append_nil] at lines
      refine List.filter_eq_nil_iff.mpr fun r member => ?_
      rw [lines]
      simpa using fresh r member
    · refine List.filter_eq_self.mpr fun r member => ?_
      rw [lines]
      exact decide_eq_true (List.mem_append_right _ member)
  unfold taskEvents
  dsimp only
  rw [new]
  rfl

/-- A task that fails or reaches a limit keeps a sink sound. -/
theorem Sound.stop {t : Task} {result : Wrote × Sink} (sound : Sound es ⟨s, .busy t⟩)
    (live : Live s) (outcome : Outcome s (inHand s (.busy t)) result)
    (stopped : Sink.wrote result = some (c.writer, c.sink)) :
    Sound (es ++ taskEvents t s c) c := by
  obtain ⟨w, s'⟩ := result
  obtain ⟨sink, writer⟩ := c
  have exactly := sound.order.exact_ live
  have fresh := sound.order.fresh live
  -- Whether or not the record in hand got written, the lines are a prefix of the plan.
  have within : s.lines ++ inHand s (.busy t) <+: planned es := ⟨_, exactly⟩
  have before : s.lines <+: planned es := (List.prefix_append _ _).trans within
  have uncompleted : sink.status.state = .failed ∨ writer = .limited →
      completion t ⟨sink, writer⟩ = [] := by
    intro finished
    unfold completion
    split
    · refine if_neg fun completed => ?_
      rcases finished with failed | limited
      · exact completed.2 failed
      · exact Writer.noConfusion (completed.1.symm.trans limited)
    · rfl
  -- Three ways to end, by what the writer answers.
  cases w with
  | written => exact absurd stopped (by simp [Sink.wrote])
  | unwritten =>
    -- Nothing was written, and the sink fails.
    cases stopped
    have lines : s'.lines = s.lines ++ [] := outcome.lines
    rw [taskEvents_wrote [] fresh lines (.inl rfl), uncompleted (.inl rfl),
      List.append_nil]
    refine sound.fail outcome.shared outcome.limits [] _ lines ?_ .io 1
    rw [lines, List.append_nil]
    exact before
  | noSegment =>
    -- No segment is left, and nothing was written.
    cases stopped
    have lines : s'.lines = s.lines ++ [] := outcome.lines
    rw [taskEvents_wrote [] fresh lines (.inl rfl), uncompleted (.inr rfl),
      List.append_nil]
    refine sound.limit outcome.shared outcome.limits (outcome.measured Wrote.noConfusion) [] _
      lines ?_
    rw [lines, List.append_nil]
    exact before
  | lastRecord =>
    -- The record was written, and it was the last one allowed.
    cases stopped
    have lines : s'.lines = s.lines ++ inHand s (.busy t) := outcome.lines
    rw [taskEvents_wrote _ fresh lines (.inr rfl), uncompleted (.inr rfl), List.append_nil]
    exact sound.limit outcome.shared outcome.limits (outcome.measured Wrote.noConfusion) _ _
      lines (lines ▸ within)

namespace Shared

variable (shared : Shared s s')
include shared

/-- The same records are due. -/
theorem due : due s' = due s := by
  rw [FileSink.due, FileSink.due, shared.queue, shared.barrierTicket,
    reserved_same shared.destinationId shared.barrierLoss]

/-- The same records wait. -/
theorem waiting : waiting s' = waiting s := by
  rw [FileSink.waiting, FileSink.waiting, shared.due, shared.operation, shared.queue,
    shared.barrierTicket]

/-- The numbers are the same. -/
theorem numbers (numbers : Numbers s) : Numbers s' where
  sequence := shared.nextSequence ▸ numbers.sequence
  ticket := shared.nextTicket ▸ numbers.ticket
  ascending := shared.queue ▸ numbers.ascending
  -- No ticket has been given out since.
  given := by
    rw [shared.queue, shared.nextTicket]
    exact numbers.given
  barrier := by
    rw [shared.barrierTicket, shared.nextTicket]
    exact numbers.barrier

/-- A live sink that has been opened stays live. -/
theorem live (live : Live s) (opened : s.operation ≠ .opening) : Live s' where
  error := shared.error.trans live.error
  state := by
    rw [shared.state, shared.operation]
    exact live.state
  opening opening := absurd (shared.operation.symm.trans opening) opened
  closing := by
    rw [shared.operation, shared.queue, shared.barrierTicket]
    exact live.closing

end Shared

/-- A record that is written keeps a sink sound. -/
theorem Sound.record {r : TraceRecord} (sound : Sound es ⟨s, .busy (.record r)⟩)
    (outcome : Outcome s [r] (.written, s')) :
    Sound (es ++ taskEvents (.record r) s ⟨{ s' with ioBusy := false }, .waiting⟩)
      ⟨{ s' with ioBusy := false }, .waiting⟩ := by
  obtain ⟨live, opened⟩ := sound.control
  -- Only the writer's flag is set besides what the writing has changed.
  have shared : Shared s { s' with ioBusy := false } :=
    ⟨outcome.shared.queue, outcome.shared.operation, outcome.shared.nextSequence,
      outcome.shared.nextTicket, outcome.shared.barrierTicket, outcome.shared.barrierLoss,
      outcome.shared.request, outcome.shared.state, outcome.shared.error,
      outcome.shared.destinationId⟩
  have going := shared.live live opened
  have lines : Sink.lines { s' with ioBusy := false } = s.lines ++ [r] := outcome.lines
  -- The record moves from the hand into the lines, at the same place of the order.
  have exactly : s.lines ++ [r] ++ waiting s = planned es := sound.order.exact_ live
  have order : Order (es ++ [r].map .wrote) ⟨{ s' with ioBusy := false }, .waiting⟩ := by
    refine sound.order.wrote [r] lines (lines ▸ ⟨_, exactly⟩) shared.nextSequence
      (fun _ => ?_) fun _ pending_ => ?_
    · rw [lines, shared.waiting]
      change _ ++ [] ++ _ = _
      rw [List.append_nil]
      exact exactly
    · -- The same for the part that the latest request waits for.
      obtain ⟨before, close, pending, after, same, quiet, reached⟩ :=
        sound.order.point live (shared.operation ▸ pending_)
      refine ⟨before, close, pending, after, same, quiet, ?_⟩
      rw [lines, shared.due]
      change _ ++ [] ++ _ = _
      rw [List.append_nil]
      exact reached
  have measured := outcome.measured Wrote.noConfusion
  -- There is room for another record, or the writer would have stopped.
  have unfinished := outcome.unfinished rfl
  rw [taskEvents_wrote [r] (sound.order.fresh live) lines (.inr rfl)]
  refine ⟨.inl going, shared.numbers sound.numbers, ?_, ?_⟩
  · change Order (es ++ (_ ++ _ ++ [])) _
    rw [List.append_nil, ← List.append_assoc]
    exact order.gaveUp _
  · refine ⟨⟨outcome.limits.bytes, outcome.limits.segments, outcome.limits.records⟩,
      shared.request ▸ sound.sizes.segment, shared.request ▸ sound.sizes.record,
      fun _ _ => ⟨⟨measured.room, measured.segments, measured.records⟩, unfinished⟩,
      Writer.noConfusion⟩

/-- Nothing is in hand while a sink is opened or fails. -/
theorem taskEvents_empty {t : Task} {w : Writer} (hand : inHand s (.busy t) = [])
    (lines : s'.lines = s.lines) (other : completion t ⟨s', w⟩ = []) :
    taskEvents t s ⟨s', w⟩ = (gone t s ⟨s', w⟩).map .givenUp := by
  have fresh : ∀ r ∈ inHand s (.busy t), r ∉ s.lines := by
    rw [hand]
    exact fun r none => absurd none List.not_mem_nil
  rw [taskEvents_wrote [] fresh (lines.trans (List.append_nil _).symm) (.inl rfl), other,
    List.append_nil]
  rfl

/-- A sink that fails because of the producers stays sound. -/
theorem Sound.failure {error : Status} (sound : Sound es ⟨s, .busy (.failure error)⟩) :
    Sound (es ++ taskEvents (.failure error) s ⟨s.failSink error 0, .waiting⟩)
      ⟨s.failSink error 0, .waiting⟩ := by
  have events : taskEvents (.failure error) s ⟨s.failSink error 0, .waiting⟩ =
      (gone (.failure error) s ⟨s.failSink error 0, .waiting⟩).map .givenUp :=
    taskEvents_empty rfl rfl rfl
  rw [events]
  exact sound.fail (Kept.refl s).toShared sound.sizes.limits [] _ (List.append_nil _).symm
    sound.order.written error 0

/-- A sink whose first segment could not be opened stays sound. -/
theorem Sound.unopened {io : Io} (sound : Sound es ⟨s, .busy .opening⟩) :
    Sound (es ++ taskEvents .opening s ⟨(s.openSegment io 0).2.failSink .io 0, .waiting⟩)
      ⟨(s.openSegment io 0).2.failSink .io 0, .waiting⟩ := by
  obtain ⟨live, opening⟩ := sound.control
  -- A sink that opens has no files, no lines and an empty queue.
  obtain ⟨-, none, zero⟩ := live.opening opening
  have lines : (s.openSegment io 0).2.lines = s.lines := Sink.lines_openSegment io 0
  have empty : s.lines = [] := by
    unfold Sink.lines
    rw [none]
    rfl
  -- Even the segment that failed to open keeps the limits.
  have limits := (Sink.openSegment_limits io 0 sound.sizes.limits
    (congrArg List.length none) sound.sizes.segment
    (zero.trans (congrArg List.length empty).symm)).1
  have events : taskEvents .opening s ⟨(s.openSegment io 0).2.failSink .io 0, .waiting⟩ =
      (gone .opening s ⟨(s.openSegment io 0).2.failSink .io 0, .waiting⟩).map .givenUp :=
    taskEvents_empty rfl lines rfl
  rw [events]
  exact sound.fail (Sink.openSegment_kept io 0).toShared limits [] _
    (lines.trans (List.append_nil _).symm) (lines ▸ sound.order.written) .io 0

/-- A sink as it is once its first segment has been opened. -/
def begun (s : Sink) : Sink :=
  { s with
    status := { s.status with
      state := .open_
      completedOperationId := s.status.operationId }
    operation := .none
    ioBusy := false }

/-- A sink that has been opened stays sound. -/
theorem Sound.opened {io : Io} (sound : Sound es ⟨s, .busy .opening⟩)
    (done : (s.openSegment io 0).1 = true) :
    Sound (es ++ taskEvents .opening s ⟨begun (s.openSegment io 0).2, .waiting⟩)
      ⟨begun (s.openSegment io 0).2, .waiting⟩ := by
  obtain ⟨live, opening⟩ := sound.control
  -- As long as it opens there is nothing to be written.
  obtain ⟨queue, none, zero⟩ := live.opening opening
  have kept := (Sink.openSegment_kept (s := s) io 0)
  have lines : (s.openSegment io 0).2.lines = s.lines := Sink.lines_openSegment io 0
  have empty : s.lines = [] := by
    unfold Sink.lines
    rw [none]
    rfl
  -- The first segment leaves room for a footer.
  obtain ⟨limits, measured⟩ := Sink.openSegment_limits io 0
    sound.sizes.limits (congrArg List.length none) sound.sizes.segment
    (zero.trans (congrArg List.length empty).symm)
  have left := (measured done).less (Nat.le_add_left footerReserve (3072 + 28))
  -- The sink is active now, and no operation is pending.
  have going : Live (begun (s.openSegment io 0).2) :=
    ⟨kept.error.trans live.error, rfl, Operation.noConfusion, Operation.noConfusion⟩
  have emptied : (s.openSegment io 0).2.queue = [] := kept.queue.trans queue
  have waits : waiting (begun (s.openSegment io 0).2) = [] := congrArg (List.map _) emptied
  have before : waiting s = [] := by
    unfold waiting
    rw [opening, queue]
    rfl
  have exactly : s.lines ++ [] ++ waiting s = planned es := sound.order.exact_ live
  rw [before] at exactly
  have events : taskEvents .opening s ⟨begun (s.openSegment io 0).2, .waiting⟩ =
      (gone .opening s ⟨begun (s.openSegment io 0).2, .waiting⟩).map .givenUp :=
    taskEvents_empty rfl lines rfl
  rw [events]
  -- Nothing was in the queue, so the numbers say nothing of it.
  refine ⟨.inl going, sound.numbers.emptied kept.toShared rfl rfl rfl emptied, ?_, ?_⟩
  · refine Order.gaveUp ?_ _
    have order := sound.order
    refine ⟨order.ascending, ?_, lines.trans order.lines, lines ▸ order.written, fun _ => ?_,
      fun _ pending => Bool.noConfusion pending, order.completed, order.marked⟩
    · change (s.openSegment io 0).2.nextSequence ≠ 0 →
        ∀ r ∈ planned es, r.recordSequence < (s.openSegment io 0).2.nextSequence
      rw [kept.nextSequence]
      exact order.given
    · change (s.openSegment io 0).2.lines ++ [] ++ waiting (begun _) = _
      rw [lines, waits]
      exact exactly
  · -- The first record is allowed, since the request asks for one at least.
    refine ⟨⟨limits.bytes, limits.segments, limits.records⟩,
      kept.request ▸ sound.sizes.segment, kept.request ▸ sound.sizes.record,
      fun _ _ => ⟨⟨left.room, left.segments, left.records⟩, ?_⟩, Writer.noConfusion⟩
    change (s.openSegment io 0).2.lines.length < (s.openSegment io 0).2.request.maxTotalRecords
    rw [lines, empty, kept.request]
    exact sound.sizes.record

/-! ### Barriers -/

/-- Which request is the latest is determined. -/
theorem latest_unique {before after before' after' : List Event} {close close' : Bool}
    {pending pending' : Loss}
    (same : before ++ .requested close pending :: after =
      before' ++ .requested close' pending' :: after')
    (quiet : Unrequested after) (quiet' : Unrequested after') : before = before' := by
  -- The shorter of the two beginnings is the other one, or the other request is behind it.
  rcases List.append_eq_append_iff.mp same with ⟨between, rfl, rest⟩ | ⟨between, rfl, rest⟩
  · cases between with
    -- A request behind the latest one is a contradiction.
    | nil => exact (List.append_nil _).symm
    | cons e more =>
      have member : Event.requested close' pending' ∈ after := by
        rw [(List.cons.inj rest).2]
        exact List.mem_append_right _ List.mem_cons_self
      exact absurd rfl (quiet _ member close' pending')
  · cases between with
    | nil => exact List.append_nil _
    -- And the same with the two exchanged.
    | cons e more =>
      have member : Event.requested close pending ∈ after' := by
        rw [(List.cons.inj rest).2]
        exact List.mem_append_right _ List.mem_cons_self
      exact absurd rfl (quiet' _ member close pending)

/-- A completion keeps the order if everything up to the latest request is written. -/
theorem Order.complete (order : Order es c) (close : Bool)
    (idle : Live c.sink → c.sink.operation.pending = false)
    (reached : ∃ before close pending after, es = before ++ .requested close pending :: after ∧
      Unrequested after ∧ FileSink.written es = planned before) :
    Order (es ++ [.completed close]) c := by
  -- A completion neither plans nor writes.
  have places : planned (es ++ [.completed close]) = planned es :=
    (planned_append _ _).trans (List.append_nil _)
  have lines : FileSink.written (es ++ [.completed close]) = FileSink.written es :=
    (written_append _ _).trans (List.append_nil _)
  refine ⟨places ▸ order.ascending, places ▸ order.given, lines ▸ order.lines,
    places ▸ order.written, places ▸ order.exact_, fun live pending => ?_, ?_,
    order.marked.other fun _ _ => Event.noConfusion⟩
  · -- A sink with an operation pending has not completed it.
    exact absurd pending (by rw [idle live]; exact Bool.false_ne_true)
  · -- All requests that could be meant are the latest one.
    refine order.completed.completed fun before close' pending after same quiet => ?_
    obtain ⟨before', close'', pending', after', same', quiet', reached⟩ := reached
    rw [reached, latest_unique (same'.symm.trans same) quiet' quiet]

/-- The lines a barrier adds are those of the reserved loss. -/
structure AtBarrier (es : List Event) (s : Sink) (close : Bool) (loss : Loss) : Prop where
  sound : Sound es ⟨s, .busy (.barrier close loss)⟩
  live : Live s
  operation : s.operation = if close then .close else .flush
  passed : ∀ q ∈ s.queue, s.barrierTicket < q.ticket
  nothing : due s = []
  waits : waiting s = s.queue.map (·.record)

/-- A barrier is only taken up when nothing before it waits. -/
theorem Sound.atBarrier {close : Bool} {loss : Loss}
    (sound : Sound es ⟨s, .busy (.barrier close loss)⟩) : AtBarrier es s close loss := by
  obtain ⟨live, operation, taken, passed⟩ := sound.control
  -- Every ticket in the queue is behind the barrier, and the marker has been taken.
  have due_ : due s = [] := by
    rw [due, upTo_none passed, reserved, if_neg (not_not.mpr taken)]
    rfl
  refine ⟨sound, live, operation, passed, due_, ?_⟩
  unfold waiting
  split
  · rw [due_, behind_all passed]
    rfl
  · rfl

/-- A pending operation. -/
theorem AtBarrier.pending {close : Bool} {loss : Loss} (at_ : AtBarrier es s close loss) :
    s.operation.pending = true := by
  rw [at_.operation]
  cases close with
  | true => rfl
  | false => rfl

/-- Nothing waits at the end of a close. -/
theorem AtBarrier.closing {loss : Loss} (at_ : AtBarrier es s true loss) : s.queue = [] := by
  refine List.eq_nil_iff_forall_not_mem.mpr fun q member => ?_
  have before := at_.live.closing at_.operation q member
  exact Nat.lt_irrefl _ (Nat.lt_of_lt_of_le (at_.passed q member) before)

/-- Once the reserved loss is written, everything that had a place at the request is. -/
theorem AtBarrier.reached {close : Bool} {loss : Loss} (at_ : AtBarrier es s close loss) :
    ∃ before close' pending after, es = before ++ .requested close' pending :: after ∧
      Unrequested after ∧
      s.lines ++ inHand s (.busy (.barrier close loss)) = planned before := by
  obtain ⟨before, close', pending, after, same, quiet, reached⟩ :=
    at_.sound.order.point at_.live at_.pending
  refine ⟨before, close', pending, after, same, quiet, ?_⟩
  rw [at_.nothing, List.append_nil] at reached
  exact reached

/-- What writing a line or a footer at a barrier leaves. -/
structure Barred (s s' : Sink) (hand : List TraceRecord) : Prop where
  shared : Shared s s'
  limits : Limits s'
  lines : s'.lines = s.lines ++ hand

/-- A barrier that fails keeps a sink sound. -/
theorem AtBarrier.fail {close : Bool} {loss : Loss} (at_ : AtBarrier es s close loss)
    (barred : Barred s s' (inHand s (.busy (.barrier close loss)))) :
    Sound (es ++ taskEvents (.barrier close loss) s ⟨s'.failSink .io 0, .waiting⟩)
      ⟨s'.failSink .io 0, .waiting⟩ := by
  -- What has been written at the barrier is a prefix of the plan, which is all that failing needs.
  have exactly := at_.sound.order.exact_ at_.live
  have lines : (s'.failSink .io 0).lines = s.lines ++ _ := barred.lines
  rw [taskEvents_wrote _ (at_.sound.order.fresh at_.live) lines (.inr rfl)]
  change Sound (es ++ (_ ++ _ ++ [])) _
  rw [List.append_nil]
  exact at_.sound.fail barred.shared barred.limits _ _ barred.lines
    (barred.lines ▸ ⟨_, exactly⟩) .io 0

/-- A sink as it is once a barrier has been passed. -/
def crossed (close : Bool) (s : Sink) : Sink :=
  { s with
    status := { s.status with
      state := if close then .closed else .open_
      completedOperationId := s.status.operationId }
    operation := .none
    ioBusy := false }

/-- The order behind a barrier, whatever becomes of the sink. -/
theorem AtBarrier.order {close : Bool} {loss : Loss} (at_ : AtBarrier es s close loss)
    (barred : Barred s s' (inHand s (.busy (.barrier close loss)))) :
    Order (es ++ taskEvents (.barrier close loss) s ⟨crossed close s', .waiting⟩)
      ⟨crossed close s', .waiting⟩ := by
  have exactly := at_.sound.order.exact_ at_.live
  have lines : (crossed close s').lines = s.lines ++ _ := barred.lines
  -- Behind the barrier the sink has not failed, so the operation is reported as completed.
  have succeeded : completion (.barrier close loss) ⟨crossed close s', .waiting⟩ =
      [.completed close] := by
    refine if_pos ⟨rfl, ?_⟩
    cases close with
    | true => exact State.noConfusion
    | false => exact State.noConfusion
  -- Nothing joined the queue while the barrier was written.
  have waits : waiting (crossed close s') = waiting s := by
    rw [at_.waits]
    exact congrArg _ barred.shared.queue
  -- The events are the written marker, then the completion.
  rw [taskEvents_wrote _ (at_.sound.order.fresh at_.live) lines (.inr rfl), succeeded,
    ← List.append_assoc, ← List.append_assoc]
  have ended : Order (es ++ (inHand s (.busy (.barrier close loss))).map .wrote)
      ⟨crossed close s', .waiting⟩ := by
    refine at_.sound.order.wrote _ lines (lines ▸ ⟨_, exactly⟩) barred.shared.nextSequence
      (fun _ => ?_) fun _ pending => Bool.noConfusion pending
    rw [lines, waits]
    change _ ++ [] ++ _ = _
    rw [List.append_nil]
    exact exactly
  refine (ended.gaveUp _).complete close (fun _ => rfl) ?_
  -- The request that is completed is the latest, and everything planned before it is written.
  obtain ⟨before, close', pending, after, same, quiet, reached⟩ := at_.reached
  refine ⟨before, close', pending, after ++ (inHand s (.busy (.barrier close loss))).map .wrote ++
    (gone (.barrier close loss) s ⟨crossed close s', .waiting⟩).map .givenUp, ?_, ?_, ?_⟩
  · rw [same, List.append_assoc, List.append_assoc, List.cons_append, List.append_assoc]
  · -- Neither the marker nor what was given up is a request.
    intro e member
    rcases List.mem_append.mp member with member | member
    · rcases List.mem_append.mp member with member | member
      · exact quiet e member
      · obtain ⟨r, -, rfl⟩ := List.mem_map.mp member
        exact fun _ _ => Event.noConfusion
    · obtain ⟨r, -, rfl⟩ := List.mem_map.mp member
      exact fun _ _ => Event.noConfusion
  · rw [← (ended.gaveUp _).lines, lines, reached]

/-- A barrier that is passed keeps a sink sound. -/
theorem AtBarrier.pass {close : Bool} {loss : Loss} (at_ : AtBarrier es s close loss)
    (barred : Barred s s' (inHand s (.busy (.barrier close loss))))
    (measured : close = false → Measured footerReserve s' ∧
      s'.lines.length < s'.request.maxTotalRecords) :
    Sound (es ++ taskEvents (.barrier close loss) s ⟨crossed close s', .waiting⟩)
      ⟨crossed close s', .waiting⟩ := by
  have order := at_.order barred
  have shared := barred.shared
  have numbers := shared.numbers at_.sound.numbers
  -- Behind the barrier the sink is closed or active again.
  have limits : Limits (crossed close s') :=
    ⟨barred.limits.bytes, barred.limits.segments, barred.limits.records⟩
  have segment : 0 < (crossed close s').request.maxSegments :=
    shared.request ▸ at_.sound.sizes.segment
  have record : 0 < (crossed close s').request.maxTotalRecords :=
    shared.request ▸ at_.sound.sizes.record
  have numbered : Numbers (crossed close s') :=
    ⟨numbers.sequence, numbers.ticket, numbers.ascending, numbers.given, numbers.barrier⟩
  -- A close leaves nothing in the queue; a flush goes on with the room it has.
  cases close with
  | true =>
    have finished : Done (crossed true s') := ⟨.inl rfl, rfl, shared.queue.trans at_.closing⟩
    exact ⟨.inr finished, numbered, order, limits, segment, record,
      fun live => absurd live finished.dead, Writer.noConfusion⟩
  | false =>
    have going : Live (crossed false s') :=
      ⟨shared.error.trans at_.live.error, rfl, Operation.noConfusion, Operation.noConfusion⟩
    obtain ⟨left, unfinished⟩ := measured rfl
    exact ⟨.inl going, numbered, order, limits, segment, record,
      fun _ _ => ⟨⟨left.room, left.segments, left.records⟩, unfinished⟩, Writer.noConfusion⟩

/-- A barrier keeps a sink sound once its loss is written. -/
theorem AtBarrier.barrier {close : Bool} {loss : Loss} {io : Io}
    (at_ : AtBarrier es s close loss)
    (outcome : Outcome s (inHand s (.busy (.barrier close loss))) (.written, s')) :
    Sound (es ++ taskEvents (.barrier close loss) s ⟨s'.barrier close io, .waiting⟩)
      ⟨s'.barrier close io, .waiting⟩ := by
  have measured := outcome.measured Wrote.noConfusion
  have written : Barred s s' (inHand s (.busy (.barrier close loss))) :=
    ⟨outcome.shared, outcome.limits, outcome.lines⟩
  -- A close writes the footer first, a flush only synchronizes the file.
  cases close with
  | true =>
    have kept := Sink.footer_kept (s := s') .ok io.ended
    -- The footer changes the file alone.
    have footed : Barred s (s'.footer .ok io.ended).2
        (inHand s (.busy (.barrier true loss))) := by
      refine ⟨⟨?_, ?_, ?_, ?_, ?_, ?_, ?_, ?_, ?_, ?_⟩,
        (Sink.footer_limits .ok io.ended outcome.limits measured).1,
        (Sink.lines_footer .ok io.ended).trans outcome.lines⟩
      · exact kept.queue.trans outcome.shared.queue
      · exact kept.operation.trans outcome.shared.operation
      · exact kept.nextSequence.trans outcome.shared.nextSequence
      · exact kept.nextTicket.trans outcome.shared.nextTicket
      · exact kept.barrierTicket.trans outcome.shared.barrierTicket
      · exact kept.barrierLoss.trans outcome.shared.barrierLoss
      · exact kept.request.trans outcome.shared.request
      · exact kept.state.trans outcome.shared.state
      · exact kept.error.trans outcome.shared.error
      · exact kept.destinationId.trans outcome.shared.destinationId
    unfold Sink.barrier
    dsimp only
    rw [if_pos rfl]
    -- Whether the file system goes along decides between passing and failing.
    split
    · exact at_.pass footed fun open_ => Bool.noConfusion open_
    · exact at_.fail footed
  | false =>
    unfold Sink.barrier
    dsimp only
    rw [if_neg Bool.false_ne_true]
    -- The same for the flush.
    split
    · exact at_.pass written fun _ => ⟨measured, outcome.unfinished rfl⟩
    · exact at_.fail written

/-! ### Runs -/

/-- A task keeps a sink sound, whatever the file system does. -/
theorem Sound.perform {t : Task} (sound : Sound es ⟨s, .busy t⟩) (io : Io) :
    Sound (es ++ taskEvents t s ⟨(s.perform recordJson io t).2, (s.perform recordJson io t).1⟩)
      ⟨(s.perform recordJson io t).2, (s.perform recordJson io t).1⟩ := by
  -- One case a task, each with the outcome of its writing first.
  cases t with
  | failure error => exact sound.failure
  | opening =>
    unfold Sink.perform
    dsimp only
    split
    · next done => exact sound.opened done
    · exact sound.unopened
  | record r =>
    obtain ⟨live, opened⟩ := sound.control
    obtain ⟨measured, unfinished⟩ := sound.sizes.writing live opened
    -- What is written keeps the limits, whatever the file system answers.
    have outcome : Outcome s [r] (s.writeRecord recordJson io r) :=
      writeRecord_outcome io r sound.sizes.limits measured unfinished
    unfold Sink.perform
    dsimp only
    generalize s.writeRecord recordJson io r = result at outcome ⊢
    -- The writer stops where the record could not be written or was the last one.
    cases stopped : Sink.wrote result with
    | some c => exact sound.stop live outcome stopped
    | none =>
      obtain ⟨w, s'⟩ := result
      cases w with
      | written => exact sound.record outcome
      | unwritten => exact absurd stopped (by simp [Sink.wrote])
      | noSegment => exact absurd stopped (by simp [Sink.wrote])
      | lastRecord => exact absurd stopped (by simp [Sink.wrote])
  | barrier close loss =>
    -- At a barrier there is the marker of a loss to be written, or nothing.
    have at_ := sound.atBarrier
    have opened : s.operation ≠ .opening := by
      intro opening
      have pending := at_.pending
      rw [opening] at pending
      exact Bool.noConfusion pending
    obtain ⟨measured, unfinished⟩ := sound.sizes.writing at_.live opened
    -- Both are the same outcome, the second with nothing in hand.
    have outcome : Outcome s (inHand s (.busy (.barrier close loss)))
        (if loss.count ≠ 0 then s.writeRecord recordJson io (s.lossRecord loss)
          else (.written, s)) := by
      unfold inHand
      dsimp only
      split
      · exact writeRecord_outcome io _ sound.sizes.limits measured unfinished
      · exact outcome_nothing sound.sizes.limits measured unfinished
    unfold Sink.perform
    dsimp only
    generalize (if loss.count ≠ 0 then s.writeRecord recordJson io (s.lossRecord loss)
      else (.written, s)) = result at outcome ⊢
    -- Only a marker that was written, or none, lets the barrier pass.
    cases stopped : Sink.wrote result with
    | some c => exact sound.stop at_.live outcome stopped
    | none =>
      obtain ⟨w, s'⟩ := result
      cases w with
      | written => exact at_.barrier outcome
      | unwritten => exact absurd stopped (by simp [Sink.wrote])
      | noSegment => exact absurd stopped (by simp [Sink.wrote])
      | lastRecord => exact absurd stopped (by simp [Sink.wrote])

/-- A sink as it is once the limit has closed it. -/
def capped (s : Sink) : Sink :=
  { s with
    status := { s.status with
      state := .closed
      error := .capacity
      completedOperationId := s.status.operationId }
    operation := .none
    ioBusy := false }

/-- The end of a sink at a limit. -/
theorem Sound.finish (sound : Sound es ⟨s, .limited⟩) (io : Ending) :
    Sound es ⟨s.capacityEnd io, .waiting⟩ := by
  have limited : Limited s := sound.control
  -- Room for the footer was kept when the limit was reached.
  have measured := sound.sizes.closing rfl
  obtain ⟨limits, -⟩ := Sink.footer_limits .capacity io sound.sizes.limits measured
  have kept := Sink.footer_kept (s := s) .capacity io
  have lines := Sink.lines_footer (s := s) .capacity io
  have same := lines.trans (List.append_nil s.lines).symm
  have finished : Done (capped (s.footer .capacity io).2) :=
    ⟨.inl rfl, rfl, kept.queue.trans limited.queue⟩
  unfold Sink.capacityEnd
  dsimp only
  -- With the footer written the sink is closed, and otherwise it fails.
  split
  · have ended : Order (es ++ [].map .wrote) ⟨capped (s.footer .capacity io).2, .waiting⟩ :=
      sound.order.wrote [] same (lines ▸ sound.order.written) kept.nextSequence
        (fun live => absurd live finished.dead) fun live => absurd live finished.dead
    rw [List.map_nil, List.append_nil] at ended
    exact ⟨.inr finished, sound.numbers.emptied kept.toShared rfl rfl rfl
      (kept.queue.trans limited.queue), ended,
      ⟨limits.bytes, limits.segments, limits.records⟩, kept.request ▸ sound.sizes.segment,
      kept.request ▸ sound.sizes.record, fun live => absurd live finished.dead, Writer.noConfusion⟩
  · have failed := sound.fail kept.toShared limits [] [] same (lines ▸ sound.order.written) .io 0
    rwa [List.map_nil, List.map_nil, List.append_nil, List.append_nil] at failed

/-- Each step keeps a sink sound. -/
theorem Sound.step (sound : Sound es c) (step : Step recordJson c fs d) : Sound (es ++ fs) d := by
  obtain ⟨s, w⟩ := c
  -- Each step has its lemma.
  cases step with
  | enqueue v ordinary => exact sound.enqueue v
  | operation close generation => exact sound.request (operationLocked_requested _ _ _)
  | closeAll generation => exact sound.request (closeAll_requested _ _)
  | status => exact (List.append_nil es).symm ▸ sound
  | select waiting selected =>
    subst waiting
    exact (List.append_nil es).symm ▸ sound.select (selectTask_selected selected)
  | perform busy io =>
    subst busy
    exact sound.perform io
  | finish limited io =>
    subst limited
    exact (List.append_nil es).symm ▸ sound.finish io

/-- A sink that has been accepted continues the numbers of the one before. -/
theorem Sound.start {q : Request} {m : Metadata} {old : Option Sink}
    (numbers : ∀ s ∈ old, Numbers s) (accepted : Sink.providerOpen q m old = .ok s) :
    Sound [] ⟨s, .waiting⟩ := by
  -- Each test of `provider_open` that fails ends it before a sink is made.
  unfold Sink.providerOpen at accepted
  dsimp only at accepted
  split at accepted
  · exact absurd accepted (by simp)
  · next admissible =>
    split at accepted
    · exact absurd accepted (by simp)
    · split at accepted
      · exact absurd accepted (by simp)
      · split at accepted
        · exact absurd accepted (by simp)
        · split at accepted
          · exact absurd accepted (by simp)
          · next more =>
            cases accepted
            rw [not_or] at more
            rw [Bool.not_eq_false] at admissible
            have limits := admissible
            simp only [Sink.admissible, decide_eq_true_eq] at limits
            -- The new sink has no files, no queue and nothing planned.
            have live : Live (Sink.prepared q m old) :=
              ⟨rfl, rfl, fun _ => ⟨rfl, rfl, rfl⟩, Operation.noConfusion⟩
            refine ⟨.inl live, ?_, ?_, ?_⟩
            · -- It goes on with the numbers of the one before, or starts at one.
              refine ⟨?_, ?_, List.Pairwise.nil, fun q none => absurd none List.not_mem_nil,
                fun some => Nat.pos_of_ne_zero some⟩
              · cases old with
                | none => exact Nat.le_of_ble_eq_true rfl
                | some s => exact (numbers s rfl).sequence
              · cases old with
                | none => exact Nat.le_of_ble_eq_true rfl
                | some s => exact (numbers s rfl).ticket
            · exact ⟨List.Pairwise.nil, fun _ r none => absurd none List.not_mem_nil, rfl,
                List.prefix_rfl, fun _ => rfl, fun _ pending => Bool.noConfusion pending,
                fun before close pending after close' rest same =>
                  absurd same (by simp),
                fun before close pending after same => absurd same (by simp)⟩
            · -- The limits are those that were asked for, and they are not zero.
              refine ⟨⟨fun file none => absurd none List.not_mem_nil, Nat.zero_le _,
                Nat.zero_le _⟩, ?_, ?_, fun _ ready => absurd rfl ready, Writer.noConfusion⟩
              · exact limits.2.2.2.2.1
              · exact Nat.pos_of_ne_zero limits.2.2.2.2.2.2

/-- Every run keeps its sink sound. -/
theorem Sound.run (run : Run recordJson es c) : Sound es c := by
  induction run with
  | opened accepted => exact .start (fun s none => absurd none (by simp)) accepted
  | reopened run accepted sound =>
    exact .start (fun s same => Option.some.inj same ▸ sound.numbers) accepted
  | step run step sound => exact sound.step step

/-! ### The order and the limits -/

/-- The order a sink writes in, and the limits it keeps. -/
structure OrderLaw (recordJson : TraceRecord → Output) (es : List Event) (c : System) : Prop where
  /-- The lines reported are those of the files. -/
  reported : c.sink.lines = written es
  increasing : c.sink.lines.Pairwise fun r q => r.recordSequence < q.recordSequence
  /-- Nothing is left out before it, and nothing is written twice. -/
  inOrder : c.sink.lines <+: planned es
  /-- When a flush or a close completes, exactly what was queued before it is written. -/
  flushed : ∀ before close pending after close' rest,
    es = before ++ .requested close pending :: after ++ .completed close' :: rest →
      Unrequested after →
        written (before ++ .requested close pending :: after) = planned before
  /-- The loss that was pending at the request is the last of it. -/
  pending : ∀ before close pending after, es = before ++ .requested close pending :: after →
    pending.count ≠ 0 → ∃ earlier r, planned before = earlier ++ [r] ∧ r.kind = .loss ∧
      r.count = pending.count ∧ r.firstSourceSequence = pending.first ∧
      r.lastSourceSequence = pending.last
  segmentBytes : ∀ file ∈ c.sink.files, size file ≤ c.sink.request.maxSegmentBytes
  segments : c.sink.files.length ≤ c.sink.request.maxSegments
  records : c.sink.lines.length ≤ c.sink.request.maxTotalRecords
  /-- Behind a rotation the record always fits. -/
  secondCheck : ∀ r ∈ inHand c.sink c.writer, ∀ line io, recordLine recordJson r = some line →
    c.sink.status.segment + 1 < c.sink.request.maxSegments → (c.sink.rotate io).1 = true →
      (c.sink.rotate io).2.fits line = true

/-- Every sink keeps the order and the limits, whatever its producers and its files do. -/
theorem file_sink_order (run : Run recordJson es c) : OrderLaw recordJson es c := by
  -- All of it is read off the invariant.
  have sound := Sound.run run
  refine ⟨sound.order.lines, ?_, sound.order.written, sound.order.completed, sound.order.marked,
    sound.sizes.limits.bytes, sound.sizes.limits.segments, sound.sizes.limits.records, ?_⟩
  · exact sound.order.ascending.sublist sound.order.written.sublist
  · -- The writer is about to write only with a sink that is live and open.
    intro r member line io encoded allowed done
    obtain ⟨s, w⟩ := c
    have writing : Live s ∧ s.operation ≠ .opening := by
      cases w with
      | waiting => exact absurd member List.not_mem_nil
      | limited => exact absurd member List.not_mem_nil
      | busy task =>
        cases task with
        | failure error => exact absurd member List.not_mem_nil
        | opening => exact absurd member List.not_mem_nil
        | record q => exact sound.control
        | barrier close loss =>
          refine ⟨sound.control.1, fun opening => ?_⟩
          have pending := sound.atBarrier.pending
          rw [opening] at pending
          exact Bool.noConfusion pending
    -- It has room for the record and the footer, which is what the second check measures.
    have measured := (sound.sizes.writing writing.1 writing.2).1
    exact Sink.rotate_fits sound.sizes.limits measured allowed done encoded

/-! ### A flush of one record -/

section Flush

/-- The smallest request there is. -/
def smallRequest : Request where
  generation := 1
  maxSegmentBytes := 65536
  maxTotalRecords := 2
  destinationId := 1
  maxSegments := 1

/-- Hashes of the lengths that are asked for, and an empty configuration. -/
def smallMetadata : Metadata where
  runtimeCommit := List.replicate 40 0x61#8
  manifest := List.replicate 64 0x61#8
  sessionId := List.replicate 32 0x61#8
  imageHash := List.replicate 64 0x61#8
  moduleHash := List.replicate 64 0x61#8
  configHash := List.replicate 64 0x61#8
  traceHash := List.replicate 64 0x61#8
  configuration := asciiText "\x7b\x7d"

/-- A file system that does all it is asked for. -/
def smooth : Io where
  made := true
  regular := true
  headerTaken := 65536
  lineTaken := 65536
  rotated := ⟨65536, true, true⟩
  ended := ⟨65536, true, true⟩
  synced := true

/-- A view that needs no observation. -/
def summary : TraceRecord where
  kind := .suppression
  generation := 1
  destinationId := 1
  traceIds := [1]
  traceId := 1
  firstSourceSequence := 5
  lastSourceSequence := 6
  count := 2

/-- The JSON of records without events. -/
def plainJson : TraceRecord → Output := traceRecordJson fun _ o => o

/-- The writer is opening the first segment. -/
def whileOpening : System :=
  ⟨{ Sink.prepared smallRequest smallMetadata none with ioBusy := true }, .busy .opening⟩

/-- What a task makes of a system. -/
def performed (t : Task) (c : System) : System :=
  ⟨(c.sink.perform plainJson smooth t).2, (c.sink.perform plainJson smooth t).1⟩

/-- The view is queued and a flush is requested. -/
def afterRequest : System :=
  let c := performed .opening whileOpening
  ⟨((c.sink.providerEnqueue summary).2.operationLocked false 1).2, c.writer⟩

/-- The view as it was queued. -/
def queuedView : TraceRecord := { summary with epoch := 1, recordSequence := 1 }

/-- The writer has the view. -/
def whileWriting : System :=
  ⟨{ afterRequest.sink with queue := [], ioBusy := true }, .busy (.record queuedView)⟩

/-- The writer is at the barrier. -/
def whileFlushing : System :=
  ⟨{ (performed (.record queuedView) whileWriting).sink with barrierLoss := {}, ioBusy := true },
    .busy (.barrier false {})⟩

/-- The status in which the view is offered. -/
def openStatus : SinkStatus := (performed .opening whileOpening).sink.status

/-- A run by the events it reports. -/
theorem Run.reports (run : Run recordJson es c) (same : fs = es) : Run recordJson fs c :=
  same ▸ run

/-- A sink is opened, takes one view and flushes it. -/
theorem flush_run : Run plainJson
    [.offered openStatus summary, .planned queuedView, .requested false {}, .wrote queuedView,
      .completed false] (performed (.barrier false {}) whileFlushing) := by
  -- The steps of the run, each from the state that the one before has left.
  have opened : Run plainJson [] ⟨Sink.prepared smallRequest smallMetadata none, .waiting⟩ := by
    refine .opened (q := smallRequest) (m := smallMetadata) ?_
    decide +kernel
  have opening := opened.step (.select rfl (t := .opening) (s := whileOpening.sink) rfl)
  have begun := opening.step (.perform rfl smooth)
  have offered := begun.step (.enqueue _ summary RecordKind.noConfusion)
  have requested := offered.step (.operation _ false 1)
  have writing := requested.step (.select (t := .record queuedView) (s := whileWriting.sink)
    (by decide +kernel) (by decide +kernel))
  have wrote := writing.step (.perform rfl smooth)
  have flushing := wrote.step (.select (t := .barrier false {}) (s := whileFlushing.sink)
    (by decide +kernel) (by decide +kernel))
  have flushed := flushing.step (.perform rfl smooth)
  exact flushed.reports (by decide +kernel)

/-- When the flush completes the view is written. -/
theorem file_sink_order_flushed :
    written [.offered openStatus summary, .planned queuedView, .requested false {},
      .wrote queuedView] = planned [.offered openStatus summary, .planned queuedView] :=
  (file_sink_order flush_run).flushed [.offered openStatus summary, .planned queuedView] false {}
    [.wrote queuedView] false [] rfl (by simp [Unrequested])

end Flush

end Emu80535.FileSink
