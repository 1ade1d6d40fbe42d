import Emu80535.Trace.Record

/-! The rings that hold trace records, and the pages a client reads of them. -/

namespace Emu80535

/-! ### The ring of a destination -/

/-- `struct trace_ring`. -/
structure TraceRing where
  records : Nat → TraceRecord
  capacity : Nat
  head : Nat
  count : Nat
  epoch : Nat
  /-- The sequence number of the next record; zero after the last one has been used. -/
  next : Nat
  overwritten : Nat
  dropped : Nat

/-- A ring as `emu_trace_replace` allocates it. -/
def TraceRing.fresh (capacity : Nat) : TraceRing where
  records _ := {}
  capacity := capacity
  head := 0
  count := 0
  epoch := 1
  next := 1
  overwritten := 0
  dropped := 0

/-- `ring_insert`. -/
def TraceRing.insert (r : TraceRing) (v : TraceRecord) : TraceRing :=
  { r with
    -- The slot behind the newest record.
    records := Function.update r.records ((r.head + r.count) % r.capacity)
      { v with epoch := r.epoch, recordSequence := r.next }
    -- The last sequence number is followed by zero.
    next := u64 (r.next + 1)
    count := r.count + 1 }

/-- What a record stands for when it is lost: the range of source events and their number. -/
def TraceRecord.lost (old : TraceRecord) : Nat × Nat × Nat :=
  match old.kind with
  | .event => (old.event.sequence, old.event.sequence, 1)
  | .suppression => (old.firstSourceSequence, old.lastSourceSequence, old.count)
  -- Loss records do not account for anything themselves.
  | .loss => (0, 0, 0)

/-- The eviction loop of `ring_store` adds a lost record to the account. -/
def TraceRecord.account (loss old : TraceRecord) : TraceRecord :=
  let (first, last, count) := old.lost
  { loss with
    firstSourceSequence :=
      -- The first known number stays the smallest one.
      if first ≠ 0 ∧ (loss.firstSourceSequence = 0 ∨ first < loss.firstSourceSequence) then first
      else loss.firstSourceSequence
    lastSourceSequence := max loss.lastSourceSequence last
    count := saturate loss.count count }

/-- The oldest record leaves the ring. -/
def TraceRing.evict (r : TraceRing) : TraceRing :=
  { r with
    head := (r.head + 1) % r.capacity
    count := r.count - 1
    -- Every record that leaves is counted, up to the largest number.
    overwritten := saturate r.overwritten 1 }

/-- What `ring_store` answers. -/
inductive Stored where
  | stored
  /-- The sequence numbers do not suffice. -/
  | exhausted
  /-- The ring is full and stops there. -/
  | full
  deriving DecidableEq, Repr

/-- The LOSS record for the two oldest records of a ring. -/
def TraceRing.loss (r : TraceRing) (destinationId generation : Nat) : TraceRecord :=
  -- The account begins empty and takes up both records.
  let opened : TraceRecord :=
    { kind := .loss, destinationId := destinationId, generation := generation }
  (opened.account (r.records r.head)).account (r.evict.records r.evict.head)

/-- `ring_store`, without what it reports to the session. -/
def TraceRing.store (d : TraceDestination) (generation : Nat) (v : TraceRecord) (r : TraceRing) :
    Stored × TraceRing :=
  -- A full ring that overwrites needs a second number, for the LOSS record.
  let needed := if r.count = r.capacity ∧ d.stopOnFull = false then 2 else 1
  -- The ring is left as it is when the numbers do not suffice.
  if r.next = 0 ∨ 2 ^ 64 - 1 - r.next < needed - 1 then (.exhausted, r)
  else if r.count = r.capacity then
    -- A ring that stops when it is full drops the new record instead.
    if d.stopOnFull then (.full, { r with dropped := saturate r.dropped 1 })
    -- Two records leave, for the LOSS record and the new one.
    else (.stored, (r.evict.evict.insert (r.loss d.destinationId generation)).insert v)
  else (.stored, r.insert v)

/-- The part of `emu_trace_replace` that moves a kept ring into another buffer. -/
def TraceRing.moved (r : TraceRing) (capacity : Nat) : TraceRing :=
  { TraceRing.fresh capacity with
    -- Only what the ring holds is copied, from its head on.
    records := fun j => if j < r.count then r.records ((r.head + j) % r.capacity) else {}
    epoch := r.epoch
    next := r.next
    overwritten := r.overwritten
    dropped := r.dropped
    count := r.count }

/-! ### Pages -/

/-- `EMUIF_CURSOR_*`. -/
inductive CursorState where
  | current
  | expired
  | ahead
  | wrongSession
  | wrongEpoch
  deriving DecidableEq, Repr

/-- `struct emuif_trace_page_request`, with what the checks of its raw bytes come to. -/
structure PageRequest where
  /-- The version and size check of the structure. -/
  sized : Status
  reservedZero : Bool
  /-- The session text, when its buffer holds a terminated one. -/
  sessionId : Option (List Byte)
  destinationId : Nat
  maxRecords : Nat
  epoch : Nat
  after : Nat

/-- The buffer a caller passes for a page, with what the checks of its raw bytes come to. -/
structure PageBuffer where
  sized : Status
  reservedZero : Bool
  /-- The record array is there and its elements are large enough. -/
  usable : Bool
  capacity : Nat
  /-- The check of the prepared element at an index. -/
  slot : Nat → Status

/-- `struct emuif_trace_page`, with the records it hands over. -/
structure TracePage where
  sessionId : List Byte
  destinationId : Nat
  cursorState : CursorState := .current
  epoch : Nat
  requestedAfter : Nat
  oldest : Nat
  newest : Nat
  first : Nat := 0
  last : Nat := 0
  nextAfter : Nat
  overwritten : Nat
  dropped : Nat
  lostBeforePage : Nat := 0
  remaining : Nat := 0
  more : Bool := false
  required : Nat := 0
  records : List TraceRecord := []

/-- A character of a session identity. -/
def isHexDigit (b : Byte) : Bool :=
  (0x30#8 ≤ b && b ≤ 0x39#8) || (0x61#8 ≤ b && b ≤ 0x66#8)

/-- The request names a session in the form every session has. -/
def PageRequest.sessionValid (q : PageRequest) : Bool :=
  match q.sessionId with
  | none => false
  | some text => text.length = 32 && text.all isHexDigit

/-- The checks both page functions begin with. -/
def PageRequest.check (q : PageRequest) (out : PageBuffer) : Status :=
  -- Both structures are checked for their size before anything else.
  if q.sized ≠ .ok then q.sized
  else if out.sized ≠ .ok then out.sized
  -- A page has at most 16 records.
  else if 16 < q.maxRecords ∨ q.epoch = 0 ∨ q.reservedZero = false ∨ out.reservedZero = false ∨
      q.sessionValid = false ∨ (out.capacity ≠ 0 ∧ out.usable = false) then .invalid
  else .ok

/-- The sequence number of the oldest record, or zero. -/
def TraceRing.oldest (r : TraceRing) : Nat :=
  if r.count ≠ 0 then (r.records r.head).recordSequence else 0

/-- The sequence number of the newest record, or zero. -/
def TraceRing.newest (r : TraceRing) : Nat :=
  if r.count ≠ 0 then (r.records ((r.head + r.count - 1) % r.capacity)).recordSequence else 0

/-- The records of a ring from an offset on, as the copying loop hands them over. -/
def TraceRing.slice (r : TraceRing) (offset required : Nat) : List TraceRecord :=
  (List.range required).map fun i => r.records ((r.head + offset + i) % r.capacity)

/-- The part of a page that only depends on the ring and the cursor. -/
def TraceRing.heading (r : TraceRing) (session : List Byte) (q : PageRequest) : TracePage where
  sessionId := session
  destinationId := q.destinationId
  epoch := r.epoch
  requestedAfter := q.after
  oldest := r.oldest
  newest := r.newest
  nextAfter := q.after
  overwritten := r.overwritten
  dropped := r.dropped

/-- A cursor that cannot be read from. -/
def TraceRing.cursorState (r : TraceRing) (session : List Byte) (q : PageRequest) : CursorState :=
  if q.sessionId ≠ some session then .wrongSession
  -- A cursor of another epoch cannot be compared with this one.
  else if q.epoch ≠ r.epoch then .wrongEpoch
  -- Nor can one that lies behind the newest record.
  else if r.newest < q.after then .ahead
  else .current

/-- The cursor lies before the oldest record that is left. -/
def TraceRing.expired (r : TraceRing) (q : PageRequest) : Bool :=
  r.oldest ≠ 0 && q.after < r.oldest - 1

/-- The offset of the first record behind the cursor. -/
def TraceRing.offset (r : TraceRing) (q : PageRequest) : Nat :=
  -- An expired cursor reads from the oldest record on.
  if r.expired q then 0
  -- Records are numbered without gaps, so the difference is an offset.
  else if r.count ≠ 0 ∧ r.oldest ≤ q.after then (q.after - r.oldest + 1) % 2 ^ 32
  else 0

/-- The number of records behind the cursor. -/
def TraceRing.available (r : TraceRing) (q : PageRequest) : Nat :=
  (r.count + 2 ^ 32 - r.offset q) % 2 ^ 32

/-- The page of a readable cursor before any record is copied. -/
def TraceRing.opened (r : TraceRing) (session : List Byte) (q : PageRequest) : TracePage :=
  let p := r.heading session q
  if r.expired q then
    -- The gap in front of the page is what the ring no longer has.
    { p with cursorState := .expired, lostBeforePage := r.oldest - q.after - 1 }
  else p

/-- The page with the records that were copied, of those that are available. -/
def TracePage.give (p : TracePage) (available : Nat) (records : List TraceRecord) : TracePage :=
  let remaining := available - records.length
  { p with
    records := records
    remaining := remaining
    more := remaining ≠ 0
    first := (records.head?.map TraceRecord.recordSequence).getD 0
    last := (records.getLast?.map TraceRecord.recordSequence).getD 0
    -- The cursor moves to the last record handed over, or stays.
    nextAfter := (records.getLast?.map TraceRecord.recordSequence).getD p.nextAfter }

/-- The first of the prepared elements that does not pass its check. -/
def PageBuffer.refused (out : PageBuffer) (required : Nat) : Option Nat :=
  (List.range required).find? fun i => out.slot i ≠ .ok

/-- What follows the checks of a page request: the status, and the page when it is written. -/
def TraceRing.page (r : TraceRing) (session : List Byte) (q : PageRequest) (out : PageBuffer) :
    Status × Option TracePage :=
  let cursor := r.cursorState session q
  let available := r.available q
  -- A page has as many records as there are, and no more than were asked for.
  let required := min available q.maxRecords
  let p := { r.opened session q with required := required }
  -- A cursor that cannot be read from is reported without records.
  if cursor ≠ .current then (.ok, some { r.heading session q with cursorState := cursor })
  -- With too small a buffer only the counts are reported.
  else if out.capacity < required then
    (.capacity, some { p with remaining := available, more := available ≠ 0 })
  else
    match out.refused required with
    -- A prepared element that fails its check leaves the page unwritten.
    | some i => (out.slot i, none)
    | none => (.ok, some (p.give available (r.slice (r.offset q) required)))

/-- `emu_trace_page`, given the destination the request names when there is one. -/
def tracePage (session : List Byte) (q : PageRequest) (out : PageBuffer)
    (found : Option (TraceDestination × TraceRing)) : Status × Option TracePage :=
  if q.check out ≠ .ok then (q.check out, none)
  else
    -- Only a destination that exists is read from.
    match found with
    | none => (.notFound, none)
    -- File destinations have no ring of their own.
    | some (d, r) => if d.isFile then (.unsupported, none) else r.page session q out

/-! ### The ring of outcomes -/

/-- `EMU_OUTCOME_CAPACITY`. -/
def outcomeCapacity : Nat := 1024

/-- `struct emu_outcome_ring`. -/
structure OutcomeRing where
  records : Nat → TraceRecord
  head : Nat
  count : Nat
  nextSequence : Nat
  overwritten : Nat

/-- `emu_outcome_init`. -/
def OutcomeRing.init : OutcomeRing where
  records _ := {}
  head := 0
  count := 0
  nextSequence := 1
  overwritten := 0

/-- The `insert` of the outcome ring, which leaves the epoch to its caller. -/
def OutcomeRing.insert (r : OutcomeRing) (v : TraceRecord) : OutcomeRing :=
  { r with
    records := Function.update r.records ((r.head + r.count) % outcomeCapacity)
      { v with recordSequence := r.nextSequence }
    -- As in the rings of destinations zero follows the last number.
    nextSequence := u64 (r.nextSequence + 1)
    count := r.count + 1 }

/-- The oldest outcome leaves the ring. -/
def OutcomeRing.evict (r : OutcomeRing) : OutcomeRing :=
  { r with
    head := (r.head + 1) % outcomeCapacity
    count := r.count - 1
    overwritten := if r.overwritten ≠ 2 ^ 64 - 1 then r.overwritten + 1 else r.overwritten }

/-- The eviction loop of `emu_outcome_append`, which counts events only. -/
def TraceRecord.accountOutcome (loss old : TraceRecord) : TraceRecord :=
  let sequence := if old.kind = .event then old.event.sequence else 0
  { loss with
    firstSourceSequence :=
      if loss.firstSourceSequence = 0 ∨ (sequence ≠ 0 ∧ sequence < loss.firstSourceSequence) then
        -- The first outcome of a LOSS record is taken whatever its number.
        sequence
      else loss.firstSourceSequence
    lastSourceSequence := max loss.lastSourceSequence sequence
    -- Records that are no events take up no number.
    count := saturate loss.count (if old.kind = .event then 1 else 0) }

/-- The LOSS record for the two oldest outcomes. -/
def OutcomeRing.loss (r : OutcomeRing) (generation : Nat) : TraceRecord :=
  let opened : TraceRecord := { kind := .loss, epoch := 1, generation := generation }
  (opened.accountOutcome (r.records r.head)).accountOutcome (r.evict.records r.evict.head)

/-- `emu_outcome_append`. -/
def OutcomeRing.append (r : OutcomeRing) (o : Observation) : Status × OutcomeRing :=
  let needed := if r.count = outcomeCapacity then 2 else 1
  if r.nextSequence = 0 ∨ 2 ^ 64 - 1 - r.nextSequence < needed - 1 then (.exhausted, r)
  else
    -- Room is made for a LOSS record and the new one.
    let room := if r.count = outcomeCapacity then r.evict.evict.insert (r.loss o.generation) else r
    (.ok, room.insert { epoch := 1, generation := o.generation, event := o })

/-- The outcome ring as the page function reads it: one epoch, and nothing is ever dropped. -/
def OutcomeRing.view (r : OutcomeRing) : TraceRing where
  records := r.records
  capacity := outcomeCapacity
  head := r.head
  count := r.count
  epoch := 1
  next := r.nextSequence
  overwritten := r.overwritten
  dropped := 0

/-- `emu_outcome_page`. -/
def outcomePage (session : List Byte) (q : PageRequest) (out : PageBuffer) (r : OutcomeRing) :
    Status × Option TracePage :=
  if q.check out ≠ .ok then (q.check out, none)
  -- Outcomes belong to no destination.
  else if q.destinationId ≠ 0 then (.invalid, none)
  else r.view.page session q out

end Emu80535
