import Emu80535.Facade.Observer
import Emu80535.Json.Output
import Mathlib

/-! One destination of the host's file sinks: its producers, its writer and its files. -/

namespace Emu80535.FileSink

/-! ### State -/

/-- `QUEUE`. -/
def queueSlots : Nat := 256

/-- `FOOTER_RESERVE`. -/
def footerReserve : Nat := 4096

/-- `EMUIF_SINK_*`. -/
inductive State where
  | open_
  | flushPending
  | closePending
  | closed
  | failed
  deriving DecidableEq, Repr

/-- `enum operation`. -/
inductive Operation where
  | none
  | opening
  | flush
  | close
  deriving DecidableEq, Repr

/-- `struct loss`. -/
structure Loss where
  first : Nat := 0
  last : Nat := 0
  count : Nat := 0
  sequence : Nat := 0
  generation : Nat := 0
  deriving DecidableEq, Repr

/-- `struct queued`. -/
structure Queued where
  record : TraceRecord
  ticket : Nat
  deriving DecidableEq, Repr

/-- `struct emuif_sink_status`, where the number of queued records is left to the queue. -/
structure SinkStatus where
  operationId : Nat
  completedOperationId : Nat
  bytes : Nat := 0
  records : Nat := 0
  lost : Nat := 0
  destinationId : Nat
  state : State
  segment : Nat := 0
  partialOutput : Bool := false
  error : Status := .ok
  deriving DecidableEq, Repr

/-- `struct emuif_sink_request`, without the token that selects a mapping. -/
structure Request where
  generation : Nat
  maxSegmentBytes : Nat
  maxTotalRecords : Nat
  destinationId : Nat
  maxSegments : Nat
  deriving DecidableEq, Repr

/-- The texts `provider_open` keeps of `struct emu_trace_file_metadata` for the headers. -/
structure Metadata where
  runtimeCommit : List Byte
  manifest : List Byte
  sessionId : List Byte
  imageHash : List Byte
  moduleHash : List Byte
  configHash : List Byte
  traceHash : List Byte
  configuration : List Byte
  deriving DecidableEq, Repr

/-- A part of a file, as one call of `write_bytes` leaves it there. -/
inductive Chunk where
  | header (bytes : List Byte)
  | line (record : TraceRecord) (bytes : List Byte)
  | footer (bytes : List Byte)
  /-- What a call that failed has written. -/
  | torn (bytes : List Byte)
  deriving DecidableEq, Repr

/-- The bytes of a part. -/
def Chunk.bytes : Chunk → List Byte
  | .header bytes => bytes
  | .line _ bytes => bytes
  | .footer bytes => bytes
  | .torn bytes => bytes

/-- The record of a complete record line. -/
def Chunk.record : Chunk → Option TraceRecord
  | .line record _ => some record
  | _ => none

/-- The size of a file. -/
def size (file : List Chunk) : Nat := (file.map fun chunk => chunk.bytes.length).sum

/-- `struct sink` and, latest first, the files made since it was opened. -/
structure Sink where
  queue : List Queued := []
  operation : Operation
  ioBusy : Bool := false
  nextSequence : Nat
  nextTicket : Nat
  barrierTicket : Nat := 0
  generation : Nat
  openingGeneration : Nat
  pendingLoss : Loss := {}
  barrierLoss : Loss := {}
  request : Request
  status : SinkStatus
  metadata : Metadata
  segmentBytes : Nat := 0
  segmentRecords : Nat := 0
  segmentLast : Nat := 0
  /-- `EMUIF_OK` while none is requested. -/
  failureRequested : Status := .ok
  files : List (List Chunk) := []
  deriving DecidableEq, Repr

/-- The records whose lines are complete, in the order they were written in. -/
def Sink.lines (s : Sink) : List TraceRecord := s.files.reverse.flatten.filterMap Chunk.record

/-! ### Texts -/

/-- `header_json`. -/
def headerJson (s : Sink) (segment : Nat) : Output :=
  let field (name : String) (value : List Byte) (o : Output) : Output :=
    (o.raw (asciiText name)).string value
  let o : Output := some []
  let o := field ("\x7b\"type\":\"header\",\"format\":\"emusa80535-trace-jsonl-1\"," ++
    "\"contractVersion\":\"0.3.0\",\"protocol\":\x7b\"major\":3,\"minor\":0\x7d," ++
    "\"runtimeCommit\":") s.metadata.runtimeCommit o
  let o := field ",\"contractManifestSha256\":" s.metadata.manifest o
  let o := field ",\"sessionId\":" s.metadata.sessionId o
  let o := field ",\"imageSha256\":" s.metadata.imageHash o
  let o := field ",\"moduleSha256\":" s.metadata.moduleHash o
  let o := field ",\"configSha256\":" s.metadata.configHash o
  let o := field ",\"traceConfigSha256\":" s.metadata.traceHash o
  let o := o.raw (asciiText ",\"generation\":\"" ++ decimal s.openingGeneration ++
    asciiText "\",\"segment\":" ++ decimal segment ++
    asciiText ",\"destinationId\":" ++ decimal s.status.destinationId ++
    asciiText ",\"configuration\":")
  (o.raw s.metadata.configuration).raw (asciiText "\x7d\n")

/-- `status_name`. -/
def statusName : Status → String
  | .ok => "OK"
  | .invalid => "INVALID"
  | .version => "VERSION"
  | .state => "STATE"
  | .range => "RANGE"
  | .capacity => "CAPACITY"
  | .unsupported => "UNSUPPORTED"
  | .busy => "BUSY"
  | .stale => "STALE"
  | .denied => "DENIED"
  | .fault => "FAULT"
  | .exhausted => "EXHAUSTED"
  | .io => "IO"
  | .hash => "HASH"
  | .notFound => "NOT_FOUND"

/-- The line that `footer` writes. -/
def footerJson (s : Sink) (status : Status) : Output :=
  Output.raw (asciiText "\x7b\"type\":\"footer\",\"destinationId\":" ++
    decimal s.status.destinationId ++
    asciiText ",\"segment\":" ++ decimal s.status.segment ++
    asciiText ",\"lastRecordSequence\":\"" ++ decimal s.segmentLast ++
    asciiText "\",\"records\":\"" ++ decimal s.segmentRecords ++
    asciiText "\",\"lost\":\"" ++ decimal s.status.lost ++
    asciiText "\",\"complete\":true,\"status\":\"" ++ asciiText (statusName status) ++
    asciiText "\"\x7d\n") (some [])

/-- `emu_trace_record_json`, over `emu_observation_json`. -/
def traceRecordJson (observationJson : Observation → Output → Output) (r : TraceRecord) :
    Output :=
  let o : Output := Output.raw (asciiText "\x7b\"epoch\":\"" ++ decimal r.epoch ++
    asciiText "\",\"recordSequence\":\"" ++ decimal r.recordSequence ++
    asciiText "\",\"generation\":\"" ++ decimal r.generation ++
    asciiText "\",\"destinationId\":" ++ decimal r.destinationId ++
    asciiText ",\"traceIds\":[") (some [])
  -- The identities are written with commas between them.
  let o := o.raw ((r.traceIds.map decimal).intersperse (asciiText ",")).flatten
  let o := o.raw (asciiText "],\"kind\":" ++ decimal (match r.kind with
    | .event => 0
    | .suppression => 1
    | .loss => 2))
  let o :=
    -- An event record holds its observation; the other kinds stand for a range of source events.
    if r.kind = .event then observationJson r.event (o.raw (asciiText ",\"event\":"))
    else
      o.raw (asciiText ",\"firstSourceSequence\":\"" ++ decimal r.firstSourceSequence ++
        asciiText "\",\"lastSourceSequence\":\"" ++ decimal r.lastSourceSequence ++
        asciiText "\",\"count\":\"" ++ decimal r.count ++ asciiText "\"")
  let o :=
    if r.kind = .suppression then
      o.raw (asciiText ",\"traceId\":" ++ decimal r.traceId ++
        asciiText ",\"interruptPolicy\":" ++ decimal r.interruptPolicy ++
        asciiText ",\"entryDepth\":" ++ decimal r.entryDepth ++
        asciiText ",\"maximumDepth\":" ++ decimal r.maximumDepth)
    else o
  o.raw (asciiText "\x7d")

/-- What stands before a record in its line. -/
def envelope : List Byte := asciiText "\x7b\"type\":\"record\",\"record\":"

/-- What stands behind it. -/
def envelopeEnd : List Byte := asciiText "\x7d\n"

/-- The line `write_record` makes of a record, over the JSON of records. -/
def recordLine (recordJson : TraceRecord → Output) (r : TraceRecord) : Output :=
  match recordJson r with
  | none => none
  | some json => if 3072 < json.length then none else some (envelope ++ json ++ envelopeEnd)

/-! ### Producers -/

namespace Sink

/-- `loss_record`. -/
def lossRecord (s : Sink) (loss : Loss) : TraceRecord where
  kind := .loss
  destinationId := s.status.destinationId
  epoch := 1
  recordSequence := loss.sequence
  generation := loss.generation
  firstSourceSequence := loss.first
  lastSourceSequence := loss.last
  count := loss.count

/-- The range of source events `remember_loss` takes from a record. -/
def sources (r : TraceRecord) : Nat × Nat :=
  if r.kind = .event then (r.event.sequence, r.event.sequence)
  else (r.firstSourceSequence, r.lastSourceSequence)

/-- `saturate` applied to the number of lost records. -/
def lose (n : Nat) (s : Sink) : Sink :=
  { s with status := { s.status with lost := saturate s.status.lost n } }

/-- `remember_loss`. -/
def rememberLoss (r : TraceRecord) (s : Sink) : Sink :=
  let pending := s.pendingLoss
  let first := (sources r).1
  let last := (sources r).2
  { s with pendingLoss := { pending with
      -- The range grows at either end; its first number is taken as it is by the first loss.
      first := if pending.count = 0 ∨ first ≠ 0 ∧ first < pending.first then first
        else pending.first
      last := if pending.last < last then last else pending.last
      count := saturate pending.count 1
      generation := r.generation } }.lose 1

/-- `sequence_room`. -/
def sequenceRoom (n : Nat) (s : Sink) : Bool :=
  decide (s.nextSequence ≠ 0 ∧ n - 1 ≤ u64Max - s.nextSequence ∧
    s.nextTicket ≠ 0 ∧ n - 1 ≤ u64Max - s.nextTicket)

/-- `put_record`. -/
def putRecord (r : TraceRecord) (s : Sink) : Sink :=
  { s with
    queue := s.queue ++ [{
      record := { r with
        destinationId := s.status.destinationId
        epoch := 1
        recordSequence := s.nextSequence }
      ticket := s.nextTicket }]
    nextSequence := u64 (s.nextSequence + 1)
    nextTicket := u64 (s.nextTicket + 1) }

/-- The part of `provider_enqueue` that puts the losses so far before the record. -/
def putPending (r : TraceRecord) (s : Sink) : Sink :=
  if s.pendingLoss.count ≠ 0 then
    { s.putRecord (s.lossRecord { s.pendingLoss with generation := r.generation }) with
      pendingLoss := {} }
  else s

/-- `provider_enqueue`, once it has found the sink. -/
def providerEnqueue (r : TraceRecord) (s : Sink) : Status × Sink :=
  let s := { s with generation := r.generation }
  -- The answer is decided before the sink is looked at.
  let result : Status := if s.nextSequence = 0 ∨ s.nextTicket = 0 then .exhausted else .ok
  -- A sink that failed or reached its limit counts what it is offered.
  if s.status.state = .failed ∨
      (s.status.state = .closed ∨ s.status.state = .closePending) ∧
        s.status.error = .capacity then (result, s.lose 1)
  -- One that was closed on request does not.
  else if s.status.state = .closed ∨ s.status.state = .closePending then (result, s)
  -- Until the header is written nothing is queued.
  else if s.operation = .opening then (result, s.rememberLoss r)
  else
    -- A pending loss takes a slot and a number of its own, in front of the record.
    let needed := if s.pendingLoss.count ≠ 0 then 2 else 1
    -- Without room the record is lost, and will be reported with the next one.
    if s.failureRequested ≠ .ok ∨ queueSlots - s.queue.length < needed then
      (result, s.rememberLoss r)
    else if s.sequenceRoom needed then (result, (s.putPending r).putRecord r)
    -- Without numbers for it the sink is going to fail.
    else (.exhausted, { s.rememberLoss r with failureRequested := .exhausted })

/-- The part of `operation_locked` that begins an operation. -/
def accept (close : Bool) (generation : Nat) (s : Sink) : Sink :=
  let pending := s.pendingLoss
  { s with
    generation := generation
    operation := if close then .close else .flush
    -- Everything queued so far is to be written before the operation ends.
    barrierTicket := if s.nextTicket ≠ 0 then s.nextTicket - 1 else u64Max
    pendingLoss := {}
    -- The pending loss goes with the operation, under the next number.
    barrierLoss :=
      if pending.count ≠ 0 then
        { pending with sequence := s.nextSequence, generation := generation }
      else pending
    nextSequence := if pending.count ≠ 0 then u64 (s.nextSequence + 1) else s.nextSequence
    status := { s.status with
      operationId := s.status.operationId + 1
      state := if close then .closePending else .flushPending } }

/-- `operation_locked`, without the copy of the status it hands out. -/
def operationLocked (close : Bool) (generation : Nat) (s : Sink) : Status × Sink :=
  -- A sink that is closed is closed again, but cannot be flushed.
  if s.status.state = .closed ∨ s.status.state = .failed then
    (if close then .ok else .state, s)
  else if s.operation ≠ .none ∨ s.failureRequested ≠ .ok then (.busy, s)
  else if s.status.operationId = u64Max then (.exhausted, s)
  -- There is no number left for the pending loss.
  else if s.pendingLoss.count ≠ 0 ∧ s.nextSequence = 0 then
    (.exhausted, { s with failureRequested := .exhausted })
  else (.ok, s.accept close generation)

/-- What `provider_close_all` and `runtime_files_destroy` do for a sink. -/
def closeAll (generation : Nat) (s : Sink) : Sink :=
  if s.status.state = .closed ∨ s.status.state = .failed then s
  else
    let (status, s) := s.operationLocked true generation
    -- A sink that cannot be closed in order is going to fail instead.
    if status = .exhausted then { s with failureRequested := .exhausted } else s

/-! ### Opening -/

/-- The limits `provider_open` accepts. -/
def admissible (q : Request) : Bool :=
  decide (q.destinationId ≠ 0 ∧ q.generation ≠ 0 ∧
    65536 ≤ q.maxSegmentBytes ∧ q.maxSegmentBytes ≤ 1073741824 ∧
    1 ≤ q.maxSegments ∧ q.maxSegments ≤ 16 ∧ q.maxTotalRecords ≠ 0)

/-- Whether the header of a segment leaves room for a record and the footer. -/
def headerFits (s : Sink) (segment : Nat) : Bool :=
  match headerJson s segment with
  | none => false
  | some header =>
    decide (header.length ≤ 65536) &&
      -- 3072 and 28 bytes are the largest record and its envelope.
      decide (header.length + 3072 + 28 + footerReserve ≤ s.request.maxSegmentBytes)

/-- A sink as `provider_open` prepares it, continuing the identities of the one it replaces. -/
def prepared (q : Request) (m : Metadata) (old : Option Sink) : Sink where
  operation := .opening
  nextSequence := (old.map (·.nextSequence)).getD 1
  nextTicket := (old.map (·.nextTicket)).getD 1
  generation := q.generation
  openingGeneration := q.generation
  request := q
  metadata := m
  status := {
    operationId := (old.map (·.status.operationId + 1)).getD 1
    completedOperationId := (old.map (·.status.operationId)).getD 0
    destinationId := q.destinationId
    state := .flushPending }

/-- `provider_open`, once the mapping, the hashes and the table of sinks have been checked. -/
def providerOpen (q : Request) (m : Metadata) (old : Option Sink) : Except Status Sink :=
  let s := prepared q m old
  if admissible q = false then .error .invalid
  else if s.headerFits 0 = false then .error .range
  -- Only a sink that has come to its end can be replaced.
  else if (old.any fun old => old.ioBusy || (old.status.state ≠ .closed &&
      old.status.state ≠ .failed)) = true then .error .busy
  else if (old.any fun old => old.status.operationId = u64Max) = true then .error .exhausted
  else if s.nextSequence = 0 ∨ s.nextTicket = 0 then .error .exhausted
  else .ok s

end Sink

/-! ### The writer -/

/-- A task as `select_task` fills it in. -/
inductive Task where
  | failure (error : Status)
  | opening
  | record (record : TraceRecord)
  | barrier (close : Bool) (loss : Loss)
  deriving DecidableEq, Repr

/-- How the last part of a segment goes: the bytes the file takes, `fsync` and `close`. -/
structure Ending where
  taken : Nat
  synced : Bool
  closed : Bool
  deriving DecidableEq, Repr

/-- What the file system does during a task. -/
structure Io where
  /-- The directory is still private and `openat` makes the file. -/
  made : Bool
  /-- What it made is a private regular file. -/
  regular : Bool
  /-- The bytes of a header and of a line that the file takes. -/
  headerTaken : Nat
  lineTaken : Nat
  /-- The segment that is full. -/
  rotated : Ending
  /-- The segment that is closed. -/
  ended : Ending
  /-- The `fsync` of a flush. -/
  synced : Bool
  deriving DecidableEq, Repr

/-- How `write_record` ends, up to `capacity_close`. -/
inductive Wrote where
  | written
  | unwritten
  /-- The limit of segments has been reached before the record. -/
  | noSegment
  /-- The limit of records has been reached by the record. -/
  | lastRecord
  deriving DecidableEq, Repr

/-- Where the writer is. -/
inductive Writer where
  | waiting
  | busy (task : Task)
  /-- Inside `capacity_close`, once it has released the lock. -/
  | limited
  deriving DecidableEq, Repr

namespace Sink

/-- `select_task`, for the sink it comes to. -/
def selectTask (s : Sink) : Option (Task × Sink) :=
  -- The writer has one task of a sink at a time.
  if s.ioBusy then none
  -- A failure that was requested comes before anything else.
  else if s.failureRequested ≠ .ok then
    some (.failure s.failureRequested, { s with ioBusy := true })
  else if s.operation = .opening then some (.opening, { s with ioBusy := true })
  else
    -- The barrier comes once no queued record is left in front of it.
    let barrier : Option (Task × Sink) :=
      if s.operation = .flush ∨ s.operation = .close then
        some (.barrier (s.operation == .close) s.barrierLoss,
          { s with barrierLoss := {}, ioBusy := true })
      else none
    match s.queue with
    | [] => barrier
    | head :: rest =>
      -- While an operation waits only the records in front of its barrier are written.
      if s.operation = .none ∨ head.ticket ≤ s.barrierTicket then
        some (.record head.record, { s with queue := rest, ioBusy := true })
      else barrier

/-- What is written goes to the end of the latest file. -/
def append (chunk : Chunk) (s : Sink) : Sink :=
  { s with
    files := match s.files with
      | [] => []
      | file :: older => (file ++ [chunk]) :: older
    status := { s.status with bytes := s.status.bytes + chunk.bytes.length }
    segmentBytes := s.segmentBytes + chunk.bytes.length }

/-- `write_bytes`, over the number of bytes that the file takes. -/
def writeBytes (taken : Nat) (chunk : Chunk) (s : Sink) : Bool × Sink :=
  if chunk.bytes.length ≤ taken then (true, s.append chunk)
  -- What was written before the error stays in the file.
  else (false, s.append (.torn (chunk.bytes.take taken)))

/-- `footer`. -/
def footer (status : Status) (io : Ending) (s : Sink) : Bool × Sink :=
  match footerJson s status with
  | none => (false, s)
  | some text =>
    -- The reserve of every segment is large enough for its footer.
    if text.length ≤ footerReserve then
      let (whole, s) := s.writeBytes io.taken (.footer text)
      (whole && io.synced, s)
    else (false, s)

/-- The counters of a new segment. -/
def startSegment (segment : Nat) (s : Sink) : Sink :=
  { s with
    segmentBytes := 0
    segmentRecords := 0
    segmentLast := 0
    status := { s.status with segment := segment } }

/-- `open_segment`. -/
def openSegment (io : Io) (segment : Nat) (s : Sink) : Bool × Sink :=
  match headerJson s segment with
  | none => (false, s)
  | some header =>
    -- There are no more than 16 segments.
    if s.headerFits segment = false ∨ 15 < segment ∨ io.made = false then (false, s)
    else
      -- The file is there from here on, also when the next check fails.
      let s := { s with files := [] :: s.files }
      if io.regular = false then (false, s)
      else (s.startSegment segment).writeBytes io.headerTaken (.header header)

/-- `discard_queue`. -/
def discardQueue (s : Sink) : Sink :=
  { s.lose s.queue.length with queue := [], pendingLoss := {}, barrierLoss := {} }

/-- `fail_sink`. -/
def failSink (error : Status) (lostRecord : Nat) (s : Sink) : Sink :=
  -- A record in hand is lost with the queue.
  let s := (s.lose lostRecord).discardQueue
  { s with
    status := { s.status with
      error := error
      -- A failed sink accepts nothing more, and its operation counts as completed.
      state := .failed
      partialOutput := true
      completedOperationId := s.status.operationId }
    operation := .none
    failureRequested := .ok
    ioBusy := false }

/-- `capacity_close`, as far as it holds the lock first. -/
def capacityBegin (s : Sink) : Sink :=
  { s with
    status := { s.status with state := .closePending, error := .capacity }
    operation := .close }.discardQueue

/-- The rest of `capacity_close`, and what the writer does if it fails. -/
def capacityEnd (io : Ending) (s : Sink) : Sink :=
  let (whole, s) := s.footer .capacity io
  -- The last segment gets its footer and is closed.
  if whole && io.closed then
    { s with
      status := { s.status with
        state := .closed
        error := .capacity
        completedOperationId := s.status.operationId }
      operation := .none
      ioBusy := false }
  else s.failSink .io 0

/-- The check `write_record` makes, and makes again behind a rotation. -/
def fits (line : List Byte) (s : Sink) : Bool :=
  decide (s.segmentBytes + line.length + footerReserve ≤ s.request.maxSegmentBytes)

/-- The part of `write_record` that goes over to the next segment. -/
def rotate (io : Io) (s : Sink) : Bool × Sink :=
  let (whole, s') := s.footer .ok io.rotated
  -- The next segment begins only where this one is complete.
  if whole && io.rotated.closed then s'.openSegment io (s.status.segment + 1)
  else (false, s')

/-- The part of `write_record` that writes the line. -/
def writeLine (io : Io) (r : TraceRecord) (line : List Byte) (s : Sink) : Wrote × Sink :=
  -- A record that does not fit an empty segment is not written at all.
  if s.fits line = false then (.unwritten, s)
  else
    let (whole, s) := s.writeBytes io.lineTaken (.line r line)
    if whole then
      -- The counters are those of complete lines.
      let records := s.status.records + 1
      let s := { s with
        segmentRecords := s.segmentRecords + 1
        segmentLast := r.recordSequence
        status := { s.status with records := records } }
      -- The limit of records is reached by this one.
      (if s.request.maxTotalRecords ≤ records then .lastRecord else .written, s)
    else (.unwritten, s)

/-- `write_record`, up to `capacity_close`. -/
def writeRecord (recordJson : TraceRecord → Output) (io : Io) (r : TraceRecord) (s : Sink) :
    Wrote × Sink :=
  match recordLine recordJson r with
  | none => (.unwritten, s)
  | some line =>
    if s.fits line then s.writeLine io r line
    -- The limit of segments leaves no room for it: the record is lost.
    else if s.request.maxSegments ≤ s.status.segment + 1 then (.noSegment, s.lose 1)
    else
      let (opened, s) := s.rotate io
      if opened then s.writeLine io r line else (.unwritten, s)

/-- What the writer makes of the end of `write_record`; `none` is for the rest of the task. -/
def wrote : Wrote × Sink → Option (Writer × Sink)
  | (.written, _) => none
  | (.unwritten, s) => some (.waiting, s.failSink .io 1)
  | (.noSegment, s) => some (.limited, s.capacityBegin)
  | (.lastRecord, s) => some (.limited, s.capacityBegin)

/-- What `writer` does at a barrier once its loss is written. -/
def barrier (close : Bool) (io : Io) (s : Sink) : Sink :=
  let (whole, s) :=
    -- Only a close writes the footer; a flush leaves the segment open.
    if close then
      let (whole, s) := s.footer .ok io.ended
      (whole && io.ended.closed, s)
    else (io.synced, s)
  if whole then
    { s with
      status := { s.status with
        state := if close then .closed else .open_
        completedOperationId := s.status.operationId }
      operation := .none
      ioBusy := false }
  else s.failSink .io 0

/-- `writer`, from the task it has selected to its end or into `capacity_close`. -/
def perform (recordJson : TraceRecord → Output) (io : Io) (t : Task) (s : Sink) :
    Writer × Sink :=
  match t with
  -- The failure of the task before is taken note of here.
  | .failure error => (.waiting, s.failSink error 0)
  | .opening =>
    -- The opening ends with the header of the first segment.
    let (opened, s) := s.openSegment io 0
    if opened then
      (.waiting, { s with
        status := { s.status with
          state := .open_
          completedOperationId := s.status.operationId }
        operation := .none
        ioBusy := false })
    else (.waiting, s.failSink .io 0)
  | .record r =>
    -- A record that is written gives the sink back to its producers.
    let result := s.writeRecord recordJson io r
    (wrote result).getD (.waiting, { result.2 with ioBusy := false })
  | .barrier close loss =>
    -- The loss of the barrier is written first, and may itself reach a limit.
    let result :=
      if loss.count ≠ 0 then s.writeRecord recordJson io (s.lossRecord loss) else (.written, s)
    (wrote result).getD (.waiting, result.2.barrier close io)

end Sink

/-! ### Runs -/

/-- A sink and where the writer is with it. -/
structure System where
  sink : Sink
  writer : Writer
  deriving DecidableEq, Repr

/-- What happens to a sink. -/
inductive Event where
  /-- A view is offered to a sink in some status. -/
  | offered (status : SinkStatus) (view : TraceRecord)
  /-- A record gets its place in the order of the files. -/
  | planned (record : TraceRecord)
  /-- A flush or a close is accepted while some loss was pending. -/
  | requested (close : Bool) (pending : Loss)
  /-- The line of a record is complete. -/
  | wrote (record : TraceRecord)
  /-- The operation is completed, neither failed nor cut short by a limit. -/
  | completed (close : Bool)
  /-- A record will not be written. -/
  | givenUp (record : TraceRecord)
  deriving DecidableEq, Repr

/-- The record that is in the writer's hands. -/
def inHand (s : Sink) : Writer → List TraceRecord
  | .busy (.record r) => [r]
  | .busy (.barrier _ loss) => if loss.count ≠ 0 then [s.lossRecord loss] else []
  | _ => []

/-- The events of an offer. -/
def offerEvents (v : TraceRecord) (s s' : Sink) : List Event :=
  .offered s.status v :: (s'.queue.drop s.queue.length).map fun q => .planned q.record

/-- The events of a request. -/
def requestEvents (close : Bool) (s s' : Sink) : List Event :=
  if s'.status.operationId = s.status.operationId then []
  else
    (if s'.barrierLoss.count ≠ 0 then [.planned (s'.lossRecord s'.barrierLoss)] else []) ++
      [.requested close s.pendingLoss]

/-- The events of a task: what it has written, what it has left neither written nor waiting. -/
def taskEvents (t : Task) (s : Sink) (c : System) : List Event :=
  let hand := inHand s (.busy t)
  let waited := hand ++ s.queue.map (·.record)
  (hand.filter fun r => r ∈ c.sink.lines).map .wrote ++
    (waited.filter fun r => r ∉ c.sink.lines ∧ r ∉ c.sink.queue.map (·.record)).map .givenUp ++
    match t with
    | .barrier close _ =>
      if c.writer = .waiting ∧ c.sink.status.state ≠ .failed then [.completed close] else []
    | _ => []

/-- What the producers and the writer can do next. -/
inductive Step (recordJson : TraceRecord → Output) : System → List Event → System → Prop
  /-- The trace engine offers events and suppression summaries. -/
  | enqueue (c : System) (v : TraceRecord) (ordinary : v.kind ≠ .loss) :
    Step recordJson c (offerEvents v c.sink (c.sink.providerEnqueue v).2)
      { c with sink := (c.sink.providerEnqueue v).2 }
  | operation (c : System) (close : Bool) (generation : Nat) :
    Step recordJson c (requestEvents close c.sink (c.sink.operationLocked close generation).2)
      { c with sink := (c.sink.operationLocked close generation).2 }
  | closeAll (c : System) (generation : Nat) :
    Step recordJson c (requestEvents true c.sink (c.sink.closeAll generation))
      { c with sink := c.sink.closeAll generation }
  | status (c : System) : Step recordJson c [] c
  | select {c : System} {t : Task} {s : Sink} (waiting : c.writer = .waiting)
    (selected : c.sink.selectTask = some (t, s)) : Step recordJson c [] ⟨s, .busy t⟩
  | perform {c : System} {t : Task} (busy : c.writer = .busy t) (io : Io) :
    Step recordJson c
      (taskEvents t c.sink
        ⟨(c.sink.perform recordJson io t).2, (c.sink.perform recordJson io t).1⟩)
      ⟨(c.sink.perform recordJson io t).2, (c.sink.perform recordJson io t).1⟩
  | finish {c : System} (limited : c.writer = .limited) (io : Ending) :
    Step recordJson c [] ⟨c.sink.capacityEnd io, .waiting⟩

/-- The events of a sink's latest open lifetime. -/
inductive Run (recordJson : TraceRecord → Output) : List Event → System → Prop
  | opened {q : Request} {m : Metadata} {s : Sink}
    (accepted : Sink.providerOpen q m none = .ok s) : Run recordJson [] ⟨s, .waiting⟩
  | reopened {es : List Event} {c : System} {q : Request} {m : Metadata} {s : Sink}
    (run : Run recordJson es c) (accepted : Sink.providerOpen q m (some c.sink) = .ok s) :
    Run recordJson [] ⟨s, .waiting⟩
  | step {es fs : List Event} {c d : System} (run : Run recordJson es c)
    (step : Step recordJson c fs d) : Run recordJson (es ++ fs) d

end Emu80535.FileSink
