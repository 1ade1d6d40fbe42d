import Emu80535.Runtime.FileSink
import Emu80535.Lib.Tickets

/-! What the writer of a file sink does to the sink and to its files. -/

namespace Emu80535.FileSink

variable {recordJson : TraceRecord → Output} {s s' s'' : Sink}

-- Only the lengths of these texts matter here, and the writer checks them.
attribute [local irreducible] headerJson footerJson

/-! ### What writing leaves alone -/

/-- What the writer shares with the producers, the losses apart. -/
structure Shared (s s' : Sink) : Prop where
  queue : s'.queue = s.queue
  operation : s'.operation = s.operation
  nextSequence : s'.nextSequence = s.nextSequence
  nextTicket : s'.nextTicket = s.nextTicket
  barrierTicket : s'.barrierTicket = s.barrierTicket
  barrierLoss : s'.barrierLoss = s.barrierLoss
  request : s'.request = s.request
  state : s'.status.state = s.status.state
  error : s'.status.error = s.status.error
  destinationId : s'.status.destinationId = s.status.destinationId

/-- What the writer keeps of a sink while it is not under the lock. -/
structure Kept (s s' : Sink) : Prop extends Shared s s' where
  lost : s'.status.lost = s.status.lost

/-- Nothing changes without writing. -/
theorem Kept.refl (s : Sink) : Kept s s :=
  ⟨⟨rfl, rfl, rfl, rfl, rfl, rfl, rfl, rfl, rfl, rfl⟩, rfl⟩

/-- What two writes keep both keep. -/
theorem Kept.trans (first : Kept s s') (second : Kept s' s'') : Kept s s'' where
  queue := second.queue.trans first.queue
  operation := second.operation.trans first.operation
  nextSequence := second.nextSequence.trans first.nextSequence
  nextTicket := second.nextTicket.trans first.nextTicket
  barrierTicket := second.barrierTicket.trans first.barrierTicket
  barrierLoss := second.barrierLoss.trans first.barrierLoss
  request := second.request.trans first.request
  state := second.state.trans first.state
  error := second.error.trans first.error
  destinationId := second.destinationId.trans first.destinationId
  lost := second.lost.trans first.lost

namespace Sink

/-- A part of a file. -/
theorem append_kept (chunk : Chunk) : Kept s (s.append chunk) :=
  ⟨⟨rfl, rfl, rfl, rfl, rfl, rfl, rfl, rfl, rfl, rfl⟩, rfl⟩

/-- All of a part or what is torn off it. -/
theorem writeBytes_kept (taken : Nat) (chunk : Chunk) : Kept s (s.writeBytes taken chunk).2 := by
  unfold writeBytes
  split
  · exact append_kept _
  · exact append_kept _

/-- A footer. -/
theorem footer_kept (status : Status) (io : Ending) : Kept s (s.footer status io).2 := by
  unfold footer
  split
  · exact .refl s
  · split
    · exact writeBytes_kept _ _
    · exact .refl s

/-- A new segment. -/
theorem openSegment_kept (io : Io) (segment : Nat) : Kept s (s.openSegment io segment).2 := by
  -- The new file starts empty, and its header is the first write into it.
  have made : Kept s { s with files := [] :: s.files } :=
    ⟨⟨rfl, rfl, rfl, rfl, rfl, rfl, rfl, rfl, rfl, rfl⟩, rfl⟩
  unfold openSegment
  split
  · exact .refl s
  · split
    · exact .refl s
    · dsimp only
      split
      · exact made
      · refine Kept.trans ?_ (writeBytes_kept _ _)
        exact ⟨⟨rfl, rfl, rfl, rfl, rfl, rfl, rfl, rfl, rfl, rfl⟩, rfl⟩

/-- A rotation. -/
theorem rotate_kept (io : Io) : Kept s (s.rotate io).2 := by
  have ended := footer_kept (s := s) .ok io.rotated
  unfold rotate
  dsimp only
  split
  · exact ended.trans (openSegment_kept io _)
  · exact ended

/-- A line. -/
theorem writeLine_kept (io : Io) (r : TraceRecord) (line : List Byte) :
    Kept s (s.writeLine io r line).2 := by
  have kept := writeBytes_kept (s := s) io.lineTaken (.line r line)
  unfold writeLine
  -- Too long, written whole, or torn: in each case nothing but the file and its counters changed.
  split
  · exact .refl s
  · dsimp only
    split
    · refine kept.trans ?_
      exact ⟨⟨rfl, rfl, rfl, rfl, rfl, rfl, rfl, rfl, rfl, rfl⟩, rfl⟩
    · exact kept

/-- A record, unless there is no segment left for it. -/
theorem writeRecord_kept (io : Io) (r : TraceRecord) :
    Kept s (s.writeRecord recordJson io r).2 ∨
      s.writeRecord recordJson io r = (.noSegment, s.lose 1) := by
  -- The three ways out: no line for the record, a line that fits, a line that needs a rotation.
  unfold writeRecord
  split
  · exact .inl (.refl s)
  · split
    · exact .inl (writeLine_kept io r _)
    · split
      · exact .inr rfl
      · dsimp only
        split
        · exact .inl ((rotate_kept io).trans (writeLine_kept io r _))
        · exact .inl (rotate_kept io)

/-- A line is not given up for want of a segment. -/
theorem writeLine_noSegment (io : Io) (r : TraceRecord) (line : List Byte) :
    (s.writeLine io r line).1 ≠ .noSegment := by
  -- Only the choice of a segment answers so.
  unfold writeLine
  split
  · exact Wrote.noConfusion
  · dsimp only
    split
    · split
      · exact Wrote.noConfusion
      · exact Wrote.noConfusion
    · exact Wrote.noConfusion

/-- Giving a record up for want of a segment keeps the rest. -/
theorem writeRecord_noSegment {io : Io} {r : TraceRecord}
    (limit : (s.writeRecord recordJson io r).1 = .noSegment) :
    (s.writeRecord recordJson io r).2 = s.lose 1 := by
  -- Only the test of the number of segments answers so, and it loses the one record.
  revert limit
  unfold writeRecord
  split
  · exact fun limit => Wrote.noConfusion limit
  · split
    · exact fun limit => absurd limit (writeLine_noSegment _ _ _)
    · split
      · exact fun _ => rfl
      · dsimp only
        split
        · exact fun limit => absurd limit (writeLine_noSegment _ _ _)
        · exact fun limit => Wrote.noConfusion limit

/-- A record leaves what is shared alone. -/
theorem writeRecord_shared (io : Io) (r : TraceRecord) :
    Shared s (s.writeRecord recordJson io r).2 := by
  rcases writeRecord_kept io r with kept | limit
  · exact kept.toShared
  · rw [limit]
    exact ⟨rfl, rfl, rfl, rfl, rfl, rfl, rfl, rfl, rfl, rfl⟩

/-! ### Lines -/

/-- Only a line adds to the lines. -/
theorem lines_append (chunk : Chunk) :
    (s.append chunk).lines = s.lines ++ if s.files = [] then [] else chunk.record.toList := by
  unfold append lines
  cases s.files with
  | nil => rfl
  | cons file older =>
    cases record : chunk.record with
    | none => simp [record]
    | some r => simp [record]

/-- A part that is no line adds nothing. -/
theorem lines_writeBytes {taken : Nat} {chunk : Chunk} (other : chunk.record = none) :
    (s.writeBytes taken chunk).2.lines = s.lines := by
  unfold writeBytes
  split
  · rw [lines_append, other]
    simp
  · rw [lines_append]
    simp [Chunk.record]

/-- Writing to a file never takes it away. -/
theorem files_append {chunk : Chunk} (some : s.files ≠ []) : (s.append chunk).files ≠ [] := by
  unfold append
  cases files : s.files with
  | nil => exact absurd files some
  | cons file older => exact List.cons_ne_nil _ _

/-- The same of a call. -/
theorem files_writeBytes {taken : Nat} {chunk : Chunk} (some : s.files ≠ []) :
    (s.writeBytes taken chunk).2.files ≠ [] := by
  unfold writeBytes
  split
  · exact files_append some
  · exact files_append some

/-- A footer is no line. -/
theorem lines_footer (status : Status) (io : Ending) : (s.footer status io).2.lines = s.lines := by
  unfold footer
  split
  · rfl
  · split
    · exact lines_writeBytes rfl
    · rfl

/-- A header is no line. -/
theorem lines_openSegment (io : Io) (segment : Nat) :
    (s.openSegment io segment).2.lines = s.lines := by
  -- A file without chunks has no line in it.
  have made : Sink.lines { s with files := [] :: s.files } = s.lines := by
    simp [lines]
  unfold openSegment
  split
  · rfl
  · split
    · rfl
    · dsimp only
      split
      · exact made
      · exact (lines_writeBytes rfl).trans made

/-- A segment that has been opened has a file. -/
theorem files_openSegment {io : Io} {segment : Nat} (opened : (s.openSegment io segment).1 = true) :
    (s.openSegment io segment).2.files ≠ [] := by
  revert opened
  unfold openSegment
  -- Only the last branch answers yes, and there the header went into the new file.
  split
  · exact fun opened => Bool.noConfusion opened
  · split
    · exact fun opened => Bool.noConfusion opened
    · dsimp only
      split
      · exact fun opened => Bool.noConfusion opened
      · exact fun _ => files_writeBytes (List.cons_ne_nil _ _)

/-- A rotation adds no line. -/
theorem lines_rotate (io : Io) : (s.rotate io).2.lines = s.lines := by
  unfold rotate
  dsimp only
  split
  · rw [lines_openSegment, lines_footer]
  · exact lines_footer _ _

/-- It ends in a file. -/
theorem files_rotate {io : Io} (opened : (s.rotate io).1 = true) : (s.rotate io).2.files ≠ [] := by
  revert opened
  unfold rotate
  dsimp only
  split
  · exact files_openSegment
  · exact fun opened => Bool.noConfusion opened

end Sink

/-- Whether the line of the record is complete. -/
def Wrote.complete : Wrote → Bool
  | .written => true
  | .unwritten => false
  | .noSegment => false
  | .lastRecord => true

namespace Sink

/-- A line is added when it is complete. -/
theorem lines_writeLine {io : Io} {r : TraceRecord} {line : List Byte} (some : s.files ≠ []) :
    (s.writeLine io r line).2.lines =
      s.lines ++ if (s.writeLine io r line).1.complete then [r] else [] := by
  unfold writeLine
  split
  · simp [Wrote.complete]
  · dsimp only
    -- A line counts when the file took all of it; a torn one is no record.
    by_cases whole : line.length ≤ io.lineTaken
    · have all : s.writeBytes io.lineTaken (.line r line) = (true, s.append (.line r line)) :=
        if_pos whole
      have added : (s.append (.line r line)).lines = s.lines ++ [r] := by
        rw [lines_append, if_neg some]
        rfl
      simp only [all, if_true]
      split
      · exact added
      · exact added
    · have torn : s.writeBytes io.lineTaken (.line r line) =
          (false, s.append (.torn (line.take io.lineTaken))) := if_neg whole
      simp only [torn, Bool.false_eq_true, if_false]
      rw [lines_append]
      simp [Chunk.record, Wrote.complete]

/-- A record is added when its line is complete. -/
theorem lines_writeRecord {io : Io} {r : TraceRecord} (some : s.files ≠ []) :
    (s.writeRecord recordJson io r).2.lines =
      s.lines ++ if (s.writeRecord recordJson io r).1.complete then [r] else [] := by
  unfold writeRecord
  split
  · simp [Wrote.complete]
  · split
    · exact lines_writeLine some
    · split
      · simp [Wrote.complete, lose, lines]
      · dsimp only
        split
        · -- A rotation adds no line itself, so what is added is what the line behind it adds.
          next opened => rw [lines_writeLine (files_rotate opened), lines_rotate]
        · simp [Wrote.complete, lines_rotate]

end Sink

/-! ### Sizes -/

/-- The limits of the request hold of the files. -/
structure Limits (s : Sink) : Prop where
  bytes : ∀ file ∈ s.files, size file ≤ s.request.maxSegmentBytes
  segments : s.files.length ≤ s.request.maxSegments
  records : s.lines.length ≤ s.request.maxTotalRecords

/-- The latest file has room for so many bytes more, and the counters are those of the files. -/
structure Measured (spare : Nat) (s : Sink) : Prop where
  room : ∃ file older, s.files = file :: older ∧ size file = s.segmentBytes ∧
    s.segmentBytes + spare ≤ s.request.maxSegmentBytes
  segments : s.files.length = s.status.segment + 1
  records : s.status.records = s.lines.length

/-- There is a file to write to. -/
theorem Measured.some {spare : Nat} (measured : Measured spare s) : s.files ≠ [] := by
  obtain ⟨file, older, files, -⟩ := measured.room
  rw [files]
  exact List.cons_ne_nil _ _

/-- Less room is there too. -/
theorem Measured.less {spare fewer : Nat} (measured : Measured spare s) (less : fewer ≤ spare) :
    Measured fewer s := by
  obtain ⟨file, older, files, exact_, room⟩ := measured.room
  exact ⟨⟨file, older, files, exact_, by omega⟩, measured.segments, measured.records⟩

/-- A part adds its bytes to a file. -/
theorem size_append (file : List Chunk) (chunk : Chunk) :
    size (file ++ [chunk]) = size file + chunk.bytes.length := by
  simp [size]

namespace Sink

/-- A part for which there is room. -/
theorem append_limits {spare : Nat} (chunk : Chunk) (limits : Limits s)
    (measured : Measured spare s) (fits : chunk.bytes.length ≤ spare)
    (other : chunk.record = none) :
    Limits (s.append chunk) ∧ Measured (spare - chunk.bytes.length) (s.append chunk) := by
  obtain ⟨file, older, files, exact_, room⟩ := measured.room
  have lines : (s.append chunk).lines = s.lines := by
    rw [lines_append, other]
    simp
  have added : (s.append chunk).files = (file ++ [chunk]) :: older := by
    simp only [append, files]
  -- The newest file grows by the part, and the counter of its bytes with it.
  have grown : size (file ++ [chunk]) = s.segmentBytes + chunk.bytes.length := by
    rw [size_append, exact_]
  have segments := limits.segments
  have measuredSegments := measured.segments
  rw [files] at segments measuredSegments
  refine ⟨⟨?_, ?_, ?_⟩, ⟨⟨_, _, added, grown, ?_⟩, ?_, ?_⟩⟩
  · intro f member
    rw [added] at member
    rcases List.mem_cons.mp member with rfl | member
    · exact grown ▸ Nat.le_trans (Nat.add_le_add_left fits _) room
    · exact limits.bytes f (files ▸ List.mem_cons_of_mem _ member)
  · rw [added]
    exact segments
  · rw [lines]
    exact limits.records
  · change s.segmentBytes + chunk.bytes.length + (spare - chunk.bytes.length) ≤ _
    have : s.segmentBytes + chunk.bytes.length + (spare - chunk.bytes.length) =
        s.segmentBytes + spare := by omega
    rw [this]
    exact room
  · rw [added]
    exact measuredSegments
  · rw [lines]
    exact measured.records

/-- A call that writes no line. -/
theorem writeBytes_limits {spare : Nat} (taken : Nat) (chunk : Chunk) (limits : Limits s)
    (measured : Measured spare s) (fits : chunk.bytes.length ≤ spare)
    (other : chunk.record = none) :
    Limits (s.writeBytes taken chunk).2 ∧
      Measured (spare - chunk.bytes.length) (s.writeBytes taken chunk).2 := by
  unfold writeBytes
  split
  · exact append_limits chunk limits measured fits other
  · -- What a short write leaves is a part of the chunk, so it fits where the chunk did.
    have shorter : (chunk.bytes.take taken).length ≤ chunk.bytes.length :=
      List.length_take_le' _ _
    have torn := append_limits (.torn (chunk.bytes.take taken)) limits measured
      (Nat.le_trans shorter fits) rfl
    exact ⟨torn.1, torn.2.less (Nat.sub_le_sub_left shorter spare)⟩

/-- A footer, for which there always is room. -/
theorem footer_limits (status : Status) (io : Ending) (limits : Limits s)
    (measured : Measured footerReserve s) :
    Limits (s.footer status io).2 ∧ Measured 0 (s.footer status io).2 := by
  unfold footer
  cases footerJson s status with
  | none => exact ⟨limits, measured.less (Nat.zero_le _)⟩
  | some text =>
    dsimp only
    split
    · -- A footer too long for its reserve is not written at all.
      next short =>
      obtain ⟨bounded, left⟩ := writeBytes_limits io.taken (.footer text) limits measured short rfl
      exact ⟨bounded, left.less (Nat.zero_le _)⟩
    · exact ⟨limits, measured.less (Nat.zero_le _)⟩

/-- A call leaves the number of the segment alone. -/
theorem writeBytes_segment (taken : Nat) (chunk : Chunk) :
    (s.writeBytes taken chunk).2.status.segment = s.status.segment := by
  unfold writeBytes
  split
  · rfl
  · rfl

/-- So does a footer. -/
theorem footer_segment (status : Status) (io : Ending) :
    (s.footer status io).2.status.segment = s.status.segment := by
  unfold footer
  split
  · rfl
  · split
    · exact writeBytes_segment _ _
    · rfl

/-- What a header leaves room for: the longest line and the footer. -/
def behindHeader : Nat := 3072 + 28 + footerReserve

/-- A header that fits leaves that room. -/
theorem headerFits_room {segment : Nat} {header : List Byte}
    (text : headerJson s segment = some header) (fits : s.headerFits segment = true) :
    header.length + behindHeader ≤ s.request.maxSegmentBytes := by
  unfold headerFits at fits
  rw [text] at fits
  have room := of_decide_eq_true (Bool.and_eq_true_iff.mp fits).2
  unfold behindHeader
  omega

/-- A segment that may be opened, with fewer files so far than are allowed. -/
theorem openSegment_limits (io : Io) (segment : Nat) (limits : Limits s)
    (more : s.files.length = segment) (allowed : segment < s.request.maxSegments)
    (counted : s.status.records = s.lines.length) :
    Limits (s.openSegment io segment).2 ∧
      ((s.openSegment io segment).1 = true → Measured behindHeader (s.openSegment io segment).2) := by
  have made : Sink.lines { s with files := [] :: s.files } = s.lines := by
    simp [lines]
  have bounded : Limits { s with files := [] :: s.files } := by
    refine ⟨?_, ?_, made ▸ limits.records⟩
    · intro file member
      rcases List.mem_cons.mp member with rfl | member
      · exact Nat.zero_le _
      · exact limits.bytes file member
    · change s.files.length + 1 ≤ s.request.maxSegments
      omega
  unfold openSegment
  cases text : headerJson s segment with
  | none => exact ⟨limits, Bool.noConfusion⟩
  | some header =>
    dsimp only
    split
    · exact ⟨limits, Bool.noConfusion⟩
    · next accepted =>
      split
      · exact ⟨bounded, Bool.noConfusion⟩
      · -- The header has been measured before the file is made.
        have fits : header.length + behindHeader ≤ s.request.maxSegmentBytes := by
          have checked := (not_or.mp accepted).1
          rw [Bool.not_eq_false] at checked
          exact headerFits_room text checked
        have fresh : Measured ((Chunk.header header).bytes.length + behindHeader)
            (startSegment segment { s with files := [] :: s.files }) := by
          refine ⟨⟨[], s.files, rfl, rfl, ?_⟩, ?_, ?_⟩
          · exact (Nat.zero_add _).symm ▸ fits
          · exact congrArg (· + 1) more
          · exact counted.trans (congrArg List.length made.symm)
        have started : Limits (startSegment segment { s with files := [] :: s.files }) :=
          ⟨bounded.bytes, bounded.segments, bounded.records⟩
        obtain ⟨written, left⟩ := writeBytes_limits io.headerTaken (.header header) started fresh
          (Nat.le_add_right _ _) rfl
        exact ⟨written, fun _ => left.less (Nat.le_of_eq (Nat.add_sub_cancel_left ..).symm)⟩

/-- A rotation with a segment left. -/
theorem rotate_limits (io : Io) (limits : Limits s) (measured : Measured footerReserve s)
    (allowed : s.status.segment + 1 < s.request.maxSegments) :
    Limits (s.rotate io).2 ∧ ((s.rotate io).1 = true → Measured behindHeader (s.rotate io).2) := by
  obtain ⟨bounded, left⟩ := footer_limits .ok io.rotated limits measured
  have kept := footer_kept (s := s) .ok io.rotated
  -- The footer closes the old segment, and the header opens the new one with the full reserve.
  unfold rotate
  dsimp only
  split
  · refine openSegment_limits io _ bounded ?_ ?_ left.records
    · rw [left.segments, footer_segment]
    · rw [kept.request]
      exact allowed
  · exact ⟨bounded, Bool.noConfusion⟩

end Sink

/-- The longest line a record may have. -/
theorem recordLine_length {r : TraceRecord} {line : List Byte}
    (encoded : recordLine recordJson r = some line) : line.length ≤ 3072 + 28 := by
  -- The envelope is fixed and the text inside is bounded by its encoder.
  have before : envelope.length = 26 := by decide
  have after : envelopeEnd.length = 2 := by decide
  unfold recordLine at encoded
  split at encoded
  · exact absurd encoded (by simp)
  · split at encoded
    · exact absurd encoded (by simp)
    · cases encoded
      simp only [List.length_append, before, after]
      omega

namespace Sink

/-- The check behind a rotation never fails. -/
theorem rotate_fits {io : Io} {r : TraceRecord} {line : List Byte} (limits : Limits s)
    (measured : Measured footerReserve s) (allowed : s.status.segment + 1 < s.request.maxSegments)
    (opened : (s.rotate io).1 = true) (encoded : recordLine recordJson r = some line) :
    (s.rotate io).2.fits line = true := by
  obtain ⟨file, older, -, -, room⟩ := ((rotate_limits io limits measured allowed).2 opened).room
  have short := recordLine_length encoded
  simp only [behindHeader] at room
  simp only [fits, decide_eq_true_eq]
  omega

/-- A line that is not the last one allowed. -/
theorem writeLine_limits (io : Io) (r : TraceRecord) (line : List Byte) (limits : Limits s)
    (measured : Measured 0 s) (unfinished : s.lines.length < s.request.maxTotalRecords) :
    Limits (s.writeLine io r line).2 ∧
      ((s.writeLine io r line).1.complete = true →
        Measured footerReserve (s.writeLine io r line).2) ∧
      ((s.writeLine io r line).1 = .written →
        (s.writeLine io r line).2.lines.length < s.request.maxTotalRecords) := by
  obtain ⟨file, older, files, exact_, -⟩ := measured.room
  unfold writeLine
  split
  · exact ⟨limits, Bool.noConfusion, Wrote.noConfusion⟩
  · next unfit =>
    have room : s.segmentBytes + line.length + footerReserve ≤ s.request.maxSegmentBytes := by
      simpa [fits] using unfit
    -- A whole line adds a record and leaves the reserve; a torn one ends the writing.
    by_cases whole : line.length ≤ io.lineTaken
    · have all : s.writeBytes io.lineTaken (.line r line) = (true, s.append (.line r line)) :=
        if_pos whole
      have added : (s.append (.line r line)).files = (file ++ [.line r line]) :: older := by
        simp only [append, files]
      have grown : size (file ++ [.line r line]) = s.segmentBytes + line.length := by
        rw [size_append, exact_]
        rfl
      have counted : (s.append (.line r line)).lines.length = s.lines.length + 1 := by
        rw [lines_append, if_neg measured.some]
        exact List.length_append
      have segments := measured.segments
      have files_ := limits.segments
      rw [files] at segments files_
      have bounded : Limits (s.append (.line r line)) := by
        refine ⟨?_, added ▸ files_, counted ▸ unfinished⟩
        intro f member
        rw [added] at member
        rcases List.mem_cons.mp member with rfl | member
        · exact grown ▸ Nat.le_trans (Nat.le_add_right _ _) room
        · exact limits.bytes f (files ▸ List.mem_cons_of_mem _ member)
      have records : (s.append (.line r line)).status.records + 1 =
          (s.append (.line r line)).lines.length := by
        rw [counted]
        exact congrArg (· + 1) measured.records
      simp only [all, if_true]
      refine ⟨⟨bounded.bytes, bounded.segments, bounded.records⟩, fun _ => ?_, fun fewer => ?_⟩
      · exact ⟨⟨_, _, added, grown, room⟩, added ▸ segments, records⟩
      · split at fewer
        · exact absurd fewer Wrote.noConfusion
        · next below =>
          exact Nat.lt_of_not_le fun reached => below (records ▸ reached)
    · have torn : s.writeBytes io.lineTaken (.line r line) =
          (false, s.append (.torn (line.take io.lineTaken))) := if_neg whole
      have shorter : (line.take io.lineTaken).length ≤ line.length := List.length_take_le' _ _
      have wide : Measured line.length s :=
        ⟨⟨file, older, files, exact_, by omega⟩, measured.segments, measured.records⟩
      simp only [torn, Bool.false_eq_true, if_false]
      exact ⟨(append_limits (.torn _) limits wide shorter rfl).1, Bool.noConfusion,
        Wrote.noConfusion⟩

/-- A record that may be written. -/
theorem writeRecord_limits {io : Io} {r : TraceRecord} (limits : Limits s)
    (measured : Measured footerReserve s)
    (unfinished : s.lines.length < s.request.maxTotalRecords) :
    Limits (s.writeRecord recordJson io r).2 ∧
      ((s.writeRecord recordJson io r).1 ≠ .unwritten →
        Measured footerReserve (s.writeRecord recordJson io r).2) ∧
      ((s.writeRecord recordJson io r).1 = .written →
        (s.writeRecord recordJson io r).2.lines.length < s.request.maxTotalRecords) := by
  -- A record that was answered with neither failure is a complete line.
  have complete : ∀ {w : Wrote}, w ≠ .unwritten → w ≠ .noSegment → w.complete = true := by
    intro w failed limit
    cases w with
    | written => rfl
    | unwritten => exact absurd rfl failed
    | noSegment => exact absurd rfl limit
    | lastRecord => rfl
  have line_ : ∀ {s' : Sink} (line : List Byte), Limits s' → Measured 0 s' →
      s'.lines.length < s'.request.maxTotalRecords →
      Limits (s'.writeLine io r line).2 ∧
        ((s'.writeLine io r line).1 ≠ .unwritten →
          Measured footerReserve (s'.writeLine io r line).2) ∧
        ((s'.writeLine io r line).1 = .written →
          (s'.writeLine io r line).2.lines.length < s'.request.maxTotalRecords) := by
    intro s' line limits measured unfinished
    obtain ⟨bounded, left, below⟩ := writeLine_limits io r line limits measured unfinished
    exact ⟨bounded, fun failed => left (complete failed (writeLine_noSegment _ _ _)), below⟩
  unfold writeRecord
  split
  · exact ⟨limits, fun failed => absurd rfl failed, Wrote.noConfusion⟩
  · split
    · exact line_ _ limits (measured.less (Nat.zero_le _)) unfinished
    · split
      · exact ⟨⟨limits.bytes, limits.segments, limits.records⟩,
          fun _ => ⟨measured.room, measured.segments, measured.records⟩, Wrote.noConfusion⟩
      · next left =>
        -- The segment that could not take the line is closed, and the line goes into a fresh one.
        obtain ⟨bounded, opened⟩ := rotate_limits io limits measured (Nat.lt_of_not_le left)
        have request := (rotate_kept (s := s) io).request
        dsimp only
        split
        · next done =>
          have fewer : (s.rotate io).2.lines.length < (s.rotate io).2.request.maxTotalRecords := by
            rw [lines_rotate, request]
            exact unfinished
          have written := line_ (by assumption) bounded ((opened done).less (Nat.zero_le _)) fewer
          rw [request] at written
          exact written
        · exact ⟨bounded, fun failed => absurd rfl failed, Wrote.noConfusion⟩

end Sink

end Emu80535.FileSink
