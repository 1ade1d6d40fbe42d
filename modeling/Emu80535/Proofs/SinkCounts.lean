import Emu80535.Proofs.SinkOrder

/-! What a file sink has lost. -/

namespace Emu80535.FileSink

open Tickets

variable {recordJson : TraceRecord → Output} {s s' : Sink} {c d : System} {es fs : List Event}

-- The texts of headers and footers do not matter here.
attribute [local irreducible] headerJson footerJson

/-! ### Counts -/

/-- The views among some records: all but the LOSS markers of the sink. -/
def views (rs : List TraceRecord) : Nat := rs.countP fun r => r.kind ≠ .loss

/-- The LOSS markers among them. -/
def markers (rs : List TraceRecord) : Nat := rs.countP fun r => r.kind = .loss

/-- A sink that counts what it is offered: neither closed nor being closed on request. -/
def SinkStatus.counts (status : SinkStatus) : Bool :=
  decide ¬((status.state = .closed ∨ status.state = .closePending) ∧ status.error ≠ .capacity)

/-- The views offered to a sink while it counted them. -/
def offered (es : List Event) : Nat :=
  es.countP fun e =>
    match e with
    | .offered status _ => status.counts
    | _ => false

/-- The records that will not be written. -/
def givenUp (es : List Event) : List TraceRecord :=
  es.filterMap fun e =>
    match e with
    | .givenUp r => some r
    | _ => none

/-- The views in the queue. -/
def queuedViews (s : Sink) : Nat := views (s.queue.map (·.record))

/-- Every view offered is written, waits in the queue or is counted as lost. -/
def Conserved (es : List Event) (c : System) : Prop :=
  offered es = views c.sink.lines + queuedViews c.sink + c.sink.status.lost

/-- The views offered that are neither written nor wait. -/
def missing (es : List Event) (c : System) : Nat :=
  offered es - (views c.sink.lines + queuedViews c.sink)

/-- What the sink counts as lost, whatever the counter can hold. -/
structure Counts (es : List Event) (c : System) (n : Nat) : Prop where
  lost : c.sink.status.lost = min n u64Max
  total : offered es + markers (givenUp es) =
    views c.sink.lines + views (inHand c.sink c.writer) + queuedViews c.sink + n

/-- Each record is a view or a marker. -/
theorem views_markers (rs : List TraceRecord) : views rs + markers rs = rs.length := by
  -- Each record counts on one side only.
  induction rs with
  | nil => rfl
  | cons r rest ih =>
    by_cases kind : r.kind = .loss
    · have uncounted : views (r :: rest) = views rest :=
        List.countP_cons_of_neg (by simpa using kind)
      have counted : markers (r :: rest) = markers rest + 1 :=
        List.countP_cons_of_pos (by simpa using kind)
      rw [uncounted, counted, List.length_cons, ← ih, Nat.add_assoc]
    · have counted : views (r :: rest) = views rest + 1 :=
        List.countP_cons_of_pos (by simpa using kind)
      have uncounted : markers (r :: rest) = markers rest :=
        List.countP_cons_of_neg (by simpa using kind)
      rw [uncounted, counted, List.length_cons, ← ih, Nat.add_right_comm]

/-- Views of two lists. -/
@[simp] theorem views_append (rs qs : List TraceRecord) :
    views (rs ++ qs) = views rs + views qs := List.countP_append

/-- Markers of two lists. -/
@[simp] theorem markers_append (rs qs : List TraceRecord) :
    markers (rs ++ qs) = markers rs + markers qs := List.countP_append

/-- Offers of two logs. -/
@[simp] theorem offered_append (es fs : List Event) :
    offered (es ++ fs) = offered es + offered fs := List.countP_append

/-- Losses of two logs. -/
@[simp] theorem givenUp_append (es fs : List Event) :
    givenUp (es ++ fs) = givenUp es ++ givenUp fs := List.filterMap_append

/-- The counter goes on from its largest value to its largest value. -/
theorem lose_lost {n : Nat} (lost : s.status.lost = min n u64Max) (k : Nat) :
    (s.lose k).status.lost = min (n + k) u64Max := by
  change saturate s.status.lost k = _
  rw [lost]
  unfold saturate u64Max
  omega

/-- Events that are neither offers nor losses do not count. -/
def Event.quiet : Event → Bool
  | .offered _ _ => false
  | .givenUp _ => false
  | _ => true

/-- They leave the counts alone. -/
theorem quiet_counts (quiet : ∀ e ∈ fs, e.quiet = true) : offered fs = 0 ∧ givenUp fs = [] := by
  -- By induction on the events, none of which offers or gives up.
  induction fs with
  | nil => exact ⟨rfl, rfl⟩
  | cons e rest ih =>
    obtain ⟨offers, losses⟩ := ih fun f member => quiet f (List.mem_cons_of_mem e member)
    have first := quiet e List.mem_cons_self
    cases e with
    | offered status view => exact Bool.noConfusion first
    | givenUp record => exact Bool.noConfusion first
    | planned record => exact ⟨offers, losses⟩
    | requested close pending => exact ⟨offers, losses⟩
    | wrote record => exact ⟨offers, losses⟩
    | completed close => exact ⟨offers, losses⟩

/-! ### Producers -/

/-- Records that get a place are not counted for it. -/
theorem planned_quiet (rs : List TraceRecord) :
    offered (rs.map .planned) = 0 ∧ givenUp (rs.map .planned) = [] :=
  quiet_counts fun e member => by
    obtain ⟨r, -, rfl⟩ := List.mem_map.mp member
    rfl

/-- What an offer adds to the counts. -/
theorem offerEvents_counts (v : TraceRecord) (s s' : Sink) :
    offered (offerEvents v s s') = (if s.status.counts then 1 else 0) ∧
      givenUp (offerEvents v s s') = [] := by
  -- The planned lines that come behind the offer are no offers themselves.
  have rest := planned_quiet ((s'.queue.drop s.queue.length).map (·.record))
  rw [List.map_map] at rest
  unfold offerEvents
  refine ⟨?_, rest.2⟩
  rw [offered, List.countP_cons]
  change offered _ + (if s.status.counts = true then 1 else 0) = _
  exact (congrArg (· + _) rest.1).trans (Nat.zero_add _)

/-- A sink that takes offers counts them. -/
theorem Going.counts (going : Going s) : s.status.counts = true := by
  refine decide_eq_true fun closed => ?_
  rcases closed.1 with closed | closing
  · exact going.closed closed
  · exact going.closing closing

/-- A view that is queued adds one view, whatever goes before it. -/
theorem joined_views {v : TraceRecord} (ordinary : v.kind ≠ .loss) :
    queuedViews ((s.putPending v).putRecord v) = queuedViews s + 1 := by
  have one : views [placed s v] = 1 := by
    simp [views, placed, ordinary]
  -- With a loss pending the marker goes in front, and it is no view.
  unfold queuedViews Sink.putPending
  split
  · change views ((s.queue ++ [_] ++ [_]).map _) = _
    rw [List.map_append, List.map_append, views_append, views_append]
    -- The marker counts zero, the view one.
    have none : views [placed s (s.lossRecord
        { s.pendingLoss with generation := v.generation })] = 0 := rfl
    have last : views [placed (s.putRecord (s.lossRecord
        { s.pendingLoss with generation := v.generation })) v] = 1 := by
      simp [views, placed, ordinary]
    exact congrArg₂ (· + ·) (congrArg (views (s.queue.map (·.record)) + ·) none) last
  · change views ((s.queue ++ [_]).map _) = _
    rw [List.map_append, views_append]
    exact congrArg (views (s.queue.map (·.record)) + ·) one

/-- An offer keeps the counts. -/
theorem Counts.enqueue {w : Writer} {n : Nat} (counts : Counts es ⟨s, w⟩ n) {v : TraceRecord}
    (ordinary : v.kind ≠ .loss) :
    ∃ m, Counts (es ++ offerEvents v s (s.providerEnqueue v).2) ⟨(s.providerEnqueue v).2, w⟩ m := by
  have offer := providerEnqueue_offer v s
  generalize (s.providerEnqueue v).2 = s' at offer ⊢
  obtain ⟨offers, losses⟩ := offerEvents_counts v s s'
  have total := counts.total
  -- One more view is offered, and counted as lost or queued.
  have lost : s.status.counts = true → s'.lines = s.lines → queuedViews s' = queuedViews s →
      inHand s' w = inHand s w → s'.status.lost = min (n + 1) u64Max →
      ∃ m, Counts (es ++ offerEvents v s s') ⟨s', w⟩ m := by
    intro counted lines queue hand lost
    refine ⟨n + 1, lost, ?_⟩
    rw [offered_append, givenUp_append, offers, losses, if_pos counted, List.append_nil, lines,
      hand, queue]
    simp only at total
    omega
  cases offer with
  | counted finished =>
    refine lost ?_ rfl rfl (inHand_same rfl w) (lose_lost (s := { s with
      generation := v.generation }) counts.lost 1)
    refine decide_eq_true fun closed => ?_
    rcases finished with failed | limited
    · rcases closed.1 with closed | closing
      · exact State.noConfusion (failed.symm.trans closed)
      · exact State.noConfusion (failed.symm.trans closing)
    · exact closed.2 limited.2
  | ignored finished unlimited =>
    refine ⟨n, counts.lost, ?_⟩
    have uncounted : ¬s.status.counts = true := by
      intro counted
      exact of_decide_eq_true counted ⟨finished, unlimited⟩
    rw [offered_append, givenUp_append, offers, losses, if_neg uncounted, List.append_nil]
    have hand : inHand { s with generation := v.generation } w = inHand s w := inHand_same rfl w
    rw [hand]
    exact total
  | remembered going failure =>
    exact lost going.counts rfl rfl (inHand_same rfl w) (lose_lost (s := { s with
      generation := v.generation }) counts.lost 1)
  | queued going opened room =>
    have destination : (Sink.putRecord v (Sink.putPending v
        { s with generation := v.generation })).status = s.status := by
      unfold Sink.putPending
      split
      · rfl
      · rfl
    have files : (Sink.putRecord v (Sink.putPending v
        { s with generation := v.generation })).lines = s.lines := by
      unfold Sink.putPending
      split
      · rfl
      · rfl
    refine ⟨n, (congrArg SinkStatus.lost destination).trans counts.lost, ?_⟩
    have queue := joined_views (s := { s with generation := v.generation }) ordinary
    rw [offered_append, givenUp_append, offers, losses, if_pos going.counts, List.append_nil,
      files, inHand_same (congrArg SinkStatus.destinationId destination), queue]
    change offered es + 1 + markers (givenUp es) =
      views s.lines + views (inHand s w) + (queuedViews s + 1) + n
    simp only at total
    omega

/-- A request keeps the counts. -/
theorem Counts.request {w : Writer} {close : Bool} {generation n : Nat}
    (counts : Counts es ⟨s, w⟩ n) (requested : Requested close generation s s') :
    Counts (es ++ requestEvents close s s') ⟨s', w⟩ n := by
  -- The events of a request are its marker, if any, and the request.
  have quiet : offered (requestEvents close s s') = 0 ∧
      givenUp (requestEvents close s s') = [] := by
    refine quiet_counts fun e member => ?_
    unfold requestEvents at member
    split at member
    · exact absurd member List.not_mem_nil
    · rcases List.mem_append.mp member with member | member
      · split at member
        · rw [List.mem_singleton.mp member]
          rfl
        · exact absurd member List.not_mem_nil
      · rw [List.mem_singleton.mp member]
        rfl
  -- Neither outcome of a request touches lines, queue, loss or the hand.
  have same : s'.lines = s.lines ∧ s'.queue = s.queue ∧ s'.status.lost = s.status.lost ∧
      inHand s' w = inHand s w := by
    cases requested with
    | refused failure => exact ⟨rfl, rfl, rfl, inHand_same rfl w⟩
    | accepted closed failed idle room => exact ⟨rfl, rfl, rfl, inHand_same rfl w⟩
  obtain ⟨lines, queue, lost, hand⟩ := same
  refine ⟨lost.trans counts.lost, ?_⟩
  rw [offered_append, givenUp_append, quiet.1, quiet.2, List.append_nil, lines, hand, queuedViews,
    queue]
  exact counts.total

/-- Taking up a task keeps the counts. -/
theorem Counts.select {t : Task} {n : Nat} (counts : Counts es ⟨s, .waiting⟩ n)
    (selected : Selected s t s') : Counts es ⟨s', .busy t⟩ n := by
  have total := counts.total
  -- Only the record moves anything, from the queue into the hand.
  cases selected with
  | failure => exact ⟨counts.lost, total⟩
  | opening opening => exact ⟨counts.lost, total⟩
  | @record q rest queue opened ready =>
    -- The view leaves the queue and is in hand now.
    refine ⟨counts.lost, total.trans ?_⟩
    have head : queuedViews s = views [q.record] + views (rest.map (·.record)) := by
      rw [queuedViews, queue, List.map_cons, ← List.singleton_append, views_append]
    change views s.lines + 0 + queuedViews s + n =
      views s.lines + views [q.record] + views (rest.map (·.record)) + n
    rw [head]
    omega
  -- A marker in hand is not a view.
  | barrier pending passed =>
    refine ⟨counts.lost, total.trans ?_⟩
    have hand : views (inHand { s with barrierLoss := {}, ioBusy := true }
        (.busy (.barrier (s.operation == .close) s.barrierLoss))) = 0 := by
      unfold inHand
      dsimp only
      split
      · rfl
      · rfl
    change views s.lines + 0 + queuedViews s + n = views s.lines + views _ + queuedViews s + n
    rw [hand]

/-! ### Tasks -/

/-- A queued record waits. -/
theorem mem_waiting {r : TraceRecord} (member : r ∈ s.queue.map (·.record)) : r ∈ waiting s := by
  obtain ⟨q, inQueue, rfl⟩ := List.mem_map.mp member
  unfold waiting
  -- An operation pending splits the queue at its barrier, and the record is on one side.
  split
  · by_cases before : q.ticket ≤ s.barrierTicket
    · have inDue : q ∈ upTo Queued.ticket s.barrierTicket s.queue :=
        List.mem_filter.mpr ⟨inQueue, decide_eq_true before⟩
      exact List.mem_append_left _ (List.mem_append_left _ (List.mem_map_of_mem inDue))
    · have later : q ∈ behind Queued.ticket s.barrierTicket s.queue :=
        List.mem_filter.mpr ⟨inQueue, decide_eq_true (Nat.lt_of_not_le before)⟩
      exact List.mem_append_right _ (List.mem_map_of_mem later)
  · exact member

/-- What waits is neither written nor in hand. -/
theorem Sound.apart {w : Writer} (sound : Sound es ⟨s, w⟩) :
    ∀ r ∈ s.queue.map (·.record), r ∉ s.lines ++ inHand s w := by
  intro r member
  -- A sink that is live has its numbers in order; otherwise the queue is empty.
  rcases sound.control.sink with live | done | limited
  · intro before
    have ascending := sound.order.ascending
    rw [← sound.order.exact_ live] at ascending
    -- What stands in front of a record has a smaller number.
    have apart := (List.pairwise_append.mp ascending).2.2 r before r (mem_waiting member)
    exact Nat.lt_irrefl _ apart
  · rw [done.queue] at member
    exact absurd member List.not_mem_nil
  · rw [limited.queue] at member
    exact absurd member List.not_mem_nil

section Gone

variable {t : Task}

/-- Without a line and without a queue all that waited is given up. -/
theorem gone_unwritten (sound : Sound es ⟨s, .busy t⟩)
    (fresh : ∀ r ∈ inHand s (.busy t), r ∉ s.lines) (lines : c.sink.lines = s.lines)
    (queue : c.sink.queue = []) :
    gone t s c = inHand s (.busy t) ++ s.queue.map (·.record) := by
  refine List.filter_eq_self.mpr fun r member => decide_eq_true ?_
  rw [lines, queue]
  refine ⟨?_, List.not_mem_nil⟩
  -- What is in hand has been written by nobody, and what is queued by nobody else.
  rcases List.mem_append.mp member with member | member
  · exact fresh r member
  · exact fun written => sound.apart r member (List.mem_append_left _ written)

/-- With a line but without a queue the queue is given up. -/
theorem gone_written (sound : Sound es ⟨s, .busy t⟩)
    (lines : c.sink.lines = s.lines ++ inHand s (.busy t)) (queue : c.sink.queue = []) :
    gone t s c = s.queue.map (·.record) := by
  -- The record in hand has been written, so it is not given up.
  have hand : ((inHand s (.busy t)).filter fun r =>
      decide (r ∉ c.sink.lines ∧ r ∉ c.sink.queue.map (·.record))) = [] := by
    refine List.filter_eq_nil_iff.mpr fun r member kept => ?_
    rw [lines] at kept
    exact (of_decide_eq_true kept).1 (List.mem_append_right _ member)
  -- What was queued is neither written nor queued any more.
  have rest : ((s.queue.map (·.record)).filter fun r =>
      decide (r ∉ c.sink.lines ∧ r ∉ c.sink.queue.map (·.record))) = s.queue.map (·.record) := by
    refine List.filter_eq_self.mpr fun r member => decide_eq_true ?_
    rw [lines, queue]
    exact ⟨sound.apart r member, List.not_mem_nil⟩
  unfold gone
  rw [List.filter_append, hand, rest]
  rfl

/-- With a line and a queue nothing is given up. -/
theorem gone_nothing (lines : c.sink.lines = s.lines ++ inHand s (.busy t))
    (queue : c.sink.queue = s.queue) : gone t s c = [] := by
  refine List.filter_eq_nil_iff.mpr fun r member kept => ?_
  rw [lines, queue] at kept
  rcases List.mem_append.mp member with member | member
  · exact (of_decide_eq_true kept).1 (List.mem_append_right _ member)
  · exact (of_decide_eq_true kept).2 member

/-- A task offers nothing, and loses what it gives up. -/
theorem taskEvents_counts (t : Task) (s : Sink) (c : System) :
    offered (taskEvents t s c) = 0 ∧ givenUp (taskEvents t s c) = gone t s c := by
  -- Each record given up is a loss of its own.
  have lost : ∀ rs : List TraceRecord,
      offered (rs.map .givenUp) = 0 ∧ givenUp (rs.map .givenUp) = rs := by
    intro rs
    induction rs with
    | nil => exact ⟨rfl, rfl⟩
    | cons r rest ih => exact ⟨ih.1, congrArg (r :: ·) ih.2⟩
  -- Writing neither offers nor loses.
  have wrote : ∀ rs : List TraceRecord,
      offered (rs.map .wrote) = 0 ∧ givenUp (rs.map .wrote) = [] := fun rs =>
    quiet_counts fun e member => by
      obtain ⟨r, -, rfl⟩ := List.mem_map.mp member
      rfl
  have completed : offered (completion t c) = 0 ∧ givenUp (completion t c) = [] := by
    refine quiet_counts fun e member => ?_
    unfold completion at member
    split at member
    · split at member
      · rw [List.mem_singleton.mp member]
        rfl
      · exact absurd member List.not_mem_nil
    · exact absurd member List.not_mem_nil
  -- The events of a task are the lines, the losses, and the completion.
  have split : taskEvents t s c =
      ((inHand s (.busy t)).filter fun r => decide (r ∈ c.sink.lines)).map .wrote ++
        (gone t s c).map .givenUp ++ completion t c := rfl
  rw [split, offered_append, offered_append, givenUp_append, givenUp_append, (wrote _).1,
    (wrote _).2, (lost _).1, (lost _).2, completed.1, completed.2]
  exact ⟨rfl, List.append_nil _⟩

/-- A task keeps the counts if it loses as many as it gives up. -/
theorem Counts.settle {n : Nat} (counts : Counts es ⟨s, .busy t⟩ n) {rs : List TraceRecord}
    (lines : c.sink.lines = s.lines ++ rs) (hand : inHand c.sink c.writer = [])
    (balance : views (inHand s (.busy t)) + queuedViews s =
      views rs + queuedViews c.sink + views (gone t s c))
    (lost : c.sink.status.lost = min (n + (gone t s c).length) u64Max) :
    ∃ m, Counts (es ++ taskEvents t s c) c m := by
  obtain ⟨offers, losses⟩ := taskEvents_counts t s c
  -- Views and markers together are what was given up.
  refine ⟨n + (gone t s c).length, lost, ?_⟩
  have total := counts.total
  have both := views_markers (gone t s c)
  have none : views ([] : List TraceRecord) = 0 := rfl
  rw [offered_append, givenUp_append, offers, losses, markers_append, lines, views_append, hand,
    none]
  simp only at total
  omega

/-- Giving up the whole queue and what is in hand. -/
theorem Counts.unwritten {n : Nat} (counts : Counts es ⟨s, .busy t⟩ n)
    (sound : Sound es ⟨s, .busy t⟩) (fresh : ∀ r ∈ inHand s (.busy t), r ∉ s.lines)
    (lines : c.sink.lines = s.lines) (queue : c.sink.queue = [])
    (hand : inHand c.sink c.writer = [])
    (lost : c.sink.status.lost =
      min (n + (inHand s (.busy t)).length + s.queue.length) u64Max) :
    ∃ m, Counts (es ++ taskEvents t s c) c m := by
  -- Neither the record in hand nor the queue has been written.
  have all := gone_unwritten sound fresh lines queue
  refine counts.settle (lines.trans (List.append_nil _).symm) hand ?_ ?_
  · rw [all, views_append, queuedViews, queuedViews, queue]
    exact (Nat.zero_add _).symm
  · rw [all, List.length_append, List.length_map, lost, Nat.add_assoc]

/-- Giving up the whole queue behind a line. -/
theorem Counts.written {n : Nat} (counts : Counts es ⟨s, .busy t⟩ n)
    (sound : Sound es ⟨s, .busy t⟩)
    (lines : c.sink.lines = s.lines ++ inHand s (.busy t)) (queue : c.sink.queue = [])
    (hand : inHand c.sink c.writer = [])
    (lost : c.sink.status.lost = min (n + s.queue.length) u64Max) :
    ∃ m, Counts (es ++ taskEvents t s c) c m := by
  -- The line has been written, so the queue alone is given up.
  have rest := gone_written sound lines queue
  refine counts.settle lines hand ?_ ?_
  · rw [rest, queuedViews, queuedViews, queue]
    rfl
  · rw [rest, List.length_map, lost]

/-- Giving up nothing. -/
theorem Counts.kept {n : Nat} (counts : Counts es ⟨s, .busy t⟩ n)
    (lines : c.sink.lines = s.lines ++ inHand s (.busy t)) (queue : c.sink.queue = s.queue)
    (hand : inHand c.sink c.writer = []) (lost : c.sink.status.lost = s.status.lost) :
    ∃ m, Counts (es ++ taskEvents t s c) c m := by
  -- What was in hand is in the file, and the queue is as it was.
  have nothing := gone_nothing lines queue
  refine counts.settle lines hand ?_ ?_
  · rw [nothing, queuedViews, queuedViews, queue]
    rfl
  · rw [nothing, lost]
    exact counts.lost

end Gone

/-- What an attempt to write what is in hand counts as lost. -/
structure Losses (s : Sink) (hand : List TraceRecord) (result : Wrote × Sink) : Prop where
  kept : result.1 ≠ .noSegment → result.2.status.lost = s.status.lost
  lose : result.1 = .noSegment → result.2.status.lost = (s.lose 1).status.lost
  one : result.1.complete = false → hand.length = 1

/-- What `write_record` counts. -/
theorem writeRecord_losses (io : Io) (r : TraceRecord) :
    Losses s [r] (s.writeRecord recordJson io r) := by
  refine ⟨fun some => ?_, fun none => ?_, fun _ => rfl⟩
  · rcases Sink.writeRecord_kept (s := s) io r with kept | limit
    · exact kept.lost
    · exact absurd (congrArg Prod.fst limit) some
  · rw [Sink.writeRecord_noSegment none]

/-- A task that fails or reaches a limit keeps the counts. -/
theorem Counts.stop {t : Task} {result : Wrote × Sink} {n : Nat}
    (counts : Counts es ⟨s, .busy t⟩ n) (sound : Sound es ⟨s, .busy t⟩) (live : Live s)
    (outcome : Outcome s (inHand s (.busy t)) result)
    (losses : Losses s (inHand s (.busy t)) result)
    (stopped : Sink.wrote result = some (c.writer, c.sink)) :
    ∃ m, Counts (es ++ taskEvents t s c) c m := by
  obtain ⟨w, s'⟩ := result
  obtain ⟨sink, writer⟩ := c
  have fresh := sound.order.fresh live
  have length : s'.queue.length = s.queue.length := congrArg List.length outcome.shared.queue
  have before := counts.lost
  -- Which records are given up depends on whether the line got written.
  cases w with
  | written => exact absurd stopped (by simp [Sink.wrote])
  -- It did not: the record counts as lost with the queue.
  | unwritten =>
    cases stopped
    have lines : s'.lines = s.lines ++ [] := outcome.lines
    have same : s'.status.lost = min n u64Max := (losses.kept Wrote.noConfusion).trans before
    refine counts.unwritten sound fresh (lines.trans (List.append_nil _)) rfl rfl ?_
    rw [losses.one rfl, ← length]
    exact lose_lost (lose_lost same 1) _
  -- No segment was left for it: lost by `write_record`, the queue by the closing.
  | noSegment =>
    cases stopped
    have lines : s'.lines = s.lines ++ [] := outcome.lines
    have same : s'.status.lost = min (n + 1) u64Max :=
      (losses.lose rfl).trans (lose_lost before 1)
    refine counts.unwritten sound fresh (lines.trans (List.append_nil _)) rfl rfl ?_
    rw [losses.one rfl, ← length]
    exact lose_lost (s := { s' with
      status := { s'.status with state := .closePending, error := .capacity }
      operation := .close }) same _
  -- It did, and only the queue is lost.
  | lastRecord =>
    cases stopped
    have lines : s'.lines = s.lines ++ inHand s (.busy t) := outcome.lines
    have same : s'.status.lost = min n u64Max := (losses.kept Wrote.noConfusion).trans before
    refine counts.written sound lines rfl rfl ?_
    rw [← length]
    exact lose_lost (s := { s' with
      status := { s'.status with state := .closePending, error := .capacity }
      operation := .close }) same _

/-- A sink that fails with nothing in hand counts its queue. -/
theorem Counts.fail {t : Task} {n : Nat} (counts : Counts es ⟨s, .busy t⟩ n)
    (sound : Sound es ⟨s, .busy t⟩) (kept : Kept s s') (lines : s'.lines = s.lines)
    (empty : inHand s (.busy t) = []) (error : Status) :
    ∃ m, Counts (es ++ taskEvents t s ⟨s'.failSink error 0, .waiting⟩)
      ⟨s'.failSink error 0, .waiting⟩ m := by
  -- With nothing in hand there is no record that could have been written.
  have fresh : ∀ r ∈ inHand s (.busy t), r ∉ s.lines := by
    rw [empty]
    exact fun r none => absurd none List.not_mem_nil
  refine counts.unwritten sound fresh lines rfl rfl ?_
  rw [empty, ← kept.queue]
  exact lose_lost (lose_lost (kept.lost.trans counts.lost) 0) _

/-- A barrier keeps the counts once its loss is written. -/
theorem Counts.barrier {close : Bool} {loss : Loss} {io : Io} {n : Nat}
    (counts : Counts es ⟨s, .busy (.barrier close loss)⟩ n)
    (sound : Sound es ⟨s, .busy (.barrier close loss)⟩)
    (outcome : Outcome s (inHand s (.busy (.barrier close loss))) (.written, s'))
    (same : s'.status.lost = s.status.lost) :
    ∃ m, Counts (es ++ taskEvents (.barrier close loss) s ⟨s'.barrier close io, .waiting⟩)
      ⟨s'.barrier close io, .waiting⟩ m := by
  -- A footer does not count.
  have passed_ : ∀ s₂ : Sink, s₂.lines = s.lines ++ inHand s (.busy (.barrier close loss)) →
      s₂.queue = s.queue → s₂.status.lost = s.status.lost →
      (∃ m, Counts (es ++ taskEvents (.barrier close loss) s ⟨crossed close s₂, .waiting⟩)
        ⟨crossed close s₂, .waiting⟩ m) ∧
      ∃ m, Counts (es ++ taskEvents (.barrier close loss) s ⟨s₂.failSink .io 0, .waiting⟩)
        ⟨s₂.failSink .io 0, .waiting⟩ m := by
    intro s₂ lines queue lost
    refine ⟨counts.kept lines queue rfl lost, counts.written sound lines rfl rfl ?_⟩
    rw [← queue]
    exact lose_lost (lose_lost (lost.trans counts.lost) 0) _
  cases close with
  | true =>
    have kept := Sink.footer_kept (s := s') .ok io.ended
    have footed := passed_ (s'.footer .ok io.ended).2
      ((Sink.lines_footer .ok io.ended).trans outcome.lines)
      (kept.queue.trans outcome.shared.queue) (kept.lost.trans same)
    unfold Sink.barrier
    dsimp only
    rw [if_pos rfl]
    split
    · exact footed.1
    · exact footed.2
  | false =>
    have flushed := passed_ s' outcome.lines outcome.shared.queue same
    unfold Sink.barrier
    dsimp only
    rw [if_neg Bool.false_ne_true]
    split
    · exact flushed.1
    · exact flushed.2

/-- A task keeps the counts, whatever the file system does. -/
theorem Counts.perform {t : Task} {n : Nat} (counts : Counts es ⟨s, .busy t⟩ n)
    (sound : Sound es ⟨s, .busy t⟩) (io : Io) :
    ∃ m, Counts
      (es ++ taskEvents t s ⟨(s.perform recordJson io t).2, (s.perform recordJson io t).1⟩)
      ⟨(s.perform recordJson io t).2, (s.perform recordJson io t).1⟩ m := by
  -- The outcome of the writing comes first, then what is counted.
  cases t with
  | failure error => exact counts.fail sound (.refl s) rfl rfl error
  | opening =>
    have kept := Sink.openSegment_kept (s := s) io 0
    have lines := Sink.lines_openSegment (s := s) io 0
    unfold Sink.perform
    -- An opening writes no record.
    dsimp only
    split
    · exact counts.kept (lines.trans (List.append_nil _).symm) kept.queue rfl kept.lost
    · exact counts.fail sound kept lines rfl .io
  -- The writer stops, or the record is written and the counts stay.
  | record r =>
    obtain ⟨live, opened⟩ := sound.control
    obtain ⟨measured, unfinished⟩ := sound.sizes.writing live opened
    have outcome : Outcome s [r] (s.writeRecord recordJson io r) :=
      writeRecord_outcome io r sound.sizes.limits measured unfinished
    have losses : Losses s [r] (s.writeRecord recordJson io r) := writeRecord_losses io r
    unfold Sink.perform
    dsimp only
    generalize s.writeRecord recordJson io r = result at outcome losses ⊢
    -- A result that stops the writer is one of three, a written one goes on.
    cases stopped : Sink.wrote result with
    | some c => exact counts.stop sound live outcome losses stopped
    | none =>
      obtain ⟨w, s'⟩ := result
      cases w with
      | written =>
        exact counts.kept outcome.lines outcome.shared.queue rfl (losses.kept Wrote.noConfusion)
      | unwritten => exact absurd stopped (by simp [Sink.wrote])
      | noSegment => exact absurd stopped (by simp [Sink.wrote])
      | lastRecord => exact absurd stopped (by simp [Sink.wrote])
  -- At a barrier the marker is written like a record, and without one nothing is.
  | barrier close loss =>
    have at_ := sound.atBarrier
    have opened : s.operation ≠ .opening := by
      intro opening
      have pending := at_.pending
      rw [opening] at pending
      exact Bool.noConfusion pending
    obtain ⟨measured, unfinished⟩ := sound.sizes.writing at_.live opened
    -- Without a loss the outcome is that of doing nothing.
    have both : Outcome s (inHand s (.busy (.barrier close loss)))
          (if loss.count ≠ 0 then s.writeRecord recordJson io (s.lossRecord loss)
            else (.written, s)) ∧
        Losses s (inHand s (.busy (.barrier close loss)))
          (if loss.count ≠ 0 then s.writeRecord recordJson io (s.lossRecord loss)
            else (.written, s)) := by
      unfold inHand
      dsimp only
      split
      · exact ⟨writeRecord_outcome io _ sound.sizes.limits measured unfinished,
          writeRecord_losses io _⟩
      · exact ⟨outcome_nothing sound.sizes.limits measured unfinished,
          fun _ => rfl, Wrote.noConfusion, Bool.noConfusion⟩
    unfold Sink.perform
    dsimp only
    generalize (if loss.count ≠ 0 then s.writeRecord recordJson io (s.lossRecord loss)
      else (.written, s)) = result at both ⊢
    obtain ⟨outcome, losses⟩ := both
    -- Again a result either stops the writer or lets the barrier pass.
    cases stopped : Sink.wrote result with
    | some c => exact counts.stop sound at_.live outcome losses stopped
    | none =>
      obtain ⟨w, s'⟩ := result
      cases w with
      | written => exact counts.barrier sound outcome (losses.kept Wrote.noConfusion)
      | unwritten => exact absurd stopped (by simp [Sink.wrote])
      | noSegment => exact absurd stopped (by simp [Sink.wrote])
      | lastRecord => exact absurd stopped (by simp [Sink.wrote])

/-- The end of a sink at a limit keeps the counts. -/
theorem Counts.finish {n : Nat} (counts : Counts es ⟨s, .limited⟩ n)
    (sound : Sound es ⟨s, .limited⟩) (io : Ending) :
    Counts es ⟨s.capacityEnd io, .waiting⟩ n := by
  have limited : Limited s := sound.control
  have kept := Sink.footer_kept (s := s) .capacity io
  have lines := Sink.lines_footer (s := s) .capacity io
  have queue := kept.queue.trans limited.queue
  have total := counts.total
  -- The queue was given up when the limit was reached.
  have before : queuedViews s = 0 := by
    rw [queuedViews, limited.queue]
    rfl
  -- Closing with a footer and failing without one count the same.
  have ended : ∀ s₂ : Sink, s₂.lines = s.lines → s₂.queue = [] →
      s₂.status.lost = min n u64Max → Counts es ⟨s₂, .waiting⟩ n := by
    intro s₂ lines empty lost
    refine ⟨lost, total.trans ?_⟩
    have after : queuedViews s₂ = 0 := by
      rw [queuedViews, empty]
      rfl
    simp only [lines, before, after]
    rfl
  unfold Sink.capacityEnd
  dsimp only
  -- The footer is the last thing written, or it fails.
  split
  · exact ended _ lines queue (kept.lost.trans counts.lost)
  · refine ended _ lines rfl ?_
    have lost := lose_lost (lose_lost (kept.lost.trans counts.lost) 0)
      (s.footer .capacity io).2.queue.length
    have none : (s.footer .capacity io).2.queue.length = 0 := congrArg List.length queue
    refine Eq.trans lost ?_
    rw [none]
    rfl

/-! ### Runs -/

/-- Each step keeps the counts. -/
theorem Counts.step {n : Nat} (counts : Counts es c n) (sound : Sound es c)
    (step : Step recordJson c fs d) : ∃ m, Counts (es ++ fs) d m := by
  obtain ⟨s, w⟩ := c
  -- Each step has its lemma.
  cases step with
  | enqueue v ordinary => exact counts.enqueue ordinary
  | operation close generation => exact ⟨n, counts.request (operationLocked_requested _ _ _)⟩
  | closeAll generation => exact ⟨n, counts.request (closeAll_requested _ _)⟩
  | status => exact ⟨n, (List.append_nil es).symm ▸ counts⟩
  | select waiting selected =>
    subst waiting
    exact ⟨n, (List.append_nil es).symm ▸ counts.select (selectTask_selected selected)⟩
  | perform busy io =>
    subst busy
    exact counts.perform sound io
  | finish limited io =>
    subst limited
    exact ⟨n, (List.append_nil es).symm ▸ counts.finish sound io⟩

/-- A sink starts with empty counts. -/
theorem Counts.start {q : Request} {m : Metadata} {old : Option Sink}
    (accepted : Sink.providerOpen q m old = .ok s) : Counts [] ⟨s, .waiting⟩ 0 := by
  -- A sink that is refused is not there; one that is accepted is empty.
  unfold Sink.providerOpen at accepted
  dsimp only at accepted
  split at accepted
  · exact absurd accepted (by simp)
  · split at accepted
    · exact absurd accepted (by simp)
    · split at accepted
      · exact absurd accepted (by simp)
      · split at accepted
        · exact absurd accepted (by simp)
        · split at accepted
          · exact absurd accepted (by simp)
          · cases accepted
            exact ⟨rfl, rfl⟩

/-- Every run keeps the counts. -/
theorem Counts.run (run : Run recordJson es c) : ∃ n, Counts es c n := by
  induction run with
  | opened accepted => exact ⟨0, .start accepted⟩
  | reopened run accepted counts => exact ⟨0, .start accepted⟩
  | step run step counts =>
    obtain ⟨n, counts⟩ := counts
    exact counts.step (Sound.run run) step

/--
A sink that performs no task conserves the views exactly as long as it has given up no marker.

The counter may also be right by having reached its largest value.
-/
theorem file_sink_conservation (run : Run recordJson es c) (idle : c.writer = .waiting) :
    Conserved es c ↔
      markers (givenUp es) = 0 ∧ missing es c ≤ u64Max ∨ missing es c = u64Max := by
  -- The saturated count and the sum it stands for are known behind every run.
  obtain ⟨n, lost, total⟩ := Counts.run run
  obtain ⟨s, w⟩ := c
  subst idle
  have empty : views (inHand s .waiting) = 0 := rfl
  simp only [Conserved, missing] at lost total ⊢
  rw [empty] at total
  -- The bound is left abstract: only that it is not zero matters.
  have some : 0 < u64Max := by
    unfold u64Max
    omega
  generalize u64Max = most at lost some ⊢
  omega

/-- After the flush of one view nothing is missing. -/
theorem file_sink_conservation_flushed :
    Conserved
      [.offered openStatus summary, .planned queuedView, .requested false {}, .wrote queuedView,
        .completed false] (performed (.barrier false {}) whileFlushing) :=
  (file_sink_conservation flush_run (by decide +kernel)).mpr
    (.inl ⟨by decide +kernel, by decide +kernel⟩)

/-! ### A marker that is lost -/

section Marker

/-- A file system that does not take a line. -/
def full : Io := { smooth with lineTaken := 0 }

/-- A view is offered while the sink is being opened. -/
def offeredEarly : System :=
  { whileOpening with sink := (whileOpening.sink.providerEnqueue summary).2 }

/-- Once it is open another one is. -/
def offeredLate : System :=
  let c := performed .opening offeredEarly
  { c with sink := (c.sink.providerEnqueue summary).2 }

/-- The marker of the first view. -/
def marker : TraceRecord where
  kind := .loss
  epoch := 1
  recordSequence := 1
  generation := 1
  destinationId := 1
  firstSourceSequence := 5
  lastSourceSequence := 6
  count := 1

/-- The writer has the marker, and the second view waits behind it. -/
def whileMarking : System :=
  ⟨{ offeredLate.sink with queue := offeredLate.sink.queue.tail, ioBusy := true },
    .busy (.record marker)⟩

/-- The marker cannot be written. -/
def unmarked : System :=
  ⟨(whileMarking.sink.perform plainJson full (.record marker)).2,
    (whileMarking.sink.perform plainJson full (.record marker)).1⟩

/-- What has happened up to then. -/
def markerEvents : List Event :=
  [.offered whileOpening.sink.status summary,
    .offered (performed .opening offeredEarly).sink.status summary, .planned marker,
    .planned { queuedView with recordSequence := 2 }, .givenUp marker,
    .givenUp { queuedView with recordSequence := 2 }]

/-- The sink fails over a marker. -/
theorem marker_run : Run plainJson markerEvents unmarked := by
  -- The steps of the run, up to the disk that is full.
  have opened : Run plainJson [] ⟨Sink.prepared smallRequest smallMetadata none, .waiting⟩ := by
    refine .opened (q := smallRequest) (m := smallMetadata) ?_
    decide +kernel
  have opening := opened.step (.select rfl (t := .opening) (s := whileOpening.sink) rfl)
  have early := opening.step (.enqueue _ summary RecordKind.noConfusion)
  have begun := early.step (.perform rfl smooth)
  have late := begun.step (.enqueue _ summary RecordKind.noConfusion)
  have marking := late.step (.select (t := .record marker) (s := whileMarking.sink)
    (by decide +kernel) (by decide +kernel))
  have failed : Run plainJson _ unmarked := marking.step (.perform rfl full)
  exact failed.reports (by decide +kernel)

/-- Two views have been offered, and three records count as lost. -/
theorem marker_counted : ¬∀ (recordJson : TraceRecord → Output) (es : List Event) (c : System),
    Run recordJson es c → c.writer = .waiting → Conserved es c := by
  intro all
  have conserved := all plainJson markerEvents unmarked marker_run (by decide +kernel)
  have counted : unmarked.sink.status.lost = 3 := by decide +kernel
  have written : views unmarked.sink.lines + queuedViews unmarked.sink = 0 := by decide +kernel
  have two : offered markerEvents = 2 := by decide +kernel
  rw [Conserved, written, counted, two] at conserved
  exact absurd conserved (by decide)

end Marker

end Emu80535.FileSink
