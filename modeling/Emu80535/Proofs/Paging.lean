import Emu80535.Lib.Fold
import Emu80535.Lib.Ring
import Emu80535.Lib.Window
import Emu80535.Trace.Ring

/-! Rings as windows of everything recorded in them, and readers that page through them. -/

namespace Emu80535

/-! ### A ring holds a window -/

/-- The number a record gets with its place in the history. -/
def numbered (epoch position : Nat) (v : TraceRecord) : TraceRecord :=
  { v with epoch := epoch, recordSequence := position + 1 }

/-- Records are numbered by their places. -/
def Numbered (epoch : Nat) (history : List TraceRecord) : Prop :=
  ∀ i v, history[i]? = some v → v.recordSequence = i + 1 ∧ v.epoch = epoch

/-- A ring holds what a window of the history has not forgotten. -/
structure TraceRing.Holds (r : TraceRing) (w : Window TraceRecord) : Prop where
  inside : r.head < r.capacity
  bound : r.count ≤ r.capacity
  contents : Ring.contents r.capacity r.records r.head r.count = w.history.drop w.lost
  lost : r.overwritten = w.lost
  total : w.lost + r.count = w.history.length
  numbered : Numbered r.epoch w.history
  next : r.next = u64 (w.history.length + 1)
  fits : w.history.length < 2 ^ 64

/-- A record that joins a numbered history gets the next number. -/
theorem Numbered.push {epoch : Nat} {history : List TraceRecord} (all : Numbered epoch history)
    (v : TraceRecord) : Numbered epoch (history ++ [numbered epoch history.length v]) := by
  intro i x found
  -- The place is one of the old ones, the new one, or behind both.
  rcases Nat.lt_trichotomy i history.length with before | last | beyond
  · rw [List.getElem?_append_left before] at found
    exact all i x found
  · subst last
    rw [List.getElem?_concat_length] at found
    rw [← Option.some.inj found]
    exact ⟨rfl, rfl⟩
  · rw [List.getElem?_eq_none (by simp; omega)] at found
    exact absurd found (Option.some_ne_none x).symm

namespace TraceRing.Holds

variable {r : TraceRing} {w : Window TraceRecord} (holds : r.Holds w)

include holds

/-- While sequence numbers last, the next one is that of the next place. -/
theorem next_eq (unused : r.next ≠ 0) :
    r.next = w.history.length + 1 ∧ w.history.length + 1 < 2 ^ 64 := by
  have same := holds.next
  have fits := holds.fits
  simp only [u64] at same
  omega

/-- Inserting into a ring with room records one more entry. -/
theorem insert (room : r.count < r.capacity) (unused : r.next ≠ 0) (v : TraceRecord) :
    (r.insert v).Holds (w.push (Emu80535.numbered r.epoch w.history.length v)) := by
  -- A record sequence of zero means that the numbers have run out.
  obtain ⟨next, small⟩ := holds.next_eq unused
  -- The record carries the number of the place it gets.
  have numbered : ({ v with epoch := r.epoch, recordSequence := r.next } : TraceRecord) =
      Emu80535.numbered r.epoch w.history.length v := by
    rw [next]
    rfl
  have within : w.lost ≤ w.history.length := by
    have total := holds.total
    omega
  -- The window grows at its end, and its beginning stays.
  refine ⟨holds.inside, room, ?_, holds.lost, ?_, holds.numbered.push v, ?_, ?_⟩
  · simp only [TraceRing.insert, Window.push]
    rw [Ring.contents_push _ room, holds.contents, List.drop_append_of_le_length within, numbered]
  · simp only [TraceRing.insert, Window.push, List.length_append, List.length_singleton]
    have total := holds.total
    omega
  · simp only [TraceRing.insert, Window.push, List.length_append, List.length_singleton, next]
  · simp only [Window.push, List.length_append, List.length_singleton]
    omega

/-- Evicting forgets the oldest entry. -/
theorem evict (some : r.count ≠ 0) : r.evict.Holds w.forget := by
  have total := holds.total
  have fits := holds.fits
  have bound := holds.bound
  have inside := holds.inside
  -- The first cell moves on by one, around the end of the array.
  refine ⟨Nat.mod_lt _ (by omega), by simp only [TraceRing.evict]; omega, ?_, ?_, ?_,
    holds.numbered, holds.next, fits⟩
  · -- The entries lose their head, which is the next entry of the window.
    have first := holds.contents
    rw [Ring.contents_pop inside some] at first
    simp only [TraceRing.evict, Window.forget]
    rw [← List.drop_drop, ← first, List.drop_one, List.tail_cons]
  · simp only [TraceRing.evict, Window.forget, saturate, holds.lost]
    omega
  · simp only [TraceRing.evict, Window.forget]
    omega

/-- Moving a ring into another buffer keeps all it holds. -/
theorem moved {capacity : Nat} (some : 0 < capacity) (room : r.count ≤ capacity) :
    (r.moved capacity).Holds w := by
  refine ⟨some, room, ?_, holds.lost, holds.total, holds.numbered, holds.next, holds.fits⟩
  rw [← holds.contents]
  simp only [Ring.contents, TraceRing.moved, TraceRing.fresh]
  refine List.map_congr_left fun j member => ?_
  have within := List.mem_range.mp member
  rw [Nat.zero_add, Nat.mod_eq_of_lt (by omega), if_pos within]

/-- The entry at an offset from the head. -/
theorem slot {offset : Nat} (within : offset < r.count) :
    w.history[w.lost + offset]? = .some (r.records ((r.head + offset) % r.capacity)) := by
  have entry : (w.history.drop w.lost)[offset]? =
      .some (r.records ((r.head + offset) % r.capacity)) := by
    rw [← holds.contents]
    simp [Ring.contents, List.getElem?_map, List.getElem?_range within]
  rwa [List.getElem?_drop] at entry

/-- The oldest record is the first one that has not been overwritten. -/
theorem oldest (some : r.count ≠ 0) : r.oldest = w.lost + 1 := by
  have entry := holds.slot (Nat.pos_of_ne_zero some)
  simp only [Nat.add_zero, Nat.mod_eq_of_lt holds.inside] at entry
  rw [TraceRing.oldest, if_pos some]
  exact (holds.numbered _ _ entry).1

/-- The newest record is the last one that was recorded. -/
theorem newest (some : r.count ≠ 0) : r.newest = w.history.length := by
  have within : r.count - 1 < r.count := by omega
  have entry := holds.slot within
  have place : r.head + r.count - 1 = r.head + (r.count - 1) := by omega
  rw [TraceRing.newest, if_pos some, place]
  have total := holds.total
  have same := (holds.numbered _ _ entry).1
  omega

/-- The records of a page are those the window has there. -/
theorem slice {offset required : Nat} (within : offset + required ≤ r.count) :
    r.slice offset required = (w.history.drop (w.lost + offset)).take required := by
  refine List.ext_getElem? fun i => ?_
  by_cases inside : i < required
  · rw [List.getElem?_take_of_lt inside, List.getElem?_drop, Nat.add_assoc,
      holds.slot (by omega), ← Nat.add_assoc]
    simp [TraceRing.slice, List.getElem?_range inside]
  · rw [List.getElem?_eq_none (by simp [TraceRing.slice]; omega),
      List.getElem?_eq_none (by simp; omega)]

/-- What `ring_store` does, for each of its answers. -/
theorem store (two : 2 ≤ r.capacity) (d : TraceDestination) (generation : Nat) (v : TraceRecord) :
    match r.store d generation v with
    | (.exhausted, kept) => kept = r ∧
        (r.next = 0 ∨ r.count = r.capacity ∧ d.stopOnFull = false ∧ r.next = 2 ^ 64 - 1)
    | (.full, kept) =>
      r.count = r.capacity ∧ d.stopOnFull = true ∧
        kept = { r with dropped := saturate r.dropped 1 }
    | (.stored, next) =>
      r.count < r.capacity ∧ next.capacity = r.capacity ∧ next.epoch = r.epoch ∧
          next.dropped = r.dropped ∧
          next.Holds (w.push (Emu80535.numbered r.epoch w.history.length v)) ∨
        r.count = r.capacity ∧ d.stopOnFull = false ∧ next.capacity = r.capacity ∧
          next.epoch = r.epoch ∧ next.dropped = r.dropped ∧
          next.Holds ((w.forget.forget.push (Emu80535.numbered r.epoch w.history.length
            (r.loss d.destinationId generation))).push
            (Emu80535.numbered r.epoch (w.history.length + 1) v)) := by
  simp only [TraceRing.store]
  by_cases used : r.next = 0 ∨ 2 ^ 64 - 1 - r.next <
      (if r.count = r.capacity ∧ d.stopOnFull = false then 2 else 1) - 1
  · simp only [if_pos used, true_and]
    by_cases unused : r.next = 0
    · exact Or.inl unused
    · right
      obtain ⟨next, small⟩ := holds.next_eq unused
      have short := used.resolve_left unused
      by_cases overwrites : r.count = r.capacity ∧ d.stopOnFull = false
      · rw [if_pos overwrites] at short
        exact ⟨overwrites.1, overwrites.2, by omega⟩
      · rw [if_neg overwrites] at short
        omega
  · simp only [if_neg used]
    rw [not_or, not_lt] at used
    obtain ⟨unused, enough⟩ := used
    obtain ⟨next, small⟩ := holds.next_eq unused
    have bound := holds.bound
    by_cases full : r.count = r.capacity
    · simp only [if_pos full]
      cases stops : d.stopOnFull with
      | true => exact ⟨full, rfl, rfl⟩
      | false =>
        -- Two records go, so there is room for the LOSS record and the new one.
        have room : 2 ^ 64 - 1 - r.next ≥ 1 := by
          rw [stops] at enough
          simpa [full] using enough
        have gone := (holds.evict (by omega)).evict
          (show r.evict.count ≠ 0 by simp only [TraceRing.evict]; omega)
        have lossy := gone.insert
          (show r.evict.evict.count < r.evict.evict.capacity by
            simp only [TraceRing.evict]; omega)
          (show r.evict.evict.next ≠ 0 from unused) (r.loss d.destinationId generation)
        have kept := lossy.insert
          (show (r.evict.evict.insert (r.loss d.destinationId generation)).count < r.capacity by
            simp only [TraceRing.insert, TraceRing.evict]; omega)
          (show u64 (r.next + 1) ≠ 0 by simp only [u64]; omega) v
        refine Or.inr ⟨full, rfl, rfl, rfl, rfl, ?_⟩
        have places : (w.forget.forget.push (Emu80535.numbered r.epoch w.history.length
            (r.loss d.destinationId generation))).history.length = w.history.length + 1 := by
          simp [Window.push, Window.forget]
        rw [← places]
        exact kept
    · simp only [if_neg full]
      exact Or.inl ⟨by omega, rfl, rfl, rfl, holds.insert (by omega) unused v⟩

end TraceRing.Holds

/-! ### A page is a page of the window -/

/--
The page of a ring, seen as a page of the history it holds.

The page has as many records as there are behind the cursor, up to its limit, and the next one
begins behind the last of them.
-/
structure TracePage.Reads (p : TracePage) (w : Window TraceRecord) (cursor limit : Nat) : Prop where
  requested : p.requestedAfter = cursor
  lost : p.lostBeforePage = (w.page cursor limit).lost
  records : p.records = (w.page cursor limit).entries
  next : p.nextAfter = (w.page cursor limit).next cursor
  remaining : p.remaining = w.history.length - max cursor w.lost - p.records.length
  more : p.more = true ↔ p.remaining ≠ 0

/-- A buffer takes a page of so many records. -/
structure PageBuffer.Takes (out : PageBuffer) (records : Nat) : Prop where
  room : records ≤ out.capacity
  slots : ∀ i < records, out.slot i = .ok

namespace TraceRing.Holds

variable {r : TraceRing} {w : Window TraceRecord} (holds : r.Holds w)

include holds

/-- The sequence number of the last record of a page is where the next one begins. -/
theorem nextAfter (cursor limit : Nat) :
    (((w.page cursor limit).entries.getLast?).map TraceRecord.recordSequence).getD cursor =
      (w.page cursor limit).next cursor := by
  -- An empty page leaves the cursor where it was.
  simp only [Window.Page.next]
  by_cases none : (w.page cursor limit).entries = []
  · rw [if_pos none, none]
    rfl
  · -- Otherwise the last entry stands just behind the ones missing and read.
    have some := List.length_pos_iff.mpr none
    have last := w.page_getElem? cursor limit ((w.page cursor limit).entries.length - 1) (by omega)
    rw [if_neg none, List.getLast?_eq_getElem?]
    have inside : (w.page cursor limit).entries.length - 1 <
        (w.page cursor limit).entries.length := by omega
    rw [List.getElem?_eq_getElem inside] at last ⊢
    have number := (holds.numbered _ _ last.symm).1
    simp only [Option.map_some, Option.getD_some, number]
    omega

/-- The records of a page have consecutive numbers. -/
theorem numbers (cursor limit : Nat) :
    (w.page cursor limit).entries.map TraceRecord.recordSequence =
      List.range' (cursor + (w.page cursor limit).lost + 1)
        (w.page cursor limit).entries.length := by
  -- Each entry has the number of its place, counted from the first that is left.
  refine List.ext_getElem (by simp) fun i inside _ => ?_
  rw [List.length_map] at inside
  have entry := w.page_getElem? cursor limit i inside
  rw [List.getElem?_eq_getElem inside] at entry
  rw [List.getElem_map, List.getElem_range', (holds.numbered _ _ entry.symm).1]
  omega

end TraceRing.Holds

/-! ### What a page function answers -/

/-- A request that names its ring, with a cursor inside what was recorded there. -/
structure PageRequest.Named (q : PageRequest) (session : List Byte) (r : TraceRing)
    (w : Window TraceRecord) : Prop where
  session : q.sessionId = some session
  epoch : q.epoch = r.epoch
  inside : q.after ≤ w.history.length
  /-- A ring that holds nothing has never held anything. -/
  kept : r.count = 0 → w.lost = 0

namespace TraceRing.Holds

variable {r : TraceRing} {w : Window TraceRecord} (holds : r.Holds w) {session : List Byte}
  {q : PageRequest} (named : q.Named session r w)

include holds named

/-- The cursor lies within the history, so it is not ahead of it. -/
theorem cursorState_eq : r.cursorState session q = .current := by
  have inside := named.inside
  have total := holds.total
  -- The newest number is the length of the history, and the cursor lies within that.
  have reached : ¬ r.newest < q.after := by
    by_cases some : r.count = 0
    · have none := named.kept some
      omega
    · rw [holds.newest some]
      omega
  simp [TraceRing.cursorState, named.session, named.epoch, reached]

/-- The cursor is expired when records behind it have been overwritten. -/
theorem expired_iff : r.expired q = true ↔ q.after < w.lost := by
  by_cases some : r.count = 0
  · have none := named.kept some
    have empty : r.oldest = 0 := by simp [TraceRing.oldest, some]
    simp [TraceRing.expired, empty, none]
  · simp [TraceRing.expired, holds.oldest some]

/-- The offset skips what the cursor has passed of what is left. -/
theorem offset_eq (small : r.capacity < 2 ^ 32) : r.offset q = q.after - w.lost := by
  have inside := named.inside
  have total := holds.total
  have bound := holds.bound
  have expired := holds.expired_iff named
  rw [TraceRing.offset]
  -- A cursor before the window starts with its first entry.
  by_cases late : q.after < w.lost
  · rw [if_pos (expired.mpr late)]
    omega
  · rw [if_neg fun shown => late (expired.mp shown)]
    -- With nothing in the ring there is nothing to be skipped.
    by_cases some : r.count = 0
    · rw [if_neg fun both => both.1 some]
      omega
    · have oldest := holds.oldest some
      -- A cursor inside the window has passed part of it.
      by_cases behind : r.oldest ≤ q.after
      · rw [if_pos ⟨some, behind⟩, Nat.mod_eq_of_lt (by omega)]
        omega
      · rw [if_neg fun both => behind both.2]
        omega

/-- So what is available is what the window has behind the cursor. -/
theorem available_eq (small : r.capacity < 2 ^ 32) :
    r.available q = w.history.length - max q.after w.lost := by
  have inside := named.inside
  have total := holds.total
  have bound := holds.bound
  rw [TraceRing.available, holds.offset_eq named small]
  omega

/-- The number of records of a page. -/
theorem required_eq (small : r.capacity < 2 ^ 32) :
    min (r.available q) q.maxRecords = (w.page q.after q.maxRecords).entries.length := by
  rw [holds.available_eq named small]
  simp only [Window.page, List.length_take, List.length_drop]
  omega

/-- What is copied is what the window has behind the cursor. -/
theorem copied_eq (small : r.capacity < 2 ^ 32) :
    r.slice (r.offset q) (min (r.available q) q.maxRecords) =
      (w.page q.after q.maxRecords).entries := by
  have total := holds.total
  rw [holds.offset_eq named small, holds.available_eq named small]
  -- The number of copied records is kept opaque for the arithmetic below.
  obtain ⟨required, shown⟩ : ∃ required, required =
      min (w.history.length - max q.after w.lost) q.maxRecords := ⟨_, rfl⟩
  rw [← shown]
  by_cases nothing : required = 0
  · have none : (w.page q.after q.maxRecords).entries = [] := by
      rw [← List.length_eq_zero_iff]
      simp only [Window.page, List.length_take, List.length_drop]
      omega
    rw [nothing, none]
    rfl
  · -- The copy begins at the offset and is cut to the limit, as the page is.
    have start : w.lost + (q.after - w.lost) = max q.after w.lost := by omega
    rw [holds.slice (by omega), start, Window.page, List.take_eq_take_iff, List.length_drop]
    omega

/-- The page is opened at the cursor, with what is missing before it. -/
theorem opened_eq : (r.opened session q).requestedAfter = q.after ∧
    (r.opened session q).nextAfter = q.after ∧
    (r.opened session q).lostBeforePage = (w.page q.after q.maxRecords).lost := by
  have expired := holds.expired_iff named
  simp only [TraceRing.opened, Window.page]
  -- Records are missing if the oldest one is not the one behind the cursor.
  by_cases behind : q.after < w.lost
  · have some : r.count ≠ 0 := by
      intro none
      have nothing := named.kept none
      omega
    rw [if_pos (expired.mpr behind)]
    refine ⟨rfl, rfl, ?_⟩
    show r.oldest - q.after - 1 = _
    rw [holds.oldest some]
    omega
  · -- No record is missing for a cursor within the window.
    rw [if_neg fun late => behind (expired.mp late)]
    refine ⟨rfl, rfl, ?_⟩
    show 0 = _
    omega

/-- The page that is handed over is the page of the window behind the cursor. -/
theorem given_reads (small : r.capacity < 2 ^ 32) (required : Nat) :
    (({ r.opened session q with required := required } : TracePage).give (r.available q)
      (r.slice (r.offset q) (min (r.available q) q.maxRecords))).Reads w q.after
        q.maxRecords := by
  obtain ⟨requested, stays, gap⟩ := holds.opened_eq named
  rw [holds.copied_eq named small, holds.available_eq named small]
  refine ⟨requested, gap, rfl, ?_, rfl, by simp [TracePage.give]⟩
  simp only [TracePage.give, stays]
  exact holds.nextAfter q.after q.maxRecords

/-- A request is answered with that page, unless the buffer does not take it. -/
theorem page_cases (small : r.capacity < 2 ^ 32) (out : PageBuffer) {required : Nat}
    (same : min (r.available q) q.maxRecords = required) :
    (out.Takes required ∧ ∃ p, r.page session q out = (.ok, some p) ∧
        p.Reads w q.after q.maxRecords) ∨
      ¬out.Takes required ∧ (r.page session q out).1 ≠ .ok := by
  have current := holds.cursorState_eq named
  -- The cursor is current, so only the buffer can be refused.
  simp only [TraceRing.page, current, ne_eq, not_true, if_false, same]
  -- A buffer that is too small has no page written into it.
  by_cases tight : out.capacity < required
  · rw [if_pos tight]
    exact Or.inr ⟨fun takes => absurd takes.room (by omega), fun same => Status.noConfusion same⟩
  · rw [if_neg tight]
    -- A slot that is not prepared refuses the page too.
    cases refused : out.refused required with
    | some i =>
      have bad := List.find?_some refused
      have inside := List.mem_range.mp (List.mem_of_find?_eq_some refused)
      simp only [decide_eq_true_eq] at bad
      exact Or.inr ⟨fun takes => bad (takes.slots i inside), bad⟩
    -- With every slot prepared the page is the one of the window.
    | none =>
      have fine := List.find?_eq_none.mp refused
      refine Or.inl ⟨⟨by omega, fun i inside => ?_⟩, _, rfl,
        same ▸ holds.given_reads named small required⟩
      simpa using fine i (List.mem_range.mpr inside)

/-- A successful request with the ring's own names gives the page of the window behind its cursor. -/
theorem page (small : r.capacity < 2 ^ 32) {out : PageBuffer} {p : TracePage}
    (answered : r.page session q out = (.ok, some p)) : p.Reads w q.after q.maxRecords := by
  rcases holds.page_cases named small out rfl with ⟨-, given, same, reads⟩ | ⟨-, refused⟩
  · rw [answered] at same
    rw [Option.some.inj (Prod.mk.inj same).2]
    exact reads
  · rw [answered] at refused
    exact absurd rfl refused

end TraceRing.Holds

/-- A request in the form the page functions ask for. -/
structure PageRequest.Formed (q : PageRequest) (out : PageBuffer) : Prop where
  sized : q.sized = .ok
  buffer : out.sized = .ok
  few : q.maxRecords ≤ 16
  epoch : q.epoch ≠ 0
  reserved : q.reservedZero = true ∧ out.reservedZero = true
  session : q.sessionValid = true
  usable : out.capacity = 0 ∨ out.usable = true

/-- Both page functions accept just these. -/
theorem PageRequest.check_eq_ok_iff {q : PageRequest} {out : PageBuffer} :
    q.check out = .ok ↔ q.Formed out := by
  -- The checks of the function, one by one, are the fields of `Formed`.
  constructor
  · intro checked
    simp only [PageRequest.check] at checked
    -- Both sizes come first, then all the other fields in one test.
    split at checked
    · rename_i sized
      exact absurd checked sized
    · split at checked
      · rename_i sized
        exact absurd checked sized
      · split at checked
        · exact absurd checked (by decide)
        · rename_i sized outSized other
          simp only [not_or, not_and, Nat.not_lt, Bool.not_eq_false] at other
          obtain ⟨few, epoch, reserved, empty, session, usable⟩ := other
          refine ⟨not_not.mp sized, not_not.mp outSized, few, epoch, ⟨reserved, empty⟩, session, ?_⟩
          by_cases none : out.capacity = 0
          · exact Or.inl none
          · exact Or.inr (usable none)
  · intro formed
    -- No alternative of the big test holds of a formed request.
    have fine : ¬(16 < q.maxRecords ∨ q.epoch = 0 ∨ q.reservedZero = false ∨
        out.reservedZero = false ∨ q.sessionValid = false ∨
        (out.capacity ≠ 0 ∧ out.usable = false)) := by
      rintro (many | none | bad | bad | bad | ⟨some, bad⟩)
      · exact absurd formed.few (by omega)
      · exact formed.epoch none
      · exact Bool.false_ne_true (bad.symm.trans formed.reserved.1)
      · exact Bool.false_ne_true (bad.symm.trans formed.reserved.2)
      · exact Bool.false_ne_true (bad.symm.trans formed.session)
      · rcases formed.usable with none | fine
        · exact some none
        · exact Bool.false_ne_true (bad.symm.trans fine)
    rw [PageRequest.check, if_neg (not_not.mpr formed.sized), if_neg (not_not.mpr formed.buffer),
      if_neg fine]

/-- A well-formed request for a ring destination is answered by its ring. -/
theorem tracePage_formed {session : List Byte} {q : PageRequest} {out : PageBuffer}
    {d : TraceDestination} (r : TraceRing) (ring : d.isFile = false) (formed : q.Formed out) :
    tracePage session q out (some (d, r)) = r.page session q out := by
  rw [tracePage, if_neg (not_not.mpr (PageRequest.check_eq_ok_iff.mpr formed))]
  simp only [ring, Bool.false_eq_true, if_false]

/-- A page of a ring destination is one of its ring. -/
theorem tracePage_page {session : List Byte} {q : PageRequest} {out : PageBuffer}
    {d : TraceDestination} {r : TraceRing} {p : TracePage} (ring : d.isFile = false)
    (answered : tracePage session q out (some (d, r)) = (.ok, some p)) :
    r.page session q out = (.ok, some p) := by
  by_cases checked : q.check out = .ok
  · rwa [tracePage_formed r ring (PageRequest.check_eq_ok_iff.mp checked)] at answered
  · rw [tracePage, if_pos checked] at answered
    exact absurd (Prod.mk.inj answered).1 checked

/-- A well-formed request for the outcomes is answered by their ring. -/
theorem outcomePage_formed {session : List Byte} {q : PageRequest} {out : PageBuffer}
    (r : OutcomeRing) (named : q.destinationId = 0) (formed : q.Formed out) :
    outcomePage session q out r = r.view.page session q out := by
  rw [outcomePage, if_neg (not_not.mpr (PageRequest.check_eq_ok_iff.mpr formed)),
    if_neg (not_not.mpr named)]

/-- A page of the outcomes is one of their ring. -/
theorem outcomePage_page {session : List Byte} {q : PageRequest} {out : PageBuffer}
    {r : OutcomeRing} {p : TracePage} (answered : outcomePage session q out r = (.ok, some p)) :
    r.view.page session q out = (.ok, some p) := by
  -- The request has passed its check and named the ring of the outcomes.
  by_cases checked : q.check out = .ok
  · by_cases named : q.destinationId = 0
    · rwa [outcomePage_formed r named (PageRequest.check_eq_ok_iff.mp checked)] at answered
    · -- A request for another destination is answered with an error.
      rw [outcomePage, if_neg (not_not.mpr checked), if_pos named] at answered
      exact absurd (Prod.mk.inj answered).1 (by decide)
  · rw [outcomePage, if_pos checked] at answered
    exact absurd (Prod.mk.inj answered).1 checked

/-! ### Readers -/

/-- A reader that goes on where its last page ended. -/
structure Reader where
  cursor : Nat := 0
  pages : List TracePage := []

namespace Reader

variable {reader : Reader} {r : TraceRing} {w x : Window TraceRecord}

/-- The request for the next page of a ring. -/
def request (session : List Byte) (destinationId epoch limit : Nat) (reader : Reader) :
    PageRequest where
  sized := .ok
  reservedZero := true
  sessionId := some session
  destinationId := destinationId
  maxRecords := limit
  epoch := epoch
  after := reader.cursor

/-- The reader goes on behind a page it was given. -/
def take (reader : Reader) : Status × Option TracePage → Reader
  | (.ok, some page) => { cursor := page.nextAfter, pages := reader.pages ++ [page] }
  | _ => reader

/-- Everything the reader was given. -/
def received (reader : Reader) : List TraceRecord := reader.pages.flatMap TracePage.records

/--
Each page goes on where the one before it ended.

The records of a page are consecutive, and the reported loss is exactly the gap before them.
-/
def Chained : Nat → List TracePage → Nat → Prop
  | cursor, [], now => now = cursor
  | cursor, p :: rest, now =>
    p.requestedAfter = cursor ∧
      p.records.map TraceRecord.recordSequence =
        List.range' (cursor + p.lostBeforePage + 1) p.records.length ∧
      p.nextAfter = (if p.records = [] then cursor
        else cursor + p.lostBeforePage + p.records.length) ∧
      Chained p.nextAfter rest now

/-- What the paging law promises a reader of everything that was inserted. -/
structure Law (reader : Reader) (inserted : List TraceRecord) : Prop where
  gaps : Chained 0 reader.pages reader.cursor
  increasing : (reader.received.map TraceRecord.recordSequence).Pairwise (· < ·)
  unaltered : ∀ v ∈ reader.received, v ∈ inserted

/-- The reader has read windows that led to this one. -/
structure Follows (reader : Reader) (w : Window TraceRecord) : Prop where
  reading : Window.Reading 0 ⟨[], 0⟩ (reader.pages.map fun p => ⟨p.lostBeforePage, p.records⟩)
    reader.cursor w
  chained : Chained 0 reader.pages reader.cursor

/-- A new reader has read nothing of an empty window. -/
theorem Follows.start : Follows {} ⟨[], 0⟩ := ⟨.start, rfl⟩

/-- A reader keeps what it has read while the window goes on. -/
theorem Follows.grow (follows : reader.Follows w) (later : w.Extends x) : reader.Follows x :=
  ⟨follows.reading.grow later, follows.chained⟩

/-- A reader is given a page by a successful request only. -/
theorem take_cases (reader : Reader) (answer : Status × Option TracePage) :
    (∃ p, answer = (.ok, some p) ∧
        reader.take answer = { cursor := p.nextAfter, pages := reader.pages ++ [p] }) ∨
      reader.take answer = reader := by
  unfold take
  split
  · exact Or.inl ⟨_, rfl, rfl⟩
  · exact Or.inr rfl

/-- A page asked for at the cursor continues the chain of pages. -/
theorem chained_append {cursor now : Nat} {pages : List TracePage} {p : TracePage}
    (chained : Chained cursor pages now) (requested : p.requestedAfter = now)
    (numbers : p.records.map TraceRecord.recordSequence =
      List.range' (now + p.lostBeforePage + 1) p.records.length)
    (next : p.nextAfter =
      if p.records = [] then now else now + p.lostBeforePage + p.records.length) :
    Chained cursor (pages ++ [p]) p.nextAfter := by
  -- The new page is the last one, so the induction runs down the pages before it.
  induction pages generalizing cursor with
  | nil =>
    have same : now = cursor := chained
    subst same
    exact ⟨requested, numbers, next, rfl⟩
  | cons first rest ih =>
    obtain ⟨asked, counted, moved, onwards⟩ := chained
    exact ⟨asked, counted, moved, ih onwards⟩

/-- What a reader asks for names the ring, at a cursor inside its history. -/
theorem Follows.named (follows : reader.Follows w) (kept : r.count = 0 → w.lost = 0)
    {session : List Byte} {destinationId limit : Nat} :
    (reader.request session destinationId r.epoch limit).Named session r w :=
  ⟨rfl, rfl, follows.reading.inside (Nat.le_refl _), kept⟩

/--
A request whose page the buffer takes brings the reader that page; one whose page it does not take
brings nothing.
-/
structure Served (reader after : Reader) (w : Window TraceRecord) (limit : Nat) (out : PageBuffer) :
    Prop where
  given : out.Takes (w.page reader.cursor limit).entries.length →
    ∃ p, p.Reads w reader.cursor limit ∧
      after = { cursor := p.nextAfter, pages := reader.pages ++ [p] }
  refused : ¬out.Takes (w.page reader.cursor limit).entries.length → after = reader

/-- What its ring answers serves a reader. -/
theorem Follows.served (follows : reader.Follows w) (holds : r.Holds w)
    (small : r.capacity < 2 ^ 32) (kept : r.count = 0 → w.lost = 0) (session : List Byte)
    (destinationId limit : Nat) (out : PageBuffer) :
    reader.Served (reader.take
      (r.page session (reader.request session destinationId r.epoch limit) out)) w limit out := by
  -- The request names the reader's own cursor.
  have named := @Follows.named reader r w follows kept session destinationId limit
  have required : min (r.available (reader.request session destinationId r.epoch limit)) limit =
      (w.page reader.cursor limit).entries.length := holds.required_eq named small
  -- Either the buffer takes the page and the reader gets it, or it is told no.
  rcases holds.page_cases named small out required with ⟨takes, p, answered, reads⟩ | ⟨bad, refused⟩
  · refine ⟨fun _ => ⟨p, reads, ?_⟩, fun other => absurd takes other⟩
    rw [answered]
    rfl
  · -- An answer other than ok hands no page to the reader.
    refine ⟨fun takes => absurd takes bad, fun _ => ?_⟩
    generalize r.page session (reader.request session destinationId r.epoch limit) out = answer
      at refused
    obtain ⟨status, page⟩ := answer
    cases status <;> first | exact absurd rfl refused | rfl

/-- Whatever a request is answered, the reader has only read the window. -/
theorem Follows.take (follows : reader.Follows w) (holds : r.Holds w)
    (small : r.capacity < 2 ^ 32) (kept : r.count = 0 → w.lost = 0)
    {session : List Byte} {destinationId limit : Nat} {out : PageBuffer}
    {answer : Status × Option TracePage}
    (page : ∀ p, answer = (.ok, some p) →
      r.page session (reader.request session destinationId r.epoch limit) out = (.ok, some p)) :
    (reader.take answer).Follows w := by
  -- Only an answer with a page changes the reader.
  rcases reader.take_cases answer with ⟨p, answered, same⟩ | same
  · rw [same]
    have reads : p.Reads w reader.cursor limit :=
      holds.page (follows.named kept) small (page p answered)
    have numbers := holds.numbers reader.cursor limit
    -- The page lies behind the ones before it, in numbers as in records.
    refine ⟨?_, chained_append follows.chained reads.requested ?_ ?_⟩
    · rw [List.map_append, List.map_singleton, reads.lost, reads.records, reads.next]
      exact follows.reading.read limit
    · rw [reads.records, reads.lost]
      exact numbers
    · rw [reads.next, reads.records, reads.lost]
      rfl
  · rw [same]
    exact follows

/-- A reader of the window of everything inserted has what the paging law promises. -/
theorem Follows.law {epoch : Nat} (follows : reader.Follows w)
    (numbered : Numbered epoch w.history) : reader.Law w.history := by
  obtain ⟨positions, increasing, -, same⟩ := follows.reading.received (Nat.le_refl _)
  have flat : (reader.pages.map fun p => (⟨p.lostBeforePage, p.records⟩ :
      Window.Page TraceRecord)).flatMap Window.Page.entries = reader.received := by
    simp [received, List.flatMap_map]
  rw [flat] at same
  -- Each record received is the one at its position, so its number tells the position.
  have counts : reader.received.map TraceRecord.recordSequence = positions.map (· + 1) := by
    have lengths := congrArg List.length same
    rw [List.length_map, List.length_map] at lengths
    refine List.ext_getElem (by simpa using lengths) fun i inside _ => ?_
    rw [List.length_map] at inside
    have entry := congrArg (·[i]?) same
    simp only [List.getElem?_map, List.getElem?_eq_getElem inside,
      List.getElem?_eq_getElem (show i < positions.length by omega), Option.map_some,
      Option.some.injEq] at entry
    rw [List.getElem_map, List.getElem_map]
    exact (numbered _ _ entry.symm).1
  refine ⟨follows.chained, ?_, fun v member => ?_⟩
  · rw [counts, List.pairwise_map]
    exact increasing.imp Nat.succ_lt_succ
  · have found : some v ∈ positions.map fun i => w.history[i]? := by
      rw [← same]
      exact List.mem_map_of_mem member
    obtain ⟨i, -, entry⟩ := List.mem_map.mp found
    exact List.mem_of_getElem? entry

end Reader

/-! ### Runs of a ring with a reader -/

/-- The setting of a ring destination, as the configuration check admits it. -/
structure RingDestination where
  destinationId : Nat
  capacity : Nat
  stopOnFull : Bool
  least : 2 ≤ capacity
  most : capacity ≤ 4096

/-- The destination as the configuration holds it. -/
def RingDestination.destination (d : RingDestination) : TraceDestination where
  destinationId := d.destinationId
  isFile := false
  capacity := d.capacity
  stopOnFull := d.stopOnFull

/-- What happens to a ring destination within one epoch. -/
inductive RingAction where
  /-- A record is stored. -/
  | store (generation : Nat) (v : TraceRecord)
  /-- A configuration that keeps the destination flushes summaries, of at most the number expected. -/
  | replace (d : RingDestination) (generation expected : Nat) (summaries : List TraceRecord)
      (enough : summaries.length ≤ expected)
  /-- The reader asks for the page behind its cursor. -/
  | read (limit : Nat) (out : PageBuffer)

/-- A ring with a reader, and everything that was ever inserted into it. -/
structure RingRun where
  destination : RingDestination
  ring : TraceRing
  inserted : List TraceRecord := []
  reader : Reader := {}

namespace RingRun

/-- A destination is configured and a reader starts before its first record. -/
def start (d : RingDestination) : RingRun where
  destination := d
  ring := .fresh d.capacity

/-- What `ring_store` inserts for a record when it stores it. -/
def insertedBy (generation : Nat) (v : TraceRecord) (run : RingRun) : List TraceRecord :=
  let number := fun i => numbered run.ring.epoch (run.inserted.length + i)
  if run.ring.count = run.ring.capacity then
    [number 0 (run.ring.loss run.destination.destinationId generation), number 1 v]
  else [number 0 v]

/-- A record is stored, and what is inserted for it is noted. -/
def store (generation : Nat) (v : TraceRecord) (run : RingRun) : RingRun :=
  let (outcome, ring) := run.ring.store run.destination.destination generation v
  { run with
    ring := ring
    inserted :=
      if outcome = .stored then run.inserted ++ run.insertedBy generation v else run.inserted }

/--
The configuration is replaced, unless the new capacity is too small for what the ring may hold.

The summaries go into the ring with its old setting.
-/
def replace (d : RingDestination) (generation expected : Nat) (summaries : List TraceRecord)
    (run : RingRun) : RingRun :=
  if d.capacity < min (run.ring.count + expected) run.ring.capacity then run
  else
    let run := summaries.foldl (fun run v => run.store generation v) run
    { run with
      destination := { d with destinationId := run.destination.destinationId }
      ring := run.ring.moved d.capacity }

/-- The reader asks for a page. -/
def read (session : List Byte) (limit : Nat) (out : PageBuffer) (run : RingRun) : RingRun :=
  { run with
    reader := run.reader.take (tracePage session
      (run.reader.request session run.destination.destinationId run.ring.epoch limit) out
      (some (run.destination.destination, run.ring))) }

/-- One action. -/
def step (session : List Byte) (run : RingRun) : RingAction → RingRun
  | .store generation v => run.store generation v
  | .replace d generation expected summaries _ => run.replace d generation expected summaries
  | .read limit out => run.read session limit out

/-- A run of actions. -/
def after (session : List Byte) (d : RingDestination) (actions : List RingAction) : RingRun :=
  actions.foldl (fun run action => run.step session action) (start d)

/-- The window a ring holds of everything inserted. -/
def window (run : RingRun) : Window TraceRecord := ⟨run.inserted, run.ring.overwritten⟩

/-- The invariant of a run. -/
structure Sound (run : RingRun) : Prop where
  capacity : run.ring.capacity = run.destination.capacity
  epoch : run.ring.epoch = 1
  holds : run.ring.Holds run.window
  kept : run.ring.count = 0 → run.ring.overwritten = 0
  follows : run.reader.Follows run.window

/-- A run begins with an empty ring and a reader at zero. -/
theorem start_sound (d : RingDestination) : (start d).Sound where
  capacity := rfl
  epoch := rfl
  holds :=
    ⟨Nat.lt_of_lt_of_le Nat.zero_lt_two d.least, Nat.zero_le _, rfl, rfl, rfl,
      fun _ _ found => absurd found (by simp [window, start]), rfl, Nat.two_pow_pos 64⟩
  kept := fun _ => rfl
  follows := .start

namespace Sound

variable {run : RingRun} (sound : run.Sound)

include sound

/-- A ring that has gone on holding everything inserted. -/
theorem grown {ring : TraceRing} {inserted : List TraceRecord}
    (holds : ring.Holds ⟨inserted, ring.overwritten⟩)
    (later : run.window.Extends ⟨inserted, ring.overwritten⟩)
    (capacity : ring.capacity = run.ring.capacity) (epoch : ring.epoch = run.ring.epoch)
    (kept : ring.count = 0 → ring.overwritten = 0) :
    ({ run with ring := ring, inserted := inserted } : RingRun).Sound where
  capacity := capacity.trans sound.capacity
  epoch := epoch.trans sound.epoch
  holds := holds
  kept := kept
  follows := sound.follows.grow later

/-- What storing a record does to the ring and to what it holds. -/
theorem store_cases (generation : Nat) (v : TraceRecord) :
    run.store generation v = run ∧ (run.ring.next = 0 ∨ run.ring.count = run.ring.capacity ∧
        run.destination.stopOnFull = false ∧ run.ring.next = 2 ^ 64 - 1) ∨
      run.ring.count = run.ring.capacity ∧ run.destination.stopOnFull = true ∧
        run.store generation v =
          { run with ring := { run.ring with dropped := saturate run.ring.dropped 1 } } ∨
      ∃ ring, run.store generation v =
          { run with
            ring := ring
            inserted := run.inserted ++ run.insertedBy generation v } ∧
        ring.Holds ⟨run.inserted ++ run.insertedBy generation v, ring.overwritten⟩ ∧
        ring.capacity = run.ring.capacity ∧ ring.epoch = run.ring.epoch ∧
        ring.dropped = run.ring.dropped ∧
        (run.ring.count < run.ring.capacity ∧ ring.overwritten = run.ring.overwritten ∧
            ring.count = run.ring.count + 1 ∨
          run.ring.count = run.ring.capacity ∧ run.destination.stopOnFull = false ∧
            ring.overwritten = run.ring.overwritten + 2 ∧ ring.count = run.ring.count) := by
  have least := run.destination.least
  have capacity := sound.capacity
  have before := sound.holds.total
  -- The ring's own cases are carried over to the record of what was inserted.
  have cases := sound.holds.store (by omega) run.destination.destination generation v
  simp only [RingRun.store]
  generalize run.ring.store run.destination.destination generation v = answer at cases
  obtain ⟨outcome, ring⟩ := answer
  -- The outcome says which of them it is.
  cases outcome with
  -- With the numbers used up nothing is stored.
  | exhausted =>
    obtain ⟨same, used⟩ := cases
    subst same
    exact Or.inl ⟨rfl, used⟩
  -- A ring that stops on full only counts what it drops.
  | full =>
    obtain ⟨full, stops, rfl⟩ := cases
    exact Or.inr (Or.inl ⟨full, stops, rfl⟩)
  | stored =>
    refine Or.inr (Or.inr ⟨ring, rfl, ?_⟩)
    -- With room the record is the next one of the history.
    rcases cases with ⟨room, cap, epoch, dropped, holds⟩ | ⟨full, stops, cap, epoch, dropped, holds⟩
    · have lost : ring.overwritten = run.ring.overwritten := holds.lost
      have total := holds.total
      simp only [Window.push, List.length_append, List.length_singleton] at total
      have added : run.insertedBy generation v =
          [numbered run.ring.epoch run.window.history.length v] := if_neg (by omega)
      rw [added, lost]
      exact ⟨holds, cap, epoch, dropped, Or.inl ⟨room, rfl, by omega⟩⟩
    · -- Without room two entries go: a marker of the loss takes one place, the record the other.
      have lost : ring.overwritten = run.ring.overwritten + 2 := holds.lost
      have total := holds.total
      simp only [Window.push, Window.forget, List.length_append, List.length_singleton] at total
      -- The marker gets the number before the record's.
      have added : run.insertedBy generation v =
          [numbered run.ring.epoch run.window.history.length
              (run.ring.loss run.destination.destinationId generation)] ++
            [numbered run.ring.epoch (run.window.history.length + 1) v] := if_pos full
      rw [added, lost, ← List.append_assoc]
      exact ⟨holds, cap, epoch, dropped, Or.inr ⟨full, stops, rfl, by omega⟩⟩

/-- Storing a record keeps the invariant and the setting, and adds at most one to the count. -/
theorem store (generation : Nat) (v : TraceRecord) :
    (run.store generation v).Sound ∧ (run.store generation v).destination = run.destination ∧
      (run.store generation v).ring.count ≤ min (run.ring.count + 1) run.ring.capacity ∧
      (run.store generation v).ring.capacity = run.ring.capacity := by
  have bound := sound.holds.bound
  -- Three cases: nothing stored, dropped, or stored with or without a loss.
  rcases sound.store_cases generation v with ⟨same, -⟩ | ⟨full, -, same⟩ |
    ⟨ring, same, holds, capacity, epoch, -, cases⟩
  · rw [same]
    exact ⟨sound, rfl, by omega, rfl⟩
  · rw [same]
    -- The count of drops is no part of what the ring holds.
    refine ⟨⟨sound.capacity, sound.epoch, ?_, sound.kept, sound.follows⟩, rfl, ?_, rfl⟩
    · exact ⟨sound.holds.inside, sound.holds.bound, sound.holds.contents, rfl, sound.holds.total,
        sound.holds.numbered, sound.holds.next, sound.holds.fits⟩
    · show run.ring.count ≤ _
      omega
  · -- The window goes on, and the reader keeps its place.
    rw [same]
    have later : run.window.Extends ⟨run.inserted ++ run.insertedBy generation v,
        ring.overwritten⟩ := by
      refine ⟨List.prefix_append _ _, ?_⟩
      show run.ring.overwritten ≤ ring.overwritten
      omega
    refine ⟨sound.grown holds later capacity epoch ?_, rfl, ?_, capacity⟩
    · -- A ring that has lost something is full, so it is not empty.
      have kept := sound.kept
      have least := run.destination.least
      have setting := sound.capacity
      omega
    · show ring.count ≤ _
      omega

/-- Storing several records keeps the invariant, and the ring holds at most so many more. -/
theorem storeAll (generation : Nat) (summaries : List TraceRecord) :
    (summaries.foldl (fun run v => run.store generation v) run).Sound ∧
      (summaries.foldl (fun run v => run.store generation v) run).ring.count ≤
        min (run.ring.count + summaries.length) run.ring.capacity := by
  -- By induction on the records, with the run so far generalized.
  induction summaries generalizing run with
  | nil =>
    have bound := sound.holds.bound
    exact ⟨sound, by simp; omega⟩
  | cons v rest ih =>
    obtain ⟨next, -, count, capacity⟩ := sound.store generation v
    obtain ⟨last, total⟩ := ih next
    refine ⟨last, ?_⟩
    rw [List.length_cons, List.foldl_cons]
    omega

/-- Replacing the configuration keeps the ring within its new capacity. -/
theorem replace (d : RingDestination) (generation expected : Nat) (summaries : List TraceRecord)
    (enough : summaries.length ≤ expected) :
    (run.replace d generation expected summaries).Sound := by
  -- The replacement is refused if the records would not fit the new capacity.
  simp only [RingRun.replace]
  split
  · exact sound
  · rename_i admitted
    -- First the records are stored in the old ring, then what it holds is moved over.
    obtain ⟨flushed, count⟩ := sound.storeAll generation summaries
    have least := d.least
    have room : 0 < d.capacity := by omega
    have holds := flushed.holds.moved room (by omega)
    exact ⟨rfl, flushed.epoch, holds, flushed.kept, flushed.follows⟩

/-- Reading takes a page of the window. -/
theorem read (session : List Byte) (limit : Nat) (out : PageBuffer) :
    (run.read session limit out).Sound := by
  have most := run.destination.most
  have capacity := sound.capacity
  refine ⟨sound.capacity, sound.epoch, sound.holds, sound.kept, ?_⟩
  exact sound.follows.take sound.holds (by omega) sound.kept
    fun p answered => tracePage_page rfl answered

/-- Every action keeps the invariant. -/
theorem step (session : List Byte) (action : RingAction) : (run.step session action).Sound := by
  cases action with
  | store generation v => exact (sound.store generation v).1
  | replace d generation expected summaries enough =>
    exact sound.replace d generation expected summaries enough
  | read limit out => exact sound.read session limit out

end Sound

/-- Every run is sound. -/
theorem after_sound (session : List Byte) (d : RingDestination) (actions : List RingAction) :
    (after session d actions).Sound :=
  Fold.foldl_keeps (I := RingRun.Sound) (fun action _ _ sound => sound.step session action)
    (start_sound d)

end RingRun

/-! ### Runs of the outcome ring with a reader -/

namespace OutcomeRing

variable {r : OutcomeRing} {w : Window TraceRecord}

/-- Inserting an outcome is inserting into the ring it is viewed as. -/
theorem insert_view (v : TraceRecord) (epoch : v.epoch = 1) :
    (r.insert v).view = r.view.insert v := by
  have same : ({ v with epoch := 1 } : TraceRecord) = v := by
    rw [← epoch]
  simp only [insert, view, TraceRing.insert]
  rw [← epoch]

/-- Evicting an outcome is evicting from the ring it is viewed as. -/
theorem evict_view (holds : r.view.Holds w) : r.evict.view = r.view.evict := by
  have fits := holds.fits
  have total := holds.total
  have lost : r.overwritten = w.lost := holds.lost
  have counted : (if r.overwritten ≠ 2 ^ 64 - 1 then r.overwritten + 1 else r.overwritten) =
      saturate r.overwritten 1 := by
    simp only [saturate]
    split <;> omega
  simp only [evict, view, TraceRing.evict, counted]

/-- The LOSS record of outcomes belongs to their only epoch. -/
theorem loss_epoch (generation : Nat) : (r.loss generation).epoch = 1 := rfl

end OutcomeRing

/-- What happens to the outcomes of a session. -/
inductive OutcomeAction where
  | append (o : Observation)
  | read (limit : Nat) (out : PageBuffer)

/-- The outcome ring with a reader, and everything that was ever inserted into it. -/
structure OutcomeRun where
  ring : OutcomeRing := .init
  inserted : List TraceRecord := []
  reader : Reader := {}

namespace OutcomeRun

/-- The record of an outcome. -/
def recordOf (o : Observation) : TraceRecord := { epoch := 1, generation := o.generation, event := o }

/-- What is inserted for an outcome that is recorded. -/
def insertedBy (o : Observation) (run : OutcomeRun) : List TraceRecord :=
  let number := fun i => numbered 1 (run.inserted.length + i)
  if run.ring.count = outcomeCapacity then
    [number 0 (run.ring.loss o.generation), number 1 (recordOf o)]
  else [number 0 (recordOf o)]

/-- An outcome is recorded, and what is inserted for it is noted. -/
def append (o : Observation) (run : OutcomeRun) : OutcomeRun :=
  let (status, ring) := run.ring.append o
  { run with
    ring := ring
    inserted := if status = .ok then run.inserted ++ run.insertedBy o else run.inserted }

/-- One action. -/
def step (session : List Byte) (run : OutcomeRun) : OutcomeAction → OutcomeRun
  | .append o => run.append o
  | .read limit out =>
    { run with
      reader := run.reader.take
        (outcomePage session (run.reader.request session 0 1 limit) out run.ring) }

/-- A run of actions. -/
def after (session : List Byte) (actions : List OutcomeAction) : OutcomeRun :=
  actions.foldl (fun run action => run.step session action) {}

/-- The window the ring holds of everything inserted. -/
def window (run : OutcomeRun) : Window TraceRecord := ⟨run.inserted, run.ring.overwritten⟩

/-- The invariant of a run. -/
structure Sound (run : OutcomeRun) : Prop where
  holds : run.ring.view.Holds run.window
  kept : run.ring.count = 0 → run.ring.overwritten = 0
  follows : run.reader.Follows run.window

namespace Sound

variable {run : OutcomeRun} (sound : run.Sound)

include sound

/-- What recording an outcome does to the ring and to what it holds. -/
theorem append_cases (o : Observation) :
    run.append o = run ∧ (run.ring.nextSequence = 0 ∨
        run.ring.count = outcomeCapacity ∧ run.ring.nextSequence = 2 ^ 64 - 1) ∨
      ∃ ring, run.append o =
          { run with ring := ring, inserted := run.inserted ++ run.insertedBy o } ∧
        ring.view.Holds ⟨run.inserted ++ run.insertedBy o, ring.overwritten⟩ ∧
        (run.ring.count < outcomeCapacity ∧ ring.overwritten = run.ring.overwritten ∧
            ring.count = run.ring.count + 1 ∨
          run.ring.count = outcomeCapacity ∧ ring.overwritten = run.ring.overwritten + 2 ∧
            ring.count = run.ring.count) := by
  have bound : run.ring.count ≤ outcomeCapacity := sound.holds.bound
  have some : 2 ≤ outcomeCapacity := by decide
  have length : run.window.history.length = run.inserted.length := rfl
  simp only [OutcomeRun.append, OutcomeRing.append]
  -- The numbers run out before the ring does, with one or two still needed.
  by_cases used : run.ring.nextSequence = 0 ∨ 2 ^ 64 - 1 - run.ring.nextSequence <
      (if run.ring.count = outcomeCapacity then 2 else 1) - 1
  · rw [if_pos used]
    refine Or.inl ⟨rfl, ?_⟩
    by_cases unused : run.ring.nextSequence = 0
    · -- One number left is enough unless a marker is needed as well.
      exact Or.inl unused
    · right
      obtain ⟨next, small⟩ := sound.holds.next_eq unused
      have same : run.ring.nextSequence = run.window.history.length + 1 := next
      have short := used.resolve_left unused
      by_cases full : run.ring.count = outcomeCapacity
      · rw [if_pos full] at short
        exact ⟨full, by omega⟩
      · rw [if_neg full] at short
        omega
  · -- With numbers left the outcome is always stored: this ring overwrites.
    rw [if_neg used]
    right
    rw [not_or, not_lt] at used
    obtain ⟨unused, enough⟩ := used
    obtain ⟨next, small⟩ := sound.holds.next_eq unused
    have same : run.ring.nextSequence = run.window.history.length + 1 := next
    refine ⟨_, rfl, ?_⟩
    -- A full ring gives up two entries for the marker and the outcome.
    by_cases full : run.ring.count = outcomeCapacity
    · rw [if_pos full] at enough ⊢
      -- The oldest entry goes, and then the next one.
      have first := sound.holds.evict (show run.ring.view.count ≠ 0 by
        show run.ring.count ≠ 0
        omega)
      rw [← OutcomeRing.evict_view sound.holds] at first
      have second := first.evict (show run.ring.evict.view.count ≠ 0 by
        show run.ring.count - 1 ≠ 0
        omega)
      rw [← OutcomeRing.evict_view first] at second
      -- The marker takes the first of the two places.
      have lossy := second.insert
        (show run.ring.evict.evict.view.count < outcomeCapacity by
          show run.ring.count - 1 - 1 < outcomeCapacity
          omega)
        (show run.ring.evict.evict.view.next ≠ 0 from unused) (run.ring.loss o.generation)
      rw [← OutcomeRing.insert_view _ (OutcomeRing.loss_epoch _)] at lossy
      -- The outcome takes the second.
      have kept := lossy.insert
        (show (run.ring.evict.evict.insert (run.ring.loss o.generation)).view.count <
            outcomeCapacity by
          show run.ring.count - 1 - 1 + 1 < outcomeCapacity
          omega)
        (show u64 (run.ring.nextSequence + 1) ≠ 0 by simp only [u64]; omega) (recordOf o)
      rw [← OutcomeRing.insert_view _ rfl] at kept
      -- Both are numbered on from the end of the history.
      have added : run.insertedBy o =
          [numbered 1 run.window.history.length (run.ring.loss o.generation)] ++
            [numbered 1 (run.window.history.length + 1) (recordOf o)] := if_pos full
      have places : (run.window.forget.forget.push (numbered 1 run.window.history.length
          (run.ring.loss o.generation))).history.length = run.window.history.length + 1 := by
        simp [Window.push, Window.forget]
      have lost := kept.lost
      have total := kept.total
      simp only [Window.push, Window.forget, List.length_append, List.length_singleton] at total
      rw [added, ← List.append_assoc, ← places]
      -- Two entries are lost behind this, and as many are in the ring as before.
      refine ⟨?_, Or.inr ⟨full, lost, ?_⟩⟩
      · have shift : ((run.ring.evict.evict.insert (run.ring.loss o.generation)).insert
            (recordOf o)).overwritten = run.ring.overwritten + 2 := lost
        show OutcomeRing.view _ |>.Holds ⟨_, ((run.ring.evict.evict.insert
          (run.ring.loss o.generation)).insert (recordOf o)).overwritten⟩
        rw [shift]
        exact kept
      · show run.ring.count - 1 - 1 + 1 + 1 = run.ring.count
        omega
    · -- With room the outcome is the next entry.
      rw [if_neg full]
      have holds := sound.holds.insert (show run.ring.view.count < outcomeCapacity by
        show run.ring.count < outcomeCapacity
        omega) unused (recordOf o)
      rw [← OutcomeRing.insert_view _ rfl] at holds
      have added : run.insertedBy o =
          [numbered 1 run.window.history.length (recordOf o)] := if_neg full
      rw [added]
      exact ⟨holds, Or.inl ⟨by omega, rfl, rfl⟩⟩

/-- Every action keeps the invariant. -/
theorem step (session : List Byte) (action : OutcomeAction) : (run.step session action).Sound := by
  cases action with
  -- An outcome that is stored lengthens the window, and the reader keeps its place.
  | append o =>
    rcases sound.append_cases o with ⟨same, -⟩ | ⟨ring, same, holds, cases⟩
    · rw [OutcomeRun.step, same]
      exact sound
    · rw [OutcomeRun.step, same]
      have some : 2 ≤ outcomeCapacity := by decide
      have kept := sound.kept
      have later : run.window.Extends ⟨run.inserted ++ run.insertedBy o, ring.overwritten⟩ := by
        refine ⟨List.prefix_append _ _, ?_⟩
        show run.ring.overwritten ≤ ring.overwritten
        omega
      refine ⟨holds, ?_, sound.follows.grow later⟩
      show ring.count = 0 → ring.overwritten = 0
      omega
  -- A read touches the reader alone.
  | read limit out =>
    have small : outcomeCapacity < 2 ^ 32 := by decide
    exact ⟨sound.holds, sound.kept, sound.follows.take sound.holds small sound.kept
      fun p answered => outcomePage_page answered⟩

end Sound

/-- Every run is sound. -/
theorem after_sound (session : List Byte) (actions : List OutcomeAction) :
    (after session actions).Sound := by
  refine Fold.foldl_keeps (I := OutcomeRun.Sound)
    (fun action _ _ sound => sound.step session action) ⟨?_, fun _ => rfl, .start⟩
  exact ⟨by decide, Nat.zero_le _, rfl, rfl, rfl, fun _ _ found => absurd found (by simp [window]),
    rfl, Nat.two_pow_pos 64⟩

end OutcomeRun

/-! ### The paging law -/

/-- The records a ring retains, oldest first. -/
def TraceRing.retained (r : TraceRing) : List TraceRecord :=
  Ring.contents r.capacity r.records r.head r.count

/-- What a ring retains of everything that was inserted. -/
structure TraceRing.Retains (r : TraceRing) (inserted : List TraceRecord) : Prop where
  count : r.retained.length = r.count ∧ r.count ≤ r.capacity
  newestLast : r.retained = inserted.drop r.overwritten
  contiguous : r.retained.map TraceRecord.recordSequence = List.range' (r.overwritten + 1) r.count
  bounds : r.count ≠ 0 → r.oldest = r.overwritten + 1 ∧ r.newest = r.overwritten + r.count ∧
    u64 (r.newest + 1) = r.next
  /-- Sequence numbers never wrap: they are the places in the history, and these fit. -/
  unwrapped : r.overwritten + r.count = inserted.length ∧ inserted.length < 2 ^ 64

/-- What a ring holds is the end of the history, numbered on without a gap. -/
theorem TraceRing.Holds.retains {r : TraceRing} {w : Window TraceRecord} (holds : r.Holds w) :
    r.Retains w.history := by
  have lost := holds.lost
  have total := holds.total
  have contents : r.retained = w.history.drop r.overwritten := by
    rw [lost]
    exact holds.contents
  refine ⟨⟨Ring.length_contents, holds.bound⟩, contents, ?_, fun some => ?_, by omega, holds.fits⟩
  · -- The entry at a place of the ring is the one behind those lost.
    refine List.ext_getElem (by simp [TraceRing.retained]) fun i inside _ => ?_
    rw [List.length_map] at inside
    have entry : (w.history.drop r.overwritten)[i]? = some r.retained[i] := by
      rw [← contents, List.getElem?_eq_getElem inside]
    rw [List.getElem?_drop] at entry
    rw [List.getElem_map, List.getElem_range', (holds.numbered _ _ entry).1]
    omega
  · -- Oldest and newest are the numbers of the two ends.
    have newest := holds.newest some
    rw [newest]
    exact ⟨by rw [holds.oldest some, lost], by omega, holds.next.symm⟩

/-- What storing a record does to a ring that is full, and to one that is not. -/
structure RingRun.Inserts (run : RingRun) (generation : Nat) (v : TraceRecord) : Prop where
  appends : run.ring.count < run.ring.capacity → run.inserted.length + 1 < 2 ^ 64 →
    (run.store generation v).ring.retained =
      run.ring.retained ++ [numbered 1 run.inserted.length v]
  /-- The two oldest records make room for a LOSS record and the new one. -/
  overwrites : run.ring.count = run.ring.capacity → run.destination.stopOnFull = false →
    run.inserted.length + 2 < 2 ^ 64 → ∃ loss : TraceRecord, loss.kind = .loss ∧
      (run.store generation v).ring.retained = run.ring.retained.drop 2 ++
        [numbered 1 run.inserted.length loss, numbered 1 (run.inserted.length + 1) v] ∧
      (run.store generation v).ring.overwritten = run.ring.overwritten + 2
  stops : run.ring.count = run.ring.capacity → run.destination.stopOnFull = true →
    run.inserted.length + 1 < 2 ^ 64 →
      (run.store generation v).ring = { run.ring with dropped := saturate run.ring.dropped 1 }

/-- Storing a record does just what the law says of it. -/
theorem RingRun.Sound.inserts {run : RingRun} (sound : run.Sound) (generation : Nat)
    (v : TraceRecord) : run.Inserts generation v := by
  have before := sound.holds.contents
  have total := sound.holds.total
  have lostBefore := sound.holds.lost
  have next := sound.holds.next
  have length : run.window.history.length = run.inserted.length := rfl
  have gone : run.window.lost = run.ring.overwritten := rfl
  simp only [u64] at next
  -- The three cases are a ring with room, one that overwrites and one that stops.
  refine ⟨fun room fits => ?_, fun full overwrites fits => ?_, fun full stops fits => ?_⟩
  · -- With room only the last of the cases of storing is left.
    rcases sound.store_cases generation v with ⟨-, used⟩ | ⟨full, -⟩ |
      ⟨ring, same, holds, -, -, -, cases⟩
    · omega
    · omega
    · have lost : ring.overwritten = run.ring.overwritten := by omega
      have added : run.insertedBy generation v =
          [numbered run.ring.epoch run.inserted.length v] := if_neg (by omega)
      rw [sound.epoch] at added
      rw [same]
      -- The entries are the old ones and the new one.
      refine holds.contents.trans ?_
      show (run.inserted ++ run.insertedBy generation v).drop ring.overwritten = _
      rw [lost, added, List.drop_append_of_le_length (by omega)]
      exact congrArg (· ++ _) before.symm
  · -- A full ring that overwrites loses two entries and gains two.
    rcases sound.store_cases generation v with ⟨-, used⟩ | ⟨-, stops, -⟩ |
      ⟨ring, same, holds, -, -, -, cases⟩
    · omega
    · exact absurd (overwrites.symm.trans stops) Bool.false_ne_true
    · have lost : ring.overwritten = run.ring.overwritten + 2 := by omega
      have added : run.insertedBy generation v = [numbered run.ring.epoch run.inserted.length
          (run.ring.loss run.destination.destinationId generation),
          numbered run.ring.epoch (run.inserted.length + 1) v] := if_pos full
      rw [sound.epoch] at added
      have two := run.destination.least
      have setting := sound.capacity
      refine ⟨run.ring.loss run.destination.destinationId generation, rfl, ?_, by rw [same]; exact lost⟩
      rw [same]
      -- The two oldest entries have gone, and marker and record follow the rest.
      refine holds.contents.trans ?_
      show (run.inserted ++ run.insertedBy generation v).drop ring.overwritten = _
      have retained : run.ring.retained = run.inserted.drop run.ring.overwritten := before
      rw [lost, added, List.drop_append_of_le_length (by omega), retained, List.drop_drop]
  · -- A full ring that stops keeps its entries.
    rcases sound.store_cases generation v with ⟨-, used⟩ | ⟨-, -, same⟩ |
      ⟨ring, -, -, -, -, -, cases⟩
    · simp only [stops, Bool.true_eq_false, false_and, and_false, or_false] at used
      omega
    · rw [same]
    · simp only [stops, Bool.true_eq_false, false_and, and_false, or_false] at cases
      omega

/-- What recording an outcome does to a ring that is full, and to one that is not. -/
structure OutcomeRun.Inserts (run : OutcomeRun) (o : Observation) : Prop where
  appends : run.ring.count < outcomeCapacity → run.inserted.length + 1 < 2 ^ 64 →
    (run.append o).ring.view.retained =
      run.ring.view.retained ++ [numbered 1 run.inserted.length (recordOf o)]
  /-- The two oldest outcomes make room for a LOSS record and the new one. -/
  overwrites : run.ring.count = outcomeCapacity → run.inserted.length + 2 < 2 ^ 64 →
    ∃ loss : TraceRecord, loss.kind = .loss ∧
      (run.append o).ring.view.retained = run.ring.view.retained.drop 2 ++
        [numbered 1 run.inserted.length loss, numbered 1 (run.inserted.length + 1) (recordOf o)] ∧
      (run.append o).ring.overwritten = run.ring.overwritten + 2

/-- Recording an outcome does just what the law says of it. -/
theorem OutcomeRun.Sound.inserts {run : OutcomeRun} (sound : run.Sound) (o : Observation) :
    run.Inserts o := by
  have before : run.ring.view.retained = run.inserted.drop run.ring.overwritten :=
    sound.holds.contents
  have total : run.ring.overwritten + run.ring.count = run.inserted.length := sound.holds.total
  have next : run.ring.nextSequence = u64 (run.inserted.length + 1) := sound.holds.next
  simp only [u64] at next
  -- The ring of the outcomes always overwrites, so there are two cases.
  refine ⟨fun room fits => ?_, fun full fits => ?_⟩
  · rcases sound.append_cases o with ⟨-, used⟩ | ⟨ring, same, holds, cases⟩
    · omega
    · have lost : ring.overwritten = run.ring.overwritten := by omega
      have added : run.insertedBy o = [numbered 1 run.inserted.length (recordOf o)] :=
        if_neg (by omega)
      rw [same]
      -- As for a record, the entries are the old ones and the new one.
      refine holds.contents.trans ?_
      show (run.inserted ++ run.insertedBy o).drop ring.overwritten = _
      rw [lost, added, List.drop_append_of_le_length (by omega), before]
  · rcases sound.append_cases o with ⟨-, used⟩ | ⟨ring, same, holds, cases⟩
    · omega
    · have lost : ring.overwritten = run.ring.overwritten + 2 := by omega
      have two : 2 ≤ outcomeCapacity := by decide
      have added : run.insertedBy o = [numbered 1 run.inserted.length (run.ring.loss o.generation),
          numbered 1 (run.inserted.length + 1) (recordOf o)] := if_pos full
      refine ⟨run.ring.loss o.generation, rfl, ?_, by rw [same]; exact lost⟩
      rw [same]
      -- Marker and outcome follow what is left.
      refine holds.contents.trans ?_
      show (run.inserted ++ run.insertedBy o).drop ring.overwritten = _
      rw [lost, added, List.drop_append_of_le_length (by omega), before, List.drop_drop]

/-- A caller's part of a page request that is well formed. -/
structure PageBuffer.Asks (out : PageBuffer) (session : List Byte) (limit : Nat) : Prop where
  session : session.length = 32 ∧ session.all isHexDigit = true
  few : limit ≤ 16
  sized : out.sized = .ok
  reserved : out.reservedZero = true
  usable : out.capacity = 0 ∨ out.usable = true

/-- With it a reader's request is one the page functions accept. -/
theorem PageBuffer.Asks.formed {session : List Byte} {limit destinationId epoch : Nat}
    {out : PageBuffer} (asks : out.Asks session limit) (reader : Reader) (some : epoch ≠ 0) :
    (reader.request session destinationId epoch limit).Formed out where
  sized := rfl
  buffer := asks.sized
  few := asks.few
  epoch := some
  reserved := ⟨rfl, asks.reserved⟩
  session := by
    -- The session is neither empty nor longer than its field.
    rw [PageRequest.sessionValid, Reader.request]
    simp [asks.session.1, asks.session.2]
  usable := asks.usable

/-- Every well-formed request for the next page of a ring serves the reader. -/
def RingRun.Answers (session : List Byte) (run : RingRun) : Prop :=
  ∀ limit out, PageBuffer.Asks out session limit →
    run.reader.Served (run.read session limit out).reader run.window limit out

/-- A run answers every request that is in order with the page of its window. -/
theorem RingRun.Sound.answers {run : RingRun} (sound : run.Sound) (session : List Byte) :
    run.Answers session := by
  intro limit out asks
  have most := run.destination.most
  have capacity := sound.capacity
  have formed := @PageBuffer.Asks.formed session limit run.destination.destinationId
    run.ring.epoch out asks run.reader (by rw [sound.epoch]; decide)
  -- The request is well formed, so the checks pass and the ring answers.
  simp only [RingRun.read]
  rw [tracePage_formed run.ring rfl formed]
  exact sound.follows.served sound.holds (by omega) sound.kept session _ limit out

/-- Every well-formed request for the next page of the outcomes serves the reader. -/
def OutcomeRun.Answers (session : List Byte) (run : OutcomeRun) : Prop :=
  ∀ limit out, PageBuffer.Asks out session limit →
    run.reader.Served (run.step session (.read limit out)).reader run.window limit out

/-- So does a run of the outcomes. -/
theorem OutcomeRun.Sound.answers {run : OutcomeRun} (sound : run.Sound) (session : List Byte) :
    run.Answers session := by
  intro limit out asks
  have formed := @PageBuffer.Asks.formed session limit 0 1 out asks run.reader (by decide)
  simp only [OutcomeRun.step]
  rw [outcomePage_formed run.ring rfl formed]
  have small : outcomeCapacity < 2 ^ 32 := by decide
  exact sound.follows.served sound.holds small sound.kept session 0 limit out

/--
The paging law of the trace rings and of the outcome ring.

After any actions within one epoch a ring retains the newest of all records ever inserted, under
consecutive numbers. A full ring gives its two oldest records for a LOSS record and the new one, or
refuses the new one and counts it. A reader that goes on where its last page ended is given, by
every well-formed request whose page fits its buffer, the records behind its cursor up to the limit,
with its cursor moved behind them; it receives records as they were inserted, in the order of their
numbers, and is told of every gap.
-/
theorem trace_paging (session : List Byte) :
    (∀ (d : RingDestination) (actions : List RingAction),
        (RingRun.after session d actions).ring.Retains
            (RingRun.after session d actions).inserted ∧
          (RingRun.after session d actions).reader.Law
            (RingRun.after session d actions).inserted ∧
          (∀ generation v, (RingRun.after session d actions).Inserts generation v) ∧
          (RingRun.after session d actions).Answers session) ∧
      ∀ actions : List OutcomeAction,
        (OutcomeRun.after session actions).ring.view.Retains
            (OutcomeRun.after session actions).inserted ∧
          (OutcomeRun.after session actions).reader.Law
            (OutcomeRun.after session actions).inserted ∧
          (∀ o, (OutcomeRun.after session actions).Inserts o) ∧
          (OutcomeRun.after session actions).Answers session := by
  -- Both rings are read off their invariant, which holds behind any list of actions.
  refine ⟨fun d actions => ?_, fun actions => ?_⟩
  · have sound := RingRun.after_sound session d actions
    exact ⟨sound.holds.retains, sound.follows.law sound.holds.numbered, sound.inserts,
      sound.answers session⟩
  · have sound := OutcomeRun.after_sound session actions
    exact ⟨sound.holds.retains, sound.follows.law sound.holds.numbered, sound.inserts,
      sound.answers session⟩

/-- A session identity. -/
def pagedSession : List Byte := List.replicate 32 0x61#8

/-- A caller's buffer for a page. -/
def pageBuffer : PageBuffer where
  sized := .ok
  reservedZero := true
  usable := true
  capacity := 16
  slot _ := .ok

/-- The smallest ring, which overwrites. -/
def pagedDestination : RingDestination := ⟨1, 2, false, by decide, by decide⟩

/-- Two records, a page of one, two more records, and all the rest. -/
def pagedActions : List RingAction :=
  [.store 1 {}, .store 1 {}, .read 1 pageBuffer, .store 1 {}, .read 16 pageBuffer]

/--
A reader is given the first record, loses the second to the third, and is told so with the page that
brings it the LOSS record and the third.
-/
theorem trace_paging_lost :
    (RingRun.after pagedSession pagedDestination pagedActions).reader.pages.map
        (fun p => (p.lostBeforePage, p.records.map TraceRecord.recordSequence)) =
        [(0, [1]), (1, [3, 4])] ∧
      (RingRun.after pagedSession pagedDestination pagedActions).reader.cursor = 4 ∧
      (RingRun.after pagedSession pagedDestination pagedActions).reader.Law
        (RingRun.after pagedSession pagedDestination pagedActions).inserted ∧
      ∃ p : TracePage, p.Reads (RingRun.after pagedSession pagedDestination pagedActions).window 4 16 ∧
        ((RingRun.after pagedSession pagedDestination pagedActions).read pagedSession 16
          pageBuffer).reader.pages.length = 3 := by
  -- Of the law the part about the reader and the one about answers are used.
  obtain ⟨-, law, -, answers⟩ := (trace_paging pagedSession).1 pagedDestination pagedActions
  have cursor : (RingRun.after pagedSession pagedDestination pagedActions).reader.cursor = 4 := by
    decide
  have two : (RingRun.after pagedSession pagedDestination pagedActions).reader.pages.length = 2 := by
    decide
  -- The request finds sixteen slots, so it is answered with a page.
  obtain ⟨p, reads, served⟩ := (answers 16 pageBuffer
    ⟨by decide, by decide, rfl, rfl, Or.inr rfl⟩).given
      ⟨by rw [cursor]; decide, fun _ _ => rfl⟩
  refine ⟨by decide, cursor, law, p, cursor ▸ reads, ?_⟩
  rw [served, List.length_append, two]
  rfl

end Emu80535
