import Emu80535.Lib.Frames
import Emu80535.Runtime.Control

/-! The control socket hands over the frames of the client's stream, however it is split. -/

namespace Emu80535.Control

open Frames

/-! ### What a connection's events say -/

/-- What the session made of one request, and whether the client was open after it. -/
structure Outcome where
  reply : Reply
  stays : Bool
  deriving DecidableEq, Repr

/-- Whether the connection goes on after a request. -/
def Outcome.goesOn (o : Outcome) : Bool := o.reply.answered && o.stays

namespace Event

/-- The bytes the client sends. -/
def stream : Event → List Byte
  | sent bytes => bytes
  | _ => []

/-- The request handed to the session. -/
def frame? : Event → Option (List Byte)
  | asked frame _ _ => some frame
  | _ => none

/-- What the session made of it. -/
def outcome? : Event → Option Outcome
  | asked _ reply stays => some ⟨reply, stays⟩
  | _ => none

/-- The response to a request that is answered, as it is to be written. -/
def response : Event → List Byte
  | asked _ reply _ => if reply.answered then reply.bytes ++ [lineFeed] else []
  | _ => []

/-- The bytes written to the client. -/
def wire : Event → List Byte
  | wrote bytes => bytes
  | _ => []

end Event

/-- Everything the client has sent. -/
def streamed (es : List Event) : List Byte := es.flatMap Event.stream

/-- The requests handed to the session, in order. -/
def frames (es : List Event) : List (List Byte) := es.filterMap Event.frame?

/-- What the session made of them. -/
def outcomes (es : List Event) : List Outcome := es.filterMap Event.outcome?

/-- The responses to them, each with its line feed. -/
def responses (es : List Event) : List Byte := es.flatMap Event.response

/-- Everything written to the client. -/
def wired (es : List Event) : List Byte := es.flatMap Event.wire

/-- A frame that ends the connection instead of being handed over. -/
def refused (frame : List Byte) : Bool := frame.isEmpty || decide (frameBytes ≤ frame.length)

/--
The frames that are handed over, given what the session makes of each: all up to the first that is
refused, or that ends the connection by its outcome.
-/
def admitted : List (List Byte) → List Outcome → List (List Byte)
  | [], _ => []
  | f :: _, [] => if refused f then [] else [f]
  | f :: fs, o :: os =>
    if refused f then [] else f :: (if o.goesOn then admitted fs os else [])

section Admitted

variable {fs gs : List (List Byte)} {os : List Outcome}

end Admitted

section Append

variable {es fs : List Event}

/-- The stream of two histories is that of both. -/
theorem streamed_append : streamed (es ++ fs) = streamed es ++ streamed fs := List.flatMap_append

/-- So are the frames. -/
theorem frames_append : frames (es ++ fs) = frames es ++ frames fs := List.filterMap_append

/-- So are the outcomes. -/
theorem outcomes_append : outcomes (es ++ fs) = outcomes es ++ outcomes fs := List.filterMap_append

/-- So are the responses. -/
theorem responses_append : responses (es ++ fs) = responses es ++ responses fs :=
  List.flatMap_append

/-- So is what went over the wire. -/
theorem wired_append : wired (es ++ fs) = wired es ++ wired fs := List.flatMap_append

end Append

/-! ### The invariant -/

/-- What a serving slot holds of the stream and of the responses. -/
structure Serving (es : List Event) (p : Peer) : Prop where
  partial_ : lineFeed ∉ p.input ∧ p.input.length < frameBytes
  answered : ∀ o ∈ outcomes es, o.reply.answered = true
  pending : wired es ++ p.output.drop p.written = responses es
  idle : p.output = [] → p.written = 0 ∧ ∀ o ∈ outcomes es, o.goesOn = true
  busy : p.output ≠ [] → p.input = [] ∧ p.written < p.output.length ∧
    ∃ os o, outcomes es = os ++ [o] ∧ (∀ o ∈ os, o.goesOn = true) ∧ o.stays = !p.closing

/-- What is left of the received bytes once a connection is closed, and what was written. -/
def Ended (es : List Event) (socket : Socket) (rest : List Byte) : Cause → Prop
  | .emptyFrame => rest = [lineFeed] ∧ (∀ o ∈ outcomes es, o.goesOn = true) ∧
      wired es = responses es
  | .longFrame => lineFeed ∉ rest ∧ rest.length = frameBytes ∧
      (∀ o ∈ outcomes es, o.goesOn = true) ∧ wired es = responses es
  | .unanswered | .released => rest = [] ∧ wired es = responses es ∧
      ∃ os o, outcomes es = os ++ [o] ∧ (∀ o ∈ os, o.goesOn = true) ∧ o.goesOn = false
  | .streamEnd => lineFeed ∉ rest ∧ socket.incoming = [] ∧ socket.ended = true ∧
      (∀ o ∈ outcomes es, o.goesOn = true) ∧ wired es = responses es
  | .terminated | .lost => wired es <+: responses es

/-- The responses to answered requests only, each with a line feed. -/
theorem responses_of_serving {es : List Event} {p : Peer} (serving : Serving es p)
    (empty : p.output = []) : wired es = responses es := by
  have pending := serving.pending
  rwa [empty, List.drop_nil, List.append_nil] at pending

/-- What holds of a connection and the events that led to it. -/
structure Framed {σ : Type} (es : List Event) (c : Connection σ) : Prop where
  requests : ∀ f ∈ frames es, refused f = false ∧ lineFeed ∉ f
  paired : (frames es).length = (outcomes es).length
  on : ∀ o ∈ (outcomes es).dropLast, o.goesOn = true
  state : match c.slot with
    | .serving p => Serving es p ∧
        streamed es = joined lineFeed (frames es) ++ p.input ++ c.socket.incoming
    | .closed cause => ∃ rest, Ended es c.socket rest cause ∧
        streamed es = joined lineFeed (frames es) ++ rest ++ c.socket.incoming

/-! ### Receiving -/

section Receiving

open Connection

variable {s : Socket} {limit : Nat} {peeked granted : Grant} {seen bytes : List Byte}

/-- Data that is peeked at is a nonempty beginning of what is incoming, within the limit. -/
theorem peek_data (got : s.peek limit granted = .data bytes) :
    s.incoming = bytes ++ (s.consume bytes).incoming ∧ bytes.length ≤ limit ∧
      (0 < limit → bytes ≠ []) := by
  cases granted with
  -- Only a grant of bytes returns data.
  | later => exact absurd got (by simp [Socket.peek])
  | failed => exact absurd got (by simp [Socket.peek])
  | bytes count =>
    simp only [Socket.peek] at got
    -- With something to receive at least one byte is returned.
    by_cases empty : s.incoming = []
    · rw [if_pos empty] at got
      split at got <;> exact absurd got (by simp)
    · rw [if_neg empty] at got
      injection got with got
      have within : bytes.length = min (min (max 1 count) limit) s.incoming.length := by
        rw [← got, List.length_take]
      have some := List.length_pos_iff.mpr empty
      refine ⟨?_, by omega, fun more none => ?_⟩
      · exact (List.prefix_iff_eq_append.mp (got ▸ List.take_prefix _ _)).symm
      · rw [none, List.length_nil] at within
        omega

/-- `recv` returns nothing only when the client sends no more and all is received. -/
theorem peek_ended (got : s.peek limit granted = .ended) :
    s.incoming = [] ∧ s.ended = true := by
  -- An empty return needs an empty stream that has ended.
  cases granted with
  | later => exact absurd got (by simp [Socket.peek])
  | failed => exact absurd got (by simp [Socket.peek])
  | bytes count =>
    simp only [Socket.peek] at got
    split at got
    · rename_i empty
      split at got
      · rename_i finished
        exact ⟨empty, finished⟩
      · exact absurd got (by simp)
    · exact absurd got (by simp)

/-- What is taken lies within what was seen. -/
theorem takeOf_le : takeOf seen ≤ seen.length := by
  simp only [Connection.takeOf]
  split
  · rename_i i found
    exact (List.idxOf?_eq_some_iff.mp found).1
  · exact Nat.le_refl _

/-- It is a stretch without a line feed, or one and the line feed after it. -/
theorem takeOf_shape (seen : List Byte) :
    ∃ u, lineFeed ∉ u ∧
      (seen.take (takeOf seen) = u ∨ seen.take (takeOf seen) = u ++ [lineFeed]) := by
  simp only [Connection.takeOf]
  -- With a line feed in sight exactly the bytes up to it are taken.
  split
  · rename_i i found
    obtain ⟨inside, same, earlier⟩ := List.idxOf?_eq_some_iff.mp found
    refine ⟨seen.take i, fun member => ?_, Or.inr ?_⟩
    · obtain ⟨j, early, here⟩ := List.mem_take_iff_getElem.mp member
      exact earlier j (by omega) here
    · rw [List.take_succ_eq_append_getElem inside, same]
  · -- Without one all that was seen is taken.
    rename_i absent
    exact ⟨seen, List.idxOf?_eq_none_iff.mp absent, Or.inl List.take_length⟩

/-- What the two calls receive has a line feed at most at its end. -/
theorem received_shape (looked : s.peek limit peeked = .data seen)
    (got : s.peek (takeOf seen) granted = .data bytes) :
    ∃ u, lineFeed ∉ u ∧ (bytes = u ∨ bytes = u ++ [lineFeed]) := by
  obtain ⟨whole, -, -⟩ := peek_data looked
  obtain ⟨part, short, -⟩ := peek_data got
  -- The second call sees the same stream, so it gets a beginning of what was looked at.
  have begins : bytes <+: seen.take (takeOf seen) := by
    refine @List.prefix_of_prefix_length_le _ _ _ s.incoming ⟨_, part.symm⟩ ?_ ?_
    · exact (List.take_prefix _ _).trans ⟨_, whole.symm⟩
    · rwa [List.length_take, Nat.min_eq_left takeOf_le]
  -- A proper beginning has no line feed, and the whole may have one at its end.
  obtain ⟨u, bare, same | same⟩ := takeOf_shape seen
  · exact ⟨bytes, fun member => bare (same ▸ begins.mem member), Or.inl rfl⟩
  · rw [same] at begins
    rcases List.prefix_concat_iff.mp begins with all | some
    · exact ⟨u, bare, Or.inr all⟩
    · exact ⟨bytes, fun member => bare (some.mem member), Or.inl rfl⟩

end Receiving

/-! ### Steps -/

section Steps

variable {σ : Type} {service : Service σ} {es : List Event} {c : Connection σ} {p : Peer}

/-- Handing a request over is one event. -/
theorem request_asked (frame : List Byte) (p : Peer) (c : Connection σ) :
    (c.request service frame p).2 = [.asked frame (service.request frame c.session).1
      (service.clientOpen (service.request frame c.session).2)] := by
  simp only [Connection.request]
  split <;> rfl

namespace Framed

/-- What is left of a serving slot that is closed early. -/
theorem cut_off (framed : Framed es c) (serving : c.slot = .serving p) (cause : Cause)
    (early : cause = .lost ∨ cause = .terminated) :
    Framed es (c.peerClose service cause) := by
  have state := framed.state
  rw [serving] at state
  refine ⟨framed.requests, framed.paired, framed.on, p.input, ?_, state.2⟩
  have written : wired es <+: responses es := ⟨_, state.1.pending⟩
  rcases early with rfl | rfl <;> exact written

/-- Writing hands the client more of the response. -/
theorem writePeer (framed : Framed es c) (serving : c.slot = .serving p) (busy : p.output ≠ [])
    (granted : Grant) :
    Framed (es ++ (c.writePeer service granted p).2) (c.writePeer service granted p).1 := by
  -- Nothing is written, the connection is lost, or some bytes go out.
  cases granted with
  | later =>
    rw [Connection.writePeer, List.append_nil]
    exact framed
  | failed =>
    rw [Connection.writePeer, List.append_nil]
    exact framed.cut_off serving _ (Or.inl rfl)
  | bytes count =>
    have state := framed.state
    rw [serving] at state
    obtain ⟨still, split⟩ := state
    obtain ⟨empty, more, os, o, last, on, stays⟩ := still.busy busy
    -- The bytes that the kernel takes are the next ones of the response.
    let bytes := (p.output.drop p.written).take (max 1 count)
    have moved : p.output.drop p.written =
        bytes ++ p.output.drop (p.written + bytes.length) := by
      rw [← List.drop_drop]
      exact (List.prefix_iff_eq_append.mp (List.take_prefix _ _)).symm
    -- Of the five lists only the wire grows.
    have wrote : wired (es ++ [.wrote bytes]) = wired es ++ bytes := by
      rw [wired_append]
      exact congrArg _ (List.append_nil bytes)
    have streamed' : streamed (es ++ [.wrote bytes]) = streamed es := by
      rw [streamed_append]
      exact List.append_nil _
    have frames' : frames (es ++ [.wrote bytes]) = frames es := by
      rw [frames_append]
      exact List.append_nil _
    have outcomes' : outcomes (es ++ [.wrote bytes]) = outcomes es := by
      rw [outcomes_append]
      exact List.append_nil _
    have responses' : responses (es ++ [.wrote bytes]) = responses es := by
      rw [responses_append]
      exact List.append_nil _
    -- What is left of the response is pending as before.
    have pending : wired (es ++ [.wrote bytes]) ++ p.output.drop (p.written + bytes.length) =
        responses (es ++ [.wrote bytes]) := by
      rw [wrote, responses', List.append_assoc, ← moved, still.pending]
    have requests := frames' ▸ framed.requests
    have paired := (frames' ▸ outcomes' ▸ framed.paired :
      (frames (es ++ [.wrote bytes])).length = (outcomes (es ++ [.wrote bytes])).length)
    have before := outcomes' ▸ framed.on
    rw [empty, List.append_nil] at split
    -- With the whole response written the peer is served again or released.
    by_cases whole : p.written + bytes.length = p.output.length
    · have all : wired (es ++ [.wrote bytes]) = responses (es ++ [.wrote bytes]) := by
        rwa [whole, List.drop_length, List.append_nil] at pending
      -- A peer that closes is released with its last response.
      by_cases closing : p.closing = true
      · have closed : c.writePeer service (.bytes count) p =
            (c.peerClose service .released, [.wrote bytes]) := by
          simp only [Connection.writePeer, bytes] at whole ⊢
          rw [if_pos whole, if_pos closing]
        rw [closed]
        refine ⟨requests, paired, before, [], ⟨rfl, all, os, o, outcomes'.trans last, on, ?_⟩, ?_⟩
        · simp [Outcome.goesOn, stays, closing]
        · rw [streamed', frames', List.append_nil]
          exact split
      · -- Any other one goes on with an empty output.
        have open_ : c.writePeer service (.bytes count) p =
            ({ c with slot := .serving { p with output := [], written := 0 } },
              [.wrote bytes]) := by
          simp only [Connection.writePeer, bytes] at whole ⊢
          rw [if_pos whole, if_neg closing]
        rw [open_]
        refine ⟨requests, paired, before, ⟨still.partial_, ?_, ?_, fun _ => ⟨rfl, ?_⟩,
          fun some => absurd rfl some⟩, ?_⟩
        · rw [outcomes']
          exact still.answered
        · rw [List.drop_nil, List.append_nil]
          exact all
        · -- The connection went on behind every request so far.
          rw [outcomes', last]
          intro q member
          rcases List.mem_append.mp member with early | final
          · exact on q early
          · obtain rfl := List.mem_singleton.mp final
            have answered := still.answered q (last ▸ List.mem_append_right os final)
            simp [Outcome.goesOn, answered, stays, closing]
        · rw [streamed', frames', empty, List.append_nil]
          exact split
    · -- With some of it left the peer goes on writing.
      have part : c.writePeer service (.bytes count) p =
          ({ c with slot := .serving { p with written := p.written + bytes.length } },
            [.wrote bytes]) := by
        simp only [Connection.writePeer, bytes] at whole ⊢
        rw [if_neg whole]
      rw [part]
      have within : p.written + bytes.length ≤ p.output.length := by
        have left : bytes.length ≤ p.output.length - p.written := by
          rw [← List.length_drop]
          exact List.length_take_le' ..
        omega
      refine ⟨requests, paired, before, ⟨still.partial_, outcomes' ▸ still.answered, pending,
        fun none => absurd none busy, fun _ => ⟨empty, Nat.lt_of_le_of_ne within whole, os, o,
          outcomes'.trans last, on, stays⟩⟩, ?_⟩
      rw [streamed', frames', empty, List.append_nil]
      exact split

/-- Handing a request over leaves its response pending, or closes the connection. -/
theorem request {frame : List Byte} (framed : Framed es c) (serving : c.slot = .serving p)
    (empty : p.output = []) {socket : Socket} (fine : refused frame = false)
    (bare : lineFeed ∉ frame)
    (split : streamed es = joined lineFeed (frames es) ++ (frame ++ [lineFeed]) ++
      socket.incoming) :
    let done := { c with socket := socket }.request service frame p
    -- The request is handed over with all earlier responses written.
    Framed (es ++ done.2) done.1 := by
  have state := framed.state
  rw [serving] at state
  have still := state.1
  have written := responses_of_serving still empty
  have on := (still.idle empty).2
  intro done
  let answer := service.request frame c.session
  let stays := service.clientOpen answer.2
  -- One event tells the frame and its answer, and all lists follow from it.
  have asked : done.2 = [.asked frame answer.1 stays] := request_asked ..
  have frames' : frames (es ++ done.2) = frames es ++ [frame] := by
    rw [asked, frames_append]
    rfl
  have outcomes' : outcomes (es ++ done.2) = outcomes es ++ [⟨answer.1, stays⟩] := by
    rw [asked, outcomes_append]
    rfl
  have wired' : wired (es ++ done.2) = wired es := by
    rw [asked, wired_append]
    exact List.append_nil _
  have streamed' : streamed (es ++ done.2) =
      joined lineFeed (frames (es ++ done.2)) ++ socket.incoming := by
    -- The stream is that of the frames and the line feeds behind them.
    rw [frames', joined_concat, asked, streamed_append, split]
    simp [streamed, Event.stream]
  -- The frame has been found fine before.
  have requests : ∀ f ∈ frames (es ++ done.2), refused f = false ∧ lineFeed ∉ f := by
    rw [frames']
    intro f member
    rcases List.mem_append.mp member with early | final
    · exact framed.requests f early
    · obtain rfl := List.mem_singleton.mp final
      exact ⟨fine, bare⟩
  have paired : (frames (es ++ done.2)).length = (outcomes (es ++ done.2)).length := by
    rw [frames', outcomes', List.length_append, List.length_append, framed.paired]
    rfl
  -- The connection had gone on behind all requests before this one.
  have before : ∀ o ∈ (outcomes (es ++ done.2)).dropLast, o.goesOn = true := by
    rw [outcomes', List.dropLast_concat]
    exact on
  -- An answered request leaves its response to be written; an unanswered one closes.
  by_cases answered : answer.1.answered = true
  · have responses' : responses (es ++ done.2) =
        responses es ++ (answer.1.bytes ++ [lineFeed]) := by
      rw [asked, responses_append]
      simp [responses, Event.response, answered]
    have slot : done.1.slot = .serving { p with
        input := []
        output := answer.1.bytes ++ [lineFeed]
        written := 0
        hello := service.clientReady answer.2
        closing := !service.clientOpen answer.2 } := by
      show Connection.slot (if answer.1.answered = true then _ else _ : _ × List Event).1 = _
      rw [if_pos answered]
    have same : done.1.socket = socket := by
      show Connection.socket (if answer.1.answered = true then _ else _ : _ × List Event).1 = _
      rw [if_pos answered]
    refine ⟨requests, paired, before, ?_⟩
    rw [slot, same]
    -- The response is pending, and nothing of it is written.
    refine ⟨⟨⟨by simp, by simp [frameBytes]⟩, ?_, ?_, fun none => absurd none (by simp),
      fun _ => ⟨rfl, by simp, outcomes es, ⟨answer.1, stays⟩, outcomes', on, ?_⟩⟩, ?_⟩
    · rw [outcomes']
      intro o member
      rcases List.mem_append.mp member with early | final
      · exact still.answered o early
      · obtain rfl := List.mem_singleton.mp final
        exact answered
    · rw [wired', responses', written, List.drop_zero]
    · exact (Bool.not_not _).symm
    · rw [List.append_nil]
      exact streamed'
  · -- The slot is closed, with nothing to be written any more.
    have slot : done.1.slot = .closed .unanswered := by
      show Connection.slot (if answer.1.answered = true then _ else _ : _ × List Event).1 = _
      rw [if_neg answered]
      rfl
    have same : done.1.socket = socket := by
      show Connection.socket (if answer.1.answered = true then _ else _ : _ × List Event).1 = _
      rw [if_neg answered]
      rfl
    have responses' : responses (es ++ done.2) = responses es := by
      rw [asked, responses_append]
      simp [responses, Event.response, answered]
    refine ⟨requests, paired, before, ?_⟩
    rw [slot, same]
    refine ⟨[], ⟨rfl, by rw [wired', responses', written], outcomes es, ⟨answer.1, stays⟩, outcomes',
      on, ?_⟩, ?_⟩
    · simp [Outcome.goesOn, answered]
    · rw [List.append_nil]
      exact streamed'

/-- Reading consumes part of a frame, or the rest of one and what ends it. -/
theorem readPeer (framed : Framed es c) (serving : c.slot = .serving p) (empty : p.output = [])
    (peeked granted : Grant) :
    Framed (es ++ (c.readPeer service peeked granted p).2)
      (c.readPeer service peeked granted p).1 := by
  have state := framed.state
  rw [serving] at state
  obtain ⟨still, split⟩ := state
  have written := responses_of_serving still empty
  have on := (still.idle empty).2
  obtain ⟨bare, short⟩ := still.partial_
  have finished : ∀ limit granted, c.socket.peek limit granted = .ended →
      Framed (es ++ []) (c.peerClose service .streamEnd) := by
    intro limit granted got
    obtain ⟨none, ended⟩ := peek_ended got
    rw [List.append_nil]
    exact ⟨framed.requests, framed.paired, framed.on, p.input, ⟨bare, none, ended, on, written⟩, split⟩
  simp only [Connection.readPeer]
  split
  · simpa using framed
  · simpa using framed.cut_off serving _ (Or.inl rfl)
  · rename_i got
    exact finished _ _ got
  · rename_i seen looked
    split
    · simpa using framed
    · simpa using framed.cut_off serving _ (Or.inl rfl)
    · rename_i got
      exact finished _ _ got
    · rename_i bytes got
      obtain ⟨u, clean, shape⟩ := received_shape looked got
      obtain ⟨whole, taken, -⟩ := peek_data got
      obtain ⟨-, limited, -⟩ := peek_data looked
      have room : bytes.length ≤ frameBytes - p.input.length :=
        Nat.le_trans (Nat.le_trans taken takeOf_le) limited
      rw [whole] at split
      rcases shape with rfl | rfl
      · -- The frame goes on.
        have none : lineFeed ∉ p.input ++ bytes := by simp [bare, clean]
        have last : (p.input ++ bytes).getLast? ≠ some lineFeed := fun same =>
          none (List.mem_of_getLast? same)
        rw [if_pos last]
        have split' : streamed es = joined lineFeed (frames es) ++ (p.input ++ bytes) ++
            (c.socket.consume bytes).incoming := by
          rw [split]
          simp only [List.append_assoc]
        by_cases full : (p.input ++ bytes).length = frameBytes
        · rw [if_pos full, List.append_nil]
          exact ⟨framed.requests, framed.paired, framed.on, p.input ++ bytes,
            ⟨none, full, on, written⟩, split'⟩
        · rw [if_neg full, List.append_nil]
          refine ⟨framed.requests, framed.paired, framed.on, ⟨⟨none, ?_⟩, still.answered, still.pending,
            still.idle, fun some => absurd empty some⟩, split'⟩
          rw [List.length_append] at full ⊢
          omega
      · -- The frame ends.
        have last : ¬(p.input ++ (u ++ [lineFeed])).getLast? ≠ some lineFeed := by
          rw [← List.append_assoc]
          simp
        rw [if_neg last]
        have split' : streamed es = joined lineFeed (frames es) ++
            (p.input ++ u ++ [lineFeed]) ++ (c.socket.consume (u ++ [lineFeed])).incoming := by
          rw [split]
          simp only [List.append_assoc]
        by_cases bare_frame : (p.input ++ (u ++ [lineFeed])).length = 1
        · rw [if_pos bare_frame, List.append_nil]
          have nothing : p.input ++ u = [] := by
            rw [← List.length_eq_zero_iff]
            simp only [List.length_append, List.length_singleton] at bare_frame ⊢
            omega
          rw [nothing] at split'
          exact ⟨framed.requests, framed.paired, framed.on, [lineFeed], ⟨rfl, on, written⟩, split'⟩
        · rw [if_neg bare_frame]
          have frame : (p.input ++ (u ++ [lineFeed])).dropLast = p.input ++ u := by
            rw [← List.append_assoc, List.dropLast_concat]
          rw [frame]
          refine framed.request serving empty ?_ (by simp [bare, clean]) split'
          simp only [List.length_append, List.length_singleton] at bare_frame room
          simp only [refused, Bool.or_eq_false_iff, List.isEmpty_eq_false_iff,
            decide_eq_false_iff_not, Nat.not_le]
          refine ⟨fun nothing => ?_, ?_⟩
          · have zero := congrArg List.length nothing
            simp only [List.length_append, List.length_nil] at zero
            omega
          · rw [List.length_append]
            omega

/-- What the loop does for a peer after `poll`. -/
theorem serve (framed : Framed es c) (ready : Connection.Ready) (peeked granted : Grant) :
    Framed (es ++ (c.serve service ready peeked granted).2)
      (c.serve service ready peeked granted).1 := by
  -- A closed slot is not served.
  cases slot : c.slot with
  | closed cause =>
    simp only [Connection.serve, slot, List.append_nil]
    exact framed
  | serving p =>
    -- Errors come first, then writing, then reading.
    simp only [Connection.serve, slot]
    split
    · simpa using framed.cut_off slot _ (Or.inl rfl)
    · split
      · rename_i output
        exact framed.writePeer slot output.2 granted
      · split
        · rename_i input
          exact framed.readPeer slot input.2 peeked granted
        · simpa using framed

/-- Every step keeps the invariant. -/
theorem step {fs : List Event} {d : Connection σ} (framed : Framed es c)
    (step : Connection.Step service c fs d) : Framed (es ++ fs) d := by
  -- The client sends or ends, the loop serves or sweeps, or another connection has a turn.
  cases step with
  -- The stream grows by what is sent, and nothing else does.
  | send bytes more =>
    have frames' : frames (es ++ [.sent bytes]) = frames es := by
      rw [frames_append]
      exact List.append_nil _
    have outcomes' : outcomes (es ++ [.sent bytes]) = outcomes es := by
      rw [outcomes_append]
      exact List.append_nil _
    have responses' : responses (es ++ [.sent bytes]) = responses es := by
      rw [responses_append]
      exact List.append_nil _
    have wired' : wired (es ++ [.sent bytes]) = wired es := by
      rw [wired_append]
      exact List.append_nil _
    have streamed' : streamed (es ++ [.sent bytes]) = streamed es ++ bytes := by
      rw [streamed_append]
      exact congrArg _ (List.append_nil bytes)
    refine ⟨frames' ▸ framed.requests, by rw [frames', outcomes', framed.paired],
      outcomes' ▸ framed.on, ?_⟩
    have state := framed.state
    -- What has not been received stays the rest of the stream.
    cases slot : c.slot with
    | serving p =>
      rw [slot] at state
      obtain ⟨still, split⟩ := state
      refine ⟨⟨still.partial_, outcomes' ▸ still.answered, ?_, outcomes' ▸ still.idle,
        outcomes' ▸ still.busy⟩, ?_⟩
      · rw [wired', responses', still.pending]
      · rw [streamed', frames', split, List.append_assoc]
    -- A closed connection ignores it, unless it was closed for the end of the stream.
    | closed cause =>
      rw [slot] at state
      obtain ⟨rest, ended, split⟩ := state
      refine ⟨rest, ?_, by rw [streamed', frames', split, List.append_assoc]⟩
      cases cause with
      | streamEnd => exact absurd ended.2.2.1 (by rw [more]; exact Bool.false_ne_true)
      | _ =>
        simp only [Ended, outcomes', wired', responses'] at ended ⊢
        exact ended
  -- Ending the stream changes nothing that was received.
  | finish =>
    rw [List.append_nil]
    refine ⟨framed.requests, framed.paired, framed.on, ?_⟩
    have state := framed.state
    cases slot : c.slot with
    | serving p =>
      rw [slot] at state
      exact state
    | closed cause =>
      rw [slot] at state
      obtain ⟨rest, ended, split⟩ := state
      refine ⟨rest, ?_, split⟩
      cases cause with
      | streamEnd => exact ⟨ended.1, ended.2.1, rfl, ended.2.2.2⟩
      | _ => exact ended
  | serve ready peeked granted => exact framed.serve ready peeked granted
  -- The sweep closes a connection that was told to close.
  | sweep =>
    rw [List.append_nil]
    cases slot : c.slot with
    | closed cause =>
      simp only [Connection.sweep, slot]
      exact framed
    | serving p =>
      simp only [Connection.sweep, slot]
      split
      · exact framed.cut_off slot _ (Or.inr rfl)
      · exact framed
  -- Another connection's request touches the service only.
  | elsewhere session =>
    rw [List.append_nil]
    exact ⟨framed.requests, framed.paired, framed.on, framed.state⟩

/-- The invariant holds of every run. -/
theorem run (run : Connection.Run service es c) : Framed es c := by
  induction run with
  | accepted session =>
    exact ⟨by simp [frames], rfl, by simp [outcomes],
      ⟨⟨by simp, by simp [frameBytes]⟩, by simp [outcomes], rfl, fun _ => ⟨rfl, by simp [outcomes]⟩,
        fun some => absurd rfl some⟩, rfl⟩
  | step _ taken framed => exact framed.step taken

end Framed

end Steps

/-! ### Settled connections -/

section Settled

variable {σ : Type} {service : Service σ} {es : List Event} {c : Connection σ}

/-- A connection that has done all it can: idle with nothing to read, or closed by its stream. -/
def Settled (c : Connection σ) : Prop :=
  match c.slot with
  | .serving p => p.output = [] ∧ c.socket.incoming = []
  | .closed cause => cause ≠ .lost ∧ cause ≠ .terminated

namespace Framed

/-- All frames that were handed over are fine. -/
theorem fine (framed : Framed es c) : ∀ f ∈ frames es, refused f = false :=
  fun f member => (framed.requests f member).1

end Framed

/-! ### One request at a time -/

/-- Serving a peer for which the kernel grants so many bytes at least. -/
def pass (service : Service σ) (counts : Nat × Nat) (c : Connection σ) : Connection σ :=
  (c.serve service ⟨false, true, true⟩ (.bytes counts.1) (.bytes counts.2)).1

end Settled

/-! ### Framing -/

section Framing

variable {σ : Type} {service : Service σ} {es : List Event} {c : Connection σ}

end Framing

end Emu80535.Control
